import BoiOS.Fs.DirectoryContent
import BoiOS.Fs.DirectorySearch
import BoiOS.Fs.Mounting

/-! Loaded directories. The records of a directory are read into one allocation, which keeps them, and
the count comes with them. -/
namespace BoiOS
open Library.StateRun

/-- A directory of the disk: where it lies and for how many records it has room there; where the driver
looks for it, how many records the scan counts from there on, and what is loaded into the array. -/
structure DirectoryRegion where
  position : Nat
  places : Nat
  start : Int
  count : Int
  loaded : Nat
  array : List UInt8

/-- A record of the array, which was cleared before the bytes were read into it. -/
def DirectoryRegion.record (r : DirectoryRegion) (j : Nat) : List UInt8 :=
  (List.range sizeofFatDirectoryItem).map fun i => r.array.getD (sizeofFatDirectoryItem * j + i) 0

def rootRegion (disk : Disk) (p : FatPrivate) : Except Stop DirectoryRegion := do
  let sector := p.header.fatCopies * p.header.sectorsPerFat + p.header.reservedSectors
  let count ← scanCount disk sector
  let array ← streamRead disk (i32 (sector * 512 : Nat)) (32 * p.header.rootEntries : Nat)
  pure ⟨512 * sector, p.header.rootEntries, i32 (sector * 512 : Nat), count, p.header.rootEntries,
    array⟩

def clusterRead (disk : Disk) (p : FatPrivate) (cluster : Nat) (total : Int) :
    Except Stop (Int × List UInt8) :=
  if clusterBytes p = 0 then .error .divided
  else performSteps disk (readSteps disk p cluster 0 total)

def clusterRegion (disk : Disk) (p : FatPrivate) (cluster : Nat) : Except Stop DirectoryRegion := do
  let count ← scanCount disk (u32 (fat16ClusterToSector p cluster))
  let (_, array) ← clusterRead disk p cluster (i32 (count * 32))
  pure ⟨volumePosition p.header cluster, clusterBytes p / 32, clusterPosition p cluster 0, count,
    count.toNat, array⟩

structure Kernel.VolumeOpen (k : Kernel) (p : FatPrivate) : Prop where
  sectorSize : k.disk.sectorSize = 512
  fsPrivate : k.disk.fsPrivate = some p
  fatStream : p.fatReadStream ≠ 0
  fatOpened : (k.streams p.fatReadStream).isSome
  clusterOpened : (k.streams p.clusterReadStream).isSome
  directoryOpened : (k.streams p.directoryStream).isSome

def Kernel.arrayRecord (k : Kernel) (d : FatDirectory) (j : Nat) : List UInt8 :=
  k.memory.recordBytes (recordAddress d.item j)

/-- A directory that was loaded: the root directory of a volume, or that of a record in memory that
is not allocated anew. -/
inductive DirectoryLoad (k₀ : Kernel) : DirectoryRegion → FatDirectory → Kernel → Prop
  | root {p : FatPrivate} {r : DirectoryRegion} {old d : FatDirectory} {k₁ : Kernel} :
      k₀.disk.fsPrivate = some p → p.header.Bounded → rootRegion k₀.disk p = .ok r →
      fat16GetRootDirectory p old k₀ = .ok ((allOk, d), k₁) → DirectoryLoad k₀ r d k₁
  | subdirectory {p : FatPrivate} {r : DirectoryRegion} {Q : Set Int} {item directory : Nat}
      {d : FatDirectory} {k₁ : Kernel} :
      k₀.VolumeOpen p → p.header.Bounded → k₀.heap.Guards Q →
      k₀.KeptBytes Q item sizeofFatDirectoryItem →
      clusterRegion k₀.disk p (fat16GetFirstCluster k₀.memory item) = .ok r →
      fat16LoadFatDirectory item k₀ = .ok (directory, k₁) → directory ≠ 0 →
      k₁.fatDirectories directory = some d → DirectoryLoad k₀ r d k₁

theorem Kernel.VolumeOpen.moved {k k' : Kernel} {p : FatPrivate} (h : k.VolumeOpen p)
    (hdisk : k'.disk = k.disk) (hopen : k.KeepsOpen k') : k'.VolumeOpen p where
  sectorSize := by rw [hdisk, h.sectorSize]
  fsPrivate := by rw [hdisk, h.fsPrivate]
  fatStream := h.fatStream
  fatOpened := hopen _ h.fatOpened
  clusterOpened := hopen _ h.clusterOpened
  directoryOpened := hopen _ h.directoryOpened

theorem Kernel.VolumeOpen.readable {k : Kernel} {p : FatPrivate} (h : k.VolumeOpen p)
    (hpos : 0 < p.header.sectorsPerCluster) : Readable k p :=
  ⟨⟨h.sectorSize, h.fsPrivate, h.fatStream, Option.isSome_iff_exists.mp h.fatOpened, hpos⟩,
    h.clusterOpened⟩

theorem fat16ReadInternal_clusterRead {k : Kernel} {p : FatPrivate} (h : k.VolumeOpen p)
    (cluster : Nat) (total : Int) : Computes Kernel.StreamsMoved k (fat16ReadInternal cluster 0 total)
      (clusterRead k.disk p cluster total) := by
  unfold clusterRead
  by_cases hzero : clusterBytes p = 0
  · rw [if_pos hzero]
    have hsize : sizeOfClusterBytes p k.disk = 0 := by
      unfold clusterBytes at hzero
      unfold sizeOfClusterBytes
      rw [h.sectorSize]
      omega
    have hstop : fat16GetClusterForOffset cluster 0 k = .error .divided := by
      unfold fat16GetClusterForOffset
      rw [bind_of_ok (get_apply k), bind_of_ok (fatPrivate_apply h.fsPrivate), hsize, if_pos rfl]
      rfl
    unfold fat16ReadInternal
    refine .read (fatPrivate_apply h.fsPrivate) ?_
    unfold fat16ReadInternalFromStream
    refine .read (get_apply k) (.read (fatPrivate_apply h.fsPrivate) ?_)
    exact bind_of_error hstop _
  · rw [if_neg hzero]
    have hpos : 0 < p.header.sectorsPerCluster := by
      unfold clusterBytes at hzero
      omega
    exact fat16ReadInternal_computes (h.readable hpos) cluster 0 total

theorem rootRegion_eq_ok {disk : Disk} {p : FatPrivate} {r : DirectoryRegion} :
    rootRegion disk p = .ok r ↔ ∃ count array,
      scanCount disk (p.header.fatCopies * p.header.sectorsPerFat + p.header.reservedSectors) =
        .ok count ∧
      streamRead disk (i32 ((p.header.fatCopies * p.header.sectorsPerFat +
        p.header.reservedSectors) * 512 : Nat)) (32 * p.header.rootEntries : Nat) = .ok array ∧
      r = ⟨512 * (p.header.fatCopies * p.header.sectorsPerFat + p.header.reservedSectors),
        p.header.rootEntries, i32 ((p.header.fatCopies * p.header.sectorsPerFat +
        p.header.reservedSectors) * 512 : Nat), count, p.header.rootEntries, array⟩ := by
  unfold rootRegion
  rw [outcome_bind_eq_ok]
  constructor
  · rintro ⟨count, hcount, h⟩
    obtain ⟨array, harray, h⟩ := outcome_bind_eq_ok.mp h
    exact ⟨count, array, hcount, harray, (Except.ok.inj h).symm⟩
  · rintro ⟨count, array, hcount, harray, rfl⟩
    exact ⟨count, hcount, outcome_bind_eq_ok.mpr ⟨array, harray, rfl⟩⟩

theorem clusterRegion_eq_ok {disk : Disk} {p : FatPrivate} {cluster : Nat} {r : DirectoryRegion} :
    clusterRegion disk p cluster = .ok r ↔ ∃ count response array,
      scanCount disk (u32 (fat16ClusterToSector p cluster)) = .ok count ∧
      clusterRead disk p cluster (i32 (count * 32)) = .ok (response, array) ∧
      r = ⟨volumePosition p.header cluster, clusterBytes p / 32, clusterPosition p cluster 0, count,
        count.toNat, array⟩ := by
  unfold clusterRegion
  rw [outcome_bind_eq_ok]
  constructor
  · rintro ⟨count, hcount, h⟩
    obtain ⟨⟨response, array⟩, harray, h⟩ := outcome_bind_eq_ok.mp h
    exact ⟨count, response, array, hcount, harray, (Except.ok.inj h).symm⟩
  · rintro ⟨count, response, array, hcount, harray, rfl⟩
    exact ⟨count, hcount, outcome_bind_eq_ok.mpr ⟨(response, array), harray, rfl⟩⟩

structure RootSteps (p : FatPrivate) (d : FatDirectory) (k k₁ k₂ k₃ k₄ k' : Kernel)
    (bytes : List UInt8) : Prop where
  counted : fat16GetTotalItemsForDirectory (p.header.fatCopies * p.header.sectorsPerFat +
    p.header.reservedSectors) k = .ok (d.totalItems, k₁)
  records : kzalloc (p.header.rootEntries * sizeofFatDirectoryItem) k₁ = .ok (d.item, k₂)
  ne_zero : d.item ≠ 0
  sought : diskstreamerSeek p.directoryStream (fat16SectorToAbsolute k.disk
    (p.header.fatCopies * p.header.sectorsPerFat + p.header.reservedSectors : Nat)) k₂ = .ok (allOk, k₃)
  read : diskstreamerRead p.directoryStream (p.header.rootEntries * sizeofFatDirectoryItem : Nat) k₃ =
    .ok ((allOk, bytes), k₄)
  stored : storeBytes d.item bytes k₄ = .ok ((), k')

theorem fat16GetRootDirectory_steps {p : FatPrivate} {old d : FatDirectory} {k k' : Kernel}
    (hrun : fat16GetRootDirectory p old k = .ok ((allOk, d), k')) :
    ∃ k₁ k₂ k₃ k₄ bytes, RootSteps p d k k₁ k₂ k₃ k₄ k' bytes := by
  unfold fat16GetRootDirectory at hrun
  replace hrun := bind_get_eq_ok.mp hrun
  obtain ⟨totalItems, k₁, htotal, hrun⟩ := bind_eq_ok.mp hrun
  obtain ⟨dir, k₂, halloc, hrun⟩ := bind_eq_ok.mp hrun
  by_cases hnull : dir = 0
  · rw [if_pos hnull] at hrun
    exact absurd (Prod.mk.inj (pure_eq_ok.mp hrun).1).1 (by decide)
  rw [if_neg hnull] at hrun
  obtain ⟨response₃, k₃, hseek, hrun⟩ := bind_eq_ok.mp hrun
  -- an error answers no directory
  have herror : ∀ {k₄ : Kernel}, (do kfree dir; pure (-eio, old)) k₄ ≠ .ok ((allOk, d), k') := by
    intro k₄ hrun
    obtain ⟨_, k₅, -, hrun⟩ := bind_eq_ok.mp hrun
    exact absurd (Prod.mk.inj (pure_eq_ok.mp hrun).1).1 (by decide)
  by_cases hfailed₃ : response₃ ≠ allOk
  · rw [if_pos hfailed₃] at hrun
    exact absurd hrun herror
  rw [if_neg hfailed₃] at hrun
  obtain ⟨⟨response₄, bytes⟩, k₄, hread, hrun⟩ := bind_eq_ok.mp hrun
  dsimp only at hrun
  obtain ⟨_, k₅, hstore, hrun⟩ := bind_eq_ok.mp hrun
  by_cases hfailed₄ : response₄ ≠ allOk
  · rw [if_pos hfailed₄] at hrun
    exact absurd hrun herror
  rw [if_neg hfailed₄] at hrun
  obtain ⟨hresult, rfl⟩ := pure_eq_ok.mp hrun
  obtain ⟨-, rfl⟩ := Prod.mk.inj hresult
  rw [not_not.mp hfailed₃] at hseek
  rw [not_not.mp hfailed₄] at hread
  exact ⟨k₁, k₂, k₃, k₄, bytes, htotal, halloc, hnull, hseek, hread, hstore⟩

theorem fat16LoadFatDirectory_loaded {P : Set Int} {k k' : Kernel} {item directory : Nat}
    {d : FatDirectory} (h : k.heap.Guards P)
    (hrun : fat16LoadFatDirectory item k = .ok (directory, k')) (hne : directory ≠ 0)
    (hd : k'.fatDirectories directory = some d) :
    ∃ p k₁ k₂ k₃ k₄ bytes, LoadSteps p item k k₁ k₂ k₃ directory d.item d.totalItems ∧ d.item ≠ 0 ∧
      fat16ReadInternal (fat16GetFirstCluster k₁.memory item) 0
        (i32 (d.totalItems * sizeofFatDirectoryItem))
        (loadedKernel k₃ directory d.item d.totalItems) = .ok ((allOk, bytes), k₄) ∧
      storeBytes d.item bytes k₄ = .ok ((), k') ∧ k'.heap = k₃.heap := by
  cases fat16LoadFatDirectory_result hrun with
  | refused => exact absurd rfl hne
  | noDirectory _ => exact absurd rfl hne
  | noRecords _ hfree =>
    rw [fat16FreeDirectory_gone hne hfree] at hd
    cases hd
  | failed _ _ _ _ _ hfree =>
    rw [fat16FreeDirectory_gone hne hfree] at hd
    cases hd
  | loaded hsteps hitems hread hstore =>
    obtain ⟨hframe, -⟩ := hsteps.frame h
    obtain ⟨-, hheap, hentry⟩ := load_read_frame hframe.guards hread hstore
    obtain rfl := Option.some.inj (hentry.symm.trans hd)
    exact ⟨_, _, _, _, _, _, hsteps, hitems, hread, hstore, hheap⟩

/-! What a load leaves. -/

/-- The array is an allocation, which holds the records of the region, and the heap is as it was after
it; the count comes with it. -/
structure ArrayLoaded (k₀ : Kernel) (r : DirectoryRegion) (d : FatDirectory) (k₁ : Kernel) : Prop where
  disk : k₁.disk = k₀.disk
  count : d.totalItems = r.count
  ne_zero : d.item ≠ 0
  size : 32 * r.loaded ≤ 2147483648
  record : ∀ j < r.loaded, k₁.arrayRecord d j = r.record j
  allocated : ∃ k₂ k₃, k₂.heap.WellFormed ∧ kzalloc (32 * r.loaded) k₂ = .ok (d.item, k₃) ∧
    k₁.heap = k₃.heap

theorem storeBytes_record {k k₁ k₂ k₃ : Kernel} {ptr n j : Nat} {bytes : List UInt8} {u : Unit}
    (halloc : kzalloc (32 * n) k = .ok (ptr, k₁)) (hptr : ptr ≠ 0) (hsize : 32 * n ≤ 2147483648)
    (hmemory : k₂.memory = k₁.memory) (hstore : storeBytes ptr bytes k₂ = .ok (u, k₃)) (hj : j < n) :
    k₃.memory.recordBytes (recordAddress ptr j) =
      (List.range sizeofFatDirectoryItem).map fun i =>
        bytes.getD (sizeofFatDirectoryItem * j + i) 0 := by
  have hstored : k₃.memory = (k.memory.clear ptr (32 * n)).copyIn ptr bytes := by
    obtain ⟨-, hk₁⟩ := kzalloc_eq_ok halloc
    have hcleared : k₂.memory = k.memory.clear ptr (32 * n) := by
      rw [hmemory, hk₁]
      exact if_neg hptr
    unfold storeBytes at hstore
    split_ifs at hstore with hempty
    · rw [← (pure_eq_ok.mp hstore).2, hempty, Memory.copyIn_nil, hcleared]
    · rw [← modify_eq_ok.mp hstore, hcleared]
  refine List.map_congr_left fun i hi => ?_
  have hlt := List.mem_range.mp hi
  unfold sizeofFatDirectoryItem at hlt
  have haddress : u32 ((recordAddress ptr j : Int) + i) =
      u32 ((ptr : Int) + (sizeofFatDirectoryItem * j + i : Nat)) := by
    unfold recordAddress sizeofFatDirectoryItem u32
    omega
  rw [haddress, hstored]
  exact Memory.copyIn_clear _ _ (by unfold sizeofFatDirectoryItem; omega) (by omega) _

theorem rootLoaded {k₀ k₁ : Kernel} {p : FatPrivate} {r : DirectoryRegion} {old d : FatDirectory}
    (h : k₀.heap.WellFormed) (hsector : k₀.disk.sectorSize = 512) (hbounded : p.header.Bounded)
    (hregion : rootRegion k₀.disk p = .ok r)
    (hrun : fat16GetRootDirectory p old k₀ = .ok ((allOk, d), k₁)) : ArrayLoaded k₀ r d k₁ := by
  obtain ⟨count, array, hcount, harray, rfl⟩ := rootRegion_eq_ok.mp hregion
  have hentries := hbounded.rootEntries
  obtain ⟨hframe, -⟩ := fat16GetRootDirectory_spec h.guards hentries hrun
  obtain ⟨k₂, k₃, k₄, k₅, bytes, hsteps⟩ := fat16GetRootDirectory_steps hrun
  have hcounted := ContentFrame.of_streams h.guards
    (fat16GetTotalItemsForDirectory_keeps _ _ _ _ hsteps.counted)
  have hscan := fat16GetTotalItemsForDirectory_scan hsector hsteps.counted
  have hsought := diskstreamerSeek_keeps _ _ _ _ _ hsteps.sought
  have hread := diskstreamerRead_keeps _ _ _ _ _ hsteps.read
  have hrecords := hsteps.records
  unfold Kernel.StreamsOnly at hsought hread
  unfold sizeofFatDirectoryItem at hrecords
  rw [Nat.mul_comm] at hrecords
  have halloc := ContentFrame.of_kzalloc hcounted.guards (by omega) hrecords
  -- the bytes that are read are those of the region
  obtain ⟨-, hk₄⟩ := diskstreamerSeek_eq_ok hsteps.sought
  have hstart : fat16SectorToAbsolute k₀.disk (p.header.fatCopies * p.header.sectorsPerFat +
      p.header.reservedSectors : Nat) = i32 ((p.header.fatCopies * p.header.sectorsPerFat +
      p.header.reservedSectors) * 512 : Nat) := by
    unfold fat16SectorToAbsolute
    rw [hsector, Nat.cast_mul]
    rfl
  have hnow : k₄.streams p.directoryStream = some (i32 ((p.header.fatCopies *
      p.header.sectorsPerFat + p.header.reservedSectors) * 512 : Nat)) := by
    rw [hk₄, hstart]
    exact Function.update_self ..
  obtain ⟨-, hbytes, -⟩ := diskstreamerRead_eq_ok hnow hsteps.read
  have hdisk : k₄.disk = k₀.disk := by rw [hsought, halloc.disk, hcounted.disk]
  rw [hdisk, Nat.mul_comm p.header.rootEntries] at hbytes
  obtain rfl := Except.ok.inj (harray.symm.trans hbytes)
  have hmemory : k₅.memory = k₃.memory := by rw [hread, hsought]
  refine ⟨by rw [hframe.rest], Except.ok.inj (hscan.symm.trans hcount), hsteps.ne_zero,
    by dsimp only; omega, fun j hj => ?_, k₂, k₃, hcounted.guards.wellFormed, hrecords, ?_⟩
  · exact storeBytes_record hrecords hsteps.ne_zero (by omega) hmemory hsteps.stored hj
  · have hguards : k₅.heap.Guards ∅ := by
      rw [hread, hsought]
      exact halloc.guards
    rw [(storeBytes_driverFrame hguards hsteps.stored).2.1, hread, hsought]

theorem ContentFrame.load8 {P : Set Int} {k k' : Kernel} (h : ContentFrame P k k') {ptr size i : Nat}
    (hkept : k.KeptBytes P ptr size) (hi : i < size) :
    k'.memory.load8 ((ptr : Int) + i) = k.memory.load8 ((ptr : Int) + i) := by
  unfold Memory.load8
  rw [h.memory _ (u32_lt _) (hkept i hi)]

theorem ContentFrame.firstCluster {P : Set Int} {k k' : Kernel} (h : ContentFrame P k k')
    {item : Nat} (hkept : k.KeptBytes P item sizeofFatDirectoryItem) :
    fat16GetFirstCluster k'.memory item = fat16GetFirstCluster k.memory item := by
  have hhigh := h.load8 hkept (i := 20) (by decide)
  have hhigh' := h.load8 hkept (i := 21) (by decide)
  have hlow := h.load8 hkept (i := 26) (by decide)
  have hlow' := h.load8 hkept (i := 27) (by decide)
  unfold fat16GetFirstCluster itemHigh16BitsFirstCluster itemLow16BitsFirstCluster Memory.load16
  push_cast at hhigh hhigh' hlow hlow'
  rw [Int.add_assoc, Int.add_assoc, show (20 : Int) + 1 = 21 from rfl,
    show (26 : Int) + 1 = 27 from rfl, hhigh, hhigh', hlow, hlow']

theorem subdirectoryLoaded {Q : Set Int} {k₀ k₁ : Kernel} {p : FatPrivate} {r : DirectoryRegion}
    {item directory : Nat} {d : FatDirectory} (hvolume : k₀.VolumeOpen p) (h : k₀.heap.Guards Q)
    (hkept : k₀.KeptBytes Q item sizeofFatDirectoryItem)
    (hregion : clusterRegion k₀.disk p (fat16GetFirstCluster k₀.memory item) = .ok r)
    (hrun : fat16LoadFatDirectory item k₀ = .ok (directory, k₁)) (hne : directory ≠ 0)
    (hd : k₁.fatDirectories directory = some d) : ArrayLoaded k₀ r d k₁ := by
  obtain ⟨count, response, array, hcount, harray, rfl⟩ := clusterRegion_eq_ok.mp hregion
  have hsector := hvolume.sectorSize
  obtain ⟨hframe, -⟩ := fat16LoadFatDirectory_spec h hrun
  obtain ⟨p', k₂, k₃, k₄, k₅, bytes, hsteps, hitems, hread, hstore, hheap⟩ :=
    fat16LoadFatDirectory_loaded h hrun hne hd
  obtain rfl := Option.some.inj (hsteps.fsPrivate.symm.trans hvolume.fsPrivate)
  have hframe₁ := ContentFrame.of_kzalloc h (by decide) hsteps.allocated
  have hcluster := hframe₁.firstCluster hkept
  have hstreams := fat16GetTotalItemsForDirectory_keeps _ _ _ _ hsteps.counted
  have hcounted := ContentFrame.of_streams hframe₁.guards hstreams
  -- the count, and the bytes that are read
  have hscan := fat16GetTotalItemsForDirectory_scan (by rw [hframe₁.disk, hsector]) hsteps.counted
  rw [hcluster, hframe₁.disk] at hscan
  obtain rfl := Except.ok.inj (hcount.symm.trans hscan)
  obtain ⟨hcontent, hlow, hhigh, -⟩ := hsteps.content h hsector
  obtain ⟨hsize, -, -⟩ := directorySize_eq hlow hhigh
  have hopen : k₀.KeepsOpen (loadedKernel k₄ directory d.item d.totalItems) := by
    obtain ⟨-, hk₂⟩ := kzalloc_eq_ok hsteps.allocated
    obtain ⟨-, hk₄⟩ := kzalloc_eq_ok hsteps.records
    intro stream hopened
    have hopened₂ : (k₂.streams stream).isSome := by rwa [hk₂]
    have hkeep : k₂.KeepsOpen k₃ := Kept.run inferInstance hsteps.counted
    have hopened₃ := hkeep stream hopened₂
    change (k₄.streams stream).isSome
    rwa [hk₄]
  have hcomputes := fat16ReadInternal_clusterRead (hvolume.moved hcontent.disk hopen)
    (fat16GetFirstCluster k₀.memory item) (i32 (d.totalItems * 32))
  rw [hcontent.disk, harray] at hcomputes
  obtain ⟨k₆, hrun', hmoved⟩ := hcomputes
  rw [hcluster] at hread
  have hsame := Except.ok.inj (hrun'.symm.trans hread)
  obtain ⟨hresult, rfl⟩ := Prod.mk.inj hsame
  obtain ⟨-, rfl⟩ := Prod.mk.inj hresult
  have hrecords := hsteps.records
  rw [show u32 (i32 (d.totalItems * sizeofFatDirectoryItem)) = 32 * d.totalItems.toNat by omega]
    at hrecords
  refine ⟨by rw [hframe.rest], rfl, hitems, by dsimp only; omega, fun j hj => ?_, k₃, k₄,
    hcounted.guards.wellFormed, hrecords, hheap⟩
  exact storeBytes_record hrecords hitems (by omega) hmoved.memory hstore hj

theorem DirectoryLoad.arrayLoaded {k₀ k₁ : Kernel} {r : DirectoryRegion} {d : FatDirectory}
    (h : k₀.heap.WellFormed) (hsector : k₀.disk.sectorSize = 512) (hload : DirectoryLoad k₀ r d k₁) :
    ArrayLoaded k₀ r d k₁ := by
  cases hload with
  | root _ hbounded hregion hrun => exact rootLoaded h hsector hbounded hregion hrun
  | subdirectory hvolume _ hguards hkept hregion hrun hne hd =>
    exact subdirectoryLoaded hvolume hguards hkept hregion hrun hne hd

section Loaded
variable {k₀ k₁ : Kernel} {r : DirectoryRegion} {d : FatDirectory}

theorem ArrayLoaded.keptBytes {P : Set Int} (h : ArrayLoaded k₀ r d k₁)
    (hrecords : k₁.heap.blockOf d.item ∈ P) {j : Nat} (hj : j < r.loaded) :
    k₁.KeptBytes P (recordAddress d.item j) sizeofFatDirectoryItem := by
  obtain ⟨k₂, k₃, hwf, halloc, hheap⟩ := h.allocated
  have hne := h.ne_zero
  have hsize := h.size
  obtain ⟨hptr, hk₃⟩ := kzalloc_eq_ok halloc
  have hheap₃ : k₁.heap = (heapMalloc k₂.heap (32 * r.loaded)).2 := by rw [hheap, hk₃]
  have hfirst : k₂.heap.blockOf (heapMalloc k₂.heap (32 * r.loaded)).1 ∈ P := by
    rwa [hheap₃, Heap.blockOf_congr (heapMalloc_startAddress ..), hptr] at hrecords
  intro i hi
  right
  rw [hheap₃]
  refine hwf.heapMalloc_owned hsize (by rwa [← hptr]) hfirst ?_
  rw [← hptr]
  unfold recordAddress sizeofFatDirectoryItem u32
  unfold sizeofFatDirectoryItem at hi
  omega

theorem ArrayLoaded.guards (h : ArrayLoaded k₀ r d k₁) (hpos : 0 < r.loaded) :
    k₁.heap.Guards {k₁.heap.blockOf d.item} := by
  obtain ⟨k₂, k₃, hwf, halloc, hheap⟩ := h.allocated
  have hsize := h.size
  obtain ⟨-, -, hguards⟩ := kzalloc_new hwf.guards (by omega) (by omega) halloc h.ne_zero
  rw [hheap]
  rwa [LawfulSingleton.insert_empty_eq] at hguards

end Loaded

/-! The region and the disk. As far as the positions are in range, the records of the array are those
of the disk, and the count is that of the records before the blank one that are not skipped. -/

section OnDisk
variable {k₀ k₁ : Kernel} {r : DirectoryRegion} {d : FatDirectory}

theorem DirectoryLoad.scanned (hload : DirectoryLoad k₀ r d k₁) :
    scanLoop k₀.disk scanFuel r.start 0 = .ok r.count ∧
      (r.loaded = r.places ∨ r.loaded = r.count.toNat) := by
  cases hload with
  | root _ _ hregion _ =>
    obtain ⟨count, array, hcount, -, rfl⟩ := rootRegion_eq_ok.mp hregion
    refine ⟨?_, Or.inl rfl⟩
    unfold scanCount at hcount
    rwa [← Nat.cast_ofNat, ← Nat.cast_mul] at hcount
  | @subdirectory p _ _ item _ _ _ _ _ _ _ hregion _ _ _ =>
    obtain ⟨count, response, array, hcount, -, rfl⟩ := clusterRegion_eq_ok.mp hregion
    refine ⟨?_, Or.inr rfl⟩
    have hplace : clusterPosition p (fat16GetFirstCluster k₀.memory item) 0 =
        i32 ((u32 (fat16ClusterToSector p (fat16GetFirstCluster k₀.memory item)) : Nat) * 512) := by
      unfold clusterPosition
      rw [Int.zero_tmod]
      unfold u32 i32
      omega
    unfold scanCount at hcount
    rwa [← hplace] at hcount

theorem DirectoryLoad.read (hload : DirectoryLoad k₀ r d k₁) (hfit : r.loaded ≤ r.places)
    (hplaces : 0 < r.places) : streamRead k₀.disk r.start (32 * r.loaded : Nat) = .ok r.array := by
  cases hload with
  | root _ _ hregion _ =>
    obtain ⟨count, array, -, harray, rfl⟩ := rootRegion_eq_ok.mp hregion
    exact harray
  | @subdirectory p _ _ item _ _ _ _ hbounded _ _ hregion _ _ _ =>
    obtain ⟨count, response, array, hcount, harray, rfl⟩ := clusterRegion_eq_ok.mp hregion
    generalize fat16GetFirstCluster k₀.memory item = cluster at hcount harray
    have hlow := (scanCount_size hcount).1
    have hsectors := hbounded.sectorsPerCluster
    dsimp only at hfit hplaces ⊢
    have hpos : 0 < clusterBytes p := by omega
    have hbytes : clusterBytes p < 131072 := by
      unfold clusterBytes
      omega
    have hsize : i32 (count * 32) = (32 * count.toNat : Nat) := by
      rw [i32_of_range (by omega) (by omega)]
      omega
    have hfirst : clusterAt k₀.disk p cluster 0 = some cluster := by
      unfold clusterAt
      rw [Int.zero_tdiv]
      rfl
    unfold clusterRead at harray
    rw [hsize, if_neg (by omega), readSteps_single hpos (by omega), hfirst, Option.map_some,
      performSteps_cons_some rfl] at harray
    cases hread : streamRead k₀.disk (clusterPosition p cluster 0) (32 * count.toNat : Nat) with
    | error e =>
      rw [hread] at harray
      cases harray
    | ok bytes =>
      rw [hread] at harray
      have hresult := (Prod.mk.inj (Except.ok.inj harray)).2
      rw [List.append_nil] at hresult
      rw [hresult]

theorem DirectoryRegion.record_eq {disk : Disk}
    (hread : streamRead disk r.start (32 * r.loaded : Nat) = .ok r.array)
    (hstart : r.start = r.position) (hrange : r.position + 32 * r.loaded < 2147483648) {j : Nat}
    (hj : j < r.loaded) : r.record j = recordAt disk r.position j := by
  have hwhole : streamRead disk r.position (32 * r.loaded : Nat) =
      .ok (diskBytes disk r.position (32 * r.loaded)) := streamReadLoop_eq (by omega) hrange
  rw [hstart, hwhole] at hread
  unfold DirectoryRegion.record recordAt
  rw [← Except.ok.inj hread]
  refine List.map_congr_left fun i hi => ?_
  have hlt := List.mem_range.mp hi
  unfold sizeofFatDirectoryItem at hlt ⊢
  unfold diskBytes
  rw [List.getD_eq_getElem?_getD, List.getElem?_map, List.getElem?_range (by omega), Nat.add_assoc]
  rfl

/-- A directory that the driver takes as it is: it is where the driver looks for it, its records end
inside it or where it ends, none of them is deleted, and none is skipped. -/
structure DirectoryRegion.Plain (r : DirectoryRegion) (disk : Disk) (last : Nat) : Prop where
  start : r.start = r.position
  ends : ScanEnds disk r.position last
  inside : last ≤ r.places
  range : r.position + 32 * (r.places + 1) < 2147483648
  kept : ∀ i < last, charAt (recordAt disk r.position i) 0 ≠ 0xE5
  counted : ∀ i < last, charAt (recordAt disk r.position i) 5 ≠ 0xE5

theorem DirectoryLoad.plain (hload : DirectoryLoad k₀ r d k₁) {last : Nat}
    (hplain : r.Plain k₀.disk last) : r.count = last ∧ last ≤ r.loaded ∧
      ∀ j < last, r.record j = recordAt k₀.disk r.position j := by
  have hinside := hplain.inside
  have hrange := hplain.range
  obtain ⟨hscan, hloaded⟩ := hload.scanned
  have hcount : r.count = last := by
    have hall := scanLoop_start hplain.ends (by omega)
    rw [← hplain.start, hscan] at hall
    have hevery : recordCount k₀.disk r.position last = last := Nat.count_of_forall hplain.counted
    rw [Except.ok.inj hall, hevery]
  refine ⟨hcount, by omega, fun j hj => ?_⟩
  exact DirectoryRegion.record_eq (hload.read (by omega) (by omega)) hplain.start (by omega) (by omega)

end OnDisk

end BoiOS
