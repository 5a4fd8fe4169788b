import BoiOS.Fs.Fat16Resolve
import BoiOS.Fs.FileMoves

/-! What `fat16_resolve` leaves behind. A volume that is accepted is mounted, with its three streams
open; one that is turned down gets rid of the private data, but not of the streams. -/
namespace BoiOS
open Library.StateRun Library.Walk

/-! The streams. -/

def Kernel.KeepsOpen (k k' : Kernel) : Prop :=
  ∀ stream, (k.streams stream).isSome → (k'.streams stream).isSome

instance : Std.Refl Kernel.KeepsOpen := ⟨fun _ _ h => h⟩

instance : IsTrans Kernel Kernel.KeepsOpen := ⟨fun _ _ _ h h' stream hopen => h' stream (h stream hopen)⟩

theorem keepsOpen_move (k : Kernel) (stream : Nat) (position : Int) :
    k.KeepsOpen { k with streams := Function.update k.streams stream (some position) } :=
  (Kernel.StreamsMoved.of_seek k stream position).opened

instance : FileMoves Kernel.KeepsOpen (fun _ _ => True) where
  back := fun _ _ => trivial
  heap := fun _ _ _ h => h
  memory := fun _ _ _ h => h
  streams := keepsOpen_move
  fatItems := fun _ _ _ h => h
  fatDirectories := fun _ _ _ h => h
  fatDescriptors := fun _ _ _ h => h
  files := fun _ _ _ h => h
  pathRoots := fun _ _ _ h => h
  pathParts := fun _ _ _ h => h
  faulted := fun _ => trivial
  divided := fun _ _ _ _ => trivial

set_option synthInstance.maxSize 2048 in
instance (fatPrivate : FatPrivate) (directory : FatDirectory) :
    Kept Kernel.KeepsOpen (fat16GetRootDirectory fatPrivate directory) := by
  unfold fat16GetRootDirectory
  infer_instance

instance (filesystem : Nat) (fsPrivate : Option FatPrivate) :
    Kept Kernel.KeepsOpen (modify (bindDisk filesystem fsPrivate) : KernelM Unit) :=
  ⟨Keeps.modify fun _ _ h => h⟩

instance (private' : FatPrivate) (stream : Nat) :
    Kept Kernel.KeepsOpen (fat16ReadVolume private' stream) := by
  unfold fat16ReadVolume
  infer_instance

/-! The allocations. -/

/-- Streams of the blocks in `S` were opened, apart from what `P` holds. -/
structure StreamsOpened (P S : Set Int) (k k' : Kernel) : Prop where
  rest : k' = { k with heap := k'.heap, memory := k'.memory, streams := k'.streams }
  guards : k'.heap.GuardsMore P S
  start : k'.heap.startAddress = k.heap.startAddress
  total : k'.heap.table.totalEntries = k.heap.table.totalEntries
  keepsOpen : k.KeepsOpen k'

theorem StreamsOpened.refl {P : Set Int} {k : Kernel} (h : k.heap.Guards P) :
    StreamsOpened P ∅ k k := ⟨rfl, .none h, rfl, rfl, fun _ h => h⟩

structure OpenIn (S : Set Int) (k : Kernel) (stream : Nat) : Prop where
  block : k.heap.BlockIn S stream
  opened : (k.streams stream).isSome

theorem OpenIn.later {P S T U : Set Int} {k k' : Kernel} {stream : Nat} (h : OpenIn S k stream)
    (hopened : StreamsOpened P U k k') (hle : S ⊆ T) : OpenIn T k' stream :=
  ⟨(h.block.congr hopened.start hopened.total).mono hle, hopened.keepsOpen _ h.opened⟩

theorem diskstreamerNew_spec {P : Set Int} {k k' : Kernel} {stream : Nat} (h : k.heap.Guards P)
    (hrun : diskstreamerNew k = .ok (stream, k')) :
    ∃ b, StreamsOpened P {b} k k' ∧ OpenIn {b} k' stream ∧ k'.streams stream = some 0 := by
  unfold diskstreamerNew at hrun
  obtain ⟨ptr, k₁, halloc, hrun⟩ := bind_eq_ok.mp hrun
  split_ifs at hrun with hnull
  · exact (throw_eq_ok.mp hrun).elim
  obtain ⟨_, k₂, hmodify, hrun⟩ := bind_eq_ok.mp hrun
  obtain ⟨rfl, rfl⟩ := pure_eq_ok.mp hrun
  obtain ⟨hobtained, hk₁⟩ := kzalloc_obtained h (by decide) halloc
  obtain ⟨hblock, hnew, hguards⟩ := kzalloc_new h (by decide) (by decide) halloc hnull
  have hk₂ := modify_eq_ok.mp hmodify
  have hheap : k₂.heap = k₁.heap := by rw [← hk₂]
  have hmore := (Heap.GuardsMore.none hguards).insert hnew
  rw [LawfulSingleton.insert_empty_eq] at hmore
  have hposition : k₂.streams ptr = some 0 := by
    rw [← hk₂]
    exact Function.update_self ..
  refine ⟨k₁.heap.blockOf ptr, ⟨?_, ?_, ?_, ?_, ?_⟩, ⟨?_, by rw [hposition]; rfl⟩, hposition⟩
  · rw [← hk₂, hk₁]
  · rw [hheap]
    exact hmore
  · rw [hheap, hobtained.start]
  · rw [hheap, hobtained.total]
  · rw [← hk₂, hk₁]
    exact keepsOpen_move k ptr 0
  · rw [hheap]
    exact ⟨hblock, rfl⟩

theorem StreamsOpened.trans {P S T : Set Int} {k k' k'' : Kernel} (h : StreamsOpened P S k k')
    (h' : StreamsOpened (P ∪ S) T k' k'') : StreamsOpened P (S ∪ T) k k'' := by
  refine ⟨?_, ⟨?_, ?_⟩, h'.start.trans h.start, h'.total.trans h.total,
    fun stream hopen => h'.keepsOpen stream (h.keepsOpen stream hopen)⟩
  · have hrest := h'.rest
    rw [h.rest] at hrest
    exact hrest
  · rw [← Set.union_assoc]
    exact h'.guards.guards
  · rintro b (hb | hb)
    · exact h.guards.apart b hb
    · exact fun hP => h'.guards.apart b hb (Or.inl hP)

theorem fat16InitPrivate_spec {P : Set Int} {k k' : Kernel} {ptr : Nat} {p : FatPrivate}
    (h : k.heap.Guards P) (hrun : fat16InitPrivate ptr k = .ok (p, k')) :
    ptr ≠ 0 ∧ ∃ S, StreamsOpened P S k k' ∧ OpenIn S k' p.clusterReadStream ∧
      OpenIn S k' p.fatReadStream ∧ OpenIn S k' p.directoryStream := by
  unfold fat16InitPrivate at hrun
  split_ifs at hrun with hnull
  · exact (throw_eq_ok.mp hrun).elim
  refine ⟨hnull, ?_⟩
  obtain ⟨cluster, k₁, hcluster, hrun⟩ := bind_eq_ok.mp hrun
  obtain ⟨fat, k₂, hfat, hrun⟩ := bind_eq_ok.mp hrun
  obtain ⟨directory, k₃, hdirectory, hrun⟩ := bind_eq_ok.mp hrun
  obtain ⟨rfl, rfl⟩ := pure_eq_ok.mp hrun
  obtain ⟨a, hfirst, hclusterOpen, -⟩ := diskstreamerNew_spec h hcluster
  obtain ⟨b, hsecond, hfatOpen, -⟩ := diskstreamerNew_spec hfirst.guards.guards hfat
  have htwo := hfirst.trans hsecond
  obtain ⟨c, hthird, hdirectoryOpen, -⟩ := diskstreamerNew_spec htwo.guards.guards hdirectory
  have hthree := htwo.trans hthird
  have hfatSet : ({b} : Set Int) ⊆ {a} ∪ {b} ∪ {c} :=
    Set.subset_union_right.trans Set.subset_union_left
  have hclusterSet : ({a} : Set Int) ⊆ {a} ∪ {b} ∪ {c} :=
    Set.subset_union_left.trans Set.subset_union_left
  exact ⟨_, hthree, (hclusterOpen.later hsecond (T := {a}) le_rfl).later hthird hclusterSet,
    hfatOpen.later hthird hfatSet, hdirectoryOpen.later (.refl hthree.guards.left)
      Set.subset_union_right⟩

/-! Reading the volume. -/

theorem fat16GetRootDirectory_spec {P : Set Int} {k k' : Kernel} {p : FatPrivate}
    {directory directory' : FatDirectory} {response : Int} (h : k.heap.Guards P)
    (hentries : p.header.rootEntries < 65536)
    (hrun : fat16GetRootDirectory p directory k = .ok ((response, directory'), k')) :
    DriverFrame P k k' ∧ (response = allOk → directory'.endingSectorPosition =
      (p.header.fatCopies * p.header.sectorsPerFat + p.header.reservedSectors : Nat) +
        ((p.header.rootEntries * 32 : Nat) : Int).tdiv k.disk.sectorSize) := by
  have hsize : p.header.rootEntries * sizeofFatDirectoryItem < 4294967296 := by
    unfold sizeofFatDirectoryItem
    omega
  unfold fat16GetRootDirectory at hrun
  replace hrun := bind_get_eq_ok.mp hrun
  obtain ⟨totalItems, k₁, htotal, hrun⟩ := bind_eq_ok.mp hrun
  have hframe₁ := DriverFrame.of_streams h (fat16GetTotalItemsForDirectory_keeps _ _ _ _ htotal)
  obtain ⟨dir, k₂, halloc, hrun⟩ := bind_eq_ok.mp hrun
  have hframe₂ := hframe₁.trans (.of_kzalloc hframe₁.guards hsize halloc)
  have hfreeable := kzalloc_freeable hframe₁.guards hsize halloc
  by_cases hnull : dir = 0
  · rw [if_pos hnull] at hrun
    obtain ⟨hresult, rfl⟩ := pure_eq_ok.mp hrun
    obtain ⟨rfl, -⟩ := Prod.mk.inj hresult
    exact ⟨hframe₂, fun hok => absurd hok (by decide)⟩
  rw [if_neg hnull] at hrun
  obtain ⟨response₃, k₃, hseek, hrun⟩ := bind_eq_ok.mp hrun
  have hstreams₃ := diskstreamerSeek_keeps _ _ _ _ _ hseek
  have hframe₃ := hframe₂.trans (.of_streams hframe₂.guards hstreams₃)
  have hheap₃ : k₃.heap = k₂.heap := by
    rw [hstreams₃]
  -- every error from here on gives the records back
  have hgiveBack : ∀ {k₄ : Kernel}, DriverFrame P k k₄ → k₄.heap = k₂.heap →
      (do kfree dir; pure (-eio, directory)) k₄ = .ok ((response, directory'), k') →
      DriverFrame P k k' ∧ (response = allOk → directory'.endingSectorPosition =
        (p.header.fatCopies * p.header.sectorsPerFat + p.header.reservedSectors : Nat) +
          ((p.header.rootEntries * 32 : Nat) : Int).tdiv k.disk.sectorSize) := by
    intro k₄ hframe₄ hheap₄ hrun'
    obtain ⟨_, k₅, hfree, hrun'⟩ := bind_eq_ok.mp hrun'
    obtain ⟨hresult, rfl⟩ := pure_eq_ok.mp hrun'
    obtain ⟨rfl, -⟩ := Prod.mk.inj hresult
    rw [← hheap₄] at hfreeable
    exact ⟨hframe₄.trans (ReleaseFrame.of_kfree hframe₄.guards hfreeable hfree).toDriverFrame,
      fun hok => absurd hok (by decide)⟩
  by_cases hfailed₃ : response₃ ≠ allOk
  · rw [if_pos hfailed₃] at hrun
    exact hgiveBack hframe₃ hheap₃ hrun
  rw [if_neg hfailed₃] at hrun
  obtain ⟨⟨response₄, bytes⟩, k₄, hread, hrun⟩ := bind_eq_ok.mp hrun
  have hstreams₄ := diskstreamerRead_keeps _ _ _ _ _ hread
  have hframe₄ := hframe₃.trans (.of_streams hframe₃.guards hstreams₄)
  have hheap₄ : k₄.heap = k₂.heap := by
    rw [hstreams₄, ← hheap₃]
  dsimp only at hrun
  obtain ⟨_, k₅, hstore, hrun⟩ := bind_eq_ok.mp hrun
  obtain ⟨hframe₅, hheap₅, -⟩ := storeBytes_driverFrame hframe₄.guards hstore
  by_cases hfailed₄ : response₄ ≠ allOk
  · rw [if_pos hfailed₄] at hrun
    exact hgiveBack (hframe₄.trans hframe₅) (hheap₅.trans hheap₄) hrun
  rw [if_neg hfailed₄] at hrun
  obtain ⟨hresult, rfl⟩ := pure_eq_ok.mp hrun
  obtain ⟨-, rfl⟩ := Prod.mk.inj hresult
  exact ⟨hframe₄.trans hframe₅, fun _ => rfl⟩

def volumeHeader (disk : Disk) : List UInt8 := diskBytes disk 0 sizeofFatH

/-- The disk is bound to the driver; a volume that is accepted has its header there, and its
clusters behind the root directory, of which the last sector is left out unless it is full. -/
structure VolumeRead (P : Set Int) (p p' : FatPrivate) (response : Int) (k k' : Kernel) : Prop where
  guards : k'.heap.Guards P
  start : k'.heap.startAddress = k.heap.startAddress
  total : k'.heap.table.totalEntries = k.heap.table.totalEntries
  disk : k'.disk = { k.disk with filesystem := fat16Fs, fsPrivate := some p' }
  header : p'.header = headerOf (volumeHeader k.disk)
  streams : p'.clusterReadStream = p.clusterReadStream ∧ p'.fatReadStream = p.fatReadStream
  ending : 0 ≤ response → p'.rootDirectory.endingSectorPosition =
    (p'.header.fatCopies * p'.header.sectorsPerFat + p'.header.reservedSectors : Nat) +
      ((p'.header.rootEntries * 32 : Nat) : Int).tdiv k.disk.sectorSize

structure FatHeader.Bounded (header : FatHeader) : Prop where
  sectorsPerCluster : header.sectorsPerCluster < 256
  reservedSectors : header.reservedSectors < 65536
  fatCopies : header.fatCopies < 256
  rootEntries : header.rootEntries < 65536
  sectorsPerFat : header.sectorsPerFat < 65536

theorem headerWord_lt (header : List UInt8) (offset : Nat) : headerWord header offset < 65536 := by
  have hlow := (charAt header offset).toNat_lt
  have hhigh := (charAt header (offset + 1)).toNat_lt
  unfold headerWord
  omega

theorem headerOf_bounded (header : List UInt8) : (headerOf header).Bounded :=
  ⟨(charAt header 13).toNat_lt, headerWord_lt header 14, (charAt header 16).toNat_lt,
    headerWord_lt header 17, headerWord_lt header 22⟩

theorem fat16ReadVolume_spec {P : Set Int} {k k' : Kernel} {p : FatPrivate} {stream : Nat}
    {response : Int} (h : k.heap.Guards P) (hstream : k.streams stream = some 0)
    (hnull : stream ≠ 0) (hrun : fat16ReadVolume p stream k = .ok (response, k')) :
    ∃ p', VolumeRead P p p' response k k' := by
  have hheader := diskstreamerRead_computes (k := k) (sizeofFatH : Nat) hstream
  have hbytes : streamRead k.disk 0 (sizeofFatH : Nat) = .ok (volumeHeader k.disk) :=
    @streamReadLoop_eq _ _ 0 sizeofFatH (by decide) (by decide)
  rw [hbytes] at hheader
  obtain ⟨k₁, hread, hmoved⟩ := hheader
  have hframe₁ := DriverFrame.of_streams h hmoved.only
  unfold fat16ReadVolume at hrun
  rw [if_neg hnull, bind_of_ok hread] at hrun
  dsimp only at hrun
  obtain ⟨_, k₂, hbind, hrun⟩ := bind_eq_ok.mp hrun
  have hk₂ := modify_eq_ok.mp hbind
  have hguards₂ : k₂.heap.Guards P := by
    rw [← hk₂]
    exact hframe₁.guards
  have hdisk₂ : k₂.disk = { k.disk with
      filesystem := fat16Fs
      fsPrivate := some { p with header := headerOf (volumeHeader k.disk) } } := by
    rw [← hk₂, ← hmoved.disk]
    rfl
  have hstart₂ : k₂.heap.startAddress = k.heap.startAddress := by
    rw [← hk₂]
    exact hframe₁.start
  have htotal₂ : k₂.heap.table.totalEntries = k.heap.table.totalEntries := by
    rw [← hk₂]
    exact hframe₁.total
  rw [if_neg (not_not.mpr rfl)] at hrun
  by_cases hsignature : headerSignature (volumeHeader k.disk) ≠ boiosFat16Signature
  · rw [if_pos hsignature] at hrun
    obtain ⟨rfl, rfl⟩ := pure_eq_ok.mp hrun
    exact ⟨_, hguards₂, hstart₂, htotal₂, hdisk₂, rfl, ⟨rfl, rfl⟩,
      fun hok => absurd hok (by decide)⟩
  rw [if_neg hsignature] at hrun
  obtain ⟨⟨response₃, directory⟩, k₃, hroot, hrun⟩ := bind_eq_ok.mp hrun
  obtain ⟨hframe₃, hending⟩ := fat16GetRootDirectory_spec hguards₂ (headerOf_bounded _).rootEntries hroot
  dsimp only at hrun
  obtain ⟨_, k₄, hbind₄, hrun⟩ := bind_eq_ok.mp hrun
  have hk₄ := modify_eq_ok.mp hbind₄
  have hdisk₃ : k₃.disk = k₂.disk := by rw [hframe₃.rest]
  have hdisk₄ : k₄.disk = { k.disk with
      filesystem := fat16Fs
      fsPrivate := some { p with
        header := headerOf (volumeHeader k.disk), rootDirectory := directory } } := by
    rw [← hk₄]
    unfold bindDisk
    rw [hdisk₃, hdisk₂]
  have hguards₄ : k₄.heap.Guards P := by
    rw [← hk₄]
    exact hframe₃.guards
  have hstart₄ : k₄.heap.startAddress = k.heap.startAddress := by
    rw [← hk₄, ← hstart₂]
    exact hframe₃.start
  have htotal₄ : k₄.heap.table.totalEntries = k.heap.table.totalEntries := by
    rw [← hk₄, ← htotal₂]
    exact hframe₃.total
  by_cases hfailed : response₃ ≠ allOk
  · rw [if_pos hfailed] at hrun
    obtain ⟨rfl, rfl⟩ := pure_eq_ok.mp hrun
    exact ⟨_, hguards₄, hstart₄, htotal₄, hdisk₄, rfl, ⟨rfl, rfl⟩,
      fun hok => absurd hok (by decide)⟩
  · rw [if_neg hfailed] at hrun
    obtain ⟨rfl, rfl⟩ := pure_eq_ok.mp hrun
    refine ⟨_, hguards₄, hstart₄, htotal₄, hdisk₄, rfl, ⟨rfl, rfl⟩, fun _ => ?_⟩
    rw [hending (not_not.mp hfailed), hdisk₂]

/-! Mounting. -/

theorem diskstreamerClose_spec {P : Set Int} {k k' : Kernel} {stream : Nat} {b : Int} {u : Unit}
    (h : k.heap.GuardsMore P {b}) (hstream : k.heap.BlockIn {b} stream)
    (hrun : diskstreamerClose stream k = .ok (u, k')) :
    k' = { k with heap := k'.heap, streams := Function.update k.streams stream none } ∧
      ReleaseFrame P k { k with heap := k'.heap } := by
  unfold diskstreamerClose at hrun
  obtain ⟨_, k₁, hfree, hrun⟩ := bind_eq_ok.mp hrun
  have hframe := ReleaseFrame.of_kfree h.left (h.freeable hstream) hfree
  rw [kfree_eq_ok.mp hfree] at hrun hframe
  have hk' := modify_eq_ok.mp hrun
  rw [← hk']
  exact ⟨rfl, hframe⟩

/-- What is left of a call that comes back: the streams in blocks that were not held before, and
the disk bound to the driver, without private data unless the volume is accepted. -/
structure ResolveResult (P S : Set Int) (response : Int) (p : FatPrivate) (k k' : Kernel) : Prop where
  guards : k'.heap.GuardsMore P S
  total : k'.heap.table.totalEntries = k.heap.table.totalEntries
  cluster : OpenIn S k' p.clusterReadStream
  fat : OpenIn S k' p.fatReadStream
  disk : k'.disk = { k.disk with
    filesystem := fat16Fs, fsPrivate := if response < 0 then none else some p }
  header : p.header = headerOf (volumeHeader k.disk)
  ending : 0 ≤ response → p.rootDirectory.endingSectorPosition =
    (p.header.fatCopies * p.header.sectorsPerFat + p.header.reservedSectors : Nat) +
      ((p.header.rootEntries * 32 : Nat) : Int).tdiv k.disk.sectorSize

structure ResolveRead (P S : Set Int) (ptr : Nat) (response : Int) (p : FatPrivate) (k k' : Kernel) :
    Prop where
  guards : k'.heap.GuardsMore (insert (k'.heap.blockOf ptr) P) S
  block : k'.heap.IsBlock ptr
  fresh : k'.heap.blockOf ptr ∉ P
  total : k'.heap.table.totalEntries = k.heap.table.totalEntries
  cluster : OpenIn S k' p.clusterReadStream
  fat : OpenIn S k' p.fatReadStream
  disk : k'.disk = { k.disk with filesystem := fat16Fs, fsPrivate := some p }
  header : p.header = headerOf (volumeHeader k.disk)
  ending : 0 ≤ response → p.rootDirectory.endingSectorPosition =
    (p.header.fatCopies * p.header.sectorsPerFat + p.header.reservedSectors : Nat) +
      ((p.header.rootEntries * 32 : Nat) : Int).tdiv k.disk.sectorSize

namespace ResolveRead
variable {P S : Set Int} {ptr : Nat} {response : Int} {p : FatPrivate} {k k₁ k' : Kernel}

theorem guards_rest (h : ResolveRead P S ptr response p k k') : k'.heap.GuardsMore P S :=
  ⟨h.guards.guards.mono (Set.union_subset_union_left S (Set.subset_insert ..)),
    fun c hc hP => h.guards.apart c hc (Set.mem_insert_of_mem _ hP)⟩

theorem accepted (h : ResolveRead P S ptr response p k k') (haccept : ¬ response < 0) :
    ResolveResult P S response p k k' :=
  ⟨h.guards_rest, h.total, h.cluster, h.fat, by rw [h.disk, if_neg haccept], h.header, h.ending⟩

/-- The private data of a volume that is turned down is given back, its streams are not. -/
theorem refused (h : ResolveRead P S ptr response p k k₁) (hnegative : response < 0) {k₂ : Kernel}
    {u u' : Unit} (hfree : kfree ptr k₁ = .ok (u, k₂))
    (hunbind : (modify fun k => { k with disk := { k.disk with fsPrivate := none } } :
      KernelM Unit) k₂ = .ok (u', k')) : ResolveResult P S response p k k' := by
  have hfreeable : k₁.heap.Freeable (P ∪ S) ptr := by
    refine Or.inr ⟨h.block, ?_, Or.inl (h.guards.guards.held _ (Or.inl (Set.mem_insert ..)))⟩
    rintro (hP | hS)
    · exact h.fresh hP
    · exact h.guards.apart _ hS (Set.mem_insert ..)
  have hframe := ReleaseFrame.of_kfree h.guards_rest.guards hfreeable hfree
  have hk' := modify_eq_ok.mp hunbind
  have hstreams : k₂.streams = k₁.streams := by rw [kfree_eq_ok.mp hfree]
  have hdisk : k₂.disk = k₁.disk := by rw [kfree_eq_ok.mp hfree]
  have hlast : ∀ s, OpenIn S k₁ s → OpenIn S k' s := by
    intro s hs
    rw [← hk']
    refine ⟨hs.block.congr hframe.start hframe.total, ?_⟩
    dsimp only
    rw [hstreams]
    exact hs.opened
  refine ⟨⟨?_, h.guards_rest.apart⟩, ?_, hlast _ h.cluster, hlast _ h.fat, ?_, h.header, h.ending⟩
  · rw [← hk']
    exact hframe.guards
  · rw [← hk']
    exact hframe.total.trans h.total
  · rw [← hk']
    dsimp only
    rw [hdisk, h.disk, if_pos hnegative]

end ResolveRead

theorem fat16Resolve_spec {P : Set Int} {k k' : Kernel} {response : Int} (h : k.heap.Guards P)
    (hrun : fat16Resolve k = .ok (response, k')) : ∃ S p, ResolveResult P S response p k k' := by
  unfold fat16Resolve at hrun
  obtain ⟨ptr, k₁, halloc, hrun⟩ := bind_eq_ok.mp hrun
  obtain ⟨p, k₂, hinit, hrun⟩ := bind_eq_ok.mp hrun
  obtain ⟨_, k₃, hbind, hrun⟩ := bind_eq_ok.mp hrun
  obtain ⟨stream, k₄, hnew, hrun⟩ := bind_eq_ok.mp hrun
  obtain ⟨response₅, k₅, hvolume, hrun⟩ := bind_eq_ok.mp hrun
  obtain ⟨hobtained, hk₁⟩ := kzalloc_obtained h (by decide) halloc
  have hnull := (fat16InitPrivate_spec hobtained.guards hinit).1
  obtain ⟨hblock, hfresh, hguards₁⟩ := kzalloc_new h (by decide) (by decide) halloc hnull
  obtain ⟨-, S, hstreams, hcluster, hfat, -⟩ := fat16InitPrivate_spec hguards₁ hinit
  have hk₃ := modify_eq_ok.mp hbind
  have hheap₃ : k₃.heap = k₂.heap := by
    rw [← hk₃]
    rfl
  have hguards₃ : k₃.heap.GuardsMore (insert (k₁.heap.blockOf ptr) P) S := by
    rw [hheap₃]
    exact hstreams.guards
  have hcluster₃ : OpenIn S k₃ p.clusterReadStream := by
    rw [← hk₃]
    exact ⟨hcluster.block, hcluster.opened⟩
  have hfat₃ : OpenIn S k₃ p.fatReadStream := by
    rw [← hk₃]
    exact ⟨hfat.block, hfat.opened⟩
  obtain ⟨b, hopened₄, hstream₄, hposition₄⟩ := diskstreamerNew_spec hguards₃.guards hnew
  have hstream_ne := hstream₄.block.block.ne_zero hopened₄.guards.guards.wellFormed
  obtain ⟨p', hvolume₅⟩ := fat16ReadVolume_spec hopened₄.guards.guards hposition₄ hstream_ne hvolume
  have hopen₅ : k₄.KeepsOpen k₅ := Kept.run inferInstance hvolume
  have hmore₅ : k₅.heap.GuardsMore (insert (k₁.heap.blockOf ptr) P ∪ S) {b} :=
    ⟨hvolume₅.guards, hopened₄.guards.apart⟩
  rw [if_pos hstream_ne] at hrun
  obtain ⟨_, k₆, hclose, hrun⟩ := bind_eq_ok.mp hrun
  obtain ⟨hk₆, hframe₆⟩ := diskstreamerClose_spec hmore₅
    (hstream₄.block.congr hvolume₅.start hvolume₅.total) hclose
  have hstart₆ : k₆.heap.startAddress = k₁.heap.startAddress :=
    hframe₆.start.trans (hvolume₅.start.trans (hopened₄.start.trans
      ((congrArg Heap.startAddress hheap₃).trans hstreams.start)))
  have htotal₆ : k₆.heap.table.totalEntries = k₁.heap.table.totalEntries :=
    hframe₆.total.trans (hvolume₅.total.trans (hopened₄.total.trans
      ((congrArg (fun heap => heap.table.totalEntries) hheap₃).trans hstreams.total)))
  -- a stream of the private data is not the one that is closed
  have hstays : ∀ s, OpenIn S k₃ s → OpenIn S k₆ s := by
    intro s hs
    have hs₄ := hs.later hopened₄ le_rfl
    have hne : s ≠ stream := by
      rintro rfl
      refine hopened₄.guards.apart b rfl (Or.inr ?_)
      rw [← show k₄.heap.blockOf s = b from hstream₄.block.mem]
      exact hs₄.block.mem
    constructor
    · exact (hs₄.block.congr hvolume₅.start hvolume₅.total).congr hframe₆.start hframe₆.total
    · rw [hk₆]
      dsimp only
      rw [Function.update_of_ne hne]
      exact hopen₅ s hs₄.opened
  have hdisk₄ : k₄.disk = { k.disk with filesystem := fat16Fs, fsPrivate := some p } := by
    rw [hopened₄.rest, ← hk₃, hstreams.rest, hk₁]
    rfl
  have hending := hvolume₅.ending
  rw [hdisk₄] at hending
  have hsame := Heap.blockOf_congr hstart₆ ptr
  have hread : ResolveRead P S ptr response₅ p' k k₆ := {
    guards := by
      rw [hsame]
      exact ⟨hframe₆.guards, hguards₃.apart⟩
    block := hblock.congr hstart₆ htotal₆
    fresh := by rwa [hsame]
    total := htotal₆.trans hobtained.total
    cluster := by
      rw [hvolume₅.streams.1]
      exact hstays _ hcluster₃
    fat := by
      rw [hvolume₅.streams.2]
      exact hstays _ hfat₃
    disk := by
      rw [hk₆]
      dsimp only
      rw [hvolume₅.disk, hdisk₄]
    header := by
      rw [hvolume₅.header, hdisk₄]
      rfl
    ending := hending }
  dsimp only at hrun
  by_cases hnegative : response₅ < 0
  · rw [if_pos hnegative] at hrun
    obtain ⟨_, k₇, hfree, hrun⟩ := bind_eq_ok.mp hrun
    obtain ⟨_, k₈, hunbind, hrun⟩ := bind_eq_ok.mp hrun
    obtain ⟨rfl, rfl⟩ := pure_eq_ok.mp hrun
    exact ⟨S, p', hread.refused hnegative hfree hunbind⟩
  · rw [if_neg hnegative] at hrun
    obtain ⟨rfl, rfl⟩ := pure_eq_ok.mp hrun
    exact ⟨S, p', hread.accepted hnegative⟩

theorem fat16Resolve_accepted {P : Set Int} {k k' : Kernel} {response : Int} {p : FatPrivate}
    (h : k.heap.Guards P) (hrun : fat16Resolve k = .ok (response, k')) (haccept : 0 ≤ response)
    (hprivate : k'.disk.fsPrivate = some p) : ∃ S, ResolveResult P S response p k k' := by
  obtain ⟨S, p', hresult⟩ := fat16Resolve_spec h hrun
  have hsome := hresult.disk
  rw [if_neg (by omega)] at hsome
  rw [hsome] at hprivate
  rw [← Option.some.inj hprivate]
  exact ⟨S, hresult⟩

theorem fat16Resolve_readable {P : Set Int} {k k' : Kernel} {response : Int} {p : FatPrivate}
    (h : k.heap.Guards P) (hsector : k.disk.sectorSize = 512)
    (hrun : fat16Resolve k = .ok (response, k')) (haccept : 0 ≤ response)
    (hprivate : k'.disk.fsPrivate = some p) (hclusters : 0 < p.header.sectorsPerCluster) :
    Readable k' p := by
  obtain ⟨S, hresult⟩ := fat16Resolve_accepted h hrun haccept hprivate
  refine ⟨⟨?_, hprivate, ?_, ?_, hclusters⟩, hresult.cluster.opened⟩
  · rw [hresult.disk, hsector]
  · exact hresult.fat.block.block.ne_zero hresult.guards.guards.wellFormed
  · exact Option.isSome_iff_exists.mp hresult.fat.opened

/-! Volumes that are turned down. -/

/-- The heap table, the file system of the disk and its private data are what they were. -/
structure NoTrace (k k' : Kernel) : Prop where
  heap : ∀ b : Int, 0 ≤ b → b < k.heap.table.totalEntries →
    k'.heap.table.entries b = k.heap.table.entries b
  filesystem : k'.disk.filesystem = k.disk.filesystem
  fsPrivate : k'.disk.fsPrivate = k.disk.fsPrivate

theorem ResolveResult.trace {S : Set Int} {response : Int} {p : FatPrivate} {k k' : Kernel}
    (h : ResolveResult {b | k.heap.Held b} S response p k k') : ¬ NoTrace k k' := by
  intro hsame
  have hblock := h.cluster.block.mem
  have hheld := h.guards.guards.held _ (Or.inr hblock)
  have hhigh := hheld.high
  rw [h.total] at hhigh
  exact h.guards.apart _ hblock
    (hheld.congr h.total.symm (hsame.heap _ hheld.low hhigh).symm)

/-- A volume that is turned down always leaves a trace. -/
theorem fat16_resolve_rejects_with_trace {k k' : Kernel} {response : Int} (h : k.heap.WellFormed)
    (hrun : fat16Resolve k = .ok (response, k')) : response < 0 → ¬ NoTrace k k' := by
  intro _
  have hguards : k.heap.Guards {b | k.heap.Held b} := ⟨h, fun _ hb => hb⟩
  obtain ⟨S, p, hresult⟩ := fat16Resolve_spec hguards hrun
  exact hresult.trace

theorem fat16Resolve_emptyKernel :
    ∃ k', fat16Resolve (emptyKernel 8) = .ok (-efsnotus, k') := exists_of_value? (by decide +kernel)

theorem fat16_resolve_rejects_with_trace_emptyKernel :
    ∃ k', fat16Resolve (emptyKernel 8) = .ok (-efsnotus, k') ∧ ¬ NoTrace (emptyKernel 8) k' := by
  obtain ⟨k', hrun⟩ := fat16Resolve_emptyKernel
  exact ⟨k', hrun, fat16_resolve_rejects_with_trace (emptyKernel_wellFormed (by decide)) hrun
    (by decide)⟩

theorem fat16_resolve_not_always_without_trace : ¬ ∀ (k k' : Kernel) (response : Int),
    k.heap.WellFormed → fat16Resolve k = .ok (response, k') → response < 0 → NoTrace k k' := by
  intro hall
  have hwf : (emptyKernel 8).heap.WellFormed := emptyKernel_wellFormed (by decide)
  obtain ⟨k', hrun⟩ := fat16Resolve_emptyKernel
  obtain ⟨S, p, hresult⟩ := fat16Resolve_spec
    (⟨hwf, fun _ hb => hb⟩ : (emptyKernel 8).heap.Guards {b | (emptyKernel 8).heap.Held b}) hrun
  exact hresult.trace (hall _ _ _ hwf hrun (by decide))

/-! Where the clusters are. -/

/-- The start of a cluster, as the header describes it. -/
def volumePosition (header : FatHeader) (cluster : Nat) : Nat :=
  512 * (header.reservedSectors + header.fatCopies * header.sectorsPerFat +
    (header.rootEntries * 32 + 511) / 512 + (cluster - 2) * header.sectorsPerCluster)

theorem clusterPosition_eq_iff {p : FatPrivate} (hbounded : p.header.Bounded)
    (hending : p.rootDirectory.endingSectorPosition =
      (p.header.fatCopies * p.header.sectorsPerFat + p.header.reservedSectors : Nat) +
        ((p.header.rootEntries * 32 : Nat) : Int).tdiv 512) {cluster : Nat} (hlow : 2 ≤ cluster)
    (hhigh : cluster ≤ 0xFFEF) :
    clusterPosition p cluster 0 = volumePosition p.header cluster ↔
      p.header.rootEntries % 16 = 0 ∧ volumePosition p.header cluster < 2147483648 := by
  have hrootEntries := hbounded.rootEntries
  have hreserved := hbounded.reservedSectors
  have htables : p.header.fatCopies * p.header.sectorsPerFat ≤ 255 * 65535 :=
    Nat.mul_le_mul (Nat.le_of_lt_succ hbounded.fatCopies) (Nat.le_of_lt_succ hbounded.sectorsPerFat)
  have hclusters : (cluster - 2) * p.header.sectorsPerCluster ≤ 65517 * 255 :=
    Nat.mul_le_mul (by omega) (Nat.le_of_lt_succ hbounded.sectorsPerCluster)
  have hproduct : ((cluster : Int) - 2) * p.header.sectorsPerCluster =
      ((cluster - 2) * p.header.sectorsPerCluster : Nat) := by
    rw [Int.natCast_mul, Int.natCast_sub hlow]
    rfl
  have hroot : ((p.header.rootEntries * 32 : Nat) : Int).tdiv 512 = (p.header.rootEntries / 16 : Nat) := by
    change ((p.header.rootEntries * 32 / 512 : Nat) : Int) = _
    omega
  unfold clusterPosition fat16ClusterToSector volumePosition
  rw [hending, hproduct, hroot, Int.zero_tmod]
  generalize p.header.fatCopies * p.header.sectorsPerFat = tables at *
  generalize (cluster - 2) * p.header.sectorsPerCluster = clusters at *
  rw [i32_of_range (x := (tables + p.header.reservedSectors : Nat) + (p.header.rootEntries / 16 : Nat) +
    (clusters : Nat)) (by omega) (by omega)]
  unfold i32
  omega

/-- The first position that a read from the start of a cluster seeks to is the one that the header
describes exactly if the root directory fills its sectors, and the position is an `int`. -/
theorem fat16_cluster_position_iff {k k' : Kernel} {response : Int} {p : FatPrivate}
    (h : k.heap.WellFormed) (hsector : k.disk.sectorSize = 512)
    (hrun : fat16Resolve k = .ok (response, k')) (haccept : 0 ≤ response)
    (hprivate : k'.disk.fsPrivate = some p) (hclusters : 1 ≤ p.header.sectorsPerCluster)
    {cluster : Nat} (hlow : 2 ≤ cluster) (hhigh : cluster ≤ 0xFFEF) :
    (∀ total : Int, ∃ length rest, ∀ fuel ≥ stepCount p total, Computes Kernel.StreamsMoved k'
      (fat16ReadInternalFromStream p.clusterReadStream fuel cluster 0 total)
      (performSteps k'.disk (⟨0, some (clusterPosition p cluster 0), length⟩ :: rest))) ∧
    (clusterPosition p cluster 0 = volumePosition p.header cluster ↔
      p.header.rootEntries % 16 = 0 ∧ volumePosition p.header cluster < 2147483648) := by
  have hreadable := fat16Resolve_readable h.guards hsector hrun haccept hprivate hclusters
  obtain ⟨S, hresult⟩ := fat16Resolve_accepted h.guards hrun haccept hprivate
  constructor
  · intro total
    obtain ⟨length, rest, hsteps⟩ := readSteps_start k'.disk p cluster total
    refine ⟨length, rest, fun fuel hfuel => ?_⟩
    rw [← hsteps]
    exact fat16ReadInternalFromStream_computes hreadable hfuel
  · have hending := hresult.ending haccept
    rw [hsector] at hending
    refine clusterPosition_eq_iff ?_ hending hlow hhigh
    rw [hresult.header]
    exact headerOf_bounded _

/-! The volume of the repository's boot sector. -/

def bootSector : List UInt8 :=
  [0xEB, 0x3C, 0x90, 0x42, 0x4F, 0x49, 0x4F, 0x53, 0x20, 0x20, 0x20, 0x00, 0x02, 0x80, 200, 0, 2, 0x40, 0,
    0, 0, 0xF8, 0x00, 0x01, 0x20, 0, 0x40, 0, 0, 0, 0, 0, 0x94, 0x35, 0x77, 0, 0x80, 0, 0x29]

def bootKernel : Kernel :=
  { emptyKernel 8 with
    disk := ⟨512, 0, none, fun sector i => if sector = 0 then bootSector.getD i 0 else 0⟩ }

theorem bootKernel_wellFormed : bootKernel.heap.WellFormed :=
  (emptyKernel_wellFormed (by decide) : (emptyKernel 8).heap.WellFormed)

theorem bootKernel_resolve : ∃ k' p, fat16Resolve bootKernel = .ok (allOk, k') ∧
    k'.disk.fsPrivate = some p ∧ p.header = headerOf (volumeHeader bootKernel.disk) := by
  obtain ⟨k', hrun⟩ : ∃ k', fat16Resolve bootKernel = .ok (allOk, k') :=
    exists_of_value? (by decide +kernel)
  obtain ⟨S, p, hresult⟩ := fat16Resolve_spec bootKernel_wellFormed.guards hrun
  refine ⟨k', p, hrun, ?_, hresult.header⟩
  rw [hresult.disk]
  rfl

theorem fat16_cluster_position_iff_bootKernel : ∃ k' p, fat16Resolve bootKernel = .ok (allOk, k') ∧
    k'.disk.fsPrivate = some p ∧ clusterPosition p 2 0 = volumePosition p.header 2 := by
  obtain ⟨k', p, hrun, hprivate, hheader⟩ := bootKernel_resolve
  have hclusters : 1 ≤ p.header.sectorsPerCluster := by
    rw [hheader]
    decide +kernel
  refine ⟨k', p, hrun, hprivate, (fat16_cluster_position_iff bootKernel_wellFormed rfl hrun
    (by decide) hprivate hclusters (by decide) (by decide)).2.mpr ?_⟩
  rw [hheader]
  decide +kernel

theorem fat16_cluster_position_not_always_exact : ¬ ∀ (k k' : Kernel) (response : Int)
    (p : FatPrivate), k.heap.WellFormed → k.disk.sectorSize = 512 →
    fat16Resolve k = .ok (response, k') → 0 ≤ response → k'.disk.fsPrivate = some p →
    1 ≤ p.header.sectorsPerCluster → ∀ cluster, 2 ≤ cluster → cluster ≤ 0xFFEF →
    clusterPosition p cluster 0 = volumePosition p.header cluster := by
  intro hall
  obtain ⟨k', p, hrun, hprivate, hheader⟩ := bootKernel_resolve
  have hclusters : 1 ≤ p.header.sectorsPerCluster := by
    rw [hheader]
    decide +kernel
  have hexact := hall _ _ _ _ bootKernel_wellFormed rfl hrun (by decide) hprivate hclusters 0xFFEF
    (by decide) (by decide)
  have hfar : 2147483648 ≤ volumePosition p.header 0xFFEF := by
    rw [hheader]
    decide +kernel
  have hrange : clusterPosition p 0xFFEF 0 < 2147483648 := by
    unfold clusterPosition i32
    omega
  omega

end BoiOS
