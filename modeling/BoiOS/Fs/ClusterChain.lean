import BoiOS.Fs.FatFrame
import BoiOS.Library.Walk

/-! Walks along the cluster chain. The table describes the chain by the entry of each cluster,
two bytes from `2 * cluster` on behind the reserved sectors; the driver multiplies the place of
the table by the place in it, and reads another entry. -/
namespace BoiOS
open Library.StateRun Library.Walk

/-! The chain in the table. -/

def diskByte (disk : Disk) (position : Nat) : UInt8 := disk.sectors (position / 512) (position % 512)

def fatEntry (disk : Disk) (reservedSectors cluster : Nat) : Nat :=
  (diskByte disk (reservedSectors * 512 + 2 * cluster)).toNat +
    256 * (diskByte disk (reservedSectors * 512 + 2 * cluster + 1)).toNat

/-- Zero is a free entry, one is reserved, and so are those from 0xFFF0 on up to the bad mark
0xFFF7 and the end marks behind it. -/
def IsDataCluster (entry : Nat) : Prop := 2 ≤ entry ∧ entry ≤ 0xFFEF

instance (entry : Nat) : Decidable (IsDataCluster entry) := inferInstanceAs (Decidable (_ ∧ _))

def fatLink (disk : Disk) (reservedSectors cluster : Nat) : Option Nat :=
  let entry := fatEntry disk reservedSectors cluster
  if IsDataCluster entry then some entry else none

/-! The chain the driver follows. -/

def readPosition (reservedSectors cluster : Nat) : Int :=
  i32 (u32 (reservedSectors * 512) * (cluster * boiosFat16NewEntrySize))

def readEntry (disk : Disk) (reservedSectors cluster : Nat) : Nat :=
  let sector := u32 ((readPosition reservedSectors cluster).tdiv boiosSectorSize)
  (disk.sectors sector 0).toNat + 256 * (disk.sectors sector 1).toNat

/-- The entries at which `fat16_get_cluster_for_offset` gives up. -/
def refusedEntries : List Nat := [0x00, 0xFF0, 0xFF6, 0xFF7, 0xFF8, 0xFFF]

def readLink (disk : Disk) (reservedSectors cluster : Nat) : Option Nat :=
  let entry := readEntry disk reservedSectors cluster
  if entry ∈ refusedEntries then none else some entry

/-- The driver takes the step from the cluster that the table describes: it reads the number of
the next cluster, and not one that it takes for a mark, or it reads such a mark where the chain
ends. -/
def EntryRead (disk : Disk) (reservedSectors cluster : Nat) : Prop :=
  let entry := fatEntry disk reservedSectors cluster
  let read := readEntry disk reservedSectors cluster
  if IsDataCluster entry then read = entry ∧ entry ∉ refusedEntries else read ∈ refusedEntries

theorem readLink_eq_iff {disk : Disk} {reservedSectors cluster : Nat} :
    readLink disk reservedSectors cluster = fatLink disk reservedSectors cluster ↔
      EntryRead disk reservedSectors cluster := by
  unfold readLink fatLink EntryRead
  by_cases hread : readEntry disk reservedSectors cluster ∈ refusedEntries
  · by_cases hdata : IsDataCluster (fatEntry disk reservedSectors cluster)
    · simp only [if_pos hread, if_pos hdata]
      constructor
      · intro h
        cases h
      · rintro ⟨heq, hnot⟩
        exact (hnot (heq ▸ hread)).elim
    · rw [if_pos hread, if_neg hdata, if_neg hdata]
      exact iff_of_true rfl hread
  · by_cases hdata : IsDataCluster (fatEntry disk reservedSectors cluster)
    · simp only [if_neg hread, if_pos hdata, Option.some.injEq]
      constructor
      · intro heq
        exact ⟨heq, heq ▸ hread⟩
      · intro h
        exact h.1
    · rw [if_neg hread, if_neg hdata, if_neg hdata]
      exact iff_of_false (Option.some_ne_none _) hread

/-! The driver on a mounted volume. -/

/-- What mounting leaves behind: the private data with an open stream for the table, and a volume
whose clusters have a size. -/
structure Mounted (k : Kernel) (fatPrivate : FatPrivate) : Prop where
  sectorSize : k.disk.sectorSize = 512
  fsPrivate : k.disk.fsPrivate = some fatPrivate
  stream : fatPrivate.fatReadStream ≠ 0
  opened : ∃ position, k.streams fatPrivate.fatReadStream = some position
  sectorsPerCluster : 0 < fatPrivate.header.sectorsPerCluster

theorem readPosition_tmod (reservedSectors cluster : Nat) :
    (readPosition reservedSectors cluster).tmod boiosSectorSize = 0 := by
  have htable : (512 : Int) ∣ u32 (reservedSectors * 512) := by
    rw [u32_natCast_eq]
    omega
  have hproduct := htable.mul_right (cluster * boiosFat16NewEntrySize)
  refine Int.tmod_eq_zero_of_dvd ?_
  unfold readPosition boiosSectorSize
  generalize (u32 (reservedSectors * 512) : Int) * (cluster * boiosFat16NewEntrySize) = position
    at hproduct
  unfold i32
  omega

def Kernel.seek (k : Kernel) (stream : Nat) (position : Int) : Kernel :=
  { k with streams := Function.update k.streams stream (some position) }

/-- Besides the positions of streams nothing changed, and the streams that were open are open. -/
structure Kernel.StreamsMoved (k k' : Kernel) : Prop where
  only : k.StreamsOnly k'
  opened : ∀ stream, (k.streams stream).isSome → (k'.streams stream).isSome

namespace Kernel.StreamsMoved

theorem refl (k : Kernel) : k.StreamsMoved k := ⟨.refl k, fun _ h => h⟩

theorem trans {k k' k'' : Kernel} (h : k.StreamsMoved k') (h' : k'.StreamsMoved k'') :
    k.StreamsMoved k'' :=
  ⟨h.only.trans h'.only, fun stream hopened => h'.opened stream (h.opened stream hopened)⟩

theorem of_seek (k : Kernel) (stream : Nat) (position : Int) :
    k.StreamsMoved (k.seek stream position) := by
  refine ⟨rfl, fun s hopened => ?_⟩
  unfold Kernel.seek
  by_cases hs : s = stream
  · rw [hs]
    dsimp only
    rw [Function.update_self]
    rfl
  · dsimp only
    rwa [Function.update_of_ne hs]

theorem disk {k k' : Kernel} (h : k.StreamsMoved k') : k'.disk = k.disk := by rw [h.only]

theorem memory {k k' : Kernel} (h : k.StreamsMoved k') : k'.memory = k.memory := by rw [h.only]

theorem withMemory {k k' : Kernel} (h : k.StreamsMoved k') (memory : Memory) :
    ({ k with memory } : Kernel).StreamsMoved { k' with memory } := by
  refine ⟨?_, h.opened⟩
  unfold Kernel.StreamsOnly
  rw [h.only]

end Kernel.StreamsMoved

theorem diskstreamerRead_pair {k : Kernel} {stream : Nat} {position : Int}
    (hstream : k.streams stream = some position) (hoffset : position.tmod boiosSectorSize = 0) :
    diskstreamerRead stream 2 k =
      .ok ((allOk, [k.disk.sectors (u32 (position.tdiv boiosSectorSize)) 0,
        k.disk.sectors (u32 (position.tdiv boiosSectorSize)) 1]),
        k.seek stream (i32 (position + 2))) := by
  have hreach : i32 (0 + 2) = 2 := i32_of_range (by decide) (by decide)
  unfold diskstreamerRead
  change diskstreamerReadLoop 3 stream 2 k = _
  unfold diskstreamerReadLoop
  rw [bind_of_ok (get_apply k), bind_of_ok (fetch_eq_ok.mpr ⟨hstream, rfl⟩)]
  simp only [hoffset, hreach]
  rfl

theorem Mounted.moved {k k' : Kernel} {p : FatPrivate} (h : Mounted k p)
    (hmoved : k.StreamsMoved k') : Mounted k' p where
  sectorSize := by rw [hmoved.disk, h.sectorSize]
  fsPrivate := by rw [hmoved.disk, h.fsPrivate]
  stream := h.stream
  opened := by
    obtain ⟨position, hopened⟩ := h.opened
    exact Option.isSome_iff_exists.mp (hmoved.opened _ (by rw [hopened]; rfl))
  sectorsPerCluster := h.sectorsPerCluster

theorem diskstreamerSeek_apply {k : Kernel} {stream : Nat} (position : Int)
    (hopened : (k.streams stream).isSome) :
    diskstreamerSeek stream position k = .ok (allOk, k.seek stream position) := by
  obtain ⟨old, hold⟩ := Option.isSome_iff_exists.mp hopened
  unfold diskstreamerSeek
  rw [bind_of_ok (get_apply k), bind_of_ok (fetch_eq_ok.mpr ⟨hold, rfl⟩),
    bind_of_ok (modify_apply ..)]
  rfl

theorem fat16GetFatEntry_run {k : Kernel} {p : FatPrivate} (hmounted : Mounted k p)
    (cluster : Nat) : ∃ k', fat16GetFatEntry cluster k =
      .ok ((readEntry k.disk p.header.reservedSectors cluster : Int), k') ∧ k.StreamsMoved k' := by
  let sought := readPosition p.header.reservedSectors cluster
  have hposition : i32 (u32 (fat16GetFirstFatSector p * k.disk.sectorSize) *
      (cluster * boiosFat16NewEntrySize)) = sought := by
    rw [hmounted.sectorSize]
    rfl
  have hseek := diskstreamerSeek_apply sought (Option.isSome_iff_exists.mpr hmounted.opened)
  have hread := diskstreamerRead_pair (k := k.seek p.fatReadStream sought) (Function.update_self ..)
    (readPosition_tmod p.header.reservedSectors cluster)
  refine ⟨(k.seek p.fatReadStream sought).seek p.fatReadStream (i32 (sought + 2)), ?_,
    (Kernel.StreamsMoved.of_seek ..).trans (.of_seek ..)⟩
  unfold fat16GetFatEntry
  rw [bind_of_ok (get_apply k), bind_of_ok (fatPrivate_apply hmounted.fsPrivate)]
  dsimp only
  rw [if_neg hmounted.stream, hposition, bind_of_ok hseek, if_neg (by decide), bind_of_ok hread]
  dsimp only
  rw [if_neg (by decide)]
  rfl

/-! Walks. -/

/-- What the caller gets for a walk: the cluster it ends at, or a negative code. -/
def Reached (result : Int) : Option Nat → Prop
  | some cluster => result = cluster
  | none => result < 0

theorem Reached.unique {result : Int} {a b : Option Nat} (ha : Reached result a)
    (hb : Reached result b) : a = b := by
  cases a with
  | none =>
    cases b with
    | none => rfl
    | some d =>
      unfold Reached at ha hb
      omega
  | some c =>
    cases b with
    | none =>
      unfold Reached at ha hb
      omega
    | some d =>
      unfold Reached at ha hb
      rw [show c = d by omega]

def walkResponse (reached : Option Nat) : Int := reached.elim (-eio) fun cluster => cluster

theorem reached_walkResponse (reached : Option Nat) : Reached (walkResponse reached) reached := by
  cases reached with
  | none => exact (by decide : -eio < 0)
  | some cluster => exact (rfl : (cluster : Int) = cluster)

theorem fat16WalkClusters_computes {k : Kernel} {p : FatPrivate} (hmounted : Mounted k p)
    (count cluster : Nat) : Computes Kernel.StreamsMoved k (fat16WalkClusters count cluster)
      (.ok (walkResponse (walk (readLink k.disk p.header.reservedSectors) count cluster))) := by
  induction count generalizing k cluster with
  | zero => exact .pure .refl k _
  | succ count ih =>
    obtain ⟨k₁, hentry, hmoved⟩ := fat16GetFatEntry_run hmounted cluster
    unfold fat16WalkClusters
    refine .step .trans hentry hmoved ?_
    rw [walk_succ]
    by_cases hrefused : readEntry k.disk p.header.reservedSectors cluster ∈ refusedEntries
    · have hlink : readLink k.disk p.header.reservedSectors cluster = none := if_pos hrefused
      rw [hlink]
      simp only [refusedEntries, List.mem_cons, List.not_mem_nil, or_false] at hrefused
      rcases hrefused with h | h | h | h | h | h <;> rw [h] <;> exact .pure .refl k₁ _
    · have hlink : readLink k.disk p.header.reservedSectors cluster =
          some (readEntry k.disk p.header.reservedSectors cluster) := if_neg hrefused
      have hrest := ih (hmounted.moved hmoved) (readEntry k.disk p.header.reservedSectors cluster)
      rw [hmoved.disk] at hrest
      simp only [refusedEntries, List.mem_cons, List.not_mem_nil, or_false] at hrefused
      push Not at hrefused
      unfold boiosFat16BadSector
      rw [hlink, Option.bind_some, if_neg (by omega), if_neg (by omega), if_neg (by omega),
        if_neg (by omega)]
      exact hrest

def clusterBytes (p : FatPrivate) : Nat := p.header.sectorsPerCluster * 512

theorem Mounted.clusterBytes_pos {k : Kernel} {p : FatPrivate} (hmounted : Mounted k p) :
    0 < clusterBytes p := by
  have hpos := hmounted.sectorsPerCluster
  unfold clusterBytes
  omega

theorem Mounted.sizeOfClusterBytes {k : Kernel} {p : FatPrivate} (h : Mounted k p) :
    sizeOfClusterBytes p k.disk = clusterBytes p := by
  unfold BoiOS.sizeOfClusterBytes clusterBytes
  rw [h.sectorSize]
  push_cast
  rfl

/-- The cluster that holds an offset of the file, as far as the driver follows the chain. -/
def clusterAt (disk : Disk) (p : FatPrivate) (startingCluster : Nat) (offset : Int) : Option Nat :=
  walk (readLink disk p.header.reservedSectors) (offset.tdiv (clusterBytes p)).toNat startingCluster

theorem fat16GetClusterForOffset_computes {k : Kernel} {p : FatPrivate} (hmounted : Mounted k p)
    (startingCluster : Nat) (offset : Int) :
    Computes Kernel.StreamsMoved k (fat16GetClusterForOffset startingCluster offset)
      (.ok (walkResponse (clusterAt k.disk p startingCluster offset))) := by
  have hpos := hmounted.clusterBytes_pos
  unfold fat16GetClusterForOffset
  refine .read (get_apply k) (.read (fatPrivate_apply hmounted.fsPrivate) ?_)
  dsimp only
  rw [hmounted.sizeOfClusterBytes, if_neg (by omega)]
  exact fat16WalkClusters_computes hmounted _ _

theorem fat16GetClusterForOffset_run {k : Kernel} {p : FatPrivate} (hmounted : Mounted k p)
    (startingCluster offset : Nat) : ∃ result k',
      fat16GetClusterForOffset startingCluster offset k = .ok (result, k') ∧
      Reached result (walk (readLink k.disk p.header.reservedSectors) (offset / clusterBytes p)
        startingCluster) := by
  obtain ⟨k', hrun, -⟩ := fat16GetClusterForOffset_computes hmounted startingCluster offset
  exact ⟨_, k', hrun, reached_walkResponse _⟩

/-- The function gives, at every offset up to `bound`, the cluster that the table has there for
the chain from `startingCluster`, exactly if the driver takes every step on the way as the table
describes it. -/
theorem fat16_get_cluster_for_offset_iff {k : Kernel} {p : FatPrivate} (hmounted : Mounted k p)
    (startingCluster bound : Nat) :
    (∀ offset : Nat, offset ≤ bound → ∃ result k',
      fat16GetClusterForOffset startingCluster offset k = .ok (result, k') ∧
      Reached result (walk (fatLink k.disk p.header.reservedSectors) (offset / clusterBytes p)
        startingCluster)) ↔
      ∀ m < bound / clusterBytes p, ∀ cluster,
        walk (fatLink k.disk p.header.reservedSectors) m startingCluster = some cluster →
        EntryRead k.disk p.header.reservedSectors cluster := by
  have hpos := hmounted.clusterBytes_pos
  have hsteps : (∀ m < bound / clusterBytes p, ∀ cluster,
      walk (fatLink k.disk p.header.reservedSectors) m startingCluster = some cluster →
      EntryRead k.disk p.header.reservedSectors cluster) ↔ ∀ m ≤ bound / clusterBytes p,
      walk (readLink k.disk p.header.reservedSectors) m startingCluster =
        walk (fatLink k.disk p.header.reservedSectors) m startingCluster := by
    rw [walk_eq_iff]
    simp only [readLink_eq_iff]
  rw [hsteps]
  constructor
  · intro h m hm
    have hoffset : m * clusterBytes p ≤ bound :=
      (Nat.mul_le_mul_right _ hm).trans (Nat.div_mul_le_self ..)
    obtain ⟨result, k', hrun, hreached⟩ := h (m * clusterBytes p) hoffset
    obtain ⟨result₁, k₁, hrun₁, hreached₁⟩ :=
      fat16GetClusterForOffset_run hmounted startingCluster (m * clusterBytes p)
    rw [hrun, Except.ok.injEq, Prod.mk.injEq] at hrun₁
    rw [← hrun₁.1] at hreached₁
    rw [Nat.mul_div_cancel m hpos] at hreached hreached₁
    exact hreached₁.unique hreached
  · intro h offset hoffset
    obtain ⟨result, k', hrun, hreached⟩ :=
      fat16GetClusterForOffset_run hmounted startingCluster offset
    refine ⟨result, k', hrun, ?_⟩
    rw [← h _ (Nat.div_le_div_right hoffset)]
    exact hreached

/-! A volume with one reserved sector and one sector a cluster, on which cluster 2 is followed by
cluster 3, where the chain ends. The driver looks for the entry of cluster 2 in sector 4. -/

def chainPrivate : FatPrivate := ⟨⟨1, 1, 2, 16, 1⟩, ⟨0, 0, 0, 0⟩, 1, 2, 3⟩

def chainSector (sectorFour : UInt8) (sector : Nat) : List UInt8 :=
  if sector = 1 then [0xF8, 0xFF, 0xFF, 0xFF, 3, 0, 0xFF, 0xFF]
  else if sector = 4 then [sectorFour]
  else []

def chainKernel (sectorFour : UInt8) : Kernel :=
  { emptyKernel 1 with
    disk := ⟨512, 1, some chainPrivate, fun sector i => (chainSector sectorFour sector).getD i 0⟩
    streams := fun _ => some 0 }

theorem chainKernel_mounted (sectorFour : UInt8) : Mounted (chainKernel sectorFour) chainPrivate where
  sectorSize := rfl
  fsPrivate := rfl
  stream := by decide
  opened := ⟨0, rfl⟩
  sectorsPerCluster := by decide

theorem fat16_get_cluster_for_offset_iff_chainKernel :
    ∃ k', fat16GetClusterForOffset 2 512 (chainKernel 3) = .ok (3, k') := by
  have hread : EntryRead (chainKernel 3).disk chainPrivate.header.reservedSectors 2 := by
    unfold EntryRead
    decide +kernel
  have hsteps : 512 / clusterBytes chainPrivate = 1 := by decide
  have hevery := (fat16_get_cluster_for_offset_iff (chainKernel_mounted 3) 2 512).mpr (by
    intro m hm cluster hwalk
    rw [hsteps] at hm
    rw [Nat.lt_one_iff.mp hm, walk_zero, Option.some.injEq] at hwalk
    rw [← hwalk]
    exact hread)
  obtain ⟨result, k', hrun, hreached⟩ := hevery 512 le_rfl
  have hchain : walk (fatLink (chainKernel 3).disk chainPrivate.header.reservedSectors)
      (512 / clusterBytes chainPrivate) 2 = some 3 := by decide +kernel
  rw [hchain] at hreached
  have hresult : result = 3 := hreached
  rw [hresult] at hrun
  exact ⟨k', hrun⟩

theorem fat16_get_cluster_for_offset_not_always_chain :
    ¬ ∀ (k : Kernel) (p : FatPrivate), Mounted k p → ∀ startingCluster offset : Nat,
      ∃ result k', fat16GetClusterForOffset startingCluster offset k = .ok (result, k') ∧
        Reached result (walk (fatLink k.disk p.header.reservedSectors) (offset / clusterBytes p)
          startingCluster) := by
  intro h
  obtain ⟨result, k', hrun, hreached⟩ := h (chainKernel 0) chainPrivate (chainKernel_mounted 0) 2 512
  have hvalue : value? (fat16GetClusterForOffset 2 512 (chainKernel 0)) = some (-1) := by
    decide +kernel
  have hchain : walk (fatLink (chainKernel 0).disk chainPrivate.header.reservedSectors)
      (512 / clusterBytes chainPrivate) 2 = some 3 := by decide +kernel
  have hresult : value? (fat16GetClusterForOffset 2 512 (chainKernel 0)) = some result :=
    congrArg value? hrun
  rw [hvalue, Option.some.injEq] at hresult
  rw [hchain, ← hresult] at hreached
  change (-1 : Int) = 3 at hreached
  exact absurd hreached (by decide)

end BoiOS
