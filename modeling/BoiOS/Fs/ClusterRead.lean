import BoiOS.Fs.ClusterChain

/-! Reads along a cluster chain. What a read delivers is a function of the disk: the steps that
`fat16_read_internal_from_stream` takes, each from a position of the disk on. A step is as long as
a cluster, wherever in a cluster it begins. -/
namespace BoiOS
open Library.StateRun Library.Walk

/-! The stream. -/

def streamReadLoop (disk : Disk) : (fuel : Nat) → (position total : Int) →
    Except Stop (List UInt8)
  | 0, _, _ => .error .faulted
  | fuel + 1, position, total =>
      let sector := position.tdiv boiosSectorSize
      let offset := position.tmod boiosSectorSize
      let reach := i32 (offset + total)
      let totalToRead := if reach ≥ boiosSectorSize then total - (reach - boiosSectorSize) else total
      if 0 < totalToRead ∧ (offset < 0 ∨ boiosSectorSize < offset + totalToRead) then
        .error .faulted
      else
        let bytes := (List.range totalToRead.toNat).map fun i =>
          disk.sectors (u32 sector) (offset.toNat + i)
        if reach ≥ boiosSectorSize then
          (streamReadLoop disk fuel (i32 (position + totalToRead)) (total - totalToRead)).map
            fun rest => bytes ++ rest
        else .ok bytes

def streamRead (disk : Disk) (position total : Int) : Except Stop (List UInt8) :=
  streamReadLoop disk (total.toNat + 1) position total

theorem diskstreamerReadLoop_computes {k : Kernel} {stream fuel : Nat} {position total : Int}
    (hstream : k.streams stream = some position) :
    Computes Kernel.StreamsMoved k (diskstreamerReadLoop fuel stream total)
      ((streamReadLoop k.disk fuel position total).map fun bytes => (allOk, bytes)) := by
  induction fuel generalizing k position total with
  | zero => rfl
  | succ fuel ih =>
    unfold diskstreamerReadLoop streamReadLoop
    refine .read (get_apply k) (.read (fetch_eq_ok.mpr ⟨hstream, rfl⟩) ?_)
    dsimp only
    generalize i32 (position.tmod boiosSectorSize + total) = reach
    generalize (if reach ≥ boiosSectorSize then total - (reach - boiosSectorSize) else total) =
      totalToRead
    by_cases houtside : 0 < totalToRead ∧ (position.tmod boiosSectorSize < 0 ∨
        boiosSectorSize < position.tmod boiosSectorSize + totalToRead)
    · unfold sectorBytes
      rw [if_pos houtside, if_pos houtside]
      rfl
    · have hnow : (k.seek stream (i32 (position + totalToRead))).streams stream =
          some (i32 (position + totalToRead)) := Function.update_self ..
      unfold sectorBytes
      rw [if_neg houtside, if_neg houtside]
      refine .read rfl (.step .trans (modify_apply ..) (.of_seek k stream _) ?_)
      by_cases hreach : reach ≥ boiosSectorSize
      · rw [if_pos hreach, if_pos hreach]
        have hrest : Computes _ _ (diskstreamerReadLoop fuel stream (total - totalToRead)) _ :=
          ih hnow
        dsimp only [Kernel.seek] at hrest
        generalize streamReadLoop k.disk fuel (i32 (position + totalToRead)) (total - totalToRead) =
          r at hrest ⊢
        cases r with
        | error e => exact hrest.bind (g := fun _ => .error e) .trans fun _ _ h _ => by cases h
        | ok rest =>
          obtain ⟨k', hrun, hmoved⟩ := hrest
          exact .step .trans hrun hmoved (.pure .refl _ _)
      · rw [if_neg hreach, if_neg hreach]
        exact .pure .refl _ _

theorem diskstreamerRead_computes {k : Kernel} {stream : Nat} {position : Int} (total : Int)
    (hstream : k.streams stream = some position) :
    Computes Kernel.StreamsMoved k (diskstreamerRead stream total)
      ((streamRead k.disk position total).map fun bytes => (allOk, bytes)) :=
  diskstreamerReadLoop_computes hstream

def diskBytes (disk : Disk) (position total : Nat) : List UInt8 :=
  (List.range total).map fun i => diskByte disk (position + i)

theorem diskBytes_append (disk : Disk) (position m n : Nat) :
    diskBytes disk position m ++ diskBytes disk (position + m) n = diskBytes disk position (m + n) := by
  unfold diskBytes
  rw [List.range_add, List.map_append, List.map_map]
  simp only [Function.comp_def, Nat.add_assoc]

theorem diskBytes_sector {disk : Disk} {position total : Nat} (h : position % 512 + total ≤ 512) :
    (List.range total).map (fun i => disk.sectors (position / 512) (position % 512 + i)) =
      diskBytes disk position total := by
  refine List.map_congr_left fun i hi => ?_
  have hlt := List.mem_range.mp hi
  unfold diskByte
  rw [show (position + i) / 512 = position / 512 by omega,
    show (position + i) % 512 = position % 512 + i by omega]

theorem streamReadLoop_eq {disk : Disk} {fuel position total : Nat} (hfuel : total < fuel)
    (hend : position + total < 2147483648) :
    streamReadLoop disk fuel position total = .ok (diskBytes disk position total) := by
  induction fuel generalizing position total with
  | zero => omega
  | succ fuel ih =>
    have hsector : u32 ((position : Int).tdiv boiosSectorSize) = position / 512 := by
      rw [show (position : Int).tdiv boiosSectorSize = (position / 512 : Nat) from rfl,
        u32_natCast (by omega)]
    have hoffset : (position : Int).tmod boiosSectorSize = (position % 512 : Nat) := rfl
    have hreach : i32 (((position % 512 : Nat) : Int) + (total : Nat)) =
        (position % 512 + total : Nat) := by
      rw [i32_of_range (by omega) (by omega)]
      rfl
    unfold streamReadLoop
    dsimp only
    rw [hsector, hoffset, hreach]
    by_cases hover : 512 ≤ position % 512 + total
    · have htake : (total : Int) - (((position % 512 + total : Nat) : Int) - boiosSectorSize) =
          (512 - position % 512 : Nat) := by
        unfold boiosSectorSize
        omega
      have hnext : i32 ((position : Int) + (512 - position % 512 : Nat)) =
          (position + (512 - position % 512) : Nat) := by
        rw [i32_of_range (by omega) (by omega)]
        rfl
      have hleft : (total : Int) - (512 - position % 512 : Nat) =
          (total - (512 - position % 512) : Nat) := by omega
      have hin : ¬ ((0 : Int) < (512 - position % 512 : Nat) ∧
          (((position % 512 : Nat) : Int) < 0 ∨
            boiosSectorSize < ((position % 512 : Nat) : Int) + (512 - position % 512 : Nat))) := by
        unfold boiosSectorSize
        omega
      have hreaches : ((position % 512 + total : Nat) : Int) ≥ boiosSectorSize := by
        unfold boiosSectorSize
        omega
      rw [if_pos hreaches, htake, if_neg hin, if_pos hreaches, hnext, hleft,
        ih (by omega) (by omega), Int.toNat_natCast, Int.toNat_natCast,
        diskBytes_sector (by omega)]
      change Except.ok (_ ++ _) = _
      rw [diskBytes_append, Nat.add_sub_cancel' (by omega)]
    · have hin : ¬ ((0 : Int) < (total : Nat) ∧ (((position % 512 : Nat) : Int) < 0 ∨
          boiosSectorSize < ((position % 512 : Nat) : Int) + (total : Nat))) := by
        unfold boiosSectorSize
        omega
      have hreaches : ¬ ((position % 512 + total : Nat) : Int) ≥ boiosSectorSize := by
        unfold boiosSectorSize
        omega
      rw [if_neg hreaches, if_neg hin, if_neg hreaches, Int.toNat_natCast, Int.toNat_natCast,
        diskBytes_sector (by omega)]

/-! The steps. -/

/-- A mounted volume whose clusters can be read: their stream is open too. -/
structure Readable (k : Kernel) (p : FatPrivate) : Prop extends Mounted k p where
  clusterOpened : (k.streams p.clusterReadStream).isSome

theorem Readable.moved {k k' : Kernel} {p : FatPrivate} (h : Readable k p)
    (hmoved : k.StreamsMoved k') : Readable k' p :=
  ⟨h.toMounted.moved hmoved, hmoved.opened _ h.clusterOpened⟩

theorem Readable.withMemory {k : Kernel} {p : FatPrivate} (h : Readable k p) (memory : Memory) :
    Readable { k with memory } p :=
  ⟨⟨h.sectorSize, h.fsPrivate, h.stream, h.opened, h.sectorsPerCluster⟩, h.clusterOpened⟩

/-- One step of a read: the offset in the file, the position on the disk, and the number of bytes.
There is no position where the chain ends before the offset. -/
structure ReadStep where
  offset : Int
  position : Option Int
  length : Int
  deriving DecidableEq

def clusterPosition (p : FatPrivate) (cluster : Nat) (offset : Int) : Int :=
  i32 (fat16ClusterToSector p cluster * 512 + offset.tmod (clusterBytes p))

def readStepsLoop (disk : Disk) (p : FatPrivate) (startingCluster : Nat) : (count : Nat) →
    (offset total : Int) → List ReadStep
  | 0, _, _ => []
  | count + 1, offset, total =>
      let length := if total > clusterBytes p then (clusterBytes p : Int) else total
      ⟨offset, (clusterAt disk p startingCluster offset).map fun c => clusterPosition p c offset,
        length⟩ :: readStepsLoop disk p startingCluster count (i32 (offset + length)) (total - length)

/-- How many clusters a read of `total` bytes takes, the last one in part. -/
def stepCount (p : FatPrivate) (total : Int) : Nat := ((total - 1) / clusterBytes p).toNat + 1

def readSteps (disk : Disk) (p : FatPrivate) (startingCluster : Nat) (offset total : Int) :
    List ReadStep := readStepsLoop disk p startingCluster (stepCount p total) offset total

theorem stepCount_of_gt {p : FatPrivate} (hpos : 0 < clusterBytes p) {total : Int}
    (hmore : total > clusterBytes p) :
    ((total - 1) / clusterBytes p).toNat = stepCount p (total - clusterBytes p) := by
  have hquotient : (total - 1) / clusterBytes p = (total - clusterBytes p - 1) / clusterBytes p + 1 := by
    rw [← Int.add_mul_ediv_right _ 1 (by omega)]
    congr 1
    omega
  have hrest : 0 ≤ (total - clusterBytes p - 1) / clusterBytes p :=
    Int.ediv_nonneg (by omega) (by omega)
  unfold stepCount
  omega

theorem stepCount_of_le {p : FatPrivate} (hpos : 0 < clusterBytes p) {total : Int}
    (hone : ¬ total > clusterBytes p) : ((total - 1) / clusterBytes p).toNat = 0 := by
  have hzero : (total - 1) / clusterBytes p < 1 :=
    Int.ediv_lt_of_lt_mul (by omega) (by omega)
  omega

theorem readSteps_start (disk : Disk) (p : FatPrivate) (startingCluster : Nat) (total : Int) :
    ∃ length rest, readSteps disk p startingCluster 0 total =
      ⟨0, some (clusterPosition p startingCluster 0), length⟩ :: rest := by
  have hfirst : clusterAt disk p startingCluster 0 = some startingCluster := by
    unfold clusterAt
    rw [Int.zero_tdiv]
    rfl
  unfold readSteps stepCount readStepsLoop
  rw [hfirst]
  exact ⟨_, _, rfl⟩

/-- The status and the bytes of a read that takes the steps. -/
def performSteps (disk : Disk) : List ReadStep → Except Stop (Int × List UInt8)
  | [] => .ok (allOk, [])
  | step :: rest =>
      match step.position with
      | none => .ok (-eio, [])
      | some position =>
          (streamRead disk position step.length).bind fun bytes =>
            (performSteps disk rest).map fun r => (r.1, bytes ++ r.2)

theorem performSteps_cons_none {disk : Disk} {step : ReadStep} (h : step.position = none)
    (rest : List ReadStep) : performSteps disk (step :: rest) = .ok (-eio, []) := by
  rw [performSteps, h]

theorem performSteps_cons_some {disk : Disk} {step : ReadStep} {position : Int}
    (h : step.position = some position) (rest : List ReadStep) :
    performSteps disk (step :: rest) = (streamRead disk position step.length).bind fun bytes =>
      (performSteps disk rest).map fun r => (r.1, bytes ++ r.2) := by
  rw [performSteps, h]

theorem fat16ReadInternalFromStream_computes {k : Kernel} {p : FatPrivate} (h : Readable k p)
    {fuel cluster : Nat} {offset total : Int} (hfuel : stepCount p total ≤ fuel) :
    Computes Kernel.StreamsMoved k
      (fat16ReadInternalFromStream p.clusterReadStream fuel cluster offset total)
      (performSteps k.disk (readSteps k.disk p cluster offset total)) := by
  have hpos := h.clusterBytes_pos
  induction fuel generalizing k offset total with
  | zero =>
    unfold stepCount at hfuel
    omega
  | succ fuel ih =>
    unfold fat16ReadInternalFromStream
    refine .read (get_apply k) (.read (fatPrivate_apply h.fsPrivate) ?_)
    obtain ⟨k₁, hcluster, hmoved₁⟩ := fat16GetClusterForOffset_computes h.toMounted cluster offset
    refine .step .trans hcluster hmoved₁ ?_
    unfold readSteps
    unfold stepCount readStepsLoop performSteps
    dsimp only
    cases hat : clusterAt k.disk p cluster offset with
    | none => exact .pure .refl k₁ _
    | some c =>
      have hsome : ¬ walkResponse (some c) < 0 := Int.not_lt.mpr (Int.natCast_nonneg c)
      have hposition : i32 (fat16ClusterToSector p (walkResponse (some c)) * k.disk.sectorSize +
          offset.tmod (sizeOfClusterBytes p k.disk)) = clusterPosition p c offset := by
        rw [h.sectorSize, h.sizeOfClusterBytes]
        rfl
      have hseek := diskstreamerSeek_apply (clusterPosition p c offset) (h.moved hmoved₁).clusterOpened
      rw [if_neg hsome, Option.map_some, hposition, h.sizeOfClusterBytes]
      refine .step .trans hseek (.of_seek ..) ?_
      dsimp only
      rw [if_neg (not_not.mpr rfl)]
      generalize hlength : (if total > clusterBytes p then (clusterBytes p : Int) else total) = length
      let k₂ := k₁.seek p.clusterReadStream (clusterPosition p c offset)
      have hmoved₂ : k.StreamsMoved k₂ := hmoved₁.trans (.of_seek ..)
      have hstream₂ : k₂.streams p.clusterReadStream = some (clusterPosition p c offset) :=
        Function.update_self ..
      have hread := diskstreamerRead_computes length hstream₂
      rw [hmoved₂.disk] at hread
      cases hbytes : streamRead k.disk (clusterPosition p c offset) length with
      | error e =>
        rw [hbytes] at hread
        exact hread.bind (g := fun _ => .error e) .trans fun _ _ h _ => by cases h
      | ok bytes =>
        rw [hbytes] at hread
        obtain ⟨k₃, hrun, hmoved₃⟩ := hread
        refine .step .trans hrun hmoved₃ ?_
        dsimp only
        rw [if_neg (not_not.mpr rfl)]
        by_cases hmore : total > clusterBytes p
        · rw [if_pos hmore] at hlength
          subst hlength
          have hcount := stepCount_of_gt hpos hmore
          have hmoved := hmoved₂.trans hmoved₃
          have hfuel' : stepCount p (total - clusterBytes p) ≤ fuel := by
            unfold stepCount at hfuel
            omega
          have hrest : Computes _ _ (fat16ReadInternalFromStream _ fuel cluster
            (i32 (offset + clusterBytes p)) _) _ := ih (h.moved hmoved) hfuel'
          rw [hmoved.disk] at hrest
          unfold readSteps at hrest
          rw [if_pos (by omega), hcount]
          dsimp only [Except.bind]
          generalize performSteps k.disk _ = r at hrest ⊢
          cases r with
          | error e => exact hrest.bind (g := fun _ => .error e) .trans fun _ _ h _ => by cases h
          | ok r =>
            obtain ⟨k₄, hrun', hmoved₄⟩ := hrest
            exact .step .trans hrun' hmoved₄ (.pure .refl _ _)
        · rw [if_neg hmore] at hlength
          rw [if_neg (by omega), stepCount_of_le hpos hmore]
          have hall : ((Except.ok bytes : Except Stop (List UInt8)).bind fun bytes =>
              (performSteps k.disk (readStepsLoop k.disk p cluster 0 (i32 (offset + length))
                (total - length))).map fun r => (r.1, bytes ++ r.2)) = .ok (allOk, bytes) := by
            change Except.ok (allOk, bytes ++ []) = _
            rw [List.append_nil]
          rw [hall]
          exact .pure .refl _ _

theorem stepCount_le (p : FatPrivate) (hpos : 0 < clusterBytes p) (total : Int) :
    stepCount p total ≤ total.toNat + 1 := by
  unfold stepCount
  by_cases htotal : 0 ≤ total - 1
  · have hle : (total - 1) / clusterBytes p ≤ total - 1 := Int.ediv_le_self _ htotal
    omega
  · have hzero : (total - 1) / clusterBytes p < 1 :=
      Int.ediv_lt_of_lt_mul (by omega) (by omega)
    omega

theorem fat16ReadInternal_computes {k : Kernel} {p : FatPrivate} (h : Readable k p) (cluster : Nat)
    (offset total : Int) : Computes Kernel.StreamsMoved k (fat16ReadInternal cluster offset total)
      (performSteps k.disk (readSteps k.disk p cluster offset total)) := by
  unfold fat16ReadInternal
  refine .read (fatPrivate_apply h.fsPrivate) ?_
  exact fat16ReadInternalFromStream_computes h (stepCount_le p h.clusterBytes_pos total)

/-! Steps in clusters. -/

/-- The step reads from the cluster that holds its offset, at its place there, and not beyond it. -/
def ReadStep.InCluster (disk : Disk) (p : FatPrivate) (startingCluster : Nat) (step : ReadStep) :
    Prop :=
  ∃ cluster, clusterAt disk p startingCluster step.offset = some cluster ∧
    step.position = some (fat16ClusterToSector p cluster * 512 + step.offset % clusterBytes p) ∧
    step.offset % clusterBytes p + step.length ≤ clusterBytes p

/-- The steps cover the bytes from `low` to `high`, each of them once and in order. -/
def Tiles : (low : Int) → List ReadStep → (high : Int) → Prop
  | low, [], high => low = high
  | low, step :: rest, high => step.offset = low ∧ 0 < step.length ∧ Tiles (low + step.length) rest high

/-- The position of a place in the cluster with this index in the chain is an `int`. -/
def ClusterInReach (disk : Disk) (p : FatPrivate) (startingCluster index place : Nat) : Prop :=
  ∀ cluster, walk (readLink disk p.header.reservedSectors) index startingCluster = some cluster →
    -2147483648 ≤ fat16ClusterToSector p cluster * 512 + place ∧
      fat16ClusterToSector p cluster * 512 + place < 2147483648

theorem i32_eq_self_iff {x : Int} : i32 x = x ↔ -2147483648 ≤ x ∧ x < 2147483648 := by
  unfold i32
  omega

section Steps
variable {disk : Disk} {p : FatPrivate} {startingCluster : Nat}

theorem clusterAt_natCast (offset : Nat) : clusterAt disk p startingCluster offset =
    walk (readLink disk p.header.reservedSectors) (offset / clusterBytes p) startingCluster := rfl

theorem ReadStep.inCluster_iff {offset : Nat} {length : Int}
    (hchain : ∃ c, clusterAt disk p startingCluster offset = some c) :
    ReadStep.InCluster disk p startingCluster ⟨offset,
        (clusterAt disk p startingCluster offset).map fun c => clusterPosition p c offset, length⟩ ↔
      ClusterInReach disk p startingCluster (offset / clusterBytes p) (offset % clusterBytes p) ∧
        (offset % clusterBytes p : Nat) + length ≤ clusterBytes p := by
  obtain ⟨c, hat⟩ := hchain
  have hplace : (offset : Int).tmod (clusterBytes p) = (offset % clusterBytes p : Nat) := rfl
  have hmod : (offset : Int) % clusterBytes p = (offset % clusterBytes p : Nat) := rfl
  have hreach : ClusterInReach disk p startingCluster (offset / clusterBytes p)
      (offset % clusterBytes p) ↔ clusterPosition p c offset =
        fat16ClusterToSector p c * 512 + (offset % clusterBytes p : Nat) := by
    unfold ClusterInReach clusterPosition
    rw [← clusterAt_natCast, hat, hplace, i32_eq_self_iff]
    constructor
    · intro h
      exact h c rfl
    · intro h c' hc'
      rwa [← Option.some.inj hc']
  unfold ReadStep.InCluster
  dsimp only
  rw [hat, hreach, hmod, Option.map_some]
  constructor
  · rintro ⟨c', hc', hposition, hin⟩
    rw [← Option.some.inj hc'] at hposition
    exact ⟨Option.some.inj hposition, hin⟩
  · rintro ⟨hposition, hin⟩
    exact ⟨c, rfl, congrArg some hposition, hin⟩

theorem ReadStep.inCluster_aligned_iff (hpos : 0 < clusterBytes p) {first : Nat} {length : Int}
    (hchain : ∃ c, walk (readLink disk p.header.reservedSectors) first startingCluster = some c) :
    ReadStep.InCluster disk p startingCluster ⟨(first * clusterBytes p : Nat),
        (clusterAt disk p startingCluster (first * clusterBytes p : Nat)).map
          fun c => clusterPosition p c (first * clusterBytes p : Nat), length⟩ ↔
      ClusterInReach disk p startingCluster first 0 ∧ length ≤ clusterBytes p := by
  have hindex : first * clusterBytes p / clusterBytes p = first := Nat.mul_div_cancel _ hpos
  have hplace : first * clusterBytes p % clusterBytes p = 0 := Nat.mul_mod_left ..
  have hat : ∃ c, clusterAt disk p startingCluster (first * clusterBytes p : Nat) = some c := by
    rwa [clusterAt_natCast, hindex]
  rw [ReadStep.inCluster_iff hat, hindex, hplace, Nat.cast_zero, zero_add]

theorem readStepsLoop_aligned_iff (disk : Disk) (startingCluster : Nat) (hpos : 0 < clusterBytes p)
    (count first rest : Nat) (hlow : 1 ≤ rest) (hhigh : rest ≤ clusterBytes p)
    (hoffset : first * clusterBytes p < 2147483648)
    (hchain : ∀ m ≤ first + count, ∃ c,
      walk (readLink disk p.header.reservedSectors) m startingCluster = some c) :
    (∀ step ∈ readStepsLoop disk p startingCluster (count + 1) (first * clusterBytes p : Nat)
        (count * clusterBytes p + rest : Nat), step.InCluster disk p startingCluster) ∧
      Tiles (first * clusterBytes p : Nat) (readStepsLoop disk p startingCluster (count + 1)
        (first * clusterBytes p : Nat) (count * clusterBytes p + rest : Nat))
        (first * clusterBytes p + (count * clusterBytes p + rest) : Nat) ↔
      (first + count) * clusterBytes p < 2147483648 ∧
        ∀ m, first ≤ m → m ≤ first + count → ClusterInReach disk p startingCluster m 0 := by
  induction count generalizing first with
  | zero =>
    have hlength : (if ((0 * clusterBytes p + rest : Nat) : Int) > clusterBytes p then
        (clusterBytes p : Int) else (0 * clusterBytes p + rest : Nat)) = rest := by
      rw [if_neg (by omega)]
      omega
    unfold readStepsLoop
    simp only [hlength, readStepsLoop, List.mem_singleton, forall_eq, Tiles,
      ReadStep.inCluster_aligned_iff hpos (hchain first (by omega))]
    constructor
    · rintro ⟨⟨hreach, -⟩, -⟩
      refine ⟨by rwa [Nat.add_zero], fun m hm hm' => ?_⟩
      rwa [show m = first by omega]
    · rintro ⟨-, hreach⟩
      exact ⟨⟨hreach first (by omega) (by omega), by omega⟩, trivial, by omega, by omega⟩
  | succ count ih =>
    have hsucc : (count + 1) * clusterBytes p + rest = clusterBytes p + (count * clusterBytes p + rest) := by
      rw [Nat.succ_mul]
      omega
    have hnext : (first + 1) * clusterBytes p = first * clusterBytes p + clusterBytes p :=
      Nat.succ_mul ..
    have hlength : (if (((count + 1) * clusterBytes p + rest : Nat) : Int) > clusterBytes p then
        (clusterBytes p : Int) else ((count + 1) * clusterBytes p + rest : Nat)) =
        clusterBytes p := if_pos (by omega)
    have hleft : (((count + 1) * clusterBytes p + rest : Nat) : Int) - clusterBytes p =
        (count * clusterBytes p + rest : Nat) := by omega
    have hend : first * clusterBytes p + ((count + 1) * clusterBytes p + rest) =
        (first + 1) * clusterBytes p + (count * clusterBytes p + rest) := by omega
    have hlow' : ((first * clusterBytes p : Nat) : Int) + clusterBytes p =
        ((first + 1) * clusterBytes p : Nat) := by omega
    unfold readStepsLoop
    simp only [hlength, hleft, hlow', List.forall_mem_cons, Tiles, hend,
      ReadStep.inCluster_aligned_iff hpos (hchain first (by omega))]
    by_cases hfits : (first + 1) * clusterBytes p < 2147483648
    · have hrest := ih (first + 1) hfits fun m hm => hchain m (by omega)
      rw [i32_of_range (by omega) (by omega)]
      constructor
      · rintro ⟨⟨⟨hreach, -⟩, hmem⟩, -, -, htiles⟩
        obtain ⟨hlast, hothers⟩ := hrest.mp ⟨hmem, htiles⟩
        refine ⟨by rwa [show first + (count + 1) = first + 1 + count by omega], fun m hm hm' => ?_⟩
        by_cases hfirst : m = first
        · rwa [hfirst]
        · exact hothers m (by omega) (by omega)
      · rintro ⟨hlast, hreach⟩
        rw [show first + (count + 1) = first + 1 + count by omega] at hlast
        obtain ⟨hmem, htiles⟩ := hrest.mpr ⟨hlast, fun m hm hm' => hreach m (by omega) (by omega)⟩
        exact ⟨⟨⟨hreach first (by omega) (by omega), le_refl _⟩, hmem⟩, trivial, by omega, htiles⟩
    · constructor
      · rintro ⟨-, -, -, htiles⟩
        have hwrapped : i32 ((first + 1) * clusterBytes p : Nat) = ((first + 1) * clusterBytes p : Nat) :=
          htiles.1
        rw [i32_eq_self_iff] at hwrapped
        omega
      · rintro ⟨hlast, -⟩
        have hle : (first + 1) * clusterBytes p ≤ (first + (count + 1)) * clusterBytes p :=
          Nat.mul_le_mul_right _ (by omega)
        omega

theorem readSteps_single (hpos : 0 < clusterBytes p) {offset total : Int}
    (hone : ¬ total > clusterBytes p) : readSteps disk p startingCluster offset total =
      [⟨offset, (clusterAt disk p startingCluster offset).map fun c => clusterPosition p c offset,
        total⟩] := by
  unfold readSteps stepCount
  rw [stepCount_of_le hpos hone]
  unfold readStepsLoop
  rw [if_neg hone]
  rfl

/-- The read stays in one cluster, or it begins with one, and the positions that it seeks to do not
leave the range of an `int`. -/
def StepsFit (disk : Disk) (p : FatPrivate) (startingCluster offset total : Nat) : Prop :=
  (offset % clusterBytes p + total ≤ clusterBytes p ∨
    offset % clusterBytes p = 0 ∧
      (offset + total - 1) / clusterBytes p * clusterBytes p < 2147483648) ∧
  ∀ m, offset / clusterBytes p ≤ m → m ≤ (offset + total - 1) / clusterBytes p →
    ClusterInReach disk p startingCluster m (offset % clusterBytes p)

theorem readSteps_fit_iff (hpos : 0 < clusterBytes p) {offset total : Nat} (htotal : 1 ≤ total)
    (hoffset : offset < 2147483648) (hchain : ∀ m ≤ (offset + total - 1) / clusterBytes p, ∃ c,
      walk (readLink disk p.header.reservedSectors) m startingCluster = some c) :
    ((∀ step ∈ readSteps disk p startingCluster offset total,
        step.InCluster disk p startingCluster) ∧
      Tiles offset (readSteps disk p startingCluster offset total) (offset + total)) ↔
      StepsFit disk p startingCluster offset total := by
  have hdiv := Nat.div_add_mod offset (clusterBytes p)
  have hmod := Nat.mod_lt offset hpos
  have hfirst : offset / clusterBytes p ≤ (offset + total - 1) / clusterBytes p :=
    Nat.div_le_div_right (by omega)
  have hat : ∃ c, clusterAt disk p startingCluster offset = some c := hchain _ hfirst
  unfold StepsFit
  by_cases hone : total ≤ clusterBytes p
  · rw [readSteps_single hpos (by omega)]
    simp only [List.mem_singleton, forall_eq, Tiles, ReadStep.inCluster_iff hat]
    constructor
    · rintro ⟨⟨hreach, hin⟩, -⟩
      have hlast : (offset + total - 1) / clusterBytes p = offset / clusterBytes p := by
        rw [show offset + total - 1 = offset % clusterBytes p + total - 1 +
          clusterBytes p * (offset / clusterBytes p) by omega, Nat.add_mul_div_left _ _ hpos,
          Nat.div_eq_of_lt (by omega), Nat.zero_add]
      refine ⟨Or.inl (by omega), fun m hm hm' => ?_⟩
      rw [hlast] at hm'
      rwa [show m = offset / clusterBytes p by omega]
    · rintro ⟨hin, hreach⟩
      exact ⟨⟨hreach _ le_rfl hfirst, by omega⟩, trivial, by omega, trivial⟩
  by_cases haligned : offset % clusterBytes p = 0
  · have hcount := Nat.div_add_mod (total - 1) (clusterBytes p)
    have hrest := Nat.mod_lt (total - 1) hpos
    have hlast : (offset + total - 1) / clusterBytes p =
        offset / clusterBytes p + (total - 1) / clusterBytes p := by
      rw [show offset + total - 1 = total - 1 + clusterBytes p * (offset / clusterBytes p) by omega,
        Nat.add_mul_div_left _ _ hpos, Nat.add_comm]
    have hsteps : stepCount p total = (total - 1) / clusterBytes p + 1 := by
      unfold stepCount
      rw [show (total : Int) - 1 = (total - 1 : Nat) by omega, ← Int.natCast_ediv, Int.toNat_natCast]
    have hoffset' : offset = offset / clusterBytes p * clusterBytes p := by
      rw [Nat.mul_comm]
      omega
    have htotal' : total = (total - 1) / clusterBytes p * clusterBytes p +
        ((total - 1) % clusterBytes p + 1) := by
      rw [Nat.mul_comm]
      omega
    have hexact := readStepsLoop_aligned_iff disk startingCluster hpos
      ((total - 1) / clusterBytes p) (offset / clusterBytes p) ((total - 1) % clusterBytes p + 1)
      (by omega) (by omega) (by omega) (fun m hm => hchain m (by omega))
    rw [← htotal', ← hoffset'] at hexact
    unfold readSteps
    rw [hsteps, haligned, hlast]
    rw [show ((offset + total : Nat) : Int) = (offset : Int) + total by omega] at hexact
    rw [hexact]
    constructor
    · rintro ⟨hend, hreach⟩
      exact ⟨Or.inr ⟨rfl, hend⟩, hreach⟩
    · rintro ⟨hone' | hend, hreach⟩
      · omega
      · exact ⟨hend.2, hreach⟩
  · constructor
    · rintro ⟨hmem, -⟩
      unfold readSteps stepCount readStepsLoop at hmem
      rw [List.forall_mem_cons, if_pos (by omega), ReadStep.inCluster_iff hat] at hmem
      omega
    · rintro ⟨hone' | hfirst', -⟩
      · omega
      · exact absurd hfirst'.1 haligned

end Steps

/-- The steps that a read takes lie each in the cluster that holds its offset, and cover the bytes
once and in order, exactly if the read stays in one cluster or begins with one, and in the range of
the positions. -/
theorem fat16_read_internal_from_stream_steps_iff {k : Kernel} {p : FatPrivate} (h : Readable k p)
    {startingCluster offset total : Nat} (htotal : 1 ≤ total) (hoffset : offset < 2147483648)
    (hchain : ∀ m ≤ (offset + total - 1) / clusterBytes p, ∃ c,
      walk (readLink k.disk p.header.reservedSectors) m startingCluster = some c) :
    (∀ fuel ≥ stepCount p total, Computes Kernel.StreamsMoved k
      (fat16ReadInternalFromStream p.clusterReadStream fuel startingCluster offset total)
      (performSteps k.disk (readSteps k.disk p startingCluster offset total))) ∧
    (((∀ step ∈ readSteps k.disk p startingCluster offset total,
        step.InCluster k.disk p startingCluster) ∧
      Tiles offset (readSteps k.disk p startingCluster offset total) (offset + total)) ↔
      StepsFit k.disk p startingCluster offset total) :=
  ⟨fun _ hfuel => fat16ReadInternalFromStream_computes h hfuel,
    readSteps_fit_iff h.clusterBytes_pos htotal hoffset hchain⟩

theorem chainKernel_readable (sectorFour : UInt8) : Readable (chainKernel sectorFour) chainPrivate :=
  ⟨chainKernel_mounted sectorFour, rfl⟩

theorem chainKernel_walk : ∀ m ≤ 1,
    walk (readLink (chainKernel 3).disk chainPrivate.header.reservedSectors) m 2 = some (m + 2) := by
  intro m hm
  have hlink : readLink (chainKernel 3).disk chainPrivate.header.reservedSectors 2 = some 3 := by
    decide +kernel
  match m, hm with
  | 0, _ => rfl
  | 1, _ => exact (walk_one ..).trans hlink

theorem fat16_read_internal_from_stream_steps_iff_chainKernel :
    (∀ step ∈ readSteps (chainKernel 3).disk chainPrivate 2 (0 : Nat) (600 : Nat),
        step.InCluster (chainKernel 3).disk chainPrivate 2) ∧
      Tiles (0 : Nat) (readSteps (chainKernel 3).disk chainPrivate 2 (0 : Nat) (600 : Nat))
        ((0 : Nat) + (600 : Nat)) := by
  refine (fat16_read_internal_from_stream_steps_iff (chainKernel_readable 3) (by decide) (by decide)
    fun m hm => ⟨m + 2, chainKernel_walk m hm⟩).2.mpr ⟨Or.inr ⟨rfl, by decide⟩, fun m _ hm => ?_⟩
  have hone : m ≤ 1 := hm
  intro cluster hwalk
  rw [chainKernel_walk m hone, Option.some.injEq] at hwalk
  have hsector : fat16ClusterToSector chainPrivate (m + 2 : Nat) = m := by
    unfold fat16ClusterToSector chainPrivate
    rw [i32_of_range (by dsimp only; omega) (by dsimp only; omega)]
    dsimp only
    omega
  rw [← hwalk, hsector]
  change -2147483648 ≤ (m : Int) * 512 + (0 : Nat) ∧ (m : Int) * 512 + (0 : Nat) < 2147483648
  omega

theorem fat16_read_internal_from_stream_not_always_in_cluster : ¬ ∀ (k : Kernel) (p : FatPrivate),
    Readable k p → ∀ startingCluster offset total : Nat, 1 ≤ total → offset < 2147483648 →
    (∀ m ≤ (offset + total - 1) / clusterBytes p, ∃ c,
      walk (readLink k.disk p.header.reservedSectors) m startingCluster = some c) →
    (∀ step ∈ readSteps k.disk p startingCluster offset total,
        step.InCluster k.disk p startingCluster) ∧
      Tiles offset (readSteps k.disk p startingCluster offset total) (offset + total) := by
  intro hall
  obtain ⟨hmem, -⟩ := hall (chainKernel 3) chainPrivate (chainKernel_readable 3) 2 1 512 (by decide)
    (by decide) fun m hm => ⟨m + 2, chainKernel_walk m hm⟩
  rw [readSteps_single (by decide) (by decide)] at hmem
  obtain ⟨_, -, -, hin⟩ := hmem _ (List.mem_singleton_self _)
  exact absurd hin (by decide)

end BoiOS
