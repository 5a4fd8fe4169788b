import BoiOS.Fs.FileContent
import BoiOS.Fs.Mounting
import BoiOS.Fs.PathWalk

/-! Opening a file, seeking in it and reading from there. What the buffer should hold is in the
clusters of the file, one after the other as the table links them; what it holds is at the places
that the driver computes, one for each cluster's worth of bytes. -/
namespace BoiOS
open Library.StateRun

/-! What a stream delivers, wherever it stands. -/

/-- The byte at a position, which wraps like an `int`. -/
def streamByte (disk : Disk) (position : Int) : UInt8 :=
  disk.sectors (u32 (i32 position / 512)) (i32 position % 512).toNat

def streamBytes (disk : Disk) (position : Int) (total : Nat) : List UInt8 :=
  (List.range total).map fun i : Nat => streamByte disk (position + i)

theorem streamBytes_append (disk : Disk) (position : Int) (m n : Nat) :
    streamBytes disk position m ++ streamBytes disk (i32 (position + m)) n =
      streamBytes disk position (m + n) := by
  unfold streamBytes
  rw [List.range_add, List.map_append, List.map_map]
  congr 1
  refine List.map_congr_left fun i _ => ?_
  have hwrap : i32 (i32 (position + m) + i) = i32 (position + (m + i : Nat)) := by
    rw [i32_add_i32, Int.add_assoc]
    rfl
  unfold streamByte
  rw [hwrap]
  rfl

theorem streamBytes_eq_iff {disk : Disk} {position : Int} {bytes : List UInt8} :
    streamBytes disk position bytes.length = bytes ↔
      ∀ (i : Nat) byte, bytes[i]? = some byte → streamByte disk (position + i) = byte := by
  have hget : ∀ i < bytes.length, (streamBytes disk position bytes.length)[i]? =
      some (streamByte disk (position + i)) := by
    intro i hi
    unfold streamBytes
    rw [List.getElem?_map, List.getElem?_range hi, Option.map_some]
  constructor
  · intro heq i byte hbyte
    obtain ⟨hi, -⟩ := List.getElem?_eq_some_iff.mp hbyte
    have hat := hget i hi
    rw [heq, hbyte, Option.some.injEq] at hat
    exact hat.symm
  · intro hevery
    refine List.ext_getElem? fun i => ?_
    by_cases hi : i < bytes.length
    · rw [hget i hi, List.getElem?_eq_getElem hi, hevery i _ (List.getElem?_eq_getElem hi)]
    · have hlength : (streamBytes disk position bytes.length).length = bytes.length := by
        simp [streamBytes]
      rw [List.getElem?_eq_none (by omega), List.getElem?_eq_none (by omega)]

theorem streamBytes_sector (disk : Disk) {position : Int} {total : Nat}
    (hlow : -2147483648 ≤ position) (hhigh : position < 2147483648)
    (hroom : position % 512 + total ≤ 512) :
    (List.range total).map (fun i => disk.sectors (u32 (position / 512))
      ((position % 512).toNat + i)) = streamBytes disk position total := by
  refine List.map_congr_left fun i hi => ?_
  have hlt := List.mem_range.mp hi
  have hplace : i32 (position + i) = position + i := i32_of_range (by omega) (by omega)
  unfold streamByte
  rw [hplace, show (position + i) / 512 = position / 512 by omega,
    show ((position + i) % 512).toNat = (position % 512).toNat + i by omega]

def StreamPlace (position : Int) : Prop := 0 ≤ position ∨ position % 512 = 0

theorem StreamPlace.split {position : Int} (h : StreamPlace position) :
    position.tdiv boiosSectorSize = position / 512 ∧ position.tmod boiosSectorSize = position % 512 := by
  unfold boiosSectorSize
  rcases h with hlow | haligned
  · exact ⟨Int.tdiv_eq_ediv_of_nonneg hlow, Int.tmod_eq_emod_of_nonneg hlow⟩
  · have hdvd : (512 : Int) ∣ position := Int.dvd_of_emod_eq_zero haligned
    exact ⟨Int.tdiv_eq_ediv_of_dvd hdvd, by rw [Int.tmod_eq_zero_of_dvd hdvd, haligned]⟩

theorem streamReadLoop_bytes {disk : Disk} {fuel total : Nat} {position : Int} (hfuel : total < fuel)
    (hlow : -2147483648 ≤ position) (hhigh : position < 2147483648)
    (htotal : total < 2147483136) (hplace : StreamPlace position) :
    streamReadLoop disk fuel position total = .ok (streamBytes disk position total) := by
  induction fuel generalizing position total with
  | zero => omega
  | succ fuel ih =>
    obtain ⟨hsector, hoffset⟩ := hplace.split
    have hoffset_low := Int.emod_nonneg position (by decide : (512 : Int) ≠ 0)
    have hoffset_high := Int.emod_lt_of_pos position (by decide : (0 : Int) < 512)
    have hreach : i32 (position % 512 + (total : Nat)) = position % 512 + (total : Nat) :=
      i32_of_range (by omega) (by omega)
    unfold streamReadLoop
    dsimp only
    rw [hsector, hoffset, hreach]
    unfold boiosSectorSize
    by_cases hover : position % 512 + (total : Nat) ≥ 512
    · have htake : (total : Int) - (position % 512 + (total : Nat) - 512) =
          (512 - (position % 512).toNat : Nat) := by omega
      have hin : ¬ ((0 : Int) < (512 - (position % 512).toNat : Nat) ∧ (position % 512 < 0 ∨
          512 < position % 512 + (512 - (position % 512).toNat : Nat))) := by omega
      have hleft : (total : Int) - (512 - (position % 512).toNat : Nat) =
          (total - (512 - (position % 512).toNat) : Nat) := by omega
      have hnext : StreamPlace (i32 (position + (512 - (position % 512).toNat : Nat))) := by
        unfold StreamPlace i32
        omega
      have hnext_range : -2147483648 ≤ i32 (position + (512 - (position % 512).toNat : Nat)) ∧
          i32 (position + (512 - (position % 512).toNat : Nat)) < 2147483648 := by
        unfold i32
        omega
      rw [if_pos hover, htake, if_neg hin, if_pos hover, hleft,
        ih (by omega) hnext_range.1 hnext_range.2 (by omega) hnext, Int.toNat_natCast,
        streamBytes_sector disk hlow hhigh (by omega)]
      change Except.ok (_ ++ _) = _
      rw [streamBytes_append, Nat.add_sub_cancel' (by omega)]
    · have hin : ¬ ((0 : Int) < (total : Nat) ∧ (position % 512 < 0 ∨
          512 < position % 512 + (total : Nat))) := by omega
      rw [if_neg hover, if_neg hin, if_neg hover, Int.toNat_natCast,
        streamBytes_sector disk hlow hhigh (by omega)]

/-- A read delivers the bytes from its position on, unless it begins before the first sector and in
the middle of one. -/
theorem streamRead_eq_ok_iff {disk : Disk} {position : Int} {bytes : List UInt8}
    (hlow : -2147483648 ≤ position) (hhigh : position < 2147483648) (hsome : 1 ≤ bytes.length)
    (hlength : bytes.length < 2147483136) :
    streamRead disk position bytes.length = .ok bytes ↔
      StreamPlace position ∧ streamBytes disk position bytes.length = bytes := by
  unfold streamRead
  rw [Int.toNat_natCast]
  by_cases hplace : StreamPlace position
  · rw [streamReadLoop_bytes (Nat.lt_succ_self _) hlow hhigh hlength hplace, Except.ok.injEq]
    exact ⟨fun h => ⟨hplace, h⟩, fun h => h.2⟩
  · refine iff_of_false (fun h => ?_) fun h => hplace h.1
    unfold StreamPlace at hplace
    have hmagnitude : position.tmod boiosSectorSize = -(-position % 512) := by
      rw [← Int.tmod_eq_emod_of_nonneg (by omega), Int.neg_tmod, neg_neg]
      rfl
    have hoffset : position.tmod boiosSectorSize < 0 ∧ -512 < position.tmod boiosSectorSize := by
      omega
    have hreach : i32 (position.tmod boiosSectorSize + bytes.length) =
        position.tmod boiosSectorSize + bytes.length := i32_of_range (by omega) (by omega)
    unfold streamReadLoop at h
    dsimp only at h
    rw [hreach] at h
    generalize position.tmod boiosSectorSize = offset at hoffset h
    unfold boiosSectorSize at h
    rw [if_pos] at h
    · cases h
    · split_ifs
      · omega
      · omega


/-! What the steps of a read deliver. -/

section Steps
variable {disk : Disk} {p : FatPrivate} {startingCluster : Nat}

/-- The driver finds the byte behind the first `i` ones of a step that begins at the offset. -/
def ByteFound (disk : Disk) (p : FatPrivate) (startingCluster : Nat) (offset : Int) (i : Nat)
    (byte : UInt8) : Prop :=
  ∃ cluster, clusterAt disk p startingCluster offset = some cluster ∧
    StreamPlace (clusterPosition p cluster offset) ∧
    streamByte disk (clusterPosition p cluster offset + i) = byte

/-- The driver finds the bytes from the offset on. Its steps are a cluster long, wherever in a
cluster the first one begins, and their offsets are of type `int`. -/
def BytesFound (disk : Disk) (p : FatPrivate) (startingCluster offset : Nat) (bytes : List UInt8) :
    Prop :=
  ∀ i byte, bytes[i]? = some byte → ByteFound disk p startingCluster
    (i32 (offset + i / clusterBytes p * clusterBytes p : Nat)) (i % clusterBytes p) byte

theorem step_eq_ok_iff {offset : Int} (bytes : List UInt8) (hsome : 1 ≤ bytes.length)
    (hlength : bytes.length < 2147483136) :
    (∃ cluster, clusterAt disk p startingCluster offset = some cluster ∧
      streamRead disk (clusterPosition p cluster offset) bytes.length = .ok bytes) ↔
      ∀ i byte, bytes[i]? = some byte → ByteFound disk p startingCluster offset i byte := by
  have hrange : ∀ cluster, -2147483648 ≤ clusterPosition p cluster offset ∧
      clusterPosition p cluster offset < 2147483648 := by
    intro cluster
    unfold clusterPosition i32
    omega
  constructor
  · rintro ⟨cluster, hat, hread⟩ i byte hbyte
    obtain ⟨hplace, hbytes⟩ := (streamRead_eq_ok_iff (hrange cluster).1 (hrange cluster).2 hsome
      hlength).mp hread
    exact ⟨cluster, hat, hplace, streamBytes_eq_iff.mp hbytes i byte hbyte⟩
  · intro hfound
    obtain ⟨cluster, hat, hplace, -⟩ := hfound 0 bytes[0] (List.getElem?_eq_getElem hsome)
    refine ⟨cluster, hat, (streamRead_eq_ok_iff (hrange cluster).1 (hrange cluster).2 hsome
      hlength).mpr ⟨hplace, streamBytes_eq_iff.mpr fun i byte hbyte => ?_⟩⟩
    obtain ⟨cluster', hat', -, hstream⟩ := hfound i byte hbyte
    obtain rfl := Option.some.inj (hat.symm.trans hat')
    exact hstream

theorem performSteps_cons_eq_ok_iff {offset : Int} {rest : List ReadStep}
    {bytes first later : List UInt8} (hsplit : first ++ later = bytes)
    (hlength : first.length < 2147483648) :
    performSteps disk (⟨offset, (clusterAt disk p startingCluster offset).map
        fun c => clusterPosition p c offset, first.length⟩ :: rest) = .ok (allOk, bytes) ↔
      (∃ cluster, clusterAt disk p startingCluster offset = some cluster ∧
        streamRead disk (clusterPosition p cluster offset) first.length = .ok first) ∧
      performSteps disk rest = .ok (allOk, later) := by
  subst hsplit
  cases hat : clusterAt disk p startingCluster offset with
  | none =>
    rw [performSteps_cons_none rfl]
    refine iff_of_false (fun h => ?_) fun h => ?_
    · have hcode := (Prod.mk.inj (Except.ok.inj h)).1
      exact absurd hcode (by decide)
    · obtain ⟨⟨cluster, hnone, -⟩, -⟩ := h
      cases hnone
  | some cluster =>
    rw [performSteps_cons_some (by rw [Option.map_some])]
    cases hread : streamRead disk (clusterPosition p cluster offset) first.length with
    | error e =>
      refine iff_of_false (fun h => by cases h) fun h => ?_
      obtain ⟨⟨cluster', hsome, hread'⟩, -⟩ := h
      rw [← Option.some.inj hsome, hread] at hread'
      cases hread'
    | ok bytes =>
      have hbytes := streamRead_length (by omega) hread
      rw [Int.toNat_natCast] at hbytes
      dsimp only [Except.bind]
      cases hperform : performSteps disk rest with
      | error e => exact iff_of_false (fun h => by cases h) fun h => by cases h.2
      | ok r =>
        constructor
        · intro h
          obtain ⟨hcode, happend⟩ := Prod.mk.inj (Except.ok.inj h)
          obtain ⟨rfl, hrest⟩ := List.append_inj happend hbytes
          exact ⟨⟨cluster, rfl, hread⟩, congrArg Except.ok (Prod.ext hcode hrest)⟩
        · rintro ⟨⟨cluster', hsome, hread'⟩, hrest⟩
          rw [← Option.some.inj hsome, hread, Except.ok.injEq] at hread'
          rw [hread', Except.ok.inj hrest]
          rfl

theorem bytesFound_single {offset : Nat} {bytes : List UInt8} (hone : bytes.length ≤ clusterBytes p) :
    BytesFound disk p startingCluster offset bytes ↔
      ∀ i byte, bytes[i]? = some byte →
        ByteFound disk p startingCluster (i32 (offset : Nat)) i byte := by
  refine forall₃_congr fun i byte hbyte => ?_
  obtain ⟨hi, -⟩ := List.getElem?_eq_some_iff.mp hbyte
  rw [Nat.div_eq_of_lt (by omega), Nat.mod_eq_of_lt (by omega), Nat.zero_mul, Nat.add_zero]

theorem bytesFound_append {offset : Nat} {first later : List UInt8} (hpos : 0 < clusterBytes p)
    (hfirst : first.length = clusterBytes p) :
    BytesFound disk p startingCluster offset (first ++ later) ↔
      (∀ i byte, first[i]? = some byte →
        ByteFound disk p startingCluster (i32 (offset : Nat)) i byte) ∧
      BytesFound disk p startingCluster (offset + clusterBytes p) later := by
  rw [← bytesFound_single hfirst.le]
  have hnext : ∀ i, (i + clusterBytes p) / clusterBytes p * clusterBytes p =
      clusterBytes p + i / clusterBytes p * clusterBytes p := by
    intro i
    rw [Nat.add_div_right _ hpos, Nat.succ_mul, Nat.add_comm]
  unfold BytesFound
  constructor
  · refine fun h => ⟨fun i byte hbyte => ?_, fun i byte hbyte => ?_⟩
    · obtain ⟨hi, -⟩ := List.getElem?_eq_some_iff.mp hbyte
      exact h i byte (by rw [List.getElem?_append_left hi, hbyte])
    · have hfound := h (i + clusterBytes p) byte (by
        rw [List.getElem?_append_right (by omega), ← hbyte]
        congr 1
        omega)
      rwa [Nat.add_mod_right, hnext, ← Nat.add_assoc] at hfound
  · rintro ⟨hstep, hlater⟩ i byte hbyte
    by_cases hi : i < first.length
    · rw [List.getElem?_append_left hi] at hbyte
      exact hstep i byte hbyte
    · rw [List.getElem?_append_right (by omega)] at hbyte
      obtain ⟨j, rfl⟩ := Nat.exists_eq_add_of_le' (show clusterBytes p ≤ i by omega)
      have hfound := hlater j byte (by rwa [hfirst, Nat.add_sub_cancel] at hbyte)
      rwa [Nat.add_mod_right, hnext, ← Nat.add_assoc]

theorem readSteps_eq_ok_iff (hpos : 0 < clusterBytes p) (hcluster : clusterBytes p < 2147483136)
    (count : Nat) : ∀ (offset : Nat) (bytes : List UInt8), 1 ≤ bytes.length →
      stepCount p bytes.length = count →
      (performSteps disk (readStepsLoop disk p startingCluster count (i32 offset) bytes.length) =
        .ok (allOk, bytes) ↔ BytesFound disk p startingCluster offset bytes) := by
  induction count with
  | zero =>
    intro _ bytes _ hcount
    unfold stepCount at hcount
    omega
  | succ count ih =>
    intro offset bytes hsome hcount
    unfold stepCount at hcount
    unfold readStepsLoop
    by_cases hmore : (bytes.length : Int) > clusterBytes p
    · have hcount' := stepCount_of_gt hpos hmore
      have hsplit : bytes.take (clusterBytes p) ++ bytes.drop (clusterBytes p) = bytes :=
        List.take_append_drop ..
      have hfirst : (bytes.take (clusterBytes p)).length = clusterBytes p := by
        rw [List.length_take]
        omega
      have hlater : ((bytes.drop (clusterBytes p)).length : Int) = bytes.length - clusterBytes p := by
        rw [List.length_drop]
        omega
      have hwrap : i32 (i32 (offset : Nat) + clusterBytes p) = i32 (offset + clusterBytes p : Nat) :=
        i32_add_i32 ..
      generalize bytes.take (clusterBytes p) = first at hsplit hfirst
      generalize bytes.drop (clusterBytes p) = later at hsplit hlater
      have hrest := ih (offset + clusterBytes p) later (by omega) (by rw [hlater]; omega)
      rw [if_pos hmore]
      dsimp only
      rw [← hlater, hwrap, ← hsplit, bytesFound_append hpos hfirst, ← hrest,
        ← step_eq_ok_iff first (by omega) (by omega), ← hfirst]
      exact performSteps_cons_eq_ok_iff rfl (by omega)
    · have hcount' := stepCount_of_le hpos hmore
      obtain rfl : count = 0 := by omega
      rw [if_neg hmore, bytesFound_single (by omega), ← step_eq_ok_iff bytes hsome (by omega)]
      exact (performSteps_cons_eq_ok_iff (List.append_nil bytes) (by omega)).trans
        (and_iff_left rfl)

end Steps

/-! What a file holds. -/

def chainClusters (disk : Disk) (reservedSectors : Nat) : (count : Nat) → (cluster : Nat) → List Nat
  | 0, _ => []
  | count + 1, cluster =>
      cluster :: (fatLink disk reservedSectors cluster).elim [] (chainClusters disk reservedSectors count)

/-- The contents of the clusters, one after the other. Their numbers have sixteen bits. -/
def fileContent (disk : Disk) (header : FatHeader) (firstCluster : Nat) : List UInt8 :=
  (chainClusters disk header.reservedSectors 65536 firstCluster).flatMap fun cluster =>
    diskBytes disk (volumePosition header cluster) (header.sectorsPerCluster * 512)

def byteRange (content : List UInt8) (offset length : Nat) : List UInt8 :=
  (content.drop offset).take length

theorem byteRange_length {content : List UInt8} {offset length : Nat}
    (h : offset + length ≤ content.length) : (byteRange content offset length).length = length := by
  unfold byteRange
  rw [List.length_take, List.length_drop]
  omega

/-! The calls. -/

/-- The file can be opened, the position set, and one record of the length is read into the buffer:
these bytes. -/
def ReadsFile (k : Kernel) (filename modeStr : List UInt8) (offset length out : Nat)
    (bytes : List UInt8) : Prop :=
  ∃ fd k₁ k₂ k₃, fopen filename modeStr k = .ok (fd, k₁) ∧
    fseek fd offset seekSet k₁ = .ok (allOk, k₂) ∧ fread out length 1 fd k₂ = .ok (1, k₃) ∧
    k₃.memory.bytesAt out length = bytes

/-- The buffer is in memory that is not free: below the heap, or in its allocations. -/
structure Kernel.BufferHeld (k : Kernel) (out total : Nat) : Prop where
  start : 0 < out
  room : out + total ≤ 4294967296
  held : ∀ j < total, k.heap.Kept {b | k.heap.Held b} (out + j)

theorem Heap.Guards.not_owned {P : Set Int} {heap : Heap} (h : heap.Guards P) {b : Int}
    (hb : heap.Held b) (hnot : b ∉ P) : b ∉ heap.Owned P := by
  rintro ⟨s, hs, hle, hchain⟩
  have hne : s ≠ b := fun heq => hnot (heq ▸ hs)
  have hlow := (h.held s hs).low
  have hhigh := hb.high
  have hnext := hchain (b - 1) (by omega) (by omega) (by omega)
  have hnotFirst := (h.wellFormed.next (b - 1) (by omega) (by omega) hnext).2
  rw [show b - 1 + 1 = b by omega] at hnotFirst
  exact hnotFirst hb.first

theorem fopen_readBuffer {k k' : Kernel} {filename modeStr : List UInt8} {fd : Int} {f : FileHandle}
    {position out total : Nat} (h : k.heap.WellFormed) (hsector : k.disk.sectorSize = 512)
    (hnull : k.fatItems 0 = none) (h0 : 0 ∉ filename) (hbuffer : k.BufferHeld out total)
    (hrun : fopen filename modeStr k = .ok (fd, k')) (hfile : k'.FileAt fd f position) :
    ReadBuffer f.pointer out total := by
  have hguards : k.heap.Guards {b | k.heap.Held b} := ⟨h, fun _ hb => hb⟩
  have hframe := fopen_kept hguards hsector hnull h0 hrun
  have hfd := hfile.fd_pos
  rcases fopen_spec hguards hnull h0 hrun with ⟨-, rfl, -⟩ | ⟨-, root, hopened⟩
  · omega
  obtain ⟨S, hmore, hopen⟩ := hopened.file.resolve_left (by omega)
  obtain ⟨-, d, hd, hdescriptor⟩ := hopen.resolve_left hfile.number
  obtain ⟨d', hd', hdata⟩ := hfile.descriptor
  obtain rfl := Option.some.inj (hd.symm.trans hd')
  rw [hdata] at hdescriptor
  obtain ⟨entry, hentry, htree⟩ := hdescriptor.entry
  obtain rfl := Option.some.inj (hfile.opened.symm.trans hentry)
  obtain ⟨i, hi, hkind⟩ := htree.entry
  obtain rfl := Option.some.inj (hfile.item.symm.trans hi)
  have hblock : k'.heap.BlockIn S f.pointer := by
    rcases hkind with ⟨-, hpointer⟩ | ⟨hdirectory, -⟩
    · exact hpointer.resolve_left hfile.record
    · exact absurd hdirectory (show fatItemTypeFile ≠ fatItemTypeDirectory by decide)
  have hnot : k'.heap.blockOf f.pointer ∉ {b | k.heap.Held b} := fun hb =>
    hmore.apart _ hblock.mem (Set.mem_insert_of_mem root hb)
  have hfree := hframe.guards.not_owned (hmore.guards.held _ (Or.inr hblock.mem)) hnot
  have hbelow := hframe.guards.wellFormed.below
  have hlow := hblock.block.low
  have hhigh := hblock.block.high
  have haddress := hblock.block.address
  refine ⟨fun _ => hbuffer.start, hbuffer.room, fun i hi j hj heq => ?_⟩
  have hkept := hframe.owned.kept_iff.mpr (hbuffer.held j hj)
  rw [← heq, show ((f.pointer : Int) + i) = (f.pointer + i : Nat) by omega,
    u32_natCast (by omega)] at hkept
  rcases hkept with hfirst | howned
  · omega
  · have hsame : k'.heap.blockOf (f.pointer + i : Nat) = k'.heap.blockOf f.pointer := by
      unfold Heap.blockOf
      omega
    rw [hsame] at howned
    exact hfree howned

theorem fileAt_of_fseek {k k' : Kernel} {fd : Int} {offset whence : Nat}
    (hrun : fseek fd offset whence k = .ok (allOk, k')) :
    ∃ f position, k.FileAt fd f position ∧ offset < k.fileSize f := by
  have hrefused : ∀ {code : Int} {k₁ : Kernel}, code ≠ 0 →
      (pure (-code) : KernelM Int) k₁ ≠ .ok (allOk, k') := by
    intro code k₁ hcode heq
    have hzero : -code = allOk := (pure_eq_ok.mp heq).1
    unfold allOk at hzero
    omega
  unfold fseek withDescriptor at hrun
  replace hrun := bind_get_eq_ok.mp hrun
  by_cases hnumber : fileGetDescriptor k.files fd = 0
  · rw [if_pos hnumber] at hrun
    exact absurd hrun (hrefused (by decide))
  rw [if_neg hnumber] at hrun
  obtain ⟨d, hd, hrun⟩ := bind_fetch_eq_ok.mp hrun
  unfold fat16Seek at hrun
  replace hrun := bind_get_eq_ok.mp hrun
  obtain ⟨entry, hentry, hrun⟩ := bind_fetch_eq_ok.mp hrun
  obtain ⟨item, hitem, hrun⟩ := bind_fetch_eq_ok.mp hrun
  by_cases htype : item.type ≠ fatItemTypeFile
  · rw [if_pos htype] at hrun
    exact absurd hrun (hrefused (by decide))
  rw [if_neg htype] at hrun
  by_cases hrecord : item.pointer = 0
  · rw [if_pos hrecord] at hrun
    exact (throw_eq_ok.mp hrun).elim
  rw [if_neg hrecord] at hrun
  by_cases hbeyond : offset ≥ itemFileSize k.memory item.pointer
  · rw [if_pos hbeyond] at hrun
    exact absurd hrun (hrefused (by decide))
  refine ⟨⟨d.privateData, entry.item, item.pointer⟩, entry.position,
    ⟨⟨hnumber, ⟨d, hd, rfl⟩, hentry, ?_⟩, hrecord⟩, Nat.lt_of_not_le hbeyond⟩
  rw [hitem, ← not_not.mp htype]

section Reads
variable {k : Kernel} {p : FatPrivate} {fd : Int} {f : FileHandle} {position offset length out : Nat}
  {bytes : List UInt8}

theorem rangeBytes_eq_some_iff (h : Readable k p) (hbounded : p.header.Bounded)
    (hsome : 1 ≤ bytes.length) (hlength : bytes.length < 2147483648) :
    rangeBytes k.disk (fileSteps k p f offset bytes.length 1) = some bytes ↔
      BytesFound k.disk p (fat16GetFirstCluster k.memory f.pointer) offset bytes := by
  have hsectors := hbounded.sectorsPerCluster
  have hcluster : clusterBytes p < 2147483136 := by
    unfold clusterBytes
    omega
  have hsize : i32 (bytes.length : Nat) = bytes.length := i32_of_range (by omega) (by omega)
  unfold fileSteps
  rw [rangeBytes_eq_some h.clusterBytes_pos, recordSteps_one, hsize]
  exact readSteps_eq_ok_iff h.clusterBytes_pos hcluster _ offset bytes hsome rfl

theorem fread_record_iff (hfile : k.FileAt fd f offset) (h : Readable k p)
    (hbounded : p.header.Bounded) (hsome : 1 ≤ bytes.length) (hlength : bytes.length < 2147483648)
    (hbuffer : ReadBuffer f.pointer out bytes.length) :
    (∃ k', fread out bytes.length 1 fd k = .ok (1, k') ∧
      k'.memory.bytesAt out bytes.length = bytes) ↔
      BytesFound k.disk p (fat16GetFirstCluster k.memory f.pointer) offset bytes := by
  rw [← rangeBytes_eq_some_iff h hbounded hsome hlength]
  have hroom := hbuffer.room
  rw [← Nat.mul_one bytes.length] at hbuffer
  constructor
  · rintro ⟨k', hrun, hbytes⟩
    obtain ⟨read, hrange, -, hmoved⟩ := fread_whole hfile h hsome (by decide) hbuffer hrun
    have hstatus := (rangeBytes_eq_some h.clusterBytes_pos).mp hrange
    have hgood : ¬ allOk < 0 := by decide
    obtain ⟨-, hread⟩ := performSteps_length_eq h.clusterBytes_pos hgood hstatus
    dsimp only at hread
    rw [i32_of_range (by omega) (by omega), Int.toNat_natCast, Nat.mul_one] at hread
    rw [hmoved.memory, ← hread, Memory.bytesAt_copyIn _ _ _ (by omega)] at hbytes
    rwa [hbytes] at hrange
  · intro hrange
    obtain ⟨k', hrun, hmoved⟩ :=
      fread_of_rangeBytes hfile h hsome (by decide) hbuffer hrange (by decide)
    refine ⟨k', hrun, ?_⟩
    rw [hmoved.memory]
    exact Memory.bytesAt_copyIn _ _ _ (by omega)

end Reads

/-- A file on a mounted volume is opened, and a range of its content read, exactly if the path leads
to a file that is longer than the offset, and at the places which the driver computes for it, from
the first cluster of its record on, the disk holds the bytes of the chain. -/
theorem open_seek_read_iff {k : Kernel} {p : FatPrivate} {filename modeStr : List UInt8}
    {firstCluster offset length out : Nat} (h : k.heap.WellFormed) (hnull : k.fatItems 0 = none)
    (hvolume : Readable k p) (hbounded : p.header.Bounded) (h0 : 0 ∉ filename)
    (hcovers : offset + length ≤ (fileContent k.disk p.header firstCluster).length)
    (hsome : 1 ≤ length) (hlength : length < 2147483648) (hbuffer : k.BufferHeld out length) :
    ReadsFile k filename modeStr offset length out
        (byteRange (fileContent k.disk p.header firstCluster) offset length) ↔
      ∃ fd k₁ f position, fopen filename modeStr k = .ok (fd, k₁) ∧ k₁.FileAt fd f position ∧
        offset < k₁.fileSize f ∧
        BytesFound k.disk p (fat16GetFirstCluster k₁.memory f.pointer) offset
          (byteRange (fileContent k.disk p.header firstCluster) offset length) := by
  have hbytes := byteRange_length hcovers
  generalize byteRange (fileContent k.disk p.header firstCluster) offset length = bytes at *
  subst hbytes
  have hopened : ∀ {fd k₁ f position}, fopen filename modeStr k = .ok (fd, k₁) →
      k₁.FileAt fd f position → offset < k₁.fileSize f →
      k₁.disk = k.disk ∧ fseek fd offset seekSet k₁ = .ok (allOk, k₁.moveFile f offset) ∧
        ((∃ k', fread out bytes.length 1 fd (k₁.moveFile f offset) = .ok (1, k') ∧
            k'.memory.bytesAt out bytes.length = bytes) ↔
          BytesFound k.disk p (fat16GetFirstCluster k₁.memory f.pointer) offset bytes) := by
    intro fd k₁ f position hopen hfile hinside
    have hdisk : k₁.disk = k.disk :=
      (fopen_kept h.guards hvolume.sectorSize hnull h0 hopen).disk
    have hopens : k.KeepsOpen k₁ := Kept.run inferInstance hopen
    have hreadable : Readable (k₁.moveFile f offset) p := by
      obtain ⟨place, htable⟩ := hvolume.opened
      exact ⟨⟨by rw [← hvolume.sectorSize, ← hdisk]; rfl, by rw [← hvolume.fsPrivate, ← hdisk]; rfl,
        hvolume.stream, Option.isSome_iff_exists.mp (hopens _ (by rw [htable]; rfl)),
        hvolume.sectorsPerCluster⟩, hopens _ hvolume.clusterOpened⟩
    refine ⟨hdisk, ?_, ?_⟩
    · rw [fseek_apply hfile, if_neg (by omega), if_pos rfl]
    · have hread := fread_record_iff (hfile.moveFile offset) hreadable hbounded hsome hlength
        (fopen_readBuffer h hvolume.sectorSize hnull h0 hbuffer hopen hfile)
      rw [← hdisk]
      exact hread
  constructor
  · rintro ⟨fd, k₁, k₂, k₃, hopen, hseek, hread⟩
    obtain ⟨f, position, hfile, hinside⟩ := fileAt_of_fseek hseek
    obtain ⟨-, hseek', hiff⟩ := hopened hopen hfile hinside
    obtain ⟨-, rfl⟩ := Prod.mk.inj (Except.ok.inj (hseek.symm.trans hseek'))
    exact ⟨fd, k₁, f, position, hopen, hfile, hinside, hiff.mp ⟨k₃, hread⟩⟩
  · rintro ⟨fd, k₁, f, position, hopen, hfile, hinside, hfound⟩
    obtain ⟨-, hseek, hiff⟩ := hopened hopen hfile hinside
    obtain ⟨k₃, hread⟩ := hiff.mpr hfound
    exact ⟨fd, k₁, _, k₃, hopen, hseek, hread⟩

/-! A volume with a file `A` of two clusters, the bytes of the first one numbered. -/

def contentRecord : List UInt8 := 65 :: List.replicate 10 32 ++ [0x20] ++ List.replicate 14 0 ++
  [2, 0, 0x58, 2, 0, 0]

def contentKernel : Kernel :=
  { treeKernel 0 with
    memory := fun a => if 0x5000 ≤ a then contentRecord.getD (a - 0x5000) 0 else 0
    disk := ⟨512, fat16Fs, some treePrivate,
      fun sector i => if sector = 3 then UInt8.ofNat i else (chainSector 0 sector).getD i 0⟩ }

def contentPath : List UInt8 := [48, 58, 47, 65]

def contentRun : KernelM (Int × Int × List UInt8) := do
  let fd ← fopen contentPath [114]
  let response ← fseek fd 1 seekSet
  let count ← fread 0x6000 2 1 fd
  let k ← get
  pure (response, count, k.memory.bytesAt 0x6000 2)

theorem contentKernel_reads : ReadsFile contentKernel contentPath [114] 1 2 0x6000 [1, 2] := by
  obtain ⟨k', hrun⟩ := exists_of_value?
    (by decide +kernel : value? (contentRun contentKernel) = some (allOk, 1, [1, 2]))
  unfold contentRun at hrun
  obtain ⟨fd, k₁, hopen, hrun⟩ := bind_eq_ok.mp hrun
  obtain ⟨response, k₂, hseek, hrun⟩ := bind_eq_ok.mp hrun
  obtain ⟨count, k₃, hread, hrun⟩ := bind_eq_ok.mp hrun
  replace hrun := bind_get_eq_ok.mp hrun
  obtain ⟨hresult, -⟩ := pure_eq_ok.mp hrun
  simp only [Prod.mk.injEq] at hresult
  obtain ⟨rfl, rfl, hbytes⟩ := hresult
  exact ⟨fd, k₁, k₂, k₃, hopen, hseek, hread, hbytes⟩

theorem open_seek_read_iff_contentKernel :
    ∃ fd k₁ f position, fopen contentPath [114] contentKernel = .ok (fd, k₁) ∧
      k₁.FileAt fd f position ∧ 1 < k₁.fileSize f ∧
      BytesFound contentKernel.disk treePrivate (fat16GetFirstCluster k₁.memory f.pointer) 1
        (byteRange (fileContent contentKernel.disk treePrivate.header 2) 1 2) := by
  have hwf : contentKernel.heap.WellFormed := treeKernel_wellFormed 0
  have hcontent : byteRange (fileContent contentKernel.disk treePrivate.header 2) 1 2 = [1, 2] := by
    decide +kernel
  have hvolume : Readable contentKernel treePrivate :=
    ⟨⟨rfl, rfl, by decide, ⟨0, rfl⟩, by decide⟩, rfl⟩
  have hbounded : treePrivate.header.Bounded :=
    ⟨by decide, by decide, by decide, by decide, by decide⟩
  have hbuffer : contentKernel.BufferHeld 0x6000 2 := by
    refine ⟨by decide, by decide, fun j hj => Or.inl ?_⟩
    change 0x6000 + j < 0x1000000
    omega
  refine (open_seek_read_iff hwf rfl hvolume hbounded (by decide) (by decide +kernel) (by decide)
    (by decide) hbuffer).mp ?_
  rw [hcontent]
  exact contentKernel_reads

end BoiOS
