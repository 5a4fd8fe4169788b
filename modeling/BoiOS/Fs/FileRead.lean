import BoiOS.Fs.ClusterRead
import BoiOS.Fs.FileSeek

/-! What `fread` delivers: the steps of its records, one after the other from the position of the
descriptor on, as far as the chain reaches. Neither the size of the file nor the position after the
read has a part in it. -/
namespace BoiOS
open Library.StateRun Library.Walk

/-! The length of a read. -/

theorem streamReadLoop_length {disk : Disk} {fuel : Nat} {position total : Int} {bytes : List UInt8}
    (hlow : 0 ≤ total) (hhigh : total < 2147483648)
    (h : streamReadLoop disk fuel position total = .ok bytes) : bytes.length = total.toNat := by
  induction fuel generalizing position total bytes with
  | zero => cases h
  | succ fuel ih =>
    have hoffset : position.tmod boiosSectorSize < boiosSectorSize :=
      Int.tmod_lt_of_pos _ (by decide)
    have hoffset' : -boiosSectorSize < position.tmod boiosSectorSize :=
      Int.lt_tmod_of_pos _ (by decide)
    unfold streamReadLoop at h
    unfold boiosSectorSize at *
    generalize position.tmod 512 = offset at *
    have hreach : i32 (offset + total) ≥ 512 → i32 (offset + total) = offset + total := by
      unfold i32
      omega
    dsimp only at h
    split_ifs at h with hbeyond houtside houtside
    · cases hrest : streamReadLoop disk fuel
          (i32 (position + (total - (i32 (offset + total) - 512))))
          (total - (total - (i32 (offset + total) - 512))) with
      | error e =>
        rw [hrest] at h
        cases h
      | ok rest =>
        have hlength := ih (by omega) (by omega) hrest
        rw [hrest] at h
        rw [← Except.ok.inj h, List.length_append, List.length_map, List.length_range, hlength]
        omega
    · rw [← Except.ok.inj h, List.length_map, List.length_range]

theorem streamRead_length {disk : Disk} {position total : Int} {bytes : List UInt8}
    (hhigh : total < 2147483648) (h : streamRead disk position total = .ok bytes) :
    bytes.length = total.toNat := by
  by_cases hlow : 0 ≤ total
  · exact streamReadLoop_length hlow hhigh h
  · -- of a negative total there is no more than one round
    unfold streamRead at h
    rw [Int.toNat_of_nonpos (by omega)] at h ⊢
    unfold streamReadLoop at h
    dsimp only at h
    split_ifs at h with hbeyond houtside houtside
    · cases h
    · rw [← Except.ok.inj h, List.length_map, List.length_range, Int.toNat_of_nonpos (by omega)]

def taken (steps : List ReadStep) : List ReadStep := steps.takeWhile fun step => step.position.isSome

def stepBytes (steps : List ReadStep) : Nat := (steps.map fun step => step.length.toNat).sum

theorem stepBytes_cons (step : ReadStep) (rest : List ReadStep) :
    stepBytes (step :: rest) = step.length.toNat + stepBytes rest := rfl

theorem stepBytes_append (steps rest : List ReadStep) :
    stepBytes (steps ++ rest) = stepBytes steps + stepBytes rest := by
  unfold stepBytes
  rw [List.map_append, List.sum_append]

theorem performSteps_eq_ok {disk : Disk} {steps : List ReadStep} {r : Int × List UInt8}
    (hlength : ∀ step ∈ steps, step.length < 2147483648) (h : performSteps disk steps = .ok r) :
    r.1 = (if taken steps = steps then allOk else -eio) ∧ r.2.length = stepBytes (taken steps) := by
  induction steps generalizing r with
  | nil =>
    rw [← Except.ok.inj h]
    exact ⟨rfl, rfl⟩
  | cons step rest ih =>
    obtain ⟨hfirst, hrest⟩ := List.forall_mem_cons.mp hlength
    unfold taken
    cases hposition : step.position with
    | none =>
      rw [performSteps_cons_none hposition] at h
      rw [← Except.ok.inj h, List.takeWhile_cons_of_neg (by rw [hposition]; decide),
        if_neg (List.cons_ne_nil step rest).symm]
      exact ⟨rfl, rfl⟩
    | some position =>
      rw [performSteps_cons_some hposition] at h
      rw [List.takeWhile_cons_of_pos (by rw [hposition]; rfl)]
      cases hread : streamRead disk position step.length with
      | error e =>
        rw [hread] at h
        cases h
      | ok bytes =>
        rw [hread] at h
        cases hperform : performSteps disk rest with
        | error e =>
          rw [hperform] at h
          cases h
        | ok r' =>
          rw [hperform] at h
          obtain ⟨hstatus, hbytes⟩ := ih hrest hperform
          rw [← Except.ok.inj h]
          constructor
          · change r'.1 = _
            simp only [List.cons.injEq, true_and]
            exact hstatus
          · change (bytes ++ r'.2).length = _
            rw [List.length_append, hbytes, streamRead_length hfirst hread, stepBytes_cons]
            rfl

theorem performSteps_append (disk : Disk) (steps rest : List ReadStep) :
    performSteps disk (steps ++ rest) = (performSteps disk steps).bind fun r =>
      if r.1 < 0 then .ok r else (performSteps disk rest).map fun r' => (r'.1, r.2 ++ r'.2) := by
  induction steps with
  | nil =>
    change performSteps disk rest = if allOk < 0 then .ok (allOk, []) else
      (performSteps disk rest).map fun r' => (r'.1, [] ++ r'.2)
    rw [if_neg (by decide)]
    cases performSteps disk rest <;> rfl
  | cons step steps ih =>
    rw [List.cons_append]
    cases hposition : step.position with
    | none =>
      rw [performSteps_cons_none hposition, performSteps_cons_none hposition]
      rfl
    | some position =>
      rw [performSteps_cons_some hposition, performSteps_cons_some hposition]
      cases streamRead disk position step.length with
      | error e => rfl
      | ok bytes =>
        dsimp only [Except.bind]
        rw [ih]
        cases performSteps disk steps with
        | error e => rfl
        | ok r =>
          dsimp only [Except.bind, Except.map]
          by_cases hfailed : r.1 < 0
          · rw [if_pos hfailed, if_pos hfailed]
          · rw [if_neg hfailed, if_neg hfailed]
            cases performSteps disk rest with
            | error e => rfl
            | ok r' =>
              dsimp only
              rw [List.append_assoc]

section Steps
variable {disk : Disk} {p : FatPrivate} {startingCluster : Nat}

theorem readStepsLoop_length_lt {count : Nat} {offset total : Int} (htotal : total < 2147483648) :
    ∀ step ∈ readStepsLoop disk p startingCluster count offset total, step.length < 2147483648 := by
  induction count generalizing offset total with
  | zero =>
    intro step hstep
    cases hstep
  | succ count ih =>
    unfold readStepsLoop
    refine List.forall_mem_cons.mpr ⟨?_, ih ?_⟩
    · dsimp only
      split_ifs <;> omega
    · split_ifs <;> omega

theorem readSteps_bytes (hpos : 0 < clusterBytes p) (offset total : Int) :
    stepBytes (readSteps disk p startingCluster offset total) = total.toNat := by
  have hloop : ∀ count offset total, stepCount p total = count →
      stepBytes (readStepsLoop disk p startingCluster count offset total) = total.toNat := by
    intro count
    induction count with
    | zero =>
      intro _ total hcount
      unfold stepCount at hcount
      omega
    | succ count ih =>
      intro offset total hcount
      unfold stepCount at hcount
      unfold readStepsLoop
      rw [stepBytes_cons]
      by_cases hmore : total > clusterBytes p
      · rw [if_pos hmore, ih _ _ (by rw [← stepCount_of_gt hpos hmore]; omega)]
        dsimp only
        omega
      · have hone := stepCount_of_le hpos hmore
        rw [if_neg hmore, show count = 0 by omega]
        simp [stepBytes, readStepsLoop]
  exact hloop _ _ _ rfl

end Steps

/-! The records. -/

def recordSteps (disk : Disk) (p : FatPrivate) (startingCluster size : Nat) : (count : Nat) →
    (offset : Int) → List ReadStep
  | 0, _ => []
  | count + 1, offset => readSteps disk p startingCluster offset (i32 size) ++
      recordSteps disk p startingCluster size count (i32 (offset + size))

theorem recordSteps_succ (disk : Disk) (p : FatPrivate) (startingCluster size count : Nat)
    (offset : Int) : recordSteps disk p startingCluster size (count + 1) offset =
      readSteps disk p startingCluster offset (i32 size) ++
        recordSteps disk p startingCluster size count (i32 (offset + size)) := rfl

/-- The buffer is inside of memory, and not where the directory record of the file is. -/
structure ReadBuffer (record out total : Nat) : Prop where
  start : 0 < total → 0 < out
  room : out + total ≤ 4294967296
  apart : ∀ i : Nat, i < 32 → ∀ j < total, u32 ((record : Int) + i) ≠ out + j

theorem ReadBuffer.mono {record out total total' : Nat} (h : ReadBuffer record out total)
    (hle : total' ≤ total) : ReadBuffer record out total' := by
  have hroom := h.room
  exact ⟨fun hpos => h.start (by omega), by omega, fun i hi j hj => h.apart i hi j (by omega)⟩

theorem ReadBuffer.rest {record out size total : Nat} (h : ReadBuffer record out (size + total))
    (htotal : 0 < total) : u32 ((out : Int) + size) = out + size ∧
      ReadBuffer record (out + size) total := by
  have hroom := h.room
  have hstart := h.start (by omega)
  refine ⟨u32_natCast (n := out + size) (by omega), fun _ => by omega, by omega, fun i hi j hj => ?_⟩
  rw [Nat.add_assoc]
  exact h.apart i hi (size + j) (by omega)

theorem ReadBuffer.next {record out size first total : Nat} (h : ReadBuffer record out (first + total))
    (hwhole : 0 < total → first = size) : ReadBuffer record (u32 ((out : Int) + size)) total := by
  by_cases htotal : 0 < total
  · obtain rfl := hwhole htotal
    obtain ⟨hplace, hrest⟩ := h.rest htotal
    rwa [hplace]
  · refine ⟨fun hpos => absurd hpos htotal, ?_, fun i hi j hj => absurd hj (by omega)⟩
    unfold u32
    omega

theorem ReadBuffer.copyIn_next {record out size first total : Nat}
    (h : ReadBuffer record out (first + total)) (hwhole : 0 < total → first = size) (m : Memory)
    {bytes bytes' : List UInt8} (hfirst : bytes.length = first) (hrest : bytes'.length ≤ total) :
    (m.copyIn out bytes).copyIn (u32 ((out : Int) + size)) bytes' = m.copyIn out (bytes ++ bytes') := by
  have hroom := h.room
  by_cases htotal : 0 < total
  · obtain rfl := hwhole htotal
    obtain ⟨hplace, -⟩ := h.rest htotal
    rw [hplace, ← hfirst]
    exact m.copyIn_append out bytes bytes' (by omega)
  · rw [List.eq_nil_of_length_eq_zero (by omega : bytes'.length = 0), List.append_nil,
      Memory.copyIn_nil]

theorem ReadBuffer.firstCluster {record out total : Nat} (h : ReadBuffer record out total)
    (m : Memory) {bytes : List UInt8} (hbytes : bytes.length ≤ total) :
    fat16GetFirstCluster (m.copyIn out bytes) record = fat16GetFirstCluster m record := by
  have hroom := h.room
  have hbyte : ∀ i : Nat, i < 32 → (m.copyIn out bytes).load8 ((record : Int) + i) =
      m.load8 ((record : Int) + i) := by
    intro i hi
    unfold Memory.load8 Memory.copyIn
    rw [List.getElem?_eq_none]
    · rfl
    · by_contra hin
      refine h.apart i hi (u32 ((u32 ((record : Int) + i) : Int) - out)) (by omega) ?_
      unfold u32 at *
      omega
  unfold fat16GetFirstCluster itemHigh16BitsFirstCluster itemLow16BitsFirstCluster Memory.load16
  rw [show (record : Int) + 20 + 1 = record + 21 by omega,
    show (record : Int) + 26 + 1 = record + 27 by omega]
  have h20 := hbyte 20 (by decide)
  have h21 := hbyte 21 (by decide)
  have h26 := hbyte 26 (by decide)
  have h27 := hbyte 27 (by decide)
  dsimp only [Nat.cast_ofNat] at h20 h21 h26 h27
  rw [h20, h21, h26, h27]

/-- The run fills the buffer with the bytes of the read, and answers `answer` of its status. -/
def Fills (k : Kernel) (x : KernelM Int) (out : Nat) (answer : Int → Int)
    (r : Except Stop (Int × List UInt8)) : Prop :=
  match r with
  | .ok r => ∃ k', x k = .ok (answer r.1, k') ∧
      ({ k with memory := k.memory.copyIn out r.2 } : Kernel).StreamsMoved k'
  | .error e => x k = .error e

theorem Fills.read {α : Type} {k : Kernel} {x : KernelM α} {f : α → KernelM Int} {a : α} {out : Nat}
    {answer : Int → Int} {r : Except Stop (Int × List UInt8)} (hrun : x k = .ok (a, k))
    (h : Fills k (f a) out answer r) : Fills k (x >>= f) out answer r := by
  unfold Fills at *
  rw [bind_of_ok hrun]
  exact h

theorem storeBytes_apply (k : Kernel) (out : Nat) (bytes : List UInt8)
    (hout : bytes ≠ [] → out ≠ 0) :
    storeBytes out bytes k = .ok ((), { k with memory := k.memory.copyIn out bytes }) := by
  unfold storeBytes
  by_cases hnil : bytes = []
  · rw [if_pos hnil, hnil]
    rfl
  · rw [if_neg hnil, if_neg (hout hnil)]
    rfl

section Records
variable {disk : Disk} {p : FatPrivate} {startingCluster : Nat}

theorem recordSteps_length_lt {size count : Nat} {offset : Int} :
    ∀ step ∈ recordSteps disk p startingCluster size count offset, step.length < 2147483648 := by
  have hsize : i32 size < 2147483648 := by
    unfold i32
    omega
  induction count generalizing offset with
  | zero =>
    intro step hstep
    cases hstep
  | succ count ih =>
    intro step hstep
    rcases List.mem_append.mp hstep with hfirst | hrest
    · exact readStepsLoop_length_lt hsize step hfirst
    · exact ih step hrest

theorem recordSteps_bytes (hpos : 0 < clusterBytes p) (size count : Nat) (offset : Int) :
    stepBytes (recordSteps disk p startingCluster size count offset) =
      (i32 size).toNat * count := by
  induction count generalizing offset with
  | zero => rfl
  | succ count ih =>
    unfold recordSteps
    rw [stepBytes_append, readSteps_bytes hpos, ih, Nat.mul_succ, Nat.add_comm]

theorem taken_bytes_le (steps : List ReadStep) : stepBytes (taken steps) ≤ stepBytes steps := by
  have hsplit : taken steps ++ steps.dropWhile (fun step => step.position.isSome) = steps :=
    List.takeWhile_append_dropWhile
  rw [← hsplit, stepBytes_append, hsplit]
  omega

theorem taken_append_of_all {steps : List ReadStep} (hall : taken steps = steps)
    (rest : List ReadStep) : taken (steps ++ rest) = steps ++ taken rest := by
  unfold taken at *
  exact List.takeWhile_append_of_pos (List.takeWhile_eq_self_iff.mp hall)

theorem taken_append_bytes_le (steps rest : List ReadStep) :
    stepBytes (taken steps) ≤ stepBytes (taken (steps ++ rest)) := by
  by_cases hall : taken steps = steps
  · rw [taken_append_of_all hall, hall, stepBytes_append]
    omega
  · have hstops : taken (steps ++ rest) = taken steps := by
      unfold taken at *
      rw [List.takeWhile_append, if_neg]
      intro hlength
      exact hall ((List.takeWhile_prefix _).eq_of_length hlength)
    rw [hstops]

theorem performSteps_length_eq (hpos : 0 < clusterBytes p) {size count : Nat} {offset : Int}
    {r : Int × List UInt8} (hstatus : ¬ r.1 < 0)
    (h : performSteps disk (recordSteps disk p startingCluster size count offset) = .ok r) :
    r.1 = allOk ∧ r.2.length = (i32 size).toNat * count := by
  obtain ⟨hcode, hlength⟩ := performSteps_eq_ok recordSteps_length_lt h
  split_ifs at hcode with hall
  · rw [hlength, hall, recordSteps_bytes hpos]
    exact ⟨hcode, rfl⟩
  · rw [hcode] at hstatus
    exact absurd (by decide : -eio < 0) hstatus

theorem recordSteps_one (size : Nat) (offset : Int) :
    recordSteps disk p startingCluster size 1 offset =
      readSteps disk p startingCluster offset (i32 size) := List.append_nil _

end Records

theorem i32_natCast_toNat_le (size : Nat) : (i32 size).toNat ≤ size := by
  unfold i32
  omega

theorem i32_toNat_cases {size : Nat} (hsize : size < 4294967296) :
    (i32 size).toNat = size ∨ (i32 size).toNat = 0 := by
  unfold i32
  omega

/-- Of a negative size nothing is delivered at all. -/
theorem i32_toNat_of_taken {disk : Disk} {p : FatPrivate} {startingCluster size : Nat}
    (hpos : 0 < clusterBytes p) (hsize : size < 4294967296) (count : Nat) (offset : Int)
    (hsome : 0 < stepBytes (taken (recordSteps disk p startingCluster size count offset))) :
    (i32 size).toNat = size := by
  have hless := taken_bytes_le (recordSteps disk p startingCluster size count offset)
  rw [recordSteps_bytes hpos] at hless
  refine (i32_toNat_cases hsize).resolve_right fun hnone => ?_
  rw [hnone, Nat.zero_mul] at hless
  exact absurd hsome (Nat.not_lt.mpr hless)

theorem fat16ReadLoop_fills {k : Kernel} {p : FatPrivate} (h : Readable k p)
    {record size count out : Nat} {offset : Int} (hsize : size < 4294967296)
    (hbuffer : ReadBuffer record out (stepBytes (taken
      (recordSteps k.disk p (fat16GetFirstCluster k.memory record) size count offset)))) :
    Fills k (fat16ReadLoop record size count offset out) out id (performSteps k.disk
      (recordSteps k.disk p (fat16GetFirstCluster k.memory record) size count offset)) := by
  have hpos := h.clusterBytes_pos
  induction count generalizing k out offset with
  | zero => exact ⟨k, rfl, .refl k⟩
  | succ count ih =>
    have hinternal := fat16ReadInternal_computes h (fat16GetFirstCluster k.memory record) offset
      (i32 size)
    unfold fat16ReadLoop recordSteps
    rw [recordSteps_succ] at hbuffer
    rw [performSteps_append]
    refine .read (get_apply k) ?_
    cases hfirst : performSteps k.disk
        (readSteps k.disk p (fat16GetFirstCluster k.memory record) offset (i32 size)) with
    | error e =>
      rw [hfirst] at hinternal
      exact bind_of_error hinternal _
    | ok r =>
      rw [hfirst] at hinternal
      obtain ⟨k₁, hrun, hmoved⟩ := hinternal
      rw [← recordSteps_one] at hfirst
      obtain ⟨hstatus, hlength⟩ := performSteps_eq_ok recordSteps_length_lt hfirst
      rw [recordSteps_one] at hstatus hlength
      have hfits : r.2.length ≤ _ := hlength.le.trans (taken_append_bytes_le _ (recordSteps k.disk p
        (fat16GetFirstCluster k.memory record) size count (i32 (offset + size))))
      have hstore := storeBytes_apply k₁ out r.2 (by
        intro hsome
        have hbytes := List.length_pos_iff.mpr hsome
        have hout := hbuffer.start (by omega)
        omega)
      have hmoved' := hmoved.withMemory (k.memory.copyIn out r.2)
      rw [hmoved.memory] at hstore
      let k₂ : Kernel := { k₁ with memory := k.memory.copyIn out r.2 }
      have hreadable : Readable k₂ p := (h.moved hmoved).withMemory _
      unfold Fills
      rw [bind_of_ok hrun]
      dsimp only
      rw [bind_of_ok hstore]
      dsimp only [Except.bind]
      by_cases hfailed : r.1 < 0
      · rw [if_pos hfailed, if_pos hfailed]
        exact ⟨k₂, rfl, hmoved'⟩
      rw [if_neg hfailed, if_neg hfailed]
      have hall : taken (readSteps k.disk p (fat16GetFirstCluster k.memory record) offset (i32 size)) =
          readSteps k.disk p (fat16GetFirstCluster k.memory record) offset (i32 size) := by
        by_contra hshort
        rw [hstatus, if_neg hshort] at hfailed
        exact hfailed (by decide)
      rw [hall, readSteps_bytes hpos] at hlength
      rw [taken_append_of_all hall, stepBytes_append, readSteps_bytes hpos] at hbuffer
      have hcluster := hbuffer.firstCluster k.memory (by omega : r.2.length ≤ _)
      have hwhole : 0 < stepBytes (taken (recordSteps k.disk p (fat16GetFirstCluster k.memory record)
          size count (i32 (offset + size)))) → (i32 size).toNat = size :=
        i32_toNat_of_taken hpos hsize count _
      have hloop := ih hreadable (by
        rw [show k₂.disk = k.disk from hmoved.disk, hcluster]
        exact hbuffer.next hwhole)
      rw [show k₂.disk = k.disk from hmoved.disk, hcluster] at hloop
      cases hread : performSteps k.disk (recordSteps k.disk p
          (fat16GetFirstCluster k.memory record) size count (i32 (offset + size))) with
      | error e =>
        rw [hread] at hloop
        exact hloop
      | ok r' =>
        rw [hread] at hloop
        obtain ⟨k₃, hrun₃, hmoved₃⟩ := hloop
        obtain ⟨-, hlength'⟩ := performSteps_eq_ok recordSteps_length_lt hread
        refine ⟨k₃, hrun₃, ?_⟩
        have happend := hbuffer.copyIn_next hwhole k.memory hlength hlength'.le
        refine (hmoved.withMemory (k.memory.copyIn out (r.2 ++ r'.2))).trans ?_
        rw [← happend]
        exact hmoved₃

/-! `fread` on an open file. -/

def fileSteps (k : Kernel) (p : FatPrivate) (f : FileHandle) (position size nmemb : Nat) :
    List ReadStep :=
  recordSteps k.disk p (fat16GetFirstCluster k.memory f.pointer) size nmemb (i32 position)

theorem Kernel.ItemAt.fd_pos {k : Kernel} {fd : Int} {f : FileHandle} {type position : Nat}
    (h : k.ItemAt fd f type position) : 1 ≤ fd := by
  have hnumber := h.number
  unfold fileGetDescriptor at hnumber
  split_ifs at hnumber with hrange
  · exact absurd rfl hnumber
  · omega

def readAnswer (nmemb : Nat) (status : Int) : Int := if status < 0 then status else i32 nmemb

theorem fread_fills {k : Kernel} {p : FatPrivate} {fd : Int} {f : FileHandle} {position : Nat}
    (hopen : k.FileAt fd f position) (h : Readable k p) {size nmemb out : Nat} (hsize : 1 ≤ size)
    (hword : size < 4294967296) (hnmemb : 1 ≤ nmemb)
    (hbuffer : ReadBuffer f.pointer out (stepBytes (taken (fileSteps k p f position size nmemb)))) :
    Fills k (fread out size nmemb fd) out (readAnswer nmemb)
      (performSteps k.disk (fileSteps k p f position size nmemb)) := by
  have hfd := hopen.fd_pos
  have hloop : Fills k (fat16ReadLoop f.pointer size nmemb (i32 position) out) out id _ :=
    fat16ReadLoop_fills h hword hbuffer
  unfold Fills at *
  unfold fread
  rw [if_neg (by omega), hopen.withDescriptor (-einvarg) fun data => fat16Read data size nmemb out]
  unfold fat16Read
  rw [bind_of_ok (get_apply k), bind_of_ok (fetch_eq_ok.mpr ⟨hopen.opened, rfl⟩),
    bind_of_ok (fetch_eq_ok.mpr ⟨hopen.item, rfl⟩)]
  dsimp only
  rw [if_neg (by
    rintro (htype | hnull)
    · exact htype rfl
    · exact hopen.record hnull)]
  unfold fileSteps
  cases hread : performSteps k.disk (recordSteps k.disk p (fat16GetFirstCluster k.memory f.pointer)
      size nmemb (i32 position)) with
  | error e =>
    rw [hread] at hloop
    exact bind_of_error hloop _
  | ok r =>
    rw [hread] at hloop
    obtain ⟨k', hrun, hmoved⟩ := hloop
    refine ⟨k', ?_, hmoved⟩
    rw [bind_of_ok hrun]
    unfold readAnswer
    dsimp only [id]
    split_ifs <;> rfl

/-! Consecutive reads. -/

/-- The bytes of the records, if the chain holds all of them. -/
def rangeBytes (disk : Disk) (steps : List ReadStep) : Option (List UInt8) :=
  match performSteps disk steps with
  | .ok (status, bytes) => if status < 0 then none else some bytes
  | .error _ => none

theorem rangeBytes_eq_some {disk : Disk} {p : FatPrivate} {startingCluster size count : Nat}
    {offset : Int} {bytes : List UInt8} (hpos : 0 < clusterBytes p) :
    rangeBytes disk (recordSteps disk p startingCluster size count offset) = some bytes ↔
      performSteps disk (recordSteps disk p startingCluster size count offset) =
        .ok (allOk, bytes) := by
  unfold rangeBytes
  cases hread : performSteps disk (recordSteps disk p startingCluster size count offset) with
  | error e => simp
  | ok r =>
    obtain ⟨status, bytes'⟩ := r
    dsimp only
    by_cases hfailed : status < 0
    · rw [if_pos hfailed]
      refine iff_of_false (by simp) fun heq => ?_
      obtain ⟨rfl, -⟩ := Prod.mk.inj (Except.ok.inj heq)
      exact absurd hfailed (by decide)
    · obtain ⟨hstatus, -⟩ := performSteps_length_eq hpos hfailed hread
      rw [if_neg hfailed, show status = allOk from hstatus]
      simp

theorem recordSteps_add (disk : Disk) (p : FatPrivate) (startingCluster size a b : Nat)
    (offset : Int) : ∃ offset', recordSteps disk p startingCluster size (a + b) offset =
      recordSteps disk p startingCluster size a offset ++
        recordSteps disk p startingCluster size b offset' := by
  induction a generalizing offset with
  | zero => exact ⟨offset, by rw [Nat.zero_add]; rfl⟩
  | succ a ih =>
    obtain ⟨offset', hsteps⟩ := ih (i32 (offset + size))
    refine ⟨offset', ?_⟩
    rw [Nat.succ_add, recordSteps_succ, recordSteps_succ, hsteps, List.append_assoc]

theorem rangeBytes_prefix {disk : Disk} {p : FatPrivate} {startingCluster size a b : Nat}
    {offset : Int} {bytes : List UInt8} (hpos : 0 < clusterBytes p)
    (h : rangeBytes disk (recordSteps disk p startingCluster size (a + b) offset) = some bytes) :
    rangeBytes disk (recordSteps disk p startingCluster size a offset) =
      some (bytes.take ((i32 size).toNat * a)) := by
  obtain ⟨offset', hsteps⟩ := recordSteps_add disk p startingCluster size a b offset
  rw [rangeBytes_eq_some hpos] at h
  rw [rangeBytes_eq_some hpos]
  rw [hsteps, performSteps_append] at h
  cases hfirst : performSteps disk (recordSteps disk p startingCluster size a offset) with
  | error e =>
    rw [hfirst] at h
    cases h
  | ok r =>
    rw [hfirst] at h
    dsimp only [Except.bind] at h
    split_ifs at h with hfailed
    · rw [Except.ok.inj h] at hfailed
      exact absurd (show allOk < 0 from hfailed) (by decide)
    · obtain ⟨hstatus, hlength⟩ := performSteps_length_eq hpos hfailed hfirst
      cases hrest : performSteps disk (recordSteps disk p startingCluster size b offset') with
      | error e =>
        rw [hrest] at h
        cases h
      | ok r' =>
        rw [hrest] at h
        obtain ⟨-, rfl⟩ := Prod.mk.inj (Except.ok.inj h)
        rw [← hlength, List.take_left, ← hstatus]

/-- The two calls deliver what one call for all of the records delivers, if that reports them all,
and leave the descriptor at the same position. -/
def ReadsContinue (k : Kernel) (fd : Int) (f : FileHandle) (out size a b : Nat) : Prop :=
  ∀ k₁, fread out size (a + b) fd k = .ok (((a + b : Nat) : Int), k₁) →
    ∃ k' k₂, fread out size a fd k = .ok ((a : Int), k') ∧
      fread (out + size * a) size b fd k' = .ok ((b : Int), k₂) ∧
      k₂.memory.bytesAt out (size * (a + b)) = k₁.memory.bytesAt out (size * (a + b)) ∧
      k₂.filePosition f = k₁.filePosition f

/-- In the range from the position on, the last `b` records are the same as the first ones. -/
def RangeRepeats (k : Kernel) (p : FatPrivate) (f : FileHandle) (position size a b : Nat) : Prop :=
  ∀ bytes, rangeBytes k.disk (fileSteps k p f position size (a + b)) = some bytes →
    a + b < 2147483648 → bytes.drop (size * a) = bytes.take (size * b)

section Reads
variable {k : Kernel} {p : FatPrivate} {fd : Int} {f : FileHandle} {position size nmemb out : Nat}

theorem fread_fills_whole (hopen : k.FileAt fd f position) (h : Readable k p) (hsize : 1 ≤ size)
    (hnmemb : 1 ≤ nmemb) (hbuffer : ReadBuffer f.pointer out (size * nmemb)) :
    Fills k (fread out size nmemb fd) out (readAnswer nmemb)
      (performSteps k.disk (fileSteps k p f position size nmemb)) := by
  have hroom := hbuffer.room
  have hone : size ≤ size * nmemb := Nat.le_mul_of_pos_right _ (by omega)
  have hstart := hbuffer.start (by omega)
  refine fread_fills hopen h hsize (by omega) hnmemb (hbuffer.mono ?_)
  refine (taken_bytes_le _).trans ?_
  unfold fileSteps
  rw [recordSteps_bytes h.clusterBytes_pos]
  exact Nat.mul_le_mul_right _ (i32_natCast_toNat_le size)

theorem fread_whole (hopen : k.FileAt fd f position) (h : Readable k p) (hsize : 1 ≤ size)
    (hnmemb : 1 ≤ nmemb) (hbuffer : ReadBuffer f.pointer out (size * nmemb)) {k' : Kernel}
    (hrun : fread out size nmemb fd k = .ok ((nmemb : Int), k')) : ∃ bytes,
      rangeBytes k.disk (fileSteps k p f position size nmemb) = some bytes ∧
      nmemb < 2147483648 ∧
      ({ k with memory := k.memory.copyIn out bytes } : Kernel).StreamsMoved k' := by
  have hfills := fread_fills_whole hopen h hsize hnmemb hbuffer
  cases hread : performSteps k.disk (fileSteps k p f position size nmemb) with
  | error e =>
    rw [hread] at hfills
    rw [show fread out size nmemb fd k = .error e from hfills] at hrun
    cases hrun
  | ok r =>
    rw [hread] at hfills
    obtain ⟨k'', hrun', hmoved⟩ := hfills
    rw [hrun', Except.ok.injEq, Prod.mk.injEq] at hrun
    obtain ⟨hanswer, rfl⟩ := hrun
    unfold readAnswer at hanswer
    have hstatus : ¬ r.1 < 0 := by
      intro hfailed
      rw [if_pos hfailed] at hanswer
      omega
    rw [if_neg hstatus, i32_eq_self_iff] at hanswer
    refine ⟨r.2, ?_, by omega, hmoved⟩
    unfold rangeBytes
    rw [hread]
    exact if_neg hstatus

theorem fread_of_rangeBytes (hopen : k.FileAt fd f position) (h : Readable k p) (hsize : 1 ≤ size)
    (hnmemb : 1 ≤ nmemb) (hbuffer : ReadBuffer f.pointer out (size * nmemb)) {bytes : List UInt8}
    (hrange : rangeBytes k.disk (fileSteps k p f position size nmemb) = some bytes)
    (hcount : nmemb < 2147483648) : ∃ k', fread out size nmemb fd k = .ok ((nmemb : Int), k') ∧
      ({ k with memory := k.memory.copyIn out bytes } : Kernel).StreamsMoved k' := by
  have hfills := fread_fills_whole hopen h hsize hnmemb hbuffer
  unfold fileSteps at *
  rw [(rangeBytes_eq_some h.clusterBytes_pos).mp hrange] at hfills
  obtain ⟨k', hrun, hmoved⟩ := hfills
  refine ⟨k', ?_, hmoved⟩
  rw [hrun]
  have hanswer : readAnswer nmemb allOk = nmemb := by
    unfold readAnswer
    rw [if_neg (by decide), i32_of_range (by omega) (by omega)]
  rw [hanswer]

theorem Kernel.FileAt.moved (hopen : k.FileAt fd f position) {memory : Memory} {k' : Kernel}
    (hmoved : ({ k with memory } : Kernel).StreamsMoved k') : k'.FileAt fd f position := by
  rw [hmoved.only]
  exact ⟨⟨hopen.number, hopen.descriptor, hopen.opened, hopen.item⟩, hopen.record⟩

theorem fread_twice (hopen : k.FileAt fd f position) (h : Readable k p) {a b : Nat}
    (hsize : 1 ≤ size) (ha : 1 ≤ a) (hb : 1 ≤ b)
    (hbuffer : ReadBuffer f.pointer out (size * (a + b))) {bytes : List UInt8}
    (hrange : rangeBytes k.disk (fileSteps k p f position size (a + b)) = some bytes)
    (hcount : a + b < 2147483648) : bytes.length = size * (a + b) ∧ ∃ k' k₂,
      fread out size a fd k = .ok ((a : Int), k') ∧
      fread (out + size * a) size b fd k' = .ok ((b : Int), k₂) ∧
      Kernel.StreamsMoved { k with
        memory := k.memory.copyIn out (bytes.take (size * a) ++ bytes.take (size * b)) } k₂ := by
  have hpos := h.clusterBytes_pos
  have hroom := hbuffer.room
  have hsplit : size * (a + b) = size * a + size * b := Nat.mul_add ..
  have hafirst : size ≤ size * a := Nat.le_mul_of_pos_right _ (by omega)
  have hbfirst : size ≤ size * b := Nat.le_mul_of_pos_right _ (by omega)
  have hstart := hbuffer.start (by omega)
  have hwhole : (i32 size).toNat = size := by
    unfold i32
    omega
  have hlength : bytes.length = size * (a + b) := by
    have hread := (rangeBytes_eq_some hpos).mp hrange
    have hstatus : ¬ allOk < 0 := by decide
    rw [(performSteps_length_eq hpos hstatus hread).2, hwhole]
  have hfirst := rangeBytes_prefix hpos hrange
  have hsecond := hrange
  unfold fileSteps at hsecond
  rw [Nat.add_comm a b] at hsecond
  have hagain := rangeBytes_prefix hpos hsecond
  rw [hwhole] at hfirst hagain
  obtain ⟨k', hrun, hmoved⟩ := fread_of_rangeBytes hopen h hsize ha (hbuffer.mono (by omega)) hfirst
    (by omega)
  have hbuffer' : ReadBuffer f.pointer (out + size * a) (size * b) :=
    (ReadBuffer.rest (by rwa [← hsplit]) (by omega)).2
  have hsteps : rangeBytes k'.disk (fileSteps k' p f position size b) =
      some (bytes.take (size * b)) := by
    unfold fileSteps
    rw [hmoved.disk, hmoved.memory, hbuffer.firstCluster k.memory
      (by rw [List.length_take]; omega)]
    exact hagain
  obtain ⟨k₂, hrun₂, hmoved₂⟩ := fread_of_rangeBytes (hopen.moved hmoved)
    ((h.withMemory _).moved hmoved) hsize hb hbuffer' hsteps (by omega)
  refine ⟨hlength, k', k₂, hrun, hrun₂, ?_⟩
  have happend := k.memory.copyIn_append out (bytes.take (size * a)) (bytes.take (size * b)) (by
      rw [List.length_take, List.length_take]
      omega)
  rw [List.length_take, Nat.min_eq_left (by omega)] at happend
  rw [hmoved.memory] at hmoved₂
  rw [← happend]
  exact (hmoved.withMemory _).trans hmoved₂

theorem ReadsContinue.rangeRepeats (hopen : k.FileAt fd f position) (h : Readable k p) {a b : Nat}
    (hsize : 1 ≤ size) (ha : 1 ≤ a) (hb : 1 ≤ b)
    (hbuffer : ReadBuffer f.pointer out (size * (a + b)))
    (hcontinue : ReadsContinue k fd f out size a b) : RangeRepeats k p f position size a b := by
  have hroom := hbuffer.room
  have hsplit : size * (a + b) = size * a + size * b := Nat.mul_add ..
  intro bytes hrange hcount
  obtain ⟨k₁, hwhole, hmoved⟩ := fread_of_rangeBytes hopen h hsize (by omega) hbuffer hrange hcount
  obtain ⟨hlength, k', k₂, hrun, hrun₂, hmoved₂⟩ :=
    fread_twice hopen h hsize ha hb hbuffer hrange hcount
  obtain ⟨k'', k₃, hrun', hrun₃, hsame, -⟩ := hcontinue k₁ hwhole
  obtain ⟨-, rfl⟩ := Prod.mk.inj (Except.ok.inj (hrun.symm.trans hrun'))
  obtain ⟨-, rfl⟩ := Prod.mk.inj (Except.ok.inj (hrun₂.symm.trans hrun₃))
  have hboth : (bytes.take (size * a) ++ bytes.take (size * b)).length = size * (a + b) := by
    rw [List.length_append, List.length_take, List.length_take]
    omega
  have hleft := k.memory.bytesAt_copyIn out (bytes.take (size * a) ++ bytes.take (size * b))
    (by omega)
  have hright := k.memory.bytesAt_copyIn out bytes (by omega)
  rw [hmoved₂.memory, hmoved.memory] at hsame
  rw [hboth] at hleft
  rw [hlength] at hright
  dsimp only at hsame
  rw [hleft, hright] at hsame
  calc bytes.drop (size * a)
      = (bytes.take (size * a) ++ bytes.take (size * b)).drop (size * a) := by rw [hsame]
    _ = bytes.take (size * b) := List.drop_left' (by rw [List.length_take]; omega)

/-- Reading on continues where the first call ended exactly if it makes no difference: the records
at the position are the ones that follow. -/
theorem fread_continues_iff (hopen : k.FileAt fd f position) (h : Readable k p) {a b : Nat}
    (hsize : 1 ≤ size) (ha : 1 ≤ a) (hb : 1 ≤ b)
    (hbuffer : ReadBuffer f.pointer out (size * (a + b))) :
    ReadsContinue k fd f out size a b ↔ RangeRepeats k p f position size a b := by
  constructor
  · exact fun hcontinue => hcontinue.rangeRepeats hopen h hsize ha hb hbuffer
  · intro hrepeats k₁ hwhole
    obtain ⟨bytes, hrange, hcount, hmoved⟩ := fread_whole hopen h hsize (by omega) hbuffer hwhole
    obtain ⟨hlength, k', k₂, hrun, hrun₂, hmoved₂⟩ :=
      fread_twice hopen h hsize ha hb hbuffer hrange hcount
    refine ⟨k', k₂, hrun, hrun₂, ?_, ?_⟩
    · rw [← hrepeats bytes hrange hcount, List.take_append_drop] at hmoved₂
      rw [hmoved₂.memory, hmoved.memory]
    · unfold Kernel.filePosition
      rw [hmoved₂.only, hmoved.only]

end Reads

/-! The file of ten bytes on a volume, whose sectors all have the same contents. -/

def volumeKernel (contents : Nat → UInt8) : Kernel :=
  { tenBytesKernel with
    memory := fun a => if a = 0x301A then 2 else if a = 0x301C then 10 else 0
    disk := ⟨512, 1, some chainPrivate, fun _ i => contents i⟩
    streams := fun _ => some 0 }

theorem volumeKernel_open (contents : Nat → UInt8) :
    (volumeKernel contents).FileAt 1 tenBytes 0 :=
  ⟨⟨tenBytesKernel_open.number, ⟨_, rfl, rfl⟩, rfl, rfl⟩, by decide⟩

theorem volumeKernel_readable (contents : Nat → UInt8) :
    Readable (volumeKernel contents) chainPrivate :=
  ⟨⟨rfl, rfl, by decide, ⟨0, rfl⟩, by decide⟩, rfl⟩

theorem volumeKernel_buffer {total : Nat} (htotal : total ≤ 4096) :
    ReadBuffer tenBytes.pointer 0x5000 total := by
  refine ⟨fun _ => by decide, by omega, fun i hi j _ => ?_⟩
  have hplace : u32 ((tenBytes.pointer : Int) + i) = 0x3000 + i :=
    u32_natCast (n := 0x3000 + i) (by omega)
  rw [hplace]
  omega

theorem fread_continues_iff_blank :
    (∃ k₁, fread 0x5000 1 2 1 (volumeKernel fun _ => 0) = .ok (2, k₁)) ∧
      ReadsContinue (volumeKernel fun _ => 0) 1 tenBytes 0x5000 1 1 1 := by
  have hrange : rangeBytes (volumeKernel fun _ => 0).disk
      (fileSteps (volumeKernel fun _ => 0) chainPrivate tenBytes 0 1 (1 + 1)) = some [0, 0] := by
    decide +kernel
  have hopen := volumeKernel_open fun _ => 0
  have hreadable := volumeKernel_readable fun _ => 0
  refine ⟨exists_of_value? (by decide +kernel), (fread_continues_iff hopen hreadable (by decide)
    (by decide) (by decide) (volumeKernel_buffer (by decide))).mpr fun bytes hbytes _ => ?_⟩
  rw [hrange, Option.some.injEq] at hbytes
  rw [← hbytes]
  rfl

theorem fread_not_always_continues : ¬ ∀ (k : Kernel) (p : FatPrivate) (fd : Int) (f : FileHandle)
    (position size out a b : Nat), k.FileAt fd f position → Readable k p → 1 ≤ size → 1 ≤ a →
    1 ≤ b → position + size * (a + b) ≤ k.fileSize f → ReadBuffer f.pointer out (size * (a + b)) →
    ReadsContinue k fd f out size a b := by
  intro hall
  let contents : Nat → UInt8 := fun i => UInt8.ofNat i
  have hopen := volumeKernel_open contents
  have hreadable := volumeKernel_readable contents
  have hrange : rangeBytes (volumeKernel contents).disk
      (fileSteps (volumeKernel contents) chainPrivate tenBytes 0 1 (1 + 1)) = some [0, 1] := by
    decide +kernel
  have hcontinue := hall _ _ _ _ 0 1 0x5000 1 1 hopen hreadable (by decide) (by decide) (by decide)
    (by decide +kernel) (volumeKernel_buffer (by decide))
  have hrepeats := hcontinue.rangeRepeats hopen hreadable (by decide) (by decide) (by decide)
    (volumeKernel_buffer (by decide))
  exact absurd (hrepeats _ hrange (by decide)) (by decide)

end BoiOS
