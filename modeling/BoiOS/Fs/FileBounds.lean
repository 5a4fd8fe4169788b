import BoiOS.Fs.FileRead

/-! Reads against the end of the file. `fat16_read` asks neither what the descriptor refers to nor
how long the file is; where a read ends is up to the cluster chain. -/
namespace BoiOS
open Library.StateRun

def ReadStep.OnDisk (disk : Disk) (step : ReadStep) : Prop :=
  ∀ position, step.position = some position →
    ∃ bytes, streamRead disk position step.length = .ok bytes

theorem performSteps_returns_iff {disk : Disk} {steps : List ReadStep} :
    (∃ r, performSteps disk steps = .ok r) ↔ ∀ step ∈ taken steps, step.OnDisk disk := by
  induction steps with
  | nil =>
    refine iff_of_true ⟨_, rfl⟩ fun step hstep => ?_
    cases hstep
  | cons step rest ih =>
    unfold taken at *
    cases hposition : step.position with
    | none =>
      rw [performSteps_cons_none hposition,
        List.takeWhile_cons_of_neg (by rw [hposition]; decide)]
      refine iff_of_true ⟨_, rfl⟩ fun step hstep => ?_
      cases hstep
    | some position =>
      rw [performSteps_cons_some hposition,
        List.takeWhile_cons_of_pos (by rw [hposition]; rfl), List.forall_mem_cons, ← ih]
      constructor
      · rintro ⟨r, hr⟩
        cases hread : streamRead disk position step.length with
        | error e =>
          rw [hread] at hr
          cases hr
        | ok bytes =>
          rw [hread] at hr
          refine ⟨fun position' hposition' => ?_, ?_⟩
          · rw [hposition, Option.some.injEq] at hposition'
            exact ⟨bytes, hposition' ▸ hread⟩
          · cases hrest : performSteps disk rest with
            | error e =>
              rw [hrest] at hr
              cases hr
            | ok r' => exact ⟨r', rfl⟩
      · rintro ⟨honDisk, r, hrest⟩
        obtain ⟨bytes, hread⟩ := honDisk position hposition
        rw [hread, hrest]
        exact ⟨_, rfl⟩

section Bounds
variable {k : Kernel} {p : FatPrivate} {fd : Int} {f : FileHandle} {type position size nmemb out : Nat}

/-- The call reports all records only if the file has them, and delivers no byte behind its end. -/
def ReadInBounds (k : Kernel) (p : FatPrivate) (fd : Int) (f : FileHandle)
    (position size nmemb out : Nat) : Prop :=
  (∀ k', fread out size nmemb fd k = .ok ((nmemb : Int), k') →
    position + size * nmemb ≤ k.fileSize f) ∧
  ∀ r, performSteps k.disk (fileSteps k p f position size nmemb) = .ok r → r.2 ≠ [] →
    position + r.2.length ≤ k.fileSize f

def ReadRefused (k : Kernel) (fd : Int) (size nmemb out : Nat) : Prop :=
  ∃ response k', fread out size nmemb fd k = .ok (response, k') ∧ response < 0

/-- What the chain holds of the range that is asked for, as far as it can be read from the disk,
is in the file. -/
def RangeInFile (k : Kernel) (p : FatPrivate) (f : FileHandle) (position size nmemb : Nat) : Prop :=
  let steps := fileSteps k p f position size nmemb
  (∀ step ∈ taken steps, step.OnDisk k.disk) →
    (taken steps = steps → nmemb < 2147483648 → position + size * nmemb ≤ k.fileSize f) ∧
    (0 < stepBytes (taken steps) → position + stepBytes (taken steps) ≤ k.fileSize f)

theorem readInBounds_iff (hopen : k.FileAt fd f position) (h : Readable k p) (hsize : 1 ≤ size)
    (hword : size < 4294967296) (hnmemb : 1 ≤ nmemb)
    (hbuffer : ReadBuffer f.pointer out (stepBytes (taken (fileSteps k p f position size nmemb)))) :
    ReadInBounds k p fd f position size nmemb out ↔ RangeInFile k p f position size nmemb := by
  have hfills := fread_fills hopen h hsize hword hnmemb hbuffer
  unfold ReadInBounds RangeInFile
  dsimp only
  rw [← performSteps_returns_iff]
  cases hread : performSteps k.disk (fileSteps k p f position size nmemb) with
  | error e =>
    rw [hread] at hfills
    refine iff_of_true ⟨fun k' hrun => ?_, fun r hr => ?_⟩ ?_
    · rw [show fread out size nmemb fd k = .error e from hfills] at hrun
      cases hrun
    · cases hr
    · rintro ⟨r, hr⟩
      cases hr
  | ok r =>
    rw [hread] at hfills
    obtain ⟨k₁, hrun, -⟩ := hfills
    obtain ⟨hstatus, hlength⟩ := performSteps_eq_ok recordSteps_length_lt hread
    have hreports : readAnswer nmemb r.1 = nmemb ↔ taken (fileSteps k p f position size nmemb) =
        fileSteps k p f position size nmemb ∧ nmemb < 2147483648 := by
      unfold readAnswer
      by_cases hall : taken (fileSteps k p f position size nmemb) =
          fileSteps k p f position size nmemb
      · have hcode : r.1 = allOk := hstatus.trans (if_pos hall)
        rw [hcode, if_neg (by decide), i32_eq_self_iff]
        exact ⟨fun hrange => ⟨hall, by omega⟩, fun hrange => by omega⟩
      · have hcode : r.1 = -eio := hstatus.trans (if_neg hall)
        rw [hcode, if_pos (by decide)]
        unfold eio
        exact ⟨fun heq => by omega, fun hboth => absurd hboth.1 hall⟩
    have hsome : r.2 ≠ [] ↔ 0 < stepBytes (taken (fileSteps k p f position size nmemb)) := by
      rw [← List.length_pos_iff, hlength]
      rfl
    constructor
    · rintro ⟨hwhole, hdelivered⟩ -
      refine ⟨fun hall hcount => ?_, fun hbytes => ?_⟩
      · rw [hreports.mpr ⟨hall, hcount⟩] at hrun
        exact hwhole k₁ hrun
      · have hin := hdelivered r rfl (hsome.mpr hbytes)
        rwa [hlength] at hin
    · intro hin
      obtain ⟨hwhole, hdelivered⟩ := hin ⟨r, rfl⟩
      refine ⟨fun k' hrun' => ?_, fun r' hr' hbytes => ?_⟩
      · rw [hrun, Except.ok.injEq, Prod.mk.injEq] at hrun'
        obtain ⟨hall, hcount⟩ := hreports.mp hrun'.1
        exact hwhole hall hcount
      · obtain rfl := Except.ok.inj hr'
        rw [hlength]
        exact hdelivered (hsome.mp hbytes)

/-- Of a directory the driver reads as if it were a record: the call does not come back. -/
theorem fread_directory (hopen : k.ItemAt fd f fatItemTypeDirectory position) (hsize : 1 ≤ size)
    (hnmemb : 1 ≤ nmemb) : fread out size nmemb fd k = .error .faulted := by
  have hfd := hopen.fd_pos
  unfold fread
  rw [if_neg (by omega), hopen.withDescriptor (-einvarg) fun data => fat16Read data size nmemb out]
  unfold fat16Read
  rw [bind_of_ok (get_apply k), bind_of_ok (fetch_eq_ok.mpr ⟨hopen.opened, rfl⟩),
    bind_of_ok (fetch_eq_ok.mpr ⟨hopen.item, rfl⟩)]
  dsimp only
  rw [if_pos (Or.inl (by decide))]
  rfl

/-- A call on an open descriptor turns a directory down and stays inside of a file exactly if the
descriptor refers to a file, and what the chain holds of the range is in it. What the call delivers
are the bytes of the steps. -/
theorem fread_bounded_iff (hopen : k.ItemAt fd f type position)
    (htype : type = fatItemTypeDirectory ∨ type = fatItemTypeFile ∧ f.pointer ≠ 0)
    (h : Readable k p) (hsize : 1 ≤ size) (hword : size < 4294967296) (hnmemb : 1 ≤ nmemb)
    (hbuffer : ReadBuffer f.pointer out (stepBytes (taken (fileSteps k p f position size nmemb)))) :
    (type = fatItemTypeFile → Fills k (fread out size nmemb fd) out (readAnswer nmemb)
      (performSteps k.disk (fileSteps k p f position size nmemb))) ∧
    ((type = fatItemTypeDirectory → ReadRefused k fd size nmemb out) ∧
      (type = fatItemTypeFile → ReadInBounds k p fd f position size nmemb out) ↔
      type = fatItemTypeFile ∧ RangeInFile k p f position size nmemb) := by
  have hdifferent : fatItemTypeDirectory ≠ fatItemTypeFile := by decide
  rcases htype with rfl | ⟨rfl, hrecord⟩
  · refine ⟨fun htype => absurd htype hdifferent, ?_⟩
    constructor
    · rintro ⟨hrefused, -⟩
      obtain ⟨response, k', hrun, -⟩ := hrefused rfl
      rw [fread_directory hopen hsize hnmemb] at hrun
      cases hrun
    · rintro ⟨htype, -⟩
      exact absurd htype hdifferent
  · have hfile : k.FileAt fd f position := ⟨hopen, hrecord⟩
    have hbounds := readInBounds_iff hfile h hsize hword hnmemb hbuffer
    refine ⟨fun _ => fread_fills hfile h hsize hword hnmemb hbuffer, ?_⟩
    constructor
    · rintro ⟨-, hin⟩
      exact ⟨rfl, hbounds.mp (hin rfl)⟩
    · rintro ⟨-, hin⟩
      exact ⟨fun htype => absurd htype.symm hdifferent, fun _ => hbounds.mpr hin⟩

end Bounds

theorem fread_bounded_iff_tenBytes :
    (∃ k', fread 0x5000 10 1 1 (volumeKernel fun _ => 0) = .ok (1, k')) ∧
      ReadInBounds (volumeKernel fun _ => 0) chainPrivate 1 tenBytes 0 10 1 0x5000 := by
  have hopen := volumeKernel_open fun _ => 0
  have hsize : (volumeKernel fun _ => 0).fileSize tenBytes = 10 := by decide +kernel
  have hbytes : stepBytes (taken (fileSteps (volumeKernel fun _ => 0) chainPrivate tenBytes 0 10 1)) =
      10 := by decide +kernel
  have hbounded := (fread_bounded_iff hopen.toItemAt (Or.inr ⟨rfl, hopen.record⟩)
    (volumeKernel_readable fun _ => 0) (by decide : 1 ≤ 10) (by decide) (by decide : 1 ≤ 1)
    (by rw [hbytes]; exact volumeKernel_buffer (by decide))).2.mpr ⟨rfl, fun _ => by
      rw [hsize, hbytes]
      exact ⟨fun _ _ => by decide, fun _ => by decide⟩⟩
  exact ⟨exists_of_value? (by decide +kernel), hbounded.2 rfl⟩

theorem fread_not_always_bounded : ¬ ∀ (k : Kernel) (p : FatPrivate) (fd : Int) (f : FileHandle)
    (type position size nmemb out : Nat), k.ItemAt fd f type position →
    type = fatItemTypeDirectory ∨ type = fatItemTypeFile ∧ f.pointer ≠ 0 → Readable k p →
    1 ≤ size → 1 ≤ nmemb → ReadBuffer f.pointer out (size * nmemb) →
    (type = fatItemTypeDirectory → ReadRefused k fd size nmemb out) ∧
      (type = fatItemTypeFile → ReadInBounds k p fd f position size nmemb out) := by
  intro hall
  have hopen := volumeKernel_open fun _ => 0
  obtain ⟨-, hfile⟩ := hall _ _ _ _ _ 0 11 1 0x5000 hopen.toItemAt (Or.inr ⟨rfl, hopen.record⟩)
    (volumeKernel_readable fun _ => 0) (by decide) (by decide) (volumeKernel_buffer (by decide))
  obtain ⟨hreports, -⟩ := hfile rfl
  obtain ⟨k', hrun⟩ : ∃ k', fread 0x5000 11 1 1 (volumeKernel fun _ => 0) = .ok (1, k') :=
    exists_of_value? (by decide +kernel)
  have hsize : (volumeKernel fun _ => 0).fileSize tenBytes = 10 := by decide +kernel
  have hin := hreports k' hrun
  omega

end BoiOS
