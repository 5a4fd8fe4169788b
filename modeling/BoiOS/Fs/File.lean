import BoiOS.Library.Transition
import BoiOS.Machine.Words
import Mathlib.Data.List.Perm.Lattice
import Mathlib.Logic.Function.Basic

/-! The file descriptor table of fs/file.c. A descriptor lives at the address that `kzalloc`
gave it; the numbers handed out are the slots counted from 1. -/
namespace BoiOS
open Library.Transition

structure FileDescriptor where
  index : Int
  filesystem : Nat
  privateData : Nat
  disk : Nat
  deriving DecidableEq

structure FileTable where
  fileDescriptors : Nat → Nat
  store : Nat → Option FileDescriptor

def boiosMaxFileDescriptors : Nat := 512

def fileFindFreeSlot (t : FileTable) : (count i : Nat) → Option Nat
  | 0, _ => none
  | count + 1, i => if t.fileDescriptors i = 0 then some i else fileFindFreeSlot t count (i + 1)

/-- `desc` is what `kzalloc` returns; the code writes through it without a check. -/
def fileNewDescriptor (t : FileTable) (desc : Nat) : Except Stop (Int × FileTable) :=
  match fileFindFreeSlot t boiosMaxFileDescriptors 0 with
  | none => .ok (-enomem, t)
  | some i =>
      if desc = 0 then .error .faulted
      else .ok (0, ⟨Function.update t.fileDescriptors i desc,
        Function.update t.store desc (some ⟨i + 1, 0, 0, 0⟩)⟩)

def fileGetDescriptor (t : FileTable) (fd : Int) : Nat :=
  if fd ≤ 0 ∨ fd ≥ boiosMaxFileDescriptors then 0 else t.fileDescriptors (fd - 1).toNat

def fileFreeDescriptor (t : FileTable) (desc : Nat) : Except Stop FileTable :=
  (access (t.store desc)).map fun d =>
    ⟨Function.update t.fileDescriptors (d.index - 1).toNat 0, Function.update t.store desc none⟩

structure OpenedFile where
  filesystem : Nat
  privateData : Nat
  disk : Nat

/-- `fopen` from the call of the filesystem's open on. `opened` is none if that call or a step
before it failed. -/
def fopenDescriptor (t : FileTable) (opened : Option OpenedFile) (desc : Nat) :
    Except Stop (Int × FileTable) :=
  match opened with
  | none => .ok (0, t)
  | some file =>
      (fileNewDescriptor t desc).bind fun (response, t) =>
        if response < 0 then .ok (0, t)
        else (access (t.store desc)).map fun d =>
          (d.index, { t with store := Function.update t.store desc (some { d with
            filesystem := file.filesystem, privateData := file.privateData, disk := file.disk }) })

/-- `fclose`; the filesystem's close answers `closed`. -/
def fcloseDescriptor (t : FileTable) (closed : Int) (fd : Int) : Except Stop (Int × FileTable) :=
  let desc := fileGetDescriptor t fd
  if desc = 0 then .ok (-eio, t)
  else if closed = allOk then (fileFreeDescriptor t desc).map (closed, ·)
  else .ok (closed, t)

theorem fileFindFreeSlot_eq_some {t : FileTable} {count i k : Nat}
    (h : fileFindFreeSlot t count i = some k) :
    i ≤ k ∧ k < i + count ∧ t.fileDescriptors k = 0 ∧
      ∀ j, i ≤ j → j < k → t.fileDescriptors j ≠ 0 := by
  induction count generalizing i with
  | zero => simp [fileFindFreeSlot] at h
  | succ count ih =>
    unfold fileFindFreeSlot at h
    split_ifs at h with hfree
    · obtain rfl := Option.some.inj h
      exact ⟨le_refl _, by omega, hfree, by intros; omega⟩
    · obtain ⟨hlow, hhigh, hzero, htaken⟩ := ih h
      refine ⟨by omega, by omega, hzero, fun j hj hjk => ?_⟩
      by_cases hji : j = i
      · rwa [hji]
      · exact htaken j (by omega) hjk

theorem fileFindFreeSlot_eq_none {t : FileTable} {count i : Nat}
    (h : fileFindFreeSlot t count i = none) (j : Nat) (hlow : i ≤ j) (hhigh : j < i + count) :
    t.fileDescriptors j ≠ 0 := by
  induction count generalizing i with
  | zero => omega
  | succ count ih =>
    unfold fileFindFreeSlot at h
    split_ifs at h with hfree
    by_cases hji : j = i
    · rwa [hji]
    · exact ih h (by omega) (by omega)

theorem fopenDescriptor_eq {t : FileTable} {file : OpenedFile} {desc i : Nat} (hdesc : desc ≠ 0)
    (hslot : fileFindFreeSlot t boiosMaxFileDescriptors 0 = some i) :
    fopenDescriptor t (some file) desc = .ok (i + 1,
      ⟨Function.update t.fileDescriptors i desc, Function.update t.store desc
        (some ⟨i + 1, file.filesystem, file.privateData, file.disk⟩)⟩) := by
  simp [fopenDescriptor, fileNewDescriptor, hslot, hdesc, Except.bind, Except.map]

/-! Runs of `fopen` and `fclose`. -/

/-- `opened` lists the numbers handed out and not yet closed, each with the address of its
descriptor and what `fopen` put there. -/
structure FileRun where
  table : Except Stop FileTable
  opened : List (Int × Nat × FileDescriptor)

inductive FileCall
  | fopen (file : Option OpenedFile) (desc : Nat)
  | fclose (fd : Int)

namespace FileRun

def start : FileRun := ⟨.ok ⟨fun _ => 0, fun _ => none⟩, []⟩

def fopen (t : FileTable) (opened : List (Int × Nat × FileDescriptor)) (file : Option OpenedFile)
    (desc : Nat) : FileRun :=
  match fopenDescriptor t file desc with
  | .error stop => ⟨.error stop, opened⟩
  | .ok (fd, t) =>
      match file with
      | none => ⟨.ok t, opened⟩
      | some file =>
          ⟨.ok t, if fd = 0 then opened
            else (fd, desc, ⟨fd, file.filesystem, file.privateData, file.disk⟩) :: opened⟩

def fclose (t : FileTable) (opened : List (Int × Nat × FileDescriptor)) (fd : Int) : FileRun :=
  match fcloseDescriptor t allOk fd with
  | .error stop => ⟨.error stop, opened⟩
  | .ok (_, t) => ⟨.ok t, opened.filter fun a => a.1 ≠ fd⟩

def next (s : FileRun) (call : FileCall) : FileRun :=
  match s.table with
  | .error _ => s
  | .ok t =>
      match call with
      | .fopen file desc => fopen t s.opened file desc
      | .fclose fd => fclose t s.opened fd

/-- The allocator gives a descriptor a block that no open descriptor is in, or none. -/
def Enabled (s : FileRun) : FileCall → Prop
  | .fopen _ desc => desc = 0 ∨ ∀ t, s.table = .ok t → t.store desc = none
  | .fclose _ => True

def step : Step FileRun FileCall := fun s call t => s.Enabled call ∧ t = s.next call

/-- Every open number leads to the descriptor that `fopen` made for it. -/
def Consistent (t : FileTable) (opened : List (Int × Nat × FileDescriptor)) : Prop :=
  ∀ a ∈ opened, fileGetDescriptor t a.1 = a.2.1 ∧ t.store a.2.1 = some a.2.2

/-- A step is good if `fopen` gives no number that is open, `fclose` of an open number frees its
slot, and every open number leads to its descriptor. -/
def Good : Step FileRun FileCall := fun s call s' =>
  ∃ t, s'.table = .ok t ∧ Consistent t s'.opened ∧
    (s'.opened.map Prod.fst).Nodup ∧
    ∀ fd, call = .fclose fd → fd ∈ s.opened.map Prod.fst → t.fileDescriptors (fd - 1).toNat = 0

/-- What `file_get_descriptor` can serve: an `fopen` that gets as far as a descriptor finds one
of the first 511 slots free and memory for it. -/
def Served : Step FileRun FileCall := fun s call _ =>
  match call with
  | .fopen none _ => True
  | .fopen (some _) desc =>
      desc ≠ 0 ∧ ∀ t, s.table = .ok t → ∃ i < 511, t.fileDescriptors i = 0
  | .fclose _ => True

structure Holds (t : FileTable) (opened : List (Int × Nat × FileDescriptor)) : Prop where
  slots : ∀ a ∈ opened, 1 ≤ a.1 ∧ a.1 < 512 ∧ t.fileDescriptors (a.1 - 1).toNat = a.2.1
  objects : ∀ a ∈ opened, a.2.1 ≠ 0 ∧ a.2.2.index = a.1 ∧ t.store a.2.1 = some a.2.2
  taken : ∀ i < 512, t.fileDescriptors i ≠ 0 → (i : Int) + 1 ∈ opened.map Prod.fst
  numbers : (opened.map Prod.fst).Nodup
  addresses : (opened.map fun a => a.2.1).Nodup

def Inv (s : FileRun) : Prop := ∃ t, s.table = .ok t ∧ Holds t s.opened

theorem inv_start : start.Inv := by
  refine ⟨_, rfl, ⟨fun a ha => ?_, fun a ha => ?_, fun i _ hi => absurd rfl hi, List.nodup_nil,
    List.nodup_nil⟩⟩
  · exact absurd ha List.not_mem_nil
  · exact absurd ha List.not_mem_nil

theorem Holds.consistent {t : FileTable} {opened : List (Int × Nat × FileDescriptor)}
    (h : Holds t opened) : Consistent t opened := by
  intro a ha
  obtain ⟨hlow, hhigh, hslot⟩ := h.slots a ha
  refine ⟨?_, (h.objects a ha).2.2⟩
  unfold fileGetDescriptor boiosMaxFileDescriptors
  rw [if_neg (by omega), hslot]

theorem Holds.number_ne {t : FileTable} {opened : List (Int × Nat × FileDescriptor)}
    (h : Holds t opened) {i : Nat} (hfree : t.fileDescriptors i = 0) :
    ∀ a ∈ opened, a.1 ≠ (i : Int) + 1 := by
  intro a ha heq
  have hslot := (h.slots a ha).2.2
  rw [show (a.1 - 1).toNat = i by omega, hfree] at hslot
  exact (h.objects a ha).1 hslot.symm

theorem Holds.fopen {t : FileTable} {opened : List (Int × Nat × FileDescriptor)}
    (h : Holds t opened) {desc i : Nat} (hdesc : desc ≠ 0) (hfresh : t.store desc = none)
    (hi : i < 511) (hfree : t.fileDescriptors i = 0) (d : FileDescriptor) (hd : d.index = i + 1) :
    Holds ⟨Function.update t.fileDescriptors i desc, Function.update t.store desc (some d)⟩
      (((i : Int) + 1, desc, d) :: opened) := by
  have hnumber := h.number_ne hfree
  have haddress : ∀ a ∈ opened, a.2.1 ≠ desc := by
    rintro a ha rfl
    rw [(h.objects a ha).2.2] at hfresh
    contradiction
  constructor
  case slots =>
    intro a ha
    rcases List.mem_cons.mp ha with rfl | ha
    · refine ⟨by dsimp only; omega, by dsimp only; omega, ?_⟩
      dsimp only
      rw [show ((i : Int) + 1 - 1).toNat = i by omega, Function.update_self]
    · obtain ⟨hlow, hhigh, hslot⟩ := h.slots a ha
      have hne := hnumber a ha
      refine ⟨hlow, hhigh, ?_⟩
      dsimp only
      rw [Function.update_of_ne (by omega)]
      exact hslot
  case objects =>
    intro a ha
    rcases List.mem_cons.mp ha with rfl | ha
    · exact ⟨hdesc, hd, Function.update_self ..⟩
    · obtain ⟨hne, hindex, hstore⟩ := h.objects a ha
      refine ⟨hne, hindex, ?_⟩
      dsimp only
      rw [Function.update_of_ne (haddress a ha)]
      exact hstore
  case taken =>
    intro j hj htaken
    by_cases hji : j = i
    · simp [hji]
    · dsimp only at htaken
      rw [Function.update_of_ne hji] at htaken
      exact List.mem_cons_of_mem _ (h.taken j hj htaken)
  case numbers =>
    refine List.nodup_cons.mpr ⟨fun hmem => ?_, h.numbers⟩
    obtain ⟨a, ha, heq⟩ := List.mem_map.mp hmem
    exact hnumber a ha heq
  case addresses =>
    refine List.nodup_cons.mpr ⟨fun hmem => ?_, h.addresses⟩
    obtain ⟨a, ha, heq⟩ := List.mem_map.mp hmem
    exact haddress a ha heq

theorem Holds.fclose {t : FileTable} {opened : List (Int × Nat × FileDescriptor)}
    (h : Holds t opened) {a : Int × Nat × FileDescriptor} (ha : a ∈ opened) :
    Holds ⟨Function.update t.fileDescriptors (a.1 - 1).toNat 0, Function.update t.store a.2.1 none⟩
      (opened.filter fun b => b.1 ≠ a.1) := by
  obtain ⟨halow, hahigh, haslot⟩ := h.slots a ha
  have hkept : ∀ b ∈ opened.filter (fun b => b.1 ≠ a.1), b ∈ opened ∧ b.1 ≠ a.1 := by
    intro b hb
    simpa using hb
  constructor
  case slots =>
    intro b hb
    obtain ⟨hb, hne⟩ := hkept b hb
    obtain ⟨hlow, hhigh, hslot⟩ := h.slots b hb
    refine ⟨hlow, hhigh, ?_⟩
    dsimp only
    rw [Function.update_of_ne (by omega)]
    exact hslot
  case objects =>
    intro b hb
    obtain ⟨hb, hne⟩ := hkept b hb
    obtain ⟨hnonnull, hindex, hstore⟩ := h.objects b hb
    refine ⟨hnonnull, hindex, ?_⟩
    have haddress : b.2.1 ≠ a.2.1 := by
      intro heq
      exact hne (congrArg Prod.fst (List.inj_on_of_nodup_map h.addresses hb ha heq))
    dsimp only
    rw [Function.update_of_ne haddress]
    exact hstore
  case taken =>
    intro i hi htaken
    by_cases heq : i = (a.1 - 1).toNat
    · simp [heq] at htaken
    · dsimp only at htaken
      rw [Function.update_of_ne heq] at htaken
      obtain ⟨b, hb, hbi⟩ := List.mem_map.mp (h.taken i hi htaken)
      refine List.mem_map.mpr ⟨b, ?_, hbi⟩
      have hne : b.1 ≠ a.1 := by omega
      simpa using ⟨hb, hne⟩
  case numbers => exact h.numbers.sublist (List.filter_sublist.map _)
  case addresses => exact h.addresses.sublist (List.filter_sublist.map _)

theorem Holds.good {s s' : FileRun} {file : Option OpenedFile} {desc : Nat} {t : FileTable}
    (htable : s'.table = .ok t) (h : Holds t s'.opened) : Good s (.fopen file desc) s' :=
  ⟨t, htable, h.consistent, h.numbers, fun _ hcall => by contradiction⟩

theorem Inv.fclose {s : FileRun} (h : s.Inv) (fd : Int) :
    (s.next (.fclose fd)).Inv ∧ Good s (.fclose fd) (s.next (.fclose fd)) := by
  obtain ⟨t, htable, hholds⟩ := h
  by_cases hopen : fd ∈ s.opened.map Prod.fst
  · obtain ⟨a, ha, rfl⟩ := List.mem_map.mp hopen
    obtain ⟨hget, hstore⟩ := hholds.consistent a ha
    obtain ⟨hnonnull, hindex, _⟩ := hholds.objects a ha
    have hafter := hholds.fclose ha
    have hclose : s.next (.fclose a.1) = ⟨.ok ⟨Function.update t.fileDescriptors (a.1 - 1).toNat 0,
        Function.update t.store a.2.1 none⟩, s.opened.filter fun b => b.1 ≠ a.1⟩ := by
      simp [next, htable, FileRun.fclose, fcloseDescriptor, hget, hnonnull, fileFreeDescriptor,
        hstore, hindex, Except.map]
    rw [hclose]
    refine ⟨⟨_, rfl, hafter⟩, ⟨_, rfl, hafter.consistent, hafter.numbers, fun fd hcall _ => ?_⟩⟩
    rw [← FileCall.fclose.inj hcall]
    exact Function.update_self ..
  · have hget : fileGetDescriptor t fd = 0 := by
      unfold fileGetDescriptor boiosMaxFileDescriptors
      split_ifs with hbounds
      · rfl
      · by_contra htaken
        apply hopen
        have hmem := hholds.taken (fd - 1).toNat (by omega) htaken
        rwa [show ((fd - 1).toNat : Int) + 1 = fd by omega] at hmem
    have hkept : s.opened.filter (fun b => b.1 ≠ fd) = s.opened := by
      rw [List.filter_eq_self]
      intro b hb
      simp only [decide_eq_true_eq]
      rintro rfl
      exact hopen (List.mem_map_of_mem hb)
    have hclose : s.next (.fclose fd) = ⟨.ok t, s.opened⟩ := by
      simp only [next, htable, FileRun.fclose, fcloseDescriptor, hget, ↓reduceIte, hkept]
    rw [hclose]
    refine ⟨⟨t, rfl, hholds⟩, ⟨t, rfl, hholds.consistent, hholds.numbers, fun fd' hcall hmem => ?_⟩⟩
    rw [← FileCall.fclose.inj hcall] at hmem
    exact absurd hmem hopen

theorem Inv.fopen {s : FileRun} (h : s.Inv) (file : Option OpenedFile) (desc : Nat)
    (henabled : s.Enabled (.fopen file desc)) :
    (Served s (.fopen file desc) s → (s.next (.fopen file desc)).Inv) ∧
      (¬ Served s (.fopen file desc) s →
        ¬ Good s (.fopen file desc) (s.next (.fopen file desc))) := by
  obtain ⟨t, htable, hholds⟩ := h
  cases file with
  | none =>
    refine ⟨fun _ => ⟨t, ?_, ?_⟩, fun hnot => absurd trivial hnot⟩
    · simp only [next, htable, FileRun.fopen, fopenDescriptor]
    · simpa only [next, htable, FileRun.fopen, fopenDescriptor] using hholds
  | some file =>
    have hfault : desc = 0 → fileFindFreeSlot t boiosMaxFileDescriptors 0 ≠ none →
        (s.next (.fopen (some file) desc)).table = .error .faulted := by
      rintro rfl hslot
      obtain ⟨i, hi⟩ := Option.ne_none_iff_exists'.mp hslot
      simp [next, htable, FileRun.fopen, fopenDescriptor, fileNewDescriptor, hi, Except.bind]
    have hopened : ∀ i, desc ≠ 0 → fileFindFreeSlot t boiosMaxFileDescriptors 0 = some i →
        s.next (.fopen (some file) desc) = ⟨.ok ⟨Function.update t.fileDescriptors i desc,
          Function.update t.store desc
            (some ⟨i + 1, file.filesystem, file.privateData, file.disk⟩)⟩,
          ((i : Int) + 1, desc, ⟨i + 1, file.filesystem, file.privateData, file.disk⟩) ::
            s.opened⟩ := by
      intro i hdesc hslot
      have hne : ¬ (i : Int) + 1 = 0 := by omega
      simp only [next, htable, FileRun.fopen, fopenDescriptor_eq hdesc hslot, hne, ↓reduceIte]
    -- no open number has the last slot, so it is free
    have hlast : t.fileDescriptors 511 = 0 := by
      by_contra htaken
      obtain ⟨a, ha, heq⟩ := List.mem_map.mp (hholds.taken 511 (by omega) htaken)
      have := (hholds.slots a ha).2.1
      omega
    have hsome : fileFindFreeSlot t boiosMaxFileDescriptors 0 ≠ none := fun hnone =>
      fileFindFreeSlot_eq_none hnone 511 (by omega) (by decide) hlast
    obtain ⟨i, hslot⟩ := Option.ne_none_iff_exists'.mp hsome
    obtain ⟨_, hi, hfree, hbefore⟩ := fileFindFreeSlot_eq_some hslot
    refine ⟨?_, ?_⟩
    · rintro ⟨hdesc, hroom⟩
      obtain ⟨j, hj, hjfree⟩ := hroom t htable
      have hij : i ≤ j := by
        by_contra hlt
        exact hbefore j (by omega) (by omega) hjfree
      have hfresh : t.store desc = none := by
        rcases henabled with hzero | hfresh
        · exact absurd hzero hdesc
        · exact hfresh t htable
      rw [hopened i hdesc hslot]
      exact ⟨_, rfl, hholds.fopen hdesc hfresh (by omega) hfree _ rfl⟩
    · rintro hnot ⟨t', htable', hconsistent, _⟩
      by_cases hdesc : desc = 0
      · rw [hfault hdesc hsome] at htable'
        contradiction
      · -- the last slot is taken, whose number is out of bounds for the lookup
        have hi511 : i = 511 := by
          by_contra hne
          refine hnot ⟨hdesc, fun t₂ ht₂ => ⟨i, ?_, ?_⟩⟩
          · have : i < 512 := by simpa [boiosMaxFileDescriptors] using hi
            omega
          · rw [htable] at ht₂
            rwa [← Except.ok.inj ht₂]
        rw [hopened i hdesc hslot] at htable' hconsistent
        obtain ⟨hget, _⟩ := hconsistent _ (List.mem_cons_self ..)
        rw [hi511] at hget
        exact hdesc hget.symm

theorem good_iff_served {s t : FileRun} {call : FileCall} (h : s.Inv) (hstep : step s call t) :
    Good s call t ↔ Served s call t := by
  obtain ⟨henabled, rfl⟩ := hstep
  cases call with
  | fopen file desc =>
    obtain ⟨hinv, hbad⟩ := h.fopen file desc henabled
    refine ⟨fun hgood => ?_, fun hserved => ?_⟩
    · by_contra hnot
      exact hbad hnot hgood
    · obtain ⟨t, htable, hholds⟩ := hinv hserved
      exact hholds.good htable
  | fclose fd =>
    exact ⟨fun _ => trivial, fun _ => (h.fclose fd).2⟩

theorem Inv.step {s t : FileRun} {call : FileCall} (h : s.Inv) (hstep : FileRun.step s call t)
    (hserved : Served s call t) : t.Inv := by
  obtain ⟨henabled, rfl⟩ := hstep
  cases call with
  | fopen file desc => exact (h.fopen file desc henabled).1 hserved
  | fclose fd => exact (h.fclose fd).1

/-- In a run from the empty table every open number is its own and leads to its descriptor, and
closing it frees its slot, exactly if no descriptor is made while the first 511 slots
are taken or memory is out. -/
theorem file_runs_good_iff (run : List (FileCall × FileRun)) (hrun : Path step start run) :
    Along Good start run ↔ Along Served start run := by
  have hkeep : ∀ s call t, Inv s → step s call t → Served s call t → Inv t :=
    fun _ _ _ h hstep hserved => h.step hstep hserved
  have hdecides : ∀ s call t, Inv s → step s call t → (Good s call t ↔ Served s call t) :=
    fun _ _ _ h hstep => good_iff_served h hstep
  exact along_iff hkeep hdecides start run inv_start hrun

/-! One file is opened and closed again, and 512 files are opened. -/

def openCall (i : Nat) : FileCall := .fopen (some ⟨1, 1, 1⟩) (0x1000000 + i)

def openCloseRun : List (FileCall × FileRun) := trace next start [openCall 0, .fclose 1]

theorem openCloseRun_path : Path step start openCloseRun := by
  refine ⟨⟨Or.inr fun t ht => ?_, rfl⟩, ⟨trivial, rfl⟩, trivial⟩
  rw [← Except.ok.inj ht]

theorem file_runs_good_openClose :
    Along Good start openCloseRun ↔ Along Served start openCloseRun :=
  file_runs_good_iff openCloseRun openCloseRun_path

def FilledTo (k : Nat) (s : FileRun) : Prop :=
  ∃ t, s.table = .ok t ∧ (∀ i < 512, t.fileDescriptors i = 0 ↔ k ≤ i) ∧
    ∀ i, k ≤ i → t.store (0x1000000 + i) = none

theorem FilledTo.enabled {k : Nat} {s : FileRun} (h : FilledTo k s) : s.Enabled (openCall k) := by
  obtain ⟨t, htable, _, hfresh⟩ := h
  refine Or.inr fun t' ht' => ?_
  rw [htable] at ht'
  rw [← Except.ok.inj ht']
  exact hfresh k (le_refl k)

theorem FilledTo.next {k : Nat} {s : FileRun} (h : FilledTo k s) (hk : k < 512) :
    FilledTo (k + 1) (s.next (openCall k)) := by
  obtain ⟨t, htable, hslots, hfresh⟩ := h
  have hslot : fileFindFreeSlot t boiosMaxFileDescriptors 0 = some k := by
    cases hfind : fileFindFreeSlot t boiosMaxFileDescriptors 0 with
    | none =>
      have htaken := fileFindFreeSlot_eq_none hfind k (by omega) (by simpa [boiosMaxFileDescriptors])
      exact absurd ((hslots k hk).mpr (le_refl k)) htaken
    | some i =>
      obtain ⟨_, hi, hfree, hbefore⟩ := fileFindFreeSlot_eq_some hfind
      have hi' : i < 512 := by simpa [boiosMaxFileDescriptors] using hi
      have hki := (hslots i hi').mp hfree
      congr
      by_contra hne
      exact hbefore k (by omega) (by omega) ((hslots k hk).mpr (le_refl k))
  have hne : ¬ (k : Int) + 1 = 0 := by omega
  have hopen : s.next (openCall k) = ⟨.ok ⟨Function.update t.fileDescriptors k (0x1000000 + k),
      Function.update t.store (0x1000000 + k) (some ⟨k + 1, 1, 1, 1⟩)⟩,
      ((k : Int) + 1, 0x1000000 + k, ⟨k + 1, 1, 1, 1⟩) :: s.opened⟩ := by
    simp only [FileRun.next, openCall, htable, FileRun.fopen,
      fopenDescriptor_eq (by omega : 0x1000000 + k ≠ 0) hslot, hne, ↓reduceIte]
  rw [hopen]
  refine ⟨_, rfl, fun i hi => ?_, fun i hi => ?_⟩
  · dsimp only
    by_cases hik : i = k
    · simp [hik]
    · rw [Function.update_of_ne hik, hslots i hi]
      omega
  · dsimp only
    rw [Function.update_of_ne (by omega)]
    exact hfresh i (by omega)

theorem FilledTo.path {k : Nat} {s : FileRun} (h : FilledTo k s) (count : Nat)
    (hcount : k + count ≤ 512) :
    Path step s (trace FileRun.next s ((List.range' k count).map openCall)) := by
  induction count generalizing k s with
  | zero => trivial
  | succ count ih =>
    rw [List.range'_succ, List.map_cons, trace_cons, path_cons]
    exact ⟨⟨h.enabled, rfl⟩, ih (h.next (by omega)) (by omega)⟩

theorem FilledTo.not_good {k : Nat} {s : FileRun} (h : FilledTo k s) (hinv : s.Inv) (count : Nat)
    (hcount : k + (count + 1) = 512) :
    ¬ Along Good s (trace FileRun.next s ((List.range' k (count + 1)).map openCall)) := by
  induction count generalizing k s with
  | zero =>
    rw [List.range'_succ, List.map_cons, trace_cons, along_cons]
    rintro ⟨hgood, _⟩
    obtain ⟨_, hroom⟩ := (good_iff_served hinv ⟨h.enabled, rfl⟩).mp hgood
    obtain ⟨t, htable, hslots, _⟩ := h
    obtain ⟨i, hi, hfree⟩ := hroom t htable
    have hki := (hslots i (by omega)).mp hfree
    omega
  | succ count ih =>
    rw [List.range'_succ, List.map_cons, trace_cons, along_cons]
    rintro ⟨hgood, hrest⟩
    have hserved := (good_iff_served hinv ⟨h.enabled, rfl⟩).mp hgood
    exact ih (h.next (by omega)) (hinv.step ⟨h.enabled, rfl⟩ hserved) (by omega) hrest

theorem filledTo_start : FilledTo 0 start :=
  ⟨_, rfl, fun i _ => ⟨fun _ => Nat.zero_le i, fun _ => rfl⟩, fun _ _ => rfl⟩

theorem file_runs_not_always_good :
    ¬ ∀ run : List (FileCall × FileRun), Path step start run → Along Good start run := by
  intro h
  have hpath := filledTo_start.path 512 (by omega)
  exact filledTo_start.not_good inv_start 511 (by omega) (h _ hpath)

end FileRun
end BoiOS
