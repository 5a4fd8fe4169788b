import Mathlib.Data.List.Basic

/-! Labelled transition systems and their finite runs. A run is kept as the list of its
labels and of the states they lead to, so that a property can be stated of every
step of the run and not only of its last state. -/
namespace Library.Transition

variable {σ ι : Type*}

/-- One step: from a state, under a label, to a next state. -/
abbrev Step (σ ι : Type*) := σ → ι → σ → Prop

/-- `Path step s run`: the labels and states of `run` follow one another from `s`. -/
def Path (step : Step σ ι) : σ → List (ι × σ) → Prop
  | _, [] => True
  | s, (i, t) :: rest => step s i t ∧ Path step t rest

/-- `Along q s run`: every step of `run` has the property `q`. -/
def Along (q : Step σ ι) : σ → List (ι × σ) → Prop
  | _, [] => True
  | s, (i, t) :: rest => q s i t ∧ Along q t rest

def last : σ → List (ι × σ) → σ
  | s, [] => s
  | _, (_, t) :: rest => last t rest

@[simp] theorem path_nil (step : Step σ ι) (s : σ) : Path step s [] := trivial

@[simp] theorem path_cons (step : Step σ ι) (s t : σ) (i : ι) (rest : List (ι × σ)) :
    Path step s ((i, t) :: rest) ↔ step s i t ∧ Path step t rest := Iff.rfl

@[simp] theorem along_nil (q : Step σ ι) (s : σ) : Along q s [] := trivial

@[simp] theorem along_cons (q : Step σ ι) (s t : σ) (i : ι) (rest : List (ι × σ)) :
    Along q s ((i, t) :: rest) ↔ q s i t ∧ Along q t rest := Iff.rfl

@[simp] theorem last_nil (s : σ) : last s ([] : List (ι × σ)) = s := rfl

@[simp] theorem last_cons (s t : σ) (i : ι) (rest : List (ι × σ)) :
    last s ((i, t) :: rest) = last t rest := rfl

/-- The invariant rule: what holds at the start and is kept by every step that meets `c`
holds at the end of every run whose steps all meet `c`. -/
theorem invariant_last {step c : Step σ ι} {inv : σ → Prop}
    (keep : ∀ s i t, inv s → step s i t → c s i t → inv t) (s : σ) (run : List (ι × σ))
    (hs : inv s) (hpath : Path step s run) (hc : Along c s run) : inv (last s run) := by
  induction run generalizing s with
  | nil => exact hs
  | cons head rest ih =>
    obtain ⟨i, t⟩ := head
    exact ih t (keep s i t hs hpath.1 hc.1) hpath.2 hc.2

theorem last_of_path {step : Step σ ι} {inv : σ → Prop}
    (keep : ∀ s i t, inv s → step s i t → inv t) (s : σ) (run : List (ι × σ)) (hs : inv s)
    (hpath : Path step s run) : inv (last s run) := by
  induction run generalizing s with
  | nil => exact hs
  | cons head rest ih =>
    obtain ⟨i, t⟩ := head
    exact ih t (keep s i t hs hpath.1) hpath.2

theorem last_of_along (q : σ → Prop) {s : σ} {run : List (ι × σ)} (hs : q s)
    (hrun : Along (fun _ _ t => q t) s run) : q (last s run) := by
  induction run generalizing s with
  | nil => exact hs
  | cons head rest ih =>
    obtain ⟨i, t⟩ := head
    exact ih hrun.1 hrun.2

theorem along_of_invariant {step c q : Step σ ι} {inv : σ → Prop}
    (keep : ∀ s i t, inv s → step s i t → c s i t → inv t)
    (gives : ∀ s i t, inv s → step s i t → c s i t → q s i t) (s : σ) (run : List (ι × σ))
    (hs : inv s) (hpath : Path step s run) (hc : Along c s run) : Along q s run := by
  induction run generalizing s with
  | nil => trivial
  | cons head rest ih =>
    obtain ⟨i, t⟩ := head
    exact ⟨gives s i t hs hpath.1 hc.1, ih t (keep s i t hs hpath.1 hc.1) hpath.2 hc.2⟩

theorem along_of_path {step q : Step σ ι} {inv : σ → Prop}
    (keep : ∀ s i t, inv s → step s i t → inv t) (gives : ∀ s i t, inv s → step s i t → q s i t)
    (s : σ) (run : List (ι × σ)) (hs : inv s) (hpath : Path step s run) : Along q s run := by
  induction run generalizing s with
  | nil => trivial
  | cons head rest ih =>
    obtain ⟨i, t⟩ := head
    exact ⟨gives s i t hs hpath.1, ih t (keep s i t hs hpath.1) hpath.2⟩

/-- When `c` decides `q` at every step from an invariant state, a run has `q` throughout
exactly if it meets `c` throughout: the first step without `c` is the first without `q`. -/
theorem along_iff {step c q : Step σ ι} {inv : σ → Prop}
    (keep : ∀ s i t, inv s → step s i t → c s i t → inv t)
    (decides : ∀ s i t, inv s → step s i t → (q s i t ↔ c s i t)) (s : σ)
    (run : List (ι × σ)) (hs : inv s) (hpath : Path step s run) :
    Along q s run ↔ Along c s run := by
  induction run generalizing s with
  | nil => simp
  | cons head rest ih =>
    obtain ⟨i, t⟩ := head
    rw [along_cons, along_cons, decides s i t hs hpath.1]
    constructor
    · rintro ⟨hc, hq⟩
      exact ⟨hc, (ih t (keep s i t hs hpath.1 hc) hpath.2).mp hq⟩
    · rintro ⟨hc, hrest⟩
      exact ⟨hc, (ih t (keep s i t hs hpath.1 hc) hpath.2).mpr hrest⟩

def trace (next : σ → ι → σ) : σ → List ι → List (ι × σ)
  | _, [] => []
  | s, i :: rest => (i, next s i) :: trace next (next s i) rest

@[simp] theorem trace_nil (next : σ → ι → σ) (s : σ) : trace next s [] = [] := rfl

@[simp] theorem trace_cons (next : σ → ι → σ) (s : σ) (i : ι) (rest : List ι) :
    trace next s (i :: rest) = (i, next s i) :: trace next (next s i) rest := rfl

theorem last_trace (next : σ → ι → σ) (s : σ) (labels : List ι) :
    last s (trace next s labels) = labels.foldl next s := by
  induction labels generalizing s with
  | nil => rfl
  | cons i rest ih => exact ih (next s i)

theorem path_trace (next : σ → ι → σ) (s : σ) (labels : List ι) :
    Path (fun s i t => t = next s i) s (trace next s labels) := by
  induction labels generalizing s with
  | nil => trivial
  | cons i rest ih => exact ⟨rfl, ih (next s i)⟩

end Library.Transition
