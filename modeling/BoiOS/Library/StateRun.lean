import Mathlib.Order.Defs.Unbundled

/-! Programs that read and change a state and may stop without a result. A run that ends with a
value is followed from one end of a sequence to the other; a relation or an assertion that every
step keeps is kept by the whole program. -/
namespace Library.StateRun

universe u
variable {σ ε α β : Type u}

/-- A program over states `σ` that may stop with an `ε`. -/
abbrev Prog (σ ε α : Type u) := StateT σ (Except ε) α

@[simp] theorem pure_apply (a : α) (s : σ) : (pure a : Prog σ ε α) s = .ok (a, s) := rfl

theorem bind_apply (x : Prog σ ε α) (f : α → Prog σ ε β) (s : σ) :
    (x >>= f) s = (x s).bind fun r => f r.1 r.2 := by
  change (x s >>= fun r => f r.1 r.2) = _
  rfl

theorem bind_of_ok {x : Prog σ ε α} {s t : σ} {a : α} (h : x s = .ok (a, t))
    (f : α → Prog σ ε β) : (x >>= f) s = f a t := by
  rw [bind_apply, h]
  rfl

theorem bind_of_error {x : Prog σ ε α} {s : σ} {e : ε} (h : x s = .error e)
    (f : α → Prog σ ε β) : (x >>= f) s = .error e := by
  rw [bind_apply, h]
  rfl

theorem bind_eq_ok {x : Prog σ ε α} {f : α → Prog σ ε β} {s t : σ} {b : β} :
    (x >>= f) s = .ok (b, t) ↔ ∃ a s', x s = .ok (a, s') ∧ f a s' = .ok (b, t) := by
  rw [bind_apply]
  cases h : x s with
  | error e => simp [Except.bind]
  | ok r =>
    obtain ⟨a, s'⟩ := r
    constructor
    · intro hf
      exact ⟨a, s', rfl, hf⟩
    · rintro ⟨a', t', heq, hf⟩
      cases heq
      exact hf

theorem outcome_bind_eq_ok {x : Except ε α} {f : α → Except ε β} {b : β} :
    (x >>= f) = .ok b ↔ ∃ a, x = .ok a ∧ f a = .ok b := by
  cases x with
  | error e =>
    constructor
    · intro h
      cases h
    · rintro ⟨a, h, -⟩
      cases h
  | ok a =>
    constructor
    · intro h
      exact ⟨a, rfl, h⟩
    · rintro ⟨a', h, hf⟩
      cases h
      exact hf

@[simp] theorem get_apply (s : σ) : (get : Prog σ ε σ) s = .ok (s, s) := rfl

@[simp] theorem throw_apply (e : ε) (s : σ) : (throw e : Prog σ ε α) s = .error e := rfl

theorem pure_eq_ok {a b : α} {s t : σ} :
    (pure a : Prog σ ε α) s = .ok (b, t) ↔ a = b ∧ s = t := by
  rw [pure_apply, Except.ok.injEq, Prod.mk.injEq]

theorem get_eq_ok {r s t : σ} : (get : Prog σ ε σ) s = .ok (r, t) ↔ s = r ∧ s = t := by
  rw [get_apply, Except.ok.injEq, Prod.mk.injEq]

theorem bind_get_eq_ok {f : σ → Prog σ ε β} {s t : σ} {b : β} :
    ((get : Prog σ ε σ) >>= f) s = .ok (b, t) ↔ f s s = .ok (b, t) := by
  rw [bind_of_ok (get_apply s)]

theorem throw_eq_ok {e : ε} {a : α} {s t : σ} :
    (throw e : Prog σ ε α) s = .ok (a, t) ↔ False := by
  rw [throw_apply]
  simp

def value? (r : Except ε (α × σ)) : Option α :=
  match r with
  | .ok (a, _) => some a
  | .error _ => none

theorem exists_of_value? {r : Except ε (α × σ)} {a : α} (h : value? r = some a) :
    ∃ s, r = .ok (a, s) := by
  cases r with
  | error e => simp [value?] at h
  | ok p =>
    obtain ⟨b, s⟩ := p
    simp only [value?, Option.some.injEq] at h
    exact ⟨s, by rw [h]⟩

def stop? (r : Except ε (α × σ)) : Option ε :=
  match r with
  | .ok _ => none
  | .error e => some e

theorem error_of_stop? {r : Except ε (α × σ)} {e : ε} (h : stop? r = some e) : r = .error e := by
  cases r with
  | ok p => simp [stop?] at h
  | error e' =>
    simp only [stop?, Option.some.injEq] at h
    rw [h]

/-- Every run of the program that ends with a value relates its two states by `R`. -/
def Keeps (R : σ → σ → Prop) (x : Prog σ ε α) : Prop := ∀ s a t, x s = .ok (a, t) → R s t

theorem Keeps.pure {R : σ → σ → Prop} (refl : ∀ s, R s s) (a : α) :
    Keeps R (pure a : Prog σ ε α) := by
  intro s b t h
  rw [pure_apply, Except.ok.injEq, Prod.mk.injEq] at h
  rw [← h.2]
  exact refl s

theorem Keeps.bind {R : σ → σ → Prop} (trans : ∀ {a b c}, R a b → R b c → R a c)
    {x : Prog σ ε α} {f : α → Prog σ ε β} (hx : Keeps R x) (hf : ∀ a, Keeps R (f a)) :
    Keeps R (x >>= f) := by
  intro s b t h
  obtain ⟨a, s', hfirst, hrest⟩ := bind_eq_ok.mp h
  exact trans (hx s a s' hfirst) (hf a s' b t hrest)

theorem Keeps.get {R : σ → σ → Prop} (refl : ∀ s, R s s) : Keeps R (get : Prog σ ε σ) := by
  intro s r t h
  rw [← (get_eq_ok.mp h).2]
  exact refl s

theorem Keeps.throw {R : σ → σ → Prop} (e : ε) : Keeps R (throw e : Prog σ ε α) :=
  fun _ _ _ h => (throw_eq_ok.mp h).elim

theorem Keeps.ite {R : σ → σ → Prop} {c : Prop} [Decidable c] {x y : Prog σ ε α}
    (hx : Keeps R x) (hy : Keeps R y) : Keeps R (if c then x else y) := by
  by_cases h : c
  · rwa [if_pos h]
  · rwa [if_neg h]

/-- From `s` on the program has the outcome `r`, and a value leaves it in a state that `R` relates
to `s`. -/
def Computes (R : σ → σ → Prop) (s : σ) (x : Prog σ ε α) (r : Except ε α) : Prop :=
  match r with
  | .ok a => ∃ t, x s = .ok (a, t) ∧ R s t
  | .error e => x s = .error e

theorem Computes.pure {R : σ → σ → Prop} (refl : ∀ s, R s s) (s : σ) (a : α) :
    Computes R s (Pure.pure a : Prog σ ε α) (.ok a) := ⟨s, rfl, refl s⟩

theorem Computes.read {R : σ → σ → Prop} {s : σ} {x : Prog σ ε α} {f : α → Prog σ ε β} {a : α}
    {r : Except ε β} (hrun : x s = .ok (a, s)) (h : Computes R s (f a) r) :
    Computes R s (x >>= f) r := by
  cases r with
  | error e => exact (bind_of_ok hrun f).trans h
  | ok b =>
    obtain ⟨t, hrest, hst⟩ := h
    exact ⟨t, (bind_of_ok hrun f).trans hrest, hst⟩

theorem Computes.step {R : σ → σ → Prop} (trans : ∀ {a b c}, R a b → R b c → R a c) {s t : σ}
    {x : Prog σ ε α} {f : α → Prog σ ε β} {a : α} {r : Except ε β} (hrun : x s = .ok (a, t))
    (hst : R s t) (h : Computes R t (f a) r) : Computes R s (x >>= f) r := by
  cases r with
  | error e => exact (bind_of_ok hrun f).trans h
  | ok b =>
    obtain ⟨u, hrest, htu⟩ := h
    exact ⟨u, (bind_of_ok hrun f).trans hrest, trans hst htu⟩

theorem Computes.bind {R : σ → σ → Prop} (trans : ∀ {a b c}, R a b → R b c → R a c) {s : σ}
    {x : Prog σ ε α} {f : α → Prog σ ε β} {r : Except ε α} {g : α → Except ε β}
    (hx : Computes R s x r)
    (hf : ∀ a t, r = .ok a → R s t → Computes R t (f a) (g a)) :
    Computes R s (x >>= f) (r.bind g) := by
  cases r with
  | error e =>
    exact bind_of_error hx f
  | ok a =>
    obtain ⟨t, hrun, hst⟩ := hx
    exact Computes.step (R := R) trans hrun hst (hf a t rfl hst)

/-- From `s` on the program leaves the part `f` of the state that the outcome says, in a state that
`R` relates to `s`, or stops with it; what it answers does not count. -/
def Leaves {γ : Type u} (R : σ → σ → Prop) (f : σ → γ) (s : σ) (x : Prog σ ε α) (r : Except ε γ) :
    Prop :=
  match r with
  | .ok c => ∃ a t, x s = .ok (a, t) ∧ f t = c ∧ R s t
  | .error e => x s = .error e

namespace Leaves
variable {γ : Type u} {R : σ → σ → Prop} {f : σ → γ} {s t : σ} {x : Prog σ ε α} {g : α → Prog σ ε β}

theorem pure (refl : ∀ s, R s s) {c : γ} (hpart : f s = c) (a : α) :
    Leaves R f s (Pure.pure a : Prog σ ε α) (.ok c) := ⟨a, s, rfl, hpart, refl s⟩

theorem congr {y : Prog σ ε α} {r : Except ε γ} (hrun : x s = y s) (h : Leaves R f s y r) :
    Leaves R f s x r := by
  unfold Leaves
  rwa [hrun]

theorem step (trans : ∀ {a b c}, R a b → R b c → R a c) {a : α} {r : Except ε γ}
    (hrun : x s = .ok (a, t)) (hst : R s t) (h : Leaves R f t (g a) r) : Leaves R f s (x >>= g) r := by
  cases r with
  | error e => exact (bind_of_ok hrun g).trans h
  | ok c =>
    obtain ⟨b, u, hrest, hpart, htu⟩ := h
    exact ⟨b, u, (bind_of_ok hrun g).trans hrest, hpart, trans hst htu⟩

theorem of_computes {Q : σ → σ → Prop} (trans : ∀ {a b c}, R a b → R b c → R a c)
    (hle : ∀ {a b}, Q a b → R a b) {r : Except ε α} {h : α → Except ε γ} (hx : Computes Q s x r)
    (hg : ∀ a t, r = .ok a → Q s t → Leaves R f t (g a) (h a)) :
    Leaves R f s (x >>= g) (r >>= h) := by
  cases r with
  | error e => exact bind_of_error hx g
  | ok a =>
    obtain ⟨t, hrun, hst⟩ := hx
    exact Leaves.step (R := R) trans hrun (hle hst) (hg a t rfl hst)

theorem bind (trans : ∀ {a b c}, R a b → R b c → R a c) {r : Except ε γ} {h : γ → Except ε γ}
    (hx : Leaves R f s x r)
    (hg : ∀ a t, x s = .ok (a, t) → R s t → Leaves R f t (g a) (h (f t))) :
    Leaves R f s (x >>= g) (r >>= h) := by
  cases r with
  | error e => exact bind_of_error hx g
  | ok c =>
    obtain ⟨a, t, hrun, rfl, hst⟩ := hx
    exact Leaves.step (R := R) trans hrun hst (hg a t hrun hst)

theorem followed (trans : ∀ {a b c}, R a b → R b c → R a c) {r : Except ε γ} (hx : Leaves R f s x r)
    (hg : ∀ a t, ∃ b u, g a t = .ok (b, u) ∧ f u = f t ∧ R t u) : Leaves R f s (x >>= g) r := by
  cases r with
  | error e => exact bind_of_error hx g
  | ok c =>
    obtain ⟨a, t, hrun, rfl, hst⟩ := hx
    obtain ⟨b, u, hrest, hpart, htu⟩ := hg a t
    exact ⟨b, u, (bind_of_ok hrun g).trans hrest, hpart, trans hst htu⟩

theorem of_run {r : Except ε γ} {a : α} (h : Leaves R f s x r) (hrun : x s = .ok (a, t)) :
    r = .ok (f t) ∧ R s t := by
  cases r with
  | error e =>
    change x s = .error e at h
    rw [h] at hrun
    cases hrun
  | ok c =>
    obtain ⟨b, u, hrun', rfl, hst⟩ := h
    rw [hrun', Except.ok.injEq, Prod.mk.injEq] at hrun
    obtain ⟨-, rfl⟩ := hrun
    exact ⟨rfl, hst⟩

end Leaves

section Modify

variable {σ ε : Type}

@[simp] theorem modify_apply (f : σ → σ) (s : σ) :
    (modify f : Prog σ ε Unit) s = .ok ((), f s) := rfl

theorem modify_eq_ok {f : σ → σ} {u : Unit} {s t : σ} :
    (modify f : Prog σ ε Unit) s = .ok (u, t) ↔ f s = t := by
  rw [modify_apply, Except.ok.injEq, Prod.mk.injEq]
  exact ⟨fun h => h.2, fun h => ⟨rfl, h⟩⟩

theorem Keeps.modify {R : σ → σ → Prop} {f : σ → σ} (h : ∀ s, R s (f s)) :
    Keeps R (modify f : Prog σ ε Unit) := by
  intro s u t hrun
  rw [← modify_eq_ok.mp hrun]
  exact h s

end Modify

section Kept

variable {σ ε α β γ : Type} {R : σ → σ → Prop}

/-- `Keeps` as a class: that a program keeps a preorder is inferred from its parts. -/
class Kept (R : σ → σ → Prop) (x : Prog σ ε α) : Prop where
  keeps : Keeps R x

instance kept_pure [Std.Refl R] (a : α) : Kept R (pure a : Prog σ ε α) :=
  ⟨Keeps.pure Std.Refl.refl a⟩

instance kept_get [Std.Refl R] : Kept R (get : Prog σ ε σ) := ⟨Keeps.get Std.Refl.refl⟩

instance kept_throw (e : ε) : Kept R (throw e : Prog σ ε α) := ⟨Keeps.throw e⟩

instance kept_bind [IsTrans σ R] (x : Prog σ ε α) (f : α → Prog σ ε β) [hx : Kept R x]
    [hf : ∀ a, Kept R (f a)] : Kept R (x >>= f) :=
  ⟨Keeps.bind (IsTrans.trans _ _ _) hx.keeps fun a => (hf a).keeps⟩

/-- A pair is taken apart first. -/
instance (priority := high) kept_bind_pair [IsTrans σ R] (x : Prog σ ε (α × β))
    (f : α × β → Prog σ ε γ) [hx : Kept R x] [hf : ∀ a b, Kept R (f (a, b))] : Kept R (x >>= f) :=
  ⟨Keeps.bind (IsTrans.trans _ _ _) hx.keeps fun a => (hf a.1 a.2).keeps⟩

instance kept_ite {c : Prop} [Decidable c] (x y : Prog σ ε α) [hx : Kept R x] [hy : Kept R y] :
    Kept R (if c then x else y) := ⟨Keeps.ite hx.keeps hy.keeps⟩

theorem Kept.run {x : Prog σ ε α} (hx : Kept R x) {s t : σ} {a : α} (h : x s = .ok (a, t)) :
    R s t := hx.keeps s a t h

end Kept

section Runs

variable {σ ε α β γ : Type} {R : σ → σ → Prop} {E : σ → ε → Prop}

/-- A preorder on the states, and a claim about stops that can be told from every earlier state. -/
class Follows (R : σ → σ → Prop) (E : σ → ε → Prop) : Prop extends Std.Refl R, IsTrans σ R where
  back : ∀ {s t e}, R s t → E t e → E s e

/-- A run that ends with a value relates its two states by `R`, and of one that stops `E` holds. -/
class Runs (R : σ → σ → Prop) (E : σ → ε → Prop) (x : Prog σ ε α) : Prop where
  keeps : Keeps R x
  stops : ∀ s e, x s = .error e → E s e

instance runs_pure [Follows R E] (a : α) : Runs R E (pure a : Prog σ ε α) where
  keeps := Keeps.pure Std.Refl.refl a
  stops := fun s e h => by rw [pure_apply] at h; cases h

instance runs_get [Follows R E] : Runs R E (get : Prog σ ε σ) where
  keeps := Keeps.get Std.Refl.refl
  stops := fun s e h => by rw [get_apply] at h; cases h

theorem runs_throw {e : ε} (h : ∀ s, E s e) : Runs R E (throw e : Prog σ ε α) where
  keeps := Keeps.throw e
  stops := fun s e' he => by
    rw [throw_apply, Except.error.injEq] at he
    exact he ▸ h s

theorem runs_modify {f : σ → σ} (h : ∀ s, R s (f s)) : Runs R E (modify f : Prog σ ε Unit) where
  keeps := Keeps.modify h
  stops := fun s e he => by rw [modify_apply] at he; cases he

instance runs_bind [hfollows : Follows R E] (x : Prog σ ε α) (f : α → Prog σ ε β)
    [hx : Runs R E x] [hf : ∀ a, Runs R E (f a)] : Runs R E (x >>= f) where
  keeps := Keeps.bind (IsTrans.trans _ _ _) hx.keeps fun a => (hf a).keeps
  stops := by
    intro s e h
    rw [bind_apply] at h
    cases hrun : x s with
    | error e' =>
      rw [hrun] at h
      cases h
      exact hx.stops s e hrun
    | ok r =>
      rw [hrun] at h
      exact hfollows.back (hx.keeps s r.1 r.2 hrun) ((hf r.1).stops r.2 e h)

/-- A pair is taken apart first. -/
instance (priority := high) runs_bind_pair [Follows R E] (x : Prog σ ε (α × β))
    (f : α × β → Prog σ ε γ) [Runs R E x] [hf : ∀ a b, Runs R E (f (a, b))] : Runs R E (x >>= f) :=
  haveI : ∀ a, Runs R E (f a) := fun a => hf a.1 a.2
  runs_bind x f

instance runs_ite {c : Prop} [Decidable c] (x y : Prog σ ε α) [hx : Runs R E x]
    [hy : Runs R E y] : Runs R E (if c then x else y) := by
  by_cases h : c
  · rwa [if_pos h]
  · rwa [if_neg h]

/-- Where nothing is said of the stops. -/
instance (priority := low) kept_of_runs (x : Prog σ ε α) [hx : Runs R (fun _ _ => True) x] :
    Kept R x := ⟨hx.keeps⟩

end Runs

end Library.StateRun
