import Mathlib.Data.List.Basic

/-! Doubly linked chains over an arbitrary node store. `next` and `prev` give the two
links of a node, or nothing for an address that holds no node; `nil` is the null link. -/
namespace Library.DoublyLinked

variable {α : Type*}

/-- The nodes of the list are linked in its order, both ways, after `before`. -/
def Linked (next prev : α → Option α) (nil : α) : α → List α → Prop
  | _, [] => True
  | before, a :: rest =>
      prev a = some before ∧ next a = some (rest.headD nil) ∧ Linked next prev nil a rest

variable {next prev next' prev' : α → Option α} {nil before : α}

@[simp] theorem linked_nil : Linked next prev nil before [] := trivial

@[simp] theorem linked_cons (a : α) (rest : List α) :
    Linked next prev nil before (a :: rest) ↔
      prev a = some before ∧ next a = some (rest.headD nil) ∧ Linked next prev nil a rest :=
  Iff.rfl

theorem Linked.isSome {l : List α} (h : Linked next prev nil before l) (a : α) (ha : a ∈ l) :
    (next a).isSome ∧ (prev a).isSome := by
  induction l generalizing before with
  | nil => simp at ha
  | cons b rest ih =>
    obtain ⟨hprev, hnext, hrest⟩ := h
    rcases List.mem_cons.mp ha with rfl | hmem
    · simp [hprev, hnext]
    · exact ih hrest hmem

theorem Linked.prev_eq {l r : List α} {a : α}
    (h : Linked next prev nil before (l ++ a :: r)) : prev a = some (l.getLastD before) := by
  induction l generalizing before with
  | nil => exact h.1
  | cons b rest ih =>
    rw [ih h.2.2, List.getLastD_cons]

theorem Linked.next_eq {l r : List α} {a : α}
    (h : Linked next prev nil before (l ++ a :: r)) : next a = some (r.headD nil) := by
  induction l generalizing before with
  | nil => exact h.2.1
  | cons b rest ih => exact ih h.2.2

theorem Linked.append {l : List α} {a x : α}
    (h : Linked next prev nil before (l ++ [a]))
    (hsame : ∀ b ∈ l, next' b = next b ∧ prev' b = prev b)
    (hprev : prev' a = prev a) (hnext : next' a = some x)
    (hprevx : prev' x = some a) (hnextx : next' x = some nil) :
    Linked next' prev' nil before (l ++ [a, x]) := by
  induction l generalizing before with
  | nil =>
    refine ⟨hprev.trans h.1, hnext, hprevx, hnextx, trivial⟩
  | cons b rest ih =>
    obtain ⟨hnextb, hprevb⟩ := hsame b (List.mem_cons_self ..)
    obtain ⟨hb, hb', hrest⟩ := h
    refine ⟨hprevb.trans hb, ?_, ih hrest fun c hc => hsame c (List.mem_cons_of_mem b hc)⟩
    change next' b = some ((rest ++ [a, x]).headD nil)
    rw [hnextb, hb']
    cases rest <;> rfl

theorem Linked.dropLast {l : List α} {a x : α}
    (h : Linked next prev nil before (l ++ [a, x]))
    (hsame : ∀ b ∈ l, next' b = next b ∧ prev' b = prev b)
    (hprev : prev' a = prev a) (hnext : next' a = some nil) :
    Linked next' prev' nil before (l ++ [a]) := by
  induction l generalizing before with
  | nil => exact ⟨hprev.trans h.1, hnext, trivial⟩
  | cons b rest ih =>
    obtain ⟨hnextb, hprevb⟩ := hsame b (List.mem_cons_self ..)
    obtain ⟨hb, hb', hrest⟩ := h
    refine ⟨hprevb.trans hb, ?_, ih hrest fun c hc => hsame c (List.mem_cons_of_mem b hc)⟩
    change next' b = some ((rest ++ [a]).headD nil)
    rw [hnextb, hb']
    cases rest <;> rfl

/-! The forward links alone. -/

/-- The nodes of the list are linked in its order by their forward links. -/
def Chained (next : α → Option α) (nil : α) : List α → Prop
  | [] => True
  | a :: rest => next a = some (rest.headD nil) ∧ Chained next nil rest

theorem Linked.chained {l : List α} (h : Linked next prev nil before l) : Chained next nil l := by
  induction l generalizing before with
  | nil => trivial
  | cons a rest ih => exact ⟨h.2.1, ih h.2.2⟩

theorem Chained.next_eq {l : List α} (h : Chained next nil l) {i : Nat} {a : α}
    (ha : l[i]? = some a) : next a = some (l.getD (i + 1) nil) := by
  induction l generalizing i with
  | nil => simp at ha
  | cons b rest ih =>
    cases i with
    | zero =>
      rw [List.getElem?_cons_zero, Option.some.injEq] at ha
      rw [← ha, h.1]
      cases rest <;> rfl
    | succ i =>
      rw [List.getElem?_cons_succ] at ha
      rw [ih h.2 ha, List.getD_cons_succ]

theorem Chained.congr {l : List α} (h : Chained next nil l) (hsame : ∀ b ∈ l, next' b = next b) :
    Chained next' nil l := by
  induction l with
  | nil => trivial
  | cons b rest ih =>
    exact ⟨(hsame b (List.mem_cons_self ..)).trans h.1,
      ih h.2 fun c hc => hsame c (List.mem_cons_of_mem b hc)⟩

theorem Chained.remove {l r : List α} {a c : α} (h : Chained next nil (l ++ c :: a :: r))
    (hsame : ∀ b ∈ l ++ r, next' b = next b) (haround : next' c = some (r.headD nil)) :
    Chained next' nil (l ++ c :: r) := by
  induction l with
  | nil => exact ⟨haround, h.2.2.congr hsame⟩
  | cons d l ih =>
    refine ⟨?_, ih h.2 fun b hb => hsame b (List.mem_cons_of_mem d hb)⟩
    rw [hsame d (List.mem_cons_self ..), h.1]
    cases l <;> rfl

end Library.DoublyLinked
