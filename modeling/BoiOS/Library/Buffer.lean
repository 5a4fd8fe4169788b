import Mathlib.Data.List.Basic

/-! Stores into a buffer of a fixed size. A store is an index and a cell; one beyond the end of the
buffer is a store all the same, but none into the buffer. -/
namespace Library.Buffer

variable {α : Type*}

def storesFrom : (start : Nat) → (cells : List α) → List (Nat × α)
  | _, [] => []
  | start, c :: cells => (start, c) :: storesFrom (start + 1) cells

def Fits (size : Nat) (stores : List (Nat × α)) : Prop := ∀ s ∈ stores, s.1 < size

def applyStores (stores : List (Nat × α)) (buffer : List α) : List α :=
  stores.foldl (fun buffer s => buffer.set s.1 s.2) buffer

theorem fits_append {size : Nat} {first second : List (Nat × α)} :
    Fits size (first ++ second) ↔ Fits size first ∧ Fits size second :=
  List.forall_mem_append

theorem applyStores_append (first second : List (Nat × α)) (buffer : List α) :
    applyStores (first ++ second) buffer = applyStores second (applyStores first buffer) :=
  List.foldl_append ..

theorem fits_storesFrom_iff {size start : Nat} {cells : List α} (hcells : cells ≠ []) :
    Fits size (storesFrom start cells) ↔ start + cells.length ≤ size := by
  induction cells generalizing start with
  | nil => exact absurd rfl hcells
  | cons c cells ih =>
    unfold Fits storesFrom
    rw [List.forall_mem_cons]
    cases cells with
    | nil =>
      have hnone : ∀ s ∈ storesFrom (start + 1) ([] : List α), s.1 < size := by simp [storesFrom]
      exact ⟨fun h => h.1, fun h => ⟨h, hnone⟩⟩
    | cons d cells =>
      have hrest : Fits size (storesFrom (start + 1) (d :: cells)) ↔ _ := ih (by simp)
      unfold Fits at hrest
      rw [hrest]
      simp only [List.length_cons]
      omega

theorem applyStores_storesFrom {buffer cells : List α} {start : Nat}
    (h : start + cells.length ≤ buffer.length) :
    applyStores (storesFrom start cells) buffer =
      buffer.take start ++ cells ++ buffer.drop (start + cells.length) := by
  induction cells generalizing start buffer with
  | nil => simp [storesFrom, applyStores]
  | cons c cells ih =>
    rw [List.length_cons] at h
    have hroom : start + 1 + cells.length ≤ (buffer.set start c).length := by
      rw [List.length_set]
      omega
    have htake : (buffer.set start c).take (start + 1) = buffer.take start ++ [c] := by
      rw [List.take_add_one, List.take_set_of_le (Nat.le_refl _), List.getElem?_set_self (by omega)]
      rfl
    have hfirst : applyStores (storesFrom start (c :: cells)) buffer =
        applyStores (storesFrom (start + 1) cells) (buffer.set start c) := rfl
    rw [hfirst, ih hroom, htake, List.drop_set_of_lt (by omega), List.length_cons,
      show start + 1 + cells.length = start + (cells.length + 1) by omega]
    simp

theorem applyStores_blank {first cells : List α} (blank : α) {count : Nat}
    (h : cells.length < count) :
    applyStores (storesFrom first.length (cells ++ [blank])) (first ++ List.replicate count blank) =
      first ++ cells ++ List.replicate (count - cells.length) blank := by
  rw [applyStores_storesFrom (by simp; omega)]
  have hcount : count - cells.length = 1 + (count - (cells.length + 1)) := by omega
  rw [hcount, List.replicate_add]
  simp [List.drop_append]

end Library.Buffer
