import Mathlib.Algebra.Order.Group.Int
import Mathlib.Data.List.Basic
import Mathlib.Logic.Function.Basic
import Mathlib.Tactic.Common

/-! Queues in a ring of `n` cells. A cell outside the queue holds a blank, so that the contents of
the cells and the position of the head alone say what the queue is. Positions are integers, reduced
modulo `n`; a counter that wraps at a multiple of `n` is as good as one that does not. -/
namespace Library.Ring

variable {α : Type*}

def index (n : Nat) (position : Int) : Nat := (position % n).toNat

theorem index_lt {n : Nat} (hn : 0 < n) (position : Int) : index n position < n := by
  have hlow := Int.emod_nonneg position (by omega : (n : Int) ≠ 0)
  have hhigh := Int.emod_lt_of_pos position (by omega : (0 : Int) < n)
  unfold index
  omega

theorem index_congr {n : Nat} {p q : Int} (h : p % n = q % n) : index n p = index n q := by
  unfold index
  rw [h]

theorem index_inj {n : Nat} {head : Int} {i j : Nat} (hi : i < n) (hj : j < n)
    (h : index n (head + i) = index n (head + j)) : i = j := by
  have hi0 := Int.emod_nonneg (head + i) (by omega : (n : Int) ≠ 0)
  have hj0 := Int.emod_nonneg (head + j) (by omega : (n : Int) ≠ 0)
  have hmod : (head + i) % (n : Int) = (head + j) % n := by
    unfold index at h
    omega
  have hmod' : (i : Int) % n = (j : Int) % n := Int.emod_add_cancel_left.mp hmod
  rw [Int.emod_eq_of_lt (by omega) (by omega), Int.emod_eq_of_lt (by omega) (by omega)] at hmod'
  omega

/-- The cells hold the queue from the head on, and blanks elsewhere. -/
structure Holds (n : Nat) (blank : α) (cells : Nat → α) (head : Int) (queue : List α) : Prop where
  fits : queue.length ≤ n
  cell : ∀ i < n, cells (index n (head + i)) = (queue[i]?).getD blank

variable {n : Nat} {blank : α} {cells : Nat → α} {head : Int} {queue : List α}

theorem Holds.congr {head' : Int} (h : Holds n blank cells head queue)
    (hhead : head' % n = head % n) : Holds n blank cells head' queue := by
  refine ⟨h.fits, fun i hi => ?_⟩
  have hsame : index n (head' + i) = index n (head + i) :=
    index_congr ((Int.emod_add_cancel_right _).mpr hhead)
  rw [hsame]
  exact h.cell i hi

theorem Holds.front (h : Holds n blank cells head queue) (hn : 0 < n) :
    cells (index n head) = (queue[0]?).getD blank := by
  have hcell := h.cell 0 hn
  rwa [show head + ((0 : Nat) : Int) = head by omega] at hcell

theorem Holds.push (h : Holds n blank cells head queue) (hroom : queue.length < n) (c : α) :
    Holds n blank (Function.update cells (index n (head + queue.length)) c) head
      (queue ++ [c]) := by
  refine ⟨by rw [List.length_append, List.length_singleton]; omega, fun i hi => ?_⟩
  by_cases heq : i = queue.length
  · rw [heq, Function.update_self, List.getElem?_concat_length]
    rfl
  · rw [Function.update_of_ne fun hsame => heq (index_inj hi hroom hsame), h.cell i hi]
    by_cases hlt : i < queue.length
    · rw [List.getElem?_append_left hlt]
    · rw [List.getElem?_eq_none (by omega), List.getElem?_eq_none]
      rw [List.length_append, List.length_singleton]
      omega

theorem Holds.pop {c : α} {rest : List α} (h : Holds n blank cells head (c :: rest)) :
    Holds n blank (Function.update cells (index n head) blank) (head + 1) rest := by
  have hfits : rest.length + 1 ≤ n := h.fits
  refine ⟨by omega, fun i hi => ?_⟩
  have hshift : head + 1 + (i : Int) = head + ((i + 1 : Nat) : Int) := by
    push_cast
    omega
  by_cases hlast : i + 1 < n
  · have hne : index n (head + 1 + i) ≠ index n head := by
      intro hsame
      rw [hshift, show index n head = index n (head + ((0 : Nat) : Int)) by simp] at hsame
      exact absurd (index_inj hlast (by omega) hsame) (by omega)
    rw [Function.update_of_ne hne, hshift, h.cell (i + 1) hlast, List.getElem?_cons_succ]
  · -- the cell one turn after the head is the one that was just blanked
    have hturn : index n (head + 1 + i) = index n head := by
      apply index_congr
      rw [hshift, show i + 1 = n by omega, Int.add_emod_right]
    rw [hturn, Function.update_self, List.getElem?_eq_none (by omega)]
    rfl

theorem Holds.dropLast {c : α} {rest : List α} (h : Holds n blank cells head (rest ++ [c])) :
    Holds n blank (Function.update cells (index n (head + rest.length)) blank) head rest := by
  have hfits := h.fits
  rw [List.length_append, List.length_singleton] at hfits
  refine ⟨by omega, fun i hi => ?_⟩
  by_cases heq : i = rest.length
  · rw [heq, Function.update_self, List.getElem?_eq_none (le_refl _)]
    rfl
  · rw [Function.update_of_ne fun hsame => heq (index_inj hi (by omega) hsame), h.cell i hi]
    by_cases hlt : i < rest.length
    · rw [List.getElem?_append_left hlt]
    · rw [List.getElem?_eq_none (by omega : rest.length ≤ i), List.getElem?_eq_none]
      rw [List.length_append, List.length_singleton]
      omega

end Library.Ring
