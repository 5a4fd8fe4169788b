import Mathlib.Algebra.Order.Group.Int
import Mathlib.Tactic.Common

/-! The 32-bit arithmetic of the C code. A `size_t`, a `uint32_t` and a pointer are natural
numbers below 2^32, an `int` is an integer; the two conversions below are the ones the
compiler inserts between them, and a signed result that leaves the range wraps. -/
namespace BoiOS

/-- Conversion to `uint32_t`, to `size_t` or to a pointer. -/
@[irreducible] def u32 (x : Int) : Nat := (x % 4294967296).toNat

/-- Conversion to `int`, two's complement. -/
@[irreducible] def i32 (x : Int) : Int := (x + 2147483648) % 4294967296 - 2147483648

theorem u32_lt (x : Int) : u32 x < 4294967296 := by
  unfold u32
  omega

theorem u32_of_range {x : Int} (hlow : 0 ≤ x) (hhigh : x < 4294967296) :
    (u32 x : Int) = x := by
  unfold u32
  omega

theorem u32_natCast {n : Nat} (hn : n < 4294967296) : u32 n = n := by
  unfold u32
  omega

theorem u32_natCast_eq (x : Int) : (u32 x : Int) = x % 4294967296 := by
  unfold u32
  omega

theorem u32_congr {x y : Int} (h : x % 4294967296 = y % 4294967296) : u32 x = u32 y := by
  unfold u32
  rw [h]

@[simp] theorem u32_add_u32 (x y : Int) : u32 (u32 x + y) = u32 (x + y) := by
  rw [u32_natCast_eq]
  exact u32_congr (Int.emod_add_emod ..)

@[simp] theorem u32_sub_u32 (x y : Int) : u32 (x - u32 y) = u32 (x - y) := by
  rw [u32_natCast_eq]
  exact u32_congr (Int.sub_emod_emod ..)

theorem i32_of_range {x : Int} (hlow : -2147483648 ≤ x) (hhigh : x < 2147483648) :
    i32 x = x := by
  unfold i32
  omega

theorem tdiv_of_nonpos {x d : Int} (hx : x ≤ 0) : x.tdiv d = -(-x / d) := by
  rw [← Int.tdiv_eq_ediv_of_nonneg (by omega : 0 ≤ -x), Int.neg_tdiv, neg_neg]

/-! The ways a run can end: a kernel panic, an access through a pointer that points to no object,
which in C has no defined result, or a division by zero. -/

inductive Stop
  | panicked
  | faulted
  | divided
  deriving DecidableEq

def access {α : Type} : Option α → Except Stop α
  | some a => .ok a
  | none => .error .faulted

@[simp] theorem access_some {α : Type} (a : α) : access (some a) = .ok a := rfl

@[simp] theorem access_none {α : Type} : access (none : Option α) = .error .faulted := rfl

/-! The status codes of status.h. A function reports failure by the negated code. -/

def allOk : Int := 0
def eio : Int := 1
def einvarg : Int := 2
def enomem : Int := 3
def ebadpath : Int := 4
def efsnotus : Int := 5
def erdonly : Int := 6
def eunimp : Int := 7
def eistkn : Int := 8
def einformat : Int := 9

end BoiOS
