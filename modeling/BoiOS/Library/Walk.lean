import Mathlib.Data.Set.Finite.Basic

/-! Following links. A link leads from a place to the next one, or nowhere; a walk of `n` steps
ends where the `n`-th link leads, or nowhere as soon as one of them does. -/
namespace Library.Walk

variable {α : Type*}

def walk (link : α → Option α) : Nat → α → Option α
  | 0, a => some a
  | n + 1, a => (link a).bind (walk link n)

@[simp] theorem walk_zero (link : α → Option α) (a : α) : walk link 0 a = some a := rfl

theorem walk_succ (link : α → Option α) (n : Nat) (a : α) :
    walk link (n + 1) a = (link a).bind (walk link n) := rfl

theorem walk_one (link : α → Option α) (a : α) : walk link 1 a = link a :=
  Option.bind_fun_some (link a)

theorem walk_step {link : α → Option α} {n : Nat} {a b c : α} (hlink : link a = some b)
    (hrest : walk link n b = some c) : walk link (n + 1) a = some c := by
  rw [walk_succ, hlink, Option.bind_some, hrest]

theorem walk_trans {link : α → Option α} {m n : Nat} {a b c : α} (hfirst : walk link m a = some b)
    (hrest : walk link n b = some c) : walk link (m + n) a = some c := by
  induction m generalizing a with
  | zero =>
    rw [walk_zero, Option.some.injEq] at hfirst
    rw [Nat.zero_add, hfirst, hrest]
  | succ m ih =>
    rw [walk_succ, Option.bind_eq_some_iff] at hfirst
    obtain ⟨next, hlink, hwalk⟩ := hfirst
    rw [Nat.succ_add, walk_succ, hlink, Option.bind_some]
    exact ih hwalk

theorem walk_add (link : α → Option α) (m n : Nat) (a : α) :
    walk link (m + n) a = (walk link m a).bind (walk link n) := by
  induction m generalizing a with
  | zero =>
    rw [Nat.zero_add]
    rfl
  | succ m ih =>
    rw [Nat.succ_add, walk_succ, walk_succ, Option.bind_assoc]
    exact congrArg (Option.bind (link a)) (funext ih)

theorem walk_ended {link : α → Option α} {m n : Nat} {a : α} (h : walk link m a = none)
    (hle : m ≤ n) : walk link n a = none := by
  rw [← Nat.add_sub_cancel' hle, walk_add, h]
  rfl

theorem walk_round {link : α → Option α} {m : Nat} {a : α} (h : walk link m a = some a) (n : Nat) :
    walk link (n * m) a = some a := by
  induction n with
  | zero =>
    rw [Nat.zero_mul]
    rfl
  | succ n ih =>
    rw [Nat.succ_mul]
    exact walk_trans ih h

/-- Among finitely many places a walk ends exactly if it is at no place twice. -/
theorem walk_ends_iff {link : α → Option α} {start : α} {places : Set α} (hfinite : places.Finite)
    (hin : ∀ n b, walk link n start = some b → b ∈ places) :
    (∃ n, walk link n start = none) ↔
      ∀ i j b, i < j → walk link i start = some b → walk link j start ≠ some b := by
  constructor
  · rintro ⟨n, hend⟩ i j b hij hi hj
    have hback : walk link (j - i) b = some b := by
      rw [← Nat.add_sub_cancel' hij.le, walk_add, hi] at hj
      exact hj
    have hround : walk link (i + n * (j - i)) start = some b :=
      walk_trans hi (walk_round hback n)
    have hlong : n ≤ i + n * (j - i) :=
      (Nat.le_mul_of_pos_right n (by omega)).trans (Nat.le_add_left ..)
    rw [walk_ended hend hlong] at hround
    cases hround
  · intro honce
    by_contra hnever
    rw [not_exists] at hnever
    have hplace (n : Nat) : ∃ b, walk link n start = some b := Option.ne_none_iff_exists'.mp (hnever n)
    choose place hplace using hplace
    have hinjective : Function.Injective place := by
      intro i j hij
      by_contra hne
      rcases Nat.lt_or_gt_of_ne hne with hlt | hlt
      · exact honce i j _ hlt (hplace i) (hij ▸ hplace j)
      · exact honce j i _ hlt (hplace j) (hij ▸ hplace i)
    exact Set.infinite_of_injective_forall_mem hinjective (fun n => hin n _ (hplace n)) hfinite

theorem walk_succ_last (link : α → Option α) (n : Nat) (a : α) :
    walk link (n + 1) a = (walk link n a).bind link := by
  induction n generalizing a with
  | zero => exact walk_one link a
  | succ n ih =>
    rw [walk_succ, walk_succ link n, Option.bind_assoc]
    exact congrArg (Option.bind (link a)) (funext ih)

theorem walk_congr {f g : α → Option α} {n : Nat} {a : α}
    (h : ∀ m < n, ∀ b, walk g m a = some b → f b = g b) : walk f n a = walk g n a := by
  induction n with
  | zero => rfl
  | succ n ih =>
    rw [walk_succ_last, walk_succ_last, ih fun m hm => h m (by omega)]
    cases hwalk : walk g n a with
    | none => rfl
    | some b => exact h n (by omega) b hwalk

theorem walk_eq_iff {f g : α → Option α} {n : Nat} {a : α} :
    (∀ m ≤ n, walk f m a = walk g m a) ↔
      ∀ m < n, ∀ b, walk g m a = some b → f b = g b := by
  constructor
  · intro h m hm b hwalk
    have hlast := h (m + 1) hm
    rw [walk_succ_last, walk_succ_last, h m (by omega), hwalk] at hlast
    exact hlast
  · intro h m hm
    exact walk_congr fun i hi => h i (by omega)

end Library.Walk
