import BoiOS.Library.StateRun

/-! Programs that wait for another machine. Such a program is run with a bound on its patience and
gives up where the bound is too small. It simulates a program that need not wait if with enough
patience it does the same, and with too little nothing else. -/
namespace Library.Patience
open Library.StateRun

universe u
variable {σ τ ε δ α β : Type u}

/-- The states that belong together, what a stop of the simulated program is, and giving up. -/
structure Setting (σ τ ε δ : Type u) where
  related : σ → τ → Prop
  stop : δ → ε
  gaveUp : ε

namespace Setting

def Same (S : Setting σ τ ε δ) (r : Except ε (α × σ)) (q : Except δ (α × τ)) : Prop :=
  (∃ a s t, r = .ok (a, s) ∧ q = .ok (a, t) ∧ S.related s t) ∨
    ∃ d, r = .error (S.stop d) ∧ q = .error d

/-- From two states on: the outcome does not depend on the patience that is enough for it. -/
def SimulatesAt (S : Setting σ τ ε δ) (x : Nat → Prog σ ε α) (y : Prog τ δ α) (s : σ) (t : τ) :
    Prop :=
  ∃ r bound, S.Same r (y t) ∧ (∀ n, x n s = .error S.gaveUp ∨ x n s = r) ∧
    ∀ n, bound ≤ n → x n s = r

def Simulates (S : Setting σ τ ε δ) (x : Nat → Prog σ ε α) (y : Prog τ δ α) : Prop :=
  ∀ s t, S.related s t → S.SimulatesAt x y s t

variable {S : Setting σ τ ε δ} {x : Nat → Prog σ ε α} {y : Prog τ δ α} {s : σ} {t : τ}

theorem Same.ok {a : α} (h : S.related s t) : S.Same (.ok (a, s)) (.ok (a, t)) :=
  .inl ⟨a, s, t, rfl, rfl, h⟩

theorem Same.error (d : δ) :
    S.Same (.error (S.stop d) : Except ε (α × σ)) (.error d : Except δ (α × τ)) :=
  .inr ⟨d, rfl, rfl⟩

theorem SimulatesAt.congr {x' : Nat → Prog σ ε α} {y' : Prog τ δ α} (h : S.SimulatesAt x' y' s t)
    (hx : ∀ n, x n s = x' n s) (hy : y t = y' t) : S.SimulatesAt x y s t := by
  obtain ⟨r, bound, hsame, hall, hbound⟩ := h
  refine ⟨r, bound, ?_, fun n => ?_, fun n hn => ?_⟩
  · rw [hy]
    exact hsame
  · rw [hx]
    exact hall n
  · rw [hx]
    exact hbound n hn

theorem SimulatesAt.of_same {x : Prog σ ε α} (h : S.Same (x s) (y t)) :
    S.SimulatesAt (fun _ => x) y s t :=
  ⟨x s, 0, h, fun _ => .inr rfl, fun _ _ => rfl⟩

theorem SimulatesAt.bind {f : Nat → α → Prog σ ε β} {g : α → Prog τ δ β}
    (hfirst : S.SimulatesAt x y s t)
    (hrest : ∀ a s' t', y t = .ok (a, t') → S.related s' t' →
      S.SimulatesAt (fun n => f n a) (g a) s' t') :
    S.SimulatesAt (fun n => x n >>= f n) (y >>= g) s t := by
  obtain ⟨r, bound, hsame, hx, hbound⟩ := hfirst
  rcases hsame with ⟨a, s', t', rfl, hy, hrelated⟩ | ⟨d, rfl, hy⟩
  · obtain ⟨r', later, hsame', hx', hlater⟩ := hrest a s' t' hy hrelated
    refine ⟨r', max bound later, ?_, fun n => ?_, fun n hn => ?_⟩
    · rw [bind_of_ok hy]
      exact hsame'
    · rcases hx n with hgave | hok
      · exact .inl (bind_of_error hgave (f n))
      · have hgo := bind_of_ok hok (f n)
        exact (hx' n).imp hgo.trans hgo.trans
    · exact (bind_of_ok (hbound n (by omega)) (f n)).trans (hlater n (by omega))
  · refine ⟨.error (S.stop d), bound, ?_, fun n => ?_, fun n hn => ?_⟩
    · rw [bind_of_error hy]
      exact .error d
    · rcases hx n with hgave | hstop
      · exact .inl (bind_of_error hgave (f n))
      · exact .inr (bind_of_error hstop (f n))
    · exact bind_of_error (hbound n hn) (f n)

/-- A step that waits, and that the simulated program does not have. -/
theorem SimulatesAt.waiting {f : Nat → α → Prog σ ε β} {y : Prog τ δ β} {a : α} {s' : σ}
    {bound : Nat} (hx : ∀ n, x n s = .error S.gaveUp ∨ x n s = .ok (a, s'))
    (hbound : ∀ n, bound ≤ n → x n s = .ok (a, s'))
    (hrest : S.SimulatesAt (fun n => f n a) y s' t) :
    S.SimulatesAt (fun n => x n >>= f n) y s t := by
  obtain ⟨r, later, hsame, hall, hlater⟩ := hrest
  refine ⟨r, max bound later, hsame, fun n => ?_, fun n hn => ?_⟩
  · rcases hx n with hgave | hok
    · exact .inl (bind_of_error hgave (f n))
    · have hgo := bind_of_ok hok (f n)
      exact (hall n).imp hgo.trans hgo.trans
  · exact (bind_of_ok (hbound n (by omega)) (f n)).trans (hlater n (by omega))

theorem SimulatesAt.ok {n : Nat} {a : α} {s' : σ} (h : S.SimulatesAt x y s t)
    (hx : x n s = .ok (a, s')) : ∃ t', y t = .ok (a, t') ∧ S.related s' t' := by
  obtain ⟨r, -, hsame, hall, -⟩ := h
  rcases hall n with hgave | hr
  · rw [hgave] at hx
    cases hx
  · rw [← hr, hx] at hsame
    rcases hsame with ⟨b, u, t', hvalue, hy, hrelated⟩ | ⟨d, hstop, -⟩
    · cases hvalue
      exact ⟨t', hy, hrelated⟩
    · cases hstop

theorem SimulatesAt.exists_ok {a : α} {t' : τ} (h : S.SimulatesAt x y s t)
    (hy : y t = .ok (a, t')) : ∃ n s', x n s = .ok (a, s') ∧ S.related s' t' := by
  obtain ⟨r, bound, hsame, -, hbound⟩ := h
  rw [hy] at hsame
  rcases hsame with ⟨b, s', u, rfl, hvalue, hrelated⟩ | ⟨d, -, hstop⟩
  · cases hvalue
    exact ⟨bound, s', hbound bound (Nat.le_refl bound), hrelated⟩
  · cases hstop

theorem SimulatesAt.error {n : Nat} {e : ε} (h : S.SimulatesAt x y s t)
    (hx : x n s = .error e) : e = S.gaveUp ∨ ∃ d, e = S.stop d ∧ y t = .error d := by
  obtain ⟨r, -, hsame, hall, -⟩ := h
  rcases hall n with hgave | hr
  · rw [hgave] at hx
    cases hx
    exact .inl rfl
  · rw [← hr, hx] at hsame
    rcases hsame with ⟨b, u, t', hvalue, -⟩ | ⟨d, hstop, hy⟩
    · cases hvalue
    · cases hstop
      exact .inr ⟨d, rfl, hy⟩

end Setting
end Library.Patience
