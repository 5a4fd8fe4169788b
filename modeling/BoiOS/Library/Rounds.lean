import BoiOS.Library.StateRun
import Mathlib.Logic.Function.Iterate

/-! Loops that need not end. The body of a loop is a function of what comes after it; the loop ends
if after some number of rounds nothing comes after it any more. -/
namespace Library.Rounds
open Library.StateRun

universe u
variable {σ ε β : Type u} {α : Type*} {body : (α → Prog σ ε β) → α → Prog σ ε β}

/-- From `a` in the state `s` on the loop begins at most so many rounds: whatever comes after
them makes no difference. -/
def EndsWithin (body : (α → Prog σ ε β) → α → Prog σ ε β) (rounds : Nat) (a : α) (s : σ) : Prop :=
  ∀ rest rest' : α → Prog σ ε β, (body^[rounds] rest) a s = (body^[rounds] rest') a s

def Ends (body : (α → Prog σ ε β) → α → Prog σ ε β) (a : α) (s : σ) : Prop :=
  ∃ rounds, EndsWithin body rounds a s

theorem ends_iff (last : α → Prog σ ε β) {a : α} {s : σ} : Ends body a s ↔
    ∃ rounds, ∀ rest, (body^[rounds] rest) a s = (body^[rounds] last) a s :=
  ⟨fun ⟨rounds, h⟩ => ⟨rounds, fun rest => h rest last⟩,
    fun ⟨rounds, h⟩ => ⟨rounds, fun rest rest' => (h rest).trans (h rest').symm⟩⟩

theorem iterate_succ (rounds : Nat) (rest : α → Prog σ ε β) :
    body^[rounds + 1] rest = body (body^[rounds] rest) :=
  Function.iterate_succ_apply' body rounds rest

theorem EndsWithin.last {rounds : Nat} {a : α} {s : σ}
    (h : ∀ rest rest' : α → Prog σ ε β, body rest a s = body rest' a s) :
    EndsWithin body (rounds + 1) a s := by
  intro rest rest'
  rw [iterate_succ, iterate_succ]
  exact h _ _

end Library.Rounds
