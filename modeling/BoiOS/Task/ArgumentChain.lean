import BoiOS.Library.Rounds
import BoiOS.Library.Walk
import BoiOS.Task.SystemCommand

/-! The walk along the arguments of a command. The chain is in the memory of the caller, and the
kernel follows it wherever it leads: first to count the nodes, then to copy their words. The copying
stops at the latest when the process has no more allocations left, the counting only at a null
pointer. -/
namespace BoiOS
open Library.Rounds Library.StateRun Library.Walk

/-! The rounds. -/

def countBody (m : Memory) (rest : Nat → KernelM Nat) (current : Nat) : KernelM Nat :=
  if current = 0 then pure 0
  else do
    let count ← rest (commandNext m current)
    pure (count + 1)

theorem processCountCommandArgumentsLoop_eq (m : Memory) (fuel : Nat) :
    processCountCommandArgumentsLoop m fuel = (countBody m)^[fuel] fun _ => throw .faulted := by
  induction fuel with
  | zero => rfl
  | succ fuel ih =>
    rw [iterate_succ, ← ih]
    rfl

def injectBody (process argv : Nat) (rest : Nat × Nat → KernelM Int) (place : Nat × Nat) :
    KernelM Int :=
  if place.2 = 0 then pure allOk
  else do
    let argumentStr ← processMalloc process sizeofArgument
    if argumentStr = 0 then pure (-enomem)
    else do
      modify fun k => { k with
        memory := k.memory.copyIn argumentStr (k.memory.stringAt place.2 sizeofArgument ++ [0]) }
      modify fun k => { k with memory := k.memory.store32 (u32 (argv + 4 * place.1)) argumentStr }
      let k ← get
      rest (place.1 + 1, commandNext k.memory place.2)

theorem processInjectArgumentsLoop_eq (process argv fuel i current : Nat) :
    processInjectArgumentsLoop process argv fuel i current =
      ((injectBody process argv)^[fuel] fun _ => throw .faulted) (i, current) := by
  induction fuel generalizing i current with
  | zero => rfl
  | succ fuel ih =>
    rw [iterate_succ, processInjectArgumentsLoop]
    simp only [ih]
    rfl

/-! The counting. -/

/-- From a node to the next one; the null pointer is the last place. -/
def nextArgument (m : Memory) (current : Nat) : Option Nat :=
  if current = 0 then none else some (commandNext m current)

variable {m : Memory} {k : Kernel} {root : Nat}

theorem countBody_endsWithin {rounds : Nat} (h : walk (nextArgument m) rounds root = none) :
    EndsWithin (countBody m) rounds root k := by
  induction rounds generalizing root with
  | zero => cases h
  | succ rounds ih =>
    by_cases hroot : root = 0
    · refine .last fun rest rest' => ?_
      rw [countBody, countBody, if_pos hroot, if_pos hroot]
    · rw [walk_succ, nextArgument, if_neg hroot] at h
      intro rest rest'
      rw [iterate_succ, iterate_succ, countBody, countBody, if_neg hroot, if_neg hroot, bind_apply,
        bind_apply, ih h rest rest']

theorem countBody_stops {rounds current : Nat} {stop : Stop}
    (h : walk (nextArgument m) rounds root = some current) :
    ((countBody m)^[rounds] fun _ => throw stop) root k = .error stop := by
  induction rounds generalizing root with
  | zero => rfl
  | succ rounds ih =>
    rw [walk_succ, Option.bind_eq_some_iff] at h
    obtain ⟨next, hnext, hrest⟩ := h
    unfold nextArgument at hnext
    split_ifs at hnext with hroot
    rw [Option.some.injEq] at hnext
    rw [iterate_succ, countBody, if_neg hroot, hnext, bind_of_error (ih hrest)]

theorem countBody_ends_iff :
    Ends (countBody m) root k ↔ ∃ rounds, walk (nextArgument m) rounds root = none := by
  refine ⟨fun h => ?_, fun ⟨rounds, h⟩ => ⟨rounds, countBody_endsWithin h⟩⟩
  obtain ⟨rounds, hends⟩ := h
  refine ⟨rounds, ?_⟩
  cases hwalk : walk (nextArgument m) rounds root with
  | none => rfl
  | some current =>
    have hsame := hends (fun _ => throw .faulted) fun _ => throw .panicked
    rw [countBody_stops hwalk, countBody_stops hwalk] at hsame
    cases hsame

theorem walk_nextArgument_mem {n current : Nat} (h : walk (nextArgument m) n root = some current) :
    current ∈ insert root {a | a < 4294967296} := by
  cases n with
  | zero => exact Or.inl (Option.some.inj h).symm
  | succ n =>
    rw [walk_succ_last, Option.bind_eq_some_iff] at h
    obtain ⟨node, -, hnext⟩ := h
    unfold nextArgument at hnext
    split_ifs at hnext
    rw [← Option.some.inj hnext]
    exact Or.inr (Memory.load32_lt _ _)

/-! The copying. -/

theorem processMalloc_freeEntries {process size ptr : Nat} {k k' : Kernel}
    (hrun : processMalloc process size k = .ok (ptr, k')) (hptr : ptr ≠ 0) :
    ∃ p p', k.scheduler.store process = some p ∧ k'.scheduler.store process = some p' ∧
      (freeEntries p').card < (freeEntries p).card := by
  cases processMalloc_eq_ok hrun with
  | outOfMemory => exact absurd rfl hptr
  | noEntry => exact absurd rfl hptr
  | unmapped => exact absurd rfl hptr
  | entered p task res pages index _ hp _ _ _ hindex hfree =>
    refine ⟨p, _, hp, putProcess_store_self .., Nat.lt_of_succ_le ?_⟩
    exact (card_freeEntries_update rfl hptr hindex hfree).le

theorem injectBody_congr {process argv : Nat} {rest rest' : Nat × Nat → KernelM Int}
    {place : Nat × Nat} {k : Kernel}
    (h : ∀ ptr k₁, processMalloc process sizeofArgument k = .ok (ptr, k₁) → ptr ≠ 0 →
      ∀ k' next, k'.scheduler = k₁.scheduler → rest next k' = rest' next k') :
    injectBody process argv rest place k = injectBody process argv rest' place k := by
  unfold injectBody
  by_cases hend : place.2 = 0
  · rw [if_pos hend, if_pos hend]
  · rw [if_neg hend, if_neg hend]
    cases hrun : processMalloc process sizeofArgument k with
    | error stop => rw [bind_of_error hrun, bind_of_error hrun]
    | ok r =>
      obtain ⟨ptr, k₁⟩ := r
      rw [bind_of_ok hrun, bind_of_ok hrun]
      by_cases hptr : ptr = 0
      · rw [if_pos hptr, if_pos hptr]
      · rw [if_neg hptr, if_neg hptr]
        exact h ptr k₁ hrun hptr _ _ rfl

/-- Every round but the last takes an entry of the allocation table. -/
theorem injectBody_endsWithin {process argv n : Nat} {place : Nat × Nat} {k : Kernel}
    (hfree : ∀ p, k.scheduler.store process = some p → (freeEntries p).card ≤ n) :
    EndsWithin (injectBody process argv) (n + 1) place k := by
  induction n generalizing k place with
  | zero =>
    refine .last fun rest rest' => injectBody_congr fun ptr k₁ hrun hptr => ?_
    obtain ⟨p, p', hp, -, hless⟩ := processMalloc_freeEntries hrun hptr
    have hnone := hfree p hp
    omega
  | succ n ih =>
    intro rest rest'
    rw [iterate_succ (n + 1) rest, iterate_succ (n + 1) rest']
    refine injectBody_congr fun ptr k₁ hrun hptr k' next hsame => ?_
    obtain ⟨p, p', hp, hp', hless⟩ := processMalloc_freeEntries hrun hptr
    refine ih (fun q hq => ?_) rest rest'
    rw [hsame, hp', Option.some.injEq] at hq
    have hmany := hfree p hp
    rw [← hq]
    omega

theorem injectBody_ends (process argv : Nat) (place : Nat × Nat) (k : Kernel) :
    Ends (injectBody process argv) place k := by
  refine ⟨boiosMaxProgramAllocations + 1, injectBody_endsWithin fun p _ => ?_⟩
  exact (Finset.card_filter_le _ _).trans (Finset.card_range _).le

/-! The walk. -/

/-- The counting ends, and so does the copying, from whatever state it begins in: after some number
of rounds it makes no difference to the loop what would come behind them. -/
structure ArgumentWalkEnds (process root : Nat) (k : Kernel) : Prop where
  counted : ∃ rounds, ∀ rest, ((countBody k.memory)^[rounds] rest) root k =
    processCountCommandArgumentsLoop k.memory rounds root k
  copied : ∀ (argv : Nat) (k' : Kernel), ∃ rounds, ∀ rest,
    ((injectBody process argv)^[rounds] rest) (0, root) k' =
      processInjectArgumentsLoop process argv rounds 0 root k'

/-- The walk ends exactly if it comes to no node twice. -/
theorem argument_walk_ends_iff (process root : Nat) (k : Kernel) :
    ArgumentWalkEnds process root k ↔
      ∀ i j node, i < j → walk (nextArgument k.memory) i root = some node →
        walk (nextArgument k.memory) j root ≠ some node := by
  rw [← walk_ends_iff ((Set.finite_lt_nat 4294967296).insert root)
    fun n b h => walk_nextArgument_mem h, ← countBody_ends_iff (k := k)]
  have hcounted : Ends (countBody k.memory) root k ↔ _ := ends_iff fun _ => throw .faulted
  have hcopied (argv : Nat) (k' : Kernel) :=
    (ends_iff fun _ => throw .faulted).mp (injectBody_ends process argv (0, root) k')
  simp only [← processCountCommandArgumentsLoop_eq] at hcounted
  simp only [← processInjectArgumentsLoop_eq] at hcopied
  exact ⟨fun h => hcounted.mpr h.counted, fun h => ⟨hcounted.mp h, hcopied⟩⟩

def loopKernel : Kernel :=
  { emptyKernel 1 with memory := fun a => if a = 0x1201 then 0x10 else 0 }

theorem argument_walk_not_always_ends :
    ¬ ∀ (process root : Nat) (k : Kernel), ArgumentWalkEnds process root k := by
  intro hall
  have hnext : walk (nextArgument loopKernel.memory) 1 0x1000 = some 0x1000 := by
    rw [walk_one]
    decide +kernel
  exact (argument_walk_ends_iff 0 0x1000 loopKernel).mp (hall _ _ _) 0 1 0x1000 (by decide) rfl hnext

end BoiOS
