import BoiOS.Task.LoadFailure
import BoiOS.Task.ProcessTable
import Mathlib.Data.Finset.Card

/-! What loads cost for ever. The structure that a load allocates is given back neither by a load that
fails nor by an exit, so that each load that is not refused at once leaves one block less. -/
namespace BoiOS
open Library.StateRun Library.Transition

/-! The exit, as the heap sees it: also the block of the structure stays held. -/

theorem Heap.GuardsBoth.mono {P Q S T : Set Int} {heap : Heap} (h : heap.GuardsBoth Q S T)
    (hle : P ⊆ Q) : heap.GuardsBoth P S T :=
  ⟨h.guards.mono (Set.union_subset_union_left T (Set.union_subset_union_left S hle)),
    fun b hb hP => h.apart b hb (hle hP),
    fun b hb hin => h.apartTask b hb (hin.imp_left (hle ·))⟩

theorem processTerminateAllocationsLoop_guards {Q : Set Int} {k k' : Kernel} {process : Nat}
    {p : Process} {u : Unit} {count i : Nat} (hroom : i + count ≤ boiosMaxProgramAllocations)
    (hguards : k.heap.Guards Q) (hp : k.scheduler.store process = some p)
    (hnull : ∀ j < boiosMaxProgramAllocations, (p.allocations j).ptr = 0)
    (hrun : processTerminateAllocationsLoop process count i k = .ok (u, k')) :
    k'.heap.Guards Q := by
  induction count generalizing i k p with
  | zero =>
    obtain ⟨-, rfl⟩ := pure_eq_ok.mp hrun
    exact hguards
  | succ count ih =>
    unfold processTerminateAllocationsLoop at hrun
    replace hrun := bind_get_eq_ok.mp hrun
    obtain ⟨p', hp', hrun⟩ := bind_fetch_eq_ok.mp hrun
    obtain rfl := Option.some.inj (hp'.symm.trans hp)
    obtain ⟨_, k₁, hfree, hrest⟩ := bind_eq_ok.mp hrun
    rw [hnull i (by omega)] at hfree
    cases processFree_eq_ok hfree with
    | notFound => exact ih (i := i + 1) (by omega) hguards hp hnull hrest
    | unmapped p₁ task j res pages hp₁ hj hptr htask hmap =>
      exact ih (i := i + 1) (k := { k with pages }) (by omega) hguards hp hnull hrest
    | freed p₁ task j res pages hp₁ hj hptr htask hmap =>
      obtain rfl := Option.some.inj (hp₁.symm.trans hp)
      obtain ⟨allocations, hunjoin, hcleared⟩ := processAllocationUnjoin_spec p₁ 0
      refine ih (i := i + 1) (by omega) (hguards.heapFree (Or.inl rfl)) (putProcess_store_self ..) ?_
        hrest
      rw [hunjoin]
      intro l hl
      rcases hcleared l with hsame | hclear
      · exact (congrArg ProcessAllocation.ptr hsame).trans (hnull l hl)
      · exact congrArg ProcessAllocation.ptr hclear

theorem processReturnMemory_guards {P S T : Set Int} {k k' : Kernel} {process : Nat} {p : Process}
    {res : Int} (hguards : k.heap.GuardsBoth P S T) (h : k.ProcessTree S T process p)
    (hrun : processReturnMemory process k = .ok (res, k')) : k'.heap.Guards P := by
  unfold processReturnMemory at hrun
  obtain ⟨_, k₁, hallocations, hrun⟩ := bind_eq_ok.mp hrun
  have hnone : k.heap.GuardsBoth ∅ S T := hguards.mono (Set.empty_subset P)
  have hexit := processTerminateAllocationsLoop_spec (by omega) hnone h (Set.notMem_empty _)
    hallocations
  obtain ⟨p₁, htree, -⟩ := hexit.tree
  have hboth : k₁.heap.GuardsBoth P S T :=
    ⟨processTerminateAllocationsLoop_guards (by omega) hguards.guards h.stored h.allocations
      hallocations, hguards.apart, hguards.apartTask⟩
  have himage := hboth.image
  obtain ⟨res', k₂, hdata, hrun⟩ := bind_eq_ok.mp hrun
  obtain ⟨rfl, hgone⟩ := processFreeProgramData_spec himage htree.stored htree.program hdata
  rw [if_neg (by decide)] at hrun
  replace hrun := bind_get_eq_ok.mp hrun
  obtain ⟨p₂, hp₂, hrun⟩ := bind_fetch_eq_ok.mp hrun
  rw [hgone.scheduler, htree.stored, Option.some.injEq] at hp₂
  subst hp₂
  obtain ⟨_, k₃, hstack, hrun⟩ := bind_eq_ok.mp hrun
  have hgone₃ := hgone.trans (.of_kfree hgone.frame.guards
    (hgone.keeps _ _ (himage.freeable htree.stack)) hstack)
  obtain ⟨_, k₄, htask, hrun⟩ := bind_eq_ok.mp hrun
  obtain ⟨rfl, rfl⟩ := pure_eq_ok.mp hrun
  have hmore : k₃.heap.GuardsMore P T :=
    ⟨hgone₃.frame.guards, fun b hb hP => hboth.apartTask b hb (Or.inl hP)⟩
  obtain ⟨hframe₄, -⟩ :=
    taskFree_spec hmore (htree.task.frame hgone₃.frame Set.subset_union_right) htask
  exact hframe₄.guards

theorem processTerminate_guards {P S T : Set Int} {k k' : Kernel} {process : Nat} {p : Process}
    {res : Int} (hguards : k.heap.GuardsBoth P S T) (h : k.ProcessTree S T process p)
    (hrun : KernelM.processTerminate process k = .ok (res, k')) : k'.heap.Guards P := by
  rw [processTerminate_eq] at hrun
  obtain ⟨res', k₁, hmemory, hrun⟩ := bind_eq_ok.mp hrun
  have hkept := processReturnMemory_guards hguards h hmemory
  by_cases hneg : res' < 0
  · rw [if_pos hneg] at hrun
    obtain ⟨-, rfl⟩ := pure_eq_ok.mp hrun
    exact hkept
  · rw [if_neg hneg] at hrun
    obtain ⟨_, k₂, hunlink, hrun⟩ := bind_eq_ok.mp hrun
    obtain ⟨-, rfl⟩ := pure_eq_ok.mp hrun
    obtain ⟨s, -, rfl⟩ := schedulerRun_eq_ok hunlink
    exact hkept

/-! The ledger. -/

/-- `E` are the blocks of all structures that were ever made; the parts of the processes that are in
the table are elsewhere. -/
structure Ledger (E : Finset Int) (B : Nat → Set Int) (k : Kernel) : Prop where
  guards : k.heap.Guards (slotBlocks B ∪ E)
  null : k.NullFree
  apart : ∀ i < boiosMaxProcesses, ∀ j < boiosMaxProcesses, i ≠ j → ∀ b ∈ B i, b ∉ B j
  spent : ∀ b ∈ E, b ∉ slotBlocks B
  entered : ∀ i < boiosMaxProcesses, k.scheduler.processes i ≠ 0 →
    k.heap.blockOf (k.scheduler.processes i) ∈ E
  once : ∀ i < boiosMaxProcesses, ∀ j < boiosMaxProcesses, k.scheduler.processes i ≠ 0 →
    k.scheduler.processes j ≠ 0 → k.heap.blockOf (k.scheduler.processes i) =
      k.heap.blockOf (k.scheduler.processes j) → i = j
  slot : ∀ i < boiosMaxProcesses, k.scheduler.processes i ≠ 0 → ∃ S T p,
    k.ProcessTree S T (k.scheduler.processes i) p ∧ p.pid = i ∧ S ⊆ B i ∧ T ⊆ B i ∧ ∀ b ∈ T, b ∉ S

theorem NoProcesses.ledger {k : Kernel} (h : NoProcesses k) : Ledger ∅ (fun _ => ∅) k := by
  have hnone : slotBlocks (fun _ => (∅ : Set Int)) ∪ ((∅ : Finset Int) : Set Int) = ∅ := by
    ext b
    simp [slotBlocks]
  exact {
    guards := by rw [hnone]; exact h.heap.guards
    null := h.null
    apart := fun _ _ _ _ _ _ hb => absurd hb (Set.notMem_empty _)
    spent := fun _ hb => absurd hb (Finset.notMem_empty _)
    entered := fun i hi hslot => absurd (h.processes i hi) hslot
    once := fun i hi _ _ hslot => absurd (h.processes i hi) hslot
    slot := fun i hi hslot => absurd (h.processes i hi) hslot }

namespace Ledger

variable {E : Finset Int} {B : Nat → Set Int} {k k' : Kernel}

theorem frame (h : Ledger E B k) (hframe : KernelFrame (slotBlocks B ∪ E) k k')
    (hprocesses : k'.scheduler.processes = k.scheduler.processes) : Ledger E B k' := by
  refine ⟨hframe.guards, h.null.frame hframe, h.apart, h.spent, fun i hi hslot => ?_,
    fun i hi j hj hslot hslot' hblock => ?_, fun i hi hslot => ?_⟩
  · rw [hprocesses] at hslot ⊢
    rw [hframe.blockOf]
    exact h.entered i hi hslot
  · rw [hprocesses] at hslot hslot' hblock
    rw [hframe.blockOf, hframe.blockOf] at hblock
    exact h.once i hi j hj hslot hslot' hblock
  · rw [hprocesses] at hslot ⊢
    obtain ⟨S, T, p, htree, hpid, hS, hT, hapart⟩ := h.slot i hi hslot
    have hle : B i ⊆ slotBlocks B ∪ E := (subset_slotBlocks B hi).trans Set.subset_union_left
    exact ⟨S, T, p, htree.frame hframe (Or.inr (h.entered i hi hslot)) (hS.trans hle) (hT.trans hle),
      hpid, hS, hT, hapart⟩

theorem insert (h : Ledger E B k) {b : Int}
    (hguards : k.heap.Guards (Insert.insert b (slotBlocks B ∪ E))) (hb : b ∉ slotBlocks B) :
    Ledger (Insert.insert b E) B k := by
  refine { h with
    guards := hguards.mono ?_
    spent := fun c hc => ?_
    entered := fun i hi hslot => Finset.mem_insert_of_mem (h.entered i hi hslot) }
  · rintro c (hc | hc)
    · exact Or.inr (Or.inl hc)
    · rcases Finset.mem_insert.mp hc with rfl | hc
      · exact Or.inl rfl
      · exact Or.inr (Or.inr hc)
  · rcases Finset.mem_insert.mp hc with rfl | hc
    · exact hb
    · exact h.spent c hc

theorem loaded (h : Ledger E B k) {slot process : Nat} (hlt : slot < boiosMaxProcesses)
    (hload : ProcessLoaded (slotBlocks B ∪ E) slot k k' process) :
    ∃ B' b, b ∉ E ∧ Ledger (Insert.insert b E) B' k' := by
  obtain ⟨S, T, p, hguards, htree, hpid⟩ := hload.tree
  have hself : k'.scheduler.processes slot = process := by
    rw [hload.processes, Function.update_self]
  have hothers : ∀ i, i ≠ slot → k'.scheduler.processes i = k.scheduler.processes i := by
    intro i hi
    rw [hload.processes, Function.update_of_ne hi]
  have hblock := hload.frame.blockOf
  have hnew : k.heap.blockOf process ∉ slotBlocks B ∪ E := h.guards.not_free hload.free
  have hparts : ∀ b ∈ S ∪ T, b ∉ Insert.insert (k.heap.blockOf process) (slotBlocks B ∪ E) := by
    rintro b (hS | hT) hin
    · exact hguards.apart b hS hin
    · exact hguards.apartTask b hT (Or.inl hin)
  refine ⟨Function.update B slot (S ∪ T), k.heap.blockOf process, fun hin => hnew (Or.inr hin),
    ?_, h.null.frame hload.frame, ?_, ?_, ?_, ?_, ?_⟩
  · refine hguards.guards.mono ?_
    rintro b (hb | hb)
    · rcases slotBlocks_update B slot (S ∪ T) hb with hb | hb | hb
      · exact Or.inl (Or.inl (Or.inr (Or.inl (slotBlocks_erase_subset B slot hb))))
      · exact Or.inl (Or.inr hb)
      · exact Or.inr hb
    · rcases Finset.mem_insert.mp hb with rfl | hb
      · exact Or.inl (Or.inl (Or.inl rfl))
      · exact Or.inl (Or.inl (Or.inr (Or.inr hb)))
  · intro i hi j hj hne b hb
    by_cases hislot : i = slot
    · subst hislot
      rw [Function.update_self] at hb
      rw [Function.update_of_ne hne.symm]
      exact fun hbj => hparts b hb (Or.inr (Or.inl ⟨j, hj, hbj⟩))
    · rw [Function.update_of_ne hislot] at hb
      by_cases hjslot : j = slot
      · rw [hjslot, Function.update_self]
        exact fun hbnew => hparts b hbnew (Or.inr (Or.inl ⟨i, hi, hb⟩))
      · rw [Function.update_of_ne hjslot]
        exact h.apart i hi j hj hne b hb
  · intro b hb hin
    rcases slotBlocks_update B slot (S ∪ T) hin with hin | hin
    · have hold := slotBlocks_erase_subset B slot hin
      rcases Finset.mem_insert.mp hb with rfl | hb
      · exact hnew (Or.inl hold)
      · exact h.spent b hb hold
    · rcases Finset.mem_insert.mp hb with rfl | hb
      · exact hparts _ hin (Or.inl rfl)
      · exact hparts b hin (Or.inr (Or.inr hb))
  · intro i hi hslot
    rw [hblock]
    by_cases hislot : i = slot
    · rw [hislot, hself]
      exact Finset.mem_insert_self ..
    · rw [hothers i hislot] at hslot ⊢
      exact Finset.mem_insert_of_mem (h.entered i hi hslot)
  · intro i hi j hj hslot hslot' hsame
    rw [hblock, hblock] at hsame
    by_cases hislot : i = slot
    · by_cases hjslot : j = slot
      · rw [hislot, hjslot]
      · rw [hislot, hself, hothers j hjslot] at hsame
        rw [hothers j hjslot] at hslot'
        exact absurd (Or.inr (hsame ▸ h.entered j hj hslot')) hnew
    · rw [hothers i hislot] at hslot hsame
      by_cases hjslot : j = slot
      · rw [hjslot, hself] at hsame
        exact absurd (Or.inr (hsame ▸ h.entered i hi hslot)) hnew
      · rw [hothers j hjslot] at hslot' hsame
        exact h.once i hi j hj hslot hslot' hsame
  · intro i hi hslot
    by_cases hislot : i = slot
    · subst hislot
      rw [Function.update_self, hself]
      exact ⟨S, T, p, htree, hpid, Set.subset_union_left, Set.subset_union_right,
        fun b hT hS => hguards.apartTask b hT (Or.inr hS)⟩
    · rw [Function.update_of_ne hislot, hothers i hislot]
      rw [hothers i hislot] at hslot
      obtain ⟨S', T', p', htree', hpid', hS, hT, hapart⟩ := h.slot i hi hslot
      have hle : B i ⊆ slotBlocks B ∪ E := (subset_slotBlocks B hi).trans Set.subset_union_left
      exact ⟨S', T', p', htree'.frame hload.frame (Or.inr (h.entered i hi hslot)) (hS.trans hle)
        (hT.trans hle), hpid', hS, hT, hapart⟩

theorem not_mem_erased (h : Ledger E B k) {slot : Nat} (hslot : slot < boiosMaxProcesses) {b : Int}
    (hb : b ∈ B slot) : b ∉ slotBlocks (Function.update B slot ∅) := by
  rintro ⟨i, hi, hin⟩
  by_cases hsame : i = slot
  · rw [hsame, Function.update_self] at hin
    exact hin
  · rw [Function.update_of_ne hsame] at hin
    exact h.apart i hi slot hslot hsame b hin hb

theorem exited (h : Ledger E B k) {process : Nat} (hlive : k.scheduler.Live process) {res : Int}
    (hrun : KernelM.processTerminate process k = .ok (res, k')) :
    ∃ B', Ledger E B' k' ∧ k'.heap.table.totalEntries = k.heap.table.totalEntries := by
  obtain ⟨hne, slot, hlt, rfl⟩ := hlive
  obtain ⟨S, T, p, htree, hpid, hS, hT, hapart⟩ := h.slot slot hlt hne
  let others := slotBlocks (Function.update B slot ∅)
  have hothersE : ∀ b ∈ B slot, b ∉ others ∪ E := by
    rintro b hb (hin | hin)
    · exact h.not_mem_erased hlt hb hin
    · exact h.spent b hin ⟨slot, hlt, hb⟩
  have hboth : k.heap.GuardsBoth (others ∪ E) S T := by
    refine ⟨h.guards.mono ?_, fun b hb => hothersE b (hS hb), fun b hb => ?_⟩
    · rintro b (((hb | hb) | hb) | hb)
      · exact Or.inl (slotBlocks_erase_subset B slot hb)
      · exact Or.inr hb
      · exact Or.inl (subset_slotBlocks B hlt (hS hb))
      · exact Or.inl (subset_slotBlocks B hlt (hT hb))
    · rintro (hin | hin)
      · exact hothersE b (hT hb) hin
      · exact hapart b hb hin
  have hkept := processTerminate_guards hboth htree hrun
  have hstructure : k.heap.blockOf (k.scheduler.processes slot) ∉
      others ∪ (E \ {k.heap.blockOf (k.scheduler.processes slot)} : Set Int) := by
    rintro (hin | hin)
    · exact h.spent _ (h.entered slot hlt hne) (slotBlocks_erase_subset B slot hin)
    · exact hin.2 rfl
  have hexit := processTerminate_spec
    (hboth.mono (Set.union_subset_union_right others Set.sdiff_subset)) htree hstructure hrun
  have hothers : ∀ i, k'.scheduler.processes i ≠ 0 →
      i ≠ slot ∧ k'.scheduler.processes i = k.scheduler.processes i := by
    intro i hi
    rw [hexit.processes, hpid] at hi ⊢
    by_cases hislot : i = slot
    · rw [hislot, Function.update_self] at hi
      exact absurd rfl hi
    · exact ⟨hislot, Function.update_of_ne hislot ..⟩
  have hblock := hexit.frame.blockOf
  refine ⟨Function.update B slot ∅, ⟨hkept, h.null.frame hexit.frame, ?_,
    fun b hb hin => h.spent b hb (slotBlocks_erase_subset B slot hin), ?_, ?_, ?_⟩,
    hexit.frame.total⟩
  · intro i hi j hj hij b hb
    by_cases hislot : i = slot
    · rw [hislot, Function.update_self] at hb
      exact absurd hb (Set.notMem_empty b)
    · rw [Function.update_of_ne hislot] at hb
      by_cases hjslot : j = slot
      · rw [hjslot, Function.update_self]
        exact Set.notMem_empty b
      · rw [Function.update_of_ne hjslot]
        exact h.apart i hi j hj hij b hb
  · intro i hi hslot
    obtain ⟨-, hsame⟩ := hothers i hslot
    rw [hblock, hsame]
    exact h.entered i hi (hsame ▸ hslot)
  · intro i hi j hj hslot hslot' heq
    obtain ⟨-, hsame⟩ := hothers i hslot
    obtain ⟨-, hsame'⟩ := hothers j hslot'
    rw [hblock, hblock, hsame, hsame'] at heq
    exact h.once i hi j hj (hsame ▸ hslot) (hsame' ▸ hslot') heq
  · intro i hi hslot
    obtain ⟨hislot, hsame⟩ := hothers i hslot
    rw [hsame] at hslot ⊢
    rw [Function.update_of_ne hislot]
    obtain ⟨S', T', p', htree', hpid', hS', hT', hapart'⟩ := h.slot i hi hslot
    have hown := subset_slotBlocks (Function.update B slot ∅) hi
    rw [Function.update_of_ne hislot] at hown
    have hle := hown.trans (Set.subset_union_left : others ⊆ others ∪
      (E \ {k.heap.blockOf (k.scheduler.processes slot)} : Set Int))
    refine ⟨S', T', p', htree'.frame hexit.frame (Or.inr ⟨h.entered i hi hslot, fun heq => ?_⟩)
      (hS'.trans hle) (hT'.trans hle), hpid', hS', hT', hapart'⟩
    exact hislot (h.once i hi slot hlt hslot hne heq)

end Ledger

/-! Runs. -/

def ProcessCall.allocates (k : Kernel) : ProcessCall → Bool
  | .load .. => 0 ≤ processGetFreeSlot k.scheduler && (heapMalloc k.heap sizeofProcess).1 != 0
  | .loadSwitch .. => 0 ≤ processGetFreeSlot k.scheduler && (heapMalloc k.heap sizeofProcess).1 != 0
  | .terminate _ => false

def structuresMade : Kernel → List (ProcessCall × Kernel) → Nat
  | _, [] => 0
  | k, (call, k') :: rest => (call.allocates k).toNat + structuresMade k' rest

namespace Ledger

variable {E : Finset Int} {B : Nat → Set Int} {k k' : Kernel}

theorem load (h : Ledger E B k) {filename : List UInt8} (h0 : 0 ∉ filename) {r : Int × Nat}
    (hrun : KernelM.processLoad filename k = .ok (r, k')) :
    ∃ E' B', Ledger E' B' k' ∧
      E'.card = E.card + (ProcessCall.allocates k (.load filename r)).toNat ∧
      k'.heap.table.totalEntries = k.heap.table.totalEntries := by
  have hroom := Heap.heapMalloc_eq_zero_iff h.guards.wellFormed (by decide : 1 ≤ sizeofProcess)
    (by decide)
  rcases processLoad_eq_ok hrun with ⟨hfull, -, hk'⟩ | ⟨hslot, slot, hlt, -, -, hrun⟩
  · have hnone : ProcessCall.allocates k (.load filename r) = false := by
      unfold ProcessCall.allocates
      rw [decide_eq_false (by omega), Bool.false_and]
    rw [hk', hnone]
    exact ⟨E, B, h, rfl, rfl⟩
  have hstructure : ProcessCall.allocates k (.load filename r) =
      ((heapMalloc k.heap sizeofProcess).1 != 0) := by
    unfold ProcessCall.allocates
    rw [decide_eq_true (by omega), Bool.true_and]
  rw [hstructure]
  cases processLoadForSlot_spec h.guards h.null h0 hrun with
  | noStructure hneg hnone =>
    rw [hroom.2 hnone, bne_self_eq_false]
    exact ⟨E, B, h, rfl, rfl⟩
  | failed hneg hsome hfailed =>
    rename_i process
    have hnew : k.heap.blockOf process ∉ slotBlocks B ∪ E := h.guards.not_free hfailed.free
    have hkept := h.frame hfailed.frame hfailed.processes
    refine ⟨_, B, hkept.insert hfailed.held fun hin => hnew (Or.inl hin), ?_,
      hfailed.frame.total⟩
    rw [Finset.card_insert_of_notMem fun hin => hnew (Or.inr hin), bne_iff_ne.mpr hsome]
    rfl
  | loaded hok hsome hloaded =>
    obtain ⟨B', b, hnew, hledger⟩ := h.loaded hlt hloaded
    refine ⟨_, B', hledger, ?_, hloaded.frame.total⟩
    rw [Finset.card_insert_of_notMem hnew, bne_iff_ne.mpr hsome]
    rfl

theorem step (h : Ledger E B k) {call : ProcessCall} (hstep : processStep k call k') :
    ∃ E' B', Ledger E' B' k' ∧ E'.card = E.card + (call.allocates k).toNat ∧
      k'.heap.table.totalEntries = k.heap.table.totalEntries := by
  cases call with
  | load filename r => exact h.load hstep.1 hstep.2
  | loadSwitch filename r =>
    obtain ⟨k₁, hload, hswitch⟩ := processLoadSwitch_eq_ok hstep.2
    obtain ⟨E', B', hledger, hcard, htotal⟩ := h.load hstep.1 hload
    rcases hswitch with ⟨-, rfl⟩ | ⟨-, rfl⟩
    · have hframe : KernelFrame (slotBlocks B' ∪ E') k₁
          { k₁ with scheduler := processSwitch k₁.scheduler r.2 } :=
        ⟨hledger.guards, rfl, rfl, rfl, fun _ _ => rfl, fun _ _ => rfl, fun _ _ => rfl,
          fun _ _ => rfl, fun _ _ => rfl⟩
      exact ⟨E', B', hledger.frame hframe rfl, hcard, htotal⟩
    · exact ⟨E', B', hledger, hcard, htotal⟩
  | terminate process =>
    obtain ⟨hlive, res, hrun⟩ := hstep
    obtain ⟨B', hledger, htotal⟩ := h.exited hlive hrun
    exact ⟨E, B', hledger, rfl, htotal⟩

theorem run (h : Ledger E B k) (calls : List (ProcessCall × Kernel))
    (hpath : Path processStep k calls) :
    ∃ E' B', Ledger E' B' (last k calls) ∧ E'.card = E.card + structuresMade k calls ∧
      (last k calls).heap.table.totalEntries = k.heap.table.totalEntries := by
  induction calls generalizing k E B with
  | nil => exact ⟨E, B, h, rfl, rfl⟩
  | cons head rest ih =>
    obtain ⟨call, k'⟩ := head
    obtain ⟨E', B', hstep, hcard, htotal⟩ := h.step hpath.1
    obtain ⟨E'', B'', hledger, hcard', htotal'⟩ := ih hstep hpath.2
    refine ⟨E'', B'', hledger, ?_, htotal'.trans htotal⟩
    rw [hcard', hcard, structuresMade, Nat.add_assoc]

theorem card_le (h : Ledger E B k) : E.card + k.heap.freeBlocks ≤ k.heap.table.totalEntries := by
  have hheld (b : Int) (hb : b ∈ E) : k.heap.Held b := h.guards.held b (Or.inr hb)
  let free := (Finset.range k.heap.table.totalEntries).filter fun i : Nat => k.heap.table.IsFree i
  have himage : (E.image Int.toNat).card = E.card := by
    refine Finset.card_image_of_injOn fun b hb c hc heq => ?_
    have hlow := (hheld b hb).low
    have hlow' := (hheld c hc).low
    omega
  have hplace (b : Int) (hb : b ∈ E) : ((b.toNat : Nat) : Int) = b :=
    Int.toNat_of_nonneg (hheld b hb).low
  have hdisjoint : Disjoint (E.image Int.toNat) free := by
    rw [Finset.disjoint_left]
    intro i hi hfree
    obtain ⟨b, hb, rfl⟩ := Finset.mem_image.mp hi
    refine (hheld b hb).taken ?_
    have htoNat := (Finset.mem_filter.mp hfree).2
    rwa [hplace b hb] at htoNat
  have hwithin : E.image Int.toNat ∪ free ⊆ Finset.range k.heap.table.totalEntries := by
    refine Finset.union_subset (fun i hi => ?_) (Finset.filter_subset ..)
    obtain ⟨b, hb, rfl⟩ := Finset.mem_image.mp hi
    have hhigh := (hheld b hb).high
    have hsame := hplace b hb
    exact Finset.mem_range.mpr (by omega)
  have hcard := Finset.card_le_card hwithin
  rw [Finset.card_union_of_disjoint hdisjoint, himage, Finset.card_range] at hcard
  exact hcard

end Ledger

/-- In any run of loads and exits each load that allocates a structure, whether it succeeds or fails
afterwards, takes a block away for ever: there are at most as many of them as blocks, less those
that are free in the end. -/
theorem process_loads_spend {k : Kernel} (h : NoProcesses k) (run : List (ProcessCall × Kernel))
    (hpath : Path processStep k run) :
    structuresMade k run + (last k run).heap.freeBlocks ≤ k.heap.table.totalEntries := by
  obtain ⟨E, B, hledger, hcard, htotal⟩ := h.ledger.run run hpath
  have hbound := hledger.card_le
  rwa [hcard, htotal, Finset.card_empty, Nat.zero_add] at hbound

theorem process_loads_spend_firstKernel : ∃ k₁ k₂, structuresMade firstKernel
    [(.load binaryName (0, 0x1000000), k₁), (.terminate 0x1000000, k₂)] + k₂.heap.freeBlocks ≤
      firstKernel.heap.table.totalEntries := by
  obtain ⟨k₁, hload⟩ := firstKernel_loads
  obtain ⟨k₂, hexit⟩ := processLoad_exits firstKernel_wellFormed firstKernel_nullFree (by decide)
    firstKernel_tasks rfl hload (le_refl 0)
  obtain ⟨-, -, hlive⟩ := firstKernel_noProcesses.tableOf.load (by decide) hload
  have hpath : Path processStep firstKernel
      [(.load binaryName (0, 0x1000000), k₁), (.terminate 0x1000000, k₂)] :=
    ⟨⟨by decide, hload⟩, ⟨hlive rfl, _, hexit⟩, trivial⟩
  exact ⟨k₁, k₂, process_loads_spend firstKernel_noProcesses _ hpath⟩

end BoiOS
