import BoiOS.Library.Transition
import BoiOS.Task.ExitReturns

/-! The process table over whole runs of loads and exits. Each process of the table owns the blocks
of its structure, its image, its stack and its task, so that the exit of one leaves the others. -/
namespace BoiOS
open Library.StateRun Library.Transition

def Scheduler.Live (s : Scheduler) (process : Nat) : Prop :=
  process ≠ 0 ∧ ∃ i < boiosMaxProcesses, s.processes i = process

/-- A call, with what a load answers. -/
inductive ProcessCall
  | load (filename : List UInt8) (r : Int × Nat)
  | loadSwitch (filename : List UInt8) (r : Int × Nat)
  | terminate (process : Nat)

def processStep : Step Kernel ProcessCall := fun k call k' =>
  match call with
  | .load filename r => 0 ∉ filename ∧ KernelM.processLoad filename k = .ok (r, k')
  | .loadSwitch filename r => 0 ∉ filename ∧ KernelM.processLoadSwitch filename k = .ok (r, k')
  | .terminate process => k.scheduler.Live process ∧
      ∃ res, KernelM.processTerminate process k = .ok (res, k')

structure NoProcesses (k : Kernel) : Prop where
  heap : k.heap.WellFormed
  null : k.NullFree
  processes : ∀ i < boiosMaxProcesses, k.scheduler.processes i = 0
  current : k.scheduler.currentProcess = 0

/-! What each process owns. -/

def Kernel.SlotTree (B : Set Int) (slot : Nat) (k : Kernel) : Prop :=
  k.heap.blockOf (k.scheduler.processes slot) ∈ B ∧
    ∃ S T p, k.ProcessTree S T (k.scheduler.processes slot) p ∧ p.pid = slot ∧ S ⊆ B ∧ T ⊆ B ∧
      ∀ b ∈ T, b ∉ S

theorem Kernel.SlotTree.frame {B P : Set Int} {slot : Nat} {k k' : Kernel} (h : k.SlotTree B slot)
    (hframe : KernelFrame P k k') (hle : B ⊆ P)
    (hsame : k'.scheduler.processes slot = k.scheduler.processes slot) : k'.SlotTree B slot := by
  obtain ⟨hblock, S, T, p, htree, hpid, hS, hT, hapart⟩ := h
  refine ⟨?_, S, T, p, ?_, hpid, hS, hT, hapart⟩
  · rw [hsame, hframe.blockOf]
    exact hblock
  · rw [hsame]
    exact htree.frame hframe (hle hblock) (hS.trans hle) (hT.trans hle)

def slotBlocks (B : Nat → Set Int) : Set Int := {b | ∃ i < boiosMaxProcesses, b ∈ B i}

theorem subset_slotBlocks (B : Nat → Set Int) {i : Nat} (hi : i < boiosMaxProcesses) :
    B i ⊆ slotBlocks B := fun _ hb => ⟨i, hi, hb⟩

theorem slotBlocks_update (B : Nat → Set Int) (slot : Nat) (new : Set Int) :
    slotBlocks (Function.update B slot new) ⊆ slotBlocks (Function.update B slot ∅) ∪ new := by
  rintro b ⟨i, hi, hb⟩
  by_cases hslot : i = slot
  · rw [hslot, Function.update_self] at hb
    exact Or.inr hb
  · refine Or.inl ⟨i, hi, ?_⟩
    rwa [Function.update_of_ne hslot] at hb ⊢

theorem slotBlocks_erase_subset (B : Nat → Set Int) (slot : Nat) :
    slotBlocks (Function.update B slot ∅) ⊆ slotBlocks B := by
  rintro b ⟨i, hi, hb⟩
  by_cases hslot : i = slot
  · rw [hslot, Function.update_self] at hb
    exact absurd hb (Set.notMem_empty b)
  · rw [Function.update_of_ne hslot] at hb
    exact ⟨i, hi, hb⟩

/-- The slots have blocks of their own, and those of a process that is in the table hold it. -/
structure TableOf (B : Nat → Set Int) (k : Kernel) : Prop where
  guards : k.heap.Guards (slotBlocks B)
  null : k.NullFree
  apart : ∀ i < boiosMaxProcesses, ∀ j < boiosMaxProcesses, i ≠ j → ∀ b ∈ B i, b ∉ B j
  slot : ∀ i < boiosMaxProcesses, k.scheduler.processes i ≠ 0 → k.SlotTree (B i) i
  current : k.scheduler.currentProcess = 0 ∨ k.scheduler.Live k.scheduler.currentProcess

theorem NoProcesses.tableOf {k : Kernel} (h : NoProcesses k) : TableOf (fun _ => ∅) k := by
  have hnone : slotBlocks (fun _ => (∅ : Set Int)) = ∅ := by
    ext b
    simp [slotBlocks]
  refine ⟨by rw [hnone]; exact h.heap.guards, h.null, fun _ _ _ _ _ _ hb => absurd hb (Set.notMem_empty _),
    fun i hi hslot => absurd (h.processes i hi) hslot, Or.inl h.current⟩

/-- The table is sound: each process has the number of its slot and is in no other, and the current
process is one of them. -/
structure TableSound (s : Scheduler) : Prop where
  pid : ∀ i < boiosMaxProcesses, s.processes i ≠ 0 → ∃ p, s.store (s.processes i) = some p ∧ p.pid = i
  once : ∀ i < boiosMaxProcesses, ∀ j < boiosMaxProcesses, s.processes i ≠ 0 →
    s.processes i = s.processes j → i = j
  current : s.currentProcess = 0 ∨ s.Live s.currentProcess

namespace TableOf
variable {B : Nat → Set Int} {k k' : Kernel}

theorem sound (h : TableOf B k) : TableSound k.scheduler := by
  have hpid : ∀ i < boiosMaxProcesses, k.scheduler.processes i ≠ 0 →
      ∃ p, k.scheduler.store (k.scheduler.processes i) = some p ∧ p.pid = i := by
    intro i hi hslot
    obtain ⟨-, S, T, p, htree, hpid, -⟩ := h.slot i hi hslot
    exact ⟨p, htree.stored, hpid⟩
  refine ⟨hpid, fun i hi j hj hslot heq => ?_, h.current⟩
  obtain ⟨p, hp, hpi⟩ := hpid i hi hslot
  obtain ⟨q, hq, hqj⟩ := hpid j hj (by rwa [← heq])
  rw [heq, hq, Option.some.injEq] at hp
  rw [← hpi, ← hqj, hp]

theorem frame (h : TableOf B k) (hframe : KernelFrame (slotBlocks B) k k')
    (hprocesses : k'.scheduler.processes = k.scheduler.processes)
    (hcurrent : k'.scheduler.currentProcess = k.scheduler.currentProcess ∨
      k'.scheduler.Live k'.scheduler.currentProcess) : TableOf B k' := by
  refine ⟨hframe.guards, h.null.frame hframe, h.apart, fun i hi hslot => ?_, ?_⟩
  · rw [hprocesses] at hslot
    exact (h.slot i hi hslot).frame hframe (subset_slotBlocks B hi) (congrFun hprocesses i)
  · rcases hcurrent with hsame | hlive
    · unfold Scheduler.Live
      rw [hsame, hprocesses]
      exact h.current
    · exact Or.inr hlive

theorem loaded (h : TableOf B k) {slot process : Nat} (hlt : slot < boiosMaxProcesses)
    (hzero : k.scheduler.processes slot = 0)
    (hload : ProcessLoaded (slotBlocks B) slot k k' process) : ∃ B', TableOf B' k' := by
  obtain ⟨S, T, p, hguards, htree, hpid⟩ := hload.tree
  let new : Set Int := insert (k.heap.blockOf process) (S ∪ T)
  have hself : k'.scheduler.processes slot = process := by
    rw [hload.processes, Function.update_self]
  have hothers : ∀ i, i ≠ slot → k'.scheduler.processes i = k.scheduler.processes i := by
    intro i hi
    rw [hload.processes, Function.update_of_ne hi]
  have hnew : ∀ b ∈ new, b ∉ slotBlocks B := by
    rintro b (rfl | hS | hT) hb
    · exact h.guards.not_free hload.free hb
    · exact hguards.apart b hS (Or.inr hb)
    · exact hguards.apartTask b hT (Or.inl (Or.inr hb))
  refine ⟨Function.update B slot new, ?_, h.null.frame hload.frame, ?_, ?_, ?_⟩
  · refine hguards.guards.mono ((slotBlocks_update B slot new).trans ?_)
    rintro b (hb | rfl | hS | hT)
    · exact Or.inl (Or.inl (Or.inr (slotBlocks_erase_subset B slot hb)))
    · exact Or.inl (Or.inl (Or.inl rfl))
    · exact Or.inl (Or.inr hS)
    · exact Or.inr hT
  · intro i hi j hj hne b hb
    by_cases hislot : i = slot
    · subst hislot
      rw [Function.update_self] at hb
      rw [Function.update_of_ne hne.symm]
      exact fun hbj => hnew b hb ⟨j, hj, hbj⟩
    · rw [Function.update_of_ne hislot] at hb
      by_cases hjslot : j = slot
      · rw [hjslot, Function.update_self]
        exact fun hbnew => hnew b hbnew ⟨i, hi, hb⟩
      · rw [Function.update_of_ne hjslot]
        exact h.apart i hi j hj hne b hb
  · intro i hi hslot
    by_cases hislot : i = slot
    · subst hislot
      rw [Function.update_self]
      refine ⟨?_, S, T, p, ?_, hpid, ?_, ?_, fun b hT hS => hguards.apartTask b hT (Or.inr hS)⟩
      · rw [hself, hload.frame.blockOf]
        exact Set.mem_insert ..
      · rwa [hself]
      · exact fun b hb => Or.inr (Or.inl hb)
      · exact fun b hb => Or.inr (Or.inr hb)
    · rw [Function.update_of_ne hislot]
      rw [hothers i hislot] at hslot
      exact (h.slot i hi hslot).frame hload.frame (subset_slotBlocks B hi) (hothers i hislot)
  · rw [hload.currentProcess]
    rcases h.current with hnone | ⟨hne, i, hi, hprocess⟩
    · exact Or.inl hnone
    · refine Or.inr ⟨hne, i, hi, ?_⟩
      rw [hothers i ?_, hprocess]
      rintro rfl
      exact hne (hprocess.symm.trans hzero)

theorem not_mem_erased (h : TableOf B k) {slot : Nat} (hslot : slot < boiosMaxProcesses) {b : Int}
    (hb : b ∈ B slot) : b ∉ slotBlocks (Function.update B slot ∅) := by
  rintro ⟨i, hi, hin⟩
  by_cases hsame : i = slot
  · rw [hsame, Function.update_self] at hin
    exact hin
  · rw [Function.update_of_ne hsame] at hin
    exact h.apart i hi slot hslot hsame b hin hb

theorem exiting (h : TableOf B k) {process : Nat} (hlive : k.scheduler.Live process) :
    ∃ slot < boiosMaxProcesses, k.scheduler.processes slot = process ∧
      k.heap.blockOf process ∉ slotBlocks (Function.update B slot ∅) ∧ ∃ S T p,
        k.heap.GuardsBoth (slotBlocks (Function.update B slot ∅)) S T ∧
          k.ProcessTree S T process p ∧ p.pid = slot := by
  obtain ⟨hne, slot, hlt, rfl⟩ := hlive
  obtain ⟨hblock, S, T, p, htree, hpid, hS, hT, hapart⟩ := h.slot slot hlt hne
  refine ⟨slot, hlt, rfl, h.not_mem_erased hlt hblock, S, T, p, ?_, htree, hpid⟩
  refine ⟨h.guards.mono ?_, fun b hb => h.not_mem_erased hlt (hS hb), fun b hb => ?_⟩
  · rintro b ((hb | hb) | hb)
    · exact slotBlocks_erase_subset B slot hb
    · exact subset_slotBlocks B hlt (hS hb)
    · exact subset_slotBlocks B hlt (hT hb)
  · rintro (hin | hin)
    · exact h.not_mem_erased hlt (hT hb) hin
    · exact hapart b hb hin

theorem exited (h : TableOf B k) {slot process : Nat} (hlt : slot < boiosMaxProcesses)
    (hslot : k.scheduler.processes slot = process)
    (hexit : ProcessExited (slotBlocks (Function.update B slot ∅)) slot process k k') :
    TableOf (Function.update B slot ∅) k' := by
  have hself : k'.scheduler.processes slot = 0 := by
    rw [hexit.processes, Function.update_self]
  have hothers : ∀ i, i ≠ slot → k'.scheduler.processes i = k.scheduler.processes i := by
    intro i hi
    rw [hexit.processes, Function.update_of_ne hi]
  refine ⟨hexit.frame.guards, h.null.frame hexit.frame, ?_, ?_, ?_⟩
  · intro i hi j hj hne b hb
    by_cases hislot : i = slot
    · rw [hislot, Function.update_self] at hb
      exact absurd hb (Set.notMem_empty b)
    · rw [Function.update_of_ne hislot] at hb
      by_cases hjslot : j = slot
      · rw [hjslot, Function.update_self]
        exact Set.notMem_empty b
      · rw [Function.update_of_ne hjslot]
        exact h.apart i hi j hj hne b hb
  · intro i hi hnonnull
    have hislot : i ≠ slot := by
      rintro rfl
      exact hnonnull hself
    rw [hothers i hislot] at hnonnull
    have htree := h.slot i hi hnonnull
    have hown := subset_slotBlocks (Function.update B slot ∅) hi
    rw [Function.update_of_ne hislot] at hown ⊢
    exact htree.frame hexit.frame hown (hothers i hislot)
  · rcases hexit.current with ⟨hother, hsame⟩ | ⟨-, i, hi, hnonnull, hsame⟩
    · rw [hsame]
      refine h.current.imp_right fun ⟨hne, i, hi, hcurrent⟩ => ⟨hne, i, hi, ?_⟩
      rw [hothers i, hcurrent]
      rintro rfl
      exact hother (hcurrent.symm.trans hslot)
    · refine Or.inr ⟨?_, i, hi, hsame.symm⟩
      rw [hsame]
      exact hnonnull

end TableOf

/-! The calls. -/

/-- What a load does to the table: a process that was loaded takes the lowest free slot. -/
structure LoadEffect (s s' : Scheduler) (r : Int × Nat) : Prop where
  loaded : 0 ≤ r.1 → ∃ slot < boiosMaxProcesses, s.processes slot = 0 ∧
    (∀ j < slot, s.processes j ≠ 0) ∧ s'.processes = Function.update s.processes slot r.2
  failed : r.1 < 0 → s'.processes = s.processes
  full : (∀ j < boiosMaxProcesses, s.processes j ≠ 0) → r.1 < 0

theorem TableOf.load {B : Nat → Set Int} {k k' : Kernel} (h : TableOf B k)
    {filename : List UInt8} (h0 : 0 ∉ filename) {r : Int × Nat}
    (hrun : KernelM.processLoad filename k = .ok (r, k')) :
    (∃ B', TableOf B' k') ∧ LoadEffect k.scheduler k'.scheduler r ∧
      (r.1 = 0 → k'.scheduler.Live r.2) := by
  by_cases hneg : r.1 < 0
  · have hframe : KernelFrame (slotBlocks B) k k' ∧
        k'.scheduler.processes = k.scheduler.processes ∧
        k'.scheduler.currentProcess = k.scheduler.currentProcess := by
      rcases processLoad_failed h.guards h.null h0 hrun hneg with
        ⟨-, rfl⟩ | ⟨-, process, hfailed⟩
      · exact ⟨.refl h.guards, rfl, rfl⟩
      · exact ⟨hfailed.frame, hfailed.processes, hfailed.currentProcess⟩
    obtain ⟨hframe, hprocesses, hcurrent⟩ := hframe
    exact ⟨⟨B, h.frame hframe hprocesses (Or.inl hcurrent)⟩,
      ⟨fun hres => absurd hneg (by omega), fun _ => hprocesses, fun _ => hneg⟩,
      fun hzero => absurd hneg (by omega)⟩
  · obtain ⟨hzero, slot, hlt, hfree, hbelow, hloaded⟩ :=
      processLoad_loaded h.guards h.null h0 hrun (by omega)
    refine ⟨h.loaded hlt hfree hloaded, ⟨fun _ => ⟨slot, hlt, hfree, hbelow, hloaded.processes⟩,
      fun hres => absurd hres hneg, fun hfull => absurd hfree (hfull slot hlt)⟩, fun _ => ?_⟩
    refine ⟨hloaded.nonnull, slot, hlt, ?_⟩
    rw [hloaded.processes, Function.update_self]

theorem processLoadSwitch_eq_ok {filename : List UInt8} {r : Int × Nat} {k k' : Kernel}
    (hrun : KernelM.processLoadSwitch filename k = .ok (r, k')) :
    ∃ k₁, KernelM.processLoad filename k = .ok (r, k₁) ∧
      (r.1 = 0 ∧ k' = { k₁ with scheduler := processSwitch k₁.scheduler r.2 } ∨
        r.1 ≠ 0 ∧ k' = k₁) := by
  unfold KernelM.processLoadSwitch at hrun
  obtain ⟨⟨res, process⟩, k₁, hload, hrun⟩ := bind_eq_ok.mp hrun
  dsimp only at hrun
  by_cases hzero : res = 0
  · rw [if_pos hzero] at hrun
    obtain ⟨_, k₂, hswitch, hrun⟩ := bind_eq_ok.mp hrun
    obtain ⟨rfl, rfl⟩ := pure_eq_ok.mp hrun
    exact ⟨k₁, hload, Or.inl ⟨hzero, (modify_eq_ok.mp hswitch).symm⟩⟩
  · rw [if_neg hzero] at hrun
    obtain ⟨rfl, rfl⟩ := pure_eq_ok.mp hrun
    exact ⟨k₁, hload, Or.inr ⟨hzero, rfl⟩⟩

theorem TableOf.loadSwitch {B : Nat → Set Int} {k k' : Kernel} (h : TableOf B k)
    {filename : List UInt8} (h0 : 0 ∉ filename) {r : Int × Nat}
    (hrun : KernelM.processLoadSwitch filename k = .ok (r, k')) :
    (∃ B', TableOf B' k') ∧ LoadEffect k.scheduler k'.scheduler r := by
  obtain ⟨k₁, hload, hswitch⟩ := processLoadSwitch_eq_ok hrun
  obtain ⟨⟨B', htable⟩, heffect, hlive⟩ := h.load h0 hload
  rcases hswitch with ⟨hzero, rfl⟩ | ⟨-, rfl⟩
  · have hframe : KernelFrame (slotBlocks B') k₁
        { k₁ with scheduler := processSwitch k₁.scheduler r.2 } :=
      ⟨htable.guards, rfl, rfl, rfl, fun _ _ => rfl, fun _ _ => rfl, fun _ _ => rfl,
        fun _ _ => rfl, fun _ _ => rfl⟩
    exact ⟨⟨B', htable.frame hframe rfl (Or.inr (hlive hzero))⟩, heffect.loaded, heffect.failed,
      heffect.full⟩
  · exact ⟨⟨B', htable⟩, heffect⟩

def TableEffect : Step Kernel ProcessCall := fun k call k' =>
  match call with
  | .load _ r => LoadEffect k.scheduler k'.scheduler r
  | .loadSwitch _ r => LoadEffect k.scheduler k'.scheduler r
  | .terminate process => ∃ slot < boiosMaxProcesses, k.scheduler.processes slot = process ∧
      k'.scheduler.processes = Function.update k.scheduler.processes slot 0

theorem TableOf.step {B : Nat → Set Int} {k k' : Kernel} {call : ProcessCall} (h : TableOf B k)
    (hstep : processStep k call k') : (∃ B', TableOf B' k') ∧ TableEffect k call k' := by
  cases call with
  | load filename r =>
    obtain ⟨htable, heffect, -⟩ := h.load hstep.1 hstep.2
    exact ⟨htable, heffect⟩
  | loadSwitch filename r => exact h.loadSwitch hstep.1 hstep.2
  | terminate process =>
    obtain ⟨hlive, res, hrun⟩ := hstep
    obtain ⟨slot, hlt, hslot, hprocess, S, T, p, hguards, htree, hpid⟩ := h.exiting hlive
    have hexit := processTerminate_spec hguards htree hprocess hrun
    rw [hpid] at hexit
    exact ⟨⟨_, h.exited hlt hslot hexit⟩, slot, hlt, hslot, hexit.processes⟩

theorem processLoad_full {k : Kernel} (hfull : ∀ j < boiosMaxProcesses, k.scheduler.processes j ≠ 0)
    (filename : List UInt8) : KernelM.processLoad filename k = .ok ((-enomem, 0), k) ∧
      KernelM.processLoadSwitch filename k = .ok ((-enomem, 0), k) := by
  have hload : KernelM.processLoad filename k = .ok ((-enomem, 0), k) := by
    have hnone : processGetFreeSlot k.scheduler < 0 := by
      rcases processGetFreeSlot_spec k.scheduler with ⟨-, hnone⟩ | ⟨slot, hlt, -, hzero, -⟩
      · rw [hnone]
        decide
      · exact absurd hzero (hfull slot hlt)
    unfold KernelM.processLoad
    rw [bind_of_ok (get_apply k), if_pos hnone]
    rfl
  refine ⟨hload, ?_⟩
  unfold KernelM.processLoadSwitch
  rw [bind_of_ok hload]
  rfl

/-- How the last process of the table exits, once its memory has been given back. -/
inductive LastExit (process : Nat) (k : Kernel) : Prop
  | panics (hcurrent : k.scheduler.currentProcess = process)
      (hrun : KernelM.processTerminate process k = .error .panicked)
  | returns (hcurrent : k.scheduler.currentProcess = 0) (k' : Kernel)
      (hrun : KernelM.processTerminate process k = .ok (allOk, k'))
      (hempty : ∀ i < boiosMaxProcesses, k'.scheduler.processes i = 0)

theorem processUnlink_only {s : Scheduler} {process : Nat} {p : Process}
    (hp : s.store process = some p)
    (hempty : ∀ i < boiosMaxProcesses, Function.update s.processes p.pid 0 i = 0) :
    processUnlink s process =
      if s.currentProcess = process then .error .panicked
      else .ok { s with processes := Function.update s.processes p.pid 0 } := by
  unfold processUnlink
  rw [hp]
  dsimp only [access_some, Except.bind]
  rw [processSwitchToAny_empty hempty]

theorem TableOf.lastExit {B : Nat → Set Int} {k k₁ : Kernel} (h : TableOf B k) {process : Nat}
    (hlive : k.scheduler.Live process)
    (hlast : ∀ i < boiosMaxProcesses, k.scheduler.processes i ≠ 0 →
      k.scheduler.processes i = process)
    {res : Int} (hmemory : processReturnMemory process k = .ok (res, k₁)) :
    LastExit process k := by
  obtain ⟨slot, hlt, hslot, hprocess, S, T, p, hguards, htree, hpid⟩ := h.exiting hlive
  obtain ⟨rfl, -, hprocesses, hcurrent, p', hp', hpid'⟩ :=
    processReturnMemory_spec hguards htree hprocess hmemory
  have honce := h.sound.once
  have hempty : ∀ i < boiosMaxProcesses, Function.update k.scheduler.processes slot 0 i = 0 := by
    intro i hi
    by_cases hislot : i = slot
    · rw [hislot, Function.update_self]
    · rw [Function.update_of_ne hislot]
      by_contra hne
      exact hislot (honce i hi slot hlt hne ((hlast i hi hne).trans hslot.symm))
  have hunlink := processUnlink_only hp' (by rw [hpid', hpid, hprocesses]; exact hempty)
  rw [hpid', hpid, hprocesses] at hunlink
  have hrun : KernelM.processTerminate process k = ((do
      schedulerRun fun s => processUnlink s process
      pure allOk) : KernelM Int) k₁ := by
    rw [processTerminate_eq, bind_of_ok hmemory, if_neg (by decide)]
  by_cases hself : k.scheduler.currentProcess = process
  · rw [if_pos (hcurrent.trans hself)] at hunlink
    refine .panics hself ?_
    rw [hrun]
    refine bind_of_error ?_ _
    unfold schedulerRun
    dsimp only
    rw [hunlink]
    rfl
  · rw [if_neg (by rw [hcurrent]; exact hself)] at hunlink
    have hnone : k.scheduler.currentProcess = 0 := by
      rcases h.current with hnone | ⟨hne, i, hi, hcurrent⟩
      · exact hnone
      · exact absurd (hcurrent.symm.trans (hlast i hi (by rwa [hcurrent]))) hself
    refine .returns hnone { k₁ with scheduler := { k₁.scheduler with
      processes := Function.update k.scheduler.processes slot 0 } } ?_ hempty
    rw [hrun]
    have hdone : schedulerRun (fun s => processUnlink s process) k₁ = .ok ((), { k₁ with
        scheduler := { k₁.scheduler with
          processes := Function.update k.scheduler.processes slot 0 } }) := by
      unfold schedulerRun
      dsimp only
      rw [hunlink]
      rfl
    rw [bind_of_ok hdone]
    rfl

/-- In every run of loads and exits the table stays sound, a load takes the lowest free slot or
leaves the table alone, and it fails if every slot is taken. The exit of the last process panics
if it is the current one; one that was loaded without a switch to it is not, and the table is empty
after it. -/
theorem process_table_run {k : Kernel} (h : NoProcesses k) (run : List (ProcessCall × Kernel))
    (hpath : Path processStep k run) :
    TableSound (last k run).scheduler ∧ Along TableEffect k run ∧
      ((∀ j < boiosMaxProcesses, (last k run).scheduler.processes j ≠ 0) → ∀ filename,
        KernelM.processLoad filename (last k run) = .ok ((-enomem, 0), last k run) ∧
        KernelM.processLoadSwitch filename (last k run) = .ok ((-enomem, 0), last k run)) ∧
      ∀ process, (last k run).scheduler.Live process →
        (∀ i < boiosMaxProcesses, (last k run).scheduler.processes i ≠ 0 →
          (last k run).scheduler.processes i = process) →
        ∀ res k₁, processReturnMemory process (last k run) = .ok (res, k₁) →
          LastExit process (last k run) := by
  have hkeep : ∀ s call t, (∃ B, TableOf B s) → processStep s call t → ∃ B, TableOf B t :=
    fun s call t ⟨_, hs⟩ hstep => (hs.step hstep).1
  have hgives : ∀ s call t, (∃ B, TableOf B s) → processStep s call t → TableEffect s call t :=
    fun s call t ⟨_, hs⟩ hstep => (hs.step hstep).2
  obtain ⟨B, hlast⟩ := last_of_path hkeep k run ⟨_, h.tableOf⟩ hpath
  exact ⟨hlast.sound, along_of_path hkeep hgives k run ⟨_, h.tableOf⟩ hpath, processLoad_full,
    fun process hlive honly res k₁ hmemory => hlast.lastExit hlive honly hmemory⟩

theorem firstKernel_noProcesses : NoProcesses firstKernel :=
  ⟨firstKernel_wellFormed, firstKernel_nullFree, fun _ _ => rfl, rfl⟩

theorem process_table_run_firstKernel : ∃ k run, Path processStep firstKernel run ∧
    last firstKernel run = k ∧ k.scheduler.processes 0 = 0x1000000 ∧ TableSound k.scheduler := by
  obtain ⟨k, hload⟩ := firstKernel_loads
  have hpath : Path processStep firstKernel [(.load binaryName (0, 0x1000000), k)] :=
    ⟨⟨by decide, hload⟩, trivial⟩
  obtain ⟨hsound, ⟨heffect, -⟩, -⟩ := process_table_run firstKernel_noProcesses _ hpath
  obtain ⟨slot, -, -, hbelow, hprocesses⟩ := heffect.loaded (le_refl 0)
  have hzero : slot = 0 := by
    by_contra hne
    exact hbelow 0 (Nat.pos_of_ne_zero hne) rfl
  refine ⟨k, _, hpath, rfl, ?_, hsound⟩
  rw [hprocesses, hzero, Function.update_self]

theorem process_exit_not_always_panics : ¬ ∀ (k : Kernel) (run : List (ProcessCall × Kernel)),
    NoProcesses k → Path processStep k run →
    TableSound (last k run).scheduler ∧ Along TableEffect k run ∧
      ∀ process, (last k run).scheduler.Live process →
        (∀ i < boiosMaxProcesses, (last k run).scheduler.processes i ≠ 0 →
          (last k run).scheduler.processes i = process) →
        ∀ res k', KernelM.processTerminate process (last k run) ≠ .ok (res, k') := by
  intro hall
  obtain ⟨k, hload⟩ := firstKernel_loads
  have hpath : Path processStep firstKernel [(.load binaryName (0, 0x1000000), k)] :=
    ⟨⟨by decide, hload⟩, trivial⟩
  obtain ⟨-, ⟨heffect, -⟩, hpanics⟩ := hall firstKernel _ firstKernel_noProcesses hpath
  obtain ⟨slot, hlt, -, -, hprocesses⟩ := heffect.loaded (le_refl 0)
  have hself : k.scheduler.processes slot = 0x1000000 := by
    rw [hprocesses, Function.update_self]
  have honly : ∀ i < boiosMaxProcesses, k.scheduler.processes i ≠ 0 →
      k.scheduler.processes i = 0x1000000 := by
    intro i _ hne
    rw [hprocesses] at hne ⊢
    by_cases hi : i = slot
    · rw [hi, Function.update_self]
    · rw [Function.update_of_ne hi] at hne
      exact absurd rfl hne
  obtain ⟨k', hexit⟩ := processLoad_exits firstKernel_wellFormed firstKernel_nullFree (by decide)
    firstKernel_tasks rfl hload (le_refl 0)
  exact hpanics 0x1000000 ⟨by decide, slot, hlt, hself⟩ honly _ k' hexit

end BoiOS
