import BoiOS.Fs.FileMoves
import BoiOS.Task.SystemCommand

/-! What leaves the processes and the tasks alone: the file system, the loaders, the heap and the
page tables. That a function does is inferred from its text. -/
namespace BoiOS
open Library.StateRun

def SameScheduler (k k' : Kernel) : Prop := k'.scheduler = k.scheduler

instance : Std.Refl SameScheduler := ⟨fun _ => rfl⟩

instance : IsTrans Kernel SameScheduler := ⟨fun _ _ _ h h' => Eq.trans h' h⟩

theorem kept_modify {R : Kernel → Kernel → Prop} {f : Kernel → Kernel} (h : ∀ k, R k (f k)) :
    Kept R (modify f : KernelM Unit) := ⟨Keeps.modify h⟩

/-! The file system. -/

instance : FileMoves SameScheduler (fun _ _ => True) where
  back := fun _ _ => trivial
  heap := fun _ _ => rfl
  memory := fun _ _ => rfl
  streams := fun _ _ _ => rfl
  fatItems := fun _ _ => rfl
  fatDirectories := fun _ _ => rfl
  fatDescriptors := fun _ _ => rfl
  files := fun _ _ => rfl
  pathRoots := fun _ _ => rfl
  pathParts := fun _ _ => rfl
  faulted := fun _ => trivial
  divided := fun _ _ _ _ => trivial

/-! The page tables and the loader. -/

instance (f : Kernel → PageStore) :
    Kept SameScheduler (modify fun k => { k with pages := f k } : KernelM Unit) :=
  kept_modify fun _ => rfl

instance (f : Kernel → Nat → Option ElfFile) :
    Kept SameScheduler (modify fun k => { k with elfFiles := f k } : KernelM Unit) :=
  kept_modify fun _ => rfl

instance (ptr : Nat) (elfFile : ElfFile) :
    Kept SameScheduler (modify (putElfFile ptr elfFile) : KernelM Unit) := kept_modify fun _ => rfl

theorem kept_kzallocObject {size : Nat} {place : Nat → Kernel → Kernel}
    (h : ∀ ptr k, (place ptr k).scheduler = k.scheduler) :
    Kept SameScheduler (kzallocObject size place) := by
  have hplace (ptr : Nat) :
      Kept SameScheduler (modify fun k => if ptr = 0 then k else place ptr k : KernelM Unit) := by
    refine kept_modify fun k => ?_
    by_cases hnull : ptr = 0
    · rw [if_pos hnull]
      rfl
    · rw [if_neg hnull]
      exact h ptr k
  unfold kzallocObject
  infer_instance

instance {α : Type} (f : PageStore → Except Stop (α × PageStore)) :
    Kept SameScheduler (pagingRun f) := by
  constructor
  intro k a k' h
  obtain ⟨pages, -, hk'⟩ := pagingRun_eq_ok h
  rw [hk']
  rfl

set_option synthInstance.maxSize 2048 in
instance (filename : List UInt8) : Kept SameScheduler (elfLoad kernelFiles filename) := by
  have helfFile : Kept SameScheduler (kzallocObject sizeofElfFile fun ptr =>
      putElfFile ptr ⟨0, 0, 0, 0, 0⟩) := kept_kzallocObject fun _ _ => rfl
  unfold elfLoad kernelFiles
  dsimp only
  infer_instance

instance (elfFile : Nat) : Kept SameScheduler (elfClose elfFile) := by
  unfold elfClose
  infer_instance

/-! The page directories. -/

instance (directory flags count i : Nat) :
    Kept SameScheduler (pagingNew4gbLoop directory flags count i) := by
  induction count generalizing i with
  | zero => exact kept_pure _
  | succ count ih =>
    unfold pagingNew4gbLoop
    infer_instance

instance (flags : Nat) : Kept SameScheduler (pagingNew4gb flags) := by
  have hdirectory : Kept SameScheduler (kzallocObject (4 * pagingTotalEntriesPerTable) fun ptr k =>
      { k with pages := k.pages.putArray ptr fun _ => 0 }) := kept_kzallocObject fun _ _ => rfl
  unfold pagingNew4gb
  infer_instance

instance (directory count i : Nat) : Kept SameScheduler (pagingFree4gbLoop directory count i) := by
  induction count generalizing i with
  | zero => exact kept_pure _
  | succ count ih =>
    unfold pagingFree4gbLoop
    infer_instance

set_option synthInstance.maxSize 2048 in
instance (chunk : Nat) : Kept SameScheduler (pagingFree4gb chunk) := by
  unfold pagingFree4gb
  infer_instance

instance (process : Nat) : Kept SameScheduler (processMapStack process) := by
  unfold processMapStack
  infer_instance

set_option synthInstance.maxSize 2048 in
instance (process : Nat) : Kept SameScheduler (processMapMemory process) := by
  unfold processMapMemory processMapElf processMapBinary
  infer_instance

instance (process : Nat) : Kept SameScheduler (taskEntry process) := by
  unfold taskEntry
  infer_instance

instance (process : Nat) : Kept SameScheduler (processFreeProgramData process) := by
  unfold processFreeProgramData
  infer_instance

/-! The allocations of one process. -/

def SameAllocations (caller : Nat) (k k' : Kernel) : Prop :=
  (k'.scheduler.store caller).map Process.allocations =
    (k.scheduler.store caller).map Process.allocations

variable {caller : Nat}

instance : Std.Refl (SameAllocations caller) := ⟨fun _ => rfl⟩

instance : IsTrans Kernel (SameAllocations caller) := ⟨fun _ _ _ h h' => Eq.trans h' h⟩

instance (priority := low) {α : Type} (x : KernelM α) [hx : Kept SameScheduler x] :
    Kept (SameAllocations caller) x := by
  constructor
  intro k a k' h
  have hsame : k'.scheduler = k.scheduler := hx.run h
  unfold SameAllocations
  rw [hsame]

theorem kept_schedulerRun {f : Scheduler → Except Stop Scheduler}
    (h : ∀ s s', f s = .ok s' → (s'.store caller).map Process.allocations =
      (s.store caller).map Process.allocations) :
    Kept (SameAllocations caller) (schedulerRun f) := by
  constructor
  intro k a k' hrun
  unfold schedulerRun at hrun
  cases hf : f k.scheduler with
  | error stop => simp [hf, Except.map] at hrun
  | ok s =>
    simp only [hf, Except.map, Except.ok.injEq, Prod.mk.injEq] at hrun
    rw [← hrun.2]
    exact h _ _ hf

instance (f : Tasks → Option Tasks) : Kept (SameAllocations caller) (tasksRun f) := by
  refine kept_schedulerRun fun s s' h => ?_
  cases hf : f s.tasks with
  | none => simp [hf, Except.map] at h
  | some tasks =>
    simp only [hf, access_some, Except.map, Except.ok.injEq] at h
    rw [← h]

theorem kept_modifyProcess {process : Nat} {f : Process → Process}
    (h : ∀ p, (f p).allocations = p.allocations) :
    Kept (SameAllocations caller) (modifyProcess process f) := by
  constructor
  intro k a k' hrun
  obtain ⟨p, hp, hk'⟩ := modifyProcess_eq_ok hrun
  unfold SameAllocations
  rw [hk']
  by_cases hcaller : caller = process
  · rw [hcaller, putProcess_store_self, hp]
    exact congrArg some (h p)
  · rw [putProcess_store_of_ne hcaller]

instance (filename : List UInt8) (process : Nat) :
    Kept (SameAllocations caller) (processLoadElf filename process) := by
  have hset (elfFile : Nat) : Kept (SameAllocations caller) (modifyProcess process fun p =>
      { p with filetype := processFileTypeElf, ptr := elfFile }) := kept_modifyProcess fun _ => rfl
  unfold processLoadElf
  infer_instance

instance (filename : List UInt8) (process : Nat) :
    Kept (SameAllocations caller) (processLoadBinary filename process) := by
  have hset (ptr size : Nat) : Kept (SameAllocations caller) (modifyProcess process fun p =>
      { p with filetype := processFileTypeBin, ptr := ptr, size := size }) :=
    kept_modifyProcess fun _ => rfl
  unfold processLoadBinary
  infer_instance

instance (filename : List UInt8) (process : Nat) :
    Kept (SameAllocations caller) (processLoadData filename process) := by
  unfold processLoadData
  infer_instance

instance (process : Nat) : Kept (SameAllocations caller) (taskNew process) := by
  unfold taskNew
  infer_instance

instance (task : Nat) : Kept (SameAllocations caller) (taskFree task) := by
  unfold taskFree
  infer_instance

instance (process : Nat) (res : Int) :
    Kept (SameAllocations caller) (processLoadFailed process res) := by
  unfold processLoadFailed
  infer_instance

theorem sameAllocations_putProcess {process : Nat} {k k₁ : Kernel} (h : process ≠ caller)
    (hsame : k₁.scheduler.store caller = k.scheduler.store caller) (p : Process) :
    SameAllocations caller k (putProcess process p k₁) := by
  unfold SameAllocations
  rw [putProcess_store_of_ne h.symm, hsame]

theorem kzallocObject_sameAllocations {ptr : Nat} {k k' : Kernel}
    (hplace : (heapMalloc k.heap sizeofProcess).1 ≠ caller)
    (hrun : kzallocObject sizeofProcess (fun ptr => putProcess ptr processInit) k = .ok (ptr, k')) :
    ptr = (heapMalloc k.heap sizeofProcess).1 ∧ SameAllocations caller k k' := by
  obtain ⟨k₁, halloc, hk'⟩ := kzallocObject_eq_ok hrun
  obtain ⟨hptr, -⟩ := kzalloc_eq_ok halloc
  have hsame : k₁.scheduler = k.scheduler :=
    Kept.run (inferInstance : Kept SameScheduler (kzalloc sizeofProcess)) halloc
  refine ⟨hptr, ?_⟩
  rw [hk']
  by_cases hnull : ptr = 0
  · rw [if_pos hnull]
    exact congrArg (fun s => (s.store caller).map Process.allocations) hsame
  · rw [if_neg hnull]
    exact sameAllocations_putProcess (by rwa [hptr]) (by rw [hsame]) _

set_option synthInstance.maxSize 2048 in
theorem processLoadForSlot_sameAllocations {filename : List UInt8} {processSlot : Nat}
    {r : Int × Nat} {k k' : Kernel} (hplace : (heapMalloc k.heap sizeofProcess).1 ≠ caller)
    (hrun : KernelM.processLoadForSlot filename processSlot k = .ok (r, k')) :
    SameAllocations caller k k' := by
  unfold KernelM.processLoadForSlot at hrun
  replace hrun := bind_get_eq_ok.mp hrun
  by_cases htaken : processGet k.scheduler processSlot ≠ 0
  · rw [if_pos htaken] at hrun
    exact (throw_eq_ok.mp hrun).elim
  rw [if_neg htaken] at hrun
  obtain ⟨ptr, k₁, hobject, hrun⟩ := bind_eq_ok.mp hrun
  obtain ⟨-, hfirst⟩ := kzallocObject_sameAllocations hplace hobject
  have hset (programStackPtr : Nat) : Kept (SameAllocations caller) (modifyProcess ptr fun p =>
      { p with filename := strncpy filename boiosMaxPath, stack := programStackPtr,
               pid := processSlot }) := kept_modifyProcess fun _ => rfl
  have htask (task : Nat) : Kept (SameAllocations caller) (modifyProcess ptr fun p =>
      { p with task }) := kept_modifyProcess fun _ => rfl
  have hslot : Kept (SameAllocations caller) (modify fun k => { k with
      scheduler := { k.scheduler with
        processes := Function.update k.scheduler.processes processSlot ptr } } : KernelM Unit) :=
    kept_modify fun _ => rfl
  exact IsTrans.trans _ _ _ hfirst (Kept.run inferInstance hrun)

theorem processLoadSwitch_sameAllocations {filename : List UInt8} {r : Int × Nat} {k k' : Kernel}
    (hplace : (heapMalloc k.heap sizeofProcess).1 ≠ caller)
    (hrun : KernelM.processLoadSwitch filename k = .ok (r, k')) : SameAllocations caller k k' := by
  unfold KernelM.processLoadSwitch at hrun
  obtain ⟨⟨res, process⟩, k₁, hload, hrun⟩ := bind_eq_ok.mp hrun
  have hfirst : SameAllocations caller k k₁ := by
    unfold KernelM.processLoad at hload
    replace hload := bind_get_eq_ok.mp hload
    by_cases hslot : processGetFreeSlot k.scheduler < 0
    · rw [if_pos hslot] at hload
      exact Kept.run inferInstance hload
    · rw [if_neg hslot] at hload
      exact processLoadForSlot_sameAllocations hplace hload
  have hswitch : Kept (SameAllocations caller) (modify fun k =>
      { k with scheduler := processSwitch k.scheduler process } : KernelM Unit) :=
    kept_modify fun _ => rfl
  exact IsTrans.trans _ _ _ hfirst (Kept.run inferInstance hrun)

theorem processLoadFailed_result {process : Nat} {res : Int} {r : Int × Nat} {k k' : Kernel}
    (hrun : processLoadFailed process res k = .ok (r, k')) : r = (res, 0) := by
  unfold processLoadFailed at hrun
  obtain ⟨_, _, -, hrun⟩ := bind_eq_ok.mp hrun
  obtain ⟨p, _, -, hrun⟩ := bind_eq_ok.mp hrun
  by_cases htask : p.task ≠ 0
  · rw [if_pos htask] at hrun
    obtain ⟨_, _, -, hrun⟩ := bind_eq_ok.mp hrun
    exact (pure_eq_ok.mp hrun).1.symm
  · rw [if_neg htask] at hrun
    exact (pure_eq_ok.mp hrun).1.symm

theorem processLoadForSlot_process {filename : List UInt8} {processSlot : Nat} {r : Int × Nat}
    {k k' : Kernel} (hrun : KernelM.processLoadForSlot filename processSlot k = .ok (r, k'))
    (hres : 0 ≤ r.1) : r.2 = (heapMalloc k.heap sizeofProcess).1 ∧ r.2 ≠ 0 := by
  unfold KernelM.processLoadForSlot at hrun
  replace hrun := bind_get_eq_ok.mp hrun
  by_cases htaken : processGet k.scheduler processSlot ≠ 0
  · rw [if_pos htaken] at hrun
    exact (throw_eq_ok.mp hrun).elim
  rw [if_neg htaken] at hrun
  obtain ⟨ptr, k₁, hobject, hrun⟩ := bind_eq_ok.mp hrun
  obtain ⟨k₀, halloc, -⟩ := kzallocObject_eq_ok hobject
  obtain ⟨hptr, -⟩ := kzalloc_eq_ok halloc
  have hfailed (res : Int) (hneg : res < 0) {k₂ : Kernel}
      (h : processLoadFailed ptr res k₂ = .ok (r, k')) : False := by
    rw [processLoadFailed_result h] at hres
    exact absurd hres (by dsimp only; omega)
  by_cases hnull : ptr = 0
  · rw [if_pos hnull] at hrun
    rw [← (pure_eq_ok.mp hrun).1] at hres
    exact absurd hres (by decide)
  rw [if_neg hnull] at hrun
  obtain ⟨res, k₂, -, hrun⟩ := bind_eq_ok.mp hrun
  by_cases hdata : res < 0
  · rw [if_pos hdata] at hrun
    exact (hfailed res hdata hrun).elim
  rw [if_neg hdata] at hrun
  obtain ⟨stack, k₃, -, hrun⟩ := bind_eq_ok.mp hrun
  by_cases hstack : stack = 0
  · rw [if_pos hstack] at hrun
    exact (hfailed _ (by decide) hrun).elim
  rw [if_neg hstack] at hrun
  obtain ⟨_, k₄, -, hrun⟩ := bind_eq_ok.mp hrun
  obtain ⟨task, k₅, -, hrun⟩ := bind_eq_ok.mp hrun
  obtain ⟨_, k₆, -, hrun⟩ := bind_eq_ok.mp hrun
  obtain ⟨res, k₇, -, hrun⟩ := bind_eq_ok.mp hrun
  by_cases hmap : res < 0
  · rw [if_pos hmap] at hrun
    exact (hfailed res hmap hrun).elim
  rw [if_neg hmap] at hrun
  obtain ⟨_, k₈, -, hrun⟩ := bind_eq_ok.mp hrun
  rw [← (pure_eq_ok.mp hrun).1]
  exact ⟨hptr, hnull⟩

theorem processLoadSwitch_process {filename : List UInt8} {r : Int × Nat} {k k' : Kernel}
    (hrun : KernelM.processLoadSwitch filename k = .ok (r, k')) (hres : 0 ≤ r.1) :
    r.2 = (heapMalloc k.heap sizeofProcess).1 ∧ r.2 ≠ 0 := by
  unfold KernelM.processLoadSwitch at hrun
  obtain ⟨⟨res, process⟩, k₁, hload, hrun⟩ := bind_eq_ok.mp hrun
  have hr : r = (res, process) := by
    dsimp only at hrun
    by_cases hzero : res = 0
    · rw [if_pos hzero] at hrun
      obtain ⟨_, _, -, hrun⟩ := bind_eq_ok.mp hrun
      exact (pure_eq_ok.mp hrun).1.symm
    · rw [if_neg hzero] at hrun
      exact (pure_eq_ok.mp hrun).1.symm
  rw [hr] at hres ⊢
  unfold KernelM.processLoad at hload
  replace hload := bind_get_eq_ok.mp hload
  by_cases hslot : processGetFreeSlot k.scheduler < 0
  · rw [if_pos hslot] at hload
    rw [← (pure_eq_ok.mp hload).1] at hres
    exact absurd hres (by decide)
  · rw [if_neg hslot] at hload
    exact processLoadForSlot_process hload hres

/-! What other processes do on their own. -/

section Other

variable {process : Nat} [hother : Fact (process ≠ caller)]

instance (size : Nat) : Kept (SameAllocations caller) (processMalloc process size) := by
  constructor
  intro k ptr k' h
  cases processMalloc_eq_ok h with
  | outOfMemory => rfl
  | noEntry => rfl
  | unmapped => rfl
  | entered => exact sameAllocations_putProcess hother.out rfl _

instance (ptr : Nat) : Kept (SameAllocations caller) (processFree process ptr) := by
  constructor
  intro k u k' h
  cases processFree_eq_ok h with
  | notFound => exact Std.Refl.refl k
  | unmapped => exact (rfl : _ = _)
  | freed =>
    refine sameAllocations_putProcess hother.out ?_ _
    rfl

instance (count i : Nat) :
    Kept (SameAllocations caller) (processTerminateAllocationsLoop process count i) := by
  induction count generalizing i with
  | zero => exact kept_pure _
  | succ count ih =>
    unfold processTerminateAllocationsLoop
    infer_instance

set_option synthInstance.maxSize 2048 in
instance : Kept (SameAllocations caller) (KernelM.processTerminate process) := by
  have hunlink : Kept (SameAllocations caller) (schedulerRun fun s => processUnlink s process) :=
    kept_schedulerRun fun _ _ h => by rw [(processUnlink_same h).1]
  unfold KernelM.processTerminate processTerminateAllocations
  infer_instance

instance (m : Memory) (fuel current : Nat) :
    Kept (SameAllocations caller) (processCountCommandArgumentsLoop m fuel current) := by
  induction fuel generalizing current with
  | zero => exact kept_throw _
  | succ fuel ih =>
    unfold processCountCommandArgumentsLoop
    infer_instance

instance (argv fuel i current : Nat) :
    Kept (SameAllocations caller) (processInjectArgumentsLoop process argv fuel i current) := by
  induction fuel generalizing i current with
  | zero => exact kept_throw _
  | succ fuel ih =>
    unfold processInjectArgumentsLoop
    infer_instance

instance (rootArgument : Nat) :
    Kept (SameAllocations caller) (processInjectArguments process rootArgument) := by
  have hset (argc : Int) (argv : Nat) : Kept (SameAllocations caller) (modifyProcess process
      fun p => { p with arguments := ⟨argc, argv⟩ }) := kept_modifyProcess fun _ => rfl
  unfold processInjectArguments processCountCommandArguments
  infer_instance

end Other

theorem isr80hCommand7_sameAllocations {stackItem : Nat} {r : Option Int} {k k' : Kernel}
    (hplace : (heapMalloc k.heap sizeofProcess).1 ≠ caller)
    (hrun : isr80hCommand7InvokeSystemCommand stackItem k = .ok (r, k')) :
    SameAllocations caller k k' := by
  unfold isr80hCommand7InvokeSystemCommand at hrun
  replace hrun := bind_get_eq_ok.mp hrun
  obtain ⟨task, -, hrun⟩ := bind_fetch_eq_ok.mp hrun
  obtain ⟨arguments, k₀, hpointer, hrun⟩ := bind_eq_ok.mp hrun
  rw [(taskPointer_eq_ok hpointer).2] at hrun
  replace hrun := bind_get_eq_ok.mp hrun
  by_cases hnone : arguments = 0 ∨ k.memory arguments = 0
  · rw [if_pos hnone] at hrun
    exact Kept.run inferInstance hrun
  rw [if_neg hnone] at hrun
  obtain ⟨⟨res, process⟩, k₁, hload, hrun⟩ := bind_eq_ok.mp hrun
  have hfirst := processLoadSwitch_sameAllocations hplace hload
  dsimp only at hrun
  by_cases hneg : res < 0
  · rw [if_pos hneg] at hrun
    exact IsTrans.trans _ _ _ hfirst (Kept.run inferInstance hrun)
  · obtain ⟨hprocess, -⟩ := processLoadSwitch_process hload (by dsimp only; omega)
    have hother : Fact (process ≠ caller) := ⟨by rwa [show process = _ from hprocess]⟩
    exact IsTrans.trans _ _ _ hfirst (Kept.run inferInstance hrun)

end BoiOS
