import BoiOS.Task.ProcessFrame
import BoiOS.Task.UserMemory

/-! The exit of a process that has asked for no memory. Its image, its stack and its task are given
back before it leaves the table; what is in the blocks of the others stays. -/
namespace BoiOS
open Library.StateRun

theorem Kernel.ProcessTree.frame {P S T : Set Int} {k k' : Kernel} {process : Nat} {p : Process}
    (h : k.ProcessTree S T process p) (hframe : KernelFrame P k k')
    (hprocess : k.heap.blockOf process ∈ P) (hS : S ⊆ P) (hT : T ⊆ P) :
    k'.ProcessTree S T process p := by
  refine ⟨?_, h.program.frame hframe hS, h.stack.congr hframe.start hframe.total,
    h.task.frame hframe hT, h.allocations⟩
  rw [hframe.processes process hprocess]
  exact h.stored

/-! The image. -/

/-- What giving blocks back leaves: what can be freed still can, and the tables are the same. -/
structure GivesBack (P : Set Int) (k k' : Kernel) : Prop where
  frame : KernelFrame P k k'
  keeps : k.heap.KeepsFreeable k'.heap
  scheduler : k'.scheduler = k.scheduler

theorem GivesBack.trans {P : Set Int} {k k' k'' : Kernel} (h : GivesBack P k k')
    (h' : GivesBack P k' k'') : GivesBack P k k'' :=
  ⟨h.frame.trans h'.frame, h.keeps.trans h'.keeps, h'.scheduler.trans h.scheduler⟩

theorem GivesBack.of_kfree {P : Set Int} {k k' : Kernel} {ptr : Nat} {u : Unit}
    (h : k.heap.Guards P) (hptr : k.heap.Freeable P ptr) (hrun : kfree ptr k = .ok (u, k')) :
    GivesBack P k k' := by
  obtain ⟨hframe, hkeeps, -⟩ := PagesFrame.of_kfree h hptr hrun
  exact ⟨hframe.kernel, hkeeps, by rw [hframe.rest]⟩

theorem elfClose_spec {P S : Set Int} {k k' : Kernel} {elfFile : Nat} {u : Unit}
    (hguards : k.heap.GuardsMore P S) (h : k.ElfTree S elfFile)
    (hrun : elfClose elfFile k = .ok (u, k')) : GivesBack P k k' := by
  obtain ⟨hblock, file, hfile, hmemory⟩ := h
  have hne := hblock.block.ne_zero hguards.guards.wellFormed
  have hfreeable : k.heap.Freeable P file.elfMemory := hmemory.elim Or.inl hguards.freeable
  unfold elfClose at hrun
  rw [if_neg hne] at hrun
  replace hrun := bind_get_eq_ok.mp hrun
  obtain ⟨file', hfile', hrun⟩ := bind_fetch_eq_ok.mp hrun
  obtain rfl := Option.some.inj (hfile'.symm.trans hfile)
  obtain ⟨_, k₁, hfree, hrun⟩ := bind_eq_ok.mp hrun
  obtain ⟨_, k₂, hfree', hrun⟩ := bind_eq_ok.mp hrun
  have hfirst := GivesBack.of_kfree hguards.left hfreeable hfree
  have hsecond := GivesBack.of_kfree hfirst.frame.guards
    (hfirst.keeps P _ (hguards.freeable hblock)) hfree'
  have hboth := hfirst.trans hsecond
  refine hboth.trans ?_
  rw [← modify_eq_ok.mp hrun]
  refine ⟨(LoaderFrame.of_elfFile hboth.frame.guards hne ?_ none).kernel, .refl _, rfl⟩
  rw [hboth.frame.blockOf]
  exact hguards.apart _ hblock.mem

theorem processFreeProgramData_spec {P S : Set Int} {k k' : Kernel} {process : Nat} {p : Process}
    {res : Int} (hguards : k.heap.GuardsMore P S) (hp : k.scheduler.store process = some p)
    (h : k.ProgramTree S p) (hrun : processFreeProgramData process k = .ok (res, k')) :
    res = allOk ∧ GivesBack P k k' := by
  unfold processFreeProgramData at hrun
  replace hrun := bind_get_eq_ok.mp hrun
  obtain ⟨p', hp', hrun⟩ := bind_fetch_eq_ok.mp hrun
  obtain rfl := Option.some.inj (hp'.symm.trans hp)
  rcases h with ⟨htype, helf⟩ | ⟨htype, hbinary⟩
  · rw [if_neg (by rw [htype]; decide), if_pos htype] at hrun
    obtain ⟨_, k₁, hclose, hrun⟩ := bind_eq_ok.mp hrun
    obtain ⟨rfl, rfl⟩ := pure_eq_ok.mp hrun
    exact ⟨rfl, elfClose_spec hguards helf hclose⟩
  · rw [if_pos htype] at hrun
    obtain ⟨_, k₁, hfree, hrun⟩ := bind_eq_ok.mp hrun
    obtain ⟨rfl, rfl⟩ := pure_eq_ok.mp hrun
    exact ⟨rfl, .of_kfree hguards.left (hguards.freeable hbinary) hfree⟩

/-! The allocations. -/

/-- The process is there with its parts, and nothing of the others was touched. -/
structure Exiting (P S T : Set Int) (k k' : Kernel) (process : Nat) (p : Process) : Prop where
  frame : KernelFrame P k k'
  guards : k'.heap.GuardsBoth P S T
  lists : SameLists k.scheduler k'.scheduler
  tree : ∃ p', k'.ProcessTree S T process p' ∧ p'.pid = p.pid ∧ p'.task = p.task

theorem Exiting.trans {P S T : Set Int} {k k' k'' : Kernel} {process : Nat} {p p' : Process}
    (h : Exiting P S T k k' process p) (hpid : p'.pid = p.pid) (htask : p'.task = p.task)
    (h' : Exiting P S T k' k'' process p') : Exiting P S T k k'' process p := by
  obtain ⟨p'', htree, hpid', htask'⟩ := h'.tree
  exact ⟨h.frame.trans h'.frame, h'.guards, h.lists.trans h'.lists, p'', htree,
    hpid'.trans hpid, htask'.trans htask⟩

theorem SameLists.of_putProcess (process : Nat) (p : Process) (k : Kernel) :
    SameLists k.scheduler (putProcess process p k).scheduler := ⟨rfl, rfl, rfl⟩

theorem processAllocationUnjoin_spec (p : Process) (ptr : Nat) :
    ∃ allocations, processAllocationUnjoin p ptr = { p with allocations } ∧
      ∀ i, allocations i = p.allocations i ∨ allocations i = ⟨0, 0⟩ := by
  refine ⟨_, rfl, fun i => ?_⟩
  split_ifs
  · exact Or.inr rfl
  · exact Or.inl rfl

theorem processFree_null_exiting {P S T : Set Int} {k k' : Kernel} {process : Nat} {p : Process}
    {u : Unit} (hguards : k.heap.GuardsBoth P S T) (h : k.ProcessTree S T process p)
    (hprocess : k.heap.blockOf process ∉ P) (hrun : processFree process 0 k = .ok (u, k')) :
    Exiting P S T k k' process p := by
  have hmapped : ∀ {task : Task} {i : Nat} {res : Int} {pages : PageStore},
      k.scheduler.tasks.store p.task = some task → (p.allocations i).ptr = 0 →
      processMapAllocation task.pageDirectory (p.allocations i) 0 k.pages = .ok (res, pages) →
      TaskMapped (P ∪ S) T p.task k { k with pages } := by
    intro task i res pages htask hnull hmap
    refine h.task.mapped hguards.more htask fun directory tables hdir hentry => ?_
    unfold processMapAllocation at hmap
    rw [hnull] at hmap
    exact pagingMapTo_frame hdir hentry (by decide) hmap
  cases processFree_eq_ok hrun with
  | notFound => exact ⟨.refl hguards.left, hguards, .refl _, p, h, rfl, rfl⟩
  | unmapped p' task i res pages hp hi hptr htask hmap =>
    obtain rfl := Option.some.inj (hp.symm.trans h.stored)
    have hstep := hmapped htask hptr hmap
    exact ⟨hstep.frame.mono Set.subset_union_left, hguards, .refl _, p',
      ⟨h.stored, h.program.frame hstep.frame Set.subset_union_right, h.stack, hstep.tree,
        h.allocations⟩, rfl, rfl⟩
  | freed p' task i res pages hp hi hptr htask hmap =>
    obtain rfl := Option.some.inj (hp.symm.trans h.stored)
    have hstep := hmapped htask hptr hmap
    have hheld := hguards.guards.heapFree (Or.inl rfl : k.heap.Freeable _ 0)
    have hstart := heapFree_startAddress k.heap 0
    have htotal := heapFree_totalEntries k.heap 0
    obtain ⟨allocations, hunjoin, hcleared⟩ := processAllocationUnjoin_spec p' 0
    rw [hunjoin]
    have hempty : ∀ j < boiosMaxProgramAllocations, (allocations j).ptr = 0 := by
      intro j hj
      rcases hcleared j with hsame | hclear
      · rw [hsame]
        exact h.allocations j hj
      · rw [hclear]
    generalize heapFree k.heap 0 = heap at hheld hstart htotal ⊢
    have hfree : KernelFrame (P ∪ S ∪ T) { k with pages } { k with heap, pages } :=
      .of_heap hheld hstart htotal
    have hle : P ⊆ P ∪ S ∪ T := Set.subset_union_left.trans Set.subset_union_left
    have hput : KernelFrame P { k with heap, pages }
        (putProcess process { p' with allocations } { k with heap, pages }) :=
      .of_putProcess (hheld.mono hle) (by rw [hfree.blockOf]; exact hprocess) _
    have hprogram := (h.program.frame hstep.frame Set.subset_union_right).frame hfree
      (Set.subset_union_right.trans Set.subset_union_left)
    have htree := hstep.tree.frame hfree Set.subset_union_right
    exact {
      frame := ((hstep.frame.mono Set.subset_union_left).trans (hfree.mono hle)).trans hput
      guards := ⟨hheld, hguards.apart, hguards.apartTask⟩
      lists := .of_putProcess process _ { k with heap, pages }
      tree := ⟨{ p' with allocations }, ⟨putProcess_store_self .., hprogram.putProcess rfl rfl,
        h.stack.congr hstart htotal, ⟨htree.block, htree.pages⟩, hempty⟩, rfl, rfl⟩ }

theorem processTerminateAllocationsLoop_spec {P S T : Set Int} {k k' : Kernel} {process : Nat}
    {p : Process} {u : Unit} {count i : Nat} (hroom : i + count ≤ boiosMaxProgramAllocations)
    (hguards : k.heap.GuardsBoth P S T) (h : k.ProcessTree S T process p)
    (hprocess : k.heap.blockOf process ∉ P)
    (hrun : processTerminateAllocationsLoop process count i k = .ok (u, k')) :
    Exiting P S T k k' process p := by
  induction count generalizing i k p with
  | zero =>
    obtain ⟨-, rfl⟩ := pure_eq_ok.mp hrun
    exact ⟨.refl hguards.left, hguards, .refl _, p, h, rfl, rfl⟩
  | succ count ih =>
    unfold processTerminateAllocationsLoop at hrun
    replace hrun := bind_get_eq_ok.mp hrun
    obtain ⟨p', hp', hrun⟩ := bind_fetch_eq_ok.mp hrun
    obtain rfl := Option.some.inj (hp'.symm.trans h.stored)
    obtain ⟨_, k₁, hfree, hrun⟩ := bind_eq_ok.mp hrun
    rw [h.allocations i (by omega)] at hfree
    have hstep := processFree_null_exiting hguards h hprocess hfree
    obtain ⟨p₁, htree, hpid, htask⟩ := hstep.tree
    exact hstep.trans hpid htask
      (ih (by omega) hstep.guards htree (by rw [hstep.frame.blockOf]; exact hprocess) hrun)

/-! The exit. -/

/-- `process_terminate` up to the point where the process leaves the table. -/
def processReturnMemory (process : Nat) : KernelM Int := do
  processTerminateAllocations process
  let res ← processFreeProgramData process
  if res < 0 then pure res
  else do
    let k ← get
    let p ← fetch (k.scheduler.store process)
    kfree p.stack
    taskFree p.task
    pure res

theorem processTerminate_eq (process : Nat) :
    KernelM.processTerminate process = (do
      let res ← processReturnMemory process
      if res < 0 then pure allOk
      else do
        schedulerRun fun s => processUnlink s process
        pure allOk) := by
  unfold KernelM.processTerminate processReturnMemory
  rw [bind_assoc]
  congr 1
  funext _
  rw [bind_assoc]
  congr 1
  funext res
  by_cases hneg : res < 0
  · rw [if_pos hneg, if_pos hneg, pure_bind, if_pos hneg]
  · rw [if_neg hneg, if_neg hneg]
    simp only [bind_assoc, pure_bind, if_neg hneg]

theorem processReturnMemory_spec {P S T : Set Int} {k k' : Kernel} {process : Nat} {p : Process}
    {res : Int} (hguards : k.heap.GuardsBoth P S T) (h : k.ProcessTree S T process p)
    (hprocess : k.heap.blockOf process ∉ P)
    (hrun : processReturnMemory process k = .ok (res, k')) :
    res = allOk ∧ KernelFrame P k k' ∧ k'.scheduler.processes = k.scheduler.processes ∧
      k'.scheduler.currentProcess = k.scheduler.currentProcess ∧
      ∃ p', k'.scheduler.store process = some p' ∧ p'.pid = p.pid := by
  unfold processReturnMemory at hrun
  obtain ⟨_, k₁, hallocations, hrun⟩ := bind_eq_ok.mp hrun
  have hexit := processTerminateAllocationsLoop_spec (by omega) hguards h hprocess hallocations
  obtain ⟨p₁, htree, hpid, -⟩ := hexit.tree
  have himage := hexit.guards.image
  obtain ⟨res', k₂, hdata, hrun⟩ := bind_eq_ok.mp hrun
  obtain ⟨rfl, hgone⟩ := processFreeProgramData_spec himage htree.stored htree.program hdata
  rw [if_neg (by decide)] at hrun
  replace hrun := bind_get_eq_ok.mp hrun
  obtain ⟨p₂, hp₂, hrun⟩ := bind_fetch_eq_ok.mp hrun
  rw [hgone.scheduler, htree.stored, Option.some.injEq] at hp₂
  subst hp₂
  obtain ⟨_, k₃, hstack, hrun⟩ := bind_eq_ok.mp hrun
  have hgone₃ := hgone.trans (.of_kfree hgone.frame.guards
    (hgone.keeps _ _ (himage.freeable htree.stack)) hstack)
  obtain ⟨_, k₄, htask, hrun⟩ := bind_eq_ok.mp hrun
  obtain ⟨rfl, rfl⟩ := pure_eq_ok.mp hrun
  have hmore : k₃.heap.GuardsMore P T :=
    ⟨hgone₃.frame.guards, fun b hb hP => hexit.guards.apartTask b hb (Or.inl hP)⟩
  obtain ⟨hframe₄, tasks, -, hscheduler⟩ :=
    taskFree_spec hmore (htree.task.frame hgone₃.frame Set.subset_union_right) htask
  refine ⟨rfl, (hexit.frame.trans (hgone₃.frame.mono Set.subset_union_left)).trans hframe₄,
    ?_, ?_, p₁, ?_, hpid⟩
  · rw [hscheduler, hgone₃.scheduler]
    exact hexit.lists.processes
  · rw [hscheduler, hgone₃.scheduler]
    exact hexit.lists.currentProcess
  · rw [hscheduler, hgone₃.scheduler]
    exact htree.stored

/-- What an exit leaves: the slot of the process is free, and another process is the current one if
it was. -/
structure ProcessExited (P : Set Int) (slot process : Nat) (k k' : Kernel) : Prop where
  frame : KernelFrame P k k'
  processes : k'.scheduler.processes = Function.update k.scheduler.processes slot 0
  current : k.scheduler.currentProcess ≠ process ∧
      k'.scheduler.currentProcess = k.scheduler.currentProcess ∨
    k.scheduler.currentProcess = process ∧ ∃ i < boiosMaxProcesses,
      k'.scheduler.processes i ≠ 0 ∧ k'.scheduler.currentProcess = k'.scheduler.processes i

theorem processTerminate_spec {P S T : Set Int} {k k' : Kernel} {process : Nat} {p : Process}
    {res : Int} (hguards : k.heap.GuardsBoth P S T) (h : k.ProcessTree S T process p)
    (hprocess : k.heap.blockOf process ∉ P)
    (hrun : KernelM.processTerminate process k = .ok (res, k')) :
    ProcessExited P p.pid process k k' := by
  rw [processTerminate_eq] at hrun
  obtain ⟨res', k₁, hmemory, hrun⟩ := bind_eq_ok.mp hrun
  obtain ⟨rfl, hframe, hprocesses, hcurrent, p', hp', hpid⟩ :=
    processReturnMemory_spec hguards h hprocess hmemory
  rw [if_neg (by decide)] at hrun
  obtain ⟨_, k₂, hunlink, hrun⟩ := bind_eq_ok.mp hrun
  obtain ⟨-, rfl⟩ := pure_eq_ok.mp hrun
  obtain ⟨s, hs, rfl⟩ := schedulerRun_eq_ok hunlink
  obtain ⟨hstore, htasks, hslots, hnext⟩ := processUnlink_eq_ok hp' hs
  rw [hpid, hprocesses] at hslots
  rw [hcurrent] at hnext
  refine ⟨hframe.trans ⟨hframe.guards, rfl, rfl, rfl, fun _ _ => rfl, fun _ _ => rfl,
    fun _ _ => rfl, fun a _ => ?_, fun a _ => ?_⟩, hslots, hnext⟩
  · exact congrFun hstore a
  · exact congrArg (fun ts : Tasks => (ts.store a).map Task.pageDirectory) htasks

end BoiOS
