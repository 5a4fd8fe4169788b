import BoiOS.Task.AllocationTable
import BoiOS.Task.ProcessExit
import BoiOS.Task.ProgramStart

/-! Exits that return. The memory of a process that has asked for none is given back whole, as long as
its task can be taken out of the list. -/
namespace BoiOS
open Library.StateRun

theorem pagingFree4gbLoop_returns {directory : Nat} {entries : Nat → Nat} (count : Nat) {i : Nat}
    {k : Kernel} (harray : k.pages.arrays directory = some entries)
    (hapart : ∀ j < i + count, pagingFrame (entries j) ≠ directory) :
    ∃ k', pagingFree4gbLoop directory count i k = .ok ((), k') := by
  induction count generalizing i k with
  | zero => exact ⟨k, rfl⟩
  | succ count ih =>
    let k₁ : Kernel := { k with
      heap := heapFree k.heap (pagingFrame (entries i))
      pages := k.pages.dropArray (pagingFrame (entries i)) }
    have harray₁ : k₁.pages.arrays directory = some entries :=
      (Function.update_of_ne (hapart i (by omega)).symm _ _).trans harray
    obtain ⟨k', hrest⟩ := ih (i := i + 1) (k := k₁) harray₁ fun j hj => hapart j (by omega)
    refine ⟨k', ?_⟩
    unfold pagingFree4gbLoop
    rw [bind_of_ok (get_apply k), harray, bind_of_ok (fetch_some entries k),
      bind_of_ok (kfree_apply ..)]
    exact hrest

theorem pagingFree4gb_returns {k : Kernel} {chunk directory : Nat} {entries : Nat → Nat}
    (hchunk : k.pages.chunks chunk = some directory)
    (harray : k.pages.arrays directory = some entries)
    (hapart : ∀ j < 1024, pagingFrame (entries j) ≠ directory) :
    ∃ k', pagingFree4gb chunk k = .ok ((), k') := by
  obtain ⟨k₁, hloop⟩ := pagingFree4gbLoop_returns pagingTotalEntriesPerTable (i := 0) harray
    fun j hj => hapart j (by
      unfold pagingTotalEntriesPerTable at hj
      omega)
  unfold pagingFree4gb
  rw [bind_of_ok (get_apply k), hchunk, bind_of_ok (fetch_some directory k), bind_of_ok hloop]
  exact ⟨_, rfl⟩

theorem Kernel.PageTree.free_returns {S : Set Int} {k : Kernel} {chunk : Nat}
    (h : k.PageTree S chunk) : ∃ k', pagingFree4gb chunk k = .ok ((), k') := by
  obtain ⟨-, directory, tables, hentry, -, hdir, -⟩ := h
  obtain ⟨entries, harray, hframes⟩ := hdir.holds
  refine pagingFree4gb_returns hentry harray fun j hj => ?_
  rw [hframes j hj]
  exact hdir.apart j hj

theorem taskFree_returns {k : Kernel} {task : Nat} {t : Task} {tasks : Tasks}
    (ht : k.scheduler.tasks.store task = some t)
    (hdirectory : ∃ k', pagingFree4gb t.pageDirectory k = .ok ((), k'))
    (hlist : taskFreeUnlink k.scheduler.tasks task = some tasks) :
    ∃ k', taskFree task k = .ok ((), k') ∧ k'.scheduler = { k.scheduler with tasks } := by
  obtain ⟨k₁, hfree⟩ := hdirectory
  have hsame : k₁.scheduler = k.scheduler :=
    Kept.run (inferInstance : Kept SameScheduler (pagingFree4gb t.pageDirectory)) hfree
  have hunlink : tasksRun (fun ts => taskFreeUnlink ts task) k₁ =
      .ok ((), { k₁ with scheduler := { k₁.scheduler with tasks } }) := by
    unfold tasksRun schedulerRun
    dsimp only
    rw [hsame, hlist]
    rfl
  unfold taskFree
  rw [bind_of_ok (get_apply k), ht, bind_of_ok (fetch_some t k), bind_of_ok hfree,
    bind_of_ok hunlink]
  exact ⟨_, rfl, congrArg (fun s : Scheduler => { s with tasks }) hsame⟩

theorem Kernel.TaskTree.free_returns {T : Set Int} {k : Kernel} {task : Nat} {tasks : Tasks}
    (h : k.TaskTree T task) (hlist : taskFreeUnlink k.scheduler.tasks task = some tasks) :
    ∃ k', taskFree task k = .ok ((), k') := by
  obtain ⟨-, chunk, hchunk, htree⟩ := h
  obtain ⟨t, ht, rfl⟩ := Option.map_eq_some_iff.mp hchunk
  obtain ⟨k', hfree, -⟩ := taskFree_returns ht htree.free_returns hlist
  exact ⟨k', hfree⟩

theorem processFreeProgramData_returns {S : Set Int} {k : Kernel} {process : Nat} {p : Process}
    (hp : k.scheduler.store process = some p) (h : k.ProgramTree S p) :
    ∃ k', processFreeProgramData process k = .ok (allOk, k') := by
  unfold processFreeProgramData
  rw [bind_of_ok (get_apply k), hp, bind_of_ok (fetch_some p k)]
  rcases h with ⟨htype, -, file, hfile, -⟩ | ⟨htype, -⟩
  · rw [if_neg (by rw [htype]; decide), if_pos htype]
    obtain ⟨k₁, hclose⟩ : ∃ k₁, elfClose p.ptr k = .ok ((), k₁) := by
      unfold elfClose
      by_cases hnull : p.ptr = 0
      · exact ⟨k, by rw [if_pos hnull]; rfl⟩
      · rw [if_neg hnull, bind_of_ok (get_apply k), hfile, bind_of_ok (fetch_some file k)]
        exact ⟨_, rfl⟩
    rw [bind_of_ok hclose]
    exact ⟨k₁, rfl⟩
  · rw [if_pos htype]
    exact ⟨_, rfl⟩

theorem processFree_null_returns {S T : Set Int} {k : Kernel} {process : Nat} {p : Process}
    (h : k.ProcessTree S T process p) : ∃ k', processFree process 0 k = .ok ((), k') := by
  obtain ⟨a, hfound⟩ := processGetAllocationByAddrLoop_isSome boiosMaxProgramAllocations 0
    (le_refl 0) (by decide) (h.allocations 0 (by decide))
  obtain ⟨-, -, -, hnull⟩ := processGetAllocationByAddr_some hfound
  obtain ⟨-, chunk, hchunk, -, directory, tables, hentry, -, hdir, -⟩ := h.task
  obtain ⟨t, ht, rfl⟩ := Option.map_eq_some_iff.mp hchunk
  obtain ⟨pages, hmap, -⟩ := processMapAllocation_null hdir hentry hnull
  unfold processFree
  rw [bind_of_ok (get_apply k), h.stored, bind_of_ok (fetch_some p k)]
  rw [show processGetAllocationByAddr p 0 = some a from hfound]
  dsimp only
  rw [ht, bind_of_ok (fetch_some t k), bind_of_ok (pagingRun_of_ok hmap), if_neg (by decide)]
  exact ⟨_, rfl⟩

theorem processTerminateAllocationsLoop_returns {P S T : Set Int} {k : Kernel} {process : Nat}
    {p : Process} {count i : Nat} (hroom : i + count ≤ boiosMaxProgramAllocations)
    (hguards : k.heap.GuardsBoth P S T) (h : k.ProcessTree S T process p)
    (hprocess : k.heap.blockOf process ∉ P) :
    ∃ k', processTerminateAllocationsLoop process count i k = .ok ((), k') := by
  induction count generalizing i k p with
  | zero => exact ⟨k, rfl⟩
  | succ count ih =>
    obtain ⟨k₁, hfree⟩ := processFree_null_returns h
    have hstep := processFree_null_exiting hguards h hprocess hfree
    obtain ⟨p₁, htree, -⟩ := hstep.tree
    obtain ⟨k', hrest⟩ := ih (i := i + 1) (by omega) hstep.guards htree
      (by rw [hstep.frame.blockOf]; exact hprocess)
    refine ⟨k', ?_⟩
    unfold processTerminateAllocationsLoop
    rw [bind_of_ok (get_apply k), h.stored, bind_of_ok (fetch_some p k), h.allocations i (by omega),
      bind_of_ok hfree]
    exact hrest

theorem processReturnMemory_returns {P S T : Set Int} {k : Kernel} {process : Nat} {p : Process}
    {tasks : Tasks} (hguards : k.heap.GuardsBoth P S T) (h : k.ProcessTree S T process p)
    (hprocess : k.heap.blockOf process ∉ P)
    (hlist : taskFreeUnlink k.scheduler.tasks p.task = some tasks) :
    ∃ k', processReturnMemory process k = .ok (allOk, k') := by
  obtain ⟨k₁, hallocations⟩ := processTerminateAllocationsLoop_returns
    (by omega : 0 + boiosMaxProgramAllocations ≤ _) hguards h hprocess
  have hexit := processTerminateAllocationsLoop_spec (by omega) hguards h hprocess hallocations
  obtain ⟨p₁, htree, -, htask⟩ := hexit.tree
  obtain ⟨k₂, hdata⟩ := processFreeProgramData_returns htree.stored htree.program
  obtain ⟨-, hgone⟩ := processFreeProgramData_spec hexit.guards.image htree.stored htree.program hdata
  have hstored : k₂.scheduler.store process = some p₁ := by
    rw [hgone.scheduler]
    exact htree.stored
  let k₃ : Kernel := { k₂ with heap := heapFree k₂.heap p₁.stack }
  have hgone₃ := hgone.trans (.of_kfree hgone.frame.guards
    (hgone.keeps _ _ (hexit.guards.image.freeable htree.stack)) (kfree_apply p₁.stack k₂))
  have hlist₃ : taskFreeUnlink k₃.scheduler.tasks p₁.task = some tasks := by
    rw [hgone₃.scheduler, hexit.lists.tasks, htask]
    exact hlist
  obtain ⟨k₄, hfree⟩ :=
    (htree.task.frame hgone₃.frame Set.subset_union_right).free_returns hlist₃
  refine ⟨k₄, ?_⟩
  unfold processReturnMemory
  rw [bind_of_ok (show processTerminateAllocations process k = .ok ((), k₁) from hallocations),
    bind_of_ok hdata, if_neg (by decide), bind_of_ok (get_apply k₂), hstored,
    bind_of_ok (fetch_some p₁ k₂), bind_of_ok (kfree_apply ..), bind_of_ok hfree]
  rfl

theorem processTerminate_returns {P S T : Set Int} {k : Kernel} {process : Nat} {p : Process}
    {tasks : Tasks} (hguards : k.heap.GuardsBoth P S T) (h : k.ProcessTree S T process p)
    (hprocess : k.heap.blockOf process ∉ P)
    (hlist : taskFreeUnlink k.scheduler.tasks p.task = some tasks)
    (hcurrent : k.scheduler.currentProcess ≠ process) :
    ∃ k', KernelM.processTerminate process k = .ok (allOk, k') := by
  obtain ⟨k₁, hmemory⟩ := processReturnMemory_returns hguards h hprocess hlist
  obtain ⟨-, -, -, hsame, p', hp', -⟩ := processReturnMemory_spec hguards h hprocess hmemory
  obtain ⟨s, hunlink⟩ : ∃ s, processUnlink k₁.scheduler process = .ok s := by
    unfold processUnlink
    rw [hp']
    dsimp only [access_some, Except.bind]
    rw [hsame, if_neg hcurrent]
    exact ⟨_, rfl⟩
  have hrun : schedulerRun (fun s => processUnlink s process) k₁ =
      .ok ((), { k₁ with scheduler := s }) := by
    unfold schedulerRun
    dsimp only
    rw [hunlink]
    rfl
  rw [processTerminate_eq, bind_of_ok hmemory, if_neg (by decide), bind_of_ok hrun]
  exact ⟨_, rfl⟩

theorem processLoad_exits {k k₁ : Kernel} {filename : List UInt8} {r : Int × Nat}
    (h : k.heap.WellFormed) (hnull : k.NullFree) (h0 : 0 ∉ filename)
    (hempty : k.scheduler.tasks.Owned []) (hcurrent : k.scheduler.currentProcess = 0)
    (hload : KernelM.processLoad filename k = .ok (r, k₁)) (hres : 0 ≤ r.1) :
    ∃ k₂, KernelM.processTerminate r.2 k₁ = .ok (allOk, k₂) := by
  obtain ⟨-, slot, -, -, -, hloaded⟩ := processLoad_loaded h.guards hnull h0 hload hres
  obtain ⟨S, T, p, hguards, htree, -⟩ := hloaded.tree
  obtain ⟨task, pageDirectory, ip, hne, -, hlink⟩ := hloaded.tasks
  obtain ⟨linked, hlink', howned, -⟩ := taskNewLink_empty hempty hne pageDirectory r.2 ip
  obtain rfl := Option.some.inj (hlink.symm.trans hlink')
  have hself : p.task = task := by
    obtain ⟨-, chunk, hchunk, -⟩ := htree.task
    by_contra hother
    rw [howned.gone p.task (by rwa [List.mem_singleton])] at hchunk
    cases hchunk
  obtain ⟨left, hunlink, -⟩ := taskFreeUnlink_single howned
  have hapart : k₁.heap.GuardsBoth ∅ S T := by
    refine ⟨hguards.guards.mono ?_, fun b _ => Set.notMem_empty b, fun b hb hin => ?_⟩
    · rw [Set.empty_union]
      exact Set.union_subset_union_left T Set.subset_union_right
    · rw [Set.empty_union] at hin
      exact hguards.apartTask b hb (Or.inr hin)
  refine processTerminate_returns hapart htree (Set.notMem_empty _) (by rw [hself]; exact hunlink) ?_
  rw [hloaded.currentProcess, hcurrent]
  exact hloaded.nonnull.symm

/-! The flat binary of one byte again, with enough memory. -/

def firstKernel : Kernel := { binaryKernel with heap := (emptyKernel 1051).heap }

theorem firstKernel_wellFormed : firstKernel.heap.WellFormed :=
  emptyKernel_wellFormed (by decide)

theorem firstKernel_nullFree : firstKernel.NullFree := ⟨rfl, rfl, rfl⟩

theorem firstKernel_tasks : firstKernel.scheduler.tasks.Owned [] :=
  ⟨⟨rfl, rfl, trivial, Or.inr ⟨rfl, rfl⟩⟩, List.nodup_nil, List.not_mem_nil, fun _ _ => rfl⟩

theorem firstKernel_reachesTask : ∃ k p, ReachesTask binaryName 0 firstKernel 0x1000000 k ∧
    k.scheduler.store 0x1000000 = some p ∧ p.filetype = processFileTypeBin ∧ p.size = 1 ∧
      k.scheduler.tasks.taskHead = 0 ∧ 1027 ≤ k.heap.freeBlocks := by
  have hvalue : value? ((do
      let process ← processLoadForTask binaryName 0
      let k ← get
      pure (process, (k.scheduler.store 0x1000000).map fun p => (p.filetype, p.size),
        k.scheduler.tasks.taskHead, decide (1027 ≤ k.heap.freeBlocks)) :
        KernelM (Option Nat × Option (Nat × Nat) × Nat × Bool)) firstKernel) =
      some (some 0x1000000, some (processFileTypeBin, 1), 0, true) := by
    decide +kernel
  obtain ⟨k, h⟩ := exists_of_value? hvalue
  obtain ⟨process, k₁, hload, h⟩ := bind_eq_ok.mp h
  replace h := bind_get_eq_ok.mp h
  obtain ⟨hseen, rfl⟩ := pure_eq_ok.mp h
  simp only [Prod.mk.injEq, decide_eq_true_eq] at hseen
  obtain ⟨rfl, hprocess, hhead, hroom⟩ := hseen
  obtain ⟨p, hp, hprogram⟩ := Option.map_eq_some_iff.mp hprocess
  obtain ⟨htype, hsize⟩ := Prod.mk.inj hprogram
  exact ⟨_, p, hload, hp, htype, hsize, hhead, hroom⟩

theorem firstKernel_loads :
    ∃ k, KernelM.processLoad binaryName firstKernel = .ok ((0, 0x1000000), k) := by
  obtain ⟨k, p, hreaches, hp, htype, hsize, hhead, hroom⟩ := firstKernel_reachesTask
  obtain ⟨k', hload, -⟩ := processLoadForSlot_returns firstKernel_wellFormed.guards
    firstKernel_nullFree (by decide) hreaches hp htype (by omega) (Or.inl hhead) hroom
  refine ⟨k', ?_⟩
  have hslot : processGetFreeSlot firstKernel.scheduler = 0 := by decide
  unfold KernelM.processLoad
  rw [bind_of_ok (get_apply _), hslot, if_neg (by decide)]
  exact hload

end BoiOS
