import BoiOS.Task.ExitReturns
import BoiOS.Task.RoundRobin
import BoiOS.Task.SchedulerFrame

/-! The task that runs after an exit. Freeing the task moves the cursor on, and the switch that
follows moves it on once more. -/
namespace BoiOS
open Library.DoublyLinked Library.StateRun Library.Transition

/-! The cursor. -/

theorem Tasks.Owned.ne_of_mem_others {ts : Tasks} {l r : List Nat} {task b : Nat}
    (h : ts.Owned (l ++ task :: r)) (hb : b ∈ l ++ r) : b ≠ task := by
  rintro rfl
  have hnodup := List.nodup_append.mp h.nodup
  rcases List.mem_append.mp hb with hb | hb
  · exact hnodup.2.2 b hb b (List.mem_cons_self ..) rfl
  · exact (List.nodup_cons.mp hnodup.2.1).1 hb

theorem Tasks.Owned.zero_not_mem_others {ts : Tasks} {l r : List Nat} {task : Nat}
    (h : ts.Owned (l ++ task :: r)) : 0 ∉ l ++ r := fun hmem => h.nonnull (by
  rcases List.mem_append.mp hmem with hmem | hmem
  · exact List.mem_append_left _ hmem
  · exact List.mem_append_right _ (List.mem_cons_of_mem task hmem))

theorem taskFreeUnlink_head {ts : Tasks} {r : List Nat} {task b : Nat}
    (h : ts.Owned (task :: b :: r)) (hcurrent : ts.currentTask = task) :
    ∃ ts', taskFreeUnlink ts task = some ts' ∧ ts'.Scheduled (b :: r) ∧ ts'.currentTask = b := by
  have howned : ts.Owned ([] ++ task :: (b :: r)) := h
  have hnonnull := howned.zero_not_mem_others
  obtain ⟨t, ht⟩ := h.store_of_mem task (List.mem_cons_self ..)
  have hb : b ≠ 0 := by
    rintro rfl
    exact hnonnull (List.mem_cons_self ..)
  have hnext : t.next = b := by
    have hn := howned.linked.links.next_eq
    simpa [Tasks.nextOf, ht] using hn
  have hprev : t.prev = 0 := by
    have hp := howned.linked.links.prev_eq
    simpa [Tasks.prevOf, ht] using hp
  have hhead : ts.taskHead = task := h.linked.head
  have hfree : taskFreeUnlink ts task = some ⟨Function.update ts.store task none, b,
      if task = ts.taskTail then 0 else ts.taskTail, b⟩ := by
    by_cases htail : task = ts.taskTail
    · simp [taskFreeUnlink, taskListRemove, taskListRemoveLinks, taskListRemoveCursors,
        taskGetNext, ht, hprev, hnext, hcurrent, hhead, hb, ← htail]
    · simp [taskFreeUnlink, taskListRemove, taskListRemoveLinks, taskListRemoveCursors,
        taskGetNext, ht, hprev, hnext, hcurrent, hhead, hb, htail]
  refine ⟨_, hfree, ⟨rfl, ?_, hnonnull⟩, rfl⟩
  refine howned.linked.links.chained.2.congr fun c hc => ?_
  simp [Tasks.nextOf, howned.ne_of_mem_others hc]

theorem taskFreeUnlink_behind {ts : Tasks} {l r : List Nat} {a task : Nat}
    (h : ts.Owned (l ++ a :: task :: r)) (hcurrent : ts.currentTask = task) :
    ∃ ts', taskFreeUnlink ts task = some ts' ∧ ts'.Scheduled (l ++ a :: r) ∧
      ts'.currentTask = r.headD ts.taskHead := by
  have howned : ts.Owned ((l ++ [a]) ++ task :: r) := by
    rwa [List.append_assoc, List.singleton_append]
  have hrest : (l ++ [a]) ++ r = l ++ a :: r := by rw [List.append_assoc, List.singleton_append]
  have hgone : ∀ b ∈ l ++ a :: r, b ≠ task := by
    intro b hb
    rw [← hrest] at hb
    exact howned.ne_of_mem_others hb
  have hnonnull := howned.zero_not_mem_others
  rw [hrest] at hnonnull
  obtain ⟨t, ht⟩ := howned.store_of_mem task (by simp)
  obtain ⟨ta, hta⟩ := h.store_of_mem a (by simp)
  have hnext : t.next = r.headD 0 := by
    have hn := howned.linked.links.next_eq
    simpa [Tasks.nextOf, ht] using hn
  have hprev : t.prev = a := by
    have hp := howned.linked.links.prev_eq
    rw [getLastD_append_singleton] at hp
    simpa [Tasks.prevOf, ht] using hp
  have hane : a ≠ 0 := by
    rintro rfl
    exact hnonnull (by simp)
  have hatask : a ≠ task := hgone a (by simp)
  have hheadmem : ts.taskHead ∈ l ++ a :: r := by
    rw [h.linked.head]
    cases l <;> simp
  have hhead : ¬ task = ts.taskHead := fun heq => hgone _ hheadmem heq.symm
  let store' := Function.update
    (Function.update ts.store a (some { ta with next := t.next })) task none
  have hfree : taskFreeUnlink ts task = some ⟨store',
      if t.next = 0 then ts.taskHead else t.next, if task = ts.taskTail then a else ts.taskTail,
      ts.taskHead⟩ := by
    by_cases htail : task = ts.taskTail
    · simp [taskFreeUnlink, taskListRemove, taskListRemoveLinks, taskListRemoveCursors,
        taskGetNext, Tasks.modify, ht, hta, hprev, hane, hatask.symm, hhead, hcurrent, ← htail,
        store']
      split <;> rfl
    · simp [taskFreeUnlink, taskListRemove, taskListRemoveLinks, taskListRemoveCursors,
        taskGetNext, Tasks.modify, ht, hta, hprev, hane, hatask.symm, hhead, hcurrent, htail,
        store']
      split <;> rfl
  refine ⟨_, hfree, ⟨?_, ?_, hnonnull⟩, ?_⟩
  · rw [h.linked.head]
    cases l <;> rfl
  · refine h.linked.links.chained.remove (fun b hb => ?_) ?_
    · have hba : b ≠ a := by
        rintro rfl
        have hnodup := h.nodup
        rw [List.nodup_append, List.nodup_cons] at hnodup
        rcases List.mem_append.mp hb with hb | hb
        · exact hnodup.2.2 b hb b (List.mem_cons_self ..) rfl
        · exact hnodup.2.1.1 (List.mem_cons_of_mem task hb)
      have hbtask : b ≠ task := by
        refine hgone b ?_
        rcases List.mem_append.mp hb with hb | hb
        · exact List.mem_append_left _ hb
        · exact List.mem_append_right _ (List.mem_cons_of_mem a hb)
      simp [Tasks.nextOf, store', hba, hbtask]
    · simp [Tasks.nextOf, store', hatask, hnext]
  · cases r with
    | nil =>
      have hzero : t.next = 0 := hnext
      rw [if_pos hzero]
      rfl
    | cons b r =>
      have hb : t.next = b := hnext
      have hne : b ≠ 0 := by
        rintro rfl
        exact hnonnull (by simp)
      rw [hb, if_neg hne]
      rfl

theorem taskFreeUnlink_current {ts : Tasks} {l r : List Nat} {task : Nat}
    (h : ts.Owned (l ++ task :: r)) (hcurrent : ts.currentTask = task) (hothers : l ++ r ≠ []) :
    ∃ ts', taskFreeUnlink ts task = some ts' ∧ ts'.Scheduled (l ++ r) ∧
      (l ++ r)[l.length % (l ++ r).length]? = some ts'.currentTask := by
  rcases List.eq_nil_or_concat l with rfl | ⟨l, a, rfl⟩
  · cases r with
    | nil => exact absurd rfl hothers
    | cons b r =>
      obtain ⟨ts', hfree, hscheduled, hnext⟩ := taskFreeUnlink_head h hcurrent
      refine ⟨ts', hfree, hscheduled, ?_⟩
      rw [hnext]
      rfl
  · rw [List.concat_eq_append, List.append_assoc, List.singleton_append] at h
    obtain ⟨ts', hfree, hscheduled, hnext⟩ := taskFreeUnlink_behind h hcurrent
    have hrest : l.concat a ++ r = l ++ a :: r := by
      rw [List.concat_eq_append, List.append_assoc, List.singleton_append]
    rw [hrest, List.length_concat]
    refine ⟨ts', hfree, hscheduled, ?_⟩
    rw [hnext]
    cases r with
    | nil =>
      rw [h.linked.head]
      cases l <;> simp
    | cons b r =>
      rw [Nat.mod_eq_of_lt (by simp), List.getElem?_append_right (by simp)]
      simp

theorem successor_eq {l r : List Nat} {task : Nat} (hothers : l ++ r ≠ []) :
    (l ++ task :: r)[(l.length + 1) % (l ++ task :: r).length]? =
      (l ++ r)[l.length % (l ++ r).length]? := by
  cases r with
  | nil =>
    have hl : l ≠ [] := by simpa using hothers
    obtain ⟨a, l, rfl⟩ := List.exists_cons_of_ne_nil hl
    simp
  | cons b r =>
    have hlive : (l ++ task :: b :: r).length = l.length + r.length + 2 := by
      simp
      omega
    have hrest : (l ++ b :: r).length = l.length + r.length + 1 := by
      simp
      omega
    rw [hlive, hrest, Nat.mod_eq_of_lt (by omega), Nat.mod_eq_of_lt (by omega),
      List.getElem?_append_right (by omega), List.getElem?_append_right (by omega)]
    simp

/-- The task that is entered after the current one was freed is its successor if there is no other
task. -/
theorem taskNext_freed {s : Scheduler} {ts : Tasks} {live : List Nat} {i task : Nat}
    (h : ts.Owned live) (hmany : 2 ≤ live.length) (htask : live[i]? = some task)
    (hcurrent : ts.currentTask = task) :
    ∃ ts' entered, taskFreeUnlink ts task = some ts' ∧
      taskNext { s with tasks := ts' } =
        .ok { s with tasks := { ts' with currentTask := entered } } ∧
      (live[(i + 1) % live.length]? = some entered ↔ live.length = 2) := by
  obtain ⟨hi, hget⟩ := List.getElem?_eq_some_iff.mp htask
  obtain ⟨l, r, hlive, hlength⟩ : ∃ l r, live = l ++ task :: r ∧ l.length = i :=
    ⟨live.take i, live.drop (i + 1), by rw [← hget]; simp, by simp; omega⟩
  rw [hlive] at h
  have hcount : live.length = (l ++ r).length + 1 := by
    rw [hlive]
    simp
    omega
  have hothers : l ++ r ≠ [] := by
    intro hempty
    rw [hempty, List.length_nil] at hcount
    omega
  have hnodup : (l ++ r).Nodup :=
    h.nodup.sublist (List.Sublist.append_left (List.sublist_cons_self task r) l)
  obtain ⟨ts', hfree, hscheduled, hsuccessor⟩ := taskFreeUnlink_current h hcurrent hothers
  obtain ⟨entered, hentered, hnext⟩ :=
    taskNext_scheduled (s := { s with tasks := ts' }) hscheduled hsuccessor
  refine ⟨ts', entered, hfree, hnext, ?_⟩
  rw [← hlength, hlive, successor_eq hothers, ← hlive, hcount]
  obtain ⟨hlt, hget'⟩ := List.getElem?_eq_some_iff.mp hentered
  have hmod : l.length % (l ++ r).length < (l ++ r).length := Nat.mod_lt _ (by omega)
  have hat : (l ++ r)[l.length % (l ++ r).length]? = some entered ↔
      l.length % (l ++ r).length = (l.length % (l ++ r).length + 1) % (l ++ r).length := by
    rw [List.getElem?_eq_getElem hmod, Option.some.injEq, ← hget',
      List.Nodup.getElem_inj_iff hnodup]
  rw [hat]
  by_cases hlast : l.length % (l ++ r).length + 1 < (l ++ r).length
  · rw [Nat.mod_eq_of_lt hlast]
    omega
  · rw [show l.length % (l ++ r).length + 1 = (l ++ r).length by omega, Nat.mod_self]
    omega

/-! The exit. -/

structure SameTask (process : Nat) (k k' : Kernel) : Prop where
  tasks : k'.scheduler.tasks = k.scheduler.tasks
  program : (k'.scheduler.store process).map (fun p => (p.task, p.filetype)) =
    (k.scheduler.store process).map fun p => (p.task, p.filetype)

variable {process : Nat}

instance : Std.Refl (SameTask process) := ⟨fun _ => ⟨rfl, rfl⟩⟩

instance : IsTrans Kernel (SameTask process) :=
  ⟨fun _ _ _ h h' => ⟨h'.tasks.trans h.tasks, h'.program.trans h.program⟩⟩

instance (priority := low) {α : Type} (x : KernelM α) [hx : Kept SameScheduler x] :
    Kept (SameTask process) x := by
  constructor
  intro k a k' h
  have hsame : k'.scheduler = k.scheduler := hx.run h
  exact ⟨by rw [hsame], by rw [hsame]⟩

theorem sameTask_putProcess {k k₁ : Kernel} {p p' : Process}
    (hp : k.scheduler.store process = some p) (hsame : k₁.scheduler = k.scheduler)
    (htask : p'.task = p.task) (hkind : p'.filetype = p.filetype) :
    SameTask process k (putProcess process p' k₁) := by
  refine ⟨by rw [← hsame]; rfl, ?_⟩
  rw [putProcess_store_self, hp, Option.map_some, Option.map_some, htask, hkind]

instance (ptr : Nat) : Kept (SameTask process) (processFree process ptr) := by
  constructor
  intro k u k' h
  cases processFree_eq_ok h with
  | notFound => exact Std.Refl.refl k
  | unmapped => exact ⟨rfl, rfl⟩
  | freed p task i res pages hp => exact sameTask_putProcess hp rfl rfl rfl

instance (count i : Nat) :
    Kept (SameTask process) (processTerminateAllocationsLoop process count i) := by
  induction count generalizing i with
  | zero => exact kept_pure _
  | succ count ih =>
    unfold processTerminateAllocationsLoop
    infer_instance

instance : Kept (SameTask process) (processTerminateAllocations process) := by
  unfold processTerminateAllocations
  infer_instance

def KernelM.idtHandleException : KernelM Unit := do
  let k ← get
  let process ← fetch (taskCurrentProcess k.scheduler.tasks)
  let _ ← KernelM.processTerminate process
  schedulerRun taskNext

theorem processFreeProgramData_eq_ok {k k' : Kernel} {p : Process} {res : Int}
    (hp : k.scheduler.store process = some p)
    (hkind : p.filetype = processFileTypeElf ∨ p.filetype = processFileTypeBin)
    (hrun : processFreeProgramData process k = .ok (res, k')) : res = allOk := by
  unfold processFreeProgramData at hrun
  replace hrun := bind_get_eq_ok.mp hrun
  obtain ⟨p', hp', hrun⟩ := bind_fetch_eq_ok.mp hrun
  obtain rfl := Option.some.inj (hp.symm.trans hp')
  split_ifs at hrun with hbin helf
  · obtain ⟨_, _, -, hrun⟩ := bind_eq_ok.mp hrun
    exact (pure_eq_ok.mp hrun).1.symm
  · obtain ⟨_, _, -, hrun⟩ := bind_eq_ok.mp hrun
    exact (pure_eq_ok.mp hrun).1.symm
  · exact absurd hkind (not_or.mpr ⟨helf, hbin⟩)

theorem taskFree_tasks {k k' : Kernel} {task : Nat} {u : Unit}
    (hrun : taskFree task k = .ok (u, k')) :
    taskFreeUnlink k.scheduler.tasks task = some k'.scheduler.tasks := by
  unfold taskFree at hrun
  replace hrun := bind_get_eq_ok.mp hrun
  obtain ⟨t, -, hrun⟩ := bind_fetch_eq_ok.mp hrun
  obtain ⟨_, k₁, hdirectory, hrun⟩ := bind_eq_ok.mp hrun
  obtain ⟨_, k₂, hunlink, hfree⟩ := bind_eq_ok.mp hrun
  have hsame₁ : k₁.scheduler = k.scheduler :=
    Kept.run (inferInstance : Kept SameScheduler (pagingFree4gb t.pageDirectory)) hdirectory
  have hsame₂ : k'.scheduler = k₂.scheduler :=
    Kept.run (inferInstance : Kept SameScheduler (kfree task)) hfree
  obtain ⟨tasks, htasks, hk₂⟩ := tasksRun_eq_ok hunlink
  rw [hsame₁] at htasks
  rw [htasks, hsame₂, hk₂]

theorem processTerminate_tasks {k k' : Kernel} {p : Process} {res : Int}
    (hp : k.scheduler.store process = some p)
    (hkind : p.filetype = processFileTypeElf ∨ p.filetype = processFileTypeBin)
    (hrun : KernelM.processTerminate process k = .ok (res, k')) :
    taskFreeUnlink k.scheduler.tasks p.task = some k'.scheduler.tasks := by
  unfold KernelM.processTerminate at hrun
  obtain ⟨_, k₁, hallocations, hrun⟩ := bind_eq_ok.mp hrun
  have hsame₁ : SameTask process k k₁ := Kept.run inferInstance hallocations
  have hprogram := hsame₁.program
  rw [hp, Option.map_some, Option.map_eq_some_iff] at hprogram
  obtain ⟨p₁, hp₁, hprogram⟩ := hprogram
  obtain ⟨htask₁, hkind₁⟩ := Prod.mk.inj hprogram
  obtain ⟨res', k₂, hdata, hrun⟩ := bind_eq_ok.mp hrun
  have hok := processFreeProgramData_eq_ok hp₁ (hkind₁ ▸ hkind) hdata
  have hsame₂ : k₂.scheduler = k₁.scheduler :=
    Kept.run (inferInstance : Kept SameScheduler (processFreeProgramData process)) hdata
  rw [hok, if_neg (by decide)] at hrun
  replace hrun := bind_get_eq_ok.mp hrun
  obtain ⟨p₂, hp₂, hrun⟩ := bind_fetch_eq_ok.mp hrun
  rw [hsame₂, hp₁, Option.some.injEq] at hp₂
  obtain ⟨_, k₃, hstack, hrun⟩ := bind_eq_ok.mp hrun
  have hsame₃ : k₃.scheduler = k₂.scheduler :=
    Kept.run (inferInstance : Kept SameScheduler (kfree p₂.stack)) hstack
  obtain ⟨_, k₄, hfree, hrun⟩ := bind_eq_ok.mp hrun
  obtain ⟨_, k₅, hunlink, hrun⟩ := bind_eq_ok.mp hrun
  obtain ⟨-, rfl⟩ := pure_eq_ok.mp hrun
  obtain ⟨s, hs, hk₅⟩ := schedulerRun_eq_ok hunlink
  have htasks := taskFree_tasks hfree
  rw [hsame₃, hsame₂, hsame₁.tasks, ← hp₂, htask₁] at htasks
  rw [htasks, hk₅, (processUnlink_same hs).2]

theorem isr80hCommand9Exit_tasks {k k' : Kernel} {p : Process}
    (hprocess : taskCurrentProcess k.scheduler.tasks = some process)
    (hp : k.scheduler.store process = some p)
    (hkind : p.filetype = processFileTypeElf ∨ p.filetype = processFileTypeBin)
    (hrun : KernelM.isr80hCommand9Exit k = .ok ((), k')) :
    ∃ s, taskFreeUnlink k.scheduler.tasks p.task = some s.tasks ∧
      taskNext s = .ok k'.scheduler := by
  unfold KernelM.isr80hCommand9Exit at hrun
  replace hrun := bind_get_eq_ok.mp hrun
  obtain ⟨process', hprocess', hrun⟩ := bind_fetch_eq_ok.mp hrun
  obtain rfl := Option.some.inj (hprocess.symm.trans hprocess')
  obtain ⟨res, k₁, hterminate, hswitch⟩ := bind_eq_ok.mp hrun
  obtain ⟨s, hs, hk'⟩ := schedulerRun_eq_ok hswitch
  refine ⟨k₁.scheduler, processTerminate_tasks hp hkind hterminate, ?_⟩
  rw [hk', hs]

/-- The next task is the successor of the task that leaves exactly if there are two tasks: in a
longer list the successor is skipped. -/
theorem exit_enters_successor_iff {k k' : Kernel} {exit : KernelM Unit} {live : List Nat} {i : Nat}
    {p : Process}
    (hexit : exit = KernelM.isr80hCommand9Exit ∨ exit = KernelM.idtHandleException)
    (h : k.scheduler.tasks.Owned live) (hmany : 2 ≤ live.length)
    (hcurrent : live[i]? = some k.scheduler.tasks.currentTask)
    (hprocess : taskCurrentProcess k.scheduler.tasks = some process)
    (hp : k.scheduler.store process = some p) (htask : p.task = k.scheduler.tasks.currentTask)
    (hkind : p.filetype = processFileTypeElf ∨ p.filetype = processFileTypeBin)
    (hrun : exit k = .ok ((), k')) :
    live[(i + 1) % live.length]? = some k'.scheduler.tasks.currentTask ↔ live.length = 2 := by
  have hboth : KernelM.idtHandleException = KernelM.isr80hCommand9Exit := rfl
  rw [hboth, or_self] at hexit
  rw [hexit] at hrun
  obtain ⟨s, hfreed, hs⟩ := isr80hCommand9Exit_tasks hprocess hp hkind hrun
  obtain ⟨ts, entered, hts, hnext, hiff⟩ := taskNext_freed (s := s) h hmany hcurrent rfl
  rw [← htask, hfreed, Option.some.injEq] at hts
  rw [← hts, hs, Except.ok.injEq] at hnext
  rw [hnext]
  exact hiff

/-! The exit of a flat binary that has asked for no memory returns. -/

/-- An entry that is not used passes for an allocation at null. To free it reaches no further than
the heap. -/
theorem processFree_unasked {k : Kernel} {p : Process} {t : Task}
    (hp : k.scheduler.store process = some p) (hnone : ∀ j, p.allocations j = ⟨0, 0⟩)
    (ht : k.scheduler.tasks.store p.task = some t) :
    processFree process 0 k = .ok ((), { k with heap := heapFree k.heap 0 }) := by
  obtain ⟨a, hfound⟩ := processGetAllocationByAddrLoop_isSome boiosMaxProgramAllocations 0
    (le_refl 0) (by decide) (congrArg ProcessAllocation.ptr (hnone 0))
  obtain ⟨j, -, rfl, -⟩ := processGetAllocationByAddr_some hfound
  have hunjoin : processAllocationUnjoin p 0 = p := by
    have hentries : p.allocations = fun _ => ⟨0, 0⟩ := funext hnone
    unfold processAllocationUnjoin
    simp only [hnone, and_true, ite_self]
    rw [← hentries]
  have hput : putProcess process p k = k := by
    unfold putProcess
    rw [← hp, Function.update_eq_self]
  have hmap : processMapAllocation t.pageDirectory (p.allocations j) 0 k.pages =
      .ok (0, k.pages) := by
    have hend : pagingAlignAddress (u32 (((0 : Nat) : Int) + (0 : Nat))) = 0 := by decide +kernel
    unfold processMapAllocation
    rw [hnone j, hend]
    rfl
  unfold processFree
  rw [bind_of_ok (get_apply k), hp, bind_of_ok (fetch_some p k)]
  rw [show processGetAllocationByAddr p 0 = some (p.allocations j) from hfound]
  dsimp only
  rw [ht, bind_of_ok (fetch_some t k), bind_of_ok (pagingRun_of_ok hmap), if_neg (by decide),
    hunjoin, bind_of_ok (modify_apply ..), hput]
  exact kfree_apply 0 k

theorem processTerminateAllocationsLoop_unasked {k : Kernel} {p : Process} {t : Task}
    (count : Nat) {i : Nat} (hp : k.scheduler.store process = some p)
    (hnone : ∀ j, p.allocations j = ⟨0, 0⟩) (ht : k.scheduler.tasks.store p.task = some t) :
    ∃ heap, processTerminateAllocationsLoop process count i k = .ok ((), { k with heap }) := by
  induction count generalizing i k with
  | zero => exact ⟨k.heap, rfl⟩
  | succ count ih =>
    obtain ⟨heap, hrest⟩ := ih (i := i + 1) (k := { k with heap := heapFree k.heap 0 }) hp ht
    refine ⟨heap, ?_⟩
    unfold processTerminateAllocationsLoop
    rw [bind_of_ok (get_apply k), hp, bind_of_ok (fetch_some p k), hnone i,
      bind_of_ok (processFree_unasked hp hnone ht)]
    exact hrest

def Scheduler.without (s : Scheduler) (p : Process) (tasks : Tasks) : Scheduler :=
  ⟨s.store, Function.update s.processes p.pid 0, s.currentProcess, tasks⟩

theorem processTerminate_unasked {k : Kernel} {directory : Nat} {p : Process} {t : Task}
    {tasks : Tasks} {entries : Nat → Nat} (hidle : k.scheduler.currentProcess ≠ process)
    (hp : k.scheduler.store process = some p) (hkind : p.filetype = processFileTypeBin)
    (hnone : ∀ j, p.allocations j = ⟨0, 0⟩) (ht : k.scheduler.tasks.store p.task = some t)
    (hlist : taskFreeUnlink k.scheduler.tasks p.task = some tasks)
    (hchunk : k.pages.chunks t.pageDirectory = some directory)
    (harray : k.pages.arrays directory = some entries)
    (hapart : ∀ j < 1024, pagingFrame (entries j) ≠ directory) :
    ∃ k', KernelM.processTerminate process k = .ok (allOk, k') ∧
      k'.scheduler = k.scheduler.without p tasks := by
  obtain ⟨heap, hallocations⟩ :=
    processTerminateAllocationsLoop_unasked boiosMaxProgramAllocations (i := 0) hp hnone ht
  let k₁ : Kernel := { k with heap }
  let k₂ : Kernel := { k with heap := heapFree heap p.ptr }
  let k₃ : Kernel := { k with heap := heapFree (heapFree heap p.ptr) p.stack }
  have hdata : processFreeProgramData process k₁ = .ok (allOk, k₂) := by
    unfold processFreeProgramData
    rw [bind_of_ok (get_apply k₁), show k₁.scheduler.store process = some p from hp,
      bind_of_ok (fetch_some p k₁), if_pos hkind]
    rfl
  obtain ⟨k₄, hfree, hsame⟩ := taskFree_returns (k := k₃) ht
    (pagingFree4gb_returns (k := k₃) hchunk harray hapart) hlist
  have hunlink : schedulerRun (fun s => processUnlink s process) k₄ =
      .ok ((), { k₄ with scheduler := k.scheduler.without p tasks }) := by
    unfold schedulerRun processUnlink
    simp only [hsame]
    rw [show k₃.scheduler.store process = some p from hp]
    dsimp only [access_some, Except.bind]
    rw [if_neg hidle]
    rfl
  refine ⟨{ k₄ with scheduler := k.scheduler.without p tasks }, ?_, rfl⟩
  unfold KernelM.processTerminate
  rw [bind_of_ok (show processTerminateAllocations process k = .ok ((), k₁) from hallocations),
    bind_of_ok hdata, if_neg (by decide), bind_of_ok (get_apply k₂),
    show k₂.scheduler.store process = some p from hp, bind_of_ok (fetch_some p k₂),
    bind_of_ok (kfree_apply ..), bind_of_ok hfree, bind_of_ok hunlink]
  rfl

theorem isr80hCommand9Exit_returns {k : Kernel} {live : List Nat} {i directory : Nat} {p : Process}
    {t : Task} {entries : Nat → Nat} (h : k.scheduler.tasks.Owned live) (hmany : 2 ≤ live.length)
    (hcurrent : live[i]? = some k.scheduler.tasks.currentTask)
    (hprocess : taskCurrentProcess k.scheduler.tasks = some process)
    (hidle : k.scheduler.currentProcess ≠ process)
    (hp : k.scheduler.store process = some p) (htask : p.task = k.scheduler.tasks.currentTask)
    (hkind : p.filetype = processFileTypeBin) (hnone : ∀ j, p.allocations j = ⟨0, 0⟩)
    (ht : k.scheduler.tasks.store p.task = some t)
    (hchunk : k.pages.chunks t.pageDirectory = some directory)
    (harray : k.pages.arrays directory = some entries)
    (hapart : ∀ j < 1024, pagingFrame (entries j) ≠ directory) :
    ∃ k', KernelM.isr80hCommand9Exit k = .ok ((), k') := by
  obtain ⟨ts, entered, hlist, hnext, -⟩ :=
    taskNext_freed (s := k.scheduler.without p k.scheduler.tasks) h hmany hcurrent rfl
  rw [← htask] at hlist
  obtain ⟨k₁, hterminate, hsame⟩ :=
    processTerminate_unasked hidle hp hkind hnone ht hlist hchunk harray hapart
  have hswitch : schedulerRun taskNext k₁ = .ok ((), { k₁ with
      scheduler := k.scheduler.without p { ts with currentTask := entered } }) := by
    unfold schedulerRun
    rw [hsame]
    exact congrArg _ hnext
  unfold KernelM.isr80hCommand9Exit
  rw [bind_of_ok (get_apply k), hprocess, bind_of_ok (fetch_some process k),
    bind_of_ok hterminate]
  exact ⟨_, hswitch⟩

/-! Two and three programs, of which the first leaves. -/

def twoTasksRun : List (TaskCall × TaskRun) :=
  trace TaskRun.next TaskRun.start [.new 0x1000 0 0x100 0, .new 0x2000 0 0x200 0]

theorem twoTasksRun_path : Path TaskRun.step TaskRun.start twoTasksRun :=
  ⟨⟨⟨by decide, by decide⟩, rfl⟩, ⟨⟨by decide, by decide⟩, rfl⟩, trivial⟩

def twoTasks : Tasks := ((last TaskRun.start twoTasksRun).tasks).getD ⟨fun _ => none, 0, 0, 0⟩

theorem twoTasks_owned : twoTasks.Owned [0x1000, 0x2000] := by
  obtain ⟨ts, hts, howned⟩ :=
    (TaskRun.inv_of_new twoTasksRun_path ⟨trivial, trivial, trivial⟩).owned
  have hbuilt : (last TaskRun.start twoTasksRun).tasks = some twoTasks := rfl
  rw [← Option.some.inj (hbuilt.symm.trans hts)] at howned
  exact howned

theorem threeTasks_owned : threeTasks.Owned [0x1000, 0x2000, 0x3000] := by
  obtain ⟨ts, hts, howned⟩ :=
    (TaskRun.inv_of_new threeTasksRun_path ⟨trivial, trivial, trivial, trivial⟩).owned
  have hbuilt : (last TaskRun.start threeTasksRun).tasks = some threeTasks := rfl
  rw [← Option.some.inj (hbuilt.symm.trans hts)] at howned
  exact howned

/-- The process of a task is at a sixteenth of its address. -/
def tinyProcess (process : Nat) : Process :=
  { processInit with
    task := 16 * process, filetype := processFileTypeBin, ptr := boiosHeapAddress
    stack := boiosHeapAddress }

def firstRunning (tasks : Tasks) : Kernel :=
  { emptyKernel 1 with
    scheduler := ⟨fun process => some (tinyProcess process), fun _ => 0, 0, tasks⟩
    pages := ⟨fun _ => some 0x20, fun _ => some fun _ => boiosHeapAddress, []⟩ }

theorem exit_enters_successor_twoTasks :
    ∃ k', KernelM.isr80hCommand9Exit (firstRunning twoTasks) = .ok ((), k') ∧
      ([0x1000, 0x2000][(0 + 1) % 2]? = some k'.scheduler.tasks.currentTask ↔
        [0x1000, 0x2000].length = 2) := by
  obtain ⟨k', hrun⟩ := isr80hCommand9Exit_returns (k := firstRunning twoTasks) (i := 0)
    twoTasks_owned (by decide) rfl rfl (by decide : 0 ≠ 0x100) rfl rfl rfl (fun _ => rfl) rfl rfl rfl
    fun _ _ => by decide
  exact ⟨k', hrun, exit_enters_successor_iff (Or.inl rfl) twoTasks_owned (by decide) rfl rfl rfl rfl
    (Or.inr rfl) hrun⟩

theorem exit_not_always_enters_successor :
    ¬ ∀ (k k' : Kernel) (exit : KernelM Unit) (live : List Nat) (i process : Nat) (p : Process),
      (exit = KernelM.isr80hCommand9Exit ∨ exit = KernelM.idtHandleException) →
      k.scheduler.tasks.Owned live → 2 ≤ live.length →
      live[i]? = some k.scheduler.tasks.currentTask →
      taskCurrentProcess k.scheduler.tasks = some process →
      k.scheduler.store process = some p → p.task = k.scheduler.tasks.currentTask →
      (p.filetype = processFileTypeElf ∨ p.filetype = processFileTypeBin) →
      exit k = .ok ((), k') →
      live[(i + 1) % live.length]? = some k'.scheduler.tasks.currentTask := by
  intro hall
  obtain ⟨k', hrun⟩ := isr80hCommand9Exit_returns (k := firstRunning threeTasks) (i := 0)
    threeTasks_owned (by decide) rfl rfl (by decide : 0 ≠ 0x100) rfl rfl rfl (fun _ => rfl) rfl rfl rfl
    fun _ _ => by decide
  obtain ⟨s, hlist, hs⟩ := isr80hCommand9Exit_tasks (k := firstRunning threeTasks)
    (rfl : _ = some 0x100) rfl (Or.inr rfl) hrun
  obtain ⟨ts, entered, hts, hnext, hiff⟩ :=
    taskNext_freed (s := s) (i := 0) threeTasks_owned (by decide) rfl rfl
  obtain rfl := Option.some.inj (hlist.symm.trans hts)
  rw [hs, Except.ok.injEq] at hnext
  have hsuccessor := hall (firstRunning threeTasks) k' _ _ 0 0x100 _ (Or.inl rfl) threeTasks_owned
    (by decide) rfl rfl rfl rfl (Or.inr rfl) hrun
  rw [hnext] at hsuccessor
  exact absurd (hiff.mp hsuccessor) (by decide)

end BoiOS
