import BoiOS.Library.DoublyLinked
import BoiOS.Library.Transition
import BoiOS.Machine.Words
import Mathlib.Logic.Function.Basic
import Mathlib.Tactic.Linarith

/-! The task list of task/task.c. Tasks live at the addresses the allocator gave them; an
address that holds no task, because it is null, was never allocated or was freed, has no
entry in `store`, and an access through it has no result. -/
namespace BoiOS
open Library.DoublyLinked Library.Transition

structure Registers where
  edi : Nat
  esi : Nat
  ebp : Nat
  ebx : Nat
  edx : Nat
  ecx : Nat
  eax : Nat
  ip : Nat
  cs : Nat
  flags : Nat
  esp : Nat
  ss : Nat
  deriving DecidableEq

structure Task where
  pageDirectory : Nat
  registers : Registers
  next : Nat
  prev : Nat
  process : Nat
  deriving DecidableEq

structure Tasks where
  store : Nat → Option Task
  currentTask : Nat
  taskTail : Nat
  taskHead : Nat

def boiosProgramVirtualAddress : Nat := 0x400000
def boiosProgramVirtualStackAddressStart : Nat := 0x3FF000
def userDataSegment : Nat := 0x23
def userCodeSegment : Nat := 0x1B

/-- What `task_init` leaves in a new task: `ip` is the entry point of the program. -/
def taskInit (pageDirectory process ip : Nat) : Task :=
  { pageDirectory
    registers :=
      { edi := 0, esi := 0, ebp := 0, ebx := 0, edx := 0, ecx := 0, eax := 0, ip
        cs := userCodeSegment, flags := 0, esp := boiosProgramVirtualStackAddressStart
        ss := userDataSegment }
    next := 0
    prev := 0
    process }

namespace Tasks

def modify (ts : Tasks) (task : Nat) (f : Task → Task) : Option Tasks :=
  (ts.store task).map fun t => { ts with store := Function.update ts.store task (some (f t)) }

def nextOf (ts : Tasks) (task : Nat) : Option Nat := (ts.store task).map Task.next

def prevOf (ts : Tasks) (task : Nat) : Option Nat := (ts.store task).map Task.prev

end Tasks

/-- The end of `task_new`: the initialised task at address `task` is added to the list. -/
def taskNewLink (ts : Tasks) (task : Nat) (t : Task) : Option Tasks :=
  let ts := { ts with store := Function.update ts.store task (some t) }
  if ts.taskHead = 0 then some { ts with taskHead := task, taskTail := task, currentTask := task }
  else do
    let ts ← ts.modify ts.taskTail fun tail => { tail with next := task }
    let ts ← ts.modify task fun t => { t with prev := ts.taskTail }
    some { ts with taskTail := task }

def taskGetNext (ts : Tasks) : Option Nat := do
  let current ← ts.store ts.currentTask
  if current.next = 0 then some ts.taskHead else some current.next

/-- The first statement of `task_list_remove`: only the forward link around the task moves. -/
def taskListRemoveLinks (ts : Tasks) (task : Nat) : Option Tasks :=
  (ts.store task).bind fun t =>
    if t.prev ≠ 0 then ts.modify t.prev fun prev => { prev with next := t.next } else some ts

/-- The other statements of `task_list_remove`: the three cursors leave the task. -/
def taskListRemoveCursors (ts : Tasks) (task : Nat) : Option Tasks :=
  (ts.store task).bind fun t =>
    let ts := if task = ts.taskHead then { ts with taskHead := t.next } else ts
    let ts := if task = ts.taskTail then { ts with taskTail := t.prev } else ts
    if task = ts.currentTask then
      (taskGetNext ts).map fun next => { ts with currentTask := next }
    else some ts

def taskListRemove (ts : Tasks) (task : Nat) : Option Tasks :=
  (taskListRemoveLinks ts task).bind fun ts => taskListRemoveCursors ts task

/-- The list's part of `task_free`: after the removal the task's block is released. -/
def taskFreeUnlink (ts : Tasks) (task : Nat) : Option Tasks :=
  (taskListRemove ts task).map fun ts =>
    { ts with store := Function.update ts.store task none }

/-- The tasks of the list in creation order are linked both ways, between the two cursors,
and the current task is one of them. -/
structure Tasks.WellLinked (ts : Tasks) (live : List Nat) : Prop where
  head : ts.taskHead = live.headD 0
  tail : ts.taskTail = live.getLastD 0
  links : Linked ts.nextOf ts.prevOf 0 0 live
  current : ts.currentTask ∈ live ∨ live = [] ∧ ts.currentTask = 0

/-- A well-linked list whose live tasks are exactly the ones in memory. -/
structure Tasks.Owned (ts : Tasks) (live : List Nat) : Prop where
  linked : ts.WellLinked live
  nodup : live.Nodup
  nonnull : 0 ∉ live
  gone : ∀ task, task ∉ live → ts.store task = none

theorem Tasks.modify_eq {ts : Tasks} {task : Nat} {t : Task} (h : ts.store task = some t)
    (f : Task → Task) :
    ts.modify task f = some { ts with store := Function.update ts.store task (some (f t)) } := by
  simp [Tasks.modify, h]

theorem Tasks.Owned.store_of_mem {ts : Tasks} {live : List Nat} (h : ts.Owned live) (task : Nat)
    (hmem : task ∈ live) : ∃ t, ts.store task = some t := by
  have hsome := (h.linked.links.isSome task hmem).1
  unfold Tasks.nextOf at hsome
  rw [Option.isSome_map] at hsome
  exact Option.isSome_iff_exists.mp hsome

theorem getLastD_append_singleton (l : List Nat) (a d : Nat) : (l ++ [a]).getLastD d = a := by
  simp [List.getLastD_eq_getLast?]

theorem taskNewLink_empty {ts : Tasks} (h : ts.Owned []) {task : Nat} (hne : task ≠ 0)
    (pageDirectory process ip : Nat) :
    ∃ ts', taskNewLink ts task (taskInit pageDirectory process ip) = some ts' ∧
      ts'.Owned [task] ∧ ts'.currentTask = task ∧
      (ts'.store task).map Task.process = some process := by
  have hhead : ts.taskHead = 0 := h.linked.head
  have hlink : taskNewLink ts task (taskInit pageDirectory process ip) =
      some ⟨Function.update ts.store task (some (taskInit pageDirectory process ip)),
        task, task, task⟩ := by
    simp [taskNewLink, hhead]
  refine ⟨_, hlink, ⟨⟨rfl, rfl, ?_, Or.inl ?_⟩, ?_, ?_, ?_⟩, rfl, by simp [taskInit]⟩
  · simp [Tasks.nextOf, Tasks.prevOf, taskInit]
  · simp
  · simp
  · simpa using Ne.symm hne
  · intro a ha
    have hne' : a ≠ task := by simpa using ha
    simp only [Function.update_of_ne hne']
    exact h.gone a (by simp)

theorem taskNewLink_append {ts : Tasks} {l : List Nat} {a : Nat} (h : ts.Owned (l ++ [a]))
    {task : Nat} (hne : task ≠ 0) (hfresh : task ∉ l ++ [a]) (pageDirectory process ip : Nat) :
    ∃ ts', taskNewLink ts task (taskInit pageDirectory process ip) = some ts' ∧
      ts'.Owned (l ++ [a, task]) ∧ ts'.currentTask = ts.currentTask ∧
      (ts'.store task).map Task.process = some process ∧
      ∀ b ∈ l ++ [a], (ts'.store b).map Task.process = (ts.store b).map Task.process := by
  have hhead : ts.taskHead ≠ 0 := by
    rw [h.linked.head]
    intro hzero
    apply h.nonnull
    cases l with
    | nil => simpa using hzero.symm
    | cons b rest => exact hzero ▸ List.mem_cons_self ..
  have htail : ts.taskTail = a := by
    rw [h.linked.tail, getLastD_append_singleton]
  have hanew : a ≠ task := by
    rintro rfl
    exact hfresh (by simp)
  obtain ⟨ta, hta⟩ := h.store_of_mem a (by simp)
  have hnodup := h.nodup
  set fresh := taskInit pageDirectory process ip with hfreshdef
  let store' := Function.update (Function.update (Function.update ts.store task (some fresh)) a
    (some { ta with next := task })) task (some { fresh with prev := a })
  have hlink : taskNewLink ts task fresh = some { ts with store := store', taskTail := task } := by
    simp [taskNewLink, hhead, htail, Tasks.modify, hanew, hta, store', hanew.symm]
  have hold : ∀ b ∈ l, store' b = ts.store b := by
    intro b hb
    have hbtask : b ≠ task := fun heq => hfresh (by simp [← heq, hb])
    have hba : b ≠ a := by
      rintro rfl
      exact absurd hnodup (by simp [List.nodup_append, hb])
    simp [store', hbtask, hba]
  have hstorea : store' a = some { ta with next := task } := by
    simp [store', hanew]
  have hstoret : store' task = some { fresh with prev := a } := by
    simp [store']
  refine ⟨_, hlink, ⟨⟨?_, ?_, ?_, ?_⟩, ?_, ?_, ?_⟩, rfl, ?_, ?_⟩
  · rw [h.linked.head]
    cases l <;> simp
  · rw [show l ++ [a, task] = (l ++ [a]) ++ [task] by simp, getLastD_append_singleton]
  · apply h.linked.links.append
    · intro b hb
      simp only [Tasks.nextOf, Tasks.prevOf, hold b hb, and_self]
    · simp [Tasks.prevOf, hstorea, hta]
    · simp [Tasks.nextOf, hstorea]
    · simp [Tasks.prevOf, hstoret]
    · simp [Tasks.nextOf, hstoret, hfreshdef, taskInit]
  · refine Or.inl ?_
    rcases h.linked.current with hcurrent | ⟨hempty, _⟩
    · rw [show l ++ [a, task] = (l ++ [a]) ++ [task] by simp]
      exact List.mem_append_left _ hcurrent
    · simp at hempty
  · rw [show l ++ [a, task] = (l ++ [a]) ++ [task] by simp, List.nodup_append]
    refine ⟨hnodup, by simp, ?_⟩
    intro b hb c hc
    rw [List.mem_singleton.mp hc]
    rintro rfl
    exact hfresh hb
  · have := h.nonnull
    simp only [List.mem_append, List.mem_cons, List.not_mem_nil, or_false, not_or] at this ⊢
    exact ⟨this.1, this.2, Ne.symm hne⟩
  · intro b hb
    have hb' : b ∉ l ++ [a] := fun hmem => hb (by
      rw [show l ++ [a, task] = (l ++ [a]) ++ [task] by simp]
      exact List.mem_append_left _ hmem)
    have hbt : b ≠ task := fun heq => hb (by simp [heq])
    have hba : b ≠ a := fun heq => hb' (by simp [heq])
    simp only [store', Function.update_of_ne hbt, Function.update_of_ne hba]
    exact h.gone b hb'
  · simp [hstoret, hfreshdef, taskInit]
  · intro b hb
    rcases List.mem_append.mp hb with hb | hb
    · simp only [hold b hb]
    · simp only [List.mem_singleton.mp hb, hstorea, hta, Option.map_some]

theorem Tasks.Owned.current_of_nonempty {ts : Tasks} {l : List Nat} {a : Nat}
    (h : ts.Owned (l ++ [a])) : ts.currentTask ∈ l ++ [a] := by
  rcases h.linked.current with hcurrent | ⟨hempty, _⟩
  · exact hcurrent
  · simp at hempty

theorem taskFreeUnlink_single {ts : Tasks} {task : Nat} (h : ts.Owned [task]) :
    ∃ ts', taskFreeUnlink ts task = some ts' ∧ ts'.Owned [] := by
  obtain ⟨t, ht⟩ := h.store_of_mem task (by simp)
  have hcurrent : ts.currentTask = task := by
    simpa using h.current_of_nonempty (l := [])
  have hhead : ts.taskHead = task := h.linked.head
  have htail : ts.taskTail = task := h.linked.tail
  obtain ⟨hprev, hnext, _⟩ := h.linked.links
  have hprev : t.prev = 0 := by simpa [Tasks.prevOf, ht] using hprev
  have hnext : t.next = 0 := by simpa [Tasks.nextOf, ht] using hnext
  have hfree : taskFreeUnlink ts task =
      some ⟨Function.update ts.store task none, 0, 0, 0⟩ := by
    simp [taskFreeUnlink, taskListRemove, taskListRemoveLinks, taskListRemoveCursors,
      taskGetNext, ht, hprev, hnext, hcurrent, hhead, htail]
  refine ⟨_, hfree, ⟨⟨rfl, rfl, trivial, Or.inr ⟨rfl, rfl⟩⟩, by simp, by simp, ?_⟩⟩
  intro b _
  by_cases hb : b = task
  · simp [hb]
  · simp only [Function.update_of_ne hb]
    exact h.gone b (by simpa using hb)

theorem taskFreeUnlink_last {ts : Tasks} {l : List Nat} {a task : Nat}
    (h : ts.Owned (l ++ [a, task])) :
    ∃ ts', taskFreeUnlink ts task = some ts' ∧ ts'.Owned (l ++ [a]) ∧
      ts'.currentTask = (if ts.currentTask = task then ts.taskHead else ts.currentTask) ∧
      ∀ b ∈ l ++ [a], (ts'.store b).map Task.process = (ts.store b).map Task.process := by
  have hassoc : l ++ [a, task] = (l ++ [a]) ++ [task] := by simp
  have hnodup := h.nodup
  rw [hassoc, List.nodup_append] at hnodup
  have hfresh : task ∉ l ++ [a] := fun hmem => hnodup.2.2 task hmem task (by simp) rfl
  have hataskne : a ≠ task := by
    rintro rfl
    exact hfresh (by simp)
  obtain ⟨t, ht⟩ := h.store_of_mem task (by simp)
  obtain ⟨ta, hta⟩ := h.store_of_mem a (by simp)
  have hane : a ≠ 0 := by
    rintro rfl
    exact h.nonnull (by simp)
  have hprev : t.prev = a := by
    have hp := (hassoc ▸ h.linked.links).prev_eq
    rw [getLastD_append_singleton] at hp
    simpa [Tasks.prevOf, ht] using hp
  have hnext : t.next = 0 := by
    have hn := (hassoc ▸ h.linked.links).next_eq
    simpa [Tasks.nextOf, ht] using hn
  have hheadmem : ts.taskHead ∈ l ++ [a] := by
    rw [h.linked.head]
    cases l <;> simp
  have hhead : ¬ task = ts.taskHead := fun heq => hfresh (heq ▸ hheadmem)
  have htail : task = ts.taskTail := by
    rw [h.linked.tail, hassoc, getLastD_append_singleton]
  let store' := Function.update (Function.update ts.store a (some { ta with next := 0 })) task none
  have hfree : taskFreeUnlink ts task = some
      ⟨store', if ts.currentTask = task then ts.taskHead else ts.currentTask, a, ts.taskHead⟩ := by
    by_cases hcurrent : ts.currentTask = task
    · simp [taskFreeUnlink, taskListRemove, taskListRemoveLinks, taskListRemoveCursors,
        taskGetNext, Tasks.modify, ht, hta, hprev, hane, hnext, hataskne.symm, hhead, ← htail,
        hcurrent, store']
    · simp [taskFreeUnlink, taskListRemove, taskListRemoveLinks, taskListRemoveCursors,
        Tasks.modify, ht, hta, hprev, hane, hnext, hataskne.symm, hhead, ← htail,
        Ne.symm hcurrent, hcurrent, store']
  have hold : ∀ b ∈ l, store' b = ts.store b := by
    intro b hb
    have hbtask : b ≠ task := fun heq => hfresh (by simp [← heq, hb])
    have hba : b ≠ a := by
      rintro rfl
      exact absurd hnodup.1 (by simp [List.nodup_append, hb])
    simp [store', hbtask, hba]
  have hstorea : store' a = some { ta with next := 0 } := by
    simp [store', hataskne]
  refine ⟨_, hfree, ⟨⟨?_, ?_, ?_, Or.inl ?_⟩, hnodup.1, ?_, ?_⟩, rfl, ?_⟩
  · rw [h.linked.head]
    cases l <;> rfl
  · rw [getLastD_append_singleton]
  · apply h.linked.links.dropLast
    · intro b hb
      simp only [Tasks.nextOf, Tasks.prevOf, hold b hb, and_self]
    · simp [Tasks.prevOf, hstorea, hta]
    · simp [Tasks.nextOf, hstorea]
  · have hcur := (hassoc ▸ h).current_of_nonempty
    split_ifs with hcurrent
    · exact hheadmem
    · rcases List.mem_append.mp hcur with hmem | hmem
      · exact hmem
      · exact absurd (List.mem_singleton.mp hmem) hcurrent
  · intro hzero
    exact h.nonnull (by rw [hassoc]; exact List.mem_append_left _ hzero)
  · intro b hb
    by_cases hbt : b = task
    · simp [store', hbt]
    · have hba : b ≠ a := fun heq => hb (by simp [heq])
      simp only [store', Function.update_of_ne hbt, Function.update_of_ne hba]
      refine h.gone b fun hmem => ?_
      rw [hassoc] at hmem
      rcases List.mem_append.mp hmem with hmem | hmem
      · exact hb hmem
      · exact hbt (List.mem_singleton.mp hmem)
  · intro b hb
    rcases List.mem_append.mp hb with hb | hb
    · simp only [hold b hb]
    · simp only [List.mem_singleton.mp hb, hstorea, hta, Option.map_some]

theorem Tasks.modify_prevOf {ts ts' : Tasks} {p n : Nat}
    (h : ts.modify p (fun prev => { prev with next := n }) = some ts') (b : Nat) :
    ts'.prevOf b = ts.prevOf b := by
  simp only [Tasks.modify, Option.map_eq_some_iff] at h
  obtain ⟨t, ht, rfl⟩ := h
  by_cases hbp : b = p
  · simp [Tasks.prevOf, hbp, ht]
  · simp [Tasks.prevOf, hbp]

theorem taskListRemoveCursors_store {ts ts' : Tasks} {task : Nat}
    (h : taskListRemoveCursors ts task = some ts') : ts'.store = ts.store := by
  simp only [taskListRemoveCursors, Option.bind_eq_some_iff] at h
  obtain ⟨t, _, h⟩ := h
  split_ifs at h
  all_goals
    simp only [Option.map_eq_some_iff, Option.some.injEq] at h
    obtain ⟨_, _, rfl⟩ := h
    rfl

/-- No removal touches the back link of another task: not even of the one after it. -/
theorem taskFreeUnlink_prevOf {ts ts' : Tasks} {task b : Nat}
    (h : taskFreeUnlink ts task = some ts') (hb : b ≠ task) : ts'.prevOf b = ts.prevOf b := by
  simp only [taskFreeUnlink, taskListRemove, taskListRemoveLinks, Option.map_eq_some_iff,
    Option.bind_eq_some_iff] at h
  obtain ⟨ts₂, ⟨ts₁, ⟨t, _, hlinks⟩, hcursors⟩, rfl⟩ := h
  have hfirst : ts₁.prevOf b = ts.prevOf b := by
    split_ifs at hlinks
    · exact Tasks.modify_prevOf hlinks b
    · rw [Option.some.inj hlinks]
  rw [← hfirst]
  simp [Tasks.prevOf, hb, taskListRemoveCursors_store hcursors]

end BoiOS
