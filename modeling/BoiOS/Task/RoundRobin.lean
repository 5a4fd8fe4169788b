import BoiOS.Task.Process
import BoiOS.Task.TaskRuns
import Mathlib.Data.List.GetD
import Mathlib.Data.List.Nodup

/-! The order in which the scheduler enters the tasks. It goes along the forward links from the
head of the list, and from the last task back to the head. -/
namespace BoiOS
open Library.DoublyLinked Library.Transition

/-- The list as `task_next` sees it: only the forward links and the head count. -/
structure Tasks.Scheduled (ts : Tasks) (live : List Nat) : Prop where
  head : ts.taskHead = live.headD 0
  chained : Chained ts.nextOf 0 live
  nonnull : 0 ∉ live

theorem Tasks.Owned.scheduled {ts : Tasks} {live : List Nat} (h : ts.Owned live) :
    ts.Scheduled live :=
  ⟨h.linked.head, h.linked.links.chained, h.nonnull⟩

theorem Tasks.Scheduled.at_task {ts : Tasks} {live : List Nat} (h : ts.Scheduled live)
    (task : Nat) : Tasks.Scheduled { ts with currentTask := task } live :=
  ⟨h.head, h.chained, h.nonnull⟩

theorem Tasks.Scheduled.getNext {ts : Tasks} {live : List Nat} {i : Nat} (h : ts.Scheduled live)
    (hcurrent : live[i]? = some ts.currentTask) :
    taskGetNext ts = live[(i + 1) % live.length]? := by
  obtain ⟨hi, -⟩ := List.getElem?_eq_some_iff.mp hcurrent
  obtain ⟨t, ht, hnext⟩ := Option.map_eq_some_iff.mp (h.chained.next_eq hcurrent)
  unfold taskGetNext
  rw [ht]
  change (if t.next = 0 then some ts.taskHead else some t.next) = _
  by_cases hlast : i + 1 < live.length
  · have hmem : live.getD (i + 1) 0 ∈ live := by
      rw [List.getD_eq_getElem _ _ hlast]
      exact List.getElem_mem hlast
    have hne : t.next ≠ 0 := fun hzero => h.nonnull (by rwa [← hnext, hzero] at hmem)
    rw [if_neg hne, hnext, Nat.mod_eq_of_lt hlast, List.getElem?_eq_getElem hlast,
      List.getD_eq_getElem _ _ hlast]
  · rw [List.getD_eq_default _ _ (by omega)] at hnext
    rw [if_pos hnext, show i + 1 = live.length by omega, Nat.mod_self, h.head]
    cases live with
    | nil => simp at hi
    | cons a rest => rfl

theorem taskNext_scheduled {s : Scheduler} {live : List Nat} {i : Nat}
    (h : s.tasks.Scheduled live) (hcurrent : live[i]? = some s.tasks.currentTask) :
    ∃ task, live[(i + 1) % live.length]? = some task ∧
      taskNext s = .ok { s with tasks := { s.tasks with currentTask := task } } := by
  obtain ⟨hi, -⟩ := List.getElem?_eq_some_iff.mp hcurrent
  have hlt : (i + 1) % live.length < live.length := Nat.mod_lt _ (by omega)
  have htask := List.getElem?_eq_getElem hlt
  refine ⟨_, htask, ?_⟩
  have hne : live[(i + 1) % live.length] ≠ 0 := fun hzero =>
    h.nonnull (hzero ▸ List.getElem_mem hlt)
  obtain ⟨t, ht, -⟩ := Option.map_eq_some_iff.mp (h.chained.next_eq htask)
  unfold taskNext taskSwitch
  rw [h.getNext hcurrent, htask]
  dsimp only [access_some, Except.bind]
  rw [if_neg hne, ht]
  rfl

/-- The scheduler after `count` switches with nothing in between. -/
def taskNextTimes : (count : Nat) → Scheduler → Except Stop Scheduler
  | 0, s => .ok s
  | count + 1, s => (taskNextTimes count s).bind taskNext

theorem taskNextTimes_scheduled {s : Scheduler} {live : List Nat} {i : Nat}
    (h : s.tasks.Scheduled live) (hcurrent : live[i]? = some s.tasks.currentTask) (count : Nat) :
    ∃ task, live[(i + count) % live.length]? = some task ∧
      taskNextTimes count s = .ok { s with tasks := { s.tasks with currentTask := task } } := by
  obtain ⟨hi, -⟩ := List.getElem?_eq_some_iff.mp hcurrent
  induction count with
  | zero => exact ⟨s.tasks.currentTask, by rwa [Nat.add_zero, Nat.mod_eq_of_lt hi], rfl⟩
  | succ count ih =>
    obtain ⟨task, htask, hrun⟩ := ih
    obtain ⟨task', htask', hnext⟩ := taskNext_scheduled
      (s := { s with tasks := { s.tasks with currentTask := task } }) (h.at_task task) htask
    refine ⟨task', ?_, ?_⟩
    · rwa [Nat.mod_add_mod] at htask'
    · unfold taskNextTimes
      rw [hrun]
      exact hnext

theorem existsUnique_mod {n j : Nat} (first : Nat) (hj : j < n) :
    ∃! d, d < n ∧ (first + d) % n = j := by
  have hfirst : first % n < n := Nat.mod_lt _ (by omega)
  have hwrap (d : Nat) (hd : d < n) : (first + d) % n =
      if first % n + d < n then first % n + d else first % n + d - n := by
    rw [← Nat.mod_add_mod]
    split_ifs with hlt
    · exact Nat.mod_eq_of_lt hlt
    · rw [Nat.mod_eq_sub_mod (by omega), Nat.mod_eq_of_lt (by omega)]
  refine ⟨if first % n ≤ j then j - first % n else j + n - first % n, ⟨?_, ?_⟩, ?_⟩
  · split_ifs
    all_goals omega
  · rw [hwrap _ (by split_ifs <;> omega)]
    split_ifs
    all_goals omega
  · rintro d ⟨hd, hmod⟩
    rw [hwrap d hd] at hmod
    split_ifs at hmod ⊢
    all_goals omega

def TaskRun.New : Step TaskRun TaskCall := fun _ call _ =>
  match call with
  | .new _ _ _ _ => True
  | .free _ => False

theorem TaskRun.inv_of_new {run : List (TaskCall × TaskRun)} (hrun : Path TaskRun.step start run)
    (hnew : Along New start run) : (last start run).Inv := by
  refine invariant_last (fun s call t h hstep hcall => h.step hstep ?_) start run inv_start hrun hnew
  cases call with
  | new => trivial
  | free task => exact hcall.elim

/-- Round robin: on a list that `task_new` alone has built, with any of its tasks as the current
one, the switches enter the tasks one after the other around the list and change nothing else, so
that each task is entered once in as many switches as there are tasks. -/
theorem task_next_round_robin {run : List (TaskCall × TaskRun)} {ts : Tasks} {live : List Nat}
    {s : Scheduler} {i : Nat} (hrun : Path TaskRun.step TaskRun.start run)
    (hnew : Along TaskRun.New TaskRun.start run) (hbuilt : last TaskRun.start run = ⟨some ts, live⟩)
    (htasks : s.tasks = { ts with currentTask := s.tasks.currentTask })
    (hcurrent : live[i]? = some s.tasks.currentTask) :
    (∀ count, ∃ task, live[(i + count) % live.length]? = some task ∧
      taskNextTimes count s = .ok { s with tasks := { s.tasks with currentTask := task } }) ∧
    ∀ start, ∀ task ∈ live, ∃! turn, turn < live.length ∧
      (taskNextTimes (start + 1 + turn) s).map (fun t => t.tasks.currentTask) = .ok task := by
  obtain ⟨ts', hts', howned⟩ := (TaskRun.inv_of_new hrun hnew).owned
  rw [hbuilt] at hts' howned
  obtain rfl := Option.some.inj hts'
  have hscheduled : s.tasks.Scheduled live := by
    rw [htasks]
    exact howned.scheduled.at_task _
  have hturn (count : Nat) := taskNextTimes_scheduled hscheduled hcurrent count
  refine ⟨hturn, fun start task htask => ?_⟩
  obtain ⟨j, hj, hjtask⟩ := List.mem_iff_getElem.mp htask
  have hentered (turn : Nat) : (taskNextTimes (start + 1 + turn) s).map
      (fun t => t.tasks.currentTask) = .ok task ↔ (i + (start + 1) + turn) % live.length = j := by
    obtain ⟨entered, hentered, hrun⟩ := hturn (start + 1 + turn)
    obtain ⟨hlt, hget⟩ := List.getElem?_eq_some_iff.mp hentered
    rw [hrun, Nat.add_assoc]
    simp only [Except.map, Except.ok.injEq]
    rw [← hget, ← hjtask, List.Nodup.getElem_inj_iff howned.nodup]
  obtain ⟨turn, ⟨hturn, hmod⟩, honly⟩ := existsUnique_mod (i + (start + 1)) hj
  refine ⟨turn, ⟨hturn, (hentered turn).mpr hmod⟩, ?_⟩
  rintro turn' ⟨hturn', hrun'⟩
  exact honly turn' ⟨hturn', (hentered turn').mp hrun'⟩

/-! Three tasks, of which the second is running. -/

def threeTasksRun : List (TaskCall × TaskRun) :=
  trace TaskRun.next TaskRun.start
    [.new 0x1000 0 0x100 0, .new 0x2000 0 0x200 0, .new 0x3000 0 0x300 0]

theorem threeTasksRun_path : Path TaskRun.step TaskRun.start threeTasksRun :=
  ⟨⟨⟨by decide, by decide⟩, rfl⟩, ⟨⟨by decide, by decide⟩, rfl⟩, ⟨⟨by decide, by decide⟩, rfl⟩,
    trivial⟩

def threeTasks : Tasks := ((last TaskRun.start threeTasksRun).tasks).getD ⟨fun _ => none, 0, 0, 0⟩

def secondRunning : Scheduler :=
  ⟨fun _ => none, fun _ => 0, 0, { threeTasks with currentTask := 0x2000 }⟩

theorem task_next_round_robin_secondRunning :
    (∀ count, ∃ task, [0x1000, 0x2000, 0x3000][(1 + count) % 3]? = some task ∧
      taskNextTimes count secondRunning =
        .ok { secondRunning with tasks := { secondRunning.tasks with currentTask := task } }) ∧
    ∀ start, ∀ task ∈ [0x1000, 0x2000, 0x3000], ∃! turn, turn < 3 ∧
      (taskNextTimes (start + 1 + turn) secondRunning).map (fun t => t.tasks.currentTask) =
        .ok task :=
  task_next_round_robin threeTasksRun_path
    ⟨trivial, trivial, trivial, trivial⟩ rfl rfl rfl

end BoiOS
