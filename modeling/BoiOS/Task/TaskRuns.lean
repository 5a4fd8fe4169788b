import BoiOS.Task.TaskList

/-! Runs of `task_new` and `task_free` on the task list, from the empty list. A task is live
from the call that returned it to the call that frees it. An access to a task that is not in
memory has no result, and no later call has one either. -/
namespace BoiOS
open Library.DoublyLinked Library.Transition

structure TaskRun where
  tasks : Option Tasks
  live : List Nat

/-- The address that the allocator gives a new task is part of the call. -/
inductive TaskCall
  | new (task pageDirectory process ip : Nat)
  | free (task : Nat)

namespace TaskRun

def start : TaskRun := ⟨some ⟨fun _ => none, 0, 0, 0⟩, []⟩

def next (s : TaskRun) : TaskCall → TaskRun
  | .new task pageDirectory process ip =>
      ⟨s.tasks.bind fun ts => taskNewLink ts task (taskInit pageDirectory process ip),
        s.live ++ [task]⟩
  | .free task => ⟨s.tasks.bind fun ts => taskFreeUnlink ts task, s.live.erase task⟩

/-- A new task gets a block that no live task is in; only live tasks are freed. -/
def Enabled (s : TaskRun) : TaskCall → Prop
  | .new task _ _ _ => task ≠ 0 ∧ task ∉ s.live
  | .free task => task ∈ s.live

def step : Step TaskRun TaskCall := fun s call t => s.Enabled call ∧ t = s.next call

/-- A step is good if it reaches only tasks in memory and leaves the live tasks well linked. -/
def Good : Step TaskRun TaskCall := fun _ _ t => ∃ ts, t.tasks = some ts ∧ ts.WellLinked t.live

/-- The calls that `task_list_remove` serves correctly: a freed task is the last of the list. -/
def Served : Step TaskRun TaskCall := fun s call _ =>
  match call with
  | .new _ _ _ _ => True
  | .free task => s.live.getLast? = some task

structure Inv (s : TaskRun) : Prop where
  owned : ∃ ts, s.tasks = some ts ∧ ts.Owned s.live

theorem Inv.good {s t : TaskRun} {call : TaskCall} (h : t.Inv) : Good s call t := by
  obtain ⟨ts, htasks, howned⟩ := h.owned
  exact ⟨ts, htasks, howned.linked⟩

theorem inv_start : start.Inv :=
  ⟨_, rfl, ⟨⟨rfl, rfl, trivial, Or.inr ⟨rfl, rfl⟩⟩, List.nodup_nil, List.not_mem_nil,
    fun _ _ => rfl⟩⟩

theorem Inv.new {s : TaskRun} (h : s.Inv) {task : Nat} (hne : task ≠ 0) (hfresh : task ∉ s.live)
    (pageDirectory process ip : Nat) : (s.next (.new task pageDirectory process ip)).Inv := by
  obtain ⟨ts, htasks, howned⟩ := h.owned
  rcases List.eq_nil_or_concat s.live with hempty | ⟨l, a, hlive⟩
  · rw [hempty] at howned
    obtain ⟨ts', hnew, howned', _⟩ := taskNewLink_empty howned hne pageDirectory process ip
    refine ⟨ts', ?_, ?_⟩
    · simp only [next, htasks, Option.bind_some, hnew]
    · simpa only [next, hempty, List.nil_append] using howned'
  · rw [List.concat_eq_append] at hlive
    rw [hlive] at howned hfresh
    obtain ⟨ts', hnew, howned', _⟩ :=
      taskNewLink_append howned hne hfresh pageDirectory process ip
    refine ⟨ts', ?_, ?_⟩
    · simp only [next, htasks, Option.bind_some, hnew]
    · simpa only [next, hlive, List.append_assoc, List.cons_append, List.nil_append] using howned'

theorem Inv.free {s : TaskRun} (h : s.Inv) {task : Nat} (hlast : s.live.getLast? = some task) :
    (s.next (.free task)).Inv := by
  obtain ⟨ts, htasks, howned⟩ := h.owned
  obtain ⟨l, hlive⟩ := List.getLast?_eq_some_iff.mp hlast
  have hnodup := howned.nodup
  rw [hlive] at howned hnodup
  have hrest : task ∉ l := fun hmem =>
    (List.nodup_append.mp hnodup).2.2 task hmem task (by simp) rfl
  have herase : s.live.erase task = l := by
    rw [hlive, List.erase_append_right _ hrest, List.erase_cons_head, List.append_nil]
  rcases List.eq_nil_or_concat l with hempty | ⟨l', a, hl⟩
  · rw [hempty, List.nil_append] at howned
    obtain ⟨ts', hfree, howned'⟩ := taskFreeUnlink_single howned
    refine ⟨ts', ?_, ?_⟩
    · simp only [next, htasks, Option.bind_some, hfree]
    · simpa only [next, herase, hempty] using howned'
  · rw [List.concat_eq_append] at hl
    rw [hl, List.append_assoc] at howned
    obtain ⟨ts', hfree, howned', _⟩ := taskFreeUnlink_last howned
    refine ⟨ts', ?_, ?_⟩
    · simp only [next, htasks, Option.bind_some, hfree]
    · simpa only [next, herase, hl] using howned'

theorem Inv.step {s t : TaskRun} {call : TaskCall} (h : s.Inv) (hstep : TaskRun.step s call t)
    (hserved : Served s call t) : t.Inv := by
  obtain ⟨henabled, rfl⟩ := hstep
  cases call with
  | new task pageDirectory process ip => exact h.new henabled.1 henabled.2 _ _ _
  | free task => exact h.free hserved

theorem Inv.not_good_of_successor {s t : TaskRun} (h : s.Inv) {task b : Nat} {l r : List Nat}
    (hlive : s.live = l ++ task :: b :: r) (hnext : t = s.next (.free task)) :
    ¬ Good s (.free task) t := by
  rintro ⟨ts', htasks', hlinked⟩
  obtain ⟨ts, htasks, howned⟩ := h.owned
  rw [hlive] at howned
  have hnodup := List.nodup_append.mp howned.nodup
  have hrest : task ∉ l := fun hmem => hnodup.2.2 task hmem task (by simp) rfl
  have hnonnull : task ≠ 0 := by
    rintro rfl
    exact howned.nonnull (by simp)
  have hb : b ≠ task := by
    rintro rfl
    exact absurd hnodup.2.1 (by simp)
  have herase : t.live = l ++ b :: r := by
    rw [hnext]
    simp only [next, hlive]
    rw [List.erase_append_right _ hrest, List.erase_cons_head]
  have hfree : taskFreeUnlink ts task = some ts' := by
    rw [hnext] at htasks'
    simpa only [next, htasks, Option.bind_some] using htasks'
  have hbefore : ts.prevOf b = some task := by
    have hprev := howned.linked.links
    rw [show l ++ task :: b :: r = (l ++ [task]) ++ b :: r by simp] at hprev
    rw [hprev.prev_eq, getLastD_append_singleton]
  have hafter : ts'.prevOf b = some (l.getLastD 0) := by
    have hlinks := hlinked.links
    rw [herase] at hlinks
    exact hlinks.prev_eq
  have hstale : l.getLastD 0 = task := by
    rw [taskFreeUnlink_prevOf hfree hb, hbefore] at hafter
    exact (Option.some.inj hafter).symm
  rcases List.eq_nil_or_concat l with hempty | ⟨l', a, hl⟩
  · rw [hempty] at hstale
    exact hnonnull hstale.symm
  · rw [List.concat_eq_append] at hl
    rw [hl, getLastD_append_singleton] at hstale
    exact hrest (by rw [hl, hstale]; simp)

theorem good_iff_served {s t : TaskRun} {call : TaskCall} (h : s.Inv)
    (hstep : TaskRun.step s call t) : Good s call t ↔ Served s call t := by
  refine ⟨fun hgood => ?_, fun hserved => (h.step hstep hserved).good⟩
  obtain ⟨henabled, hnext⟩ := hstep
  cases call with
  | new => trivial
  | free task =>
    obtain ⟨l, r, hlive⟩ := List.append_of_mem henabled
    cases r with
    | nil =>
      unfold Served
      simp [hlive]
    | cons b r => exact absurd hgood (h.not_good_of_successor hlive hnext)

/-- A run from the empty list keeps the live tasks well linked, in the order of their creation
and without an access to a freed one, exactly if it frees only tasks at the end of the list. -/
theorem task_runs_good_iff (run : List (TaskCall × TaskRun)) (hrun : Path step start run) :
    Along Good start run ↔ Along Served start run := by
  have hkeep : ∀ s call t, Inv s → step s call t → Served s call t → Inv t :=
    fun _ _ _ h hstep hserved => h.step hstep hserved
  have hdecides : ∀ s call t, Inv s → step s call t → (Good s call t ↔ Served s call t) :=
    fun _ _ _ h hstep => good_iff_served h hstep
  exact along_iff hkeep hdecides start run inv_start hrun

/-! Two tasks, of which the first is freed and then the second. -/

def firstThenSecondRun : List (TaskCall × TaskRun) :=
  trace next start [.new 0x1000 0 0 0, .new 0x2000 0 0 0, .free 0x1000, .free 0x2000]

theorem firstThenSecondRun_path : Path step start firstThenSecondRun :=
  ⟨⟨⟨by decide, by decide⟩, rfl⟩, ⟨⟨by decide, by decide⟩, rfl⟩, ⟨List.mem_cons_self .., rfl⟩,
    ⟨List.mem_cons_self .., rfl⟩, trivial⟩

theorem task_runs_good_firstThenSecond :
    Along Good start firstThenSecondRun ↔ Along Served start firstThenSecondRun :=
  task_runs_good_iff firstThenSecondRun firstThenSecondRun_path

theorem firstThenSecondRun_faults : (last start firstThenSecondRun).tasks.isNone := by
  decide +kernel

theorem task_runs_not_always_good :
    ¬ ∀ run : List (TaskCall × TaskRun), Path step start run → Along Good start run := by
  intro h
  obtain ⟨_, _, _, ⟨ts, htasks, _⟩, _⟩ := h firstThenSecondRun firstThenSecondRun_path
  have hfaults := firstThenSecondRun_faults
  have hlast : (last start firstThenSecondRun).tasks = some ts := htasks
  rw [hlast] at hfaults
  exact Bool.false_ne_true hfaults

end TaskRun
end BoiOS
