import BoiOS.Task.Process
import Mathlib.Data.List.GetD

/-! Runs of program starts, exits and exceptions. The invariant describes the live programs as
one list, oldest first: the slots of the process table, the task list and both notions of
what is running follow it. -/
namespace BoiOS
open Library.DoublyLinked Library.Transition

/-- A start carries the addresses the allocator gives the process and its task. -/
inductive SchedulerCall
  | start (loaded : Process) (process task pageDirectory ip : Nat)
  | exit
  | exception

namespace Scheduler

def boot : Scheduler :=
  ⟨fun _ => none, fun _ => 0, 0, ⟨fun _ => none, 0, 0, 0⟩⟩

def next (s : Scheduler) : SchedulerCall → Except Stop Scheduler
  | .start loaded process task pageDirectory ip =>
      isr80hCommand6ProcessLoadStart s loaded process task pageDirectory ip
  | .exit => isr80hCommand9Exit s
  | .exception => idtHandleException s

/-- The addresses of a start are new; a program that exits or faults is running. -/
def Enabled (s : Scheduler) : SchedulerCall → Prop
  | .start _ process task _ _ =>
      process ≠ 0 ∧ s.store process = none ∧ task ≠ 0 ∧ s.tasks.store task = none
  | .exit => s.tasks.currentTask ≠ 0
  | .exception => s.tasks.currentTask ≠ 0

/-- A kernel that has stopped takes no more steps. -/
def step : Step (Except Stop Scheduler) SchedulerCall := fun r call r' =>
  ∃ s, r = .ok s ∧ s.Enabled call ∧ r' = s.next call

/-- The process that `keyboard_push` writes to is the one that `keyboard_pop` reads from. -/
def KeyboardFollows (s : Scheduler) : Prop :=
  taskCurrentProcess s.tasks = some s.currentProcess

/-- A step is good if it enters user mode with the keyboard following, or panics. -/
def Good : Step (Except Stop Scheduler) SchedulerCall := fun _ _ r' =>
  match r' with
  | .ok s => s.KeyboardFollows
  | .error stop => stop = .panicked

def liveCount (s : Scheduler) : Nat :=
  (List.range boiosMaxProcesses).countP fun i => s.processes i ≠ 0

def AtMostTwo (s : Scheduler) : SchedulerCall → Prop
  | .start _ _ _ _ _ => True
  | .exit => s.liveCount ≤ 2
  | .exception => s.liveCount ≤ 2

def Served : Step (Except Stop Scheduler) SchedulerCall := fun r call _ =>
  ∀ s, r = .ok s → s.AtMostTwo call

/-- The programs of `live`, each the address of its process and of its task, are the ones in
the tables, in this order, and the last one is running. -/
structure Lined (s : Scheduler) (live : List (Nat × Nat)) : Prop where
  fits : live.length ≤ boiosMaxProcesses
  slots : ∀ i, i < boiosMaxProcesses → s.processes i = (live.map Prod.fst).getD i 0
  objects : ∀ i a, live[i]? = some a → ∃ p, s.store a.1 = some p ∧ p.task = a.2 ∧ p.pid = i
  nonnull : ∀ a ∈ live, a.1 ≠ 0
  distinct : (live.map Prod.fst).Nodup
  owned : s.tasks.Owned (live.map Prod.snd)
  processOf : ∀ a ∈ live, (s.tasks.store a.2).map Task.process = some a.1
  keyboard : s.currentProcess = (live.map Prod.fst).getLastD 0
  current : s.tasks.currentTask = (live.map Prod.snd).getLastD 0

def Inv (r : Except Stop Scheduler) : Prop := ∀ s, r = .ok s → ∃ live, s.Lined live

theorem lined_boot : boot.Lined [] where
  fits := Nat.zero_le _
  slots := fun _ _ => rfl
  objects := fun i a h => by simp at h
  nonnull := fun a h => absurd h List.not_mem_nil
  distinct := List.nodup_nil
  owned := ⟨⟨rfl, rfl, trivial, Or.inr ⟨rfl, rfl⟩⟩, List.nodup_nil, List.not_mem_nil, fun _ _ => rfl⟩
  processOf := fun a h => absurd h List.not_mem_nil
  keyboard := rfl
  current := rfl

theorem Lined.keyboardFollows {s : Scheduler} {live : List (Nat × Nat)} {a : Nat × Nat}
    (h : s.Lined (live ++ [a])) : s.KeyboardFollows := by
  unfold KeyboardFollows taskCurrentProcess
  have hcurrent : s.tasks.currentTask = a.2 := by
    rw [h.current, List.map_append, List.map_singleton, getLastD_append_singleton]
  have hkeyboard : s.currentProcess = a.1 := by
    rw [h.keyboard, List.map_append, List.map_singleton, getLastD_append_singleton]
  rw [hcurrent, hkeyboard]
  exact h.processOf a (by simp)

theorem Lined.slot_taken {s : Scheduler} {live : List (Nat × Nat)} (h : s.Lined live) {i : Nat}
    (hi : i < live.length) : s.processes i ≠ 0 := by
  have hfits := h.fits
  rw [h.slots i (by omega), List.getD_eq_getElem _ _ (by simpa using hi), List.getElem_map]
  exact h.nonnull _ (List.getElem_mem hi)

theorem Lined.slot_free {s : Scheduler} {live : List (Nat × Nat)} (h : s.Lined live) {i : Nat}
    (hi : live.length ≤ i) (hmax : i < boiosMaxProcesses) : s.processes i = 0 := by
  rw [h.slots i hmax, List.getD_eq_default _ _ (by simpa using hi)]

theorem Lined.liveCount_eq {s : Scheduler} {live : List (Nat × Nat)} (h : s.Lined live) :
    s.liveCount = live.length := by
  have hfits := h.fits
  have hcount : ∀ n, n ≤ boiosMaxProcesses →
      (List.range n).countP (fun i => s.processes i ≠ 0) = min n live.length := by
    intro n
    induction n with
    | zero => simp
    | succ n ih =>
      intro hn
      rw [List.range_succ, List.countP_append, ih (by omega)]
      by_cases hlive : n < live.length
      · have hslot := h.slot_taken hlive
        simp only [List.countP_singleton, hslot, ne_eq, not_false_eq_true, decide_true,
          ↓reduceIte]
        omega
      · have hslot := h.slot_free (by omega : live.length ≤ n) (by omega)
        simp only [List.countP_singleton, hslot, ne_eq, not_true_eq_false, decide_false,
          Bool.false_eq_true, ↓reduceIte]
        omega
  rw [liveCount, hcount boiosMaxProcesses (le_refl _)]
  omega

/-! A start. -/

theorem Lined.processGetFreeSlot_eq {s : Scheduler} {live : List (Nat × Nat)} (h : s.Lined live) :
    processGetFreeSlot s =
      if live.length < boiosMaxProcesses then (live.length : Int) else -eistkn := by
  rcases processGetFreeSlot_spec s with ⟨hfull, hnone⟩ | ⟨slot, hslot, hfound, hzero, hbelow⟩
  · rw [hnone, if_neg fun hroom => hfull live.length hroom (h.slot_free (le_refl _) hroom)]
  · have hlow : live.length ≤ slot := by
      by_contra hlive
      exact h.slot_taken (by omega) hzero
    have hhigh : slot ≤ live.length := by
      by_contra hlive
      exact hbelow live.length (by omega) (h.slot_free (le_refl _) (by omega))
    rw [hfound, if_pos (by omega)]
    omega

theorem taskNewLink_lined {s : Scheduler} {live : List (Nat × Nat)} (h : s.Lined live)
    {task : Nat} (hne : task ≠ 0) (hfresh : s.tasks.store task = none)
    (pageDirectory process ip : Nat) :
    ∃ ts, taskNewLink s.tasks task (taskInit pageDirectory process ip) = some ts ∧
      ts.Owned (live.map Prod.snd ++ [task]) ∧
      (ts.store task).map Task.process = some process ∧
      ∀ a ∈ live, (ts.store a.2).map Task.process = some a.1 := by
  have howned := h.owned
  have hnew : task ∉ live.map Prod.snd := by
    intro hmem
    obtain ⟨t, ht⟩ := howned.store_of_mem task hmem
    rw [hfresh] at ht
    contradiction
  rcases List.eq_nil_or_concat live with hempty | ⟨l, a, hlive⟩
  · rw [hempty] at howned ⊢
    obtain ⟨ts, hlink, howned', _, hprocess⟩ :=
      taskNewLink_empty howned hne pageDirectory process ip
    exact ⟨ts, hlink, howned', hprocess, fun a ha => absurd ha List.not_mem_nil⟩
  · rw [List.concat_eq_append] at hlive
    have hprocesses := h.processOf
    rw [hlive, List.map_append, List.map_singleton] at howned hnew ⊢
    rw [hlive] at hprocesses
    obtain ⟨ts, hlink, howned', _, hprocess, hold⟩ :=
      taskNewLink_append howned hne hnew pageDirectory process ip
    refine ⟨ts, hlink, ?_, hprocess, fun b hb => ?_⟩
    · simpa only [List.append_assoc, List.cons_append, List.nil_append] using howned'
    · have hmem : b.2 ∈ l.map Prod.snd ++ [a.2] := by
        have := List.mem_map_of_mem (f := Prod.snd) hb
        simpa using this
      rw [hold b.2 hmem]
      exact hprocesses b hb

theorem Lined.start {s : Scheduler} {live : List (Nat × Nat)} (h : s.Lined live)
    (hroom : live.length < boiosMaxProcesses) {loaded : Process}
    {process task pageDirectory ip : Nat}
    (hnew : s.Enabled (.start loaded process task pageDirectory ip)) :
    ∃ s', s.next (.start loaded process task pageDirectory ip) = .ok s' ∧
      s'.Lined (live ++ [(process, task)]) := by
  obtain ⟨hprocess, hstore, htask, hfresh⟩ := hnew
  have hslot := h.processGetFreeSlot_eq
  rw [if_pos hroom] at hslot
  obtain ⟨ts, hlink, howned, hprocessOf, hold⟩ :=
    taskNewLink_lined h htask hfresh pageDirectory process ip
  obtain ⟨t, ht⟩ := howned.store_of_mem task (by simp)
  let p : Process := { loaded with pid := live.length, task }
  have hresult : s.next (.start loaded process task pageDirectory ip) = .ok
      ⟨Function.update s.store process (some p),
        Function.update s.processes live.length process, process,
        { ts with currentTask := task }⟩ := by
    have hneg : ¬ (live.length : Int) < 0 := by omega
    simp [next, isr80hCommand6ProcessLoadStart, processLoadSwitch, processLoad, hslot, hneg,
      processLoadForSlot, hlink, Except.bind, Except.map, processSwitch, taskSwitch, ht, p]
  have hother : ∀ a ∈ live, a.1 ≠ process := by
    rintro a ha rfl
    obtain ⟨i, hi, hai⟩ := List.getElem_of_mem ha
    obtain ⟨q, hq, _⟩ := h.objects i a (by rw [← hai]; exact List.getElem?_eq_getElem hi)
    rw [hstore] at hq
    contradiction
  refine ⟨_, hresult, ?_⟩
  constructor
  case fits =>
    rw [List.length_append, List.length_singleton]
    omega
  case slots =>
    intro i hi
    dsimp only
    by_cases heq : i = live.length
    · simp [heq]
    · rw [Function.update_of_ne heq, h.slots i hi]
      rcases Nat.lt_or_gt_of_ne heq with hlt | hgt
      · rw [List.map_append, List.getD_append _ _ _ _ (by simpa using hlt)]
      · rw [List.getD_eq_default _ _ (by simp; omega), List.getD_eq_default _ _ (by simp; omega)]
  case objects =>
    intro i a ha
    dsimp only
    rcases Nat.lt_or_ge i live.length with hlt | hge
    · rw [List.getElem?_append_left hlt] at ha
      obtain ⟨q, hq, hqtask, hqpid⟩ := h.objects i a ha
      refine ⟨q, ?_, hqtask, hqpid⟩
      rw [Function.update_of_ne (hother a (List.mem_of_getElem? ha))]
      exact hq
    · rw [List.getElem?_append_right hge, List.getElem?_singleton] at ha
      split_ifs at ha with hi
      obtain rfl := Option.some.inj ha
      refine ⟨p, by simp, rfl, ?_⟩
      simp only [p]
      omega
  case nonnull =>
    intro a ha
    rcases List.mem_append.mp ha with ha | ha
    · exact h.nonnull a ha
    · rw [List.mem_singleton.mp ha]
      exact hprocess
  case distinct =>
    rw [List.map_append, List.map_singleton, List.nodup_append]
    refine ⟨h.distinct, by simp, ?_⟩
    intro b hb c hc
    obtain ⟨a, ha, rfl⟩ := List.mem_map.mp hb
    rw [List.mem_singleton.mp hc]
    exact hother a ha
  case owned =>
    have hlinked := howned.linked
    rw [List.map_append, List.map_singleton]
    exact ⟨⟨hlinked.head, hlinked.tail, hlinked.links, Or.inl (by simp)⟩, howned.nodup,
      howned.nonnull, howned.gone⟩
  case processOf =>
    intro a ha
    rcases List.mem_append.mp ha with ha | ha
    · exact hold a ha
    · rw [List.mem_singleton.mp ha]
      exact hprocessOf
  case keyboard => rw [List.map_append, List.map_singleton, getLastD_append_singleton]
  case current => rw [List.map_append, List.map_singleton, getLastD_append_singleton]

theorem Lined.start_full {s : Scheduler} {live : List (Nat × Nat)} (h : s.Lined live)
    (hfull : ¬ live.length < boiosMaxProcesses) (loaded : Process)
    (process task pageDirectory ip : Nat) :
    s.next (.start loaded process task pageDirectory ip) = .ok s := by
  have hslot := h.processGetFreeSlot_eq
  rw [if_neg hfull] at hslot
  have hload : processLoad s loaded process task pageDirectory ip = .ok (-enomem, s) := by
    unfold processLoad
    rw [hslot]
    rfl
  have hswitch : processLoadSwitch s loaded process task pageDirectory ip = .ok (-enomem, s) := by
    unfold processLoadSwitch
    rw [hload]
    rfl
  have hstart : isr80hCommand6ProcessLoadStart s loaded process task pageDirectory ip = .ok s := by
    unfold isr80hCommand6ProcessLoadStart
    rw [hswitch]
    rfl
  exact hstart

/-! An exit. -/

/-- The last program leaves: its task is the current one, so the first task becomes current,
and the process in the lowest slot becomes the current process. -/
theorem Lined.processTerminate {s : Scheduler} {a z : Nat × Nat} {rest : List (Nat × Nat)}
    (h : s.Lined (a :: rest ++ [z])) :
    ∃ ts, processTerminate s z.1 =
        .ok ⟨s.store, Function.update s.processes (rest.length + 1) 0, a.1, ts⟩ ∧
      ts.Owned ((a :: rest).map Prod.snd) ∧ ts.currentTask = a.2 ∧
      ∀ b ∈ a :: rest, (ts.store b.2).map Task.process = some b.1 := by
  have hcurrent := h.current
  have hkeyboard := h.keyboard
  rw [List.map_append, List.map_singleton, getLastD_append_singleton] at hcurrent hkeyboard
  obtain ⟨p, hp, hptask, hppid⟩ := h.objects (rest.length + 1) z (by
    rw [List.getElem?_append_right (by simp)]
    simp)
  have howned := h.owned
  rw [List.map_append, List.map_singleton] at howned
  obtain ⟨l, x, hl⟩ : ∃ l x, (a :: rest).map Prod.snd = l ++ [x] := by
    rcases List.eq_nil_or_concat ((a :: rest).map Prod.snd) with hempty | ⟨l, x, hl⟩
    · simp at hempty
    · exact ⟨l, x, by rw [hl, List.concat_eq_append]⟩
  rw [hl, List.append_assoc] at howned
  obtain ⟨ts, hfree, howned', hcur, hold⟩ := taskFreeUnlink_last howned
  rw [if_pos hcurrent, h.owned.linked.head] at hcur
  have hfirst : s.processes 0 = a.1 := by
    rw [h.slots 0 (by decide)]
    rfl
  have hslot : Function.update s.processes (rest.length + 1) 0 0 = a.1 := by
    rw [Function.update_of_ne (by omega), hfirst]
  refine ⟨ts, ?_, hl ▸ howned', hcur, fun b hb => ?_⟩
  · unfold BoiOS.processTerminate
    simp only [hp, access_some, Except.bind, hptask, hfree, processUnlink, hppid, hkeyboard,
      ↓reduceIte]
    rw [processSwitchToAny_first (by
      dsimp only
      rw [hslot]
      exact h.nonnull a (by simp))]
    simp only [processSwitch, hslot]
  · rw [hold b.2 (by rw [← hl]; exact List.mem_map_of_mem hb)]
    exact h.processOf b (List.mem_append_left _ hb)

theorem Lined.exit_single {s : Scheduler} {z : Nat × Nat} (h : s.Lined [z]) :
    isr80hCommand9Exit s = .error .panicked := by
  have hcurrent : s.tasks.currentTask = z.2 := h.current
  have hkeyboard : s.currentProcess = z.1 := h.keyboard
  obtain ⟨p, hp, hptask, hppid⟩ := h.objects 0 z rfl
  obtain ⟨ts, hfree, _⟩ := taskFreeUnlink_single h.owned
  have hprocess : taskCurrentProcess s.tasks = some z.1 := by
    unfold taskCurrentProcess
    rw [hcurrent]
    exact h.processOf z (by simp)
  have hempty : ∀ i < boiosMaxProcesses, Function.update s.processes 0 0 i = 0 := by
    intro i hi
    by_cases hi0 : i = 0
    · simp [hi0]
    · rw [Function.update_of_ne hi0]
      exact h.slot_free (by simp; omega) hi
  unfold isr80hCommand9Exit BoiOS.processTerminate
  simp only [hprocess, hp, access_some, Except.bind, hptask, hfree, processUnlink, hppid, hkeyboard,
    ↓reduceIte]
  rw [processSwitchToAny_empty hempty]

theorem Lined.exit {s : Scheduler} {a z : Nat × Nat} {rest : List (Nat × Nat)}
    (h : s.Lined (a :: rest ++ [z])) :
    ∃ s', isr80hCommand9Exit s = .ok s' ∧ s'.currentProcess = a.1 ∧
      taskCurrentProcess s'.tasks = some ((rest.map Prod.fst).headD a.1) ∧
      (rest = [] → s'.Lined [a]) := by
  obtain ⟨ts, hterminate, howned, hcurrent, hprocessOf⟩ := h.processTerminate
  have hprocess : taskCurrentProcess s.tasks = some z.1 := by
    unfold taskCurrentProcess
    rw [h.current, List.map_append, List.map_singleton, getLastD_append_singleton]
    exact h.processOf z (by simp)
  obtain ⟨t, ht⟩ := howned.store_of_mem a.2 (by simp)
  have hnext : t.next = (rest.map Prod.snd).headD 0 := by
    have hlink := howned.linked.links.2.1
    simpa [Tasks.nextOf, ht] using hlink
  have hhead : ts.taskHead = a.2 := howned.linked.head
  let following := (rest.map Prod.snd).headD a.2
  have hget : taskGetNext ts = some following := by
    unfold taskGetNext
    rw [hcurrent, ht]
    cases rest with
    | nil =>
      have hlast : t.next = 0 := hnext
      simp [hlast, following, hhead]
    | cons b rest =>
      have hb : b.2 ≠ 0 := fun hzero => howned.nonnull (by simp [hzero])
      have hnextb : t.next = b.2 := hnext
      simp [hnextb, hb, following]
  have hne : following ≠ 0 := by
    intro hzero
    refine howned.nonnull ?_
    rw [← hzero]
    cases rest <;> simp [following]
  have hfollowing : (ts.store following).map Task.process =
      some ((rest.map Prod.fst).headD a.1) := by
    cases rest with
    | nil => exact hprocessOf a (by simp)
    | cons b rest => exact hprocessOf b (by simp)
  obtain ⟨t', ht', _⟩ := Option.map_eq_some_iff.mp hfollowing
  have hexit : isr80hCommand9Exit s = .ok ⟨s.store,
      Function.update s.processes (rest.length + 1) 0, a.1,
      { ts with currentTask := following }⟩ := by
    unfold isr80hCommand9Exit
    simp only [hprocess, access_some, Except.bind, hterminate, taskNext, hget, hne, ↓reduceIte,
      taskSwitch, ht', Option.map_some, Except.map]
  refine ⟨_, hexit, rfl, hfollowing, fun hrest => ?_⟩
  subst hrest
  refine ⟨by simp [boiosMaxProcesses], ?_, ?_, ?_, by simp, ?_, ?_, rfl, rfl⟩
  · intro i hi
    by_cases hi1 : i = 1
    · simp [hi1]
    · simp only [List.length_nil, Nat.zero_add]
      rw [Function.update_of_ne hi1, h.slots i hi]
      cases i with
      | zero => rfl
      | succ i =>
        rw [List.getD_eq_default _ _ (by simp; omega), List.getD_eq_default _ _ (by simp)]
  · intro i b hb
    exact h.objects i b (by
      cases i with
      | zero => simpa using hb
      | succ i => simp at hb)
  · intro b hb
    exact h.nonnull b (List.mem_append_left _ hb)
  · have hlinked := howned.linked
    exact ⟨⟨hlinked.head, hlinked.tail, hlinked.links, Or.inl (by simp [following])⟩,
      howned.nodup, howned.nonnull, howned.gone⟩
  · intro b hb
    exact hprocessOf b hb

/-- With at least three programs live the keyboard stays behind: it is left with the first of
the others while the second one runs. -/
theorem Lined.exit_not_follows {s s' : Scheduler} {a b z : Nat × Nat} {rest : List (Nat × Nat)}
    (h : s.Lined (a :: b :: rest ++ [z])) (hexit : isr80hCommand9Exit s = .ok s') :
    ¬ s'.KeyboardFollows := by
  obtain ⟨s'', hexit', hkeyboard, hcurrent, _⟩ := h.exit
  rw [hexit] at hexit'
  obtain rfl := Except.ok.inj hexit'
  unfold KeyboardFollows
  rw [hcurrent, hkeyboard]
  intro heq
  have hsame : b.1 = a.1 := Option.some.inj heq
  have hdistinct := h.distinct
  simp [hsame] at hdistinct

theorem next_exit_or_exception {s : Scheduler} {call : SchedulerCall}
    (hcall : call = .exit ∨ call = .exception) :
    s.next call = isr80hCommand9Exit s ∧ (s.Enabled call → s.tasks.currentTask ≠ 0) ∧
      (s.AtMostTwo call ↔ s.liveCount ≤ 2) := by
  rcases hcall with rfl | rfl
  · exact ⟨rfl, id, Iff.rfl⟩
  · exact ⟨rfl, id, Iff.rfl⟩

theorem Lined.next {s : Scheduler} {live : List (Nat × Nat)} (h : s.Lined live)
    {call : SchedulerCall} (henabled : s.Enabled call) :
    (s.AtMostTwo call → Inv (s.next call) ∧ Good (.ok s) call (s.next call)) ∧
      (¬ s.AtMostTwo call → ¬ Good (.ok s) call (s.next call)) := by
  have hleave : ∀ call, call = .exit ∨ call = .exception → s.Enabled call →
      (s.AtMostTwo call → Inv (s.next call) ∧ Good (.ok s) call (s.next call)) ∧
        (¬ s.AtMostTwo call → ¬ Good (.ok s) call (s.next call)) := by
    intro call hcall henabled
    obtain ⟨hnext, hrunning, htwo⟩ := next_exit_or_exception (s := s) hcall
    rw [hnext, htwo, h.liveCount_eq]
    rcases List.eq_nil_or_concat live with rfl | ⟨l, z, hlive⟩
    · exact absurd h.current (hrunning henabled)
    · rw [List.concat_eq_append] at hlive
      subst hlive
      cases l with
      | nil =>
        rw [Lined.exit_single (z := z) h]
        exact ⟨fun _ => ⟨fun _ hok => by contradiction, rfl⟩, fun hmore => absurd (by simp) hmore⟩
      | cons a rest =>
        obtain ⟨s', hexit, _, _, hlined⟩ := h.exit
        rw [hexit]
        cases rest with
        | nil =>
          have hlined' : s'.Lined ([] ++ [a]) := hlined rfl
          refine ⟨fun _ => ⟨fun t ht => ⟨[a], ?_⟩, ?_⟩, fun hmore => absurd (by simp) hmore⟩
          · rwa [← Except.ok.inj ht]
          · exact hlined'.keyboardFollows
        | cons b rest =>
          refine ⟨fun hfew => absurd hfew (by simp), fun _ => ?_⟩
          exact h.exit_not_follows hexit
  cases call with
  | start loaded process task pageDirectory ip =>
    refine ⟨fun _ => ?_, fun hmore => absurd trivial hmore⟩
    by_cases hroom : live.length < boiosMaxProcesses
    · obtain ⟨s', hstart, hlined⟩ := h.start hroom henabled
      rw [hstart]
      refine ⟨fun t ht => ⟨live ++ [(process, task)], ?_⟩, hlined.keyboardFollows⟩
      rwa [← Except.ok.inj ht]
    · rw [h.start_full hroom]
      refine ⟨fun t ht => ⟨live, ?_⟩, ?_⟩
      · rwa [← Except.ok.inj ht]
      · rcases List.eq_nil_or_concat live with rfl | ⟨l, z, hlive⟩
        · exact absurd (by simp [boiosMaxProcesses]) hroom
        · rw [List.concat_eq_append] at hlive
          subst hlive
          exact h.keyboardFollows
  | exit => exact hleave _ (Or.inl rfl) henabled
  | exception => exact hleave _ (Or.inr rfl) henabled

/-- The keyboard follows the running program at every entry into user mode of a run exactly
if programs exit or fault only while at most two of them are live. -/
theorem scheduler_runs_good_iff (run : List (SchedulerCall × Except Stop Scheduler))
    (hrun : Path step (.ok boot) run) :
    Along Good (.ok boot) run ↔ Along Served (.ok boot) run := by
  have hkeep : ∀ r call r', Inv r → step r call r' → Served r call r' → Inv r' := by
    rintro _ call _ h ⟨s, rfl, henabled, rfl⟩ hserved
    obtain ⟨live, hlined⟩ := h s rfl
    exact ((hlined.next henabled).1 (hserved s rfl)).1
  have hdecides : ∀ r call r', Inv r → step r call r' → (Good r call r' ↔ Served r call r') := by
    rintro _ call _ h ⟨s, rfl, henabled, rfl⟩
    obtain ⟨live, hlined⟩ := h s rfl
    obtain ⟨hgood, hbad⟩ := hlined.next henabled
    constructor
    · intro hg s' hs'
      obtain rfl := Except.ok.inj hs'
      by_contra hmore
      exact hbad hmore hg
    · intro hserved
      exact (hgood (hserved s rfl)).2
  have hboot : Inv (.ok boot) := fun s hs => ⟨[], Except.ok.inj hs ▸ lined_boot⟩
  exact along_iff hkeep hdecides (.ok boot) run hboot hrun

/-! Three programs are started and the last one exits. -/

def threeStarts : List SchedulerCall :=
  [.start processInit 0x1001000 0x1001100 0 0, .start processInit 0x1002000 0x1002100 0 0,
    .start processInit 0x1003000 0x1003100 0 0, .exit]

def nextResult (r : Except Stop Scheduler) (call : SchedulerCall) : Except Stop Scheduler :=
  r.bind fun s => s.next call

def threeStartsRun : List (SchedulerCall × Except Stop Scheduler) :=
  trace nextResult (.ok boot) threeStarts

theorem threeStartsRun_path : Path step (.ok boot) threeStartsRun :=
  ⟨⟨boot, rfl, ⟨by decide, rfl, by decide, rfl⟩, rfl⟩,
    ⟨_, rfl, ⟨by decide, rfl, by decide, rfl⟩, rfl⟩,
    ⟨_, rfl, ⟨by decide, rfl, by decide, rfl⟩, rfl⟩,
    ⟨_, rfl, show 0x1003100 ≠ 0 by decide, rfl⟩, trivial⟩

theorem scheduler_runs_good_threeStarts :
    Along Good (.ok boot) threeStartsRun ↔ Along Served (.ok boot) threeStartsRun :=
  scheduler_runs_good_iff threeStartsRun threeStartsRun_path

theorem threeStartsRun_split : ∃ s, last (.ok boot) threeStartsRun = .ok s ∧
    s.currentProcess = 0x1001000 ∧ taskCurrentProcess s.tasks = some 0x1002000 :=
  ⟨_, rfl, rfl, rfl⟩

theorem scheduler_runs_not_always_good :
    ¬ ∀ run, Path step (.ok boot) run → Along Good (.ok boot) run := by
  intro h
  obtain ⟨_, _, _, hgood, _⟩ := h threeStartsRun threeStartsRun_path
  obtain ⟨s, hlast, hkeyboard, hcurrent⟩ := threeStartsRun_split
  have hfollows : Good (.ok boot) .exit (last (.ok boot) threeStartsRun) := hgood
  rw [hlast] at hfollows
  change taskCurrentProcess s.tasks = some s.currentProcess at hfollows
  rw [hcurrent, hkeyboard] at hfollows
  exact absurd hfollows (by decide)

end Scheduler
end BoiOS
