import BoiOS.Library.Ring
import BoiOS.Library.Transition
import BoiOS.Task.Process

/-! The key queue of a process. Its cells and its two wrapping counters are a queue in a ring of
1024 cells; a push on a full ring and a backspace on an empty one take it out of that
representation, because neither looks at the counters. -/
namespace BoiOS
open Library Library.Transition

def keyboardBackspace (s : Scheduler) (process : Nat) : Except Stop Scheduler :=
  (access (s.store process)).map fun p =>
    let p := { p with keyboard := { p.keyboard with tail := i32 (p.keyboard.tail - 1) } }
    let buffer := Function.update p.keyboard.buffer (keyboardGetTailIndex p) 0
    { s with
      store := Function.update s.store process (some { p with
        keyboard := { p.keyboard with buffer } }) }

theorem u32_mod_eq_index (x : Int) : u32 x % 1024 = Ring.index 1024 x := by
  unfold u32 Ring.index
  omega

def KeyboardBuffer.unread (kb : KeyboardBuffer) : Int := i32 (kb.tail - kb.head)

/-- The cells from head to tail hold the queue, and every other cell is zero. -/
structure KeyboardBuffer.Queue (kb : KeyboardBuffer) (queue : List UInt8) : Prop where
  ring : Ring.Holds 1024 0 kb.buffer kb.head queue
  nonzero : ∀ c ∈ queue, c ≠ 0
  counters : (kb.tail - kb.head) % 4294967296 = queue.length

namespace KeyboardBuffer

theorem Queue.unread_eq {kb : KeyboardBuffer} {queue : List UInt8} (h : kb.Queue queue) :
    kb.unread = queue.length := by
  have hfits := h.ring.fits
  have hcounters := h.counters
  unfold unread i32
  omega

theorem Queue.tail_index {kb : KeyboardBuffer} {queue : List UInt8} (h : kb.Queue queue) :
    u32 kb.tail % 1024 = Ring.index 1024 (kb.head + queue.length) := by
  rw [u32_mod_eq_index]
  apply Ring.index_congr
  have hcounters := h.counters
  omega

theorem Queue.zeroed {kb : KeyboardBuffer} (hbuffer : ∀ i < 1024, kb.buffer i = 0)
    (htail : kb.tail = 0) (hhead : kb.head = 0) : kb.Queue [] := by
  refine ⟨⟨Nat.zero_le _, fun i hi => ?_⟩, fun c hc => absurd hc List.not_mem_nil, ?_⟩
  · exact hbuffer _ (Ring.index_lt (by decide) _)
  · rw [htail, hhead]
    rfl

theorem Queue.push {kb : KeyboardBuffer} {queue : List UInt8} (h : kb.Queue queue) {c : UInt8}
    (hc : c ≠ 0) (hroom : queue.length < 1024) :
    Queue { kb with
      buffer := Function.update kb.buffer (u32 kb.tail % 1024) c
      tail := i32 (kb.tail + 1) } (queue ++ [c]) := by
  refine ⟨?_, fun d hd => ?_, ?_⟩
  · rw [h.tail_index]
    exact h.ring.push hroom c
  · rcases List.mem_append.mp hd with hd | hd
    · exact h.nonzero d hd
    · rwa [List.mem_singleton.mp hd]
  · have hcounters := h.counters
    rw [List.length_append, List.length_singleton]
    dsimp only
    unfold i32
    push_cast
    omega

theorem Queue.pop {kb : KeyboardBuffer} {c : UInt8} {rest : List UInt8}
    (h : kb.Queue (c :: rest)) :
    Queue { kb with
      buffer := Function.update kb.buffer (u32 kb.head % 1024) 0
      head := i32 (kb.head + 1) } rest := by
  refine ⟨?_, fun d hd => h.nonzero d (List.mem_cons_of_mem _ hd), ?_⟩
  · rw [u32_mod_eq_index]
    refine h.ring.pop.congr ?_
    dsimp only
    unfold i32
    omega
  · have hcounters := h.counters
    rw [List.length_cons] at hcounters
    dsimp only
    unfold i32
    push_cast at hcounters
    omega

theorem Queue.backspace {kb : KeyboardBuffer} {c : UInt8} {rest : List UInt8}
    (h : kb.Queue (rest ++ [c])) :
    Queue { kb with
      buffer := Function.update kb.buffer (u32 (i32 (kb.tail - 1)) % 1024) 0
      tail := i32 (kb.tail - 1) } rest := by
  have hcounters := h.counters
  rw [List.length_append, List.length_singleton] at hcounters
  push_cast at hcounters
  refine ⟨?_, fun d hd => h.nonzero d (List.mem_append_left _ hd), ?_⟩
  · have hindex : u32 (i32 (kb.tail - 1)) % 1024 = Ring.index 1024 (kb.head + rest.length) := by
      rw [u32_mod_eq_index]
      apply Ring.index_congr
      unfold i32
      omega
    rw [hindex]
    exact h.ring.dropLast
  · dsimp only
    unfold i32
    omega

theorem Queue.front {kb : KeyboardBuffer} {queue : List UInt8} (h : kb.Queue queue) :
    kb.buffer (u32 kb.head % 1024) = (queue[0]?).getD 0 := by
  rw [u32_mod_eq_index]
  exact h.ring.front (by decide)

/-- The counters are at most a ring apart, and a cell is nonzero exactly between them. -/
structure Consistent (kb : KeyboardBuffer) : Prop where
  low : 0 ≤ kb.unread
  high : kb.unread ≤ 1024
  cells : ∀ i : Nat, i < 1024 → (kb.buffer (u32 (kb.head + i) % 1024) ≠ 0 ↔ (i : Int) < kb.unread)

theorem Queue.consistent {kb : KeyboardBuffer} {queue : List UInt8} (h : kb.Queue queue) :
    kb.Consistent := by
  have hfits := h.ring.fits
  refine ⟨by rw [h.unread_eq]; omega, by rw [h.unread_eq]; omega, fun i hi => ?_⟩
  rw [h.unread_eq, u32_mod_eq_index, h.ring.cell i hi, Nat.cast_lt]
  constructor
  · intro hne
    by_contra hout
    rw [List.getElem?_eq_none (by omega)] at hne
    exact hne rfl
  · intro hin
    rw [List.getElem?_eq_getElem hin]
    exact h.nonzero _ (List.getElem_mem hin)

end KeyboardBuffer

/-! Runs. -/

/-- The scheduler, with the characters that were pushed for the process and popped by it so far. -/
structure KeyRun where
  scheduler : Scheduler
  pushed : List UInt8
  popped : List UInt8

inductive KeyCall
  | push (c : UInt8)
  | pop
  | backspace
  | other
  deriving DecidableEq

def Scheduler.keyboardOf (s : Scheduler) (process : Nat) : Option KeyboardBuffer :=
  (s.store process).map Process.keyboard

namespace KeyRun

/-- The keyboard pushes while the process is the current one, and the process pops while its task
is; in between the kernel may do anything that leaves its key queue alone. -/
def step (process : Nat) : Step KeyRun KeyCall := fun s call t =>
  match call with
  | .push c => c ≠ 0 ∧ s.scheduler.currentProcess = process ∧
      keyboardPush s.scheduler c = .ok t.scheduler ∧ t.pushed = s.pushed ++ [c] ∧
      t.popped = s.popped
  | .pop => s.scheduler.tasks.currentTask ≠ 0 ∧
      taskCurrentProcess s.scheduler.tasks = some process ∧
      ∃ c, keyboardPop s.scheduler = .ok (c, t.scheduler) ∧ t.pushed = s.pushed ∧
        t.popped = if c = 0 then s.popped else s.popped ++ [c]
  | .backspace => keyboardBackspace s.scheduler process = .ok t.scheduler ∧
      t.pushed = s.pushed ∧ t.popped = s.popped
  | .other => t.scheduler.keyboardOf process = s.scheduler.keyboardOf process ∧
      t.pushed = s.pushed ∧ t.popped = s.popped

structure Zeroed (process : Nat) (s : KeyRun) : Prop where
  keyboard : ∃ kb, s.scheduler.keyboardOf process = some kb ∧
    (∀ i < 1024, kb.buffer i = 0) ∧ kb.tail = 0 ∧ kb.head = 0
  pushed : s.pushed = []
  popped : s.popped = []

/-! What each call does to the key queue. -/

theorem keyboardOf_push {s s' : Scheduler} {process : Nat} {c : UInt8} {kb : KeyboardBuffer}
    (hprocess : process ≠ 0) (hc : c ≠ 0) (hcurrent : s.currentProcess = process)
    (hkb : s.keyboardOf process = some kb) (h : keyboardPush s c = .ok s') :
    s'.keyboardOf process = some { kb with
      buffer := Function.update kb.buffer (u32 kb.tail % 1024) c
      tail := i32 (kb.tail + 1) } := by
  unfold Scheduler.keyboardOf at hkb
  rw [Option.map_eq_some_iff] at hkb
  obtain ⟨p, hp, rfl⟩ := hkb
  unfold keyboardPush at h
  rw [hcurrent, if_neg hprocess, if_neg hc, hp, access_some] at h
  simp only [Except.map, Except.ok.injEq] at h
  rw [← h, Scheduler.keyboardOf]
  dsimp only
  rw [Function.update_self, Option.map_some]
  rfl

theorem keyboardPop_eq {s : Scheduler} {process : Nat} {kb : KeyboardBuffer}
    (htask : s.tasks.currentTask ≠ 0) (hcurrent : taskCurrentProcess s.tasks = some process)
    (hkb : s.keyboardOf process = some kb) {s' : Scheduler} {c : UInt8}
    (h : keyboardPop s = .ok (c, s')) :
    c = kb.buffer (u32 kb.head % 1024) ∧
      s'.keyboardOf process = some (if c = 0 then kb else { kb with
        buffer := Function.update kb.buffer (u32 kb.head % 1024) 0
        head := i32 (kb.head + 1) }) := by
  have hstore := hkb
  unfold Scheduler.keyboardOf at hstore
  rw [Option.map_eq_some_iff] at hstore
  obtain ⟨p, hp, rfl⟩ := hstore
  unfold keyboardPop boiosKeyboardBufferSize at h
  rw [if_neg htask, hcurrent, access_some] at h
  simp only [Except.bind, hp, access_some, Except.map, Except.ok.injEq] at h
  split_ifs at h with hzero
  · obtain ⟨rfl, rfl⟩ := Prod.mk.inj h
    exact ⟨hzero.symm, by rw [if_pos rfl, hkb]⟩
  · obtain ⟨rfl, rfl⟩ := Prod.mk.inj h
    refine ⟨rfl, ?_⟩
    rw [if_neg hzero, Scheduler.keyboardOf]
    dsimp only
    rw [Function.update_self, Option.map_some]

theorem keyboardOf_backspace {s s' : Scheduler} {process : Nat} {kb : KeyboardBuffer}
    (hkb : s.keyboardOf process = some kb) (h : keyboardBackspace s process = .ok s') :
    s'.keyboardOf process = some { kb with
      buffer := Function.update kb.buffer (u32 (i32 (kb.tail - 1)) % 1024) 0
      tail := i32 (kb.tail - 1) } := by
  unfold Scheduler.keyboardOf at hkb
  rw [Option.map_eq_some_iff] at hkb
  obtain ⟨p, hp, rfl⟩ := hkb
  unfold keyboardBackspace keyboardGetTailIndex at h
  rw [hp, access_some] at h
  simp only [Except.map, Except.ok.injEq] at h
  rw [← h, Scheduler.keyboardOf]
  dsimp only
  rw [Function.update_self, Option.map_some]
  rfl

def Unread (process : Nat) (s : KeyRun) (queue : List UInt8) : Prop :=
  ∃ kb, s.scheduler.keyboardOf process = some kb ∧ kb.Queue queue

theorem Zeroed.unread {process : Nat} {s : KeyRun} (h : s.Zeroed process) :
    s.Unread process [] := by
  obtain ⟨kb, hkb, hbuffer, htail, hhead⟩ := h.keyboard
  exact ⟨kb, hkb, .zeroed hbuffer htail hhead⟩

/-- The calls that stay in the representation: a push that finds room and a backspace that finds a
character. -/
def Served (process : Nat) : Step KeyRun KeyCall := fun s call _ =>
  match call with
  | .push _ => ∀ kb, s.scheduler.keyboardOf process = some kb → kb.unread < 1024
  | .backspace => ∀ kb, s.scheduler.keyboardOf process = some kb → 0 < kb.unread
  | .pop => True
  | .other => True

def pushedBy : KeyCall → List UInt8
  | .push c => [c]
  | .pop => []
  | .backspace => []
  | .other => []

def poppedBy (queue : List UInt8) : KeyCall → List UInt8
  | .push _ => []
  | .pop => queue.take 1
  | .backspace => []
  | .other => []

def nextQueue (queue : List UInt8) : KeyCall → List UInt8
  | .push c => queue ++ [c]
  | .pop => queue.tail
  | .backspace => queue.dropLast
  | .other => queue

theorem Unread.room {process : Nat} {s t : KeyRun} {c : UInt8} {queue : List UInt8}
    (h : s.Unread process queue) : Served process s (.push c) t ↔ queue.length < 1024 := by
  obtain ⟨kb, hkb, hqueue⟩ := h
  have hunread := hqueue.unread_eq
  constructor
  · intro hserved
    have hroom := hserved kb hkb
    omega
  · intro hroom kb' hkb'
    rw [hkb] at hkb'
    cases hkb'
    omega

theorem Unread.nonempty {process : Nat} {s t : KeyRun} {queue : List UInt8}
    (h : s.Unread process queue) : Served process s .backspace t ↔ queue ≠ [] := by
  obtain ⟨kb, hkb, hqueue⟩ := h
  have hunread := hqueue.unread_eq
  rw [← List.length_pos_iff]
  constructor
  · intro hserved
    have hsome := hserved kb hkb
    omega
  · intro hsome kb' hkb'
    rw [hkb] at hkb'
    cases hkb'
    omega

theorem Unread.pop {process : Nat} {s : KeyRun} {queue : List UInt8} (h : s.Unread process queue)
    (htask : s.scheduler.tasks.currentTask ≠ 0)
    (hcurrent : taskCurrentProcess s.scheduler.tasks = some process) {c : UInt8}
    {s' : Scheduler} (hpop : keyboardPop s.scheduler = .ok (c, s')) : c = (queue[0]?).getD 0 := by
  obtain ⟨kb, hkb, hqueue⟩ := h
  rw [← hqueue.front]
  exact (keyboardPop_eq htask hcurrent hkb hpop).1

theorem Unread.step {process : Nat} {s t : KeyRun} {call : KeyCall} {queue : List UInt8}
    (hprocess : process ≠ 0) (h : s.Unread process queue) (hstep : step process s call t)
    (hserved : Served process s call t) :
    t.Unread process (nextQueue queue call) ∧ t.pushed = s.pushed ++ pushedBy call ∧
      t.popped = s.popped ++ poppedBy queue call := by
  cases call with
  | push c =>
    have hroom := h.room.mp hserved
    obtain ⟨kb, hkb, hqueue⟩ := h
    obtain ⟨hc, hcurrent, hpush, hpushed, hpopped⟩ := hstep
    refine ⟨⟨_, keyboardOf_push hprocess hc hcurrent hkb hpush, hqueue.push hc hroom⟩, hpushed, ?_⟩
    rw [hpopped, poppedBy, List.append_nil]
  | pop =>
    obtain ⟨htask, hcurrent, c, hpop, hpushed, hpopped⟩ := hstep
    have hfront := h.pop htask hcurrent hpop
    obtain ⟨kb, hkb, hqueue⟩ := h
    have hkeyboard := (keyboardPop_eq htask hcurrent hkb hpop).2
    rw [pushedBy, List.append_nil]
    cases queue with
    | nil =>
      have hzero : c = 0 := hfront
      rw [if_pos hzero] at hkeyboard hpopped
      refine ⟨⟨kb, hkeyboard, hqueue⟩, hpushed, ?_⟩
      rw [hpopped, poppedBy, List.take_nil, List.append_nil]
    | cons d rest =>
      have hd : c = d := hfront
      have hnonzero : c ≠ 0 := by
        rw [hd]
        exact hqueue.nonzero d (List.mem_cons_self ..)
      rw [if_neg hnonzero] at hkeyboard hpopped
      refine ⟨⟨_, hkeyboard, hqueue.pop⟩, hpushed, ?_⟩
      rw [hpopped, hd]
      rfl
  | backspace =>
    have hne := h.nonempty.mp hserved
    obtain ⟨kb, hkb, hqueue⟩ := h
    obtain ⟨hbackspace, hpushed, hpopped⟩ := hstep
    rw [← List.dropLast_append_getLast hne] at hqueue
    refine ⟨⟨_, keyboardOf_backspace hkb hbackspace, hqueue.backspace⟩, ?_, ?_⟩
    · rw [hpushed, pushedBy, List.append_nil]
    · rw [hpopped, poppedBy, List.append_nil]
  | other =>
    obtain ⟨kb, hkb, hqueue⟩ := h
    obtain ⟨hsame, hpushed, hpopped⟩ := hstep
    refine ⟨⟨kb, hsame.trans hkb, hqueue⟩, ?_, ?_⟩
    · rw [hpushed, pushedBy, List.append_nil]
    · rw [hpopped, poppedBy, List.append_nil]

/-! Every sequence of calls has a run while the process is the current one and its task is too. -/

structure Ready (process : Nat) (s : KeyRun) : Prop where
  keyboard : ∃ kb, s.scheduler.keyboardOf process = some kb
  current : s.scheduler.currentProcess = process
  task : s.scheduler.tasks.currentTask ≠ 0
  reads : taskCurrentProcess s.scheduler.tasks = some process

def next (process : Nat) (s : KeyRun) : KeyCall → KeyRun
  | .push c => match keyboardPush s.scheduler c with
    | .ok s' => ⟨s', s.pushed ++ [c], s.popped⟩
    | .error _ => s
  | .pop => match keyboardPop s.scheduler with
    | .ok (c, s') => ⟨s', s.pushed, if c = 0 then s.popped else s.popped ++ [c]⟩
    | .error _ => s
  | .backspace => match keyboardBackspace s.scheduler process with
    | .ok s' => ⟨s', s.pushed, s.popped⟩
    | .error _ => s
  | .other => s

theorem Ready.push {process : Nat} {s : KeyRun} (h : s.Ready process) (hprocess : process ≠ 0)
    {c : UInt8} (hc : c ≠ 0) : ∃ s', keyboardPush s.scheduler c = .ok s' ∧
      s'.currentProcess = s.scheduler.currentProcess ∧ s'.tasks = s.scheduler.tasks := by
  obtain ⟨kb, hkb⟩ := h.keyboard
  unfold Scheduler.keyboardOf at hkb
  rw [Option.map_eq_some_iff] at hkb
  obtain ⟨p, hp, -⟩ := hkb
  unfold keyboardPush
  rw [h.current, if_neg hprocess, if_neg hc, hp, access_some]
  exact ⟨_, rfl, rfl, rfl⟩

theorem Ready.pop {process : Nat} {s : KeyRun} (h : s.Ready process) :
    ∃ c s', keyboardPop s.scheduler = .ok (c, s') ∧
      s'.currentProcess = s.scheduler.currentProcess ∧ s'.tasks = s.scheduler.tasks := by
  obtain ⟨kb, hkb⟩ := h.keyboard
  unfold Scheduler.keyboardOf at hkb
  rw [Option.map_eq_some_iff] at hkb
  obtain ⟨p, hp, -⟩ := hkb
  unfold keyboardPop
  rw [if_neg h.task, h.reads, access_some]
  simp only [Except.bind, hp, access_some, Except.map]
  split_ifs
  · exact ⟨_, _, rfl, rfl, rfl⟩
  · exact ⟨_, _, rfl, rfl, rfl⟩

theorem Ready.backspace {process : Nat} {s : KeyRun} (h : s.Ready process) :
    ∃ s', keyboardBackspace s.scheduler process = .ok s' ∧
      s'.currentProcess = s.scheduler.currentProcess ∧ s'.tasks = s.scheduler.tasks := by
  obtain ⟨kb, hkb⟩ := h.keyboard
  unfold Scheduler.keyboardOf at hkb
  rw [Option.map_eq_some_iff] at hkb
  obtain ⟨p, hp, -⟩ := hkb
  unfold keyboardBackspace
  rw [hp, access_some]
  exact ⟨_, rfl, rfl, rfl⟩

theorem Ready.step {process : Nat} {s : KeyRun} (h : s.Ready process) (hprocess : process ≠ 0)
    {call : KeyCall} (hcall : call ≠ .push 0) :
    KeyRun.step process s call (s.next process call) ∧ (s.next process call).Ready process := by
  obtain ⟨kb, hkb⟩ := h.keyboard
  cases call with
  | push c =>
    have hc : c ≠ 0 := fun heq => hcall (by rw [heq])
    obtain ⟨s', hpush, hcurrent, htasks⟩ := h.push hprocess hc
    have hnext : s.next process (.push c) = ⟨s', s.pushed ++ [c], s.popped⟩ := by
      rw [next, hpush]
    rw [hnext]
    refine ⟨⟨hc, h.current, hpush, rfl, rfl⟩, ⟨⟨_, keyboardOf_push hprocess hc h.current hkb hpush⟩,
      hcurrent.trans h.current, ?_, ?_⟩⟩
    · rw [htasks]
      exact h.task
    · rw [htasks]
      exact h.reads
  | pop =>
    obtain ⟨c, s', hpop, hcurrent, htasks⟩ := h.pop
    have hnext : s.next process .pop =
        ⟨s', s.pushed, if c = 0 then s.popped else s.popped ++ [c]⟩ := by
      rw [next, hpop]
    rw [hnext]
    refine ⟨⟨h.task, h.reads, c, hpop, rfl, rfl⟩, ⟨⟨_, (keyboardPop_eq h.task h.reads hkb hpop).2⟩,
      hcurrent.trans h.current, ?_, ?_⟩⟩
    · rw [htasks]
      exact h.task
    · rw [htasks]
      exact h.reads
  | backspace =>
    obtain ⟨s', hback, hcurrent, htasks⟩ := h.backspace
    have hnext : s.next process .backspace = ⟨s', s.pushed, s.popped⟩ := by
      rw [next, hback]
    rw [hnext]
    refine ⟨⟨hback, rfl, rfl⟩, ⟨⟨_, keyboardOf_backspace hkb hback⟩, hcurrent.trans h.current,
      ?_, ?_⟩⟩
    · rw [htasks]
      exact h.task
    · rw [htasks]
      exact h.reads
  | other => exact ⟨⟨rfl, rfl, rfl⟩, h⟩

theorem Ready.path {process : Nat} (hprocess : process ≠ 0) (calls : List KeyCall)
    (hcalls : KeyCall.push 0 ∉ calls) (s : KeyRun) (h : s.Ready process) :
    Path (KeyRun.step process) s (trace (next process) s calls) := by
  induction calls generalizing s with
  | nil => trivial
  | cons call rest ih =>
    obtain ⟨hhead, hrest⟩ := not_or.mp (mt List.mem_cons.mpr hcalls)
    obtain ⟨hstep, hready⟩ := h.step hprocess (Ne.symm hhead)
    exact ⟨hstep, ih hrest _ hready⟩

def oneProcess : KeyRun where
  scheduler :=
    { store := fun address => if address = 1 then some processInit else none
      processes := fun i => if i = 0 then 1 else 0
      currentProcess := 1
      tasks := ⟨fun address => if address = 1 then some (taskInit 0 1 0) else none, 1, 1, 1⟩ }
  pushed := []
  popped := []

theorem oneProcess_zeroed : oneProcess.Zeroed 1 :=
  ⟨⟨_, rfl, fun _ _ => rfl, rfl, rfl⟩, rfl, rfl⟩

theorem oneProcess_ready : oneProcess.Ready 1 := ⟨⟨_, rfl⟩, rfl, by decide, rfl⟩

/-! First in, first out: without backspaces, what was popped followed by what is unread is what was
pushed. -/

def Fifo (process : Nat) (s : KeyRun) : Prop :=
  ∃ queue, s.Unread process queue ∧ s.popped ++ queue = s.pushed

theorem Fifo.step {process : Nat} {s t : KeyRun} {call : KeyCall} (hprocess : process ≠ 0)
    (h : s.Fifo process) (hstep : KeyRun.step process s call t) (hback : call ≠ .backspace)
    (hbound : t.pushed.length ≤ t.popped.length + 1024) : t.Fifo process := by
  obtain ⟨queue, hunread, hfifo⟩ := h
  have hserved : Served process s call t := by
    cases call with
    | push c =>
      -- the unread characters are the pushed ones that were not popped
      have hlength := congrArg List.length hfifo
      rw [List.length_append] at hlength
      obtain ⟨-, -, -, hpushed, hpopped⟩ := hstep
      rw [hpushed, hpopped, List.length_append, List.length_singleton] at hbound
      exact hunread.room.mpr (by omega)
    | pop => trivial
    | backspace => exact absurd rfl hback
    | other => trivial
  obtain ⟨hnext, hpushed, hpopped⟩ := hunread.step hprocess hstep hserved
  refine ⟨nextQueue queue call, hnext, ?_⟩
  rw [hpushed, hpopped, ← hfifo]
  cases call with
  | push c => rw [poppedBy, List.append_nil, nextQueue, pushedBy, List.append_assoc]
  | pop =>
    rw [poppedBy, nextQueue, pushedBy, List.append_nil, List.append_assoc]
    cases queue <;> rfl
  | backspace => exact absurd rfl hback
  | other => rw [poppedBy, nextQueue, pushedBy, List.append_nil, List.append_nil]

/-- What a user of the queue sees: the popped characters are the first ones pushed, and a pop gives
zero exactly when all of them were popped. -/
def InOrder : Step KeyRun KeyCall := fun s call t =>
  t.popped <+: t.pushed ∧
    (call = .pop → ∀ c s', keyboardPop s.scheduler = .ok (c, s') → (c = 0 ↔ s.popped = s.pushed))

theorem Fifo.inOrder {process : Nat} {s t : KeyRun} {call : KeyCall} (h : s.Fifo process)
    (hstep : KeyRun.step process s call t) (ht : t.Fifo process) : InOrder s call t := by
  obtain ⟨queue', -, hfifo'⟩ := ht
  refine ⟨⟨queue', hfifo'⟩, ?_⟩
  rintro rfl c s' hpop
  obtain ⟨queue, hunread, hfifo⟩ := h
  obtain ⟨htask, hcurrent, -⟩ := hstep
  rw [hunread.pop htask hcurrent hpop]
  cases queue with
  | nil => exact iff_of_true rfl (by rw [← hfifo, List.append_nil])
  | cons d rest =>
    obtain ⟨kb, -, hqueue⟩ := hunread
    have hnonzero := hqueue.nonzero d (List.mem_cons_self ..)
    refine iff_of_false hnonzero fun hall => ?_
    rw [← hfifo] at hall
    have hlength := congrArg List.length hall
    rw [List.length_append, List.length_cons] at hlength
    omega

theorem keyboard_fifo (process : Nat) (hprocess : process ≠ 0) (s : KeyRun)
    (hstart : s.Zeroed process) (run : List (KeyCall × KeyRun))
    (hpath : Path (KeyRun.step process) s run)
    (hbound : Along (fun _ call t =>
      call ≠ .backspace ∧ t.pushed.length ≤ t.popped.length + 1024) s run) :
    Along InOrder s run := by
  have hfifo : s.Fifo process := ⟨[], hstart.unread, by rw [hstart.popped, hstart.pushed]; rfl⟩
  refine along_of_invariant (fun s call t (h : s.Fifo process) hstep hc => ?_) ?_ s run hfifo
    hpath hbound
  · exact h.step hprocess hstep hc.1 hc.2
  · intro s call t h hstep hc
    exact h.inOrder hstep (h.step hprocess hstep hc.1 hc.2)

theorem keyboard_fifo_oneProcess :
    Along InOrder oneProcess (trace (next 1) oneProcess [.push 97, .push 98, .pop]) := by
  refine keyboard_fifo 1 (by decide) oneProcess oneProcess_zeroed _
    (Ready.path (by decide) _ (by decide) _ oneProcess_ready) ?_
  have hfew (n m : Nat) (hn : n ≤ 2) : n ≤ m + 1024 := by omega
  exact ⟨⟨by decide, hfew 1 _ (by decide)⟩, ⟨by decide, hfew 2 _ (by decide)⟩,
    ⟨by decide, hfew 2 _ (by decide)⟩, trivial⟩

/-! Any run: the representation lasts as long as pushes find room and backspaces a character. -/

def Tracked (process : Nat) (s : KeyRun) : Prop :=
  ∃ queue, s.Unread process queue ∧ (s.popped ++ queue).Sublist s.pushed

theorem Tracked.step {process : Nat} {s t : KeyRun} {call : KeyCall} (hprocess : process ≠ 0)
    (h : s.Tracked process) (hstep : KeyRun.step process s call t)
    (hserved : Served process s call t) : t.Tracked process := by
  obtain ⟨queue, hunread, hsublist⟩ := h
  obtain ⟨hnext, hpushed, hpopped⟩ := hunread.step hprocess hstep hserved
  refine ⟨nextQueue queue call, hnext, ?_⟩
  rw [hpushed, hpopped]
  cases call with
  | push c =>
    rw [poppedBy, List.append_nil, nextQueue, pushedBy, ← List.append_assoc]
    exact hsublist.append (List.Sublist.refl _)
  | pop =>
    rw [poppedBy, nextQueue, pushedBy, List.append_nil, List.append_assoc]
    cases queue with
    | nil => exact hsublist
    | cons d rest => exact hsublist
  | backspace =>
    rw [poppedBy, nextQueue, pushedBy, List.append_nil, List.append_nil]
    exact ((List.Sublist.refl _).append (List.dropLast_sublist _)).trans hsublist
  | other =>
    rw [poppedBy, nextQueue, pushedBy, List.append_nil, List.append_nil]
    exact hsublist

def Good (process : Nat) (s : KeyRun) : Prop :=
  (∃ kb, s.scheduler.keyboardOf process = some kb ∧ kb.Consistent) ∧ s.popped.Sublist s.pushed

theorem Tracked.good {process : Nat} {s : KeyRun} (h : s.Tracked process) : s.Good process := by
  obtain ⟨queue, ⟨kb, hkb, hqueue⟩, hsublist⟩ := h
  exact ⟨⟨kb, hkb, hqueue.consistent⟩, (List.sublist_append_left _ _).trans hsublist⟩

theorem Tracked.served {process : Nat} {s t : KeyRun} {call : KeyCall} (hprocess : process ≠ 0)
    (h : s.Tracked process) (hstep : KeyRun.step process s call t) (hgood : t.Good process) :
    Served process s call t := by
  obtain ⟨⟨kb', hkb', hconsistent⟩, -⟩ := hgood
  cases call with
  | push c =>
    intro kb hkb
    obtain ⟨hc, hcurrent, hpush, -⟩ := hstep
    rw [keyboardOf_push hprocess hc hcurrent hkb hpush] at hkb'
    cases hkb'
    have hhigh := hconsistent.high
    obtain ⟨queue, hunread, -⟩ := h
    obtain ⟨kb₀, hkb₀, hqueue⟩ := hunread
    rw [hkb] at hkb₀
    cases hkb₀
    have hfits := hqueue.ring.fits
    have hcounters := hqueue.counters
    rw [hqueue.unread_eq]
    unfold KeyboardBuffer.unread at hhigh
    dsimp only at hhigh
    unfold i32 at hhigh
    omega
  | pop => trivial
  | backspace =>
    intro kb hkb
    rw [keyboardOf_backspace hkb hstep.1] at hkb'
    cases hkb'
    have hlow := hconsistent.low
    obtain ⟨queue, hunread, -⟩ := h
    obtain ⟨kb₀, hkb₀, hqueue⟩ := hunread
    rw [hkb] at hkb₀
    cases hkb₀
    have hfits := hqueue.ring.fits
    have hcounters := hqueue.counters
    rw [hqueue.unread_eq]
    unfold KeyboardBuffer.unread at hlow
    dsimp only at hlow
    unfold i32 at hlow
    omega
  | other => trivial

theorem keyboard_runs_good_iff (process : Nat) (hprocess : process ≠ 0) (s : KeyRun)
    (hstart : s.Zeroed process) (run : List (KeyCall × KeyRun))
    (hpath : Path (KeyRun.step process) s run) :
    Along (fun _ _ t => t.Good process) s run ↔ Along (Served process) s run := by
  have htracked : s.Tracked process := by
    refine ⟨[], hstart.unread, ?_⟩
    rw [hstart.popped, hstart.pushed]
    exact List.Sublist.refl _
  refine along_iff (fun s call t (h : s.Tracked process) hstep hserved => ?_) ?_ s run htracked hpath
  · exact h.step hprocess hstep hserved
  · intro s call t h hstep
    exact ⟨h.served hprocess hstep, fun hserved => (h.step hprocess hstep hserved).good⟩

theorem keyboard_runs_good_iff_oneProcess :
    Along (fun _ _ t => t.Good 1) oneProcess (trace (next 1) oneProcess [.push 97, .pop]) ↔
      Along (Served 1) oneProcess (trace (next 1) oneProcess [.push 97, .pop]) :=
  keyboard_runs_good_iff 1 (by decide) oneProcess oneProcess_zeroed _
    (Ready.path (by decide) _ (by decide) _ oneProcess_ready)

/-- Pushes without a pop between them stay good up to 1024 characters and no further. -/
theorem pushes_good {process : Nat} (hprocess : process ≠ 0) {c : UInt8} (hc : c ≠ 0) (n : Nat)
    (s : KeyRun) (hready : s.Ready process) (htracked : s.Tracked process)
    {queue : List UInt8} (hqueue : s.Unread process queue)
    (hgood : Along (fun _ _ t => t.Good process) s
      (trace (next process) s (List.replicate n (.push c)))) :
    queue.length + n ≤ 1024 := by
  induction n generalizing s queue with
  | zero =>
    obtain ⟨kb, -, hholds⟩ := hqueue
    exact hholds.ring.fits
  | succ n ih =>
    rw [List.replicate_succ] at hgood
    obtain ⟨hhead, hrest⟩ := hgood
    have hpush : KeyCall.push c ≠ .push 0 := fun heq => hc (KeyCall.push.inj heq)
    obtain ⟨hstep, hnext⟩ := hready.step hprocess hpush
    have hserved := htracked.served hprocess hstep hhead
    have hunread := (hqueue.step hprocess hstep hserved).1
    have hlength := ih _ hnext (htracked.step hprocess hstep hserved) hunread hrest
    rw [nextQueue, List.length_append, List.length_singleton] at hlength
    omega

theorem keyboard_runs_not_always_good :
    ¬ ∀ run : List (KeyCall × KeyRun), Path (KeyRun.step 1) oneProcess run →
      Along (fun _ _ t => t.Good 1) oneProcess run := by
  intro h
  have hcalls : KeyCall.push 0 ∉ List.replicate 1025 (.push 97) :=
    fun hmem => absurd (List.eq_of_mem_replicate hmem) (by decide)
  have hpath := Ready.path (Nat.one_ne_zero) _ hcalls oneProcess oneProcess_ready
  have htracked : oneProcess.Tracked 1 := ⟨[], oneProcess_zeroed.unread, List.Sublist.refl _⟩
  have hlength := pushes_good (by decide) (by decide) 1025 oneProcess oneProcess_ready htracked
    oneProcess_zeroed.unread (h _ hpath)
  exact absurd hlength (by decide)

end KeyRun
end BoiOS
