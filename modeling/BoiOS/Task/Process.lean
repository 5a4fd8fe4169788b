import BoiOS.Task.TaskList

/-! The process table of task/process.c and the two notions of what is running: the current
process, which the keyboard writes to, and the current task, whose process reads from it.
A kernel panic and an access to an object that is not in memory both end the run. -/
namespace BoiOS

structure ProcessAllocation where
  ptr : Nat
  size : Nat
  deriving DecidableEq

structure KeyboardBuffer where
  buffer : Nat → UInt8
  tail : Int
  head : Int

structure ProcessArguments where
  argc : Int
  argv : Nat
  deriving DecidableEq

def processFileTypeElf : Nat := 0
def processFileTypeBin : Nat := 1

/-- `ptr` is the union of the C structure: the image of a flat binary, or its `elf_file`. -/
structure Process where
  pid : Nat
  filename : List UInt8
  task : Nat
  allocations : Nat → ProcessAllocation
  filetype : Nat
  ptr : Nat
  stack : Nat
  size : Nat
  keyboard : KeyboardBuffer
  arguments : ProcessArguments

def boiosMaxProcesses : Nat := 12
def boiosMaxProgramAllocations : Nat := 1024
def boiosKeyboardBufferSize : Nat := 1024

def processInit : Process :=
  { pid := 0, filename := [], task := 0, allocations := fun _ => ⟨0, 0⟩
    filetype := processFileTypeElf, ptr := 0, stack := 0, size := 0
    keyboard := ⟨fun _ => 0, 0, 0⟩
    arguments := ⟨0, 0⟩ }

structure Scheduler where
  store : Nat → Option Process
  processes : Nat → Nat
  currentProcess : Nat
  tasks : Tasks

def processGetFreeSlotLoop (s : Scheduler) : (count i : Nat) → Int
  | 0, _ => -eistkn
  | count + 1, i => if s.processes i = 0 then i else processGetFreeSlotLoop s count (i + 1)

def processGetFreeSlot (s : Scheduler) : Int := processGetFreeSlotLoop s boiosMaxProcesses 0

def processSwitch (s : Scheduler) (process : Nat) : Scheduler := { s with currentProcess := process }

def processSwitchToAnyLoop (s : Scheduler) : (count i : Nat) → Except Stop Scheduler
  | 0, _ => .error .panicked
  | count + 1, i =>
      if s.processes i ≠ 0 then .ok (processSwitch s (s.processes i))
      else processSwitchToAnyLoop s count (i + 1)

def processSwitchToAny (s : Scheduler) : Except Stop Scheduler :=
  processSwitchToAnyLoop s boiosMaxProcesses 0

def processUnlink (s : Scheduler) (process : Nat) : Except Stop Scheduler :=
  (access (s.store process)).bind fun p =>
    let s := { s with processes := Function.update s.processes p.pid 0 }
    if s.currentProcess = process then processSwitchToAny s else .ok s

/-- `process_terminate`, after the memory of the process has been given back: its task is
freed and the process leaves the table. The process structure itself stays in memory. -/
def processTerminate (s : Scheduler) (process : Nat) : Except Stop Scheduler :=
  (access (s.store process)).bind fun p =>
    (access (taskFreeUnlink s.tasks p.task)).bind fun tasks =>
      processUnlink { s with tasks } process

/-- What `process_load_for_slot` does to the tables when every step of the load succeeds: the
process it built at address `process` gets the slot and a new task at address `task`. -/
def processLoadForSlot (s : Scheduler) (loaded : Process) (process task pageDirectory ip slot : Nat) :
    Except Stop Scheduler :=
  (access (taskNewLink s.tasks task (taskInit pageDirectory process ip))).bind fun tasks =>
    .ok { s with
      store := Function.update s.store process (some { loaded with pid := slot, task })
      processes := Function.update s.processes slot process
      tasks }

def processLoad (s : Scheduler) (loaded : Process) (process task pageDirectory ip : Nat) :
    Except Stop (Int × Scheduler) :=
  let processSlot := processGetFreeSlot s
  if processSlot < 0 then .ok (-enomem, s)
  else (processLoadForSlot s loaded process task pageDirectory ip processSlot.toNat).map (0, ·)

def processLoadSwitch (s : Scheduler) (loaded : Process) (process task pageDirectory ip : Nat) :
    Except Stop (Int × Scheduler) :=
  (processLoad s loaded process task pageDirectory ip).map fun (res, s) =>
    if res = 0 then (res, processSwitch s process) else (res, s)

def taskSwitch (ts : Tasks) (task : Nat) : Option Tasks :=
  (ts.store task).map fun _ => { ts with currentTask := task }

/-- `task_next`, up to the entry into user mode with the registers of the current task. -/
def taskNext (s : Scheduler) : Except Stop Scheduler :=
  (access (taskGetNext s.tasks)).bind fun nextTask =>
    if nextTask = 0 then .error .panicked
    else (access (taskSwitch s.tasks nextTask)).map fun tasks => { s with tasks }

def taskCurrentProcess (ts : Tasks) : Option Nat := (ts.store ts.currentTask).map Task.process

/-- The start of a program by a system call, up to the entry into user mode: in the new task,
or back in the caller if there is no slot. -/
def isr80hCommand6ProcessLoadStart (s : Scheduler) (loaded : Process)
    (process task pageDirectory ip : Nat) : Except Stop Scheduler :=
  (processLoadSwitch s loaded process task pageDirectory ip).bind fun (res, s) =>
    if res < 0 then .ok s
    else (access (s.store process)).bind fun p =>
      (access (taskSwitch s.tasks p.task)).map fun tasks => { s with tasks }

def isr80hCommand9Exit (s : Scheduler) : Except Stop Scheduler :=
  (access (taskCurrentProcess s.tasks)).bind fun process =>
    (processTerminate s process).bind taskNext

def idtHandleException (s : Scheduler) : Except Stop Scheduler :=
  (access (taskCurrentProcess s.tasks)).bind fun process =>
    (processTerminate s process).bind taskNext

/-! The keyboard queue of keyboard/keyboard.c. -/

def keyboardGetTailIndex (p : Process) : Nat := u32 p.keyboard.tail % boiosKeyboardBufferSize

def keyboardPush (s : Scheduler) (c : UInt8) : Except Stop Scheduler :=
  if s.currentProcess = 0 then .ok s
  else if c = 0 then .ok s
  else (access (s.store s.currentProcess)).map fun p =>
    { s with
      store := Function.update s.store s.currentProcess (some { p with
        keyboard := { p.keyboard with
          buffer := Function.update p.keyboard.buffer (keyboardGetTailIndex p) c
          tail := i32 (p.keyboard.tail + 1) } }) }

def keyboardPop (s : Scheduler) : Except Stop (UInt8 × Scheduler) :=
  if s.tasks.currentTask = 0 then .ok (0, s)
  else (access (taskCurrentProcess s.tasks)).bind fun process =>
    (access (s.store process)).map fun p =>
      let realIndex := u32 p.keyboard.head % boiosKeyboardBufferSize
      let c := p.keyboard.buffer realIndex
      if c = 0 then (0, s)
      else (c, { s with
        store := Function.update s.store process (some { p with
          keyboard := { p.keyboard with
            buffer := Function.update p.keyboard.buffer realIndex 0
            head := i32 (p.keyboard.head + 1) } }) })

/-! What the table functions compute. -/

theorem processGetFreeSlotLoop_spec (s : Scheduler) (count i : Nat) :
    (∀ j, i ≤ j → j < i + count → s.processes j ≠ 0) ∧
        processGetFreeSlotLoop s count i = -eistkn ∨
      ∃ slot : Nat, slot < i + count ∧ processGetFreeSlotLoop s count i = slot ∧
        s.processes slot = 0 ∧ ∀ j, i ≤ j → j < slot → s.processes j ≠ 0 := by
  induction count generalizing i with
  | zero => exact Or.inl ⟨fun j hj hj' => by omega, rfl⟩
  | succ count ih =>
    unfold processGetFreeSlotLoop
    by_cases hfree : s.processes i = 0
    · rw [if_pos hfree]
      exact Or.inr ⟨i, by omega, rfl, hfree, fun j hj hj' => by omega⟩
    rw [if_neg hfree]
    have hfrom {slot : Nat} (hrest : ∀ j, i + 1 ≤ j → j < slot → s.processes j ≠ 0) :
        ∀ j, i ≤ j → j < slot → s.processes j ≠ 0 := by
      intro j hj hj'
      rcases Nat.eq_or_lt_of_le hj with rfl | hlt
      · exact hfree
      · exact hrest j hlt hj'
    rcases ih (i + 1) with ⟨hfull, hloop⟩ | ⟨slot, hslot, hloop, hzero, hbelow⟩
    · exact Or.inl ⟨hfrom fun j hj hj' => hfull j hj (by omega), hloop⟩
    · exact Or.inr ⟨slot, by omega, hloop, hzero, hfrom hbelow⟩

theorem processGetFreeSlot_spec (s : Scheduler) :
    (∀ j < boiosMaxProcesses, s.processes j ≠ 0) ∧ processGetFreeSlot s = -eistkn ∨
      ∃ slot : Nat, slot < boiosMaxProcesses ∧ processGetFreeSlot s = slot ∧
        s.processes slot = 0 ∧ ∀ j < slot, s.processes j ≠ 0 := by
  rcases processGetFreeSlotLoop_spec s boiosMaxProcesses 0 with
    ⟨hfull, hloop⟩ | ⟨slot, hslot, hloop, hzero, hbelow⟩
  · exact Or.inl ⟨fun j hj => hfull j (Nat.zero_le j) (by omega), hloop⟩
  · exact Or.inr ⟨slot, by omega, hloop, hzero, fun j hj => hbelow j (Nat.zero_le j) hj⟩

theorem processSwitchToAny_first {s : Scheduler} (h : s.processes 0 ≠ 0) :
    processSwitchToAny s = .ok (processSwitch s (s.processes 0)) := by
  unfold processSwitchToAny boiosMaxProcesses processSwitchToAnyLoop
  rw [if_pos h]

theorem processSwitchToAny_empty {s : Scheduler} (h : ∀ i < boiosMaxProcesses, s.processes i = 0) :
    processSwitchToAny s = .error .panicked := by
  have hloop : ∀ count i, i + count ≤ boiosMaxProcesses →
      processSwitchToAnyLoop s count i = .error .panicked := by
    intro count
    induction count with
    | zero =>
      intro i _
      rfl
    | succ count ih =>
      intro i hi
      unfold processSwitchToAnyLoop
      rw [if_neg (not_not.mpr (h i (by omega))), ih (i + 1) (by omega)]
  exact hloop boiosMaxProcesses 0 (by omega)

theorem processSwitchToAnyLoop_eq_ok {s s' : Scheduler} {count i : Nat}
    (h : processSwitchToAnyLoop s count i = .ok s') :
    ∃ j < i + count, s.processes j ≠ 0 ∧ s' = processSwitch s (s.processes j) := by
  induction count generalizing i with
  | zero => cases h
  | succ count ih =>
    unfold processSwitchToAnyLoop at h
    by_cases hslot : s.processes i ≠ 0
    · rw [if_pos hslot, Except.ok.injEq] at h
      exact ⟨i, by omega, hslot, h.symm⟩
    · rw [if_neg hslot] at h
      obtain ⟨j, hj, hnonnull, hs'⟩ := ih h
      exact ⟨j, by omega, hnonnull, hs'⟩

theorem processUnlink_eq_ok {s s' : Scheduler} {process : Nat} {p : Process}
    (hp : s.store process = some p) (h : processUnlink s process = .ok s') :
    s'.store = s.store ∧ s'.tasks = s.tasks ∧ s'.processes = Function.update s.processes p.pid 0 ∧
      (s.currentProcess ≠ process ∧ s'.currentProcess = s.currentProcess ∨
        s.currentProcess = process ∧ ∃ i < boiosMaxProcesses,
          s'.processes i ≠ 0 ∧ s'.currentProcess = s'.processes i) := by
  unfold processUnlink at h
  rw [hp] at h
  dsimp only [access_some, Except.bind] at h
  by_cases hcurrent : s.currentProcess = process
  · rw [if_pos hcurrent] at h
    obtain ⟨i, hi, hnonnull, rfl⟩ := processSwitchToAnyLoop_eq_ok h
    exact ⟨rfl, rfl, rfl, .inr ⟨hcurrent, i, by omega, hnonnull, rfl⟩⟩
  · rw [if_neg hcurrent, Except.ok.injEq] at h
    rw [← h]
    exact ⟨rfl, rfl, rfl, .inl ⟨hcurrent, rfl⟩⟩

theorem processUnlink_same {s s' : Scheduler} {process : Nat}
    (h : processUnlink s process = .ok s') : s'.store = s.store ∧ s'.tasks = s.tasks := by
  cases hp : s.store process with
  | none =>
    unfold processUnlink at h
    rw [hp] at h
    cases h
  | some p =>
    obtain ⟨hstore, htasks, -⟩ := processUnlink_eq_ok hp h
    exact ⟨hstore, htasks⟩

end BoiOS
