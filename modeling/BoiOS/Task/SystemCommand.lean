import BoiOS.Task.ProcessLoad
import BoiOS.Task.ProgramArguments

/-! The system call that runs a command: isr80h_command7_invoke_system_command of isr80h/process.c
and process_inject_arguments of task/process.c. A command is a list of nodes in the memory of the
caller, each with a word of the command line and the address of the next node. -/
namespace BoiOS
open Library.StateRun

/-- `sizeof(arguments[0].argument)`; the pointer to the next node is behind it. -/
def sizeofArgument : Nat := 512

def sizeofCommandArgument : Nat := 516

def commandNext (m : Memory) (current : Nat) : Nat := m.load32 ((current : Int) + sizeofArgument)

def Memory.stringAt (m : Memory) (ptr count : Nat) : List UInt8 :=
  strncpy (m.bytesAt ptr (count - 1)) count

/-- There are 2^32 addresses: a list that goes on for longer has no end. -/
def processCountCommandArgumentsLoop (m : Memory) : (fuel current : Nat) → KernelM Nat
  | 0, _ => throw .faulted
  | fuel + 1, current =>
      if current = 0 then pure 0
      else do
        let count ← processCountCommandArgumentsLoop m fuel (commandNext m current)
        pure (count + 1)

def processCountCommandArguments (rootArgument : Nat) : KernelM Nat := do
  let k ← get
  processCountCommandArgumentsLoop k.memory 4294967296 rootArgument

def processInjectArgumentsLoop (process argv : Nat) : (fuel i current : Nat) → KernelM Int
  | 0, _, _ => throw .faulted
  | fuel + 1, i, current =>
      if current = 0 then pure allOk
      else do
        let argumentStr ← processMalloc process sizeofArgument
        if argumentStr = 0 then pure (-enomem)
        else do
          modify fun k => { k with
            memory := k.memory.copyIn argumentStr (k.memory.stringAt current sizeofArgument ++ [0]) }
          modify fun k => { k with memory := k.memory.store32 (u32 (argv + 4 * i)) argumentStr }
          let k ← get
          processInjectArgumentsLoop process argv fuel (i + 1) (commandNext k.memory current)

def processInjectArguments (process rootArgument : Nat) : KernelM Int := do
  let argc ← processCountCommandArguments rootArgument
  if argc = 0 then pure (-eio)
  else do
    let argv ← processMalloc process (u32 (4 * argc))
    if argv = 0 then pure (-enomem)
    else do
      let res ← processInjectArgumentsLoop process argv 4294967296 0 rootArgument
      if res < 0 then pure res
      else do
        modifyProcess process fun p => { p with arguments := ⟨i32 argc, argv⟩ }
        pure allOk

def programPath (programName : List UInt8) : List UInt8 := [48, 58, 47] ++ programName

theorem programPath_nonzero {programName : List UInt8} (h : 0 ∉ programName) :
    0 ∉ programPath programName := by
  unfold programPath
  rw [List.mem_append, not_or]
  exact ⟨by decide, h⟩

/-- The pointer of the caller, as the kernel reaches what it points to. -/
def taskPointer (task : Task) (pointer : Nat) : KernelM Nat := fun k =>
  (taskVirtualAddressToPhysical k task pointer).map fun address => (address, k)

theorem taskPointer_eq_ok {task : Task} {pointer address : Nat} {k k' : Kernel}
    (h : taskPointer task pointer k = .ok (address, k')) :
    taskVirtualAddressToPhysical k task pointer = .ok address ∧ k' = k := by
  unfold taskPointer at h
  cases htranslate : taskVirtualAddressToPhysical k task pointer with
  | error stop => simp [htranslate, Except.map] at h
  | ok a =>
    simp only [htranslate, Except.map, Except.ok.injEq, Prod.mk.injEq] at h
    exact ⟨by rw [h.1], h.2.symm⟩

/-- The status that the caller gets, or none if the new program was entered instead. `stackItem`
is the word that the caller left on its stack. -/
def isr80hCommand7InvokeSystemCommand (stackItem : Nat) : KernelM (Option Int) := do
  let k ← get
  let task ← fetch (k.scheduler.tasks.store k.scheduler.tasks.currentTask)
  let arguments ← taskPointer task stackItem
  let k ← get
  if arguments = 0 ∨ k.memory arguments = 0 then pure (some (-einvarg))
  else do
    let path := programPath (k.memory.stringAt arguments boiosMaxPath)
    let (res, process) ← KernelM.processLoadSwitch path
    if res < 0 then pure (some res)
    else do
      let res ← processInjectArguments process arguments
      if res < 0 then pure (some res)
      else do
        let k ← get
        let p ← fetch (k.scheduler.store process)
        tasksRun fun ts => taskSwitch ts p.task
        pure none

/-- The start of a program without arguments; the file name was copied from the caller. -/
def KernelM.isr80hCommand6ProcessLoadStart (filename : List UInt8) : KernelM Unit := do
  let (res, process) ← KernelM.processLoadSwitch (programPath filename)
  if res < 0 then pure ()
  else do
    let k ← get
    let p ← fetch (k.scheduler.store process)
    tasksRun fun ts => taskSwitch ts p.task

/-- The exit of a program, by its own system call or by a fault. -/
def KernelM.isr80hCommand9Exit : KernelM Unit := do
  let k ← get
  let process ← fetch (taskCurrentProcess k.scheduler.tasks)
  let _ ← KernelM.processTerminate process
  schedulerRun taskNext

end BoiOS
