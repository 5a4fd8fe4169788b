import BoiOS.Fs.FileSystem
import BoiOS.Task.ProcessHeap
import BoiOS.Task.ProcessMap

/-! Loading and terminating a process with all that is allocated for it: task/process.c and
task/task.c on the whole kernel. The functions that the modules on the tables already model
without their allocations are in the namespace `KernelM`. -/
namespace BoiOS
open Library.StateRun

def sizeofProcess : Nat := 9384
def sizeofTask : Nat := 64

/-- A function that only touches the tables, as a kernel function. -/
def schedulerRun (f : Scheduler → Except Stop Scheduler) : KernelM Unit := fun k =>
  (f k.scheduler).map fun scheduler => ((), { k with scheduler })

def tasksRun (f : Tasks → Option Tasks) : KernelM Unit :=
  schedulerRun fun s => (access (f s.tasks)).map fun tasks => { s with tasks }

theorem schedulerRun_eq_ok {f : Scheduler → Except Stop Scheduler} {u : Unit} {k k' : Kernel}
    (h : schedulerRun f k = .ok (u, k')) :
    ∃ s, f k.scheduler = .ok s ∧ k' = { k with scheduler := s } := by
  unfold schedulerRun at h
  cases hf : f k.scheduler with
  | error stop =>
    rw [hf] at h
    cases h
  | ok s =>
    rw [hf] at h
    simp only [Except.map, Except.ok.injEq, Prod.mk.injEq] at h
    exact ⟨s, rfl, h.2.symm⟩

theorem tasksRun_eq_ok {f : Tasks → Option Tasks} {k k' : Kernel} {u : Unit}
    (h : tasksRun f k = .ok (u, k')) :
    ∃ tasks, f k.scheduler.tasks = some tasks ∧
      k' = { k with scheduler := { k.scheduler with tasks } } := by
  obtain ⟨s, hs, hk'⟩ := schedulerRun_eq_ok h
  cases hf : f k.scheduler.tasks with
  | none =>
    rw [hf] at hs
    cases hs
  | some tasks =>
    rw [hf] at hs
    simp only [access_some, Except.map, Except.ok.injEq] at hs
    exact ⟨tasks, rfl, by rw [hk', ← hs]⟩

def modifyProcess (process : Nat) (f : Process → Process) : KernelM Unit := do
  let k ← get
  let p ← fetch (k.scheduler.store process)
  modify (putProcess process (f p))

theorem modifyProcess_eq_ok {process : Nat} {f : Process → Process} {k k' : Kernel} {u : Unit}
    (h : modifyProcess process f k = .ok (u, k')) :
    ∃ p, k.scheduler.store process = some p ∧ k' = putProcess process (f p) k := by
  unfold modifyProcess at h
  replace h := bind_get_eq_ok.mp h
  obtain ⟨p, hp, h⟩ := bind_fetch_eq_ok.mp h
  exact ⟨p, hp, (modify_eq_ok.mp h).symm⟩

theorem modifyProcess_of_store {process : Nat} {p : Process} {f : Process → Process} {k : Kernel}
    (hp : k.scheduler.store process = some p) :
    modifyProcess process f k = .ok ((), putProcess process (f p) k) := by
  unfold modifyProcess
  rw [bind_of_ok (get_apply k), hp, bind_of_ok (fetch_some p k)]
  rfl

/-! The tasks. -/

/-- The entry point of a program, as `task_init` finds it. -/
def taskEntry (process : Nat) : KernelM Nat := do
  let k ← get
  let p ← fetch (k.scheduler.store process)
  if p.filetype = processFileTypeElf then do
    let file ← fetch (k.elfFiles p.ptr)
    pure (eEntry k.memory file.elfMemory)
  else pure boiosProgramVirtualAddress

/-- Without memory for the task the error exit goes through a null task. -/
def taskNew (process : Nat) : KernelM Nat := do
  let task ← kzalloc sizeofTask
  if task = 0 then throw .faulted
  else do
    let pageDirectory ← pagingNew4gb (pagingIsPresent ||| pagingAccessFromAll)
    let ip ← taskEntry process
    tasksRun fun ts => taskNewLink ts task (taskInit pageDirectory process ip)
    pure task

def taskFree (task : Nat) : KernelM Unit := do
  let k ← get
  let t ← fetch (k.scheduler.tasks.store task)
  pagingFree4gb t.pageDirectory
  tasksRun fun ts => taskFreeUnlink ts task
  kfree task

/-! The program file. -/

def processLoadElf (filename : List UInt8) (process : Nat) : KernelM Int := do
  let (res, elfFile) ← elfLoad kernelFiles filename
  if res < 0 then pure res
  else do
    modifyProcess process fun p => { p with filetype := processFileTypeElf, ptr := elfFile }
    pure res

def processLoadBinary (filename : List UInt8) (process : Nat) : KernelM Int := do
  let fd ← fopen filename [114]
  if fd = 0 then do
    let _ ← fclose fd
    pure (-eio)
  else do
    let (res, stat) ← fstat fd
    if res ≠ allOk then do
      let _ ← fclose fd
      pure res
    else do
      let programDataPtr ← kzalloc stat.fileSize
      if programDataPtr = 0 then do
        let _ ← fclose fd
        pure (-enomem)
      else do
        let read ← fread programDataPtr stat.fileSize 1 fd
        if read ≠ 1 then do
          kfree programDataPtr
          let _ ← fclose fd
          pure (-eio)
        else do
          modifyProcess process fun p =>
            { p with filetype := processFileTypeBin, ptr := programDataPtr, size := stat.fileSize }
          let _ ← fclose fd
          pure res

def processLoadData (filename : List UInt8) (process : Nat) : KernelM Int := do
  let res ← processLoadElf filename process
  if res = -einformat then processLoadBinary filename process else pure res

/-! The load. -/

def processGet (s : Scheduler) (pid : Int) : Nat :=
  if pid < 0 ∨ pid ≥ boiosMaxProcesses then 0 else s.processes pid.toNat

def processLoadFailed (process : Nat) (res : Int) : KernelM (Int × Nat) := do
  let k ← get
  let p ← fetch (k.scheduler.store process)
  if p.task ≠ 0 then do
    taskFree p.task
    pure (res, 0)
  else pure (res, 0)

/-- `process_load_for_slot`: the status, and the process that it stores through `process`. The exit
for a slot that is taken reads the process pointer before it is set. -/
def KernelM.processLoadForSlot (filename : List UInt8) (processSlot : Nat) :
    KernelM (Int × Nat) := do
  let k ← get
  if processGet k.scheduler processSlot ≠ 0 then throw .faulted
  else do
    let process ← kzallocObject sizeofProcess fun ptr => putProcess ptr processInit
    if process = 0 then pure (-enomem, 0)
    else do
      let res ← processLoadData filename process
      if res < 0 then processLoadFailed process res
      else do
        let programStackPtr ← kzalloc boiosUserProgramStackSize
        if programStackPtr = 0 then processLoadFailed process (-enomem)
        else do
          modifyProcess process fun p => { p with
            filename := strncpy filename boiosMaxPath, stack := programStackPtr, pid := processSlot }
          let task ← taskNew process
          modifyProcess process fun p => { p with task }
          let res ← processMapMemory process
          if res < 0 then processLoadFailed process res
          else do
            modify fun k => { k with
              scheduler := { k.scheduler with
                processes := Function.update k.scheduler.processes processSlot process } }
            pure (res, process)

def KernelM.processLoad (filename : List UInt8) : KernelM (Int × Nat) := do
  let k ← get
  let processSlot := processGetFreeSlot k.scheduler
  if processSlot < 0 then pure (-enomem, 0)
  else KernelM.processLoadForSlot filename processSlot.toNat

def KernelM.processLoadSwitch (filename : List UInt8) : KernelM (Int × Nat) := do
  let (res, process) ← KernelM.processLoad filename
  if res = 0 then do
    modify fun k => { k with scheduler := processSwitch k.scheduler process }
    pure (res, process)
  else pure (res, process)

/-! The exit. -/

def processTerminateAllocationsLoop (process : Nat) : (count i : Nat) → KernelM Unit
  | 0, _ => pure ()
  | count + 1, i => do
      let k ← get
      let p ← fetch (k.scheduler.store process)
      processFree process (p.allocations i).ptr
      processTerminateAllocationsLoop process count (i + 1)

def processTerminateAllocations (process : Nat) : KernelM Unit :=
  processTerminateAllocationsLoop process boiosMaxProgramAllocations 0

def processFreeProgramData (process : Nat) : KernelM Int := do
  let k ← get
  let p ← fetch (k.scheduler.store process)
  if p.filetype = processFileTypeBin then do
    kfree p.ptr
    pure allOk
  else if p.filetype = processFileTypeElf then do
    elfClose p.ptr
    pure allOk
  else pure (-einvarg)

def KernelM.processTerminate (process : Nat) : KernelM Int := do
  processTerminateAllocations process
  let res ← processFreeProgramData process
  if res < 0 then pure allOk
  else do
    let k ← get
    let p ← fetch (k.scheduler.store process)
    kfree p.stack
    taskFree p.task
    schedulerRun fun s => processUnlink s process
    pure allOk

end BoiOS
