import BoiOS.Loader.Elf

/-! How task/process.c enters a loaded program into the page directory of its task. -/
namespace BoiOS

def boiosUserProgramStackSize : Nat := 1024 * 16
def boiosProgramVirtualStackAddressEnd : Nat :=
  boiosProgramVirtualStackAddressStart - boiosUserProgramStackSize

def userPage : Nat := pagingIsPresent ||| pagingAccessFromAll

def elfPageFlags (phdr : Elf32Phdr) : Nat :=
  if phdr.pFlags &&& pfW ≠ 0 then userPage ||| pagingIsWritable else userPage

def elfPagesStart (file : ElfFile) (phdr : Elf32Phdr) : Nat :=
  pagingAlignToLowerPage (elfPhdrPhysAddress file phdr)

def elfPagesEnd (file : ElfFile) (phdr : Elf32Phdr) : Nat :=
  pagingAlignAddress (u32 ((elfPhdrPhysAddress file phdr : Int) + phdr.pMemsz))

def processMapElfPhdr (chunk : Nat) (file : ElfFile) (phdr : Elf32Phdr) (s : PageStore) :
    Except Stop (Int × PageStore) :=
  pagingMapTo s chunk (pagingAlignToLowerPage phdr.pVaddr) (elfPagesStart file phdr)
    (elfPagesEnd file phdr) (elfPageFlags phdr)

/-- The loop of `process_map_elf` over the headers that are left; `res` is the result of the one
before. -/
def processMapElfLoop (chunk : Nat) (file : ElfFile) :
    List Elf32Phdr → (res : Int) → PageStore → Except Stop (Int × PageStore)
  | [], res, s => .ok (res, s)
  | phdr :: rest, _, s =>
      (processMapElfPhdr chunk file phdr s).bind fun (res, s) =>
        if res < 0 then .ok (res, s) else processMapElfLoop chunk file rest res s

def elfPhdrs (m : Memory) (phdrs count : Nat) : List Elf32Phdr :=
  (List.range count).map fun i => elf32Phdr m (u32 ((phdrs : Int) + 32 * (i : Nat)))

def elfFilePhdrs (m : Memory) (file : ElfFile) : List Elf32Phdr :=
  elfPhdrs m (elfPheader m file.elfMemory) (ePhnum m file.elfMemory)

def processMapElf (process : Nat) : KernelM Int := do
  let k ← get
  let p ← fetch (k.scheduler.store process)
  let file ← fetch (k.elfFiles p.ptr)
  let task ← fetch (k.scheduler.tasks.store p.task)
  pagingRun (processMapElfLoop task.pageDirectory file (elfFilePhdrs k.memory file) 0)

def processMapBinary (process : Nat) : KernelM Int := do
  let k ← get
  let p ← fetch (k.scheduler.store process)
  let task ← fetch (k.scheduler.tasks.store p.task)
  pagingRun fun s => pagingMapTo s task.pageDirectory boiosProgramVirtualAddress p.ptr
    (pagingAlignAddress (u32 ((p.ptr : Int) + p.size))) (userPage ||| pagingIsWritable)

def processMapStack (process : Nat) : KernelM Int := do
  let k ← get
  let p ← fetch (k.scheduler.store process)
  let task ← fetch (k.scheduler.tasks.store p.task)
  pagingRun fun s => pagingMapTo s task.pageDirectory boiosProgramVirtualStackAddressEnd p.stack
    (pagingAlignAddress (u32 ((p.stack : Int) + boiosUserProgramStackSize)))
    (userPage ||| pagingIsWritable)

def processMapMemory (process : Nat) : KernelM Int := do
  let k ← get
  let p ← fetch (k.scheduler.store process)
  if p.filetype = processFileTypeElf then do
    let res ← processMapElf process
    if res < 0 then pure res else processMapStack process
  else if p.filetype = processFileTypeBin then do
    let res ← processMapBinary process
    if res < 0 then pure res else processMapStack process
  else throw .panicked

end BoiOS
