import BoiOS.Memory.Paging

/-! The ELF loader of loader/formats/elfloader.c. A header is a pointer into memory; its fields are
the words at their offsets. The loader is written against the functions of fs/file.h. -/
namespace BoiOS

structure FileStat where
  flags : Nat
  fileSize : Nat

/-- The functions of fs/file.h that the loaders call. A file name is its bytes up to the NUL. -/
structure FileApi where
  fopen : List UInt8 → KernelM Int
  fstat : Int → KernelM (Int × FileStat)
  fread : (ptr size nmemb : Nat) → Int → KernelM Int
  fclose : Int → KernelM Int

def ptLoad : Nat := 1
def pfW : Nat := 2
def etExec : Nat := 2

def elfMagic : List Nat := [0x7F, 0x45, 0x4C, 0x46]

/-! The fields of `struct elf32_header`. -/

def eIdent (m : Memory) (header i : Nat) : Nat := m.load8 ((header : Int) + i)
def eType (m : Memory) (header : Nat) : Nat := m.load16 ((header : Int) + 16)
def eEntry (m : Memory) (header : Nat) : Nat := m.load32 ((header : Int) + 24)
def ePhoff (m : Memory) (header : Nat) : Int := i32 (m.load32 ((header : Int) + 28))
def ePhnum (m : Memory) (header : Nat) : Nat := m.load16 ((header : Int) + 44)

/-- `struct elf32_phdr`, without the two fields that nothing reads. -/
structure Elf32Phdr where
  pType : Nat
  pOffset : Int
  pVaddr : Nat
  pFilesz : Nat
  pMemsz : Nat
  pFlags : Nat
  deriving DecidableEq

def elf32Phdr (m : Memory) (phdr : Nat) : Elf32Phdr :=
  { pType := m.load32 phdr
    pOffset := i32 (m.load32 ((phdr : Int) + 4))
    pVaddr := m.load32 ((phdr : Int) + 8)
    pFilesz := m.load32 ((phdr : Int) + 16)
    pMemsz := m.load32 ((phdr : Int) + 20)
    pFlags := m.load32 ((phdr : Int) + 24) }

def elfValidSignature (m : Memory) (buffer : Nat) : Bool :=
  (List.range 4).map (eIdent m buffer) == elfMagic

def elfValidClass (m : Memory) (header : Nat) : Bool :=
  eIdent m header 4 == 0 || eIdent m header 4 == 1

def elfValidEncoding (m : Memory) (header : Nat) : Bool :=
  eIdent m header 5 == 0 || eIdent m header 5 == 1

/-- No caller. -/
def elfIsExecutable (m : Memory) (header : Nat) : Bool :=
  eType m header == etExec && decide (eEntry m header ≥ boiosProgramVirtualAddress)

def elfHasProgramHeader (m : Memory) (header : Nat) : Bool := ePhoff m header != 0

def elfPheader (m : Memory) (header : Nat) : Nat :=
  if !elfHasProgramHeader m header then 0 else u32 ((header : Int) + ePhoff m header)

def elfProgramHeader (m : Memory) (header index : Nat) : Nat :=
  if !elfHasProgramHeader m header then 0 else u32 ((elfPheader m header : Int) + 32 * index)

def elfValidateLoaded (m : Memory) (header : Nat) : Int :=
  if elfValidSignature m header && elfValidClass m header && elfValidEncoding m header &&
      elfHasProgramHeader m header then allOk else -einformat

def elfPhdrPhysAddress (file : ElfFile) (phdr : Elf32Phdr) : Nat :=
  u32 ((file.elfMemory : Int) + phdr.pOffset)

def elfProcessPhdrPtLoad (elfFile : ElfFile) (phdr : Elf32Phdr) : ElfFile :=
  let elfFile :=
    if elfFile.virtualBaseAddress ≥ phdr.pVaddr ∨ elfFile.virtualBaseAddress = 0 then
      { elfFile with
        virtualBaseAddress := phdr.pVaddr
        physicalBaseAddress := u32 ((elfFile.elfMemory : Int) + phdr.pOffset) }
    else elfFile
  let endVirtualAddress := u32 ((phdr.pVaddr : Int) + phdr.pFilesz)
  if elfFile.virtualEndAddress ≤ endVirtualAddress ∨ elfFile.virtualEndAddress = 0 then
    { elfFile with
      virtualEndAddress := endVirtualAddress
      physicalEndAddress := u32 ((elfFile.elfMemory : Int) + phdr.pOffset + phdr.pFilesz) }
  else elfFile

def elfProcessPheader (elfFile : ElfFile) (phdr : Elf32Phdr) : ElfFile :=
  if phdr.pType = ptLoad then elfProcessPhdrPtLoad elfFile phdr else elfFile

def elfProcessPheadersLoop (m : Memory) (header : Nat) : (count i : Nat) → ElfFile → ElfFile
  | 0, _, elfFile => elfFile
  | count + 1, i, elfFile =>
      elfProcessPheadersLoop m header count (i + 1)
        (elfProcessPheader elfFile (elf32Phdr m (elfProgramHeader m header i)))

def elfProcessPheaders (m : Memory) (elfFile : ElfFile) : ElfFile :=
  elfProcessPheadersLoop m elfFile.elfMemory (ePhnum m elfFile.elfMemory) 0 elfFile

def elfProcessLoaded (m : Memory) (elfFile : ElfFile) : Int × ElfFile :=
  let res := elfValidateLoaded m elfFile.elfMemory
  if res < 0 then (res, elfFile) else (allOk, elfProcessPheaders m elfFile)

def sizeofElfFile : Nat := 152

def putElfFile (ptr : Nat) (elfFile : ElfFile) (k : Kernel) : Kernel :=
  { k with elfFiles := Function.update k.elfFiles ptr (some elfFile) }

/-- `elf_load`: the status code, and the loaded file that it stores through `file_out`. -/
def elfLoad (api : FileApi) (filename : List UInt8) : KernelM (Int × Nat) := do
  let elfFile ← kzallocObject sizeofElfFile fun ptr => putElfFile ptr ⟨0, 0, 0, 0, 0⟩
  let fd ← api.fopen filename
  if fd ≤ 0 then do
    let _ ← api.fclose 0
    pure (-eio, 0)
  else do
    let (res, stat) ← api.fstat fd
    if res < 0 then do
      let _ ← api.fclose fd
      pure (res, 0)
    else do
      let memory ← kzalloc stat.fileSize
      let k ← get
      let file ← fetch (k.elfFiles elfFile)
      modify (putElfFile elfFile { file with elfMemory := memory })
      let res ← api.fread memory stat.fileSize 1 fd
      if res < 0 then do
        let _ ← api.fclose fd
        pure (res, 0)
      else do
        let k ← get
        let file ← fetch (k.elfFiles elfFile)
        let (res, file) := elfProcessLoaded k.memory file
        modify (putElfFile elfFile file)
        let _ ← api.fclose fd
        if res < 0 then pure (res, 0) else pure (res, elfFile)

def elfClose (elfFile : Nat) : KernelM Unit := do
  if elfFile = 0 then pure ()
  else do
    let k ← get
    let file ← fetch (k.elfFiles elfFile)
    kfree file.elfMemory
    kfree elfFile
    modify fun k => { k with elfFiles := Function.update k.elfFiles elfFile none }

end BoiOS
