import BoiOS.Fs.Fat16
import BoiOS.Fs.PathParser
import BoiOS.Loader.Elf

/-! The functions of fs/file.c on the one disk, with their allocations: `fopen` parses the path,
lets the FAT16 driver open the file and enters it into the descriptor table. -/
namespace BoiOS

def sizeofFileDescriptor : Nat := 16

/-- The address of the static `disk`. -/
def diskAddress : Nat := 1

def diskGet (index : Int) : Nat := if index ≠ 0 then 0 else diskAddress

def fileGetModeByString (str : List UInt8) : Nat :=
  if strncmp str [114] 1 = 0 then fileModeRead
  else if strncmp str [119] 1 = 0 then fileModeWrite
  else if strncmp str [97] 1 = 0 then fileModeAppend
  else fileModeInvalid

def filesRun {α : Type} (f : FileTable → Except Stop (α × FileTable)) : KernelM α := fun k =>
  (f k.files).map fun (a, files) => (a, { k with files })

/-- `file_new_descriptor` with its allocation, which is made only if there is a slot. -/
def fileNewDescriptorIn : KernelM (Int × Nat) := do
  let k ← get
  match fileFindFreeSlot k.files boiosMaxFileDescriptors 0 with
  | none => pure (-enomem, 0)
  | some _ => do
      let desc ← kzalloc sizeofFileDescriptor
      let response ← filesRun fun t => fileNewDescriptor t desc
      pure (response, desc)

def putFileDescriptor (desc : Nat) (d : FileDescriptor) (k : Kernel) : Kernel :=
  { k with files := { k.files with store := Function.update k.files.store desc (some d) } }

/-- The only file system is FAT16. -/
def fopen (filename modeStr : List UInt8) : KernelM Int := do
  let rootPath ← pathparserParse filename
  if rootPath = 0 then pure 0
  else do
    let k ← get
    let root ← fetch (k.pathRoots rootPath)
    if root.first = 0 then pure 0
    else if diskGet root.driveNo = 0 then pure 0
    else if k.disk.filesystem = 0 then pure 0
    else if fileGetModeByString modeStr = fileModeInvalid then pure 0
    else do
      let data ← fat16Open root.first (fileGetModeByString modeStr)
      if i32 data < 0 then pure 0
      else do
        let (response, desc) ← fileNewDescriptorIn
        if response < 0 then pure 0
        else do
          let k ← get
          let d ← fetch (k.files.store desc)
          modify (putFileDescriptor desc { d with
            filesystem := k.disk.filesystem, privateData := data, disk := diskGet root.driveNo })
          pure d.index

/-- The descriptor behind a number; without one there is a code instead of it. -/
def withDescriptor {α : Type} (fd : Int) (missing : α) (f : FileDescriptor → KernelM α) :
    KernelM α := do
  let k ← get
  let desc := fileGetDescriptor k.files fd
  if desc = 0 then pure missing
  else do
    let d ← fetch (k.files.store desc)
    f d

def fstat (fd : Int) : KernelM (Int × FileStat) :=
  withDescriptor fd (-eio, ⟨0, 0⟩) fun d => do
    let (response, flags, fileSize) ← fat16Stat d.privateData
    pure (response, ⟨flags, fileSize⟩)

def fseek (fd : Int) (offset whence : Nat) : KernelM Int :=
  withDescriptor fd (-eio) fun d => fat16Seek d.privateData offset whence

def fread (ptr size nmemb : Nat) (fd : Int) : KernelM Int :=
  if size = 0 ∨ nmemb = 0 ∨ fd < 1 then pure (-einvarg)
  else withDescriptor fd (-einvarg) fun d => fat16Read d.privateData size nmemb ptr

def fclose (fd : Int) : KernelM Int := do
  let k ← get
  let desc := fileGetDescriptor k.files fd
  if desc = 0 then pure (-eio)
  else do
    let d ← fetch (k.files.store desc)
    let response ← fat16Close d.privateData
    if response = allOk then do
      filesRun fun t => (fileFreeDescriptor t desc).map ((), ·)
      kfree desc
    else pure ()
    pure response

/-- The file functions as the loaders use them: files are opened for reading. -/
def kernelFiles : FileApi where
  fopen filename := fopen filename [114]
  fstat := fstat
  fread := fread
  fclose := fclose

end BoiOS
