import BoiOS.Fs.ClusterRead

/-! `fat16_resolve`, which binds the driver to a disk: it allocates the private data with the three
streams, reads the header from the first sector and the root directory from the place that the
header gives. -/
namespace BoiOS
open Library.StateRun Library.Walk

def boiosFat16Signature : UInt8 := 0x29
def sizeofDiskStream : Nat := 8
def sizeofFatH : Nat := 62
def sizeofFatPrivate : Nat := 92

/-- On the one disk; the new stream is written to without a check. -/
def diskstreamerNew : KernelM Nat := do
  let streamer ← kzalloc sizeofDiskStream
  if streamer = 0 then throw .faulted
  else do
    modify fun k => { k with streams := Function.update k.streams streamer (some 0) }
    pure streamer

def diskstreamerClose (stream : Nat) : KernelM Unit := do
  kfree stream
  modify fun k => { k with streams := Function.update k.streams stream none }

/-! The fields of `struct fat_h`, which is packed. -/

def headerWord (header : List UInt8) (offset : Nat) : Nat :=
  (charAt header offset).toNat + 256 * (charAt header (offset + 1)).toNat

def headerSignature (header : List UInt8) : UInt8 := charAt header 38

def headerOf (header : List UInt8) : FatHeader where
  sectorsPerCluster := (charAt header 13).toNat
  reservedSectors := headerWord header 14
  fatCopies := (charAt header 16).toNat
  rootEntries := headerWord header 17
  sectorsPerFat := headerWord header 22

/-- The private data is cleared through its pointer, which is not checked. -/
def fat16InitPrivate (fatPrivate : Nat) : KernelM FatPrivate :=
  if fatPrivate = 0 then throw .faulted
  else do
    let clusterReadStream ← diskstreamerNew
    let fatReadStream ← diskstreamerNew
    let directoryStream ← diskstreamerNew
    pure ⟨⟨0, 0, 0, 0, 0⟩, ⟨0, 0, 0, 0⟩, clusterReadStream, fatReadStream, directoryStream⟩

def fat16SectorToAbsolute (disk : Disk) (sector : Int) : Int := i32 (sector * disk.sectorSize)

/-- The directory is what it was when there is an error. The source also counts the sectors of the
directory, a part of one as a whole one, but does not use the number. -/
def fat16GetRootDirectory (fatPrivate : FatPrivate) (directory : FatDirectory) :
    KernelM (Int × FatDirectory) := do
  let k ← get
  let primaryHeader := fatPrivate.header
  let rootDirSectorPos := primaryHeader.fatCopies * primaryHeader.sectorsPerFat +
    primaryHeader.reservedSectors
  let rootDirSize := primaryHeader.rootEntries * sizeofFatDirectoryItem
  let totalItems ← fat16GetTotalItemsForDirectory rootDirSectorPos
  let dir ← kzalloc rootDirSize
  if dir = 0 then pure (-enomem, directory)
  else do
    let stream := fatPrivate.directoryStream
    let response ← diskstreamerSeek stream (fat16SectorToAbsolute k.disk rootDirSectorPos)
    if response ≠ allOk then do
      kfree dir
      pure (-eio, directory)
    else do
      let (response, bytes) ← diskstreamerRead stream rootDirSize
      storeBytes dir bytes
      if response ≠ allOk then do
        kfree dir
        pure (-eio, directory)
      else
        pure (allOk, ⟨dir, totalItems, rootDirSectorPos,
          rootDirSectorPos + (rootDirSize : Int).tdiv k.disk.sectorSize⟩)

def bindDisk (filesystem : Nat) (fsPrivate : Option FatPrivate) (k : Kernel) : Kernel :=
  { k with disk := { k.disk with filesystem, fsPrivate } }

def fat16ReadVolume (private' : FatPrivate) (stream : Nat) : KernelM Int :=
  if stream = 0 then pure (-enomem)
  else do
    let (response, header) ← diskstreamerRead stream sizeofFatH
    let fatPrivate := { private' with header := headerOf header }
    modify (bindDisk fat16Fs (some fatPrivate))
    if response ≠ allOk then pure (-eio)
    else if headerSignature header ≠ boiosFat16Signature then pure (-efsnotus)
    else do
      let (response, directory) ← fat16GetRootDirectory fatPrivate fatPrivate.rootDirectory
      modify (bindDisk fat16Fs (some { fatPrivate with rootDirectory := directory }))
      if response ≠ allOk then pure (-eio) else pure allOk

def fat16Resolve : KernelM Int := do
  let fatPrivate ← kzalloc sizeofFatPrivate
  let private' ← fat16InitPrivate fatPrivate
  modify (bindDisk fat16Fs (some private'))
  let stream ← diskstreamerNew
  let response ← fat16ReadVolume private' stream
  if stream ≠ 0 then diskstreamerClose stream else pure ()
  if response < 0 then do
    kfree fatPrivate
    modify fun k => { k with disk := { k.disk with fsPrivate := none } }
  else pure ()
  pure response

end BoiOS
