import BoiOS.Disk.Streamer
import BoiOS.Machine.Strings

/-! The FAT16 driver of fs/fat/fat16.c. A directory record is the 32 bytes at an address; what the
driver reads into memory is returned as bytes, and the caller's buffer gets them. -/
namespace BoiOS
open Library.StateRun

def fatFileReadOnly : Nat := 0x01
def fatFileSubdirectory : Nat := 0x10
def fatItemTypeDirectory : Nat := 0
def fatItemTypeFile : Nat := 1
def boiosFat16NewEntrySize : Int := 2
def boiosFat16BadSector : Int := 0xFF7

/-- The address of the static `fat16_fs`. -/
def fat16Fs : Nat := 2

def sizeofFatDirectoryItem : Nat := 32
def sizeofFatItem : Nat := 8
def sizeofFatDirectory : Nat := 16
def sizeofFatFileDescriptor : Nat := 8

/-! The fields of `struct fat_directory_item`. -/

def itemFileName (m : Memory) (item : Nat) : List UInt8 := m.bytesAt item 8
def itemExt (m : Memory) (item : Nat) : List UInt8 := m.bytesAt (u32 ((item : Int) + 8)) 3
def itemAttributes (m : Memory) (item : Nat) : Nat := m.load8 ((item : Int) + 11)
def itemHigh16BitsFirstCluster (m : Memory) (item : Nat) : Nat := m.load16 ((item : Int) + 20)
def itemLow16BitsFirstCluster (m : Memory) (item : Nat) : Nat := m.load16 ((item : Int) + 26)
def itemFileSize (m : Memory) (item : Nat) : Nat := m.load32 ((item : Int) + 28)

def putFatItem (ptr : Nat) (item : Option FatItem) (k : Kernel) : Kernel :=
  { k with fatItems := Function.update k.fatItems ptr item }

def putFatDirectory (ptr : Nat) (directory : Option FatDirectory) (k : Kernel) : Kernel :=
  { k with fatDirectories := Function.update k.fatDirectories ptr directory }

def putFatDescriptor (ptr : Nat) (descriptor : Option FatFileDescriptor) (k : Kernel) : Kernel :=
  { k with fatDescriptors := Function.update k.fatDescriptors ptr descriptor }

def storeBytes (out : Nat) (bytes : List UInt8) : KernelM Unit :=
  if bytes = [] then pure ()
  else if out = 0 then throw .faulted
  else modify fun k => { k with memory := k.memory.copyIn out bytes }

def fatPrivate : KernelM FatPrivate := do
  let k ← get
  fetch k.disk.fsPrivate

theorem fatPrivate_apply {k : Kernel} {p : FatPrivate} (h : k.disk.fsPrivate = some p) :
    fatPrivate k = .ok (p, k) :=
  (bind_of_ok (get_apply k) _).trans (fetch_eq_ok.mpr ⟨h, rfl⟩)

/-- The records up to the blank one. The position has 2^27 places for a record, so that a scan
that has not ended by then never does. -/
def fat16GetTotalItemsForDirectoryLoop (stream : Nat) : (fuel : Nat) → (i : Int) → KernelM Int
  | 0, _ => throw .faulted
  | fuel + 1, i => do
      let (response, item) ← diskstreamerRead stream sizeofFatDirectoryItem
      if response ≠ allOk then pure (-eio)
      else if charAt item 0 = 0x00 then pure i
      else if charAt item 5 = 0xE5 then fat16GetTotalItemsForDirectoryLoop stream fuel i
      else fat16GetTotalItemsForDirectoryLoop stream fuel (i32 (i + 1))

def fat16GetTotalItemsForDirectory (directoryStartSector : Nat) : KernelM Int := do
  let k ← get
  let fatPrivate ← fatPrivate
  let stream := fatPrivate.directoryStream
  let response ← diskstreamerSeek stream (i32 (directoryStartSector * k.disk.sectorSize))
  if response ≠ allOk then pure (-eio)
  else fat16GetTotalItemsForDirectoryLoop stream 134217728 0

def fat16ToProperString (chars : List UInt8) (size : Nat) : List UInt8 :=
  (chars.take size).takeWhile fun c => c != 0x00 && c != 0x20

def fat16GetFullRelativeFilename (m : Memory) (item : Nat) : List UInt8 :=
  let name := fat16ToProperString (itemFileName m item) 8
  if charAt (itemExt m item) 0 ≠ 0x00 ∧ charAt (itemExt m item) 0 ≠ 0x20 then
    name ++ 46 :: fat16ToProperString (itemExt m item) 3
  else name

def fat16CloneDirectoryItem (item size : Nat) : KernelM Nat :=
  if size < sizeofFatDirectoryItem then pure 0
  else do
    let itemCopy ← kzalloc size
    if itemCopy = 0 then pure 0
    else do
      modify fun k => { k with memory := k.memory.copyIn itemCopy (k.memory.bytesAt item size) }
      pure itemCopy

def fat16GetFirstCluster (m : Memory) (item : Nat) : Nat :=
  itemHigh16BitsFirstCluster m item ||| itemLow16BitsFirstCluster m item

def fat16ClusterToSector (fatPrivate : FatPrivate) (cluster : Int) : Int :=
  i32 (fatPrivate.rootDirectory.endingSectorPosition +
    (cluster - 2) * fatPrivate.header.sectorsPerCluster)

def fat16GetFirstFatSector (fatPrivate : FatPrivate) : Nat := fatPrivate.header.reservedSectors

def fat16GetFatEntry (cluster : Int) : KernelM Int := do
  let k ← get
  let fatPrivate ← fatPrivate
  let stream := fatPrivate.fatReadStream
  if stream = 0 then pure (-1)
  else do
    let fatTablePosition := u32 (fat16GetFirstFatSector fatPrivate * k.disk.sectorSize)
    let response ← diskstreamerSeek stream
      (i32 (fatTablePosition * (cluster * boiosFat16NewEntrySize)))
    if response < 0 then pure response
    else do
      let (response, bytes) ← diskstreamerRead stream 2
      if response < 0 then pure response
      else pure ((charAt bytes 0).toNat + 256 * (charAt bytes 1).toNat)

def fat16WalkClusters : (count : Nat) → (clusterToUse : Int) → KernelM Int
  | 0, clusterToUse => pure clusterToUse
  | count + 1, clusterToUse => do
      let entry ← fat16GetFatEntry clusterToUse
      if entry = 0xFF8 ∨ entry = 0xFFF then pure (-eio)
      else if entry = boiosFat16BadSector then pure (-eio)
      else if entry = 0xFF0 ∨ entry = 0xFF6 then pure (-eio)
      else if entry = 0x00 then pure (-eio)
      else fat16WalkClusters count entry

def sizeOfClusterBytes (fatPrivate : FatPrivate) (disk : Disk) : Int :=
  fatPrivate.header.sectorsPerCluster * disk.sectorSize

def fat16GetClusterForOffset (startingCluster offset : Int) : KernelM Int := do
  let k ← get
  let fatPrivate ← fatPrivate
  let size := sizeOfClusterBytes fatPrivate k.disk
  if size = 0 then throw .divided
  else fat16WalkClusters (offset.tdiv size).toNat startingCluster

/-- Each round but the last takes a cluster, so that a fuel of one more than the total is enough. -/
def fat16ReadInternalFromStream (stream : Nat) : (fuel : Nat) → (cluster offset total : Int) →
    KernelM (Int × List UInt8)
  | 0, _, _, _ => throw .faulted
  | fuel + 1, cluster, offset, total => do
      let k ← get
      let fatPrivate ← fatPrivate
      let size := sizeOfClusterBytes fatPrivate k.disk
      let clusterToUse ← fat16GetClusterForOffset cluster offset
      if clusterToUse < 0 then pure (clusterToUse, [])
      else do
        let offsetFromCluster := offset.tmod size
        let startingSector := fat16ClusterToSector fatPrivate clusterToUse
        let startingPos := i32 (startingSector * k.disk.sectorSize + offsetFromCluster)
        let totalToRead := if total > size then size else total
        let response ← diskstreamerSeek stream startingPos
        if response ≠ allOk then pure (response, [])
        else do
          let (response, bytes) ← diskstreamerRead stream totalToRead
          if response ≠ allOk then pure (response, bytes)
          else if total - totalToRead > 0 then do
            let (response, rest) ← fat16ReadInternalFromStream stream fuel cluster
              (i32 (offset + totalToRead)) (total - totalToRead)
            pure (response, bytes ++ rest)
          else pure (response, bytes)

def fat16ReadInternal (startingCluster offset total : Int) : KernelM (Int × List UInt8) := do
  let fatPrivate ← fatPrivate
  fat16ReadInternalFromStream fatPrivate.clusterReadStream (total.toNat + 1) startingCluster offset
    total

def fat16FreeDirectory (directory : Nat) : KernelM Unit :=
  if directory = 0 then pure ()
  else do
    let k ← get
    let d ← fetch (k.fatDirectories directory)
    if d.item ≠ 0 then kfree d.item else pure ()
    kfree directory
    modify (putFatDirectory directory none)

def fat16FatItemFree (item : Nat) : KernelM Unit := do
  let k ← get
  let f ← fetch (k.fatItems item)
  if f.type = fatItemTypeDirectory then fat16FreeDirectory f.pointer
  else if f.type = fatItemTypeFile then kfree f.pointer
  else pure ()
  kfree item
  modify (putFatItem item none)

/-- After a failed read the directory is freed and its address is returned all the same. -/
def fat16LoadFatDirectory (item : Nat) : KernelM Nat := do
  let k ← get
  let fatPrivate ← fatPrivate
  if itemAttributes k.memory item &&& fatFileSubdirectory = 0 then pure 0
  else do
    let directory ← kzalloc sizeofFatDirectory
    if directory = 0 then pure 0
    else do
      let k ← get
      let cluster := fat16GetFirstCluster k.memory item
      let clusterSector := fat16ClusterToSector fatPrivate cluster
      let totalItems ← fat16GetTotalItemsForDirectory (u32 clusterSector)
      let directorySize := i32 (totalItems * sizeofFatDirectoryItem)
      let items ← kzalloc (u32 directorySize)
      modify (putFatDirectory directory (some ⟨items, totalItems, 0, 0⟩))
      if items = 0 then do
        fat16FreeDirectory directory
        pure directory
      else do
        let (response, bytes) ← fat16ReadInternal cluster 0 directorySize
        storeBytes items bytes
        if response ≠ allOk then do
          fat16FreeDirectory directory
          pure directory
        else pure directory

def fat16NewFatItemOrDirectoryItem (item : Nat) : KernelM Nat := do
  let fItem ← kzalloc sizeofFatItem
  if fItem = 0 then pure 0
  else do
    let k ← get
    if itemAttributes k.memory item &&& fatFileSubdirectory ≠ 0 then do
      let directory ← fat16LoadFatDirectory item
      modify (putFatItem fItem (some ⟨directory, fatItemTypeDirectory⟩))
      pure fItem
    else do
      let copy ← fat16CloneDirectoryItem item sizeofFatDirectoryItem
      modify (putFatItem fItem (some ⟨copy, fatItemTypeFile⟩))
      pure fItem

/-- The loop of `fat16_find_item_in_directory`: `count` records from `i` on. A later match takes
the place of an earlier one. -/
def fat16FindItemInDirectoryLoop (items fileName : Nat) : (count i : Nat) → (fItem : Nat) →
    KernelM Nat
  | 0, _, fItem => pure fItem
  | count + 1, i, fItem => do
      let k ← get
      let item := u32 ((items : Int) + (sizeofFatDirectoryItem * i : Nat))
      let tmpFilename := fat16GetFullRelativeFilename k.memory item
      if istrncmp tmpFilename (k.memory.bytesAt fileName 128) 128 = 0 then do
        let fItem ← fat16NewFatItemOrDirectoryItem item
        fat16FindItemInDirectoryLoop items fileName count (i + 1) fItem
      else fat16FindItemInDirectoryLoop items fileName count (i + 1) fItem

def fat16FindItemInDirectory (directory : FatDirectory) (fileName : Nat) : KernelM Nat :=
  fat16FindItemInDirectoryLoop directory.item fileName directory.totalItems.toNat 0 0

/-- The walk down the path. The parts lie at different addresses, so that a fuel of as many as
there are is enough. -/
def fat16WalkPath : (fuel : Nat) → (currentItem nextPart : Nat) → KernelM Nat
  | 0, _, _ => throw .faulted
  | fuel + 1, currentItem, nextPart =>
      if nextPart = 0 then pure currentItem
      else do
        let k ← get
        let current ← fetch (k.fatItems currentItem)
        if current.type ≠ fatItemTypeDirectory then pure 0
        else do
          let directory ← fetch (k.fatDirectories current.pointer)
          let part ← fetch (k.pathParts nextPart)
          let tmpItem ← fat16FindItemInDirectory directory part.partName
          fat16FatItemFree currentItem
          fat16WalkPath fuel tmpItem part.next

def fat16GetDirectoryEntry (path : Nat) : KernelM Nat := do
  let k ← get
  let fatPrivate ← fatPrivate
  let part ← fetch (k.pathParts path)
  let rootItem ← fat16FindItemInDirectory fatPrivate.rootDirectory part.partName
  if rootItem = 0 then pure 0
  else fat16WalkPath 4294967296 rootItem part.next

def fileModeRead : Nat := 0
def fileModeWrite : Nat := 1
def fileModeAppend : Nat := 2
def fileModeInvalid : Nat := 3

def errorPointer (value : Int) : Nat := u32 value

/-- The object, or an error code in its place. -/
def fat16Open (path mode : Nat) : KernelM Nat := do
  let descriptor ← kzallocObject sizeofFatFileDescriptor fun ptr =>
    putFatDescriptor ptr (some ⟨0, 0⟩)
  if mode ≠ fileModeRead then do
    if descriptor ≠ 0 then do
      kfree descriptor
      modify (putFatDescriptor descriptor none)
    else pure ()
    pure (errorPointer (-erdonly))
  else if descriptor = 0 then pure (errorPointer (-enomem))
  else do
    let item ← fat16GetDirectoryEntry path
    if item = 0 then do
      kfree descriptor
      modify (putFatDescriptor descriptor none)
      pure (errorPointer (-eio))
    else do
      modify (putFatDescriptor descriptor (some ⟨item, 0⟩))
      pure descriptor

/-- What `fat16_stat` leaves in `stat`; nothing on failure. -/
def fat16Stat (descriptor : Nat) : KernelM (Int × Nat × Nat) := do
  let k ← get
  let desc ← fetch (k.fatDescriptors descriptor)
  let item ← fetch (k.fatItems desc.item)
  if item.type ≠ fatItemTypeFile then pure (-einvarg, 0, 0)
  else if item.pointer = 0 then throw .faulted
  else
    pure (allOk, if itemAttributes k.memory item.pointer &&& fatFileReadOnly ≠ 0 then 1 else 0,
      itemFileSize k.memory item.pointer)

def fat16ReadLoop (item : Nat) (size : Nat) : (count : Nat) → (offset : Int) → (out : Nat) →
    KernelM Int
  | 0, _, _ => pure allOk
  | count + 1, offset, out => do
      let k ← get
      let (response, bytes) ← fat16ReadInternal (fat16GetFirstCluster k.memory item) offset (i32 size)
      storeBytes out bytes
      if response < 0 then pure response
      else fat16ReadLoop item size count (i32 (offset + size)) (u32 ((out : Int) + size))

def fat16Read (descriptor size nmemb out : Nat) : KernelM Int := do
  let k ← get
  let desc ← fetch (k.fatDescriptors descriptor)
  let item ← fetch (k.fatItems desc.item)
  -- the record of a file; the directory of the union is no record
  if item.type ≠ fatItemTypeFile ∨ item.pointer = 0 then throw .faulted
  else do
    let response ← fat16ReadLoop item.pointer size nmemb (i32 desc.position) out
    if response < 0 then pure response else pure (i32 nmemb)

def seekSet : Nat := 0
def seekCur : Nat := 1
def seekEnd : Nat := 2

def fat16Seek (descriptor offset seekMode : Nat) : KernelM Int := do
  let k ← get
  let desc ← fetch (k.fatDescriptors descriptor)
  let item ← fetch (k.fatItems desc.item)
  if item.type ≠ fatItemTypeFile then pure (-einvarg)
  else if item.pointer = 0 then throw .faulted
  else if offset ≥ itemFileSize k.memory item.pointer then pure (-eio)
  else if seekMode = seekSet then do
    modify (putFatDescriptor descriptor (some { desc with position := offset }))
    pure allOk
  else if seekMode = seekEnd then pure (-eunimp)
  else if seekMode = seekCur then do
    modify (putFatDescriptor descriptor
      (some { desc with position := u32 ((desc.position : Int) + offset) }))
    pure allOk
  else pure (-einvarg)

def fat16Close (descriptor : Nat) : KernelM Int := do
  let k ← get
  let desc ← fetch (k.fatDescriptors descriptor)
  fat16FatItemFree desc.item
  kfree descriptor
  modify (putFatDescriptor descriptor none)
  pure allOk

end BoiOS
