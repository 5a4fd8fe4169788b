import BoiOS.Fs.File
import BoiOS.Library.StateRun
import BoiOS.Machine.Memory
import BoiOS.Memory.Heap
import BoiOS.Task.Process

/-! The state of the kernel. The structures it allocates live at the addresses the heap gave
them, each kind in its own store: an address that is null, was freed or never held an object of
that kind has no entry, and an access through it ends the run. Plain bytes are in `memory`. -/
namespace BoiOS
open Library.StateRun

structure PathRoot where
  driveNo : Int
  first : Nat

structure PathPart where
  partName : Nat
  next : Nat

/-- `entered` is no field of the C structures; it records every entry that `paging_set` writes,
the virtual address and the value. -/
structure PageStore where
  chunks : Nat → Option Nat
  arrays : Nat → Option (Nat → Nat)
  entered : List (Nat × Nat)

structure ElfFile where
  elfMemory : Nat
  virtualBaseAddress : Nat
  virtualEndAddress : Nat
  physicalBaseAddress : Nat
  physicalEndAddress : Nat
  deriving DecidableEq

/-- The fields of the FAT header that the driver reads. -/
structure FatHeader where
  sectorsPerCluster : Nat
  reservedSectors : Nat
  fatCopies : Nat
  rootEntries : Nat
  sectorsPerFat : Nat

structure FatDirectory where
  item : Nat
  totalItems : Int
  sectorPosition : Int
  endingSectorPosition : Int

/-- `pointer` is the union of the C structure: a directory record or a `fat_directory`. -/
structure FatItem where
  pointer : Nat
  type : Nat

structure FatFileDescriptor where
  item : Nat
  position : Nat

structure FatPrivate where
  header : FatHeader
  rootDirectory : FatDirectory
  clusterReadStream : Nat
  fatReadStream : Nat
  directoryStream : Nat

/-- `sectors` is what the drive holds: the byte at an offset of a sector. -/
structure Disk where
  sectorSize : Int
  filesystem : Nat
  fsPrivate : Option FatPrivate
  sectors : Nat → Nat → UInt8

structure Kernel where
  heap : Heap
  memory : Memory
  pages : PageStore
  scheduler : Scheduler
  files : FileTable
  pathRoots : Nat → Option PathRoot
  pathParts : Nat → Option PathPart
  elfFiles : Nat → Option ElfFile
  disk : Disk
  streams : Nat → Option Int
  fatDescriptors : Nat → Option FatFileDescriptor
  fatItems : Nat → Option FatItem
  fatDirectories : Nat → Option FatDirectory

abbrev KernelM (α : Type) := Prog Kernel Stop α

def fetch {α : Type} (o : Option α) : KernelM α := fun k => (access o).map fun a => (a, k)

@[simp] theorem fetch_some {α : Type} (a : α) (k : Kernel) : fetch (some a) k = .ok (a, k) := rfl

@[simp] theorem fetch_none {α : Type} (k : Kernel) :
    fetch (none : Option α) k = .error .faulted := rfl

theorem fetch_eq_ok {α : Type} {o : Option α} {a : α} {k k' : Kernel} :
    fetch o k = .ok (a, k') ↔ o = some a ∧ k = k' := by
  cases o with
  | none => simp
  | some b => simp

theorem bind_fetch_eq_ok {α β : Type} {o : Option α} {f : α → KernelM β} {b : β} {k k' : Kernel} :
    (fetch o >>= f) k = .ok (b, k') ↔ ∃ a, o = some a ∧ f a k = .ok (b, k') := by
  rw [bind_eq_ok]
  constructor
  · rintro ⟨a, k₁, hfetch, hrun⟩
    obtain ⟨ha, rfl⟩ := fetch_eq_ok.mp hfetch
    exact ⟨a, ha, hrun⟩
  · rintro ⟨a, ha, hrun⟩
    exact ⟨a, k, fetch_eq_ok.mpr ⟨ha, rfl⟩, hrun⟩

/-! The kernel heap of memory/heap/kheap.c. -/

def boiosHeapSizeBytes : Nat := 104857600
def boiosHeapAddress : Nat := 0x01000000

/-- `entries` is the memory around BOIOS_HEAP_TABLE_ADDRESS, right behind the boot sector. -/
def kheapInit (kernelHeap : Heap) (entries : Int → UInt8) : Int × Heap :=
  let totalTableEntries := boiosHeapSizeBytes / boiosHeapBlockSize
  let endOfHeap := boiosHeapAddress + boiosHeapSizeBytes
  heapCreate kernelHeap boiosHeapAddress endOfHeap ⟨entries, totalTableEntries, []⟩

/-- The entries of a new heap. Below them lies the boot sector, whose last bytes are 0x55 and 0xAA. -/
def bootEntries (i : Int) : UInt8 := if i = -1 then 0xAA else if i = -2 then 0x55 else 0

theorem bootEntries_eq_zero {i : Int} (h : 0 ≤ i) : bootEntries i = 0 := by
  unfold bootEntries
  rw [if_neg (by omega), if_neg (by omega)]

/-- A kernel with nothing allocated: `blocks` free blocks of heap, cleared memory, a blank disk. -/
def emptyKernel (blocks : Nat) : Kernel where
  heap := ⟨⟨bootEntries, blocks, []⟩, boiosHeapAddress⟩
  memory := fun _ => 0
  pages := ⟨fun _ => none, fun _ => none, []⟩
  scheduler := ⟨fun _ => none, fun _ => 0, 0, ⟨fun _ => none, 0, 0, 0⟩⟩
  files := ⟨fun _ => 0, fun _ => none⟩
  pathRoots := fun _ => none
  pathParts := fun _ => none
  elfFiles := fun _ => none
  disk := ⟨512, 1, none, fun _ _ => 0⟩
  streams := fun _ => none
  fatDescriptors := fun _ => none
  fatItems := fun _ => none
  fatDirectories := fun _ => none

def kmalloc (size : Nat) : KernelM Nat := fun k =>
  .ok ((heapMalloc k.heap size).1, { k with heap := (heapMalloc k.heap size).2 })

/-- A size whose rounding wraps gets no blocks, and the `memset` of it runs over everything. -/
def kzalloc (size : Nat) : KernelM Nat := do
  let ptr ← kmalloc size
  if ptr = 0 then pure 0
  else if size > 0xFFFFF000 then throw .faulted
  else do
    modify fun k => { k with memory := k.memory.clear ptr size }
    pure ptr

/-- An allocation of a structure, which is placed at the address unless memory is out. -/
def kzallocObject (size : Nat) (place : Nat → Kernel → Kernel) : KernelM Nat := do
  let ptr ← kzalloc size
  modify fun k => if ptr = 0 then k else place ptr k
  pure ptr

def kfree (ptr : Nat) : KernelM Unit := modify fun k => { k with heap := heapFree k.heap ptr }

theorem kzalloc_apply {size : Nat} (hsize : size ≤ 0xFFFFF000) (k : Kernel) :
    kzalloc size k = .ok ((heapMalloc k.heap size).1, { k with
      heap := (heapMalloc k.heap size).2
      memory := if (heapMalloc k.heap size).1 = 0 then k.memory
        else k.memory.clear (heapMalloc k.heap size).1 size }) := by
  have hrun : kmalloc size k =
      .ok ((heapMalloc k.heap size).1, { k with heap := (heapMalloc k.heap size).2 }) := rfl
  unfold kzalloc
  rw [bind_of_ok hrun]
  by_cases hnull : (heapMalloc k.heap size).1 = 0
  · rw [hnull, if_pos rfl, if_pos rfl]
    rfl
  · rw [if_neg hnull, if_neg hnull, if_neg (by omega)]
    rfl

theorem kzalloc_eq_ok {size ptr : Nat} {k k' : Kernel} (h : kzalloc size k = .ok (ptr, k')) :
    ptr = (heapMalloc k.heap size).1 ∧ k' = { k with
      heap := (heapMalloc k.heap size).2
      memory := if ptr = 0 then k.memory else k.memory.clear ptr size } := by
  unfold kzalloc at h
  obtain ⟨p, k₁, hmalloc, h⟩ := bind_eq_ok.mp h
  unfold kmalloc at hmalloc
  rw [Except.ok.injEq, Prod.mk.injEq] at hmalloc
  obtain ⟨rfl, rfl⟩ := hmalloc
  split_ifs at h with hzero hwrap
  · obtain ⟨rfl, rfl⟩ := pure_eq_ok.mp h
    exact ⟨hzero.symm, rfl⟩
  · exact (throw_eq_ok.mp h).elim
  · obtain ⟨_, k₂, hmodify, h⟩ := bind_eq_ok.mp h
    obtain ⟨rfl, rfl⟩ := pure_eq_ok.mp h
    rw [if_neg hzero]
    exact ⟨rfl, (modify_eq_ok.mp hmodify).symm⟩

theorem kzallocObject_eq_ok {size ptr : Nat} {place : Nat → Kernel → Kernel} {k k' : Kernel}
    (h : kzallocObject size place k = .ok (ptr, k')) :
    ∃ k₁, kzalloc size k = .ok (ptr, k₁) ∧ k' = if ptr = 0 then k₁ else place ptr k₁ := by
  unfold kzallocObject at h
  obtain ⟨p, k₁, halloc, h⟩ := bind_eq_ok.mp h
  obtain ⟨_, k₂, hmodify, h⟩ := bind_eq_ok.mp h
  obtain ⟨rfl, rfl⟩ := pure_eq_ok.mp h
  exact ⟨k₁, halloc, (modify_eq_ok.mp hmodify).symm⟩

end BoiOS
