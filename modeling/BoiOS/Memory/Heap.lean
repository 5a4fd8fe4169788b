import BoiOS.Machine.Words
import Mathlib.Logic.Function.Basic
import Mathlib.Data.UInt
import Mathlib.Tactic.Linarith

/-! The block heap of memory/heap/heap.c. The table of flag bytes is a pointer into raw
memory that the code indexes without a bound, so `entries` is a function on all integers: the
table is the part from 0 to `totalEntries`, the rest is the memory around it. `written` is
no field of the C structure; it records the index of every store. -/
namespace BoiOS

def boiosHeapBlockSize : Nat := 4096

def heapBlockTableEntryFree : UInt8 := 0x00
def heapBlockTableEntryTaken : UInt8 := 0x01
def heapBlockHasNext : UInt8 := 0x80
def heapBlockIsFirst : UInt8 := 0x40

structure HeapTable where
  entries : Int → UInt8
  totalEntries : Nat
  written : List Int

structure Heap where
  table : HeapTable
  startAddress : Nat

def HeapTable.store (table : HeapTable) (i : Int) (value : UInt8) : HeapTable :=
  { table with entries := Function.update table.entries i value, written := i :: table.written }

def heapGetEntryType (entry : UInt8) : UInt8 := entry &&& 0x0F

def heapAlignValueToUpper (val : Nat) : Nat :=
  if val % boiosHeapBlockSize = 0 then val
  else u32 ((val - val % boiosHeapBlockSize : Nat) + boiosHeapBlockSize)

def heapValidateAlignment (ptr : Nat) : Bool := ptr % boiosHeapBlockSize == 0

def heapValidateTable (ptr endOfHeap : Nat) (table : HeapTable) : Int :=
  let tableSize := u32 ((endOfHeap : Int) - ptr)
  let totalBlocks := tableSize / boiosHeapBlockSize
  if table.totalEntries ≠ totalBlocks then -einvarg else 0

/-- `memset(table->entries, HEAP_BLOCK_TABLE_ENTRY_FREE, size)` -/
def heapClearEntries (table : HeapTable) : Nat → HeapTable
  | 0 => table
  | size + 1 => (heapClearEntries table size).store size heapBlockTableEntryFree

def heapCreate (heap : Heap) (ptr endOfHeap : Nat) (table : HeapTable) : Int × Heap :=
  if !heapValidateAlignment ptr || !heapValidateAlignment endOfHeap then (-einvarg, heap)
  else
    let response := heapValidateTable ptr endOfHeap table
    if response < 0 then (response, ⟨table, ptr⟩)
    else (response, ⟨heapClearEntries table table.totalEntries, ptr⟩)

/-- The loop of `heap_get_start_block`: `count` entries from `i` on are still to be looked
at; `currentBlock` and `blockStart` are the C locals. -/
def heapGetStartBlockLoop (table : HeapTable) (totalBlocks : Nat) :
    (count i : Nat) → (currentBlock blockStart : Int) → Int
  | 0, _, _, blockStart => blockStart
  | count + 1, i, currentBlock, blockStart =>
      if heapGetEntryType (table.entries i) ≠ heapBlockTableEntryFree then
        heapGetStartBlockLoop table totalBlocks count (i + 1) 0 (-1)
      else
        let blockStart := if blockStart = -1 then i32 i else blockStart
        let currentBlock := currentBlock + 1
        -- the comparison is unsigned: `total_blocks` is a `uint32_t`
        if u32 currentBlock = totalBlocks then blockStart
        else heapGetStartBlockLoop table totalBlocks count (i + 1) currentBlock blockStart

def heapGetStartBlock (heap : Heap) (totalBlocks : Nat) : Int :=
  let blockStart := heapGetStartBlockLoop heap.table totalBlocks heap.table.totalEntries 0 0 (-1)
  -- a run too short for the request also ends the loop with its start in `block_start`
  if blockStart = -1 then -enomem else blockStart

def heapBlockToAddress (heap : Heap) (startBlock : Int) : Nat :=
  u32 (heap.startAddress + i32 (startBlock * boiosHeapBlockSize))

def heapMarkBlocksTakenLoop (endBlock : Int) : (count : Nat) → (i : Int) → (entry : UInt8) →
    HeapTable → HeapTable
  | 0, _, _, table => table
  | count + 1, i, entry, table =>
      heapMarkBlocksTakenLoop endBlock count (i + 1)
        (if i ≠ endBlock - 1 then heapBlockTableEntryTaken ||| heapBlockHasNext
          else heapBlockTableEntryTaken)
        (table.store i entry)

def heapMarkBlocksTaken (heap : Heap) (startBlock totalBlocks : Int) : Heap :=
  let endBlock := i32 (startBlock + totalBlocks - 1)
  let entry := heapBlockTableEntryTaken ||| heapBlockIsFirst
  let entry := if totalBlocks > 1 then entry ||| heapBlockHasNext else entry
  { heap with
    table := heapMarkBlocksTakenLoop endBlock (endBlock + 1 - startBlock).toNat startBlock entry
      heap.table }

def heapMallocBlocks (heap : Heap) (totalBlocks : Nat) : Nat × Heap :=
  let startBlock := heapGetStartBlock heap totalBlocks
  if startBlock < 0 then (0, heap)
  else (heapBlockToAddress heap startBlock, heapMarkBlocksTaken heap startBlock (i32 totalBlocks))

@[irreducible] def heapMalloc (heap : Heap) (size : Nat) : Nat × Heap :=
  let alignedSize := heapAlignValueToUpper size
  let totalBlocks := alignedSize / boiosHeapBlockSize
  heapMallocBlocks heap totalBlocks

/-- C division rounds towards zero. -/
def heapAddressToBlock (heap : Heap) (address : Nat) : Int :=
  (i32 ((address : Int) - heap.startAddress)).tdiv boiosHeapBlockSize

def heapMarkBlocksFreeLoop : (count : Nat) → (i : Int) → HeapTable → HeapTable
  | 0, _, table => table
  | count + 1, i, table =>
      let entry := table.entries i
      let table := table.store i heapBlockTableEntryFree
      if entry &&& heapBlockHasNext = 0 then table
      else heapMarkBlocksFreeLoop count (i + 1) table

def heapMarkBlocksFree (heap : Heap) (startingBlock : Int) : Heap :=
  { heap with
    table := heapMarkBlocksFreeLoop (i32 heap.table.totalEntries - startingBlock).toNat
      startingBlock heap.table }

@[irreducible] def heapFree (heap : Heap) (ptr : Nat) : Heap :=
  heapMarkBlocksFree heap (heapAddressToBlock heap ptr)

end BoiOS
