import BoiOS.Memory.HeapRuns
import BoiOS.Memory.PagingExact

/-! Blocks that are given back leave no trace. The allocator marks a free block with the byte zero and
no other, so that taking one block and giving it back restores the table. -/
namespace BoiOS
open Library.Transition

/-- The entries of free blocks are zero. -/
def HeapTable.Clean (table : HeapTable) : Prop :=
  ∀ b : Int, 0 ≤ b → b < table.totalEntries → table.IsFree b →
    table.entries b = heapBlockTableEntryFree

namespace HeapTable

theorem Clean.store {table : HeapTable} (h : table.Clean) {value : UInt8}
    (hvalue : heapGetEntryType value = heapBlockTableEntryFree → value = heapBlockTableEntryFree)
    (i : Int) : (table.store i value).Clean := by
  intro b hlow hhigh hfree
  by_cases hb : b = i
  · have hentry : (table.store i value).entries b = value := by
      rw [hb]
      exact Function.update_self ..
    unfold IsFree at hfree
    rw [hentry] at hfree ⊢
    exact hvalue hfree
  · have hentry : (table.store i value).entries b = table.entries b := Function.update_of_ne hb _ _
    unfold IsFree at hfree
    rw [hentry] at hfree ⊢
    exact h b hlow hhigh hfree

theorem Clean.markTaken {table : HeapTable} (h : table.Clean) (endBlock : Int) (count : Nat) (i : Int)
    {entry : UInt8} (hentry : heapGetEntryType entry ≠ heapBlockTableEntryFree) :
    (heapMarkBlocksTakenLoop endBlock count i entry table).Clean := by
  induction count generalizing i entry table with
  | zero => exact h
  | succ count ih =>
    unfold heapMarkBlocksTakenLoop
    refine ih (h.store (fun hfree => absurd hfree hentry) i) (i + 1) ?_
    split_ifs <;> decide

theorem Clean.markFree {table : HeapTable} (h : table.Clean) (count : Nat) (i : Int) :
    (heapMarkBlocksFreeLoop count i table).Clean := by
  induction count generalizing i table with
  | zero => exact h
  | succ count ih =>
    have hstored := h.store (fun _ => rfl : heapGetEntryType heapBlockTableEntryFree = _ → _) i
    unfold heapMarkBlocksFreeLoop
    dsimp only
    split_ifs
    · exact hstored
    · exact ih hstored (i + 1)

end HeapTable

namespace Heap
variable {heap : Heap}

theorem clean_heapMalloc (h : heap.table.Clean) (size : Nat) :
    (heapMalloc heap size).2.table.Clean := by
  unfold heapMalloc heapMallocBlocks
  dsimp only
  split_ifs
  · exact h
  · unfold heapMarkBlocksTaken
    dsimp only
    refine h.markTaken _ _ _ ?_
    split_ifs <;> decide

theorem clean_heapFree (h : heap.table.Clean) (ptr : Nat) : (heapFree heap ptr).table.Clean := by
  unfold heapFree heapMarkBlocksFree
  exact h.markFree _ _

theorem clean_heapCreate {heap' : Heap} {ptr endOfHeap : Nat} {table : HeapTable}
    (hrun : heapCreate heap ptr endOfHeap table = (0, heap')) : heap'.table.Clean := by
  have hclear : ∀ size : Nat, ∀ b : Int, 0 ≤ b → b < size →
      (heapClearEntries table size).entries b = heapBlockTableEntryFree := by
    intro size
    induction size with
    | zero => intro b hlow hhigh; omega
    | succ size ih =>
      intro b hlow hhigh
      unfold heapClearEntries
      by_cases hb : b = size
      · rw [hb]
        exact Function.update_self ..
      · exact (Function.update_of_ne hb _ _).trans (ih b hlow (by omega))
  have htotal : ∀ size : Nat, (heapClearEntries table size).totalEntries = table.totalEntries := by
    intro size
    induction size with
    | zero => rfl
    | succ size ih => exact ih
  unfold heapCreate heapValidateTable at hrun
  dsimp only at hrun
  split_ifs at hrun with _ _ _ hzero
  · exact absurd (Prod.mk.inj hrun).1 (by decide)
  · exact absurd (Prod.mk.inj hrun).1 (by decide)
  · exact absurd (Prod.mk.inj hrun).1 (by decide)
  · exact absurd hzero (lt_irrefl 0)
  · obtain rfl := (Prod.mk.inj hrun).2
    intro b hlow hhigh _
    dsimp only at hhigh ⊢
    rw [htotal] at hhigh
    exact hclear _ b hlow hhigh

theorem Placed.heapMalloc_null (h : heap.Placed) {size : Nat} (hlow : 1 ≤ size) (hhigh : size ≤ 4096)
    (hnull : (BoiOS.heapMalloc heap size).1 = 0) : BoiOS.heapMalloc heap size = (0, heap) := by
  have hspan := h.span
  have hpositive := h.positive
  have haddress : ∀ b : Int, 0 ≤ b → b < heap.table.totalEntries → heapBlockToAddress heap b ≠ 0 := by
    intro b hb hb' hzero
    have hblock := (h.isBlock hb hb').1.address
    rw [(h.isBlock hb hb').2, hzero] at hblock
    omega
  have hone : blocksFor size = 1 := by
    unfold blocksFor
    omega
  rcases heapMalloc_cases (by omega : heap.table.totalEntries < 1048576) hlow (by omega) with
    ⟨b, hb, hroom, -, heq⟩ | ⟨b, hb, -, hin, -, -, heq⟩ | ⟨-, -, heq⟩
  · rw [hone] at hroom
    rw [heq] at hnull
    exact absurd hnull (haddress b hb (by omega))
  · rw [heq] at hnull
    exact absurd hnull (haddress b hb hin)
  · exact heq

theorem TakesBlock.restored {heap' : Heap} {ptr : Nat} (h : heap.TakesBlock heap' ptr)
    (hplaced : heap.Placed) (hclean : heap.table.Clean) :
    (heapFree heap' ptr).table.entries = heap.table.entries := by
  have hblock := blockOf_congr h.start ptr
  have hsingle : heap'.table.entries (heap'.blockOf ptr) = heapBlockSingle := by
    rw [h.entries, hblock, Function.update_self]
  have hzero := hclean _ h.block.low h.block.high h.free
  rw [(hplaced.congr h.start h.total).heapFree (h.block.congr h.start h.total) hsingle, h.entries,
    hblock, Function.update_idem, ← hzero, Function.update_eq_self]

end Heap

theorem TookBlocks.clean {addresses : Set Nat} {heap heap' : Heap}
    (h : TookBlocks addresses heap heap') (hclean : heap.table.Clean) : heap'.table.Clean := by
  intro b hlow hhigh hfree
  by_cases htaken : ∃ a ∈ addresses, b = heap.blockOf a
  · obtain ⟨a, ha, rfl⟩ := htaken
    unfold HeapTable.IsFree at hfree
    rw [h.taken a ha] at hfree
    exact absurd hfree (by decide)
  · have hkept := h.kept b fun a ha heq => htaken ⟨a, ha, heq⟩
    unfold HeapTable.IsFree at hfree
    rw [hkept] at hfree ⊢
    exact hclean b hlow (by rw [← h.total]; exact hhigh) hfree

/-! Blocks that are taken one by one and given back in any order. -/

namespace Heap
variable {heap heap' : Heap}

theorem Placed.heapMalloc_served (h : heap.Placed) {size : Nat} (hlow : 1 ≤ size)
    (hhigh : size ≤ 4096) (hfree : 0 < heap.freeBlocks) : (BoiOS.heapMalloc heap size).1 ≠ 0 := by
  have hspan := h.span
  have hpositive := h.positive
  obtain ⟨b, hb, hb', -, heq⟩ := heapMalloc_one (by omega) hlow hhigh hfree
  obtain ⟨hblock, hindex⟩ := h.isBlock hb hb'
  have haddress := hblock.address
  rw [hindex] at haddress
  rw [heq]
  dsimp only
  omega

theorem TakesBlock.freeBlocks {ptr : Nat} (h : heap.TakesBlock heap' ptr) :
    heap'.freeBlocks + 1 = heap.freeBlocks := by
  refine freeBlocks_take h.block.low h.block.high h.free h.total ?_ fun j hj => ?_
  · have htaken : heap'.table.entries (heap.blockOf ptr) = heapBlockSingle := by
      rw [h.entries, Function.update_self]
    exact not_isFree_of_taken htaken (by decide)
  · rw [h.entries, Function.update_of_ne hj]

end Heap

/-- The objects at `addresses` took a free block each, the last one first. -/
structure TookList (addresses : List Nat) (heap heap' : Heap) : Prop where
  nodup : addresses.Nodup
  took : TookBlocks {a | a ∈ addresses} heap heap'

namespace TookList
variable {addresses : List Nat} {heap heap' heap'' : Heap} {ptr : Nat}

theorem nil (heap : Heap) : TookList [] heap heap := by
  have hnone : {a | a ∈ ([] : List Nat)} = (∅ : Set Nat) := by simp
  exact ⟨List.nodup_nil, hnone ▸ TookBlocks.refl heap⟩

theorem take (h : TookList addresses heap heap') (htake : heap'.TakesBlock heap'' ptr) :
    TookList (ptr :: addresses) heap heap'' := by
  have hcons : {a | a ∈ ptr :: addresses} = insert ptr {a | a ∈ addresses} := by
    ext a
    simp
  exact ⟨List.nodup_cons.mpr ⟨h.took.not_mem htake, h.nodup⟩, hcons ▸ h.took.take htake⟩

theorem perm {others : List Nat} (h : TookList addresses heap heap') (hperm : addresses.Perm others) :
    TookList others heap heap' := by
  have hsame : {a | a ∈ others} = {a | a ∈ addresses} := by
    ext a
    exact hperm.symm.mem_iff
  exact ⟨hperm.nodup_iff.mp h.nodup, hsame ▸ h.took⟩

theorem give (h : TookList (ptr :: addresses) heap heap') (hplaced : heap.Placed)
    (hclean : heap.table.Clean) : (heapFree heap' ptr).TakesBlock heap' ptr ∧
      TookList addresses heap (heapFree heap' ptr) := by
  obtain ⟨hnot, hnodup⟩ := List.nodup_cons.mp h.nodup
  have hmem : ptr ∈ {a | a ∈ ptr :: addresses} := List.mem_cons_self ..
  have hptr := h.took.blocks ptr hmem
  have hblock := Heap.blockOf_congr h.took.start
  have hsingle : heap'.table.entries (heap'.blockOf ptr) = heapBlockSingle := by
    rw [hblock]
    exact h.took.taken ptr hmem
  have hplaced' := hplaced.congr h.took.start h.took.total
  have hptr' := hptr.congr h.took.start h.took.total
  have hentries := hplaced'.heapFree hptr' hsingle
  have hstart := heapFree_startAddress heap' ptr
  have htotal := heapFree_totalEntries heap' ptr
  have hother : ∀ a ∈ addresses, heap.blockOf a ≠ heap.blockOf ptr := by
    intro a ha heq
    rw [(h.took.blocks a (List.mem_cons_of_mem _ ha)).eq hptr heq] at ha
    exact hnot ha
  refine ⟨⟨hptr'.congr hstart htotal, ?_, ?_, hstart.symm, htotal.symm⟩, hnodup, ?_⟩
  · rw [Heap.blockOf_congr hstart]
    refine HeapTable.isFree_of_eq_zero ?_
    rw [hentries, Function.update_self]
    rfl
  · rw [Heap.blockOf_congr hstart, hentries, Function.update_idem, ← hsingle,
      Function.update_eq_self]
  · refine ⟨hstart.trans h.took.start, htotal.trans h.took.total,
      fun a ha => h.took.blocks a (List.mem_cons_of_mem _ ha),
      fun a ha => h.took.free a (List.mem_cons_of_mem _ ha), fun a ha => ?_, fun b hb => ?_⟩
    · rw [hentries, hblock, Function.update_of_ne (hother a ha)]
      exact h.took.taken a (List.mem_cons_of_mem _ ha)
    · rw [hentries, hblock]
      by_cases hb' : b = heap.blockOf ptr
      · have hzero := hclean _ hptr.low hptr.high (h.took.free ptr hmem)
        rw [hb', Function.update_self, hzero]
      · rw [Function.update_of_ne hb']
        refine h.took.kept b fun a ha => ?_
        rcases List.mem_cons.mp ha with rfl | ha
        · exact hb'
        · exact hb a ha

theorem restored (h : TookList [] heap heap') : heap'.table.entries = heap.table.entries :=
  funext fun b => h.took.kept b fun _ ha => absurd ha List.not_mem_nil

theorem freeBlocks (h : TookList addresses heap heap') (hplaced : heap.Placed)
    (hclean : heap.table.Clean) : heap'.freeBlocks + addresses.length = heap.freeBlocks := by
  induction addresses generalizing heap' with
  | nil => exact Heap.freeBlocks_congr h.took.total h.restored
  | cons ptr rest ih =>
    obtain ⟨htake, hrest⟩ := h.give hplaced hclean
    have hone := htake.freeBlocks
    have hcount := ih hrest
    rw [List.length_cons]
    omega

end TookList

/-- In every run of allocations and frees the entries of free blocks are zero. -/
theorem HeapRun.clean_of_path {s : HeapRun} {run : List (HeapCall × HeapRun)}
    (h : s.heap.table.Clean) (hrun : Path HeapRun.step s run) : (last s run).heap.table.Clean := by
  have hstep : ∀ (s : HeapRun) (call : HeapCall) (t : HeapRun), s.heap.table.Clean →
      HeapRun.step s call t → t.heap.table.Clean := by
    rintro s call t hs ⟨-, rfl⟩
    cases call with
    | malloc size => exact Heap.clean_heapMalloc hs size
    | free ptr => exact Heap.clean_heapFree hs ptr
  exact last_of_path hstep s run h hrun

end BoiOS
