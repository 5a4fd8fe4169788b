import BoiOS.Memory.HeapBlocks

/-! A block that stays taken whatever else is asked for and given back: pointers that were given back
before included, and requests whose size rounds to nothing. -/
namespace BoiOS

/-- The pointer does not lead to the block: it is null or leads to another one of the heap. -/
def Heap.Misses (b : Int) (heap : Heap) (ptr : Nat) : Prop :=
  heapAddressToBlock heap ptr ≠ b ∧ ptr < 4294967296 ∧
    (ptr = 0 ∨ 0 ≤ heapAddressToBlock heap ptr)

theorem Heap.Misses.congr {b : Int} {heap heap' : Heap} {ptr : Nat} (h : heap.Misses b ptr)
    (hstart : heap'.startAddress = heap.startAddress) : heap'.Misses b ptr := by
  unfold Heap.Misses heapAddressToBlock
  rw [hstart]
  exact h

/-- The block is taken, and no chain of the table leads to it. -/
structure Heap.Rooted (b : Int) (heap : Heap) : Prop where
  aligned : heap.startAddress % 4096 = 0
  positive : 0 < heap.startAddress
  below : heap.startAddress + 4096 * heap.table.totalEntries ≤ 2147483648
  low : 0 ≤ b
  high : b < heap.table.totalEntries
  taken : ¬ heap.table.IsFree b
  root : 0 < b → ¬ heap.table.HasNext (b - 1)
  null : FreeOfNullStaysBelow heap

namespace Heap

variable {b : Int} {heap : Heap} {ptr : Nat}

theorem Guards.rooted {P : Set Int} (h : heap.Guards P) (hb : b ∈ P) : heap.Rooted b := by
  have hwf := h.wellFormed
  have hheld := h.held b hb
  have hlow := hheld.low
  have hhigh := hheld.high
  refine ⟨hwf.aligned, hwf.positive, hwf.below, hlow, hhigh, hheld.taken, fun _ hnext => ?_,
    hwf.low⟩
  have hnot := (hwf.next (b - 1) (by omega) (by omega) hnext).2
  rw [sub_add_cancel] at hnot
  exact hnot hheld.first

namespace Rooted

theorem misses_null (h : heap.Rooted b) : heap.Misses b 0 := by
  have haligned := h.aligned
  have hpositive := h.positive
  have hbelow := h.below
  have hlow := h.low
  have hint : i32 (((0 : Nat) : Int) - heap.startAddress) = -heap.startAddress := by
    unfold i32
    omega
  refine ⟨?_, by decide, Or.inl rfl⟩
  unfold heapAddressToBlock boiosHeapBlockSize
  rw [hint, tdiv_of_nonpos (by omega)]
  omega

theorem misses_block (h : heap.Rooted b) {s : Int} (hlow : 0 ≤ s)
    (hhigh : s < heap.table.totalEntries) (hne : s ≠ b) :
    heap.Misses b (heapBlockToAddress heap s) := by
  have hbelow := h.below
  have haddress : (heapBlockToAddress heap s : Int) = heap.startAddress + 4096 * s := by
    rw [heapBlockToAddress_eq, u32_of_range (by omega) (by omega)]
    omega
  have hindex : heapAddressToBlock heap (heapBlockToAddress heap s) = s := by
    rw [heapAddressToBlock_eq_blockOf heap _ (by omega)]
    exact blockOf_heapBlockToAddress heap s hlow (by omega)
  exact ⟨by rwa [hindex], by omega, Or.inr (by rwa [hindex])⟩

theorem congr {heap' : Heap} (h : heap.Rooted b)
    (hstart : heap'.startAddress = heap.startAddress)
    (htotal : heap'.table.totalEntries = heap.table.totalEntries)
    (hentry : heap'.table.entries b = heap.table.entries b)
    (hroot : 0 < b → ¬ heap'.table.HasNext (b - 1))
    (hnull : FreeOfNullStaysBelow heap') : heap'.Rooted b :=
  ⟨by rw [hstart]; exact h.aligned, by rw [hstart]; exact h.positive,
    by rw [hstart, htotal]; exact h.below, h.low, by rw [htotal]; exact h.high,
    fun hfree => h.taken ((HeapTable.isFree_congr hentry).mp hfree), hroot, hnull⟩

theorem heapFree (h : heap.Rooted b) (hptr : heap.Misses b ptr) :
    (heapFree heap ptr).Rooted b := by
  obtain ⟨hne, -, hfrom⟩ := hptr
  obtain ⟨m, -, -, hnext, -, -, hzero, hframe, -⟩ := heapMarkBlocksFreeLoop_spec
    (i32 heap.table.totalEntries - heapAddressToBlock heap ptr).toNat
    (heapAddressToBlock heap ptr) heap.table
  rw [← heapMarkBlocksFree_table] at hzero hframe
  have hlow := h.low
  have hout : b < heapAddressToBlock heap ptr ∨ heapAddressToBlock heap ptr + m ≤ b := by
    by_contra hin
    by_cases hfirst : 0 < b
    · exact h.root hfirst (hnext (b - 1) (by omega) (by omega))
    · -- only the free of null starts before the first block, and it stays there
      obtain ⟨j, hj, hbefore, hstop⟩ := h.null
      rw [← hfrom.resolve_right (by omega)] at hbefore
      exact hstop (hnext j hbefore (by omega))
  have hkept : ∀ j, (heapMarkBlocksFree heap (heapAddressToBlock heap ptr)).table.HasNext j →
      heap.table.HasNext j := by
    intro j hj
    by_cases hin : heapAddressToBlock heap ptr ≤ j ∧ j < heapAddressToBlock heap ptr + m
    · exact absurd hj (HeapTable.not_hasNext_of_eq_zero (hzero j hin.1 hin.2))
    · exact (HeapTable.hasNext_congr (hframe j (by omega))).mp hj
  refine h.congr (heapFree_startAddress ..) (heapFree_totalEntries ..) ?_ ?_ ?_
  · rw [BoiOS.heapFree]
    exact hframe b hout
  · rw [BoiOS.heapFree]
    exact fun hfirst hj => h.root hfirst (hkept (b - 1) hj)
  · refine h.null.congr (heapFree_startAddress ..) fun j _ hj => hkept j ?_
    rwa [BoiOS.heapFree] at hj

theorem mark (h : heap.Rooted b) {s n : Int} (hlow : 0 ≤ s) (hend : i32 (s + n - 1) = s + n - 1)
    (hout : b < s ∨ s + n ≤ b) : (heapMarkBlocksTaken heap s n).Rooted b := by
  obtain ⟨hframe, -⟩ := heapMarkBlocksTaken_frame heap hend
  refine h.congr (heapMarkBlocksTaken_startAddress ..) (heapMarkBlocksTaken_totalEntries ..)
    (hframe b hout) (fun hfirst => ?_) ?_
  · by_cases hin : s ≤ b - 1 ∧ b - 1 < s + n
    · -- the block before is the last of the run
      rw [(heapMarkBlocksTaken_chain heap hend (b - 1) hin.1 hin.2).2]
      omega
    · rw [HeapTable.hasNext_congr (hframe (b - 1) (by omega))]
      exact h.root hfirst
  · refine h.null.congr (heapMarkBlocksTaken_startAddress ..) fun j hj hnext => ?_
    exact (HeapTable.hasNext_congr (hframe j (by omega))).mp hnext

theorem heapMalloc (h : heap.Rooted b) {size : Nat} (hsize : size < 4294967296) :
    (heapMalloc heap size).2.Rooted b ∧ heap.Misses b (heapMalloc heap size).1 := by
  have hbelow := h.below
  have hhigh := h.high
  by_cases hround : size = 0 ∨ 0xFFFFF000 < size
  · rcases heapMalloc_rounded (by omega : heap.table.totalEntries < 2147483648) hsize hround with
      hnone | ⟨s, hlow, hlt, hfree, heq⟩
    · rw [hnone]
      exact ⟨h, h.misses_null⟩
    · rw [heq]
      refine ⟨h, h.misses_block hlow hlt ?_⟩
      rintro rfl
      exact h.taken hfree
  have hother : ∀ s : Int, heap.table.IsFree s → s ≠ b := by
    rintro s hfree rfl
    exact h.taken hfree
  have hpos := blocksFor_pos (by omega : 1 ≤ size)
  rcases heapMalloc_cases (by omega : heap.table.totalEntries < 1048576)
    (by omega : 1 ≤ size) (by omega) with
    ⟨s, hlow, hroom, hrun, heq⟩ | ⟨s, hlow, hover, hlt, hrun, -, heq⟩ | ⟨-, -, heq⟩
  · rw [heq]
    have hend := i32_blocksFor_end (by omega : size ≤ 0xFFFFF000) hlow (by omega)
    refine ⟨h.mark hlow hend ?_, h.misses_block hlow (by omega)
      (hother s (hrun s (le_refl s) (by omega)))⟩
    by_contra hin
    exact h.taken (hrun b (by omega) (by omega))
  · rw [heq]
    have hend := i32_blocksFor_end (by omega : size ≤ 0xFFFFF000) hlow (by omega)
    refine ⟨h.mark hlow hend ?_, h.misses_block hlow hlt
      (hother s (hrun s (le_refl s) (by omega)))⟩
    by_contra hin
    exact h.taken (hrun b (by omega) (by omega))
  · rw [heq]
    exact ⟨h, h.misses_null⟩

end Rooted

end Heap

end BoiOS
