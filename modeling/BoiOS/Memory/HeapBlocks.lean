import BoiOS.Memory.HeapSpec
import Mathlib.Data.Finset.Card
import Mathlib.Data.Finset.Range
import Mathlib.Data.Set.Insert

/-! The blocks that stay with their owner. In a well-formed table a has-next flag leads to a taken
block that is not the first of an allocation; then an allocation disturbs no first block, and
freeing one first block disturbs no other. -/
namespace BoiOS

def HeapTable.IsFirst (table : HeapTable) (i : Int) : Prop :=
  table.entries i &&& heapBlockIsFirst ≠ 0

instance (table : HeapTable) (i : Int) : Decidable (table.IsFirst i) :=
  inferInstanceAs (Decidable (_ ≠ _))

theorem HeapTable.isFirst_congr {a b : HeapTable} {i : Int} (h : a.entries i = b.entries i) :
    a.IsFirst i ↔ b.IsFirst i := by
  unfold HeapTable.IsFirst
  rw [h]

theorem HeapTable.not_hasNext_of_eq_zero {table : HeapTable} {i : Int} (h : table.entries i = 0) :
    ¬ table.HasNext i := by
  unfold HeapTable.HasNext heapBlockHasNext
  rw [h]
  decide

namespace Heap

/-- The heap lies in the lower two gigabytes, and its chains end where they should. The byte before
the table is no part of it: on the machine it is 0xAA, the end of the boot signature. -/
structure WellFormed (heap : Heap) : Prop where
  aligned : heap.startAddress % 4096 = 0
  positive : 0 < heap.startAddress
  below : heap.startAddress + 4096 * heap.table.totalEntries ≤ 2147483648
  low : FreeOfNullStaysBelow heap
  next : ∀ b : Int, 0 ≤ b → b + 1 < heap.table.totalEntries → heap.table.HasNext b →
    ¬ heap.table.IsFree (b + 1) ∧ ¬ heap.table.IsFirst (b + 1)
  free : ∀ b : Int, 0 ≤ b → b < heap.table.totalEntries → heap.table.HasNext b →
    ¬ heap.table.IsFree b

/-- The block is the first of an allocation. -/
structure Held (heap : Heap) (b : Int) : Prop where
  low : 0 ≤ b
  high : b < heap.table.totalEntries
  taken : ¬ heap.table.IsFree b
  first : heap.table.IsFirst b

/-- The heap is well formed and the blocks of `P` are first blocks. -/
structure Guards (P : Set Int) (heap : Heap) : Prop where
  wellFormed : heap.WellFormed
  held : ∀ b ∈ P, heap.Held b

theorem WellFormed.guards {heap : Heap} (h : heap.WellFormed) : heap.Guards ∅ :=
  ⟨h, fun b hb => absurd hb (Set.notMem_empty b)⟩

structure IsBlock (heap : Heap) (ptr : Nat) : Prop where
  low : 0 ≤ heap.blockOf ptr
  high : heap.blockOf ptr < heap.table.totalEntries
  address : (ptr : Int) = heap.startAddress + 4096 * heap.blockOf ptr

/-- A pointer that can be passed to the allocator's free without touching a block of `P`: null, or
the address of another block that is free or the first of an allocation. -/
def Freeable (P : Set Int) (heap : Heap) (ptr : Nat) : Prop :=
  ptr = 0 ∨ heap.IsBlock ptr ∧ heap.blockOf ptr ∉ P ∧
    (heap.Held (heap.blockOf ptr) ∨ heap.table.IsFree (heap.blockOf ptr))

theorem blockOf_eq {heap : Heap} (h : heap.WellFormed) {ptr : Nat} {b : Int} (hlow : 0 ≤ b)
    (hhigh : b < heap.table.totalEntries) (hptr : (ptr : Int) = heap.startAddress + 4096 * b) :
    heap.blockOf ptr = b := by
  have hbelow := h.below
  unfold blockOf
  omega

theorem isBlock_of_eq {heap : Heap} (h : heap.WellFormed) {ptr : Nat} {b : Int} (hlow : 0 ≤ b)
    (hhigh : b < heap.table.totalEntries) (hptr : (ptr : Int) = heap.startAddress + 4096 * b) :
    heap.IsBlock ptr ∧ heap.blockOf ptr = b := by
  have hblock := blockOf_eq h hlow hhigh hptr
  exact ⟨⟨by rwa [hblock], by rwa [hblock], by rwa [hblock]⟩, hblock⟩

theorem IsBlock.ne_zero {heap : Heap} {ptr : Nat} (h : heap.IsBlock ptr) (hwf : heap.WellFormed) :
    ptr ≠ 0 := by
  have hlow := h.low
  have haddress := h.address
  have hpositive := hwf.positive
  omega

theorem IsBlock.eq {heap : Heap} {p q : Nat} (hp : heap.IsBlock p) (hq : heap.IsBlock q)
    (h : heap.blockOf p = heap.blockOf q) : p = q := by
  have hpa := hp.address
  have hqa := hq.address
  omega

theorem IsBlock.congr {heap heap' : Heap} {ptr : Nat} (h : heap.IsBlock ptr)
    (hstart : heap'.startAddress = heap.startAddress)
    (htotal : heap'.table.totalEntries = heap.table.totalEntries) : heap'.IsBlock ptr := by
  have hblock : heap'.blockOf ptr = heap.blockOf ptr := by
    unfold blockOf
    rw [hstart]
  have haddress := h.address
  exact ⟨by rw [hblock]; exact h.low, by rw [hblock, htotal]; exact h.high, by
    rw [hblock, hstart]
    exact haddress⟩

theorem Guards.insert {P : Set Int} {heap : Heap} (h : heap.Guards P) {b : Int}
    (hb : heap.Held b) : heap.Guards (insert b P) := by
  refine ⟨h.wellFormed, fun c hc => ?_⟩
  rcases Set.mem_insert_iff.mp hc with rfl | hc
  · exact hb
  · exact h.held c hc

theorem Guards.mono {P Q : Set Int} {heap : Heap} (h : heap.Guards Q) (hle : P ⊆ Q) :
    heap.Guards P :=
  ⟨h.wellFormed, fun b hb => h.held b (hle hb)⟩

theorem Held.congr {heap heap' : Heap} {b : Int} (h : heap.Held b)
    (htotal : heap'.table.totalEntries = heap.table.totalEntries)
    (hsame : heap'.table.entries b = heap.table.entries b) : heap'.Held b := by
  refine ⟨h.low, ?_, ?_, ?_⟩
  · rw [htotal]
    exact h.high
  · rw [HeapTable.isFree_congr hsame]
    exact h.taken
  · rw [HeapTable.isFirst_congr hsame]
    exact h.first

/-! Freeing. -/

theorem heapFree_entries {P : Set Int} {heap : Heap} (h : heap.Guards P) {ptr : Nat}
    (hptr : heap.Freeable P ptr) :
    ∃ s e : Int, s ≤ e ∧ (∀ j, s ≤ j → j < e → (heapFree heap ptr).table.entries j = 0) ∧
      (∀ j, j < s ∨ e ≤ j → (heapFree heap ptr).table.entries j = heap.table.entries j) ∧
      (∀ j, s ≤ j → j + 1 < e → heap.table.HasNext j) ∧
      (e ≤ 0 ∨ 0 ≤ s ∧ s ∉ P ∧ (∀ j, 0 ≤ j → j + 1 = s → ¬ heap.table.HasNext j) ∧
        e ≤ heap.table.totalEntries) := by
  have hwf := h.wellFormed
  have hbelow := hwf.below
  have hwrap : i32 heap.table.totalEntries = heap.table.totalEntries :=
    i32_of_range (by omega) (by omega)
  obtain ⟨m, hle, _, hnext, _, _, hzero, hframe, _⟩ := heapMarkBlocksFreeLoop_spec
    (i32 heap.table.totalEntries - heapAddressToBlock heap ptr).toNat
    (heapAddressToBlock heap ptr) heap.table
  rw [← heapMarkBlocksFree_table] at hzero hframe
  rw [heapFree]
  refine ⟨heapAddressToBlock heap ptr, heapAddressToBlock heap ptr + m, by omega, hzero, hframe,
    fun j hlow hhigh => hnext j hlow (by omega), ?_⟩
  rcases hptr with hnull | ⟨hblk, hP, hkind⟩
  · -- null lies below the heap, and a byte between the two ends the walk
    obtain ⟨j, hj, hbefore, hstop⟩ := hwf.low
    rw [← hnull] at hbefore
    refine Or.inl ?_
    by_contra hreach
    exact hstop (hnext j hbefore (by omega))
  · have hlow := hblk.low
    have hhigh := hblk.high
    have haddress := hblk.address
    have hblock : heapAddressToBlock heap ptr = heap.blockOf ptr :=
      heapAddressToBlock_eq_blockOf heap ptr (by omega)
    rw [hblock, hwrap] at hle
    rw [hblock]
    refine Or.inr ⟨hlow, hP, fun j hzero hj hj' => ?_, by omega⟩
    obtain ⟨htaken, hfirst⟩ := hwf.next j hzero (by omega) hj'
    rw [hj] at htaken hfirst
    rcases hkind with hheld | hfree
    · exact hfirst hheld.first
    · exact htaken hfree

theorem Guards.heapFree {P : Set Int} {heap : Heap} (h : heap.Guards P) {ptr : Nat}
    (hptr : heap.Freeable P ptr) : (heapFree heap ptr).Guards P := by
  have hwf := h.wellFormed
  obtain ⟨s, e, hse, hzero, hframe, hnext, hwhere⟩ := heapFree_entries h hptr
  have hkept : ∀ j, (BoiOS.heapFree heap ptr).table.HasNext j →
      (j < s ∨ e ≤ j) ∧ heap.table.HasNext j := by
    intro j hj
    have hout : j < s ∨ e ≤ j := by
      by_contra hin
      exact HeapTable.not_hasNext_of_eq_zero (hzero j (by omega) (by omega)) hj
    exact ⟨hout, (HeapTable.hasNext_congr (hframe j hout)).mp hj⟩
  refine ⟨⟨?_, ?_, ?_, hwf.low.congr (heapFree_startAddress ..) fun j _ hj => (hkept j hj).2,
    fun b hb hb' hnx => ?_, fun b hb hb' hnx => ?_⟩, fun b hb => ?_⟩
  · rw [heapFree_startAddress]
    exact hwf.aligned
  · rw [heapFree_startAddress]
    exact hwf.positive
  · rw [heapFree_startAddress, heapFree_totalEntries]
    exact hwf.below
  · rw [heapFree_totalEntries] at hb'
    obtain ⟨hout, hold⟩ := hkept b hnx
    have hafter : b + 1 < s ∨ e ≤ b + 1 := by
      by_contra hin
      rcases hwhere with hbelow | ⟨_, _, hhead, _⟩
      · omega
      · exact hhead b hb (by omega) hold
    have hsame := hframe (b + 1) hafter
    rw [HeapTable.isFree_congr hsame, HeapTable.isFirst_congr hsame]
    exact hwf.next b hb hb' hold
  · rw [heapFree_totalEntries] at hb'
    obtain ⟨hout, hold⟩ := hkept b hnx
    rw [HeapTable.isFree_congr (hframe b hout)]
    exact hwf.free b hb hb' hold
  · have hheld := h.held b hb
    have hlow := hheld.low
    have hhigh := hheld.high
    have hout : b < s ∨ e ≤ b := by
      by_contra hin
      rcases hwhere with hbelow | ⟨hs, hP, _, _⟩
      · omega
      · by_cases hbs : b = s
        · exact hP (by rwa [← hbs])
        · -- a first block after the start would be reached by a has-next flag
          have hprev := hnext (b - 1) (by omega) (by omega)
          have hnot := (hwf.next (b - 1) (by omega) (by omega) hprev).2
          rw [show b - 1 + 1 = b by omega] at hnot
          exact hnot hheld.first
    exact hheld.congr (heapFree_totalEntries ..) (hframe b hout)

theorem Freeable.congr {Q : Set Int} {heap heap' : Heap} {q : Nat} (h : heap.Freeable Q q)
    (hstart : heap'.startAddress = heap.startAddress)
    (htotal : heap'.table.totalEntries = heap.table.totalEntries)
    (hentry : heap'.table.entries (heap.blockOf q) = heap.table.entries (heap.blockOf q) ∨
      heap'.table.IsFree (heap.blockOf q) ∨ heap'.Held (heap.blockOf q)) : heap'.Freeable Q q := by
  rcases h with hnull | ⟨hblock, hQ, hkind⟩
  · exact Or.inl hnull
  · have hsame : heap'.blockOf q = heap.blockOf q := by
      unfold blockOf
      rw [hstart]
    refine Or.inr ⟨hblock.congr hstart htotal, by rwa [hsame], ?_⟩
    rw [hsame]
    rcases hentry with heq | hfree | hheld
    · rcases hkind with hheld | hfree
      · exact Or.inl (hheld.congr htotal heq)
      · exact Or.inr ((HeapTable.isFree_congr heq).mpr hfree)
    · exact Or.inr hfree
    · exact Or.inl hheld

theorem Freeable.heapFree {P Q : Set Int} {heap : Heap} {ptr q : Nat} (h : heap.Freeable Q q)
    (hguards : heap.Guards P) (hptr : heap.Freeable P ptr) : (heapFree heap ptr).Freeable Q q := by
  obtain ⟨s, e, -, hzero, hframe, -, -⟩ := heapFree_entries hguards hptr
  refine h.congr (heapFree_startAddress ..) (heapFree_totalEntries ..) ?_
  by_cases hin : s ≤ heap.blockOf q ∧ heap.blockOf q < e
  · exact Or.inr (Or.inl (HeapTable.isFree_of_eq_zero (hzero _ hin.1 hin.2)))
  · exact Or.inl (hframe _ (by omega))

/-! Allocating. -/

theorem heapMarkBlocksTaken_entries (heap : Heap) {s n j : Int} (hend : i32 (s + n - 1) = s + n - 1)
    (hlow : s ≤ j) (hhigh : j < s + n) :
    (heapMarkBlocksTaken heap s n).table.entries j =
      if j = s then (if n > 1 then 0xC1 else 0x41)
      else if j = s + n - 1 then 0x01 else 0x81 := by
  rw [heapMarkBlocksTaken_table heap hend]
  exact heapMarkBlocksTakenLoop_entries (s + n - 1) (s + n - 1 + 1 - s).toNat s
    (if n > 1 then heapBlockTableEntryTaken ||| heapBlockIsFirst ||| heapBlockHasNext
      else heapBlockTableEntryTaken ||| heapBlockIsFirst) heap.table j hlow (by omega)

theorem heapMarkBlocksTaken_isFirst (heap : Heap) {s n j : Int} (hend : i32 (s + n - 1) = s + n - 1)
    (hlow : s ≤ j) (hhigh : j < s + n) :
    (heapMarkBlocksTaken heap s n).table.IsFirst j ↔ j = s := by
  unfold HeapTable.IsFirst heapBlockIsFirst
  rw [heapMarkBlocksTaken_entries heap hend hlow hhigh]
  by_cases hfirst : j = s
  · rw [if_pos hfirst]
    refine iff_of_true ?_ hfirst
    split_ifs <;> decide
  · rw [if_neg hfirst]
    refine iff_of_false ?_ hfirst
    split_ifs <;> decide

theorem Guards.mark {P : Set Int} {heap : Heap} (h : heap.Guards P) {s n : Int} (hs : 0 ≤ s)
    (hend : i32 (s + n - 1) = s + n - 1)
    (hfree : ∀ j, s ≤ j → j < s + n → j < heap.table.totalEntries → heap.table.IsFree j) :
    (heapMarkBlocksTaken heap s n).Guards P := by
  have hwf := h.wellFormed
  have htotal := heapMarkBlocksTaken_totalEntries heap s n
  obtain ⟨hframe, _⟩ := heapMarkBlocksTaken_frame heap hend
  have hchain := heapMarkBlocksTaken_chain heap hend
  refine ⟨⟨hwf.aligned, hwf.positive, ?_, ?_, fun b hb hb' hnx => ?_, fun b hb hb' hnx => ?_⟩,
    fun b hb => ?_⟩
  · rw [htotal]
    exact hwf.below
  · refine hwf.low.congr rfl fun j hj hnext => ?_
    exact (HeapTable.hasNext_congr (hframe j (by omega))).mp hnext
  · rw [htotal] at hb'
    by_cases hin : s ≤ b ∧ b < s + n
    · have hlast := ((hchain b hin.1 hin.2).2).mp hnx
      refine ⟨(hchain (b + 1) (by omega) (by omega)).1, ?_⟩
      rw [heapMarkBlocksTaken_isFirst heap hend (by omega) (by omega)]
      omega
    · have hold := (HeapTable.hasNext_congr (hframe b (by omega))).mp hnx
      obtain ⟨htaken, hfirst⟩ := hwf.next b hb hb' hold
      have hout : b + 1 < s ∨ s + n ≤ b + 1 := by
        by_contra hin'
        exact htaken (hfree (b + 1) (by omega) (by omega) hb')
      have hsame := hframe (b + 1) hout
      rw [HeapTable.isFree_congr hsame, HeapTable.isFirst_congr hsame]
      exact ⟨htaken, hfirst⟩
  · rw [htotal] at hb'
    by_cases hin : s ≤ b ∧ b < s + n
    · exact (hchain b hin.1 hin.2).1
    · have hsame := hframe b (by omega)
      rw [HeapTable.isFree_congr hsame]
      exact hwf.free b hb hb' ((HeapTable.hasNext_congr hsame).mp hnx)
  · have hheld := h.held b hb
    have hout : b < s ∨ s + n ≤ b := by
      by_contra hin
      exact hheld.taken (hfree b (by omega) (by omega) hheld.high)
    exact hheld.congr htotal (hframe b hout)

theorem heapGetStartBlockLoop_zero_isFree {table : HeapTable} (count i : Nat) (current start : Int)
    (hcount : i + count = table.totalEntries) (htotal : table.totalEntries < 2147483648)
    (hcurrent : 0 ≤ current ∧ current ≤ i)
    (hstart : start = -1 ∨ 0 ≤ start ∧ start < table.totalEntries ∧ table.IsFree start) :
    let found := heapGetStartBlockLoop table 0 count i current start
    found = -1 ∨ 0 ≤ found ∧ found < table.totalEntries ∧ table.IsFree found := by
  induction count generalizing i current start with
  | zero => exact hstart
  | succ count ih =>
    unfold heapGetStartBlockLoop
    by_cases hfree : table.IsFree i
    · have hcur : u32 (current + 1) ≠ 0 := by
        unfold u32
        omega
      have hwrap : i32 i = i := i32_of_range (by omega) (by omega)
      rw [if_neg (by simpa [HeapTable.IsFree] using hfree), if_neg hcur, hwrap]
      refine ih (i + 1) (current + 1) _ (by omega) ⟨by omega, by push_cast; omega⟩ ?_
      split_ifs
      · exact Or.inr ⟨by omega, by omega, hfree⟩
      · exact hstart
    · rw [if_pos (by simpa [HeapTable.IsFree] using hfree)]
      exact ih (i + 1) 0 (-1) (by omega) ⟨le_refl 0, by push_cast; omega⟩ (Or.inl rfl)

theorem heapMalloc_rounded {heap : Heap} (htotal : heap.table.totalEntries < 2147483648)
    {size : Nat} (hsize : size < 4294967296) (hround : size = 0 ∨ 0xFFFFF000 < size) :
    heapMalloc heap size = (0, heap) ∨ ∃ b : Int, 0 ≤ b ∧ b < heap.table.totalEntries ∧
      heap.table.IsFree b ∧ heapMalloc heap size = (heapBlockToAddress heap b, heap) := by
  have hmark : ∀ b : Int, 0 ≤ b → b < 2147483648 →
      heapMarkBlocksTaken heap b (i32 (0 : Nat)) = heap := by
    intro b hlow hhigh
    have hzero : i32 ((0 : Nat) : Int) = 0 := i32_of_range (by omega) (by omega)
    have hend : i32 (b + 0 - 1) = b + 0 - 1 := i32_of_range (by omega) (by omega)
    unfold heapMarkBlocksTaken
    dsimp only
    rw [hzero, hend, show (b + 0 - 1 + 1 - b).toNat = 0 by omega]
    rfl
  have hloop := heapGetStartBlockLoop_zero_isFree heap.table.totalEntries 0 0 (-1) (Nat.zero_add _)
    htotal ⟨le_refl 0, le_refl 0⟩ (Or.inl rfl)
  unfold heapMalloc heapMallocBlocks heapGetStartBlock
  dsimp only at hloop ⊢
  rw [heapAlignValueToUpper_div_zero hsize hround]
  generalize heapGetStartBlockLoop heap.table 0 heap.table.totalEntries 0 0 (-1) = found at hloop ⊢
  by_cases hnone : found = -1
  · rw [if_pos hnone, if_pos (by decide)]
    exact Or.inl rfl
  · obtain ⟨hlow, hhigh, hfree⟩ := hloop.resolve_left hnone
    rw [if_neg hnone, if_neg (by omega), hmark found hlow (by omega)]
    exact Or.inr ⟨found, hlow, hhigh, hfree, rfl⟩

/-- What an allocation leaves: every first block of `P` still is one, and the pointer is null or
that of a block that was free, which is a first block now unless the size rounds to no blocks. -/
structure Obtained (P : Set Int) (heap heap' : Heap) (size ptr : Nat) : Prop where
  guards : heap'.Guards P
  start : heap'.startAddress = heap.startAddress
  total : heap'.table.totalEntries = heap.table.totalEntries
  block : ptr = 0 ∨ heap.IsBlock ptr ∧ heap.table.IsFree (heap.blockOf ptr) ∧
    (1 ≤ size → size ≤ 0xFFFFF000 → heap'.Held (heap.blockOf ptr))

theorem heapBlockToAddress_of_wellFormed {heap : Heap} (h : heap.WellFormed) {b : Int}
    (hlow : 0 ≤ b) (hhigh : b < heap.table.totalEntries) :
    (heapBlockToAddress heap b : Int) = heap.startAddress + 4096 * b := by
  have hbelow := h.below
  rw [heapBlockToAddress_eq, u32_of_range (by omega) (by omega)]
  omega

theorem Guards.obtainedRun {P : Set Int} {heap : Heap} (h : heap.Guards P) {size : Nat}
    {b n : Int} (hn : 1 ≤ n) (hend : i32 (b + n - 1) = b + n - 1) (hlow : 0 ≤ b)
    (hhigh : b < heap.table.totalEntries)
    (hfree : ∀ j, b ≤ j → j < b + n → j < heap.table.totalEntries → heap.table.IsFree j) :
    Obtained P heap (heapMarkBlocksTaken heap b n) size (heapBlockToAddress heap b) := by
  have hchain := heapMarkBlocksTaken_chain heap hend
  have htotal := heapMarkBlocksTaken_totalEntries heap b n
  obtain ⟨hblock, heq⟩ := isBlock_of_eq h.wellFormed hlow hhigh
    (heapBlockToAddress_of_wellFormed h.wellFormed hlow hhigh)
  refine ⟨h.mark hlow hend hfree, rfl, htotal, Or.inr ⟨hblock, ?_, fun _ _ => ?_⟩⟩
  · rw [heq]
    exact hfree b (le_refl b) (by omega) hhigh
  rw [heq]
  refine ⟨hlow, ?_, (hchain b (le_refl b) (by omega)).1, ?_⟩
  · rw [htotal]
    exact hhigh
  · exact (heapMarkBlocksTaken_isFirst heap hend (le_refl b) (by omega)).mpr rfl

theorem Guards.heapMalloc {P : Set Int} {heap : Heap} (h : heap.Guards P) {size : Nat}
    (hsize : size < 4294967296) :
    Obtained P heap (heapMalloc heap size).2 size (heapMalloc heap size).1 := by
  have hbelow := h.wellFormed.below
  by_cases hround : size = 0 ∨ 0xFFFFF000 < size
  · have hint : heap.table.totalEntries < 2147483648 := by omega
    rcases heapMalloc_rounded hint hsize hround with hnone | ⟨b, hlow, hhigh, hfree, heq⟩
    · rw [hnone]
      exact ⟨h, rfl, rfl, Or.inl rfl⟩
    · rw [heq]
      obtain ⟨hblock, heqb⟩ := isBlock_of_eq h.wellFormed hlow hhigh
        (heapBlockToAddress_of_wellFormed h.wellFormed hlow hhigh)
      refine ⟨h, rfl, rfl, Or.inr ⟨hblock, by rwa [heqb], fun _ _ => ?_⟩⟩
      omega
  · have hpos := blocksFor_pos (show 1 ≤ size by omega)
    have hsmall : heap.table.totalEntries < 1048576 := by omega
    rcases heapMalloc_cases hsmall (show 1 ≤ size by omega)
        (show size ≤ 0xFFFFF000 by omega) with
      ⟨b, hlow, hroom, hfree, heq⟩ | ⟨b, hlow, _, hin, hfree, _, heq⟩ | ⟨_, _, heq⟩
    · rw [heq]
      exact h.obtainedRun (by omega) (i32_blocksFor_end (by omega) hlow (by omega)) hlow (by omega)
        fun j hj hj' _ => hfree j hj hj'
    · rw [heq]
      exact h.obtainedRun (by omega) (i32_blocksFor_end (by omega) hlow (by omega)) hlow hin
        fun j hj _ hj' => hfree j hj (by omega)
    · rw [heq]
      exact ⟨h, rfl, rfl, Or.inl rfl⟩

/-- No run of free blocks is long enough for the request, and the last block is taken. -/
def NoRoomFor (heap : Heap) (size : Nat) : Prop :=
  heap.table.NoRoom (blocksFor size) ∧ heap.table.LastTaken

theorem heapMalloc_eq_zero_iff {heap : Heap} (h : heap.WellFormed) {size : Nat} (hlow : 1 ≤ size)
    (hhigh : size ≤ 0xFFFFF000) :
    ((heapMalloc heap size).1 = 0 ↔ heap.NoRoomFor size) ∧
      ((heapMalloc heap size).1 = 0 → heapMalloc heap size = (0, heap)) := by
  have hbelow := h.below
  have hsmall : heap.table.totalEntries < 1048576 := by
    have hpositive := h.positive
    omega
  have haddress : ∀ b : Int, 0 ≤ b → b < heap.table.totalEntries →
      heapBlockToAddress heap b ≠ 0 := by
    intro b hb hb'
    have heq := heapBlockToAddress_of_wellFormed h hb hb'
    have hpositive := h.positive
    omega
  have hpos := blocksFor_pos hlow
  rcases heapMalloc_cases hsmall hlow hhigh with
    ⟨b, hb, hroom, hfree, heq⟩ | ⟨b, hb, _, hin, hfree, _, heq⟩ | ⟨hno, hlast, heq⟩
  · rw [heq]
    have hne := haddress b hb (by omega)
    exact ⟨⟨fun hzero => absurd hzero hne, fun hno => absurd hfree (hno.1 b hb hroom)⟩,
      fun hzero => absurd hzero hne⟩
  · rw [heq]
    have hne := haddress b hb hin
    refine ⟨⟨fun hzero => absurd hzero hne, fun hno => ?_⟩, fun hzero => absurd hzero hne⟩
    rcases hno.2 with hempty | hlast
    · omega
    · exact absurd (hfree _ (by omega) (by omega)) hlast
  · rw [heq]
    exact ⟨⟨fun _ => ⟨hno, hlast⟩, fun _ => rfl⟩, fun _ => rfl⟩

theorem Guards.heapMalloc_freeable {P : Set Int} {heap : Heap} (h : heap.Guards P) {size : Nat}
    (hsize : size < 4294967296) :
    (BoiOS.heapMalloc heap size).2.Freeable P (BoiOS.heapMalloc heap size).1 := by
  have hobtained := h.heapMalloc hsize
  have hbelow := h.wellFormed.below
  rcases hobtained.block with hnull | ⟨hblock, hfree, hheld⟩
  · exact Or.inl hnull
  have hsame : ∀ ptr, (BoiOS.heapMalloc heap size).2.blockOf ptr = heap.blockOf ptr := by
    intro ptr
    unfold blockOf
    rw [hobtained.start]
  refine Or.inr ⟨hblock.congr hobtained.start hobtained.total, ?_, ?_⟩
  · rw [hsame]
    exact fun hP => (h.held _ hP).taken hfree
  rw [hsame]
  by_cases hround : size = 0 ∨ 0xFFFFF000 < size
  · have hint : heap.table.totalEntries < 2147483648 := by omega
    refine Or.inr ?_
    rcases heapMalloc_rounded hint hsize hround with hnone | ⟨b, -, -, -, heq⟩
    · rw [hnone] at hfree ⊢
      exact hfree
    · rw [heq] at hfree ⊢
      exact hfree
  · exact Or.inl (hheld (by omega) (by omega))

/-! Requests of one block. -/

theorem Freeable.heapMalloc {P Q : Set Int} {heap : Heap} {q size : Nat} (h : heap.Freeable Q q)
    (hguards : heap.Guards P) (hlow : 1 ≤ size) (hhigh : size ≤ 4096) :
    (heapMalloc heap size).2.Freeable Q q := by
  have hbelow := hguards.wellFormed.below
  have hsmall : heap.table.totalEntries < 1048576 := by omega
  have hone : blocksFor size = 1 := by
    unfold blocksFor
    omega
  have hmark : ∀ b : Int, 0 ≤ b → b < heap.table.totalEntries → heap.table.IsFree b →
      (heapMarkBlocksTaken heap b 1).Freeable Q q := by
    intro b hb hb' hfree
    have htotal := heapMarkBlocksTaken_totalEntries heap b 1
    have hend : i32 (b + 1 - 1) = b + 1 - 1 := i32_of_range (by omega) (by omega)
    obtain ⟨hframe, -⟩ := heapMarkBlocksTaken_frame heap hend
    refine h.congr rfl htotal ?_
    by_cases hin : heap.blockOf q = b
    · have hchain := heapMarkBlocksTaken_chain heap hend
      rw [hin]
      refine Or.inr (Or.inr ⟨hb, by rwa [htotal], (hchain b (le_refl b) (by omega)).1, ?_⟩)
      exact (heapMarkBlocksTaken_isFirst heap hend (le_refl b) (by omega)).mpr rfl
    · exact Or.inl (hframe _ (by omega))
  rcases heapMalloc_cases hsmall hlow (by omega) with
    ⟨b, hb, hroom, hrun, heq⟩ | ⟨b, hb, _, hin, hrun, _, heq⟩ | ⟨_, _, heq⟩
  · rw [hone] at hroom hrun heq
    rw [heq]
    exact hmark b hb (by omega) (hrun b (le_refl b) (by omega))
  · rw [hone] at heq
    rw [heq]
    exact hmark b hb hin (hrun b (le_refl b) (by omega))
  · rw [heq]
    exact h

def freeBlocks (heap : Heap) : Nat :=
  ((Finset.range heap.table.totalEntries).filter fun i : Nat => heap.table.IsFree i).card

theorem freeBlocks_congr {heap heap' : Heap}
    (htotal : heap'.table.totalEntries = heap.table.totalEntries)
    (hentries : heap'.table.entries = heap.table.entries) : heap'.freeBlocks = heap.freeBlocks := by
  unfold freeBlocks
  rw [htotal]
  congr 1
  exact Finset.filter_congr fun i _ => HeapTable.isFree_congr (congrFun hentries i)

theorem heapMalloc_one {heap : Heap} (hsmall : heap.table.totalEntries < 1048576) {size : Nat}
    (hlow : 1 ≤ size) (hhigh : size ≤ 4096) (hfree : 0 < heap.freeBlocks) :
    ∃ b : Int, 0 ≤ b ∧ b < heap.table.totalEntries ∧ heap.table.IsFree b ∧
      heapMalloc heap size = (heapBlockToAddress heap b, heapMarkBlocksTaken heap b 1) := by
  have hone : blocksFor size = 1 := by
    unfold blocksFor
    omega
  obtain ⟨i, hi⟩ := Finset.card_pos.mp hfree
  obtain ⟨hrange, hisfree⟩ := Finset.mem_filter.mp hi
  have hin := Finset.mem_range.mp hrange
  rcases heapMalloc_cases hsmall hlow (by omega) with
    ⟨b, hb, hroom, hrun, heq⟩ | ⟨b, _, hshort, hin', _⟩ | ⟨hno, _⟩
  · rw [hone] at hroom hrun heq
    exact ⟨b, hb, by omega, hrun b (le_refl b) (by omega), heq⟩
  · omega
  · rw [hone] at hno
    refine absurd (fun j hj hj' => ?_) (hno i (by omega) (by omega))
    rwa [show j = i by omega]

theorem freeBlocks_pos {heap : Heap} {b : Int} (hlow : 0 ≤ b) (hhigh : b < heap.table.totalEntries)
    (hfree : heap.table.IsFree b) : 0 < heap.freeBlocks := by
  refine Finset.card_pos.mpr ⟨b.toNat, Finset.mem_filter.mpr ⟨Finset.mem_range.mpr (by omega), ?_⟩⟩
  rwa [Int.toNat_of_nonneg hlow]

theorem freeBlocks_take {heap heap' : Heap} {b : Int} (hlow : 0 ≤ b)
    (hhigh : b < heap.table.totalEntries) (hfree : heap.table.IsFree b)
    (htotal : heap'.table.totalEntries = heap.table.totalEntries)
    (htaken : ¬ heap'.table.IsFree b)
    (hframe : ∀ j, j ≠ b → heap'.table.entries j = heap.table.entries j) :
    heap'.freeBlocks + 1 = heap.freeBlocks := by
  have hmem : b.toNat ∈ (Finset.range heap.table.totalEntries).filter
      fun i : Nat => heap.table.IsFree i := by
    refine Finset.mem_filter.mpr ⟨Finset.mem_range.mpr (by omega), ?_⟩
    rwa [Int.toNat_of_nonneg hlow]
  have herase : (Finset.range heap'.table.totalEntries).filter
      (fun i : Nat => heap'.table.IsFree i) =
      ((Finset.range heap.table.totalEntries).filter fun i : Nat => heap.table.IsFree i).erase b.toNat := by
    ext i
    rw [htotal, Finset.mem_erase, Finset.mem_filter, Finset.mem_filter]
    by_cases hi : (i : Int) = b
    · rw [hi]
      exact ⟨fun h => absurd h.2 htaken, fun h => absurd (by omega) h.1⟩
    · rw [HeapTable.isFree_congr (hframe i hi)]
      exact ⟨fun h => ⟨by omega, h⟩, fun h => h.2⟩
  unfold freeBlocks
  rw [herase]
  exact Finset.card_erase_add_one hmem

theorem freeBlocks_mark {heap : Heap} {b : Int} (hlow : 0 ≤ b) (hhigh : b < heap.table.totalEntries)
    (hsmall : heap.table.totalEntries < 1048576) (hfree : heap.table.IsFree b) :
    (heapMarkBlocksTaken heap b 1).freeBlocks + 1 = heap.freeBlocks := by
  have hend : i32 (b + 1 - 1) = b + 1 - 1 := i32_of_range (by omega) (by omega)
  obtain ⟨hframe, _⟩ := heapMarkBlocksTaken_frame heap hend
  exact freeBlocks_take hlow hhigh hfree (heapMarkBlocksTaken_totalEntries ..)
    (heapMarkBlocksTaken_chain heap hend b (le_refl b) (by omega)).1
    fun j hj => hframe j (by omega)

theorem heapMalloc_served_iff {heap : Heap} (hwf : heap.WellFormed) {size : Nat} (hlow : 1 ≤ size)
    (hhigh : size ≤ 4096) : ((heapMalloc heap size).1 ≠ 0 ↔ 0 < heap.freeBlocks) ∧
      (0 < heap.freeBlocks → (heapMalloc heap size).2.freeBlocks + 1 = heap.freeBlocks) := by
  have hserved : 0 < heap.freeBlocks → (heapMalloc heap size).1 ≠ 0 ∧
      (heapMalloc heap size).2.freeBlocks + 1 = heap.freeBlocks := by
    intro hfree
    have hbelow := hwf.below
    obtain ⟨b, hb, hb', hisfree, heq⟩ := heapMalloc_one (by omega) hlow hhigh hfree
    have haddress := heapBlockToAddress_of_wellFormed hwf hb hb'
    have hpositive := hwf.positive
    rw [heq]
    exact ⟨by dsimp only; omega, freeBlocks_mark hb hb' (by omega) hisfree⟩
  refine ⟨⟨fun hne => ?_, fun hfree => (hserved hfree).1⟩, fun hfree => (hserved hfree).2⟩
  have hobtained := hwf.guards.heapMalloc (by omega : size < 4294967296)
  obtain ⟨hblock, hisfree, -⟩ := hobtained.block.resolve_left hne
  exact freeBlocks_pos hblock.low hblock.high hisfree

end Heap
end BoiOS
