import BoiOS.Memory.HeapBlocks

/-! The blocks that belong to the allocations with first blocks in `P`, all of them and not the first
ones alone. An allocation or a free elsewhere leaves their flags, and what is written into a new
allocation is not written into them. -/
namespace BoiOS
namespace Heap

/-- A has-next flag of the table leads from a block of `P` to this one, block by block. Behind the
table there are no flags: there are the bytes of an allocation that reaches over its end. -/
def Owned (P : Set Int) (heap : Heap) : Set Int :=
  {b | ∃ s ∈ P, s ≤ b ∧ ∀ j, s ≤ j → j < b → j < heap.table.totalEntries → heap.table.HasNext j}

/-- The byte is below the heap or in a block that belongs to an allocation of `P`. -/
def Kept (P : Set Int) (heap : Heap) (x : Nat) : Prop :=
  x < heap.startAddress ∨ heap.blockOf x ∈ heap.Owned P

theorem Guards.owned_taken {P : Set Int} {heap : Heap} (h : heap.Guards P) {b : Int}
    (hb : b ∈ heap.Owned P) (hin : b < heap.table.totalEntries) : ¬ heap.table.IsFree b := by
  obtain ⟨s, hs, hle, hchain⟩ := hb
  have hheld := h.held s hs
  have hlow := hheld.low
  by_cases hfirst : s = b
  · rw [← hfirst]
    exact hheld.taken
  · have hnext := hchain (b - 1) (by omega) (by omega) (by omega)
    have htaken := (h.wellFormed.next (b - 1) (by omega) (by omega) hnext).1
    rwa [show b - 1 + 1 = b by omega] at htaken

theorem Guards.owned_last {P : Set Int} {heap : Heap} (h : heap.Guards P) {b : Int}
    (hb : b ∈ heap.Owned P) (hout : heap.table.totalEntries ≤ b) :
    ¬ heap.table.IsFree (heap.table.totalEntries - 1) := by
  obtain ⟨s, hs, -, hchain⟩ := hb
  have hheld := h.held s hs
  have hlow := hheld.low
  have hhigh := hheld.high
  exact h.wellFormed.free _ (by omega) (by omega)
    (hchain (heap.table.totalEntries - 1) (by omega) (by omega) (by omega))

theorem Guards.owned_not_in_run {P : Set Int} {heap : Heap} (h : heap.Guards P) {b s n : Int}
    (hb : b ∈ heap.Owned P) (hs : s < heap.table.totalEntries)
    (hfree : ∀ j, s ≤ j → j < s + n → j < heap.table.totalEntries → heap.table.IsFree j) :
    ¬ (s ≤ b ∧ b < s + n) := by
  rintro ⟨hlow, hhigh⟩
  by_cases hin : b < heap.table.totalEntries
  · exact h.owned_taken hb hin (hfree b hlow hhigh hin)
  · exact h.owned_last hb (by omega) (hfree _ (by omega) (by omega) (by omega))

structure SameOwned (P : Set Int) (heap heap' : Heap) : Prop where
  start : heap'.startAddress = heap.startAddress
  total : heap'.table.totalEntries = heap.table.totalEntries
  entries : ∀ b ∈ heap.Owned P, b < heap.table.totalEntries →
    heap'.table.entries b = heap.table.entries b

theorem SameOwned.refl (P : Set Int) (heap : Heap) : SameOwned P heap heap :=
  ⟨rfl, rfl, fun _ _ _ => rfl⟩

theorem SameOwned.owned_iff {P : Set Int} {heap heap' : Heap} (h : SameOwned P heap heap') {b : Int} :
    b ∈ heap'.Owned P ↔ b ∈ heap.Owned P := by
  constructor
  · rintro ⟨s, hs, hle, hchain⟩
    refine ⟨s, hs, hle, ?_⟩
    -- along the chain, as the blocks before one say that it belongs to the allocation
    have hsteps : ∀ n : Nat, s + n < b → s + n < heap.table.totalEntries →
        heap.table.HasNext (s + n) := by
      intro n
      induction n using Nat.strong_induction_on with
      | _ n ih =>
        intro hhigh hin
        have hblock : s + n ∈ heap.Owned P := by
          refine ⟨s, hs, by omega, fun j hlow hj hj' => ?_⟩
          have hj'' := ih (j - s).toNat (by omega) (by omega) (by omega)
          rwa [show s + (j - s).toNat = j by omega] at hj''
        rw [← HeapTable.hasNext_congr (h.entries _ hblock hin)]
        exact hchain _ (by omega) hhigh (by rwa [h.total])
    intro j hlow hhigh hin
    have hj := hsteps (j - s).toNat (by omega) (by omega)
    rwa [show s + (j - s).toNat = j by omega] at hj
  · rintro ⟨s, hs, hle, hchain⟩
    refine ⟨s, hs, hle, fun j hlow hhigh hin => ?_⟩
    rw [h.total] at hin
    have hj : j ∈ heap.Owned P := ⟨s, hs, hlow, fun i hi hi' => hchain i hi (by omega)⟩
    rw [HeapTable.hasNext_congr (h.entries j hj hin)]
    exact hchain j hlow hhigh hin

theorem SameOwned.kept_iff {P : Set Int} {heap heap' : Heap} (h : SameOwned P heap heap') {x : Nat} :
    heap'.Kept P x ↔ heap.Kept P x := by
  have hblock : heap'.blockOf x = heap.blockOf x := by
    unfold blockOf
    rw [h.start]
  unfold Kept
  rw [h.start, hblock, h.owned_iff]

theorem SameOwned.trans {P : Set Int} {heap heap' heap'' : Heap} (h : SameOwned P heap heap')
    (h' : SameOwned P heap' heap'') : SameOwned P heap heap'' := by
  refine ⟨h'.start.trans h.start, h'.total.trans h.total, fun b hb hin => ?_⟩
  rw [h'.entries b (h.owned_iff.mpr hb) (by rwa [h.total]), h.entries b hb hin]

theorem Kept.mono {P Q : Set Int} {heap : Heap} {x : Nat} (h : heap.Kept P x) (hle : P ⊆ Q) :
    heap.Kept Q x := by
  rcases h with hbelow | ⟨s, hs, hle', hchain⟩
  · exact Or.inl hbelow
  · exact Or.inr ⟨s, hle hs, hle', hchain⟩

/-! Allocations. -/

theorem heapMalloc_run {heap : Heap} (h : heap.WellFormed) {size : Nat} (hlow : 1 ≤ size)
    (hhigh : size ≤ 0xFFFFF000) : heapMalloc heap size = (0, heap) ∨
      ∃ b : Int, 0 ≤ b ∧ b < heap.table.totalEntries ∧
        (∀ j, b ≤ j → j < b + blocksFor size → j < heap.table.totalEntries →
          heap.table.IsFree j) ∧
        heapMalloc heap size =
          (heapBlockToAddress heap b, heapMarkBlocksTaken heap b (blocksFor size)) := by
  have hbelow := h.below
  have hpositive := blocksFor_pos hlow
  have hsmall : heap.table.totalEntries < 1048576 := by omega
  rcases heapMalloc_cases hsmall hlow hhigh with
    ⟨b, hb, hroom, hfree, heq⟩ | ⟨b, hb, -, hin, hfree, -, heq⟩ | ⟨-, -, heq⟩
  · exact Or.inr ⟨b, hb, by omega, fun j hj hj' _ => hfree j hj hj', heq⟩
  · exact Or.inr ⟨b, hb, hin, fun j hj _ hj' => hfree j hj (by omega), heq⟩
  · exact Or.inl heq

theorem Guards.heapMalloc_sameOwned {P : Set Int} {heap : Heap} (h : heap.Guards P) {size : Nat}
    (hsize : size < 4294967296) : SameOwned P heap (BoiOS.heapMalloc heap size).2 := by
  have hbelow := h.wellFormed.below
  by_cases hround : size = 0 ∨ 0xFFFFF000 < size
  · have hint : heap.table.totalEntries < 2147483648 := by omega
    rcases heapMalloc_rounded hint hsize hround with heq | ⟨b, -, -, -, heq⟩
    · rw [heq]
      exact .refl P heap
    · rw [heq]
      exact .refl P heap
  · rcases heapMalloc_run h.wellFormed (show 1 ≤ size by omega) (by omega) with
      heq | ⟨b, hb, hin, hfree, heq⟩
    · rw [heq]
      exact .refl P heap
    · rw [heq]
      obtain ⟨hframe, -⟩ := heapMarkBlocksTaken_frame heap
        (i32_blocksFor_end (by omega : size ≤ 0xFFFFF000) hb (by omega))
      refine ⟨rfl, heapMarkBlocksTaken_totalEntries .., fun c hc _ => hframe c ?_⟩
      have hout := h.owned_not_in_run hc hin hfree
      omega

/-- What is written into an allocation of at most two gigabytes is not written into those of `P`. -/
theorem Guards.heapMalloc_apart {P : Set Int} {heap : Heap} (h : heap.Guards P) {size : Nat}
    (hsize : size ≤ 2147483648) {x : Nat} (hx : x < 4294967296) (hkept : heap.Kept P x)
    (hserved : (BoiOS.heapMalloc heap size).1 ≠ 0) :
    size ≤ u32 ((x : Int) - (BoiOS.heapMalloc heap size).1) := by
  have hbelow := h.wellFormed.below
  by_cases hzero : size = 0
  · omega
  rcases heapMalloc_run h.wellFormed (show 1 ≤ size by omega) (by omega) with
    heq | ⟨b, hb, hin, hfree, heq⟩
  · rw [heq] at hserved
    exact absurd rfl hserved
  rw [heq]
  have haddress := heapBlockToAddress_of_wellFormed h.wellFormed hb hin
  have hblocks : size ≤ 4096 * blocksFor size := by
    unfold blocksFor
    omega
  dsimp only
  rcases hkept with hlow | howned
  · unfold u32
    omega
  · have hout := h.owned_not_in_run howned hin hfree
    unfold blockOf at hout
    unfold u32
    omega

theorem WellFormed.heapMalloc_owned {heap : Heap} (h : heap.WellFormed) {size : Nat}
    (hsize : size ≤ 2147483648) {P : Set Int}
    (hserved : (BoiOS.heapMalloc heap size).1 ≠ 0)
    (hfirst : heap.blockOf (BoiOS.heapMalloc heap size).1 ∈ P) {x : Nat}
    (hx : u32 ((x : Int) - (BoiOS.heapMalloc heap size).1) < size) :
    (BoiOS.heapMalloc heap size).2.blockOf x ∈ (BoiOS.heapMalloc heap size).2.Owned P := by
  have hbelow := h.below
  rcases heapMalloc_run h (show 1 ≤ size by omega) (by omega) with heq | ⟨b, hb, hin, -, heq⟩
  · rw [heq] at hserved
    exact absurd rfl hserved
  rw [heq] at hfirst hx ⊢
  have haddress := heapBlockToAddress_of_wellFormed h hb hin
  obtain ⟨-, hblock⟩ := isBlock_of_eq h hb hin haddress
  have hchain := heapMarkBlocksTaken_chain heap
    (i32_blocksFor_end (by omega : size ≤ 0xFFFFF000) hb (by omega))
  have hblocks : size ≤ 4096 * blocksFor size := by
    unfold blocksFor
    omega
  have hplace : b ≤ heap.blockOf x ∧ heap.blockOf x < b + blocksFor size := by
    unfold blockOf
    unfold u32 at hx
    dsimp only at hx
    omega
  refine ⟨b, by rwa [hblock] at hfirst, ?_, fun j hlow hhigh _ => ?_⟩
  · rw [blockOf_heapMarkBlocksTaken]
    exact hplace.1
  · rw [blockOf_heapMarkBlocksTaken] at hhigh
    exact (hchain j hlow (by omega)).2.mpr (by omega)

/-! Freeing. -/

theorem Guards.heapFree_sameOwned {P : Set Int} {heap : Heap} (h : heap.Guards P) {ptr : Nat}
    (hptr : heap.Freeable P ptr) : SameOwned P heap (BoiOS.heapFree heap ptr) := by
  obtain ⟨s, e, hle, -, hframe, hnext, hwhere⟩ := heapFree_entries h hptr
  refine ⟨heapFree_startAddress .., heapFree_totalEntries .., fun b hb hin => hframe b ?_⟩
  by_contra hcleared
  obtain ⟨r, hr, hlow, hchain⟩ := hb
  have hheld := h.held r hr
  have hzero := hheld.low
  rcases hwhere with hbelow | ⟨hs, hnot, hhead, -⟩
  · omega
  rcases lt_trichotomy r s with hbefore | hsame | hbehind
  · -- the chain from `r` would lead into the one that is freed
    exact hhead (s - 1) (by omega) (by omega)
      (hchain (s - 1) (by omega) (by omega) (by omega))
  · exact hnot (by rwa [← hsame])
  · -- the chain that is freed would lead into the first block `r`
    have hhigh := hheld.high
    have hprevious := hnext (r - 1) (by omega) (by omega)
    have hnotFirst := (h.wellFormed.next (r - 1) (by omega) (by omega) hprevious).2
    rw [show r - 1 + 1 = r by omega] at hnotFirst
    exact hnotFirst hheld.first

end Heap
end BoiOS
