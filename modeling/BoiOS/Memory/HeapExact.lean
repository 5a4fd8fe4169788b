import BoiOS.Memory.HeapSpec
import Mathlib.Order.Bounds.Defs

/-! First fit, and the exact undoing of an allocation, for tables of any length. An index of the
table is an `int`, and so is the bound of the loop that frees: both are right up to the largest
`int`, which is far beyond the tables that `heap_create` accepts. -/
namespace BoiOS

/-- Where `n` consecutive free entries of the table start. -/
def HeapTable.runs (table : HeapTable) (n : Nat) : Set Nat :=
  {s | s + n ≤ table.totalEntries ∧ table.FreeRun s n}

/-- The search finds the lowest run, and returns its start as an `int`. -/
theorem heapGetStartBlock_lowest {heap : Heap} {n : Nat} (hpos : 1 ≤ n)
    (hlength : heap.table.totalEntries < 4294967296) {first : Nat}
    (hfirst : IsLeast (heap.table.runs n) first) : heapGetStartBlock heap n = i32 first := by
  have hroom : first + n ≤ heap.table.totalEntries := hfirst.1.1
  have hsome : ¬ heap.table.NoRoom n := fun hno => hno first (by omega) (by omega) hfirst.1.2
  obtain ⟨blockStart, heq, hspec⟩ :=
    heapGetStartBlock_wraps heap n hpos (by omega) hlength
  have hlowest : (if blockStart = -1 then -enomem else blockStart) = first := by
    generalize (if blockStart = -1 then -enomem else blockStart) = found at hspec ⊢
    cases hspec with
    | fits _ hlow hin hfree hbefore =>
      have hle : first ≤ found.toNat := by
        apply hfirst.2
        refine ⟨by omega, ?_⟩
        rwa [Int.toNat_of_nonneg hlow]
      have hge : ¬ (first : Int) < found := fun hlt => hbefore first (by omega) hlt hfirst.1.2
      omega
    | tooShort _ _ _ _ _ hno => exact absurd hno hsome
    | none hno _ => exact absurd hno hsome
  have hstart : blockStart = first := by
    by_cases hnone : blockStart = -1
    · rw [if_pos hnone] at hlowest
      have hneg : -enomem < 0 := by decide
      omega
    · rwa [if_neg hnone] at hlowest
  rw [heq, hstart, if_neg]
  unfold i32
  omega

theorem exists_lowest_run {table : HeapTable} {n : Nat} (h : (table.runs n).Nonempty) :
    ∃ first, IsLeast (table.runs n) first := by
  classical
  exact ⟨Nat.find h, Nat.find_spec h, fun s hs => Nat.find_min' h hs⟩

/-- Where some run is long enough, the search returns the start of the lowest one, and the request
for that many blocks gets that run, as long as the start is an `int`. -/
theorem heap_first_fit_lowest {heap : Heap} {n : Nat} (hpos : 1 ≤ n)
    (hlength : heap.table.totalEntries < 4294967296) (hruns : (heap.table.runs n).Nonempty) :
    ∃ first, IsLeast (heap.table.runs n) first ∧ (first < 2147483648 →
      heapGetStartBlock heap n = first ∧
        ∀ size, heapAlignValueToUpper size / boiosHeapBlockSize = n → heapMalloc heap size =
          (heapBlockToAddress heap first, heapMarkBlocksTaken heap first (i32 n))) := by
  obtain ⟨first, hfirst⟩ := exists_lowest_run hruns
  refine ⟨first, hfirst, fun hint => ?_⟩
  have hstart : heapGetStartBlock heap n = first := by
    rw [heapGetStartBlock_lowest hpos hlength hfirst]
    exact i32_of_range (by omega) (by omega)
  refine ⟨hstart, fun size hsize => ?_⟩
  unfold heapMalloc heapMallocBlocks
  dsimp only
  rw [hsize, hstart, if_neg (by omega)]

def splitHeap : Heap := ⟨⟨fun i => if i < 2 then 0x41 else 0, 5, []⟩, 0x1000000⟩

theorem splitHeap_runs : (splitHeap.table.runs 2).Nonempty := by
  refine ⟨2, by decide, fun i hlow hhigh => HeapTable.isFree_of_eq_zero ?_⟩
  exact if_neg (by omega)

theorem heap_first_fit_lowest_splitHeap : 1 ≤ 2 ∧ ∃ first, IsLeast (splitHeap.table.runs 2) first ∧
    (first < 2147483648 → heapGetStartBlock splitHeap 2 = first ∧
      ∀ size, heapAlignValueToUpper size / boiosHeapBlockSize = 2 → heapMalloc splitHeap size =
        (heapBlockToAddress splitHeap first, heapMarkBlocksTaken splitHeap first (i32 (2 : Nat)))) :=
  ⟨by decide, heap_first_fit_lowest (by decide) (by decide) splitHeap_runs⟩

def farHeap : Heap := ⟨⟨fun i => if i < 2147483648 then 0x41 else 0, 2147483649, []⟩, 0x1000000⟩

theorem farHeap_entries (i : Int) :
    farHeap.table.entries i = if i < 2147483648 then 0x41 else 0 := rfl

theorem farHeap_lowest : IsLeast (farHeap.table.runs 1) 2147483648 := by
  constructor
  · refine ⟨by decide, fun i hlow _ => HeapTable.isFree_of_eq_zero ?_⟩
    rw [farHeap_entries, if_neg (by omega)]
  · rintro s ⟨-, hrun⟩
    by_contra hlt
    have hbefore : (s : Int) < 2147483648 := by omega
    have htaken : farHeap.table.entries s = 0x41 := by
      rw [farHeap_entries, if_pos hbefore]
    exact not_isFree_of_taken htaken (by decide) (hrun s (le_refl _) (by omega))

theorem heap_first_fit_not_always_lowest : ¬ ∀ (heap : Heap) (n first : Nat), 1 ≤ n →
    heap.table.totalEntries < 4294967296 → IsLeast (heap.table.runs n) first →
    heapGetStartBlock heap n = first := by
  intro hall
  have hint := hall farHeap 1 2147483648 (by decide) (by decide) farHeap_lowest
  rw [heapGetStartBlock_lowest (by decide) (by decide) farHeap_lowest] at hint
  exact absurd hint (by decide +kernel)

/-! An allocation and its free. -/

/-- After the entries of an allocation were marked, and others changed in any way, freeing the
allocation frees its entries and no other; with nothing changed in between the table is back to
what it was. -/
theorem heap_mark_blocks_free_exact {heap after : Heap} {s n : Nat} (hpos : 1 ≤ n)
    (hroom : s + n ≤ heap.table.totalEntries) (hint : heap.table.totalEntries < 2147483648)
    (hfree : ∀ i : Int, s ≤ i → i < s + n → heap.table.entries i = heapBlockTableEntryFree)
    (htotal : after.table.totalEntries = heap.table.totalEntries)
    (hkept : ∀ i : Int, s ≤ i → i < s + n →
      after.table.entries i = (heapMarkBlocksTaken heap s n).table.entries i) :
    (∀ i : Int, s ≤ i → i < s + n →
      (heapMarkBlocksFree after s).table.entries i = heapBlockTableEntryFree) ∧
    (∀ i : Int, i < s ∨ s + n ≤ i →
      (heapMarkBlocksFree after s).table.entries i = after.table.entries i) ∧
    (after = heapMarkBlocksTaken heap s n →
      (heapMarkBlocksFree after s).table.entries = heap.table.entries) := by
  have hchain : after.table.Chain s n := 
    (heapMarkBlocksTaken_chain heap (i32_of_range (by omega) (by omega))).congr hkept
  obtain ⟨-, hcleared, hframe, -⟩ := heapMarkBlocksFree_chain after s n (by omega) (by omega)
    (by omega) (by omega) hchain
  refine ⟨hcleared, hframe, fun hsame => ?_⟩
  rw [hsame]
  exact heapMarkBlocksFree_heapMarkBlocksTaken (by omega) (by omega) (by omega) hint hfree

theorem heap_mark_blocks_free_exact_splitHeap :
    (heapMarkBlocksFree (heapMarkBlocksTaken splitHeap 2 3) 2).table.entries =
      splitHeap.table.entries := by
  refine (heap_mark_blocks_free_exact (s := 2) (n := 3) (by decide) (by decide) (by decide)
    (fun i hlow _ => if_neg (by omega)) ?_ (fun _ _ _ => rfl)).2.2 rfl
  exact heapMarkBlocksTaken_totalEntries splitHeap 2 3

def longHeap : Heap := ⟨⟨fun _ => 0, 2147483648, []⟩, 0x1000000⟩

theorem heap_mark_blocks_free_not_always_exact : ¬ ∀ (heap : Heap) (s n : Nat), 1 ≤ n →
    s + n ≤ heap.table.totalEntries → heap.table.totalEntries < 4294967296 →
    (∀ i : Int, s ≤ i → i < s + n → heap.table.entries i = heapBlockTableEntryFree) →
    ∀ i : Int, s ≤ i → i < s + n →
      (heapMarkBlocksFree (heapMarkBlocksTaken heap s n) s).table.entries i =
        heapBlockTableEntryFree := by
  intro hall
  have hfreed := hall longHeap 0 1 (by decide) (by decide) (by decide) (fun _ _ _ => rfl) 0
    (by decide) (by decide)
  exact absurd hfreed (by decide +kernel)

end BoiOS
