import BoiOS.Kernel.State
import BoiOS.Memory.HeapBlocks

/-! What the allocator leaves alone, for the kernel functions built on it. `P` is a set of first
blocks; an allocation or a free elsewhere keeps them, and a small allocation keeps their bytes. -/
namespace BoiOS
open Library.StateRun

def Kernel.SameMemory (P : Set Int) (k k' : Kernel) : Prop :=
  ∀ x < 4294967296, k.heap.blockOf x ∈ P → k'.memory x = k.memory x

theorem Heap.Guards.not_free {P : Set Int} {heap : Heap} (h : heap.Guards P) {b : Int}
    (hfree : heap.table.IsFree b) : b ∉ P := fun hb => (h.held b hb).taken hfree

theorem Heap.blockOf_congr {heap heap' : Heap} (h : heap'.startAddress = heap.startAddress)
    (ptr : Nat) : heap'.blockOf ptr = heap.blockOf ptr := by
  unfold Heap.blockOf
  rw [h]

theorem Kernel.SameMemory.trans {P : Set Int} {k k' k'' : Kernel} (h : k.SameMemory P k')
    (h' : k'.SameMemory P k'') (hstart : k'.heap.startAddress = k.heap.startAddress) :
    k.SameMemory P k'' := by
  intro x hx hP
  rw [h' x hx (by rwa [Heap.blockOf_congr hstart]), h x hx hP]

theorem Heap.blockOf_near {heap : Heap} (h : heap.WellFormed) {ptr x : Nat} (hptr : heap.IsBlock ptr)
    (hnear : u32 ((x : Int) - ptr) < 4096) : heap.blockOf x = heap.blockOf ptr := by
  have hbelow := h.below
  have hlow := hptr.low
  have hhigh := hptr.high
  have haddress := hptr.address
  generalize heap.blockOf ptr = b at hlow hhigh haddress ⊢
  unfold Heap.blockOf
  unfold u32 at hnear
  omega

theorem kzalloc_obtained {P : Set Int} {k k' : Kernel} {size ptr : Nat} (h : k.heap.Guards P)
    (hsize : size < 4294967296) (hrun : kzalloc size k = .ok (ptr, k')) :
    Heap.Obtained P k.heap k'.heap size ptr ∧ k' = { k with heap := k'.heap, memory := k'.memory } := by
  obtain ⟨rfl, rfl⟩ := kzalloc_eq_ok hrun
  exact ⟨h.heapMalloc hsize, rfl⟩

theorem kzalloc_size {k k' : Kernel} {size ptr : Nat} (hrun : kzalloc size k = .ok (ptr, k'))
    (hptr : ptr ≠ 0) : size ≤ 0xFFFFF000 := by
  unfold kzalloc at hrun
  obtain ⟨p, k₁, -, hrun⟩ := bind_eq_ok.mp hrun
  split_ifs at hrun with hnull hwrap
  · exact absurd (pure_eq_ok.mp hrun).1.symm hptr
  · exact (throw_eq_ok.mp hrun).elim
  · omega

theorem kzalloc_new {P : Set Int} {k k' : Kernel} {size ptr : Nat} (h : k.heap.Guards P)
    (hlow : 1 ≤ size) (hhigh : size < 4294967296) (hrun : kzalloc size k = .ok (ptr, k'))
    (hptr : ptr ≠ 0) : k'.heap.IsBlock ptr ∧ k'.heap.blockOf ptr ∉ P ∧
      k'.heap.Guards (insert (k'.heap.blockOf ptr) P) := by
  obtain ⟨hobtained, -⟩ := kzalloc_obtained h hhigh hrun
  obtain ⟨hblock, hfree, hheld⟩ := hobtained.block.resolve_left hptr
  have hsame := Heap.blockOf_congr hobtained.start ptr
  rw [hsame]
  exact ⟨hblock.congr hobtained.start hobtained.total, h.not_free hfree,
    hobtained.guards.insert (hheld hlow (kzalloc_size hrun hptr))⟩

theorem kzalloc_freeable {P : Set Int} {k k' : Kernel} {size ptr : Nat} (h : k.heap.Guards P)
    (hsize : size < 4294967296) (hrun : kzalloc size k = .ok (ptr, k')) :
    k'.heap.Freeable P ptr := by
  obtain ⟨hptr, hk'⟩ := kzalloc_eq_ok hrun
  have hheap : k'.heap = (heapMalloc k.heap size).2 := by rw [hk']
  rw [hheap, hptr]
  exact h.heapMalloc_freeable hsize

theorem kzalloc_memory {P : Set Int} {k k' : Kernel} {size ptr : Nat} (h : k.heap.Guards P)
    (hsize : size ≤ 4096) (hrun : kzalloc size k = .ok (ptr, k')) : k.SameMemory P k' := by
  obtain ⟨hobtained, -⟩ := kzalloc_obtained h (by omega) hrun
  obtain ⟨hptr, hk'⟩ := kzalloc_eq_ok hrun
  have hmemory : k'.memory = if ptr = 0 then k.memory else k.memory.clear ptr size := by
    rw [hk']
  intro x hx hP
  rw [hmemory]
  rcases hobtained.block with hnull | ⟨hblock, hfree, -⟩
  · rw [if_pos hnull]
  · by_cases hnull : ptr = 0
    · rw [if_pos hnull]
    rw [if_neg hnull]
    unfold Memory.clear
    rw [if_neg]
    intro hin
    rw [Heap.blockOf_near h.wellFormed hblock (by omega)] at hP
    exact h.not_free hfree hP

theorem kzalloc_small {k : Kernel} (hwf : k.heap.WellFormed) {size : Nat} (hlow : 1 ≤ size)
    (hhigh : size ≤ 4096) :
    ∃ ptr k', kzalloc size k = .ok (ptr, k') ∧
      (0 < k.heap.freeBlocks → ptr ≠ 0 ∧ k'.heap.freeBlocks + 1 = k.heap.freeBlocks) := by
  obtain ⟨hserved, hcount⟩ := Heap.heapMalloc_served_iff hwf hlow hhigh
  exact ⟨_, _, kzalloc_apply (by omega) k, fun hfree => ⟨hserved.mpr hfree, hcount hfree⟩⟩

theorem kzalloc_served_iff {k k' : Kernel} (hwf : k.heap.WellFormed) {size ptr : Nat}
    (hlow : 1 ≤ size) (hhigh : size ≤ 4096) (hrun : kzalloc size k = .ok (ptr, k')) :
    (ptr ≠ 0 ↔ 0 < k.heap.freeBlocks) ∧
      (ptr ≠ 0 → k'.heap.freeBlocks + 1 = k.heap.freeBlocks) := by
  obtain ⟨hserved, hcount⟩ := Heap.heapMalloc_served_iff hwf hlow hhigh
  obtain ⟨rfl, rfl⟩ := kzalloc_eq_ok hrun
  exact ⟨hserved, fun hptr => hcount (hserved.mp hptr)⟩

theorem kfree_apply (ptr : Nat) (k : Kernel) :
    kfree ptr k = .ok ((), { k with heap := heapFree k.heap ptr }) := rfl

theorem kfree_eq_ok {ptr : Nat} {k k' : Kernel} {u : Unit} :
    kfree ptr k = .ok (u, k') ↔ k' = { k with heap := heapFree k.heap ptr } := by
  unfold kfree
  rw [modify_eq_ok]
  exact eq_comm

/-! The blocks that belong to something. -/

/-- Besides the blocks of `P` those of `S` are held. -/
structure Heap.GuardsMore (P S : Set Int) (heap : Heap) : Prop where
  guards : heap.Guards (P ∪ S)
  apart : ∀ b ∈ S, b ∉ P

structure Heap.BlockIn (S : Set Int) (heap : Heap) (ptr : Nat) : Prop where
  block : heap.IsBlock ptr
  mem : heap.blockOf ptr ∈ S

def Heap.KeepsFreeable (heap heap' : Heap) : Prop :=
  ∀ (Q : Set Int) (q : Nat), heap.Freeable Q q → heap'.Freeable Q q

theorem Heap.KeepsFreeable.refl (heap : Heap) : heap.KeepsFreeable heap := fun _ _ h => h

theorem Heap.KeepsFreeable.trans {heap heap' heap'' : Heap} (h : heap.KeepsFreeable heap')
    (h' : heap'.KeepsFreeable heap'') : heap.KeepsFreeable heap'' := fun Q q hq => h' Q q (h Q q hq)

theorem Heap.Freeable.mono {P Q : Set Int} {heap : Heap} {ptr : Nat} (h : heap.Freeable Q ptr)
    (hle : P ⊆ Q) : heap.Freeable P ptr := by
  rcases h with hnull | ⟨hblock, hnot, hkind⟩
  · exact Or.inl hnull
  · exact Or.inr ⟨hblock, fun hP => hnot (hle hP), hkind⟩

theorem Heap.Freeable.not_mem {P : Set Int} {heap : Heap} {ptr : Nat} (h : heap.Freeable P ptr)
    (hptr : ptr ≠ 0) : heap.blockOf ptr ∉ P := (h.resolve_left hptr).2.1

theorem Heap.BlockIn.mono {S T : Set Int} {heap : Heap} {ptr : Nat} (h : heap.BlockIn S ptr)
    (hle : S ⊆ T) : heap.BlockIn T ptr := ⟨h.block, hle h.mem⟩

theorem Heap.BlockIn.congr {S : Set Int} {heap heap' : Heap} {ptr : Nat} (h : heap.BlockIn S ptr)
    (hstart : heap'.startAddress = heap.startAddress)
    (htotal : heap'.table.totalEntries = heap.table.totalEntries) : heap'.BlockIn S ptr :=
  ⟨h.block.congr hstart htotal, by rw [Heap.blockOf_congr hstart]; exact h.mem⟩

theorem Heap.GuardsMore.left {P S : Set Int} {heap : Heap} (h : heap.GuardsMore P S) :
    heap.Guards P := h.guards.mono Set.subset_union_left

theorem Heap.GuardsMore.freeable {P S : Set Int} {heap : Heap} (h : heap.GuardsMore P S) {ptr : Nat}
    (hptr : heap.BlockIn S ptr) : heap.Freeable P ptr :=
  Or.inr ⟨hptr.block, h.apart _ hptr.mem, Or.inl (h.guards.held _ (Or.inr hptr.mem))⟩

theorem Heap.GuardsMore.none {P : Set Int} {heap : Heap} (h : heap.Guards P) :
    heap.GuardsMore P ∅ :=
  ⟨by rwa [Set.union_empty], fun b hb => absurd hb (Set.notMem_empty b)⟩

theorem Heap.GuardsMore.insert {P S : Set Int} {heap : Heap} {b : Int}
    (h : heap.GuardsMore (insert b P) S) (hb : b ∉ P) : heap.GuardsMore P (insert b S) := by
  constructor
  · rw [Set.union_insert, ← Set.insert_union]
    exact h.guards
  · intro c hc
    rcases Set.mem_insert_iff.mp hc with rfl | hc
    · exact hb
    · exact fun hP => h.apart c hc (Set.mem_insert_of_mem b hP)

theorem Heap.Guards.keepsFreeable {P : Set Int} {heap : Heap} (h : heap.Guards P) {ptr : Nat}
    (hptr : heap.Freeable P ptr) : heap.KeepsFreeable (BoiOS.heapFree heap ptr) :=
  fun _ _ hq => hq.heapFree h hptr

/-- The first byte of the boot signature ends a walk from below, where the second does not. -/
theorem freeOfNullStaysBelow_boot {heap : Heap} (hstart : heap.startAddress = boiosHeapAddress)
    (hbyte : heap.table.entries (-2) = 0x55) : FreeOfNullStaysBelow heap := by
  refine ⟨-2, by decide, ?_, fun hnext => hnext ?_⟩
  · unfold heapAddressToBlock
    rw [hstart]
    decide +kernel
  · rw [hbyte]
    decide

/-- The heap that the kernel makes at boot is well formed, whatever the memory held before. -/
theorem kheapInit_wellFormed (kernelHeap : Heap) {entries : Int → UInt8}
    (hboot : entries (-2) = 0x55) :
    (kheapInit kernelHeap entries).1 = 0 ∧ (kheapInit kernelHeap entries).2.WellFormed := by
  have hvalid : heapValidateTable boiosHeapAddress (boiosHeapAddress + boiosHeapSizeBytes)
      ⟨entries, boiosHeapSizeBytes / boiosHeapBlockSize, []⟩ = 0 := by
    unfold heapValidateTable
    dsimp only
    rw [if_neg (by decide +kernel)]
  have hresponse : (kheapInit kernelHeap entries).1 = 0 := by
    unfold kheapInit heapCreate
    dsimp only
    rw [if_neg (by decide), hvalid, if_neg (by decide)]
  refine ⟨hresponse, ?_⟩
  obtain ⟨created, hcreated⟩ : ∃ created, created = (kheapInit kernelHeap entries).2 := ⟨_, rfl⟩
  have hmade : heapCreate kernelHeap boiosHeapAddress (boiosHeapAddress + boiosHeapSizeBytes)
      ⟨entries, boiosHeapSizeBytes / boiosHeapBlockSize, []⟩ = (0, created) := by
    rw [hcreated]
    exact Prod.ext hresponse rfl
  obtain ⟨hstart, htotal, hclear, -⟩ := heapCreate_spec hmade
  have hblocks : u32 ((boiosHeapAddress + boiosHeapSizeBytes : Nat) - boiosHeapAddress : Int) / 4096 =
      25600 := by decide +kernel
  rw [hblocks] at htotal
  have haddress : boiosHeapAddress = 0x1000000 := rfl
  rw [← hcreated]
  refine ⟨by omega, by omega, by omega, freeOfNullStaysBelow_boot hstart ?_,
    fun b hb hin hnext => ?_, fun b hb hin hnext => ?_⟩
  · rw [heapCreate_below hmade (by decide)]
    exact hboot
  · exact absurd hnext (HeapTable.not_hasNext_of_eq_zero (hclear b hb (by omega)))
  · exact absurd hnext (HeapTable.not_hasNext_of_eq_zero (hclear b hb hin))

theorem emptyKernel_wellFormed {blocks : Nat}
    (hblocks : boiosHeapAddress + 4096 * blocks ≤ 2147483648) :
    (emptyKernel blocks).heap.WellFormed := by
  have hclear : ∀ b : Int, 0 ≤ b → (emptyKernel blocks).heap.table.entries b = 0 :=
    fun _ hb => bootEntries_eq_zero hb
  have haligned : boiosHeapAddress % 4096 = 0 := by decide
  have hpositive : 0 < boiosHeapAddress := by decide
  refine ⟨haligned, hpositive, hblocks, freeOfNullStaysBelow_boot rfl rfl,
    fun b hb _ hnext => ?_, fun b hb _ hnext => ?_⟩
  · exact absurd hnext (HeapTable.not_hasNext_of_eq_zero (hclear b hb))
  · exact absurd hnext (HeapTable.not_hasNext_of_eq_zero (hclear b hb))

end BoiOS
