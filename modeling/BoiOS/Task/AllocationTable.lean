import BoiOS.Memory.PagingExact
import BoiOS.Task.ProcessLoad
import BoiOS.Task.UserMemoryRuns

/-! What `process_malloc` and `process_free` leave exactly as it was: a request that fails, and a
free of a pointer that is none of the process. An unused entry has the pointer null, so that null
passes for an allocation, and what is freed for it is a byte below the heap table. -/
namespace BoiOS
open Library.StateRun

/-! Freeing what is not owned. -/

def Process.Unowned (p : Process) (ptr : Nat) : Prop :=
  ∀ i < boiosMaxProgramAllocations, (p.allocations i).ptr = ptr → ptr = 0

/-- The heap table and the memory around it, all memory, the page directories and the allocations of
the process are the same. -/
structure LeftAlone (process : Nat) (k k' : Kernel) : Prop where
  heap : k'.heap.table.entries = k.heap.table.entries
  memory : k'.memory = k.memory
  pages : k'.pages = k.pages
  allocations : ∀ i < boiosMaxProgramAllocations, k'.allocation process i = k.allocation process i

/-- A free of the pointer by the process: the call itself, the system call, or the round of
`process_terminate_allocations` for an entry that has the pointer. -/
inductive FreeRun (process ptr : Nat) (k k' : Kernel) : Prop
  | call (h : processFree process ptr k = .ok ((), k'))
  | systemCall (hcurrent : taskCurrentProcess k.scheduler.tasks = some process)
      (h : isr80hCommand5Free ptr k = .ok ((), k'))
  | sweep (i : Nat) (hptr : (k.allocation process i).ptr = ptr)
      (h : processTerminateAllocationsLoop process 1 i k = .ok ((), k'))

theorem FreeRun.processFree_eq_ok {process ptr : Nat} {k k' : Kernel}
    (h : FreeRun process ptr k k') : processFree process ptr k = .ok ((), k') := by
  cases h with
  | call h => exact h
  | systemCall hcurrent h =>
    unfold isr80hCommand5Free at h
    rw [bind_of_ok (get_apply k), bind_of_ok (fetch_eq_ok.mpr ⟨hcurrent, rfl⟩)] at h
    exact h
  | sweep i hptr h =>
    unfold processTerminateAllocationsLoop at h
    replace h := bind_get_eq_ok.mp h
    obtain ⟨p, hp, h⟩ := bind_fetch_eq_ok.mp h
    obtain ⟨_, k₁, hfree, h⟩ := bind_eq_ok.mp h
    obtain ⟨-, rfl⟩ := pure_eq_ok.mp h
    rw [Kernel.allocation_of_store hp] at hptr
    rwa [hptr] at hfree

theorem processGetAllocationByAddrLoop_none {p : Process} {addr : Nat} (count i : Nat)
    (h : ∀ j, i ≤ j → j < i + count → (p.allocations j).ptr ≠ addr) :
    processGetAllocationByAddrLoop p addr count i = none := by
  induction count generalizing i with
  | zero => rfl
  | succ count ih =>
    unfold processGetAllocationByAddrLoop
    rw [if_neg (h i (le_refl i) (by omega))]
    exact ih (i + 1) fun j hlow hhigh => h j (by omega) (by omega)

theorem processFree_none {process ptr : Nat} {p : Process} {k k' : Kernel}
    (hp : k.scheduler.store process = some p)
    (hnone : ∀ i < boiosMaxProgramAllocations, (p.allocations i).ptr ≠ ptr)
    (hrun : processFree process ptr k = .ok ((), k')) : k' = k := by
  have hfound : processGetAllocationByAddr p ptr = none :=
    processGetAllocationByAddrLoop_none _ 0 fun j _ hj => hnone j (by omega)
  unfold processFree at hrun
  rw [bind_of_ok (get_apply k), bind_of_ok (fetch_eq_ok.mpr ⟨hp, rfl⟩), hfound] at hrun
  exact (pure_eq_ok.mp hrun).2.symm

/-- What is below the heap, where the pointer null leads, is already what a free writes, or the free
does not get as far as a write. -/
def Heap.NullIsFree (heap : Heap) : Prop :=
  i32 heap.table.totalEntries ≤ heapAddressToBlock heap 0 ∨
    heap.table.entries (heapAddressToBlock heap 0) = heapBlockTableEntryFree

theorem heapFree_null_iff (heap : Heap) :
    (heapFree heap 0).table.entries = heap.table.entries ↔ heap.NullIsFree := by
  rw [heapFree, heapMarkBlocksFree_table]
  unfold Heap.NullIsFree
  generalize heapAddressToBlock heap 0 = b
  obtain ⟨m, hle, hpos, -, hstop, -, hzero, hframe, -⟩ := heapMarkBlocksFreeLoop_spec
    (i32 heap.table.totalEntries - b).toNat b heap.table
  constructor
  · intro hsame
    by_cases habove : i32 heap.table.totalEntries ≤ b
    · exact Or.inl habove
    · have hm := hpos (by omega)
      have hfreed := hzero b (le_refl b) (by omega)
      rw [hsame] at hfreed
      exact Or.inr hfreed
  · rintro (habove | hfree)
    · funext j
      exact hframe j (by omega)
    · -- the first entry has no next, so that it is the only one that is freed
      by_cases hcount : (i32 heap.table.totalEntries - b).toNat = 0
      · funext j
        exact hframe j (by omega)
      obtain ⟨count, hcount⟩ := Nat.exists_eq_succ_of_ne_zero hcount
      rw [hcount]
      unfold heapMarkBlocksFreeLoop
      dsimp only
      rw [hfree, if_pos (by decide), HeapTable.store_entries, ← hfree]
      exact Function.update_eq_self b heap.table.entries

theorem processGetAllocationByAddrLoop_isSome {p : Process} {addr j : Nat} (count i : Nat)
    (hlow : i ≤ j) (hhigh : j < i + count) (hptr : (p.allocations j).ptr = addr) :
    ∃ allocation, processGetAllocationByAddrLoop p addr count i = some allocation := by
  induction count generalizing i with
  | zero => omega
  | succ count ih =>
    unfold processGetAllocationByAddrLoop
    by_cases hi : (p.allocations i).ptr = addr
    · exact ⟨_, if_pos hi⟩
    · have hne : j ≠ i := by
        rintro rfl
        exact hi hptr
      rw [if_neg hi]
      exact ih (i + 1) (by omega) (by omega)

theorem ProcessAllocation.eq_unused {a : ProcessAllocation} (hptr : a.ptr = 0) (hsize : a.size = 0) :
    a = ⟨0, 0⟩ := by
  obtain ⟨ptr, size⟩ := a
  simp_all

theorem processMapAllocation_zero (chunk : Nat) (s : PageStore) :
    processMapAllocation chunk ⟨0, 0⟩ 0 s = .ok (0, s) := by
  have hend : pagingAlignAddress (u32 ((0 : Nat) + (0 : Nat))) = 0 := by decide +kernel
  unfold processMapAllocation pagingMapTo
  dsimp only
  rw [hend, if_neg (by decide), if_neg (by decide)]
  rfl

theorem putProcess_memory (process : Nat) (p : Process) (heap : Heap) (pages : PageStore)
    (k : Kernel) : (putProcess process p { k with heap, pages }).memory = k.memory := by
  cases k
  rfl

theorem processFree_null {process : Nat} {p : Process} {k k' : Kernel} {j : Nat}
    (hp : k.scheduler.store process = some p) (hj : j < boiosMaxProgramAllocations)
    (hunused : (p.allocations j).ptr = 0) (hrun : processFree process 0 k = .ok ((), k')) :
    ∃ pages, k' = putProcess process (processAllocationUnjoin p 0)
        { k with heap := heapFree k.heap 0, pages } ∧
      ((∀ i < boiosMaxProgramAllocations, (p.allocations i).ptr = 0 → (p.allocations i).size = 0) →
        pages = k.pages) := by
  obtain ⟨allocation, hfound⟩ : ∃ allocation, processGetAllocationByAddr p 0 = some allocation :=
    processGetAllocationByAddrLoop_isSome _ 0 (Nat.zero_le j) (by omega) hunused
  obtain ⟨i, hi, hentry, hnull⟩ := processGetAllocationByAddr_some hfound
  unfold processFree at hrun
  rw [bind_of_ok (get_apply k), bind_of_ok (fetch_eq_ok.mpr ⟨hp, rfl⟩), hfound] at hrun
  obtain ⟨task, -, hrun⟩ := bind_fetch_eq_ok.mp hrun
  obtain ⟨res, k₁, hmap, hrun⟩ := bind_eq_ok.mp hrun
  obtain ⟨pages, hmap, hk₁⟩ := pagingRun_eq_ok hmap
  have hres : ¬ res < 0 := by
    unfold processMapAllocation at hmap
    rw [hnull] at hmap
    rcases pagingMapTo_entered (by decide) (by decide) (pagingAlignAddress_aligned _) hmap with
      ⟨hbelow, -⟩ | ⟨-, hzero, -⟩
    · omega
    · omega
  rw [if_neg hres] at hrun
  obtain ⟨_, k₂, hput, hrun⟩ := bind_eq_ok.mp hrun
  have hk₂ := modify_eq_ok.mp hput
  refine ⟨pages, ?_, fun hsizes => ?_⟩
  · rw [kfree_eq_ok.mp hrun, ← hk₂, hk₁]
    rfl
  · have hblank : allocation = ⟨0, 0⟩ := by
      have hsize := hsizes i hi (by rw [hentry]; exact hnull)
      rw [hentry] at hsize
      exact ProcessAllocation.eq_unused hnull hsize
    rw [hblank, processMapAllocation_zero, Except.ok.injEq, Prod.mk.injEq] at hmap
    exact hmap.2.symm

/-- A free of a pointer that is not owned changes nothing if and only if the pointer is not null, or
no entry is unused, or the unused entries have no size and the free of null writes what is there. -/
theorem process_free_unowned_iff {process ptr : Nat} {p : Process} {k k' : Kernel}
    (hp : k.scheduler.store process = some p) (hunowned : p.Unowned ptr)
    (hrun : FreeRun process ptr k k') : LeftAlone process k k' ↔
      ptr ≠ 0 ∨ (∀ i < boiosMaxProgramAllocations, (p.allocations i).ptr ≠ 0) ∨
        (∀ i < boiosMaxProgramAllocations, (p.allocations i).ptr = 0 →
          (p.allocations i).size = 0) ∧ k.heap.NullIsFree := by
  have hfree := hrun.processFree_eq_ok
  by_cases hnull : ptr = 0
  · subst hnull
    by_cases hfull : ∀ i < boiosMaxProgramAllocations, (p.allocations i).ptr ≠ 0
    · rw [processFree_none hp hfull hfree]
      exact iff_of_true ⟨rfl, rfl, rfl, fun _ _ => rfl⟩ (Or.inr (Or.inl hfull))
    · push Not at hfull
      obtain ⟨j, hj, hunused⟩ := hfull
      obtain ⟨pages, hk', hpages⟩ := processFree_null hp hj hunused hfree
      have hp' : k'.scheduler.store process = some (processAllocationUnjoin p 0) := by
        rw [hk', putProcess_store_self]
      have hheap : k'.heap = heapFree k.heap 0 := by
        rw [hk']
        rfl
      have hmemory : k'.memory = k.memory :=
        (congrArg Kernel.memory hk').trans (putProcess_memory ..)
      constructor
      · intro h
        refine Or.inr (Or.inr ⟨fun i hi hptr => ?_, ?_⟩)
        · have hsame := h.allocations i hi
          rw [Kernel.allocation_of_store hp', Kernel.allocation_of_store hp] at hsame
          unfold processAllocationUnjoin at hsame
          dsimp only at hsame
          rw [if_pos ⟨hi, hptr⟩] at hsame
          rw [← hsame]
        · rw [← heapFree_null_iff, ← hheap]
          exact h.heap
      · rintro (hne | hfull | ⟨hsizes, hbyte⟩)
        · exact absurd rfl hne
        · exact absurd hunused (hfull j hj)
        · refine ⟨?_, hmemory, ?_, fun i hi => ?_⟩
          · rw [hheap]
            exact (heapFree_null_iff k.heap).mpr hbyte
          · rw [← hpages hsizes, hk']
            simp only [putProcess]
          · rw [Kernel.allocation_of_store hp', Kernel.allocation_of_store hp]
            unfold processAllocationUnjoin
            dsimp only
            by_cases hptr : (p.allocations i).ptr = 0
            · rw [if_pos ⟨hi, hptr⟩]
              exact (ProcessAllocation.eq_unused hptr (hsizes i hi hptr)).symm
            · rw [if_neg fun hcond => hptr hcond.2]
  · have hnone : ∀ i < boiosMaxProgramAllocations, (p.allocations i).ptr ≠ ptr :=
      fun i hi heq => hnull (hunowned i hi heq)
    rw [processFree_none hp hnone hfree]
    exact iff_of_true ⟨rfl, rfl, rfl, fun _ _ => rfl⟩ (Or.inl hnull)

def dirtyKernel : Kernel :=
  { oneProgramKernel with
    heap := ⟨⟨fun i => if i = -4096 then 1 else 0, 8, []⟩, boiosHeapAddress⟩ }

theorem dirtyKernel_store : ∃ p, dirtyKernel.scheduler.store 0x3000 = some p ∧
    ∀ i, p.allocations i = ⟨0, 0⟩ := ⟨_, rfl, fun _ => rfl⟩

theorem dirtyKernel_free : ∃ k', processFree 0x3000 0 dirtyKernel = .ok ((), k') :=
  exists_of_value? (by decide +kernel)

theorem dirtyKernel_not_nullIsFree : ¬ dirtyKernel.heap.NullIsFree := by
  unfold Heap.NullIsFree
  decide +kernel

theorem process_free_unowned_iff_dirtyKernel : ∃ (p : Process) (k' : Kernel), p.Unowned 0 ∧
    FreeRun 0x3000 0 dirtyKernel k' ∧ (LeftAlone 0x3000 dirtyKernel k' ↔
      (0 : Nat) ≠ 0 ∨ (∀ i < boiosMaxProgramAllocations, (p.allocations i).ptr ≠ 0) ∨
        (∀ i < boiosMaxProgramAllocations, (p.allocations i).ptr = 0 →
          (p.allocations i).size = 0) ∧ dirtyKernel.heap.NullIsFree) := by
  obtain ⟨p, hp, -⟩ := dirtyKernel_store
  obtain ⟨k', hrun⟩ := dirtyKernel_free
  exact ⟨p, k', fun _ _ _ => rfl, .call hrun,
    process_free_unowned_iff hp (fun _ _ _ => rfl) (.call hrun)⟩

theorem process_free_unowned_not_always_neutral : ¬ ∀ (process ptr : Nat) (p : Process)
    (k k' : Kernel), k.scheduler.store process = some p → p.Unowned ptr →
    FreeRun process ptr k k' → LeftAlone process k k' := by
  intro hall
  obtain ⟨p, hp, hblank⟩ := dirtyKernel_store
  obtain ⟨k', hrun⟩ := dirtyKernel_free
  have hsame := hall 0x3000 0 p dirtyKernel k' hp (fun _ _ _ => rfl) (.call hrun)
  have hunused : (p.allocations 0).ptr = 0 := by rw [hblank]
  obtain ⟨pages, hk', -⟩ := processFree_null hp (by decide) hunused hrun
  have hheap : k'.heap = heapFree dirtyKernel.heap 0 := by
    rw [hk']
    rfl
  have hentries := hsame.heap
  rw [hheap, heapFree_null_iff] at hentries
  exact dirtyKernel_not_nullIsFree hentries

/-! Allocating. -/

/-- The request gets nothing, or a run of blocks of the heap that were free. -/
def Heap.GivesFreeRun (heap : Heap) (size : Nat) : Prop :=
  (heapMalloc heap size).1 = 0 ∨
    heap.blockOf (heapMalloc heap size).1 + blocksFor size ≤ heap.table.totalEntries ∧
      ∀ i, heap.blockOf (heapMalloc heap size).1 ≤ i →
        i < heap.blockOf (heapMalloc heap size).1 + blocksFor size →
          heap.table.entries i = heapBlockTableEntryFree

theorem processFindFreeAllocationIndexLoop_first {p : Process} (count i : Nat) {j : Nat}
    (h : processFindFreeAllocationIndexLoop p count i = (j : Int)) :
    i ≤ j ∧ j < i + count ∧ (p.allocations j).ptr = 0 ∧
      ∀ l, i ≤ l → l < j → (p.allocations l).ptr ≠ 0 := by
  induction count generalizing i with
  | zero =>
    unfold processFindFreeAllocationIndexLoop at h
    have hneg : -enomem < 0 := by decide
    omega
  | succ count ih =>
    unfold processFindFreeAllocationIndexLoop at h
    by_cases hfree : (p.allocations i).ptr = 0
    · rw [if_pos hfree] at h
      have hij : i = j := by omega
      subst hij
      exact ⟨le_refl i, by omega, hfree, fun l hlow hhigh => by omega⟩
    · rw [if_neg hfree] at h
      obtain ⟨hlow, hhigh, hptr, hbefore⟩ := ih (i + 1) h
      refine ⟨by omega, by omega, hptr, fun l hl hl' => ?_⟩
      by_cases hli : l = i
      · rwa [hli]
      · exact hbefore l (by omega) hl'

theorem Heap.Placed.address_ne_zero {heap : Heap} (h : heap.Placed) {b : Int} (hlow : 0 ≤ b)
    (hhigh : b < heap.table.totalEntries) : heapBlockToAddress heap b ≠ 0 := by
  have hpositive := h.positive
  obtain ⟨hblock, heq⟩ := h.isBlock hlow hhigh
  have haddress := hblock.address
  rw [heq] at haddress
  omega

theorem Heap.GivesFreeRun.cases {heap : Heap} (h : heap.Placed) {size : Nat} (hlow : 1 ≤ size)
    (hsize : size < 4294967296) (hgives : heap.GivesFreeRun size) :
    heapMalloc heap size = (0, heap) ∨ size ≤ 0xFFFFF000 ∧ ∃ b : Int, 0 ≤ b ∧
      b + blocksFor size ≤ heap.table.totalEntries ∧
      (∀ i, b ≤ i → i < b + blocksFor size → heap.table.entries i = heapBlockTableEntryFree) ∧
      heapMalloc heap size =
        (heapBlockToAddress heap b, heapMarkBlocksTaken heap b (blocksFor size)) := by
  have hspan := h.span
  have hgiven : ∀ (b : Int) (heap' : Heap), 0 ≤ b → b < heap.table.totalEntries →
      heapMalloc heap size = (heapBlockToAddress heap b, heap') →
      b + blocksFor size ≤ heap.table.totalEntries ∧
        ∀ i, b ≤ i → i < b + blocksFor size → heap.table.entries i = heapBlockTableEntryFree := by
    intro b heap' hb hb' heq
    unfold Heap.GivesFreeRun at hgives
    rw [heq] at hgives
    have hrun := hgives.resolve_left (h.address_ne_zero hb hb')
    rwa [(h.isBlock hb hb').2] at hrun
  by_cases hround : 0xFFFFF000 < size
  · have hint : heap.table.totalEntries < 2147483648 := by omega
    rcases heapMalloc_rounded hint hsize (Or.inr hround) with hnone | ⟨b, hb, hb', -, heq⟩
    · exact Or.inl hnone
    · obtain ⟨hroom, -⟩ := hgiven b heap hb hb' heq
      unfold blocksFor at hroom
      omega
  · have hpos := blocksFor_pos hlow
    rcases heapMalloc_cases (by omega : heap.table.totalEntries < 1048576) hlow (by omega) with
      ⟨b, hb, hroom, -, heq⟩ | ⟨b, hb, hshort, hb', -, -, heq⟩ | ⟨-, -, heq⟩
    · obtain ⟨-, hfree⟩ := hgiven b _ hb (by omega) heq
      exact Or.inr ⟨by omega, b, hb, hroom, hfree, heq⟩
    · obtain ⟨hroom, -⟩ := hgiven b _ hb hb' heq
      omega
    · exact Or.inl heq

/-- The pages of the allocation are mapped to themselves, for the program to read and write, and
no other page of the directory changed. -/
structure AllocationMapped (s s' : PageStore) (directory ptr size : Nat) : Prop where
  mapped : ∀ page < 4294967296, page % 4096 = 0 → ptr ≤ page → page < ptr + 4096 * blocksFor size →
    pagingGet s' directory page =
      .ok (page ||| (pagingIsWritable ||| pagingIsPresent ||| pagingAccessFromAll))
  others : ∀ page < 4294967296, page % 4096 = 0 →
    ¬ (ptr ≤ page ∧ page < ptr + 4096 * blocksFor size) →
    pagingGet s' directory page = pagingGet s directory page

structure MallocRefused (process : Nat) (k k' : Kernel) : Prop where
  heap : k'.heap.table.entries = k.heap.table.entries
  pages : k'.pages = k.pages
  store : k'.scheduler.store process = k.scheduler.store process

/-- What `process_malloc` leaves when it returns a pointer: it is entered in the lowest unused entry
and mapped. -/
structure MallocServed (process size : Nat) (p : Process) (directory : Nat) (k k' : Kernel)
    (ptr : Nat) : Prop where
  entered : ∃ i, IsLeast {i | i < boiosMaxProgramAllocations ∧ (p.allocations i).ptr = 0} i ∧
    k'.scheduler.store process = some { p with
      allocations := Function.update p.allocations i ⟨ptr, size⟩ }
  mapped : AllocationMapped k.pages k'.pages directory ptr size

theorem kmalloc_of_heapMalloc {k : Kernel} {size ptr : Nat} {heap : Heap}
    (h : heapMalloc k.heap size = (ptr, heap)) : kmalloc size k = .ok (ptr, { k with heap }) := by
  unfold kmalloc
  rw [h]

/-- A request that gets nothing or a run of free blocks returns: null exactly if it gets nothing or no
entry is unused. Failing it changed nothing, else the allocation is entered and mapped. -/
theorem process_malloc_exact {process size directory : Nat} {tables : Nat → Nat} {p : Process}
    {task : Task} {k : Kernel} (hheap : k.heap.Placed) (hsize : 1 ≤ size)
    (hsize' : size < 4294967296) (hgives : k.heap.GivesFreeRun size)
    (hp : k.scheduler.store process = some p)
    (htask : k.scheduler.tasks.store p.task = some task)
    (hchunk : k.pages.chunks task.pageDirectory = some directory)
    (hdir : IsDirectory k.pages directory tables) :
    ∃ ptr k', processMalloc process size k = .ok (ptr, k') ∧
      (ptr = 0 ↔ (heapMalloc k.heap size).1 = 0 ∨
        ∀ i < boiosMaxProgramAllocations, (p.allocations i).ptr ≠ 0) ∧
      (ptr = 0 → MallocRefused process k k') ∧
      (ptr ≠ 0 → MallocServed process size p directory k k' ptr) := by
  rcases hgives.cases hheap hsize hsize' with hnone | ⟨hround, b, hb, hroom, hfree, heq⟩
  · have halloc : kzalloc size k = .ok (0, k) := by
      unfold kzalloc
      rw [bind_of_ok (kmalloc_of_heapMalloc hnone), if_pos rfl]
      rfl
    refine ⟨0, k, ?_, iff_of_true rfl (Or.inl (by rw [hnone])), fun _ => ⟨rfl, rfl, rfl⟩,
      fun hne => absurd rfl hne⟩
    unfold processMalloc
    rw [bind_of_ok halloc, if_pos rfl]
    rfl
  have hspan := hheap.span
  have hfits := hheap.fits
  have hpos := blocksFor_pos hsize
  have hlast : b < k.heap.table.totalEntries := by omega
  obtain ⟨hblock, hindex⟩ := hheap.isBlock hb hlast
  have hptr := hheap.address_ne_zero hb hlast
  have haddress := hblock.address
  rw [hindex] at haddress
  generalize hat : heapBlockToAddress k.heap b = ptr at *
  let k₁ : Kernel := { k with
    heap := heapMarkBlocksTaken k.heap b (blocksFor size), memory := k.memory.clear ptr size }
  have halloc : kzalloc size k = .ok (ptr, k₁) := by
    unfold kzalloc
    rw [bind_of_ok (kmalloc_of_heapMalloc heq), if_neg hptr, if_neg (by omega)]
    rfl
  -- a free of what was obtained puts the table back
  have hundone : (heapFree k₁.heap ptr).table.entries = k.heap.table.entries := by
    have hback : heapAddressToBlock k₁.heap ptr = b := by
      rw [← hat]
      exact hheap.addressToBlock hb hlast
    rw [heapFree, hback]
    exact heapMarkBlocksFree_heapMarkBlocksTaken hb (by omega) hroom (by omega) hfree
  unfold processMalloc
  rw [bind_of_ok halloc, if_neg hptr, bind_of_ok (get_apply k₁),
    bind_of_ok (fetch_eq_ok.mpr ⟨hp, rfl⟩)]
  rcases processFindFreeAllocationIndex_spec p with ⟨hindex, hfull⟩ | ⟨i, hindex, -, -⟩
  · rw [hindex, if_pos (by decide), bind_of_ok (kfree_apply ..)]
    exact ⟨0, _, rfl, iff_of_true rfl (Or.inr hfull), fun _ => ⟨hundone, rfl, rfl⟩,
      fun hne => absurd rfl hne⟩
  · have hfirst := processFindFreeAllocationIndexLoop_first _ 0 hindex
    obtain ⟨-, hi, hunused, hbefore⟩ := hfirst
    obtain ⟨pages, hmap, -, -, -, hget⟩ := processMapAllocation_get hdir hchunk
      (pagingIsWritable ||| pagingIsPresent ||| pagingAccessFromAll)
      (by have haligned := hheap.aligned; omega : ptr % 4096 = 0)
      (by omega : ptr + 4096 * blocksFor size < 4294967296)
    have hpaging : pagingRun (processMapAllocation task.pageDirectory ⟨ptr, size⟩
        (pagingIsWritable ||| pagingIsPresent ||| pagingAccessFromAll)) k₁ =
        .ok (0, { k₁ with pages }) := pagingRun_of_ok hmap
    rw [hindex, if_neg (by omega), bind_of_ok (fetch_eq_ok.mpr ⟨htask, rfl⟩), bind_of_ok hpaging,
      if_neg (by decide)]
    refine ⟨ptr, _, rfl, iff_of_false hptr ?_, fun hzero => absurd hzero hptr,
      fun _ => ⟨⟨i, ⟨⟨by omega, hunused⟩, ?_⟩, Function.update_self ..⟩, ?_⟩⟩
    · rintro (hnull | hfull)
      · rw [heq] at hnull
        exact hptr hnull
      · exact hfull i (by omega) hunused
    · rintro l ⟨hl, hlunused⟩
      by_contra hlt
      exact hbefore l (Nat.zero_le l) (by omega) hlunused
    · refine ⟨fun page hpage haligned hlow hhigh => ?_, fun page hpage haligned hout => ?_⟩
      · exact (hget page hpage haligned).trans (if_pos ⟨hlow, hhigh⟩)
      · exact (hget page hpage haligned).trans (if_neg hout)

theorem oneProgramKernel_gives : oneProgramKernel.heap.GivesFreeRun 100 := by
  refine Or.inr ⟨by decide +kernel, fun i hlow hhigh => ?_⟩
  have hfirst : oneProgramKernel.heap.blockOf (heapMalloc oneProgramKernel.heap 100).1 = 5 := by
    decide +kernel
  rw [hfirst] at hlow
  exact if_neg (by omega)

theorem process_malloc_exact_oneProgram : ∃ (p : Process) (ptr : Nat) (k' : Kernel),
    processMalloc 0x3000 100 oneProgramKernel = .ok (ptr, k') ∧ ptr ≠ 0 ∧
      MallocServed 0x3000 100 p 0x6000 oneProgramKernel k' ptr := by
  obtain ⟨ptr, k', hrun, hnull, -, hserved⟩ := process_malloc_exact
    ⟨by decide, by decide, by decide, by decide⟩ (by decide) (by decide) oneProgramKernel_gives rfl
    rfl rfl oneProgramKernel_isDirectory
  have hgot : (heapMalloc oneProgramKernel.heap 100).1 ≠ 0 := by decide +kernel
  have hptr : ptr ≠ 0 := by
    intro hzero
    rcases hnull.mp hzero with hnone | hfull
    · exact hgot hnone
    · exact hfull 0 (by decide) rfl
  exact ⟨_, ptr, k', hrun, hptr, hserved hptr⟩

end BoiOS
