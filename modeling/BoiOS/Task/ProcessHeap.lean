import BoiOS.Memory.Paging

/-! The memory that programs ask for at run time: `process_malloc` and `process_free` of
task/process.c and the two system calls of isr80h/heap.c. -/
namespace BoiOS
open Library.StateRun

def processFindFreeAllocationIndexLoop (p : Process) : (count i : Nat) → Int
  | 0, _ => -enomem
  | count + 1, i =>
      if (p.allocations i).ptr = 0 then i else processFindFreeAllocationIndexLoop p count (i + 1)

def processFindFreeAllocationIndex (p : Process) : Int :=
  processFindFreeAllocationIndexLoop p boiosMaxProgramAllocations 0

def processGetAllocationByAddrLoop (p : Process) (addr : Nat) :
    (count i : Nat) → Option ProcessAllocation
  | 0, _ => none
  | count + 1, i =>
      if (p.allocations i).ptr = addr then some (p.allocations i)
      else processGetAllocationByAddrLoop p addr count (i + 1)

def processGetAllocationByAddr (p : Process) (addr : Nat) : Option ProcessAllocation :=
  processGetAllocationByAddrLoop p addr boiosMaxProgramAllocations 0

/-- Every allocation with the pointer is cleared. -/
def processAllocationUnjoin (p : Process) (ptr : Nat) : Process :=
  { p with
    allocations := fun i =>
      if i < boiosMaxProgramAllocations ∧ (p.allocations i).ptr = ptr then ⟨0, 0⟩
      else p.allocations i }

def putProcess (process : Nat) (p : Process) (k : Kernel) : Kernel :=
  { k with
    scheduler := { k.scheduler with
      store := Function.update k.scheduler.store process (some p) } }

@[simp] theorem putProcess_store_self (process : Nat) (p : Process) (k : Kernel) :
    (putProcess process p k).scheduler.store process = some p :=
  Function.update_self ..

theorem putProcess_store_of_ne {process other : Nat} (h : other ≠ process) (p : Process)
    (k : Kernel) : (putProcess process p k).scheduler.store other = k.scheduler.store other :=
  Function.update_of_ne h _ _

/-- The pages from the pointer of an allocation to its rounded end, mapped to themselves. -/
def processMapAllocation (chunk : Nat) (allocation : ProcessAllocation) (flags : Nat)
    (s : PageStore) : Except Stop (Int × PageStore) :=
  pagingMapTo s chunk allocation.ptr allocation.ptr
    (pagingAlignAddress (u32 ((allocation.ptr : Int) + allocation.size))) flags

def processMalloc (process size : Nat) : KernelM Nat := do
  let ptr ← kzalloc size
  if ptr = 0 then pure 0
  else do
    let k ← get
    let p ← fetch (k.scheduler.store process)
    let index := processFindFreeAllocationIndex p
    if index < 0 then do
      kfree ptr
      pure 0
    else do
      let task ← fetch (k.scheduler.tasks.store p.task)
      let res ← pagingRun (processMapAllocation task.pageDirectory ⟨ptr, size⟩
        (pagingIsWritable ||| pagingIsPresent ||| pagingAccessFromAll))
      if res < 0 then do
        kfree ptr
        pure 0
      else do
        modify (putProcess process { p with
          allocations := Function.update p.allocations index.toNat ⟨ptr, size⟩ })
        pure ptr

def processFree (process ptr : Nat) : KernelM Unit := do
  let k ← get
  let p ← fetch (k.scheduler.store process)
  match processGetAllocationByAddr p ptr with
  | none => pure ()
  | some allocation => do
      let task ← fetch (k.scheduler.tasks.store p.task)
      let res ← pagingRun (processMapAllocation task.pageDirectory allocation 0)
      if res < 0 then pure ()
      else do
        modify (putProcess process (processAllocationUnjoin p ptr))
        kfree ptr

/-! The system calls; their argument is the word that the program left on its stack. -/

def isr80hCommand4Malloc (size : Nat) : KernelM Nat := do
  let k ← get
  let process ← fetch (taskCurrentProcess k.scheduler.tasks)
  processMalloc process size

def isr80hCommand5Free (ptrToFree : Nat) : KernelM Unit := do
  let k ← get
  let process ← fetch (taskCurrentProcess k.scheduler.tasks)
  processFree process ptrToFree

/-! What the searches find. -/

theorem processFindFreeAllocationIndexLoop_spec (p : Process) (count i : Nat) :
    (processFindFreeAllocationIndexLoop p count i = -enomem ∧
        ∀ j, i ≤ j → j < i + count → (p.allocations j).ptr ≠ 0) ∨
      ∃ j : Nat, processFindFreeAllocationIndexLoop p count i = j ∧ i ≤ j ∧ j < i + count ∧
        (p.allocations j).ptr = 0 := by
  induction count generalizing i with
  | zero => exact Or.inl ⟨rfl, by omega⟩
  | succ count ih =>
    unfold processFindFreeAllocationIndexLoop
    by_cases hfree : (p.allocations i).ptr = 0
    · rw [if_pos hfree]
      exact Or.inr ⟨i, rfl, le_refl i, by omega, hfree⟩
    · rw [if_neg hfree]
      rcases ih (i + 1) with ⟨hres, hall⟩ | ⟨j, hres, hlow, hhigh, hzero⟩
      · refine Or.inl ⟨hres, fun j hlow hhigh => ?_⟩
        by_cases hj : j = i
        · rwa [hj]
        · exact hall j (by omega) (by omega)
      · exact Or.inr ⟨j, hres, by omega, by omega, hzero⟩

theorem processFindFreeAllocationIndex_spec (p : Process) :
    (processFindFreeAllocationIndex p = -enomem ∧
        ∀ j < boiosMaxProgramAllocations, (p.allocations j).ptr ≠ 0) ∨
      ∃ j : Nat, processFindFreeAllocationIndex p = j ∧ j < boiosMaxProgramAllocations ∧
        (p.allocations j).ptr = 0 := by
  rcases processFindFreeAllocationIndexLoop_spec p boiosMaxProgramAllocations 0 with
    ⟨hres, hall⟩ | ⟨j, hres, _, hhigh, hzero⟩
  · exact Or.inl ⟨hres, fun j hj => hall j (Nat.zero_le j) (by omega)⟩
  · exact Or.inr ⟨j, hres, by omega, hzero⟩

theorem processGetAllocationByAddrLoop_some {p : Process} {addr count i : Nat}
    {allocation : ProcessAllocation}
    (h : processGetAllocationByAddrLoop p addr count i = some allocation) :
    ∃ j, i ≤ j ∧ j < i + count ∧ p.allocations j = allocation ∧ allocation.ptr = addr := by
  induction count generalizing i with
  | zero => simp [processGetAllocationByAddrLoop] at h
  | succ count ih =>
    unfold processGetAllocationByAddrLoop at h
    split_ifs at h with haddr
    · rw [Option.some.injEq] at h
      exact ⟨i, le_refl i, by omega, h, by rw [← h, haddr]⟩
    · obtain ⟨j, hlow, hhigh, hrest⟩ := ih h
      exact ⟨j, by omega, by omega, hrest⟩

theorem processGetAllocationByAddr_some {p : Process} {addr : Nat}
    {allocation : ProcessAllocation} (h : processGetAllocationByAddr p addr = some allocation) :
    ∃ j < boiosMaxProgramAllocations, p.allocations j = allocation ∧ allocation.ptr = addr := by
  obtain ⟨j, _, hhigh, hrest⟩ := processGetAllocationByAddrLoop_some h
  exact ⟨j, by omega, hrest⟩

def freeEntries (p : Process) : Finset Nat :=
  (Finset.range boiosMaxProgramAllocations).filter fun i => (p.allocations i).ptr = 0

theorem card_freeEntries_update {p p' : Process} {i ptr size : Nat}
    (hallocations : p'.allocations = Function.update p.allocations i ⟨ptr, size⟩) (hptr : ptr ≠ 0)
    (hi : i < boiosMaxProgramAllocations) (hunused : (p.allocations i).ptr = 0) :
    (freeEntries p').card + 1 = (freeEntries p).card := by
  have hmem : i ∈ freeEntries p := Finset.mem_filter.mpr ⟨Finset.mem_range.mpr hi, hunused⟩
  have herase : freeEntries p' = (freeEntries p).erase i := by
    unfold freeEntries
    ext j
    rw [Finset.mem_erase, Finset.mem_filter, Finset.mem_filter, hallocations]
    by_cases hj : j = i
    · subst hj
      rw [Function.update_self]
      exact ⟨fun h => absurd h.2 hptr, fun h => absurd rfl h.1⟩
    · rw [Function.update_of_ne hj]
      exact ⟨fun h => ⟨hj, h⟩, fun h => h.2⟩
  rw [herase]
  exact Finset.card_erase_add_one hmem

/-! What the two functions did when they return. -/

inductive ProcessMallocResult (process size : Nat) (k : Kernel) : Nat → Kernel → Prop
  | outOfMemory (hzero : (heapMalloc k.heap size).1 = 0) :
      ProcessMallocResult process size k 0 { k with heap := (heapMalloc k.heap size).2 }
  | noEntry (p : Process) (hptr : (heapMalloc k.heap size).1 ≠ 0)
      (hp : k.scheduler.store process = some p)
      (hfull : ∀ i < boiosMaxProgramAllocations, (p.allocations i).ptr ≠ 0) :
      ProcessMallocResult process size k 0 { k with
        heap := heapFree (heapMalloc k.heap size).2 (heapMalloc k.heap size).1
        memory := k.memory.clear (heapMalloc k.heap size).1 size }
  | unmapped (p : Process) (task : Task) (res : Int) (pages : PageStore)
      (hptr : (heapMalloc k.heap size).1 ≠ 0) (hp : k.scheduler.store process = some p)
      (htask : k.scheduler.tasks.store p.task = some task)
      (hmap : processMapAllocation task.pageDirectory ⟨(heapMalloc k.heap size).1, size⟩
        (pagingIsWritable ||| pagingIsPresent ||| pagingAccessFromAll) k.pages = .ok (res, pages))
      (hres : res < 0) :
      ProcessMallocResult process size k 0 { k with
        heap := heapFree (heapMalloc k.heap size).2 (heapMalloc k.heap size).1
        memory := k.memory.clear (heapMalloc k.heap size).1 size
        pages }
  | entered (p : Process) (task : Task) (res : Int) (pages : PageStore) (index : Nat)
      (hptr : (heapMalloc k.heap size).1 ≠ 0) (hp : k.scheduler.store process = some p)
      (htask : k.scheduler.tasks.store p.task = some task)
      (hmap : processMapAllocation task.pageDirectory ⟨(heapMalloc k.heap size).1, size⟩
        (pagingIsWritable ||| pagingIsPresent ||| pagingAccessFromAll) k.pages = .ok (res, pages))
      (hres : 0 ≤ res) (hindex : index < boiosMaxProgramAllocations)
      (hfree : (p.allocations index).ptr = 0) :
      ProcessMallocResult process size k (heapMalloc k.heap size).1
        (putProcess process { p with
          allocations :=
            Function.update p.allocations index ⟨(heapMalloc k.heap size).1, size⟩ }
          { k with
            heap := (heapMalloc k.heap size).2
            memory := k.memory.clear (heapMalloc k.heap size).1 size
            pages })

theorem processMalloc_eq_ok {process size ptr : Nat} {k k' : Kernel}
    (h : processMalloc process size k = .ok (ptr, k')) :
    ProcessMallocResult process size k ptr k' := by
  unfold processMalloc at h
  obtain ⟨ptr₁, k₁, halloc, h⟩ := bind_eq_ok.mp h
  obtain ⟨hptr₁, hk₁⟩ := kzalloc_eq_ok halloc
  by_cases hzero : ptr₁ = 0
  · rw [if_pos hzero] at h
    obtain ⟨rfl, rfl⟩ := pure_eq_ok.mp h
    rw [if_pos hzero] at hk₁
    rw [hk₁]
    exact .outOfMemory (hptr₁.symm.trans hzero)
  · rw [if_neg hzero] at h hk₁
    rw [hptr₁] at hk₁ hzero h
    replace h := bind_get_eq_ok.mp h
    obtain ⟨p, hp, h⟩ := bind_fetch_eq_ok.mp h
    have hstore : k.scheduler.store process = some p := by
      rw [← hp, hk₁]
    rcases processFindFreeAllocationIndex_spec p with ⟨hindex, hfull⟩ | ⟨index, hindex, hlt, hfree⟩
    · rw [hindex, if_pos (by decide)] at h
      obtain ⟨_, k₂, hfreed, h⟩ := bind_eq_ok.mp h
      obtain ⟨rfl, rfl⟩ := pure_eq_ok.mp h
      rw [← modify_eq_ok.mp hfreed, hk₁]
      exact .noEntry p hzero hstore hfull
    · rw [hindex, if_neg (by omega)] at h
      obtain ⟨task, htask, h⟩ := bind_fetch_eq_ok.mp h
      obtain ⟨res, k₂, hmap, h⟩ := bind_eq_ok.mp h
      obtain ⟨pages, hmap, hk₂⟩ := pagingRun_eq_ok hmap
      rw [hk₁] at hmap hk₂ htask
      by_cases hneg : res < 0
      · rw [if_pos hneg] at h
        obtain ⟨_, k₃, hfreed, h⟩ := bind_eq_ok.mp h
        obtain ⟨rfl, rfl⟩ := pure_eq_ok.mp h
        rw [← modify_eq_ok.mp hfreed, hk₂]
        exact .unmapped p task res pages hzero hstore htask hmap hneg
      · rw [if_neg hneg] at h
        obtain ⟨_, k₃, hput, h⟩ := bind_eq_ok.mp h
        obtain ⟨rfl, rfl⟩ := pure_eq_ok.mp h
        rw [← modify_eq_ok.mp hput, hk₂]
        exact .entered p task res pages index hzero hstore htask hmap (by omega) hlt hfree

inductive ProcessFreeResult (process ptr : Nat) (k : Kernel) : Kernel → Prop
  | notFound : ProcessFreeResult process ptr k k
  | unmapped (p : Process) (task : Task) (i : Nat) (res : Int) (pages : PageStore)
      (hp : k.scheduler.store process = some p) (hi : i < boiosMaxProgramAllocations)
      (hptr : (p.allocations i).ptr = ptr)
      (htask : k.scheduler.tasks.store p.task = some task)
      (hmap : processMapAllocation task.pageDirectory (p.allocations i) 0 k.pages =
        .ok (res, pages)) (hres : res < 0) :
      ProcessFreeResult process ptr k { k with pages }
  | freed (p : Process) (task : Task) (i : Nat) (res : Int) (pages : PageStore)
      (hp : k.scheduler.store process = some p) (hi : i < boiosMaxProgramAllocations)
      (hptr : (p.allocations i).ptr = ptr)
      (htask : k.scheduler.tasks.store p.task = some task)
      (hmap : processMapAllocation task.pageDirectory (p.allocations i) 0 k.pages =
        .ok (res, pages)) (hres : 0 ≤ res) :
      ProcessFreeResult process ptr k
        (putProcess process (processAllocationUnjoin p ptr)
          { k with heap := heapFree k.heap ptr, pages })

theorem processFree_eq_ok {process ptr : Nat} {u : Unit} {k k' : Kernel}
    (h : processFree process ptr k = .ok (u, k')) : ProcessFreeResult process ptr k k' := by
  unfold processFree at h
  replace h := bind_get_eq_ok.mp h
  obtain ⟨p, hp, h⟩ := bind_fetch_eq_ok.mp h
  cases hfound : processGetAllocationByAddr p ptr with
  | none =>
    rw [hfound] at h
    obtain ⟨_, rfl⟩ := pure_eq_ok.mp h
    exact .notFound
  | some allocation =>
    rw [hfound] at h
    obtain ⟨i, hi, rfl, hptr⟩ := processGetAllocationByAddr_some hfound
    obtain ⟨task, htask, h⟩ := bind_fetch_eq_ok.mp h
    obtain ⟨res, k₁, hmap, h⟩ := bind_eq_ok.mp h
    obtain ⟨pages, hmap, hk₁⟩ := pagingRun_eq_ok hmap
    by_cases hneg : res < 0
    · rw [if_pos hneg] at h
      obtain ⟨_, rfl⟩ := pure_eq_ok.mp h
      rw [hk₁]
      exact .unmapped p task i res pages hp hi hptr htask hmap hneg
    · rw [if_neg hneg] at h
      obtain ⟨_, k₂, hput, h⟩ := bind_eq_ok.mp h
      unfold kfree at h
      rw [← modify_eq_ok.mp h, ← modify_eq_ok.mp hput, hk₁]
      exact .freed p task i res pages hp hi hptr htask hmap (by omega)

end BoiOS
