import BoiOS.Task.AllocationTable
import BoiOS.Task.ProcessLeak

/-! The allocations of at most a block that the running process makes. They always return, and the
process gets as many blocks as the heap has free ones and its table has unused entries. -/
namespace BoiOS
open Library.StateRun

/-- The running process has a page directory, and the heap holds the blocks of `P`. -/
structure Serving (caller : Nat) (P : Set Int) (k : Kernel) : Prop where
  current : taskCurrentProcess k.scheduler.tasks = some caller
  guards : k.heap.Guards P
  mapped : ∃ p task directory tables, k.scheduler.store caller = some p ∧
    k.scheduler.tasks.store p.task = some task ∧
    k.pages.chunks task.pageDirectory = some directory ∧ IsDirectory k.pages directory tables

def unusedEntries (caller : Nat) (k : Kernel) : Finset Nat :=
  (Finset.range boiosMaxProgramAllocations).filter fun i => (k.allocation caller i).ptr = 0

/-- The number of blocks that the process can still get. -/
def capacity (caller : Nat) (k : Kernel) : Nat := min k.heap.freeBlocks (unusedEntries caller k).card

structure TakesBlockOf (caller : Nat) (P : Set Int) (k k' : Kernel) (ptr : Nat) : Prop where
  nonnull : ptr ≠ 0
  block : k'.heap.IsBlock ptr
  new : k'.heap.blockOf ptr ∉ P
  blocks : ∀ q, k.heap.IsBlock q → k'.heap.IsBlock q
  serving : Serving caller (insert (k'.heap.blockOf ptr) P) k'
  capacity : capacity caller k' + 1 = capacity caller k

variable {caller : Nat} {P : Set Int}

theorem unusedEntries_of_store {k : Kernel} {p : Process} (hp : k.scheduler.store caller = some p) :
    unusedEntries caller k = freeEntries p := by
  unfold unusedEntries freeEntries
  simp only [Kernel.allocation_of_store hp]

def pagingUserPage : Nat := pagingIsWritable ||| pagingIsPresent ||| pagingAccessFromAll

/-- The process has a page directory, and the heap holds the blocks of `P`. Those of `M` are mapped to
themselves. -/
structure Owning (process : Nat) (P M : Set Int) (k : Kernel) : Prop where
  guards : k.heap.Guards P
  mapped : ∃ p task directory tables, k.scheduler.store process = some p ∧
    k.scheduler.tasks.store p.task = some task ∧
    k.pages.chunks task.pageDirectory = some directory ∧ IsDirectory k.pages directory tables ∧
    ∀ ptr, k.heap.BlockIn M ptr → pagingGet k.pages directory ptr = .ok (ptr ||| pagingUserPage)

structure MallocKept (process : Nat) (P : Set Int) (k k' : Kernel) : Prop where
  start : k'.heap.startAddress = k.heap.startAddress
  total : k'.heap.table.totalEntries = k.heap.table.totalEntries
  memory : k.SameMemory P k'
  tasks : k'.scheduler.tasks = k.scheduler.tasks
  task : (k'.scheduler.store process).map Process.task = (k.scheduler.store process).map Process.task
  disk : k'.disk = k.disk
  null : k.NullFree → k'.NullFree

structure Obtains (process : Nat) (P M : Set Int) (k k' : Kernel) (ptr : Nat) : Prop where
  nonnull : ptr ≠ 0
  block : k'.heap.IsBlock ptr
  new : k'.heap.blockOf ptr ∉ P
  owning : Owning process (insert (k'.heap.blockOf ptr) P) (insert (k'.heap.blockOf ptr) M) k'
  capacity : capacity process k' + 1 = capacity process k

variable {process : Nat} {M : Set Int}

theorem Owning.congr {k k' : Kernel} (h : Owning process P M k) (hguards : k'.heap.Guards P)
    (hstart : k'.heap.startAddress = k.heap.startAddress)
    (htotal : k'.heap.table.totalEntries = k.heap.table.totalEntries)
    (hscheduler : k'.scheduler = k.scheduler) (hpages : k'.pages = k.pages) :
    Owning process P M k' := by
  obtain ⟨p, task, directory, tables, hp, htask, hchunk, hdir, hin⟩ := h.mapped
  refine ⟨hguards, p, task, directory, tables, by rw [hscheduler, hp], by rw [hscheduler, htask],
    by rw [hpages, hchunk], by rwa [hpages], fun ptr hptr => ?_⟩
  rw [hpages]
  exact hin ptr (hptr.congr hstart.symm htotal.symm)

theorem Owning.mono {P' M' : Set Int} {k : Kernel} (h : Owning process P M k) (hP : P' ⊆ P)
    (hM : M' ⊆ M) : Owning process P' M' k := by
  obtain ⟨p, task, directory, tables, hp, htask, hchunk, hdir, hin⟩ := h.mapped
  exact ⟨h.guards.mono hP, p, task, directory, tables, hp, htask, hchunk, hdir,
    fun ptr hptr => hin ptr (hptr.mono hM)⟩

theorem MapFrame.nullArray {s s' : PageStore} {directory : Nat} {tables : Nat → Nat}
    (h : MapFrame directory tables s s') (hdir : IsDirectory s directory tables)
    (hnull : s.arrays 0 = none) : s'.arrays 0 = none := by
  rw [h.arrays 0, hnull]
  intro i hi heq
  obtain ⟨entries, hentries⟩ := hdir.present i hi
  rw [← heq, hnull] at hentries
  cases hentries

theorem Owning.processMalloc {k : Kernel} (h : Owning process P M k) {size : Nat} (hlow : 1 ≤ size)
    (hhigh : size ≤ 4096) : ∃ ptr k', BoiOS.processMalloc process size k = .ok (ptr, k') ∧
      MallocKept process P k k' ∧ (ptr = 0 ∧ capacity process k = 0 ∧ Owning process P M k' ∨
        Obtains process P M k k' ptr) := by
  have hwf := h.guards.wellFormed
  obtain ⟨ptr, k₁, halloc, -⟩ := kzalloc_small hwf hlow hhigh
  obtain ⟨hserved, hcount⟩ := kzalloc_served_iff hwf hlow hhigh halloc
  obtain ⟨hobtained, hk₁⟩ := kzalloc_obtained h.guards (by omega) halloc
  have hmemory := kzalloc_memory h.guards hhigh halloc
  have hscheduler : k₁.scheduler = k.scheduler := by rw [hk₁]
  have hpages : k₁.pages = k.pages := by rw [hk₁]
  have hdisk : k₁.disk = k.disk := by rw [hk₁]
  have hnull : k.NullFree → k₁.NullFree := by
    intro hnull
    rw [hk₁]
    exact ⟨hnull.items, hnull.elfFiles, hnull.arrays⟩
  obtain ⟨p, task, directory, tables, hp, htask, hchunk, hdir, hin⟩ := h.mapped
  unfold BoiOS.processMalloc
  rw [bind_of_ok halloc]
  by_cases hptr : ptr = 0
  · have hnone : k.heap.freeBlocks = 0 := by
      by_contra hfree
      exact hserved.mpr (Nat.pos_of_ne_zero hfree) hptr
    rw [if_pos hptr]
    refine ⟨0, k₁, rfl, ⟨hobtained.start, hobtained.total, hmemory, by rw [hscheduler],
      by rw [hscheduler], hdisk, hnull⟩, .inl ⟨rfl, ?_,
      h.congr hobtained.guards hobtained.start hobtained.total hscheduler hpages⟩⟩
    unfold BoiOS.capacity
    rw [hnone, Nat.zero_min]
  · obtain ⟨hblock, hnew, hguards⟩ := kzalloc_new h.guards hlow (by omega) halloc hptr
    rw [← hscheduler] at hp htask
    rw [← hpages] at hchunk hdir
    rw [if_neg hptr, bind_of_ok (get_apply k₁), bind_of_ok (fetch_eq_ok.mpr ⟨hp, rfl⟩)]
    rcases processFindFreeAllocationIndex_spec p with ⟨hindex, hfull⟩ | ⟨i, hindex, hi, hunused⟩
    · have hnone : unusedEntries process k = ∅ := by
        rw [unusedEntries_of_store (hscheduler ▸ hp)]
        exact Finset.filter_eq_empty_iff.mpr fun i hi => hfull i (Finset.mem_range.mp hi)
      have hfreed := hobtained.guards.heapFree (kzalloc_freeable h.guards (by omega) halloc)
      have hstart := (heapFree_startAddress k₁.heap ptr).trans hobtained.start
      have htotal := (heapFree_totalEntries k₁.heap ptr).trans hobtained.total
      rw [hindex, if_pos (by decide), bind_of_ok (kfree_apply ..)]
      refine ⟨0, _, rfl, ⟨hstart, htotal, fun x hx hP => hmemory x hx hP, by dsimp only; rw [hscheduler],
        by dsimp only; rw [hscheduler], hdisk, fun hfree => ?_⟩, .inl ⟨rfl, ?_,
        h.congr hfreed hstart htotal hscheduler hpages⟩⟩
      · have hnull₁ := hnull hfree
        exact ⟨hnull₁.items, hnull₁.elfFiles, hnull₁.arrays⟩
      · unfold BoiOS.capacity
        rw [hnone, Finset.card_empty, Nat.min_zero]
    · have hone : blocksFor size = 1 := by
        unfold blocksFor
        omega
      have hwf₁ := hguards.wellFormed
      have haligned := hblock.aligned hwf₁
      have hbelow := hwf₁.below
      have haddress := hblock.address
      have hlast := hblock.high
      have hfirst := hblock.low
      obtain ⟨pages, hmap, hdir', hchunks, -, hget⟩ := processMapAllocation_get hdir hchunk
        (pagingIsWritable ||| pagingIsPresent ||| pagingAccessFromAll) haligned
        (by rw [hone]; omega : ptr + 4096 * blocksFor size < 4294967296)
      have hmapFrame := processMapAllocation_mapFrame htask (by dsimp only; omega) hmap
        task.pageDirectory directory tables (by rw [htask]; rfl) hchunk hdir
      rw [hindex, if_neg (by omega), bind_of_ok (fetch_eq_ok.mpr ⟨htask, rfl⟩),
        bind_of_ok (pagingRun_of_ok hmap), if_neg (by decide), Int.toNat_natCast]
      let p' : Process := { p with allocations := Function.update p.allocations i ⟨ptr, size⟩ }
      refine ⟨ptr, _, rfl, ⟨hobtained.start, hobtained.total, fun x hx hP => hmemory x hx hP,
        by rw [← hscheduler]; rfl, ?_, hdisk, fun hfree => ?_⟩,
        .inr ⟨hptr, hblock, hnew, ⟨hguards, p', task, directory, tables, putProcess_store_self ..,
          htask, ?_, hdir', fun q hq => ?_⟩, ?_⟩⟩
      · rw [putProcess_store_self, ← hscheduler, hp]
        rfl
      · have hnull₁ := hnull hfree
        exact ⟨hnull₁.items, hnull₁.elfFiles, hmapFrame.nullArray hdir hnull₁.arrays⟩
      · rw [← hchunk, ← hchunks]
        rfl
      · -- the new block, or one that was mapped before
        have hqblock : k₁.heap.IsBlock q := hq.block
        have hqaligned := hqblock.aligned hwf₁
        have hqaddress := hqblock.address
        have hqlast := hqblock.high
        have hqmem : k₁.heap.blockOf q ∈ insert (k₁.heap.blockOf ptr) M := hq.mem
        rw [show pagingGet (putProcess process p' { k₁ with pages }).pages directory q =
          pagingGet pages directory q from rfl, hget q (by omega) hqaligned, hone]
        by_cases hsame : q = ptr
        · rw [hsame, if_pos (by omega)]
          rfl
        · have hother : k₁.heap.blockOf q ≠ k₁.heap.blockOf ptr := by omega
          rw [if_neg (by omega), hpages]
          refine hin q ⟨hqblock.congr hobtained.start.symm hobtained.total.symm, ?_⟩
          rw [← Heap.blockOf_congr hobtained.start]
          exact (Set.mem_insert_iff.mp hqmem).resolve_left hother
      · have hentries : (unusedEntries process (putProcess process p' { k₁ with pages })).card + 1 =
            (unusedEntries process k).card := by
          rw [hscheduler] at hp
          rw [unusedEntries_of_store (putProcess_store_self ..), unusedEntries_of_store hp]
          exact card_freeEntries_update rfl hptr hi hunused
        have hblocks : k₁.heap.freeBlocks + 1 = k.heap.freeBlocks := hcount hptr
        unfold BoiOS.capacity
        rw [← hblocks, ← hentries]
        exact (Nat.add_min_add_right ..).symm

theorem Serving.owning {k : Kernel} (h : Serving caller P k) : Owning caller P ∅ k := by
  obtain ⟨p, task, directory, tables, hp, htask, hchunk, hdir⟩ := h.mapped
  exact ⟨h.guards, p, task, directory, tables, hp, htask, hchunk, hdir,
    fun ptr hptr => absurd hptr.mem (Set.notMem_empty _)⟩

theorem Owning.serving {k : Kernel} (h : Owning caller P M k)
    (hcurrent : taskCurrentProcess k.scheduler.tasks = some caller) : Serving caller P k := by
  obtain ⟨p, task, directory, tables, hp, htask, hchunk, hdir, -⟩ := h.mapped
  exact ⟨hcurrent, h.guards, p, task, directory, tables, hp, htask, hchunk, hdir⟩

theorem Serving.processMalloc {k : Kernel} (h : Serving caller P k) {size : Nat} (hlow : 1 ≤ size)
    (hhigh : size ≤ 4096) : ∃ ptr k', BoiOS.processMalloc caller size k = .ok (ptr, k') ∧
      MallocKept caller P k k' ∧ Serving caller P k' ∧
      (ptr = 0 ∧ capacity caller k = 0 ∨ TakesBlockOf caller P k k' ptr) := by
  obtain ⟨ptr, k', hrun, hkept, hserved⟩ := h.owning.processMalloc hlow hhigh
  have hcurrent : taskCurrentProcess k'.scheduler.tasks = some caller := by
    rw [hkept.tasks, h.current]
  refine ⟨ptr, k', hrun, hkept, ?_⟩
  rcases hserved with ⟨hnull, hfull, howning⟩ | hobtains
  · exact ⟨howning.serving hcurrent, .inl ⟨hnull, hfull⟩⟩
  · have hserving := hobtains.owning.serving hcurrent
    exact ⟨(hobtains.owning.mono (Set.subset_insert ..) (Set.subset_insert ..)).serving hcurrent,
      .inr ⟨hobtains.nonnull, hobtains.block, hobtains.new,
        fun q hq => hq.congr hkept.start hkept.total, hserving, hobtains.capacity⟩⟩

end BoiOS
