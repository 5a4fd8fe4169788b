import BoiOS.Memory.HeapRuns
import BoiOS.Memory.PagingSpec
import BoiOS.Task.ProcessHeap
import Mathlib.Data.List.Pairwise

/-! Runs of the malloc and free system calls by several programs. Each program owns the blocks of
its image, its stack and its allocations; the invariant keeps the heap table, the allocations and
the page directories in step. -/
namespace BoiOS
open Library.StateRun Library.Transition

/-- A live process, with what no system call of a run changes: its task, its page directory and
the blocks of its image and of its stack. -/
structure Program where
  process : Nat
  task : Nat
  chunk : Nat
  directory : Nat
  tables : Nat → Nat
  image : Int × Int
  stack : Int

inductive Region
  | image
  | stack
  | allocation (i : Nat)
  deriving DecidableEq

def Kernel.allocation (k : Kernel) (process i : Nat) : ProcessAllocation :=
  match k.scheduler.store process with
  | some p => p.allocations i
  | none => ⟨0, 0⟩

def Kernel.imageOf (k : Kernel) (p : Process) : Nat :=
  if p.filetype = processFileTypeElf then
    match k.elfFiles p.ptr with
    | some file => file.elfMemory
    | none => 0
  else p.ptr

namespace Program

/-- The region is the `n` blocks of the heap from `s` on. -/
def Owns (k : Kernel) (g : Program) : Region → Int → Int → Prop
  | .image, s, n => s = g.image.1 ∧ n = g.image.2
  | .stack, s, n => s = g.stack ∧ n = 4
  | .allocation i, s, n => i < boiosMaxProgramAllocations ∧ (k.allocation g.process i).ptr ≠ 0 ∧
      s = k.heap.blockOf (k.allocation g.process i).ptr ∧
      n = blocksFor (k.allocation g.process i).size

structure Runs (k : Kernel) (g : Program) : Prop where
  process : ∃ p, k.scheduler.store g.process = some p ∧ p.task = g.task ∧
    k.heap.blockOf (k.imageOf p) = g.image.1 ∧ k.heap.blockOf p.stack = g.stack
  task : ∃ task, k.scheduler.tasks.store g.task = some task ∧ task.process = g.process ∧
    task.pageDirectory = g.chunk
  chunk : k.pages.chunks g.chunk = some g.directory
  directory : IsDirectory k.pages g.directory g.tables

/-- Two programs share neither their process nor an array of their page directories. -/
structure Apart (g h : Program) : Prop where
  process : g.process ≠ h.process
  left : ApartFrom g.tables h.directory h.tables
  right : ApartFrom h.tables g.directory g.tables

instance : Std.Symm Apart := ⟨fun _ _ h => ⟨h.process.symm, h.right, h.left⟩⟩

end Program

def Heap.Has (heap : Heap) (address : Nat) : Prop :=
  heap.startAddress ≤ address ∧ address < heap.startAddress + 4096 * heap.table.totalEntries

/-- No program has a pointer twice, every allocation is backed by taken blocks, no two regions of
any programs share a block, and every page of the heap that a program may write is in a block that
it owns. -/
structure MemoryIsolated (programs : List Program) (k : Kernel) : Prop where
  once : ∀ g ∈ programs, ∀ i < boiosMaxProgramAllocations, ∀ j < boiosMaxProgramAllocations,
    (k.allocation g.process i).ptr ≠ 0 →
      (k.allocation g.process i).ptr = (k.allocation g.process j).ptr → i = j
  backed : ∀ g ∈ programs, ∀ i s n, g.Owns k (.allocation i) s n → 0 < n ∧ 0 ≤ s ∧
    s + n ≤ k.heap.table.totalEntries ∧ ∀ b, s ≤ b → b < s + n → ¬ k.heap.table.IsFree b
  exclusive : ∀ g ∈ programs, ∀ h ∈ programs, ∀ r q s n s' n', g.Owns k r s n →
    h.Owns k q s' n' → (g.process, r) ≠ (h.process, q) → s + n ≤ s' ∨ s' + n' ≤ s
  pages : ∀ g ∈ programs, ∀ page < 4294967296, page % 4096 = 0 → ∀ entry,
    pagingGet k.pages g.directory page = .ok entry → entry &&& 7 = 7 →
      k.heap.Has (pagingFrame entry) → ∃ r s n, g.Owns k r s n ∧
        s ≤ k.heap.blockOf (pagingFrame entry) ∧ k.heap.blockOf (pagingFrame entry) < s + n

/-- The invariant. A writable page of an allocation is mapped to itself, so that freeing the
allocation unmaps it; the blocks of images and stacks are taken. -/
structure UserMemory (programs : List Program) (k : Kernel) : Prop where
  aligned : k.heap.startAddress % 4096 = 0
  positive : 0 < k.heap.startAddress
  below : k.heap.startAddress + 4096 * k.heap.table.totalEntries < 4294967296
  small : k.heap.table.totalEntries < 524288
  runs : ∀ g ∈ programs, g.Runs k
  apart : programs.Pairwise Program.Apart
  once : ∀ g ∈ programs, ∀ i < boiosMaxProgramAllocations, ∀ j < boiosMaxProgramAllocations,
    (k.allocation g.process i).ptr ≠ 0 →
      (k.allocation g.process i).ptr = (k.allocation g.process j).ptr → i = j
  taken : ∀ g ∈ programs, ∀ r s n, g.Owns k r s n → 0 < n ∧ 0 ≤ s ∧
    s + n ≤ k.heap.table.totalEntries ∧ ∀ b, s ≤ b → b < s + n → ¬ k.heap.table.IsFree b
  chains : ∀ g ∈ programs, ∀ i s n, g.Owns k (.allocation i) s n → k.heap.table.Chain s n ∧
    (k.allocation g.process i).ptr = heapBlockToAddress k.heap s ∧
    (k.allocation g.process i).size ≤ 0xFFFFF000
  exclusive : ∀ g ∈ programs, ∀ h ∈ programs, ∀ r q s n s' n', g.Owns k r s n →
    h.Owns k q s' n' → (g.process, r) ≠ (h.process, q) → s + n ≤ s' ∨ s' + n' ≤ s
  pages : ∀ g ∈ programs, ∀ page < 4294967296, page % 4096 = 0 → ∀ entry,
    pagingGet k.pages g.directory page = .ok entry → entry &&& 7 = 7 →
      k.heap.Has (pagingFrame entry) → ∃ r s n, g.Owns k r s n ∧
        s ≤ k.heap.blockOf (pagingFrame entry) ∧ k.heap.blockOf (pagingFrame entry) < s + n ∧
        (∀ i, r = .allocation i → page = pagingFrame entry)

theorem UserMemory.isolated {programs : List Program} {k : Kernel} (h : UserMemory programs k) :
    MemoryIsolated programs k := by
  refine ⟨h.once, fun g hg i s n => h.taken g hg _ s n, h.exclusive, ?_⟩
  intro g hg page hpage haligned entry hget hflags hheap
  obtain ⟨r, s, n, howns, hlow, hhigh, _⟩ := h.pages g hg page hpage haligned entry hget hflags hheap
  exact ⟨r, s, n, howns, hlow, hhigh⟩

theorem UserMemory.eq_of_process {programs : List Program} {k : Kernel}
    (h : UserMemory programs k) {g g' : Program} (hg : g ∈ programs) (hg' : g' ∈ programs)
    (heq : g'.process = g.process) : g' = g := by
  by_contra hne
  exact (h.apart.forall hg' hg hne).process heq

/-! Mapping the pages of an allocation to themselves, or away. -/

theorem processMapAllocation_get {s : PageStore} {directory chunk : Nat} {tables : Nat → Nat}
    (hdir : IsDirectory s directory tables) (hchunk : s.chunks chunk = some directory)
    (flags : Nat) {ptr size : Nat} (hptr : ptr % 4096 = 0)
    (hroom : ptr + 4096 * blocksFor size < 4294967296) :
    ∃ s', processMapAllocation chunk ⟨ptr, size⟩ flags s = .ok (0, s') ∧
      IsDirectory s' directory tables ∧ s'.chunks = s.chunks ∧ KeepsOthers tables s s' ∧
      ∀ page < 4294967296, page % 4096 = 0 → pagingGet s' directory page =
        if ptr ≤ page ∧ page < ptr + 4096 * blocksFor size then .ok (page ||| flags)
        else pagingGet s directory page := by
  have hend : pagingAlignAddress (u32 ((ptr : Int) + size)) = ptr + 4096 * blocksFor size := by
    unfold blocksFor at hroom ⊢
    unfold pagingAlignAddress pagingPageSize u32
    split_ifs <;> omega
  obtain ⟨s', hmap, hdir', hchunks, hkeeps, hget⟩ := pagingMapTo_get hdir hchunk flags hptr
    (by omega) hptr (pagingAlignAddress_aligned (u32 ((ptr : Int) + size)))
    (pagingAlignAddress_lt (u32_lt _)) (by omega)
  refine ⟨s', hmap, hdir', hchunks, hkeeps, fun page hpage haligned => ?_⟩
  rw [hget page hpage haligned, hend]
  by_cases hin : ptr ≤ page ∧ page < ptr + 4096 * blocksFor size
  · have hoffset : u32 ((page : Int) - ptr) = page - ptr := by
      unfold u32
      omega
    rw [if_pos hin, if_pos (by omega), hoffset, Nat.add_sub_cancel' hin.1]
  · have hfar : ¬ u32 ((page : Int) - ptr) < ptr + 4096 * blocksFor size - ptr := by
      unfold u32
      omega
    rw [if_neg hin, if_neg hfar]

theorem page_or_zero_and (page : Nat) (h : page % 4096 = 0) : ¬ (page ||| 0) &&& 7 = 7 := by
  rw [Nat.or_zero, show 7 = 2 ^ 3 - 1 from rfl, Nat.and_two_pow_sub_one_eq_mod]
  omega

/-- A null pointer is mapped away together with the pages from 0 that its size covers. -/
theorem processMapAllocation_null {s : PageStore} {directory chunk : Nat} {tables : Nat → Nat}
    (hdir : IsDirectory s directory tables) (hchunk : s.chunks chunk = some directory)
    {a : ProcessAllocation} (ha : a.ptr = 0) :
    ∃ s', processMapAllocation chunk a 0 s = .ok (0, s') ∧
      IsDirectory s' directory tables ∧ s'.chunks = s.chunks ∧ KeepsOthers tables s s' ∧
      ∀ page < 4294967296, page % 4096 = 0 → ∀ entry, pagingGet s' directory page = .ok entry →
        entry &&& 7 = 7 → pagingGet s directory page = .ok entry := by
  obtain ⟨s', hmap, hdir', hchunks, hkeeps, hget⟩ := pagingMapTo_get hdir hchunk 0
    (rfl : 0 % 4096 = 0) (by omega) (rfl : 0 % 4096 = 0)
    (pagingAlignAddress_aligned (u32 (((0 : Nat) : Int) + a.size)))
    (pagingAlignAddress_lt (u32_lt _)) (Nat.zero_le _)
  refine ⟨s', ?_, hdir', hchunks, hkeeps, fun page hpage haligned entry hentry hflags => ?_⟩
  · unfold processMapAllocation
    rw [ha]
    exact hmap
  · rw [hget page hpage haligned] at hentry
    split_ifs at hentry with hin
    · have hunmapped : (0 + u32 ((page : Int) - (0 : Nat))) % 4096 = 0 := by
        unfold u32
        omega
      rw [Except.ok.injEq] at hentry
      rw [← hentry] at hflags
      exact absurd hflags (page_or_zero_and _ hunmapped)
    · exact hentry

/-! The two system calls keep the invariant. -/

theorem Kernel.allocation_of_store {k : Kernel} {process : Nat} {p : Process}
    (h : k.scheduler.store process = some p) (i : Nat) :
    k.allocation process i = p.allocations i := by
  unfold Kernel.allocation
  rw [h]

theorem Kernel.allocation_congr {k k' : Kernel} {process : Nat}
    (h : k'.scheduler.store process = k.scheduler.store process) (i : Nat) :
    k'.allocation process i = k.allocation process i := by
  unfold Kernel.allocation
  rw [h]

theorem Kernel.allocation_same {k k' : Kernel} {process : Nat}
    (h : k'.scheduler.store process = k.scheduler.store process) (i : Nat) :
    (k'.allocation process i).ptr = (k.allocation process i).ptr ∧
      ((k.allocation process i).ptr ≠ 0 → k'.allocation process i = k.allocation process i) := by
  rw [Kernel.allocation_congr h]
  exact ⟨rfl, fun _ => rfl⟩

/-- What a call must keep of the structures of the programs: only the allocations of one process
and the tables of its own directory may change. -/
structure SameSetting (g : Program) (k k' : Kernel) : Prop where
  start : k'.heap.startAddress = k.heap.startAddress
  total : k'.heap.table.totalEntries = k.heap.table.totalEntries
  chunks : k'.pages.chunks = k.pages.chunks
  elfFiles : k'.elfFiles = k.elfFiles
  tasks : k'.scheduler.tasks.store = k.scheduler.tasks.store
  others : ∀ process ≠ g.process, k'.scheduler.store process = k.scheduler.store process
  self : ∀ p, k.scheduler.store g.process = some p → ∃ p', k'.scheduler.store g.process = some p' ∧
    p'.task = p.task ∧ p'.filetype = p.filetype ∧ p'.ptr = p.ptr ∧ p'.stack = p.stack
  directory : IsDirectory k'.pages g.directory g.tables
  pages : KeepsOthers g.tables k.pages k'.pages

theorem SameSetting.blockOf {g : Program} {k k' : Kernel}
    (h : SameSetting g k k') (ptr : Nat) : k'.heap.blockOf ptr = k.heap.blockOf ptr := by
  unfold Heap.blockOf
  rw [h.start]

theorem SameSetting.heapBlockToAddress {g : Program} {k k' : Kernel}
    (h : SameSetting g k k') (b : Int) :
    heapBlockToAddress k'.heap b = BoiOS.heapBlockToAddress k.heap b := by
  unfold BoiOS.heapBlockToAddress
  rw [h.start]

theorem SameSetting.has_iff {g : Program} {k k' : Kernel}
    (h : SameSetting g k k') (address : Nat) :
    k'.heap.Has address ↔ k.heap.Has address := by
  unfold Heap.Has
  rw [h.start, h.total]

theorem SameSetting.runs {programs : List Program} {g : Program} {k k' : Kernel}
    (h : SameSetting g k k') (hk : UserMemory programs k) (hg : g ∈ programs) :
    ∀ g' ∈ programs, g'.Runs k' := by
  intro g' hg'
  have hold := hk.runs g' hg'
  obtain ⟨p, hp, htask, himage, hstack⟩ := hold.process
  by_cases heq : g' = g
  · rw [heq] at hp htask himage hstack hold ⊢
    obtain ⟨p', hp', htask', htype, hptr, hstack'⟩ := h.self p hp
    refine ⟨⟨p', hp', htask'.trans htask, ?_, ?_⟩, ?_, ?_, h.directory⟩
    · rw [h.blockOf, ← himage]
      unfold Kernel.imageOf
      rw [h.elfFiles, htype, hptr]
    · rw [h.blockOf, hstack', hstack]
    · rw [h.tasks]
      exact hold.task
    · rw [h.chunks]
      exact hold.chunk
  · have hapart := hk.apart.forall hg hg' (Ne.symm heq)
    refine ⟨⟨p, ?_, htask, ?_, ?_⟩, ?_, ?_, (h.pages _ _ hold.directory hapart.left).1⟩
    · rw [h.others _ hapart.process.symm]
      exact hp
    · rw [h.blockOf, ← himage]
      unfold Kernel.imageOf
      rw [h.elfFiles]
    · rw [h.blockOf, hstack]
    · rw [h.tasks]
      exact hold.task
    · rw [h.chunks]
      exact hold.chunk

theorem SameSetting.owns_iff {g : Program} {k k' : Kernel}
    (h : SameSetting g k k') {g' : Program} {r : Region}
    (hr : ∀ i, r = .allocation i → k'.allocation g'.process i = k.allocation g'.process i)
    (s n : Int) : g'.Owns k' r s n ↔ g'.Owns k r s n := by
  cases r with
  | image => rfl
  | stack => rfl
  | allocation i =>
    unfold Program.Owns
    dsimp only
    rw [hr i rfl, h.blockOf]

theorem SameSetting.allocation_other {g : Program} {k k' : Kernel} (h : SameSetting g k k')
    {process : Nat} (hne : process ≠ g.process) (i : Nat) :
    k'.allocation process i = k.allocation process i :=
  Kernel.allocation_congr (h.others process hne) i

theorem SameSetting.pagingGet_other {programs : List Program} {g g' : Program} {k k' : Kernel}
    (h : SameSetting g k k') (hk : UserMemory programs k) (hg : g ∈ programs)
    (hg' : g' ∈ programs) (hne : g' ≠ g) {page : Nat} (hpage : page < 4294967296) :
    pagingGet k'.pages g'.directory page = pagingGet k.pages g'.directory page := by
  have hapart := hk.apart.forall hg hg' (Ne.symm hne)
  exact (h.pages _ _ (hk.runs g' hg').directory hapart.left).2 page hpage

theorem SameSetting.bounds {programs : List Program} {g : Program} {k k' : Kernel}
    (h : SameSetting g k k') (hk : UserMemory programs k) :
    k'.heap.startAddress % 4096 = 0 ∧ 0 < k'.heap.startAddress ∧
      k'.heap.startAddress + 4096 * k'.heap.table.totalEntries < 4294967296 ∧
      k'.heap.table.totalEntries < 524288 := by
  rw [h.start, h.total]
  exact ⟨hk.aligned, hk.positive, hk.below, hk.small⟩

theorem UserMemory.apart_of_freeRun {programs : List Program} {k : Kernel}
    (hk : UserMemory programs k) {g : Program} (hg : g ∈ programs) {r : Region} {s n b m : Int}
    (howns : g.Owns k r s n) (hm : 0 < m) (hfree : k.heap.table.FreeRun b m) :
    s + n ≤ b ∨ b + m ≤ s := by
  obtain ⟨hpos, _, _, htaken⟩ := hk.taken g hg r s n howns
  by_contra hover
  push Not at hover
  exact htaken (max s b) (by omega) (by omega) (hfree (max s b) (by omega) (by omega))

theorem UserMemory.keep_heap {programs : List Program} {g : Program} {k k' : Kernel}
    (hk : UserMemory programs k) (hg : g ∈ programs) (hset : SameSetting g k k')
    (hallocation : ∀ process i, (k'.allocation process i).ptr = (k.allocation process i).ptr ∧
      ((k.allocation process i).ptr ≠ 0 → k'.allocation process i = k.allocation process i))
    (hpages : ∀ page < 4294967296, page % 4096 = 0 → ∀ entry,
      pagingGet k'.pages g.directory page = .ok entry → entry &&& 7 = 7 →
        pagingGet k.pages g.directory page = .ok entry)
    (htable : ∀ b : Int, 0 ≤ b → b < k.heap.table.totalEntries → ¬ k.heap.table.IsFree b →
      k'.heap.table.entries b = k.heap.table.entries b) : UserMemory programs k' := by
  have howns : ∀ (g' : Program) r s n, g'.Owns k' r s n ↔ g'.Owns k r s n := by
    intro g' r s n
    cases r with
    | image => rfl
    | stack => rfl
    | allocation i =>
      obtain ⟨hptr, hsame⟩ := hallocation g'.process i
      unfold Program.Owns
      dsimp only
      rw [hset.blockOf, hptr]
      by_cases hnull : (k.allocation g'.process i).ptr = 0
      · simp [hnull]
      · rw [hsame hnull]
  obtain ⟨haligned, hpositive, hbelow, hsmall⟩ := hset.bounds hk
  refine ⟨haligned, hpositive, hbelow, hsmall, hset.runs hk hg, hk.apart, ?_, ?_, ?_, ?_, ?_⟩
  · intro g' hg' i hi j hj
    rw [(hallocation g'.process i).1, (hallocation g'.process j).1]
    exact hk.once g' hg' i hi j hj
  · intro g' hg' r s n h
    obtain ⟨hpos, hlow, hroom, htaken⟩ := hk.taken g' hg' r s n ((howns g' r s n).mp h)
    rw [hset.total]
    refine ⟨hpos, hlow, hroom, fun b hb hb' => ?_⟩
    rw [HeapTable.isFree_congr (htable b (by omega) (by omega) (htaken b hb hb'))]
    exact htaken b hb hb'
  · intro g' hg' i s n h
    have hold := (howns g' (.allocation i) s n).mp h
    obtain ⟨_, hlow, hroom, htaken⟩ := hk.taken g' hg' _ s n hold
    obtain ⟨hchain, hptr, hsize⟩ := hk.chains g' hg' i s n hold
    rw [(hallocation g'.process i).2 hold.2.1, hset.heapBlockToAddress]
    exact ⟨hchain.congr fun b hb hb' => htable b (by omega) (by omega) (htaken b hb hb'),
      hptr, hsize⟩
  · intro g₁ hg₁ g₂ hg₂ r q s n s' n' h₁ h₂
    exact hk.exclusive g₁ hg₁ g₂ hg₂ r q s n s' n' ((howns g₁ r s n).mp h₁) ((howns g₂ q s' n').mp h₂)
  · intro g' hg' page hpage haligned entry hget hflags hheap
    have hget' : pagingGet k.pages g'.directory page = .ok entry := by
      by_cases heq : g' = g
      · rw [heq] at hget ⊢
        exact hpages page hpage haligned entry hget hflags
      · rw [← hset.pagingGet_other hk hg hg' heq hpage]
        exact hget
    obtain ⟨r, s, n, h, hrest⟩ := hk.pages g' hg' page hpage haligned entry hget' hflags
      ((hset.has_iff _).mp hheap)
    rw [← hset.blockOf] at hrest
    exact ⟨r, s, n, (howns g' r s n).mpr h, hrest⟩

theorem UserMemory.keep_table {programs : List Program} {g : Program} {k : Kernel} {heap : Heap}
    (hk : UserMemory programs k) (hg : g ∈ programs) (memory : Memory)
    (hstart : heap.startAddress = k.heap.startAddress)
    (htotal : heap.table.totalEntries = k.heap.table.totalEntries)
    (htable : ∀ b : Int, 0 ≤ b → b < k.heap.table.totalEntries → ¬ k.heap.table.IsFree b →
      heap.table.entries b = k.heap.table.entries b) :
    UserMemory programs { k with heap, memory } := by
  have hset : SameSetting g k { k with heap, memory } :=
    ⟨hstart, htotal, rfl, rfl, rfl, fun _ _ => rfl, fun p hp => ⟨p, hp, rfl, rfl, rfl, rfl⟩,
      (hk.runs g hg).directory, KeepsOthers.refl _ _⟩
  exact hk.keep_heap hg hset (fun _ _ => Kernel.allocation_same rfl _)
    (fun _ _ _ _ hget _ => hget) htable

theorem heapFree_null_entries {heap : Heap} (h : FreeOfNullStaysBelow heap) (b : Int)
    (hb : 0 ≤ b) : (heapFree heap 0).table.entries b = heap.table.entries b := by
  obtain ⟨j, hj, hlow, hstop⟩ := h
  rw [heapFree]
  exact heapMarkBlocksFree_after hlow hstop (by omega)

theorem heapBlockToAddress_of_room {heap : Heap} (hbelow : heap.startAddress +
    4096 * heap.table.totalEntries < 4294967296) {b : Int} (hlow : 0 ≤ b)
    (hroom : b ≤ heap.table.totalEntries) :
    (heapBlockToAddress heap b : Int) = heap.startAddress + 4096 * b := by
  rw [heapBlockToAddress_eq, u32_natCast_eq, Int.emod_eq_of_lt] <;> omega

theorem blockOf_of_range {heap : Heap} {address : Nat} {s n : Int}
    (hbelow : heap.startAddress + 4096 * heap.table.totalEntries < 4294967296) (hlow : 0 ≤ s)
    (hroom : s + n ≤ heap.table.totalEntries)
    (hin : heap.startAddress + 4096 * s ≤ address ∧ address < heap.startAddress + 4096 * (s + n)) :
    s ≤ heap.blockOf address ∧ heap.blockOf address < s + n := by
  unfold Heap.blockOf
  omega

theorem range_of_blockOf {heap : Heap} {address ptr m : Nat} {s n : Int}
    (hbelow : heap.startAddress + 4096 * heap.table.totalEntries < 4294967296)
    (hhas : heap.Has address)
    (hlow : s ≤ heap.blockOf address) (hhigh : heap.blockOf address < s + n)
    (hptr : (ptr : Int) = heap.startAddress + 4096 * s) (hm : (m : Int) = n) :
    ptr ≤ address ∧ address < ptr + 4096 * m := by
  unfold Heap.blockOf at hlow hhigh
  unfold Heap.Has at hhas
  omega

/-! An allocation. -/

/-- The program got the blocks from `b` on, in an entry that it did not use. -/
structure Allocates (k k' : Kernel) (g : Program) (index size : Nat) (b : Int) : Prop where
  setting : SameSetting g k k'
  entry : index < boiosMaxProgramAllocations
  unused : (k.allocation g.process index).ptr = 0
  sizeLow : 1 ≤ size
  sizeHigh : size ≤ 0xFFFFF000
  low : 0 ≤ b
  room : b + blocksFor size ≤ k.heap.table.totalEntries
  free : k.heap.table.FreeRun b (blocksFor size)
  allocation : ∀ i, k'.allocation g.process i =
    if i = index then ⟨heapBlockToAddress k.heap b, size⟩ else k.allocation g.process i
  entries : ∀ j, j < b ∨ b + blocksFor size ≤ j →
    k'.heap.table.entries j = k.heap.table.entries j
  chain : k'.heap.table.Chain b (blocksFor size)
  pages : ∀ page < 4294967296, page % 4096 = 0 → pagingGet k'.pages g.directory page =
    if heapBlockToAddress k.heap b ≤ page ∧
      page < heapBlockToAddress k.heap b + 4096 * blocksFor size
    then .ok (page ||| 7) else pagingGet k.pages g.directory page

namespace Allocates
variable {programs : List Program} {k k' : Kernel} {g : Program} {index size : Nat} {b : Int}

theorem positive (h : Allocates k k' g index size b) : 0 < blocksFor size := blocksFor_pos h.sizeLow

theorem address (h : Allocates k k' g index size b) (hk : UserMemory programs k) :
    (heapBlockToAddress k.heap b : Int) = k.heap.startAddress + 4096 * b := by
  have hpos := h.positive
  have hroom := h.room
  exact heapBlockToAddress_of_room hk.below h.low (by omega)

theorem blockOf_address (h : Allocates k k' g index size b) (hk : UserMemory programs k) :
    k.heap.blockOf (heapBlockToAddress k.heap b) = b := by
  have hpos := h.positive
  have hroom := h.room
  have hsmall := hk.small
  exact blockOf_heapBlockToAddress k.heap b h.low (by omega)

theorem not_owns (h : Allocates k k' g index size b) (s n : Int) :
    ¬ g.Owns k (.allocation index) s n := fun howns => howns.2.1 h.unused

theorem owns_new (h : Allocates k k' g index size b) (hk : UserMemory programs k) :
    g.Owns k' (.allocation index) b (blocksFor size) := by
  have haddress := h.address hk
  have hstart := hk.positive
  have hlow := h.low
  rw [Program.Owns, h.allocation, if_pos rfl, h.setting.blockOf, h.blockOf_address hk]
  exact ⟨h.entry, by dsimp only; omega, rfl, rfl⟩

theorem allocation_old (h : Allocates k k' g index size b) (hk : UserMemory programs k)
    (hg : g ∈ programs) {g' : Program} (hg' : g' ∈ programs) {i : Nat} (hne : ¬ (g' = g ∧ i = index)) :
    k'.allocation g'.process i = k.allocation g'.process i := by
  by_cases heq : g' = g
  · rw [heq, h.allocation, if_neg]
    rintro rfl
    exact hne ⟨heq, rfl⟩
  · exact h.setting.allocation_other (fun hprocess => heq (hk.eq_of_process hg hg' hprocess)) i

theorem owns_cases (h : Allocates k k' g index size b) (hk : UserMemory programs k)
    (hg : g ∈ programs) {g' : Program} (hg' : g' ∈ programs) {r : Region} {s n : Int}
    (howns : g'.Owns k' r s n) :
    (g'.Owns k r s n ∧ (s + n ≤ b ∨ b + blocksFor size ≤ s)) ∨
      (g' = g ∧ r = .allocation index ∧ s = b ∧ n = blocksFor size) := by
  by_cases hnew : g' = g ∧ r = .allocation index
  · obtain ⟨rfl, rfl⟩ := hnew
    rw [Program.Owns, h.allocation, if_pos rfl, h.setting.blockOf, h.blockOf_address hk] at howns
    exact Or.inr ⟨rfl, rfl, howns.2.2.1, howns.2.2.2⟩
  · have hold : g'.Owns k r s n := by
      refine (h.setting.owns_iff (fun i hi => h.allocation_old hk hg hg' ?_) s n).mp howns
      rintro ⟨heq, rfl⟩
      exact hnew ⟨heq, hi⟩
    have hpos := h.positive
    exact Or.inl ⟨hold, hk.apart_of_freeRun hg' hold (by omega) h.free⟩

theorem owns_of_owns (h : Allocates k k' g index size b) (hk : UserMemory programs k)
    (hg : g ∈ programs) {g' : Program} (hg' : g' ∈ programs) {r : Region} {s n : Int}
    (howns : g'.Owns k r s n) : g'.Owns k' r s n := by
  refine (h.setting.owns_iff (fun i hi => h.allocation_old hk hg hg' ?_) s n).mpr howns
  rintro ⟨rfl, rfl⟩
  rw [hi] at howns
  exact h.not_owns s n howns

theorem once (h : Allocates k k' g index size b) (hk : UserMemory programs k)
    (hg : g ∈ programs) {g' : Program} (hg' : g' ∈ programs) {i j : Nat}
    (hi : i < boiosMaxProgramAllocations) (hj : j < boiosMaxProgramAllocations)
    (hne : (k'.allocation g'.process i).ptr ≠ 0)
    (hsame : (k'.allocation g'.process i).ptr = (k'.allocation g'.process j).ptr) : i = j := by
  have howns : ∀ i < boiosMaxProgramAllocations, (k'.allocation g'.process i).ptr ≠ 0 →
      g'.Owns k' (.allocation i) (k'.heap.blockOf (k'.allocation g'.process i).ptr)
        (blocksFor (k'.allocation g'.process i).size) := fun i hi hne => ⟨hi, hne, rfl, rfl⟩
  have hold : ∀ {i : Nat} {s n : Int}, g'.Owns k (.allocation i) s n →
      k'.allocation g'.process i = k.allocation g'.process i := by
    intro i s n howns
    refine h.allocation_old hk hg hg' ?_
    rintro ⟨rfl, rfl⟩
    exact h.not_owns s n howns
  have hpos := h.positive
  rcases h.owns_cases hk hg hg' (howns i hi hne) with ⟨hi', hapart⟩ | ⟨rfl, hregion, hs, hn⟩
  · rcases h.owns_cases hk hg hg' (howns j hj (hsame ▸ hne)) with ⟨hj', -⟩ | ⟨-, -, hs', -⟩
    · rw [hold hi', hold hj'] at hsame
      exact hk.once g' hg' i hi j hj hi'.2.1 hsame
    · rw [← hsame] at hs'
      have hposold := (hk.taken g' hg' _ _ _ hi').1
      omega
  · rcases h.owns_cases hk hg hg' (howns j hj (hsame ▸ hne)) with
      ⟨hj', hapart⟩ | ⟨-, hregion', -, -⟩
    · rw [← hsame] at hj' hapart
      have hposold := (hk.taken g' hg' _ _ _ hj').1
      omega
    · exact Region.allocation.inj (hregion.trans hregion'.symm)

theorem taken (h : Allocates k k' g index size b) (hk : UserMemory programs k)
    (hg : g ∈ programs) {g' : Program} (hg' : g' ∈ programs) {r : Region} {s n : Int}
    (howns : g'.Owns k' r s n) : 0 < n ∧ 0 ≤ s ∧ s + n ≤ k'.heap.table.totalEntries ∧
      ∀ c, s ≤ c → c < s + n → ¬ k'.heap.table.IsFree c := by
  rw [h.setting.total]
  rcases h.owns_cases hk hg hg' howns with ⟨hold, hapart⟩ | ⟨-, -, hs, hn⟩
  · obtain ⟨hpos, hlow, hroom, htaken⟩ := hk.taken g' hg' r s n hold
    refine ⟨hpos, hlow, hroom, fun c hc hc' => ?_⟩
    rw [HeapTable.isFree_congr (h.entries c (by omega))]
    exact htaken c hc hc'
  · have hpos := h.positive
    rw [hs, hn]
    exact ⟨by omega, h.low, h.room, fun c hc hc' => (h.chain c hc hc').1⟩

theorem chains (h : Allocates k k' g index size b) (hk : UserMemory programs k)
    (hg : g ∈ programs) {g' : Program} (hg' : g' ∈ programs) {i : Nat} {s n : Int}
    (howns : g'.Owns k' (.allocation i) s n) : k'.heap.table.Chain s n ∧
      (k'.allocation g'.process i).ptr = heapBlockToAddress k'.heap s ∧
      (k'.allocation g'.process i).size ≤ 0xFFFFF000 := by
  rcases h.owns_cases hk hg hg' howns with ⟨hold, hapart⟩ | ⟨rfl, hregion, hs, hn⟩
  · obtain ⟨hchain, hptr, hsize⟩ := hk.chains g' hg' i s n hold
    have hsame : k'.allocation g'.process i = k.allocation g'.process i := by
      refine h.allocation_old hk hg hg' ?_
      rintro ⟨rfl, rfl⟩
      exact h.not_owns s n hold
    rw [hsame, h.setting.heapBlockToAddress]
    exact ⟨hchain.congr fun c hc hc' => h.entries c (by omega), hptr, hsize⟩
  · rw [Region.allocation.inj hregion, h.allocation, if_pos rfl, hs, hn,
      h.setting.heapBlockToAddress]
    exact ⟨h.chain, rfl, h.sizeHigh⟩

theorem exclusive (h : Allocates k k' g index size b) (hk : UserMemory programs k)
    (hg : g ∈ programs) {g₁ g₂ : Program} (hg₁ : g₁ ∈ programs) (hg₂ : g₂ ∈ programs)
    {r q : Region} {s n s' n' : Int} (h₁ : g₁.Owns k' r s n) (h₂ : g₂.Owns k' q s' n')
    (hne : (g₁.process, r) ≠ (g₂.process, q)) : s + n ≤ s' ∨ s' + n' ≤ s := by
  rcases h.owns_cases hk hg hg₁ h₁ with ⟨hold₁, hapart₁⟩ | ⟨he₁, hr₁, hs₁, hn₁⟩
  · rcases h.owns_cases hk hg hg₂ h₂ with ⟨hold₂, -⟩ | ⟨-, -, hs₂, hn₂⟩
    · exact hk.exclusive g₁ hg₁ g₂ hg₂ r q s n s' n' hold₁ hold₂ hne
    · omega
  · rcases h.owns_cases hk hg hg₂ h₂ with ⟨-, hapart₂⟩ | ⟨he₂, hr₂, -, -⟩
    · omega
    · exact absurd (by rw [he₁, he₂, hr₁, hr₂]) hne

theorem page_owned (h : Allocates k k' g index size b) (hk : UserMemory programs k)
    (hg : g ∈ programs) {g' : Program} (hg' : g' ∈ programs) {page entry : Nat}
    (hpage : page < 4294967296) (haligned : page % 4096 = 0)
    (hentry : pagingGet k'.pages g'.directory page = .ok entry) (hflags : entry &&& 7 = 7)
    (hheap : k'.heap.Has (pagingFrame entry)) : ∃ r s n, g'.Owns k' r s n ∧
      s ≤ k'.heap.blockOf (pagingFrame entry) ∧ k'.heap.blockOf (pagingFrame entry) < s + n ∧
      (∀ i, r = .allocation i → page = pagingFrame entry) := by
  by_cases hnew : g' = g ∧ heapBlockToAddress k.heap b ≤ page ∧
      page < heapBlockToAddress k.heap b + 4096 * blocksFor size
  · obtain ⟨rfl, hin⟩ := hnew
    rw [h.pages page hpage haligned, if_pos hin, Except.ok.injEq] at hentry
    have hframe : pagingFrame entry = page := by
      rw [← hentry]
      exact pagingFrame_or haligned (by decide)
    have haddress := h.address hk
    have hin : k.heap.startAddress + 4096 * b ≤ page ∧
        page < k.heap.startAddress + 4096 * (b + blocksFor size) := by omega
    have hblocks := blockOf_of_range hk.below h.low h.room hin
    rw [hframe, h.setting.blockOf]
    exact ⟨_, _, _, h.owns_new hk, hblocks.1, hblocks.2, fun _ _ => rfl⟩
  · have hold : pagingGet k.pages g'.directory page = .ok entry := by
      by_cases heq : g' = g
      · rw [heq, h.pages page hpage haligned, if_neg fun hin => hnew ⟨heq, hin⟩] at hentry
        rw [heq]
        exact hentry
      · rwa [h.setting.pagingGet_other hk hg hg' heq hpage] at hentry
    obtain ⟨r, s, n, howns, hrest⟩ :=
      hk.pages g' hg' page hpage haligned entry hold hflags ((h.setting.has_iff _).mp hheap)
    rw [← h.setting.blockOf] at hrest
    exact ⟨r, s, n, h.owns_of_owns hk hg hg' howns, hrest⟩

theorem userMemory (h : Allocates k k' g index size b) (hk : UserMemory programs k)
    (hg : g ∈ programs) : UserMemory programs k' := by
  obtain ⟨haligned, hpositive, hbelow, hsmall⟩ := h.setting.bounds hk
  exact {
    aligned := haligned
    positive := hpositive
    below := hbelow
    small := hsmall
    runs := h.setting.runs hk hg
    apart := hk.apart
    once := fun g' hg' i hi j hj hne hsame => h.once hk hg hg' hi hj hne hsame
    taken := fun g' hg' r s n howns => h.taken hk hg hg' howns
    chains := fun g' hg' i s n howns => h.chains hk hg hg' howns
    exclusive := fun g₁ hg₁ g₂ hg₂ r q s n s' n' h₁ h₂ => h.exclusive hk hg hg₁ hg₂ h₁ h₂
    pages := fun g' hg' page hpage halign entry hentry hflags hheap =>
      h.page_owned hk hg hg' hpage halign hentry hflags hheap }

end Allocates

theorem UserMemory.malloc_entered {programs : List Program} {k : Kernel} {g : Program}
    (hk : UserMemory programs k) (hg : g ∈ programs) {size index : Nat} {p : Process} {b : Int}
    (hlow : 1 ≤ size) (hhigh : size ≤ 0xFFFFF000) (hb : 0 ≤ b)
    (hroom : b + blocksFor size ≤ k.heap.table.totalEntries)
    (hfree : k.heap.table.FreeRun b (blocksFor size))
    (hp : k.scheduler.store g.process = some p) (hindex : index < boiosMaxProgramAllocations)
    (hnull : (p.allocations index).ptr = 0) {k' : Kernel} {pages : PageStore} (memory : Memory)
    (hmap : processMapAllocation g.chunk ⟨heapBlockToAddress k.heap b, size⟩ 7 k.pages =
      .ok (0, pages))
    (hk' : k' = putProcess g.process { p with
        allocations := Function.update p.allocations index ⟨heapBlockToAddress k.heap b, size⟩ }
      { k with heap := heapMarkBlocksTaken k.heap b (blocksFor size), memory, pages }) :
    UserMemory programs k' := by
  have hpos : 0 < blocksFor size := blocksFor_pos hlow
  have hbelow := hk.below
  have hrun := hk.runs g hg
  have haddress := heapBlockToAddress_of_room hbelow hb (by omega : b ≤ k.heap.table.totalEntries)
  have hptraligned : heapBlockToAddress k.heap b % 4096 = 0 := by
    have haligned := hk.aligned
    omega
  have htotal := heapMarkBlocksTaken_totalEntries k.heap b (blocksFor size)
  have hend : i32 (b + blocksFor size - 1) = b + blocksFor size - 1 :=
    i32_of_range (by omega) (by omega)
  obtain ⟨hframe, -⟩ := heapMarkBlocksTaken_frame k.heap hend
  obtain ⟨pages', hmap', hdir, hchunks, hkeeps, hget⟩ := processMapAllocation_get hrun.directory
    hrun.chunk 7 hptraligned (by omega : heapBlockToAddress k.heap b + 4096 * blocksFor size < _)
  rw [hmap, Except.ok.injEq, Prod.mk.injEq] at hmap'
  obtain rfl := hmap'.2
  have hallocates : Allocates k k' g index size b := {
    setting := by
      rw [hk']
      refine ⟨rfl, htotal, hchunks, rfl, rfl, fun process hne => putProcess_store_of_ne hne .., ?_,
        hdir, hkeeps⟩
      intro p' hp'
      rw [hp, Option.some.injEq] at hp'
      rw [← hp']
      exact ⟨_, putProcess_store_self .., rfl, rfl, rfl, rfl⟩
    entry := hindex
    unused := by rw [Kernel.allocation_of_store hp, hnull]
    sizeLow := hlow
    sizeHigh := hhigh
    low := hb
    room := hroom
    free := hfree
    allocation := fun i => by
      rw [hk', Kernel.allocation_of_store (putProcess_store_self ..), Kernel.allocation_of_store hp]
      exact Function.update_apply ..
    entries := fun j hj => by
      rw [hk']
      exact hframe j hj
    chain := by
      rw [hk']
      exact heapMarkBlocksTaken_chain k.heap hend
    pages := fun page hpage haligned => by
      rw [hk']
      exact hget page hpage haligned }
  exact hallocates.userMemory hk hg

/-! A free. -/

/-- The program gave back the blocks of an entry. -/
structure Releases (k k' : Kernel) (g : Program) (index : Nat) (b n : Int) : Prop where
  setting : SameSetting g k k'
  owned : g.Owns k (.allocation index) b n
  allocation : ∀ i < boiosMaxProgramAllocations, k'.allocation g.process i =
    if i = index then ⟨0, 0⟩ else k.allocation g.process i
  entries : ∀ j, j < b ∨ b + n ≤ j → k'.heap.table.entries j = k.heap.table.entries j
  pages : ∀ page < 4294967296, page % 4096 = 0 → pagingGet k'.pages g.directory page =
    if (k.allocation g.process index).ptr ≤ page ∧ page < (k.allocation g.process index).ptr +
      4096 * blocksFor (k.allocation g.process index).size
    then .ok (page ||| 0) else pagingGet k.pages g.directory page

namespace Releases
variable {programs : List Program} {k k' : Kernel} {g : Program} {index : Nat} {b n : Int}

theorem not_owns (h : Releases k k' g index b n) (s m : Int) :
    ¬ g.Owns k' (.allocation index) s m := by
  intro howns
  rw [Program.Owns, h.allocation index howns.1, if_pos rfl] at howns
  exact howns.2.1 rfl

theorem allocation_old (h : Releases k k' g index b n) (hk : UserMemory programs k)
    (hg : g ∈ programs) {g' : Program} (hg' : g' ∈ programs) {i : Nat}
    (hi : i < boiosMaxProgramAllocations) (hne : ¬ (g' = g ∧ i = index)) :
    k'.allocation g'.process i = k.allocation g'.process i := by
  by_cases heq : g' = g
  · rw [heq, h.allocation i hi, if_neg]
    rintro rfl
    exact hne ⟨heq, rfl⟩
  · exact h.setting.allocation_other (fun hprocess => heq (hk.eq_of_process hg hg' hprocess)) i

theorem owns_old (h : Releases k k' g index b n) (hk : UserMemory programs k)
    (hg : g ∈ programs) {g' : Program} (hg' : g' ∈ programs) {r : Region} {s m : Int}
    (howns : g'.Owns k' r s m) : g'.Owns k r s m ∧ (s + m ≤ b ∨ b + n ≤ s) ∧
      ∀ i, r = .allocation i → k'.allocation g'.process i = k.allocation g'.process i := by
  have hsame : ∀ i, r = .allocation i →
      k'.allocation g'.process i = k.allocation g'.process i := by
    rintro i rfl
    refine h.allocation_old hk hg hg' howns.1 ?_
    rintro ⟨rfl, rfl⟩
    exact h.not_owns s m howns
  have hold := (h.setting.owns_iff hsame s m).mp howns
  refine ⟨hold, hk.exclusive g' hg' g hg _ _ _ _ _ _ hold h.owned fun heq => ?_, hsame⟩
  -- the region is not the one that was freed
  obtain ⟨hprocess, hregion⟩ := Prod.mk.inj heq
  rw [hk.eq_of_process hg hg' hprocess, hregion] at howns
  exact h.not_owns s m howns

theorem owns_of_owns (h : Releases k k' g index b n) (hk : UserMemory programs k)
    (hg : g ∈ programs) {g' : Program} (hg' : g' ∈ programs) {r : Region} {s m : Int}
    (howns : g'.Owns k r s m) (hne : ¬ (g' = g ∧ r = .allocation index)) : g'.Owns k' r s m := by
  refine (h.setting.owns_iff (fun i hi => ?_) s m).mpr howns
  rw [hi] at howns
  refine h.allocation_old hk hg hg' howns.1 ?_
  rintro ⟨heq, rfl⟩
  exact hne ⟨heq, hi⟩

theorem once (h : Releases k k' g index b n) (hk : UserMemory programs k)
    (hg : g ∈ programs) {g' : Program} (hg' : g' ∈ programs) {i j : Nat}
    (hi : i < boiosMaxProgramAllocations) (hj : j < boiosMaxProgramAllocations)
    (hne : (k'.allocation g'.process i).ptr ≠ 0)
    (hsame : (k'.allocation g'.process i).ptr = (k'.allocation g'.process j).ptr) : i = j := by
  have hold : ∀ i < boiosMaxProgramAllocations, (k'.allocation g'.process i).ptr ≠ 0 →
      k'.allocation g'.process i = k.allocation g'.process i := by
    intro i hi hne
    have howns : g'.Owns k' (.allocation i) (k'.heap.blockOf (k'.allocation g'.process i).ptr)
        (blocksFor (k'.allocation g'.process i).size) := ⟨hi, hne, rfl, rfl⟩
    exact (h.owns_old hk hg hg' howns).2.2 i rfl
  have hne' := hsame ▸ hne
  rw [hold i hi hne, hold j hj hne'] at hsame
  rw [hold i hi hne] at hne
  exact hk.once g' hg' i hi j hj hne hsame

theorem taken (h : Releases k k' g index b n) (hk : UserMemory programs k)
    (hg : g ∈ programs) {g' : Program} (hg' : g' ∈ programs) {r : Region} {s m : Int}
    (howns : g'.Owns k' r s m) : 0 < m ∧ 0 ≤ s ∧ s + m ≤ k'.heap.table.totalEntries ∧
      ∀ c, s ≤ c → c < s + m → ¬ k'.heap.table.IsFree c := by
  obtain ⟨hold, hapart, -⟩ := h.owns_old hk hg hg' howns
  obtain ⟨hpos, hlow, hroom, htaken⟩ := hk.taken g' hg' r s m hold
  rw [h.setting.total]
  refine ⟨hpos, hlow, hroom, fun c hc hc' => ?_⟩
  rw [HeapTable.isFree_congr (h.entries c (by omega))]
  exact htaken c hc hc'

theorem chains (h : Releases k k' g index b n) (hk : UserMemory programs k)
    (hg : g ∈ programs) {g' : Program} (hg' : g' ∈ programs) {i : Nat} {s m : Int}
    (howns : g'.Owns k' (.allocation i) s m) : k'.heap.table.Chain s m ∧
      (k'.allocation g'.process i).ptr = heapBlockToAddress k'.heap s ∧
      (k'.allocation g'.process i).size ≤ 0xFFFFF000 := by
  obtain ⟨hold, hapart, hsame⟩ := h.owns_old hk hg hg' howns
  obtain ⟨hchain, hptr, hsize⟩ := hk.chains g' hg' i s m hold
  rw [hsame i rfl, h.setting.heapBlockToAddress]
  exact ⟨hchain.congr fun c hc hc' => h.entries c (by omega), hptr, hsize⟩

theorem page_owned (h : Releases k k' g index b n) (hk : UserMemory programs k)
    (hg : g ∈ programs) {g' : Program} (hg' : g' ∈ programs) {page entry : Nat}
    (hpage : page < 4294967296) (haligned : page % 4096 = 0)
    (hentry : pagingGet k'.pages g'.directory page = .ok entry) (hflags : entry &&& 7 = 7)
    (hheap : k'.heap.Has (pagingFrame entry)) : ∃ r s m, g'.Owns k' r s m ∧
      s ≤ k'.heap.blockOf (pagingFrame entry) ∧ k'.heap.blockOf (pagingFrame entry) < s + m ∧
      (∀ i, r = .allocation i → page = pagingFrame entry) := by
  have hheap' := (h.setting.has_iff _).mp hheap
  by_cases heq : g' = g
  · subst heq
    rw [h.pages page hpage haligned] at hentry
    split_ifs at hentry with hin
    · rw [Except.ok.injEq] at hentry
      rw [← hentry] at hflags
      exact absurd hflags (page_or_zero_and _ haligned)
    · obtain ⟨r, s, m, howns, hlow, hhigh, hself⟩ :=
        hk.pages g' hg page hpage haligned entry hentry hflags hheap'
      rw [← h.setting.blockOf] at hlow hhigh
      refine ⟨r, s, m, h.owns_of_owns hk hg hg howns fun hfreed => hin ?_, hlow, hhigh, hself⟩
      -- a page of the freed blocks would have been unmapped
      obtain rfl := hfreed.2
      obtain ⟨-, hs, hroom, -⟩ := hk.taken g' hg _ _ _ howns
      obtain ⟨hpos, -⟩ := hk.taken g' hg _ _ _ howns
      have haddress := heapBlockToAddress_of_room hk.below hs
        (by omega : s ≤ k.heap.table.totalEntries)
      rw [h.setting.blockOf, ← hself index rfl] at hlow hhigh
      rw [← hself index rfl] at hheap'
      refine range_of_blockOf hk.below hheap' hlow hhigh ?_ howns.2.2.2.symm
      rw [(hk.chains g' hg _ _ _ howns).2.1, haddress]
  · rw [h.setting.pagingGet_other hk hg hg' heq hpage] at hentry
    obtain ⟨r, s, m, howns, hrest⟩ :=
      hk.pages g' hg' page hpage haligned entry hentry hflags hheap'
    rw [← h.setting.blockOf] at hrest
    exact ⟨r, s, m, h.owns_of_owns hk hg hg' howns fun hfreed => heq hfreed.1, hrest⟩

theorem userMemory (h : Releases k k' g index b n) (hk : UserMemory programs k)
    (hg : g ∈ programs) : UserMemory programs k' := by
  obtain ⟨haligned, hpositive, hbelow, hsmall⟩ := h.setting.bounds hk
  exact {
    aligned := haligned
    positive := hpositive
    below := hbelow
    small := hsmall
    runs := h.setting.runs hk hg
    apart := hk.apart
    once := fun g' hg' i hi j hj hne hsame => h.once hk hg hg' hi hj hne hsame
    taken := fun g' hg' r s m howns => h.taken hk hg hg' howns
    chains := fun g' hg' i s m howns => h.chains hk hg hg' howns
    exclusive := fun g₁ hg₁ g₂ hg₂ r q s m s' m' h₁ h₂ =>
      hk.exclusive g₁ hg₁ g₂ hg₂ r q s m s' m' (h.owns_old hk hg hg₁ h₁).1
        (h.owns_old hk hg hg₂ h₂).1
    pages := fun g' hg' page hpage halign entry hentry hflags hheap =>
      h.page_owned hk hg hg' hpage halign hentry hflags hheap }

end Releases

theorem UserMemory.free_entered {programs : List Program} {k : Kernel} {g : Program}
    (hk : UserMemory programs k) (hg : g ∈ programs) {index : Nat} {p : Process}
    (hp : k.scheduler.store g.process = some p) (hindex : index < boiosMaxProgramAllocations)
    (hptr : (p.allocations index).ptr ≠ 0) {k' : Kernel} {pages : PageStore} {heap : Heap}
    (hheap : heap = heapFree k.heap (p.allocations index).ptr)
    (hmap : processMapAllocation g.chunk (p.allocations index) 0 k.pages = .ok (0, pages))
    (hk' : k' = putProcess g.process (processAllocationUnjoin p (p.allocations index).ptr)
      { k with heap, pages }) :
    UserMemory programs k' := by
  have hbelow := hk.below
  have hsmall := hk.small
  have hrun := hk.runs g hg
  have hold : ∀ i, k.allocation g.process i = p.allocations i := Kernel.allocation_of_store hp
  have hown : g.Owns k (.allocation index) (k.heap.blockOf (p.allocations index).ptr)
      (blocksFor (p.allocations index).size) := by
    rw [Program.Owns, hold]
    exact ⟨hindex, hptr, rfl, rfl⟩
  obtain ⟨hpos, hlow, hroom, -⟩ := hk.taken g hg _ _ _ hown
  obtain ⟨hchain, haddress, -⟩ := hk.chains g hg _ _ _ hown
  rw [hold] at haddress
  have haddress' := heapBlockToAddress_of_room hbelow hlow (by omega)
  have hptraligned : (p.allocations index).ptr % 4096 = 0 := by
    have haligned := hk.aligned
    rw [haddress]
    omega
  obtain ⟨htotal, -, hframe, -⟩ := heapMarkBlocksFree_chain k.heap _ _ hlow hpos hroom (by omega)
    hchain
  have hfreed : heap = heapMarkBlocksFree k.heap (k.heap.blockOf (p.allocations index).ptr) := by
    rw [hheap, heapFree, heapAddressToBlock_eq_blockOf _ _ (by omega)]
  rw [← hfreed] at htotal hframe
  obtain ⟨pages', hmap', hdir, hchunks, hkeeps, hget⟩ := processMapAllocation_get hrun.directory
    hrun.chunk 0 hptraligned
    (by omega : (p.allocations index).ptr + 4096 * blocksFor (p.allocations index).size < _)
  rw [hmap, Except.ok.injEq, Prod.mk.injEq] at hmap'
  obtain rfl := hmap'.2
  have hreleases : Releases k k' g index (k.heap.blockOf (p.allocations index).ptr)
      (blocksFor (p.allocations index).size) := {
    setting := by
      rw [hk']
      refine ⟨by rw [putProcess, hheap, heapFree_startAddress], htotal, hchunks, rfl, rfl,
        fun process hne => putProcess_store_of_ne hne .., ?_, hdir, hkeeps⟩
      intro p' hp'
      rw [hp, Option.some.injEq] at hp'
      rw [← hp']
      exact ⟨_, putProcess_store_self .., rfl, rfl, rfl, rfl⟩
    owned := hown
    allocation := fun i hi => by
      rw [hk', Kernel.allocation_of_store (putProcess_store_self ..), hold, processAllocationUnjoin]
      dsimp only
      by_cases heq : i = index
      · rw [heq, if_pos ⟨hindex, rfl⟩, if_pos rfl]
      · rw [if_neg heq, if_neg]
        rintro ⟨-, hsame⟩
        refine heq (hk.once g hg i hi index hindex ?_ ?_)
        · rw [hold, hsame]
          exact hptr
        · rw [hold, hold, hsame]
    entries := fun j hj => by
      rw [hk']
      exact hframe j hj
    pages := fun page hpage haligned => by
      rw [hk', hold]
      exact hget page hpage haligned }
  exact hreleases.userMemory hk hg

theorem heapFree_taken_entries {heap : Heap} {b n : Int}
    (hbelow : heap.startAddress + 4096 * heap.table.totalEntries < 4294967296)
    (hsmall : heap.table.totalEntries < 524288) (hb : 0 ≤ b) (hn : 0 < n)
    (hroom : b + n ≤ heap.table.totalEntries) (hfree : heap.table.FreeRun b n) :
    let after := heapFree (heapMarkBlocksTaken heap b n) (heapBlockToAddress heap b)
    after.table.totalEntries = heap.table.totalEntries ∧
      ∀ c, ¬ heap.table.IsFree c → after.table.entries c = heap.table.entries c := by
  have htotal := heapMarkBlocksTaken_totalEntries heap b n
  have hend : i32 (b + n - 1) = b + n - 1 := i32_of_range (by omega) (by omega)
  obtain ⟨hframe, _⟩ := heapMarkBlocksTaken_frame heap hend
  have haddress := heapBlockToAddress_of_room hbelow hb (by omega)
  have hblock := blockOf_heapBlockToAddress heap b hb (by omega)
  have htable : heapFree (heapMarkBlocksTaken heap b n) (heapBlockToAddress heap b) =
      heapMarkBlocksFree (heapMarkBlocksTaken heap b n) b := by
    rw [heapFree, heapAddressToBlock_eq_blockOf _ _
      (by rw [heapMarkBlocksTaken_startAddress]; omega), blockOf_heapMarkBlocksTaken, hblock]
  obtain ⟨htotal', _, hframe', _⟩ := heapMarkBlocksFree_chain (heapMarkBlocksTaken heap b n) b n hb
    hn (by rw [htotal]; exact hroom) (by rw [htotal]; omega) (heapMarkBlocksTaken_chain heap hend)
  intro after
  have hafter : after = heapMarkBlocksFree (heapMarkBlocksTaken heap b n) b := htable
  rw [hafter]
  refine ⟨htotal'.trans htotal, fun c hc => ?_⟩
  have houtside : c < b ∨ b + n ≤ c := by
    by_contra hinside
    exact hc (hfree c (by omega) (by omega))
  rw [hframe' c houtside, hframe c houtside]

theorem UserMemory.malloc {programs : List Program} {k k' : Kernel} {g : Program} {size ptr : Nat}
    (hk : UserMemory programs k) (hg : g ∈ programs) (hsize : size < 4294967296)
    (hserved : k.heap.Serves size) (h : ProcessMallocResult g.process size k ptr k') :
    UserMemory programs k' := by
  have hbelow := hk.below
  have hsmall := hk.small
  have hrun := hk.runs g hg
  obtain ⟨p₀, hp₀, htask₀, _⟩ := hrun.process
  obtain ⟨task₀, htaskstore, _, hchunk⟩ := hrun.task
  rcases heapMalloc_serves (by omega) hsize hserved with
    ⟨hlow, hhigh, b, hb, hroom, hfree, heq⟩ | heq
  · have hpos := blocksFor_pos hlow
    have hnonnull : (heapMalloc k.heap size).1 ≠ 0 := by
      have haddress := heapBlockToAddress_of_room hbelow hb (by omega)
      have hstart := hk.positive
      rw [heq]
      dsimp only
      omega
    have hmapped : ∃ pages, processMapAllocation g.chunk ⟨(heapMalloc k.heap size).1, size⟩
        (pagingIsWritable ||| pagingIsPresent ||| pagingAccessFromAll) k.pages = .ok (0, pages) := by
      have haddress := heapBlockToAddress_of_room hbelow hb (by omega)
      have haligned := heapMalloc_aligned hk.aligned size
      rw [heq] at haligned ⊢
      dsimp only at haligned ⊢
      have hroom' : (heapBlockToAddress k.heap b) + 4096 * blocksFor size < 4294967296 := by omega
      obtain ⟨pages, hmap, _⟩ := processMapAllocation_get hrun.directory hrun.chunk
        (pagingIsWritable ||| pagingIsPresent ||| pagingAccessFromAll) haligned hroom'
      exact ⟨pages, hmap⟩
    have hchunk' : ∀ p task, k.scheduler.store g.process = some p →
        k.scheduler.tasks.store p.task = some task → task.pageDirectory = g.chunk := by
      intro p task hp htask
      obtain rfl := Option.some.inj (hp.symm.trans hp₀)
      rw [htask₀, htaskstore] at htask
      obtain rfl := Option.some.inj htask
      exact hchunk
    cases h with
    | outOfMemory hzero => exact absurd hzero hnonnull
    | noEntry p _ _ _ =>
      obtain ⟨htotal, hentries⟩ := heapFree_taken_entries hbelow hsmall hb (by omega) hroom hfree
      have hstart : (heapFree (heapMarkBlocksTaken k.heap b (blocksFor size))
          (heapBlockToAddress k.heap b)).startAddress = k.heap.startAddress := by
        rw [heapFree_startAddress, heapMarkBlocksTaken_startAddress]
      rw [heq]
      exact hk.keep_table hg _ hstart htotal (fun c _ _ hc => hentries c hc)
    | unmapped p task res pages _ hp htask hmap hneg =>
      obtain ⟨pages', hmap'⟩ := hmapped
      rw [hchunk' p task hp htask, hmap', Except.ok.injEq, Prod.mk.injEq] at hmap
      omega
    | entered p task res pages index _ hp htask hmap _ hindex hnull =>
      obtain ⟨pages', hmap'⟩ := hmapped
      rw [hchunk' p task hp htask, hmap', Except.ok.injEq, Prod.mk.injEq] at hmap
      obtain ⟨_, rfl⟩ := hmap
      rw [heq] at hmap'
      refine hk.malloc_entered hg hlow hhigh hb hroom hfree hp hindex hnull
        (k.memory.clear (heapBlockToAddress k.heap b) size) hmap' ?_
      rw [heq]
  · have hzero : (heapMalloc k.heap size).1 = 0 := by rw [heq]
    cases h with
    | outOfMemory _ =>
      rw [heq]
      exact hk
    | noEntry p hptr => exact absurd hzero hptr
    | unmapped p task res pages hptr => exact absurd hzero hptr
    | entered p task res pages index hptr => exact absurd hzero hptr

theorem UserMemory.free_null {programs : List Program} {k : Kernel} {g : Program}
    (hk : UserMemory programs k) (hg : g ∈ programs) {p : Process} {heap : Heap} {pages : PageStore}
    (hp : k.scheduler.store g.process = some p)
    (hdir : IsDirectory pages g.directory g.tables) (hchunks : pages.chunks = k.pages.chunks)
    (hkeeps : KeepsOthers g.tables k.pages pages)
    (hget : ∀ page < 4294967296, page % 4096 = 0 → ∀ entry,
      pagingGet pages g.directory page = .ok entry → entry &&& 7 = 7 →
        pagingGet k.pages g.directory page = .ok entry)
    (hstart : heap.startAddress = k.heap.startAddress)
    (htotal : heap.table.totalEntries = k.heap.table.totalEntries)
    (htable : ∀ b : Int, 0 ≤ b → b < k.heap.table.totalEntries → ¬ k.heap.table.IsFree b →
      heap.table.entries b = k.heap.table.entries b) :
    UserMemory programs
      (putProcess g.process (processAllocationUnjoin p 0) { k with heap, pages }) := by
  have hset : SameSetting g k
      (putProcess g.process (processAllocationUnjoin p 0) { k with heap, pages }) := by
    refine ⟨hstart, htotal, hchunks, rfl, rfl, fun process hne => putProcess_store_of_ne hne ..,
      fun p' hp' => ?_, hdir, hkeeps⟩
    rw [hp, Option.some.injEq] at hp'
    rw [← hp']
    exact ⟨_, putProcess_store_self .., rfl, rfl, rfl, rfl⟩
  refine hk.keep_heap hg hset (fun process j => ?_) hget htable
  by_cases hprocess : process = g.process
  · rw [hprocess, Kernel.allocation_of_store hp,
      Kernel.allocation_of_store (putProcess_store_self ..), processAllocationUnjoin]
    dsimp only
    split_ifs with hentry
    · exact ⟨hentry.2.symm, fun hne => absurd hentry.2 hne⟩
    · exact ⟨rfl, fun _ => rfl⟩
  · exact Kernel.allocation_same (putProcess_store_of_ne hprocess ..) j

/-- The frees that stay inside the heap table: of a pointer, or of null by a program with no empty
entry or with a byte below the table that ends the free. -/
def Kernel.ServesFree (k : Kernel) (process ptr : Nat) : Prop :=
  ptr ≠ 0 ∨ (∀ i < boiosMaxProgramAllocations, (k.allocation process i).ptr ≠ 0) ∨
    FreeOfNullStaysBelow k.heap

theorem UserMemory.free {programs : List Program} {k k' : Kernel} {g : Program} {ptr : Nat}
    (hk : UserMemory programs k) (hg : g ∈ programs) (hserved : k.ServesFree g.process ptr)
    (h : ProcessFreeResult g.process ptr k k') : UserMemory programs k' := by
  have hrun := hk.runs g hg
  obtain ⟨p₀, hp₀, htask₀, _⟩ := hrun.process
  obtain ⟨task₀, htaskstore, _, hchunk₀⟩ := hrun.task
  have hchunk : ∀ p task, k.scheduler.store g.process = some p →
      k.scheduler.tasks.store p.task = some task → task.pageDirectory = g.chunk := by
    intro p task hp htask
    obtain rfl := Option.some.inj (hp.symm.trans hp₀)
    rw [htask₀, htaskstore] at htask
    obtain rfl := Option.some.inj htask
    exact hchunk₀
  -- the pages of any allocation, and those of a null pointer, are always mapped away
  have hmapped : ∀ p, k.scheduler.store g.process = some p → ∀ i < boiosMaxProgramAllocations,
      ∃ pages, processMapAllocation g.chunk (p.allocations i) 0 k.pages = .ok (0, pages) := by
    intro p hp i hi
    by_cases hnull : (p.allocations i).ptr = 0
    · obtain ⟨pages, hmap, _⟩ := processMapAllocation_null hrun.directory hrun.chunk hnull
      exact ⟨pages, hmap⟩
    · have hown : g.Owns k (.allocation i) (k.heap.blockOf (p.allocations i).ptr)
          (blocksFor (p.allocations i).size) := by
        rw [Program.Owns, Kernel.allocation_of_store hp]
        exact ⟨hi, hnull, rfl, rfl⟩
      obtain ⟨hpos, hlow, hroom, _⟩ := hk.taken g hg _ _ _ hown
      obtain ⟨_, hptr, _⟩ := hk.chains g hg _ _ _ hown
      rw [Kernel.allocation_of_store hp] at hptr
      have haddress := heapBlockToAddress_of_room hk.below hlow (by omega)
      rw [← hptr] at haddress
      have haligned := hk.aligned
      have hbelow := hk.below
      have hptraligned : (p.allocations i).ptr % 4096 = 0 := by omega
      have hptrroom : (p.allocations i).ptr + 4096 * blocksFor (p.allocations i).size
          < 4294967296 := by omega
      obtain ⟨pages, hmap, _⟩ := processMapAllocation_get hrun.directory hrun.chunk 0 hptraligned
        hptrroom
      exact ⟨pages, hmap⟩
  cases h with
  | notFound => exact hk
  | unmapped p task i res pages hp hi _ htask hmap hneg =>
    obtain ⟨pages', hmap'⟩ := hmapped p hp i hi
    rw [hchunk p task hp htask, hmap', Except.ok.injEq, Prod.mk.injEq] at hmap
    omega
  | freed p task i res pages hp hi hptr htask hmap _ =>
    obtain ⟨pages', hmap'⟩ := hmapped p hp i hi
    rw [hchunk p task hp htask, hmap', Except.ok.injEq, Prod.mk.injEq] at hmap
    obtain ⟨_, rfl⟩ := hmap
    by_cases hnull : ptr = 0
    · rw [hnull] at hptr ⊢
      have hbelow : FreeOfNullStaysBelow k.heap := by
        rcases hserved with hne | hfull | hbelow
        · exact absurd hnull hne
        · have hentry := hfull i hi
          rw [Kernel.allocation_of_store hp] at hentry
          exact absurd hptr hentry
        · exact hbelow
      obtain ⟨pages'', hmap'', hdir, hchunks, hkeeps, hget⟩ := processMapAllocation_null
        hrun.directory hrun.chunk hptr
      rw [hmap', Except.ok.injEq, Prod.mk.injEq] at hmap''
      obtain rfl := hmap''.2
      exact hk.free_null hg hp hdir hchunks hkeeps hget (heapFree_startAddress ..)
        (heapFree_totalEntries ..) fun c hc _ _ => heapFree_null_entries hbelow c hc
    · rw [← hptr] at hnull ⊢
      exact hk.free_entered hg hp hi hnull rfl hmap' rfl

end BoiOS
