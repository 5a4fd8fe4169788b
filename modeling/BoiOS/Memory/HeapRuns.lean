import BoiOS.Library.Transition
import BoiOS.Memory.HeapSpec
import Mathlib.Data.Int.ConditionallyCompleteOrder
import Mathlib.Data.List.Pairwise
import Mathlib.Order.CompletePartialOrder
import Mathlib.Order.Interval.Set.Disjoint

/-! Runs of `heap_malloc` and `heap_free` on one heap. A pointer that was returned and not
yet freed is live, with the size it was asked for; the invariant says that the table
holds one chain for each live pointer and that no two of them share a block. -/
namespace BoiOS
open Library.Transition

structure HeapRun where
  heap : Heap
  live : List (Nat × Nat)

inductive HeapCall
  | malloc (size : Nat)
  | free (ptr : Nat)

namespace HeapRun

def next (s : HeapRun) : HeapCall → HeapRun
  | .malloc size =>
      let (ptr, heap) := heapMalloc s.heap size
      ⟨heap, if ptr = 0 then s.live else (ptr, size) :: s.live⟩
  | .free ptr => ⟨heapFree s.heap ptr, s.live.filter fun a => a.1 ≠ ptr⟩

/-- The calls a run may make: sizes the rounding does not wrap, pointers that are live. -/
def Enabled (s : HeapRun) : HeapCall → Prop
  | .malloc size => 1 ≤ size ∧ size ≤ 0xFFFFF000
  | .free ptr => ∃ a ∈ s.live, a.1 = ptr

def step : Step HeapRun HeapCall := fun s call t => s.Enabled call ∧ t = s.next call

def blocks (s : HeapRun) (a : Nat × Nat) : Set Int :=
  Set.Ico (s.heap.blockOf a.1) (s.heap.blockOf a.1 + blocksFor a.2)

/-- Live allocations lie inside the table, share no block, and every store so far was to an
entry of the table. -/
structure Safe (s : HeapRun) : Prop where
  inside : ∀ a ∈ s.live, s.blocks a ⊆ Set.Ico 0 (s.heap.table.totalEntries : Int)
  disjoint : s.live.Pairwise fun a b => Disjoint (s.blocks a) (s.blocks b)
  stored : ∀ i ∈ s.heap.table.written, i ∈ Set.Ico 0 (s.heap.table.totalEntries : Int)

/-- A step is good if it ends in a safe state and, where no run of free blocks is long enough
for a request, answers 0 and leaves the heap alone. -/
def Good : Step HeapRun HeapCall := fun s call t =>
  t.Safe ∧ ∀ size, call = .malloc size → s.heap.table.NoRoom (blocksFor size) →
    (heapMalloc s.heap size).1 = 0 ∧ t.heap = s.heap

/-- The calls the allocator serves correctly: a request that some run of free blocks is long
enough for, or that finds the last entry taken, and a pointer less than 2 GiB into the heap. -/
def Served : Step HeapRun HeapCall := fun s call _ =>
  match call with
  | .malloc size => ¬ s.heap.table.NoRoom (blocksFor size) ∨ s.heap.table.LastTaken
  | .free ptr => ((ptr : Int) - s.heap.startAddress) % 4294967296 < 2147483648

def Apart (s : HeapRun) (a b : Nat × Nat) : Prop :=
  s.heap.blockOf a.1 + blocksFor a.2 ≤ s.heap.blockOf b.1 ∨
    s.heap.blockOf b.1 + blocksFor b.2 ≤ s.heap.blockOf a.1

instance (s : HeapRun) : Std.Symm s.Apart := ⟨fun _ _ h => h.symm⟩

structure Inv (s : HeapRun) : Prop where
  small : s.heap.table.totalEntries < 1048576
  chains : ∀ a ∈ s.live, 0 ≤ s.heap.blockOf a.1 ∧ 0 < blocksFor a.2 ∧
    s.heap.blockOf a.1 + blocksFor a.2 ≤ s.heap.table.totalEntries ∧
    s.heap.table.Chain (s.heap.blockOf a.1) (blocksFor a.2)
  apart : s.live.Pairwise s.Apart
  stored : ∀ i ∈ s.heap.table.written, 0 ≤ i ∧ i < s.heap.table.totalEntries

theorem Inv.safe {s : HeapRun} (h : s.Inv) : s.Safe := by
  refine ⟨fun a ha i hi => ?_, h.apart.imp fun hab => ?_, fun i hi => h.stored i hi⟩
  · obtain ⟨hlow, _, hroom, _⟩ := h.chains a ha
    simp only [blocks, Set.mem_Ico] at hi ⊢
    omega
  · unfold Apart at hab
    unfold blocks
    rw [Set.Ico_disjoint_Ico]
    omega

theorem chain_apart_of_freeRun {table : HeapTable} {b k s n : Int} (hk : 0 < k) (hn : 0 < n)
    (hchain : table.Chain b k) (hfree : table.FreeRun s n) : b + k ≤ s ∨ s + n ≤ b := by
  by_contra hover
  push Not at hover
  exact (hchain (max b s) (by omega) (by omega)).1 (hfree (max b s) (by omega) (by omega))

theorem malloc_fits {s : HeapRun} (h : s.Inv) (size : Nat) (hsize : 1 ≤ size) {b : Int}
    (hlow : 0 ≤ b) (hroom : b + blocksFor size ≤ s.heap.table.totalEntries)
    (hfree : s.heap.table.FreeRun b (blocksFor size)) (live : List (Nat × Nat))
    (hlive : live = s.live ∨ live = (heapBlockToAddress s.heap b, size) :: s.live) :
    Inv ⟨heapMarkBlocksTaken s.heap b (blocksFor size), live⟩ := by
  have hsmall := h.small
  have hpos : 0 < blocksFor size := by
    unfold blocksFor
    omega
  have htotal := heapMarkBlocksTaken_totalEntries s.heap b (blocksFor size)
  have hend : i32 (b + blocksFor size - 1) = b + blocksFor size - 1 :=
    i32_of_range (by omega) (by omega)
  obtain ⟨hframe, hwritten⟩ := heapMarkBlocksTaken_frame s.heap hend
  have hblock : s.heap.blockOf (heapBlockToAddress s.heap b) = b :=
    blockOf_heapBlockToAddress s.heap b hlow (by omega)
  have hapart : ∀ a ∈ s.live, s.heap.blockOf a.1 + blocksFor a.2 ≤ b ∨
      b + blocksFor size ≤ s.heap.blockOf a.1 := by
    intro a ha
    obtain ⟨_, hpos', _, hchain⟩ := h.chains a ha
    exact chain_apart_of_freeRun (by omega) (by omega) hchain hfree
  -- the chains that were there are outside the entries just marked
  have hold : ∀ a ∈ s.live, (heapMarkBlocksTaken s.heap b (blocksFor size)).table.Chain
      (s.heap.blockOf a.1) (blocksFor a.2) := by
    intro a ha
    refine (h.chains a ha).2.2.2.congr fun i hi hi' => hframe i ?_
    have := hapart a ha
    omega
  refine ⟨by rw [htotal]; exact hsmall, ?_, ?_, ?_⟩
  · intro a ha
    dsimp only at ha ⊢
    rw [htotal]
    have hcases : a ∈ s.live ∨ a = (heapBlockToAddress s.heap b, size) := by
      rcases hlive with rfl | rfl
      · exact Or.inl ha
      · rcases List.mem_cons.mp ha with hnew | hmem
        · exact Or.inr hnew
        · exact Or.inl hmem
    rcases hcases with hmem | rfl
    · obtain ⟨hlow', hpos', hroom', _⟩ := h.chains a hmem
      simp only [blockOf_heapMarkBlocksTaken]
      exact ⟨hlow', hpos', hroom', hold a hmem⟩
    · simp only [blockOf_heapMarkBlocksTaken, hblock]
      exact ⟨hlow, hpos, hroom, heapMarkBlocksTaken_chain s.heap hend⟩
  · have hold' : s.live.Pairwise
        (Apart ⟨heapMarkBlocksTaken s.heap b (blocksFor size), live⟩) :=
      h.apart.imp fun hab => by simpa [Apart] using hab
    rcases hlive with rfl | rfl
    · exact hold'
    · refine List.pairwise_cons.mpr ⟨fun a ha => ?_, hold'⟩
      simp only [Apart, blockOf_heapMarkBlocksTaken, hblock]
      exact (hapart a ha).symm
  · intro i hi
    dsimp only at hi ⊢
    rw [htotal]
    rcases (hwritten i).mp hi with hi | hi
    · exact h.stored i hi
    · omega

theorem free_live {s : HeapRun} (h : s.Inv) (a : Nat × Nat) (ha : a ∈ s.live)
    (hserved : ((a.1 : Int) - s.heap.startAddress) % 4294967296 < 2147483648) :
    Inv (s.next (.free a.1)) := by
  have hsmall := h.small
  obtain ⟨hlow, hpos, hroom, hchain⟩ := h.chains a ha
  obtain ⟨htotal, _, hframe, hwritten⟩ := heapMarkBlocksFree_chain s.heap
    (s.heap.blockOf a.1) (blocksFor a.2) hlow (by omega) hroom (by omega) hchain
  have hnext : s.next (.free a.1) = ⟨heapMarkBlocksFree s.heap (s.heap.blockOf a.1),
      s.live.filter fun c => c.1 ≠ a.1⟩ := by
    simp only [next, heapFree, heapAddressToBlock_eq_blockOf s.heap a.1 hserved]
  rw [hnext]
  -- the pointer is freed once, so what stays live is another allocation
  have hother : ∀ c ∈ s.live.filter fun c => c.1 ≠ a.1, c ∈ s.live ∧ s.Apart c a := by
    intro c hc
    obtain ⟨hc, hne⟩ := List.mem_filter.mp hc
    refine ⟨hc, h.apart.forall hc ha fun heq => ?_⟩
    simp [heq] at hne
  refine ⟨by rw [htotal]; exact hsmall, fun c hc => ?_, ?_, fun i hi => ?_⟩
  · obtain ⟨hmem, hapart⟩ := hother c hc
    obtain ⟨hlow', hpos', hroom', hchain'⟩ := h.chains c hmem
    unfold Apart at hapart
    simp only [blockOf_heapMarkBlocksFree, htotal]
    exact ⟨hlow', hpos', hroom', hchain'.congr fun i hi hi' => hframe i (by omega)⟩
  · refine (h.apart.sublist List.filter_sublist).imp fun hab => ?_
    simpa [Apart] using hab
  · dsimp only at hi ⊢
    rw [htotal]
    rcases (hwritten i).mp hi with hi | hi
    · exact h.stored i hi
    · omega

theorem Inv.step {s t : HeapRun} {call : HeapCall} (h : s.Inv) (hstep : step s call t)
    (hserved : Served s call t) : t.Inv := by
  obtain ⟨henabled, rfl⟩ := hstep
  cases call with
  | malloc size =>
    obtain ⟨hlow, hhigh⟩ := henabled
    rcases heapMalloc_cases h.small hlow hhigh with ⟨b, hb, hroom, hfree, heq⟩ |
      ⟨b, hb, _, hin, hfree, hno, _⟩ | ⟨_, _, heq⟩
    · simp only [next, heq]
      apply malloc_fits h size hlow hb hroom hfree
      split_ifs
      · exact Or.inl rfl
      · exact Or.inr rfl
    · exfalso
      rcases hserved with hroom | hempty | hlast
      · exact hroom hno
      · omega
      · exact hlast (hfree _ (by omega) (by omega))
    · simp only [next, heq]
      exact h
  | free ptr =>
    obtain ⟨a, ha, rfl⟩ := henabled
    exact free_live h a ha hserved

theorem good_iff_served {s t : HeapRun} {call : HeapCall} (h : s.Inv)
    (hstep : step s call t) : Good s call t ↔ Served s call t := by
  refine ⟨fun hgood => ?_, fun hserved => ⟨(h.step hstep hserved).safe, ?_⟩⟩
  · obtain ⟨henabled, rfl⟩ := hstep
    have hstored := hgood.1.stored
    cases call with
    | malloc size =>
      by_contra hserved
      obtain ⟨hlow, hhigh⟩ := henabled
      rcases heapMalloc_cases h.small hlow hhigh with ⟨b, hb, hroom, hfree, heq⟩ |
        ⟨b, hb, hshort, _, _, _, heq⟩ | ⟨_, hlast, _⟩
      · exact hserved (Or.inl fun hno => hno b hb hroom hfree)
      · -- the last entry marked is past the end of the table
        have hsmall := h.small
        have htotal := heapMarkBlocksTaken_totalEntries s.heap b (blocksFor size)
        obtain ⟨_, hwritten⟩ := heapMarkBlocksTaken_frame s.heap
          (i32_blocksFor_end hhigh hb (by omega))
        have hpos := blocksFor_pos hlow
        simp only [next, heq, htotal] at hstored
        have hlast := hstored (b + blocksFor size - 1) ((hwritten _).mpr (Or.inr (by omega)))
        exact absurd hlast.2 (by omega)
      · exact hserved (Or.inr hlast)
    | free ptr =>
      by_contra hserved
      obtain ⟨a, ha, rfl⟩ := henabled
      have hsmall := h.small
      obtain ⟨hlow, hpos, hroom, _⟩ := h.chains a ha
      -- the signed difference of the addresses makes the block number negative
      have hnegative : heapAddressToBlock s.heap a.1 < 0 := by
        unfold Heap.blockOf at hroom
        unfold Served at hserved
        unfold heapAddressToBlock boiosHeapBlockSize i32
        rw [tdiv_of_nonpos (by omega)]
        omega
      have hwrap : i32 s.heap.table.totalEntries = s.heap.table.totalEntries :=
        i32_of_range (by omega) (by omega)
      obtain ⟨m, _, hm, _, _, _, _, _, hwritten⟩ := heapMarkBlocksFreeLoop_spec
        (i32 s.heap.table.totalEntries - heapAddressToBlock s.heap a.1).toNat
        (heapAddressToBlock s.heap a.1) s.heap.table
      have hmpos := hm (by omega)
      have hfirst := hstored (heapAddressToBlock s.heap a.1) (by
        simp only [next, heapFree, heapMarkBlocksFree_table]
        exact (hwritten _).mpr (Or.inr (by omega)))
      exact absurd hfirst.1 (by omega)
  · obtain ⟨henabled, rfl⟩ := hstep
    rintro size rfl hno
    rcases heapMalloc_cases h.small henabled.1 henabled.2 with ⟨b, hb, hroom, hfree, _⟩ |
      ⟨b, _, _, hin, hfree, _, _⟩ | ⟨_, _, heq⟩
    · exact absurd hfree (hno b hb hroom)
    · exfalso
      rcases hserved with hroom | hempty | hlast
      · exact hroom hno
      · omega
      · exact hlast (hfree _ (by omega) (by omega))
    · simp only [next, heq]
      trivial

theorem inv_of_heapCreate {heap created : Heap} {ptr endOfHeap : Nat} {table : HeapTable}
    (hcreate : heapCreate heap ptr endOfHeap table = (0, created)) (hwritten : table.written = []) :
    Inv ⟨created, []⟩ := by
  obtain ⟨_, htotal, _, hstored⟩ := heapCreate_spec hcreate
  have hlt := u32_lt ((endOfHeap : Int) - ptr)
  refine ⟨by dsimp only; omega, by simp, by simp, fun i hi => ?_⟩
  rcases (hstored i).mp hi with hi | hi
  · simp [hwritten] at hi
  · exact hi

/-- Every run from a newly created heap stays safe and answers every unsatisfiable
request with 0 exactly if the allocator serves each of its calls: no request without
room comes while the end of the table is free, and no pointer 2 GiB or more into the heap
is freed. -/
theorem heap_runs_good_iff {heap created : Heap} {ptr endOfHeap : Nat} {table : HeapTable}
    (hcreate : heapCreate heap ptr endOfHeap table = (0, created)) (hwritten : table.written = [])
    (run : List (HeapCall × HeapRun)) (hrun : Path step ⟨created, []⟩ run) :
    Safe ⟨created, []⟩ ∧ (Along Good ⟨created, []⟩ run ↔ Along Served ⟨created, []⟩ run) := by
  have hinv := inv_of_heapCreate hcreate hwritten
  have hkeep : ∀ s call t, Inv s → step s call t → Served s call t → Inv t :=
    fun _ _ _ h hstep hserved => h.step hstep hserved
  have hdecides : ∀ s call t, Inv s → step s call t → (Good s call t ↔ Served s call t) :=
    fun _ _ _ h hstep => good_iff_served h hstep
  exact ⟨hinv.safe, along_iff hkeep hdecides _ run hinv hrun⟩

/-! A heap of four blocks on which a request for three blocks comes after two are taken. -/

def fourEntries : HeapTable := ⟨fun _ => 0, 4, []⟩

def fourBlocks : Heap := (heapCreate ⟨fourEntries, 0⟩ 0x1000000 0x1004000 fourEntries).2

def overfullRun : List (HeapCall × HeapRun) :=
  trace next ⟨fourBlocks, []⟩ [.malloc 8192, .malloc 12288]

theorem fourBlocks_created :
    heapCreate ⟨fourEntries, 0⟩ 0x1000000 0x1004000 fourEntries = (0, fourBlocks) :=
  Prod.ext (by decide +kernel) rfl

theorem overfullRun_path : Path step ⟨fourBlocks, []⟩ overfullRun :=
  ⟨⟨⟨by decide, by decide⟩, rfl⟩, ⟨⟨by decide, by decide⟩, rfl⟩, trivial⟩

theorem overfullRun_stores : (4 : Int) ∈ (last ⟨fourBlocks, []⟩ overfullRun).heap.table.written := by
  decide +kernel

theorem heap_runs_good_fourBlocks : Safe ⟨fourBlocks, []⟩ ∧
    (Along Good ⟨fourBlocks, []⟩ overfullRun ↔ Along Served ⟨fourBlocks, []⟩ overfullRun) :=
  heap_runs_good_iff fourBlocks_created rfl overfullRun overfullRun_path

theorem heap_runs_not_always_good : ¬ ∀ (heap created : Heap) (ptr endOfHeap : Nat)
    (table : HeapTable), heapCreate heap ptr endOfHeap table = (0, created) → table.written = [] →
    ∀ run, Path step ⟨created, []⟩ run → Along Good ⟨created, []⟩ run := by
  intro h
  have hgood := h _ _ _ _ _ fourBlocks_created rfl overfullRun overfullRun_path
  have hstored := hgood.2.1.1.stored 4 overfullRun_stores
  have htotal : (last ⟨fourBlocks, []⟩ overfullRun).heap.table.totalEntries = 4 := by
    decide +kernel
  exact absurd (lt_of_lt_of_eq hstored.2 (congrArg Nat.cast htotal)) (by decide)

end HeapRun
end BoiOS
