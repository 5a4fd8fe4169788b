import BoiOS.Kernel.HeapFrame
import BoiOS.Memory.PagingSpec

/-! The page directories of `paging_new_4gb`: what they map, what mapping through them changes and
which blocks of the heap they take and give back. The heap table may hold anything. -/
namespace BoiOS
open Library.StateRun

/-! Single blocks. -/

/-- The heap starts at a block, and its blocks have addresses that `heap_address_to_block` turns
back into their indexes. -/
structure Heap.Placed (heap : Heap) : Prop where
  aligned : heap.startAddress % 4096 = 0
  positive : 0 < heap.startAddress
  fits : heap.startAddress + 4096 * heap.table.totalEntries < 4294967296
  span : heap.table.totalEntries ≤ 524288

theorem Heap.Placed.congr {heap heap' : Heap} (h : heap.Placed)
    (hstart : heap'.startAddress = heap.startAddress)
    (htotal : heap'.table.totalEntries = heap.table.totalEntries) : heap'.Placed :=
  ⟨by rw [hstart]; exact h.aligned, by rw [hstart]; exact h.positive,
    by rw [hstart, htotal]; exact h.fits, by rw [htotal]; exact h.span⟩

def heapBlockSingle : UInt8 := heapBlockTableEntryTaken ||| heapBlockIsFirst

/-- The step took the free block at `ptr`, and nothing else of the table differs. -/
structure Heap.TakesBlock (heap heap' : Heap) (ptr : Nat) : Prop where
  block : heap.IsBlock ptr
  free : heap.table.IsFree (heap.blockOf ptr)
  entries : heap'.table.entries =
    Function.update heap.table.entries (heap.blockOf ptr) heapBlockSingle
  start : heap'.startAddress = heap.startAddress
  total : heap'.table.totalEntries = heap.table.totalEntries

theorem heapMarkBlocksTaken_one (heap : Heap) {b : Int} (hb : 0 ≤ b) (hb' : b < 1048576) :
    (heapMarkBlocksTaken heap b 1).table.entries =
      Function.update heap.table.entries b heapBlockSingle := by
  have hend : i32 (b + 1 - 1) = b + 1 - 1 := i32_of_range (by omega) (by omega)
  obtain ⟨hframe, -⟩ := heapMarkBlocksTaken_frame heap hend
  funext i
  by_cases hi : i = b
  · rw [hi, Function.update_self]
    have hentry := heapMarkBlocksTakenLoop_entries (b + 1 - 1) (b + 1 - 1 + 1 - b).toNat b
      heapBlockSingle heap.table b (le_refl b) (by omega)
    rw [if_pos rfl] at hentry
    rw [heapMarkBlocksTaken_table heap hend]
    exact hentry
  · rw [Function.update_of_ne hi, hframe i (by omega)]

theorem Heap.Placed.isBlock {heap : Heap} (h : heap.Placed) {b : Int} (hlow : 0 ≤ b)
    (hhigh : b < heap.table.totalEntries) :
    heap.IsBlock (heapBlockToAddress heap b) ∧ heap.blockOf (heapBlockToAddress heap b) = b := by
  have hfits := h.fits
  have hspan := h.span
  have haddress : (heapBlockToAddress heap b : Int) = heap.startAddress + 4096 * b := by
    rw [heapBlockToAddress_eq, u32_of_range (by omega) (by omega)]
    omega
  have hblock := blockOf_heapBlockToAddress heap b hlow (by omega)
  exact ⟨⟨by rwa [hblock], by rwa [hblock], by rwa [hblock]⟩, hblock⟩

theorem Heap.Placed.addressToBlock {heap : Heap} (h : heap.Placed) {b : Int} (hlow : 0 ≤ b)
    (hhigh : b < heap.table.totalEntries) :
    heapAddressToBlock heap (heapBlockToAddress heap b) = b := by
  have hspan := h.span
  obtain ⟨hblock, heq⟩ := h.isBlock hlow hhigh
  have haddress := hblock.address
  rw [heq] at haddress
  rw [heapAddressToBlock_eq_blockOf heap _ (by omega), heq]

theorem Heap.Placed.heapMalloc {heap : Heap} (h : heap.Placed) {size : Nat} (hlow : 1 ≤ size)
    (hhigh : size ≤ 4096) (hptr : (heapMalloc heap size).1 ≠ 0) :
    heap.TakesBlock (heapMalloc heap size).2 (heapMalloc heap size).1 := by
  have hspan := h.span
  have hone : blocksFor size = 1 := by
    unfold blocksFor
    omega
  have htake : ∀ b : Int, 0 ≤ b → b < heap.table.totalEntries → heap.table.IsFree b →
      heap.TakesBlock (heapMarkBlocksTaken heap b 1) (heapBlockToAddress heap b) := by
    intro b hb hb' hfree
    obtain ⟨hblock, heq⟩ := h.isBlock hb hb'
    refine ⟨hblock, by rwa [heq], ?_, rfl, heapMarkBlocksTaken_totalEntries ..⟩
    rw [heq]
    exact heapMarkBlocksTaken_one heap hb (by omega)
  rcases heapMalloc_cases (by omega : heap.table.totalEntries < 1048576) hlow (by omega) with
    ⟨b, hb, hroom, hrun, heq⟩ | ⟨b, hb, -, hin, hrun, -, heq⟩ | ⟨-, -, heq⟩
  · rw [hone] at hroom hrun heq
    rw [heq]
    exact htake b hb (by omega) (hrun b (le_refl b) (by omega))
  · rw [hone] at heq
    rw [heq]
    exact htake b hb hin (hrun b (le_refl b) (by omega))
  · rw [heq] at hptr
    exact absurd rfl hptr

theorem Heap.Placed.kzalloc {k k' : Kernel} (h : k.heap.Placed) {size ptr : Nat} (hlow : 1 ≤ size)
    (hhigh : size ≤ 4096) (hrun : kzalloc size k = .ok (ptr, k')) (hptr : ptr ≠ 0) :
    k.heap.TakesBlock k'.heap ptr ∧ k'.pages = k.pages := by
  obtain ⟨rfl, rfl⟩ := kzalloc_eq_ok hrun
  exact ⟨h.heapMalloc hlow hhigh hptr, rfl⟩

theorem not_isFree_of_single {table : HeapTable} {b : Int}
    (h : table.entries b = heapBlockSingle) : ¬ table.IsFree b :=
  not_isFree_of_taken h (by decide)

theorem Heap.Placed.heapFree {heap : Heap} (h : heap.Placed) {ptr : Nat} (hptr : heap.IsBlock ptr)
    (hsingle : heap.table.entries (heap.blockOf ptr) = heapBlockSingle) :
    (heapFree heap ptr).table.entries =
      Function.update heap.table.entries (heap.blockOf ptr) heapBlockTableEntryFree := by
  have hspan := h.span
  have hlow := hptr.low
  have hhigh := hptr.high
  have hindex : heapAddressToBlock heap ptr = heap.blockOf ptr := by
    apply heapAddressToBlock_eq_blockOf
    have haddress := hptr.address
    omega
  have hchain : heap.table.Chain (heap.blockOf ptr) 1 := by
    intro i hi hi'
    rw [show i = heap.blockOf ptr by omega]
    refine ⟨not_isFree_of_single hsingle, ?_⟩
    rw [hasNext_iff_of_eq hsingle]
    exact ⟨fun hnext => absurd hnext (by decide), fun hne => absurd hne (by omega)⟩
  obtain ⟨-, hzero, hframe, -⟩ := heapMarkBlocksFree_chain heap (heap.blockOf ptr) 1 hlow
    (by omega) (by omega) (by omega) hchain
  rw [BoiOS.heapFree, hindex]
  funext i
  by_cases hi : i = heap.blockOf ptr
  · rw [hi, Function.update_self]
    exact hzero _ (le_refl _) (by omega)
  · rw [Function.update_of_ne hi]
    exact hframe i (by omega)

/-! The new directory. -/

def directoryArrays (directory n : Nat) (tables : Nat → Nat) : Set Nat :=
  {a | a = directory ∨ ∃ j < n, a = tables j}

/-- The objects at `addresses` took free blocks of the heap, one each, and no other block. -/
structure TookBlocks (addresses : Set Nat) (heap heap' : Heap) : Prop where
  start : heap'.startAddress = heap.startAddress
  total : heap'.table.totalEntries = heap.table.totalEntries
  blocks : ∀ a ∈ addresses, heap.IsBlock a
  free : ∀ a ∈ addresses, heap.table.IsFree (heap.blockOf a)
  taken : ∀ a ∈ addresses, heap'.table.entries (heap.blockOf a) = heapBlockSingle
  kept : ∀ b, (∀ a ∈ addresses, b ≠ heap.blockOf a) → heap'.table.entries b = heap.table.entries b

namespace TookBlocks

theorem refl (heap : Heap) : TookBlocks ∅ heap heap :=
  ⟨rfl, rfl, by simp, by simp, by simp, fun _ _ => rfl⟩

theorem not_mem {addresses : Set Nat} {heap heap' heap'' : Heap} {ptr : Nat}
    (h : TookBlocks addresses heap heap') (htake : heap'.TakesBlock heap'' ptr) :
    ptr ∉ addresses := by
  intro hmem
  have htaken := h.taken ptr hmem
  rw [← Heap.blockOf_congr h.start] at htaken
  exact not_isFree_of_single htaken htake.free

theorem take {addresses : Set Nat} {heap heap' heap'' : Heap} {ptr : Nat}
    (h : TookBlocks addresses heap heap') (htake : heap'.TakesBlock heap'' ptr) :
    TookBlocks (insert ptr addresses) heap heap'' := by
  have hblock := Heap.blockOf_congr h.start
  have hptr : heap.IsBlock ptr := htake.block.congr h.start.symm h.total.symm
  have hother : ∀ a ∈ addresses, heap.blockOf a ≠ heap.blockOf ptr := by
    intro a ha heq
    apply h.not_mem htake
    rwa [← (h.blocks a ha).eq hptr heq]
  refine ⟨htake.start.trans h.start, htake.total.trans h.total, ?_, ?_, ?_, fun b hb => ?_⟩
  · intro a ha
    rcases Set.mem_insert_iff.mp ha with rfl | ha
    · exact hptr
    · exact h.blocks a ha
  · intro a ha
    rcases Set.mem_insert_iff.mp ha with rfl | ha
    · have hfree := htake.free
      rw [hblock] at hfree
      rwa [← HeapTable.isFree_congr (h.kept _ fun c hc => (hother c hc).symm)]
    · exact h.free a ha
  · intro a ha
    rw [htake.entries, hblock]
    rcases Set.mem_insert_iff.mp ha with rfl | ha
    · exact Function.update_self ..
    · rw [Function.update_of_ne (hother a ha)]
      exact h.taken a ha
  · rw [htake.entries, hblock, Function.update_of_ne (hb ptr (Set.mem_insert ..))]
    exact h.kept b fun a ha => hb a (Set.mem_insert_of_mem ptr ha)

theorem changed_iff {addresses : Set Nat} {heap heap' : Heap} (h : TookBlocks addresses heap heap')
    (b : Int) : heap'.table.entries b ≠ heap.table.entries b ↔ ∃ a ∈ addresses, b = heap.blockOf a := by
  constructor
  · intro hne
    by_contra hnone
    push Not at hnone
    exact hne (h.kept b hnone)
  · rintro ⟨a, ha, rfl⟩ heq
    have htaken := h.taken a ha
    rw [heq] at htaken
    exact not_isFree_of_single htaken (h.free a ha)

end TookBlocks

theorem directoryArrays_zero (directory : Nat) (tables : Nat → Nat) :
    directoryArrays directory 0 tables = {directory} := by
  ext a
  simp [directoryArrays]

theorem directoryArrays_succ {directory n entry : Nat} {tables tables' : Nat → Nat}
    (hold : ∀ j < n, tables' j = tables j) (hlast : tables' n = entry) :
    directoryArrays directory (n + 1) tables' = insert entry (directoryArrays directory n tables) := by
  ext a
  simp only [directoryArrays, Set.mem_ofPred_eq, Set.mem_insert_iff]
  constructor
  · rintro (hdirectory | ⟨j, hj, rfl⟩)
    · exact Or.inr (Or.inl hdirectory)
    · by_cases hjn : j = n
      · rw [hjn, hlast]
        exact Or.inl rfl
      · rw [hold j (by omega)]
        exact Or.inr (Or.inr ⟨j, by omega, rfl⟩)
  · rintro (rfl | hdirectory | ⟨j, hj, rfl⟩)
    · exact Or.inr ⟨n, by omega, hlast.symm⟩
    · exact Or.inl hdirectory
    · exact Or.inr ⟨j, by omega, (hold j hj).symm⟩

/-- The first `n` tables of the directory map the first `n` parts of the address space to
themselves; they and the directory are all that was allocated since the heap was `heap`. -/
structure Built (heap : Heap) (flags : Nat) (k : Kernel) (directory n : Nat) (entries : Nat → Nat) :
    Prop where
  took : TookBlocks (directoryArrays directory n fun j => pagingFrame (entries j)) heap k.heap
  array : k.pages.arrays directory = some entries
  tables : ∀ j < n, k.pages.arrays (pagingFrame (entries j)) = some (pagingIdentityTable flags j)
  apart : ∀ j < n, pagingFrame (entries j) ≠ directory
  distinct : ∀ i < n, ∀ j < n, pagingFrame (entries i) = pagingFrame (entries j) → i = j

theorem Built.next {heap : Heap} {flags directory i entry : Nat} {entries : Nat → Nat} {k k' : Kernel}
    (h : Built heap flags k directory i entries) (hheap : heap.Placed) (hflags : flags < 256)
    (htake : k.heap.TakesBlock k'.heap entry)
    (hpages : k'.pages = (k.pages.putArray entry (pagingIdentityTable flags i)).putArray directory
      (Function.update entries i (entry ||| flags ||| pagingIsWritable))) :
    Built heap flags k' directory (i + 1)
      (Function.update entries i (entry ||| flags ||| pagingIsWritable)) := by
  have hnew := h.took.not_mem htake
  have hdirectory : entry ≠ directory := fun heq => hnew (Or.inl heq)
  have htable : ∀ j < i, entry ≠ pagingFrame (entries j) := fun j hj heq =>
    hnew (Or.inr ⟨j, hj, heq⟩)
  have halign : entry % 4096 = 0 := by
    have haligned := hheap.aligned
    have haddress := htake.block.address
    have hstart := h.took.start
    omega
  have hframe : pagingFrame (entry ||| flags ||| pagingIsWritable) = entry := by
    rw [Nat.or_assoc]
    apply pagingFrame_or halign
    exact Nat.or_lt_two_pow (n := 12) (by omega) (by decide)
  have hold : ∀ j < i, Function.update entries i (entry ||| flags ||| pagingIsWritable) j =
      entries j := fun j hj => Function.update_of_ne (by omega) _ _
  have hself : pagingFrame (Function.update entries i (entry ||| flags ||| pagingIsWritable) i) =
      entry := by
    rw [Function.update_self, hframe]
  have harrays : ∀ a, a ≠ directory → a ≠ entry → k'.pages.arrays a = k.pages.arrays a := by
    intro a ha ha'
    rw [hpages]
    exact (Function.update_of_ne ha _ _).trans (Function.update_of_ne ha' _ _)
  constructor
  case took =>
    have hsucc : directoryArrays directory (i + 1) (fun j => pagingFrame
          (Function.update entries i (entry ||| flags ||| pagingIsWritable) j)) =
        insert entry (directoryArrays directory i fun j => pagingFrame (entries j)) := by
      apply directoryArrays_succ
      · intro j hj
        rw [hold j hj]
      · exact hself
    rw [hsucc]
    exact h.took.take htake
  case array =>
    rw [hpages]
    exact Function.update_self ..
  case tables =>
    intro j hj
    by_cases hji : j = i
    · rw [hji, hself, hpages]
      exact (Function.update_of_ne hdirectory _ _).trans (Function.update_self ..)
    · rw [hold j (by omega), harrays _ (h.apart j (by omega)) (htable j (by omega)).symm]
      exact h.tables j (by omega)
  case apart =>
    intro j hj
    by_cases hji : j = i
    · rwa [hji, hself]
    · rw [hold j (by omega)]
      exact h.apart j (by omega)
  case distinct =>
    intro j hj j' hj' heq
    by_cases hji : j = i
    · by_cases hji' : j' = i
      · rw [hji, hji']
      · rw [hji, hself, hold j' (by omega)] at heq
        exact absurd heq (htable j' (by omega))
    · by_cases hji' : j' = i
      · rw [hji', hself, hold j (by omega)] at heq
        exact absurd heq.symm (htable j (by omega))
      · rw [hold j (by omega), hold j' (by omega)] at heq
        exact h.distinct j (by omega) j' (by omega) heq

theorem Built.loop {heap : Heap} {flags directory : Nat} (hheap : heap.Placed) (hflags : flags < 256)
    (count : Nat) {i : Nat} {entries : Nat → Nat} {k k' : Kernel} {u : Unit}
    (h : Built heap flags k directory i entries)
    (hrun : pagingNew4gbLoop directory flags count i k = .ok (u, k')) :
    ∃ entries', Built heap flags k' directory (i + count) entries' := by
  induction count generalizing i entries k with
  | zero =>
    obtain ⟨-, rfl⟩ := pure_eq_ok.mp hrun
    exact ⟨entries, h⟩
  | succ count ih =>
    unfold pagingNew4gbLoop at hrun
    obtain ⟨entry, k₁, halloc, hrun⟩ := bind_eq_ok.mp hrun
    by_cases hnull : entry = 0
    · rw [if_pos hnull] at hrun
      exact (throw_eq_ok.mp hrun).elim
    rw [if_neg hnull] at hrun
    have hplaced : k.heap.Placed := hheap.congr h.took.start h.took.total
    obtain ⟨htake, hpages₁⟩ := hplaced.kzalloc (by decide) (by decide) halloc hnull
    obtain ⟨_, k₂, hput, hrun⟩ := bind_eq_ok.mp hrun
    have hk₂ := modify_eq_ok.mp hput
    replace hrun := bind_get_eq_ok.mp hrun
    obtain ⟨es, hes, hrun⟩ := bind_fetch_eq_ok.mp hrun
    obtain ⟨_, k₃, hput, hrun⟩ := bind_eq_ok.mp hrun
    have hk₃ := modify_eq_ok.mp hput
    have hdirectory : directory ≠ entry := fun heq => h.took.not_mem htake (Or.inl heq.symm)
    have hentries : es = entries := by
      rw [← hk₂] at hes
      have hsame : (k₁.pages.putArray entry (pagingIdentityTable flags i)).arrays directory =
          some entries := by
        rw [← h.array, ← hpages₁]
        exact Function.update_of_ne hdirectory _ _
      rw [hsame, Option.some.injEq] at hes
      exact hes.symm
    subst hentries
    have hheap₃ : k₃.heap = k₁.heap := by rw [← hk₃, ← hk₂]
    have hnext : Built heap flags k₃ directory (i + 1)
        (Function.update es i (entry ||| flags ||| pagingIsWritable)) := by
      apply h.next hheap hflags
      · rwa [hheap₃]
      · rw [← hk₃, ← hk₂, ← hpages₁]
    obtain ⟨entries', hbuilt⟩ := ih hnext hrun
    refine ⟨entries', ?_⟩
    rwa [show i + (count + 1) = i + 1 + count by omega]

/-- A new directory: all its tables map to themselves, and it and its chunk are all that was
allocated. -/
structure BuiltChunk (heap : Heap) (flags : Nat) (k : Kernel) (chunk directory : Nat)
    (tables : Nat → Nat) : Prop where
  took : TookBlocks (insert chunk (directoryArrays directory 1024 tables)) heap k.heap
  holds : k.pages.chunks chunk = some directory
  isDirectory : IsDirectory k.pages directory tables
  identity : ∀ j < 1024, k.pages.arrays (tables j) = some (pagingIdentityTable flags j)
  fresh : chunk ∉ directoryArrays directory 1024 tables

theorem pagingNew4gb_built {flags chunk : Nat} {k k' : Kernel} (hheap : k.heap.Placed)
    (hflags : flags < 256) (hnull : k.pages.arrays 0 = none)
    (hrun : pagingNew4gb flags k = .ok (chunk, k')) :
    ∃ directory tables, BuiltChunk k.heap flags k' chunk directory tables := by
  obtain ⟨directory, k₀, k₂, k₃, hdirectory, hchunk, halloc, hloop, halloc', rfl⟩ :=
    pagingNew4gb_eq_ok hnull hrun
  obtain ⟨htake, -⟩ := hheap.kzalloc (by decide) (by decide) halloc hdirectory
  have hstart : Built k.heap flags { k₀ with pages := k₀.pages.putArray directory fun _ => 0 }
      directory 0 fun _ => 0 := by
    refine ⟨?_, Function.update_self .., fun j hj => absurd hj (Nat.not_lt_zero j),
      fun j hj => absurd hj (Nat.not_lt_zero j), fun j hj => absurd hj (Nat.not_lt_zero j)⟩
    rw [directoryArrays_zero, ← insert_empty_eq]
    exact (TookBlocks.refl k.heap).take htake
  obtain ⟨entries, hbuilt⟩ := hstart.loop hheap hflags _ hloop
  rw [Nat.zero_add] at hbuilt
  have hplaced : k₂.heap.Placed := hheap.congr hbuilt.took.start hbuilt.took.total
  obtain ⟨htake', hpages⟩ := hplaced.kzalloc (by decide) (by decide) halloc' hchunk
  refine ⟨directory, fun j => pagingFrame (entries j), hbuilt.took.take htake',
    Function.update_self .., ?_, ?_, hbuilt.took.not_mem htake'⟩
  · rw [hpages]
    exact ⟨⟨entries, hbuilt.array, fun _ _ => rfl⟩, fun i hi => ⟨_, hbuilt.tables i hi⟩,
      hbuilt.apart, hbuilt.distinct⟩
  · rw [hpages]
    exact hbuilt.tables

/-! With enough free blocks the directory is made. -/

theorem pagingNew4gbLoop_returns (directory flags count : Nat) {i : Nat} {entries : Nat → Nat}
    {k : Kernel} (hwf : k.heap.WellFormed) (hfree : count ≤ k.heap.freeBlocks)
    (harray : k.pages.arrays directory = some entries) :
    ∃ k', pagingNew4gbLoop directory flags count i k = .ok ((), k') ∧ k'.heap.WellFormed ∧
      k'.heap.freeBlocks + count = k.heap.freeBlocks := by
  induction count generalizing i entries k with
  | zero => exact ⟨k, rfl, hwf, rfl⟩
  | succ count ih =>
    obtain ⟨entry, k₁, halloc, hroom⟩ :=
      kzalloc_small (k := k) hwf (by decide : 1 ≤ 4 * pagingTotalEntriesPerTable) (by decide)
    obtain ⟨hne, hcount⟩ := hroom (by omega)
    obtain ⟨hobtained, hk₁⟩ := kzalloc_obtained hwf.guards (by decide) halloc
    have hpages₁ : k₁.pages = k.pages := by rw [hk₁]
    obtain ⟨es, hes⟩ : ∃ es,
        (k₁.pages.putArray entry (pagingIdentityTable flags i)).arrays directory = some es := by
      rw [hpages₁]
      by_cases heq : directory = entry
      · rw [heq]
        exact ⟨_, Function.update_self ..⟩
      · exact ⟨entries, (Function.update_of_ne heq _ _).trans harray⟩
    let k₃ : Kernel := { k₁ with
      pages := (k₁.pages.putArray entry (pagingIdentityTable flags i)).putArray directory
        (Function.update es i (entry ||| flags ||| pagingIsWritable)) }
    obtain ⟨k', hrun, hwf', hcount'⟩ := ih (k := k₃) (i := i + 1) hobtained.guards.wellFormed
      (by change count ≤ k₁.heap.freeBlocks; omega) (Function.update_self ..)
    refine ⟨k', ?_, hwf', ?_⟩
    · unfold pagingNew4gbLoop
      rw [bind_of_ok halloc, if_neg hne, bind_apply, modify_apply]
      simp only [Except.bind, bind_apply, get_apply, modify_apply, hes, fetch_some]
      exact hrun
    · change k'.heap.freeBlocks + count = k₁.heap.freeBlocks at hcount'
      omega

theorem pagingNew4gb_returns (flags : Nat) {k : Kernel} (hwf : k.heap.WellFormed)
    (hfree : 1026 ≤ k.heap.freeBlocks) : ∃ chunk k', pagingNew4gb flags k = .ok (chunk, k') ∧
      k'.heap.WellFormed ∧ k'.heap.freeBlocks + 1026 = k.heap.freeBlocks := by
  obtain ⟨directory, k₁, halloc, hroom⟩ :=
    kzalloc_small (k := k) hwf (by decide : 1 ≤ 4 * pagingTotalEntriesPerTable) (by decide)
  obtain ⟨hne, hcount⟩ := hroom (by omega)
  obtain ⟨hobtained, -⟩ := kzalloc_obtained hwf.guards (by decide) halloc
  let k₂ : Kernel := { k₁ with pages := k₁.pages.putArray directory fun _ => 0 }
  have hobject : kzallocObject (4 * pagingTotalEntriesPerTable) (fun ptr k =>
      { k with pages := k.pages.putArray ptr fun _ => 0 }) k = .ok (directory, k₂) := by
    unfold kzallocObject
    rw [bind_of_ok halloc, bind_apply, modify_apply]
    simp only [Except.bind, if_neg hne]
    rfl
  obtain ⟨k₃, hloop, hwf₃, hcount₃⟩ := pagingNew4gbLoop_returns directory flags
    pagingTotalEntriesPerTable (i := 0) (k := k₂) hobtained.guards.wellFormed
    (by change 1024 ≤ k₁.heap.freeBlocks; omega) (Function.update_self ..)
  change k₃.heap.freeBlocks + 1024 = k₁.heap.freeBlocks at hcount₃
  obtain ⟨chunk, k₄, hchunk, hroom⟩ :=
    kzalloc_small (k := k₃) hwf₃ (by decide : 1 ≤ 4) (by decide)
  obtain ⟨hne₄, hcount₄⟩ := hroom (by omega)
  obtain ⟨hobtained₄, -⟩ := kzalloc_obtained hwf₃.guards (by decide) hchunk
  refine ⟨chunk, { k₄ with pages := k₄.pages.putChunk chunk (some directory) }, ?_,
    hobtained₄.guards.wellFormed, ?_⟩
  · unfold pagingNew4gb
    rw [bind_of_ok hobject, bind_of_ok hloop, bind_of_ok hchunk, if_neg hne₄]
    rfl
  · change k₄.heap.freeBlocks + 1026 = k.heap.freeBlocks
    omega

theorem emptyKernel_freeBlocks (blocks : Nat) : (emptyKernel blocks).heap.freeBlocks = blocks := by
  have hall : ∀ i : Nat, (emptyKernel blocks).heap.table.IsFree i := fun i =>
    HeapTable.isFree_of_eq_zero rfl
  unfold Heap.freeBlocks
  simp only [hall, Finset.filter_true, Finset.card_range]
  rfl

theorem Heap.WellFormed.placed {heap : Heap} (h : heap.WellFormed) : heap.Placed := by
  have hbelow := h.below
  exact ⟨h.aligned, h.positive, by omega, by omega⟩

theorem pagingNew4gb_emptyKernel (flags : Nat) :
    ∃ chunk k', pagingNew4gb flags (emptyKernel 1026) = .ok (chunk, k') := by
  obtain ⟨chunk, k', hrun, -⟩ := pagingNew4gb_returns flags (k := emptyKernel 1026)
    (emptyKernel_wellFormed (by decide)) (by rw [emptyKernel_freeBlocks])
  exact ⟨chunk, k', hrun⟩

/-! The address space of a new directory. -/

theorem pagingGetPhysicalAddress_of_entry {s : PageStore} {directory x p flags : Nat}
    (hp : p % 4096 = 0) (hflags : flags < 4096)
    (hget : pagingGet s directory (pagingAlignToLowerPage x) = .ok (p ||| flags)) :
    pagingGetPhysicalAddress s directory x = .ok (p + x % 4096) := by
  unfold pagingGetPhysicalAddress
  dsimp only
  rw [hget]
  simp only [Except.map, pagingFrame_or hp hflags]
  congr 2
  unfold pagingAlignToLowerPage pagingPageSize
  omega

theorem BuiltChunk.get {heap : Heap} {flags chunk directory : Nat} {k : Kernel}
    {tables : Nat → Nat} (h : BuiltChunk heap flags k chunk directory tables) {va : Nat}
    (hva : va < 4294967296) (haligned : va % 4096 = 0) :
    pagingGet k.pages directory va = .ok (va ||| flags) := by
  rw [pagingGet_of_aligned haligned]
  unfold pagingEntry
  rw [h.isDirectory.table hva, access_some]
  simp only [Except.bind, h.identity _ (pagingDirectoryIndex_lt hva), access_some, Except.map]
  unfold pagingIdentityTable
  congr 2
  unfold pagingDirectoryIndex pagingTableIndex pagingTotalEntriesPerTable pagingPageSize
  have hwhole : va / (1024 * 4096) * (1024 * 4096) + va % (1024 * 4096) / 4096 * 4096 = va := by
    omega
  rw [hwhole]
  exact u32_natCast hva

/-- A new page directory maps every address to itself, with the flags that were asked for. -/
theorem paging_new_4gb_identity {flags chunk : Nat} {k k' : Kernel} (hheap : k.heap.Placed)
    (hflags : flags < 256) (hnull : k.pages.arrays 0 = none)
    (hrun : pagingNew4gb flags k = .ok (chunk, k')) :
    ∃ directory, k'.pages.chunks chunk = some directory ∧
      (∀ va < 4294967296, va % 4096 = 0 → pagingGet k'.pages directory va = .ok (va ||| flags)) ∧
      ∀ x < 4294967296, pagingGetPhysicalAddress k'.pages directory x = .ok x := by
  obtain ⟨directory, tables, hbuilt⟩ := pagingNew4gb_built hheap hflags hnull hrun
  refine ⟨directory, hbuilt.holds, fun va hva haligned => hbuilt.get hva haligned, fun x hx => ?_⟩
  have halign := pagingAlignToLowerPage_aligned x
  have hphysical := pagingGetPhysicalAddress_of_entry halign (by omega : flags < 4096)
    (hbuilt.get (pagingAlignToLowerPage_lt hx) halign)
  rw [hphysical]
  congr 1
  unfold pagingAlignToLowerPage pagingPageSize
  omega

theorem paging_new_4gb_identity_emptyKernel :
    ∃ chunk k' directory, pagingNew4gb pagingIsPresent (emptyKernel 1026) = .ok (chunk, k') ∧
      k'.pages.chunks chunk = some directory ∧
      (∀ va < 4294967296, va % 4096 = 0 →
        pagingGet k'.pages directory va = .ok (va ||| pagingIsPresent)) ∧
      ∀ x < 4294967296, pagingGetPhysicalAddress k'.pages directory x = .ok x := by
  obtain ⟨chunk, k', hrun⟩ := pagingNew4gb_emptyKernel pagingIsPresent
  have hwf : (emptyKernel 1026).heap.WellFormed := emptyKernel_wellFormed (by decide)
  obtain ⟨directory, hidentity⟩ := paging_new_4gb_identity hwf.placed (by decide) rfl hrun
  exact ⟨chunk, k', directory, hrun, hidentity⟩

end BoiOS
