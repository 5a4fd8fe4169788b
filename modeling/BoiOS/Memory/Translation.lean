import BoiOS.Machine.AddressSpace
import BoiOS.Memory.MappingRuns

/-! What the processor makes of a page directory: an address space in which a page is there if the
directory and the table both say so. One entry of a table is changed and put back, and the directory
is what it was. -/
namespace BoiOS
open Library.StateRun Library.Transition

def pagingSpace (s : PageStore) (directory : Nat) : AddressSpace := fun va =>
  (s.arrays directory).bind fun entries =>
    let entry := entries (pagingDirectoryIndex va)
    if entry &&& pagingIsPresent = 0 then none
    else (s.arrays (pagingFrame entry)).bind fun table =>
      let page := table (pagingTableIndex va)
      if page &&& pagingIsPresent = 0 then none else some (pagingFrame page + va % pagingPageSize)

def TablesPresent (s : PageStore) (directory : Nat) : Prop :=
  ∃ entries, s.arrays directory = some entries ∧ ∀ i < 1024, entries i &&& pagingIsPresent ≠ 0

theorem pagingIndexes_lowerPage (va : Nat) :
    pagingDirectoryIndex (pagingAlignToLowerPage va) = pagingDirectoryIndex va ∧
      pagingTableIndex (pagingAlignToLowerPage va) = pagingTableIndex va := by
  unfold pagingAlignToLowerPage pagingDirectoryIndex pagingTableIndex pagingTotalEntriesPerTable
    pagingPageSize
  omega

/-- The entry that the processor finds for an address is the one of its page. -/
theorem pagingSpace_eq {s : PageStore} {directory va entry : Nat} {entries tables : Nat → Nat}
    (h : IsDirectory s directory tables) (harray : s.arrays directory = some entries)
    (hva : va < 4294967296) (hget : pagingGet s directory (pagingAlignToLowerPage va) = .ok entry) :
    pagingSpace s directory va =
      if entries (pagingDirectoryIndex va) &&& pagingIsPresent = 0 then none
      else if entry &&& pagingIsPresent = 0 then none
      else some (pagingFrame entry + va % 4096) := by
  obtain ⟨hindex, hindex'⟩ := pagingIndexes_lowerPage va
  have hlt := pagingDirectoryIndex_lt hva
  obtain ⟨entries', harray', hframes⟩ := h.holds
  obtain rfl := Option.some.inj (harray.symm.trans harray')
  obtain ⟨table, htable⟩ := h.present _ hlt
  have hentry : table (pagingTableIndex va) = entry := by
    rw [pagingGet_of_aligned (pagingAlignToLowerPage_aligned va)] at hget
    unfold pagingEntry at hget
    rw [h.table (pagingAlignToLowerPage_lt hva), access_some, hindex, hindex'] at hget
    simp only [Except.bind, htable, access_some, Except.map, Except.ok.injEq] at hget
    exact hget
  unfold pagingSpace
  rw [harray, Option.bind_some]
  dsimp only
  rw [hframes _ hlt, htable, Option.bind_some, hentry]
  rfl

/-- While one entry of a directory is another: the rest of it is as before, and putting the old entry
back leaves every array as it was. -/
structure BorrowsEntry (s s₁ : PageStore) (directory va value old : Nat) (tables : Nat → Nat) :
    Prop where
  isDirectory : IsDirectory s₁ directory tables
  array : s₁.arrays directory = s.arrays directory
  chunks : s₁.chunks = s.chunks
  entry : ∀ va' < 4294967296, va' % 4096 = 0 → pagingGet s₁ directory va' =
    if va' = va then .ok value else pagingGet s directory va'
  restore : ∃ s₂, pagingSet s₁ directory va old = .ok (0, s₂) ∧ s₂.arrays = s.arrays ∧
    s₂.chunks = s.chunks

theorem pagingSet_borrows {s : PageStore} {directory va old : Nat} {tables : Nat → Nat}
    (h : IsDirectory s directory tables) (hva : va < 4294967296) (haligned : va % 4096 = 0)
    (hold : pagingGet s directory va = .ok old) (value : Nat) :
    ∃ s₁, pagingSet s directory va value = .ok (0, s₁) ∧
      BorrowsEntry s s₁ directory va value old tables := by
  have hindex := pagingDirectoryIndex_lt hva
  obtain ⟨entries, harray, hset⟩ := h.pagingSet hva haligned value
  obtain ⟨hdirectory, hget⟩ := h.setEntry_self value hva haligned harray
  refine ⟨_, hset, hdirectory, Function.update_of_ne (h.apart _ hindex).symm _ _, rfl, hget, ?_⟩
  obtain ⟨entries', harray', hset'⟩ := hdirectory.pagingSet hva haligned old
  refine ⟨_, hset', ?_, rfl⟩
  have hself : (s.setEntry (tables (pagingDirectoryIndex va)) va value entries).arrays
      (tables (pagingDirectoryIndex va)) =
        some (Function.update entries (pagingTableIndex va) value) := Function.update_self ..
  rw [hself, Option.some.injEq] at harray'
  have hsame : entries (pagingTableIndex va) = old := by
    rw [pagingGet_of_aligned haligned] at hold
    unfold pagingEntry at hold
    rw [h.table hva, access_some] at hold
    simp only [Except.bind, harray, access_some, Except.map, Except.ok.injEq] at hold
    exact hold
  rw [← harray']
  unfold PageStore.setEntry
  dsimp only
  rw [Function.update_idem, Function.update_idem, ← hsame, Function.update_eq_self, ← harray,
    Function.update_eq_self]

theorem IsDirectory.exists_entry {s : PageStore} {directory va : Nat} {tables : Nat → Nat}
    (h : IsDirectory s directory tables) (hva : va < 4294967296) :
    ∃ entry, pagingGet s directory va = .ok entry := by
  obtain ⟨page, hpage, hget⟩ := pagingGet_eq hva
  obtain ⟨table, htable⟩ := h.present _ (pagingDirectoryIndex_lt hpage)
  rw [hget]
  unfold pagingEntry
  rw [h.table hpage, access_some]
  simp only [Except.bind, htable, access_some, Except.map]
  exact ⟨_, rfl⟩

theorem BorrowsEntry.space_other {s s₁ : PageStore} {directory page value old va : Nat}
    {tables : Nat → Nat} (h : BorrowsEntry s s₁ directory page value old tables)
    (hdir : IsDirectory s directory tables) (hva : va < 4294967296)
    (hother : pagingAlignToLowerPage va ≠ page) :
    pagingSpace s₁ directory va = pagingSpace s directory va := by
  have hlow := pagingAlignToLowerPage_lt hva
  obtain ⟨entries, harray, -⟩ := hdir.holds
  obtain ⟨entry, hget⟩ := hdir.exists_entry hlow
  have hget₁ := h.entry _ hlow (pagingAlignToLowerPage_aligned va)
  rw [if_neg hother, hget] at hget₁
  rw [pagingSpace_eq h.isDirectory (h.array.trans harray) hva hget₁,
    pagingSpace_eq hdir harray hva hget]

theorem BorrowsEntry.space_page {s s₁ : PageStore} {directory page value old va : Nat}
    {entries tables : Nat → Nat} (h : BorrowsEntry s s₁ directory page value old tables)
    (harray : s.arrays directory = some entries) (hva : va < 4294967296)
    (hpage : pagingAlignToLowerPage va = page) (hvalue : value &&& pagingIsPresent ≠ 0) :
    pagingSpace s₁ directory va = if entries (pagingDirectoryIndex va) &&& pagingIsPresent = 0
      then none else some (pagingFrame value + va % 4096) := by
  have hget := h.entry _ (pagingAlignToLowerPage_lt hva) (pagingAlignToLowerPage_aligned va)
  rw [if_pos hpage] at hget
  rw [pagingSpace_eq h.isDirectory (h.array.trans harray) hva hget, if_neg hvalue]

/-! New directories. -/

theorem and_pagingIsPresent_ne_zero {entry : Nat} : entry &&& pagingIsPresent ≠ 0 ↔ entry % 2 = 1 := by
  unfold pagingIsPresent
  rw [Nat.and_one_is_mod]
  omega

theorem pagingNew4gbLoop_present {directory flags : Nat} (hflags : flags &&& pagingIsPresent ≠ 0)
    (count : Nat) {i : Nat} {k k' : Kernel} {u : Unit} {entries : Nat → Nat}
    (harray : k.pages.arrays directory = some entries)
    (hpresent : ∀ j < i, entries j &&& pagingIsPresent ≠ 0)
    (hrun : pagingNew4gbLoop directory flags count i k = .ok (u, k')) :
    ∃ entries', k'.pages.arrays directory = some entries' ∧
      ∀ j < i + count, entries' j &&& pagingIsPresent ≠ 0 := by
  rw [and_pagingIsPresent_ne_zero] at hflags
  induction count generalizing i k entries with
  | zero =>
    obtain ⟨-, rfl⟩ := pure_eq_ok.mp hrun
    exact ⟨entries, harray, hpresent⟩
  | succ count ih =>
    unfold pagingNew4gbLoop at hrun
    obtain ⟨entry, k₁, halloc, hrun⟩ := bind_eq_ok.mp hrun
    by_cases hnull : entry = 0
    · rw [if_pos hnull] at hrun
      exact (throw_eq_ok.mp hrun).elim
    rw [if_neg hnull] at hrun
    obtain ⟨_, k₂, hput, hrun⟩ := bind_eq_ok.mp hrun
    replace hrun := bind_get_eq_ok.mp hrun
    obtain ⟨es, hes, hrun⟩ := bind_fetch_eq_ok.mp hrun
    obtain ⟨_, k₃, hset, hrun⟩ := bind_eq_ok.mp hrun
    obtain ⟨-, hk₁⟩ := kzalloc_eq_ok halloc
    have hsofar : ∀ j < i, es j % 2 = 1 := by
      rw [← modify_eq_ok.mp hput, hk₁] at hes
      change Function.update k.pages.arrays entry _ directory = some es at hes
      by_cases heq : directory = entry
      · rw [heq, Function.update_self, Option.some.injEq] at hes
        intro j _
        rw [← hes]
        exact Nat.or_mod_two_eq_one.mpr (Or.inr hflags)
      · rw [Function.update_of_ne heq, harray, Option.some.injEq] at hes
        intro j hj
        rw [← hes]
        exact and_pagingIsPresent_ne_zero.mp (hpresent j hj)
    have hnext : ∀ j < i + 1,
        Function.update es i (entry ||| flags ||| pagingIsWritable) j &&& pagingIsPresent ≠ 0 := by
      intro j hj
      rw [and_pagingIsPresent_ne_zero]
      by_cases hj' : j = i
      · rw [hj', Function.update_self]
        exact Nat.or_mod_two_eq_one.mpr (Or.inl (Nat.or_mod_two_eq_one.mpr (Or.inr hflags)))
      · rw [Function.update_of_ne hj']
        exact hsofar j (by omega)
    rw [← modify_eq_ok.mp hset] at hrun
    obtain ⟨entries', harray', hall⟩ := ih (Function.update_self ..) hnext hrun
    exact ⟨entries', harray', fun j hj => hall j (by omega)⟩

theorem pagingNew4gb_present {flags chunk directory : Nat} {k k' : Kernel}
    (hflags : flags &&& pagingIsPresent ≠ 0) (hnull : k.pages.arrays 0 = none)
    (hrun : pagingNew4gb flags k = .ok (chunk, k')) (hchunk : k'.pages.chunks chunk = some directory) :
    TablesPresent k'.pages directory := by
  obtain ⟨directory', k₀, k₂, k₃, -, -, -, hloop, halloc, rfl⟩ := pagingNew4gb_eq_ok hnull hrun
  obtain ⟨-, hk₃⟩ := kzalloc_eq_ok halloc
  obtain ⟨entries, harray, hall⟩ := pagingNew4gbLoop_present hflags _ (Function.update_self ..)
    (fun j hj => absurd hj (Nat.not_lt_zero j)) hloop
  rw [Nat.zero_add] at hall
  change Function.update k₃.pages.chunks chunk (some directory') chunk = some directory at hchunk
  rw [Function.update_self, Option.some.injEq] at hchunk
  subst hchunk
  refine ⟨entries, ?_, hall⟩
  rw [hk₃]
  exact harray

theorem BuiltChunk.space {heap : Heap} {flags chunk directory va : Nat} {k : Kernel}
    {tables : Nat → Nat} (h : BuiltChunk heap flags k chunk directory tables) (hflags : flags < 256)
    (hpresent : flags &&& pagingIsPresent ≠ 0) (htables : TablesPresent k.pages directory)
    (hva : va < 4294967296) : pagingSpace k.pages directory va = some va := by
  obtain ⟨entries, harray, hall⟩ := htables
  have haligned := pagingAlignToLowerPage_aligned va
  have hentry : (pagingAlignToLowerPage va ||| flags) &&& pagingIsPresent ≠ 0 :=
    and_pagingIsPresent_ne_zero.mpr
      (Nat.or_mod_two_eq_one.mpr (Or.inr (and_pagingIsPresent_ne_zero.mp hpresent)))
  rw [pagingSpace_eq h.isDirectory harray hva (h.get (pagingAlignToLowerPage_lt hva) haligned),
    if_neg (hall _ (pagingDirectoryIndex_lt hva)), if_neg hentry, pagingFrame_or haligned (by omega)]
  congr 1
  unfold pagingAlignToLowerPage pagingPageSize
  omega

theorem ChunkKept.array_step {base : Heap} {S : Set Int} {chunk directory : Nat} {tables : Nat → Nat}
    {k k' : Kernel} {call : Option MapCall} (h : ChunkKept base chunk directory tables k)
    (hS : ∀ a ∈ insert chunk (directoryArrays directory 1024 tables), base.blockOf a ∈ S)
    (hstep : chunkStep S chunk k call k') : k'.pages.arrays directory = k.pages.arrays directory := by
  cases call with
  | some call =>
    obtain ⟨hva, res, pages, hrun, rfl⟩ := hstep
    obtain ⟨res', s', hrun', hframe⟩ := call.run_returns h.isDirectory h.holds hva
    rw [hrun, Except.ok.injEq, Prod.mk.injEq] at hrun'
    obtain ⟨-, rfl⟩ := hrun'
    exact hframe.arrays directory fun i hi => (h.isDirectory.apart i hi).symm
  | none =>
    have hleaves : LeavesBlocks S k k' := hstep
    refine hleaves.arrays directory ?_
    rw [Heap.blockOf_congr h.start]
    exact hS directory (Set.mem_insert_of_mem chunk (Or.inl rfl))

/-- The directory of a chunk that was made by `paging_new_4gb`, and mapped through since then. -/
structure MappedChunk (flags : Nat) (s : PageStore) (chunk directory : Nat) (tables : Nat → Nat) :
    Prop where
  holds : s.chunks chunk = some directory
  isDirectory : IsDirectory s directory tables
  present : flags &&& pagingIsPresent ≠ 0 → TablesPresent s directory

theorem pagingNew4gb_mapped {flags chunk : Nat} {k k₁ : Kernel} (hheap : k.heap.Placed)
    (hflags : flags < 256) (hnull : k.pages.arrays 0 = none)
    (hnew : pagingNew4gb flags k = .ok (chunk, k₁)) {run : List (Option MapCall × Kernel)}
    (hrun : Path (chunkStep {b | k₁.heap.table.entries b ≠ k.heap.table.entries b} chunk) k₁ run) :
    ((last k₁ run).heap.Placed) ∧ ∃ directory tables,
      MappedChunk flags (last k₁ run).pages chunk directory tables := by
  obtain ⟨directory, tables, hbuilt⟩ := pagingNew4gb_built hheap hflags hnull hnew
  have hS : ∀ a ∈ insert chunk (directoryArrays directory 1024 tables),
      k.heap.blockOf a ∈ {b | k₁.heap.table.entries b ≠ k.heap.table.entries b} :=
    fun a ha => (hbuilt.took.changed_iff _).mpr ⟨a, ha, rfl⟩
  let inv : Kernel → Prop := fun s => ChunkKept k.heap chunk directory tables s ∧
    s.pages.arrays directory = k₁.pages.arrays directory
  have hstep : ∀ s call t, inv s →
      chunkStep {b | k₁.heap.table.entries b ≠ k.heap.table.entries b} chunk s call t → inv t :=
    fun s call t h hstep => ⟨h.1.step hS hstep, (h.1.array_step hS hstep).trans h.2⟩
  obtain ⟨hkept, harray⟩ := last_of_path hstep k₁ run ⟨hbuilt.chunkKept, rfl⟩ hrun
  refine ⟨hheap.congr hkept.start hkept.total, directory, tables, hkept.holds, hkept.isDirectory,
    fun hpresent => ?_⟩
  obtain ⟨entries, hentries, hall⟩ := pagingNew4gb_present hpresent hnull hnew hbuilt.holds
  exact ⟨entries, harray.trans hentries, hall⟩

end BoiOS
