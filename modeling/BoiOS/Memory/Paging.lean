import BoiOS.Kernel.State

/-! The page directories of memory/paging/paging.c. A directory and each of its tables is an array
of 1024 words in `arrays`; a `paging_4gb_chunk` points to its directory. -/
namespace BoiOS
open Library.StateRun

def pagingAccessFromAll : Nat := 4
def pagingIsWritable : Nat := 2
def pagingIsPresent : Nat := 1
def pagingTotalEntriesPerTable : Nat := 1024
def pagingPageSize : Nat := 4096

def pagingIsAligned (address : Nat) : Bool := address % pagingPageSize == 0

def pagingAlignAddress (ptr : Nat) : Nat :=
  if ptr % pagingPageSize ≠ 0 then u32 ((ptr : Int) + pagingPageSize - (ptr % pagingPageSize : Nat))
  else ptr

def pagingAlignToLowerPage (addr : Nat) : Nat := addr - addr % pagingPageSize

def pagingFrame (entry : Nat) : Nat := entry / 4096 * 4096

def pagingDirectoryIndex (virtualAddress : Nat) : Nat :=
  virtualAddress / (pagingTotalEntriesPerTable * pagingPageSize)

def pagingTableIndex (virtualAddress : Nat) : Nat :=
  virtualAddress % (pagingTotalEntriesPerTable * pagingPageSize) / pagingPageSize

def pagingTable (s : PageStore) (directory virtualAddress : Nat) : Option Nat :=
  (s.arrays directory).map fun entries => pagingFrame (entries (pagingDirectoryIndex virtualAddress))

def pagingSet (s : PageStore) (directory virtualAddress value : Nat) :
    Except Stop (Int × PageStore) :=
  if !pagingIsAligned virtualAddress then .ok (-einvarg, s)
  else
    (access (pagingTable s directory virtualAddress)).bind fun table =>
      (access (s.arrays table)).map fun entries =>
        (0, { s with
          arrays := Function.update s.arrays table
            (some (Function.update entries (pagingTableIndex virtualAddress) value))
          entered := (virtualAddress, value) :: s.entered })

def pagingMap (s : PageStore) (chunk virtualAddress physicalAddress flags : Nat) :
    Except Stop (Int × PageStore) :=
  if virtualAddress % pagingPageSize ≠ 0 ∨ physicalAddress % pagingPageSize ≠ 0 then
    .ok (-einvarg, s)
  else
    (access (s.chunks chunk)).bind fun directory =>
      pagingSet s directory virtualAddress (physicalAddress ||| flags)

/-- The loop of `paging_map_range`; `res` is the result of the page before. -/
def pagingMapRange (s : PageStore) (chunk virtualAddress physicalAddress : Nat) :
    (totalPages : Nat) → (flags : Nat) → (res : Int) → Except Stop (Int × PageStore)
  | 0, _, res => .ok (res, s)
  | totalPages + 1, flags, _ =>
      (pagingMap s chunk virtualAddress physicalAddress flags).bind fun (res, s) =>
        if res < 0 then .ok (res, s)
        else pagingMapRange s chunk (u32 ((virtualAddress : Int) + pagingPageSize))
          (u32 ((physicalAddress : Int) + pagingPageSize)) totalPages flags res

def pagingMapTo (s : PageStore) (chunk virtualAddress physicalAddress physicalEndAddress
    flags : Nat) : Except Stop (Int × PageStore) :=
  if virtualAddress % pagingPageSize ≠ 0 ∨ physicalAddress % pagingPageSize ≠ 0 ∨
      physicalEndAddress % pagingPageSize ≠ 0 then .ok (-einvarg, s)
  else if physicalEndAddress < physicalAddress then .ok (-einvarg, s)
  else
    let totalPages := (physicalEndAddress - physicalAddress) / pagingPageSize
    pagingMapRange s chunk virtualAddress physicalAddress totalPages flags 0

def pagingEntry (s : PageStore) (directory virtualAddress : Nat) : Except Stop Nat :=
  (access (pagingTable s directory virtualAddress)).bind fun table =>
    (access (s.arrays table)).map fun entries => entries (pagingTableIndex virtualAddress)

/-- For an address that is not aligned both indexes stay 0. -/
def pagingGet (s : PageStore) (directory virtualAddress : Nat) : Except Stop Nat :=
  pagingEntry s directory (if pagingIsAligned virtualAddress then virtualAddress else 0)

theorem pagingGet_eq {virtualAddress : Nat} (h : virtualAddress < 4294967296) :
    ∃ page < 4294967296, ∀ s directory, pagingGet s directory virtualAddress =
      pagingEntry s directory page := by
  refine ⟨_, ?_, fun _ _ => rfl⟩
  split_ifs
  · exact h
  · decide

theorem pagingGet_of_aligned {virtualAddress : Nat} (h : virtualAddress % 4096 = 0) (s : PageStore)
    (directory : Nat) :
    pagingGet s directory virtualAddress = pagingEntry s directory virtualAddress := by
  unfold pagingGet pagingIsAligned pagingPageSize
  rw [if_pos (by simpa using h)]

def pagingGetPhysicalAddress (s : PageStore) (directory virtAddr : Nat) : Except Stop Nat :=
  let virtAddrNew := pagingAlignToLowerPage virtAddr
  (pagingGet s directory virtAddrNew).map fun entry => pagingFrame entry + (virtAddr - virtAddrNew)

/-- A paging function that only touches the page directories, as a kernel function. -/
def pagingRun {α : Type} (f : PageStore → Except Stop (α × PageStore)) : KernelM α := fun k =>
  (f k.pages).map fun (a, pages) => (a, { k with pages })

theorem pagingRun_of_ok {α : Type} {f : PageStore → Except Stop (α × PageStore)} {k : Kernel} {a : α}
    {pages : PageStore} (h : f k.pages = .ok (a, pages)) :
    pagingRun f k = .ok (a, { k with pages }) := by
  unfold pagingRun
  rw [h]
  rfl

theorem pagingRun_eq_ok {α : Type} {f : PageStore → Except Stop (α × PageStore)} {a : α}
    {k k' : Kernel} (h : pagingRun f k = .ok (a, k')) :
    ∃ pages, f k.pages = .ok (a, pages) ∧ k' = { k with pages } := by
  unfold pagingRun at h
  cases hf : f k.pages with
  | error stop => simp [hf, Except.map] at h
  | ok r =>
    obtain ⟨b, pages⟩ := r
    simp only [hf, Except.map, Except.ok.injEq, Prod.mk.injEq] at h
    exact ⟨pages, by rw [h.1], h.2.symm⟩

def PageStore.putArray (s : PageStore) (array : Nat) (entries : Nat → Nat) : PageStore :=
  { s with arrays := Function.update s.arrays array (some entries) }

def PageStore.putChunk (s : PageStore) (chunk : Nat) (directory : Option Nat) : PageStore :=
  { s with chunks := Function.update s.chunks chunk directory }

def pagingIdentityTable (flags i j : Nat) : Nat :=
  u32 (i * (pagingTotalEntriesPerTable * pagingPageSize) + j * pagingPageSize : Nat) ||| flags

def pagingNew4gbLoop (directory flags : Nat) : (count i : Nat) → KernelM Unit
  | 0, _ => pure ()
  | count + 1, i => do
      let entry ← kzalloc (4 * pagingTotalEntriesPerTable)
      if entry = 0 then throw .faulted
      else do
        modify fun k => { k with pages := k.pages.putArray entry (pagingIdentityTable flags i) }
        let k ← get
        let entries ← fetch (k.pages.arrays directory)
        let entries := Function.update entries i (entry ||| flags ||| pagingIsWritable)
        modify fun k => { k with pages := k.pages.putArray directory entries }
        pagingNew4gbLoop directory flags count (i + 1)

def pagingNew4gb (flags : Nat) : KernelM Nat := do
  let directory ← kzallocObject (4 * pagingTotalEntriesPerTable) fun ptr k =>
    { k with pages := k.pages.putArray ptr fun _ => 0 }
  pagingNew4gbLoop directory flags pagingTotalEntriesPerTable 0
  let chunk4gb ← kzalloc 4
  if chunk4gb = 0 then throw .faulted
  else do
    modify fun k => { k with pages := k.pages.putChunk chunk4gb (some directory) }
    pure chunk4gb

def PageStore.dropArray (s : PageStore) (array : Nat) : PageStore :=
  { s with arrays := Function.update s.arrays array none }

def pagingFree4gbLoop (directory : Nat) : (count i : Nat) → KernelM Unit
  | 0, _ => pure ()
  | count + 1, i => do
      let k ← get
      let entries ← fetch (k.pages.arrays directory)
      kfree (pagingFrame (entries i))
      modify fun k => { k with pages := k.pages.dropArray (pagingFrame (entries i)) }
      pagingFree4gbLoop directory count (i + 1)

def pagingFree4gb (chunk : Nat) : KernelM Unit := do
  let k ← get
  let directory ← fetch (k.pages.chunks chunk)
  pagingFree4gbLoop directory pagingTotalEntriesPerTable 0
  kfree directory
  modify fun k => { k with pages := k.pages.dropArray directory }
  kfree chunk
  modify fun k => { k with pages := k.pages.putChunk chunk none }

/-! A directory that is made. -/

theorem pagingNew4gbLoop_null (flags i : Nat) {count : Nat} (hcount : 0 < count) {k : Kernel}
    (hnull : k.pages.arrays 0 = none) : pagingNew4gbLoop 0 flags count i k = .error .faulted := by
  obtain ⟨count, rfl⟩ := Nat.exists_eq_succ_of_ne_zero hcount.ne'
  have halloc := kzalloc_apply (by decide : 4 * pagingTotalEntriesPerTable ≤ 0xFFFFF000) k
  generalize (heapMalloc k.heap (4 * pagingTotalEntriesPerTable)).1 = entry at halloc
  unfold pagingNew4gbLoop
  rw [bind_of_ok halloc]
  by_cases hentry : entry = 0
  · rw [if_pos hentry]
    rfl
  have hnone : (k.pages.putArray entry (pagingIdentityTable flags i)).arrays 0 = none :=
    (Function.update_of_ne (Ne.symm hentry) _ _).trans hnull
  rw [if_neg hentry, bind_of_ok (modify_apply _ _), bind_of_ok (get_apply _)]
  dsimp only
  rw [hnone, bind_of_error (fetch_none _)]

theorem pagingNew4gb_eq_ok {flags chunk : Nat} {k k' : Kernel} (hnull : k.pages.arrays 0 = none)
    (h : pagingNew4gb flags k = .ok (chunk, k')) :
    ∃ directory k₀ k₂ k₃, directory ≠ 0 ∧ chunk ≠ 0 ∧
      kzalloc (4 * pagingTotalEntriesPerTable) k = .ok (directory, k₀) ∧
      pagingNew4gbLoop directory flags pagingTotalEntriesPerTable 0
        { k₀ with pages := k₀.pages.putArray directory fun _ => 0 } = .ok ((), k₂) ∧
      kzalloc 4 k₂ = .ok (chunk, k₃) ∧
      k' = { k₃ with pages := k₃.pages.putChunk chunk (some directory) } := by
  unfold pagingNew4gb at h
  obtain ⟨directory, k₁, hobject, h⟩ := bind_eq_ok.mp h
  obtain ⟨k₀, halloc, hk₁⟩ := kzallocObject_eq_ok hobject
  obtain ⟨_, k₂, hloop, h⟩ := bind_eq_ok.mp h
  have hdirectory : directory ≠ 0 := by
    rintro rfl
    obtain ⟨-, hk₀⟩ := kzalloc_eq_ok halloc
    have hnone : k₀.pages.arrays 0 = none := by
      rw [hk₀]
      exact hnull
    rw [if_pos rfl] at hk₁
    rw [hk₁, pagingNew4gbLoop_null flags 0 (by decide) hnone] at hloop
    cases hloop
  rw [if_neg hdirectory] at hk₁
  obtain ⟨chunk', k₃, hchunk, h⟩ := bind_eq_ok.mp h
  by_cases hnone : chunk' = 0
  · rw [if_pos hnone] at h
    exact (throw_eq_ok.mp h).elim
  rw [if_neg hnone] at h
  obtain ⟨_, k₄, hput, h⟩ := bind_eq_ok.mp h
  obtain ⟨rfl, rfl⟩ := pure_eq_ok.mp h
  exact ⟨directory, k₀, k₂, k₃, hdirectory, hnone, halloc, by rwa [← hk₁], hchunk,
    (modify_eq_ok.mp hput).symm⟩

end BoiOS
