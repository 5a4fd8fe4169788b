import BoiOS.Memory.HeapClean
import BoiOS.Memory.Translation

/-! Copying a string from user space: `copy_string_from_task` of task/task.c. A page of the heap is
mapped into the directory of the task, the string goes into it while that directory is loaded, and
from it into the buffer of the kernel. -/
namespace BoiOS
open Library.StateRun Library.Transition

def strncpyRun (space : PageStore → AddressSpace) (dest src : Nat) (count : Int) : KernelM Unit :=
  fun k => (access (strncpyIn (space k.pages) dest src count k.memory)).map fun memory =>
    ((), { k with memory })

/-- The directory of the kernel maps every page to itself. -/
def kernelSpace : PageStore → AddressSpace := fun _ => some

def copyStringFromTask (task virtualAddress physicalAddress : Nat) (max : Int) : KernelM Int :=
  if max ≥ pagingPageSize then pure (-einvarg)
  else do
    let tmp ← kzalloc (u32 max)
    if tmp = 0 then pure (-enomem)
    else do
      let k ← get
      let t ← fetch (k.scheduler.tasks.store task)
      let taskDirectory ← fetch (k.pages.chunks t.pageDirectory)
      let oldEntry ← pagingRun fun s =>
        (pagingGet s taskDirectory tmp).map fun entry => (entry, s)
      let _ ← pagingRun fun s => pagingMap s t.pageDirectory tmp tmp
        (pagingIsWritable ||| pagingIsPresent ||| pagingAccessFromAll)
      strncpyRun (fun s => pagingSpace s taskDirectory) tmp virtualAddress max
      let res ← pagingRun fun s => pagingSet s taskDirectory tmp oldEntry
      if res < 0 then do
        kfree tmp
        pure (-eio)
      else do
        strncpyRun kernelSpace physicalAddress tmp max
        kfree tmp
        pure res

/-- The page that is borrowed; null if there is none. -/
def Kernel.temporaryPage (k : Kernel) (max : Int) : Nat := (heapMalloc k.heap (u32 max)).1

/-- Every entry of every page directory and of the heap table is as it was. -/
structure TablesUntouched (k k' : Kernel) : Prop where
  arrays : k'.pages.arrays = k.pages.arrays
  chunks : k'.pages.chunks = k.pages.chunks
  start : k'.heap.startAddress = k.heap.startAddress
  total : k'.heap.table.totalEntries = k.heap.table.totalEntries
  entries : k'.heap.table.entries = k.heap.table.entries

/-- None of the bytes that are read for the string lies in the page, neither by its address nor by
where it is in memory. -/
structure StringOffPage (space : AddressSpace) (src limit : Nat) (s : List UInt8) (page : Nat) :
    Prop where
  address : ∀ i ≤ s.length, i < limit →
    pagingAlignToLowerPage (u32 ((src : Int) + (i : Nat))) ≠ page
  memory : ReadsOff space src limit s page pagingPageSize

def BufferOffPage (buffer : Nat) (size : Int) (page : Nat) : Prop :=
  ∀ i : Nat, i < size → pagingPageSize ≤ u32 ((u32 ((buffer : Int) + i) : Int) - page)

/-- The string is in the buffer with its terminator, and nothing but it and the page changed. -/
structure StringCopied (k k' : Kernel) (buffer page : Nat) (s : List UInt8) : Prop where
  holds : k'.memory.HoldsString buffer s
  others : ∀ a : Nat, a < 4294967296 → s.length + 1 ≤ u32 ((a : Int) - buffer) →
    pagingPageSize ≤ u32 ((a : Int) - page) → k'.memory a = k.memory a

theorem Heap.TakesBlock.page {heap heap' : Heap} {ptr : Nat} (h : heap.TakesBlock heap' ptr)
    (hplaced : heap.Placed) : ptr % 4096 = 0 ∧ ptr < 4294967296 := by
  have haddress := h.block.address
  have hhigh := h.block.high
  have haligned := hplaced.aligned
  have hfits := hplaced.fits
  omega

theorem borrowed_present {page : Nat} : (page ||| 7) &&& pagingIsPresent ≠ 0 :=
  and_pagingIsPresent_ne_zero.mpr (Nat.or_mod_two_eq_one.mpr (Or.inr rfl))

theorem temporaryPage_lt {k : Kernel} {max : Int} (hplaced : k.heap.Placed) (hlow : 1 ≤ max)
    (hhigh : max < 4096) (hserved : k.temporaryPage max ≠ 0) :
    k.temporaryPage max < 4294967296 := by
  have hsize : u32 max = max.toNat := by
    unfold u32
    omega
  exact ((hplaced.heapMalloc (by omega : 1 ≤ u32 max) (by omega) hserved).page hplaced).2

section Copy
variable {k : Kernel} {task directory va buffer : Nat} {tables : Nat → Nat} {t : Task} {max : Int}

theorem copyStringFromTask_nomem (hplaced : k.heap.Placed) (hlow : 1 ≤ max) (hhigh : max < 4096)
    (hnone : k.temporaryPage max = 0) :
    copyStringFromTask task va buffer max k = .ok (-enomem, k) := by
  have hsize : u32 max = max.toNat := by
    unfold u32
    omega
  unfold Kernel.temporaryPage at hnone
  have hnull := hplaced.heapMalloc_null (by omega : 1 ≤ u32 max) (by omega) hnone
  have halloc := kzalloc_apply (by omega : u32 max ≤ 0xFFFFF000) k
  rw [hnull, if_pos rfl] at halloc
  unfold copyStringFromTask
  rw [if_neg (by unfold pagingPageSize; omega), bind_of_ok halloc, if_pos rfl]
  rfl

theorem copyStringFromTask_served (va buffer : Nat) (hplaced : k.heap.Placed) (hlow : 1 ≤ max)
    (hhigh : max < 4096)
    (hserved : k.temporaryPage max ≠ 0) (ht : k.scheduler.tasks.store task = some t)
    (hchunk : k.pages.chunks t.pageDirectory = some directory)
    (hdir : IsDirectory k.pages directory tables) :
    ∃ s₁ s₂ old, BorrowsEntry k.pages s₁ directory (k.temporaryPage max)
        (k.temporaryPage max ||| 7) old tables ∧
      s₂.arrays = k.pages.arrays ∧ s₂.chunks = k.pages.chunks ∧
      k.heap.TakesBlock (heapMalloc k.heap (u32 max)).2 (k.temporaryPage max) ∧
      copyStringFromTask task va buffer max k =
        (access (strncpyIn (pagingSpace s₁ directory) (k.temporaryPage max) va max
            (k.memory.clear (k.temporaryPage max) (u32 max)))).bind fun m =>
          (access (strncpyIn some buffer (k.temporaryPage max) max m)).map fun m' =>
            (0, { k with
              heap := heapFree (heapMalloc k.heap (u32 max)).2 (k.temporaryPage max)
              memory := m'
              pages := s₂ }) := by
  have hsize : u32 max = max.toNat := by
    unfold u32
    omega
  have htake := hplaced.heapMalloc (by omega : 1 ≤ u32 max) (by omega) hserved
  have halloc := kzalloc_apply (by omega : u32 max ≤ 0xFFFFF000) k
  unfold Kernel.temporaryPage at *
  generalize (heapMalloc k.heap (u32 max)).2 = heap at *
  generalize (heapMalloc k.heap (u32 max)).1 = tmp at *
  have hpage := htake.page hplaced
  rw [if_neg hserved] at halloc
  obtain ⟨old, hold⟩ := hdir.exists_entry hpage.2
  obtain ⟨s₁, hset, hborrow⟩ := pagingSet_borrows hdir hpage.2 hpage.1 hold (tmp ||| 7)
  obtain ⟨s₂, hrestore, harrays, hchunks⟩ := hborrow.restore
  refine ⟨s₁, s₂, old, hborrow, harrays, hchunks, htake, ?_⟩
  have hmap : pagingMap k.pages t.pageDirectory tmp tmp
      (pagingIsWritable ||| pagingIsPresent ||| pagingAccessFromAll) = .ok (0, s₁) := by
    unfold pagingMap pagingPageSize
    rw [if_neg (by omega), hchunk, access_some]
    exact hset
  obtain ⟨k₁, hk₁⟩ : ∃ k₁, k₁ = { k with heap, memory := k.memory.clear tmp (u32 max) } := ⟨_, rfl⟩
  rw [← hk₁] at halloc
  have hpages : k₁.pages = k.pages := by rw [hk₁]
  have hold₁ : pagingRun (fun s => (pagingGet s directory tmp).map fun entry => (entry, s)) k₁ =
      .ok (old, k₁) := by
    refine pagingRun_of_ok ?_
    rw [hpages, hold]
    rfl
  have hmap₁ : pagingRun (fun s => pagingMap s t.pageDirectory tmp tmp
      (pagingIsWritable ||| pagingIsPresent ||| pagingAccessFromAll)) k₁ =
        .ok (0, { k₁ with pages := s₁ }) := by
    refine pagingRun_of_ok ?_
    rw [hpages, hmap]
  have ht₁ : k₁.scheduler.tasks.store task = some t := by rw [hk₁, ht]
  have hchunk₁ : k₁.pages.chunks t.pageDirectory = some directory := by rw [hpages, hchunk]
  unfold copyStringFromTask
  rw [if_neg (by unfold pagingPageSize; omega), bind_of_ok halloc, if_neg hserved,
    bind_of_ok (get_apply _), ht₁, bind_of_ok (fetch_some _ _), hchunk₁, bind_of_ok (fetch_some _ _),
    bind_of_ok hold₁, bind_of_ok hmap₁]
  have hcopy : strncpyRun (fun s => pagingSpace s directory) tmp va max { k₁ with pages := s₁ } =
      (access (strncpyIn (pagingSpace s₁ directory) tmp va max
        (k.memory.clear tmp (u32 max)))).map fun m => ((), { k₁ with pages := s₁, memory := m }) := by
    unfold strncpyRun
    rw [hk₁]
  cases hfirst : strncpyIn (pagingSpace s₁ directory) tmp va max (k.memory.clear tmp (u32 max)) with
  | none =>
    rw [hfirst] at hcopy
    rw [bind_of_error hcopy]
    rfl
  | some m =>
    rw [hfirst] at hcopy
    have hrestore₁ : pagingRun (fun s => pagingSet s directory tmp old)
        { k₁ with pages := s₁, memory := m } = .ok (0, { k₁ with pages := s₂, memory := m }) :=
      pagingRun_of_ok hrestore
    have hcopy₂ : strncpyRun kernelSpace buffer tmp max { k₁ with pages := s₂, memory := m } =
        (access (strncpyIn some buffer tmp max m)).map fun m' =>
          ((), { k₁ with pages := s₂, memory := m' }) := rfl
    rw [bind_of_ok hcopy, bind_of_ok hrestore₁, if_neg (lt_irrefl 0)]
    cases hsecond : strncpyIn some buffer tmp max m with
    | none =>
      rw [hsecond] at hcopy₂
      rw [bind_of_error hcopy₂]
      rw [access_some]
      simp only [Except.bind, hsecond]
      rfl
    | some m' =>
      rw [hsecond] at hcopy₂
      rw [bind_of_ok hcopy₂, bind_of_ok (kfree_apply _ _), hk₁, access_some]
      simp only [Except.bind, hsecond]
      rfl

theorem strncpyIn_page {s₁ : PageStore} {old page : Nat} {entries : Nat → Nat} {s : List UInt8}
    (hdir : IsDirectory k.pages directory tables) (harray : k.pages.arrays directory = some entries)
    (hborrow : BorrowsEntry k.pages s₁ directory page (page ||| 7) old tables)
    (hpresent : entries (pagingDirectoryIndex page) &&& pagingIsPresent ≠ 0)
    (hpage : page % 4096 = 0) (hpagelt : page < 4294967296) (hva : va < 4294967296)
    (hlow : 1 ≤ max) (hhigh : max < 4096)
    (hstring : StringIn (pagingSpace k.pages directory) k.memory va (max - 1).toNat s)
    (hoff : StringOffPage (pagingSpace k.pages directory) va (max - 1).toNat s page) :
    strncpyIn (pagingSpace s₁ directory) page va max (k.memory.clear page (u32 max)) =
      some ((k.memory.clear page (u32 max)).copyIn page (s ++ [0])) := by
  have hlength := hstring.length
  have hspace : ∀ i ≤ s.length, i < (max - 1).toNat →
      pagingSpace s₁ directory (u32 ((va : Int) + (i : Nat))) =
        pagingSpace k.pages directory (u32 ((va : Int) + (i : Nat))) := fun i hi hlt =>
    hborrow.space_other hdir (u32_lt _) (hoff.address i hi hlt)
  have hcleared : ∀ i ≤ s.length, i < (max - 1).toNat → ∀ a,
      pagingSpace k.pages directory (u32 ((va : Int) + (i : Nat))) = some a →
        k.memory.clear page (u32 max) a = k.memory a := by
    intro i hi hlt a ha
    have hfar := hoff.memory i hi hlt a ha
    unfold pagingPageSize at hfar
    have hsize : u32 max = max.toNat := by
      unfold u32
      omega
    exact if_neg (by omega)
  unfold strncpyIn
  refine (hstring.congr hspace hcleared).strncpyInLoop_eq hva hpagelt (fun i hi => ?_) ?_ (by omega)
  · have hplace : u32 ((page : Int) + i) = page + i := u32_natCast (n := page + i) (by omega)
    have hlower : pagingAlignToLowerPage (page + i) = page := by
      unfold pagingAlignToLowerPage pagingPageSize
      omega
    have hindex : pagingDirectoryIndex (page + i) = pagingDirectoryIndex page := by
      have hsame := (pagingIndexes_lowerPage (page + i)).1
      rw [hlower] at hsame
      exact hsame.symm
    rw [hplace, hborrow.space_page harray (by omega) hlower borrowed_present, hindex, if_neg hpresent,
      pagingFrame_or hpage (by decide)]
    congr 1
    omega
  · intro i hi hlt a ha
    rw [hspace i hi hlt] at ha
    have hfar := hoff.memory i hi hlt a ha
    unfold pagingPageSize at hfar
    omega

theorem strncpyIn_buffer {m : Memory} {page : Nat} {s : List UInt8} (hnonzero : 0 ∉ s)
    (hpagelt : page < 4294967296) (hbufferlt : buffer < 4294967296) (hlow : 1 ≤ max)
    (hhigh : max < 4096) (hlength : s.length ≤ (max - 1).toNat)
    (hbuffer : BufferOffPage buffer max page) :
    strncpyIn some buffer page max (m.copyIn page (s ++ [0])) =
      some ((m.copyIn page (s ++ [0])).copyIn buffer (s ++ [0])) := by
  unfold strncpyIn
  refine (StringIn.of_copyIn hnonzero hlength (by omega)).strncpyInLoop_eq hpagelt hbufferlt
    (fun _ _ => rfl) (fun i hi _ a ha => ?_) (by omega)
  obtain rfl := Option.some.inj ha
  by_contra hnear
  have hfar := hbuffer (u32 ((u32 ((page : Int) + i) : Int) - buffer)) (by omega)
  unfold pagingPageSize u32 at hfar
  unfold u32 at hnear
  omega

theorem copyStringFromTask_untouched {k' : Kernel} {res : Int} (hplaced : k.heap.Placed)
    (hclean : k.heap.table.Clean) (hlow : 1 ≤ max) (hhigh : max < 4096)
    (ht : k.scheduler.tasks.store task = some t)
    (hchunk : k.pages.chunks t.pageDirectory = some directory)
    (hdir : IsDirectory k.pages directory tables)
    (hrun : copyStringFromTask task va buffer max k = .ok (res, k')) :
    TablesUntouched k k' ∧ res = if k.temporaryPage max = 0 then -enomem else 0 := by
  by_cases hserved : k.temporaryPage max = 0
  · rw [copyStringFromTask_nomem hplaced hlow hhigh hserved] at hrun
    obtain ⟨rfl, rfl⟩ := Prod.mk.inj (Except.ok.inj hrun)
    exact ⟨⟨rfl, rfl, rfl, rfl, rfl⟩, (if_pos hserved).symm⟩
  · obtain ⟨s₁, s₂, old, -, harrays, hchunks, htake, heq⟩ :=
      copyStringFromTask_served va buffer hplaced hlow hhigh hserved ht hchunk hdir
    rw [heq] at hrun
    rw [if_neg hserved]
    cases hfirst : strncpyIn (pagingSpace s₁ directory) (k.temporaryPage max) va max
        (k.memory.clear (k.temporaryPage max) (u32 max)) with
    | none =>
      rw [hfirst] at hrun
      exact absurd hrun (by simp [Except.bind])
    | some m =>
      rw [hfirst, access_some] at hrun
      simp only [Except.bind] at hrun
      cases hsecond : strncpyIn some buffer (k.temporaryPage max) max m with
      | none =>
        rw [hsecond] at hrun
        exact absurd hrun (by simp [Except.map])
      | some m' =>
        rw [hsecond, access_some] at hrun
        obtain ⟨rfl, rfl⟩ := Prod.mk.inj (Except.ok.inj hrun)
        refine ⟨⟨harrays, hchunks, ?_, ?_, htake.restored hplaced hclean⟩, rfl⟩
        · exact (heapFree_startAddress _ _).trans htake.start
        · exact (heapFree_totalEntries _ _).trans htake.total

theorem copyStringFromTask_present {k' : Kernel} {res : Int} {entries : Nat → Nat}
    (hplaced : k.heap.Placed) (hlow : 1 ≤ max) (hhigh : max < 4096)
    (hserved : k.temporaryPage max ≠ 0) (ht : k.scheduler.tasks.store task = some t)
    (hchunk : k.pages.chunks t.pageDirectory = some directory)
    (hdir : IsDirectory k.pages directory tables) (harray : k.pages.arrays directory = some entries)
    (hrun : copyStringFromTask task va buffer max k = .ok (res, k')) :
    entries (pagingDirectoryIndex (k.temporaryPage max)) &&& pagingIsPresent ≠ 0 := by
  obtain ⟨s₁, s₂, old, hborrow, -, -, htake, heq⟩ :=
    copyStringFromTask_served va buffer hplaced hlow hhigh hserved ht hchunk hdir
  obtain ⟨haligned, hpagelt⟩ := htake.page hplaced
  rw [heq] at hrun
  intro habsent
  cases hfirst : strncpyIn (pagingSpace s₁ directory) (k.temporaryPage max) va max
      (k.memory.clear (k.temporaryPage max) (u32 max)) with
  | none =>
    rw [hfirst] at hrun
    exact absurd hrun (by simp [Except.bind])
  | some m =>
    obtain ⟨d, hd⟩ := strncpyInLoop_dest hfirst
    have hlower : pagingAlignToLowerPage (k.temporaryPage max) = k.temporaryPage max := by
      unfold pagingAlignToLowerPage pagingPageSize
      omega
    rw [hborrow.space_page harray hpagelt hlower borrowed_present, if_pos habsent] at hd
    exact absurd hd (by simp)

theorem copyStringFromTask_copied {entries : Nat → Nat} {s : List UInt8} (hplaced : k.heap.Placed)
    (hlow : 1 ≤ max) (hhigh : max < 4096) (hserved : k.temporaryPage max ≠ 0)
    (ht : k.scheduler.tasks.store task = some t)
    (hchunk : k.pages.chunks t.pageDirectory = some directory)
    (hdir : IsDirectory k.pages directory tables) (harray : k.pages.arrays directory = some entries)
    (hpresent : entries (pagingDirectoryIndex (k.temporaryPage max)) &&& pagingIsPresent ≠ 0)
    (hva : va < 4294967296) (hbufferlt : buffer < 4294967296)
    (hstring : StringIn (pagingSpace k.pages directory) k.memory va (max - 1).toNat s)
    (hoff : StringOffPage (pagingSpace k.pages directory) va (max - 1).toNat s (k.temporaryPage max))
    (hbuffer : BufferOffPage buffer max (k.temporaryPage max)) :
    ∃ k', copyStringFromTask task va buffer max k = .ok (0, k') ∧
      StringCopied k k' buffer (k.temporaryPage max) s := by
  obtain ⟨s₁, s₂, old, hborrow, -, -, htake, heq⟩ :=
    copyStringFromTask_served va buffer hplaced hlow hhigh hserved ht hchunk hdir
  obtain ⟨haligned, hpagelt⟩ := htake.page hplaced
  have hlength := hstring.length
  have hsize : (s ++ [0]).length = s.length + 1 := by
    rw [List.length_append, List.length_singleton]
  rw [strncpyIn_page hdir harray hborrow hpresent haligned hpagelt hva hlow hhigh hstring hoff,
    access_some] at heq
  simp only [Except.bind] at heq
  rw [strncpyIn_buffer hstring.nonzero hpagelt hbufferlt hlow hhigh hlength hbuffer,
    access_some] at heq
  refine ⟨_, heq, Memory.holdsString_copyIn (by omega), fun a ha hoffBuffer hoffPage => ?_⟩
  unfold pagingPageSize at hoffPage
  have hmax : u32 max = max.toNat := by
    unfold u32
    omega
  dsimp only
  rw [Memory.copyIn_outside (by omega), Memory.copyIn_outside (by omega)]
  exact if_neg (by omega)

end Copy

/-- A copy from a task in whose directory anything was mapped: whether it succeeds or fails, the page
tables and the heap table are as before, and on success the buffer has the string, up to `max - 1`
characters of it. It fails only for want of a page; the processor stops it if the tables of the
directory are not marked as present. -/
theorem copy_string_from_task_neutral {flags chunk task va buffer : Nat} {max : Int}
    {k₀ k₁ k : Kernel} {t : Task} {run : List (Option MapCall × Kernel)} (hheap : k₀.heap.Placed)
    (hflags : flags < 256) (hnull : k₀.pages.arrays 0 = none)
    (hnew : pagingNew4gb flags k₀ = .ok (chunk, k₁))
    (hrun : Path (chunkStep {b | k₁.heap.table.entries b ≠ k₀.heap.table.entries b} chunk) k₁ run)
    (hlast : last k₁ run = k) (hclean : k.heap.table.Clean)
    (ht : k.scheduler.tasks.store task = some t) (hchunk : t.pageDirectory = chunk)
    (hva : va < 4294967296) (hbuffer : buffer < 4294967296) (hlow : 1 ≤ max) (hhigh : max < 4096) :
    ∃ directory, k.pages.chunks chunk = some directory ∧
      (∀ res k', copyStringFromTask task va buffer max k = .ok (res, k') →
        TablesUntouched k k' ∧ (res = 0 ∨ res = -enomem) ∧
        (res = 0 → ∀ s, StringIn (pagingSpace k.pages directory) k.memory va (max - 1).toNat s →
          StringOffPage (pagingSpace k.pages directory) va (max - 1).toNat s (k.temporaryPage max) →
          BufferOffPage buffer max (k.temporaryPage max) →
          StringCopied k k' buffer (k.temporaryPage max) s)) ∧
      (flags &&& pagingIsPresent ≠ 0 → k.temporaryPage max ≠ 0 →
        ∀ s, StringIn (pagingSpace k.pages directory) k.memory va (max - 1).toNat s →
          StringOffPage (pagingSpace k.pages directory) va (max - 1).toNat s (k.temporaryPage max) →
          BufferOffPage buffer max (k.temporaryPage max) →
          ∃ k', copyStringFromTask task va buffer max k = .ok (0, k')) := by
  obtain ⟨hplaced, directory, tables, hmapped⟩ := pagingNew4gb_mapped hheap hflags hnull hnew hrun
  rw [hlast] at hplaced hmapped
  have hholds := hmapped.holds
  rw [← hchunk] at hholds
  have hdir := hmapped.isDirectory
  refine ⟨directory, hmapped.holds, fun res k' hcopy => ?_,
    fun hpresent hserved s hstring hoff hapart => ?_⟩
  · obtain ⟨huntouched, hres⟩ :=
      copyStringFromTask_untouched hplaced hclean hlow hhigh ht hholds hdir hcopy
    by_cases hserved : k.temporaryPage max = 0
    · rw [if_pos hserved] at hres
      exact ⟨huntouched, Or.inr hres, fun hzero => absurd (hres.symm.trans hzero) (by decide)⟩
    · rw [if_neg hserved] at hres
      refine ⟨huntouched, Or.inl hres, fun _ s hstring hoff hapart => ?_⟩
      obtain ⟨entries, harray, -⟩ := hdir.holds
      have hpresent :=
        copyStringFromTask_present hplaced hlow hhigh hserved ht hholds hdir harray hcopy
      obtain ⟨k'', hcopy', hcopied⟩ := copyStringFromTask_copied hplaced hlow hhigh hserved ht hholds
        hdir harray hpresent hva hbuffer hstring hoff hapart
      rw [hcopy] at hcopy'
      obtain ⟨-, rfl⟩ := Prod.mk.inj (Except.ok.inj hcopy')
      exact hcopied
  · obtain ⟨entries, harray, hall⟩ := hmapped.present hpresent
    have hpage : k.temporaryPage max < 4294967296 := temporaryPage_lt hplaced hlow hhigh hserved
    obtain ⟨k', hcopy, -⟩ := copyStringFromTask_copied hplaced hlow hhigh hserved ht hholds hdir
      harray (hall _ (pagingDirectoryIndex_lt hpage)) hva hbuffer hstring hoff hapart
    exact ⟨k', hcopy⟩

/-! A task in a new directory, with `boi` at `0x400000`, and one block of heap that is left. -/

def stringTask (chunk : Nat) : Task where
  pageDirectory := chunk
  registers := ⟨0, 0, 0, 0, 0, 0, 0, 0, 0, 0, 0, 0⟩
  next := 0
  prev := 0
  process := 0

def stringMemory : Memory := fun a =>
  if 0x400000 ≤ a then [98, 111, 105].getD (a - 0x400000) 0 else 0

def Kernel.withStringTask (k : Kernel) (chunk : Nat) : Kernel :=
  { k with
    memory := stringMemory
    scheduler := { k.scheduler with tasks := ⟨fun _ => some (stringTask chunk), 8, 8, 8⟩ } }

theorem copy_string_from_task_neutral_boi : ∃ chunk k₁ k',
    pagingNew4gb pagingIsPresent (emptyKernel 1027) = .ok (chunk, k₁) ∧
    copyStringFromTask 8 0x400000 0x9000 3 (k₁.withStringTask chunk) = .ok (0, k') ∧
    TablesUntouched (k₁.withStringTask chunk) k' ∧ k'.memory.HoldsString 0x9000 [98, 111] := by
  have hwf : (emptyKernel 1027).heap.WellFormed := emptyKernel_wellFormed (by decide)
  obtain ⟨chunk, k₁, hnew, hwf₁, hcount⟩ := pagingNew4gb_returns pagingIsPresent hwf
    (by rw [emptyKernel_freeBlocks]; decide)
  rw [emptyKernel_freeBlocks] at hcount
  obtain ⟨directory, tables, hbuilt⟩ := pagingNew4gb_built hwf.placed (by decide) rfl hnew
  have hpresent : pagingIsPresent &&& pagingIsPresent ≠ 0 := by decide
  have htables := pagingNew4gb_present hpresent rfl hnew hbuilt.holds
  have hspace : ∀ va < 4294967296, pagingSpace k₁.pages directory va = some va := fun va hva =>
    hbuilt.space (by decide) hpresent htables hva
  have hclean : k₁.heap.table.Clean := hbuilt.took.clean fun _ hb _ _ => bootEntries_eq_zero hb
  have hsize : u32 3 = 3 := by
    unfold u32
    rfl
  have hserved : (k₁.withStringTask chunk).temporaryPage 3 ≠ 0 :=
    (Heap.heapMalloc_served_iff hwf₁ (by rw [hsize]; decide) (by rw [hsize]; decide)).1.mpr
      (by omega)
  have hpage : boiosHeapAddress ≤ (k₁.withStringTask chunk).temporaryPage 3 ∧
      (k₁.withStringTask chunk).temporaryPage 3 < 0x80000000 := by
    have htake := hwf₁.placed.heapMalloc (by rw [hsize]; decide) (by rw [hsize]; decide) hserved
    have haddress := htake.block.address
    have hlow := htake.block.low
    have hhigh := htake.block.high
    rw [hbuilt.took.start] at haddress
    rw [hbuilt.took.total] at hhigh
    have hstart : (emptyKernel 1027).heap.startAddress = boiosHeapAddress := rfl
    have htotal : (emptyKernel 1027).heap.table.totalEntries = 1027 := rfl
    unfold Kernel.temporaryPage Kernel.withStringTask boiosHeapAddress at *
    dsimp only
    omega
  have hwhere : ∀ i : Nat, i < 2 → u32 ((0x400000 : Nat) + (i : Int)) = 0x400000 + i := fun i hi =>
    u32_natCast (n := 0x400000 + i) (by omega)
  unfold boiosHeapAddress at hpage
  have hpath : Path (chunkStep
      {b | k₁.heap.table.entries b ≠ (emptyKernel 1027).heap.table.entries b} chunk) k₁
      [(none, k₁.withStringTask chunk)] :=
    ⟨⟨rfl, rfl, fun _ _ => rfl, fun _ _ => rfl, fun _ _ => rfl⟩, trivial⟩
  have htask : (k₁.withStringTask chunk).scheduler.tasks.store 8 = some (stringTask chunk) := rfl
  have hcopies := copy_string_from_task_neutral hwf.placed (by decide) rfl hnew hpath rfl hclean
    htask rfl (by decide : 0x400000 < 4294967296) (by decide : 0x9000 < 4294967296)
    (by decide : (1 : Int) ≤ 3) (by decide)
  obtain ⟨directory', hholds, hreturns, hserves⟩ := hcopies
  obtain rfl := Option.some.inj (hbuilt.holds.symm.trans hholds)
  have hstring : StringIn (pagingSpace k₁.pages directory) stringMemory 0x400000 2 [98, 111] := by
    refine ⟨by decide, fun i c hi => ?_, fun hlt => absurd hlt (by decide)⟩
    have hin : i < 2 := (List.getElem?_eq_some_iff.mp hi).1
    rw [hwhere i hin, hspace _ (by omega)]
    match i, hi with
    | 0, rfl => exact ⟨by decide, _, rfl, rfl⟩
    | 1, rfl => exact ⟨by decide, _, rfl, rfl⟩
  have hoff : StringOffPage (pagingSpace k₁.pages directory) 0x400000 2 [98, 111]
      ((k₁.withStringTask chunk).temporaryPage 3) := by
    refine ⟨fun i _ hi heq => ?_, fun i _ hi a ha => ?_⟩
    · rw [hwhere i hi] at heq
      unfold pagingAlignToLowerPage pagingPageSize at heq
      omega
    · rw [hwhere i hi, hspace _ (by omega)] at ha
      obtain rfl := Option.some.inj ha
      unfold pagingPageSize u32
      omega
  have hapart : BufferOffPage 0x9000 3 ((k₁.withStringTask chunk).temporaryPage 3) := by
    intro i hi
    unfold pagingPageSize u32
    omega
  obtain ⟨k', hcopy⟩ := hserves hpresent hserved _ hstring hoff hapart
  obtain ⟨huntouched, -, hcopied⟩ := hreturns 0 k' hcopy
  exact ⟨chunk, k₁, k', hnew, hcopy, huntouched, (hcopied rfl _ hstring hoff hapart).holds⟩

end BoiOS
