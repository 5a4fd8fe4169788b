import BoiOS.Library.Transition
import BoiOS.Memory.PagingExact
import BoiOS.Memory.PagingFrame

/-! Runs of mappings through a page directory. Whatever is mapped, a later mapping of a range sets
its own pages and no other, and the blocks of the directory are given back when it is freed. -/
namespace BoiOS
open Library.StateRun Library.Transition

inductive MapCall
  | set (virtualAddress value : Nat)
  | map (virtualAddress physicalAddress flags : Nat)
  | mapRange (virtualAddress physicalAddress totalPages flags : Nat)
  | mapTo (virtualAddress physicalAddress physicalEndAddress flags : Nat)

namespace MapCall

def virtualAddress : MapCall → Nat
  | set va _ => va
  | map va _ _ => va
  | mapRange va _ _ _ => va
  | mapTo va _ _ _ => va

def run (s : PageStore) (chunk : Nat) : MapCall → Except Stop (Int × PageStore)
  | set va value => (access (s.chunks chunk)).bind fun directory => pagingSet s directory va value
  | map va pa flags => pagingMap s chunk va pa flags
  | mapRange va pa totalPages flags => pagingMapRange s chunk va pa totalPages flags 0
  | mapTo va pa pe flags => pagingMapTo s chunk va pa pe flags

end MapCall

/-! Every call returns. -/

theorem pagingSet_returns {s : PageStore} {directory : Nat} {tables : Nat → Nat}
    (h : IsDirectory s directory tables) {va : Nat} (hva : va < 4294967296) (value : Nat) :
    ∃ res s', pagingSet s directory va value = .ok (res, s') ∧ MapFrame directory tables s s' := by
  by_cases haligned : va % 4096 = 0
  · obtain ⟨entries, harray, hset⟩ := h.pagingSet hva haligned value
    refine ⟨0, _, hset, (h.setEntry_self value hva haligned harray).1, rfl, fun a ha => ?_⟩
    exact Function.update_of_ne (ha _ (pagingDirectoryIndex_lt hva)) _ _
  · refine ⟨-einvarg, s, ?_, .refl h⟩
    unfold pagingSet pagingIsAligned pagingPageSize
    simp [haligned]

theorem pagingMap_returns {s : PageStore} {directory chunk : Nat} {tables : Nat → Nat}
    (h : IsDirectory s directory tables) (hchunk : s.chunks chunk = some directory) {va : Nat}
    (hva : va < 4294967296) (pa flags : Nat) :
    ∃ res s', pagingMap s chunk va pa flags = .ok (res, s') ∧ MapFrame directory tables s s' := by
  unfold pagingMap
  split_ifs
  · exact ⟨-einvarg, s, rfl, .refl h⟩
  · rw [hchunk, access_some]
    exact pagingSet_returns h hva (pa ||| flags)

theorem pagingMapRange_returns {s : PageStore} {directory chunk : Nat}
    {tables : Nat → Nat} (h : IsDirectory s directory tables)
    (hchunk : s.chunks chunk = some directory) (count : Nat) {va : Nat} (hva : va < 4294967296)
    (pa flags : Nat) (last : Int) : ∃ res s',
      pagingMapRange s chunk va pa count flags last = .ok (res, s') ∧
        MapFrame directory tables s s' := by
  induction count generalizing s va pa last with
  | zero => exact ⟨last, s, rfl, .refl h⟩
  | succ count ih =>
    obtain ⟨res, s₁, hmap, hframe⟩ := pagingMap_returns h hchunk hva pa flags
    unfold pagingMapRange
    rw [hmap]
    simp only [Except.bind]
    split_ifs
    · exact ⟨res, s₁, rfl, hframe⟩
    · obtain ⟨res', s₂, hrange, hframe'⟩ := ih hframe.directory (by rw [hframe.chunks, hchunk])
        (u32_lt _) (u32 ((pa : Int) + pagingPageSize)) res
      exact ⟨res', s₂, hrange, hframe.trans hframe'⟩

theorem MapCall.run_returns (call : MapCall) {s : PageStore} {directory chunk : Nat}
    {tables : Nat → Nat} (h : IsDirectory s directory tables)
    (hchunk : s.chunks chunk = some directory) (hva : call.virtualAddress < 4294967296) :
    ∃ res s', call.run s chunk = .ok (res, s') ∧ MapFrame directory tables s s' := by
  cases call with
  | set va value =>
    unfold MapCall.run
    rw [hchunk]
    exact pagingSet_returns h hva value
  | map va pa flags => exact pagingMap_returns h hchunk hva pa flags
  | mapRange va pa count flags => exact pagingMapRange_returns h hchunk count hva pa flags 0
  | mapTo va pa pe flags =>
    change ∃ res s', pagingMapTo s chunk va pa pe flags = .ok (res, s') ∧ _
    unfold pagingMapTo
    split_ifs
    · exact ⟨-einvarg, s, rfl, .refl h⟩
    · exact ⟨-einvarg, s, rfl, .refl h⟩
    · exact pagingMapRange_returns h hchunk _ hva pa flags 0

/-- The calls one after the other, whatever their status. -/
def runCalls (s : PageStore) (chunk : Nat) : List MapCall → Except Stop PageStore
  | [] => .ok s
  | call :: rest => (call.run s chunk).bind fun (_, s) => runCalls s chunk rest

theorem runCalls_returns {s : PageStore} {directory chunk : Nat} {tables : Nat → Nat}
    (h : IsDirectory s directory tables) (hchunk : s.chunks chunk = some directory)
    (calls : List MapCall) (hcalls : ∀ call ∈ calls, call.virtualAddress < 4294967296) :
    ∃ s', runCalls s chunk calls = .ok s' ∧ MapFrame directory tables s s' := by
  induction calls generalizing s with
  | nil => exact ⟨s, rfl, .refl h⟩
  | cons call rest ih =>
    obtain ⟨res, s₁, hrun, hframe⟩ := call.run_returns h hchunk (hcalls call (by simp))
    obtain ⟨s₂, hrest, hframe'⟩ := ih hframe.directory (by rw [hframe.chunks, hchunk])
      fun c hc => hcalls c (List.mem_cons_of_mem call hc)
    refine ⟨s₂, ?_, hframe.trans hframe'⟩
    unfold runCalls
    rw [hrun]
    exact hrest

/-! Range mapping. -/

/-- The `n` pages from `v` on are mapped to those from `p` on, and no other page changed. -/
structure RangeMapped (s s' : PageStore) (directory v p n flags : Nat) : Prop where
  mapped : ∀ i < n, pagingGet s' directory (u32 ((v : Int) + 4096 * i)) =
    .ok (p + 4096 * i ||| flags)
  translated : ∀ x : Nat, x < 4294967296 → u32 ((x : Int) - v) < 4096 * n →
    pagingGetPhysicalAddress s' directory x = .ok (p + u32 ((x : Int) - v))
  others : ∀ va < 4294967296, va % 4096 = 0 → (∀ i < n, va ≠ u32 ((v : Int) + 4096 * (i : Nat))) →
    pagingGet s' directory va = pagingGet s directory va

theorem pagingMapTo_exact {s : PageStore} {directory chunk : Nat} {tables : Nat → Nat}
    (h : IsDirectory s directory tables) (hchunk : s.chunks chunk = some directory)
    {v p e flags : Nat} (hv : v % 4096 = 0) (hvlt : v < 4294967296) (hp : p % 4096 = 0)
    (he : e % 4096 = 0) (helt : e < 4294967296) (hle : p ≤ e) (hflags : flags < 4096) :
    ∃ s', pagingMapTo s chunk v p e flags = .ok (0, s') ∧
      RangeMapped s s' directory v p ((e - p) / 4096) flags := by
  obtain ⟨s', hrun, -, -, -, hget⟩ := pagingMapTo_get h hchunk flags hv hvlt hp he helt hle
  have hpages : 4096 * ((e - p) / 4096) = e - p := by omega
  refine ⟨s', hrun, fun i hi => ?_, fun x hx hin => ?_, fun va hva haligned hother => ?_⟩
  · have hdistance : u32 ((u32 ((v : Int) + 4096 * i) : Int) - v) = 4096 * i := by
      unfold u32
      omega
    have haligned : u32 ((v : Int) + 4096 * i) % 4096 = 0 := by
      unfold u32
      omega
    rw [hget _ (u32_lt _) haligned, hdistance, if_pos (by omega)]
  · have hlow := pagingAlignToLowerPage_aligned x
    have hdistance : u32 ((pagingAlignToLowerPage x : Int) - v) + x % 4096 = u32 ((x : Int) - v) := by
      unfold pagingAlignToLowerPage pagingPageSize u32
      omega
    have hentry : pagingGet s' directory (pagingAlignToLowerPage x) =
        .ok (p + u32 ((pagingAlignToLowerPage x : Int) - v) ||| flags) := by
      rw [hget _ (pagingAlignToLowerPage_lt hx) hlow, if_pos (by omega)]
    have hpage : (p + u32 ((pagingAlignToLowerPage x : Int) - v)) % 4096 = 0 := by
      unfold u32
      omega
    rw [pagingGetPhysicalAddress_of_entry hpage hflags hentry]
    congr 1
    omega
  · rw [hget va hva haligned, if_neg]
    intro hin
    apply hother (u32 ((va : Int) - v) / 4096) (by omega)
    unfold u32 at hin ⊢
    omega

theorem pagingMapTo_refused {s : PageStore} {chunk v p e flags : Nat}
    (h : ¬ (v % 4096 = 0 ∧ p % 4096 = 0 ∧ e % 4096 = 0 ∧ p ≤ e)) :
    pagingMapTo s chunk v p e flags = .ok (-einvarg, s) := by
  unfold pagingMapTo pagingPageSize
  split_ifs with hmisaligned hbelow
  · rfl
  · rfl
  · omega

/-- Whatever was mapped through a new directory before, mapping a range is exact, and a range that
is misaligned or ends below its start is refused without a change. -/
theorem paging_map_to_exact {flags₀ chunk : Nat} {k k' : Kernel} (hheap : k.heap.Placed)
    (hflags₀ : flags₀ < 256) (hnull : k.pages.arrays 0 = none)
    (hnew : pagingNew4gb flags₀ k = .ok (chunk, k')) (calls : List MapCall)
    (hcalls : ∀ call ∈ calls, call.virtualAddress < 4294967296) {v p e flags : Nat}
    (hv : v < 4294967296) (he : e < 4294967296) (hflags : flags < 4096) :
    ∃ directory s, k'.pages.chunks chunk = some directory ∧
      runCalls k'.pages chunk calls = .ok s ∧
      (v % 4096 = 0 ∧ p % 4096 = 0 ∧ e % 4096 = 0 ∧ p ≤ e →
        ∃ s', pagingMapTo s chunk v p e flags = .ok (0, s') ∧
          RangeMapped s s' directory v p ((e - p) / 4096) flags) ∧
      (¬ (v % 4096 = 0 ∧ p % 4096 = 0 ∧ e % 4096 = 0 ∧ p ≤ e) →
        pagingMapTo s chunk v p e flags = .ok (-einvarg, s)) := by
  obtain ⟨directory, tables, hbuilt⟩ := pagingNew4gb_built hheap hflags₀ hnull hnew
  obtain ⟨s, hrun, hframe⟩ := runCalls_returns hbuilt.isDirectory hbuilt.holds calls hcalls
  refine ⟨directory, s, hbuilt.holds, hrun, ?_, pagingMapTo_refused⟩
  rintro ⟨halignv, halignp, haligne, hle⟩
  apply pagingMapTo_exact hframe.directory _ halignv hv halignp haligne he hle hflags
  rw [hframe.chunks, hbuilt.holds]

theorem paging_map_to_exact_emptyKernel :
    ∃ chunk k' directory s, pagingNew4gb pagingIsPresent (emptyKernel 1026) = .ok (chunk, k') ∧
      k'.pages.chunks chunk = some directory ∧
      runCalls k'.pages chunk [.map 0x400000 0x800000 7] = .ok s ∧
      ∃ s', pagingMapTo s chunk 0xFFFFF000 0x1000 0x3000 3 = .ok (0, s') ∧
        RangeMapped s s' directory 0xFFFFF000 0x1000 2 3 := by
  obtain ⟨chunk, k', hnew⟩ := pagingNew4gb_emptyKernel pagingIsPresent
  have hwf : (emptyKernel 1026).heap.WellFormed := emptyKernel_wellFormed (by decide)
  obtain ⟨directory, s, hchunk, hcalls, hmapped, -⟩ := paging_map_to_exact hwf.placed (by decide)
    rfl hnew [.map 0x400000 0x800000 7] (by decide) (v := 0xFFFFF000) (p := 0x1000) (e := 0x3000)
    (by decide) (by decide) (by decide : 3 < 4096)
  exact ⟨chunk, k', directory, s, hnew, hchunk, hcalls, hmapped (by decide)⟩

/-! Freeing. -/

/-- The step freed the blocks at `addresses`, and no other block. -/
structure GaveBlocks (addresses : Set Nat) (heap heap' : Heap) : Prop where
  start : heap'.startAddress = heap.startAddress
  total : heap'.table.totalEntries = heap.table.totalEntries
  cleared : ∀ a ∈ addresses, heap'.table.entries (heap.blockOf a) = heapBlockTableEntryFree
  kept : ∀ b, (∀ a ∈ addresses, b ≠ heap.blockOf a) → heap'.table.entries b = heap.table.entries b

namespace GaveBlocks

theorem refl (heap : Heap) : GaveBlocks ∅ heap heap := ⟨rfl, rfl, by simp, fun _ _ => rfl⟩

theorem trans {A B : Set Nat} {heap heap' heap'' : Heap} (h : GaveBlocks A heap heap')
    (h' : GaveBlocks B heap' heap'') : GaveBlocks (A ∪ B) heap heap'' := by
  have hblock := Heap.blockOf_congr h.start
  have hkept : ∀ b, (∀ a ∈ B, b ≠ heap.blockOf a) →
      heap''.table.entries b = heap'.table.entries b := by
    intro b hb
    apply h'.kept
    intro a ha
    rw [hblock]
    exact hb a ha
  refine ⟨h'.start.trans h.start, h'.total.trans h.total, ?_, fun b hb => ?_⟩
  · intro a ha
    by_cases hB : ∃ c ∈ B, heap.blockOf a = heap.blockOf c
    · obtain ⟨c, hc, heq⟩ := hB
      rw [heq, ← hblock]
      exact h'.cleared c hc
    · push Not at hB
      rw [hkept _ hB]
      rcases ha with ha | ha
      · exact h.cleared a ha
      · exact absurd rfl (hB a ha)
  · rw [hkept b fun a ha => hb a (Or.inr ha)]
    exact h.kept b fun a ha => hb a (Or.inl ha)

theorem of_kfree {k k' : Kernel} {ptr : Nat} (h : k.heap.Placed) (hptr : k.heap.IsBlock ptr)
    (hsingle : k.heap.table.entries (k.heap.blockOf ptr) = heapBlockSingle)
    (hk' : k'.heap = heapFree k.heap ptr) : GaveBlocks {ptr} k.heap k'.heap := by
  have hentries := h.heapFree hptr hsingle
  rw [hk']
  refine ⟨by simp, by simp, ?_, fun b hb => ?_⟩
  · rintro a rfl
    rw [hentries, Function.update_self]
  · rw [hentries, Function.update_of_ne (hb ptr rfl)]

theorem single {A : Set Nat} {heap heap' : Heap} (h : GaveBlocks A heap heap') {a : Nat}
    (ha : heap.IsBlock a) (hne : ∀ c ∈ A, heap.IsBlock c ∧ a ≠ c)
    (hsingle : heap.table.entries (heap.blockOf a) = heapBlockSingle) :
    heap'.IsBlock a ∧ heap'.table.entries (heap'.blockOf a) = heapBlockSingle := by
  refine ⟨ha.congr h.start h.total, ?_⟩
  rw [Heap.blockOf_congr h.start, h.kept _ fun c hc heq => (hne c hc).2 (ha.eq (hne c hc).1 heq)]
  exact hsingle

end GaveBlocks

def Heap.Single (heap : Heap) (a : Nat) : Prop :=
  heap.IsBlock a ∧ heap.table.entries (heap.blockOf a) = heapBlockSingle

theorem pagingFree4gbLoop_exact {directory : Nat} {entries : Nat → Nat} (count : Nat) {i : Nat}
    {k : Kernel} (hplaced : k.heap.Placed) (harray : k.pages.arrays directory = some entries)
    (htables : ∀ j, i ≤ j → j < i + count → k.heap.Single (pagingFrame (entries j)))
    (hapart : ∀ j, i ≤ j → j < i + count → pagingFrame (entries j) ≠ directory)
    (hdistinct : ∀ j j', i ≤ j → j < j' → j' < i + count →
      pagingFrame (entries j) ≠ pagingFrame (entries j')) :
    ∃ k', pagingFree4gbLoop directory count i k = .ok ((), k') ∧
      k'.pages.chunks = k.pages.chunks ∧
      GaveBlocks {a | ∃ j, i ≤ j ∧ j < i + count ∧ a = pagingFrame (entries j)} k.heap k'.heap := by
  induction count generalizing i k with
  | zero =>
    refine ⟨k, rfl, rfl, ?_⟩
    have hnone : {a | ∃ j, i ≤ j ∧ j < i + 0 ∧ a = pagingFrame (entries j)} = ∅ := by
      ext a
      simp only [Set.mem_ofPred_eq, Set.mem_empty_iff_false, iff_false]
      rintro ⟨j, hlow, hhigh, -⟩
      omega
    rw [hnone]
    exact .refl _
  | succ count ih =>
    let k₁ : Kernel := { k with heap := heapFree k.heap (pagingFrame (entries i)) }
    let k₂ : Kernel := { k₁ with pages := k₁.pages.dropArray (pagingFrame (entries i)) }
    obtain ⟨hblock, hsingle⟩ := htables i (le_refl i) (by omega)
    have hgave : GaveBlocks {pagingFrame (entries i)} k.heap k₂.heap :=
      .of_kfree hplaced hblock hsingle (show k₂.heap = _ from rfl)
    obtain ⟨k', hrun, hchunks, hrest⟩ := ih (i := i + 1) (k := k₂)
      (hplaced.congr hgave.start hgave.total)
      ((Function.update_of_ne (hapart i (le_refl i) (by omega)).symm _ _).trans harray)
      (fun j hlow hhigh => by
        obtain ⟨hj, hsinglej⟩ := htables j (by omega) (by omega)
        apply hgave.single hj _ hsinglej
        rintro c rfl
        exact ⟨hblock, (hdistinct i j (le_refl i) (by omega) (by omega)).symm⟩)
      (fun j hlow hhigh => hapart j (by omega) (by omega))
      (fun j j' hlow hlt hhigh => hdistinct j j' (by omega) hlt (by omega))
    refine ⟨k', ?_, hchunks, ?_⟩
    · unfold pagingFree4gbLoop
      rw [bind_of_ok (get_apply k), bind_of_ok (fetch_eq_ok.mpr ⟨harray, rfl⟩),
        bind_of_ok (kfree_apply ..), bind_of_ok (modify_apply ..)]
      exact hrun
    · have hsplit : {a | ∃ j, i ≤ j ∧ j < i + (count + 1) ∧ a = pagingFrame (entries j)} =
          {pagingFrame (entries i)} ∪
            {a | ∃ j, i + 1 ≤ j ∧ j < i + 1 + count ∧ a = pagingFrame (entries j)} := by
        ext a
        simp only [Set.mem_ofPred_eq, Set.mem_union, Set.mem_singleton_iff]
        constructor
        · rintro ⟨j, hlow, hhigh, rfl⟩
          by_cases hj : j = i
          · exact Or.inl (by rw [hj])
          · exact Or.inr ⟨j, by omega, by omega, rfl⟩
        · rintro (rfl | ⟨j, hlow, hhigh, rfl⟩)
          · exact ⟨i, le_refl i, by omega, rfl⟩
          · exact ⟨j, by omega, by omega, rfl⟩
      rw [hsplit]
      exact hgave.trans hrest

theorem insert_directoryArrays (chunk directory : Nat) (tables : Nat → Nat) :
    insert chunk (directoryArrays directory 1024 tables) =
      {a | ∃ j < 1024, a = tables j} ∪ {directory} ∪ {chunk} := by
  ext a
  simp only [directoryArrays, Set.mem_insert_iff, Set.mem_ofPred_eq, Set.mem_union,
    Set.mem_singleton_iff]
  constructor
  · rintro (hchunk | hdirectory | htable)
    · exact Or.inr hchunk
    · exact Or.inl (Or.inr hdirectory)
    · exact Or.inl (Or.inl htable)
  · rintro ((htable | hdirectory) | hchunk)
    · exact Or.inr (Or.inr htable)
    · exact Or.inr (Or.inl hdirectory)
    · exact Or.inl hchunk

theorem pagingFree4gb_exact {k : Kernel} {chunk directory : Nat} {tables : Nat → Nat}
    (hplaced : k.heap.Placed) (hchunk : k.pages.chunks chunk = some directory)
    (hdir : IsDirectory k.pages directory tables)
    (hfresh : chunk ∉ directoryArrays directory 1024 tables)
    (hblocks : ∀ a ∈ insert chunk (directoryArrays directory 1024 tables), k.heap.Single a) :
    ∃ k', pagingFree4gb chunk k = .ok ((), k') ∧
      GaveBlocks (insert chunk (directoryArrays directory 1024 tables)) k.heap k'.heap := by
  obtain ⟨entries, harray, hframes⟩ := hdir.holds
  have hchunkBlock := hblocks chunk (Set.mem_insert ..)
  have hdirectoryBlock := hblocks directory (Or.inr (Or.inl rfl))
  have htableBlock : ∀ j < 1024, k.heap.Single (pagingFrame (entries j)) := by
    intro j hj
    rw [hframes j hj]
    exact hblocks _ (Or.inr (Or.inr ⟨j, hj, rfl⟩))
  have hne : chunk ≠ directory := fun heq => hfresh (Or.inl heq)
  obtain ⟨k₁, hloop, hchunks, hgave⟩ := pagingFree4gbLoop_exact pagingTotalEntriesPerTable (i := 0)
    hplaced harray (fun j _ hj => htableBlock j (by unfold pagingTotalEntriesPerTable at hj; omega))
    (fun j _ hj => by
      have hj' : j < 1024 := by
        unfold pagingTotalEntriesPerTable at hj
        omega
      rw [hframes j hj']
      exact hdir.apart j hj')
    (fun j j' _ hlt hhigh => by
      have hj' : j' < 1024 := by
        unfold pagingTotalEntriesPerTable at hhigh
        omega
      rw [hframes j (by omega), hframes j' hj']
      intro heq
      have hsame := hdir.distinct j (by omega) j' hj' heq
      omega)
  have hset : {a | ∃ j, 0 ≤ j ∧ j < 0 + pagingTotalEntriesPerTable ∧ a = pagingFrame (entries j)} =
      {a | ∃ j < 1024, a = tables j} := by
    ext a
    simp only [Set.mem_ofPred_eq, pagingTotalEntriesPerTable]
    constructor
    · rintro ⟨j, -, hj, rfl⟩
      exact ⟨j, by omega, hframes j (by omega)⟩
    · rintro ⟨j, hj, rfl⟩
      exact ⟨j, by omega, by omega, (hframes j hj).symm⟩
  rw [hset] at hgave
  have hsingle : ∀ a, k.heap.Single a → (∀ j < 1024, a ≠ tables j) → k₁.heap.Single a := by
    intro a ha happart
    apply hgave.single ha.1 _ ha.2
    rintro c ⟨j, hj, rfl⟩
    rw [← hframes j hj]
    exact ⟨(htableBlock j hj).1, by rw [hframes j hj]; exact happart j hj⟩
  have hdirectory₁ := hsingle directory hdirectoryBlock fun j hj => (hdir.apart j hj).symm
  have hchunk₁ := hsingle chunk hchunkBlock fun j hj heq => hfresh (Or.inr ⟨j, hj, heq⟩)
  have hplaced₁ := hplaced.congr hgave.start hgave.total
  let k₂ : Kernel := { k₁ with
    heap := heapFree k₁.heap directory, pages := k₁.pages.dropArray directory }
  have hgave₂ : GaveBlocks {directory} k₁.heap k₂.heap :=
    .of_kfree hplaced₁ hdirectory₁.1 hdirectory₁.2 (show k₂.heap = _ from rfl)
  have hchunk₂ : k₂.heap.Single chunk := by
    apply hgave₂.single hchunk₁.1 _ hchunk₁.2
    rintro c rfl
    exact ⟨hdirectory₁.1, hne⟩
  let k₃ : Kernel := { k₂ with
    heap := heapFree k₂.heap chunk, pages := k₂.pages.putChunk chunk none }
  have hgave₃ : GaveBlocks {chunk} k₂.heap k₃.heap :=
    .of_kfree (hplaced₁.congr hgave₂.start hgave₂.total) hchunk₂.1 hchunk₂.2
      (show k₃.heap = _ from rfl)
  refine ⟨k₃, ?_, ?_⟩
  · unfold pagingFree4gb
    rw [bind_of_ok (get_apply k), bind_of_ok (fetch_eq_ok.mpr ⟨hchunk, rfl⟩), bind_of_ok hloop,
      bind_of_ok (kfree_apply ..), bind_of_ok (modify_apply ..),
      bind_of_ok (kfree_apply ..), modify_apply]
  · rw [insert_directoryArrays]
    exact (hgave.trans hgave₂).trans hgave₃

/-- The step leaves the blocks of `S` alone: their entries in the heap table, and what is in them. -/
structure LeavesBlocks (S : Set Int) (k k' : Kernel) : Prop where
  start : k'.heap.startAddress = k.heap.startAddress
  total : k'.heap.table.totalEntries = k.heap.table.totalEntries
  entries : ∀ b ∈ S, k'.heap.table.entries b = k.heap.table.entries b
  arrays : ∀ a, k.heap.blockOf a ∈ S → k'.pages.arrays a = k.pages.arrays a
  chunks : ∀ a, k.heap.blockOf a ∈ S → k'.pages.chunks a = k.pages.chunks a

/-- Between the making and the freeing of a chunk: a call on the chunk, or anything else that leaves
the blocks of `S` alone. -/
def chunkStep (S : Set Int) (chunk : Nat) : Step Kernel (Option MapCall) := fun k call k' =>
  match call with
  | some call => call.virtualAddress < 4294967296 ∧
      ∃ res pages, call.run k.pages chunk = .ok (res, pages) ∧ k' = { k with pages }
  | none => LeavesBlocks S k k'

structure ChunkKept (base : Heap) (chunk directory : Nat) (tables : Nat → Nat) (k : Kernel) :
    Prop where
  start : k.heap.startAddress = base.startAddress
  total : k.heap.table.totalEntries = base.table.totalEntries
  holds : k.pages.chunks chunk = some directory
  isDirectory : IsDirectory k.pages directory tables
  single : ∀ a ∈ insert chunk (directoryArrays directory 1024 tables), k.heap.Single a

theorem ChunkKept.step {base : Heap} {S : Set Int} {chunk directory : Nat} {tables : Nat → Nat}
    {k k' : Kernel} {call : Option MapCall} (h : ChunkKept base chunk directory tables k)
    (hS : ∀ a ∈ insert chunk (directoryArrays directory 1024 tables), base.blockOf a ∈ S)
    (hstep : chunkStep S chunk k call k') : ChunkKept base chunk directory tables k' := by
  have hblock := Heap.blockOf_congr h.start
  cases call with
  | some call =>
    obtain ⟨hva, res, pages, hrun, rfl⟩ := hstep
    obtain ⟨res', s', hrun', hframe⟩ := call.run_returns h.isDirectory h.holds hva
    rw [hrun, Except.ok.injEq, Prod.mk.injEq] at hrun'
    obtain ⟨-, rfl⟩ := hrun'
    exact ⟨h.start, h.total, by rw [← h.holds, ← hframe.chunks], hframe.directory, h.single⟩
  | none =>
    have hleaves : LeavesBlocks S k k' := hstep
    have hin : ∀ a ∈ insert chunk (directoryArrays directory 1024 tables), k.heap.blockOf a ∈ S := by
      intro a ha
      rw [hblock]
      exact hS a ha
    have harray : ∀ a ∈ directoryArrays directory 1024 tables,
        k'.pages.arrays a = k.pages.arrays a :=
      fun a ha => hleaves.arrays a (hin a (Set.mem_insert_of_mem chunk ha))
    constructor
    case start => exact hleaves.start.trans h.start
    case total => exact hleaves.total.trans h.total
    case holds =>
      rw [hleaves.chunks chunk (hin chunk (Set.mem_insert ..))]
      exact h.holds
    case isDirectory =>
      obtain ⟨entries, hentries, hframes⟩ := h.isDirectory.holds
      refine ⟨⟨entries, ?_, hframes⟩, fun i hi => ?_, h.isDirectory.apart, h.isDirectory.distinct⟩
      · rw [harray directory (Or.inl rfl)]
        exact hentries
      · rw [harray (tables i) (Or.inr ⟨i, hi, rfl⟩)]
        exact h.isDirectory.present i hi
    case single =>
      intro a ha
      refine ⟨(h.single a ha).1.congr hleaves.start hleaves.total, ?_⟩
      rw [Heap.blockOf_congr hleaves.start, hleaves.entries _ (hin a ha)]
      exact (h.single a ha).2

theorem BuiltChunk.chunkKept {heap : Heap} {flags chunk directory : Nat} {tables : Nat → Nat}
    {k : Kernel} (h : BuiltChunk heap flags k chunk directory tables) :
    ChunkKept heap chunk directory tables k := by
  refine ⟨h.took.start, h.took.total, h.holds, h.isDirectory, fun a ha => ?_⟩
  refine ⟨(h.took.blocks a ha).congr h.took.start h.took.total, ?_⟩
  rw [Heap.blockOf_congr h.took.start]
  exact h.took.taken a ha

/-- After any run of calls on a new chunk and of other activity that leaves its blocks alone,
freeing the chunk frees exactly the blocks that making it took. -/
theorem paging_free_4gb_exact {flags chunk : Nat} {k k₁ : Kernel} (hheap : k.heap.Placed)
    (hflags : flags < 256) (hnull : k.pages.arrays 0 = none)
    (hnew : pagingNew4gb flags k = .ok (chunk, k₁)) {run : List (Option MapCall × Kernel)}
    (hrun : Path (chunkStep {b | k₁.heap.table.entries b ≠ k.heap.table.entries b} chunk) k₁ run) :
    ∃ k', pagingFree4gb chunk (last k₁ run) = .ok ((), k') ∧ ∀ b,
      (k₁.heap.table.entries b ≠ k.heap.table.entries b →
        k'.heap.table.entries b = heapBlockTableEntryFree) ∧
      (k₁.heap.table.entries b = k.heap.table.entries b →
        k'.heap.table.entries b = (last k₁ run).heap.table.entries b) := by
  obtain ⟨directory, tables, hbuilt⟩ := pagingNew4gb_built hheap hflags hnull hnew
  have hchanged := hbuilt.took.changed_iff
  have hkept : ChunkKept k.heap chunk directory tables (last k₁ run) := by
    refine last_of_path (fun s call t h hstep => ?_) k₁ run hbuilt.chunkKept hrun
    exact h.step (fun a ha => (hchanged _).mpr ⟨a, ha, rfl⟩) hstep
  obtain ⟨k', hfree, hgave⟩ := pagingFree4gb_exact (hheap.congr hkept.start hkept.total) hkept.holds
    hkept.isDirectory hbuilt.fresh hkept.single
  have hblock := Heap.blockOf_congr hkept.start
  refine ⟨k', hfree, fun b => ⟨fun hne => ?_, fun hsame => ?_⟩⟩
  · obtain ⟨a, ha, rfl⟩ := (hchanged b).mp hne
    rw [← hblock]
    exact hgave.cleared a ha
  · apply hgave.kept
    intro a ha heq
    rw [hblock] at heq
    exact (hchanged b).mpr ⟨a, ha, heq⟩ hsame

theorem paging_free_4gb_exact_emptyKernel : ∃ chunk k₁ k₂ k',
    pagingNew4gb pagingIsPresent (emptyKernel 1026) = .ok (chunk, k₁) ∧
    Path (chunkStep {b | k₁.heap.table.entries b ≠ (emptyKernel 1026).heap.table.entries b} chunk)
      k₁ [(some (.map 0x400000 0x800000 7), k₂)] ∧
    pagingFree4gb chunk k₂ = .ok ((), k') ∧ ∀ b,
      (k₁.heap.table.entries b ≠ (emptyKernel 1026).heap.table.entries b →
        k'.heap.table.entries b = heapBlockTableEntryFree) ∧
      (k₁.heap.table.entries b = (emptyKernel 1026).heap.table.entries b →
        k'.heap.table.entries b = k₂.heap.table.entries b) := by
  obtain ⟨chunk, k₁, hnew⟩ := pagingNew4gb_emptyKernel pagingIsPresent
  have hplaced : (emptyKernel 1026).heap.Placed := (emptyKernel_wellFormed (by decide)).placed
  obtain ⟨directory, tables, hbuilt⟩ := pagingNew4gb_built hplaced (by decide) rfl hnew
  obtain ⟨res, pages, hrun, -⟩ := MapCall.run_returns (.map 0x400000 0x800000 7)
    hbuilt.isDirectory hbuilt.holds (by decide)
  have hpath : Path (chunkStep
      {b | k₁.heap.table.entries b ≠ (emptyKernel 1026).heap.table.entries b} chunk) k₁
      [(some (.map 0x400000 0x800000 7), { k₁ with pages })] :=
    ⟨⟨by decide, res, pages, hrun, rfl⟩, trivial⟩
  obtain ⟨k', hfree, hexact⟩ := paging_free_4gb_exact hplaced (by decide) rfl hnew hpath
  exact ⟨chunk, k₁, { k₁ with pages }, k', hnew, hpath, hfree, hexact⟩

end BoiOS
