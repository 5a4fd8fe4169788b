import BoiOS.Kernel.HeapFrame
import BoiOS.Memory.PagingSpec

/-! The blocks that page directories live in. A directory of its own takes a chunk, an array and
1024 tables; mapping through it touches its tables only, and freeing it gives all of them back. -/
namespace BoiOS
open Library.StateRun

/-! Mapping. -/

/-- A step through a directory leaves every array but its tables alone. -/
structure MapFrame (directory : Nat) (tables : Nat → Nat) (s s' : PageStore) : Prop where
  directory : IsDirectory s' directory tables
  chunks : s'.chunks = s.chunks
  arrays : ∀ a, (∀ i < 1024, a ≠ tables i) → s'.arrays a = s.arrays a

theorem MapFrame.refl {s : PageStore} {directory : Nat} {tables : Nat → Nat}
    (h : IsDirectory s directory tables) : MapFrame directory tables s s :=
  ⟨h, rfl, fun _ _ => rfl⟩

theorem MapFrame.trans {s s' s'' : PageStore} {directory : Nat} {tables : Nat → Nat}
    (h : MapFrame directory tables s s') (h' : MapFrame directory tables s' s'') :
    MapFrame directory tables s s'' :=
  ⟨h'.directory, h'.chunks.trans h.chunks, fun a ha => (h'.arrays a ha).trans (h.arrays a ha)⟩

theorem pagingMap_frame {s s' : PageStore} {directory chunk va pa flags : Nat}
    {tables : Nat → Nat} {res : Int} (hdir : IsDirectory s directory tables)
    (hchunk : s.chunks chunk = some directory) (hva : va < 4294967296)
    (hrun : pagingMap s chunk va pa flags = .ok (res, s')) : MapFrame directory tables s s' := by
  unfold pagingMap at hrun
  by_cases hbad : va % pagingPageSize ≠ 0 ∨ pa % pagingPageSize ≠ 0
  · rw [if_pos hbad, Except.ok.injEq, Prod.mk.injEq] at hrun
    rw [← hrun.2]
    exact .refl hdir
  · rw [if_neg hbad, hchunk, access_some] at hrun
    have haligned : va % 4096 = 0 := not_not.mp (not_or.mp hbad).1
    obtain ⟨entries, harray, hset⟩ := hdir.pagingSet hva haligned (pa ||| flags)
    simp only [Except.bind] at hrun
    rw [hset, Except.ok.injEq, Prod.mk.injEq] at hrun
    rw [← hrun.2]
    refine ⟨(hdir.setEntry_self _ hva haligned harray).1, rfl, fun a ha => ?_⟩
    exact Function.update_of_ne (ha _ (pagingDirectoryIndex_lt hva)) _ _

theorem pagingMapRange_frame {s s' : PageStore} {directory chunk va pa count flags : Nat}
    {tables : Nat → Nat} {last res : Int} (hdir : IsDirectory s directory tables)
    (hchunk : s.chunks chunk = some directory) (hva : va < 4294967296)
    (hrun : pagingMapRange s chunk va pa count flags last = .ok (res, s')) :
    MapFrame directory tables s s' := by
  induction count generalizing s va pa last with
  | zero =>
    rw [pagingMapRange, Except.ok.injEq, Prod.mk.injEq] at hrun
    rw [← hrun.2]
    exact .refl hdir
  | succ count ih =>
    unfold pagingMapRange at hrun
    cases hmap : pagingMap s chunk va pa flags with
    | error stop => simp [hmap, Except.bind] at hrun
    | ok r =>
      obtain ⟨res₁, s₁⟩ := r
      have hframe := pagingMap_frame hdir hchunk hva hmap
      rw [hmap] at hrun
      simp only [Except.bind] at hrun
      split_ifs at hrun
      · rw [Except.ok.injEq, Prod.mk.injEq] at hrun
        rw [← hrun.2]
        exact hframe
      · exact hframe.trans (ih hframe.directory (by rw [hframe.chunks, hchunk]) (u32_lt _) hrun)

theorem pagingMapTo_frame {s s' : PageStore} {directory chunk va pa pe flags : Nat}
    {tables : Nat → Nat} {res : Int} (hdir : IsDirectory s directory tables)
    (hchunk : s.chunks chunk = some directory) (hva : va < 4294967296)
    (hrun : pagingMapTo s chunk va pa pe flags = .ok (res, s')) :
    MapFrame directory tables s s' := by
  unfold pagingMapTo at hrun
  split_ifs at hrun
  · rw [Except.ok.injEq, Prod.mk.injEq] at hrun
    rw [← hrun.2]
    exact .refl hdir
  · rw [Except.ok.injEq, Prod.mk.injEq] at hrun
    rw [← hrun.2]
    exact .refl hdir
  · exact pagingMapRange_frame hdir hchunk hva hrun

/-! Directories on the heap. -/

/-- What a paging function leaves: the blocks of `P` are held with their arrays and chunks, and
nothing but the heap, memory and the page directories differs. -/
structure PagesFrame (P : Set Int) (k k' : Kernel) : Prop where
  rest : k' = { k with heap := k'.heap, memory := k'.memory, pages := k'.pages }
  guards : k'.heap.Guards P
  start : k'.heap.startAddress = k.heap.startAddress
  total : k'.heap.table.totalEntries = k.heap.table.totalEntries
  arrays : ∀ a, a = 0 ∨ k.heap.blockOf a ∈ P → k'.pages.arrays a = k.pages.arrays a
  chunks : ∀ a, k.heap.blockOf a ∈ P → k'.pages.chunks a = k.pages.chunks a

namespace PagesFrame

theorem refl {P : Set Int} {k : Kernel} (h : k.heap.Guards P) : PagesFrame P k k :=
  ⟨rfl, h, rfl, rfl, fun _ _ => rfl, fun _ _ => rfl⟩

theorem trans {P : Set Int} {k k' k'' : Kernel} (h : PagesFrame P k k') (h' : PagesFrame P k' k'') :
    PagesFrame P k k'' := by
  have hblock := Heap.blockOf_congr h.start
  refine ⟨?_, h'.guards, h'.start.trans h.start, h'.total.trans h.total, fun a ha => ?_,
    fun a ha => ?_⟩
  · have hrest := h'.rest
    rw [h.rest] at hrest
    exact hrest
  · rw [h'.arrays a (by rwa [hblock]), h.arrays a ha]
  · rw [h'.chunks a (by rwa [hblock]), h.chunks a ha]

theorem mono {P Q : Set Int} {k k' : Kernel} (h : PagesFrame Q k k') (hle : P ⊆ Q) :
    PagesFrame P k k' :=
  ⟨h.rest, h.guards.mono hle, h.start, h.total, fun a ha => h.arrays a (ha.imp_right (hle ·)),
    fun a ha => h.chunks a (hle ha)⟩

theorem blockOf {P : Set Int} {k k' : Kernel} (h : PagesFrame P k k') (ptr : Nat) :
    k'.heap.blockOf ptr = k.heap.blockOf ptr := Heap.blockOf_congr h.start ptr

theorem of_kzalloc {P : Set Int} {k k' : Kernel} {size ptr : Nat} (h : k.heap.Guards P)
    (hsize : size < 4294967296) (hrun : kzalloc size k = .ok (ptr, k')) : PagesFrame P k k' := by
  obtain ⟨hobtained, hk'⟩ := kzalloc_obtained h hsize hrun
  refine ⟨by rw [hk'], hobtained.guards, hobtained.start, hobtained.total, fun a _ => ?_,
    fun a _ => ?_⟩
  · rw [hk']
  · rw [hk']

theorem of_kfree {P : Set Int} {k k' : Kernel} {ptr : Nat} {u : Unit} (h : k.heap.Guards P)
    (hptr : k.heap.Freeable P ptr) (hrun : kfree ptr k = .ok (u, k')) :
    PagesFrame P k k' ∧ k.heap.KeepsFreeable k'.heap ∧ k'.pages = k.pages := by
  have hk' := kfree_eq_ok.mp hrun
  have hheap : k'.heap = heapFree k.heap ptr := by rw [hk']
  have hpages : k'.pages = k.pages := by rw [hk']
  refine ⟨⟨by rw [hk'], ?_, ?_, ?_, fun a _ => by rw [hpages], fun a _ => by rw [hpages]⟩, ?_,
    hpages⟩
  · rw [hheap]
    exact h.heapFree hptr
  · rw [hheap, heapFree_startAddress]
  · rw [hheap, heapFree_totalEntries]
  · rw [hheap]
    exact h.keepsFreeable hptr

theorem of_array {P : Set Int} {k : Kernel} {array : Nat} (h : k.heap.Guards P) (harray : array ≠ 0)
    (hnew : k.heap.blockOf array ∉ P) (o : Option (Nat → Nat)) :
    PagesFrame P k { k with
      pages := { k.pages with arrays := Function.update k.pages.arrays array o } } := by
  refine ⟨rfl, h, rfl, rfl, fun a ha => Function.update_of_ne ?_ _ _, fun _ _ => rfl⟩
  rintro rfl
  exact ha.elim harray hnew

theorem of_chunk {P : Set Int} {k : Kernel} {chunk : Nat} (h : k.heap.Guards P)
    (hnew : k.heap.blockOf chunk ∉ P) (o : Option Nat) :
    PagesFrame P k { k with pages := k.pages.putChunk chunk o } := by
  refine ⟨rfl, h, rfl, rfl, fun _ _ => rfl, fun a ha => Function.update_of_ne ?_ _ _⟩
  rintro rfl
  exact hnew ha

theorem of_map {P : Set Int} {k : Kernel} {directory : Nat} {tables : Nat → Nat} {s : PageStore}
    (h : k.heap.Guards P) (hmap : MapFrame directory tables k.pages s)
    (htables : ∀ i < 1024, tables i ≠ 0 ∧ k.heap.blockOf (tables i) ∉ P) :
    PagesFrame P k { k with pages := s } := by
  refine ⟨rfl, h, rfl, rfl, fun a ha => hmap.arrays a fun i hi => ?_, fun a _ => ?_⟩
  · rintro rfl
    exact ha.elim (htables i hi).1 (htables i hi).2
  · change s.chunks a = _
    rw [hmap.chunks]

end PagesFrame

def Kernel.PageTree (S : Set Int) (k : Kernel) (chunk : Nat) : Prop :=
  k.heap.BlockIn S chunk ∧ ∃ directory tables, k.pages.chunks chunk = some directory ∧
    k.heap.BlockIn S directory ∧ IsDirectory k.pages directory tables ∧
      ∀ i < 1024, k.heap.BlockIn S (tables i)

/-- The first `n` tables of a new directory are in place, all in different blocks of `Q`. -/
structure TablesTo (P Q : Set Int) (k : Kernel) (directory n : Nat) (entries : Nat → Nat) : Prop where
  guards : k.heap.Guards Q
  below : P ⊆ Q
  array : k.pages.arrays directory = some entries
  block : k.heap.BlockIn (Q \ P) directory
  tables : ∀ j < n, k.heap.BlockIn (Q \ P) (pagingFrame (entries j)) ∧
    ∃ e, k.pages.arrays (pagingFrame (entries j)) = some e
  apart : ∀ j < n, pagingFrame (entries j) ≠ directory
  distinct : ∀ i < n, ∀ j < n, pagingFrame (entries i) = pagingFrame (entries j) → i = j

theorem Heap.BlockIn.ne_of_new {Q : Set Int} {heap : Heap} {a b : Nat} (h : heap.BlockIn Q a)
    (hb : heap.blockOf b ∉ Q) : a ≠ b := by
  rintro rfl
  exact hb h.mem

theorem Heap.IsBlock.aligned {heap : Heap} (h : heap.WellFormed) {ptr : Nat}
    (hptr : heap.IsBlock ptr) : ptr % 4096 = 0 := by
  have haligned := h.aligned
  have haddress := hptr.address
  omega

theorem TablesTo.next {P Q : Set Int} {directory i entry v : Nat} {entries table : Nat → Nat}
    {k k' : Kernel} (h : TablesTo P Q k directory i entries)
    (hstart : k'.heap.startAddress = k.heap.startAddress)
    (htotal : k'.heap.table.totalEntries = k.heap.table.totalEntries)
    (hguards : k'.heap.Guards (insert (k'.heap.blockOf entry) Q)) (hblock : k'.heap.IsBlock entry)
    (hnew : k'.heap.blockOf entry ∉ Q) (hframe : pagingFrame v = entry)
    (hdirectory : k'.pages.arrays directory = some (Function.update entries i v))
    (hentry : k'.pages.arrays entry = some table)
    (harrays : ∀ a, a ≠ directory → a ≠ entry → k'.pages.arrays a = k.pages.arrays a) :
    TablesTo P (insert (k'.heap.blockOf entry) Q) k' directory (i + 1)
      (Function.update entries i v) := by
  have hin : ∀ {ptr}, k.heap.BlockIn (Q \ P) ptr → k'.heap.BlockIn (Q \ P) ptr :=
    fun hptr => hptr.congr hstart htotal
  have hne : ∀ {ptr}, k.heap.BlockIn (Q \ P) ptr → ptr ≠ entry := fun hptr =>
    ((hin hptr).mono Set.sdiff_subset).ne_of_new hnew
  have hsub : Q \ P ⊆ insert (k'.heap.blockOf entry) Q \ P :=
    Set.sdiff_subset_sdiff_left (Set.subset_insert ..)
  have hold : ∀ j < i, Function.update entries i v j = entries j :=
    fun j hj => Function.update_of_ne (by omega) _ _
  have hself : Function.update entries i v i = v := Function.update_self ..
  refine ⟨hguards, h.below.trans (Set.subset_insert ..), hdirectory, (hin h.block).mono hsub,
    fun j hj => ?_, fun j hj => ?_, fun j hj j' hj' heq => ?_⟩
  · by_cases hji : j = i
    · rw [hji, hself, hframe]
      exact ⟨⟨hblock, Set.mem_insert .., fun hP => hnew (h.below hP)⟩, _, hentry⟩
    · obtain ⟨htable, e, he⟩ := h.tables j (by omega)
      rw [hold j (by omega), harrays _ (h.apart j (by omega)) (hne htable)]
      exact ⟨(hin htable).mono hsub, e, he⟩
  · by_cases hji : j = i
    · rw [hji, hself, hframe]
      exact (hne h.block).symm
    · rw [hold j (by omega)]
      exact h.apart j (by omega)
  · by_cases hji : j = i
    · by_cases hji' : j' = i
      · rw [hji, hji']
      · rw [hji, hself, hframe, hold j' (by omega)] at heq
        exact absurd heq.symm (hne (h.tables j' (by omega)).1)
    · by_cases hji' : j' = i
      · rw [hji', hself, hframe, hold j (by omega)] at heq
        exact absurd heq (hne (h.tables j (by omega)).1)
      · rw [hold j (by omega), hold j' (by omega)] at heq
        exact h.distinct j (by omega) j' (by omega) heq

theorem pagingNew4gbLoop_spec {P : Set Int} {directory flags : Nat} (hflags : flags < 4096)
    (count : Nat) {i : Nat} {Q : Set Int} {entries : Nat → Nat} {k k' : Kernel} {u : Unit}
    (h : TablesTo P Q k directory i entries)
    (hrun : pagingNew4gbLoop directory flags count i k = .ok (u, k')) :
    PagesFrame P k k' ∧ ∃ Q' entries', TablesTo P Q' k' directory (i + count) entries' := by
  induction count generalizing i Q entries k with
  | zero =>
    obtain ⟨-, rfl⟩ := pure_eq_ok.mp hrun
    exact ⟨.refl (h.guards.mono h.below), Q, entries, h⟩
  | succ count ih =>
    unfold pagingNew4gbLoop at hrun
    obtain ⟨entry, k₁, halloc, hrun⟩ := bind_eq_ok.mp hrun
    have hframe₁ := PagesFrame.of_kzalloc h.guards (by decide) halloc
    by_cases hnull : entry = 0
    · rw [if_pos hnull] at hrun
      exact (throw_eq_ok.mp hrun).elim
    rw [if_neg hnull] at hrun
    obtain ⟨hblock, hnew, hguards₁⟩ := kzalloc_new h.guards (by decide) (by decide) halloc hnull
    obtain ⟨-, hk₁⟩ := kzalloc_obtained h.guards (by decide) halloc
    have hpages₁ : k₁.pages = k.pages := by rw [hk₁]
    obtain ⟨_, k₂, hput, hrun⟩ := bind_eq_ok.mp hrun
    have hk₂ := modify_eq_ok.mp hput
    replace hrun := bind_get_eq_ok.mp hrun
    obtain ⟨es, hes, hrun⟩ := bind_fetch_eq_ok.mp hrun
    obtain ⟨_, k₃, hput, hrun⟩ := bind_eq_ok.mp hrun
    have hk₃ := modify_eq_ok.mp hput
    have hdirectory := h.block.congr hframe₁.start hframe₁.total
    have hne : directory ≠ entry := (hdirectory.mono Set.sdiff_subset).ne_of_new hnew
    have hes' : es = entries := by
      rw [← hk₂] at hes
      have hsame : (k₁.pages.putArray entry (pagingIdentityTable flags i)).arrays directory =
          some entries := by
        rw [← h.array, ← hpages₁]
        exact Function.update_of_ne hne _ _
      rw [hsame, Option.some.injEq] at hes
      exact hes.symm
    subst hes'
    have hframe₃ : PagesFrame P k k₃ := by
      refine (hframe₁.mono h.below).trans ?_
      have hfirst : PagesFrame P k₁ k₂ := by
        rw [← hk₂]
        exact .of_array (hframe₁.guards.mono h.below) hnull (fun hP => hnew (h.below hP)) _
      refine hfirst.trans ?_
      rw [← hk₃]
      refine .of_array hfirst.guards (hdirectory.block.ne_zero hframe₁.guards.wellFormed) ?_ _
      rw [hfirst.blockOf]
      exact hdirectory.mem.2
    have hframe : pagingFrame (entry ||| flags ||| pagingIsWritable) = entry := by
      rw [Nat.or_assoc]
      refine pagingFrame_or (hblock.aligned hguards₁.wellFormed) ?_
      exact Nat.or_lt_two_pow (n := 12) hflags (by decide)
    have hheap₃ : k₃.heap = k₁.heap := by
      rw [← hk₃, ← hk₂]
    rw [← hheap₃] at hblock hnew hguards₁
    have htables : TablesTo P (insert (k₃.heap.blockOf entry) Q) k₃ directory (i + 1)
        (Function.update es i (entry ||| flags ||| pagingIsWritable)) := by
      have hentry : k₃.pages.arrays entry = some (pagingIdentityTable flags i) := by
        rw [← hk₃, ← hk₂]
        change Function.update (Function.update k₁.pages.arrays entry _) directory _ entry = _
        rw [Function.update_of_ne hne.symm, Function.update_self]
      refine h.next hframe₃.start hframe₃.total hguards₁ hblock hnew hframe ?_ hentry
        fun a ha ha' => ?_
      · rw [← hk₃]
        exact Function.update_self ..
      · rw [← hk₃, ← hk₂, ← hpages₁]
        change Function.update (Function.update _ _ _) _ _ a = _
        rw [Function.update_of_ne ha, Function.update_of_ne ha']
    obtain ⟨hframe', Q', entries', htables'⟩ := ih htables hrun
    refine ⟨hframe₃.trans hframe', Q', entries', ?_⟩
    rwa [show i + (count + 1) = i + 1 + count by omega]

theorem pagingNew4gb_spec {P : Set Int} {flags chunk : Nat} {k k' : Kernel} (hflags : flags < 4096)
    (h : k.heap.Guards P) (hnull : k.pages.arrays 0 = none)
    (hrun : pagingNew4gb flags k = .ok (chunk, k')) :
    PagesFrame P k k' ∧ ∃ S, k'.heap.GuardsMore P S ∧ k'.PageTree S chunk := by
  obtain ⟨directory, k₀, k₂, k₃, hdirectory, hchunk, halloc, hloop, halloc', rfl⟩ :=
    pagingNew4gb_eq_ok hnull hrun
  have hframe₀ := PagesFrame.of_kzalloc h (by decide) halloc
  obtain ⟨hblock, hnew, hguards₀⟩ := kzalloc_new h (by decide) (by decide) halloc hdirectory
  have hframe₁ : PagesFrame P k { k₀ with pages := k₀.pages.putArray directory fun _ => 0 } :=
    hframe₀.trans (.of_array hframe₀.guards hdirectory hnew _)
  have hstart : TablesTo P (insert (k₀.heap.blockOf directory) P)
      { k₀ with pages := k₀.pages.putArray directory fun _ => 0 } directory 0 fun _ => 0 :=
    ⟨hguards₀, Set.subset_insert .., Function.update_self .., ⟨hblock, Set.mem_insert .., hnew⟩,
      fun j hj => absurd hj (Nat.not_lt_zero j), fun j hj => absurd hj (Nat.not_lt_zero j),
      fun j hj => absurd hj (Nat.not_lt_zero j)⟩
  obtain ⟨hframe₂, Q, entries, htables⟩ := pagingNew4gbLoop_spec hflags _ hstart hloop
  rw [Nat.zero_add] at htables
  obtain ⟨hchunkBlock, hchunkNew, hguards₃⟩ :=
    kzalloc_new htables.guards (by decide) (by decide) halloc' hchunk
  have hframe₃ := PagesFrame.of_kzalloc htables.guards (by decide) halloc'
  obtain ⟨-, hk₃⟩ := kzalloc_obtained htables.guards (by decide) halloc'
  have hpages₃ : k₃.pages = k₂.pages := by rw [hk₃]
  have hin₃ : ∀ {ptr}, k₂.heap.BlockIn (Q \ P) ptr →
      k₃.heap.BlockIn (insert (k₃.heap.blockOf chunk) Q \ P) ptr := fun hptr =>
    (hptr.congr hframe₃.start hframe₃.total).mono
      (Set.sdiff_subset_sdiff_left (Set.subset_insert ..))
  have hchunkP : k₃.heap.blockOf chunk ∉ P := fun hP => hchunkNew (htables.below hP)
  refine ⟨(hframe₁.trans hframe₂).trans ((hframe₃.mono htables.below).trans
    (.of_chunk (hframe₃.guards.mono htables.below) hchunkP _)),
    insert (k₃.heap.blockOf chunk) Q \ P, ?_, ⟨hchunkBlock, Set.mem_insert .., hchunkP⟩,
    directory, fun i => pagingFrame (entries i), Function.update_self .., hin₃ htables.block, ?_,
    fun i hi => hin₃ (htables.tables i hi).1⟩
  · exact ⟨by
      rw [Set.union_sdiff_cancel (htables.below.trans (Set.subset_insert ..))]
      exact hguards₃, fun _ hb => hb.2⟩
  · change IsDirectory (k₃.pages.putChunk chunk (some directory)) directory _
    rw [hpages₃]
    exact ⟨⟨entries, htables.array, fun _ _ => rfl⟩, fun i hi => (htables.tables i hi).2,
      htables.apart, htables.distinct⟩

theorem pagingFree4gbLoop_spec {P : Set Int} {directory : Nat} {entries : Nat → Nat} (count : Nat)
    {i : Nat} {k k' : Kernel} {u : Unit} (h : k.heap.Guards P)
    (harray : k.pages.arrays directory = some entries)
    (htables : ∀ j < i + count, k.heap.Freeable P (pagingFrame (entries j)) ∧
      pagingFrame (entries j) ≠ directory ∧ pagingFrame (entries j) ≠ 0)
    (hrun : pagingFree4gbLoop directory count i k = .ok (u, k')) :
    PagesFrame P k k' ∧ k.heap.KeepsFreeable k'.heap ∧
      k'.pages.chunks = k.pages.chunks := by
  induction count generalizing i k with
  | zero =>
    obtain ⟨-, rfl⟩ := pure_eq_ok.mp hrun
    exact ⟨.refl h, .refl _, rfl⟩
  | succ count ih =>
    unfold pagingFree4gbLoop at hrun
    replace hrun := bind_get_eq_ok.mp hrun
    obtain ⟨es, hes, hrun⟩ := bind_fetch_eq_ok.mp hrun
    rw [harray, Option.some.injEq] at hes
    subst hes
    obtain ⟨_, k₁, hfree, hrun⟩ := bind_eq_ok.mp hrun
    obtain ⟨_, k₂, hdrop, hrun⟩ := bind_eq_ok.mp hrun
    obtain ⟨hfreeable, happart, hne⟩ := htables i (by omega)
    obtain ⟨hframe₁, hkeeps₁, hpages₁⟩ := PagesFrame.of_kfree h hfreeable hfree
    have hk₂ := modify_eq_ok.mp hdrop
    have hframe₂ : PagesFrame P k₁ k₂ := by
      rw [← hk₂]
      refine .of_array hframe₁.guards hne ?_ none
      rw [hframe₁.blockOf]
      exact hfreeable.not_mem hne
    have hheap₂ : k₂.heap = k₁.heap := by rw [← hk₂]
    have hchunks₂ : k₂.pages.chunks = k.pages.chunks := by
      rw [← hpages₁, ← hk₂]
      rfl
    have harray₂ : k₂.pages.arrays directory = some entries := by
      rw [← harray, ← hpages₁, ← hk₂]
      exact Function.update_of_ne happart.symm _ _
    obtain ⟨hframe₃, hkeeps₃, hchunks₃⟩ := ih hframe₂.guards harray₂ (fun j hj => by
      obtain ⟨hj₁, hj₂, hj₃⟩ := htables j (by omega)
      rw [hheap₂]
      exact ⟨hkeeps₁ P _ hj₁, hj₂, hj₃⟩) hrun
    refine ⟨(hframe₁.trans hframe₂).trans hframe₃, hkeeps₁.trans ?_, hchunks₃.trans hchunks₂⟩
    rw [← hheap₂]
    exact hkeeps₃

theorem pagingFree4gb_spec {P S : Set Int} {chunk : Nat} {k k' : Kernel} {u : Unit}
    (hguards : k.heap.GuardsMore P S) (h : k.PageTree S chunk)
    (hrun : pagingFree4gb chunk k = .ok (u, k')) :
    PagesFrame P k k' ∧ k.heap.KeepsFreeable k'.heap := by
  obtain ⟨hchunk, directory, tables, hentry, hdirectory, hdir, htables⟩ := h
  obtain ⟨entries, harray, hframes⟩ := hdir.holds
  have hwf := hguards.guards.wellFormed
  unfold pagingFree4gb at hrun
  replace hrun := bind_get_eq_ok.mp hrun
  obtain ⟨directory', hfetched, hrun⟩ := bind_fetch_eq_ok.mp hrun
  rw [hentry, Option.some.injEq] at hfetched
  subst hfetched
  obtain ⟨_, k₁, hloop, hrun⟩ := bind_eq_ok.mp hrun
  obtain ⟨hframe₁, hkeeps₁, hchunks₁⟩ := pagingFree4gbLoop_spec _ hguards.left harray (fun j hj => by
    have hj : j < 1024 := by
      unfold pagingTotalEntriesPerTable at hj
      omega
    rw [hframes j hj]
    exact ⟨hguards.freeable (htables j hj), hdir.apart j hj, (htables j hj).block.ne_zero hwf⟩) hloop
  obtain ⟨_, k₂, hfree, hrun⟩ := bind_eq_ok.mp hrun
  obtain ⟨hframe₂, hkeeps₂, hpages₂⟩ := PagesFrame.of_kfree hframe₁.guards
    (hkeeps₁ P _ (hguards.freeable hdirectory)) hfree
  obtain ⟨_, k₃, hdrop, hrun⟩ := bind_eq_ok.mp hrun
  have hk₃ := modify_eq_ok.mp hdrop
  have hframe₁₂ := hframe₁.trans hframe₂
  have hframe₃ : PagesFrame P k₂ k₃ := by
    rw [← hk₃]
    refine .of_array hframe₂.guards (hdirectory.block.ne_zero hwf) ?_ none
    rw [hframe₁₂.blockOf]
    exact hguards.apart _ hdirectory.mem
  have hheap₃ : k₃.heap = k₂.heap := by rw [← hk₃]
  obtain ⟨_, k₄, hfree, hrun⟩ := bind_eq_ok.mp hrun
  have hfreeable₃ : k₃.heap.Freeable P chunk := by
    rw [hheap₃]
    exact hkeeps₂ P _ (hkeeps₁ P _ (hguards.freeable hchunk))
  obtain ⟨hframe₄, hkeeps₄, -⟩ := PagesFrame.of_kfree hframe₃.guards hfreeable₃ hfree
  have hframe := (hframe₁₂.trans hframe₃).trans hframe₄
  rw [← modify_eq_ok.mp hrun]
  refine ⟨hframe.trans (.of_chunk hframe.guards ?_ none), ?_⟩
  · rw [hframe.blockOf]
    exact hguards.apart _ hchunk.mem
  · rw [hheap₃] at hkeeps₄
    exact (hkeeps₁.trans hkeeps₂).trans hkeeps₄

end BoiOS
