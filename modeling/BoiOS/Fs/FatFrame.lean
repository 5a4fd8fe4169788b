import BoiOS.Fs.Fat16
import BoiOS.Kernel.HeapFrame

/-! What the FAT16 driver does to the kernel besides its answers. Reading moves the streams and
nothing else; what an item of the driver leads to is in blocks of its own, and freeing the item
gives these blocks back. -/
namespace BoiOS
open Library.StateRun

/-! Reading. -/

def Kernel.StreamsOnly (k k' : Kernel) : Prop := k' = { k with streams := k'.streams }

theorem Kernel.StreamsOnly.refl (k : Kernel) : k.StreamsOnly k := rfl

theorem Kernel.StreamsOnly.trans {k k' k'' : Kernel} (h : k.StreamsOnly k')
    (h' : k'.StreamsOnly k'') : k.StreamsOnly k'' := by
  unfold Kernel.StreamsOnly at h h' ⊢
  rw [h', h]

theorem keeps_fetch {α : Type} (o : Option α) : Keeps Kernel.StreamsOnly (fetch o) := by
  intro k a k' h
  rw [← (fetch_eq_ok.mp h).2]
  exact .refl k

theorem streams_keeps (f : Kernel → Nat → Option Int) :
    Keeps Kernel.StreamsOnly (modify fun k => { k with streams := f k } : KernelM Unit) :=
  Keeps.modify fun _ => rfl

theorem diskstreamerSeek_keeps (stream : Nat) (position : Int) :
    Keeps Kernel.StreamsOnly (diskstreamerSeek stream position) :=
  (Keeps.get .refl).bind .trans fun _ => (keeps_fetch _).bind .trans fun _ =>
    (streams_keeps _).bind .trans fun _ => .pure .refl _

theorem sectorBytes_keeps (disk : Disk) (sector offset total : Int) :
    Keeps Kernel.StreamsOnly (sectorBytes disk sector offset total) := by
  unfold sectorBytes
  exact .ite (.throw _) (.pure .refl _)

theorem diskstreamerReadLoop_keeps (stream fuel : Nat) (total : Int) :
    Keeps Kernel.StreamsOnly (diskstreamerReadLoop fuel stream total) := by
  induction fuel generalizing total with
  | zero => exact .throw _
  | succ fuel ih =>
    unfold diskstreamerReadLoop
    exact (Keeps.get .refl).bind .trans fun _ => (keeps_fetch _).bind .trans fun _ =>
      (sectorBytes_keeps _ _ _ _).bind .trans fun _ =>
      (streams_keeps _).bind .trans fun _ =>
      .ite ((ih _).bind .trans fun _ => .pure .refl _) (.pure .refl _)

theorem diskstreamerRead_keeps (stream : Nat) (total : Int) :
    Keeps Kernel.StreamsOnly (diskstreamerRead stream total) :=
  diskstreamerReadLoop_keeps stream _ total

theorem fatPrivate_keeps : Keeps Kernel.StreamsOnly fatPrivate :=
  (Keeps.get .refl).bind .trans fun _ => keeps_fetch _

theorem fatPrivate_eq_ok {p : FatPrivate} {k k' : Kernel} :
    fatPrivate k = .ok (p, k') ↔ k.disk.fsPrivate = some p ∧ k = k' := by
  unfold fatPrivate
  rw [bind_of_ok (get_apply k)]
  exact fetch_eq_ok

theorem fat16GetTotalItemsForDirectoryLoop_keeps (stream fuel : Nat) (i : Int) :
    Keeps Kernel.StreamsOnly (fat16GetTotalItemsForDirectoryLoop stream fuel i) := by
  induction fuel generalizing i with
  | zero => exact .throw _
  | succ fuel ih =>
    unfold fat16GetTotalItemsForDirectoryLoop
    exact (diskstreamerRead_keeps _ _).bind .trans fun _ =>
      .ite (.pure .refl _) (.ite (.pure .refl _) (.ite (ih i) (ih _)))

theorem fat16GetTotalItemsForDirectory_keeps (sector : Nat) :
    Keeps Kernel.StreamsOnly (fat16GetTotalItemsForDirectory sector) := by
  unfold fat16GetTotalItemsForDirectory
  exact (Keeps.get .refl).bind .trans fun _ => fatPrivate_keeps.bind .trans fun _ =>
    (diskstreamerSeek_keeps _ _).bind .trans fun _ =>
    .ite (.pure .refl _) (fat16GetTotalItemsForDirectoryLoop_keeps _ _ _)

theorem fat16GetFatEntry_keeps (cluster : Int) :
    Keeps Kernel.StreamsOnly (fat16GetFatEntry cluster) := by
  unfold fat16GetFatEntry
  exact (Keeps.get .refl).bind .trans fun _ => fatPrivate_keeps.bind .trans fun _ =>
    .ite (.pure .refl _) ((diskstreamerSeek_keeps _ _).bind .trans fun _ =>
      .ite (.pure .refl _) ((diskstreamerRead_keeps _ _).bind .trans fun _ =>
        .ite (.pure .refl _) (.pure .refl _)))

theorem fat16WalkClusters_keeps (count : Nat) (cluster : Int) :
    Keeps Kernel.StreamsOnly (fat16WalkClusters count cluster) := by
  induction count generalizing cluster with
  | zero => exact .pure .refl _
  | succ count ih =>
    unfold fat16WalkClusters
    exact (fat16GetFatEntry_keeps _).bind .trans fun entry =>
      .ite (.pure .refl _) (.ite (.pure .refl _) (.ite (.pure .refl _) (.ite (.pure .refl _)
        (ih entry))))

theorem fat16GetClusterForOffset_keeps (cluster offset : Int) :
    Keeps Kernel.StreamsOnly (fat16GetClusterForOffset cluster offset) := by
  unfold fat16GetClusterForOffset
  exact (Keeps.get .refl).bind .trans fun _ => fatPrivate_keeps.bind .trans fun _ =>
    .ite (.throw _) (fat16WalkClusters_keeps _ _)

theorem fat16ReadInternalFromStream_keeps (stream fuel : Nat) (cluster offset total : Int) :
    Keeps Kernel.StreamsOnly (fat16ReadInternalFromStream stream fuel cluster offset total) := by
  induction fuel generalizing offset total with
  | zero => exact .throw _
  | succ fuel ih =>
    unfold fat16ReadInternalFromStream
    exact (Keeps.get .refl).bind .trans fun _ => fatPrivate_keeps.bind .trans fun _ =>
      (fat16GetClusterForOffset_keeps _ _).bind .trans fun _ =>
      .ite (.pure .refl _) ((diskstreamerSeek_keeps _ _).bind .trans fun _ =>
        .ite (.pure .refl _) ((diskstreamerRead_keeps _ _).bind .trans fun _ =>
          .ite (.pure .refl _)
            (.ite ((ih _ _).bind .trans fun _ => .pure .refl _) (.pure .refl _))))

theorem fat16ReadInternal_keeps (cluster offset total : Int) :
    Keeps Kernel.StreamsOnly (fat16ReadInternal cluster offset total) :=
  fatPrivate_keeps.bind .trans fun _ => fat16ReadInternalFromStream_keeps _ _ _ _ _

/-! Directories and items. -/

/-- What a driver function leaves: the blocks of `P` are held, with what they hold for the driver,
and nothing but the heap, memory, the streams, the items and the directories differs. -/
structure DriverFrame (P : Set Int) (k k' : Kernel) : Prop where
  rest : k' = { k with
    heap := k'.heap, memory := k'.memory, streams := k'.streams, fatItems := k'.fatItems
    fatDirectories := k'.fatDirectories }
  guards : k'.heap.Guards P
  start : k'.heap.startAddress = k.heap.startAddress
  total : k'.heap.table.totalEntries = k.heap.table.totalEntries
  items : ∀ a, a = 0 ∨ k.heap.blockOf a ∈ P → k'.fatItems a = k.fatItems a
  directories : ∀ a, k.heap.blockOf a ∈ P → k'.fatDirectories a = k.fatDirectories a

namespace DriverFrame

theorem refl {P : Set Int} {k : Kernel} (h : k.heap.Guards P) : DriverFrame P k k :=
  ⟨rfl, h, rfl, rfl, fun _ _ => rfl, fun _ _ => rfl⟩

theorem trans {P : Set Int} {k k' k'' : Kernel} (h : DriverFrame P k k')
    (h' : DriverFrame P k' k'') : DriverFrame P k k'' := by
  have hblock := Heap.blockOf_congr h.start
  refine ⟨?_, h'.guards, h'.start.trans h.start, h'.total.trans h.total, fun a ha => ?_,
    fun a ha => ?_⟩
  · have hrest := h'.rest
    rw [h.rest] at hrest
    exact hrest
  · rw [h'.items a (by rwa [hblock]), h.items a ha]
  · rw [h'.directories a (by rwa [hblock]), h.directories a ha]

theorem mono {P Q : Set Int} {k k' : Kernel} (h : DriverFrame Q k k') (hle : P ⊆ Q) :
    DriverFrame P k k' :=
  ⟨h.rest, h.guards.mono hle, h.start, h.total, fun a ha => h.items a (ha.imp_right (hle ·)),
    fun a ha => h.directories a (hle ha)⟩

theorem blockOf {P : Set Int} {k k' : Kernel} (h : DriverFrame P k k') (ptr : Nat) :
    k'.heap.blockOf ptr = k.heap.blockOf ptr := Heap.blockOf_congr h.start ptr

theorem of_streams {P : Set Int} {k k' : Kernel} (hguards : k.heap.Guards P)
    (h : k.StreamsOnly k') : DriverFrame P k k' := by
  unfold Kernel.StreamsOnly at h
  rw [h]
  exact ⟨rfl, hguards, rfl, rfl, fun _ _ => rfl, fun _ _ => rfl⟩

theorem of_memory {P : Set Int} {k : Kernel} (h : k.heap.Guards P) (m : Memory) :
    DriverFrame P k { k with memory := m } :=
  ⟨rfl, h, rfl, rfl, fun _ _ => rfl, fun _ _ => rfl⟩

theorem of_kzalloc {P : Set Int} {k k' : Kernel} {size ptr : Nat} (h : k.heap.Guards P)
    (hsize : size < 4294967296) (hrun : kzalloc size k = .ok (ptr, k')) : DriverFrame P k k' := by
  obtain ⟨hobtained, hk'⟩ := kzalloc_obtained h hsize hrun
  refine ⟨by rw [hk'], hobtained.guards, hobtained.start, hobtained.total, fun a _ => ?_,
    fun a _ => ?_⟩
  · rw [hk']
  · rw [hk']

theorem of_putFatItem {P : Set Int} {k : Kernel} {ptr : Nat} (h : k.heap.Guards P)
    (hptr : ptr ≠ 0) (hnew : k.heap.blockOf ptr ∉ P) (item : Option FatItem) :
    DriverFrame P k (putFatItem ptr item k) := by
  refine ⟨rfl, h, rfl, rfl, fun a ha => Function.update_of_ne ?_ _ _, fun _ _ => rfl⟩
  rintro rfl
  exact ha.elim hptr hnew

theorem of_putFatDirectory {P : Set Int} {k : Kernel} {ptr : Nat} (h : k.heap.Guards P)
    (hnew : k.heap.blockOf ptr ∉ P) (directory : Option FatDirectory) :
    DriverFrame P k (putFatDirectory ptr directory k) := by
  refine ⟨rfl, h, rfl, rfl, fun _ _ => rfl, fun a ha => Function.update_of_ne ?_ _ _⟩
  rintro rfl
  exact hnew ha

end DriverFrame

structure ReleaseFrame (P : Set Int) (k k' : Kernel) : Prop extends DriverFrame P k k' where
  freeable : k.heap.KeepsFreeable k'.heap
  gone : ∀ a, k.fatDirectories a = none → k'.fatDirectories a = none

theorem ReleaseFrame.refl {P : Set Int} {k : Kernel} (h : k.heap.Guards P) : ReleaseFrame P k k :=
  ⟨.refl h, .refl _, fun _ h => h⟩

theorem ReleaseFrame.trans {P : Set Int} {k k' k'' : Kernel} (h : ReleaseFrame P k k')
    (h' : ReleaseFrame P k' k'') : ReleaseFrame P k k'' :=
  ⟨h.toDriverFrame.trans h'.toDriverFrame, h.freeable.trans h'.freeable,
    fun a ha => h'.gone a (h.gone a ha)⟩

theorem ReleaseFrame.of_kfree {P : Set Int} {k k' : Kernel} {ptr : Nat} {u : Unit}
    (h : k.heap.Guards P) (hptr : k.heap.Freeable P ptr) (hrun : kfree ptr k = .ok (u, k')) :
    ReleaseFrame P k k' := by
  have hk' := kfree_eq_ok.mp hrun
  have hheap : k'.heap = heapFree k.heap ptr := by rw [hk']
  have hitems : k'.fatItems = k.fatItems := by rw [hk']
  have hdirectories : k'.fatDirectories = k.fatDirectories := by rw [hk']
  refine ⟨⟨by rw [hk'], ?_, ?_, ?_, fun a _ => by rw [hitems], fun a _ => by rw [hdirectories]⟩,
    ?_, fun a ha => by rw [hdirectories, ha]⟩
  · rw [hheap]
    exact h.heapFree hptr
  · rw [hheap, heapFree_startAddress]
  · rw [hheap, heapFree_totalEntries]
  · rw [hheap]
    exact h.keepsFreeable hptr

/-- The directory can be freed without touching a block of `P`, or freeing it has no result. -/
def Kernel.DirectoryFreeable (P : Set Int) (k : Kernel) (directory : Nat) : Prop :=
  directory = 0 ∨ ∀ d, k.fatDirectories directory = some d →
    k.heap.Freeable P d.item ∧ k.heap.Freeable P directory

structure Kernel.ItemFreeable (P : Set Int) (k : Kernel) (item : Nat) : Prop where
  ne_zero : item ≠ 0
  self : k.heap.Freeable P item
  directory : ∀ i, k.fatItems item = some i → i.type = fatItemTypeDirectory →
    k.DirectoryFreeable P i.pointer
  file : ∀ i, k.fatItems item = some i → i.type = fatItemTypeFile → k.heap.Freeable P i.pointer

def Kernel.DirectoryIn (S : Set Int) (k : Kernel) (directory : Nat) : Prop :=
  directory = 0 ∨ ∃ d, k.fatDirectories directory = some d ∧ k.heap.BlockIn S directory ∧
    k.heap.BlockIn S d.item

/-- What the load of a directory answers: a directory in blocks of `S`, one that was freed again, or
one without records, whose records have no block of their own. -/
def Kernel.DirectoryTree (P S : Set Int) (k : Kernel) (directory : Nat) : Prop :=
  k.DirectoryIn S directory ∨ k.fatDirectories directory = none ∨
    ∃ d, k.fatDirectories directory = some d ∧ k.heap.BlockIn S directory ∧ d.totalItems ≤ 0 ∧
      k.heap.Freeable P d.item

structure Kernel.ItemTree (P S : Set Int) (k : Kernel) (item : Nat) : Prop where
  block : k.heap.BlockIn S item
  entry : ∃ i, k.fatItems item = some i ∧
    (i.type = fatItemTypeFile ∧ (i.pointer = 0 ∨ k.heap.BlockIn S i.pointer) ∨
      i.type = fatItemTypeDirectory ∧ k.DirectoryTree P S i.pointer)

def Kernel.FoundItem (P : Set Int) (k : Kernel) (item : Nat) : Prop :=
  item = 0 ∨ ∃ S, k.heap.GuardsMore P S ∧ k.ItemTree P S item

theorem Kernel.DirectoryIn.freeable {P S : Set Int} {k : Kernel} {directory : Nat}
    (hguards : k.heap.GuardsMore P S) (h : k.DirectoryIn S directory) :
    k.DirectoryFreeable P directory := by
  rcases h with hnull | ⟨d, hd, hself, hitem⟩
  · exact Or.inl hnull
  · refine Or.inr fun d' hd' => ?_
    rw [hd, Option.some.injEq] at hd'
    rw [← hd']
    exact ⟨hguards.freeable hitem, hguards.freeable hself⟩

theorem Kernel.DirectoryTree.freeable {P S : Set Int} {k : Kernel} {directory : Nat}
    (hguards : k.heap.GuardsMore P S) (h : k.DirectoryTree P S directory) :
    k.DirectoryFreeable P directory := by
  rcases h with hin | hgone | ⟨d, hd, hself, -, hitem⟩
  · exact hin.freeable hguards
  · refine Or.inr fun d hd => ?_
    rw [hgone] at hd
    exact absurd hd.symm (Option.some_ne_none d)
  · refine Or.inr fun d' hd' => ?_
    rw [hd, Option.some.injEq] at hd'
    rw [← hd']
    exact ⟨hitem, hguards.freeable hself⟩

theorem Kernel.ItemTree.freeable {P S : Set Int} {k : Kernel} {item : Nat}
    (hguards : k.heap.GuardsMore P S) (h : k.ItemTree P S item) : k.ItemFreeable P item := by
  obtain ⟨i, hi, hkind⟩ := h.entry
  refine ⟨h.block.block.ne_zero hguards.guards.wellFormed, hguards.freeable h.block,
    fun i' hi' htype => ?_, fun i' hi' htype => ?_⟩
  · rw [hi, Option.some.injEq] at hi'
    subst hi'
    rcases hkind with ⟨hfile, -⟩ | ⟨-, htree⟩
    · rw [htype] at hfile
      exact absurd hfile (by decide)
    · exact htree.freeable hguards
  · rw [hi, Option.some.injEq] at hi'
    subst hi'
    rcases hkind with ⟨-, hnull | hpointer⟩ | ⟨hdir, -⟩
    · exact Or.inl hnull
    · exact hguards.freeable hpointer
    · rw [htype] at hdir
      exact absurd hdir (by decide)

theorem update_none {α : Type} {f : Nat → Option α} {a b : Nat} (h : f b = none) :
    Function.update f a none b = none := by
  by_cases hab : b = a
  · rw [hab]
    exact Function.update_self ..
  · rw [Function.update_of_ne hab, h]

theorem fat16FreeDirectory_gone {directory : Nat} {k k' : Kernel} {u : Unit} (hne : directory ≠ 0)
    (hrun : fat16FreeDirectory directory k = .ok (u, k')) : k'.fatDirectories directory = none := by
  unfold fat16FreeDirectory at hrun
  rw [if_neg hne] at hrun
  obtain ⟨_, _, -, hrun⟩ := bind_eq_ok.mp hrun
  obtain ⟨d, _, -, hrun⟩ := bind_eq_ok.mp hrun
  have hlast : ∀ k₁ : Kernel, (do
      kfree directory
      modify (putFatDirectory directory none)) k₁ = .ok (u, k') →
      k'.fatDirectories directory = none := by
    intro k₁ hrun
    obtain ⟨_, k₂, -, hrun⟩ := bind_eq_ok.mp hrun
    rw [← modify_eq_ok.mp hrun]
    exact Function.update_self ..
  dsimp only at hrun
  split_ifs at hrun
  · obtain ⟨_, k₁, -, hrun⟩ := bind_eq_ok.mp hrun
    exact hlast k₁ hrun
  · exact hlast _ hrun

theorem fat16FreeDirectory_spec {P : Set Int} {k k' : Kernel} {directory : Nat} {u : Unit}
    (h : k.heap.Guards P) (hdirectory : k.DirectoryFreeable P directory)
    (hrun : fat16FreeDirectory directory k = .ok (u, k')) :
    ReleaseFrame P k k' ∧ (directory ≠ 0 → k'.fatDirectories directory = none) := by
  unfold fat16FreeDirectory at hrun
  by_cases hnull : directory = 0
  · rw [if_pos hnull] at hrun
    obtain ⟨-, rfl⟩ := pure_eq_ok.mp hrun
    exact ⟨.refl h, fun hne => absurd hnull hne⟩
  rw [if_neg hnull] at hrun
  replace hrun := bind_get_eq_ok.mp hrun
  obtain ⟨d, hd, hrun⟩ := bind_fetch_eq_ok.mp hrun
  obtain ⟨hitem, hself⟩ := hdirectory.resolve_left hnull d hd
  have hstep : ∃ k₁, ReleaseFrame P k k₁ ∧ (do
        kfree directory
        modify (putFatDirectory directory none)) k₁ = .ok (u, k') := by
    by_cases hd0 : d.item ≠ 0
    · rw [if_pos hd0] at hrun
      obtain ⟨_, k₁, hfirst, hrun⟩ := bind_eq_ok.mp hrun
      exact ⟨k₁, .of_kfree h hitem hfirst, hrun⟩
    · rw [if_neg hd0] at hrun
      exact ⟨k, .refl h, hrun⟩
  obtain ⟨k₁, hframe₁, hrun⟩ := hstep
  obtain ⟨_, k₂, hsecond, hrun⟩ := bind_eq_ok.mp hrun
  have hk' := modify_eq_ok.mp hrun
  have hframe := hframe₁.trans
    (.of_kfree hframe₁.guards (hframe₁.freeable P directory hself) hsecond)
  rw [← hk']
  refine ⟨hframe.trans ⟨.of_putFatDirectory hframe.guards ?_ none, .refl _, fun a ha => ?_⟩,
    fun _ => Function.update_self ..⟩
  · rw [hframe.blockOf]
    exact hself.not_mem hnull
  · exact update_none ha

theorem fat16FatItemFree_spec {P : Set Int} {k k' : Kernel} {item : Nat} {u : Unit}
    (h : k.heap.Guards P) (hitem : k.ItemFreeable P item)
    (hrun : fat16FatItemFree item k = .ok (u, k')) : ReleaseFrame P k k' := by
  unfold fat16FatItemFree at hrun
  replace hrun := bind_get_eq_ok.mp hrun
  obtain ⟨i, hi, hrun⟩ := bind_fetch_eq_ok.mp hrun
  have hstep : ∃ k₁, ReleaseFrame P k k₁ ∧ (do
        kfree item
        modify (putFatItem item none)) k₁ = .ok (u, k') := by
    by_cases hdir : i.type = fatItemTypeDirectory
    · rw [if_pos hdir] at hrun
      obtain ⟨_, k₁, hfirst, hrun⟩ := bind_eq_ok.mp hrun
      exact ⟨k₁, (fat16FreeDirectory_spec h (hitem.directory i hi hdir) hfirst).1, hrun⟩
    · rw [if_neg hdir] at hrun
      by_cases hfile : i.type = fatItemTypeFile
      · rw [if_pos hfile] at hrun
        obtain ⟨_, k₁, hfirst, hrun⟩ := bind_eq_ok.mp hrun
        exact ⟨k₁, .of_kfree h (hitem.file i hi hfile) hfirst, hrun⟩
      · rw [if_neg hfile] at hrun
        exact ⟨k, .refl h, hrun⟩
  obtain ⟨k₁, hframe₁, hrun⟩ := hstep
  obtain ⟨_, k₂, hsecond, hrun⟩ := bind_eq_ok.mp hrun
  have hframe := hframe₁.trans
    (.of_kfree hframe₁.guards (hframe₁.freeable P item hitem.self) hsecond)
  rw [← modify_eq_ok.mp hrun]
  refine hframe.trans ⟨.of_putFatItem hframe.guards hitem.ne_zero ?_ none, .refl _, fun _ ha => ha⟩
  rw [hframe.blockOf]
  exact hitem.self.not_mem hitem.ne_zero

theorem Kernel.ItemTree.of_release {P S : Set Int} {k k' : Kernel} {item : Nat}
    (h : k.ItemTree P S item) (hframe : ReleaseFrame (P ∪ S) k k') : k'.ItemTree P S item := by
  have hin : ∀ {ptr}, k.heap.BlockIn S ptr → k'.heap.BlockIn S ptr :=
    fun hptr => hptr.congr hframe.start hframe.total
  obtain ⟨i, hi, hkind⟩ := h.entry
  refine ⟨hin h.block, i, ?_, ?_⟩
  · rw [hframe.items item (Or.inr (Or.inr h.block.mem)), hi]
  have hdirectory : ∀ {directory d}, k.heap.BlockIn S directory →
      k.fatDirectories directory = some d → k'.fatDirectories directory = some d := by
    intro directory d hself hd
    rw [hframe.directories _ (Or.inr hself.mem), hd]
  rcases hkind with ⟨hfile, hpointer⟩ | ⟨hdir, htree⟩
  · exact Or.inl ⟨hfile, hpointer.imp_right hin⟩
  · refine Or.inr ⟨hdir, ?_⟩
    rcases htree with (hnull | ⟨d, hd, hself, hitem⟩) | hgone | ⟨d, hd, hself, hnone, hitem⟩
    · exact Or.inl (Or.inl hnull)
    · exact Or.inl (Or.inr ⟨d, hdirectory hself hd, hin hself, hin hitem⟩)
    · exact Or.inr (Or.inl (hframe.gone _ hgone))
    · exact Or.inr (Or.inr ⟨d, hdirectory hself hd, hin hself, hnone, hframe.freeable P _ hitem⟩)

/-! Loading. -/

theorem fat16GetTotalItemsForDirectoryLoop_bound {stream fuel : Nat} {i response : Int}
    {k k' : Kernel} (hlow : 0 ≤ i) (hfuel : i + fuel ≤ 134217728)
    (hrun : fat16GetTotalItemsForDirectoryLoop stream fuel i k = .ok (response, k')) :
    response = -eio ∨ 0 ≤ response ∧ response < 134217728 := by
  induction fuel generalizing i k with
  | zero => exact (throw_eq_ok.mp hrun).elim
  | succ fuel ih =>
    unfold fat16GetTotalItemsForDirectoryLoop at hrun
    obtain ⟨⟨status, item⟩, k₁, -, hrun⟩ := bind_eq_ok.mp hrun
    dsimp only at hrun
    split_ifs at hrun
    · exact Or.inl (pure_eq_ok.mp hrun).1.symm
    · have hi := (pure_eq_ok.mp hrun).1
      omega
    · exact ih hlow (by omega) hrun
    · have hnext : i32 (i + 1) = i + 1 := i32_of_range (by omega) (by omega)
      rw [hnext] at hrun
      exact ih (by omega) (by omega) hrun

theorem fat16GetTotalItemsForDirectory_bound {sector : Nat} {response : Int} {k k' : Kernel}
    (hrun : fat16GetTotalItemsForDirectory sector k = .ok (response, k')) :
    response = -eio ∨ 0 ≤ response ∧ response < 134217728 := by
  unfold fat16GetTotalItemsForDirectory at hrun
  obtain ⟨_, _, -, hrun⟩ := bind_eq_ok.mp hrun
  obtain ⟨_, _, -, hrun⟩ := bind_eq_ok.mp hrun
  obtain ⟨_, _, -, hrun⟩ := bind_eq_ok.mp hrun
  split_ifs at hrun
  · exact Or.inl (pure_eq_ok.mp hrun).1.symm
  · exact fat16GetTotalItemsForDirectoryLoop_bound (le_refl 0) (by omega) hrun

theorem storeBytes_driverFrame {P : Set Int} {k k' : Kernel} {out : Nat} {bytes : List UInt8}
    {u : Unit} (h : k.heap.Guards P) (hrun : storeBytes out bytes k = .ok (u, k')) :
    DriverFrame P k k' ∧ k'.heap = k.heap ∧ k'.fatDirectories = k.fatDirectories := by
  unfold storeBytes at hrun
  split_ifs at hrun
  · obtain ⟨-, rfl⟩ := pure_eq_ok.mp hrun
    exact ⟨.refl h, rfl, rfl⟩
  · exact (throw_eq_ok.mp hrun).elim
  · rw [← modify_eq_ok.mp hrun]
    exact ⟨.of_memory h _, rfl, rfl⟩

theorem directorySize_zero {totalItems : Int}
    (hbound : totalItems = -eio ∨ 0 ≤ totalItems ∧ totalItems < 134217728)
    (hsize : u32 (i32 (totalItems * sizeofFatDirectoryItem)) = 0) : totalItems ≤ 0 := by
  unfold eio at hbound
  unfold u32 i32 sizeofFatDirectoryItem at hsize
  omega

/-- The steps of a load up to the records: the allocation of the directory, the count, and the
allocation of the records. -/
structure LoadSteps (p : FatPrivate) (item : Nat) (k k₁ k₂ k₃ : Kernel) (directory items : Nat)
    (totalItems : Int) : Prop where
  fsPrivate : k.disk.fsPrivate = some p
  allocated : kzalloc sizeofFatDirectory k = .ok (directory, k₁)
  ne_zero : directory ≠ 0
  counted : fat16GetTotalItemsForDirectory
    (u32 (fat16ClusterToSector p (fat16GetFirstCluster k₁.memory item))) k₁ = .ok (totalItems, k₂)
  records : kzalloc (u32 (i32 (totalItems * sizeofFatDirectoryItem))) k₂ = .ok (items, k₃)

def loadedKernel (k₃ : Kernel) (directory items : Nat) (totalItems : Int) : Kernel :=
  putFatDirectory directory (some ⟨items, totalItems, 0, 0⟩) k₃

/-- Every way in which a load returns. -/
inductive DirectoryLoadResult (item : Nat) (k : Kernel) : (directory : Nat) → (k' : Kernel) → Prop
  | refused : DirectoryLoadResult item k 0 k
  | noDirectory {k' : Kernel} :
      kzalloc sizeofFatDirectory k = .ok (0, k') → DirectoryLoadResult item k 0 k'
  | noRecords {p : FatPrivate} {k₁ k₂ k₃ k' : Kernel} {directory : Nat} {totalItems : Int}
      {u : Unit} : LoadSteps p item k k₁ k₂ k₃ directory 0 totalItems →
      fat16FreeDirectory directory (loadedKernel k₃ directory 0 totalItems) = .ok (u, k') →
      DirectoryLoadResult item k directory k'
  | failed {p : FatPrivate} {k₁ k₂ k₃ k₄ k₅ k' : Kernel} {directory items : Nat}
      {totalItems response : Int} {bytes : List UInt8} {u v : Unit} :
      LoadSteps p item k k₁ k₂ k₃ directory items totalItems → items ≠ 0 →
      fat16ReadInternal (fat16GetFirstCluster k₁.memory item) 0
        (i32 (totalItems * sizeofFatDirectoryItem)) (loadedKernel k₃ directory items totalItems) =
        .ok ((response, bytes), k₄) →
      storeBytes items bytes k₄ = .ok (u, k₅) → response ≠ allOk →
      fat16FreeDirectory directory k₅ = .ok (v, k') → DirectoryLoadResult item k directory k'
  | loaded {p : FatPrivate} {k₁ k₂ k₃ k₄ k' : Kernel} {directory items : Nat}
      {totalItems : Int} {bytes : List UInt8} {u : Unit} :
      LoadSteps p item k k₁ k₂ k₃ directory items totalItems → items ≠ 0 →
      fat16ReadInternal (fat16GetFirstCluster k₁.memory item) 0
        (i32 (totalItems * sizeofFatDirectoryItem)) (loadedKernel k₃ directory items totalItems) =
        .ok ((allOk, bytes), k₄) →
      storeBytes items bytes k₄ = .ok (u, k') → DirectoryLoadResult item k directory k'

theorem fat16LoadFatDirectory_result {k k' : Kernel} {item directory : Nat}
    (hrun : fat16LoadFatDirectory item k = .ok (directory, k')) :
    DirectoryLoadResult item k directory k' := by
  unfold fat16LoadFatDirectory at hrun
  replace hrun := bind_get_eq_ok.mp hrun
  obtain ⟨p, _, hfetch, hrun⟩ := bind_eq_ok.mp hrun
  obtain ⟨hprivate, rfl⟩ := fatPrivate_eq_ok.mp hfetch
  split_ifs at hrun
  · obtain ⟨rfl, rfl⟩ := pure_eq_ok.mp hrun
    exact .refused
  obtain ⟨ptr, k₁, halloc, hrun⟩ := bind_eq_ok.mp hrun
  by_cases hnull : ptr = 0
  · rw [if_pos hnull] at hrun
    obtain ⟨rfl, rfl⟩ := pure_eq_ok.mp hrun
    rw [hnull] at halloc
    exact .noDirectory halloc
  rw [if_neg hnull] at hrun
  replace hrun := bind_get_eq_ok.mp hrun
  obtain ⟨totalItems, k₂, htotal, hrun⟩ := bind_eq_ok.mp hrun
  obtain ⟨items, k₃, hitems, hrun⟩ := bind_eq_ok.mp hrun
  have hsteps : LoadSteps p item k k₁ k₂ k₃ ptr items totalItems :=
    ⟨hprivate, halloc, hnull, htotal, hitems⟩
  obtain ⟨_, k₄, hput, hrun⟩ := bind_eq_ok.mp hrun
  have hk₄ : loadedKernel k₃ ptr items totalItems = k₄ := modify_eq_ok.mp hput
  rw [← hk₄] at hrun
  by_cases hnone : items = 0
  · rw [if_pos hnone] at hrun
    obtain ⟨_, k₅, hfree, hrun⟩ := bind_eq_ok.mp hrun
    obtain ⟨rfl, rfl⟩ := pure_eq_ok.mp hrun
    rw [hnone] at hsteps hfree
    exact .noRecords hsteps hfree
  rw [if_neg hnone] at hrun
  obtain ⟨⟨response, bytes⟩, k₅, hread, hrun⟩ := bind_eq_ok.mp hrun
  dsimp only at hrun
  obtain ⟨_, k₆, hstore, hrun⟩ := bind_eq_ok.mp hrun
  by_cases hfailed : response ≠ allOk
  · rw [if_pos hfailed] at hrun
    obtain ⟨_, k₇, hfree, hrun⟩ := bind_eq_ok.mp hrun
    obtain ⟨rfl, rfl⟩ := pure_eq_ok.mp hrun
    exact .failed hsteps hnone hread hstore hfailed hfree
  · rw [if_neg hfailed] at hrun
    obtain ⟨rfl, rfl⟩ := pure_eq_ok.mp hrun
    rw [not_not.mp hfailed] at hread
    exact .loaded hsteps hnone hread hstore

/-- The blocks of a load: the directory has one of its own, and it can be freed with its records. -/
structure LoadBlocks (P : Set Int) (k₁ k₃ : Kernel) (directory items : Nat) : Prop where
  new : k₁.heap.blockOf directory ∉ P
  guards : k₃.heap.Guards (insert (k₁.heap.blockOf directory) P)
  self : k₃.heap.BlockIn {k₁.heap.blockOf directory} directory
  more : k₃.heap.GuardsMore P {k₁.heap.blockOf directory}
  items : k₃.heap.Freeable P items

theorem LoadSteps.frame {P : Set Int} {p : FatPrivate} {item directory items : Nat}
    {k k₁ k₂ k₃ : Kernel} {totalItems : Int} (h : k.heap.Guards P)
    (hsteps : LoadSteps p item k k₁ k₂ k₃ directory items totalItems) :
    DriverFrame P k (loadedKernel k₃ directory items totalItems) ∧
      LoadBlocks P k₁ k₃ directory items := by
  have hframe₁ := DriverFrame.of_kzalloc h (by decide) hsteps.allocated
  obtain ⟨hblock, hnew, hguards₁⟩ := kzalloc_new h (by decide) (by decide) hsteps.allocated
    hsteps.ne_zero
  have hframe₂ := DriverFrame.of_streams hguards₁
    (fat16GetTotalItemsForDirectory_keeps _ _ _ _ hsteps.counted)
  have hsize := u32_lt (i32 (totalItems * sizeofFatDirectoryItem))
  have hfreeable := kzalloc_freeable hframe₂.guards hsize hsteps.records
  have hframe₃ := hframe₂.trans (.of_kzalloc hframe₂.guards hsize hsteps.records)
  have hle : P ⊆ insert (k₁.heap.blockOf directory) P := Set.subset_insert ..
  have hmore : k₃.heap.GuardsMore P {k₁.heap.blockOf directory} := by
    have hinsert := (Heap.GuardsMore.none hframe₃.guards).insert hnew
    rwa [LawfulSingleton.insert_empty_eq] at hinsert
  refine ⟨(hframe₁.trans (hframe₃.mono hle)).trans (.of_putFatDirectory hmore.left ?_ _), hnew,
    hframe₃.guards, ⟨hblock.congr hframe₃.start hframe₃.total, hframe₃.blockOf directory⟩, hmore,
    hfreeable.mono hle⟩
  rw [hframe₃.blockOf]
  exact hnew

theorem LoadBlocks.freeable {P : Set Int} {k₁ k₃ k' : Kernel} {directory items : Nat}
    {totalItems : Int} (h : LoadBlocks P k₁ k₃ directory items) (hheap : k'.heap = k₃.heap)
    (hentry : k'.fatDirectories directory = some ⟨items, totalItems, 0, 0⟩) :
    k'.DirectoryFreeable P directory := by
  refine Or.inr fun d hd => ?_
  rw [hentry, Option.some.injEq] at hd
  rw [← hd, hheap]
  exact ⟨h.items, h.more.freeable h.self⟩

theorem load_read_frame {P : Set Int} {k₃ k₄ k₅ : Kernel} {directory items : Nat}
    {cluster offset size totalItems : Int} {r : Int × List UInt8} {bytes : List UInt8} {u : Unit}
    (h : (loadedKernel k₃ directory items totalItems).heap.Guards P)
    (hread : fat16ReadInternal cluster offset size (loadedKernel k₃ directory items totalItems) =
      .ok (r, k₄)) (hstore : storeBytes items bytes k₄ = .ok (u, k₅)) :
    DriverFrame P (loadedKernel k₃ directory items totalItems) k₅ ∧ k₅.heap = k₃.heap ∧
      k₅.fatDirectories directory = some ⟨items, totalItems, 0, 0⟩ := by
  have hstreams := fat16ReadInternal_keeps _ _ _ _ _ _ hread
  have hframe := DriverFrame.of_streams h hstreams
  obtain ⟨hframe', hheap, hdirectories⟩ := storeBytes_driverFrame hframe.guards hstore
  unfold Kernel.StreamsOnly at hstreams
  refine ⟨hframe.trans hframe', ?_, ?_⟩
  · rw [hheap, hstreams]
    rfl
  · rw [hdirectories, hstreams]
    exact Function.update_self ..

theorem fat16LoadFatDirectory_spec {P : Set Int} {k k' : Kernel} {item directory : Nat}
    (h : k.heap.Guards P) (hrun : fat16LoadFatDirectory item k = .ok (directory, k')) :
    DriverFrame P k k' ∧ ∃ S, k'.heap.GuardsMore P S ∧ k'.DirectoryTree P S directory := by
  cases fat16LoadFatDirectory_result hrun with
  | refused => exact ⟨.refl h, ∅, .none h, Or.inl (Or.inl rfl)⟩
  | noDirectory halloc =>
    have hframe := DriverFrame.of_kzalloc h (by decide) halloc
    exact ⟨hframe, ∅, .none hframe.guards, Or.inl (Or.inl rfl)⟩
  | noRecords hsteps hfree =>
    obtain ⟨hframe, hblocks⟩ := hsteps.frame h
    obtain ⟨hframe', hgone⟩ := fat16FreeDirectory_spec hframe.guards
      (hblocks.freeable rfl (Function.update_self ..)) hfree
    exact ⟨hframe.trans hframe'.toDriverFrame, ∅, .none hframe'.guards,
      Or.inr (Or.inl (hgone hsteps.ne_zero))⟩
  | failed hsteps _ hread hstore _ hfree =>
    obtain ⟨hframe, hblocks⟩ := hsteps.frame h
    obtain ⟨hframe₁, hheap, hentry⟩ := load_read_frame hframe.guards hread hstore
    obtain ⟨hframe', hgone⟩ := fat16FreeDirectory_spec hframe₁.guards
      (hblocks.freeable hheap hentry) hfree
    exact ⟨(hframe.trans hframe₁).trans hframe'.toDriverFrame, ∅, .none hframe'.guards,
      Or.inr (Or.inl (hgone hsteps.ne_zero))⟩
  | @loaded p k₁ k₂ k₃ k₄ _ _ items totalItems _ _ hsteps hnone hread hstore =>
    obtain ⟨hframe, hblocks⟩ := hsteps.frame h
    obtain ⟨hframe₁, hheap, hentry⟩ := load_read_frame hframe.guards hread hstore
    have hself := hblocks.self
    refine ⟨hframe.trans hframe₁, ?_⟩
    have hsize := u32_lt (i32 (totalItems * sizeofFatDirectoryItem))
    by_cases hzero : u32 (i32 (totalItems * sizeofFatDirectoryItem)) = 0
    · have hbound := fat16GetTotalItemsForDirectory_bound hsteps.counted
      have hmore := hblocks.more
      have hitems := hblocks.items
      rw [← hheap] at hmore hself hitems
      exact ⟨_, hmore, Or.inr (Or.inr ⟨_, hentry, hself, directorySize_zero hbound hzero, hitems⟩)⟩
    · -- the records have a block of their own, next to that of the directory
      obtain ⟨-, -, hguards₁⟩ := kzalloc_new h (by decide) (by decide) hsteps.allocated
        hsteps.ne_zero
      have hframe₂ := DriverFrame.of_streams hguards₁
        (fat16GetTotalItemsForDirectory_keeps _ _ _ _ hsteps.counted)
      obtain ⟨hblockItems, hnewItems, hguardsItems⟩ := kzalloc_new hframe₂.guards
        (Nat.one_le_iff_ne_zero.mpr hzero) hsize hsteps.records hnone
      rw [← hheap] at hblockItems hnewItems hguardsItems hself
      have hmore := ((Heap.GuardsMore.none hguardsItems).insert hnewItems).insert hblocks.new
      refine ⟨_, hmore, Or.inl (Or.inr ⟨_, hentry, ?_, ?_⟩)⟩
      · refine hself.mono fun b hb => ?_
        rw [hb]
        exact Set.mem_insert ..
      · exact ⟨hblockItems, Set.mem_insert_of_mem _ (Set.mem_insert ..)⟩

theorem fat16CloneDirectoryItem_spec {P : Set Int} {k k' : Kernel} {item size copy : Nat}
    (h : k.heap.Guards P) (hsize : size < 4294967296)
    (hrun : fat16CloneDirectoryItem item size k = .ok (copy, k')) :
    DriverFrame P k k' ∧ (copy = 0 ∨ ∃ b, k'.heap.GuardsMore P {b} ∧ k'.heap.BlockIn {b} copy) := by
  unfold fat16CloneDirectoryItem at hrun
  by_cases hshort : size < sizeofFatDirectoryItem
  · rw [if_pos hshort] at hrun
    obtain ⟨rfl, rfl⟩ := pure_eq_ok.mp hrun
    exact ⟨.refl h, Or.inl rfl⟩
  rw [if_neg hshort] at hrun
  unfold sizeofFatDirectoryItem at hshort
  obtain ⟨ptr, k₁, halloc, hrun⟩ := bind_eq_ok.mp hrun
  have hframe₁ := DriverFrame.of_kzalloc h hsize halloc
  by_cases hnull : ptr = 0
  · rw [if_pos hnull] at hrun
    obtain ⟨rfl, rfl⟩ := pure_eq_ok.mp hrun
    exact ⟨hframe₁, Or.inl rfl⟩
  rw [if_neg hnull] at hrun
  obtain ⟨_, k₂, hcopy, hrun⟩ := bind_eq_ok.mp hrun
  obtain ⟨rfl, rfl⟩ := pure_eq_ok.mp hrun
  obtain ⟨hblock, hnew, hguards⟩ := kzalloc_new h (by omega) hsize halloc hnull
  rw [← modify_eq_ok.mp hcopy]
  refine ⟨hframe₁.trans (.of_memory hframe₁.guards _), Or.inr ⟨_, ?_, hblock, rfl⟩⟩
  have hinsert := (Heap.GuardsMore.none hguards).insert hnew
  rwa [LawfulSingleton.insert_empty_eq] at hinsert

theorem Kernel.DirectoryTree.mono {P Q S T : Set Int} {k : Kernel} {directory : Nat}
    (h : k.DirectoryTree Q S directory) (hle : P ⊆ Q) (hST : S ⊆ T) :
    k.DirectoryTree P T directory := by
  rcases h with (hnull | ⟨d, hd, hself, hitem⟩) | hgone | ⟨d, hd, hself, hnone, hitem⟩
  · exact Or.inl (Or.inl hnull)
  · exact Or.inl (Or.inr ⟨d, hd, hself.mono hST, hitem.mono hST⟩)
  · exact Or.inr (Or.inl hgone)
  · exact Or.inr (Or.inr ⟨d, hd, hself.mono hST, hnone, hitem.mono hle⟩)

theorem Kernel.ItemTree.mono {P Q S T : Set Int} {k : Kernel} {item : Nat}
    (h : k.ItemTree Q S item) (hle : P ⊆ Q) (hST : S ⊆ T) : k.ItemTree P T item := by
  obtain ⟨i, hi, hkind⟩ := h.entry
  refine ⟨h.block.mono hST, i, hi, ?_⟩
  rcases hkind with ⟨hfile, hpointer⟩ | ⟨hdir, hdirectory⟩
  · exact Or.inl ⟨hfile, hpointer.imp_right fun hin => hin.mono hST⟩
  · exact Or.inr ⟨hdir, hdirectory.mono hle hST⟩

theorem Kernel.ItemTree.congr {P S : Set Int} {k k' : Kernel} {item : Nat}
    (h : k.ItemTree P S item) (hstart : k'.heap.startAddress = k.heap.startAddress)
    (htotal : k'.heap.table.totalEntries = k.heap.table.totalEntries)
    (hkeeps : k.heap.KeepsFreeable k'.heap) (hitems : k'.fatItems = k.fatItems)
    (hdirectories : k'.fatDirectories = k.fatDirectories) : k'.ItemTree P S item := by
  have hin : ∀ {ptr}, k.heap.BlockIn S ptr → k'.heap.BlockIn S ptr :=
    fun hptr => hptr.congr hstart htotal
  obtain ⟨i, hi, hkind⟩ := h.entry
  refine ⟨hin h.block, i, by rw [hitems, hi], ?_⟩
  rcases hkind with ⟨hfile, hpointer⟩ | ⟨hdir, htree⟩
  · exact Or.inl ⟨hfile, hpointer.imp_right hin⟩
  · refine Or.inr ⟨hdir, ?_⟩
    unfold Kernel.DirectoryTree Kernel.DirectoryIn
    rw [hdirectories]
    rcases htree with (hnull | ⟨d, hd, hself, hitem⟩) | hgone | ⟨d, hd, hself, hnone, hitem⟩
    · exact Or.inl (Or.inl hnull)
    · exact Or.inl (Or.inr ⟨d, hd, hin hself, hin hitem⟩)
    · exact Or.inr (Or.inl hgone)
    · exact Or.inr (Or.inr ⟨d, hd, hin hself, hnone, hkeeps P _ hitem⟩)

theorem fat16NewFatItemOrDirectoryItem_spec {P : Set Int} {k k' : Kernel} {item fItem : Nat}
    (h : k.heap.Guards P)
    (hrun : fat16NewFatItemOrDirectoryItem item k = .ok (fItem, k')) :
    DriverFrame P k k' ∧ k'.FoundItem P fItem := by
  unfold fat16NewFatItemOrDirectoryItem at hrun
  obtain ⟨ptr, k₁, halloc, hrun⟩ := bind_eq_ok.mp hrun
  have hframe₁ := DriverFrame.of_kzalloc h (by decide) halloc
  by_cases hnull : ptr = 0
  · rw [if_pos hnull] at hrun
    obtain ⟨rfl, rfl⟩ := pure_eq_ok.mp hrun
    exact ⟨hframe₁, Or.inl rfl⟩
  rw [if_neg hnull] at hrun
  obtain ⟨hblock, hnew, hguards₁⟩ := kzalloc_new h (by decide) (by decide) halloc hnull
  replace hrun := bind_get_eq_ok.mp hrun
  have hle : P ⊆ insert (k₁.heap.blockOf ptr) P := Set.subset_insert ..
  -- both branches make what the union points to, and put the item into its block
  have hput : ∀ (k₂ : Kernel) (S : Set Int) (i : FatItem),
      DriverFrame (insert (k₁.heap.blockOf ptr) P) k₁ k₂ →
      k₂.heap.GuardsMore (insert (k₁.heap.blockOf ptr) P) S →
      (i.type = fatItemTypeFile ∧ (i.pointer = 0 ∨ k₂.heap.BlockIn S i.pointer) ∨
        i.type = fatItemTypeDirectory ∧
          k₂.DirectoryTree (insert (k₁.heap.blockOf ptr) P) S i.pointer) →
      DriverFrame P k (putFatItem ptr (some i) k₂) ∧
        (putFatItem ptr (some i) k₂).FoundItem P ptr := by
    intro k₂ S i hframe₂ hmore hkind
    have hblock₂ := hframe₂.blockOf ptr
    have hsub : S ⊆ insert (k₁.heap.blockOf ptr) S := Set.subset_insert ..
    constructor
    · refine (hframe₁.trans (hframe₂.mono hle)).trans (.of_putFatItem ?_ hnull ?_ _)
      · exact hframe₂.guards.mono hle
      · rw [hblock₂]
        exact hnew
    · refine Or.inr ⟨_, hmore.insert hnew, ⟨⟨hblock.congr hframe₂.start hframe₂.total, ?_⟩,
        i, Function.update_self .., ?_⟩⟩
      · exact Or.inl hblock₂
      · rcases hkind with ⟨hfile, hpointer⟩ | ⟨hdir, htree⟩
        · exact Or.inl ⟨hfile, hpointer.imp_right fun hin => hin.mono hsub⟩
        · exact Or.inr ⟨hdir, htree.mono hle hsub⟩
  by_cases hdir : itemAttributes k₁.memory item &&& fatFileSubdirectory ≠ 0
  · rw [if_pos hdir] at hrun
    obtain ⟨directory, k₂, hload, hrun⟩ := bind_eq_ok.mp hrun
    obtain ⟨_, k₃, hmodify, hrun⟩ := bind_eq_ok.mp hrun
    obtain ⟨rfl, rfl⟩ := pure_eq_ok.mp hrun
    obtain ⟨hframe₂, S, hmore, htree⟩ := fat16LoadFatDirectory_spec hguards₁ hload
    rw [← modify_eq_ok.mp hmodify]
    exact hput k₂ S _ hframe₂ hmore (Or.inr ⟨rfl, htree⟩)
  · rw [if_neg hdir] at hrun
    obtain ⟨copy, k₂, hclone, hrun⟩ := bind_eq_ok.mp hrun
    obtain ⟨_, k₃, hmodify, hrun⟩ := bind_eq_ok.mp hrun
    obtain ⟨rfl, rfl⟩ := pure_eq_ok.mp hrun
    obtain ⟨hframe₂, hcopy⟩ := fat16CloneDirectoryItem_spec hguards₁ (by decide) hclone
    rw [← modify_eq_ok.mp hmodify]
    rcases hcopy with hzero | ⟨b, hmore, hin⟩
    · exact hput k₂ ∅ _ hframe₂ (.none hframe₂.guards) (Or.inl ⟨rfl, Or.inl hzero⟩)
    · exact hput k₂ {b} _ hframe₂ hmore (Or.inl ⟨rfl, Or.inr hin⟩)

/-! Searching. -/

theorem fat16FindItemInDirectoryLoop_spec {P : Set Int} (count : Nat) {i items fileName fItem : Nat}
    {k k' : Kernel} {item : Nat} (h : k.heap.Guards P) (hitem : k.FoundItem P fItem)
    (hrun : fat16FindItemInDirectoryLoop items fileName count i fItem k = .ok (item, k')) :
    DriverFrame P k k' ∧ k'.FoundItem P item := by
  induction count generalizing i fItem k with
  | zero =>
    obtain ⟨rfl, rfl⟩ := pure_eq_ok.mp hrun
    exact ⟨.refl h, hitem⟩
  | succ count ih =>
    unfold fat16FindItemInDirectoryLoop at hrun
    replace hrun := bind_get_eq_ok.mp hrun
    split_ifs at hrun
    · obtain ⟨next, k₁, hload, hrun⟩ := bind_eq_ok.mp hrun
      obtain ⟨hframe, hnext⟩ := fat16NewFatItemOrDirectoryItem_spec h hload
      obtain ⟨hframe', hfound⟩ := ih hframe.guards hnext hrun
      exact ⟨hframe.trans hframe', hfound⟩
    · exact ih h hitem hrun

theorem fat16FindItemInDirectory_spec {P : Set Int} {k k' : Kernel} {directory : FatDirectory}
    {fileName item : Nat} (h : k.heap.Guards P)
    (hrun : fat16FindItemInDirectory directory fileName k = .ok (item, k')) :
    DriverFrame P k k' ∧ k'.FoundItem P item :=
  fat16FindItemInDirectoryLoop_spec _ h (Or.inl rfl) hrun

theorem fat16FindItemInDirectory_empty {k k' : Kernel} {directory : FatDirectory}
    {fileName item : Nat} (h : directory.totalItems ≤ 0)
    (hrun : fat16FindItemInDirectory directory fileName k = .ok (item, k')) :
    item = 0 ∧ k' = k := by
  unfold fat16FindItemInDirectory at hrun
  rw [Int.toNat_of_nonpos h] at hrun
  obtain ⟨rfl, rfl⟩ := pure_eq_ok.mp hrun
  exact ⟨rfl, rfl⟩

theorem Kernel.ItemTree.freeable_after {P S : Set Int} {k k' : Kernel} {item fileName tmp : Nat}
    {i : FatItem} {d : FatDirectory} (hguards : k.heap.GuardsMore P S) (h : k.ItemTree P S item)
    (hi : k.fatItems item = some i) (htype : i.type = fatItemTypeDirectory)
    (hd : k.fatDirectories i.pointer = some d)
    (hrun : fat16FindItemInDirectory d fileName k = .ok (tmp, k')) :
    DriverFrame P k k' ∧ (tmp = 0 ∧ k'.ItemFreeable P item ∨
      ∃ T, k'.heap.GuardsMore P T ∧ k'.ItemTree P T tmp ∧ k'.heap.Guards (P ∪ T) ∧
        k'.ItemFreeable (P ∪ T) item) := by
  obtain ⟨hframe, hfound⟩ := fat16FindItemInDirectory_spec hguards.guards hrun
  have hle : P ⊆ P ∪ S := Set.subset_union_left
  refine ⟨hframe.mono hle, ?_⟩
  obtain ⟨i', hi', hkind⟩ := h.entry
  rw [hi, Option.some.injEq] at hi'
  subst hi'
  have htree : k.DirectoryTree P S i.pointer := by
    rcases hkind with ⟨hfile, -⟩ | ⟨-, htree⟩
    · rw [htype] at hfile
      exact absurd hfile (by decide)
    · exact htree
  have hentry : k'.fatItems item = some i := by
    rw [hframe.items item (Or.inr (Or.inr h.block.mem)), hi]
  have hself := h.block.congr hframe.start hframe.total
  have hne := h.block.block.ne_zero hguards.guards.wellFormed
  have hgeneral : ∀ Q, k'.heap.GuardsMore Q S → k.DirectoryIn S i.pointer →
      k'.ItemFreeable Q item := by
    intro Q hmore hin
    have hin' : k'.DirectoryIn S i.pointer := by
      rcases hin with hnull | ⟨d, hd, hdir, hitems⟩
      · exact Or.inl hnull
      · refine Or.inr ⟨d, ?_, hdir.congr hframe.start hframe.total,
          hitems.congr hframe.start hframe.total⟩
        rw [hframe.directories _ (Or.inr hdir.mem), hd]
    refine ⟨hne, hmore.freeable hself, fun i' hi' _ => ?_, fun i' hi' hfile => ?_⟩
    · rw [hentry, Option.some.injEq] at hi'
      rw [← hi']
      exact hin'.freeable hmore
    · rw [hentry, Option.some.injEq] at hi'
      rw [← hi', htype] at hfile
      exact absurd hfile (by decide)
  rcases htree with hin | hgone | ⟨d', hd', hdir, hnone, hitems⟩
  · rcases hfound with hzero | ⟨T, hmore, htmp⟩
    · exact Or.inl ⟨hzero, hgeneral P ⟨hframe.guards, hguards.apart⟩ hin⟩
    · refine Or.inr ⟨T, ⟨hmore.guards.mono ?_, fun b hb hP => hmore.apart b hb (Or.inl hP)⟩,
        htmp.mono hle le_rfl, hmore.guards.mono ?_, hgeneral _ ⟨hmore.guards.mono ?_, ?_⟩ hin⟩
      · exact Set.union_subset_union_left T hle
      · exact Set.union_subset_union_left T hle
      · intro b hb
        rcases hb with (hP | hT) | hS
        · exact Or.inl (Or.inl hP)
        · exact Or.inr hT
        · exact Or.inl (Or.inr hS)
      · intro b hb hPT
        rcases hPT with hP | hT
        · exact hguards.apart b hb hP
        · exact hmore.apart b hT (Or.inr hb)
  · rw [hgone] at hd
    exact absurd hd.symm (Option.some_ne_none d)
  · rw [hd, Option.some.injEq] at hd'
    subst hd'
    obtain ⟨rfl, rfl⟩ := fat16FindItemInDirectory_empty hnone hrun
    exact Or.inl ⟨rfl, h.freeable hguards⟩

theorem fat16FatItemFree_returns {k : Kernel} {item : Nat} {i : FatItem}
    (hi : k.fatItems item = some i) (hdirectory : i.type = fatItemTypeDirectory →
      i.pointer = 0 ∨ ∃ d, k.fatDirectories i.pointer = some d) :
    ∃ k', fat16FatItemFree item k = .ok ((), k') := by
  have hfree : i.type = fatItemTypeDirectory → ∃ k', fat16FreeDirectory i.pointer k = .ok ((), k') := by
    intro htype
    unfold fat16FreeDirectory
    by_cases hzero : i.pointer = 0
    · rw [if_pos hzero]
      exact ⟨k, rfl⟩
    · obtain ⟨d, hd⟩ := (hdirectory htype).resolve_left hzero
      rw [if_neg hzero, bind_of_ok (get_apply k), bind_of_ok (fetch_eq_ok.mpr ⟨hd, rfl⟩)]
      dsimp only
      split_ifs <;> exact ⟨_, rfl⟩
  unfold fat16FatItemFree
  rw [bind_of_ok (get_apply k), bind_of_ok (fetch_eq_ok.mpr ⟨hi, rfl⟩)]
  dsimp only
  split_ifs with htype hfile
  · obtain ⟨k₁, hrun⟩ := hfree htype
    exact ⟨_, bind_of_ok hrun _⟩
  · exact ⟨_, rfl⟩
  · exact ⟨_, rfl⟩

theorem Kernel.ItemTree.free_returns_after {P S : Set Int} {k k' : Kernel} {item fileName tmp : Nat}
    {i : FatItem} {d : FatDirectory} (hguards : k.heap.GuardsMore P S) (h : k.ItemTree P S item)
    (hi : k.fatItems item = some i) (htype : i.type = fatItemTypeDirectory)
    (hd : k.fatDirectories i.pointer = some d)
    (hrun : fat16FindItemInDirectory d fileName k = .ok (tmp, k')) :
    ∃ k'', fat16FatItemFree item k' = .ok ((), k'') := by
  obtain ⟨hframe, -⟩ := fat16FindItemInDirectory_spec hguards.guards hrun
  have hentry : k'.fatItems item = some i := by
    rw [hframe.items item (Or.inr (Or.inr h.block.mem)), hi]
  refine fat16FatItemFree_returns hentry fun _ => ?_
  obtain ⟨i', hi', hkind⟩ := h.entry
  rw [hi, Option.some.injEq] at hi'
  subst hi'
  rcases hkind with ⟨hfile, -⟩ | ⟨-, (hnull | ⟨d', hd', hself, -⟩) | hgone | ⟨d', hd', -, hnone, -⟩⟩
  · rw [htype] at hfile
    exact absurd hfile (by decide)
  · exact Or.inl hnull
  · exact Or.inr ⟨d', by rw [hframe.directories _ (Or.inr hself.mem), hd']⟩
  · rw [hgone] at hd
    exact absurd hd.symm (Option.some_ne_none d)
  · rw [hd, Option.some.injEq] at hd'
    subst hd'
    obtain ⟨-, rfl⟩ := fat16FindItemInDirectory_empty hnone hrun
    exact Or.inr ⟨d, hd⟩

/-- One step down the path: the directory is given back, and what was found in it is the next item.
The null pointer leads to no item. -/
theorem Kernel.FoundItem.next {P : Set Int} {k k₁ : Kernel} {item fileName tmp : Nat} {i : FatItem}
    {d : FatDirectory} (hitem : k.FoundItem P item) (hnull : k.fatItems 0 = none)
    (hi : k.fatItems item = some i) (htype : i.type = fatItemTypeDirectory)
    (hd : k.fatDirectories i.pointer = some d)
    (hfind : fat16FindItemInDirectory d fileName k = .ok (tmp, k₁)) :
    ∃ k₂, fat16FatItemFree item k₁ = .ok ((), k₂) ∧ DriverFrame P k k₂ ∧ k₂.FoundItem P tmp := by
  rcases hitem with hzero | ⟨S, hmore, htree⟩
  · rw [hzero, hnull] at hi
    exact absurd hi.symm (Option.some_ne_none i)
  obtain ⟨k₂, hfree⟩ := htree.free_returns_after hmore hi htype hd hfind
  obtain ⟨hframe₁, hafter⟩ := htree.freeable_after hmore hi htype hd hfind
  refine ⟨k₂, hfree, ?_⟩
  rcases hafter with ⟨hzero, hfreeable⟩ | ⟨T, hmoreT, htmp, hguardsT, hfreeable⟩
  · have hframe := fat16FatItemFree_spec hframe₁.guards hfreeable hfree
    exact ⟨hframe₁.trans hframe.toDriverFrame, Or.inl hzero⟩
  · have hframe := fat16FatItemFree_spec hguardsT hfreeable hfree
    exact ⟨hframe₁.trans (hframe.mono Set.subset_union_left),
      Or.inr ⟨T, ⟨hframe.guards, hmoreT.apart⟩, htmp.of_release hframe⟩⟩

theorem fat16WalkPath_spec {P : Set Int} (fuel : Nat) {currentItem nextPart item : Nat}
    {k k' : Kernel} (h : k.heap.Guards P) (hnull : k.fatItems 0 = none)
    (hitem : k.FoundItem P currentItem)
    (hrun : fat16WalkPath fuel currentItem nextPart k = .ok (item, k')) :
    DriverFrame P k k' ∧ k'.FoundItem P item := by
  induction fuel generalizing currentItem nextPart k with
  | zero => exact (throw_eq_ok.mp hrun).elim
  | succ fuel ih =>
    unfold fat16WalkPath at hrun
    by_cases hend : nextPart = 0
    · rw [if_pos hend] at hrun
      obtain ⟨rfl, rfl⟩ := pure_eq_ok.mp hrun
      exact ⟨.refl h, hitem⟩
    rw [if_neg hend] at hrun
    replace hrun := bind_get_eq_ok.mp hrun
    obtain ⟨i, hi, hrun⟩ := bind_fetch_eq_ok.mp hrun
    by_cases htype : i.type ≠ fatItemTypeDirectory
    · rw [if_pos htype] at hrun
      obtain ⟨rfl, rfl⟩ := pure_eq_ok.mp hrun
      exact ⟨.refl h, Or.inl rfl⟩
    rw [if_neg htype] at hrun
    obtain ⟨d, hd, hrun⟩ := bind_fetch_eq_ok.mp hrun
    obtain ⟨part, -, hrun⟩ := bind_fetch_eq_ok.mp hrun
    obtain ⟨tmp, k₁, hfind, hrun⟩ := bind_eq_ok.mp hrun
    obtain ⟨k₂, hfree, hframe, hfound⟩ := hitem.next hnull hi (not_not.mp htype) hd hfind
    rw [bind_of_ok hfree] at hrun
    obtain ⟨hframe', hfound'⟩ := ih hframe.guards (by rw [hframe.items 0 (Or.inl rfl), hnull])
      hfound hrun
    exact ⟨hframe.trans hframe', hfound'⟩

end BoiOS
