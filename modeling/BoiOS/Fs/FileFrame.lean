import BoiOS.Fs.FatFrame
import BoiOS.Fs.FileSystem
import BoiOS.Fs.PathParserSpec

/-! What opening and closing a file does to the heap. An open file holds its descriptors and its
item in blocks of its own, which closing it gives back; the parsed path of an `fopen` is given back
by nobody. -/
namespace BoiOS
open Library.StateRun

/-- What a function of fs/file.h leaves: the blocks of `P` are held, and nothing outside of the file
system differs. -/
structure FileFrame (P : Set Int) (k k' : Kernel) : Prop where
  rest : k' = { k with
    heap := k'.heap, memory := k'.memory, files := k'.files, pathRoots := k'.pathRoots
    pathParts := k'.pathParts, streams := k'.streams, fatDescriptors := k'.fatDescriptors
    fatItems := k'.fatItems, fatDirectories := k'.fatDirectories }
  guards : k'.heap.Guards P
  start : k'.heap.startAddress = k.heap.startAddress
  total : k'.heap.table.totalEntries = k.heap.table.totalEntries
  null : k'.fatItems 0 = k.fatItems 0

namespace FileFrame

theorem refl {P : Set Int} {k : Kernel} (h : k.heap.Guards P) : FileFrame P k k :=
  ⟨rfl, h, rfl, rfl, rfl⟩

theorem trans {P : Set Int} {k k' k'' : Kernel} (h : FileFrame P k k') (h' : FileFrame P k' k'') :
    FileFrame P k k'' := by
  refine ⟨?_, h'.guards, h'.start.trans h.start, h'.total.trans h.total, h'.null.trans h.null⟩
  have hrest := h'.rest
  rw [h.rest] at hrest
  exact hrest

theorem mono {P Q : Set Int} {k k' : Kernel} (h : FileFrame Q k k') (hle : P ⊆ Q) :
    FileFrame P k k' :=
  ⟨h.rest, h.guards.mono hle, h.start, h.total, h.null⟩

theorem of_driver {P : Set Int} {k k' : Kernel} (h : DriverFrame P k k') : FileFrame P k k' :=
  ⟨by rw [h.rest], h.guards, h.start, h.total, h.items 0 (Or.inl rfl)⟩

theorem of_parsed {P : Set Int} {path : List UInt8} {k k' : Kernel} {root : Nat}
    (h : Parsed P path k k' root) : FileFrame (insert (k.heap.blockOf root) P) k k' :=
  ⟨by rw [h.rest], h.guards, h.start, h.total, by rw [h.rest]⟩

theorem of_putFatDescriptor {P : Set Int} {k : Kernel} (h : k.heap.Guards P) (ptr : Nat)
    (descriptor : Option FatFileDescriptor) : FileFrame P k (putFatDescriptor ptr descriptor k) :=
  ⟨rfl, h, rfl, rfl, rfl⟩

theorem of_files {P : Set Int} {k : Kernel} (h : k.heap.Guards P) (files : FileTable) :
    FileFrame P k { k with files } :=
  ⟨rfl, h, rfl, rfl, rfl⟩

end FileFrame

structure Kernel.OpenDescriptor (P S : Set Int) (k : Kernel) (data : Nat) : Prop where
  block : k.heap.BlockIn S data
  entry : ∃ f, k.fatDescriptors data = some f ∧ k.ItemTree P S f.item

/-- The number leads to no descriptor, or to one in a block of `S` with its file. -/
def Kernel.OpenFile (P S : Set Int) (k : Kernel) (fd : Int) : Prop :=
  fileGetDescriptor k.files fd = 0 ∨
    k.heap.BlockIn S (fileGetDescriptor k.files fd) ∧
      ∃ d, k.files.store (fileGetDescriptor k.files fd) = some d ∧ k.OpenDescriptor P S d.privateData

theorem fat16GetDirectoryEntry_spec {P : Set Int} {k k' : Kernel} {path item : Nat}
    (h : k.heap.Guards P) (hnull : k.fatItems 0 = none)
    (hrun : fat16GetDirectoryEntry path k = .ok (item, k')) :
    DriverFrame P k k' ∧ k'.FoundItem P item := by
  unfold fat16GetDirectoryEntry at hrun
  replace hrun := bind_get_eq_ok.mp hrun
  obtain ⟨_, k₁, hprivate, hrun⟩ := bind_eq_ok.mp hrun
  have hframe₁ := DriverFrame.of_streams h (fatPrivate_keeps _ _ _ hprivate)
  obtain ⟨part, -, hrun⟩ := bind_fetch_eq_ok.mp hrun
  obtain ⟨root, k₂, hfind, hrun⟩ := bind_eq_ok.mp hrun
  obtain ⟨hframe₂, hroot⟩ := fat16FindItemInDirectory_spec hframe₁.guards hfind
  have hframe := hframe₁.trans hframe₂
  by_cases hzero : root = 0
  · rw [if_pos hzero] at hrun
    obtain ⟨rfl, rfl⟩ := pure_eq_ok.mp hrun
    exact ⟨hframe, Or.inl rfl⟩
  · rw [if_neg hzero] at hrun
    obtain ⟨hframe₃, hitem⟩ := fat16WalkPath_spec _ hframe.guards
      (by rw [hframe.items 0 (Or.inl rfl), hnull]) hroot hrun
    exact ⟨hframe.trans hframe₃, hitem⟩

theorem fat16Open_spec {P : Set Int} {k k' : Kernel} {path mode data : Nat} (h : k.heap.Guards P)
    (hnull : k.fatItems 0 = none) (hrun : fat16Open path mode k = .ok (data, k')) :
    FileFrame P k k' ∧ k'.files = k.files ∧
      (i32 data < 0 ∨ ∃ S, k'.heap.GuardsMore P S ∧ k'.OpenDescriptor P S data) := by
  unfold fat16Open at hrun
  obtain ⟨descriptor, k₁, hobject, hrun⟩ := bind_eq_ok.mp hrun
  obtain ⟨k₀, halloc, hk₁⟩ := kzallocObject_eq_ok hobject
  have hframe₀ := DriverFrame.of_kzalloc h (by decide) halloc
  have hfiles₀ : k₀.files = k.files := by rw [hframe₀.rest]
  have hheap₁ : k₁.heap = k₀.heap := by
    rw [hk₁]
    split_ifs <;> rfl
  have hfiles₁ : k₁.files = k.files := by
    rw [hk₁, ← hfiles₀]
    split_ifs <;> rfl
  have hframe₁ : FileFrame P k k₁ := by
    refine (FileFrame.of_driver hframe₀).trans ?_
    rw [hk₁]
    split_ifs
    · exact .refl hframe₀.guards
    · exact .of_putFatDescriptor hframe₀.guards _ _
  have hfreeable₁ : k₁.heap.Freeable P descriptor := by
    rw [hheap₁]
    exact kzalloc_freeable h (by decide) halloc
  have hrelease : ∀ {k₂ k₃ k₄ : Kernel} {u u' : Unit}, FileFrame P k k₂ → k₂.files = k.files →
      k₂.heap.Freeable P descriptor → kfree descriptor k₂ = .ok (u, k₃) →
      (modify (putFatDescriptor descriptor none) : KernelM Unit) k₃ = .ok (u', k₄) →
      FileFrame P k k₄ ∧ k₄.files = k.files := by
    intro k₂ k₃ k₄ u u' hframe hfiles hfreeable hfree hmodify
    have hframe₃ := ReleaseFrame.of_kfree hframe.guards hfreeable hfree
    rw [← modify_eq_ok.mp hmodify]
    refine ⟨(hframe.trans (.of_driver hframe₃.toDriverFrame)).trans
      (.of_putFatDescriptor hframe₃.guards _ _), ?_⟩
    rw [← hfiles, hframe₃.rest]
    rfl
  by_cases hmode : mode ≠ fileModeRead
  · rw [if_pos hmode] at hrun
    have herror : i32 (errorPointer (-erdonly)) < 0 := by
      unfold errorPointer erdonly i32 u32
      decide
    by_cases hzero : descriptor ≠ 0
    · rw [if_pos hzero] at hrun
      obtain ⟨_, k₂, hfree, hrun⟩ := bind_eq_ok.mp hrun
      obtain ⟨_, k₃, hmodify, hrun⟩ := bind_eq_ok.mp hrun
      obtain ⟨rfl, rfl⟩ := pure_eq_ok.mp hrun
      obtain ⟨hframe, hfiles⟩ := hrelease hframe₁ hfiles₁ hfreeable₁ hfree hmodify
      exact ⟨hframe, hfiles, Or.inl herror⟩
    · rw [if_neg hzero] at hrun
      obtain ⟨rfl, rfl⟩ := pure_eq_ok.mp hrun
      exact ⟨hframe₁, hfiles₁, Or.inl herror⟩
  rw [if_neg hmode] at hrun
  by_cases hzero : descriptor = 0
  · rw [if_pos hzero] at hrun
    obtain ⟨rfl, rfl⟩ := pure_eq_ok.mp hrun
    refine ⟨hframe₁, hfiles₁, Or.inl ?_⟩
    unfold errorPointer enomem i32 u32
    decide
  rw [if_neg hzero] at hrun
  obtain ⟨hblock, hnew, hguards⟩ := kzalloc_new h (by decide) (by decide) halloc hzero
  obtain ⟨item, k₂, hentry, hrun⟩ := bind_eq_ok.mp hrun
  rw [← hheap₁] at hblock hnew hguards
  obtain ⟨hframe₂, hitem⟩ := fat16GetDirectoryEntry_spec hguards (hframe₁.null.trans hnull) hentry
  have hle : P ⊆ insert (k₁.heap.blockOf descriptor) P := Set.subset_insert ..
  have hframe := hframe₁.trans (.of_driver (hframe₂.mono hle))
  have hfiles₂ : k₂.files = k.files := by rw [← hfiles₁, hframe₂.rest]
  have hblock₂ := hframe₂.blockOf descriptor
  by_cases hnone : item = 0
  · rw [if_pos hnone] at hrun
    obtain ⟨_, k₃, hfree, hrun⟩ := bind_eq_ok.mp hrun
    obtain ⟨_, k₄, hmodify, hrun⟩ := bind_eq_ok.mp hrun
    obtain ⟨rfl, rfl⟩ := pure_eq_ok.mp hrun
    have hheld := hframe₂.guards.held _ (Set.mem_insert ..)
    have hfreeable₂ : k₂.heap.Freeable P descriptor :=
      Or.inr ⟨hblock.congr hframe₂.start hframe₂.total, by rwa [hblock₂], Or.inl (by rwa [hblock₂])⟩
    obtain ⟨hframe', hfiles⟩ := hrelease hframe hfiles₂ hfreeable₂ hfree hmodify
    refine ⟨hframe', hfiles, Or.inl ?_⟩
    unfold errorPointer eio i32 u32
    decide
  · rw [if_neg hnone] at hrun
    obtain ⟨_, k₃, hmodify, hrun⟩ := bind_eq_ok.mp hrun
    obtain ⟨rfl, rfl⟩ := pure_eq_ok.mp hrun
    obtain ⟨S, hmore, htree⟩ := hitem.resolve_left hnone
    rw [← modify_eq_ok.mp hmodify]
    refine ⟨hframe.trans (.of_putFatDescriptor (hframe₂.guards.mono hle) _ _), hfiles₂, Or.inr
      ⟨_, hmore.insert hnew, ⟨hblock.congr hframe₂.start hframe₂.total, Or.inl hblock₂⟩,
        _, Function.update_self .., ?_⟩⟩
    exact (htree.mono hle (Set.subset_insert ..)).congr rfl rfl (.refl _) rfl rfl

theorem fat16Close_spec {P S : Set Int} {k k' : Kernel} {data : Nat} {response : Int}
    (hguards : k.heap.GuardsMore P S) (h : k.OpenDescriptor P S data)
    (hrun : fat16Close data k = .ok (response, k')) :
    FileFrame P k k' ∧ k.heap.KeepsFreeable k'.heap ∧ k'.files = k.files := by
  unfold fat16Close at hrun
  replace hrun := bind_get_eq_ok.mp hrun
  obtain ⟨f, hf, hrun⟩ := bind_fetch_eq_ok.mp hrun
  obtain ⟨_, k₁, hitem, hrun⟩ := bind_eq_ok.mp hrun
  obtain ⟨_, k₂, hfree, hrun⟩ := bind_eq_ok.mp hrun
  obtain ⟨_, k₃, hmodify, hrun⟩ := bind_eq_ok.mp hrun
  obtain ⟨rfl, rfl⟩ := pure_eq_ok.mp hrun
  obtain ⟨f', hf', htree⟩ := h.entry
  rw [hf, Option.some.injEq] at hf'
  subst hf'
  have hframe₁ := fat16FatItemFree_spec hguards.left (htree.freeable hguards) hitem
  have hframe := hframe₁.trans (.of_kfree hframe₁.guards
    (hframe₁.freeable P data (hguards.freeable h.block)) hfree)
  rw [← modify_eq_ok.mp hmodify]
  refine ⟨(FileFrame.of_driver hframe.toDriverFrame).trans (.of_putFatDescriptor hframe.guards _ _),
    hframe.freeable, ?_⟩
  rw [hframe.rest]
  rfl

theorem fileNewDescriptorIn_spec {P : Set Int} {k k' : Kernel} {response : Int} {desc : Nat}
    (h : k.heap.Guards P) (hrun : fileNewDescriptorIn k = .ok ((response, desc), k')) :
    FileFrame P k k' ∧ k.heap.KeepsFreeable k'.heap ∧ k'.fatItems = k.fatItems ∧
      k'.fatDirectories = k.fatDirectories ∧ k'.fatDescriptors = k.fatDescriptors ∧
      k'.disk = k.disk ∧ (response < 0 ∨ ∃ i < boiosMaxFileDescriptors,
        k'.heap.IsBlock desc ∧ k'.heap.blockOf desc ∉ P ∧
        k'.heap.Guards (insert (k'.heap.blockOf desc) P) ∧
        k'.files = ⟨Function.update k.files.fileDescriptors i desc,
          Function.update k.files.store desc (some ⟨i + 1, 0, 0, 0⟩)⟩) := by
  unfold fileNewDescriptorIn at hrun
  replace hrun := bind_get_eq_ok.mp hrun
  cases hslot : fileFindFreeSlot k.files boiosMaxFileDescriptors 0 with
  | none =>
    rw [hslot] at hrun
    obtain ⟨heq, rfl⟩ := pure_eq_ok.mp hrun
    obtain ⟨rfl, rfl⟩ := Prod.mk.inj heq
    exact ⟨.refl h, .refl _, rfl, rfl, rfl, rfl, Or.inl (by decide)⟩
  | some i =>
    rw [hslot] at hrun
    obtain ⟨ptr, k₁, halloc, hrun⟩ := bind_eq_ok.mp hrun
    obtain ⟨response', k₂, hnew, hrun⟩ := bind_eq_ok.mp hrun
    obtain ⟨heq, rfl⟩ := pure_eq_ok.mp hrun
    obtain ⟨rfl, rfl⟩ := Prod.mk.inj heq
    obtain ⟨hobtained, hk₁⟩ := kzalloc_obtained h (by decide) halloc
    obtain ⟨-, hk₁'⟩ := kzalloc_eq_ok halloc
    have hframe₁ := FileFrame.of_driver (DriverFrame.of_kzalloc h (by decide) halloc)
    have hfiles₁ : k₁.files = k.files := by rw [hk₁]
    have hkeeps : k.heap.KeepsFreeable k₁.heap := by
      intro Q q hq
      rw [hk₁']
      exact hq.heapMalloc h (by decide) (by decide)
    unfold filesRun fileNewDescriptor at hnew
    dsimp only at hnew
    rw [hfiles₁, hslot] at hnew
    dsimp only at hnew
    by_cases hnull : ptr = 0
    · rw [if_pos hnull] at hnew
      simp [Except.map] at hnew
    rw [if_neg hnull] at hnew
    simp only [Except.map, Except.ok.injEq, Prod.mk.injEq] at hnew
    obtain ⟨rfl, rfl⟩ := hnew
    obtain ⟨hblock, hfresh, hguards⟩ := kzalloc_new h (by decide) (by decide) halloc hnull
    refine ⟨hframe₁.trans (.of_files hframe₁.guards _), hkeeps, by rw [hk₁], by rw [hk₁],
      by rw [hk₁], by rw [hk₁], Or.inr ⟨i, ?_, hblock, hfresh, hguards, rfl⟩⟩
    have hin := (fileFindFreeSlot_eq_some hslot).2.1
    omega

/-- What `fopen` leaves of a path that is not turned down: the root of the parsed path in a block
that was not in `P` and stays held, and no number or that of an open file. -/
structure Opened (P : Set Int) (k k' : Kernel) (fd : Int) (root : Int) : Prop where
  new : root ∉ P
  frame : FileFrame (insert root P) k k'
  file : fd = 0 ∨ ∃ S, k'.heap.GuardsMore (insert root P) S ∧ k'.OpenFile (insert root P) S fd

theorem fopen_spec {P : Set Int} {filename modeStr : List UInt8} {k k' : Kernel} {fd : Int}
    (h : k.heap.Guards P) (hnull : k.fatItems 0 = none) (h0 : 0 ∉ filename)
    (hrun : fopen filename modeStr k = .ok (fd, k')) :
    (PathRejected filename ∧ fd = 0 ∧ k' = k) ∨
      (¬ PathRejected filename ∧ ∃ root, Opened P k k' fd root) := by
  unfold fopen at hrun
  obtain ⟨rootPath, k₁, hparse, hrest⟩ := bind_eq_ok.mp hrun
  clear hrun
  rcases pathparserParse_spec h h0 hparse with ⟨hreject, rfl, rfl⟩ | ⟨haccept, hparsed⟩
  · rw [if_pos rfl] at hrest
    obtain ⟨rfl, rfl⟩ := pure_eq_ok.mp hrest
    exact Or.inl ⟨hreject, rfl, rfl⟩
  refine Or.inr ⟨haccept, k.heap.blockOf rootPath, ?_⟩
  have hframe₁ := FileFrame.of_parsed hparsed
  have hnew := hparsed.new
  have hrun := hrest
  rw [if_neg (hparsed.block.ne_zero h.wellFormed)] at hrun
  generalize k.heap.blockOf rootPath = root at hframe₁ hnew ⊢
  replace hrun := bind_get_eq_ok.mp hrun
  obtain ⟨r, -, hrun⟩ := bind_fetch_eq_ok.mp hrun
  split_ifs at hrun
  · obtain ⟨rfl, rfl⟩ := pure_eq_ok.mp hrun
    exact ⟨hnew, hframe₁, Or.inl rfl⟩
  · obtain ⟨rfl, rfl⟩ := pure_eq_ok.mp hrun
    exact ⟨hnew, hframe₁, Or.inl rfl⟩
  · obtain ⟨rfl, rfl⟩ := pure_eq_ok.mp hrun
    exact ⟨hnew, hframe₁, Or.inl rfl⟩
  · obtain ⟨rfl, rfl⟩ := pure_eq_ok.mp hrun
    exact ⟨hnew, hframe₁, Or.inl rfl⟩
  obtain ⟨data, k₂, hopen, hrun⟩ := bind_eq_ok.mp hrun
  obtain ⟨hframe₂, hfiles₂, hdata⟩ := fat16Open_spec hframe₁.guards (hframe₁.null.trans hnull) hopen
  have hframe₂ := hframe₁.trans hframe₂
  by_cases herror : i32 data < 0
  · rw [if_pos herror] at hrun
    obtain ⟨rfl, rfl⟩ := pure_eq_ok.mp hrun
    exact ⟨hnew, hframe₂, Or.inl rfl⟩
  rw [if_neg herror] at hrun
  obtain ⟨S, hmore, hdescriptor⟩ := hdata.resolve_left herror
  obtain ⟨⟨response, desc⟩, k₃, hslot, hrun⟩ := bind_eq_ok.mp hrun
  obtain ⟨hframe₃, hkeeps₃, hitems₃, hdirectories₃, hdescriptors₃, -, hdesc⟩ :=
    fileNewDescriptorIn_spec hmore.guards hslot
  have hframe := hframe₂.trans (hframe₃.mono Set.subset_union_left)
  dsimp only at hrun
  by_cases hfull : response < 0
  · rw [if_pos hfull] at hrun
    obtain ⟨rfl, rfl⟩ := pure_eq_ok.mp hrun
    exact ⟨hnew, hframe, Or.inl rfl⟩
  rw [if_neg hfull] at hrun
  obtain ⟨i, hi, hblock, hfresh, hguards, hfiles⟩ := hdesc.resolve_left hfull
  replace hrun := bind_get_eq_ok.mp hrun
  obtain ⟨d, hd, hrun⟩ := bind_fetch_eq_ok.mp hrun
  obtain ⟨_, k₄, hput, hrun⟩ := bind_eq_ok.mp hrun
  obtain ⟨rfl, rfl⟩ := pure_eq_ok.mp hrun
  have hk₄ := modify_eq_ok.mp hput
  rw [hfiles] at hd
  dsimp only at hd
  rw [Function.update_self, Option.some.injEq] at hd
  subst hd
  have hframe₄ : FileFrame (insert root P) k k₄ := by
    refine hframe.trans ?_
    rw [← hk₄]
    exact .of_files hframe.guards _
  refine ⟨hnew, hframe₄, Or.inr ⟨insert (k₃.heap.blockOf desc) S, ?_, ?_⟩⟩
  · have hheap₄ : k₄.heap = k₃.heap := by
      rw [← hk₄]
      rfl
    rw [hheap₄]
    refine ⟨hguards.mono ?_, ?_⟩
    · rw [Set.union_insert]
    · intro b hb hP
      rcases Set.mem_insert_iff.mp hb with rfl | hS
      · exact hfresh (Or.inl hP)
      · exact hmore.apart b hS hP
  · have hget : fileGetDescriptor k₄.files (i + 1) = 0 ∨
        fileGetDescriptor k₄.files (i + 1) = desc := by
      rw [← hk₄]
      unfold putFileDescriptor fileGetDescriptor
      rw [hfiles]
      dsimp only
      split_ifs
      · exact Or.inl rfl
      · rw [show ((i : Int) + 1 - 1).toNat = i by omega, Function.update_self]
        exact Or.inr rfl
    rcases hget with hzero | hdescriptor'
    · exact Or.inl hzero
    · unfold Kernel.OpenFile
      rw [hdescriptor', ← hk₄]
      refine Or.inr ⟨⟨hblock, Set.mem_insert ..⟩, _, Function.update_self .., ?_⟩
      obtain ⟨f, hf, htree⟩ := hdescriptor.entry
      refine ⟨(hdescriptor.block.congr hframe₃.start hframe₃.total).mono (Set.subset_insert ..), f,
        ?_, ?_⟩
      · rw [← hf, ← hdescriptors₃]
        rfl
      · exact ((htree.congr hframe₃.start hframe₃.total hkeeps₃ hitems₃ hdirectories₃).mono le_rfl
          (Set.subset_insert ..)).congr rfl rfl (.refl _) rfl rfl

theorem fclose_spec {P S : Set Int} {k k' : Kernel} {fd response : Int}
    (hguards : k.heap.GuardsMore P S) (h : k.OpenFile P S fd)
    (hrun : fclose fd k = .ok (response, k')) : FileFrame P k k' := by
  unfold fclose at hrun
  replace hrun := bind_get_eq_ok.mp hrun
  rcases h with hzero | ⟨hblock, d, hd, hdescriptor⟩
  · rw [if_pos hzero] at hrun
    obtain ⟨-, rfl⟩ := pure_eq_ok.mp hrun
    exact .refl hguards.left
  rw [if_neg (hblock.block.ne_zero hguards.guards.wellFormed)] at hrun
  obtain ⟨d', hd', hrun⟩ := bind_fetch_eq_ok.mp hrun
  rw [hd, Option.some.injEq] at hd'
  subst hd'
  obtain ⟨closed, k₁, hclose, hrun⟩ := bind_eq_ok.mp hrun
  obtain ⟨hframe₁, hkeeps₁, -⟩ := fat16Close_spec hguards hdescriptor hclose
  by_cases hok : closed = allOk
  · rw [if_pos hok] at hrun
    obtain ⟨_, k₂, hslot, hrun⟩ := bind_eq_ok.mp hrun
    obtain ⟨_, k₃, hfree, hrun⟩ := bind_eq_ok.mp hrun
    obtain ⟨-, rfl⟩ := pure_eq_ok.mp hrun
    have hframe₂ : FileFrame P k₁ k₂ ∧ k₂.heap = k₁.heap := by
      unfold filesRun at hslot
      cases hfiles : fileFreeDescriptor k₁.files (fileGetDescriptor k.files fd) with
      | error stop => simp [hfiles, Except.map] at hslot
      | ok files =>
        simp only [hfiles, Except.map, Except.ok.injEq, Prod.mk.injEq] at hslot
        rw [← hslot.2]
        exact ⟨.of_files hframe₁.guards _, rfl⟩
    have hfreeable : k₂.heap.Freeable P (fileGetDescriptor k.files fd) := by
      rw [hframe₂.2]
      exact hkeeps₁ P _ (hguards.freeable hblock)
    exact (hframe₁.trans hframe₂.1).trans
      (.of_driver (ReleaseFrame.of_kfree hframe₂.1.guards hfreeable hfree).toDriverFrame)
  · rw [if_neg hok] at hrun
    obtain ⟨-, rfl⟩ := pure_eq_ok.mp hrun
    exact hframe₁

/-! The files that a load opens. -/

theorem Heap.GuardsMore.mono {P Q S : Set Int} {heap : Heap} (h : heap.GuardsMore Q S)
    (hle : P ⊆ Q) : heap.GuardsMore P S :=
  ⟨h.guards.mono (Set.union_subset_union_left S hle), fun b hb hP => h.apart b hb (hle hP)⟩

theorem Kernel.OpenFile.mono {P Q S : Set Int} {k : Kernel} {fd : Int} (h : k.OpenFile Q S fd)
    (hle : P ⊆ Q) : k.OpenFile P S fd := by
  rcases h with hzero | ⟨hblock, d, hd, hdata, f, hf, htree⟩
  · exact Or.inl hzero
  · exact Or.inr ⟨hblock, d, hd, hdata, f, hf, htree.mono hle le_rfl⟩

theorem fopen_open {P : Set Int} {filename modeStr : List UInt8} {k k' : Kernel} {fd : Int}
    (h : k.heap.Guards P) (hnull : k.fatItems 0 = none) (h0 : 0 ∉ filename)
    (hrun : fopen filename modeStr k = .ok (fd, k')) :
    FileFrame P k k' ∧ (fd = 0 ∨ ∃ S, k'.heap.GuardsMore P S ∧ k'.OpenFile P S fd) := by
  rcases fopen_spec h hnull h0 hrun with ⟨-, rfl, rfl⟩ | ⟨-, root, hopened⟩
  · exact ⟨.refl h, Or.inl rfl⟩
  · have hle : P ⊆ insert root P := Set.subset_insert ..
    refine ⟨hopened.frame.mono hle, hopened.file.imp_right ?_⟩
    rintro ⟨S, hmore, hfile⟩
    exact ⟨S, hmore.mono hle, hfile.mono hle⟩

def Kernel.OpenRegular (S : Set Int) (k : Kernel) (fd : Int) : Prop :=
  k.heap.BlockIn S (fileGetDescriptor k.files fd) ∧
    ∃ d, k.files.store (fileGetDescriptor k.files fd) = some d ∧ k.heap.BlockIn S d.privateData ∧
      ∃ f, k.fatDescriptors d.privateData = some f ∧ k.heap.BlockIn S f.item ∧
        ∃ i, k.fatItems f.item = some i ∧ i.type = fatItemTypeFile ∧
          (i.pointer = 0 ∨ k.heap.BlockIn S i.pointer)

theorem Kernel.OpenRegular.open {S : Set Int} {k : Kernel} {fd : Int} (h : k.OpenRegular S fd)
    (P : Set Int) : k.OpenFile P S fd := by
  obtain ⟨hblock, d, hd, hdata, f, hf, hitem, i, hi, htype, hpointer⟩ := h
  exact Or.inr ⟨hblock, d, hd, hdata, f, hf, hitem, i, hi, Or.inl ⟨htype, hpointer⟩⟩

theorem Kernel.OpenRegular.congr {S : Set Int} {k k' : Kernel} {fd : Int} (h : k.OpenRegular S fd)
    (hstart : k'.heap.startAddress = k.heap.startAddress)
    (htotal : k'.heap.table.totalEntries = k.heap.table.totalEntries) (hfiles : k'.files = k.files)
    (hdescriptors : k'.fatDescriptors = k.fatDescriptors) (hitems : k'.fatItems = k.fatItems) :
    k'.OpenRegular S fd := by
  have hin : ∀ {ptr}, k.heap.BlockIn S ptr → k'.heap.BlockIn S ptr :=
    fun hptr => hptr.congr hstart htotal
  obtain ⟨hblock, d, hd, hdata, f, hf, hitem, i, hi, htype, hpointer⟩ := h
  unfold Kernel.OpenRegular
  rw [hfiles, hdescriptors, hitems]
  exact ⟨hin hblock, d, hd, hin hdata, f, hf, hin hitem, i, hi, htype, hpointer.imp_right hin⟩

theorem fstat_spec {P S : Set Int} {k k' : Kernel} {fd res : Int} {stat : FileStat}
    (hguards : k.heap.GuardsMore P S) (h : k.OpenFile P S fd)
    (hrun : fstat fd k = .ok ((res, stat), k')) :
    k' = k ∧ stat.fileSize < 4294967296 ∧ (res < 0 ∨ res = allOk ∧ k.OpenRegular S fd) := by
  unfold fstat withDescriptor at hrun
  replace hrun := bind_get_eq_ok.mp hrun
  rcases h with hzero | ⟨hblock, d, hd, hdata, f, hf, htree⟩
  · rw [if_pos hzero] at hrun
    obtain ⟨heq, rfl⟩ := pure_eq_ok.mp hrun
    obtain ⟨rfl, rfl⟩ := Prod.mk.inj heq
    exact ⟨rfl, by decide, Or.inl (by decide)⟩
  rw [if_neg (hblock.block.ne_zero hguards.guards.wellFormed)] at hrun
  obtain ⟨d', hd', hrun⟩ := bind_fetch_eq_ok.mp hrun
  rw [hd, Option.some.injEq] at hd'
  subst hd'
  obtain ⟨⟨res', flags, size⟩, k₁, hstat, hrun⟩ := bind_eq_ok.mp hrun
  obtain ⟨heq, rfl⟩ := pure_eq_ok.mp hrun
  obtain ⟨rfl, rfl⟩ := Prod.mk.inj heq
  unfold fat16Stat at hstat
  replace hstat := bind_get_eq_ok.mp hstat
  obtain ⟨f', hf', hstat⟩ := bind_fetch_eq_ok.mp hstat
  rw [hf, Option.some.injEq] at hf'
  subst hf'
  obtain ⟨i, hi, hstat⟩ := bind_fetch_eq_ok.mp hstat
  by_cases htype : i.type ≠ fatItemTypeFile
  · rw [if_pos htype] at hstat
    obtain ⟨heq, rfl⟩ := pure_eq_ok.mp hstat
    obtain ⟨rfl, hpair⟩ := Prod.mk.inj heq
    obtain ⟨-, rfl⟩ := Prod.mk.inj hpair
    exact ⟨rfl, (by decide : 0 < 4294967296), Or.inl (by decide)⟩
  rw [if_neg htype] at hstat
  by_cases hnull : i.pointer = 0
  · rw [if_pos hnull] at hstat
    exact (throw_eq_ok.mp hstat).elim
  · rw [if_neg hnull] at hstat
    obtain ⟨heq, rfl⟩ := pure_eq_ok.mp hstat
    obtain ⟨rfl, hpair⟩ := Prod.mk.inj heq
    obtain ⟨-, rfl⟩ := Prod.mk.inj hpair
    refine ⟨rfl, Memory.load32_lt _ _, Or.inr ⟨rfl, hblock, d, hd, hdata, f, hf, htree.block, i, hi,
      not_not.mp htype, ?_⟩⟩
    obtain ⟨i', hi', hkind⟩ := htree.entry
    rw [hi, Option.some.injEq] at hi'
    subst hi'
    rcases hkind with ⟨-, hpointer⟩ | ⟨hdir, -⟩
    · exact hpointer
    · rw [not_not.mp htype] at hdir
      exact absurd hdir (by decide)

/-! Reading a file. -/

def Kernel.ReadOnly (k k' : Kernel) : Prop :=
  k' = { k with memory := k'.memory, streams := k'.streams }

theorem Kernel.ReadOnly.refl (k : Kernel) : k.ReadOnly k := rfl

theorem Kernel.ReadOnly.trans {k k' k'' : Kernel} (h : k.ReadOnly k') (h' : k'.ReadOnly k'') :
    k.ReadOnly k'' := by
  unfold Kernel.ReadOnly at h h' ⊢
  rw [h] at h'
  exact h'

theorem Kernel.StreamsOnly.readOnly {k k' : Kernel} (h : k.StreamsOnly k') : k.ReadOnly k' := by
  unfold Kernel.StreamsOnly at h
  unfold Kernel.ReadOnly
  rw [h]

theorem readOnly_fetch {α : Type} (o : Option α) : Keeps Kernel.ReadOnly (fetch o) :=
  fun _ _ _ hrun => (keeps_fetch o _ _ _ hrun).readOnly

theorem storeBytes_readOnly (out : Nat) (bytes : List UInt8) :
    Keeps Kernel.ReadOnly (storeBytes out bytes) := by
  unfold storeBytes
  refine .ite (.pure .refl _) (.ite (.throw _) ?_)
  intro k u k' hrun
  rw [← modify_eq_ok.mp hrun]
  rfl

theorem fat16ReadLoop_readOnly (item size count : Nat) (offset : Int) (out : Nat) :
    Keeps Kernel.ReadOnly (fat16ReadLoop item size count offset out) := by
  induction count generalizing offset out with
  | zero => exact .pure .refl _
  | succ count ih =>
    unfold fat16ReadLoop
    refine (Keeps.get .refl).bind .trans fun _ => Keeps.bind .trans ?_ fun _ =>
      (storeBytes_readOnly _ _).bind .trans fun _ => .ite (.pure .refl _) (ih _ _)
    exact fun _ _ _ hrun => (fat16ReadInternal_keeps _ _ _ _ _ _ hrun).readOnly

theorem fat16Read_readOnly (descriptor size nmemb out : Nat) :
    Keeps Kernel.ReadOnly (fat16Read descriptor size nmemb out) :=
  (Keeps.get .refl).bind .trans fun _ => (readOnly_fetch _).bind .trans fun _ =>
    (readOnly_fetch _).bind .trans fun _ => .ite (.throw _)
      ((fat16ReadLoop_readOnly _ _ _ _ _).bind .trans fun _ =>
        .ite (.pure .refl _) (.pure .refl _))

theorem fread_spec {k k' : Kernel} {ptr size nmemb : Nat} {fd res : Int}
    (hrun : fread ptr size nmemb fd k = .ok (res, k')) : k.ReadOnly k' ∧ (size = 0 → res < 0) := by
  unfold fread at hrun
  by_cases hbad : size = 0 ∨ nmemb = 0 ∨ fd < 1
  · rw [if_pos hbad] at hrun
    obtain ⟨rfl, rfl⟩ := pure_eq_ok.mp hrun
    exact ⟨.refl k, fun _ => by decide⟩
  · rw [if_neg hbad] at hrun
    have hkeeps : Keeps Kernel.ReadOnly
        (withDescriptor fd (-einvarg) fun d => fat16Read d.privateData size nmemb ptr) :=
      (Keeps.get .refl).bind .trans fun _ => .ite (.pure .refl _)
        ((readOnly_fetch _).bind .trans fun _ => fat16Read_readOnly _ _ _ _)
    exact ⟨hkeeps _ _ _ hrun, fun hzero => absurd (Or.inl hzero) hbad⟩

end BoiOS
