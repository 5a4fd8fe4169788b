import BoiOS.Fs.FileFrame
import BoiOS.Loader.ElfLoad
import BoiOS.Task.ProcessLoad

/-! What loading a program file does to the kernel. The loaders leave what they found alone: the
objects in the blocks of `P` and the tables; the image they made is in blocks of its own. -/
namespace BoiOS
open Library.StateRun

/-- What a kernel function leaves: the blocks of `P` are held, with the objects in them, and there
still is no object at null. -/
structure KernelFrame (P : Set Int) (k k' : Kernel) : Prop where
  guards : k'.heap.Guards P
  start : k'.heap.startAddress = k.heap.startAddress
  total : k'.heap.table.totalEntries = k.heap.table.totalEntries
  null : k'.fatItems 0 = k.fatItems 0
  elfFiles : ∀ a, a = 0 ∨ k.heap.blockOf a ∈ P → k'.elfFiles a = k.elfFiles a
  arrays : ∀ a, a = 0 ∨ k.heap.blockOf a ∈ P → k'.pages.arrays a = k.pages.arrays a
  chunks : ∀ a, k.heap.blockOf a ∈ P → k'.pages.chunks a = k.pages.chunks a
  processes : ∀ a, k.heap.blockOf a ∈ P → k'.scheduler.store a = k.scheduler.store a
  tasks : ∀ a, k.heap.blockOf a ∈ P →
    (k'.scheduler.tasks.store a).map Task.pageDirectory =
      (k.scheduler.tasks.store a).map Task.pageDirectory

namespace KernelFrame

theorem refl {P : Set Int} {k : Kernel} (h : k.heap.Guards P) : KernelFrame P k k :=
  ⟨h, rfl, rfl, rfl, fun _ _ => rfl, fun _ _ => rfl, fun _ _ => rfl, fun _ _ => rfl, fun _ _ => rfl⟩

theorem trans {P : Set Int} {k k' k'' : Kernel} (h : KernelFrame P k k')
    (h' : KernelFrame P k' k'') : KernelFrame P k k'' := by
  have hblock := Heap.blockOf_congr h.start
  refine ⟨h'.guards, h'.start.trans h.start, h'.total.trans h.total, h'.null.trans h.null,
    fun a ha => ?_, fun a ha => ?_, fun a ha => ?_, fun a ha => ?_, fun a ha => ?_⟩
  · rw [h'.elfFiles a (by rwa [hblock]), h.elfFiles a ha]
  · rw [h'.arrays a (by rwa [hblock]), h.arrays a ha]
  · rw [h'.chunks a (by rwa [hblock]), h.chunks a ha]
  · rw [h'.processes a (by rwa [hblock]), h.processes a ha]
  · rw [h'.tasks a (by rwa [hblock]), h.tasks a ha]

theorem mono {P Q : Set Int} {k k' : Kernel} (h : KernelFrame Q k k') (hle : P ⊆ Q) :
    KernelFrame P k k' :=
  ⟨h.guards.mono hle, h.start, h.total, h.null, fun a ha => h.elfFiles a (ha.imp_right (hle ·)),
    fun a ha => h.arrays a (ha.imp_right (hle ·)), fun a ha => h.chunks a (hle ha),
    fun a ha => h.processes a (hle ha), fun a ha => h.tasks a (hle ha)⟩

theorem blockOf {P : Set Int} {k k' : Kernel} (h : KernelFrame P k k') (ptr : Nat) :
    k'.heap.blockOf ptr = k.heap.blockOf ptr := Heap.blockOf_congr h.start ptr

theorem of_heap {P : Set Int} {k : Kernel} {heap : Heap} (h : heap.Guards P)
    (hstart : heap.startAddress = k.heap.startAddress)
    (htotal : heap.table.totalEntries = k.heap.table.totalEntries) :
    KernelFrame P k { k with heap } :=
  ⟨h, hstart, htotal, rfl, fun _ _ => rfl, fun _ _ => rfl, fun _ _ => rfl, fun _ _ => rfl,
    fun _ _ => rfl⟩

theorem of_putProcess {P : Set Int} {k : Kernel} {ptr : Nat} (h : k.heap.Guards P)
    (hnew : k.heap.blockOf ptr ∉ P) (p : Process) : KernelFrame P k (putProcess ptr p k) := by
  refine ⟨h, rfl, rfl, rfl, fun _ _ => rfl, fun _ _ => rfl, fun _ _ => rfl,
    fun a ha => Function.update_of_ne ?_ _ _, fun _ _ => rfl⟩
  rintro rfl
  exact hnew ha

end KernelFrame

/-- What a loader leaves: besides the file system only the ELF files differ. -/
structure LoaderFrame (P : Set Int) (k k' : Kernel) : Prop where
  guards : k'.heap.Guards P
  start : k'.heap.startAddress = k.heap.startAddress
  total : k'.heap.table.totalEntries = k.heap.table.totalEntries
  null : k'.fatItems 0 = k.fatItems 0
  elfFiles : ∀ a, a = 0 ∨ k.heap.blockOf a ∈ P → k'.elfFiles a = k.elfFiles a
  pages : k'.pages = k.pages
  scheduler : k'.scheduler = k.scheduler

namespace LoaderFrame

theorem kernel {P : Set Int} {k k' : Kernel} (h : LoaderFrame P k k') : KernelFrame P k k' :=
  ⟨h.guards, h.start, h.total, h.null, h.elfFiles, fun a _ => by rw [h.pages],
    fun a _ => by rw [h.pages], fun a _ => by rw [h.scheduler], fun a _ => by rw [h.scheduler]⟩

theorem trans {P : Set Int} {k k' k'' : Kernel} (h : LoaderFrame P k k')
    (h' : LoaderFrame P k' k'') : LoaderFrame P k k'' := by
  refine ⟨h'.guards, h'.start.trans h.start, h'.total.trans h.total, h'.null.trans h.null,
    fun a ha => ?_, h'.pages.trans h.pages, h'.scheduler.trans h.scheduler⟩
  rw [h'.elfFiles a (by rwa [Heap.blockOf_congr h.start]), h.elfFiles a ha]

theorem mono {P Q : Set Int} {k k' : Kernel} (h : LoaderFrame Q k k') (hle : P ⊆ Q) :
    LoaderFrame P k k' :=
  ⟨h.guards.mono hle, h.start, h.total, h.null, fun a ha => h.elfFiles a (ha.imp_right (hle ·)),
    h.pages, h.scheduler⟩

theorem blockOf {P : Set Int} {k k' : Kernel} (h : LoaderFrame P k k') (ptr : Nat) :
    k'.heap.blockOf ptr = k.heap.blockOf ptr := Heap.blockOf_congr h.start ptr

theorem of_file {P : Set Int} {k k' : Kernel} (h : FileFrame P k k') : LoaderFrame P k k' :=
  ⟨h.guards, h.start, h.total, h.null, fun a _ => by rw [h.rest], by rw [h.rest], by rw [h.rest]⟩

theorem of_kzalloc {P : Set Int} {k k' : Kernel} {size ptr : Nat} (h : k.heap.Guards P)
    (hsize : size < 4294967296) (hrun : kzalloc size k = .ok (ptr, k')) : LoaderFrame P k k' :=
  .of_file (.of_driver (.of_kzalloc h hsize hrun))

theorem of_kfree {P : Set Int} {k k' : Kernel} {ptr : Nat} {u : Unit} (h : k.heap.Guards P)
    (hptr : k.heap.Freeable P ptr) (hrun : kfree ptr k = .ok (u, k')) : LoaderFrame P k k' :=
  .of_file (.of_driver (ReleaseFrame.of_kfree h hptr hrun).toDriverFrame)

theorem of_readOnly {P : Set Int} {k k' : Kernel} (hguards : k.heap.Guards P)
    (h : k.ReadOnly k') : LoaderFrame P k k' := by
  unfold Kernel.ReadOnly at h
  rw [h]
  exact ⟨hguards, rfl, rfl, rfl, fun _ _ => rfl, rfl, rfl⟩

theorem of_elfFile {P : Set Int} {k : Kernel} {ptr : Nat} (h : k.heap.Guards P)
    (hptr : ptr ≠ 0) (hnew : k.heap.blockOf ptr ∉ P) (o : Option ElfFile) :
    LoaderFrame P k { k with elfFiles := Function.update k.elfFiles ptr o } := by
  refine ⟨h, rfl, rfl, rfl, fun a ha => Function.update_of_ne ?_ _ _, rfl, rfl⟩
  rintro rfl
  exact ha.elim hptr hnew

theorem of_putElfFile {P : Set Int} {k : Kernel} {ptr : Nat} (h : k.heap.Guards P)
    (hptr : ptr ≠ 0) (hnew : k.heap.blockOf ptr ∉ P) (file : ElfFile) :
    LoaderFrame P k (putElfFile ptr file k) := .of_elfFile h hptr hnew (some file)

end LoaderFrame

def Kernel.ElfTree (S : Set Int) (k : Kernel) (elfFile : Nat) : Prop :=
  k.heap.BlockIn S elfFile ∧ ∃ file, k.elfFiles elfFile = some file ∧
    (file.elfMemory = 0 ∨ k.heap.BlockIn S file.elfMemory)

theorem fclose_regular {P Q S : Set Int} {k k' : Kernel} {fd res : Int}
    (hguards : k.heap.Guards (Q ∪ S)) (hapart : ∀ b ∈ S, b ∉ Q) (hle : P ⊆ Q)
    (h : k.OpenRegular S fd) (hrun : fclose fd k = .ok (res, k')) :
    LoaderFrame P k k' ∧ k'.heap.Guards Q ∧ k'.elfFiles = k.elfFiles := by
  have hframe := fclose_spec ⟨hguards, hapart⟩ (h.open Q) hrun
  exact ⟨.of_file (hframe.mono hle), hframe.guards, by rw [hframe.rest]⟩

theorem kzalloc_beside {Q S : Set Int} {k k' : Kernel} {size ptr : Nat}
    (hguards : k.heap.Guards (Q ∪ S)) (hapart : ∀ b ∈ S, b ∉ Q) (hsize : size < 4294967296)
    (hrun : kzalloc size k = .ok (ptr, k')) :
    ∃ R, Q ⊆ R ∧ k'.heap.Guards (R ∪ S) ∧ (∀ b ∈ S, b ∉ R) ∧
      (ptr = 0 ∨ size = 0 ∨ k'.heap.BlockIn R ptr ∧ k'.heap.blockOf ptr ∉ Q) := by
  by_cases hplain : ptr = 0 ∨ size = 0
  · refine ⟨Q, le_rfl, (LoaderFrame.of_kzalloc hguards hsize hrun).guards, hapart, ?_⟩
    rcases hplain with hnull | hzero
    · exact Or.inl hnull
    · exact Or.inr (Or.inl hzero)
  · obtain ⟨hnull, hzero⟩ := not_or.mp hplain
    obtain ⟨hblock, hnew, hguards'⟩ :=
      kzalloc_new hguards (Nat.one_le_iff_ne_zero.mpr hzero) hsize hrun hnull
    refine ⟨insert (k'.heap.blockOf ptr) Q, Set.subset_insert _ _, ?_, fun b hb hR => ?_,
      Or.inr (Or.inr ⟨⟨hblock, Set.mem_insert ..⟩, fun hQ => hnew (Or.inl hQ)⟩)⟩
    · rwa [Set.insert_union]
    · rcases Set.mem_insert_iff.mp hR with rfl | hQ
      · exact hnew (Or.inr hb)
      · exact hapart b hb hQ

theorem Heap.Guards.more {P Q : Set Int} {heap : Heap} (h : heap.Guards Q) (hle : P ⊆ Q) :
    heap.GuardsMore P (Q \ P) :=
  ⟨by rwa [Set.union_sdiff_cancel hle], fun _ hb => hb.2⟩

theorem elfProcessLoaded_ok {m : Memory} {file : ElfFile}
    (h : ¬ (elfProcessLoaded m file).1 < 0) : (elfProcessLoaded m file).1 = 0 := by
  rw [elfProcessLoaded_fst] at h ⊢
  unfold elfValidateLoaded at h ⊢
  split_ifs at h ⊢ with hvalid
  · rfl
  · exact absurd (by decide) h

/-- The part of `elf_load` that begins with the file open: its bytes are read and the header is
looked at. -/
def elfLoadOpened (elfFile : Nat) (fd : Int) (fileSize : Nat) : KernelM (Int × Nat) := do
  let memory ← kzalloc fileSize
  let k ← get
  let file ← fetch (k.elfFiles elfFile)
  modify (putElfFile elfFile { file with elfMemory := memory })
  let res ← fread memory fileSize 1 fd
  if res < 0 then do
    let _ ← fclose fd
    pure (res, 0)
  else do
    let k ← get
    let file ← fetch (k.elfFiles elfFile)
    let (res, file) := elfProcessLoaded k.memory file
    modify (putElfFile elfFile file)
    let _ ← fclose fd
    if res < 0 then pure (res, 0) else pure (res, elfFile)

def ElfLoad (P : Set Int) (k k' : Kernel) (res : Int) (elfFile : Nat) : Prop :=
  LoaderFrame P k k' ∧ (res < 0 ∨ res = 0 ∧ ∃ S, k'.heap.GuardsMore P S ∧ k'.ElfTree S elfFile)

theorem elfLoadOpened_spec {P Q S : Set Int} {k k' : Kernel} {ptr elfFile fileSize : Nat}
    {fd res : Int} (hmore : k.heap.GuardsMore Q S) (hregular : k.OpenRegular S fd) (hle : P ⊆ Q)
    (hsize : fileSize < 4294967296) (hnull : k.elfFiles 0 = none)
    (hself : ptr = 0 ∨ ptr ≠ 0 ∧ k.heap.BlockIn (Q \ P) ptr)
    (hrun : elfLoadOpened ptr fd fileSize k = .ok ((res, elfFile), k')) :
    ElfLoad P k k' res elfFile := by
  unfold elfLoadOpened at hrun
  obtain ⟨memory, k₁, hmemory, hrun⟩ := bind_eq_ok.mp hrun
  have hstep₁ := LoaderFrame.of_kzalloc hmore.guards hsize hmemory
  obtain ⟨-, hk₁⟩ := kzalloc_obtained hmore.guards hsize hmemory
  have hregular₁ := hregular.congr hstep₁.start hstep₁.total (by rw [hk₁]) (by rw [hk₁])
    (by rw [hk₁])
  obtain ⟨R, hQR, hguards₁, hapart, himage⟩ := kzalloc_beside hmore.guards hmore.apart hsize hmemory
  replace hrun := bind_get_eq_ok.mp hrun
  obtain ⟨file, hfetched, hrun⟩ := bind_fetch_eq_ok.mp hrun
  have hframe₁ := hstep₁.mono (hle.trans Set.subset_union_left)
  -- without a file structure the store through it has no result
  obtain ⟨hne, hself⟩ := hself.resolve_left (by
    intro hzero
    rw [hzero, hframe₁.elfFiles 0 (Or.inl rfl), hnull] at hfetched
    exact absurd hfetched.symm (Option.some_ne_none file))
  obtain ⟨_, k₂, hput, hrun⟩ := bind_eq_ok.mp hrun
  have hk₂ := modify_eq_ok.mp hput
  have hPR : P ⊆ R := hle.trans hQR
  have hself₁ : k₁.heap.BlockIn (R \ P) ptr :=
    (hself.mono (Set.sdiff_subset_sdiff_left hQR)).congr hframe₁.start hframe₁.total
  have hnew₁ : k₁.heap.blockOf ptr ∉ P := hself₁.mem.2
  have hheap₂ : k₂.heap = k₁.heap := by
    rw [← hk₂]
    rfl
  have hframe₂ : LoaderFrame P k k₂ := by
    refine hframe₁.trans ?_
    rw [← hk₂]
    exact .of_putElfFile hframe₁.guards hne hnew₁ _
  have hregular₂ : k₂.OpenRegular S fd := by
    rw [← hk₂]
    exact hregular₁.congr rfl rfl rfl rfl rfl
  obtain ⟨res₁, k₃, hread, hrun⟩ := bind_eq_ok.mp hrun
  obtain ⟨hreadonly, hempty⟩ := fread_spec hread
  have hframe₃ := hframe₂.trans (.of_readOnly hframe₂.guards hreadonly)
  unfold Kernel.ReadOnly at hreadonly
  have hheap₃ : k₃.heap = k₁.heap := by
    rw [← hheap₂, hreadonly]
  have hregular₃ : k₃.OpenRegular S fd := by
    rw [hreadonly]
    exact hregular₂.congr rfl rfl rfl rfl rfl
  have hentry₃ : k₃.elfFiles ptr = some { file with elfMemory := memory } := by
    rw [hreadonly, ← hk₂]
    exact Function.update_self ..
  rw [← hheap₃] at hguards₁
  by_cases hfailed : res₁ < 0
  · rw [if_pos hfailed] at hrun
    obtain ⟨_, k₄, hclose, hrun⟩ := bind_eq_ok.mp hrun
    obtain ⟨heq, rfl⟩ := pure_eq_ok.mp hrun
    obtain ⟨rfl, rfl⟩ := Prod.mk.inj heq
    obtain ⟨hclosed, -, -⟩ := fclose_regular hguards₁ hapart hPR hregular₃ hclose
    exact ⟨hframe₃.trans hclosed, Or.inl hfailed⟩
  rw [if_neg hfailed] at hrun
  replace hrun := bind_get_eq_ok.mp hrun
  obtain ⟨file₃, hfile₃, hrun⟩ := bind_fetch_eq_ok.mp hrun
  rw [hentry₃, Option.some.injEq] at hfile₃
  dsimp only at hrun
  obtain ⟨_, k₄, hput, hrun⟩ := bind_eq_ok.mp hrun
  have hk₄ := modify_eq_ok.mp hput
  obtain ⟨_, k₅, hclose, hrun⟩ := bind_eq_ok.mp hrun
  have hheap₄ : k₄.heap = k₃.heap := by
    rw [← hk₄]
    rfl
  have hframe₄ : LoaderFrame P k k₄ := by
    refine hframe₃.trans ?_
    rw [← hk₄]
    refine .of_putElfFile hframe₃.guards hne ?_ _
    rw [hheap₃]
    exact hnew₁
  have hregular₄ : k₄.OpenRegular S fd := by
    rw [← hk₄]
    exact hregular₃.congr rfl rfl rfl rfl rfl
  rw [← hheap₄] at hguards₁
  obtain ⟨hclosed, hguards₅, helfFiles₅⟩ := fclose_regular hguards₁ hapart hPR hregular₄ hclose
  have hframe₅ := hframe₄.trans hclosed
  by_cases hinvalid : (elfProcessLoaded k₃.memory file₃).1 < 0
  · rw [if_pos hinvalid] at hrun
    obtain ⟨heq, rfl⟩ := pure_eq_ok.mp hrun
    obtain ⟨rfl, rfl⟩ := Prod.mk.inj heq
    exact ⟨hframe₅, Or.inl hinvalid⟩
  · rw [if_neg hinvalid] at hrun
    obtain ⟨heq, rfl⟩ := pure_eq_ok.mp hrun
    obtain ⟨rfl, rfl⟩ := Prod.mk.inj heq
    have hstart : k₅.heap.startAddress = k₁.heap.startAddress := by
      rw [hclosed.start, hheap₄, hheap₃]
    have htotal : k₅.heap.table.totalEntries = k₁.heap.table.totalEntries := by
      rw [hclosed.total, hheap₄, hheap₃]
    refine ⟨hframe₅, Or.inr ⟨elfProcessLoaded_ok hinvalid, R \ P, hguards₅.more hPR,
      hself₁.congr hstart htotal, (elfProcessLoaded k₃.memory file₃).2, ?_, ?_⟩⟩
    · rw [helfFiles₅, ← hk₄]
      exact Function.update_self ..
    · rw [elfProcessLoaded_elfMemory, ← hfile₃]
      rcases himage with hzero | hnone | ⟨himage, hfresh⟩
      · exact Or.inl hzero
      · exact absurd (hempty hnone) hfailed
      · refine Or.inr (Heap.BlockIn.congr ⟨himage.block, himage.mem, fun hP => ?_⟩ hstart htotal)
        exact hfresh (hle hP)

theorem elfLoad_spec {P : Set Int} {k k' : Kernel} {filename : List UInt8} {res : Int}
    {elfFile : Nat} (h : k.heap.Guards P) (hitems : k.fatItems 0 = none)
    (hnull : k.elfFiles 0 = none) (h0 : 0 ∉ filename)
    (hrun : elfLoad kernelFiles filename k = .ok ((res, elfFile), k')) :
    ElfLoad P k k' res elfFile := by
  unfold elfLoad kernelFiles at hrun
  obtain ⟨ptr, k₁, hobject, hrun⟩ := bind_eq_ok.mp hrun
  obtain ⟨k₀, halloc, hk₁⟩ := kzallocObject_eq_ok hobject
  have hframe₀ := LoaderFrame.of_kzalloc h (by decide) halloc
  -- the blocks to keep from here on: those of `P`, and that of the file structure if it has one
  obtain ⟨Q, hle, hframe₁, hguards₁, hself⟩ : ∃ Q, P ⊆ Q ∧ LoaderFrame P k k₁ ∧
      k₁.heap.Guards Q ∧ (ptr = 0 ∨ ptr ≠ 0 ∧ k₁.heap.BlockIn (Q \ P) ptr) := by
    by_cases hzero : ptr = 0
    · rw [if_pos hzero] at hk₁
      rw [hk₁]
      exact ⟨P, le_rfl, hframe₀, hframe₀.guards, Or.inl hzero⟩
    · rw [if_neg hzero] at hk₁
      obtain ⟨hblock, hnew, hguards⟩ := kzalloc_new h (by decide) (by decide) halloc hzero
      rw [hk₁]
      exact ⟨_, Set.subset_insert _ _, hframe₀.trans (.of_putElfFile hframe₀.guards hzero hnew _),
        hguards, Or.inr ⟨hzero, hblock, Set.mem_insert .., hnew⟩⟩
  obtain ⟨fd, k₂, hopen, hrun⟩ := bind_eq_ok.mp hrun
  obtain ⟨hopened, hfile⟩ := fopen_open hguards₁ (hframe₁.null.trans hitems) h0 hopen
  have hopened := LoaderFrame.of_file hopened
  have hframe₂ := hframe₁.trans (hopened.mono hle)
  by_cases hnone : fd ≤ 0
  · rw [if_pos hnone] at hrun
    obtain ⟨_, k₃, hclose, hrun⟩ := bind_eq_ok.mp hrun
    obtain ⟨heq, rfl⟩ := pure_eq_ok.mp hrun
    obtain ⟨rfl, rfl⟩ := Prod.mk.inj heq
    have hclosed := fclose_spec (.none hframe₂.guards) (Or.inl rfl) hclose
    exact ⟨hframe₂.trans (.of_file hclosed), Or.inl (by decide)⟩
  rw [if_neg hnone] at hrun
  obtain ⟨S, hmore, hfile⟩ := hfile.resolve_left (by omega)
  obtain ⟨⟨res₁, stat⟩, k₃, hstat, hrun⟩ := bind_eq_ok.mp hrun
  obtain ⟨hk₃, hsize, hregular⟩ := fstat_spec hmore hfile hstat
  rw [hk₃] at hrun
  dsimp only at hrun
  by_cases hbad : res₁ < 0
  · rw [if_pos hbad] at hrun
    obtain ⟨_, k₄, hclose, hrun⟩ := bind_eq_ok.mp hrun
    obtain ⟨heq, rfl⟩ := pure_eq_ok.mp hrun
    obtain ⟨rfl, rfl⟩ := Prod.mk.inj heq
    have hclosed := fclose_spec hmore hfile hclose
    exact ⟨hframe₂.trans (.of_file (hclosed.mono hle)), Or.inl hbad⟩
  rw [if_neg hbad] at hrun
  obtain ⟨-, hregular⟩ := hregular.resolve_left hbad
  have hnull₂ : k₂.elfFiles 0 = none := by rw [hframe₂.elfFiles 0 (Or.inl rfl), hnull]
  have hself₂ := hself.imp_right (And.imp_right (·.congr hopened.start hopened.total))
  obtain ⟨hframe₄, hresult⟩ := elfLoadOpened_spec hmore hregular hle hsize hnull₂ hself₂ hrun
  exact ⟨hframe₂.trans hframe₄, hresult⟩

/-! The program data. -/

def Kernel.ProgramTree (S : Set Int) (k : Kernel) (p : Process) : Prop :=
  p.filetype = processFileTypeElf ∧ k.ElfTree S p.ptr ∨
    p.filetype = processFileTypeBin ∧ k.heap.BlockIn S p.ptr

def Kernel.ImageLoaded (S : Set Int) (process : Nat) (p : Process) (k k' : Kernel) : Prop :=
  ∃ filetype ptr size, k'.scheduler = { k.scheduler with
      store := Function.update k.scheduler.store process
        (some { p with filetype := filetype, ptr := ptr, size := size }) } ∧
    k'.ProgramTree S { p with filetype := filetype, ptr := ptr, size := size }

/-- What loading the program data of a process leaves: nothing of the process, or its image in
blocks of its own. -/
structure DataLoad (P Q : Set Int) (process : Nat) (p : Process) (k k' : Kernel) (res : Int) :
    Prop where
  frame : KernelFrame P k k'
  pages : k'.pages = k.pages
  guards : k'.heap.Guards Q
  result : res < 0 ∧ k'.scheduler = k.scheduler ∨
    res = 0 ∧ ∃ S, k'.heap.GuardsMore Q S ∧ k.ImageLoaded S process p k'

theorem processLoadElf_spec {P Q : Set Int} {k k' : Kernel} {filename : List UInt8} {process : Nat}
    {p : Process} {res : Int} (h : k.heap.Guards Q) (hle : P ⊆ Q) (hitems : k.fatItems 0 = none)
    (hnull : k.elfFiles 0 = none) (h0 : 0 ∉ filename) (hp : k.scheduler.store process = some p)
    (hprocess : k.heap.blockOf process ∉ P)
    (hrun : processLoadElf filename process k = .ok (res, k')) :
    DataLoad P Q process p k k' res ∧ (res < 0 → LoaderFrame Q k k') := by
  unfold processLoadElf at hrun
  obtain ⟨⟨res₁, elfFile⟩, k₁, hload, hrun⟩ := bind_eq_ok.mp hrun
  obtain ⟨hframe₁, hresult⟩ := elfLoad_spec h hitems hnull h0 hload
  dsimp only at hrun
  by_cases hfailed : res₁ < 0
  · rw [if_pos hfailed] at hrun
    obtain ⟨rfl, rfl⟩ := pure_eq_ok.mp hrun
    exact ⟨⟨(hframe₁.mono hle).kernel, hframe₁.pages, hframe₁.guards,
      Or.inl ⟨hfailed, hframe₁.scheduler⟩⟩, fun _ => hframe₁⟩
  rw [if_neg hfailed] at hrun
  obtain ⟨rfl, S, hmore, htree⟩ := hresult.resolve_left hfailed
  obtain ⟨_, k₂, hmodify, hrun⟩ := bind_eq_ok.mp hrun
  obtain ⟨rfl, rfl⟩ := pure_eq_ok.mp hrun
  obtain ⟨p', hp', rfl⟩ := modifyProcess_eq_ok hmodify
  rw [hframe₁.scheduler, hp, Option.some.injEq] at hp'
  subst hp'
  have hput : KernelFrame P k₁ (putProcess process _ k₁) :=
    .of_putProcess (hframe₁.guards.mono hle) (by rwa [hframe₁.blockOf])
      { p with filetype := processFileTypeElf, ptr := elfFile }
  refine ⟨⟨(hframe₁.mono hle).kernel.trans hput, hframe₁.pages, hframe₁.guards, Or.inr ⟨rfl, S,
    hmore, processFileTypeElf, elfFile, p.size, ?_, Or.inl ⟨rfl, htree⟩⟩⟩, fun hneg =>
    absurd hneg (lt_irrefl 0)⟩
  rw [← hframe₁.scheduler]
  rfl

theorem processLoadBinary_spec {P Q : Set Int} {k k' : Kernel} {filename : List UInt8}
    {process : Nat} {p : Process} {res : Int} (h : k.heap.Guards Q) (hle : P ⊆ Q)
    (hitems : k.fatItems 0 = none) (h0 : 0 ∉ filename)
    (hp : k.scheduler.store process = some p) (hprocess : k.heap.blockOf process ∉ P)
    (hrun : processLoadBinary filename process k = .ok (res, k')) :
    DataLoad P Q process p k k' res := by
  unfold processLoadBinary at hrun
  have hfailed : ∀ {k₁ : Kernel} {res₁ : Int}, LoaderFrame Q k k₁ → res₁ < 0 →
      DataLoad P Q process p k k₁ res₁ := fun hframe hneg =>
    ⟨(hframe.mono hle).kernel, hframe.pages, hframe.guards, Or.inl ⟨hneg, hframe.scheduler⟩⟩
  obtain ⟨fd, k₁, hopen, hrun⟩ := bind_eq_ok.mp hrun
  obtain ⟨hopened, hfile⟩ := fopen_open h hitems h0 hopen
  have hframe₁ := LoaderFrame.of_file hopened
  by_cases hnone : fd = 0
  · rw [if_pos hnone] at hrun
    obtain ⟨_, k₂, hclose, hrun⟩ := bind_eq_ok.mp hrun
    obtain ⟨rfl, rfl⟩ := pure_eq_ok.mp hrun
    have hclosed := fclose_spec (.none hframe₁.guards) (Or.inl (by rw [hnone]; rfl)) hclose
    exact hfailed (hframe₁.trans (.of_file hclosed)) (by decide)
  rw [if_neg hnone] at hrun
  obtain ⟨S, hmore, hfile⟩ := hfile.resolve_left hnone
  obtain ⟨⟨res₁, stat⟩, k₂, hstat, hrun⟩ := bind_eq_ok.mp hrun
  obtain ⟨hk₂, hsize, hregular⟩ := fstat_spec hmore hfile hstat
  rw [hk₂] at hrun
  dsimp only at hrun
  by_cases hbad : res₁ ≠ allOk
  · rw [if_pos hbad] at hrun
    obtain ⟨_, k₃, hclose, hrun⟩ := bind_eq_ok.mp hrun
    obtain ⟨rfl, rfl⟩ := pure_eq_ok.mp hrun
    have hclosed := fclose_spec hmore hfile hclose
    exact hfailed (hframe₁.trans (.of_file hclosed))
      (hregular.resolve_right fun hok => hbad hok.1)
  rw [if_neg hbad] at hrun
  have hres₁ : res₁ = 0 := not_not.mp hbad
  obtain ⟨-, hregular⟩ := hregular.resolve_left (by omega)
  obtain ⟨ptr, k₃, halloc, hrun⟩ := bind_eq_ok.mp hrun
  have hstep₃ := LoaderFrame.of_kzalloc hmore.guards hsize halloc
  have hframe₃ := hframe₁.trans (hstep₃.mono Set.subset_union_left)
  obtain ⟨-, hk₃⟩ := kzalloc_obtained hmore.guards hsize halloc
  have hregular₃ := hregular.congr hstep₃.start hstep₃.total (by rw [hk₃]) (by rw [hk₃])
    (by rw [hk₃])
  by_cases hzero : ptr = 0
  · rw [if_pos hzero] at hrun
    obtain ⟨_, k₄, hclose, hrun⟩ := bind_eq_ok.mp hrun
    obtain ⟨rfl, rfl⟩ := pure_eq_ok.mp hrun
    obtain ⟨hclosed, -, -⟩ := fclose_regular hstep₃.guards hmore.apart le_rfl hregular₃ hclose
    exact hfailed (hframe₃.trans hclosed) (by decide)
  rw [if_neg hzero] at hrun
  obtain ⟨read, k₄, hread, hrun⟩ := bind_eq_ok.mp hrun
  obtain ⟨hreadonly, hempty⟩ := fread_spec hread
  have hframe₄ := hframe₃.trans (.of_readOnly hframe₃.guards hreadonly)
  unfold Kernel.ReadOnly at hreadonly
  have hheap₄ : k₄.heap = k₃.heap := by rw [hreadonly]
  have hregular₄ : k₄.OpenRegular S fd := by
    rw [hreadonly]
    exact hregular₃.congr rfl rfl rfl rfl rfl
  by_cases hshort : read ≠ 1
  · rw [if_pos hshort] at hrun
    obtain ⟨_, k₅, hfree, hrun⟩ := bind_eq_ok.mp hrun
    obtain ⟨_, k₆, hclose, hrun⟩ := bind_eq_ok.mp hrun
    obtain ⟨rfl, rfl⟩ := pure_eq_ok.mp hrun
    have hfreeable : k₄.heap.Freeable (Q ∪ S) ptr := by
      rw [hheap₄]
      exact kzalloc_freeable hmore.guards hsize halloc
    have hguards₄ : k₄.heap.Guards (Q ∪ S) := by
      rw [hheap₄]
      exact hstep₃.guards
    have hstep₅ := LoaderFrame.of_kfree hguards₄ hfreeable hfree
    have hk₅ := kfree_eq_ok.mp hfree
    have hregular₅ := hregular₄.congr hstep₅.start hstep₅.total (by rw [hk₅]) (by rw [hk₅])
      (by rw [hk₅])
    obtain ⟨hclosed, -, -⟩ := fclose_regular hstep₅.guards hmore.apart le_rfl hregular₅ hclose
    exact hfailed ((hframe₄.trans (hstep₅.mono Set.subset_union_left)).trans hclosed) (by decide)
  rw [if_neg hshort] at hrun
  obtain ⟨R, hQR, hguardsR, hapart, himage⟩ := kzalloc_beside hmore.guards hmore.apart hsize halloc
  obtain ⟨himage, hfresh⟩ := (himage.resolve_left hzero).resolve_left fun hnothing => by
    have hneg := hempty hnothing
    omega
  obtain ⟨_, k₅, hmodify, hrun⟩ := bind_eq_ok.mp hrun
  obtain ⟨_, k₆, hclose, hrun⟩ := bind_eq_ok.mp hrun
  obtain ⟨rfl, rfl⟩ := pure_eq_ok.mp hrun
  obtain ⟨p', hp', rfl⟩ := modifyProcess_eq_ok hmodify
  rw [hframe₄.scheduler, hp, Option.some.injEq] at hp'
  subst hp'
  generalize hp' : ({ p with
    filetype := processFileTypeBin, ptr := ptr, size := stat.fileSize } : Process) = p' at hclose
  have hput : KernelFrame P k₄ (putProcess process p' k₄) :=
    .of_putProcess (hframe₄.guards.mono hle) (by rwa [hframe₄.blockOf]) p'
  have hregular₅ : (putProcess process p' k₄).OpenRegular S fd :=
    hregular₄.congr rfl rfl rfl rfl rfl
  have hguards₅ : (putProcess process p' k₄).heap.Guards (R ∪ S) := by
    change k₄.heap.Guards (R ∪ S)
    rw [hheap₄]
    exact hguardsR
  obtain ⟨hclosed, hguards₆, -⟩ := fclose_regular hguards₅ hapart hQR hregular₅ hclose
  have hstart : k₆.heap.startAddress = k₃.heap.startAddress := by
    rw [hclosed.start, ← hheap₄]
    rfl
  have htotal : k₆.heap.table.totalEntries = k₃.heap.table.totalEntries := by
    rw [hclosed.total, ← hheap₄]
    rfl
  refine ⟨((hframe₄.mono hle).kernel.trans hput).trans (hclosed.mono hle).kernel,
    hclosed.pages.trans hframe₄.pages, hclosed.guards, Or.inr ⟨hres₁, R \ Q, hguards₆.more hQR,
    processFileTypeBin, ptr, stat.fileSize, ?_, Or.inr ⟨rfl, ?_⟩⟩⟩
  · rw [hclosed.scheduler, hp', ← hframe₄.scheduler]
    rfl
  · exact Heap.BlockIn.congr ⟨himage.block, himage.mem, hfresh⟩ hstart htotal

theorem processLoadData_spec {P Q : Set Int} {k k' : Kernel} {filename : List UInt8}
    {process : Nat} {p : Process} {res : Int} (h : k.heap.Guards Q) (hle : P ⊆ Q)
    (hitems : k.fatItems 0 = none) (hnull : k.elfFiles 0 = none) (h0 : 0 ∉ filename)
    (hp : k.scheduler.store process = some p) (hprocess : k.heap.blockOf process ∉ P)
    (hrun : processLoadData filename process k = .ok (res, k')) :
    DataLoad P Q process p k k' res := by
  unfold processLoadData at hrun
  obtain ⟨res₁, k₁, helf, hrun⟩ := bind_eq_ok.mp hrun
  obtain ⟨hload, hframe⟩ := processLoadElf_spec h hle hitems hnull h0 hp hprocess helf
  by_cases hformat : res₁ = -einformat
  · rw [if_pos hformat] at hrun
    have hframe₁ := hframe (by rw [hformat]; decide)
    have hbinary := processLoadBinary_spec hframe₁.guards hle (hframe₁.null.trans hitems) h0
      (by rw [hframe₁.scheduler, hp]) (by rwa [hframe₁.blockOf]) hrun
    refine ⟨hload.frame.trans hbinary.frame, hbinary.pages.trans hframe₁.pages, hbinary.guards, ?_⟩
    rcases hbinary.result with ⟨hneg, hsame⟩ | ⟨hok, S, hmore, filetype, ptr, size, hsame, htree⟩
    · exact Or.inl ⟨hneg, hsame.trans hframe₁.scheduler⟩
    · refine Or.inr ⟨hok, S, hmore, filetype, ptr, size, ?_, htree⟩
      rw [hsame, hframe₁.scheduler]
  · rw [if_neg hformat] at hrun
    obtain ⟨rfl, rfl⟩ := pure_eq_ok.mp hrun
    exact hload

end BoiOS
