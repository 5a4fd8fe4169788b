import BoiOS.Task.ProgramStart

/-! When a program is loaded. A load that returns has loaded its program exactly if there is a slot and
room for the structure, the image is read from its file, there is room for the stack, and none of the
ranges that are mapped for it wraps; without memory for the task it does not return. -/
namespace BoiOS
open Library.StateRun

/-! What is allocated and cleared. -/

/-- The heap and the memory that `kzalloc` leaves. -/
def allocated (s : Heap × Memory) (size : Nat) : Heap × Memory :=
  ((heapMalloc s.1 size).2, if (heapMalloc s.1 size).1 = 0 then s.2
    else s.2.clear (heapMalloc s.1 size).1 size)

/-- The step allocates blocks of these sizes. -/
structure Kernel.Allocates (k : Kernel) (sizes : List Nat) (k' : Kernel) : Prop where
  left : (k'.heap, k'.memory) = sizes.foldl allocated (k.heap, k.memory)
  elfFiles : k'.elfFiles = k.elfFiles

namespace Kernel.Allocates
variable {k k' k'' : Kernel} {sizes : List Nat}

theorem of_kzalloc {size ptr : Nat} (h : kzalloc size k = .ok (ptr, k')) : k.Allocates [size] k' := by
  obtain ⟨rfl, rfl⟩ := kzalloc_eq_ok h
  exact ⟨rfl, rfl⟩

theorem trans {rest : List Nat} (h : k.Allocates sizes k') (h' : k'.Allocates rest k'') :
    k.Allocates (sizes ++ rest) k'' :=
  ⟨by rw [List.foldl_append, ← h.left, h'.left], h'.elfFiles.trans h.elfFiles⟩

end Kernel.Allocates

theorem pagingNew4gbLoop_allocates {directory flags i : Nat} {u : Unit} {k k' : Kernel} (count : Nat)
    (h : pagingNew4gbLoop directory flags count i k = .ok (u, k')) :
    k.Allocates (List.replicate count (4 * pagingTotalEntriesPerTable)) k' := by
  induction count generalizing i k with
  | zero =>
    obtain ⟨-, rfl⟩ := pure_eq_ok.mp h
    exact ⟨rfl, rfl⟩
  | succ count ih =>
    unfold pagingNew4gbLoop at h
    obtain ⟨entry, k₁, halloc, h⟩ := bind_eq_ok.mp h
    have hfirst := Kernel.Allocates.of_kzalloc halloc
    by_cases hnull : entry = 0
    · rw [if_pos hnull] at h
      exact (throw_eq_ok.mp h).elim
    rw [if_neg hnull] at h
    obtain ⟨_, k₂, hput, h⟩ := bind_eq_ok.mp h
    replace h := bind_get_eq_ok.mp h
    obtain ⟨entries, -, h⟩ := bind_fetch_eq_ok.mp h
    obtain ⟨_, k₃, hset, h⟩ := bind_eq_ok.mp h
    have hrest := ih h
    rw [← modify_eq_ok.mp hset, ← modify_eq_ok.mp hput] at hrest
    rw [List.replicate_succ]
    exact hfirst.trans ⟨hrest.left, hrest.elfFiles⟩

theorem pagingNew4gb_allocates {flags chunk : Nat} {k k' : Kernel} (hnull : k.pages.arrays 0 = none)
    (h : pagingNew4gb flags k = .ok (chunk, k')) :
    k.Allocates (4 * pagingTotalEntriesPerTable ::
      (List.replicate pagingTotalEntriesPerTable (4 * pagingTotalEntriesPerTable) ++ [4])) k' := by
  obtain ⟨directory, k₀, k₂, k₃, -, -, halloc, hloop, hchunk, hk'⟩ := pagingNew4gb_eq_ok hnull h
  have htables := pagingNew4gbLoop_allocates pagingTotalEntriesPerTable hloop
  have hlast := Kernel.Allocates.of_kzalloc hchunk
  have hrest : k₀.Allocates _ k₃ := .trans ⟨htables.left, htables.elfFiles⟩ hlast
  have hall := (Kernel.Allocates.of_kzalloc halloc).trans hrest
  rw [hk']
  exact ⟨hall.left, hall.elfFiles⟩

theorem taskNew_allocates {process task : Nat} {k k' : Kernel} (hnull : k.pages.arrays 0 = none)
    (h : taskNew process k = .ok (task, k')) : k.Allocates taskBlocks k' := by
  unfold taskNew at h
  obtain ⟨ptr, k₁, halloc, h⟩ := bind_eq_ok.mp h
  by_cases hzero : ptr = 0
  · rw [if_pos hzero] at h
    exact (throw_eq_ok.mp h).elim
  rw [if_neg hzero] at h
  obtain ⟨chunk, k₂, hdirectory, h⟩ := bind_eq_ok.mp h
  obtain ⟨ip, k₃, hentry, h⟩ := bind_eq_ok.mp h
  obtain ⟨_, k₄, hlink, h⟩ := bind_eq_ok.mp h
  obtain ⟨tasks, -, hk₄⟩ := tasksRun_eq_ok hlink
  have hnull₁ : k₁.pages.arrays 0 = none := by
    rw [(kzalloc_eq_ok halloc).2]
    exact hnull
  have hall := (Kernel.Allocates.of_kzalloc halloc).trans (pagingNew4gb_allocates hnull₁ hdirectory)
  rw [← (pure_eq_ok.mp h).2, hk₄, taskEntry_eq_ok hentry]
  exact ⟨hall.left, hall.elfFiles⟩

/-! The conditions. -/

def Kernel.withProcess (k : Kernel) : Kernel :=
  putProcess (heapMalloc k.heap sizeofProcess).1 processInit { k with
    heap := (heapMalloc k.heap sizeofProcess).2
    memory := k.memory.clear (heapMalloc k.heap sizeofProcess).1 sizeofProcess }

/-- The image of the program is read, and there is room for a stack. -/
def ImageRead (filename : List UInt8) (k k' : Kernel) : Prop :=
  ∃ res, processLoadData filename (heapMalloc k.heap sizeofProcess).1 k.withProcess = .ok (res, k') ∧
    0 ≤ res ∧ ¬ k'.heap.NoRoomFor boiosUserProgramStackSize

/-- No range of physical pages that is mapped for the process ends below its start. -/
structure RangesInOrder (elfFiles : Nat → Option ElfFile) (m : Memory) (p : Process) : Prop where
  binary : p.filetype = processFileTypeBin →
    p.ptr ≤ pagingAlignAddress (u32 ((p.ptr : Int) + p.size))
  elf : p.filetype = processFileTypeElf → ∀ file, elfFiles p.ptr = some file →
    ∀ phdr ∈ elfFilePhdrs m file, elfPagesStart file phdr ≤ elfPagesEnd file phdr

/-- The stack and the task are allocated before the program headers are read, which may lie behind the
image, in a block that is cleared by then. -/
def Kernel.MapsInOrder (k : Kernel) (p : Process) : Prop :=
  RangesInOrder k.elfFiles
    ((boiosUserProgramStackSize :: taskBlocks).foldl allocated (k.heap, k.memory)).2 p

/-- The program is loaded into the lowest free slot. -/
structure ProgramLoads (filename : List UInt8) (k : Kernel) : Prop where
  accepted : ¬ LoadRefused k
  image : ∃ k' p, ImageRead filename k k' ∧
    k'.scheduler.store (heapMalloc k.heap sizeofProcess).1 = some p ∧ k'.MapsInOrder p

/-! The mapping. -/

theorem processMapElfLoop_zero_iff {chunk : Nat} {file : ElfFile} {phdrs : List Elf32Phdr}
    {s s' : PageStore} {res : Int}
    (hrun : processMapElfLoop chunk file phdrs 0 s = .ok (res, s')) :
    (res < 0 ∨ res = 0) ∧
      (res = 0 ↔ ∀ phdr ∈ phdrs, elfPagesStart file phdr ≤ elfPagesEnd file phdr) := by
  induction phdrs generalizing s with
  | nil =>
    rw [processMapElfLoop, Except.ok.injEq, Prod.mk.injEq] at hrun
    exact ⟨Or.inr hrun.1.symm, fun _ _ hmem => absurd hmem List.not_mem_nil, fun _ => hrun.1.symm⟩
  | cons phdr rest ih =>
    rw [List.forall_mem_cons]
    unfold processMapElfLoop at hrun
    cases hmap : processMapElfPhdr chunk file phdr s with
    | error stop =>
      rw [hmap] at hrun
      cases hrun
    | ok r =>
      obtain ⟨res₁, s₁⟩ := r
      rw [hmap] at hrun
      dsimp only [Except.bind] at hrun
      rcases pagingMapTo_entered (pagingAlignToLowerPage_aligned _)
        (pagingAlignToLowerPage_aligned _) (pagingAlignAddress_aligned _) hmap with
        ⟨hbelow, hres, -⟩ | ⟨hle, hres, -⟩
      · rw [hres, if_pos (by decide), Except.ok.injEq, Prod.mk.injEq] at hrun
        rw [← hrun.1]
        exact ⟨Or.inl (by decide), fun hzero => absurd hzero (by decide),
          fun hall => absurd hall.1 (not_le.mpr hbelow)⟩
      · rw [hres, if_neg (by decide)] at hrun
        obtain ⟨hresult, hiff⟩ := ih hrun
        exact ⟨hresult, fun hzero => ⟨hle, hiff.mp hzero⟩, fun hall => hiff.mpr hall.2⟩

theorem processMapStack_zero {k k' : Kernel} {process : Nat} {p : Process} {res : Int}
    (hp : k.scheduler.store process = some p) (haligned : p.stack % 4096 = 0)
    (hhigh : p.stack < 2147483648) (hrun : processMapStack process k = .ok (res, k')) : res = 0 := by
  unfold processMapStack at hrun
  replace hrun := bind_get_eq_ok.mp hrun
  obtain ⟨p', hp', hrun⟩ := bind_fetch_eq_ok.mp hrun
  obtain rfl := Option.some.inj (hp'.symm.trans hp)
  obtain ⟨t, -, hrun⟩ := bind_fetch_eq_ok.mp hrun
  obtain ⟨s, hmap, -⟩ := pagingRun_eq_ok hrun
  rcases pagingMapTo_entered (by decide) haligned (pagingAlignAddress_aligned _) hmap with
    ⟨hbelow, -, -⟩ | ⟨-, hres, -⟩
  · unfold pagingAlignAddress boiosUserProgramStackSize pagingPageSize u32 at hbelow
    split_ifs at hbelow <;> omega
  · exact hres

theorem processMapMemory_zero_iff {k k' : Kernel} {process : Nat} {p : Process} {res : Int}
    (hp : k.scheduler.store process = some p) (hptr : p.ptr % 4096 = 0)
    (haligned : p.stack % 4096 = 0) (hhigh : p.stack < 2147483648)
    (hrun : processMapMemory process k = .ok (res, k')) :
    res = 0 ↔ RangesInOrder k.elfFiles k.memory p := by
  -- after the image the stack is mapped
  have hthen {res₁ : Int} {s : PageStore} (hresult : res₁ < 0 ∨ res₁ = 0)
      (hrest : (if res₁ < 0 then pure res₁ else processMapStack process : KernelM Int)
        { k with pages := s } = .ok (res, k')) : res = 0 ↔ res₁ = 0 := by
    by_cases hneg : res₁ < 0
    · rw [if_pos hneg] at hrest
      rw [(pure_eq_ok.mp hrest).1]
    · rw [if_neg hneg] at hrest
      have hstack := processMapStack_zero (k := { k with pages := s }) hp haligned hhigh hrest
      exact iff_of_true hstack (hresult.resolve_left hneg)
  unfold processMapMemory at hrun
  replace hrun := bind_get_eq_ok.mp hrun
  obtain ⟨p', hp', hrun⟩ := bind_fetch_eq_ok.mp hrun
  obtain rfl := Option.some.inj (hp'.symm.trans hp)
  by_cases helf : p'.filetype = processFileTypeElf
  · rw [if_pos helf] at hrun
    obtain ⟨res₁, k₁, hmap, hrun⟩ := bind_eq_ok.mp hrun
    unfold processMapElf at hmap
    replace hmap := bind_get_eq_ok.mp hmap
    obtain ⟨p'', hp'', hmap⟩ := bind_fetch_eq_ok.mp hmap
    obtain rfl := Option.some.inj (hp''.symm.trans hp)
    obtain ⟨file, hfile, hmap⟩ := bind_fetch_eq_ok.mp hmap
    obtain ⟨t, -, hmap⟩ := bind_fetch_eq_ok.mp hmap
    obtain ⟨s, hloop, hk₁⟩ := pagingRun_eq_ok hmap
    rw [hk₁] at hrun
    obtain ⟨hresult, hiff⟩ := processMapElfLoop_zero_iff hloop
    rw [hthen hresult hrun, hiff]
    constructor
    · intro hall
      refine ⟨fun hbinary => ?_, fun _ file' hfile' => ?_⟩
      · rw [helf] at hbinary
        exact absurd hbinary (by decide)
      · rwa [← Option.some.inj (hfile.symm.trans hfile')]
    · exact fun hranges => hranges.elf helf file hfile
  rw [if_neg helf] at hrun
  by_cases hbinary : p'.filetype = processFileTypeBin
  · rw [if_pos hbinary] at hrun
    obtain ⟨res₁, k₁, hmap, hrun⟩ := bind_eq_ok.mp hrun
    unfold processMapBinary at hmap
    replace hmap := bind_get_eq_ok.mp hmap
    obtain ⟨p'', hp'', hmap⟩ := bind_fetch_eq_ok.mp hmap
    obtain rfl := Option.some.inj (hp''.symm.trans hp)
    obtain ⟨t, -, hmap⟩ := bind_fetch_eq_ok.mp hmap
    obtain ⟨s, hrange, hk₁⟩ := pagingRun_eq_ok hmap
    rw [hk₁] at hrun
    rcases pagingMapTo_entered (by decide) hptr (pagingAlignAddress_aligned _) hrange with
      ⟨hbelow, hres, -⟩ | ⟨hle, hres, -⟩
    · rw [hthen (Or.inl (by rw [hres]; decide)) hrun, hres]
      exact ⟨fun hzero => absurd hzero (by decide),
        fun hranges => absurd (hranges.binary hbinary) (not_le.mpr hbelow)⟩
    · rw [hthen (Or.inr hres) hrun]
      exact ⟨fun _ => ⟨fun _ => hle, fun htype => absurd htype helf⟩, fun _ => hres⟩
  · rw [if_neg hbinary] at hrun
    exact (throw_eq_ok.mp hrun).elim

/-! The load. -/

theorem ImageRead.unique {filename : List UInt8} {k k₁ k₂ : Kernel} (h : ImageRead filename k k₁)
    (h' : ImageRead filename k k₂) : k₁ = k₂ := by
  obtain ⟨res, hdata, -⟩ := h
  obtain ⟨res', hdata', -⟩ := h'
  exact (Prod.mk.inj (Except.ok.inj (hdata.symm.trans hdata'))).2

theorem ImageRead.reachesTask {P : Set Int} {filename : List UInt8} {slot : Nat} {k k₂ : Kernel}
    (himage : ImageRead filename k k₂) (h : k.heap.Guards P) (hnull : k.NullFree) (h0 : 0 ∉ filename)
    (hfree : processGet k.scheduler slot = 0) (hroom : (heapMalloc k.heap sizeofProcess).1 ≠ 0) :
    ∃ k', ReachesTask filename slot k (heapMalloc k.heap sizeofProcess).1 k' := by
  obtain ⟨res, hdata, hres, hstack⟩ := himage
  have hobject : kzallocObject sizeofProcess (fun ptr => putProcess ptr processInit) k =
      .ok ((heapMalloc k.heap sizeofProcess).1, k.withProcess) := by
    unfold kzallocObject
    rw [bind_of_ok (kzalloc_apply (by decide) k), if_neg hroom, Kernel.withProcess]
    simp only [if_neg hroom]
    rfl
  obtain ⟨-, S, filetype, ptr, size, hload, htree⟩ :=
    ((Loading.start h hobject hroom).data hnull h0 hdata).resolve_left fun hneg =>
      absurd hneg.1 (not_lt.mpr hres)
  have hserved : (heapMalloc k₂.heap boiosUserProgramStackSize).1 ≠ 0 := fun hzero =>
    hstack ((Heap.heapMalloc_eq_zero_iff hload.guards.guards.wellFormed (by decide)
      (by decide)).1.mp hzero)
  obtain ⟨k₃, halloc⟩ : ∃ k₃, kzalloc boiosUserProgramStackSize k₂ =
      .ok ((heapMalloc k₂.heap boiosUserProgramStackSize).1, k₃) :=
    ⟨_, kzalloc_apply (by decide) k₂⟩
  obtain ⟨S', hload₃, -⟩ := hload.stack htree halloc
  obtain ⟨k₄, hset⟩ : ∃ k₄, modifyProcess (heapMalloc k.heap sizeofProcess).1 (fun p => { p with
      filename := strncpy filename boiosMaxPath
      stack := (heapMalloc k₂.heap boiosUserProgramStackSize).1
      pid := slot }) k₃ = .ok ((), k₄) :=
    ⟨_, modifyProcess_of_store hload₃.stored⟩
  refine ⟨k₄, ?_⟩
  unfold ReachesTask processLoadForTask
  rw [bind_of_ok (get_apply k), if_neg (not_not.mpr hfree), bind_of_ok hobject, if_neg hroom,
    bind_of_ok hdata, if_neg (not_lt.mpr hres), bind_of_ok halloc, if_neg hserved, bind_of_ok hset]
  rfl

/-- A load that has come to the creation of the task has read its image into `k₂`; after that it has
allocated the stack and set fields of the process. -/
theorem ReachesTask.imageRead {P : Set Int} {filename : List UInt8} {slot process : Nat}
    {k k' : Kernel} (hreaches : ReachesTask filename slot k process k') (h : k.heap.Guards P)
    (hnull : k.NullFree) (h0 : 0 ∉ filename) :
    process = (heapMalloc k.heap sizeofProcess).1 ∧ ¬ k.heap.NoRoomFor sizeofProcess ∧
      ∃ k₂ p p', ImageRead filename k k₂ ∧ k₂.scheduler.store process = some p ∧
        k₂.Allocates [boiosUserProgramStackSize] k' ∧ k'.scheduler.store process = some p' ∧
        p'.filetype = p.filetype ∧ p'.ptr = p.ptr ∧ p'.size = p.size := by
  obtain ⟨k₁, k₂, k₃, res, stack, -, hobject, hprocess, hdata, hres, hstack, hnone, hset⟩ :=
    hreaches.steps
  obtain ⟨-, S, filetype, ptr, size, hload, htree⟩ :=
    ((Loading.start h hobject hprocess).data hnull h0 hdata).resolve_left fun hneg =>
      hres hneg.1
  obtain ⟨k₀, halloc, hk₁⟩ := kzallocObject_eq_ok hobject
  obtain ⟨rfl, rfl⟩ := kzalloc_eq_ok halloc
  rw [if_neg hprocess, if_neg hprocess] at hk₁
  rw [hk₁] at hdata
  have hroom := (Heap.heapMalloc_eq_zero_iff h.wellFormed (by decide : 1 ≤ sizeofProcess)
    (by decide)).1
  have himage : ImageRead filename k k₂ := by
    refine ⟨res, hdata, not_lt.mp hres, fun hno => ?_⟩
    obtain ⟨rfl, -⟩ := kzalloc_eq_ok hstack
    exact hnone ((Heap.heapMalloc_eq_zero_iff hload.guards.guards.wellFormed (by decide)
      (by decide)).1.mpr hno)
  have hallocates := Kernel.Allocates.of_kzalloc hstack
  obtain ⟨p₃, hp₃, hk'⟩ := modifyProcess_eq_ok hset
  have hsame : k₃.scheduler = k₂.scheduler := by rw [(kzalloc_eq_ok hstack).2]
  rw [hsame] at hp₃
  refine ⟨rfl, fun hno => hprocess (hroom.mpr hno), k₂, p₃, { p₃ with
    filename := strncpy filename boiosMaxPath, stack, pid := slot }, himage, hp₃, ?_, ?_,
    rfl, rfl, rfl⟩
  · rw [hk']
    exact ⟨hallocates.left, hallocates.elfFiles⟩
  · rw [hk', putProcess_store_self]

/-- A load that returns after the image has been read has created the task, and it fails exactly at a
range that wraps. -/
theorem ReachesTask.loads_iff {P : Set Int} {filename : List UInt8} {slot process : Nat}
    {r : Int × Nat} {k k₁ k' : Kernel} (hreaches : ReachesTask filename slot k process k₁)
    (h : k.heap.Guards P) (hnull : k.NullFree) (h0 : 0 ∉ filename)
    (hrun : KernelM.processLoadForSlot filename slot k = .ok (r, k')) :
    r.1 = 0 ↔ ∃ k₂ p, ImageRead filename k k₂ ∧
      k₂.scheduler.store (heapMalloc k.heap sizeofProcess).1 = some p ∧ k₂.MapsInOrder p := by
  obtain ⟨S, p, hload, htree, hstack, -, hallocations, -⟩ := hreaches.loading h hnull h0
  rw [hreaches.rest] at hrun
  unfold processLoadWithTask at hrun
  obtain ⟨task, k₂, hnew, hrun⟩ := bind_eq_ok.mp hrun
  obtain ⟨_, k₃, hset, hrun⟩ := bind_eq_ok.mp hrun
  obtain ⟨T, hwith⟩ := hload.task hnull htree hstack (fun i _ => by rw [hallocations]) hnew hset
  obtain ⟨res, k₄, hmap, hrun⟩ := bind_eq_ok.mp hrun
  have hwf := hwith.guards.guards.wellFormed
  have hbelow := hwf.below
  have hstackBlock := hwith.tree.stack.block
  have hzero := processMapMemory_zero_iff hwith.tree.stored
    (hwith.tree.program.block.block.aligned hwf) (hstackBlock.aligned hwf)
    (by
      have haddress := hstackBlock.address
      have hhigh := hstackBlock.high
      dsimp only at haddress hhigh ⊢
      omega) hmap
  obtain ⟨rfl, -, k₀, p₀, p', himage, hp₀, hbefore, hp', hfiletype, hptr, hsize⟩ :=
    hreaches.imageRead h hnull h0
  obtain rfl := Option.some.inj (hload.stored.symm.trans hp')
  have hall := hbefore.trans (taskNew_allocates (hnull.frame hload.frame).arrays hnew)
  -- the task is all that is set after it has been created
  have hranges : RangesInOrder k₃.elfFiles k₃.memory { p with task } ↔ k₀.MapsInOrder p₀ := by
    obtain ⟨q, -, hk₃⟩ := modifyProcess_eq_ok hset
    have hmemory : k₂.memory = _ := congrArg Prod.snd hall.left
    unfold Kernel.MapsInOrder
    rw [hk₃, ← hall.elfFiles, ← List.singleton_append, ← hmemory]
    constructor
    · rintro ⟨hbinary, helf⟩
      rw [hfiletype, hptr, hsize] at hbinary
      rw [hfiletype, hptr] at helf
      exact ⟨hbinary, helf⟩
    · rintro ⟨hbinary, helf⟩
      rw [← hfiletype, ← hptr, ← hsize] at hbinary
      rw [← hfiletype, ← hptr] at helf
      exact ⟨hbinary, helf⟩
  have hstatus : r.1 = 0 ↔ res = 0 := by
    by_cases hneg : res < 0
    · rw [if_pos hneg] at hrun
      obtain ⟨hwith₄, -⟩ := hwith.mapped hmap
      rw [(hwith₄.failed hrun).1]
    · rw [if_neg hneg] at hrun
      obtain ⟨_, k₅, -, hrun⟩ := bind_eq_ok.mp hrun
      rw [← (pure_eq_ok.mp hrun).1]
  rw [hstatus, hzero, hranges]
  constructor
  · exact fun horder => ⟨k₀, p₀, himage, hp₀, horder⟩
  · rintro ⟨k₀', p₀', himage', hp₀', horder⟩
    obtain rfl := himage'.unique himage
    rwa [← Option.some.inj (hp₀'.symm.trans hp₀)]

theorem processLoadForSlot_reachesTask {filename : List UInt8} {slot : Nat} {r : Int × Nat}
    {k k' : Kernel} (hrun : KernelM.processLoadForSlot filename slot k = .ok (r, k'))
    (hres : 0 ≤ r.1) : ∃ process k₁, ReachesTask filename slot k process k₁ := by
  unfold KernelM.processLoadForSlot at hrun
  unfold ReachesTask processLoadForTask
  replace hrun := bind_get_eq_ok.mp hrun
  rw [bind_of_ok (get_apply k)]
  by_cases htaken : processGet k.scheduler slot ≠ 0
  · rw [if_pos htaken] at hrun
    exact (throw_eq_ok.mp hrun).elim
  rw [if_neg htaken] at hrun ⊢
  obtain ⟨process, k₁, hobject, hrun⟩ := bind_eq_ok.mp hrun
  rw [bind_of_ok hobject]
  have hfailed (res : Int) (hneg : res < 0) {k₂ : Kernel}
      (h : processLoadFailed process res k₂ = .ok (r, k')) : False := by
    rw [processLoadFailed_result h] at hres
    exact absurd hres (not_le.mpr hneg)
  by_cases hnull : process = 0
  · rw [if_pos hnull] at hrun
    rw [← (pure_eq_ok.mp hrun).1] at hres
    exact absurd hres (by decide)
  rw [if_neg hnull] at hrun ⊢
  obtain ⟨res, k₂, hdata, hrun⟩ := bind_eq_ok.mp hrun
  rw [bind_of_ok hdata]
  by_cases hneg : res < 0
  · rw [if_pos hneg] at hrun
    exact (hfailed res hneg hrun).elim
  rw [if_neg hneg] at hrun ⊢
  obtain ⟨stack, k₃, hstack, hrun⟩ := bind_eq_ok.mp hrun
  rw [bind_of_ok hstack]
  by_cases hnone : stack = 0
  · rw [if_pos hnone] at hrun
    exact (hfailed _ (by decide) hrun).elim
  rw [if_neg hnone] at hrun ⊢
  obtain ⟨_, k₄, hset, hrun⟩ := bind_eq_ok.mp hrun
  rw [bind_of_ok hset]
  exact ⟨process, k₄, rfl⟩

/-- A load that returns has loaded the program exactly if the conditions are met. -/
theorem processLoad_zero_iff {P : Set Int} {filename : List UInt8} {r : Int × Nat}
    {k k' : Kernel} (h : k.heap.Guards P) (hnull : k.NullFree) (h0 : 0 ∉ filename)
    (hrun : KernelM.processLoad filename k = .ok (r, k')) : r.1 = 0 ↔ ProgramLoads filename k := by
  unfold KernelM.processLoad at hrun
  replace hrun := bind_get_eq_ok.mp hrun
  by_cases hslot : processGetFreeSlot k.scheduler < 0
  · rw [if_pos hslot] at hrun
    rw [← (pure_eq_ok.mp hrun).1]
    exact ⟨fun hzero => absurd hzero (by decide), fun hloads => absurd (Or.inl hslot) hloads.accepted⟩
  rw [if_neg hslot] at hrun
  constructor
  · intro hzero
    obtain ⟨process, k₁, hreaches⟩ := processLoadForSlot_reachesTask hrun (by omega)
    obtain ⟨-, hroom, -⟩ := hreaches.imageRead h hnull h0
    exact ⟨not_or.mpr ⟨hslot, hroom⟩, (hreaches.loads_iff h hnull h0 hrun).mp hzero⟩
  · intro hloads
    have hfree : processGet k.scheduler (processGetFreeSlot k.scheduler).toNat = 0 := by
      rcases processGetFreeSlot_spec k.scheduler with ⟨-, hnone⟩ | ⟨slot, hlt, heq, hzero, -⟩
      · exact absurd (by rw [hnone]; decide) hslot
      · rw [heq, Int.toNat_natCast]
        unfold processGet
        rw [if_neg (by omega), Int.toNat_natCast, hzero]
    have hsome : (heapMalloc k.heap sizeofProcess).1 ≠ 0 := fun hnone =>
      hloads.accepted (Or.inr
        ((Heap.heapMalloc_eq_zero_iff h.wellFormed (by decide) (by decide)).1.mp hnone))
    obtain ⟨k₂, p, himage, -⟩ := hloads.image
    obtain ⟨k₁, hreaches⟩ := himage.reachesTask h hnull h0 hfree hsome
    exact (hreaches.loads_iff h hnull h0 hrun).mpr hloads.image

end BoiOS
