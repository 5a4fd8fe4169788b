import BoiOS.Memory.PagingFrame
import BoiOS.Task.ElfMap
import BoiOS.Task.LoadFrame

/-! What a process is made of, and what is left of it. A load that succeeds puts its image, its
stack and its task into blocks of their own; the blocks of the others stay with them through every
load, every allocation and every exit. -/
namespace BoiOS
open Library.StateRun

theorem PagesFrame.kernel {P : Set Int} {k k' : Kernel} (h : PagesFrame P k k') :
    KernelFrame P k k' :=
  ⟨h.guards, h.start, h.total, by rw [h.rest], fun a _ => by rw [h.rest], h.arrays, h.chunks,
    fun a _ => by rw [h.rest], fun a _ => by rw [h.rest]⟩

theorem KernelFrame.of_tasks {P : Set Int} {k : Kernel} {tasks : Tasks} (h : k.heap.Guards P)
    (hsame : ∀ a, k.heap.blockOf a ∈ P → (tasks.store a).map Task.pageDirectory =
      (k.scheduler.tasks.store a).map Task.pageDirectory) :
    KernelFrame P k { k with scheduler := { k.scheduler with tasks } } :=
  ⟨h, rfl, rfl, rfl, fun _ _ => rfl, fun _ _ => rfl, fun _ _ => rfl, fun _ _ => rfl, hsame⟩

/-! The links of the task list. -/

def SameDirectories (ts ts' : Tasks) : Prop :=
  ∀ a, (ts'.store a).map Task.pageDirectory = (ts.store a).map Task.pageDirectory

theorem SameDirectories.modify {ts ts' : Tasks} {task : Nat} {f : Task → Task}
    (h : ts.modify task f = some ts') (hf : ∀ t, (f t).pageDirectory = t.pageDirectory) :
    SameDirectories ts ts' := by
  unfold Tasks.modify at h
  obtain ⟨t, ht, heq⟩ := Option.map_eq_some_iff.mp h
  intro a
  rw [← heq]
  by_cases ha : a = task
  · rw [ha, ht]
    dsimp only
    rw [Function.update_self]
    exact congrArg some (hf t)
  · dsimp only
    rw [Function.update_of_ne ha]

theorem SameDirectories.of_store {ts ts' : Tasks} (h : ts'.store = ts.store) :
    SameDirectories ts ts' := fun a => by rw [h]

theorem SameDirectories.trans {ts ts' ts'' : Tasks} (h : SameDirectories ts ts')
    (h' : SameDirectories ts' ts'') : SameDirectories ts ts'' := fun a => (h' a).trans (h a)

theorem taskNewLink_sameDirectories {ts ts' : Tasks} {task : Nat} {t : Task}
    (h : taskNewLink ts task t = some ts') :
    (ts'.store task).map Task.pageDirectory = some t.pageDirectory ∧
      ∀ a ≠ task, (ts'.store a).map Task.pageDirectory = (ts.store a).map Task.pageDirectory := by
  let placed : Tasks := { ts with store := Function.update ts.store task (some t) }
  have hkept : SameDirectories placed ts' := by
    unfold taskNewLink at h
    dsimp only at h
    by_cases hempty : ts.taskHead = 0
    · rw [if_pos hempty, Option.some.injEq] at h
      rw [← h]
      exact .of_store rfl
    · rw [if_neg hempty] at h
      obtain ⟨ts₁, hnext, h⟩ := Option.bind_eq_some_iff.mp h
      obtain ⟨ts₂, hprev, h⟩ := Option.bind_eq_some_iff.mp h
      rw [Option.some.injEq] at h
      rw [← h]
      have hfirst : SameDirectories placed ts₁ := .modify hnext fun _ => rfl
      exact (hfirst.trans (.modify hprev fun _ => rfl)).trans (.of_store rfl)
  constructor
  · rw [hkept task]
    dsimp only [placed]
    rw [Function.update_self]
    rfl
  · intro a ha
    rw [hkept a]
    dsimp only [placed]
    rw [Function.update_of_ne ha]

theorem taskListRemove_sameDirectories {ts ts' : Tasks} {task : Nat}
    (h : taskListRemove ts task = some ts') : SameDirectories ts ts' := by
  unfold taskListRemove at h
  obtain ⟨ts₁, hlinks, hcursors⟩ := Option.bind_eq_some_iff.mp h
  have hfirst : SameDirectories ts ts₁ := by
    unfold taskListRemoveLinks at hlinks
    obtain ⟨t, -, hlinks⟩ := Option.bind_eq_some_iff.mp hlinks
    by_cases hprev : t.prev ≠ 0
    · rw [if_pos hprev] at hlinks
      exact .modify hlinks fun _ => rfl
    · rw [if_neg hprev, Option.some.injEq] at hlinks
      rw [hlinks]
      exact .of_store rfl
  refine hfirst.trans (.of_store ?_)
  unfold taskListRemoveCursors at hcursors
  obtain ⟨t, -, hcursors⟩ := Option.bind_eq_some_iff.mp hcursors
  dsimp only at hcursors
  split_ifs at hcursors <;>
    first
    | (obtain ⟨next, -, heq⟩ := Option.map_eq_some_iff.mp hcursors; rw [← heq])
    | (rw [Option.some.injEq] at hcursors; rw [← hcursors])

theorem taskFreeUnlink_sameDirectories {ts ts' : Tasks} {task : Nat}
    (h : taskFreeUnlink ts task = some ts') :
    ∀ a ≠ task, (ts'.store a).map Task.pageDirectory = (ts.store a).map Task.pageDirectory := by
  unfold taskFreeUnlink at h
  obtain ⟨ts₁, hremove, heq⟩ := Option.map_eq_some_iff.mp h
  intro a ha
  rw [← heq, ← taskListRemove_sameDirectories hremove a]
  dsimp only
  rw [Function.update_of_ne ha]

/-! The parts. -/

theorem IsDirectory.congr {s s' : PageStore} {directory : Nat} {tables : Nat → Nat}
    (h : IsDirectory s directory tables) (hdirectory : s'.arrays directory = s.arrays directory)
    (htables : ∀ i < 1024, s'.arrays (tables i) = s.arrays (tables i)) :
    IsDirectory s' directory tables := by
  refine ⟨by rw [hdirectory]; exact h.holds, fun i hi => ?_, h.apart, h.distinct⟩
  rw [htables i hi]
  exact h.present i hi

theorem Kernel.PageTree.frame {P S : Set Int} {k k' : Kernel} {chunk : Nat}
    (h : k.PageTree S chunk) (hframe : KernelFrame P k k') (hle : S ⊆ P) : k'.PageTree S chunk := by
  obtain ⟨hchunk, directory, tables, hentry, hdirectory, hdir, htables⟩ := h
  refine ⟨hchunk.congr hframe.start hframe.total, directory, tables, ?_,
    hdirectory.congr hframe.start hframe.total, ?_,
    fun i hi => (htables i hi).congr hframe.start hframe.total⟩
  · rw [hframe.chunks _ (hle hchunk.mem), hentry]
  · exact hdir.congr (hframe.arrays _ (Or.inr (hle hdirectory.mem)))
      fun i hi => hframe.arrays _ (Or.inr (hle (htables i hi).mem))

/-- A task and its page directory, in blocks of `T`. -/
structure Kernel.TaskTree (T : Set Int) (k : Kernel) (task : Nat) : Prop where
  block : k.heap.BlockIn T task
  pages : ∃ chunk, (k.scheduler.tasks.store task).map Task.pageDirectory = some chunk ∧
    k.PageTree T chunk

theorem Kernel.TaskTree.frame {P T : Set Int} {k k' : Kernel} {task : Nat}
    (h : k.TaskTree T task) (hframe : KernelFrame P k k') (hle : T ⊆ P) : k'.TaskTree T task := by
  obtain ⟨hblock, chunk, hchunk, htree⟩ := h
  refine ⟨hblock.congr hframe.start hframe.total, chunk, ?_, htree.frame hframe hle⟩
  rw [hframe.tasks _ (hle hblock.mem), hchunk]

theorem Kernel.PageTree.mono {S T : Set Int} {k : Kernel} {chunk : Nat} (h : k.PageTree S chunk)
    (hle : S ⊆ T) : k.PageTree T chunk := by
  obtain ⟨hchunk, directory, tables, hentry, hdirectory, hdir, htables⟩ := h
  exact ⟨hchunk.mono hle, directory, tables, hentry, hdirectory.mono hle, hdir,
    fun i hi => (htables i hi).mono hle⟩

theorem taskEntry_eq_ok {process ip : Nat} {k k' : Kernel}
    (h : taskEntry process k = .ok (ip, k')) : k' = k := by
  unfold taskEntry at h
  replace h := bind_get_eq_ok.mp h
  obtain ⟨p, _, hfetch, h⟩ := bind_eq_ok.mp h
  rw [← (fetch_eq_ok.mp hfetch).2] at h
  by_cases hfiletype : p.filetype = processFileTypeElf
  · rw [if_pos hfiletype] at h
    obtain ⟨file, _, hfetch, h⟩ := bind_eq_ok.mp h
    rw [← (fetch_eq_ok.mp hfetch).2] at h
    exact (pure_eq_ok.mp h).2.symm
  · rw [if_neg hfiletype] at h
    exact (pure_eq_ok.mp h).2.symm

theorem taskNew_spec {P : Set Int} {k k' : Kernel} {process task : Nat} (h : k.heap.Guards P)
    (hnull : k.pages.arrays 0 = none) (hrun : taskNew process k = .ok (task, k')) :
    KernelFrame P k k' ∧ task ≠ 0 ∧ (∃ T, k'.heap.GuardsMore P T ∧ k'.TaskTree T task) ∧
      k'.elfFiles = k.elfFiles ∧ ∃ pageDirectory ip tasks,
        taskNewLink k.scheduler.tasks task (taskInit pageDirectory process ip) = some tasks ∧
        k'.scheduler = { k.scheduler with tasks } := by
  unfold taskNew at hrun
  obtain ⟨ptr, k₁, halloc, hrun⟩ := bind_eq_ok.mp hrun
  by_cases hzero : ptr = 0
  · rw [if_pos hzero] at hrun
    exact (throw_eq_ok.mp hrun).elim
  rw [if_neg hzero] at hrun
  obtain ⟨hblock, hnew, hguards₁⟩ := kzalloc_new h (by decide) (by decide) halloc hzero
  have hframe₁ := PagesFrame.of_kzalloc h (by decide) halloc
  obtain ⟨chunk, k₂, hdirectory, hrun⟩ := bind_eq_ok.mp hrun
  obtain ⟨hframe₂, S, hmore, htree⟩ := pagingNew4gb_spec (by decide) hguards₁
    (by rw [hframe₁.arrays 0 (Or.inl rfl), hnull]) hdirectory
  obtain ⟨ip, k₃, hentry, hrun⟩ := bind_eq_ok.mp hrun
  rw [taskEntry_eq_ok hentry] at hrun
  obtain ⟨_, k₄, hlink, hrun⟩ := bind_eq_ok.mp hrun
  obtain ⟨hptr, hk'⟩ := pure_eq_ok.mp hrun
  rw [← hptr, ← hk']
  obtain ⟨tasks, hlinked, hk₄⟩ := tasksRun_eq_ok hlink
  obtain ⟨hself, hothers⟩ := taskNewLink_sameDirectories hlinked
  have hblock₂ : k₂.heap.blockOf ptr = k₁.heap.blockOf ptr := hframe₂.blockOf ptr
  have hframe : PagesFrame P k k₂ := hframe₁.trans (hframe₂.mono (Set.subset_insert ..))
  have hscheduler : k₂.scheduler = k.scheduler := by rw [hframe.rest]
  have hlast : KernelFrame P k₂ k₄ := by
    rw [hk₄]
    refine .of_tasks hframe.guards fun a ha => hothers a ?_
    rintro rfl
    rw [hblock₂] at ha
    exact hnew ha
  have hheap : k₄.heap = k₂.heap := by rw [hk₄]
  have hpages : k₄.pages = k₂.pages := by rw [hk₄]
  refine ⟨hframe.kernel.trans hlast, hzero, ⟨insert (k₁.heap.blockOf ptr) S, ?_, ?_, ?_⟩, ?_, chunk,
    ip, tasks, ?_, ?_⟩
  · rw [hheap]
    exact hmore.insert hnew
  · rw [hheap]
    refine ⟨hblock.congr hframe₂.start hframe₂.total, ?_⟩
    rw [hblock₂]
    exact Set.mem_insert ..
  · refine ⟨chunk, ?_, ?_⟩
    · rw [hk₄]
      exact hself
    · unfold Kernel.PageTree
      rw [hheap, hpages]
      exact htree.mono (Set.subset_insert ..)
  · rw [hk₄, hframe.rest]
  · rw [← hscheduler]
    exact hlinked
  · rw [hk₄, ← hscheduler]

theorem taskFree_spec {P T : Set Int} {k k' : Kernel} {task : Nat} {u : Unit}
    (hguards : k.heap.GuardsMore P T) (h : k.TaskTree T task)
    (hrun : taskFree task k = .ok (u, k')) :
    KernelFrame P k k' ∧ ∃ tasks, taskFreeUnlink k.scheduler.tasks task = some tasks ∧
      k'.scheduler = { k.scheduler with tasks } := by
  obtain ⟨hblock, chunk, hchunk, htree⟩ := h
  unfold taskFree at hrun
  replace hrun := bind_get_eq_ok.mp hrun
  obtain ⟨t, ht, hrun⟩ := bind_fetch_eq_ok.mp hrun
  rw [ht, Option.map_some, Option.some.injEq] at hchunk
  rw [hchunk] at hrun
  obtain ⟨_, k₁, hpages, hrun⟩ := bind_eq_ok.mp hrun
  obtain ⟨hframe₁, hkeeps⟩ := pagingFree4gb_spec hguards htree hpages
  obtain ⟨_, k₂, hunlink, hrun⟩ := bind_eq_ok.mp hrun
  obtain ⟨tasks, hunlinked, hk₂⟩ := tasksRun_eq_ok hunlink
  have hscheduler : k₁.scheduler = k.scheduler := by rw [hframe₁.rest]
  have hframe₂ : KernelFrame P k₁ k₂ := by
    rw [hk₂]
    refine .of_tasks hframe₁.guards fun a ha => taskFreeUnlink_sameDirectories hunlinked a ?_
    rintro rfl
    rw [hframe₁.blockOf] at ha
    exact hguards.apart _ hblock.mem ha
  have hheap : k₂.heap = k₁.heap := by rw [hk₂]
  have hfreeable : k₂.heap.Freeable P task := by
    rw [hheap]
    exact hkeeps P _ (hguards.freeable hblock)
  obtain ⟨hframe₃, -, -⟩ := PagesFrame.of_kfree hframe₂.guards hfreeable hrun
  refine ⟨(hframe₁.kernel.trans hframe₂).trans hframe₃.kernel, tasks, ?_, ?_⟩
  · rw [← hscheduler]
    exact hunlinked
  · rw [hframe₃.rest, hk₂, ← hscheduler]

/-! Mapping. -/

structure TaskMapped (P T : Set Int) (task : Nat) (k k' : Kernel) : Prop where
  frame : KernelFrame P k k'
  tree : k'.TaskTree T task
  rest : k' = { k with pages := k'.pages }

theorem TaskMapped.guards {P T : Set Int} {task : Nat} {k k' : Kernel}
    (h : TaskMapped P T task k k') (hguards : k.heap.GuardsMore P T) :
    k'.heap.GuardsMore P T := by
  rw [h.rest]
  exact hguards

theorem TaskMapped.trans {P T : Set Int} {task : Nat} {k k' k'' : Kernel}
    (h : TaskMapped P T task k k') (h' : TaskMapped P T task k' k'') :
    TaskMapped P T task k k'' := by
  refine ⟨h.frame.trans h'.frame, h'.tree, ?_⟩
  have hrest := h'.rest
  rw [h.rest] at hrest
  exact hrest

theorem Kernel.TaskTree.mapped {P T : Set Int} {k : Kernel} {task : Nat} {t : Task} {s : PageStore}
    (h : k.TaskTree T task) (hguards : k.heap.GuardsMore P T)
    (ht : k.scheduler.tasks.store task = some t)
    (hmap : ∀ directory tables, IsDirectory k.pages directory tables →
      k.pages.chunks t.pageDirectory = some directory → MapFrame directory tables k.pages s) :
    TaskMapped P T task k { k with pages := s } := by
  obtain ⟨hblock, chunk, hchunk, hchunkBlock, directory, tables, hentry, hdirectory, hdir, htables⟩ :=
    h
  rw [ht, Option.map_some, Option.some.injEq] at hchunk
  subst hchunk
  have hmapped := hmap directory tables hdir hentry
  have hwf := hguards.guards.wellFormed
  refine ⟨(PagesFrame.of_map hguards.left hmapped fun i hi =>
    ⟨(htables i hi).block.ne_zero hwf, hguards.apart _ (htables i hi).mem⟩).kernel,
    ⟨hblock, t.pageDirectory, ?_, hchunkBlock, directory, tables, ?_, hdirectory,
      hmapped.directory, htables⟩, rfl⟩
  · change (k.scheduler.tasks.store task).map Task.pageDirectory = some t.pageDirectory
    rw [ht]
    rfl
  · change s.chunks t.pageDirectory = some directory
    rw [hmapped.chunks, hentry]

theorem pagingMapTo_result {s s' : PageStore} {chunk v p e flags : Nat} {res : Int}
    (hv : v % 4096 = 0) (hp : p % 4096 = 0) (he : e % 4096 = 0)
    (h : pagingMapTo s chunk v p e flags = .ok (res, s')) : res < 0 ∨ res = 0 := by
  rcases pagingMapTo_entered hv hp he h with ⟨-, hres, -⟩ | ⟨-, hres, -⟩
  · exact Or.inl (by rw [hres]; decide)
  · exact Or.inr hres

theorem processMapElfLoop_frame {directory chunk : Nat} {tables : Nat → Nat} {file : ElfFile}
    {phdrs : List Elf32Phdr} {s s' : PageStore} {res res' : Int}
    (hvaddr : ∀ phdr ∈ phdrs, phdr.pVaddr < 4294967296) (hdir : IsDirectory s directory tables)
    (hchunk : s.chunks chunk = some directory) (hres : res = 0)
    (hrun : processMapElfLoop chunk file phdrs res s = .ok (res', s')) :
    MapFrame directory tables s s' ∧ (res' < 0 ∨ res' = 0) := by
  induction phdrs generalizing s res with
  | nil =>
    rw [processMapElfLoop, Except.ok.injEq, Prod.mk.injEq] at hrun
    rw [← hrun.2, ← hrun.1]
    exact ⟨.refl hdir, Or.inr hres⟩
  | cons phdr rest ih =>
    unfold processMapElfLoop at hrun
    cases hmap : processMapElfPhdr chunk file phdr s with
    | error stop =>
      rw [hmap] at hrun
      cases hrun
    | ok r =>
      obtain ⟨res₁, s₁⟩ := r
      rw [hmap] at hrun
      dsimp only [Except.bind] at hrun
      have hframe := pagingMapTo_frame hdir hchunk
        (pagingAlignToLowerPage_lt (hvaddr phdr (List.mem_cons_self ..))) hmap
      have hresult := pagingMapTo_result (pagingAlignToLowerPage_aligned _)
        (pagingAlignToLowerPage_aligned _) (pagingAlignAddress_aligned _) hmap
      by_cases hneg : res₁ < 0
      · rw [if_pos hneg, Except.ok.injEq, Prod.mk.injEq] at hrun
        rw [← hrun.2, ← hrun.1]
        exact ⟨hframe, hresult⟩
      · rw [if_neg hneg] at hrun
        obtain ⟨hrest, hlast⟩ := ih (fun p hp => hvaddr p (List.mem_cons_of_mem _ hp))
          hframe.directory (by rw [hframe.chunks, hchunk]) (hresult.resolve_left hneg) hrun
        exact ⟨hframe.trans hrest, hlast⟩

theorem pagingRun_mapped {P T : Set Int} {k k' : Kernel} {task : Nat} {t : Task} {res : Int}
    {f : PageStore → Except Stop (Int × PageStore)} (h : k.TaskTree T task)
    (hguards : k.heap.GuardsMore P T) (ht : k.scheduler.tasks.store task = some t)
    (hf : ∀ directory tables s res, IsDirectory k.pages directory tables →
      k.pages.chunks t.pageDirectory = some directory → f k.pages = .ok (res, s) →
      MapFrame directory tables k.pages s ∧ (res < 0 ∨ res = 0))
    (hrun : pagingRun f k = .ok (res, k')) :
    TaskMapped P T task k k' ∧ (res < 0 ∨ res = 0) := by
  obtain ⟨s, hpages, hk'⟩ := pagingRun_eq_ok hrun
  obtain ⟨-, chunk, hchunk, -, directory, tables, hentry, -, hdir, -⟩ := id h
  rw [ht, Option.map_some, Option.some.injEq] at hchunk
  rw [← hchunk] at hentry
  obtain ⟨-, hresult⟩ := hf directory tables s res hdir hentry hpages
  rw [hk']
  exact ⟨h.mapped hguards ht fun directory tables hdir hentry =>
    (hf directory tables s res hdir hentry hpages).1, hresult⟩

theorem processMapStack_spec {P T : Set Int} {k k' : Kernel} {process : Nat} {p : Process}
    {res : Int} (hp : k.scheduler.store process = some p) (h : k.TaskTree T p.task)
    (hguards : k.heap.GuardsMore P T) (hstack : p.stack % 4096 = 0)
    (hrun : processMapStack process k = .ok (res, k')) :
    TaskMapped P T p.task k k' ∧ (res < 0 ∨ res = 0) := by
  unfold processMapStack at hrun
  replace hrun := bind_get_eq_ok.mp hrun
  obtain ⟨p', hp', hrun⟩ := bind_fetch_eq_ok.mp hrun
  obtain rfl := Option.some.inj (hp'.symm.trans hp)
  obtain ⟨t, ht, hrun⟩ := bind_fetch_eq_ok.mp hrun
  refine pagingRun_mapped h hguards ht (fun directory tables s res hdir hentry hmap => ?_) hrun
  exact ⟨pagingMapTo_frame hdir hentry (by decide) hmap,
    pagingMapTo_result (by decide) hstack (pagingAlignAddress_aligned _) hmap⟩

theorem processMapBinary_spec {P T : Set Int} {k k' : Kernel} {process : Nat} {p : Process}
    {res : Int} (hp : k.scheduler.store process = some p) (h : k.TaskTree T p.task)
    (hguards : k.heap.GuardsMore P T) (hptr : p.ptr % 4096 = 0)
    (hrun : processMapBinary process k = .ok (res, k')) :
    TaskMapped P T p.task k k' ∧ (res < 0 ∨ res = 0) := by
  unfold processMapBinary at hrun
  replace hrun := bind_get_eq_ok.mp hrun
  obtain ⟨p', hp', hrun⟩ := bind_fetch_eq_ok.mp hrun
  obtain rfl := Option.some.inj (hp'.symm.trans hp)
  obtain ⟨t, ht, hrun⟩ := bind_fetch_eq_ok.mp hrun
  refine pagingRun_mapped h hguards ht (fun directory tables s res hdir hentry hmap => ?_) hrun
  exact ⟨pagingMapTo_frame hdir hentry (by decide) hmap,
    pagingMapTo_result (by decide) hptr (pagingAlignAddress_aligned _) hmap⟩

theorem processMapElf_spec {P T : Set Int} {k k' : Kernel} {process : Nat} {p : Process}
    {res : Int} (hp : k.scheduler.store process = some p) (h : k.TaskTree T p.task)
    (hguards : k.heap.GuardsMore P T) (hrun : processMapElf process k = .ok (res, k')) :
    TaskMapped P T p.task k k' ∧ (res < 0 ∨ res = 0) := by
  unfold processMapElf at hrun
  replace hrun := bind_get_eq_ok.mp hrun
  obtain ⟨p', hp', hrun⟩ := bind_fetch_eq_ok.mp hrun
  obtain rfl := Option.some.inj (hp'.symm.trans hp)
  obtain ⟨file, -, hrun⟩ := bind_fetch_eq_ok.mp hrun
  obtain ⟨t, ht, hrun⟩ := bind_fetch_eq_ok.mp hrun
  refine pagingRun_mapped h hguards ht (fun directory tables s res hdir hentry hmap => ?_) hrun
  exact processMapElfLoop_frame elfFilePhdrs_pVaddr_lt hdir hentry rfl hmap

theorem processMapMemory_spec {P T : Set Int} {k k' : Kernel} {process : Nat} {p : Process}
    {res : Int} (hp : k.scheduler.store process = some p) (h : k.TaskTree T p.task)
    (hguards : k.heap.GuardsMore P T) (hptr : p.ptr % 4096 = 0) (hstack : p.stack % 4096 = 0)
    (hrun : processMapMemory process k = .ok (res, k')) :
    TaskMapped P T p.task k k' ∧ (res < 0 ∨ res = 0) := by
  have hthen {k₁ : Kernel} {res₁ : Int} (hmapped : TaskMapped P T p.task k k₁)
      (hresult : res₁ < 0 ∨ res₁ = 0)
      (hrest : (if res₁ < 0 then pure res₁ else processMapStack process : KernelM Int) k₁ =
        .ok (res, k')) : TaskMapped P T p.task k k' ∧ (res < 0 ∨ res = 0) := by
    by_cases hneg : res₁ < 0
    · rw [if_pos hneg] at hrest
      obtain ⟨hres, hk'⟩ := pure_eq_ok.mp hrest
      rw [← hres, ← hk']
      exact ⟨hmapped, hresult⟩
    · rw [if_neg hneg] at hrest
      have hp₁ : k₁.scheduler.store process = some p := by
        rw [hmapped.rest]
        exact hp
      obtain ⟨hlast, hresult⟩ :=
        processMapStack_spec hp₁ hmapped.tree (hmapped.guards hguards) hstack hrest
      exact ⟨hmapped.trans hlast, hresult⟩
  unfold processMapMemory at hrun
  replace hrun := bind_get_eq_ok.mp hrun
  obtain ⟨p', hp', hrun⟩ := bind_fetch_eq_ok.mp hrun
  obtain rfl := Option.some.inj (hp'.symm.trans hp)
  by_cases helf : p'.filetype = processFileTypeElf
  · rw [if_pos helf] at hrun
    obtain ⟨res₁, k₁, hmap, hrun⟩ := bind_eq_ok.mp hrun
    obtain ⟨hmapped, hresult⟩ := processMapElf_spec hp h hguards hmap
    exact hthen hmapped hresult hrun
  · rw [if_neg helf] at hrun
    by_cases hbinary : p'.filetype = processFileTypeBin
    · rw [if_pos hbinary] at hrun
      obtain ⟨res₁, k₁, hmap, hrun⟩ := bind_eq_ok.mp hrun
      obtain ⟨hmapped, hresult⟩ := processMapBinary_spec hp h hguards hptr hmap
      exact hthen hmapped hresult hrun
    · rw [if_neg hbinary] at hrun
      exact (throw_eq_ok.mp hrun).elim

/-! A process with all that belongs to it. -/

theorem Kernel.ElfTree.frame {P S : Set Int} {k k' : Kernel} {elfFile : Nat}
    (h : k.ElfTree S elfFile) (hframe : KernelFrame P k k') (hle : S ⊆ P) :
    k'.ElfTree S elfFile := by
  obtain ⟨hblock, file, hfile, hmemory⟩ := h
  refine ⟨hblock.congr hframe.start hframe.total, file, ?_,
    hmemory.imp_right fun hin => hin.congr hframe.start hframe.total⟩
  rw [hframe.elfFiles _ (Or.inr (hle hblock.mem)), hfile]

theorem Kernel.ProgramTree.frame {P S : Set Int} {k k' : Kernel} {p : Process}
    (h : k.ProgramTree S p) (hframe : KernelFrame P k k') (hle : S ⊆ P) : k'.ProgramTree S p := by
  rcases h with ⟨htype, helf⟩ | ⟨htype, hbinary⟩
  · exact Or.inl ⟨htype, helf.frame hframe hle⟩
  · exact Or.inr ⟨htype, hbinary.congr hframe.start hframe.total⟩

theorem Kernel.ProgramTree.mono {S S' : Set Int} {k : Kernel} {p : Process} (h : k.ProgramTree S p)
    (hle : S ⊆ S') : k.ProgramTree S' p := by
  rcases h with ⟨htype, hblock, file, hfile, hmemory⟩ | ⟨htype, hbinary⟩
  · exact Or.inl ⟨htype, hblock.mono hle, file, hfile, hmemory.imp_right (·.mono hle)⟩
  · exact Or.inr ⟨htype, hbinary.mono hle⟩

theorem Kernel.ProgramTree.block {S : Set Int} {k : Kernel} {p : Process} (h : k.ProgramTree S p) :
    k.heap.BlockIn S p.ptr := by
  rcases h with ⟨-, helf⟩ | ⟨-, hbinary⟩
  · exact helf.1
  · exact hbinary

theorem Kernel.ProgramTree.putProcess {S : Set Int} {k : Kernel} {p p' q : Process}
    {process : Nat} (h : k.ProgramTree S p) (htype : p'.filetype = p.filetype)
    (hptr : p'.ptr = p.ptr) : (BoiOS.putProcess process q k).ProgramTree S p' := by
  unfold Kernel.ProgramTree
  rw [htype, hptr]
  exact h

/-- The image and the stack of a process are in blocks of `S`, its task is in blocks of `T`, and it
has not asked for any memory. -/
structure Kernel.ProcessTree (S T : Set Int) (k : Kernel) (process : Nat) (p : Process) : Prop where
  stored : k.scheduler.store process = some p
  program : k.ProgramTree S p
  stack : k.heap.BlockIn S p.stack
  task : k.TaskTree T p.task
  allocations : ∀ i < boiosMaxProgramAllocations, (p.allocations i).ptr = 0

/-- The blocks of `Q`, of `S` and of `T` are held and apart. -/
structure Heap.GuardsBoth (Q S T : Set Int) (heap : Heap) : Prop where
  guards : heap.Guards (Q ∪ S ∪ T)
  apart : ∀ b ∈ S, b ∉ Q
  apartTask : ∀ b ∈ T, b ∉ Q ∪ S

theorem Heap.GuardsBoth.more {Q S T : Set Int} {heap : Heap} (h : heap.GuardsBoth Q S T) :
    heap.GuardsMore (Q ∪ S) T := ⟨h.guards, h.apartTask⟩

theorem Heap.GuardsBoth.image {Q S T : Set Int} {heap : Heap} (h : heap.GuardsBoth Q S T) :
    heap.GuardsMore (Q ∪ T) S := by
  refine ⟨by rw [Set.union_right_comm]; exact h.guards, fun b hb hin => ?_⟩
  rcases hin with hQ | hT
  · exact h.apart b hb hQ
  · exact h.apartTask b hT (Or.inr hb)

theorem Heap.GuardsBoth.left {Q S T : Set Int} {heap : Heap} (h : heap.GuardsBoth Q S T) :
    heap.Guards Q :=
  h.guards.mono (Set.subset_union_left.trans Set.subset_union_left)

structure SameLists (s s' : Scheduler) : Prop where
  processes : s'.processes = s.processes
  currentProcess : s'.currentProcess = s.currentProcess
  tasks : s'.tasks = s.tasks

theorem SameLists.refl (s : Scheduler) : SameLists s s := ⟨rfl, rfl, rfl⟩

theorem SameLists.trans {s s' s'' : Scheduler} (h : SameLists s s') (h' : SameLists s' s'') :
    SameLists s s'' :=
  ⟨h'.processes.trans h.processes, h'.currentProcess.trans h.currentProcess,
    h'.tasks.trans h.tasks⟩

theorem SameLists.of_eq {s s' : Scheduler} (h : s' = s) : SameLists s s' := by
  rw [h]
  exact .refl s

/-- A new process is linked into the task list and, if its load failed, out of it again. -/
inductive TasksLeft (P : Set Int) (process : Nat) (k k' : Kernel) : Prop
  | same (h : k'.scheduler.tasks = k.scheduler.tasks)
  | freed {task pageDirectory ip : Nat} {linked : Tasks} (hnull : task ≠ 0)
      (hnew : k.heap.blockOf task ∉ P)
      (hlink : taskNewLink k.scheduler.tasks task (taskInit pageDirectory process ip) = some linked)
      (hunlink : taskFreeUnlink linked task = some k'.scheduler.tasks)

/-- What a load that failed leaves behind: the structure of the process stays taken. -/
structure LoadFailed (P : Set Int) (k k' : Kernel) (process : Nat) : Prop where
  frame : KernelFrame P k k'
  free : k.heap.table.IsFree (k.heap.blockOf process)
  held : k'.heap.Guards (insert (k.heap.blockOf process) P)
  processes : k'.scheduler.processes = k.scheduler.processes
  currentProcess : k'.scheduler.currentProcess = k.scheduler.currentProcess
  tasks : TasksLeft P process k k'

/-- What a load that succeeded leaves: the process in its slot, with its parts. -/
structure ProcessLoaded (P : Set Int) (slot : Nat) (k k' : Kernel) (process : Nat) : Prop where
  frame : KernelFrame P k k'
  nonnull : process ≠ 0
  free : k.heap.table.IsFree (k.heap.blockOf process)
  block : k'.heap.IsBlock process
  processes : k'.scheduler.processes = Function.update k.scheduler.processes slot process
  currentProcess : k'.scheduler.currentProcess = k.scheduler.currentProcess
  tree : ∃ S T p, k'.heap.GuardsBoth (insert (k.heap.blockOf process) P) S T ∧
    k'.ProcessTree S T process p ∧ p.pid = slot
  tasks : ∃ task pageDirectory ip, task ≠ 0 ∧ k.heap.blockOf task ∉ P ∧
    taskNewLink k.scheduler.tasks task (taskInit pageDirectory process ip) =
      some k'.scheduler.tasks

/-! Loading. -/

theorem processLoadFailed_none {process : Nat} {p : Process} {res : Int} {r : Int × Nat}
    {k k' : Kernel} (hp : k.scheduler.store process = some p) (htask : p.task = 0)
    (hrun : processLoadFailed process res k = .ok (r, k')) : r = (res, 0) ∧ k' = k := by
  unfold processLoadFailed at hrun
  rw [bind_of_ok (get_apply k), bind_of_ok (fetch_eq_ok.mpr ⟨hp, rfl⟩),
    if_neg (not_not.mpr htask)] at hrun
  obtain ⟨hr, hk'⟩ := pure_eq_ok.mp hrun
  exact ⟨hr.symm, hk'.symm⟩

theorem processLoadFailed_task {P T : Set Int} {process : Nat} {p : Process} {res : Int}
    {r : Int × Nat} {k k' : Kernel} (hp : k.scheduler.store process = some p) (htask : p.task ≠ 0)
    (hguards : k.heap.GuardsMore P T) (h : k.TaskTree T p.task)
    (hrun : processLoadFailed process res k = .ok (r, k')) :
    r = (res, 0) ∧ KernelFrame P k k' ∧
      ∃ tasks, taskFreeUnlink k.scheduler.tasks p.task = some tasks ∧
        k'.scheduler = { k.scheduler with tasks } := by
  unfold processLoadFailed at hrun
  rw [bind_of_ok (get_apply k), bind_of_ok (fetch_eq_ok.mpr ⟨hp, rfl⟩), if_pos htask] at hrun
  obtain ⟨_, k₁, hfree, hrun⟩ := bind_eq_ok.mp hrun
  obtain ⟨hr, hk'⟩ := pure_eq_ok.mp hrun
  obtain ⟨hframe, htasks⟩ := taskFree_spec hguards h hfree
  rw [← hk']
  exact ⟨hr.symm, hframe, htasks⟩

/-- There is no object at null. -/
structure Kernel.NullFree (k : Kernel) : Prop where
  items : k.fatItems 0 = none
  elfFiles : k.elfFiles 0 = none
  arrays : k.pages.arrays 0 = none

theorem Kernel.NullFree.frame {P : Set Int} {k k' : Kernel} (h : k.NullFree)
    (hframe : KernelFrame P k k') : k'.NullFree :=
  ⟨hframe.null.trans h.items, (hframe.elfFiles 0 (Or.inl rfl)).trans h.elfFiles,
    (hframe.arrays 0 (Or.inl rfl)).trans h.arrays⟩

/-- A load under way: the structure of the process is in a block that was free, what was obtained
for it so far in blocks of `S`. -/
structure Loading (P S : Set Int) (k k₁ : Kernel) (process : Nat) (p : Process) : Prop where
  frame : KernelFrame P k k₁
  guards : k₁.heap.GuardsMore (insert (k.heap.blockOf process) P) S
  fresh : k.heap.blockOf process ∉ P
  free : k.heap.table.IsFree (k.heap.blockOf process)
  block : k₁.heap.IsBlock process
  stored : k₁.scheduler.store process = some p
  lists : SameLists k.scheduler k₁.scheduler

theorem subset_insert_union {P S : Set Int} {b : Int} : P ⊆ insert b P ∪ S :=
  (Set.subset_insert ..).trans Set.subset_union_left

namespace Loading

variable {P S : Set Int} {k k₁ k₂ : Kernel} {process : Nat} {p : Process}

theorem failed (h : Loading P S k k₁ process p) {res : Int} {r : Int × Nat} (htask : p.task = 0)
    (hrun : processLoadFailed process res k₁ = .ok (r, k₂)) :
    r.1 = res ∧ LoadFailed P k k₂ process := by
  obtain ⟨hr, hk₂⟩ := processLoadFailed_none h.stored htask hrun
  rw [hr, hk₂]
  exact ⟨rfl, h.frame, h.free, h.guards.left, h.lists.processes, h.lists.currentProcess,
    .same h.lists.tasks⟩

theorem modify (h : Loading P S k k₁ process p) {f : Process → Process} {u : Unit}
    (hrun : modifyProcess process f k₁ = .ok (u, k₂)) :
    Loading P S k k₂ process (f p) ∧ k₂ = putProcess process (f p) k₁ := by
  obtain ⟨p', hp', hk₂⟩ := modifyProcess_eq_ok hrun
  obtain rfl := Option.some.inj (hp'.symm.trans h.stored)
  have hput : KernelFrame P k₁ (putProcess process (f p') k₁) :=
    .of_putProcess h.frame.guards (by rw [h.frame.blockOf]; exact h.fresh) _
  rw [hk₂]
  exact ⟨⟨h.frame.trans hput, h.guards, h.fresh, h.free, h.block, putProcess_store_self ..,
    ⟨h.lists.processes, h.lists.currentProcess, h.lists.tasks⟩⟩, rfl⟩

theorem start (h : k.heap.Guards P) (hrun : kzallocObject sizeofProcess
      (fun ptr => putProcess ptr processInit) k = .ok (process, k₁)) (hnull : process ≠ 0) :
    Loading P ∅ k k₁ process processInit := by
  obtain ⟨k₀, halloc, hk₁⟩ := kzallocObject_eq_ok hrun
  rw [if_neg hnull] at hk₁
  obtain ⟨hobtained, hk₀⟩ := kzalloc_obtained h (by decide) halloc
  obtain ⟨-, hfree, -⟩ := hobtained.block.resolve_left hnull
  obtain ⟨hblock, hnew, hguards⟩ := kzalloc_new h (by decide) (by decide) halloc hnull
  have hframe := (PagesFrame.of_kzalloc h (by decide) halloc).kernel
  have hput : KernelFrame P k₀ (putProcess process processInit k₀) :=
    .of_putProcess hframe.guards hnew _
  have hscheduler : k₀.scheduler = k.scheduler := by rw [hk₀]
  rw [hframe.blockOf] at hnew hguards
  rw [hk₁]
  refine ⟨hframe.trans hput, .none hguards, hnew, hfree, hblock, putProcess_store_self .., ?_⟩
  rw [← hscheduler]
  exact ⟨rfl, rfl, rfl⟩

theorem data (h : Loading P ∅ k k₁ process p) (hnull : k.NullFree) {filename : List UInt8}
    {res : Int} (h0 : 0 ∉ filename) (hrun : processLoadData filename process k₁ = .ok (res, k₂)) :
    res < 0 ∧ Loading P ∅ k k₂ process p ∨
      res = 0 ∧ ∃ S filetype ptr size,
        Loading P S k k₂ process { p with filetype := filetype, ptr := ptr, size := size } ∧
        k₂.ProgramTree S { p with filetype := filetype, ptr := ptr, size := size } := by
  have hnull₁ := hnull.frame h.frame
  have hload := processLoadData_spec h.guards.left (Set.subset_insert ..) hnull₁.items
    hnull₁.elfFiles h0 h.stored (by rw [h.frame.blockOf]; exact h.fresh) hrun
  have hblock : k₂.heap.IsBlock process := h.block.congr hload.frame.start hload.frame.total
  rcases hload.result with ⟨hneg, hsame⟩ | ⟨hok, S, hmore, filetype, ptr, size, hsame, htree⟩
  · refine Or.inl ⟨hneg, h.frame.trans hload.frame, .none hload.guards, h.fresh, h.free, hblock, ?_,
      h.lists.trans (.of_eq hsame)⟩
    rw [hsame, h.stored]
  · refine Or.inr ⟨hok, S, filetype, ptr, size, ⟨h.frame.trans hload.frame, hmore, h.fresh, h.free,
      hblock, ?_, ?_⟩, htree⟩
    · rw [hsame]
      exact Function.update_self ..
    · rw [hsame]
      exact ⟨h.lists.processes, h.lists.currentProcess, h.lists.tasks⟩

theorem stack (h : Loading P S k k₁ process p) {ptr : Nat} (htree : k₁.ProgramTree S p)
    (hrun : kzalloc boiosUserProgramStackSize k₁ = .ok (ptr, k₂)) :
    ∃ S', Loading P S' k k₂ process p ∧ k₂.ProgramTree S' p ∧
      (ptr ≠ 0 → k₂.heap.BlockIn S' ptr) := by
  have hguards := h.guards.guards
  have hframe := (PagesFrame.of_kzalloc hguards (by decide) hrun)
  have hkernel : KernelFrame P k k₂ := h.frame.trans
    (hframe.mono ((Set.subset_insert ..).trans Set.subset_union_left)).kernel
  have hscheduler : k₂.scheduler = k₁.scheduler := by rw [hframe.rest]
  have hblock := h.block.congr hframe.start hframe.total
  have hstored : k₂.scheduler.store process = some p := by rw [hscheduler, h.stored]
  have hlists := h.lists.trans (.of_eq hscheduler)
  have hprogram := htree.frame hframe.kernel Set.subset_union_right
  by_cases hnull : ptr = 0
  · exact ⟨S, ⟨hkernel, ⟨hframe.guards, h.guards.apart⟩, h.fresh, h.free, hblock, hstored, hlists⟩,
      hprogram, fun hne => (hne hnull).elim⟩
  · obtain ⟨hptr, hnew, hguards₂⟩ := kzalloc_new hguards (by decide) (by decide) hrun hnull
    have hmore : k₂.heap.GuardsMore (insert (k.heap.blockOf process) P)
        (insert (k₂.heap.blockOf ptr) S) := by
      refine ⟨by rw [Set.union_insert]; exact hguards₂, fun b hb => ?_⟩
      rcases Set.mem_insert_iff.mp hb with hself | hold
      · rw [hself]
        exact fun hin => hnew (Or.inl hin)
      · exact h.guards.apart b hold
    exact ⟨_, ⟨hkernel, hmore, h.fresh, h.free, hblock, hstored, hlists⟩,
      hprogram.mono (Set.subset_insert ..), fun _ => ⟨hptr, Set.mem_insert ..⟩⟩

structure WithTask (P S T : Set Int) (k k₁ : Kernel) (process : Nat) (p : Process) : Prop where
  frame : KernelFrame P k k₁
  guards : k₁.heap.GuardsBoth (insert (k.heap.blockOf process) P) S T
  fresh : k.heap.blockOf process ∉ P
  free : k.heap.table.IsFree (k.heap.blockOf process)
  block : k₁.heap.IsBlock process
  tree : k₁.ProcessTree S T process p
  processes : k₁.scheduler.processes = k.scheduler.processes
  currentProcess : k₁.scheduler.currentProcess = k.scheduler.currentProcess
  tasks : p.task ≠ 0 ∧ k.heap.blockOf p.task ∉ P ∧ ∃ pageDirectory ip,
    taskNewLink k.scheduler.tasks p.task (taskInit pageDirectory process ip) =
      some k₁.scheduler.tasks

theorem task (h : Loading P S k k₁ process p) (hnull : k.NullFree) (hprogram : k₁.ProgramTree S p)
    (hstack : k₁.heap.BlockIn S p.stack)
    (hallocations : ∀ i < boiosMaxProgramAllocations, (p.allocations i).ptr = 0)
    {task : Nat} {k₂ k₃ : Kernel} {u : Unit} (hnew : taskNew process k₁ = .ok (task, k₂))
    (hset : modifyProcess process (fun p => { p with task }) k₂ = .ok (u, k₃)) :
    ∃ T, WithTask P S T k k₃ process { p with task } := by
  have hin : k₁.heap.blockOf process ∈ insert (k.heap.blockOf process) P := by
    rw [h.frame.blockOf]
    exact Set.mem_insert ..
  obtain ⟨hframe, hne, ⟨T, hmore, htask⟩, helfFiles, pageDirectory, ip, tasks, hlink, hscheduler⟩ :=
    taskNew_spec h.guards.guards (hnull.frame h.frame).arrays hnew
  obtain ⟨p', hp', hk₃⟩ := modifyProcess_eq_ok hset
  rw [hframe.processes process (Or.inl hin), h.stored, Option.some.injEq] at hp'
  subst hp'
  have hle : P ⊆ insert (k.heap.blockOf process) P ∪ S := subset_insert_union
  have hframe₂ : KernelFrame P k k₂ := h.frame.trans (hframe.mono hle)
  have hput : KernelFrame P k₂ k₃ := by
    rw [hk₃]
    exact .of_putProcess hframe₂.guards (by rw [hframe₂.blockOf]; exact h.fresh) _
  refine ⟨T, hframe₂.trans hput, ?_, h.fresh, h.free, ?_, ⟨?_, ?_, ?_, ?_, ?_⟩, ?_, ?_, hne, ?_,
    pageDirectory, ip, ?_⟩
  · rw [hk₃]
    exact ⟨hmore.guards, h.guards.apart, hmore.apart⟩
  · rw [hk₃]
    exact h.block.congr hframe.start hframe.total
  · rw [hk₃]
    exact putProcess_store_self ..
  · rw [hk₃]
    exact (hprogram.frame hframe Set.subset_union_right).putProcess rfl rfl
  · rw [hk₃]
    exact hstack.congr hframe.start hframe.total
  · rw [hk₃]
    exact ⟨htask.block, htask.pages⟩
  · exact hallocations
  · rw [hk₃]
    change k₂.scheduler.processes = _
    rw [hscheduler]
    exact h.lists.processes
  · rw [hk₃]
    change k₂.scheduler.currentProcess = _
    rw [hscheduler]
    exact h.lists.currentProcess
  · intro hP
    refine hmore.apart _ htask.block.mem (hle ?_)
    rw [hframe₂.blockOf]
    exact hP
  · rw [hk₃, ← h.lists.tasks, hlink]
    change _ = some k₂.scheduler.tasks
    rw [hscheduler]

namespace WithTask

variable {T : Set Int}

theorem mapped (h : WithTask P S T k k₁ process p) {res : Int}
    (hrun : processMapMemory process k₁ = .ok (res, k₂)) :
    WithTask P S T k k₂ process p ∧ (res < 0 ∨ res = 0) := by
  have hwf := h.guards.guards.wellFormed
  obtain ⟨hmapped, hresult⟩ := processMapMemory_spec h.tree.stored h.tree.task h.guards.more
    (h.tree.program.block.block.aligned hwf) (h.tree.stack.block.aligned hwf) hrun
  have hheap : k₂.heap = k₁.heap := by rw [hmapped.rest]
  have hscheduler : k₂.scheduler = k₁.scheduler := by rw [hmapped.rest]
  have hprogram := h.tree.program.frame hmapped.frame Set.subset_union_right
  refine ⟨⟨h.frame.trans (hmapped.frame.mono subset_insert_union), ?_, h.fresh, h.free, ?_,
    ⟨?_, hprogram, ?_, hmapped.tree, h.tree.allocations⟩, ?_, ?_, ?_⟩, hresult⟩
  · rw [hheap]
    exact h.guards
  · rw [hheap]
    exact h.block
  · rw [hscheduler]
    exact h.tree.stored
  · rw [hheap]
    exact h.tree.stack
  · rw [hscheduler]
    exact h.processes
  · rw [hscheduler]
    exact h.currentProcess
  · rw [hscheduler]
    exact h.tasks

theorem failed (h : WithTask P S T k k₁ process p) {res : Int} {r : Int × Nat}
    (hrun : processLoadFailed process res k₁ = .ok (r, k₂)) :
    r.1 = res ∧ LoadFailed P k k₂ process := by
  obtain ⟨hne, hnew, pageDirectory, ip, hlink⟩ := h.tasks
  obtain ⟨hr, hframe, tasks, hunlink, hscheduler⟩ :=
    processLoadFailed_task h.tree.stored hne h.guards.more h.tree.task hrun
  rw [hr]
  refine ⟨rfl, h.frame.trans (hframe.mono subset_insert_union), h.free,
    hframe.guards.mono Set.subset_union_left, ?_, ?_, .freed hne hnew hlink ?_⟩
  · rw [hscheduler]
    exact h.processes
  · rw [hscheduler]
    exact h.currentProcess
  · rw [hscheduler]
    exact hunlink

theorem enter (h : WithTask P S T k k₁ process p) {slot : Nat} (hpid : p.pid = slot)
    (hnonnull : process ≠ 0) :
    ProcessLoaded P slot k { k₁ with scheduler := { k₁.scheduler with
      processes := Function.update k₁.scheduler.processes slot process } } process := by
  obtain ⟨hne, hnew, pageDirectory, ip, hlink⟩ := h.tasks
  refine ⟨?_, hnonnull, h.free, h.block, ?_, h.currentProcess, ⟨S, T, p, h.guards, ?_, hpid⟩, p.task,
    pageDirectory, ip, hne, hnew, hlink⟩
  · exact ⟨h.frame.guards, h.frame.start, h.frame.total, h.frame.null, h.frame.elfFiles,
      h.frame.arrays, h.frame.chunks, h.frame.processes, h.frame.tasks⟩
  · dsimp only
    rw [h.processes]
  · exact ⟨h.tree.stored, h.tree.program, h.tree.stack, ⟨h.tree.task.block, h.tree.task.pages⟩,
      h.tree.allocations⟩

end WithTask

end Loading

/-- What a load leads to: an error before anything was obtained, an error that leaves the structure
of the process taken, or the process. -/
inductive LoadResult (P : Set Int) (slot : Nat) (k : Kernel) : Int × Nat → Kernel → Prop
  | noStructure {r : Int × Nat} (hres : r.1 < 0) (hnone : (heapMalloc k.heap sizeofProcess).1 = 0) :
      LoadResult P slot k r { k with heap := (heapMalloc k.heap sizeofProcess).2 }
  | failed {r : Int × Nat} {k' : Kernel} {process : Nat} (hres : r.1 < 0)
      (hsome : (heapMalloc k.heap sizeofProcess).1 ≠ 0) (h : LoadFailed P k k' process) :
      LoadResult P slot k r k'
  | loaded {r : Int × Nat} {k' : Kernel} (hres : r.1 = 0)
      (hsome : (heapMalloc k.heap sizeofProcess).1 ≠ 0) (h : ProcessLoaded P slot k k' r.2) :
      LoadResult P slot k r k'

theorem processLoadForSlot_spec {P : Set Int} {filename : List UInt8} {slot : Nat} {r : Int × Nat}
    {k k' : Kernel} (h : k.heap.Guards P) (hnull : k.NullFree) (h0 : 0 ∉ filename)
    (hrun : KernelM.processLoadForSlot filename slot k = .ok (r, k')) :
    LoadResult P slot k r k' := by
  unfold KernelM.processLoadForSlot at hrun
  replace hrun := bind_get_eq_ok.mp hrun
  by_cases htaken : processGet k.scheduler slot ≠ 0
  · rw [if_pos htaken] at hrun
    exact (throw_eq_ok.mp hrun).elim
  rw [if_neg htaken] at hrun
  obtain ⟨process, k₁, hobject, hrun⟩ := bind_eq_ok.mp hrun
  obtain ⟨k₀, halloc, hk₁⟩ := kzallocObject_eq_ok hobject
  obtain ⟨hprocess, hk₀⟩ := kzalloc_eq_ok halloc
  by_cases hnone : process = 0
  · rw [if_pos hnone] at hrun hk₁
    obtain ⟨hr, hk'⟩ := pure_eq_ok.mp hrun
    rw [if_pos hnone] at hk₀
    rw [← hr, ← hk', hk₁, hk₀]
    exact .noStructure (by decide) (by rw [← hprocess, hnone])
  rw [if_neg hnone] at hrun
  have hsome : (heapMalloc k.heap sizeofProcess).1 ≠ 0 := by rwa [← hprocess]
  have hstart := Loading.start h hobject hnone
  obtain ⟨res, k₂, hdata, hrun⟩ := bind_eq_ok.mp hrun
  rcases hstart.data hnull h0 hdata with ⟨hneg, hload⟩ | ⟨hok, S, filetype, ptr, size, hload, htree⟩
  · rw [if_pos hneg] at hrun
    obtain ⟨hres, hfailed⟩ := hload.failed rfl hrun
    exact .failed (by rwa [hres]) hsome hfailed
  rw [if_neg (by omega)] at hrun
  obtain ⟨stack, k₃, hstack, hrun⟩ := bind_eq_ok.mp hrun
  obtain ⟨S', hload₃, htree₃, hblock⟩ := hload.stack htree hstack
  by_cases hnoStack : stack = 0
  · rw [if_pos hnoStack] at hrun
    obtain ⟨hres, hfailed⟩ := hload₃.failed rfl hrun
    exact .failed (by rw [hres]; decide) hsome hfailed
  rw [if_neg hnoStack] at hrun
  obtain ⟨_, k₄, hfields, hrun⟩ := bind_eq_ok.mp hrun
  obtain ⟨hload₄, hk₄⟩ := hload₃.modify hfields
  obtain ⟨task, k₅, hnew, hrun⟩ := bind_eq_ok.mp hrun
  obtain ⟨_, k₆, hset, hrun⟩ := bind_eq_ok.mp hrun
  obtain ⟨T, hwith⟩ := hload₄.task hnull (by rw [hk₄]; exact htree₃.putProcess rfl rfl)
    (by rw [hk₄]; exact hblock hnoStack) (fun _ _ => rfl) hnew hset
  obtain ⟨res₇, k₇, hmap, hrun⟩ := bind_eq_ok.mp hrun
  obtain ⟨hwith₇, hresult⟩ := hwith.mapped hmap
  by_cases hneg : res₇ < 0
  · rw [if_pos hneg] at hrun
    obtain ⟨hres, hfailed⟩ := hwith₇.failed hrun
    exact .failed (by rwa [hres]) hsome hfailed
  · rw [if_neg hneg] at hrun
    obtain ⟨_, k₈, henter, hrun⟩ := bind_eq_ok.mp hrun
    obtain ⟨hr, hk'⟩ := pure_eq_ok.mp hrun
    rw [← hr, ← hk', ← modify_eq_ok.mp henter]
    exact .loaded (hresult.resolve_left hneg) hsome (hwith₇.enter rfl hnone)

end BoiOS
