import BoiOS.Fs.FileContent
import BoiOS.Memory.MappingRuns
import BoiOS.Task.LoadFailure
import BoiOS.Task.SchedulerFrame

/-! Loads that succeed. Once the image and the stack of a flat binary are in memory, a block for the
task and 1026 more for its page directory are all that it takes. -/
namespace BoiOS
open Library.StateRun

/-! The memory of others. -/

theorem pagingNew4gbLoop_kept {P : Set Int} {directory flags : Nat} (count : Nat) {i : Nat}
    {k k' : Kernel} {u : Unit} (h : k.heap.Guards P)
    (hrun : pagingNew4gbLoop directory flags count i k = .ok (u, k')) : ContentFrame P k k' := by
  induction count generalizing i k with
  | zero =>
    obtain ⟨-, rfl⟩ := pure_eq_ok.mp hrun
    exact .refl h
  | succ count ih =>
    unfold pagingNew4gbLoop at hrun
    obtain ⟨entry, k₁, halloc, hrun⟩ := bind_eq_ok.mp hrun
    by_cases hnull : entry = 0
    · rw [if_pos hnull] at hrun
      exact (throw_eq_ok.mp hrun).elim
    rw [if_neg hnull] at hrun
    have hframe₁ := ContentFrame.of_kzalloc h (by decide) halloc
    obtain ⟨_, k₂, hput, hrun⟩ := bind_eq_ok.mp hrun
    replace hrun := bind_get_eq_ok.mp hrun
    obtain ⟨entries, -, hrun⟩ := bind_fetch_eq_ok.mp hrun
    obtain ⟨_, k₃, hset, hrun⟩ := bind_eq_ok.mp hrun
    have hframe₃ : ContentFrame P k k₃ := by
      rw [← modify_eq_ok.mp hset, ← modify_eq_ok.mp hput]
      exact hframe₁.trans (.of_same hframe₁.guards rfl rfl rfl)
    exact hframe₃.trans (ih hframe₃.guards hrun)

theorem pagingNew4gb_kept {P : Set Int} {flags chunk : Nat} {k k' : Kernel} (h : k.heap.Guards P)
    (hrun : pagingNew4gb flags k = .ok (chunk, k')) : ContentFrame P k k' := by
  unfold pagingNew4gb at hrun
  obtain ⟨directory, k₁, hobject, hrun⟩ := bind_eq_ok.mp hrun
  obtain ⟨k₀, halloc, hk₁⟩ := kzallocObject_eq_ok hobject
  have hframe₀ := ContentFrame.of_kzalloc h (by decide) halloc
  have hframe₁ : ContentFrame P k k₁ := by
    rw [hk₁]
    split_ifs
    · exact hframe₀
    · exact hframe₀.trans (.of_same hframe₀.guards rfl rfl rfl)
  obtain ⟨_, k₂, hloop, hrun⟩ := bind_eq_ok.mp hrun
  have hframe₂ := hframe₁.trans (pagingNew4gbLoop_kept _ hframe₁.guards hloop)
  obtain ⟨chunk', k₃, hchunk, hrun⟩ := bind_eq_ok.mp hrun
  have hframe₃ := hframe₂.trans (.of_kzalloc hframe₂.guards (by decide) hchunk)
  by_cases hnull : chunk' = 0
  · rw [if_pos hnull] at hrun
    exact (throw_eq_ok.mp hrun).elim
  · rw [if_neg hnull] at hrun
    obtain ⟨_, k₄, hput, hrun⟩ := bind_eq_ok.mp hrun
    obtain ⟨-, rfl⟩ := pure_eq_ok.mp hrun
    rw [← modify_eq_ok.mp hput]
    exact hframe₃.trans (.of_same hframe₃.guards rfl rfl rfl)

/-! The task. -/

/-- The list has no task, or its last one is in memory. -/
def Tasks.Appendable (ts : Tasks) : Prop := ts.taskHead = 0 ∨ ∃ t, ts.store ts.taskTail = some t

theorem Tasks.modify_returns {ts : Tasks} {task : Nat} {t : Task} (f : Task → Task)
    (h : ts.store task = some t) : ∃ ts', ts.modify task f = some ts' ∧
      ∀ a t, ts.store a = some t → ∃ t', ts'.store a = some t' := by
  refine ⟨_, Tasks.modify_eq h f, fun a old ha => ?_⟩
  by_cases hsame : a = task
  · rw [hsame]
    exact ⟨f t, Function.update_self ..⟩
  · exact ⟨old, (Function.update_of_ne hsame _ _).trans ha⟩

theorem taskNewLink_returns {ts : Tasks} (h : ts.Appendable) (task : Nat) (t : Task) :
    ∃ ts', taskNewLink ts task t = some ts' := by
  unfold taskNewLink
  by_cases hempty : ts.taskHead = 0
  · exact ⟨_, if_pos hempty⟩
  obtain ⟨last, hlast⟩ := h.resolve_left hempty
  let placed : Tasks := { ts with store := Function.update ts.store task (some t) }
  have hnew : placed.store task = some t := Function.update_self ..
  obtain ⟨last', hlast'⟩ : ∃ last', placed.store ts.taskTail = some last' := by
    by_cases hsame : ts.taskTail = task
    · exact ⟨t, by rw [hsame, hnew]⟩
    · exact ⟨last, (Function.update_of_ne hsame _ _).trans hlast⟩
  obtain ⟨ts₁, hnext, hkept⟩ := Tasks.modify_returns (fun tail => { tail with next := task }) hlast'
  obtain ⟨t₁, ht₁⟩ := hkept task t hnew
  obtain ⟨ts₂, hprev, -⟩ := Tasks.modify_returns (fun t => { t with prev := ts₁.taskTail }) ht₁
  refine ⟨{ ts₂ with taskTail := task }, ?_⟩
  dsimp only
  rw [if_neg hempty]
  change (placed.modify ts.taskTail _).bind _ = _
  rw [hnext, Option.bind_some, hprev]
  rfl

theorem taskNew_returns {P : Set Int} {k : Kernel} {process : Nat} {p : Process}
    (h : k.heap.Guards P) (hp : k.scheduler.store process = some p)
    (hbinary : p.filetype = processFileTypeBin) (hlist : k.scheduler.tasks.Appendable)
    (hroom : 1027 ≤ k.heap.freeBlocks) :
    ∃ task k', taskNew process k = .ok (task, k') ∧
      k'.heap.freeBlocks + 1027 = k.heap.freeBlocks ∧ k.SameMemory P k' := by
  obtain ⟨task, k₁, halloc, hfree⟩ :=
    kzalloc_small h.wellFormed (by decide : 1 ≤ sizeofTask) (by decide)
  obtain ⟨hne, hcount⟩ := hfree (by omega)
  obtain ⟨hobtained, hk₁⟩ := kzalloc_obtained h (by decide) halloc
  obtain ⟨chunk, k₂, hdirectory, -, hcount₂⟩ := pagingNew4gb_returns
    (pagingIsPresent ||| pagingAccessFromAll) hobtained.guards.wellFormed (by omega)
  have hscheduler : k₂.scheduler = k.scheduler := by
    have hsame : SameScheduler k₁ k₂ := Kept.run inferInstance hdirectory
    rw [hsame, hk₁]
  have hmemory := (kzalloc_memory h (by decide) halloc).trans
    (pagingNew4gb_kept hobtained.guards hdirectory).blockMemory hobtained.start
  have hentry : taskEntry process k₂ = .ok (boiosProgramVirtualAddress, k₂) := by
    unfold taskEntry
    rw [bind_of_ok (get_apply k₂), hscheduler, hp, bind_of_ok (fetch_some p k₂), hbinary,
      if_neg (by decide)]
    rfl
  obtain ⟨tasks, hlink⟩ := taskNewLink_returns hlist task
    (taskInit chunk process boiosProgramVirtualAddress)
  refine ⟨task, { k₂ with scheduler := { k₂.scheduler with tasks } }, ?_, ?_, hmemory⟩
  · unfold taskNew
    rw [bind_of_ok halloc, if_neg hne, bind_of_ok hdirectory, bind_of_ok hentry]
    unfold tasksRun schedulerRun
    rw [bind_apply]
    dsimp only
    rw [hscheduler, hlink]
    rfl
  · dsimp only
    omega

/-! Mapping. -/

theorem le_pagingAlignAddress {a : Nat} (h : a ≤ 0xFFFFF000) : a ≤ pagingAlignAddress a := by
  unfold pagingAlignAddress pagingPageSize u32
  split_ifs <;> omega

theorem Kernel.TaskTree.mapTo_returns {T : Set Int} {k : Kernel} {task : Nat} {t : Task}
    (h : k.TaskTree T task) (ht : k.scheduler.tasks.store task = some t) {v p size : Nat}
    (hv : v % 4096 = 0) (hvlt : v < 4294967296) (hp : p % 4096 = 0)
    (hsize : p + size ≤ 0xFFFFF000) {flags : Nat} (hflags : flags < 4096) :
    ∃ k', pagingRun (fun s => pagingMapTo s t.pageDirectory v p
      (pagingAlignAddress (u32 ((p : Int) + size))) flags) k = .ok (0, k') := by
  obtain ⟨-, chunk, hchunk, -, directory, tables, hentry, -, hdir, -⟩ := h
  rw [ht, Option.map_some, Option.some.injEq] at hchunk
  rw [← hchunk] at hentry
  have hend : u32 ((p : Int) + size) = p + size := by
    unfold u32
    omega
  have hle := le_pagingAlignAddress hsize
  obtain ⟨s, hmap, -⟩ := pagingMapTo_exact hdir hentry hv hvlt hp (pagingAlignAddress_aligned _)
    (pagingAlignAddress_lt (by omega : p + size < 4294967296)) (by omega) hflags
  refine ⟨{ k with pages := s }, pagingRun_of_ok ?_⟩
  rw [hend, hmap]

theorem processMapMemory_returns {P T : Set Int} {k : Kernel} {process : Nat} {p : Process}
    (hp : k.scheduler.store process = some p) (hbinary : p.filetype = processFileTypeBin)
    (h : k.TaskTree T p.task) (hguards : k.heap.GuardsMore P T) (hptr : p.ptr % 4096 = 0)
    (hstack : p.stack % 4096 = 0) (hsize : p.ptr + p.size ≤ 0xFFFFF000)
    (hhigh : p.stack + boiosUserProgramStackSize ≤ 0xFFFFF000) :
    ∃ k', processMapMemory process k = .ok (0, k') := by
  have htask {k : Kernel} (h : k.TaskTree T p.task) :
      ∃ t, k.scheduler.tasks.store p.task = some t := by
    obtain ⟨-, chunk, hchunk, -⟩ := h
    obtain ⟨t, ht, -⟩ := Option.map_eq_some_iff.mp hchunk
    exact ⟨t, ht⟩
  obtain ⟨t, ht⟩ := htask h
  obtain ⟨k₁, hfirst⟩ : ∃ k₁, processMapBinary process k = .ok (0, k₁) := by
    unfold processMapBinary
    rw [bind_of_ok (get_apply k), hp, bind_of_ok (fetch_some p k), ht, bind_of_ok (fetch_some t k)]
    exact h.mapTo_returns ht (by decide) (by decide) hptr hsize (by decide)
  obtain ⟨hmapped, -⟩ := processMapBinary_spec hp h hguards hptr hfirst
  have hp₁ : k₁.scheduler.store process = some p := by
    rw [hmapped.rest]
    exact hp
  obtain ⟨t₁, ht₁⟩ := htask hmapped.tree
  obtain ⟨k₂, hsecond⟩ : ∃ k₂, processMapStack process k₁ = .ok (0, k₂) := by
    unfold processMapStack
    rw [bind_of_ok (get_apply k₁), hp₁, bind_of_ok (fetch_some p k₁), ht₁,
      bind_of_ok (fetch_some t₁ k₁)]
    exact hmapped.tree.mapTo_returns ht₁ (by decide) (by decide) hstack hhigh (by decide)
  refine ⟨k₂, ?_⟩
  unfold processMapMemory
  rw [bind_of_ok (get_apply k), hp, bind_of_ok (fetch_some p k), hbinary, if_neg (by decide),
    if_pos rfl, bind_of_ok hfirst, if_neg (by decide)]
  exact hsecond

end BoiOS
