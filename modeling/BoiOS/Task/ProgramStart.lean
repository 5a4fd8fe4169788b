import BoiOS.Task.LoadReturns
import BoiOS.Task.TaskFailure

/-! Programs that start. From where the task of a flat binary is made, a load with enough memory goes
through; what others have in their blocks stays. -/
namespace BoiOS
open Library.StateRun

theorem ReachesTask.loading {P : Set Int} {filename : List UInt8} {slot process : Nat}
    {k₀ k : Kernel} (h : ReachesTask filename slot k₀ process k) (hguards : k₀.heap.Guards P)
    (hnull : k₀.NullFree) (h0 : 0 ∉ filename) :
    ∃ S p, Loading P S k₀ k process p ∧ k.ProgramTree S p ∧ k.heap.BlockIn S p.stack ∧
      p.pid = slot ∧ (∀ i, p.allocations i = ⟨0, 0⟩) ∧ process ≠ 0 := by
  obtain ⟨k₁, k₂, k₃, res, stack, -, hobject, hprocess, hdata, hres, hstack, hnone, hset⟩ := h.steps
  obtain ⟨-, S, filetype, ptr, size, hload, htree⟩ :=
    ((Loading.start hguards hobject hprocess).data hnull h0 hdata).resolve_left fun hneg =>
      hres hneg.1
  obtain ⟨S', hload₃, htree₃, hblock⟩ := hload.stack htree hstack
  obtain ⟨hload₄, hk₄⟩ := hload₃.modify hset
  refine ⟨S', _, hload₄, ?_, ?_, rfl, fun _ => rfl, hprocess⟩
  · rw [hk₄]
    exact htree₃.putProcess rfl rfl
  · rw [hk₄]
    exact hblock hnone

theorem processLoadForSlot_returns {P : Set Int} {filename : List UInt8} {slot process : Nat}
    {p : Process} {k₀ k : Kernel} (hguards : k₀.heap.Guards P) (hnull : k₀.NullFree)
    (h0 : 0 ∉ filename) (h : ReachesTask filename slot k₀ process k)
    (hp : k.scheduler.store process = some p) (hbinary : p.filetype = processFileTypeBin)
    (hsize : p.size ≤ 0x40000000) (hlist : k.scheduler.tasks.Appendable)
    (hroom : 1027 ≤ k.heap.freeBlocks) :
    ∃ k', KernelM.processLoadForSlot filename slot k₀ = .ok ((0, process), k') ∧
      k'.heap.freeBlocks + 1027 = k.heap.freeBlocks ∧ k.SameMemory P k' := by
  obtain ⟨S, p', hload, htree, hstack, -, hallocations, hne⟩ := h.loading hguards hnull h0
  obtain rfl := Option.some.inj (hp.symm.trans hload.stored)
  obtain ⟨task, k₁, hnew, hcount, hmemory⟩ :=
    taskNew_returns hload.guards.guards hp hbinary hlist hroom
  have hin : k.heap.blockOf process ∈ insert (k₀.heap.blockOf process) P ∪ S := by
    rw [hload.frame.blockOf]
    exact Or.inl (Set.mem_insert ..)
  obtain ⟨hframe, -⟩ := taskNew_spec hload.guards.guards (hnull.frame hload.frame).arrays hnew
  have hp₁ : k₁.scheduler.store process = some p := by
    rw [hframe.processes process hin]
    exact hp
  have hset : modifyProcess process (fun p => { p with task }) k₁ =
      .ok ((), putProcess process { p with task } k₁) := modifyProcess_of_store hp₁
  obtain ⟨T, hwith⟩ := hload.task hnull htree hstack (fun i _ => by rw [hallocations]) hnew hset
  have hwf := hwith.guards.guards.wellFormed
  have hbelow := hwf.below
  have hptr := hwith.tree.program.block.block
  have hptrStack := hwith.tree.stack.block
  obtain ⟨k₂, hmap⟩ := processMapMemory_returns hwith.tree.stored hbinary hwith.tree.task
    hwith.guards.more (hptr.aligned hwf) (hptrStack.aligned hwf)
    (by
      have haddress := hptr.address
      have hhigh := hptr.high
      dsimp only at haddress hhigh ⊢
      omega)
    (by
      have haddress := hptrStack.address
      have hhigh := hptrStack.high
      dsimp only [boiosUserProgramStackSize] at haddress hhigh ⊢
      omega)
  obtain ⟨hmapped, -⟩ := processMapMemory_spec hwith.tree.stored hwith.tree.task hwith.guards.more
    (hptr.aligned hwf) (hptrStack.aligned hwf) hmap
  have hrest := hmapped.rest
  refine ⟨{ k₂ with scheduler := { k₂.scheduler with
    processes := Function.update k₂.scheduler.processes slot process } }, ?_, ?_, ?_⟩
  · rw [h.rest]
    unfold processLoadWithTask
    rw [bind_of_ok hnew, bind_of_ok hset, bind_of_ok hmap, if_neg (by decide)]
    rfl
  · have hheap : k₂.heap = k₁.heap := by rw [hrest]; rfl
    dsimp only
    rw [hheap]
    exact hcount
  · intro x hx hP
    have hsame : k₂.memory = k₁.memory := by rw [hrest]; rfl
    dsimp only
    rw [hsame]
    exact hmemory x hx (subset_insert_union hP)

theorem processLoadSwitch_returns {P : Set Int} {filename : List UInt8} {slot process : Nat}
    {p : Process} {k₀ k : Kernel} (hguards : k₀.heap.Guards P) (hnull : k₀.NullFree)
    (h0 : 0 ∉ filename) (hslot : processGetFreeSlot k₀.scheduler = slot)
    (h : ReachesTask filename slot k₀ process k) (hp : k.scheduler.store process = some p)
    (hbinary : p.filetype = processFileTypeBin) (hsize : p.size ≤ 0x40000000)
    (hlist : k₀.scheduler.tasks.Appendable) (hroom : 1027 ≤ k.heap.freeBlocks) :
    ∃ k', KernelM.processLoad filename k₀ = .ok ((0, process), k') ∧
      KernelM.processLoadSwitch filename k₀ =
        .ok ((0, process), { k' with scheduler := processSwitch k'.scheduler process }) ∧
      k'.heap.freeBlocks + 1027 = k.heap.freeBlocks ∧ k.SameMemory P k' := by
  obtain ⟨S, _, hloading, -⟩ := h.loading hguards hnull h0
  rw [← hloading.lists.tasks] at hlist
  obtain ⟨k', hslotLoad, hcount, hmemory⟩ :=
    processLoadForSlot_returns hguards hnull h0 h hp hbinary hsize hlist hroom
  have hload : KernelM.processLoad filename k₀ = .ok ((0, process), k') := by
    unfold KernelM.processLoad
    rw [bind_of_ok (get_apply k₀), hslot, if_neg (by omega), Int.toNat_natCast]
    exact hslotLoad
  refine ⟨k', hload, ?_, hcount, hmemory⟩
  unfold KernelM.processLoadSwitch
  rw [bind_of_ok hload]
  rfl

end BoiOS
