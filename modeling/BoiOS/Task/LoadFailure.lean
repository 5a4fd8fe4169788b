import BoiOS.Fs.OpenClose
import BoiOS.Task.ProcessFrame

/-! Whether a load that fails leaves the kernel as it was. The structure of the process is never
given back, so that only a load which did not get as far as that structure costs nothing. -/
namespace BoiOS
open Library.StateRun

/-- The process table, the current process, the task list, the file descriptor table and the heap
table are the same. -/
structure LoadUndone (k k' : Kernel) : Prop where
  lists : SameLists k.scheduler k'.scheduler
  tables : SameTables k k'

/-- A load that is turned down before anything is allocated: every slot is taken, or there is no
room for the structure of the process. -/
def LoadRefused (k : Kernel) : Prop :=
  processGetFreeSlot k.scheduler < 0 ∨ k.heap.NoRoomFor sizeofProcess

theorem LoadFailed.not_undone {P : Set Int} {k k' : Kernel} {process : Nat}
    (h : LoadFailed P k k' process) : ¬ LoadUndone k k' := by
  intro hundone
  have hheld := h.held.held _ (Set.mem_insert ..)
  exact (hundone.tables.not_held h.frame.total hheld).taken h.free

theorem processLoad_eq_ok {filename : List UInt8} {r : Int × Nat} {k k' : Kernel}
    (hrun : KernelM.processLoad filename k = .ok (r, k')) :
    processGetFreeSlot k.scheduler < 0 ∧ r.1 < 0 ∧ k' = k ∨
      ¬ processGetFreeSlot k.scheduler < 0 ∧ ∃ slot < boiosMaxProcesses,
        k.scheduler.processes slot = 0 ∧ (∀ j < slot, k.scheduler.processes j ≠ 0) ∧
        KernelM.processLoadForSlot filename slot k = .ok (r, k') := by
  unfold KernelM.processLoad at hrun
  replace hrun := bind_get_eq_ok.mp hrun
  rcases processGetFreeSlot_spec k.scheduler with ⟨-, hnone⟩ | ⟨slot, hlt, hslot, hzero, hbelow⟩
  · rw [hnone, if_pos (by decide)] at hrun
    obtain ⟨hr, hk'⟩ := pure_eq_ok.mp hrun
    rw [← hr]
    exact Or.inl ⟨by rw [hnone]; decide, by dsimp only; decide, hk'.symm⟩
  · rw [hslot, if_neg (by omega), Int.toNat_natCast] at hrun
    exact Or.inr ⟨by omega, slot, hlt, hzero, hbelow, hrun⟩

theorem processLoad_failed {P : Set Int} {filename : List UInt8} {r : Int × Nat} {k k' : Kernel}
    (h : k.heap.Guards P) (hnull : k.NullFree) (h0 : 0 ∉ filename)
    (hrun : KernelM.processLoad filename k = .ok (r, k')) (hneg : r.1 < 0) :
    LoadRefused k ∧ k' = k ∨ ¬ LoadRefused k ∧ ∃ process, LoadFailed P k k' process := by
  have hroom := Heap.heapMalloc_eq_zero_iff h.wellFormed (by decide : 1 ≤ sizeofProcess)
    (by decide)
  rcases processLoad_eq_ok hrun with ⟨hslot, -, hk'⟩ | ⟨hslot, slot, -, -, -, hrun⟩
  · exact Or.inl ⟨Or.inl hslot, hk'⟩
  cases processLoadForSlot_spec h hnull h0 hrun with
  | noStructure _ hnone =>
    refine Or.inl ⟨Or.inr (hroom.1.mp hnone), ?_⟩
    rw [hroom.2 hnone]
  | failed _ hsome hfailed =>
    refine Or.inr ⟨fun hrefused => ?_, _, hfailed⟩
    rcases hrefused with hfull | hno
    · exact hslot hfull
    · exact hsome (hroom.1.mpr hno)
  | loaded hres => omega

theorem processLoad_loaded {P : Set Int} {filename : List UInt8} {r : Int × Nat} {k k' : Kernel}
    (h : k.heap.Guards P) (hnull : k.NullFree) (h0 : 0 ∉ filename)
    (hrun : KernelM.processLoad filename k = .ok (r, k')) (hres : 0 ≤ r.1) :
    r.1 = 0 ∧ ∃ slot : Nat, slot < boiosMaxProcesses ∧ k.scheduler.processes slot = 0 ∧
      (∀ j < slot, k.scheduler.processes j ≠ 0) ∧ ProcessLoaded P slot k k' r.2 := by
  rcases processLoad_eq_ok hrun with ⟨-, hneg, -⟩ | ⟨-, slot, hlt, hzero, hbelow, hrun⟩
  · omega
  cases processLoadForSlot_spec h hnull h0 hrun with
  | noStructure hneg => omega
  | failed hneg => omega
  | loaded hok _ hloaded => exact ⟨hok, slot, hlt, hzero, hbelow, hloaded⟩

/-- A load that fails leaves everything as it was if and only if it was refused at once. -/
theorem process_load_atomic_iff {filename : List UInt8} {r : Int × Nat} {k k' : Kernel}
    (h : k.heap.WellFormed) (hnull : k.NullFree) (h0 : 0 ∉ filename)
    (hrun : KernelM.processLoad filename k = .ok (r, k')) (hneg : r.1 < 0) :
    LoadUndone k k' ↔ LoadRefused k := by
  rcases processLoad_failed h.guards hnull h0 hrun hneg with
    ⟨hrefused, hk'⟩ | ⟨haccepted, process, hfailed⟩
  · rw [hk']
    exact ⟨fun _ => hrefused, fun _ => ⟨.refl _, fun _ _ _ => rfl, fun _ _ => rfl⟩⟩
  · exact ⟨fun hundone => absurd hundone hfailed.not_undone,
      fun hrefused => absurd hrefused haccepted⟩

theorem emptyKernel_nullFree (blocks : Nat) : (emptyKernel blocks).NullFree := ⟨rfl, rfl, rfl⟩

theorem processLoad_drivePath :
    ∃ k', KernelM.processLoad drivePath (emptyKernel 8) = .ok ((-eio, 0), k') :=
  exists_of_value? (by decide +kernel)

theorem emptyKernel_not_refused : ¬ LoadRefused (emptyKernel 8) := by
  have hwf : (emptyKernel 8).heap.WellFormed := emptyKernel_wellFormed (by decide)
  rintro (hfull | hno)
  · exact absurd hfull (by decide)
  · have hnone := (Heap.heapMalloc_eq_zero_iff hwf (by decide) (by decide)).1.mpr hno
    exact absurd hnone (by decide +kernel)

theorem process_load_atomic_iff_drivePath :
    ∃ k', KernelM.processLoad drivePath (emptyKernel 8) = .ok ((-eio, 0), k') ∧
      (LoadUndone (emptyKernel 8) k' ↔ LoadRefused (emptyKernel 8)) := by
  obtain ⟨k', hrun⟩ := processLoad_drivePath
  exact ⟨k', hrun, process_load_atomic_iff (emptyKernel_wellFormed (by decide))
    (emptyKernel_nullFree 8) (by decide) hrun (by decide)⟩

theorem process_load_not_always_atomic : ¬ ∀ (filename : List UInt8) (r : Int × Nat)
    (k k' : Kernel), k.heap.WellFormed → k.NullFree → 0 ∉ filename →
    KernelM.processLoad filename k = .ok (r, k') → r.1 < 0 → LoadUndone k k' := by
  intro hall
  have hwf : (emptyKernel 8).heap.WellFormed := emptyKernel_wellFormed (by decide)
  obtain ⟨k', hrun⟩ := processLoad_drivePath
  have hundone := hall _ _ _ _ hwf (emptyKernel_nullFree 8) (by decide) hrun (by decide)
  rcases processLoad_failed hwf.guards (emptyKernel_nullFree 8) (by decide) hrun (by decide) with
    ⟨hrefused, -⟩ | ⟨-, process, hfailed⟩
  · exact emptyKernel_not_refused hrefused
  · exact hfailed.not_undone hundone

end BoiOS
