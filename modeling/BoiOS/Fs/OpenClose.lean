import BoiOS.Fs.FileFrame

/-! Whether opening and closing a file leaves the kernel's tables as they were. `fopen` never gives
the parsed path back, so that only a path that is not parsed at all costs nothing. -/
namespace BoiOS
open Library.StateRun

def fopenFclose (filename modeStr : List UInt8) : KernelM Int := do
  let fd ← fopen filename modeStr
  if fd = 0 then pure 0
  else do
    let _ ← fclose fd
    pure fd

structure SameTables (k k' : Kernel) : Prop where
  heap : ∀ b : Int, 0 ≤ b → b < k.heap.table.totalEntries →
    k'.heap.table.entries b = k.heap.table.entries b
  files : ∀ i < boiosMaxFileDescriptors, k'.files.fileDescriptors i = k.files.fileDescriptors i

theorem fopenFclose_root {k k' : Kernel} {filename modeStr : List UInt8} {fd : Int}
    (h : k.heap.WellFormed) (hnull : k.fatItems 0 = none) (h0 : 0 ∉ filename)
    (haccept : ¬ PathRejected filename) (hrun : fopenFclose filename modeStr k = .ok (fd, k')) :
    ∃ root, ¬ k.heap.Held root ∧ k'.heap.Held root ∧
      k'.heap.table.totalEntries = k.heap.table.totalEntries := by
  have hguards : k.heap.Guards {b | k.heap.Held b} := ⟨h, fun _ hb => hb⟩
  unfold fopenFclose at hrun
  obtain ⟨fd', k₁, hopen, hclose⟩ := bind_eq_ok.mp hrun
  rcases fopen_spec hguards hnull h0 hopen with ⟨hreject, -⟩ | ⟨-, root, hopened⟩
  · exact absurd hreject haccept
  refine ⟨root, hopened.new, ?_⟩
  by_cases hzero : fd' = 0
  · rw [if_pos hzero] at hclose
    obtain ⟨-, rfl⟩ := pure_eq_ok.mp hclose
    exact ⟨hopened.frame.guards.held _ (Set.mem_insert ..), hopened.frame.total⟩
  · rw [if_neg hzero] at hclose
    obtain ⟨response, k₂, hfclose, hclose⟩ := bind_eq_ok.mp hclose
    obtain ⟨-, rfl⟩ := pure_eq_ok.mp hclose
    obtain ⟨S, hmore, hfile⟩ := hopened.file.resolve_left hzero
    have hframe := hopened.frame.trans (fclose_spec hmore hfile hfclose)
    exact ⟨hframe.guards.held _ (Set.mem_insert ..), hframe.total⟩

theorem SameTables.not_held {k k' : Kernel} (h : SameTables k k') {b : Int}
    (htotal : k'.heap.table.totalEntries = k.heap.table.totalEntries) (hb : k'.heap.Held b) :
    k.heap.Held b := by
  have hhigh := hb.high
  rw [htotal] at hhigh
  exact hb.congr htotal.symm (h.heap b hb.low hhigh).symm

/-- Opening and closing a file changes neither table if and only if the path is turned down before
anything is allocated. -/
theorem fopen_fclose_neutral_iff {k k' : Kernel} {filename modeStr : List UInt8} {fd : Int}
    (h : k.heap.WellFormed) (hnull : k.fatItems 0 = none) (h0 : 0 ∉ filename)
    (hrun : fopenFclose filename modeStr k = .ok (fd, k')) :
    SameTables k k' ↔ PathRejected filename := by
  constructor
  · intro hsame
    by_contra haccept
    obtain ⟨root, hold, hnew, htotal⟩ := fopenFclose_root h hnull h0 haccept hrun
    exact hold (hsame.not_held htotal hnew)
  · intro hreject
    unfold fopenFclose at hrun
    obtain ⟨fd', k₁, hopen, hclose⟩ := bind_eq_ok.mp hrun
    rcases fopen_spec h.guards hnull h0 hopen with ⟨-, rfl, rfl⟩ | ⟨haccept, -⟩
    · rw [if_pos rfl] at hclose
      obtain ⟨-, rfl⟩ := pure_eq_ok.mp hclose
      exact ⟨fun _ _ _ => rfl, fun _ _ => rfl⟩
    · exact absurd hreject haccept

def drivePath : List UInt8 := [48, 58, 47]

theorem fopenFclose_drivePath : ∃ k', fopenFclose drivePath [114] (emptyKernel 4) = .ok (0, k') :=
  exists_of_value? (by decide +kernel)

theorem fopen_fclose_neutral_iff_drivePath :
    ∃ k', fopenFclose drivePath [114] (emptyKernel 4) = .ok (0, k') ∧
      (SameTables (emptyKernel 4) k' ↔ PathRejected drivePath) := by
  obtain ⟨k', hrun⟩ := fopenFclose_drivePath
  exact ⟨k', hrun,
    fopen_fclose_neutral_iff (emptyKernel_wellFormed (by decide)) rfl (by decide) hrun⟩

theorem fopen_fclose_not_always_neutral : ¬ ∀ (k k' : Kernel) (filename modeStr : List UInt8)
    (fd : Int), k.heap.WellFormed → k.fatItems 0 = none → 0 ∉ filename →
    fopenFclose filename modeStr k = .ok (fd, k') → SameTables k k' := by
  intro hall
  have hwf : (emptyKernel 4).heap.WellFormed := emptyKernel_wellFormed (by decide)
  obtain ⟨k', hrun⟩ := fopenFclose_drivePath
  obtain ⟨root, hold, hnew, htotal⟩ :=
    fopenFclose_root hwf rfl (by decide) (by decide) hrun
  exact hold ((hall _ _ _ _ _ hwf rfl (by decide) hrun).not_held htotal hnew)

end BoiOS
