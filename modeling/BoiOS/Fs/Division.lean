import BoiOS.Fs.FileRead
import BoiOS.Fs.Mounting

/-! Division by zero. The driver divides by the size of a cluster, which is a field of the header
that `fat16_resolve` takes as it is; nothing that happens to the volume afterwards changes it. -/
namespace BoiOS
open Library.StateRun Library.Transition

def SameDisk (k k' : Kernel) : Prop := k'.disk = k.disk

/-- A stop that is no division by zero, or one where a cluster has no bytes. -/
def ByClusterSize (k : Kernel) (stop : Stop) : Prop :=
  stop = .divided → ∃ p, k.disk.fsPrivate = some p ∧ sizeOfClusterBytes p k.disk = 0

instance : FileMoves SameDisk ByClusterSize where
  refl := fun _ => rfl
  trans := fun _ _ _ h h' => Eq.trans h' h
  back := by
    intro k k' stop hsame hstop hdivided
    have hsize := hstop hdivided
    rwa [show k'.disk = k.disk from hsame] at hsize
  heap := fun _ _ => rfl
  memory := fun _ _ => rfl
  streams := fun _ _ _ => rfl
  fatItems := fun _ _ => rfl
  fatDirectories := fun _ _ => rfl
  fatDescriptors := fun _ _ => rfl
  files := fun _ _ => rfl
  pathRoots := fun _ _ => rfl
  pathParts := fun _ _ => rfl
  faulted := fun _ h => by cases h
  divided := fun _ p hprivate hsize _ => ⟨p, hprivate, hsize⟩

/-! Runs. -/

inductive VolumeCall
  | fopen (filename modeStr : List UInt8)
  | fread (ptr size nmemb : Nat) (fd : Int)
  | fseek (fd : Int) (offset whence : Nat)
  | fstat (fd : Int)
  | fclose (fd : Int)

def VolumeCall.run : VolumeCall → KernelM Unit
  | .fopen filename modeStr => do
      let _ ← BoiOS.fopen filename modeStr
      pure ()
  | .fread ptr size nmemb fd => do
      let _ ← BoiOS.fread ptr size nmemb fd
      pure ()
  | .fseek fd offset whence => do
      let _ ← BoiOS.fseek fd offset whence
      pure ()
  | .fstat fd => do
      let _ ← BoiOS.fstat fd
      pure ()
  | .fclose fd => do
      let _ ← BoiOS.fclose fd
      pure ()

instance (call : VolumeCall) : Runs SameDisk ByClusterSize call.run := by
  cases call with
  | fopen filename modeStr =>
    unfold VolumeCall.run
    infer_instance
  | fread ptr size nmemb fd =>
    unfold VolumeCall.run
    infer_instance
  | fseek fd offset whence =>
    unfold VolumeCall.run
    infer_instance
  | fstat fd =>
    unfold VolumeCall.run
    infer_instance
  | fclose fd =>
    unfold VolumeCall.run
    infer_instance

/-- A call comes back, or the rest of the kernel does something that is not about the disk. -/
inductive VolumeEvent
  | call (call : VolumeCall)
  | elsewhere

def VolumeEvent.step : Step Kernel VolumeEvent := fun k event k' =>
  match event with
  | .call c => c.run k = .ok ((), k')
  | .elsewhere => SameDisk k k'

theorem VolumeEvent.step_disk {k k' : Kernel} {event : VolumeEvent}
    (h : VolumeEvent.step k event k') : k'.disk = k.disk := by
  cases event with
  | call c => exact (inferInstance : Runs SameDisk ByClusterSize c.run).keeps _ _ _ h
  | elsewhere => exact h

theorem VolumeEvent.path_disk {k : Kernel} {run : List (VolumeEvent × Kernel)}
    (h : Path VolumeEvent.step k run) : (last k run).disk = k.disk :=
  @last_of_path _ _ _ (fun k' => k'.disk = k.disk)
    (fun _ _ _ hsame hstep => (VolumeEvent.step_disk hstep).trans hsame) k run rfl h

/-! What a volume has to say. -/

theorem fread_divides {k : Kernel} {p : FatPrivate} {fd : Int} {f : FileHandle} {position : Nat}
    (hopen : k.FileAt fd f position) (hprivate : k.disk.fsPrivate = some p)
    (hzero : sizeOfClusterBytes p k.disk = 0) {out size nmemb : Nat} (hsize : 1 ≤ size)
    (hnmemb : 1 ≤ nmemb) : fread out size nmemb fd k = .error .divided := by
  have hfd := hopen.fd_pos
  obtain ⟨count, rfl⟩ := Nat.exists_eq_add_of_le' hnmemb
  have hfound : fatPrivate k = .ok (p, k) := fatPrivate_apply hprivate
  have hcluster (cluster offset : Int) :
      fat16GetClusterForOffset cluster offset k = .error .divided := by
    unfold fat16GetClusterForOffset
    rw [bind_of_ok (get_apply k), bind_of_ok hfound, if_pos hzero]
    rfl
  have hread (cluster offset total : Int) :
      fat16ReadInternal cluster offset total k = .error .divided := by
    unfold fat16ReadInternal
    rw [bind_of_ok hfound]
    unfold fat16ReadInternalFromStream
    rw [bind_of_ok (get_apply k), bind_of_ok hfound]
    exact bind_of_error (hcluster cluster offset) _
  unfold fread
  rw [if_neg (by omega), hopen.withDescriptor (-einvarg) fun data => fat16Read data size _ out]
  unfold fat16Read
  rw [bind_of_ok (get_apply k), bind_of_ok (fetch_eq_ok.mpr ⟨hopen.opened, rfl⟩),
    bind_of_ok (fetch_eq_ok.mpr ⟨hopen.item, rfl⟩)]
  dsimp only
  rw [if_neg (not_or.mpr ⟨not_not.mpr rfl, hopen.record⟩)]
  refine bind_of_error ?_ _
  unfold fat16ReadLoop
  rw [bind_of_ok (get_apply k)]
  exact bind_of_error (hread _ _ _) _

/-- No call divides by zero on a volume whose clusters have sectors. On any other that is accepted
every read of an open file does. -/
theorem volume_calls_divide {k k' : Kernel} {response : Int} (h : k.heap.WellFormed)
    (hsector : k.disk.sectorSize = 512) (hrun : fat16Resolve k = .ok (response, k'))
    (haccept : 0 ≤ response) (run : List (VolumeEvent × Kernel))
    (hpath : Path VolumeEvent.step k' run) :
    (1 ≤ (headerOf (volumeHeader k.disk)).sectorsPerCluster →
      ∀ call : VolumeCall, call.run (last k' run) ≠ .error .divided) ∧
    ((headerOf (volumeHeader k.disk)).sectorsPerCluster = 0 →
      ∀ fd f position, (last k' run).FileAt fd f position →
        ∀ out size nmemb, 1 ≤ size → 1 ≤ nmemb →
          fread out size nmemb fd (last k' run) = .error .divided) := by
  obtain ⟨S, p, hresult⟩ := fat16Resolve_spec h.guards hrun
  have hdisk : (last k' run).disk = k'.disk := VolumeEvent.path_disk hpath
  rw [hresult.disk, if_neg (by omega)] at hdisk
  have hprivate : (last k' run).disk.fsPrivate = some p := by rw [hdisk]
  have hsize : sizeOfClusterBytes p (last k' run).disk =
      (headerOf (volumeHeader k.disk)).sectorsPerCluster * 512 := by
    unfold sizeOfClusterBytes
    rw [hdisk, hresult.header, ← hsector]
  constructor
  · intro hclusters call hstop
    obtain ⟨p', hprivate', hzero⟩ :=
      (inferInstance : Runs SameDisk ByClusterSize call.run).stops _ _ hstop rfl
    rw [hprivate, Option.some.injEq] at hprivate'
    rw [← hprivate', hsize] at hzero
    omega
  · intro hnone fd f position hopen out size nmemb
    exact fread_divides hopen hprivate (by rw [hsize, hnone]; rfl)

theorem volume_calls_divide_bootKernel : ∃ k', fat16Resolve bootKernel = .ok (allOk, k') ∧
    ∀ call : VolumeCall, call.run k' ≠ .error .divided := by
  obtain ⟨k', p, hrun, -, -⟩ := bootKernel_resolve
  exact ⟨k', hrun, (volume_calls_divide bootKernel_wellFormed rfl hrun (by decide) []
    (path_nil ..)).1 (by decide +kernel)⟩

/-! A volume with a file `A` of ten bytes in the root directory, and no sectors in its clusters. -/

def flatSector (sector : Nat) : List UInt8 :=
  match sector with
  | 0 => List.replicate 14 0 ++ [1, 0, 0, 16] ++ List.replicate 20 0 ++ [0x29]
  | 1 => [65, 32, 32, 32, 32, 32, 32, 32, 32, 32, 32, 0x20] ++ List.replicate 14 0 ++ [2, 0, 10]
  | _ => []

def flatKernel : Kernel :=
  { emptyKernel 16 with disk := ⟨512, 0, none, fun sector i => (flatSector sector).getD i 0⟩ }

def flatPath : List UInt8 := [48, 58, 47, 65]

def flatOpen : KernelM Int := do
  let _ ← fat16Resolve
  fopen flatPath [114]

theorem flatKernel_read : ∃ k₁ k₂, fat16Resolve flatKernel = .ok (allOk, k₁) ∧
    fopen flatPath [114] k₁ = .ok (1, k₂) ∧ fread 0x5000 1 1 1 k₂ = .error .divided := by
  obtain ⟨k₁, hresolve⟩ : ∃ k', fat16Resolve flatKernel = .ok (allOk, k') :=
    exists_of_value? (by decide +kernel)
  obtain ⟨k₂, hrun⟩ : ∃ k', flatOpen flatKernel = .ok (1, k') := exists_of_value? (by decide +kernel)
  have hread : (flatOpen >>= fread 0x5000 1 1) flatKernel = .error .divided :=
    error_of_stop? (by decide +kernel)
  rw [bind_of_ok hrun] at hread
  unfold flatOpen at hrun
  rw [bind_of_ok hresolve] at hrun
  exact ⟨k₁, k₂, hresolve, hrun, hread⟩

theorem volume_calls_not_always_safe : ¬ ∀ (k k' : Kernel) (response : Int),
    k.heap.WellFormed → k.disk.sectorSize = 512 → fat16Resolve k = .ok (response, k') →
    0 ≤ response → ∀ run : List (VolumeEvent × Kernel), Path VolumeEvent.step k' run →
    ∀ call : VolumeCall, call.run (last k' run) ≠ .error .divided := by
  intro hall
  obtain ⟨k₁, k₂, hresolve, hopen, hread⟩ := flatKernel_read
  have hcall : (VolumeCall.fopen flatPath [114]).run k₁ = .ok ((), k₂) :=
    bind_of_ok hopen _
  have hwf : flatKernel.heap.WellFormed :=
    (emptyKernel_wellFormed (by decide) : (emptyKernel 16).heap.WellFormed)
  refine hall _ _ _ hwf rfl hresolve (by decide) [(.call (.fopen flatPath [114]), k₂)]
    ⟨hcall, trivial⟩ (.fread 0x5000 1 1 1) ?_
  exact bind_of_error hread _

end BoiOS
