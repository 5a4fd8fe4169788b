import BoiOS.Fs.FileSystem

/-! What every function of the file system leaves alone. It moves streams and changes the heap, the
memory and its own structures, and it stops at a bad pointer or at a cluster of no bytes. For a
relation that this much keeps, that a function keeps it is inferred from its text. -/
namespace BoiOS
open Library.StateRun

/-- `R` relates what the file system leaves to what it found, and `E` tells of its stops. -/
class FileMoves (R : Kernel → Kernel → Prop) (E : Kernel → Stop → Prop) : Prop extends
    Follows R E where
  heap : ∀ k heap, R k { k with heap }
  memory : ∀ k memory, R k { k with memory }
  streams : ∀ (k : Kernel) stream (position : Int),
    R k { k with streams := Function.update k.streams stream (some position) }
  fatItems : ∀ k fatItems, R k { k with fatItems }
  fatDirectories : ∀ k fatDirectories, R k { k with fatDirectories }
  fatDescriptors : ∀ k fatDescriptors, R k { k with fatDescriptors }
  files : ∀ k files, R k { k with files }
  pathRoots : ∀ k pathRoots, R k { k with pathRoots }
  pathParts : ∀ k pathParts, R k { k with pathParts }
  faulted : ∀ k, E k .faulted
  divided : ∀ k p, k.disk.fsPrivate = some p → sizeOfClusterBytes p k.disk = 0 → E k .divided

variable {R : Kernel → Kernel → Prop} {E : Kernel → Stop → Prop} [FileMoves R E]

/-! Accesses and assignments. -/

instance {α : Type} : Runs R E (throw .faulted : KernelM α) :=
  runs_throw (FileMoves.faulted R)

instance {α : Type} (o : Option α) : Runs R E (fetch o) where
  keeps := fun k a k' h => by
    rw [← (fetch_eq_ok.mp h).2]
    exact Std.Refl.refl k
  stops := fun k e h => by
    cases o with
    | none =>
      rw [fetch_none, Except.error.injEq] at h
      exact h ▸ FileMoves.faulted R k
    | some a =>
      rw [fetch_some] at h
      cases h

instance (f : Kernel → Memory) :
    Runs R E (modify fun k => { k with memory := f k } : KernelM Unit) :=
  runs_modify fun k => FileMoves.memory E k _

instance (f : Kernel → Heap) : Runs R E (modify fun k => { k with heap := f k } : KernelM Unit) :=
  runs_modify fun k => FileMoves.heap E k _

instance (stream : Nat) (position : Int) : Runs R E (modify fun k =>
    { k with streams := Function.update k.streams stream (some position) } : KernelM Unit) :=
  runs_modify fun k => FileMoves.streams E k _ _

instance (ptr : Nat) (item : Option FatItem) :
    Runs R E (modify (putFatItem ptr item) : KernelM Unit) :=
  runs_modify fun k => FileMoves.fatItems E k _

instance (ptr : Nat) (directory : Option FatDirectory) :
    Runs R E (modify (putFatDirectory ptr directory) : KernelM Unit) :=
  runs_modify fun k => FileMoves.fatDirectories E k _

instance (ptr : Nat) (descriptor : Option FatFileDescriptor) :
    Runs R E (modify (putFatDescriptor ptr descriptor) : KernelM Unit) :=
  runs_modify fun k => FileMoves.fatDescriptors E k _

instance (ptr : Nat) (root : PathRoot) : Runs R E (modify (putPathRoot ptr root) : KernelM Unit) :=
  runs_modify fun k => FileMoves.pathRoots E k _

instance (ptr : Nat) (part : PathPart) : Runs R E (modify (putPathPart ptr part) : KernelM Unit) :=
  runs_modify fun k => FileMoves.pathParts E k _

instance (desc : Nat) (d : FileDescriptor) :
    Runs R E (modify (putFileDescriptor desc d) : KernelM Unit) :=
  runs_modify fun k => FileMoves.files E k _

/-! The heap. -/

instance (size : Nat) : Runs R E (kmalloc size) where
  keeps := fun k ptr k' h => by
    unfold kmalloc at h
    rw [Except.ok.injEq, Prod.mk.injEq] at h
    rw [← h.2]
    exact FileMoves.heap E k _
  stops := fun k e h => by
    unfold kmalloc at h
    cases h

instance (size : Nat) : Runs R E (kzalloc size) := by
  unfold kzalloc
  infer_instance

instance (ptr : Nat) : Runs R E (kfree ptr) := runs_modify fun k => FileMoves.heap E k _

theorem runs_kzallocObject {size : Nat} {place : Nat → Kernel → Kernel}
    (h : ∀ ptr k, R k (place ptr k)) : Runs R E (kzallocObject size place) := by
  have hplace (ptr : Nat) :
      Runs R E (modify fun k => if ptr = 0 then k else place ptr k : KernelM Unit) := by
    refine runs_modify fun k => ?_
    by_cases hnull : ptr = 0
    · rw [if_pos hnull]
      exact Std.Refl.refl k
    · rw [if_neg hnull]
      exact h ptr k
  unfold kzallocObject
  infer_instance

/-! The disk and the driver. -/

instance (stream : Nat) (position : Int) : Runs R E (diskstreamerSeek stream position) := by
  unfold diskstreamerSeek
  infer_instance

instance (disk : Disk) (sector offset total : Int) :
    Runs R E (sectorBytes disk sector offset total) := by
  unfold sectorBytes
  infer_instance

instance (fuel stream : Nat) (total : Int) : Runs R E (diskstreamerReadLoop fuel stream total) := by
  induction fuel generalizing total with
  | zero => exact runs_throw (FileMoves.faulted R)
  | succ fuel ih =>
    unfold diskstreamerReadLoop
    infer_instance

instance (stream : Nat) (total : Int) : Runs R E (diskstreamerRead stream total) := by
  unfold diskstreamerRead
  infer_instance

instance (out : Nat) (bytes : List UInt8) : Runs R E (storeBytes out bytes) := by
  unfold storeBytes
  infer_instance

instance : Runs R E fatPrivate := by
  unfold fatPrivate
  infer_instance

instance (stream fuel : Nat) (i : Int) :
    Runs R E (fat16GetTotalItemsForDirectoryLoop stream fuel i) := by
  induction fuel generalizing i with
  | zero => exact runs_throw (FileMoves.faulted R)
  | succ fuel ih =>
    unfold fat16GetTotalItemsForDirectoryLoop
    infer_instance

instance (directoryStartSector : Nat) :
    Runs R E (fat16GetTotalItemsForDirectory directoryStartSector) := by
  unfold fat16GetTotalItemsForDirectory
  infer_instance

instance (item size : Nat) : Runs R E (fat16CloneDirectoryItem item size) := by
  unfold fat16CloneDirectoryItem
  infer_instance

set_option synthInstance.maxSize 2048 in
instance (cluster : Int) : Runs R E (fat16GetFatEntry cluster) := by
  unfold fat16GetFatEntry
  infer_instance

instance (count : Nat) (clusterToUse : Int) : Runs R E (fat16WalkClusters count clusterToUse) := by
  induction count generalizing clusterToUse with
  | zero => exact runs_pure _
  | succ count ih =>
    unfold fat16WalkClusters
    infer_instance

/-- The one place where a division by zero can stop the file system. -/
instance (startingCluster offset : Int) :
    Runs R E (fat16GetClusterForOffset startingCluster offset) := by
  have hwalk (count : Nat) : Runs R E (fat16WalkClusters count startingCluster) := inferInstance
  constructor
  · intro k cluster k' h
    unfold fat16GetClusterForOffset at h
    replace h := bind_get_eq_ok.mp h
    obtain ⟨p, k₁, hprivate, h⟩ := bind_eq_ok.mp h
    have hfirst : R k k₁ := (inferInstance : Runs R E fatPrivate).keeps _ _ _ hprivate
    split_ifs at h with hsize
    · exact (throw_eq_ok.mp h).elim
    · exact IsTrans.trans _ _ _ hfirst ((hwalk _).keeps _ _ _ h)
  · intro k e h
    unfold fat16GetClusterForOffset at h
    rw [bind_of_ok (get_apply k)] at h
    cases hprivate : k.disk.fsPrivate with
    | none =>
      have hfault : fatPrivate k = .error .faulted := by
        unfold fatPrivate
        rw [bind_of_ok (get_apply k), hprivate]
        rfl
      rw [bind_of_error hfault, Except.error.injEq] at h
      exact h ▸ FileMoves.faulted R k
    | some p =>
      rw [bind_of_ok (fatPrivate_apply hprivate)] at h
      split_ifs at h with hsize
      · rw [throw_apply, Except.error.injEq] at h
        exact h ▸ FileMoves.divided R k p hprivate hsize
      · exact (hwalk _).stops _ _ h

set_option synthInstance.maxSize 2048 in
instance (stream fuel : Nat) (cluster offset total : Int) :
    Runs R E (fat16ReadInternalFromStream stream fuel cluster offset total) := by
  induction fuel generalizing offset total with
  | zero => exact runs_throw (FileMoves.faulted R)
  | succ fuel ih =>
    unfold fat16ReadInternalFromStream
    infer_instance

instance (startingCluster offset total : Int) :
    Runs R E (fat16ReadInternal startingCluster offset total) := by
  unfold fat16ReadInternal
  infer_instance

instance (directory : Nat) : Runs R E (fat16FreeDirectory directory) := by
  unfold fat16FreeDirectory
  infer_instance

set_option synthInstance.maxSize 2048 in
instance (item : Nat) : Runs R E (fat16FatItemFree item) := by
  unfold fat16FatItemFree
  infer_instance

set_option synthInstance.maxSize 2048 in
instance (item : Nat) : Runs R E (fat16LoadFatDirectory item) := by
  unfold fat16LoadFatDirectory
  infer_instance

instance (item : Nat) : Runs R E (fat16NewFatItemOrDirectoryItem item) := by
  unfold fat16NewFatItemOrDirectoryItem
  infer_instance

instance (items fileName count i fItem : Nat) :
    Runs R E (fat16FindItemInDirectoryLoop items fileName count i fItem) := by
  induction count generalizing i fItem with
  | zero => exact runs_pure _
  | succ count ih =>
    unfold fat16FindItemInDirectoryLoop
    infer_instance

instance (directory : FatDirectory) (fileName : Nat) :
    Runs R E (fat16FindItemInDirectory directory fileName) := by
  unfold fat16FindItemInDirectory
  infer_instance

set_option synthInstance.maxSize 2048 in
instance (fuel currentItem nextPart : Nat) : Runs R E (fat16WalkPath fuel currentItem nextPart) := by
  induction fuel generalizing currentItem nextPart with
  | zero => exact runs_throw (FileMoves.faulted R)
  | succ fuel ih =>
    unfold fat16WalkPath
    infer_instance

instance (path : Nat) : Runs R E (fat16GetDirectoryEntry path) := by
  unfold fat16GetDirectoryEntry
  infer_instance

instance (path mode : Nat) : Runs R E (fat16Open path mode) := by
  have hdescriptor : Runs R E (kzallocObject sizeofFatFileDescriptor fun ptr =>
      putFatDescriptor ptr (some ⟨0, 0⟩)) :=
    runs_kzallocObject fun _ k => FileMoves.fatDescriptors E k _
  unfold fat16Open
  infer_instance

instance (descriptor : Nat) : Runs R E (fat16Stat descriptor) := by
  unfold fat16Stat
  infer_instance

instance (item size count : Nat) (offset : Int) (out : Nat) :
    Runs R E (fat16ReadLoop item size count offset out) := by
  induction count generalizing offset out with
  | zero => exact runs_pure _
  | succ count ih =>
    unfold fat16ReadLoop
    infer_instance

instance (descriptor size nmemb out : Nat) : Runs R E (fat16Read descriptor size nmemb out) := by
  unfold fat16Read
  infer_instance

instance (descriptor offset seekMode : Nat) : Runs R E (fat16Seek descriptor offset seekMode) := by
  unfold fat16Seek
  infer_instance

set_option synthInstance.maxSize 2048 in
instance (descriptor : Nat) : Runs R E (fat16Close descriptor) := by
  unfold fat16Close
  infer_instance

/-! The path parser. -/

instance (driveNo : Int) : Runs R E (pathparserCreateRoot driveNo) := by
  unfold pathparserCreateRoot
  infer_instance

instance (path : List UInt8) : Runs R E (pathparserGetPathPart path) := by
  unfold pathparserGetPathPart
  infer_instance

instance (lastPart : Nat) (path : List UInt8) : Runs R E (pathparserParsePathPart lastPart path) := by
  unfold pathparserParsePathPart
  infer_instance

instance (fuel part : Nat) (path : List UInt8) : Runs R E (pathparserParseLoop fuel part path) := by
  induction fuel generalizing part path with
  | zero => exact runs_throw (FileMoves.faulted R)
  | succ fuel ih =>
    unfold pathparserParseLoop
    infer_instance

instance (path : List UInt8) : Runs R E (pathparserParse path) := by
  unfold pathparserParse
  infer_instance

/-! The calls. -/

theorem runs_filesRun {α : Type} {f : FileTable → Except Stop (α × FileTable)}
    (h : ∀ t e, f t = .error e → e = .faulted) : Runs R E (filesRun f) where
  keeps := fun k a k' hrun => by
    unfold filesRun at hrun
    cases hf : f k.files with
    | error stop => simp [hf, Except.map] at hrun
    | ok r =>
      simp only [hf, Except.map, Except.ok.injEq, Prod.mk.injEq] at hrun
      rw [← hrun.2]
      exact FileMoves.files E k _
  stops := fun k e hrun => by
    unfold filesRun at hrun
    cases hf : f k.files with
    | ok r => simp [hf, Except.map] at hrun
    | error stop =>
      simp only [hf, Except.map, Except.error.injEq] at hrun
      rw [← hrun, h _ _ hf]
      exact FileMoves.faulted R k

instance : Runs R E fileNewDescriptorIn := by
  have hnew (desc : Nat) : Runs R E (filesRun fun t => fileNewDescriptor t desc) := by
    refine runs_filesRun fun t e h => ?_
    unfold fileNewDescriptor at h
    split at h
    · cases h
    · split_ifs at h
      cases h
      rfl
  unfold fileNewDescriptorIn
  refine @runs_bind _ _ _ _ _ _ _ _ _ inferInstance fun k => ?_
  split
  · infer_instance
  · infer_instance

set_option synthInstance.maxSize 2048 in
instance (filename modeStr : List UInt8) : Runs R E (fopen filename modeStr) := by
  unfold fopen
  infer_instance

instance {α : Type} (fd : Int) (missing : α) (f : FileDescriptor → KernelM α)
    [∀ d, Runs R E (f d)] : Runs R E (withDescriptor fd missing f) := by
  unfold withDescriptor
  infer_instance

instance (fd : Int) : Runs R E (fstat fd) := by
  unfold fstat
  infer_instance

instance (fd : Int) (offset whence : Nat) : Runs R E (fseek fd offset whence) := by
  unfold fseek
  infer_instance

instance (ptr size nmemb : Nat) (fd : Int) : Runs R E (fread ptr size nmemb fd) := by
  unfold fread
  infer_instance

instance (fd : Int) : Runs R E (fclose fd) := by
  have hfree (desc : Nat) : Runs R E (filesRun fun t => (fileFreeDescriptor t desc).map ((), ·)) := by
    refine runs_filesRun fun t e h => ?_
    unfold fileFreeDescriptor at h
    cases hstore : t.store desc with
    | none =>
      rw [hstore] at h
      cases h
      rfl
    | some d =>
      rw [hstore] at h
      cases h
  unfold fclose
  infer_instance

end BoiOS
