import BoiOS.Task.LoadFailure

/-! Tasks for which there is no memory. Neither the block of a task nor those of its directory are
tested before they are used, so that the first one that is missing is a null pointer that the kernel
goes through; nothing is answered. -/
namespace BoiOS
open Library.StateRun

/-- What a task takes, in the order in which it is asked for: the task itself, the directory, its
tables and the chunk. -/
def taskBlocks : List Nat :=
  sizeofTask :: 4 * pagingTotalEntriesPerTable ::
    (List.replicate pagingTotalEntriesPerTable (4 * pagingTotalEntriesPerTable) ++ [4])

def Heap.ServesAll (heap : Heap) : List Nat → Prop
  | [] => True
  | size :: sizes => (heapMalloc heap size).1 ≠ 0 ∧ (heapMalloc heap size).2.ServesAll sizes

instance decidableServesAll (heap : Heap) : (sizes : List Nat) → Decidable (heap.ServesAll sizes)
  | [] => inferInstanceAs (Decidable True)
  | size :: sizes =>
      let _ := decidableServesAll (heapMalloc heap size).2 sizes
      inferInstanceAs (Decidable (_ ∧ _))

/-! What the directory does without memory. -/

theorem kzalloc_servesAll {size : Nat} (hsize : size ≤ 0xFFFFF000) (k : Kernel) :
    ∃ ptr k', kzalloc size k = .ok (ptr, k') ∧ k'.pages = k.pages ∧ (ptr ≠ 0 →
      ∀ sizes, k'.heap.ServesAll sizes → k.heap.ServesAll (size :: sizes)) :=
  ⟨_, _, kzalloc_apply hsize k, rfl, fun hptr _ hrest => ⟨hptr, hrest⟩⟩

theorem pagingNew4gbLoop_cases (directory flags count i : Nat) (k : Kernel) :
    (∃ k', pagingNew4gbLoop directory flags count i k = .ok ((), k') ∧
      ∀ sizes, k'.heap.ServesAll sizes → k.heap.ServesAll
        (List.replicate count (4 * pagingTotalEntriesPerTable) ++ sizes)) ∨
      pagingNew4gbLoop directory flags count i k = .error .faulted := by
  induction count generalizing i k with
  | zero => exact Or.inl ⟨k, rfl, fun _ hserves => hserves⟩
  | succ count ih =>
    obtain ⟨entry, k₁, halloc, -, hserves⟩ :=
      kzalloc_servesAll (by decide : 4 * pagingTotalEntriesPerTable ≤ 0xFFFFF000) k
    unfold pagingNew4gbLoop
    rw [bind_of_ok halloc]
    by_cases hnull : entry = 0
    · rw [if_pos hnull]
      exact Or.inr rfl
    rw [if_neg hnull, bind_of_ok (modify_apply _ _), bind_of_ok (get_apply _)]
    cases hentries : (k₁.pages.putArray entry (pagingIdentityTable flags i)).arrays directory with
    | none =>
      rw [bind_of_error (fetch_none _)]
      exact Or.inr rfl
    | some entries =>
      rw [bind_of_ok (fetch_some _ _), bind_of_ok (modify_apply _ _)]
      refine (ih (i + 1) _).imp ?_ id
      rintro ⟨k', hloop, hrest⟩
      exact ⟨k', hloop, fun sizes hsizes => hserves hnull _ (hrest sizes hsizes)⟩

theorem pagingNew4gb_cases (flags : Nat) {k : Kernel} (hnull : k.pages.arrays 0 = none) :
    (∃ chunk k', pagingNew4gb flags k = .ok (chunk, k') ∧
      k.heap.ServesAll (4 * pagingTotalEntriesPerTable ::
        (List.replicate pagingTotalEntriesPerTable (4 * pagingTotalEntriesPerTable) ++ [4]))) ∨
      pagingNew4gb flags k = .error .faulted := by
  obtain ⟨directory, k₁, halloc, hpages, hserves⟩ :=
    kzalloc_servesAll (by decide : 4 * pagingTotalEntriesPerTable ≤ 0xFFFFF000) k
  have hobject := bind_of_ok halloc fun ptr => do
    modify fun k => if ptr = 0 then k else
      { k with pages := k.pages.putArray ptr fun _ => 0 }
    pure ptr
  unfold pagingNew4gb kzallocObject
  rw [bind_of_ok (hobject.trans (bind_of_ok (modify_apply _ _) _))]
  by_cases hdirectory : directory = 0
  · rw [if_pos hdirectory, hdirectory, bind_of_error]
    · exact Or.inr rfl
    · exact pagingNew4gbLoop_null flags 0 (by decide) (by rwa [hpages])
  rw [if_neg hdirectory]
  rcases pagingNew4gbLoop_cases directory flags pagingTotalEntriesPerTable 0
    { k₁ with pages := k₁.pages.putArray directory fun _ => 0 } with ⟨k₂, hloop, hrest⟩ | hstop
  · obtain ⟨chunk, k₃, hchunk, -, hlast⟩ := kzalloc_servesAll (by decide : 4 ≤ 0xFFFFF000) k₂
    rw [bind_of_ok hloop, bind_of_ok hchunk]
    by_cases hnone : chunk = 0
    · rw [if_pos hnone]
      exact Or.inr rfl
    · rw [if_neg hnone]
      exact Or.inl ⟨chunk, _, rfl, hserves hdirectory _ (hrest _ (hlast hnone [] trivial))⟩
  · rw [bind_of_error hstop]
    exact Or.inr rfl

theorem taskNew_faults {k : Kernel} (hnull : k.pages.arrays 0 = none)
    (hfail : ¬ k.heap.ServesAll taskBlocks) (process : Nat) :
    taskNew process k = .error .faulted := by
  obtain ⟨task, k₁, halloc, hpages, hserves⟩ :=
    kzalloc_servesAll (by decide : sizeofTask ≤ 0xFFFFF000) k
  unfold taskNew
  rw [bind_of_ok halloc]
  by_cases htask : task = 0
  · rw [if_pos htask]
    rfl
  rw [if_neg htask]
  rcases pagingNew4gb_cases (pagingIsPresent ||| pagingAccessFromAll) (by rwa [hpages] :
    k₁.pages.arrays 0 = none) with ⟨_, _, -, hdirectory⟩ | hstop
  · exact absurd (hserves htask _ hdirectory) hfail
  · exact bind_of_error hstop _

/-! The load. -/

/-- `process_load_for_slot` up to the creation of the task; the process that gets one. -/
def processLoadForTask (filename : List UInt8) (processSlot : Nat) : KernelM (Option Nat) := do
  let k ← get
  if processGet k.scheduler processSlot ≠ 0 then throw .faulted
  else do
    let process ← kzallocObject sizeofProcess fun ptr => putProcess ptr processInit
    if process = 0 then pure none
    else do
      let res ← processLoadData filename process
      if res < 0 then pure none
      else do
        let programStackPtr ← kzalloc boiosUserProgramStackSize
        if programStackPtr = 0 then pure none
        else do
          modifyProcess process fun p => { p with
            filename := strncpy filename boiosMaxPath, stack := programStackPtr, pid := processSlot }
          pure (some process)

def ReachesTask (filename : List UInt8) (processSlot : Nat) (k : Kernel) (process : Nat)
    (k' : Kernel) : Prop :=
  processLoadForTask filename processSlot k = .ok (some process, k')

theorem ReachesTask.steps {filename : List UInt8} {processSlot process : Nat} {k k' : Kernel}
    (h : ReachesTask filename processSlot k process k') :
    ∃ k₁ k₂ k₃ res stack, ¬ processGet k.scheduler processSlot ≠ 0 ∧
      kzallocObject sizeofProcess (fun ptr => putProcess ptr processInit) k = .ok (process, k₁) ∧
      process ≠ 0 ∧ processLoadData filename process k₁ = .ok (res, k₂) ∧ ¬ res < 0 ∧
      kzalloc boiosUserProgramStackSize k₂ = .ok (stack, k₃) ∧ stack ≠ 0 ∧
      modifyProcess process (fun p => { p with
        filename := strncpy filename boiosMaxPath, stack, pid := processSlot }) k₃ =
          .ok ((), k') := by
  unfold ReachesTask processLoadForTask at h
  replace h := bind_get_eq_ok.mp h
  by_cases hslot : processGet k.scheduler processSlot ≠ 0
  · rw [if_pos hslot] at h
    exact (throw_eq_ok.mp h).elim
  rw [if_neg hslot] at h
  obtain ⟨process', k₁, hobject, h⟩ := bind_eq_ok.mp h
  by_cases hprocess : process' = 0
  · rw [if_pos hprocess] at h
    exact absurd (pure_eq_ok.mp h).1 (by simp)
  rw [if_neg hprocess] at h
  obtain ⟨res, k₂, hdata, h⟩ := bind_eq_ok.mp h
  by_cases hres : res < 0
  · rw [if_pos hres] at h
    exact absurd (pure_eq_ok.mp h).1 (by simp)
  rw [if_neg hres] at h
  obtain ⟨stack, k₃, hstack, h⟩ := bind_eq_ok.mp h
  by_cases hnone : stack = 0
  · rw [if_pos hnone] at h
    exact absurd (pure_eq_ok.mp h).1 (by simp)
  rw [if_neg hnone] at h
  obtain ⟨_, k₄, hset, h⟩ := bind_eq_ok.mp h
  obtain ⟨hsame, rfl⟩ := pure_eq_ok.mp h
  obtain rfl := Option.some.inj hsame
  exact ⟨k₁, k₂, k₃, res, stack, hslot, hobject, hprocess, hdata, hres, hstack, hnone, hset⟩

def processLoadWithTask (process processSlot : Nat) : KernelM (Int × Nat) := do
  let task ← taskNew process
  modifyProcess process fun p => { p with task }
  let res ← processMapMemory process
  if res < 0 then processLoadFailed process res
  else do
    modify fun k => { k with
      scheduler := { k.scheduler with
        processes := Function.update k.scheduler.processes processSlot process } }
    pure (res, process)

theorem ReachesTask.rest {filename : List UInt8} {processSlot process : Nat} {k k' : Kernel}
    (h : ReachesTask filename processSlot k process k') :
    KernelM.processLoadForSlot filename processSlot k =
      processLoadWithTask process processSlot k' := by
  obtain ⟨k₁, k₂, k₃, res, stack, hslot, hobject, hprocess, hdata, hres, hstack, hnone, hset⟩ :=
    h.steps
  unfold KernelM.processLoadForSlot
  rw [bind_of_ok (get_apply k), if_neg hslot, bind_of_ok hobject, if_neg hprocess, bind_of_ok hdata,
    if_neg hres, bind_of_ok hstack, if_neg hnone, bind_of_ok hset]
  rfl

theorem ReachesTask.stops {filename : List UInt8} {processSlot process : Nat} {k k' : Kernel}
    {stop : Stop} (h : ReachesTask filename processSlot k process k')
    (hstop : taskNew process k' = .error stop) :
    KernelM.processLoadForSlot filename processSlot k = .error stop := by
  rw [h.rest]
  unfold processLoadWithTask
  rw [bind_of_error hstop]

/-! What a failure should do. -/

/-- The answer of `task_new` is an error, and the task list is as it was. -/
def CreationDetected (process : Nat) (k : Kernel) : Prop :=
  ∃ task k', taskNew process k = .ok (task, k') ∧ i32 task < 0 ∧
    k'.scheduler.tasks = k.scheduler.tasks

/-- The load answers an error and puts no process into a slot. -/
def LoadDetected (filename : List UInt8) (processSlot : Nat) (k : Kernel) : Prop :=
  ∃ res k', KernelM.processLoadForSlot filename processSlot k = .ok (res, k') ∧ res.1 < 0 ∧
    k'.scheduler.processes = k.scheduler.processes

/-- No such failure is detected, in whatever state the heap and the task list are: the creation goes
through a null pointer, and so does every load that comes to it. -/
theorem task_new_failure_never_detected {k : Kernel} (hnull : k.pages.arrays 0 = none)
    (hfail : ¬ k.heap.ServesAll taskBlocks) (process : Nat) :
    taskNew process k = .error .faulted ∧ ¬ CreationDetected process k ∧
      ∀ (filename : List UInt8) (processSlot : Nat) (k₀ : Kernel),
        ReachesTask filename processSlot k₀ process k → ¬ LoadDetected filename processSlot k₀ := by
  have hstop := taskNew_faults hnull hfail process
  refine ⟨hstop, ?_, fun filename processSlot k₀ hreaches => ?_⟩
  · rintro ⟨task, k', hrun, -⟩
    rw [hstop] at hrun
    cases hrun
  · rintro ⟨res, k', hrun, -⟩
    rw [hreaches.stops hstop] at hrun
    cases hrun

/-! A flat binary of one byte, `0:/A`, and 24 blocks of heap: it is loaded, and what is left does not
do for its task. -/

def binaryRecord : List UInt8 :=
  65 :: List.replicate 10 32 ++ [0x20] ++ List.replicate 14 0 ++ [5, 0, 1, 0, 0, 0]

def binaryPrivate : FatPrivate where
  header := ⟨1, 1, 1, 16, 1⟩
  rootDirectory := ⟨0x5000, 1, 2, 3⟩
  clusterReadStream := 0x6000
  fatReadStream := 0x6008
  directoryStream := 0x6010

def binaryKernel : Kernel :=
  { emptyKernel 24 with
    memory := fun a => if 0x5000 ≤ a then binaryRecord.getD (a - 0x5000) 0 else 0
    disk := ⟨512, fat16Fs, some binaryPrivate, fun _ _ => 0⟩
    streams := fun _ => some 0 }

def binaryName : List UInt8 := [48, 58, 47, 65]

theorem binaryKernel_reachesTask : ∃ k, ReachesTask binaryName 0 binaryKernel 0x1000000 k ∧
    k.pages.arrays 0 = none ∧ ¬ k.heap.ServesAll taskBlocks := by
  have hvalue : value? ((do
      let process ← processLoadForTask binaryName 0
      let k ← get
      pure (process, (k.pages.arrays 0).isNone, decide (k.heap.ServesAll taskBlocks)) :
        KernelM (Option Nat × Bool × Bool)) binaryKernel) = some (some 0x1000000, true, false) := by
    decide +kernel
  obtain ⟨k, h⟩ := exists_of_value? hvalue
  obtain ⟨process, k₁, hload, h⟩ := bind_eq_ok.mp h
  replace h := bind_get_eq_ok.mp h
  obtain ⟨hseen, rfl⟩ := pure_eq_ok.mp h
  simp only [Prod.mk.injEq, Option.isNone_iff_eq_none, decide_eq_false_iff_not] at hseen
  obtain ⟨rfl, hnull, hfail⟩ := hseen
  exact ⟨_, hload, hnull, hfail⟩

theorem task_new_failure_binaryKernel : ∃ k,
    ReachesTask binaryName 0 binaryKernel 0x1000000 k ∧ taskNew 0x1000000 k = .error .faulted ∧
      ¬ LoadDetected binaryName 0 binaryKernel := by
  obtain ⟨k, hreaches, hnull, hfail⟩ := binaryKernel_reachesTask
  have hnever := task_new_failure_never_detected hnull hfail 0x1000000
  exact ⟨k, hreaches, hnever.1, hnever.2.2 _ _ _ hreaches⟩

theorem task_new_failure_not_always_detected : ¬ ∀ (process : Nat) (k : Kernel),
    k.pages.arrays 0 = none → ¬ k.heap.ServesAll taskBlocks → CreationDetected process k ∧
      ∀ (filename : List UInt8) (processSlot : Nat) (k₀ : Kernel),
        ReachesTask filename processSlot k₀ process k → LoadDetected filename processSlot k₀ := by
  intro hall
  obtain ⟨k, -, hnull, hfail⟩ := binaryKernel_reachesTask
  obtain ⟨task, k', hrun, -⟩ := (hall 0x1000000 k hnull hfail).1
  rw [taskNew_faults hnull hfail] at hrun
  cases hrun

end BoiOS
