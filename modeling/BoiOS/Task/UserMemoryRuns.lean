import BoiOS.Task.UserMemory

/-! The malloc and free system calls in any order, by any of the live programs: as long as each
call is one the heap serves, the programs stay isolated. -/
namespace BoiOS
open Library.StateRun Library.Transition

structure UserCall where
  task : Nat
  call : HeapCall

/-- The scheduler has switched to the task of the caller. -/
def userCall (c : UserCall) : KernelM Unit := do
  let k ← get
  let tasks ← fetch (taskSwitch k.scheduler.tasks c.task)
  modify fun k => { k with scheduler := { k.scheduler with tasks } }
  match c.call with
  | .malloc size => do
      let _ ← isr80hCommand4Malloc size
  | .free ptr => isr80hCommand5Free ptr

/-- The size is a `size_t`. -/
def userStep (programs : List Program) : Step Kernel UserCall := fun k c k' =>
  (∃ g ∈ programs, g.task = c.task) ∧ (∀ size, c.call = .malloc size → size < 4294967296) ∧
    userCall c k = .ok ((), k')

def UserServed : Step Kernel UserCall := fun k c _ =>
  match c.call with
  | .malloc size => k.heap.Serves size
  | .free ptr => ∀ task, k.scheduler.tasks.store c.task = some task → k.ServesFree task.process ptr

theorem UserMemory.switch {programs : List Program} {k : Kernel} {g : Program} {tasks : Tasks}
    (hk : UserMemory programs k) (hg : g ∈ programs)
    (hstore : tasks.store = k.scheduler.tasks.store) :
    UserMemory programs { k with scheduler := { k.scheduler with tasks } } := by
  have hset : SameSetting g k { k with scheduler := { k.scheduler with tasks } } :=
    ⟨rfl, rfl, rfl, rfl, hstore, fun _ _ => rfl, fun p hp => ⟨p, hp, rfl, rfl, rfl, rfl⟩,
      (hk.runs g hg).directory, KeepsOthers.refl _ _⟩
  exact hk.keep_heap hg hset (fun _ _ => Kernel.allocation_same rfl _)
    (fun _ _ _ _ hget _ => hget) fun _ _ _ _ => rfl

theorem UserMemory.step {programs : List Program} {k k' : Kernel} {c : UserCall}
    (hk : UserMemory programs k) (hstep : userStep programs k c k')
    (hserved : UserServed k c k') : UserMemory programs k' := by
  obtain ⟨⟨g, hg, hcaller⟩, hsize, h⟩ := hstep
  unfold userCall at h
  replace h := bind_get_eq_ok.mp h
  obtain ⟨tasks, hswitch, h⟩ := bind_fetch_eq_ok.mp h
  obtain ⟨_, k₁, hmodify, h⟩ := bind_eq_ok.mp h
  have hk₁ := (modify_eq_ok.mp hmodify).symm
  obtain ⟨task, htask, hprocess, _⟩ := (hk.runs g hg).task
  rw [hcaller] at htask
  have htasks : tasks = { k.scheduler.tasks with currentTask := c.task } := by
    unfold taskSwitch at hswitch
    rw [htask, Option.map_some, Option.some.injEq] at hswitch
    exact hswitch.symm
  have hmemory : UserMemory programs k₁ := by
    rw [hk₁]
    exact hk.switch hg (by rw [htasks])
  have hcurrent : taskCurrentProcess k₁.scheduler.tasks = some g.process := by
    rw [hk₁, taskCurrentProcess, htasks]
    dsimp only
    rw [htask, Option.map_some, hprocess]
  have hheap : k₁.heap = k.heap := by rw [hk₁]
  cases hcall : c.call with
  | malloc size =>
    rw [hcall] at h
    unfold UserServed at hserved
    rw [hcall] at hserved
    obtain ⟨ptr, k₂, hmalloc, h⟩ := bind_eq_ok.mp h
    obtain ⟨_, rfl⟩ := pure_eq_ok.mp h
    unfold isr80hCommand4Malloc at hmalloc
    replace hmalloc := bind_get_eq_ok.mp hmalloc
    obtain ⟨process, hp, hmalloc⟩ := bind_fetch_eq_ok.mp hmalloc
    obtain rfl := Option.some.inj (hcurrent.symm.trans hp)
    exact hmemory.malloc hg (hsize size hcall) (by rw [hheap]; exact hserved)
      (processMalloc_eq_ok hmalloc)
  | free ptr =>
    rw [hcall] at h
    unfold UserServed at hserved
    rw [hcall] at hserved
    unfold isr80hCommand5Free at h
    replace h := bind_get_eq_ok.mp h
    obtain ⟨process, hp, h⟩ := bind_fetch_eq_ok.mp h
    obtain rfl := Option.some.inj (hcurrent.symm.trans hp)
    have hfree := hserved task htask
    rw [hprocess] at hfree
    refine hmemory.free hg ?_ (processFree_eq_ok h)
    unfold Kernel.ServesFree
    rw [hheap, hk₁]
    exact hfree

/-- In every run of malloc and free calls that the heap serves, by programs whose images, stacks
and allocations are apart at the start, the programs stay isolated. -/
theorem user_memory_isolated {programs : List Program} {k : Kernel}
    (hstart : UserMemory programs k) (run : List (UserCall × Kernel))
    (hrun : Path (userStep programs) k run) (hserved : Along UserServed k run) :
    MemoryIsolated programs k ∧ Along (fun _ _ t => MemoryIsolated programs t) k run := by
  refine ⟨hstart.isolated, ?_⟩
  exact along_of_invariant (fun _ _ _ hk hstep hserved => hk.step hstep hserved)
    (fun _ _ _ hk hstep hserved => (hk.step hstep hserved).isolated) k run hstart hrun hserved

/-- Programs that were just started, with no allocations: their images and stacks lie in different
taken blocks and are all of the heap that they may write. -/
structure Started (programs : List Program) (k : Kernel) : Prop where
  aligned : k.heap.startAddress % 4096 = 0
  positive : 0 < k.heap.startAddress
  below : k.heap.startAddress + 4096 * k.heap.table.totalEntries < 4294967296
  small : k.heap.table.totalEntries < 524288
  runs : ∀ g ∈ programs, g.Runs k
  apart : programs.Pairwise Program.Apart
  fresh : ∀ g ∈ programs, ∀ i, (k.allocation g.process i).ptr = 0
  taken : ∀ g ∈ programs, ∀ r s n, g.Owns k r s n → 0 < n ∧ 0 ≤ s ∧
    s + n ≤ k.heap.table.totalEntries ∧ ∀ b, s ≤ b → b < s + n → ¬ k.heap.table.IsFree b
  exclusive : ∀ g ∈ programs, ∀ h ∈ programs, ∀ r q s n s' n', g.Owns k r s n →
    h.Owns k q s' n' → (g.process, r) ≠ (h.process, q) → s + n ≤ s' ∨ s' + n' ≤ s
  pages : ∀ g ∈ programs, ∀ page < 4294967296, page % 4096 = 0 → ∀ entry,
    pagingGet k.pages g.directory page = .ok entry → entry &&& 7 = 7 →
      k.heap.Has (pagingFrame entry) → ∃ r s n, g.Owns k r s n ∧
        s ≤ k.heap.blockOf (pagingFrame entry) ∧ k.heap.blockOf (pagingFrame entry) < s + n

theorem Started.userMemory {programs : List Program} {k : Kernel} (h : Started programs k) :
    UserMemory programs k := by
  have hnone : ∀ g ∈ programs, ∀ i s n, ¬ g.Owns k (.allocation i) s n :=
    fun g hg i s n howns => howns.2.1 (h.fresh g hg i)
  refine ⟨h.aligned, h.positive, h.below, h.small, h.runs, h.apart, ?_, h.taken, ?_, h.exclusive, ?_⟩
  · intro g hg i _ j _ hne
    exact absurd (h.fresh g hg i) hne
  · intro g hg i s n howns
    exact absurd howns (hnone g hg i s n)
  · intro g hg page hpage haligned entry hget hflags hheap
    obtain ⟨r, s, n, howns, hlow, hhigh⟩ := h.pages g hg page hpage haligned entry hget hflags hheap
    refine ⟨r, s, n, howns, hlow, hhigh, ?_⟩
    rintro i rfl
    exact absurd howns (hnone g hg i s n)

/-! One program on a heap of eight blocks: its image is block 0, its stack blocks 1 to 4. -/

def oneProgram : Program :=
  { process := 0x3000, task := 0x4000, chunk := 0x5000, directory := 0x6000
    tables := fun i => 0x2000000 + 4096 * i, image := (0, 1), stack := 1 }

def oneProgramKernel : Kernel :=
  { emptyKernel 8 with
    heap := ⟨⟨fun i => if 0 ≤ i ∧ i < 5 then 0x01 else 0x00, 8, []⟩, boiosHeapAddress⟩
    scheduler :=
      { store := fun _ => some { processInit with
          filetype := processFileTypeBin, ptr := 0x1000000, stack := 0x1001000, task := 0x4000 }
        processes := fun _ => 0
        currentProcess := 0
        tasks := ⟨fun _ => some (taskInit 0x5000 0x3000 boiosProgramVirtualAddress), 0, 0, 0⟩ }
    pages :=
      { chunks := fun _ => some 0x6000
        arrays := fun a => some fun i => if a = 0x6000 then 0x2000000 + 4096 * i else 0
        entered := [] } }

theorem oneProgramKernel_isDirectory :
    IsDirectory oneProgramKernel.pages 0x6000 fun i => 0x2000000 + 4096 * i := by
  refine ⟨⟨_, rfl, fun i hi => ?_⟩, fun i hi => ⟨_, rfl⟩, fun i hi => by omega,
    fun i hi j hj h => by omega⟩
  unfold pagingFrame
  rw [if_pos rfl]
  omega

theorem oneProgramKernel_started : Started [oneProgram] oneProgramKernel := by
  have hregions : ∀ r s n, oneProgram.Owns oneProgramKernel r s n →
      (r = .image ∧ s = 0 ∧ n = 1) ∨ (r = .stack ∧ s = 1 ∧ n = 4) := by
    intro r s n howns
    cases r with
    | image => exact Or.inl ⟨rfl, howns.1, howns.2⟩
    | stack => exact Or.inr ⟨rfl, howns.1, howns.2⟩
    | allocation i => exact absurd rfl howns.2.1
  have hdirectory := oneProgramKernel_isDirectory
  refine ⟨by decide, by decide, by decide, by decide, ?_, List.pairwise_singleton .., ?_, ?_, ?_, ?_⟩
  · intro g hg
    obtain rfl := List.mem_singleton.mp hg
    exact ⟨⟨_, rfl, rfl, by decide +kernel, by decide +kernel⟩, ⟨_, rfl, rfl, rfl⟩, rfl, hdirectory⟩
  · intro g hg i
    obtain rfl := List.mem_singleton.mp hg
    rfl
  · intro g hg r s n howns
    obtain rfl := List.mem_singleton.mp hg
    have htaken : ∀ b : Int, 0 ≤ b → b < 5 → ¬ oneProgramKernel.heap.table.IsFree b := by
      intro b hb hb'
      have hentry : oneProgramKernel.heap.table.entries b = 0x01 := if_pos ⟨hb, hb'⟩
      exact not_isFree_of_taken hentry (by decide)
    have htotal : oneProgramKernel.heap.table.totalEntries = 8 := rfl
    rw [htotal]
    rcases hregions r s n howns with ⟨_, rfl, rfl⟩ | ⟨_, rfl, rfl⟩
    · exact ⟨by decide, by decide, by decide, fun b hb hb' => htaken b (by omega) (by omega)⟩
    · exact ⟨by decide, by decide, by decide, fun b hb hb' => htaken b (by omega) (by omega)⟩
  · intro g hg h hh r q s n s' n' h₁ h₂ hne
    obtain rfl := List.mem_singleton.mp hg
    obtain rfl := List.mem_singleton.mp hh
    rcases hregions r s n h₁ with ⟨rfl, rfl, rfl⟩ | ⟨rfl, rfl, rfl⟩
    · rcases hregions q s' n' h₂ with ⟨rfl, _⟩ | ⟨rfl, rfl, rfl⟩
      · exact absurd rfl hne
      · exact Or.inl (by decide)
    · rcases hregions q s' n' h₂ with ⟨rfl, rfl, rfl⟩ | ⟨rfl, _⟩
      · exact Or.inr (by decide)
      · exact absurd rfl hne
  · intro g hg page hpage haligned entry hget hflags
    obtain rfl := List.mem_singleton.mp hg
    -- the tables are blank
    have hblank : pagingGet oneProgramKernel.pages 0x6000 page = .ok 0 := by
      rw [pagingGet_of_aligned haligned]
      unfold pagingEntry
      rw [hdirectory.table hpage, access_some]
      have hne : 0x2000000 + 4096 * pagingDirectoryIndex page ≠ 0x6000 := by omega
      exact congrArg Except.ok (if_neg hne)
    rw [show oneProgram.directory = 0x6000 from rfl, hblank, Except.ok.injEq] at hget
    rw [← hget] at hflags
    exact absurd hflags (by decide)

def oneCall (call : HeapCall) : UserCall := ⟨0x4000, call⟩

def twoCalls (first second : HeapCall) : KernelM (ProcessAllocation × ProcessAllocation) := do
  userCall (oneCall first)
  userCall (oneCall second)
  let k ← get
  pure (k.allocation 0x3000 0, k.allocation 0x3000 1)

theorem twoCalls_eq_ok {first second : HeapCall} {k k' : Kernel}
    {seen : ProcessAllocation × ProcessAllocation} (h : twoCalls first second k = .ok (seen, k')) :
    ∃ k₁, userCall (oneCall first) k = .ok ((), k₁) ∧ userCall (oneCall second) k₁ = .ok ((), k') ∧
      (k'.allocation 0x3000 0, k'.allocation 0x3000 1) = seen := by
  unfold twoCalls at h
  obtain ⟨_, k₁, hfirst, h⟩ := bind_eq_ok.mp h
  obtain ⟨_, k₂, hsecond, h⟩ := bind_eq_ok.mp h
  replace h := bind_get_eq_ok.mp h
  obtain ⟨hseen, rfl⟩ := pure_eq_ok.mp h
  exact ⟨k₁, hfirst, hsecond, hseen⟩

theorem twoCalls_zero : value? (twoCalls (.malloc 0) (.malloc 0) oneProgramKernel) =
    some (⟨0x1005000, 0⟩, ⟨0x1005000, 0⟩) := by
  decide +kernel

theorem twoCalls_served : value? (twoCalls (.malloc 100) (.free 0x1005000) oneProgramKernel) =
    some (⟨0, 0⟩, ⟨0, 0⟩) := by
  decide +kernel

theorem user_memory_isolated_oneProgram : ∃ k₁ k₂ : Kernel,
    MemoryIsolated [oneProgram] oneProgramKernel ∧
      Along (fun _ _ t => MemoryIsolated [oneProgram] t) oneProgramKernel
        [(oneCall (.malloc 100), k₁), (oneCall (.free 0x1005000), k₂)] := by
  obtain ⟨k₂, h⟩ := exists_of_value? twoCalls_served
  obtain ⟨k₁, hfirst, hsecond, _⟩ := twoCalls_eq_ok h
  refine ⟨k₁, k₂, user_memory_isolated oneProgramKernel_started.userMemory _ ?_ ?_⟩
  · exact ⟨⟨⟨oneProgram, List.mem_singleton.mpr rfl, rfl⟩,
        fun size hsize => by obtain rfl := HeapCall.malloc.inj hsize; decide, hfirst⟩,
      ⟨⟨oneProgram, List.mem_singleton.mpr rfl, rfl⟩, fun _ hsize => HeapCall.noConfusion hsize,
        hsecond⟩,
      trivial⟩
  · refine ⟨Or.inl ⟨by decide, by decide, fun hno => hno 5 (by decide) (by decide) ?_⟩,
      fun _ _ => Or.inl (by decide), trivial⟩
    intro i hi hi'
    have hi5 : i = 5 := by
      have hone : (blocksFor 100 : Int) = 1 := by decide
      omega
    rw [hi5]
    decide

theorem user_memory_not_always_isolated : ¬ ∀ (programs : List Program) (k : Kernel),
    Started programs k → ∀ run, Path (userStep programs) k run →
      Along (fun _ _ t => MemoryIsolated programs t) k run := by
  intro hall
  obtain ⟨k₂, h⟩ := exists_of_value? twoCalls_zero
  obtain ⟨k₁, hfirst, hsecond, hseen⟩ := twoCalls_eq_ok h
  have hpath : Path (userStep [oneProgram]) oneProgramKernel
      [(oneCall (.malloc 0), k₁), (oneCall (.malloc 0), k₂)] :=
    ⟨⟨⟨oneProgram, List.mem_singleton.mpr rfl, rfl⟩,
        fun size hsize => by obtain rfl := HeapCall.malloc.inj hsize; decide, hfirst⟩,
      ⟨⟨oneProgram, List.mem_singleton.mpr rfl, rfl⟩,
        fun size hsize => by obtain rfl := HeapCall.malloc.inj hsize; decide, hsecond⟩, trivial⟩
  obtain ⟨_, hisolated, _⟩ := hall _ _ oneProgramKernel_started _ hpath
  obtain ⟨hzero, hone⟩ := Prod.mk.inj hseen
  have hsame := hisolated.once oneProgram (List.mem_singleton.mpr rfl) 0 (by decide) 1 (by decide)
  rw [show oneProgram.process = 0x3000 from rfl, hzero, hone] at hsame
  exact absurd (hsame (by decide) rfl) (by decide)

end BoiOS
