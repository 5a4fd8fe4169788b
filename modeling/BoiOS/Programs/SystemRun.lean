import BoiOS.Fs.ClusterChain
import BoiOS.Library.Transition
import BoiOS.Programs.CommandLine
import BoiOS.Task.AllocationTable
import BoiOS.Task.SchedulerFrame

/-! What running a command line costs the caller. The words of the line are allocated for the caller
and never freed: the first allocation that succeeds takes an entry of its table for good. -/
namespace BoiOS
open Library.StateRun Library.Transition

/-! The first word. -/

inductive WordFrom (m : Memory) : Nat → Prop
  | here {a : Nat} (hspace : m a ≠ 32) (hend : m a ≠ 0) (hnull : a ≠ 0) : WordFrom m a
  | skip {a : Nat} (hspace : m a = 32) (hrest : WordFrom m (u32 (a + 1))) : WordFrom m a

theorem wordFrom_iff {m : Memory} {fuel a pStart : Nat}
    (h : strtokStart m [32] fuel a = .ok pStart) : WordFrom m a ↔ m pStart ≠ 0 ∧ pStart ≠ 0 := by
  induction fuel generalizing a with
  | zero => cases h
  | succ fuel ih =>
    unfold strtokStart at h
    by_cases hspace : m a = 32
    · rw [if_pos (List.mem_singleton.mpr hspace)] at h
      rw [← ih h]
      constructor
      · intro hword
        cases hword with
        | here hne => exact absurd hspace hne
        | skip _ hrest => exact hrest
      · exact .skip hspace
    · rw [if_neg (by rwa [List.mem_singleton]), Except.ok.injEq] at h
      subst h
      constructor
      · intro hword
        cases hword with
        | here _ hend hnull => exact ⟨hend, hnull⟩
        | skip hin => exact absurd hin hspace
      · rintro ⟨hend, hnull⟩
        exact .here hspace hend hnull

theorem strtok_eq_ok {str token : Nat} {u u' : Userland} (hstr : str ≠ 0)
    (h : strtok str [32] u = .ok (token, u')) : u'.kernel = u.kernel ∧
      (token ≠ 0 ↔ WordFrom u.own (if u.sp = 0 then str else u.sp)) := by
  unfold strtok at h
  rw [if_neg fun hnull => hstr hnull.1] at h
  cases hstart : strtokStart u.own [32] 4294967296 (if u.sp = 0 then str else u.sp) with
  | error stop =>
    rw [hstart] at h
    cases h
  | ok pStart =>
    rw [hstart] at h
    dsimp only [Except.bind] at h
    rw [wordFrom_iff hstart]
    by_cases hend : u.own pStart = 0
    · rw [if_pos hend, Except.ok.injEq, Prod.mk.injEq] at h
      rw [← h.1, ← h.2]
      exact ⟨rfl, iff_of_false (fun hne => hne rfl) fun hword => hword.1 hend⟩
    · rw [if_neg hend] at h
      cases hword : strtokEnd [32] 4294967296 u.own pStart with
      | error stop =>
        rw [hword] at h
        cases h
      | ok r =>
        rw [hword] at h
        simp only [Except.map, Except.ok.injEq, Prod.mk.injEq] at h
        rw [← h.1, ← h.2]
        exact ⟨rfl, fun hnull => ⟨hend, hnull⟩, fun hword => hword.2⟩

/-! The caller at work. -/

/-- The caller runs, and the heap holds the block of its structure. -/
structure Calling (caller : Nat) (k : Kernel) : Prop where
  nonnull : caller ≠ 0
  current : taskCurrentProcess k.scheduler.tasks = some caller
  guards : k.heap.Guards {k.heap.blockOf caller}

def KeepsUsed (caller : Nat) (k k' : Kernel) : Prop :=
  ∀ i, (k.allocation caller i).ptr ≠ 0 → k'.allocation caller i = k.allocation caller i

theorem KeepsUsed.trans {caller : Nat} {k k' k'' : Kernel} (h : KeepsUsed caller k k')
    (h' : KeepsUsed caller k' k'') : KeepsUsed caller k k'' := by
  intro i hused
  have hsame := h i hused
  rw [h' i (by rwa [hsame]), hsame]

theorem SameAllocations.allocation {caller : Nat} {k k' : Kernel} (h : SameAllocations caller k k')
    (i : Nat) : k'.allocation caller i = k.allocation caller i := by
  unfold SameAllocations at h
  unfold Kernel.allocation
  cases hp : k.scheduler.store caller with
  | none =>
    rw [hp, Option.map_none, Option.map_eq_none_iff] at h
    rw [h]
  | some p =>
    rw [hp, Option.map_some, Option.map_eq_some_iff] at h
    obtain ⟨p', hp', hallocations⟩ := h
    rw [hp']
    exact congrFun hallocations i

variable {caller : Nat}

theorem allocation_setMemory (k : Kernel) (heap : Heap) (memory : Memory) (pages : PageStore)
    (process i : Nat) :
    Kernel.allocation { k with heap, memory, pages } process i = k.allocation process i := rfl

theorem Calling.congr {k k' : Kernel} (h : Calling caller k)
    (htasks : k'.scheduler.tasks = k.scheduler.tasks)
    (hguards : k'.heap.Guards {k.heap.blockOf caller})
    (hstart : k'.heap.startAddress = k.heap.startAddress) : Calling caller k' := by
  refine ⟨h.nonnull, by rw [htasks, h.current], ?_⟩
  rw [Heap.blockOf_congr hstart]
  exact hguards

theorem placed_elsewhere {k : Kernel} (hnonnull : caller ≠ 0)
    (hguards : k.heap.Guards {k.heap.blockOf caller}) :
    (heapMalloc k.heap sizeofProcess).1 ≠ caller := by
  intro heq
  have hobtained := hguards.heapMalloc (show sizeofProcess < 4294967296 by decide)
  rw [heq] at hobtained
  obtain ⟨-, hfree, -⟩ := hobtained.block.resolve_left hnonnull
  exact hguards.not_free hfree rfl

theorem Calling.processMalloc {size ptr : Nat} {k k' : Kernel} (h : Calling caller k)
    (hsize : size < 4294967296) (hrun : processMalloc caller size k = .ok (ptr, k')) :
    Calling caller k' ∧ KeepsUsed caller k k' := by
  have hobtained := h.guards.heapMalloc hsize
  have hfreed := hobtained.guards.heapFree (h.guards.heapMalloc_freeable hsize)
  have hstart := (heapFree_startAddress (heapMalloc k.heap size).2 (heapMalloc k.heap size).1).trans
    hobtained.start
  have hkept {heap : Heap} {memory : Memory} {pages : PageStore}
      (hguards : heap.Guards {k.heap.blockOf caller})
      (hstart : heap.startAddress = k.heap.startAddress) :
      Calling caller { k with heap, memory, pages } ∧
        KeepsUsed caller k { k with heap, memory, pages } :=
    ⟨h.congr rfl hguards hstart, fun i _ => allocation_setMemory ..⟩
  cases processMalloc_eq_ok hrun with
  | outOfMemory => exact hkept hobtained.guards hobtained.start
  | noEntry => exact hkept hfreed hstart
  | unmapped => exact hkept hfreed hstart
  | entered p task res pages index hptr hp htask hmap hres hindex hfree =>
    refine ⟨h.congr rfl hobtained.guards hobtained.start, fun i hused => ?_⟩
    rw [Kernel.allocation_of_store hp] at hused ⊢
    rw [Kernel.allocation_of_store (putProcess_store_self ..)]
    refine Function.update_of_ne ?_ _ _
    rintro rfl
    exact hused hfree

theorem Calling.processMalloc_iff {size ptr : Nat} {k k' : Kernel} (h : Calling caller k)
    (hpos : 0 < size) (hsize : size ≤ 4096) (hrun : BoiOS.processMalloc caller size k = .ok (ptr, k')) :
    (ptr ≠ 0 ↔ 0 < k.heap.freeBlocks ∧
      ∃ i < boiosMaxProgramAllocations, (k.allocation caller i).ptr = 0) ∧
    (ptr = 0 → ∀ i, k'.allocation caller i = k.allocation caller i) ∧
    (ptr ≠ 0 → ∃ i < boiosMaxProgramAllocations, (k.allocation caller i).ptr = 0 ∧
      (k'.allocation caller i).ptr ≠ 0) := by
  rw [← (Heap.heapMalloc_served_iff h.guards.wellFormed hpos hsize).1]
  cases processMalloc_eq_ok hrun with
  | outOfMemory hzero =>
    exact ⟨iff_of_false (fun hne => hne rfl) fun htaken => htaken.1 hzero,
      fun _ i => allocation_setMemory .., fun hne => (hne rfl).elim⟩
  | noEntry p hptr hp hfull =>
    refine ⟨iff_of_false (fun hne => hne rfl) ?_, fun _ i => allocation_setMemory ..,
      fun hne => (hne rfl).elim⟩
    rintro ⟨-, i, hi, hunused⟩
    rw [Kernel.allocation_of_store hp] at hunused
    exact hfull i hi hunused
  | unmapped p task res pages hptr hp htask hmap hres =>
    -- the page behind the block is not below it
    exfalso
    have hobtained := h.guards.heapMalloc (show size < 4294967296 by omega)
    obtain ⟨hblock, -, -⟩ := hobtained.block.resolve_left hptr
    have haddress := hblock.address
    have haligned := h.guards.wellFormed.aligned
    have hbelow := h.guards.wellFormed.below
    have hhigh := hblock.high
    have hptraligned : (heapMalloc k.heap size).1 % 4096 = 0 := by omega
    unfold processMapAllocation at hmap
    rcases pagingMapTo_entered hptraligned hptraligned (pagingAlignAddress_aligned _) hmap with
      ⟨hlt, -⟩ | ⟨-, hzero, -⟩
    · unfold pagingAlignAddress pagingPageSize u32 at hlt
      dsimp only at hlt
      split_ifs at hlt <;> omega
    · omega
  | entered p task res pages index hptr hp htask hmap hres hindex hfree =>
    have hunused : (k.allocation caller index).ptr = 0 := by
      rwa [Kernel.allocation_of_store hp]
    refine ⟨iff_of_true hptr ⟨hptr, index, hindex, hunused⟩, fun hzero => (hptr hzero).elim,
      fun _ => ⟨index, hindex, hunused, ?_⟩⟩
    rw [Kernel.allocation_of_store (putProcess_store_self ..)]
    dsimp only
    rwa [Function.update_self]

/-! The program. -/

def Working (caller : Nat) (u u' : Userland) : Prop :=
  Calling caller u.kernel → Calling caller u'.kernel ∧ KeepsUsed caller u.kernel u'.kernel

instance : Std.Refl (Working caller) := ⟨fun _ h => ⟨h, fun _ _ => rfl⟩⟩

instance : IsTrans Userland (Working caller) where
  trans u u' u'' h h' hcalling := by
    obtain ⟨hfirst, hkeeps⟩ := h hcalling
    obtain ⟨hsecond, hkeeps'⟩ := h' hfirst
    exact ⟨hsecond, hkeeps.trans hkeeps'⟩

theorem Working.of_memory {u u' : Userland} {memory : Memory}
    (h : u'.kernel = { u.kernel with memory }) : Working caller u u' := by
  intro hcalling
  rw [h]
  exact ⟨hcalling.congr rfl hcalling.guards rfl, fun i _ => allocation_setMemory ..⟩

theorem strtok_kernel {str token : Nat} {delimeters : List UInt8} {u u' : Userland}
    (h : strtok str delimeters u = .ok (token, u')) : u'.kernel = u.kernel := by
  unfold strtok at h
  split at h
  · rw [Except.ok.injEq, Prod.mk.injEq] at h
    rw [← h.2]
  · cases hstart : strtokStart u.own delimeters 4294967296 (if u.sp = 0 then str else u.sp) with
    | error stop =>
      rw [hstart] at h
      cases h
    | ok pStart =>
      rw [hstart] at h
      dsimp only [Except.bind] at h
      split at h
      · rw [Except.ok.injEq, Prod.mk.injEq] at h
        rw [← h.2]
      · cases hword : strtokEnd delimeters 4294967296 u.own pStart with
        | error stop =>
          rw [hword] at h
          cases h
        | ok r =>
          rw [hword] at h
          simp only [Except.map, Except.ok.injEq, Prod.mk.injEq] at h
          rw [← h.2]

instance (str : Nat) (delimeters : List UInt8) : Kept (Working caller) (strtok str delimeters) := by
  constructor
  intro u token u' h
  exact Working.of_memory (show u'.kernel = { u.kernel with memory := u.kernel.memory } from
    strtok_kernel h)

theorem syscall_eq_ok {α : Type} {x : KernelM α} {a : α} {u u' : Userland}
    (h : syscall x u = .ok (a, u')) :
    ∃ kernel, x u.kernel = .ok (a, kernel) ∧ u' = { u with kernel } := by
  unfold syscall at h
  cases hx : x u.kernel with
  | error stop =>
    rw [hx] at h
    cases h
  | ok r =>
    rw [hx] at h
    simp only [Except.map, Except.ok.injEq, Prod.mk.injEq] at h
    exact ⟨r.2, by rw [← h.1], h.2.symm⟩

theorem boiosMalloc_eq_ok {size ptr : Nat} {u u' : Userland} (hcalling : Calling caller u.kernel)
    (h : boiosMalloc size u = .ok (ptr, u')) :
    ∃ kernel, processMalloc caller size u.kernel = .ok (ptr, kernel) ∧ u' = { u with kernel } := by
  obtain ⟨kernel, hrun, hu'⟩ := syscall_eq_ok h
  unfold isr80hCommand4Malloc at hrun
  rw [bind_of_ok (get_apply u.kernel), bind_of_ok (fetch_eq_ok.mpr ⟨hcalling.current, rfl⟩)] at hrun
  exact ⟨kernel, hrun, hu'⟩

instance : Kept (Working caller) (boiosMalloc sizeofCommandArgument) := by
  constructor
  intro u ptr u' h hcalling
  obtain ⟨kernel, hrun, hu'⟩ := boiosMalloc_eq_ok hcalling h
  rw [hu']
  exact hcalling.processMalloc (by decide) hrun

instance (node token : Nat) : Kept (Working caller) (fillCommandArgument node token) := by
  constructor
  intro u a u' h
  rw [← modify_eq_ok.mp h]
  exact Working.of_memory rfl

instance (current newCommand : Nat) :
    Kept (Working caller) (linkCommandArgument current newCommand) := by
  constructor
  intro u a u' h
  rw [← modify_eq_ok.mp h]
  exact Working.of_memory rfl

instance (fuel current : Nat) : Kept (Working caller) (boiosParseCommandLoop fuel current) := by
  induction fuel generalizing current with
  | zero => exact kept_throw _
  | succ fuel ih =>
    unfold boiosParseCommandLoop
    infer_instance

/-! Running a command line. -/

/-- The call of `boios_system_run`: the state of the caller, the address of the line and the
addresses of the two arrays on the stack. -/
structure CommandCall where
  start : Userland
  command : Nat
  buf : Nat
  scommand : Nat

def CommandCall.copied (c : CommandCall) : Memory :=
  let own := c.start.own.copyIn c.buf (c.start.own.stringAt c.command sizeofBuf ++ [0])
  own.copyIn c.scommand (own.stringAt c.buf sizeofScommand ++ [0])

/-- There is a word where the first call of `strtok` looks for it. -/
def CommandCall.HasWord (c : CommandCall) : Prop :=
  WordFrom c.copied (if c.start.sp = 0 then c.scommand else c.start.sp)

/-- There is a word, a block for it and an entry for the block. -/
def CommandCall.TakesNode (caller : Nat) (c : CommandCall) : Prop :=
  c.HasWord ∧ 0 < c.start.kernel.heap.freeBlocks ∧
    ∃ i < boiosMaxProgramAllocations, (c.start.kernel.allocation caller i).ptr = 0

structure SameTable (caller : Nat) (k k' : Kernel) : Prop where
  allocations : ∀ i < boiosMaxProgramAllocations, k'.allocation caller i = k.allocation caller i
  blocks : {ptr | ptr ≠ 0 ∧ ∃ i < boiosMaxProgramAllocations, (k'.allocation caller i).ptr = ptr} =
    {ptr | ptr ≠ 0 ∧ ∃ i < boiosMaxProgramAllocations, (k.allocation caller i).ptr = ptr}

theorem sameTable_iff {k k' : Kernel} : SameTable caller k k' ↔
    ∀ i < boiosMaxProgramAllocations, k'.allocation caller i = k.allocation caller i := by
  constructor
  · exact SameTable.allocations
  · intro h
    refine ⟨h, Set.ext fun ptr => and_congr_right fun _ => ?_⟩
    constructor
    · rintro ⟨i, hi, hptr⟩
      exact ⟨i, hi, by rwa [← h i hi]⟩
    · rintro ⟨i, hi, hptr⟩
      exact ⟨i, hi, by rwa [h i hi]⟩

/-- The entries in use stay, and a call that takes a node puts it in another one. -/
structure Charged (caller : Nat) (takes : Prop) (k k' : Kernel) : Prop where
  keeps : KeepsUsed caller k k'
  free : ¬ takes → ∀ i, k'.allocation caller i = k.allocation caller i
  taken : takes → ∃ i < boiosMaxProgramAllocations, (k.allocation caller i).ptr = 0 ∧
    (k'.allocation caller i).ptr ≠ 0

theorem Charged.after {takes : Prop} {k k' k'' : Kernel} (h : Charged caller takes k k')
    (hkeeps : KeepsUsed caller k' k'')
    (hfree : ¬ takes → ∀ i, k''.allocation caller i = k'.allocation caller i) :
    Charged caller takes k k'' := by
  refine ⟨h.keeps.trans hkeeps, fun hnot i => by rw [hfree hnot i, h.free hnot i], fun htakes => ?_⟩
  obtain ⟨i, hi, hunused, hused⟩ := h.taken htakes
  exact ⟨i, hi, hunused, by rwa [hkeeps i hused]⟩

theorem Charged.trans {takes takes' : Prop} {k k' k'' : Kernel} (h : Charged caller takes k k')
    (h' : Charged caller takes' k' k'') : Charged caller (takes ∨ takes') k k'' := by
  refine ⟨h.keeps.trans h'.keeps, fun hnot i => ?_, fun htakes => ?_⟩
  · rw [h'.free (fun htakes => hnot (Or.inr htakes)) i, h.free (fun htakes => hnot (Or.inl htakes)) i]
  · rcases htakes with htakes | htakes
    · obtain ⟨i, hi, hunused, hused⟩ := h.taken htakes
      exact ⟨i, hi, hunused, by rwa [h'.keeps i hused]⟩
    · obtain ⟨i, hi, hunused, hused⟩ := h'.taken htakes
      refine ⟨i, hi, by_contra fun hbefore => hbefore ?_, hused⟩
      rwa [← h.keeps i hbefore]

theorem Charged.sameTable_iff {takes : Prop} {k k' : Kernel} (h : Charged caller takes k k') :
    SameTable caller k k' ↔ ¬ takes := by
  rw [BoiOS.sameTable_iff]
  constructor
  · intro hsame htakes
    obtain ⟨i, hi, hunused, hused⟩ := h.taken htakes
    rw [hsame i hi] at hused
    exact hused hunused
  · exact fun hnot i _ => h.free hnot i

theorem KeepsUsed.of_same {k k' : Kernel}
    (h : ∀ i, k'.allocation caller i = k.allocation caller i) : KeepsUsed caller k k' :=
  fun i _ => h i

theorem Charged.of_same {takes : Prop} {k k' : Kernel} (hnot : ¬ takes)
    (h : ∀ i, k'.allocation caller i = k.allocation caller i) : Charged caller takes k k' :=
  ⟨.of_same h, fun _ => h, fun htakes => (hnot htakes).elim⟩

theorem copyOwn_eq_ok {dest src count : Nat} {u u' : Userland} {a : Unit}
    (h : copyOwn dest src count u = .ok (a, u')) :
    u' = { u with own := u.own.copyIn dest (u.own.stringAt src count ++ [0]) } :=
  (modify_eq_ok.mp h).symm

theorem boiosParseCommand_charged {c : CommandCall} {root : Nat} {u u' : Userland}
    (hcalling : Calling caller c.start.kernel) (hscommand : c.scommand ≠ 0)
    (hu : copyOwn c.buf c.command sizeofBuf c.start = .ok ((), u))
    (h : boiosParseCommand c.buf sizeofBuf c.scommand u = .ok (root, u')) :
    (root ≠ 0 ↔ c.TakesNode caller) ∧ Calling caller u'.kernel ∧
      Charged caller (c.TakesNode caller) c.start.kernel u'.kernel := by
  have hkernel : u.kernel = c.start.kernel := by rw [copyOwn_eq_ok hu]
  have hsp : u.sp = c.start.sp := by rw [copyOwn_eq_ok hu]
  unfold boiosParseCommand at h
  rw [if_neg (by decide)] at h
  obtain ⟨_, u₁, hcopy, h⟩ := bind_eq_ok.mp h
  have hcopied : u₁.own = c.copied := by
    rw [copyOwn_eq_ok hcopy, copyOwn_eq_ok hu, CommandCall.copied]
  have hkernel₁ : u₁.kernel = c.start.kernel := by rw [copyOwn_eq_ok hcopy, hkernel]
  have hsp₁ : u₁.sp = c.start.sp := by rw [copyOwn_eq_ok hcopy, hsp]
  obtain ⟨token, u₂, htoken, h⟩ := bind_eq_ok.mp h
  obtain ⟨hkernel₂, hword⟩ := strtok_eq_ok hscommand htoken
  rw [hcopied, hsp₁] at hword
  rw [hkernel₁] at hkernel₂
  by_cases hblank : token = 0
  · rw [if_pos hblank] at h
    obtain ⟨hroot, hu'⟩ := pure_eq_ok.mp h
    have hnot : ¬ c.TakesNode caller := fun htakes => hword.mpr htakes.1 hblank
    rw [← hroot, ← hu', hkernel₂]
    exact ⟨iff_of_false (fun hne => hne rfl) hnot, hcalling, .of_same hnot fun _ => rfl⟩
  rw [if_neg hblank] at h
  have hhas : c.HasWord := hword.mp hblank
  obtain ⟨node, u₃, hmalloc, h⟩ := bind_eq_ok.mp h
  have hcalling₂ : Calling caller u₂.kernel := by rwa [hkernel₂]
  obtain ⟨kernel, hrun, hu₃⟩ := boiosMalloc_eq_ok hcalling₂ hmalloc
  rw [hkernel₂] at hrun
  obtain ⟨hiff, hrefused, hentered⟩ := hcalling.processMalloc_iff (by decide) (by decide) hrun
  have htakes : node ≠ 0 ↔ c.TakesNode caller :=
    ⟨fun hne => ⟨hhas, hiff.mp hne⟩, fun htakes => hiff.mpr htakes.2⟩
  obtain ⟨hcalling₃, hkeeps⟩ := hcalling.processMalloc (by decide) hrun
  have hcharged : Charged caller (c.TakesNode caller) c.start.kernel kernel :=
    ⟨hkeeps, fun hnot => hrefused (not_ne_iff.mp fun hne => hnot (htakes.mp hne)),
      fun h => hentered (htakes.mpr h)⟩
  by_cases hnull : node = 0
  · rw [if_pos hnull] at h
    obtain ⟨hroot, hu'⟩ := pure_eq_ok.mp h
    rw [← hroot, ← hu', hu₃]
    exact ⟨iff_of_false (fun hne => hne rfl) fun h => htakes.mpr h hnull, hcalling₃, hcharged⟩
  · rw [if_neg hnull] at h
    obtain ⟨_, u₄, hfill, h⟩ := bind_eq_ok.mp h
    obtain ⟨_, u₅, hloop, h⟩ := bind_eq_ok.mp h
    obtain ⟨hroot, hu'⟩ := pure_eq_ok.mp h
    have hnext : Working caller u₃ u₅ :=
      IsTrans.trans _ _ _ (Kept.run inferInstance hfill) (Kept.run inferInstance hloop)
    obtain ⟨hcalling₅, hkeeps₅⟩ := hnext (by rwa [hu₃])
    rw [hu₃] at hkeeps₅
    rw [← hroot, ← hu']
    exact ⟨htakes, hcalling₅, hcharged.after hkeeps₅ fun hnot => (hnot (htakes.mp hnull)).elim⟩

theorem boiosSystemRun_charged {c : CommandCall} {r : Option Int} {u' : Userland}
    (hcalling : Calling caller c.start.kernel) (hscommand : c.scommand ≠ 0)
    (h : boiosSystemRun c.command c.buf c.scommand c.start = .ok (r, u')) :
    Charged caller (c.TakesNode caller) c.start.kernel u'.kernel ∧
      (r = none → c.TakesNode caller) := by
  unfold boiosSystemRun at h
  obtain ⟨_, u, hcopy, h⟩ := bind_eq_ok.mp h
  obtain ⟨root, u₁, hparse, h⟩ := bind_eq_ok.mp h
  obtain ⟨hroot, hcalling₁, hcharged⟩ := boiosParseCommand_charged hcalling hscommand hcopy hparse
  by_cases hnull : root = 0
  · rw [if_pos hnull] at h
    obtain ⟨hr, hu'⟩ := pure_eq_ok.mp h
    rw [← hu', ← hr]
    exact ⟨hcharged, fun hnone => by cases hnone⟩
  · rw [if_neg hnull] at h
    obtain ⟨kernel, hcommand, hu'⟩ := syscall_eq_ok h
    have hsame := isr80hCommand7_sameAllocations
      (placed_elsewhere hcalling₁.nonnull hcalling₁.guards) hcommand
    rw [hu']
    exact ⟨hcharged.after (.of_same hsame.allocation) fun _ => hsame.allocation,
      fun _ => hroot.mp hnull⟩

/-! Until the caller is back. -/

/-- What happens while another program runs: its own instructions, its system calls and its end, and
the keys that are pressed. -/
inductive OtherCall
  | compute (memory : Memory)
  | malloc (size : Nat)
  | free (ptr : Nat)
  | loadStart (filename : List UInt8)
  | invoke (stackItem : Nat)
  | openFile (filename : List UInt8)
  | getKey
  | exit
  | key (c : UInt8)

def modeRead : List UInt8 := [114]

def otherCall : OtherCall → KernelM Unit
  | .compute memory => modify fun k => { k with memory := memory }
  | .malloc size => do
      let _ ← isr80hCommand4Malloc size
  | .free ptr => isr80hCommand5Free ptr
  | .loadStart filename => KernelM.isr80hCommand6ProcessLoadStart filename
  | .invoke stackItem => do
      let _ ← isr80hCommand7InvokeSystemCommand stackItem
  | .openFile filename => do
      let _ ← fopen filename modeRead
  | .getKey => schedulerRun fun s => (keyboardPop s).map Prod.snd
  | .exit => KernelM.isr80hCommand9Exit
  | .key c => schedulerRun fun s => keyboardPush s c

/-- The task of another process is the current one, and the heap still holds the structure of the
caller. -/
def otherStep (caller : Nat) : Step Kernel OtherCall := fun k c k' =>
  (∃ process, taskCurrentProcess k.scheduler.tasks = some process ∧ process ≠ caller) ∧
    k.heap.Guards {k.heap.blockOf caller} ∧ otherCall c k = .ok ((), k')

theorem keyboardPush_allocations {s s' : Scheduler} {c : UInt8} (h : keyboardPush s c = .ok s') :
    (s'.store caller).map Process.allocations = (s.store caller).map Process.allocations := by
  unfold keyboardPush at h
  by_cases hnone : s.currentProcess = 0
  · rw [if_pos hnone, Except.ok.injEq] at h
    rw [h]
  rw [if_neg hnone] at h
  by_cases hnull : c = 0
  · rw [if_pos hnull, Except.ok.injEq] at h
    rw [h]
  rw [if_neg hnull] at h
  cases hp : s.store s.currentProcess with
  | none =>
    rw [hp] at h
    cases h
  | some p =>
    rw [hp] at h
    simp only [access_some, Except.map, Except.ok.injEq] at h
    rw [← h]
    by_cases hcaller : caller = s.currentProcess
    · rw [hcaller, hp]
      dsimp only
      rw [Function.update_self]
      rfl
    · dsimp only
      rw [Function.update_of_ne hcaller]

theorem keyboardPop_allocations {s : Scheduler} {r : UInt8 × Scheduler}
    (h : keyboardPop s = .ok r) :
    (r.2.store caller).map Process.allocations = (s.store caller).map Process.allocations := by
  unfold keyboardPop at h
  by_cases hnone : s.tasks.currentTask = 0
  · rw [if_pos hnone, Except.ok.injEq] at h
    rw [← h]
  rw [if_neg hnone] at h
  cases hprocess : taskCurrentProcess s.tasks with
  | none =>
    rw [hprocess] at h
    cases h
  | some process =>
    rw [hprocess] at h
    dsimp only [access_some, Except.bind] at h
    cases hp : s.store process with
    | none =>
      rw [hp] at h
      cases h
    | some p =>
      rw [hp] at h
      simp only [access_some, Except.map, Except.ok.injEq] at h
      rw [← h]
      by_cases hempty : p.keyboard.buffer (u32 p.keyboard.head % boiosKeyboardBufferSize) = 0
      · rw [if_pos hempty]
      rw [if_neg hempty]
      by_cases hcaller : caller = process
      · rw [hcaller, hp]
        dsimp only
        rw [Function.update_self]
        rfl
      · dsimp only
        rw [Function.update_of_ne hcaller]

theorem isr80hCommand6_sameAllocations {filename : List UInt8} {k k' : Kernel}
    (hplace : (heapMalloc k.heap sizeofProcess).1 ≠ caller)
    (hrun : KernelM.isr80hCommand6ProcessLoadStart filename k = .ok ((), k')) :
    SameAllocations caller k k' := by
  unfold KernelM.isr80hCommand6ProcessLoadStart at hrun
  obtain ⟨⟨res, process⟩, k₁, hload, hrun⟩ := bind_eq_ok.mp hrun
  exact IsTrans.trans _ _ _ (processLoadSwitch_sameAllocations hplace hload)
    (Kept.run inferInstance hrun)

theorem taskNext_store {s s' : Scheduler} (h : taskNext s = .ok s') : s'.store = s.store := by
  unfold taskNext at h
  cases hnext : taskGetNext s.tasks with
  | none =>
    rw [hnext] at h
    cases h
  | some nextTask =>
    rw [hnext] at h
    dsimp only [access_some, Except.bind] at h
    by_cases hnull : nextTask = 0
    · rw [if_pos hnull] at h
      cases h
    rw [if_neg hnull] at h
    cases htasks : taskSwitch s.tasks nextTask with
    | none =>
      rw [htasks] at h
      cases h
    | some tasks =>
      rw [htasks] at h
      simp only [access_some, Except.map, Except.ok.injEq] at h
      rw [← h]

theorem otherStep_sameAllocations {k k' : Kernel} {c : OtherCall} (hnonnull : caller ≠ 0)
    (h : otherStep caller k c k') : SameAllocations caller k k' := by
  obtain ⟨⟨process, hcurrent, hne⟩, hguards, hrun⟩ := h
  have hother : Fact (process ≠ caller) := ⟨hne⟩
  have hplace := placed_elsewhere hnonnull hguards
  cases c with
  | compute memory =>
    rw [← modify_eq_ok.mp hrun]
    exact (rfl : _ = _)
  | malloc size =>
    obtain ⟨ptr, k₁, hmalloc, hrun⟩ := bind_eq_ok.mp hrun
    rw [← (pure_eq_ok.mp hrun).2]
    unfold isr80hCommand4Malloc at hmalloc
    rw [bind_of_ok (get_apply k), bind_of_ok (fetch_eq_ok.mpr ⟨hcurrent, rfl⟩)] at hmalloc
    exact Kept.run inferInstance hmalloc
  | free ptr =>
    change isr80hCommand5Free ptr k = .ok ((), k') at hrun
    unfold isr80hCommand5Free at hrun
    rw [bind_of_ok (get_apply k), bind_of_ok (fetch_eq_ok.mpr ⟨hcurrent, rfl⟩)] at hrun
    exact Kept.run inferInstance hrun
  | loadStart filename => exact isr80hCommand6_sameAllocations hplace hrun
  | invoke stackItem =>
    obtain ⟨r, k₁, hcommand, hrun⟩ := bind_eq_ok.mp hrun
    rw [← (pure_eq_ok.mp hrun).2]
    exact isr80hCommand7_sameAllocations hplace hcommand
  | openFile filename =>
    obtain ⟨fd, k₁, hopen, hrun⟩ := bind_eq_ok.mp hrun
    rw [← (pure_eq_ok.mp hrun).2]
    exact Kept.run inferInstance hopen
  | getKey =>
    change schedulerRun (fun s => (keyboardPop s).map Prod.snd) k = .ok ((), k') at hrun
    refine (kept_schedulerRun fun s s' h => ?_).run hrun
    cases hpop : keyboardPop s with
    | error stop =>
      rw [hpop] at h
      cases h
    | ok r =>
      rw [hpop] at h
      simp only [Except.map, Except.ok.injEq] at h
      rw [← h]
      exact keyboardPop_allocations hpop
  | exit =>
    change KernelM.isr80hCommand9Exit k = .ok ((), k') at hrun
    unfold KernelM.isr80hCommand9Exit at hrun
    rw [bind_of_ok (get_apply k), bind_of_ok (fetch_eq_ok.mpr ⟨hcurrent, rfl⟩)] at hrun
    obtain ⟨res, k₁, hterminate, hrun⟩ := bind_eq_ok.mp hrun
    have hnext : Kept (SameAllocations caller) (schedulerRun taskNext) :=
      kept_schedulerRun fun s s' h => by rw [taskNext_store h]
    exact IsTrans.trans _ _ _ (Kept.run inferInstance hterminate) (hnext.run hrun)
  | key c => exact (kept_schedulerRun fun s s' h => keyboardPush_allocations h).run hrun

/-- The call came back to the caller: with a status, or when the program that it started, and those
that ran after it, had left the processor to the caller. -/
inductive SystemRunReturns (caller : Nat) (c : CommandCall) : Userland → Prop
  | status {res : Int} {u : Userland}
      (h : boiosSystemRun c.command c.buf c.scommand c.start = .ok (some res, u)) :
      SystemRunReturns caller c u
  | resumed {u : Userland} {run : List (OtherCall × Kernel)}
      (h : boiosSystemRun c.command c.buf c.scommand c.start = .ok (none, u))
      (hpath : Path (otherStep caller) u.kernel run)
      (hback : taskCurrentProcess (last u.kernel run).scheduler.tasks = some caller) :
      SystemRunReturns caller c { u with kernel := last u.kernel run }

theorem SystemRunReturns.charged {c : CommandCall} {u' : Userland}
    (hcalling : Calling caller c.start.kernel) (hscommand : c.scommand ≠ 0)
    (h : SystemRunReturns caller c u') :
    Charged caller (c.TakesNode caller) c.start.kernel u'.kernel := by
  cases h with
  | status h => exact (boiosSystemRun_charged hcalling hscommand h).1
  | resumed h hpath hback =>
    rename_i u run
    obtain ⟨hcharged, -⟩ := boiosSystemRun_charged hcalling hscommand h
    have hkeep : ∀ k c k', SameAllocations caller u.kernel k → otherStep caller k c k' →
        SameAllocations caller u.kernel k' := fun k c k' hk hstep =>
      IsTrans.trans _ _ _ hk (otherStep_sameAllocations hcalling.nonnull hstep)
    have hsame := last_of_path hkeep u.kernel run (Std.Refl.refl _) hpath
    exact hcharged.after (.of_same hsame.allocation) fun _ => hsame.allocation

/-- The next command. What the caller did since the one before, reading the line and the keys, left
its table alone. -/
def commandStep (caller : Nat) : Step Userland CommandCall := fun u c u' =>
  SameAllocations caller u.kernel c.start.kernel ∧ Calling caller c.start.kernel ∧
    c.scommand ≠ 0 ∧ SystemRunReturns caller c u'

theorem charged_run {u : Userland} {run : List (CommandCall × Userland)}
    (hpath : Path (commandStep caller) u run) :
    Charged caller (∃ r ∈ run, r.1.TakesNode caller) u.kernel (last u run).kernel := by
  induction run generalizing u with
  | nil => exact .of_same (by simp) fun _ => rfl
  | cons r rest ih =>
    obtain ⟨c, u'⟩ := r
    obtain ⟨⟨hbefore, hcalling, hscommand, hreturns⟩, hrest⟩ := hpath
    have hcall := (Charged.of_same not_false hbefore.allocation).trans
      (hreturns.charged hcalling hscommand)
    have hrun := hcall.trans (ih hrest)
    rw [false_or] at hrun
    rwa [List.exists_mem_cons_iff]

/-- A run of commands leaves the table of the caller as it was exactly if none of them takes a
node. -/
theorem boios_system_run_keeps_table_iff {u : Userland} {run : List (CommandCall × Userland)}
    (hpath : Path (commandStep caller) u run) :
    SameTable caller u.kernel (last u run).kernel ↔ ∀ r ∈ run, ¬ r.1.TakesNode caller := by
  rw [(charged_run hpath).sameTable_iff]
  push Not
  exact Iff.rfl

/-! A caller on a heap of 16 blocks, of which its structure takes three, and a drive without a file. -/

def shellProcess : Nat := 0x1000000

def shellKernel : Kernel :=
  { oneProgramKernel with
    disk := ⟨512, 1, some chainPrivate, fun _ _ => 0⟩
    heap := ⟨⟨fun i => if i = 0 then 0xC1 else if i = 1 then 0x81 else if i = 2 then 0x01
      else bootEntries i, 16, []⟩, boiosHeapAddress⟩
    scheduler :=
      { store := fun _ => some { processInit with task := 0x4000 }
        processes := fun _ => 0
        currentProcess := shellProcess
        tasks := ⟨fun _ => some (taskInit 0x5000 shellProcess boiosProgramVirtualAddress),
          0x4000, 0x4000, 0x4000⟩ } }

def shellLine (c : UInt8) : CommandCall :=
  ⟨⟨shellKernel, fun a => if a = 0x3F0000 then c else 0, 0⟩, 0x3F0000, 0x3F1000, 0x3F2000⟩

def shellRun (c : UInt8) : Except Stop (Option Int × Userland) :=
  boiosSystemRun (shellLine c).command (shellLine c).buf (shellLine c).scommand (shellLine c).start

def shellAfter (c : UInt8) : Userland :=
  match shellRun c with
  | .ok (_, u) => u
  | .error _ => (shellLine c).start

theorem shellKernel_wellFormed : shellKernel.heap.WellFormed := by
  have hentry : ∀ b : Int, shellKernel.heap.table.entries b =
      if b = 0 then 0xC1 else if b = 1 then 0x81 else if b = 2 then 0x01 else bootEntries b :=
    fun _ => rfl
  have hcases : ∀ b : Int, 0 ≤ b → shellKernel.heap.table.HasNext b → b = 0 ∨ b = 1 := by
    intro b hb hnext
    unfold HeapTable.HasNext at hnext
    rw [hentry, bootEntries_eq_zero hb] at hnext
    split_ifs at hnext with h₀ h₁ h₂
    · exact Or.inl h₀
    · exact Or.inr h₁
    · exact absurd hnext (by decide)
    · exact absurd hnext (by decide)
  refine ⟨by decide, by decide, by decide, freeOfNullStaysBelow_boot rfl rfl,
    fun b hb _ hnext => ?_, fun b hb _ hnext => ?_⟩
  · rcases hcases b hb hnext with rfl | rfl
    · exact ⟨by decide, by decide⟩
    · exact ⟨by decide, by decide⟩
  · rcases hcases b hb hnext with rfl | rfl
    · decide
    · decide

theorem shellKernel_calling : Calling shellProcess shellKernel := by
  refine ⟨by decide, rfl, shellKernel_wellFormed, fun b hb => ?_⟩
  obtain rfl := Set.mem_singleton_iff.mp hb
  exact ⟨by decide, by decide, by decide, by decide⟩

theorem shellLine_step {c : UInt8} {res : Int} (h : value? (shellRun c) = some (some res)) :
    commandStep shellProcess (shellLine c).start (shellLine c) (shellAfter c) := by
  refine ⟨Std.Refl.refl _, shellKernel_calling, (by decide : 0x3F2000 ≠ 0), ?_⟩
  unfold shellAfter
  cases hrun : shellRun c with
  | error stop =>
    rw [hrun] at h
    cases h
  | ok r =>
    rw [hrun] at h
    have hr : r.1 = some res := Option.some.inj h
    obtain ⟨a, u⟩ := r
    obtain rfl : a = some res := hr
    exact .status hrun

theorem boios_system_run_keeps_table_iff_shellLine :
    SameTable shellProcess (shellLine 0).start.kernel (shellAfter 0).kernel := by
  have hrefused : value? (shellRun 0) = some (some (-1)) := by decide +kernel
  have hblank : (shellLine 0).copied 0x3F2000 = 0 := by decide +kernel
  have hpath : Path (commandStep shellProcess) (shellLine 0).start [(shellLine 0, shellAfter 0)] :=
    ⟨shellLine_step hrefused, trivial⟩
  have hiff := boios_system_run_keeps_table_iff hpath
  rw [last_cons, last_nil] at hiff
  refine hiff.mpr fun r hr htakes => ?_
  obtain rfl := List.mem_singleton.mp hr
  have hword : WordFrom (shellLine 0).copied 0x3F2000 := htakes.1
  cases hword with
  | here _ hend => exact hend hblank
  | skip hspace => exact absurd (hblank.symm.trans hspace) (by decide)

theorem boios_system_run_not_always_keeps_table :
    ¬ ∀ (caller : Nat) (u : Userland) (run : List (CommandCall × Userland)),
      Path (commandStep caller) u run → SameTable caller u.kernel (last u run).kernel := by
  intro h
  have hrefused : value? (shellRun 97) = some (some (-1)) := by decide +kernel
  have hpath : Path (commandStep shellProcess) (shellLine 97).start [(shellLine 97, shellAfter 97)] :=
    ⟨shellLine_step hrefused, trivial⟩
  have hsame := (h shellProcess _ _ hpath).allocations 0 (by decide)
  have htaken : ((shellAfter 97).kernel.allocation shellProcess 0).ptr = 0x1003000 := by
    decide +kernel
  have hunused : ((shellLine 97).start.kernel.allocation shellProcess 0).ptr = 0 := by
    decide +kernel
  rw [last_cons, last_nil] at hsame
  rw [hsame, hunused] at htaken
  cases htaken

end BoiOS
