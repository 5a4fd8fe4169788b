import BoiOS.Task.ProgramLoads

/-! Commands that fail. Up to the load an error leaves the processes, the current process and the tasks
as they were. A program that was loaded stays when its arguments cannot be copied: it has its slot and
its task, and it is the current process, beside the caller that gets the error. -/
namespace BoiOS
open Library.StateRun

structure Tasks.Ends (ts : Tasks) : Prop where
  null : ts.store 0 = none
  head : ∃ t, ts.store ts.taskHead = some t
  tail : ∃ t, ts.store ts.taskTail = some t ∧ t.next = 0

theorem taskFreeUnlink_link {ts linked ts' : Tasks} {task : Nat} {t : Task} (h : ts.Ends)
    (hcurrent : ∃ c, ts.store ts.currentTask = some c) (hfresh : ts.store task = none)
    (hnext : t.next = 0) (hlink : taskNewLink ts task t = some linked)
    (hunlink : taskFreeUnlink linked task = some ts') : ts' = ts := by
  have hapart {a : Nat} (ha : ∃ c, ts.store a = some c) : ¬ task = a := by
    rintro rfl
    obtain ⟨c, hc⟩ := ha
    rw [hfresh] at hc
    cases hc
  obtain ⟨last, hlast, hzero⟩ := h.tail
  have hhead := hapart h.head
  have hrunning := hapart hcurrent
  have htail := hapart ⟨last, hlast⟩
  have hpresent {a : Nat} (ha : ∃ c, ts.store a = some c) : a ≠ 0 := by
    rintro rfl
    obtain ⟨c, hc⟩ := ha
    rw [h.null] at hc
    cases hc
  have hempty := hpresent h.head
  have htailNull := hpresent ⟨last, hlast⟩
  obtain ⟨store, current, tail, head⟩ := ts
  dsimp only at hhead hrunning htail hempty htailNull hfresh hlast
  let store' := Function.update (Function.update (Function.update store task (some t)) tail
    (some { last with next := task })) task (some { t with prev := tail })
  have hlinked : taskNewLink ⟨store, current, tail, head⟩ task t =
      some ⟨store', current, task, head⟩ := by
    simp [taskNewLink, Tasks.modify, hempty, Ne.symm htail, htail, hlast, store']
  rw [hlinked, Option.some.injEq] at hlink
  have hunlinked : taskFreeUnlink ⟨store', current, task, head⟩ task = some
      ⟨Function.update (Function.update store' tail (some { last with next := t.next })) task none,
        current, tail, head⟩ := by
    simp [taskFreeUnlink, taskListRemove, taskListRemoveLinks, taskListRemoveCursors, Tasks.modify,
      htailNull, htail, Ne.symm htail, hhead, hrunning, store']
  rw [← hlink, hunlinked, Option.some.injEq] at hunlink
  rw [← hunlink]
  congr 1
  funext a
  by_cases ha : a = task
  · rw [ha, Function.update_self, hfresh]
  rw [Function.update_of_ne ha]
  by_cases ha' : a = tail
  · rw [ha', Function.update_self, hlast, hnext, ← hzero]
  rw [Function.update_of_ne ha']
  dsimp only [store']
  rw [Function.update_of_ne ha, Function.update_of_ne ha', Function.update_of_ne ha]

/-! What copying the arguments leaves. -/

def KeepsLists (k k' : Kernel) : Prop := SameLists k.scheduler k'.scheduler

instance : Std.Refl KeepsLists := ⟨fun _ => .refl _⟩

instance : IsTrans Kernel KeepsLists := ⟨fun _ _ _ h h' => SameLists.trans h h'⟩

instance (priority := low) {α : Type} (x : KernelM α) [hx : Kept SameScheduler x] :
    Kept KeepsLists x := by
  constructor
  intro k a k' h
  have hsame : k'.scheduler = k.scheduler := hx.run h
  exact .of_eq hsame

instance (process : Nat) (f : Process → Process) : Kept KeepsLists (modifyProcess process f) := by
  constructor
  intro k u k' h
  obtain ⟨p, -, hk'⟩ := modifyProcess_eq_ok h
  rw [hk']
  exact ⟨rfl, rfl, rfl⟩

instance (process size : Nat) : Kept KeepsLists (processMalloc process size) := by
  constructor
  intro k ptr k' h
  cases processMalloc_eq_ok h with
  | outOfMemory => exact ⟨rfl, rfl, rfl⟩
  | noEntry => exact ⟨rfl, rfl, rfl⟩
  | unmapped => exact ⟨rfl, rfl, rfl⟩
  | entered => exact ⟨rfl, rfl, rfl⟩

instance (m : Memory) (fuel current : Nat) :
    Kept KeepsLists (processCountCommandArgumentsLoop m fuel current) := by
  induction fuel generalizing current with
  | zero => exact kept_throw _
  | succ fuel ih =>
    unfold processCountCommandArgumentsLoop
    infer_instance

instance (process argv fuel i current : Nat) :
    Kept KeepsLists (processInjectArgumentsLoop process argv fuel i current) := by
  induction fuel generalizing i current with
  | zero => exact kept_throw _
  | succ fuel ih =>
    unfold processInjectArgumentsLoop
    infer_instance

set_option synthInstance.maxSize 2048 in
instance (process rootArgument : Nat) :
    Kept KeepsLists (processInjectArguments process rootArgument) := by
  unfold processInjectArguments processCountCommandArguments
  infer_instance

/-! The load. -/

theorem processLoad_failed_lists {P : Set Int} {filename : List UInt8} {r : Int × Nat}
    {k k' : Kernel} (h : k.heap.Guards P) (hnull : k.NullFree) (h0 : 0 ∉ filename)
    (htasks : ∀ a t, k.scheduler.tasks.store a = some t → k.heap.blockOf a ∈ P)
    (hends : k.scheduler.tasks.Ends)
    (hcurrent : ∃ c, k.scheduler.tasks.store k.scheduler.tasks.currentTask = some c)
    (hrun : KernelM.processLoad filename k = .ok (r, k')) (hneg : r.1 < 0) :
    SameLists k.scheduler k'.scheduler := by
  rcases processLoad_failed h hnull h0 hrun hneg with ⟨-, hk'⟩ | ⟨-, process, hfailed⟩
  · rw [hk']
    exact .refl _
  refine ⟨hfailed.processes, hfailed.currentProcess, ?_⟩
  cases hfailed.tasks with
  | same hsame => exact hsame
  | @freed task pageDirectory ip linked _ hnew hlink hunlink =>
    have hfresh : k.scheduler.tasks.store task = none := by
      cases hstore : k.scheduler.tasks.store task with
      | none => rfl
      | some t => exact absurd (htasks task t hstore) hnew
    exact taskFreeUnlink_link hends hcurrent hfresh rfl hlink hunlink

/-! The command. -/

def CommandLoads (stackItem : Nat) (k : Kernel) : Prop :=
  ∃ task arguments,
    k.scheduler.tasks.store k.scheduler.tasks.currentTask = some task ∧
    taskVirtualAddressToPhysical k task stackItem = .ok arguments ∧
    ¬ (arguments = 0 ∨ k.memory arguments = 0) ∧
    ProgramLoads (programPath (k.memory.stringAt arguments boiosMaxPath)) k

theorem commandLoads_iff {stackItem arguments : Nat} {task : Task} {k : Kernel}
    (htask : k.scheduler.tasks.store k.scheduler.tasks.currentTask = some task)
    (harguments : taskVirtualAddressToPhysical k task stackItem = .ok arguments) :
    CommandLoads stackItem k ↔ ¬ (arguments = 0 ∨ k.memory arguments = 0) ∧
      ProgramLoads (programPath (k.memory.stringAt arguments boiosMaxPath)) k := by
  constructor
  · rintro ⟨task', arguments', htask', harguments', hsome, hloads⟩
    obtain rfl := Option.some.inj (htask.symm.trans htask')
    obtain rfl := Except.ok.inj (harguments.symm.trans harguments')
    exact ⟨hsome, hloads⟩
  · rintro ⟨hsome, hloads⟩
    exact ⟨task, arguments, htask, harguments, hsome, hloads⟩

/-- A program that was loaded is in a slot, is the current process and has a task in the list. -/
def StaysLoaded (s s' : Scheduler) : Prop :=
  ∃ slot process task pageDirectory ip, slot < boiosMaxProcesses ∧ s.processes slot = 0 ∧
    process ≠ 0 ∧ s'.processes = Function.update s.processes slot process ∧
    s'.currentProcess = process ∧
    taskNewLink s.tasks task (taskInit pageDirectory process ip) = some s'.tasks

theorem StaysLoaded.not_sameLists {s s' : Scheduler} (h : StaysLoaded s s') : ¬ SameLists s s' := by
  obtain ⟨slot, process, task, pageDirectory, ip, -, hzero, hnonnull, hprocesses, -⟩ := h
  intro hsame
  have hslot : s'.processes slot = process := by
    rw [hprocesses, Function.update_self]
  rw [hsame.processes, hzero] at hslot
  exact hnonnull hslot.symm

/-- What an error of the command leaves: nothing if the program was not loaded, and the program if
its arguments could not be copied. -/
theorem isr80hCommand7_failed {P : Set Int} {stackItem : Nat} {code : Int} {k k' : Kernel}
    (h : k.heap.Guards P) (hnull : k.NullFree)
    (htasks : ∀ a t, k.scheduler.tasks.store a = some t → k.heap.blockOf a ∈ P)
    (hends : k.scheduler.tasks.Ends)
    (hrun : isr80hCommand7InvokeSystemCommand stackItem k = .ok (some code, k')) :
    code < 0 ∧ (¬ CommandLoads stackItem k ∧ SameLists k.scheduler k'.scheduler ∨
      CommandLoads stackItem k ∧ StaysLoaded k.scheduler k'.scheduler) := by
  unfold isr80hCommand7InvokeSystemCommand at hrun
  replace hrun := bind_get_eq_ok.mp hrun
  obtain ⟨task, htask, hrun⟩ := bind_fetch_eq_ok.mp hrun
  obtain ⟨arguments, k₀, hpointer, hrun⟩ := bind_eq_ok.mp hrun
  obtain ⟨harguments, hk₀⟩ := taskPointer_eq_ok hpointer
  rw [hk₀] at hrun
  replace hrun := bind_get_eq_ok.mp hrun
  rw [commandLoads_iff htask harguments]
  by_cases hnone : arguments = 0 ∨ k.memory arguments = 0
  · rw [if_pos hnone] at hrun
    obtain ⟨hcode, rfl⟩ := pure_eq_ok.mp hrun
    exact ⟨by rw [← Option.some.inj hcode]; decide, Or.inl ⟨fun hloads => hloads.1 hnone, .refl _⟩⟩
  rw [if_neg hnone] at hrun
  obtain ⟨⟨res, process⟩, k₂, hswitch, hrun⟩ := bind_eq_ok.mp hrun
  unfold KernelM.processLoadSwitch at hswitch
  obtain ⟨⟨res₁, process₁⟩, k₁, hload, hswitch⟩ := bind_eq_ok.mp hswitch
  have h0 : 0 ∉ programPath (k.memory.stringAt arguments boiosMaxPath) :=
    programPath_nonzero (strncpy_nonzero _ _)
  have hloads := processLoad_zero_iff h hnull h0 hload
  dsimp only at hswitch hrun hloads
  by_cases hneg : res₁ < 0
  · have hlists := processLoad_failed_lists h hnull h0 htasks hends ⟨task, htask⟩ hload hneg
    rw [if_neg (by omega)] at hswitch
    obtain ⟨heq, rfl⟩ := pure_eq_ok.mp hswitch
    obtain ⟨rfl, rfl⟩ := Prod.mk.inj heq
    rw [if_pos hneg] at hrun
    obtain ⟨hcode, rfl⟩ := pure_eq_ok.mp hrun
    refine ⟨by rwa [← Option.some.inj hcode], Or.inl ⟨?_, hlists⟩⟩
    rintro ⟨-, hprogram⟩
    exact absurd (hloads.mpr hprogram) (by omega)
  · obtain ⟨hzero, slot, hslot, hfree, -, hloaded⟩ :=
      processLoad_loaded h hnull h0 hload (by dsimp only; omega)
    dsimp only at hzero hloaded
    rw [if_pos hzero] at hswitch
    obtain ⟨_, k₃, hcurrent, hswitch⟩ := bind_eq_ok.mp hswitch
    obtain ⟨heq, rfl⟩ := pure_eq_ok.mp hswitch
    obtain ⟨rfl, rfl⟩ := Prod.mk.inj heq
    have hk₃ := modify_eq_ok.mp hcurrent
    rw [if_neg hneg] at hrun
    obtain ⟨res₂, k₄, hinject, hrun⟩ := bind_eq_ok.mp hrun
    have hkept : SameLists k₃.scheduler k₄.scheduler :=
      Kept.run (inferInstance : Kept KeepsLists (processInjectArguments process₁ arguments)) hinject
    by_cases hfailed : res₂ < 0
    · rw [if_pos hfailed] at hrun
      obtain ⟨hcode, rfl⟩ := pure_eq_ok.mp hrun
      obtain ⟨task', pageDirectory, ip, -, -, hlink⟩ := hloaded.tasks
      refine ⟨by rwa [← Option.some.inj hcode], Or.inr ⟨⟨hnone, hloads.mp hzero⟩, slot, process₁,
        task', pageDirectory, ip, hslot, hfree, hloaded.nonnull, ?_, ?_, ?_⟩⟩
      · rw [hkept.processes, ← hk₃]
        exact hloaded.processes
      · rw [hkept.currentProcess, ← hk₃]
        rfl
      · rw [hkept.tasks, ← hk₃]
        exact hlink
    · rw [if_neg hfailed] at hrun
      obtain ⟨_, _, -, hrun⟩ := bind_eq_ok.mp hrun
      obtain ⟨_, _, -, hrun⟩ := bind_eq_ok.mp hrun
      obtain ⟨_, _, -, hrun⟩ := bind_eq_ok.mp hrun
      exact absurd (pure_eq_ok.mp hrun).1 (by simp)

theorem run_command_undone_iff {P : Set Int} {stackItem : Nat} {code : Int} {k k' : Kernel}
    (h : k.heap.Guards P) (hnull : k.NullFree)
    (htasks : ∀ a t, k.scheduler.tasks.store a = some t → k.heap.blockOf a ∈ P)
    (hends : k.scheduler.tasks.Ends)
    (hrun : isr80hCommand7InvokeSystemCommand stackItem k = .ok (some code, k')) :
    code < 0 ∧ (SameLists k.scheduler k'.scheduler ↔ ¬ CommandLoads stackItem k) := by
  obtain ⟨hneg, ⟨hnot, hsame⟩ | ⟨hloads, hstays⟩⟩ := isr80hCommand7_failed h hnull htasks hends hrun
  · exact ⟨hneg, fun _ => hnot, fun _ => hsame⟩
  · exact ⟨hneg, fun hsame => absurd hsame hstays.not_sameLists, fun hnot => absurd hloads hnot⟩

/-! A command that fails for want of memory. -/

theorem processMalloc_full {k : Kernel} (hwf : k.heap.WellFormed) (hfull : k.heap.freeBlocks = 0)
    {size : Nat} (hlow : 1 ≤ size) (hhigh : size ≤ 4096) (process : Nat) :
    ∃ k', processMalloc process size k = .ok (0, k') := by
  obtain ⟨ptr, k', halloc, -⟩ := kzalloc_small hwf hlow hhigh
  obtain ⟨hserved, -⟩ := kzalloc_served_iff hwf hlow hhigh halloc
  have hnull : ptr = 0 := by
    by_contra hptr
    have hfree := hserved.mp hptr
    omega
  refine ⟨k', ?_⟩
  unfold processMalloc
  rw [bind_of_ok halloc, if_pos hnull]
  rfl

theorem processCountCommandArguments_one {k : Kernel} {root : Nat} (hroot : root ≠ 0)
    (hnext : commandNext k.memory root = 0) : processCountCommandArguments root k = .ok (1, k) := by
  have hlast (fuel : Nat) : processCountCommandArgumentsLoop k.memory (fuel + 1) 0 k = .ok (0, k) :=
    rfl
  have hfirst (fuel : Nat) :
      processCountCommandArgumentsLoop k.memory (fuel + 2) root k = .ok (1, k) := by
    rw [processCountCommandArgumentsLoop, if_neg hroot, hnext, bind_of_ok (hlast fuel)]
    rfl
  unfold processCountCommandArguments
  rw [bind_of_ok (get_apply k)]
  exact hfirst 4294967294

theorem isr80hCommand7_outOfMemory {P : Set Int} {k₀ k : Kernel} {task : Task} {p : Process}
    {stackItem arguments slot process : Nat} (hguards : k₀.heap.Guards P) (hnull : k₀.NullFree)
    (htask : k₀.scheduler.tasks.store k₀.scheduler.tasks.currentTask = some task)
    (harguments : taskVirtualAddressToPhysical k₀ task stackItem = .ok arguments)
    (hsome : ¬ (arguments = 0 ∨ k₀.memory arguments = 0))
    (hslot : processGetFreeSlot k₀.scheduler = slot)
    (hreaches : ReachesTask (programPath (k₀.memory.stringAt arguments boiosMaxPath)) slot k₀
      process k)
    (hp : k.scheduler.store process = some p) (hbinary : p.filetype = processFileTypeBin)
    (hsize : p.size ≤ 0x40000000) (hends : k₀.scheduler.tasks.Ends)
    (hroom : k.heap.freeBlocks = 1027) (hnext : commandNext k.memory arguments = 0)
    (hin : ∀ i < 4, arguments + sizeofArgument + i < 4294967296 ∧
      k₀.heap.blockOf (arguments + sizeofArgument + i) ∈ P) :
    CommandLoads stackItem k₀ ∧ ∃ k',
      isr80hCommand7InvokeSystemCommand stackItem k₀ = .ok (some (-enomem), k') := by
  have h0 : 0 ∉ programPath (k₀.memory.stringAt arguments boiosMaxPath) :=
    programPath_nonzero (strncpy_nonzero _ _)
  obtain ⟨S, _, hloading, -⟩ := hreaches.loading hguards hnull h0
  have hlist : k₀.scheduler.tasks.Appendable := by
    obtain ⟨last, hlast, -⟩ := hends.tail
    exact Or.inr ⟨last, hlast⟩
  obtain ⟨k₁, hload, hswitch, hcount, hmemory⟩ := processLoadSwitch_returns hguards hnull h0 hslot
    hreaches hp hbinary hsize hlist (by omega)
  obtain ⟨-, _, -, -, -, hloaded⟩ := processLoad_loaded hguards hnull h0 hload (le_refl 0)
  refine ⟨(commandLoads_iff htask harguments).mpr
    ⟨hsome, (processLoad_zero_iff hguards hnull h0 hload).mp rfl⟩, ?_⟩
  let k₂ : Kernel := { k₁ with scheduler := processSwitch k₁.scheduler process }
  have hone : processCountCommandArguments arguments k₂ = .ok (1, k₂) := by
    refine processCountCommandArguments_one (not_or.mp hsome).1 ?_
    rw [← hnext]
    unfold commandNext
    rw [show (arguments : Int) + sizeofArgument = (arguments + sizeofArgument : Nat) by omega]
    refine Memory.load32_congr fun i hi => ?_
    obtain ⟨hlt, hblock⟩ := hin i hi
    unfold Memory.load8
    rw [u32_natCast hlt]
    exact congrArg UInt8.toNat (hmemory _ hlt (by rwa [hloading.frame.blockOf]))
  have hwf : k₂.heap.WellFormed := hloaded.frame.guards.wellFormed
  have hfull : k₂.heap.freeBlocks = 0 := by
    change k₁.heap.freeBlocks = 0
    omega
  have hfour : u32 (4 * ((1 : Nat) : Int)) = 4 := by decide +kernel
  obtain ⟨k₃, hmalloc⟩ := processMalloc_full hwf hfull (by decide : 1 ≤ 4) (by decide) process
  refine ⟨k₃, ?_⟩
  have hinject : processInjectArguments process arguments k₂ = .ok (-enomem, k₃) := by
    unfold processInjectArguments
    rw [bind_of_ok hone, if_neg (by decide), hfour, bind_of_ok hmalloc]
    rfl
  unfold isr80hCommand7InvokeSystemCommand
  rw [bind_of_ok (get_apply k₀), htask, bind_of_ok (fetch_some task k₀)]
  have hpointer : taskPointer task stackItem k₀ = .ok (arguments, k₀) := by
    unfold taskPointer
    rw [harguments]
    rfl
  rw [bind_of_ok hpointer, bind_of_ok (get_apply k₀), if_neg hsome]
  dsimp only
  rw [bind_of_ok hswitch, if_neg (lt_irrefl 0), bind_of_ok hinject]
  rfl

/-! A caller that runs the program `A` of one byte. Its structure is in three blocks, its task, its
page directory and the command in one each. -/

def commandHeap (blocks : Nat) : Heap :=
  ⟨⟨fun i => if i = 0 then 0xC1 else if i = 1 then 0x81 else if i = 2 then 0x01
    else if 3 ≤ i ∧ i < 8 then 0x41 else bootEntries i, blocks, []⟩, boiosHeapAddress⟩

def commandTask : Task := taskInit 0x1004000 0x1000000 boiosProgramVirtualAddress

def commandKernel (blocks : Nat) : Kernel :=
  { binaryKernel with
    heap := commandHeap blocks
    memory := fun a => if a = 0x1007000 then 65
      else if 0x5000 ≤ a then binaryRecord.getD (a - 0x5000) 0 else 0
    pages :=
      { chunks := fun chunk => if chunk = 0x1004000 then some 0x1005000 else none
        arrays := fun array =>
          if array = 0x1005000 then some fun _ => 0x1006007
          else if array = 0x1006000 then some fun i => 0x1000007 + 4096 * i else none
        entered := [] }
    scheduler :=
      { store := fun process =>
          if process = 0x1000000 then some { processInit with task := 0x1003000 } else none
        processes := fun slot => if slot = 0 then 0x1000000 else 0
        currentProcess := 0x1000000
        tasks := ⟨fun task => if task = 0x1003000 then some commandTask else none,
          0x1003000, 0x1003000, 0x1003000⟩ } }

theorem commandHeap_guards {blocks : Nat} (hlow : 8 ≤ blocks)
    (hhigh : boiosHeapAddress + 4096 * blocks ≤ 2147483648) :
    (commandHeap blocks).Guards {3, 7} := by
  have hentry : ∀ b : Int, (commandHeap blocks).table.entries b =
      if b = 0 then 0xC1 else if b = 1 then 0x81 else if b = 2 then 0x01
        else if 3 ≤ b ∧ b < 8 then 0x41 else bootEntries b := fun _ => rfl
  have htotal : (commandHeap blocks).table.totalEntries = blocks := rfl
  have hcases : ∀ b : Int, 0 ≤ b → (commandHeap blocks).table.HasNext b → b = 0 ∨ b = 1 := by
    intro b hb hnext
    unfold HeapTable.HasNext at hnext
    rw [hentry, bootEntries_eq_zero hb] at hnext
    split_ifs at hnext with h₀ h₁ h₂ h₃
    · exact Or.inl h₀
    · exact Or.inr h₁
    · exact absurd hnext (by decide)
    · exact absurd hnext (by decide)
    · exact absurd hnext (by decide)
  have hheld : ∀ b : Int, 3 ≤ b → b < 8 → (commandHeap blocks).Held b := by
    intro b hfirst hlast
    have htaken : (commandHeap blocks).table.entries b = 0x41 := by
      rw [hentry, if_neg (by omega), if_neg (by omega), if_neg (by omega), if_pos ⟨hfirst, hlast⟩]
    refine ⟨by omega, by omega, ?_, ?_⟩
    · unfold HeapTable.IsFree
      rw [htaken]
      decide
    · unfold HeapTable.IsFirst
      rw [htaken]
      decide
  -- the entries are the same for any number of blocks
  have hsecond : ¬ (commandHeap 8).table.IsFree 1 ∧ ¬ (commandHeap 8).table.IsFirst 1 := by decide
  have hthird : ¬ (commandHeap 8).table.IsFree 2 ∧ ¬ (commandHeap 8).table.IsFirst 2 := by decide
  have hfirst : ¬ (commandHeap 8).table.IsFree 0 := by decide
  have haddress : boiosHeapAddress % 4096 = 0 ∧ 0 < boiosHeapAddress := by decide
  refine ⟨⟨haddress.1, haddress.2, hhigh, freeOfNullStaysBelow_boot rfl rfl,
    fun b hb _ hnext => ?_, fun b hb _ hnext => ?_⟩, fun b hb => ?_⟩
  · rcases hcases b hb hnext with rfl | rfl
    · exact hsecond
    · exact hthird
  · rcases hcases b hb hnext with rfl | rfl
    · exact hfirst
    · exact hsecond.1
  · rcases hb with rfl | hb
    · exact hheld 3 (by omega) (by omega)
    · obtain rfl := Set.mem_singleton_iff.mp hb
      exact hheld 7 (by omega) (by omega)

theorem commandKernel_guards : (commandKernel 1051).heap.Guards {3, 7} :=
  commandHeap_guards (by decide) (by decide)

theorem commandKernel_nullFree : (commandKernel 1051).NullFree := ⟨rfl, rfl, rfl⟩

theorem commandKernel_store {task : Nat} {t : Task}
    (h : (commandKernel 1051).scheduler.tasks.store task = some t) : task = 0x1003000 := by
  by_contra hne
  have hnone : (commandKernel 1051).scheduler.tasks.store task = none := if_neg hne
  rw [hnone] at h
  cases h

theorem commandKernel_ends : (commandKernel 1051).scheduler.tasks.Ends :=
  ⟨rfl, ⟨commandTask, rfl⟩, ⟨commandTask, rfl, rfl⟩⟩

theorem commandKernel_reachesTask : ∃ k p, ReachesTask binaryName 1 (commandKernel 1051) 0x1008000 k ∧
    k.scheduler.store 0x1008000 = some p ∧ p.filetype = processFileTypeBin ∧ p.size = 1 ∧
      k.heap.freeBlocks = 1027 ∧ commandNext k.memory 0x1007000 = 0 := by
  have hvalue : value? ((do
      let process ← processLoadForTask binaryName 1
      let k ← get
      pure (process, (k.scheduler.store 0x1008000).map fun p => (p.filetype, p.size),
        k.heap.freeBlocks, commandNext k.memory 0x1007000) :
        KernelM (Option Nat × Option (Nat × Nat) × Nat × Nat)) (commandKernel 1051)) =
      some (some 0x1008000, some (processFileTypeBin, 1), 1027, 0) := by
    decide +kernel
  obtain ⟨k, h⟩ := exists_of_value? hvalue
  obtain ⟨process, k₁, hload, h⟩ := bind_eq_ok.mp h
  replace h := bind_get_eq_ok.mp h
  obtain ⟨hseen, rfl⟩ := pure_eq_ok.mp h
  simp only [Prod.mk.injEq] at hseen
  obtain ⟨rfl, hprocess, hroom, hnext⟩ := hseen
  obtain ⟨p, hp, hprogram⟩ := Option.map_eq_some_iff.mp hprocess
  obtain ⟨htype, hsize⟩ := Prod.mk.inj hprogram
  exact ⟨_, p, hload, hp, htype, hsize, hroom, hnext⟩

theorem commandKernel_fails : CommandLoads 0x1007000 (commandKernel 1051) ∧
    ∃ k', isr80hCommand7InvokeSystemCommand 0x1007000 (commandKernel 1051) =
      .ok (some (-enomem), k') := by
  obtain ⟨k, p, hreaches, hp, htype, hsize, hroom, hnext⟩ := commandKernel_reachesTask
  have hname : programPath ((commandKernel 1051).memory.stringAt 0x1007000 boiosMaxPath) =
      binaryName := by
    decide +kernel
  refine isr80hCommand7_outOfMemory commandKernel_guards commandKernel_nullFree
    (rfl : _ = some commandTask) (by decide +kernel) (by decide +kernel)
    (by decide +kernel : processGetFreeSlot (commandKernel 1051).scheduler = (1 : Nat))
    (by rwa [hname]) hp htype (by omega) commandKernel_ends hroom hnext fun i hi => ⟨?_, Or.inr ?_⟩
  · unfold sizeofArgument
    omega
  · have hstart : (commandKernel 1051).heap.startAddress = 0x1000000 := rfl
    rw [Set.mem_singleton_iff]
    unfold Heap.blockOf sizeofArgument
    rw [hstart]
    omega

theorem run_command_undone_iff_commandKernel : ∃ k',
    isr80hCommand7InvokeSystemCommand 0x1007000 (commandKernel 1051) = .ok (some (-enomem), k') ∧
      -enomem < 0 ∧ (SameLists (commandKernel 1051).scheduler k'.scheduler ↔
        ¬ CommandLoads 0x1007000 (commandKernel 1051)) := by
  obtain ⟨-, k', hrun⟩ := commandKernel_fails
  exact ⟨k', hrun, run_command_undone_iff commandKernel_guards commandKernel_nullFree
    (fun a t ht => Or.inl (by rw [commandKernel_store ht]; decide)) commandKernel_ends hrun⟩

theorem run_command_not_always_undone : ¬ ∀ (P : Set Int) (stackItem : Nat) (code : Int)
    (k k' : Kernel), k.heap.Guards P → k.NullFree →
    (∀ a t, k.scheduler.tasks.store a = some t → k.heap.blockOf a ∈ P) → k.scheduler.tasks.Ends →
    isr80hCommand7InvokeSystemCommand stackItem k = .ok (some code, k') →
    SameLists k.scheduler k'.scheduler := by
  intro hall
  have htasks : ∀ a t, (commandKernel 1051).scheduler.tasks.store a = some t →
      (commandKernel 1051).heap.blockOf a ∈ ({3, 7} : Set Int) :=
    fun a t ht => Or.inl (by rw [commandKernel_store ht]; decide)
  obtain ⟨hloads, k', hrun⟩ := commandKernel_fails
  have hsame := hall _ _ _ _ _ commandKernel_guards commandKernel_nullFree htasks commandKernel_ends
    hrun
  rcases (isr80hCommand7_failed commandKernel_guards commandKernel_nullFree htasks commandKernel_ends
    hrun).2 with ⟨hnot, -⟩ | ⟨-, hstays⟩
  · exact hnot hloads
  · exact hstays.not_sameLists hsame

end BoiOS
