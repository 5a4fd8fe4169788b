import BoiOS.Programs.ArgumentCopy
import BoiOS.Task.CommandFailure
import BoiOS.Task.LoadMemory

/-! A command line on its way to the program that it names: the words in the list of the caller, the
load, the arguments of the new process. -/
namespace BoiOS
open Library.StateRun Library.Words

variable {caller : Nat} {P M : Set Int}

/-! The caller while it builds the list. -/

theorem MallocKept.refl (caller : Nat) (P : Set Int) (k : Kernel) : MallocKept caller P k k :=
  ⟨rfl, rfl, fun _ _ _ => rfl, rfl, rfl, rfl, id⟩

theorem MallocKept.trans {k k' k'' : Kernel} (h : MallocKept caller P k k')
    (h' : MallocKept caller P k' k'') : MallocKept caller P k k'' :=
  ⟨h'.start.trans h.start, h'.total.trans h.total, h.memory.trans h'.memory h.start,
    h'.tasks.trans h.tasks, h'.task.trans h.task, h'.disk.trans h.disk, fun hnull => h'.null (h.null hnull)⟩

theorem MallocKept.mono {P' : Set Int} {k k' : Kernel} (h : MallocKept caller P k k') (hle : P' ⊆ P) :
    MallocKept caller P' k k' :=
  ⟨h.start, h.total, fun x hx hP => h.memory x hx (hle hP), h.tasks, h.task, h.disk, h.null⟩

def KeepsOwn (caller : Nat) (M : Set Int) (u u' : Userland) : Prop :=
  Owning caller M M u.kernel → taskCurrentProcess u.kernel.scheduler.tasks = some caller →
    Owning caller M M u'.kernel ∧ MallocKept caller ∅ u.kernel u'.kernel

instance : Std.Refl (KeepsOwn caller M) := ⟨fun _ h _ => ⟨h, .refl ..⟩⟩

instance : IsTrans Userland (KeepsOwn caller M) where
  trans u u' u'' h h' howning hcurrent := by
    obtain ⟨hfirst, hkept⟩ := h howning hcurrent
    obtain ⟨hsecond, hkept'⟩ := h' hfirst (by rw [hkept.tasks, hcurrent])
    exact ⟨hsecond, hkept.trans hkept'⟩

theorem KeepsOwn.of_memory {u u' : Userland} {memory : Memory}
    (h : u'.kernel = { u.kernel with memory }) : KeepsOwn caller M u u' := by
  intro howning _
  rw [h]
  exact ⟨howning.congr howning.guards rfl rfl rfl rfl,
    ⟨rfl, rfl, fun _ _ hin => absurd hin (Set.notMem_empty _), rfl, rfl, rfl, fun hnull =>
      ⟨hnull.items, hnull.elfFiles, hnull.arrays⟩⟩⟩

instance (str : Nat) (delimeters : List UInt8) : Kept (KeepsOwn caller M) (strtok str delimeters) := by
  constructor
  intro u token u' h
  exact KeepsOwn.of_memory (show u'.kernel = { u.kernel with memory := u.kernel.memory } from
    strtok_kernel h)

theorem Owning.boiosMalloc {u u' : Userland} {ptr : Nat} (h : Owning caller P M u.kernel)
    (hcurrent : taskCurrentProcess u.kernel.scheduler.tasks = some caller)
    (hrun : BoiOS.boiosMalloc sizeofCommandArgument u = .ok (ptr, u')) :
    MallocKept caller P u.kernel u'.kernel ∧ (ptr = 0 ∧ capacity caller u.kernel = 0 ∧
      Owning caller P M u'.kernel ∨ Obtains caller P M u.kernel u'.kernel ptr) := by
  have hsize : sizeofCommandArgument ≤ 4096 := by decide
  obtain ⟨kernel, hcall, hu'⟩ := syscall_eq_ok hrun
  unfold isr80hCommand4Malloc at hcall
  rw [bind_of_ok (get_apply u.kernel), bind_of_ok (fetch_eq_ok.mpr ⟨hcurrent, rfl⟩)] at hcall
  obtain ⟨ptr', k', hmalloc, hspec⟩ := h.processMalloc (by decide) hsize
  rw [hmalloc, Except.ok.injEq, Prod.mk.injEq] at hcall
  obtain ⟨rfl, rfl⟩ := hcall
  rw [hu']
  exact hspec

instance : Kept (KeepsOwn caller M) (boiosMalloc sizeofCommandArgument) := by
  constructor
  intro u ptr u' h howning hcurrent
  obtain ⟨hkept, ⟨-, -, hstill⟩ | hobtains⟩ := howning.boiosMalloc hcurrent h
  · exact ⟨hstill, hkept.mono (Set.empty_subset M)⟩
  · exact ⟨hobtains.owning.mono (Set.subset_insert ..) (Set.subset_insert ..),
      hkept.mono (Set.empty_subset M)⟩

instance (node token : Nat) : Kept (KeepsOwn caller M) (fillCommandArgument node token) := by
  constructor
  intro u a u' h
  rw [← modify_eq_ok.mp h]
  exact KeepsOwn.of_memory rfl

instance (current newCommand : Nat) :
    Kept (KeepsOwn caller M) (linkCommandArgument current newCommand) := by
  constructor
  intro u a u' h
  rw [← modify_eq_ok.mp h]
  exact KeepsOwn.of_memory rfl

instance (fuel current : Nat) : Kept (KeepsOwn caller M) (boiosParseCommandLoop fuel current) := by
  induction fuel generalizing current with
  | zero => exact kept_throw _
  | succ fuel ih =>
    unfold boiosParseCommandLoop
    infer_instance

theorem boiosParseCommand_root {command scommand root : Nat} {max : Int} {u u' : Userland}
    (h : Owning caller ∅ ∅ u.kernel)
    (hcurrent : taskCurrentProcess u.kernel.scheduler.tasks = some caller) (hroot : root ≠ 0)
    (hrun : boiosParseCommand command max scommand u = .ok (root, u')) :
    MallocKept caller ∅ u.kernel u'.kernel ∧ u'.kernel.heap.IsBlock root ∧
      Owning caller {u'.kernel.heap.blockOf root} {u'.kernel.heap.blockOf root} u'.kernel := by
  unfold boiosParseCommand at hrun
  by_cases hmax : max ≥ sizeofScommand
  · rw [if_pos hmax] at hrun
    exact absurd (pure_eq_ok.mp hrun).1.symm hroot
  rw [if_neg hmax] at hrun
  obtain ⟨_, u₁, hcopy, hrun⟩ := bind_eq_ok.mp hrun
  obtain ⟨token, u₂, htoken, hrun⟩ := bind_eq_ok.mp hrun
  have hkernel : u₂.kernel = u.kernel := by
    rw [strtok_kernel htoken, ← modify_eq_ok.mp hcopy]
  by_cases hnone : token = 0
  · rw [if_pos hnone] at hrun
    exact absurd (pure_eq_ok.mp hrun).1.symm hroot
  rw [if_neg hnone] at hrun
  obtain ⟨node, u₃, hmalloc, hrun⟩ := bind_eq_ok.mp hrun
  rw [← hkernel] at h hcurrent
  obtain ⟨hkept, hserved⟩ := h.boiosMalloc hcurrent hmalloc
  by_cases hfull : node = 0
  · rw [if_pos hfull] at hrun
    exact absurd (pure_eq_ok.mp hrun).1.symm hroot
  rw [if_neg hfull] at hrun
  have hobtains := hserved.resolve_left fun hnull => hfull hnull.1
  obtain ⟨_, u₄, hfill, hrun⟩ := bind_eq_ok.mp hrun
  obtain ⟨_, u₅, hloop, hrun⟩ := bind_eq_ok.mp hrun
  obtain ⟨rfl, rfl⟩ := pure_eq_ok.mp hrun
  have hfilled : KeepsOwn caller {u₃.kernel.heap.blockOf node} u₃ u₄ := Kept.run inferInstance hfill
  have hlooped : KeepsOwn caller {u₃.kernel.heap.blockOf node} u₄ u₅ := Kept.run inferInstance hloop
  have howning := hobtains.owning
  rw [insert_empty_eq] at howning
  obtain ⟨hlast, hkept'⟩ := IsTrans.trans _ _ _ hfilled hlooped howning (by rw [hkept.tasks, hcurrent])
  rw [← hkernel]
  refine ⟨hkept.trans hkept', hobtains.block.congr hkept'.start hkept'.total, ?_⟩
  rwa [Heap.blockOf_congr hkept'.start]

/-! The system call. -/

theorem Owning.taskPointer {k : Kernel} {root : Nat} (h : Owning caller P M k)
    (htask : (k.scheduler.store caller).map Process.task = some k.scheduler.tasks.currentTask)
    (hroot : k.heap.BlockIn M root) :
    ∃ task, k.scheduler.tasks.store k.scheduler.tasks.currentTask = some task ∧
      BoiOS.taskPointer task root k = .ok (root, k) := by
  obtain ⟨p, task, hp, htask', haddress⟩ := h.translate hroot (le_refl root) (by omega)
  rw [hp, Option.map_some, Option.some.injEq] at htask
  refine ⟨task, by rw [← htask, htask'], ?_⟩
  unfold BoiOS.taskPointer
  rw [haddress]
  rfl

theorem processLoadSwitch_loaded {filename : List UInt8} {process : Nat} {k k' : Kernel}
    (h : k.heap.Guards P) (hsector : k.disk.sectorSize = 512) (hnull : k.NullFree) (h0 : 0 ∉ filename)
    (hserved : LoadServed filename k)
    (hrun : KernelM.processLoadSwitch filename k = .ok ((0, process), k')) :
    ContentFrame P k k' ∧ k'.scheduler.currentProcess = process ∧
      (∃ P', P ⊆ P' ∧ Owning process P' ∅ k') ∧
      capacity process k' = min k'.heap.freeBlocks boiosMaxProgramAllocations := by
  refine ⟨processLoadSwitch_kept h hsector hnull h0 hserved hrun (le_refl 0), ?_⟩
  unfold KernelM.processLoadSwitch at hrun
  obtain ⟨⟨res, process'⟩, k₁, hload, hrun⟩ := bind_eq_ok.mp hrun
  dsimp only at hrun
  by_cases hres : res = 0
  · rw [if_pos hres] at hrun
    obtain ⟨_, k₂, hswitch, hrun⟩ := bind_eq_ok.mp hrun
    obtain ⟨heq, rfl⟩ := pure_eq_ok.mp hrun
    obtain ⟨-, rfl⟩ := Prod.mk.inj heq
    have hk₂ := modify_eq_ok.mp hswitch
    obtain ⟨-, slot, -, -, -, hloaded⟩ := processLoad_loaded h hnull h0 hload (le_of_eq hres.symm)
    obtain ⟨S, T, p, hguards, htree, -⟩ := hloaded.tree
    obtain ⟨chunk, hchunk, -, directory, tables, hentry, -, hdir, -⟩ := htree.task.pages
    obtain ⟨task, htask, rfl⟩ := Option.map_eq_some_iff.mp hchunk
    have hstored : k₂.scheduler.store process' = some p := by
      rw [← hk₂]
      exact htree.stored
    refine ⟨by rw [← hk₂]; rfl, ⟨insert (k.heap.blockOf process') P ∪ S ∪ T, ?_, ?_⟩, ?_⟩
    · exact subset_insert_union.trans Set.subset_union_left
    · rw [← hk₂]
      exact ⟨hguards.guards, p, task, directory, tables, htree.stored, htask, hentry, hdir,
        fun ptr hptr => absurd hptr.mem (Set.notMem_empty _)⟩
    · have hall : freeEntries p = Finset.range boiosMaxProgramAllocations :=
        Finset.filter_true_of_mem fun i hi => htree.allocations i (Finset.mem_range.mp hi)
      unfold capacity
      rw [unusedEntries_of_store hstored, hall, Finset.card_range]
  · rw [if_neg hres] at hrun
    obtain ⟨heq, -⟩ := pure_eq_ok.mp hrun
    exact absurd (Prod.mk.inj heq).1 hres

theorem isr80hCommand7_arguments {Q : Set Int} {root process : Nat} {words : List (List UInt8)}
    {k k₁ : Kernel} (howning : Owning caller P M k)
    (htask : (k.scheduler.store caller).map Process.task = some k.scheduler.tasks.currentTask)
    (hroot : k.heap.BlockIn M root) (hguards : k.heap.Guards Q) (hsector : k.disk.sectorSize = 512)
    (hnull : k.NullFree) (hchain : k.ChainIn Q root words)
    (hsome : ¬ (root = 0 ∨ k.memory root = 0))
    (hserved : LoadServed (programPath (k.memory.stringAt root boiosMaxPath)) k)
    (hload : KernelM.processLoadSwitch (programPath (k.memory.stringAt root boiosMaxPath)) k =
      .ok ((0, process), k₁)) (hmany : words.length < boiosMaxProgramAllocations)
    (hroom : words.length + 1 ≤ k₁.heap.freeBlocks) :
    ∃ k', isr80hCommand7InvokeSystemCommand root k = .ok (none, k') ∧
      k'.scheduler.currentProcess = process ∧
      (k'.scheduler.store process).map Process.task = some k'.scheduler.tasks.currentTask ∧
      k'.HasArguments process words := by
  have hmax : boiosMaxProgramAllocations = 1024 := rfl
  have h0 : 0 ∉ programPath (k.memory.stringAt root boiosMaxPath) :=
    programPath_nonzero (strncpy_nonzero _ _)
  obtain ⟨task, hcurrent, hpointer⟩ := howning.taskPointer htask hroot
  obtain ⟨hframe, hprocess, ⟨P', hmore, howning₁⟩, hcapacity⟩ :=
    processLoadSwitch_loaded hguards hsector hnull h0 hserved hload
  have hchain₁ := hchain.frame hguards.wellFormed hframe.blockMemory hframe.owned.start
    hframe.owned.total
  have hwords : words ≠ [] := fun hnone =>
    (not_or.mp hsome).1 (hchain.chain.eq_zero_iff.mpr hnone)
  obtain ⟨k₂, P₂, M₂, hinject, howning₂, p, hp, hargc, hargv⟩ :=
    processInjectArguments_chain howning₁ hmore hchain₁ hwords (by omega) (by omega)
  have hlists : SameLists k₁.scheduler k₂.scheduler :=
    Kept.run (inferInstance : Kept KeepsLists (processInjectArguments process root)) hinject
  obtain ⟨p', task', -, -, hp', htask', -⟩ := howning₂.mapped
  obtain rfl := Option.some.inj (hp.symm.trans hp')
  let k₃ : Kernel := { k₂ with
    scheduler := { k₂.scheduler with tasks := { k₂.scheduler.tasks with currentTask := p.task } } }
  have hswitch : tasksRun (fun ts => taskSwitch ts p.task) k₂ = .ok ((), k₃) := by
    unfold tasksRun schedulerRun taskSwitch
    dsimp only
    rw [htask']
    rfl
  refine ⟨k₃, ?_, ?_, ?_, p, hp, hargc, hargv⟩
  · unfold isr80hCommand7InvokeSystemCommand
    rw [bind_of_ok (get_apply k), hcurrent, bind_of_ok (fetch_some task k), bind_of_ok hpointer,
      bind_of_ok (get_apply k), if_neg hsome]
    dsimp only
    rw [bind_of_ok hload]
    dsimp only
    rw [if_neg (lt_irrefl 0), bind_of_ok hinject, if_neg (by decide), bind_of_ok (get_apply k₂), hp,
      bind_of_ok (fetch_some p k₂), bind_of_ok hswitch]
    rfl
  · exact hlists.currentProcess.trans hprocess
  · have hstore : k₃.scheduler.store process = some p := hp
    rw [hstore]
    rfl

/-! The whole way. -/

/-- A call of `boios_system_run` with a command line. `buf` and `scommand` are the addresses of the two
arrays on the stack. -/
structure LineCall where
  caller : Nat
  start : Userland
  command : Nat
  buf : Nat
  scommand : Nat
  line : List UInt8

namespace LineCall

def words (c : LineCall) : List (List UInt8) := tokensOf [32] c.line

def path (c : LineCall) : List UInt8 :=
  programPath ((cutWord (c.words.headD [])).take (boiosMaxPath - 1))

def copied (c : LineCall) : Userland := { c.start with
  own := c.start.own.copyIn c.buf (c.start.own.stringAt c.command sizeofBuf ++ [0]) }

theorem copied_kernel (c : LineCall) : c.copied.kernel = c.start.kernel := by rw [copied]

theorem copied_sp (c : LineCall) : c.copied.sp = c.start.sp := by rw [copied]

/-- The caller runs, nothing is pending, and the line is not blank. -/
structure Ready (c : LineCall) : Prop where
  serving : Serving c.caller ∅ c.start.kernel
  task : (c.start.kernel.scheduler.store c.caller).map Process.task =
    some c.start.kernel.scheduler.tasks.currentTask
  null : c.start.kernel.NullFree
  sector : c.start.kernel.disk.sectorSize = 512
  idle : c.start.sp = 0
  buf : c.buf + sizeofBuf ≤ 4294967296
  array : c.scommand ≠ 0
  room : c.scommand + sizeofScommand ≤ 4294967296
  line : c.start.own.Holds c.command c.line
  short : c.line.length < sizeofBuf
  word : ∃ x ∈ c.line, x ≠ 32

/-- There is a node for each word, the program loads, and there are blocks for its arguments. -/
structure Served (c : LineCall) (process : Nat) : Prop where
  nodes : c.words.length ≤ capacity c.caller c.start.kernel
  loads : ∀ root u, boiosParseCommand c.buf sizeofBuf c.scommand c.copied = .ok (root, u) →
    LoadServed c.path u.kernel ∧ ∃ k', c.words.length + 1 ≤ k'.heap.freeBlocks ∧
      KernelM.processLoadSwitch c.path u.kernel = .ok ((0, process), k')

variable {c : LineCall}

theorem Ready.words_ne_nil (h : c.Ready) : c.words ≠ [] := by
  obtain ⟨x, hx, hne⟩ := h.word
  intro hnone
  have hall := List.dropWhile_eq_nil_iff.mp (words_eq_nil_iff.mp hnone) x hx
  exact hne (List.mem_singleton.mp (of_decide_eq_true hall))

def parse (c : LineCall) : ParseCall :=
  ⟨c.caller, c.copied, c.buf, sizeofBuf, c.scommand, c.line, []⟩

theorem Ready.copied_holds (h : c.Ready) : c.copied.own.Holds c.buf c.line := by
  have hstring : c.start.own.stringAt c.command sizeofBuf = c.line := by
    rw [h.line.stringAt]
    exact List.take_of_length_le (Nat.le_sub_one_of_lt h.short)
  have hroom := h.buf
  have hshort := h.short
  rw [copied, hstring]
  exact Memory.holds_copyIn _ h.line.nonzero (by omega)

theorem Ready.parse_valid (h : c.Ready) : c.parse.Valid := by
  have hholds := h.copied_holds
  have hserving := h.serving
  have hidle := h.idle
  rw [← copied_kernel] at hserving
  rw [← copied_sp] at hidle
  unfold parse
  generalize c.copied = copied at hserving hidle hholds
  exact ⟨hserving, h.array, h.room, hholds, fun hpending => absurd hidle hpending⟩

theorem Ready.parsed (h : c.Ready) {root : Nat} {u : Userland}
    (hparse : boiosParseCommand c.buf sizeofBuf c.scommand c.copied = .ok (root, u))
    (hroot : root ≠ 0) : MallocKept c.caller ∅ c.start.kernel u.kernel ∧ u.kernel.heap.IsBlock root ∧
      Owning c.caller {u.kernel.heap.blockOf root} {u.kernel.heap.blockOf root} u.kernel := by
  have hserving := h.serving
  rw [← copied_kernel] at hserving ⊢
  exact boiosParseCommand_root hserving.owning hserving.current hroot hparse

theorem Ready.parse_taken (h : c.Ready) {process : Nat} (hserved : c.Served process) :
    c.parse.taken = c.words.map cutWord := by
  have hshort := h.short
  have hnodes := hserved.nodes
  have hidle : c.parse.start.sp = 0 := by
    have hsp := c.copied_sp
    rw [h.idle] at hsp
    exact hsp
  have hmax : ¬ ((sizeofBuf : Int) ≥ sizeofScommand) := by decide
  have htext : c.parse.text = c.line := by
    unfold ParseCall.text
    rw [if_pos hidle]
    exact List.take_of_length_le (Nat.le_of_lt hshort)
  have hcapacity : capacity c.parse.caller c.parse.start.kernel =
      capacity c.caller c.start.kernel := by
    rw [← copied_kernel]
    unfold parse
    rfl
  unfold ParseCall.taken
  rw [if_neg (show ¬ (c.parse.max ≥ sizeofScommand) from hmax), htext, hcapacity]
  exact congrArg (List.map cutWord) (List.take_of_length_le hnodes)

end LineCall

/-- From the command line to the arguments: the program that the first word names is entered, and its
arguments are the words, each cut to what a node holds. -/
theorem boios_system_run_arguments {c : LineCall} {process : Nat} (h : c.Ready)
    (hserved : c.Served process) : ∃ u',
      boiosSystemRun c.command c.buf c.scommand c.start = .ok (none, u') ∧
      u'.kernel.scheduler.currentProcess = process ∧
      (u'.kernel.scheduler.store process).map Process.task =
        some u'.kernel.scheduler.tasks.currentTask ∧
      u'.kernel.HasArguments process (c.words.map cutWord) := by
  obtain ⟨root, u, Q, hparse, hserving, hchain⟩ := h.parse_valid.boiosParseCommand_eq
  rw [h.parse_taken hserved] at hchain
  have hcopy : copyOwn c.buf c.command sizeofBuf c.start = .ok ((), c.copied) := by
    unfold copyOwn LineCall.copied
    rfl
  unfold LineCall.parse at hparse
  dsimp only at hparse
  have hsome : c.words.map cutWord ≠ [] := fun hnone =>
    h.words_ne_nil (List.map_eq_nil_iff.mp hnone)
  have hroot : root ≠ 0 := fun hnull => hsome (hchain.chain.eq_zero_iff.mp hnull)
  obtain ⟨hkept, hblock, howning⟩ := h.parsed hparse hroot
  obtain ⟨hload, k₁, hroom, hswitch⟩ := hserved.loads root u hparse
  obtain ⟨first, others, hwords⟩ := List.exists_cons_of_ne_nil h.words_ne_nil
  have hfirst : first ≠ [] := ne_nil_of_mem_words (by
    show first ∈ c.words
    rw [hwords]
    exact List.mem_cons_self)
  have hheld : u.kernel.memory.Holds root (cutWord first) := by
    rw [hwords, List.map_cons] at hchain
    cases hchain with
    | node _ _ hword => exact hword
  have hpath : programPath (u.kernel.memory.stringAt root boiosMaxPath) = c.path := by
    rw [hheld.stringAt, LineCall.path, hwords]
    rfl
  have hletter : u.kernel.memory root ≠ 0 := by
    obtain ⟨letter, word, rfl⟩ := List.exists_cons_of_ne_nil hfirst
    have hcut : cutWord (letter :: word) = letter :: word.take (sizeofArgument - 2) := rfl
    rw [hcut] at hheld
    obtain ⟨heq, hne, -⟩ := hheld.head
    rwa [heq]
  have hlength : c.words.length < boiosMaxProgramAllocations := by
    have hcount : c.words.length ≤ c.line.length := length_words_le c.line
    have hshort := h.short
    have hsize : sizeofBuf = boiosMaxProgramAllocations := rfl
    omega
  rw [← hpath] at hload hswitch
  obtain ⟨k', hcommand, hprocess, htask, harguments⟩ := isr80hCommand7_arguments
    howning (by rw [hkept.task, hkept.tasks]; exact h.task)
    ⟨hblock, Set.mem_singleton _⟩ hserving.guards (by rw [hkept.disk, h.sector]) (hkept.null h.null)
    hchain (not_or.mpr ⟨hroot, hletter⟩) hload hswitch (by rwa [List.length_map])
    (by rwa [List.length_map])
  refine ⟨{ u with kernel := k' }, ?_, hprocess, htask, harguments⟩
  unfold boiosSystemRun
  rw [bind_of_ok hcopy, bind_of_ok hparse, if_neg hroot]
  unfold syscall
  rw [hcommand]
  rfl

/-! The command line `A b` of a caller that runs the program `A` of one byte. -/

def lineKernel : Kernel :=
  { commandKernel 1056 with
    pages :=
      { chunks := fun chunk => if chunk = 0x1004000 then some 0x1005000 else none
        arrays := fun array =>
          if array = 0x1005000 then some fun i => 0x2000000 + 4096 * i
          else if 0x2000000 ≤ array then some fun _ => 0 else none
        entered := [] } }

def lineCall : LineCall :=
  { caller := 0x1000000
    start := ⟨lineKernel, memoryWith 0x3F0000 [65, 32, 98], 0⟩
    command := 0x3F0000
    buf := 0x3F1000
    scommand := 0x3F2000
    line := [65, 32, 98] }

theorem lineKernel_isDirectory :
    IsDirectory lineKernel.pages 0x1005000 fun i => 0x2000000 + 4096 * i := by
  refine ⟨⟨_, rfl, fun i hi => ?_⟩, fun i hi => ⟨fun _ => 0, ?_⟩, fun i hi => by omega,
    fun i hi j hj h => by omega⟩
  · unfold pagingFrame
    omega
  · have harray : lineKernel.pages.arrays (0x2000000 + 4096 * i) =
      if 0x2000000 + 4096 * i = 0x1005000 then some fun i => 0x2000000 + 4096 * i
      else if 0x2000000 ≤ 0x2000000 + 4096 * i then some fun _ => 0 else none := rfl
    rw [harray, if_neg (by omega), if_pos (by omega)]

theorem lineCall_ready : lineCall.Ready := by
  have harray : 0x3F2000 ≠ 0 := by decide
  have hguards : lineKernel.heap.Guards {3, 7} := commandHeap_guards (by decide) (by decide)
  refine ⟨⟨rfl, hguards.mono (Set.empty_subset _), ?_⟩, rfl, ⟨rfl, rfl, rfl⟩, rfl, rfl, by decide,
    harray, by decide, memoryWith_holds (by decide) (by decide), by decide, 65, by decide, by decide⟩
  exact ⟨_, commandTask, 0x1005000, _, rfl, rfl, rfl, lineKernel_isDirectory⟩

def lineParse : UserM Nat :=
  boiosParseCommand lineCall.buf sizeofBuf lineCall.scommand

theorem lineCall_reachesTask {root : Nat} {u : Userland}
    (hparse : lineParse lineCall.copied = .ok (root, u)) :
    root = 0x1008000 ∧ processGetFreeSlot u.kernel.scheduler = (1 : Nat) ∧
      ∃ k p, ReachesTask binaryName 1 u.kernel 0x100A000 k ∧ k.scheduler.store 0x100A000 = some p ∧
        p.filetype = processFileTypeBin ∧ p.size = 1 ∧ k.heap.freeBlocks = 1030 := by
  have hvalue : value? ((do
      let root ← lineParse
      let slot ← syscall (do
        let k ← get
        pure (processGetFreeSlot k.scheduler))
      let process ← syscall (processLoadForTask binaryName 1)
      let u ← get
      pure (decide (root = 0x1008000 ∧ slot = 1), process,
        (u.kernel.scheduler.store 0x100A000).map fun p => (p.filetype, p.size),
        u.kernel.heap.freeBlocks) : UserM (Bool × Option Nat × Option (Nat × Nat) × Nat))
      lineCall.copied) = some (true, some 0x100A000, some (processFileTypeBin, 1), 1030) := by
    decide +kernel
  obtain ⟨u', h⟩ := exists_of_value? hvalue
  rw [bind_of_ok hparse] at h
  obtain ⟨slot, u₁, hget, h⟩ := bind_eq_ok.mp h
  obtain ⟨k₁, hslot, rfl⟩ := syscall_eq_ok hget
  rw [bind_of_ok (get_apply u.kernel)] at hslot
  obtain ⟨hfree, rfl⟩ := pure_eq_ok.mp hslot
  obtain ⟨process, u₂, hload, h⟩ := bind_eq_ok.mp h
  obtain ⟨k, hreaches, rfl⟩ := syscall_eq_ok hload
  replace h := bind_get_eq_ok.mp h
  obtain ⟨hseen, rfl⟩ := pure_eq_ok.mp h
  simp only [Prod.mk.injEq, decide_eq_true_eq] at hseen
  obtain ⟨⟨rfl, rfl⟩, rfl, hprocess, hroom⟩ := hseen
  obtain ⟨p, hp, hprogram⟩ := Option.map_eq_some_iff.mp hprocess
  obtain ⟨htype, hsize⟩ := Prod.mk.inj hprogram
  exact ⟨rfl, hfree, k, p, hreaches, hp, htype, hsize, hroom⟩

/-- The size of the image that is asked for after the structure of the process and some more were
allocated, and whether the last block is free then. -/
def lineImage {α : Type} (x : Nat → KernelM α) : UserM (Nat × Nat × Bool) := do
  let _ ← lineParse
  syscall do
    let process ← kzallocObject sizeofProcess (fun ptr => putProcess ptr processInit)
    let _ ← x process
    let size ← imageRequest binaryName
    let k ← get
    pure (size, k.heap.table.totalEntries, decide (k.heap.table.IsFree 1055))

theorem lineCall_imageServed {α : Type} {x : Nat → KernelM α} {root process : Nat} {a : α}
    {u : Userland} {k k' : Kernel} (hvalue : value? (lineImage x lineCall.copied) = some (1, 1056, true))
    (hparse : lineParse lineCall.copied = .ok (root, u))
    (hobject : kzallocObject sizeofProcess (fun ptr => putProcess ptr processInit) u.kernel =
      .ok (process, k)) (hx : x process k = .ok (a, k')) : ImageServed binaryName k' := by
  intro size k₁ himage
  obtain ⟨u', h⟩ := exists_of_value? hvalue
  unfold lineImage at h
  rw [bind_of_ok hparse] at h
  obtain ⟨kernel, h, -⟩ := syscall_eq_ok h
  rw [bind_of_ok hobject, bind_of_ok hx, bind_of_ok himage, bind_of_ok (get_apply k₁)] at h
  obtain ⟨hseen, -⟩ := pure_eq_ok.mp h
  simp only [Prod.mk.injEq, decide_eq_true_eq] at hseen
  obtain ⟨hsize, htotal, hfree⟩ := hseen
  exact .of_free (by omega) (by omega) (by omega) hfree

theorem lineCall_loadServed {root : Nat} {u : Userland}
    (hparse : lineParse lineCall.copied = .ok (root, u)) : LoadServed binaryName u.kernel := by
  have helf : value? (lineImage (fun _ => kzallocObject sizeofElfFile
      (fun ptr => putElfFile ptr ⟨0, 0, 0, 0, 0⟩)) lineCall.copied) = some (1, 1056, true) := by
    decide +kernel
  have hbinary : value? (lineImage (processLoadElf binaryName) lineCall.copied) =
      some (1, 1056, true) := by
    decide +kernel
  exact fun process k hobject => ⟨fun elfFile k' hx => lineCall_imageServed helf hparse hobject hx,
    fun k' hx => lineCall_imageServed hbinary hparse hobject hx⟩

theorem lineCall_served : lineCall.Served 0x100A000 := by
  have hpath : lineCall.path = binaryName := by decide +kernel
  have hnodes : lineCall.words.length ≤ capacity lineCall.caller lineCall.start.kernel := by
    decide +kernel
  have hwords : lineCall.words.length = 2 := by decide +kernel
  refine ⟨hnodes, fun root u hparse => ?_⟩
  rw [hpath]
  obtain ⟨hroot, hslot, k, p, hreaches, hp, htype, hsize, hroom⟩ := lineCall_reachesTask hparse
  obtain ⟨hkept, -, howning⟩ := lineCall_ready.parsed hparse (by omega)
  have hlist : u.kernel.scheduler.tasks.Appendable := by
    rw [hkept.tasks]
    exact Or.inr ⟨commandTask, rfl⟩
  obtain ⟨k', -, hswitch, hcount, -⟩ := processLoadSwitch_returns howning.guards
    (hkept.null lineCall_ready.null) (by decide) hslot hreaches hp htype (by omega) hlist (by omega)
  refine ⟨lineCall_loadServed hparse, _, ?_, hswitch⟩
  dsimp only
  omega

theorem boios_system_run_arguments_lineCall : ∃ u',
    boiosSystemRun lineCall.command lineCall.buf lineCall.scommand lineCall.start = .ok (none, u') ∧
      u'.kernel.scheduler.currentProcess = 0x100A000 ∧
      (u'.kernel.scheduler.store 0x100A000).map Process.task =
        some u'.kernel.scheduler.tasks.currentTask ∧
      u'.kernel.HasArguments 0x100A000 (lineCall.words.map cutWord) :=
  boios_system_run_arguments lineCall_ready lineCall_served

end BoiOS
