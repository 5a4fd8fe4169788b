import BoiOS.Kernel.OutputCalls

/-! Programs that write to the screen, over any run of their calls. Each call leaves the tables of the
heap and of the paging as they were, so that the next one finds what the first one found, and the
screen is the fold of what was asked. -/
namespace BoiOS
open Library.StateRun Library.Transition

/-- The kernel runs a task in a directory whose tables are all there, and a block of heap is left. -/
structure Kernel.Hosts (k : Kernel) (t : Task) (directory : Nat) : Prop where
  placed : k.heap.Placed
  clean : k.heap.table.Clean
  free : 0 < k.heap.freeBlocks
  current : k.scheduler.tasks.currentTask ≠ 0
  task : k.scheduler.tasks.store k.scheduler.tasks.currentTask = some t
  chunk : k.pages.chunks t.pageDirectory = some directory
  isDirectory : ∃ tables, IsDirectory k.pages directory tables
  present : TablesPresent k.pages directory

/-- A buffer of 1024 bytes on the stack of the kernel, between the screen and the heap. -/
structure Kernel.StackBuffer (k : Kernel) (buf : Nat) : Prop where
  above : videoMemory + 4000 ≤ buf
  below : buf + 1024 ≤ k.heap.startAddress

def Kernel.stackItem (k : Kernel) (directory : Nat) (frame : InterruptFrame) (index : Nat) :
    Option Nat :=
  load32In (pagingSpace k.pages directory) k.memory (u32 ((frame.esp : Int) + 4 * (index : Nat)))

/-- What a call asks for: the command, the arguments on the stack, and what is shown and returned. The
string of `print` is cut after 1023 characters and lies in no page that the heap could lend. -/
inductive Kernel.Asks (k : Kernel) (directory : Nat) (frame : InterruptFrame) : Shown → Nat → Prop
  | sum {v1 v2 : Nat} (command : frame.eax = 0) (first : k.stackItem directory frame 0 = some v1)
      (second : k.stackItem directory frame 1 = some v2) :
      k.Asks directory frame (.text []) (u32 ((v1 : Int) + v2))
  | print {va : Nat} {s : List UInt8} (command : frame.eax = 1)
      (item : k.stackItem directory frame 0 = some va)
      (string : StringIn (pagingSpace k.pages directory) k.memory va 1023 s)
      (apart : ∀ page, k.heap.IsBlock page → k.heap.table.IsFree (k.heap.blockOf page) →
        StringOffPage (pagingSpace k.pages directory) va 1023 s page) :
      k.Asks directory frame (.text s) 0
  | putchar {c : Nat} (command : frame.eax = 3)
      (item : k.stackItem directory frame 0 = some c) :
      k.Asks directory frame (.text [.ofNat c]) 0
  | clear (command : frame.eax = 12) : k.Asks directory frame .cleared 0
  | unknown (command : 12 < frame.eax) (word : frame.eax < 4294967296) :
      k.Asks directory frame (.text []) 0

/-! One call. -/

theorem TablesUntouched.of_eq {k k' : Kernel} (hpages : k'.pages = k.pages)
    (hheap : k'.heap = k.heap) : TablesUntouched k k' := by
  constructor
  · rw [hpages]
  · rw [hpages]
  · rw [hheap]
  · rw [hheap]
  · rw [hheap]

theorem TablesUntouched.trans {k k' k'' : Kernel} (h : TablesUntouched k k')
    (h' : TablesUntouched k' k'') : TablesUntouched k k'' :=
  ⟨h'.arrays.trans h.arrays, h'.chunks.trans h.chunks, h'.start.trans h.start,
    h'.total.trans h.total, h'.entries.trans h.entries⟩

theorem load32In_lt {space : AddressSpace} {m : Memory} {va word : Nat}
    (h : load32In space m va = some word) : word < 4294967296 := by
  obtain ⟨a₀, -, h⟩ := Option.bind_eq_some_iff.mp h
  obtain ⟨a₁, -, h⟩ := Option.bind_eq_some_iff.mp h
  obtain ⟨a₂, -, h⟩ := Option.bind_eq_some_iff.mp h
  obtain ⟨a₃, -, rfl⟩ := Option.map_eq_some_iff.mp h
  have h₀ := (m a₀).toNat_lt
  have h₁ := (m a₁).toNat_lt
  have h₂ := (m a₂).toNat_lt
  have h₃ := (m a₃).toNat_lt
  omega

theorem inKernel_of_ok {α : Type} {x : KernelM α} {c : Console} {a : α} {k : Kernel}
    (h : x c.kernel = .ok (a, k)) : inKernel x c = .ok (a, { c with kernel := k }) := by
  unfold inKernel
  rw [h]
  rfl

theorem onCurrentTask_of_ok {α : Type} {f : Nat → KernelM α} {c : Console} {a : α} {k : Kernel}
    (h : f c.kernel.scheduler.tasks.currentTask c.kernel = .ok (a, k)) :
    onCurrentTask f c = .ok (a, { c with kernel := k }) := by
  unfold onCurrentTask
  rw [bind_of_ok (get_apply c)]
  exact inKernel_of_ok h

def Kernel.saved (k : Kernel) (t : Task) (frame : InterruptFrame) : Kernel :=
  { k with
    scheduler := { k.scheduler with
      tasks := { k.scheduler.tasks with
        store := Function.update k.scheduler.tasks.store k.scheduler.tasks.currentTask
          (some (taskSaveState t frame)) } } }

namespace Kernel.Hosts
variable {k k' : Kernel} {t : Task} {directory buf : Nat} {frame : InterruptFrame}

theorem untouched (h : k.Hosts t directory) (htables : TablesUntouched k k')
    (hscheduler : k'.scheduler = k.scheduler) : k'.Hosts t directory := by
  obtain ⟨tables, hdir⟩ := h.isDirectory
  refine ⟨h.placed.congr htables.start htables.total, fun b hlow hhigh hfree => ?_, ?_, ?_, ?_, ?_,
    ⟨tables, hdir.congr (by rw [htables.arrays]) fun i _ => by rw [htables.arrays]⟩, ?_⟩
  · rw [htables.entries]
    rw [htables.total] at hhigh
    exact h.clean b hlow hhigh
      ((HeapTable.isFree_congr (congrFun htables.entries.symm b)).mpr hfree)
  · rw [Heap.freeBlocks_congr htables.total htables.entries]
    exact h.free
  · rw [hscheduler]
    exact h.current
  · rw [hscheduler]
    exact h.task
  · rw [htables.chunks]
    exact h.chunk
  · obtain ⟨entries, harray, hall⟩ := h.present
    exact ⟨entries, by rw [htables.arrays, harray], hall⟩

theorem saved (h : k.Hosts t directory) (frame : InterruptFrame) :
    (k.saved t frame).Hosts (taskSaveState t frame) directory :=
  ⟨h.placed, h.clean, h.free, h.current, Function.update_self .., h.chunk, h.isDirectory, h.present⟩

theorem taskCurrentSaveState_apply (h : k.Hosts t directory) (frame : InterruptFrame) :
    taskCurrentSaveState frame k = .ok ((), k.saved t frame) := by
  have hmodify : k.scheduler.tasks.modify k.scheduler.tasks.currentTask
      (fun t => taskSaveState t frame) = some (k.saved t frame).scheduler.tasks := by
    unfold Tasks.modify
    rw [h.task]
    rfl
  unfold taskCurrentSaveState
  rw [bind_of_ok (get_apply k), if_neg h.current, hmodify, bind_of_ok (fetch_some _ _)]
  rfl

theorem taskGetStackItem_apply (h : k.Hosts t directory) (hesp : t.registers.esp = frame.esp)
    {index item : Nat} (hitem : k.stackItem directory frame index = some item) :
    taskGetStackItem k.scheduler.tasks.currentTask index k = .ok (item, k) := by
  unfold Kernel.stackItem at hitem
  unfold taskGetStackItem
  rw [bind_of_ok (get_apply k), h.task, bind_of_ok (fetch_some _ _), h.chunk,
    bind_of_ok (fetch_some _ _), hesp, hitem]
  rfl

theorem copyStringFromTask_buffer (h : k.Hosts t directory) (hbuf : k.StackBuffer buf) {va : Nat}
    {s : List UInt8} (hva : va < 4294967296)
    (hstring : StringIn (pagingSpace k.pages directory) k.memory va 1023 s)
    (hapart : ∀ page, k.heap.IsBlock page → k.heap.table.IsFree (k.heap.blockOf page) →
      StringOffPage (pagingSpace k.pages directory) va 1023 s page) :
    ∃ k', copyStringFromTask k.scheduler.tasks.currentTask va buf 1024 k = .ok (0, k') ∧
      TablesUntouched k k' ∧ k'.scheduler = k.scheduler ∧ k'.memory.HoldsString buf s ∧
      ∀ a, videoMemory ≤ a → a < videoMemory + 4000 → k'.memory a = k.memory a := by
  obtain ⟨tables, hdir⟩ := h.isDirectory
  obtain ⟨entries, harray, hall⟩ := h.present
  obtain ⟨habove, hbelow⟩ := hbuf
  have hfits := h.placed.fits
  have hlow : (1 : Int) ≤ 1024 := by decide
  have hhigh : (1024 : Int) < 4096 := by decide
  have hsize : u32 1024 = 1024 := by
    unfold u32
    rfl
  have hserved : k.temporaryPage 1024 ≠ 0 :=
    h.placed.heapMalloc_served (by rw [hsize]; decide) (by rw [hsize]; decide) h.free
  obtain ⟨s₁, s₂, old, hborrow, -, -, htake, heq⟩ :=
    copyStringFromTask_served va buf h.placed hlow hhigh hserved h.task h.chunk hdir
  obtain ⟨haligned, hpagelt⟩ := htake.page h.placed
  have hpage := htake.block.address
  have hblock := htake.block.low
  have hoff := hapart _ htake.block htake.free
  have hlength : s.length ≤ 1023 := hstring.length
  unfold videoMemory at *
  have hbuffer : BufferOffPage buf 1024 (k.temporaryPage 1024) := by
    intro i hi
    unfold pagingPageSize u32
    omega
  rw [strncpyIn_page hdir harray hborrow (hall _ (pagingDirectoryIndex_lt hpagelt)) haligned hpagelt
    hva hlow hhigh hstring hoff, access_some] at heq
  simp only [Except.bind] at heq
  rw [strncpyIn_buffer hstring.nonzero hpagelt (by omega) hlow hhigh hlength hbuffer,
    access_some] at heq
  obtain ⟨htables, -⟩ :=
    copyStringFromTask_untouched h.placed h.clean hlow hhigh h.task h.chunk hdir heq
  refine ⟨_, heq, htables, rfl, Memory.holdsString_copyIn (by omega), fun a ha ha' => ?_⟩
  have hbytes : (s ++ [0]).length = s.length + 1 := by
    rw [List.length_append, List.length_singleton]
  have hfar : 4096 ≤ u32 ((a : Int) - (k.temporaryPage 1024 : Nat)) := by
    unfold u32
    omega
  have hfar' : s.length + 1 ≤ u32 ((a : Int) - buf) := by
    unfold u32
    omega
  dsimp only
  rw [Memory.copyIn_outside (by omega), Memory.copyIn_outside (by omega)]
  exact if_neg (by omega)

end Kernel.Hosts

theorem Kernel.Asks.saved {k : Kernel} {directory : Nat} {frame : InterruptFrame} {shown : Shown}
    {result : Nat} (h : k.Asks directory frame shown result) (t : Task) :
    (k.saved t frame).Asks directory frame shown result := by
  cases h with
  | sum command first second => exact .sum command first second
  | print command item string apart => exact .print command item string apart
  | putchar command item => exact .putchar command item
  | clear command => exact .clear command
  | unknown command word => exact .unknown command word

theorem isr80hHandleCommand_of_some {commands : Nat → Option (ConsoleM Nat)} {command : Nat}
    (hcommand : command < 1024) {f : ConsoleM Nat} (hf : commands command = some f) :
    isr80hHandleCommand commands (i32 command) = f := by
  have hinside : ¬ ((command : Int) < 0 ∨ (command : Int) ≥ boiosMaxIsr80hCommands) := by
    unfold boiosMaxIsr80hCommands
    omega
  unfold isr80hHandleCommand
  rw [i32_of_range (by omega) (by omega), if_neg hinside, Int.toNat_natCast, hf]
  rfl

theorem isr80hHandleCommand_unknown {commands : Nat → Option (ConsoleM Nat)} {eax : Nat}
    (hlow : 12 < eax) (hword : eax < 4294967296)
    (hnone : ∀ command, 12 < command → commands command = none) :
    isr80hHandleCommand commands (i32 eax) = pure 0 := by
  unfold isr80hHandleCommand
  by_cases houtside : i32 eax < 0 ∨ i32 eax ≥ boiosMaxIsr80hCommands
  · rw [if_pos houtside]
  · have hcommand : 12 < (i32 eax).toNat := by
      unfold boiosMaxIsr80hCommands i32 at *
      omega
    rw [if_neg houtside, hnone _ hcommand]
    rfl

namespace Console
variable {c c' : Console} {t : Task} {directory buf : Nat} {frame : InterruptFrame}

/-- After a call the tables are as before, the task goes on, and the screen is `screen`. -/
structure Answers (c c' : Console) (t : Task) (directory : Nat) (screen : Terminal) : Prop where
  tables : TablesUntouched c.kernel c'.kernel
  hosts : c'.kernel.Hosts t directory
  screen : screen.SameScreen c'.terminal

theorem Answers.of_shows {screen : Terminal} (hhosts : c.kernel.Hosts t directory)
    (h : c.Shows c' screen) : c.Answers c' t directory screen := by
  have htables : TablesUntouched c.kernel c'.kernel := by
    rw [h.kernel]
    exact .of_eq rfl rfl
  exact ⟨htables, hhosts.untouched htables (by rw [h.kernel]), h.screen⟩

theorem sameScreen_of_memory {k : Kernel}
    (h : ∀ a, videoMemory ≤ a → a < videoMemory + 4000 → k.memory a = c.kernel.memory a) :
    c.terminal.SameScreen { c with kernel := k }.terminal := by
  refine ⟨rfl, rfl, fun cell hcell => UInt16.toNat_inj.mp ?_⟩
  have hroom : videoMemory + 2 * cell + 1 < 4294967296 := by
    unfold videoMemory
    omega
  change (k.memory.videoCells cell).toNat = (c.kernel.memory.videoCells cell).toNat
  rw [Memory.toNat_videoCells _ hroom, Memory.toNat_videoCells _ hroom, h _ (by omega) (by omega),
    h _ (by omega) (by omega)]

theorem isr80hCommand0Sum_apply (hhosts : c.kernel.Hosts t directory)
    (hesp : t.registers.esp = frame.esp) {v1 v2 : Nat}
    (hfirst : c.kernel.stackItem directory frame 0 = some v1)
    (hsecond : c.kernel.stackItem directory frame 1 = some v2) :
    isr80hCommand0Sum c = .ok (u32 ((v1 : Int) + v2), c) := by
  have hitem := hhosts.taskGetStackItem_apply hesp hfirst
  have hitem' := hhosts.taskGetStackItem_apply hesp hsecond
  unfold isr80hCommand0Sum
  rw [bind_of_ok (onCurrentTask_of_ok hitem'), bind_of_ok (onCurrentTask_of_ok hitem)]
  rfl

theorem isr80hCommand1Print_answers (hhosts : c.kernel.Hosts t directory)
    (hesp : t.registers.esp = frame.esp) (hbuf : c.kernel.StackBuffer buf) {va : Nat}
    {s : List UInt8} (hitem : c.kernel.stackItem directory frame 0 = some va)
    (hstring : StringIn (pagingSpace c.kernel.pages directory) c.kernel.memory va 1023 s)
    (hapart : ∀ page, c.kernel.heap.IsBlock page →
      c.kernel.heap.table.IsFree (c.kernel.heap.blockOf page) →
      StringOffPage (pagingSpace c.kernel.pages directory) va 1023 s page)
    (hstays : c.terminal.Stays s) :
    ∃ c', isr80hCommand1Print buf c = .ok (0, c') ∧
      c.Answers c' t directory (Shown.run c.terminal (.text s)) := by
  have hread := hhosts.taskGetStackItem_apply hesp hitem
  obtain ⟨k', hcopy, htables, hscheduler, hholds, hscreen⟩ :=
    hhosts.copyStringFromTask_buffer hbuf (load32In_lt hitem) hstring hapart
  have hhosts' := hhosts.untouched htables hscheduler
  have hlength : s.length ≤ 1023 := hstring.length
  have hfits := hhosts.placed.fits
  have hbelow := hbuf.below
  obtain ⟨hsame, hstays'⟩ := (sameScreen_of_memory hscreen).text s hstays
  have hshows : Shows { c with kernel := k' } (({ c with kernel := k' } : Console).print buf) _ :=
    shows_print hstays' hholds hstring.nonzero hbuf.above (by omega)
  have hanswers := Answers.of_shows hhosts' hshows
  refine ⟨_, ?_, htables.trans hanswers.tables, hanswers.hosts, hsame.trans hanswers.screen⟩
  unfold isr80hCommand1Print
  rw [bind_of_ok (onCurrentTask_of_ok hread), bind_of_ok (onCurrentTask_of_ok hcopy)]
  rfl

theorem isr80hCommand3Putchar_answers (hhosts : c.kernel.Hosts t directory)
    (hesp : t.registers.esp = frame.esp) {item : Nat}
    (hitem : c.kernel.stackItem directory frame 0 = some item)
    (hstays : c.terminal.Stays [.ofNat item]) :
    ∃ c', isr80hCommand3Putchar c = .ok (0, c') ∧
      c.Answers c' t directory (Shown.run c.terminal (.text [.ofNat item])) := by
  have hread := hhosts.taskGetStackItem_apply hesp hitem
  refine ⟨_, ?_, .of_shows hhosts (shows_writechar hstays.within (.ofNat item))⟩
  unfold isr80hCommand3Putchar
  rw [bind_of_ok (onCurrentTask_of_ok hread)]
  rfl

theorem isr80hCommand12ClrTerminal_answers (hhosts : c.kernel.Hosts t directory) :
    ∃ c', isr80hCommand12ClrTerminal c = .ok (0, c') ∧
      c.Answers c' t directory (Shown.run c.terminal .cleared) := by
  refine ⟨_, rfl, .of_shows hhosts (shows_showing fun cell hcell => ?_)⟩
  rw [terminalInitialize_videoMem]
  exact if_neg (Nat.not_lt.mpr hcell)

theorem isr80hHandleCommand_answers (others : Nat → ConsoleM Nat)
    (hhosts : c.kernel.Hosts t directory) (hesp : t.registers.esp = frame.esp)
    (hbuf : c.kernel.StackBuffer buf) {shown : Shown} {result : Nat}
    (hasks : c.kernel.Asks directory frame shown result) (hfits : shown.Fits c.terminal) :
    ∃ c', isr80hHandleCommand (isr80hCommands buf others) (i32 frame.eax) c = .ok (result, c') ∧
      c.Answers c' t directory (shown.run c.terminal) := by
  cases hasks with
  | sum command first second =>
    refine ⟨c, ?_, .of_shows hhosts (.refl c)⟩
    rw [command, isr80hHandleCommand_of_some (by decide) rfl]
    exact isr80hCommand0Sum_apply hhosts hesp first second
  | print command item string apart =>
    rw [command, isr80hHandleCommand_of_some (by decide) rfl]
    exact isr80hCommand1Print_answers hhosts hesp hbuf item string apart hfits
  | putchar command item =>
    rw [command, isr80hHandleCommand_of_some (by decide) rfl]
    exact isr80hCommand3Putchar_answers hhosts hesp item hfits
  | clear command =>
    rw [command, isr80hHandleCommand_of_some (by decide) rfl]
    exact isr80hCommand12ClrTerminal_answers hhosts
  | unknown command word =>
    refine ⟨c, ?_, .of_shows hhosts (.refl c)⟩
    rw [isr80hHandleCommand_unknown command word fun n hn => ?_]
    · rfl
    · unfold isr80hCommands
      rw [if_neg (by omega), if_neg (by omega), if_neg (by omega), if_neg (by omega),
        if_neg (by omega)]

theorem isr80hHandler_answers (others : Nat → ConsoleM Nat) (hhosts : c.kernel.Hosts t directory)
    (hbuf : c.kernel.StackBuffer buf) {shown : Shown} {result : Nat}
    (hasks : c.kernel.Asks directory frame shown result) (hfits : shown.Fits c.terminal) :
    ∃ c', isr80hHandler (isr80hCommands buf others) (i32 frame.eax) frame c = .ok (result, c') ∧
      c.Answers c' (taskSaveState t frame) directory (shown.run c.terminal) := by
  have hsave := inKernel_of_ok (hhosts.taskCurrentSaveState_apply frame)
  have hbuf' : (c.kernel.saved t frame).StackBuffer buf := ⟨hbuf.above, hbuf.below⟩
  obtain ⟨c', hcommand, hanswers⟩ := isr80hHandleCommand_answers
    (c := { c with kernel := c.kernel.saved t frame }) others (hhosts.saved frame) rfl hbuf'
    (hasks.saved t) hfits
  have htables : TablesUntouched c.kernel (c.kernel.saved t frame) := .of_eq rfl rfl
  refine ⟨c', ?_, htables.trans hanswers.tables, hanswers.hosts, hanswers.screen⟩
  unfold isr80hHandler
  rw [bind_of_ok hsave]
  exact hcommand

end Console

/-! Runs. -/

/-- A system call of the program that runs, with what it asks for and what it gets; or anything else
that happens in between. -/
inductive OutputEvent
  | other
  | call (frame : InterruptFrame) (shown : Shown) (result : Nat)

namespace OutputEvent

/-- What else happens may compute, allocate, switch tasks and read keys, but leaves the screen alone
and ends with a task that is hosted. -/
def step (buf : Nat) (others : Nat → ConsoleM Nat) : Step Console OutputEvent := fun c event c' =>
  match event with
  | other => c.terminal.SameScreen c'.terminal ∧ c'.kernel.StackBuffer buf ∧
      ∃ t directory, c'.kernel.Hosts t directory
  | call frame _ result =>
      isr80hHandler (isr80hCommands buf others) (i32 frame.eax) frame c = .ok (result, c')

/-- The call is one that writes to the screen, or one for nothing. -/
def Asked : Step Console OutputEvent := fun c event _ =>
  match event with
  | other => True
  | call frame shown _ => ∃ t directory result, c.kernel.Hosts t directory ∧
      c.kernel.Asks directory frame shown result

def Served : Step Console OutputEvent := fun c event c' =>
  match event with
  | other => True
  | call frame shown result => ∃ t directory, c.kernel.Hosts t directory ∧
      c.kernel.Asks directory frame shown result ∧ TablesUntouched c.kernel c'.kernel

def shown : OutputEvent → List Shown
  | other => []
  | call _ shown _ => [shown]

end OutputEvent

def shownIn (run : List (OutputEvent × Console)) : List Shown := run.flatMap fun r => r.1.shown

def showAll (t : Terminal) (shown : List Shown) : Terminal := shown.foldl Shown.run t

theorem showAll_singleton (t : Terminal) (shown : Shown) : showAll t [shown] = shown.run t := rfl

/-- Nothing of it takes the cursor below the last row. -/
def FitAll : Terminal → List Shown → Prop
  | t, [] => t.Within
  | t, shown :: rest => shown.Fits t ∧ FitAll (shown.run t) rest

/-- Between two calls: a task is hosted, and the screen is `screen`. -/
structure Console.Between (c : Console) (buf : Nat) (screen : Terminal) : Prop where
  hosts : ∃ t directory, c.kernel.Hosts t directory
  buffer : c.kernel.StackBuffer buf
  screen : screen.SameScreen c.terminal

namespace Console.Between
variable {c c' : Console} {buf : Nat} {screen : Terminal} {others : Nat → ConsoleM Nat}

theorem answers (others : Nat → ConsoleM Nat) (h : c.Between buf screen) {t : Task}
    {directory result : Nat} {frame : InterruptFrame} {shown : Shown}
    (hhosts : c.kernel.Hosts t directory) (hasks : c.kernel.Asks directory frame shown result)
    (hfits : shown.Fits screen) :
    ∃ c', isr80hHandler (isr80hCommands buf others) (i32 frame.eax) frame c = .ok (result, c') ∧
      TablesUntouched c.kernel c'.kernel ∧ c'.Between buf (shown.run screen) := by
  obtain ⟨hsame, hfits'⟩ := h.screen.run hfits
  obtain ⟨c', hrun, hanswers⟩ := isr80hHandler_answers others hhosts h.buffer hasks hfits'
  refine ⟨c', hrun, hanswers.tables, ⟨⟨_, _, hanswers.hosts⟩, ⟨h.buffer.above, ?_⟩,
    hsame.trans hanswers.screen⟩⟩
  rw [hanswers.tables.start]
  exact h.buffer.below

theorem run (run : List (OutputEvent × Console)) (h : c.Between buf screen)
    (hpath : Path (OutputEvent.step buf others) c run) (hasked : Along OutputEvent.Asked c run)
    (hfits : FitAll screen (shownIn run)) :
    (last c run).Between buf (showAll screen (shownIn run)) ∧ Along OutputEvent.Served c run := by
  induction run generalizing c screen with
  | nil => exact ⟨h, trivial⟩
  | cons head rest ih =>
    obtain ⟨event, c'⟩ := head
    obtain ⟨hstep, hpath⟩ := hpath
    obtain ⟨hask, hasked⟩ := hasked
    cases event with
    | other =>
      obtain ⟨hsame, hbuffer, hhosts⟩ := hstep
      obtain ⟨hlast, hserved⟩ := ih ⟨hhosts, hbuffer, h.screen.trans hsame⟩ hpath hasked hfits
      exact ⟨hlast, trivial, hserved⟩
    | call frame shown result =>
      obtain ⟨t, directory, expected, hhosts, hasks⟩ := hask
      obtain ⟨hfirst, hrest⟩ := hfits
      obtain ⟨c'', hrun, htables, hnext⟩ := h.answers others hhosts hasks hfirst
      obtain ⟨rfl, rfl⟩ := Prod.mk.inj (Except.ok.inj (hrun.symm.trans hstep))
      obtain ⟨hlast, hserved⟩ := ih hnext hpath hasked hrest
      exact ⟨hlast, ⟨t, directory, hhosts, hasks, htables⟩, hserved⟩

end Console.Between

/-- Programs that write to the screen, in any order of their calls and whatever happens in between.
Every call returns what it asked for and leaves the tables of the heap and of the paging as they
were; the screen is the fold of all that was to be shown; and the next call is answered too. -/
theorem output_calls_reach_screen {buf : Nat} {others : Nat → ConsoleM Nat} {c : Console} {t : Task}
    {directory : Nat} (hhosts : c.kernel.Hosts t directory) (hbuf : c.kernel.StackBuffer buf)
    (run : List (OutputEvent × Console)) (hpath : Path (OutputEvent.step buf others) c run)
    (hasked : Along OutputEvent.Asked c run) (hfits : FitAll c.terminal (shownIn run)) :
    (showAll c.terminal (shownIn run)).SameScreen (last c run).terminal ∧
    Along OutputEvent.Served c run ∧
    (∃ t' directory', (last c run).kernel.Hosts t' directory') ∧
    ∀ frame shown t' directory' result, (last c run).kernel.Hosts t' directory' →
      (last c run).kernel.Asks directory' frame shown result →
      shown.Fits (showAll c.terminal (shownIn run)) →
      ∃ c', isr80hHandler (isr80hCommands buf others) (i32 frame.eax) frame (last c run) =
        .ok (result, c') := by
  have hstart : c.Between buf c.terminal := ⟨⟨t, directory, hhosts⟩, hbuf, .refl _⟩
  obtain ⟨hlast, hserved⟩ := hstart.run run hpath hasked hfits
  refine ⟨hlast.screen, hserved, hlast.hosts, fun frame shown t' directory' result hhosts' hasks hnext => ?_⟩
  obtain ⟨c', hrun, -⟩ := hlast.answers others hhosts' hasks hnext
  exact ⟨c', hrun⟩

/-! A program that prints `boi`, which lies at `0x400000`, and then clears the screen. -/

def printMemory : Memory := fun a =>
  if a = 0x3FE002 then 0x40
  else if 0x400000 ≤ a then [98, 111, 105].getD (a - 0x400000) 0 else 0

def printFrame (eax : Nat) : InterruptFrame :=
  { edi := 0, esi := 0, ebp := 0, reserved := 0, ebx := 0, edx := 0, ecx := 0, eax, ip := 0x400100
    cs := userCodeSegment, flags := 0, esp := 0x3FE000, ss := userDataSegment }

def printConsole (k : Kernel) (chunk : Nat) : Console :=
  ⟨{ k.withStringTask chunk with memory := printMemory }, 3, 78⟩

theorem printMemory_item {space : AddressSpace} (hspace : ∀ va < 4294967296, space va = some va) :
    load32In space printMemory (u32 ((0x3FE000 : Nat) + 4 * ((0 : Nat) : Int))) =
      some 0x400000 := by
  have hfirst : u32 ((0x3FE000 : Nat) + 4 * ((0 : Nat) : Int)) = 0x3FE000 := by
    unfold u32
    rfl
  have hplace (i : Nat) (hi : i < 4) : u32 (((0x3FE000 : Nat) : Int) + i) = 0x3FE000 + i :=
    u32_natCast (n := 0x3FE000 + i) (by omega)
  have h₁ : u32 (((0x3FE000 : Nat) : Int) + 1) = 0x3FE001 := hplace 1 (by decide)
  have h₂ : u32 (((0x3FE000 : Nat) : Int) + 2) = 0x3FE002 := hplace 2 (by decide)
  have h₃ : u32 (((0x3FE000 : Nat) : Int) + 3) = 0x3FE003 := hplace 3 (by decide)
  unfold load32In
  rw [hfirst, h₁, h₂, h₃, hspace _ (by decide), hspace _ (by decide), hspace _ (by decide),
    hspace _ (by decide)]
  rfl

theorem printText_stays (cells : Nat → UInt16) :
    (⟨cells, 3, 78, []⟩ : Terminal).Stays [98, 111, 105] := by
  refine ⟨⟨?_, ?_⟩, ⟨?_, ?_⟩, ⟨?_, ?_⟩, ⟨?_, ?_⟩⟩
  · exact (by decide : 3 < 25)
  · exact (by decide : 78 < 80)
  · exact (by decide : 3 < 25)
  · exact (by decide : 79 < 80)
  · exact (by decide : 4 < 25)
  · exact (by decide : 0 < 80)
  · exact (by decide : 4 < 25)
  · exact (by decide : 1 < 80)

theorem printText_cursor (cells : Nat → UInt16) :
    (showAll ⟨cells, 3, 78, []⟩ [.text [98, 111, 105]]).terminalRow = 4 ∧
      (showAll ⟨cells, 3, 78, []⟩ [.text [98, 111, 105]]).terminalCol = 1 := ⟨rfl, rfl⟩

theorem output_calls_reach_screen_boi : ∃ c c₁ c₂ : Console,
    isr80hHandler (isr80hCommands 0x5FF000 fun _ => pure 0) (i32 1) (printFrame 1) c =
      .ok (0, c₁) ∧
    isr80hHandler (isr80hCommands 0x5FF000 fun _ => pure 0) (i32 12) (printFrame 12) c₁ =
      .ok (0, c₂) ∧
    (showAll c.terminal [.text [98, 111, 105]]).SameScreen c₁.terminal ∧
    c₁.terminalRow = 4 ∧ c₁.terminalCol = 1 := by
  have hwf : (emptyKernel 1027).heap.WellFormed := emptyKernel_wellFormed (by decide)
  obtain ⟨chunk, k, hnew, hwf', hcount⟩ := pagingNew4gb_returns pagingIsPresent hwf
    (by rw [emptyKernel_freeBlocks]; decide)
  rw [emptyKernel_freeBlocks] at hcount
  obtain ⟨directory, tables, hbuilt⟩ := pagingNew4gb_built hwf.placed (by decide) rfl hnew
  have hpresent : pagingIsPresent &&& pagingIsPresent ≠ 0 := by decide
  have htables := pagingNew4gb_present hpresent rfl hnew hbuilt.holds
  have hspace : ∀ va < 4294967296, pagingSpace k.pages directory va = some va := fun va hva =>
    hbuilt.space (by decide) hpresent htables hva
  obtain ⟨c, hc⟩ : ∃ c, c = printConsole k chunk := ⟨_, rfl⟩
  have hhosts : c.kernel.Hosts (stringTask chunk) directory := by
    rw [hc]
    exact ⟨hwf'.placed, hbuilt.took.clean fun _ hb _ _ => bootEntries_eq_zero hb,
      by change 0 < k.heap.freeBlocks; omega, (by decide : 8 ≠ 0), rfl, hbuilt.holds, ⟨tables, hbuilt.isDirectory⟩, htables⟩
  have hheap : c.kernel.heap.startAddress = boiosHeapAddress := by
    rw [hc]
    exact hbuilt.took.start
  have hbuf : c.kernel.StackBuffer 0x5FF000 :=
    ⟨by decide, by rw [hheap]; decide⟩
  have hitem : c.kernel.stackItem directory (printFrame 1) 0 = some 0x400000 := by
    rw [hc]
    exact printMemory_item hspace
  have hwhere : ∀ i : Nat, i < 4 → u32 ((0x400000 : Nat) + (i : Int)) = 0x400000 + i :=
    fun i hi => u32_natCast (n := 0x400000 + i) (by omega)
  have hasks : c.kernel.Asks directory (printFrame 1) (.text [98, 111, 105]) 0 := by
    refine .print rfl hitem ?_ fun page hpage _ => ?_
    · rw [hc]
      refine ⟨by decide, fun i character hi => ?_, fun _ => ⟨0x400003, ?_, rfl⟩⟩
      · have hin : i < 3 := (List.getElem?_eq_some_iff.mp hi).1
        refine ⟨?_, 0x400000 + i, ?_, ?_⟩
        · exact fun hzero => absurd (List.mem_of_getElem? (hzero ▸ hi)) (by decide)
        · rw [hwhere i (by omega)]
          exact hspace _ (by omega)
        · match i, hi with
          | 0, rfl => rfl
          | 1, rfl => rfl
          | 2, rfl => rfl
      · have hlast := hwhere 3 (by decide)
        exact (congrArg _ hlast).trans (hspace _ (by decide))
    · have haddress := hpage.address
      have hlow := hpage.low
      have hhigh := hpage.high
      have hfits := hhosts.placed.fits
      rw [hheap] at haddress hfits
      unfold boiosHeapAddress at *
      refine ⟨fun i hi _ heq => ?_, fun i hi _ a ha => ?_⟩
      · rw [hwhere i (Nat.lt_succ_of_le hi)] at heq
        unfold pagingAlignToLowerPage pagingPageSize at heq
        change i ≤ 3 at hi
        omega
      · rw [hwhere i (Nat.lt_succ_of_le hi)] at ha
        change i ≤ 3 at hi
        have hplace : pagingSpace c.kernel.pages directory (0x400000 + i) = some (0x400000 + i) := by
          rw [hc]
          exact hspace _ (by omega)
        obtain rfl := Option.some.inj (hplace.symm.trans ha)
        unfold pagingPageSize u32
        omega
  have hstays : c.terminal.Stays [98, 111, 105] := by
    rw [hc]
    exact printText_stays _
  have hnone : ∀ frame shown t' directory' result, c.kernel.Hosts t' directory' →
      c.kernel.Asks directory' frame shown result → shown.Fits c.terminal →
      ∃ c', isr80hHandler (isr80hCommands 0x5FF000 fun _ => pure 0) (i32 frame.eax) frame c =
        .ok (result, c') :=
    (output_calls_reach_screen hhosts hbuf [] trivial trivial hstays.within).2.2.2
  obtain ⟨c₁, hprint⟩ := hnone (printFrame 1) _ _ _ 0 hhosts hasks hstays
  obtain ⟨hscreen, -, ⟨t, directory', hhosts'⟩, hsecond⟩ := output_calls_reach_screen hhosts hbuf
    [(.call (printFrame 1) (.text [98, 111, 105]) 0, c₁)] ⟨hprint, trivial⟩
    ⟨⟨_, _, 0, hhosts, hasks⟩, trivial⟩ ⟨hstays, hstays.run⟩
  have hshown : shownIn [(.call (printFrame 1) (.text [98, 111, 105]) 0, c₁)] =
    [.text [98, 111, 105]] := rfl
  rw [hshown, showAll_singleton] at hsecond
  have hwithin := hstays.run
  obtain ⟨c₂, hclear⟩ := hsecond (printFrame 12) .cleared t directory' 0 hhosts' (.clear rfl) hwithin
  refine ⟨c, c₁, c₂, hprint, hclear, hscreen, ?_, ?_⟩
  · rw [hc] at hscreen
    exact hscreen.row.trans (printText_cursor _).1
  · rw [hc] at hscreen
    exact hscreen.col.trans (printText_cursor _).2

end BoiOS
