import BoiOS.Task.CopyString
import BoiOS.Task.ProcessFrame
import BoiOS.Task.UserMode
import BoiOS.Terminal.VideoMemory

/-! The system calls that write to the screen: `isr80h_handler` of idt/idt.c and, behind it, the
commands of isr80h/io.c and isr80h/misc.c. The screen is a part of memory, so that a store beyond it
is a store into something else. -/
namespace BoiOS
open Library.StateRun Library.Transition

/-! What a command gets from the stack of the program. -/

def load32In (space : AddressSpace) (m : Memory) (va : Nat) : Option Nat :=
  (space va).bind fun a₀ => (space (u32 ((va : Int) + 1))).bind fun a₁ =>
    (space (u32 ((va : Int) + 2))).bind fun a₂ => (space (u32 ((va : Int) + 3))).map fun a₃ =>
      (m a₀).toNat + 256 * (m a₁).toNat + 65536 * (m a₂).toNat + 16777216 * (m a₃).toNat

def taskGetStackItem (task index : Nat) : KernelM Nat := do
  let k ← get
  let t ← fetch (k.scheduler.tasks.store task)
  let directory ← fetch (k.pages.chunks t.pageDirectory)
  fetch (load32In (pagingSpace k.pages directory) k.memory
    (u32 ((t.registers.esp : Int) + 4 * (index : Nat))))

def taskCurrentSaveState (frame : InterruptFrame) : KernelM Unit := do
  let k ← get
  if k.scheduler.tasks.currentTask = 0 then throw .panicked
  else do
    let tasks ← fetch (k.scheduler.tasks.modify k.scheduler.tasks.currentTask
      fun t => taskSaveState t frame)
    modify fun k => { k with scheduler := { k.scheduler with tasks } }

structure Console where
  kernel : Kernel
  terminalRow : Nat
  terminalCol : Nat

namespace Console

def terminal (c : Console) : Terminal :=
  ⟨c.kernel.memory.videoCells, c.terminalRow, c.terminalCol, []⟩

/-- The stores of a function on the terminal go into memory. -/
def showing (c : Console) (t : Terminal) : Console where
  kernel := { c.kernel with memory := c.kernel.memory.withVideo t.videoMem }
  terminalRow := t.terminalRow
  terminalCol := t.terminalCol

/-- The loop of `print`, which reads a character when its turn comes. -/
def printLoop (str : Nat) : (count i : Nat) → Console → Console
  | 0, _, c => c
  | count + 1, i, c =>
      printLoop str count (i + 1)
        (c.showing (terminalWritechar c.terminal (c.kernel.memory (u32 ((str : Int) + (i : Nat)))) 15))

def print (c : Console) (str : Nat) : Console :=
  c.printLoop str (strlen (c.kernel.memory.bytesAt str 4294967296)) 0

end Console

abbrev ConsoleM (α : Type) := Prog Console Stop α

def inKernel {α : Type} (x : KernelM α) : ConsoleM α := fun c =>
  (x c.kernel).map fun r => (r.1, { c with kernel := r.2 })

/-- The kernel function on the task that runs. -/
def onCurrentTask {α : Type} (f : Nat → KernelM α) : ConsoleM α := do
  let c ← get
  inKernel (f c.kernel.scheduler.tasks.currentTask)

def isr80hCommand0Sum : ConsoleM Nat := do
  let v2 ← onCurrentTask fun task => taskGetStackItem task 1
  let v1 ← onCurrentTask fun task => taskGetStackItem task 0
  pure (u32 ((v1 : Int) + v2))

/-- `buf` is on the stack of the kernel. -/
def isr80hCommand1Print (buf : Nat) : ConsoleM Nat := do
  let userSpaceMessageBuffer ← onCurrentTask fun task => taskGetStackItem task 0
  let _ ← onCurrentTask fun task => copyStringFromTask task userSpaceMessageBuffer buf 1024
  modify fun c => c.print buf
  pure 0

def isr80hCommand3Putchar : ConsoleM Nat := do
  let item ← onCurrentTask fun task => taskGetStackItem task 0
  modify fun c => c.showing (terminalWritechar c.terminal (.ofNat item) 15)
  pure 0

def isr80hCommand12ClrTerminal : ConsoleM Nat := do
  modify fun c => c.showing (terminalInitialize c.terminal.videoMem)
  pure 0

def boiosMaxIsr80hCommands : Nat := 1024

/-- The table that `isr80h_register_commands` fills; `others` are the commands of the other files
and those that do not write to the screen. -/
def isr80hCommands (buf : Nat) (others : Nat → ConsoleM Nat) (command : Nat) :
    Option (ConsoleM Nat) :=
  if command = 0 then some isr80hCommand0Sum
  else if command = 1 then some (isr80hCommand1Print buf)
  else if command = 3 then some isr80hCommand3Putchar
  else if command = 12 then some isr80hCommand12ClrTerminal
  else if command < 12 then some (others command)
  else none

def isr80hHandleCommand (commands : Nat → Option (ConsoleM Nat)) (command : Int) : ConsoleM Nat :=
  if command < 0 ∨ command ≥ boiosMaxIsr80hCommands then pure 0
  else (commands command.toNat).getD (pure 0)

def isr80hHandler (commands : Nat → Option (ConsoleM Nat)) (command : Int) (frame : InterruptFrame) :
    ConsoleM Nat := do
  inKernel (taskCurrentSaveState frame)
  isr80hHandleCommand commands command

/-! Showing something. -/

inductive Shown
  | text (s : List UInt8)
  | cleared

def Shown.run (t : Terminal) : Shown → Terminal
  | text s => writeAll t (s.map (·, 15))
  | cleared => terminalInitialize t.videoMem

/-- The cursor is on the screen before each character and behind the last one. -/
def Terminal.Stays : Terminal → List UInt8 → Prop
  | t, [] => t.Within
  | t, c :: s => t.Within ∧ (terminalWritechar t c 15).Stays s

def Shown.Fits (t : Terminal) : Shown → Prop
  | text s => t.Stays s
  | cleared => t.Within

theorem Terminal.Stays.within {t : Terminal} {s : List UInt8} (h : t.Stays s) : t.Within := by
  cases s with
  | nil => exact h
  | cons c s => exact h.1

theorem Terminal.SameScreen.text {t t' : Terminal} (s : List UInt8) (h : t.SameScreen t')
    (hstays : t.Stays s) :
    (Shown.run t (.text s)).SameScreen (Shown.run t' (.text s)) ∧ t'.Stays s := by
  induction s generalizing t t' with
  | nil => exact ⟨h, h.within hstays⟩
  | cons c s ih =>
    obtain ⟨hwithin, hrest⟩ := hstays
    obtain ⟨hsame, hstays'⟩ := ih (h.writechar hwithin c 15) hrest
    exact ⟨hsame, h.within hwithin, hstays'⟩

theorem Terminal.Stays.run {t : Terminal} (s : List UInt8) (h : t.Stays s) :
    (Shown.run t (.text s)).Within := by
  induction s generalizing t with
  | nil => exact h
  | cons c s ih => exact ih h.2

theorem Terminal.SameScreen.run {t t' : Terminal} (h : t.SameScreen t') {shown : Shown}
    (hfits : shown.Fits t) : (shown.run t).SameScreen (shown.run t') ∧ shown.Fits t' := by
  cases shown with
  | text s => exact h.text s hfits
  | cleared =>
    refine ⟨.of_at (terminalInitialize_at _) (terminalInitialize_at _) fun cell hcell => ?_,
      h.within hfits⟩
    change (terminalInitialize _).videoMem cell = (terminalInitialize _).videoMem cell
    rw [terminalInitialize_videoMem, terminalInitialize_videoMem]
    exact (if_pos hcell).trans (if_pos hcell).symm

namespace Console
variable {c c' c'' : Console} {t : Terminal}

/-- The terminal is `t` now, as far as the screen goes, and nothing outside of the screen changed. -/
structure Shows (c c' : Console) (t : Terminal) : Prop where
  kernel : c'.kernel = { c.kernel with memory := c'.kernel.memory }
  screen : t.SameScreen c'.terminal
  memory : ∀ a, a + 1 < 4294967296 → a < videoMemory ∨ videoMemory + 4000 ≤ a →
    c'.kernel.memory a = c.kernel.memory a

theorem Shows.refl (c : Console) : c.Shows c c.terminal := ⟨rfl, .refl _, fun _ _ _ => rfl⟩

theorem Shows.trans {t' : Terminal} (h : c.Shows c' t) (h' : c'.Shows c'' t')
    {t'' : Terminal} (hsame : t''.SameScreen t') : c.Shows c'' t'' := by
  refine ⟨?_, hsame.trans h'.screen, fun a ha hoff => (h'.memory a ha hoff).trans (h.memory a ha hoff)⟩
  rw [h'.kernel, h.kernel]

theorem shows_showing (hother : ∀ cell, 80 * 25 ≤ cell → t.videoMem cell = c.terminal.videoMem cell) :
    c.Shows (c.showing t) t := by
  refine ⟨rfl, ⟨rfl, rfl, fun cell hcell => ?_⟩, fun a ha hoff => ?_⟩
  · exact Memory.videoCells_withVideo _ _ (by unfold videoMemory; omega)
  · refine Memory.withVideo_same _ ha fun hlow => hother _ ?_
    unfold videoMemory at *
    omega

theorem shows_writechar (hwithin : c.terminal.Within) (character : UInt8) :
    c.Shows (c.showing (terminalWritechar c.terminal character 15))
      (terminalWritechar c.terminal character 15) :=
  shows_showing fun _ hcell => hwithin.writechar_other character 15 hcell

theorem shows_printLoop {str : Nat} (s : List UInt8) {i : Nat} (hstays : c.terminal.Stays s)
    (hchars : ∀ j (hj : j < s.length), c.kernel.memory (str + (i + j)) = s[j])
    (hoff : videoMemory + 4000 ≤ str + i) (hroom : str + i + s.length < 4294967296) :
    c.Shows (c.printLoop str s.length i) (Shown.run c.terminal (.text s)) := by
  induction s generalizing c i with
  | nil => exact .refl c
  | cons character s ih =>
    obtain ⟨hwithin, hrest⟩ := hstays
    rw [List.length_cons] at hroom
    have hplace : u32 ((str : Int) + (i : Nat)) = str + i := u32_natCast (n := str + i) (by omega)
    have hcharacter : c.kernel.memory (u32 ((str : Int) + (i : Nat))) = character := by
      rw [hplace]
      exact hchars 0 (Nat.zero_lt_succ _)
    have hfirst := shows_writechar hwithin character
    obtain ⟨hsame, hstays'⟩ := hfirst.screen.text s hrest
    have hbehind := ih hstays' (i := i + 1) (fun j hj => by
        rw [hfirst.memory _ (by omega) (.inr (by omega)), Nat.add_assoc, Nat.add_comm 1 j]
        exact hchars (j + 1) (Nat.succ_lt_succ hj)) (by omega) (by omega)
    rw [List.length_cons, printLoop, hcharacter]
    exact hfirst.trans hbehind hsame

theorem strlen_append {s : List UInt8} (h : 0 ∉ s) (rest : List UInt8) :
    strlen (s ++ 0 :: rest) = s.length := by
  induction s with
  | nil => rfl
  | cons character s ih =>
    obtain ⟨hcharacter, hs⟩ := not_or.mp (mt List.mem_cons.mpr h)
    rw [List.cons_append, strlen, if_neg (Ne.symm hcharacter), ih hs, List.length_cons]

theorem strlen_of_holds {m : Memory} {ptr : Nat} {s : List UInt8} (h : m.HoldsString ptr s)
    (hnonzero : 0 ∉ s) {size : Nat} (hsize : s.length < size) :
    strlen (m.bytesAt ptr size) = s.length := by
  have htake : (m.bytesAt ptr size).take (s.length + 1) = s ++ [0] := by
    rw [Memory.bytesAt_take m ptr size _ hsize]
    exact h
  rw [← List.take_append_drop (s.length + 1) (m.bytesAt ptr size), htake, List.append_assoc,
    List.singleton_append]
  exact strlen_append hnonzero _

theorem shows_print {str : Nat} {s : List UInt8} (hstays : c.terminal.Stays s)
    (hholds : c.kernel.memory.HoldsString str s) (hnonzero : 0 ∉ s)
    (hoff : videoMemory + 4000 ≤ str) (hroom : str + s.length < 4294967296) :
    c.Shows (c.print str) (Shown.run c.terminal (.text s)) := by
  unfold print
  rw [strlen_of_holds hholds hnonzero (by omega)]
  refine shows_printLoop s hstays (fun j hj => ?_) (by omega) (by omega)
  have hbyte : (c.kernel.memory.bytesAt str (s.length + 1))[j]? =
      some (c.kernel.memory (u32 ((str : Int) + j))) :=
    Memory.getElem?_bytesAt c.kernel.memory (Nat.lt_succ_of_lt hj)
  rw [hholds, List.getElem?_append_left hj, List.getElem?_eq_getElem hj, Option.some.injEq] at hbyte
  have hplace : u32 ((str : Int) + (j : Nat)) = str + j := u32_natCast (n := str + j) (by omega)
  rw [Nat.zero_add, hbyte, hplace]

end Console

end BoiOS
