import BoiOS.Task.UserMode
import Mathlib.Data.Nat.Bitwise

/-! The interrupt descriptor table of idt/idt.c, the entry points of idt/idt.asm that it leads to and
the way of the processor to them. The two functions in C that the entry points call are a parameter. -/
namespace BoiOS

def totalInterrupts : Nat := 512

def kernelCodeSelector : Nat := 0x08

def kernelDataSelector : Nat := 0x10

/-- The fields of the task state segment that the processor takes the stack of the kernel from. -/
def tssEsp0 : Nat := 0x600000

def tssSs0 : Nat := kernelDataSelector

structure IdtDesc where
  offset1 : Nat
  selector : Nat
  zero : Nat
  typeAttr : Nat
  offset2 : Nat
  deriving DecidableEq

/-- What the linker made of the symbols, and the number of the instruction at an address. -/
structure Symbols where
  interruptPointerTable : Nat → UInt32
  idtZero : UInt32
  isr80hWrapper : UInt32
  tmpRes : Nat
  place : Nat → Nat

def idtSet (idtDescriptors : List IdtDesc) (interruptNo : Nat) (address : UInt32) : List IdtDesc :=
  idtDescriptors.set interruptNo
    { offset1 := address.toNat &&& 0x0000ffff
      selector := kernelCodeSelector
      zero := 0
      typeAttr := 0xEE
      offset2 := address.toNat >>> 16 }

/-- The table after `idt_init`, which has cleared it before. -/
def idtInit (symbols : Symbols) : List IdtDesc :=
  let cleared := List.replicate totalInterrupts ⟨0, 0, 0, 0, 0⟩
  let filled := (List.range totalInterrupts).foldl
    (fun idtDescriptors i => idtSet idtDescriptors i (symbols.interruptPointerTable i)) cleared
  idtSet (idtSet filled 0 symbols.idtZero) 0x80 symbols.isr80hWrapper

/-! The entry points. -/

inductive CFunction
  | interruptHandler
  | isr80hHandler

inductive TrapInstr
  | plain (i : Instr)
  | pushad
  | popad
  /-- `push dword imm` -/
  | pushImm (imm : Nat)
  | callC (f : CFunction)
  /-- `add sp, imm` -/
  | addSp (imm : Nat)
  /-- `mov dword [address], eax` -/
  | storeEax (address : Nat)
  /-- `mov eax, [address]` -/
  | loadEax (address : Nat)

/-- The macro `interrupt`. -/
def interruptEntry (n : Nat) : List TrapInstr :=
  [.pushad,
    .plain (.push .esp),
    .pushImm n,
    .callC .interruptHandler,
    .plain (.add .esp 8),
    .popad,
    .plain .iretd]

def isr80hWrapper (tmpRes : Nat) : List TrapInstr :=
  [.pushad,
    .plain (.push .esp),
    .plain (.push .eax),
    .callC .isr80hHandler,
    .storeEax tmpRes,
    .addSp 8,
    .popad,
    .loadEax tmpRes,
    .plain .iretd]

@[irreducible] def idtText (tmpRes : Nat) : List TrapInstr :=
  (List.range totalInterrupts).flatMap interruptEntry ++ isr80hWrapper tmpRes

structure Symbols.Linked (symbols : Symbols) : Prop where
  interrupt : ∀ n < totalInterrupts, symbols.place (symbols.interruptPointerTable n).toNat = 7 * n
  wrapper : symbols.place symbols.isr80hWrapper.toNat = 7 * totalInterrupts
  /-- `idt_zero` is none of them. -/
  zero : 7 * totalInterrupts + 9 ≤ symbols.place symbols.idtZero.toNat

/-- The word for the result is not in what an entry point uses of the stack of the kernel. -/
def Symbols.ResultApart (symbols : Symbols) : Prop :=
  symbols.tmpRes + 4 ≤ 4294967296 ∧
    (symbols.tmpRes + 4 ≤ tssEsp0 - 64 ∨ tssEsp0 ≤ symbols.tmpRes)

namespace Cpu

def pushad (s : Cpu) : Cpu :=
  [.eax, .ecx, .edx, .ebx, .esp, .ebp, .esi, .edi].foldl (fun t r => t.pushWord (s.reg r)) s

def nth (s : Cpu) (i : Nat) : Nat := s.memory.load32 (s.reg .esp + 4 * i : Nat)

/-- The saved stack pointer is passed over. -/
def popad (s : Cpu) : Cpu :=
  { s with
    reg r := match r with
      | .edi => s.nth 0
      | .esi => s.nth 1
      | .ebp => s.nth 2
      | .esp => u32 ((s.reg .esp : Int) + 32)
      | .ebx => s.nth 4
      | .edx => s.nth 5
      | .ecx => s.nth 6
      | .eax => s.nth 7 }

/-- The upper half of the stack pointer stays. The status of a word of 16 bits is the one of its sign
extension. -/
def addSp (s : Cpu) (imm : Nat) : Cpu :=
  let a := s.reg .esp % 65536
  let result := (a + imm) % 65536
  let overflow := a.testBit 15 == imm.testBit 15 && a.testBit 15 != result.testBit 15
  (s.set .esp (s.reg .esp / 65536 * 65536 + result)).setStatus
    (statusFlags (65536 ≤ a + imm) (16 ≤ a % 16 + imm % 16) overflow
      (if result.testBit 15 then result + 0xFFFF0000 else result))

/-- A function in C takes the processor from the call, with its arguments on top of the stack, to the
next instruction, if it returns. -/
def execTrap (run : CFunction → Cpu → Option Cpu) (s : Cpu) : TrapInstr → Option Cpu
  | .plain i => s.exec i
  | .pushad => some s.pushad
  | .popad => some s.popad
  | .pushImm imm => some (s.pushWord imm)
  | .callC f => (run f s).map fun t => { t with eip := s.eip }
  | .addSp imm => some (s.addSp imm)
  | .storeEax address => some { s with memory := s.memory.store32 address (s.reg .eax) }
  | .loadEax address => some (s.set .eax (s.memory.load32 address))

def trapStep (tmpRes : Nat) (run : CFunction → Cpu → Option Cpu) (s : Cpu) : Option Cpu :=
  (idtText tmpRes)[s.eip]?.bind (s.next.execTrap run)

/-- The place that is interrupted, on the stack that is in use; an exception may push an error code
on top of it. A program is interrupted on the stack of the kernel. -/
def deliver (gate : IdtDesc) (place : Nat → Nat) (error : Option Nat) (s : Cpu) : Cpu :=
  let stacked :=
    if s.cpl = 0 then s
    else (((s.setSeg .ss tssSs0).set .esp tssEsp0).pushWord (s.seg .ss)).pushWord (s.reg .esp)
  let pushed := ((stacked.pushWord s.eflags).pushWord (s.seg .cs)).pushWord s.eip
  let entered := error.elim pushed pushed.pushWord
  { entered.setSeg .cs gate.selector with
    eip := place (gate.offset2 * 65536 + gate.offset1)
    -- interrupts, single steps and the two bits of nested tasks are off
    eflags := s.eflags &&& 0xFFFCBCFF }

/-- The processor takes an interrupt through a gate of the table that is a present interrupt gate of
32 bits. -/
def interrupt (symbols : Symbols) (n : Nat) (error : Option Nat) (s : Cpu) : Option Cpu :=
  (idtInit symbols)[n]?.bind fun gate =>
    if gate.typeAttr &&& 0x9F = 0x8E then some (s.deliver gate symbols.place error) else none

end Cpu

/-! The table. -/

theorem offset_halves (address : UInt32) :
    (address.toNat >>> 16) * 65536 + (address.toNat &&& 0x0000ffff) = address.toNat := by
  have hmask : address.toNat &&& 0x0000ffff = address.toNat % 65536 :=
    Nat.and_two_pow_sub_one_eq_mod address.toNat 16
  rw [hmask, Nat.shiftRight_eq_div_pow]
  exact Nat.div_add_mod' ..

theorem length_idtSet (idtDescriptors : List IdtDesc) (n : Nat) (address : UInt32) :
    (idtSet idtDescriptors n address).length = idtDescriptors.length := List.length_set

def idtGate (address : UInt32) : IdtDesc :=
  ⟨address.toNat &&& 0x0000ffff, kernelCodeSelector, 0, 0xEE, address.toNat >>> 16⟩

theorem getElem?_idtSet {idtDescriptors : List IdtDesc} {n m : Nat} (address : UInt32)
    (hn : n < idtDescriptors.length) : (idtSet idtDescriptors n address)[m]? =
      if m = n then some (idtGate address) else idtDescriptors[m]? := by
  unfold idtSet
  by_cases hm : m = n
  · rw [if_pos hm, hm]
    exact List.getElem?_set_self hn
  · rw [if_neg hm, List.getElem?_set_ne (Ne.symm hm)]

theorem getElem?_idtFill (table : Nat → UInt32) (idtDescriptors : List IdtDesc) {count n : Nat}
    (hcount : count ≤ idtDescriptors.length) :
    ((List.range count).foldl (fun d i => idtSet d i (table i)) idtDescriptors).length =
        idtDescriptors.length ∧
      ((List.range count).foldl (fun d i => idtSet d i (table i)) idtDescriptors)[n]? =
        if n < count then some (idtGate (table n)) else idtDescriptors[n]? := by
  induction count with
  | zero => exact ⟨rfl, rfl⟩
  | succ count ih =>
    obtain ⟨hlength, hentry⟩ := ih (Nat.le_of_succ_le hcount)
    rw [List.range_succ, List.foldl_append]
    refine ⟨(length_idtSet ..).trans hlength, ?_⟩
    rw [List.foldl_cons, List.foldl_nil, getElem?_idtSet _ (by omega), hentry]
    by_cases hn : n = count
    · rw [if_pos hn, if_pos (by omega), hn]
    · rw [if_neg hn]
      exact if_congr (by omega) rfl rfl

/-- Each gate leads to its own entry point; only two of them are not from the macro. -/
theorem getElem?_idtInit (symbols : Symbols) {n : Nat} (hn : n < totalInterrupts) :
    (idtInit symbols)[n]? = some (idtGate (if n = 0x80 then symbols.isr80hWrapper
      else if n = 0 then symbols.idtZero else symbols.interruptPointerTable n)) := by
  have hcleared : (List.replicate totalInterrupts (⟨0, 0, 0, 0, 0⟩ : IdtDesc)).length =
      totalInterrupts := List.length_replicate
  obtain ⟨hlength, hentry⟩ :=
    getElem?_idtFill (n := n) symbols.interruptPointerTable _ (Nat.le_of_eq hcleared.symm)
  rw [hcleared] at hlength
  unfold idtInit
  dsimp only
  rw [getElem?_idtSet _ (by rw [length_idtSet, hlength]; decide),
    getElem?_idtSet _ (by rw [hlength]; decide), hentry, if_pos hn]
  split_ifs <;> rfl

namespace Cpu

variable (symbols : Symbols) (s : Cpu) {n : Nat} (error : Option Nat)

theorem interrupt_of_lt (hn : n < totalInterrupts) :
    ∃ entered, s.interrupt symbols n error = some entered ∧
      entered.eip = symbols.place (if n = 0x80 then symbols.isr80hWrapper
        else if n = 0 then symbols.idtZero else symbols.interruptPointerTable n).toNat ∧
      ∃ gate, gate.selector = kernelCodeSelector ∧
        entered = s.deliver gate symbols.place error := by
  unfold interrupt
  rw [getElem?_idtInit symbols hn, Option.bind_some]
  have hpresent : 0xEE &&& 0x9F = 0x8E := by decide
  refine ⟨_, if_pos hpresent, ?_, _, rfl, rfl⟩
  exact congrArg symbols.place (offset_halves _)

end Cpu

/-! The text. -/

theorem getElem?_flatMap_range {α : Type*} {f : Nat → List α} {w m i j : Nat}
    (hlength : ∀ n, (f n).length = w) (hi : i < m) (hj : j < w) :
    ((List.range m).flatMap f)[w * i + j]? = (f i)[j]? := by
  have hall (m : Nat) : ((List.range m).flatMap f).length = w * m := by
    simp [List.length_flatMap, hlength, Nat.mul_comm]
  induction m with
  | zero => exact absurd hi (Nat.not_lt_zero i)
  | succ m ih =>
    rw [List.range_succ, List.flatMap_append]
    by_cases hlast : i = m
    · rw [List.getElem?_append_right (by rw [hall, hlast]; exact Nat.le_add_right ..), hall, hlast,
        Nat.add_sub_cancel_left, List.flatMap_cons, List.flatMap_nil, List.append_nil]
    · have hi' : i < m := by omega
      have hin : w * i + j < w * m := by
        have hblock : w * (i + 1) ≤ w * m := Nat.mul_le_mul_left w hi'
        rw [Nat.mul_succ] at hblock
        omega
      rw [List.getElem?_append_left (by rw [hall]; exact hin), ih hi']

theorem getElem?_idtText_interrupt (tmpRes : Nat) {n j : Nat} (hn : n < totalInterrupts)
    (hj : j < 7) : (idtText tmpRes)[7 * n + j]? = (interruptEntry n)[j]? := by
  have hlength : ((List.range totalInterrupts).flatMap interruptEntry).length =
      7 * totalInterrupts := by
    simp [List.length_flatMap, interruptEntry, Nat.mul_comm]
  unfold idtText
  rw [List.getElem?_append_left (by omega)]
  exact getElem?_flatMap_range (fun _ => rfl) hn hj

theorem getElem?_idtText_wrapper (tmpRes j : Nat) :
    (idtText tmpRes)[7 * totalInterrupts + j]? = (isr80hWrapper tmpRes)[j]? := by
  have hlength : ((List.range totalInterrupts).flatMap interruptEntry).length =
      7 * totalInterrupts := by
    simp [List.length_flatMap, interruptEntry, Nat.mul_comm]
  unfold idtText
  rw [List.getElem?_append_right (by omega), hlength, Nat.add_sub_cancel_left]

end BoiOS
