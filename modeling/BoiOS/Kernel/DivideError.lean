import BoiOS.Kernel.Interrupts

/-! Division errors. Their gate leads to `idt_zero` of idt/idt.c itself, which goes back as a function
in C does: it takes the place of the division off the stack, and the rest of what the processor has
pushed stays there. -/
namespace BoiOS
open Library.Walk

namespace Cpu

/-- A function in C that was entered through a gate is back, by `ret`. It has left its caller the four
registers that it must, the flag of the interrupts and the stack up to that of the kernel. -/
structure Returns (entered t : Cpu) : Prop where
  eip : t.eip = entered.top
  esp : t.reg .esp = entered.reg .esp + 4
  reg : ∀ r, t.reg r < 4294967296
  kept : ∀ r ∈ [Reg.ebx, .ebp, .esi, .edi], t.reg r = entered.reg r
  cs : t.seg .cs = entered.seg .cs
  ss : t.seg .ss = entered.seg .ss
  eflags : t.eflags < 4294967296
  interrupts : t.eflags &&& interruptFlag = entered.eflags &&& interruptFlag
  frame : ∀ a, entered.reg .esp + 4 ≤ a → a + 4 ≤ tssEsp0 →
    t.memory.load32 a = entered.memory.load32 a

/-- A division that the processor refuses, until `idt_zero` is back. -/
def divideError (symbols : Symbols) (idtZero : Cpu → Option Cpu) (s : Cpu) : Option Cpu :=
  (s.interrupt symbols 0 none).bind idtZero

/-- The program `s` after `n + 1` division errors: it is about to divide again, in the code segment and
on the stack of the kernel, where two words more lie each time. -/
structure Stranded (s : Cpu) (n : Nat) (t : Cpu) : Prop where
  eip : t.eip = s.eip
  cs : t.seg .cs = kernelCodeSelector
  ss : t.seg .ss = tssSs0
  esp : t.reg .esp + 8 * n + 16 = tssEsp0
  kept : ∀ r ∈ [Reg.ebx, .ebp, .esi, .edi], t.reg r = s.reg r
  interrupts : t.eflags &&& interruptFlag = 0
  /-- What a return to the program would take. -/
  left : ∀ i w, [s.seg .cs, s.eflags, s.reg .esp, s.seg .ss][i]? = some w →
    t.memory.load32 (tssEsp0 - 16 + 4 * i : Nat) = w

section Errors

variable {symbols : Symbols} {s t entered : Cpu} {n : Nat}

theorem masked_interruptFlag (eflags : Nat) : eflags &&& 0xFFFCBCFF &&& interruptFlag = 0 := by
  rw [Nat.and_assoc]
  exact Nat.and_zero eflags

theorem interrupt_zero (hs : s.Interruptible) (h : s.interrupt symbols 0 none = some entered) :
    entered.eip = symbols.place symbols.idtZero.toNat ∧
      Running s.memory s.entry 64 entered s.left ∧ (∀ r, r ≠ .esp → entered.reg r = s.reg r) ∧
      entered.seg .cs = kernelCodeSelector ∧
      entered.seg .ss = (if s.cpl = 0 then s.seg .ss else tssSs0) ∧
      entered.eflags = s.eflags &&& 0xFFFCBCFF := by
  obtain ⟨entered', hinterrupt, heip, gate, hselector, hdeliver⟩ :=
    interrupt_of_lt symbols s none (by decide : 0 < totalInterrupts)
  obtain rfl := Option.some.inj (hinterrupt.symm.trans h)
  have herror : ∀ code ∈ (none : Option Nat), code < 4294967296 := fun code hcode => by simp at hcode
  obtain ⟨hrun, hreg, hcs, hss⟩ := deliver_run hs gate symbols.place herror
  rw [← hdeliver] at hrun hreg hcs hss
  refine ⟨heip, hrun, hreg, hcs.trans hselector, ?_, ?_⟩
  · by_cases hcpl : s.cpl = 0
    · rw [if_pos hcpl]
      exact hss hcpl
    · rw [if_neg hcpl, hdeliver]
      unfold deliver
      rw [if_neg hcpl]
      simp
  · rw [hdeliver]
    rfl

theorem Returns.after (hs : s.Interruptible) (h : s.interrupt symbols 0 none = some entered)
    (hback : Returns entered t) :
    t.eip = s.eip ∧ t.seg .cs = kernelCodeSelector ∧
      t.seg .ss = (if s.cpl = 0 then s.seg .ss else tssSs0) ∧
      t.reg .esp + 4 * (s.left.length - 1) = s.entry ∧
      (∀ r ∈ [Reg.ebx, .ebp, .esi, .edi], t.reg r = s.reg r) ∧ t.eflags &&& interruptFlag = 0 ∧
      ∀ a, t.reg .esp ≤ a → a + 4 ≤ tssEsp0 → t.memory.load32 a = entered.memory.load32 a := by
  obtain ⟨-, hrun, hreg, hcs, hss, hflags⟩ := interrupt_zero hs h
  have hbounds := s.length_left_bounds
  have hesp := hrun.esp
  have hfirst : s.left[0]? = some s.eip := rfl
  refine ⟨?_, hback.cs.trans hcs, hback.ss.trans hss, ?_, fun r hr => ?_,
    hback.interrupts.trans (hflags ▸ masked_interruptFlag _), fun a ha => hback.frame a (by rw [← hback.esp]; exact ha)⟩
  · rw [hback.eip]
    exact hrun.word 0 _ hfirst
  · rw [hback.esp]
    omega
  · have hne : r ≠ .esp := by
      rintro rfl
      exact absurd hr (by decide)
    rw [hback.kept r hr, hreg r hne]

theorem Returns.first (hs : s.Interruptible) (hprogram : s.cpl ≠ 0)
    (h : s.interrupt symbols 0 none = some entered) (hback : Returns entered t) : Stranded s 0 t := by
  obtain ⟨heip, hcs, hss, hesp, hkept, hflags, hframe⟩ := hback.after hs h
  obtain ⟨-, hrun, -⟩ := interrupt_zero hs h
  have hentry : s.entry = tssEsp0 := if_neg hprogram
  have hlength : s.left.length = 5 := by rw [length_left, if_neg hprogram]
  have hleft : s.left = s.eip :: [s.seg .cs, s.eflags, s.reg .esp, s.seg .ss] := by
    unfold Cpu.left
    rw [if_neg hprogram]
    rfl
  have htop : tssEsp0 = 0x600000 := rfl
  have hentered := hrun.esp
  rw [hentry, hlength] at hesp hentered
  rw [if_neg hprogram] at hss
  refine ⟨heip, hcs, hss, by omega, hkept, hflags, fun i w hw => ?_⟩
  have hi : i < 4 := (List.getElem?_eq_some_iff.mp hw).1
  have hword := hrun.word (i + 1) w (by rw [hleft]; exact hw)
  have hplace : tssEsp0 - 16 + 4 * i = entered.reg .esp + 4 * (i + 1) := by omega
  rw [hplace, hframe _ (by omega) (by omega), hword]

theorem Stranded.again {c : Cpu} (h : Stranded s n c) (hc : c.Interruptible)
    (hinterrupt : c.interrupt symbols 0 none = some entered) (hback : Returns entered t) :
    Stranded s (n + 1) t := by
  have hcpl : c.cpl = 0 := by
    unfold Cpu.cpl
    rw [h.cs]
    rfl
  obtain ⟨heip, hcs, hss, hesp, hkept, hflags, hframe⟩ := hback.after hc hinterrupt
  obtain ⟨-, hrun, -⟩ := interrupt_zero hc hinterrupt
  have hentry : c.entry = c.reg .esp := if_pos hcpl
  have hlength : c.left.length = 3 := by rw [length_left, if_pos hcpl]
  have htop : tssEsp0 = 0x600000 := rfl
  have hbefore := h.esp
  rw [hentry, hlength] at hesp
  rw [if_pos hcpl] at hss
  refine ⟨heip.trans h.eip, hcs, hss.trans h.ss, by omega, fun r hr => (hkept r hr).trans (h.kept r hr),
    hflags, fun i w hw => ?_⟩
  have hi : i < 4 := (List.getElem?_eq_some_iff.mp hw).1
  rw [hframe _ (by omega) (by omega), hrun.outside _ (by omega) (Or.inr (by omega))]
  exact h.left i w hw

theorem Stranded.interruptible (h : Stranded s n t) (hs : s.Interruptible)
    (hroom : 8 * n + 80 ≤ tssEsp0) (hreg : ∀ r, t.reg r < 4294967296)
    (hflags : t.eflags < 4294967296) : t.Interruptible := by
  have hesp := h.esp
  have htop : tssEsp0 = 0x600000 := rfl
  have hcpl : t.cpl = 0 := by
    unfold Cpu.cpl
    rw [h.cs]
    rfl
  refine ⟨hreg, by rw [h.eip]; exact hs.eip, hflags, ?_, ?_, fun hne => absurd hcpl hne,
    fun _ => ⟨by omega, by omega⟩⟩
  · rw [h.cs]
    decide
  · rw [h.ss]
    decide

end Errors
end Cpu

open Cpu in
/-- A program whose division fails is not back at its own privilege level. However often it fails, the
program stands before the division with the privilege, the code segment and the stack of the kernel and
with the interrupts off; the next error is taken there, and each of them costs two words of that stack. -/
theorem divide_errors_strand {symbols : Symbols} {idtZero : Cpu → Option Cpu}
    (hzero : ∀ c entered t : Cpu, c.Interruptible → c.interrupt symbols 0 none = some entered →
      idtZero entered = some t → Returns entered t)
    {s t : Cpu} (hs : s.Interruptible) (hprogram : s.cpl ≠ 0) {n : Nat}
    (hroom : 8 * n + 80 ≤ tssEsp0) (h : walk (divideError symbols idtZero) (n + 1) s = some t) :
    Stranded s n t ∧ t.cpl = 0 ∧ ∃ entered, t.interrupt symbols 0 none = some entered ∧
      entered.eip = symbols.place symbols.idtZero.toNat := by
  have hstranded : Stranded s n t ∧ t.Interruptible := by
    induction n generalizing t with
    | zero =>
      rw [walk_one] at h
      obtain ⟨entered, hinterrupt, hrun⟩ := Option.bind_eq_some_iff.mp h
      have hback := hzero s entered t hs hinterrupt hrun
      have hfirst := hback.first hs hprogram hinterrupt
      exact ⟨hfirst, hfirst.interruptible hs hroom hback.reg hback.eflags⟩
    | succ n ih =>
      rw [walk_succ_last] at h
      obtain ⟨c, hwalk, hlast⟩ := Option.bind_eq_some_iff.mp h
      obtain ⟨hc, hready⟩ := ih (by omega) hwalk
      obtain ⟨entered, hinterrupt, hrun⟩ := Option.bind_eq_some_iff.mp hlast
      have hback := hzero c entered t hready hinterrupt hrun
      have hagain := hc.again hready hinterrupt hback
      exact ⟨hagain, hagain.interruptible hs hroom hback.reg hback.eflags⟩
  obtain ⟨hst, hready⟩ := hstranded
  obtain ⟨entered, hinterrupt, heip, -⟩ :=
    interrupt_of_lt symbols t none (by decide : 0 < totalInterrupts)
  refine ⟨hst, ?_, entered, hinterrupt, heip⟩
  unfold Cpu.cpl
  rw [hst.cs]
  rfl

def onlyReturns (entered : Cpu) : Option Cpu := some { entered.dropWords 1 with eip := entered.top }

theorem onlyReturns_returns {symbols : Symbols} {c entered t : Cpu} (hc : c.Interruptible)
    (h : c.interrupt symbols 0 none = some entered) (hrun : onlyReturns entered = some t) :
    Cpu.Returns entered t := by
  obtain ⟨-, hstack, hreg, -, -, hflags⟩ := Cpu.interrupt_zero hc h
  obtain rfl := Option.some.inj hrun
  have hroom := hc.room
  have hlength := c.length_left_bounds
  have hesp := hstack.esp
  have hplace : u32 ((entered.reg .esp : Int) + 4 * (1 : Nat)) = entered.reg .esp + 4 :=
    u32_natCast (n := entered.reg .esp + 4) (by omega)
  have hnew : (entered.dropWords 1).reg .esp = entered.reg .esp + 4 :=
    (Cpu.dropWords_esp entered 1).trans hplace
  have hlow : c.eflags &&& 0xFFFCBCFF ≤ c.eflags := Nat.and_le_left
  refine ⟨rfl, hnew, fun r => ?_, fun r hr => ?_, rfl, rfl, ?_, rfl, fun _ _ _ => rfl⟩
  · by_cases hr : r = .esp
    · rw [hr]
      change (entered.dropWords 1).reg .esp < 4294967296
      omega
    · have hsame : (entered.dropWords 1).reg r = c.reg r :=
        (Cpu.dropWords_reg_of_ne entered 1 hr).trans (hreg r hr)
      change (entered.dropWords 1).reg r < 4294967296
      rw [hsame]
      exact hc.reg r
  · have hne : r ≠ .esp := by
      rintro rfl
      exact absurd hr (by decide)
    exact Cpu.dropWords_reg_of_ne entered 1 hne
  · change entered.eflags < 4294967296
    have hbound := hc.eflags
    omega

theorem divideError_onlyReturns (symbols : Symbols) (s : Cpu) :
    ∃ t, s.divideError symbols onlyReturns = some t := by
  obtain ⟨entered, hinterrupt, -⟩ :=
    Cpu.interrupt_of_lt symbols s none (by decide : 0 < totalInterrupts)
  unfold Cpu.divideError
  rw [hinterrupt]
  exact ⟨_, rfl⟩

theorem divide_errors_strand_twice :
    ∃ t, walk (Cpu.divideError packedSymbols onlyReturns) 2 startedCpu = some t ∧ t.cpl = 0 ∧
      t.eip = 0x400000 ∧ t.reg .esp + 24 = tssEsp0 := by
  obtain ⟨c, hfirst⟩ := divideError_onlyReturns packedSymbols startedCpu
  obtain ⟨t, hsecond⟩ := divideError_onlyReturns packedSymbols c
  have hwalk : walk (Cpu.divideError packedSymbols onlyReturns) 2 startedCpu = some t :=
    walk_step hfirst ((walk_one ..).trans hsecond)
  obtain ⟨hstranded, hcpl, -⟩ := divide_errors_strand (fun _ _ _ => onlyReturns_returns)
    startedCpu_interruptible (by decide) (n := 1) (by decide) hwalk
  exact ⟨t, hwalk, hcpl, hstranded.eip, hstranded.esp⟩

end BoiOS
