import BoiOS.Library.Walk
import BoiOS.Machine.Memory
import Mathlib.Logic.Function.Basic

/-! The part of the 32-bit processor that the assembly of the kernel uses. Instructions are
numbered by their place in the program text, and `eip` is that number while the kernel runs. -/
namespace BoiOS

inductive Reg
  | eax | ecx | edx | ebx | esp | ebp | esi | edi
  deriving DecidableEq

inductive Seg
  | cs | ss | ds | es | fs | gs
  deriving DecidableEq

structure Cpu where
  reg : Reg → Nat
  seg : Seg → Nat
  eip : Nat
  eflags : Nat
  memory : Memory

inductive Instr
  /-- `mov dst, src` -/
  | mov (dst src : Reg)
  /-- `mov dst, [base + disp]` -/
  | load (dst base : Reg) (disp : Nat)
  /-- `mov ax, [base + disp]` -/
  | loadAx (base : Reg) (disp : Nat)
  /-- `mov dst, ax` -/
  | movSeg (dst : Seg)
  | push (src : Reg)
  /-- `push dword [base + disp]` -/
  | pushMem (base : Reg) (disp : Nat)
  | pushf
  | pop (dst : Reg)
  /-- `or dst, imm` -/
  | or (dst : Reg) (imm : Nat)
  /-- `add dst, imm` -/
  | add (dst : Reg) (imm : Nat)
  | call (target : Nat)
  | ret
  | iretd

def interruptFlag : Nat := 0x200

def statusFlags (carry aux overflow : Bool) (result : Nat) : Nat :=
  carry.toNat ||| 0x4 * (((List.range 8).countP result.testBit) % 2 == 0).toNat |||
    0x10 * aux.toNat ||| 0x40 * (result == 0).toNat ||| 0x80 * (result.testBit 31).toNat |||
    0x800 * overflow.toNat

namespace Cpu

def set (s : Cpu) (r : Reg) (v : Nat) : Cpu := { s with reg := Function.update s.reg r v }

def setSeg (s : Cpu) (r : Seg) (v : Nat) : Cpu := { s with seg := Function.update s.seg r v }

def setStatus (s : Cpu) (status : Nat) : Cpu := { s with eflags := s.eflags &&& 0xFFFFF72A ||| status }

def word (s : Cpu) (base : Reg) (disp : Nat) : Nat := s.memory.load32 ((s.reg base : Int) + disp)

def pushWord (s : Cpu) (v : Nat) : Cpu :=
  let esp := u32 ((s.reg .esp : Int) - 4)
  { s.set .esp esp with memory := s.memory.store32 esp v }

def top (s : Cpu) : Nat := s.memory.load32 (s.reg .esp)

def dropWords (s : Cpu) (n : Nat) : Cpu := s.set .esp (u32 ((s.reg .esp : Int) + 4 * n))

def cpl (s : Cpu) : Nat := s.seg .cs % 4

/-- A return from an interrupt takes the stack of the program from the frame as well when it
leaves the kernel; the selector of that stack must be for the same privilege. -/
def iretd (s : Cpu) : Option Cpu :=
  let entry := fun i : Nat => s.memory.load32 ((s.reg .esp : Int) + 4 * i)
  let cs := entry 1 % 65536
  let returned := { s.setSeg .cs cs with eip := entry 0, eflags := entry 2 }
  if cs % 4 = s.cpl then some (returned.dropWords 3)
  else
    let ss := entry 4 % 65536
    if cs % 4 < s.cpl ∨ ss % 4 ≠ cs % 4 then none
    else some ((returned.setSeg .ss ss).set .esp (entry 3))

def exec (s : Cpu) : Instr → Option Cpu
  | .mov dst src => some (s.set dst (s.reg src))
  | .load dst base disp => some (s.set dst (s.word base disp))
  | .loadAx base disp =>
      some (s.set .eax (s.reg .eax / 65536 * 65536 + s.memory.load16 ((s.reg base : Int) + disp)))
  | .movSeg dst => some (s.setSeg dst (s.reg .eax % 65536))
  | .push src => some (s.pushWord (s.reg src))
  | .pushMem base disp => some (s.pushWord (s.word base disp))
  -- the image of the flags on the stack has RF and VM clear
  | .pushf => some (s.pushWord (s.eflags &&& 0x00FCFFFF))
  | .pop dst => some ((s.dropWords 1).set dst s.top)
  | .or dst imm =>
      let result := s.reg dst ||| imm
      some ((s.set dst result).setStatus (statusFlags false false false result))
  | .add dst imm =>
      let a := s.reg dst
      let result := u32 ((a : Int) + imm)
      let overflow := a.testBit 31 == imm.testBit 31 && a.testBit 31 != result.testBit 31
      some ((s.set dst result).setStatus
        (statusFlags (4294967296 ≤ a + imm) (16 ≤ a % 16 + imm % 16) overflow result))
  | .call target => some { s.pushWord s.eip with eip := target }
  | .ret => some { s.dropWords 1 with eip := s.top }
  | .iretd => s.iretd

def next (s : Cpu) : Cpu := { s with eip := s.eip + 1 }

def step (text : List Instr) (s : Cpu) : Option Cpu := text[s.eip]?.bind s.next.exec

theorem step_of_fetch {text : List Instr} {s : Cpu} {i : Instr} (h : text[s.eip]? = some i) :
    s.step text = s.next.exec i := by
  unfold step
  rw [h, Option.bind_some]

/-! What the parts of an instruction leave alone. -/

@[simp] theorem next_reg (s : Cpu) : s.next.reg = s.reg := rfl
@[simp] theorem next_seg (s : Cpu) : s.next.seg = s.seg := rfl
@[simp] theorem next_eip (s : Cpu) : s.next.eip = s.eip + 1 := rfl
@[simp] theorem next_eflags (s : Cpu) : s.next.eflags = s.eflags := rfl
@[simp] theorem next_memory (s : Cpu) : s.next.memory = s.memory := rfl

@[simp] theorem set_reg (s : Cpu) (r : Reg) (v : Nat) :
    (s.set r v).reg = Function.update s.reg r v := rfl
@[simp] theorem set_seg (s : Cpu) (r : Reg) (v : Nat) : (s.set r v).seg = s.seg := rfl
@[simp] theorem set_eip (s : Cpu) (r : Reg) (v : Nat) : (s.set r v).eip = s.eip := rfl
@[simp] theorem set_eflags (s : Cpu) (r : Reg) (v : Nat) : (s.set r v).eflags = s.eflags := rfl
@[simp] theorem set_memory (s : Cpu) (r : Reg) (v : Nat) : (s.set r v).memory = s.memory := rfl

@[simp] theorem setSeg_reg (s : Cpu) (r : Seg) (v : Nat) : (s.setSeg r v).reg = s.reg := rfl
@[simp] theorem setSeg_seg (s : Cpu) (r : Seg) (v : Nat) :
    (s.setSeg r v).seg = Function.update s.seg r v := rfl
@[simp] theorem setSeg_eip (s : Cpu) (r : Seg) (v : Nat) : (s.setSeg r v).eip = s.eip := rfl
@[simp] theorem setSeg_eflags (s : Cpu) (r : Seg) (v : Nat) :
    (s.setSeg r v).eflags = s.eflags := rfl
@[simp] theorem setSeg_memory (s : Cpu) (r : Seg) (v : Nat) :
    (s.setSeg r v).memory = s.memory := rfl

@[simp] theorem setStatus_reg (s : Cpu) (v : Nat) : (s.setStatus v).reg = s.reg := rfl
@[simp] theorem setStatus_seg (s : Cpu) (v : Nat) : (s.setStatus v).seg = s.seg := rfl
@[simp] theorem setStatus_eip (s : Cpu) (v : Nat) : (s.setStatus v).eip = s.eip := rfl
@[simp] theorem setStatus_memory (s : Cpu) (v : Nat) : (s.setStatus v).memory = s.memory := rfl

@[simp] theorem pushWord_reg_of_ne (s : Cpu) (v : Nat) {r : Reg} (h : r ≠ .esp) :
    (s.pushWord v).reg r = s.reg r := Function.update_of_ne h ..
@[simp] theorem pushWord_esp (s : Cpu) (v : Nat) :
    (s.pushWord v).reg .esp = u32 ((s.reg .esp : Int) - 4) := by
  change Function.update s.reg .esp _ .esp = _
  exact Function.update_self ..
@[simp] theorem pushWord_seg (s : Cpu) (v : Nat) : (s.pushWord v).seg = s.seg := rfl
@[simp] theorem pushWord_eip (s : Cpu) (v : Nat) : (s.pushWord v).eip = s.eip := rfl
@[simp] theorem pushWord_eflags (s : Cpu) (v : Nat) : (s.pushWord v).eflags = s.eflags := rfl

@[simp] theorem dropWords_reg_of_ne (s : Cpu) (n : Nat) {r : Reg} (h : r ≠ .esp) :
    (s.dropWords n).reg r = s.reg r := Function.update_of_ne h ..
@[simp] theorem dropWords_esp (s : Cpu) (n : Nat) :
    (s.dropWords n).reg .esp = u32 ((s.reg .esp : Int) + 4 * n) := by
  change Function.update s.reg .esp _ .esp = _
  exact Function.update_self ..
@[simp] theorem dropWords_seg (s : Cpu) (n : Nat) : (s.dropWords n).seg = s.seg := rfl
@[simp] theorem dropWords_eip (s : Cpu) (n : Nat) : (s.dropWords n).eip = s.eip := rfl
@[simp] theorem dropWords_eflags (s : Cpu) (n : Nat) : (s.dropWords n).eflags = s.eflags := rfl
@[simp] theorem dropWords_memory (s : Cpu) (n : Nat) : (s.dropWords n).memory = s.memory := rfl

/-! The stack of a routine. -/

/-- The processor has pushed the words of `stack`, the last one first, below the address `entry`,
where the stack had `room`; everything else in memory is as it was in `m`. -/
structure Running (m : Memory) (entry room : Nat) (s : Cpu) (stack : List Nat) : Prop where
  fits : entry ≤ 4294967296
  depth : 4 * stack.length ≤ room
  esp : s.reg .esp + 4 * stack.length = entry
  word : ∀ i w, stack[i]? = some w → s.memory.load32 (s.reg .esp + 4 * i : Nat) = w
  outside : ∀ a, a + 4 ≤ 4294967296 → a + 4 + room ≤ entry ∨ entry ≤ a →
    s.memory.load32 a = m.load32 a

variable {m : Memory} {entry room : Nat} {s t : Cpu} {stack : List Nat}

theorem Running.congr (h : Running m entry room s stack) (hesp : t.reg .esp = s.reg .esp)
    (hmemory : t.memory = s.memory) : Running m entry room t stack where
  fits := h.fits
  depth := h.depth
  esp := by rw [hesp, h.esp]
  word i w hw := by rw [hesp, hmemory, h.word i w hw]
  outside a ha hapart := by rw [hmemory, h.outside a ha hapart]

theorem Running.set (h : Running m entry room s stack) {r : Reg} (hr : r ≠ .esp) (v : Nat) :
    Running m entry room (s.set r v) stack :=
  h.congr (Function.update_of_ne hr.symm ..) rfl

theorem Running.next (h : Running m entry room s stack) : Running m entry room s.next stack :=
  h.congr rfl rfl

theorem Running.setSeg (h : Running m entry room s stack) (r : Seg) (v : Nat) :
    Running m entry room (s.setSeg r v) stack :=
  h.congr rfl rfl

theorem Running.setStatus (h : Running m entry room s stack) (v : Nat) :
    Running m entry room (s.setStatus v) stack :=
  h.congr rfl rfl

theorem Running.pushWord (h : Running m entry room s stack) {v w : Nat} (hvalue : v = w)
    (hv : w < 4294967296) (hroom : 4 * (stack.length + 1) ≤ room) (hentry : room ≤ entry) :
    Running m entry room (s.pushWord v) (w :: stack) := by
  subst hvalue
  obtain ⟨hfits, hdepth, hesp, hword, houtside⟩ := h
  have hbelow : u32 ((s.reg .esp : Int) - 4) = s.reg .esp - 4 := by
    rw [show ((s.reg .esp : Int) - 4) = (s.reg .esp - 4 : Nat) by omega, u32_natCast (by omega)]
  have hnew : (s.pushWord v).reg .esp = s.reg .esp - 4 := by
    rw [pushWord_esp, hbelow]
  have hmemory : (s.pushWord v).memory = s.memory.store32 (s.reg .esp - 4) v :=
    congrArg (s.memory.store32 · v) hbelow
  refine ⟨hfits, hroom, ?_, ?_, ?_⟩
  · rw [hnew, List.length_cons]
    omega
  · intro i w hw
    rw [hnew, hmemory]
    cases i with
    | zero =>
      rw [List.getElem?_cons_zero, Option.some.injEq] at hw
      rw [Nat.mul_zero, Nat.add_zero, Memory.load32_store32 (by omega) hv, hw]
    | succ i =>
      rw [List.getElem?_cons_succ] at hw
      have hi : i < stack.length := (List.getElem?_eq_some_iff.mp hw).1
      rw [Memory.load32_store32_of_apart (by omega) (by omega) (by omega),
        show s.reg .esp - 4 + 4 * (i + 1) = s.reg .esp + 4 * i by omega]
      exact hword i w hw
  · intro a ha hapart
    rw [hmemory, Memory.load32_store32_of_apart (by omega) ha (by omega)]
    exact houtside a ha hapart

theorem Running.drop {taken : List Nat} (h : Running m entry room s (taken ++ stack))
    (hesp : t.reg .esp = u32 ((s.reg .esp : Int) + 4 * taken.length))
    (hbound : entry < 4294967296) (hmemory : t.memory = s.memory) :
    Running m entry room t stack := by
  obtain ⟨hfits, hdepth, hentry, hword, houtside⟩ := h
  rw [List.length_append] at hdepth hentry
  have hnew : t.reg .esp = s.reg .esp + 4 * taken.length := by
    rw [hesp, show ((s.reg .esp : Int) + 4 * taken.length) =
      (s.reg .esp + 4 * taken.length : Nat) by omega, u32_natCast (by omega)]
  refine ⟨hfits, by omega, by omega, ?_, ?_⟩
  · intro i w hw
    rw [hnew, hmemory, Nat.add_assoc, ← Nat.mul_add]
    refine hword (taken.length + i) w ?_
    rw [List.getElem?_append_right (by omega), Nat.add_sub_cancel_left]
    exact hw
  · intro a ha hapart
    rw [hmemory]
    exact houtside a ha hapart

theorem Running.pop {v : Nat} (h : Running m entry room s (v :: stack)) {dst : Reg}
    (hdst : dst ≠ .esp) (hbound : entry < 4294967296) :
    Running m entry room ((s.dropWords 1).set dst s.top) stack := by
  refine Running.drop (show Running m entry room s ([v] ++ stack) from h) ?_ hbound rfl
  rw [set_reg, Function.update_of_ne hdst.symm, dropWords_esp]
  rfl

theorem Running.top {v : Nat} (h : Running m entry room s (v :: stack)) : s.top = v := by
  have hword := h.word 0 v rfl
  rw [Nat.mul_zero, Nat.add_zero] at hword
  exact hword

theorem Running.iretd {ip cs eflags esp ss : Nat}
    (h : Running m entry room s [ip, cs, eflags, esp, ss]) (hkernel : s.cpl = 0)
    (hcs : cs < 65536) (hss : ss < 65536) (hlevel : 0 < cs % 4) (hstack : ss % 4 = cs % 4) :
    s.iretd = some ((({ s.setSeg .cs cs with eip := ip, eflags := eflags } : Cpu).setSeg .ss
      ss).set .esp esp) := by
  have hentry {i w : Nat} (hw : [ip, cs, eflags, esp, ss][i]? = some w) :
      s.memory.load32 ((s.reg .esp : Int) + 4 * i) = w := h.word i w hw
  unfold Cpu.iretd
  simp only [hentry (i := 0) rfl, hentry (i := 1) rfl, hentry (i := 2) rfl, hentry (i := 3) rfl,
    hentry (i := 4) rfl, Nat.mod_eq_of_lt hcs, Nat.mod_eq_of_lt hss]
  rw [hkernel, if_neg (by omega), if_neg (by omega)]

theorem Running.load (h : Running m entry room s stack) {base : Reg} {disp a : Nat}
    (haddress : s.reg base + disp = a) (ha : a + 4 ≤ 4294967296)
    (hapart : a + 4 + room ≤ entry ∨ entry ≤ a) : s.memory.load32 ((s.reg base : Int) + disp) =
      m.load32 a := by
  rw [← h.outside a ha hapart, ← haddress]
  rfl

end Cpu
end BoiOS
