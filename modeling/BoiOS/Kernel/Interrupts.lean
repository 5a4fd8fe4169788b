import BoiOS.Kernel.Idt

/-! Interrupts and system calls as the interrupted code sees them. The entry points hand over a frame
with its registers, and give them back when the function in C returns; a system call changes `eax`
only. -/
namespace BoiOS
open Library.Walk

/-- The structure in memory, in the order of its declaration. -/
def InterruptFrame.words (frame : InterruptFrame) : List Nat :=
  [frame.edi, frame.esi, frame.ebp, frame.reserved, frame.ebx, frame.edx, frame.ecx, frame.eax,
    frame.ip, frame.cs, frame.flags, frame.esp, frame.ss]

namespace Cpu

/-! What is on the stack. -/

/-- The processor notes the place that it leaves, and the stack of a program. -/
def left (s : Cpu) : List Nat :=
  [s.eip, s.seg .cs, s.eflags] ++ if s.cpl = 0 then [] else [s.reg .esp, s.seg .ss]

def entry (s : Cpu) : Nat := if s.cpl = 0 then s.reg .esp else tssEsp0

/-- The words that `pushad` leaves, the last one first. -/
def general (s : Cpu) : List Nat := [.edi, .esi, .ebp, .esp, .ebx, .edx, .ecx, .eax].map s.reg

/-- What the processor pushed, and two words of the stack above. -/
def noted (s : Cpu) (error : Option Nat) : List Nat :=
  error.toList ++ s.left ++ [s.memory.load32 s.entry, s.memory.load32 (s.entry + 4 : Nat)]

/-- The frame that a handler reads. Of the kernel its last two words are two words of the stack it was
interrupted on; an error code takes the place of `ip`, and each word after it that of the next. -/
def frame (s : Cpu) (error : Option Nat) : InterruptFrame where
  edi := s.reg .edi
  esi := s.reg .esi
  ebp := s.reg .ebp
  reserved := s.entry - 4 * (error.toList ++ s.left).length
  ebx := s.reg .ebx
  edx := s.reg .edx
  ecx := s.reg .ecx
  eax := s.reg .eax
  ip := (s.noted error).getD 0 0
  cs := (s.noted error).getD 1 0
  flags := (s.noted error).getD 2 0
  esp := (s.noted error).getD 3 0
  ss := (s.noted error).getD 4 0

/-- Code that can be interrupted: a program, or the kernel with 64 bytes of stack left. -/
structure Interruptible (s : Cpu) : Prop where
  reg : ∀ r, s.reg r < 4294967296
  eip : s.eip < 4294967296
  eflags : s.eflags < 4294967296
  cs : s.seg .cs < 65536
  ss : s.seg .ss < 65536
  program : s.cpl ≠ 0 → s.cpl = 3 ∧ s.seg .ss % 4 = 3
  kernel : s.cpl = 0 → 64 ≤ s.reg .esp ∧ s.reg .esp + 8 ≤ 4294967296

/-- A function in C that was called with two arguments is back. What it pushed it has taken off the
stack again, and of the stack below `top` it may have used its arguments only. -/
structure Back (top : Nat) (called t : Cpu) : Prop where
  esp : t.reg .esp = called.reg .esp
  eax : t.reg .eax < 4294967296
  cs : t.seg .cs = called.seg .cs
  ss : t.seg .ss = called.seg .ss
  frame : ∀ a, called.reg .esp + 8 ≤ a → a + 4 ≤ top → t.memory.load32 a = called.memory.load32 a

section Steps

variable {m : Memory} {top room : Nat} {s t : Cpu} {stack : List Nat}

theorem Running.pushWords (f : Reg → Nat) (hf : ∀ r, f r < 4294967296) (rs : List Reg)
    (h : Running m top room s stack) (hroom : 4 * (stack.length + rs.length) ≤ room)
    (htop : room ≤ top) :
    Running m top room (rs.foldl (fun t r => t.pushWord (f r)) s)
        ((rs.map f).reverse ++ stack) ∧
      (∀ r, r ≠ .esp → (rs.foldl (fun t r => t.pushWord (f r)) s).reg r = s.reg r) ∧
      (rs.foldl (fun t r => t.pushWord (f r)) s).seg = s.seg ∧
      (rs.foldl (fun t r => t.pushWord (f r)) s).eip = s.eip := by
  induction rs generalizing s stack with
  | nil => exact ⟨h, fun _ _ => rfl, rfl, rfl⟩
  | cons r rs ih =>
    rw [List.length_cons] at hroom
    have hpush := h.pushWord rfl (hf r) (by omega) htop
    obtain ⟨hrun, hreg, hseg, heip⟩ := ih hpush (by rw [List.length_cons]; omega)
    rw [List.foldl_cons, List.map_cons, List.reverse_cons, List.append_assoc]
    refine ⟨hrun, fun x hx => ?_, hseg, heip⟩
    rw [hreg x hx, pushWord_reg_of_ne _ _ hx]

theorem Running.pushad (h : Running m top room s stack) (hreg : ∀ r, s.reg r < 4294967296)
    (hroom : 4 * (stack.length + 8) ≤ room) (htop : room ≤ top) :
    Running m top room s.pushad (s.general ++ stack) ∧
      (∀ r, r ≠ .esp → s.pushad.reg r = s.reg r) ∧ s.pushad.seg = s.seg ∧
      s.pushad.eip = s.eip :=
  h.pushWords s.reg hreg [.eax, .ecx, .edx, .ebx, .esp, .ebp, .esi, .edi] hroom htop

theorem Running.nth (h : Running m top room s stack) {i w : Nat} (hw : stack[i]? = some w) :
    s.nth i = w := h.word i w hw

theorem Running.popad {saved : Cpu} (h : Running m top room s (saved.general ++ stack))
    (htop : top < 4294967296) :
    Running m top room s.popad stack ∧ ∀ r, r ≠ .esp → s.popad.reg r = saved.reg r := by
  refine ⟨h.drop rfl htop rfl, fun r hr => ?_⟩
  have hnth {i w : Nat} (hw : saved.general[i]? = some w) : s.nth i = w :=
    h.nth (by rw [List.getElem?_append_left (List.getElem?_eq_some_iff.mp hw).1]; exact hw)
  cases r with
  | edi => exact hnth (i := 0) rfl
  | esi => exact hnth (i := 1) rfl
  | ebp => exact hnth (i := 2) rfl
  | esp => exact absurd rfl hr
  | ebx => exact hnth (i := 4) rfl
  | edx => exact hnth (i := 5) rfl
  | ecx => exact hnth (i := 6) rfl
  | eax => exact hnth (i := 7) rfl

theorem Running.resume {saved : Cpu} (h : Running m saved.entry room s saved.left)
    (hsaved : saved.Interruptible) (hkernel : s.cpl = 0)
    (hss : saved.cpl = 0 → s.seg .ss = saved.seg .ss) :
    ∃ t, s.iretd = some t ∧ t.eip = saved.eip ∧ t.eflags = saved.eflags ∧
      t.reg .esp = saved.reg .esp ∧ t.seg .cs = saved.seg .cs ∧ t.seg .ss = saved.seg .ss ∧
      (∀ r, r ≠ .esp → t.reg r = s.reg r) ∧ (∀ x, x ≠ .cs → x ≠ .ss → t.seg x = s.seg x) ∧
      t.memory = s.memory := by
  by_cases hcpl : saved.cpl = 0
  · have hleft : saved.left = [saved.eip, saved.seg .cs, saved.eflags] := by
      unfold left
      rw [if_pos hcpl, List.append_nil]
    have hentry : saved.entry = saved.reg .esp := if_pos hcpl
    rw [hleft, hentry] at h
    have hword {i w : Nat} (hw : [saved.eip, saved.seg .cs, saved.eflags][i]? = some w) :
        s.memory.load32 ((s.reg .esp : Int) + 4 * i) = w := h.word i w hw
    have hlevel : saved.seg .cs % 4 = s.cpl := hcpl.trans hkernel.symm
    have hroom := (hsaved.kernel hcpl).2
    have hesp : s.reg .esp + 12 = saved.reg .esp := h.esp
    unfold Cpu.iretd
    simp only [hword (i := 0) rfl, hword (i := 1) rfl, hword (i := 2) rfl,
      Nat.mod_eq_of_lt hsaved.cs]
    rw [if_pos hlevel]
    have hdropped : u32 ((s.reg .esp : Int) + 4 * 3) = saved.reg .esp := by
      rw [show (s.reg .esp : Int) + 4 * 3 = (s.reg .esp + 12 : Nat) by omega,
        u32_natCast (by omega), hesp]
    refine ⟨_, rfl, rfl, rfl, ?_, ?_, ?_, ?_, ?_, rfl⟩
    · rw [dropWords_esp]
      exact hdropped
    · simp
    · simp [hss hcpl]
    · intro r hr
      simp [hr]
    · intro x hx _
      simp [hx]
  · have hleft : saved.left =
        [saved.eip, saved.seg .cs, saved.eflags, saved.reg .esp, saved.seg .ss] := by
      unfold left
      rw [if_neg hcpl]
      rfl
    rw [hleft] at h
    obtain ⟨hlevel, hstack⟩ := hsaved.program hcpl
    have hcs : saved.seg .cs % 4 = 3 := hlevel
    refine ⟨_, h.iretd hkernel hsaved.cs hsaved.ss (by omega) (by omega), rfl, rfl, ?_, ?_, ?_, ?_,
      ?_, rfl⟩
    · simp
    · simp
    · simp
    · intro r hr
      simp [hr]
    · intro x hx hx'
      simp [hx, hx']

end Steps

section Delivery

variable {m : Memory} {top : Nat} {s t : Cpu} {stack : List Nat}

theorem Interruptible.room (hs : s.Interruptible) : 64 ≤ s.entry ∧ s.entry + 8 ≤ 4294967296 := by
  unfold entry
  by_cases hcpl : s.cpl = 0
  · rw [if_pos hcpl]
    exact hs.kernel hcpl
  · rw [if_neg hcpl]
    decide

theorem length_left (s : Cpu) : s.left.length = if s.cpl = 0 then 3 else 5 := by
  unfold left
  by_cases hcpl : s.cpl = 0
  · rw [if_pos hcpl, if_pos hcpl]
    rfl
  · rw [if_neg hcpl, if_neg hcpl]
    rfl

theorem length_left_bounds (s : Cpu) : 3 ≤ s.left.length ∧ s.left.length ≤ 5 := by
  rw [length_left]
  split_ifs <;> decide

theorem Running.note (h : Running m top 64 t stack) (hs : s.Interruptible) (hstack : stack.length ≤ 2)
    (htop : 64 ≤ top) {error : Option Nat} (herror : ∀ code ∈ error, code < 4294967296) :
    let pushed := ((t.pushWord s.eflags).pushWord (s.seg .cs)).pushWord s.eip
    Running m top 64 (error.elim pushed pushed.pushWord)
        (error.toList ++ ([s.eip, s.seg .cs, s.eflags] ++ stack)) ∧
      (∀ r, r ≠ .esp → (error.elim pushed pushed.pushWord).reg r = t.reg r) ∧
      (error.elim pushed pushed.pushWord).seg = t.seg := by
  intro pushed
  have hcs : s.seg .cs < 4294967296 := Nat.lt_trans hs.cs (by decide)
  have hflags := h.pushWord rfl hs.eflags (by omega) htop
  have hsegment := hflags.pushWord rfl hcs (by rw [List.length_cons]; omega) htop
  have hplace := hsegment.pushWord rfl hs.eip (by rw [List.length_cons, List.length_cons]; omega) htop
  have hreg (r : Reg) (hr : r ≠ .esp) : pushed.reg r = t.reg r := by
    simp [pushed, hr]
  cases error with
  | none => exact ⟨hplace, hreg, rfl⟩
  | some code =>
    refine ⟨hplace.pushWord rfl (herror code rfl) ?_ htop, fun r hr => ?_, rfl⟩
    · simp only [List.length_cons]
      omega
    · exact (pushWord_reg_of_ne _ _ hr).trans (hreg r hr)

theorem deliver_run (hs : s.Interruptible) (gate : IdtDesc) (place : Nat → Nat) {error : Option Nat}
    (herror : ∀ code ∈ error, code < 4294967296) :
    Running s.memory s.entry 64 (s.deliver gate place error) (error.toList ++ s.left) ∧
      (∀ r, r ≠ .esp → (s.deliver gate place error).reg r = s.reg r) ∧
      (s.deliver gate place error).seg .cs = gate.selector ∧
      (s.cpl = 0 → (s.deliver gate place error).seg .ss = s.seg .ss) := by
  have hroom := hs.room
  unfold deliver left
  by_cases hcpl : s.cpl = 0
  · have hentry : s.entry = s.reg .esp := if_pos hcpl
    have hstart : Running s.memory s.entry 64 s [] :=
      ⟨by omega, Nat.zero_le _, hentry.symm, fun i w hw => by simp at hw, fun _ _ _ => rfl⟩
    obtain ⟨hrun, hreg, hseg⟩ := hstart.note hs (Nat.zero_le 2) hroom.1 herror
    rw [if_pos hcpl, if_pos hcpl]
    refine ⟨hrun.congr rfl rfl, hreg, ?_, fun _ => ?_⟩
    · simp
    · simp [hseg]
  · have hentry : s.entry = tssEsp0 := if_neg hcpl
    have hstart : Running s.memory s.entry 64 ((s.setSeg .ss tssSs0).set .esp tssEsp0) [] :=
      ⟨by omega, Nat.zero_le _, by simp [hentry], fun i w hw => by simp at hw, fun _ _ _ => rfl⟩
    have hss : s.seg .ss < 4294967296 := Nat.lt_trans hs.ss (by decide)
    have hpush := (hstart.pushWord rfl hss (by decide : 4 * 1 ≤ 64) hroom.1).pushWord rfl
      (hs.reg .esp) (by decide : 4 * 2 ≤ 64) hroom.1
    obtain ⟨hrun, hreg, hseg⟩ := hpush.note hs (Nat.le_refl 2) hroom.1 herror
    rw [if_neg hcpl, if_neg hcpl]
    refine ⟨hrun.congr rfl rfl, fun r hr => ?_, ?_, fun h => absurd h hcpl⟩
    · exact (hreg r hr).trans (by simp [hr])
    · simp

end Delivery
/-! The entry points. -/

section Entries

variable {m : Memory} {top : Nat} {s t c : Cpu} {stack : List Nat}
variable {tmpRes : Nat} (run : CFunction → Cpu → Option Cpu)

theorem trapStep_of_fetch {i : TrapInstr} (h : (idtText tmpRes)[s.eip]? = some i) :
    s.trapStep tmpRes run = s.next.execTrap run i := by
  unfold trapStep
  rw [h, Option.bind_some]

theorem Running.enter (h : Running m top 64 s stack) (hreg : ∀ r, s.reg r < 4294967296)
    (hstack : stack.length ≤ 6) (htop : 64 ≤ top) (hpushad : (idtText tmpRes)[s.eip]? = some .pushad)
    (hpush : (idtText tmpRes)[s.eip + 1]? = some (.plain (.push .esp))) :
    ∃ t, walk (trapStep tmpRes run) 2 s = some t ∧ t.eip = s.eip + 2 ∧ t.seg = s.seg ∧
      (∀ r, r ≠ .esp → t.reg r = s.reg r) ∧
      Running m top 64 t ((t.reg .esp + 4) :: (s.general ++ stack)) := by
  have htopfits := h.fits
  obtain ⟨hrun, hkept, hseg, heip⟩ := h.next.pushad hreg (by omega) htop
  have hfirst : s.trapStep tmpRes run = some s.next.pushad := trapStep_of_fetch run hpushad
  generalize s.next.pushad = a at hrun hkept hseg heip hfirst
  have hlength : (s.next.general ++ stack).length = 8 + stack.length := List.length_append
  have hesp := hrun.esp
  rw [hlength] at hesp
  have hpushed := hrun.next.pushWord rfl (show a.next.reg .esp < 4294967296 by rw [next_reg]; omega)
    (by omega) htop
  have hsecond : a.trapStep tmpRes run = some (a.next.pushWord (a.reg .esp)) :=
    trapStep_of_fetch run (by rw [heip]; exact hpush)
  have hlower : (a.next.pushWord (a.reg .esp)).reg .esp + 4 = a.reg .esp := by
    have hbelow : (a.next.pushWord (a.reg .esp)).reg .esp +
      4 * (s.next.general ++ stack).length.succ = top := hpushed.esp
    omega
  refine ⟨a.next.pushWord (a.reg .esp), ?_, ?_, hseg, ?_, ?_⟩
  · exact walk_trans ((walk_one ..).trans hfirst) ((walk_one ..).trans hsecond)
  · rw [pushWord_eip, next_eip, heip]
    rfl
  · intro r hr
    rw [pushWord_reg_of_ne _ _ hr]
    exact hkept r hr
  · rw [hlower]
    exact hpushed

theorem Running.back {m : Memory} {room x y : Nat} (h : Running m top room c (x :: y :: stack))
    (hback : Back top c t) : Running t.memory top room t (t.nth 0 :: t.nth 1 :: stack) := by
  obtain ⟨hfits, hdepth, hesp, hword, -⟩ := h
  rw [List.length_cons, List.length_cons] at hdepth hesp
  refine ⟨hfits, hdepth, ?_, ?_, fun _ _ _ => rfl⟩
  · rw [hback.esp]
    exact hesp
  · intro i w hw
    match i, hw with
    | 0, hw => exact Option.some.inj hw
    | 1, hw => exact Option.some.inj hw
    | i + 2, hw =>
      rw [List.getElem?_cons_succ, List.getElem?_cons_succ] at hw
      have hi : i < stack.length := (List.getElem?_eq_some_iff.mp hw).1
      rw [hback.esp, hback.frame _ (by omega) (by omega)]
      exact hword (i + 2) w (by simpa using hw)

theorem Running.noted {x p : Nat} {saved entered : Cpu} {error : Option Nat}
    (h : Running saved.memory saved.entry 64 c
      (x :: p :: (entered.general ++ (error.toList ++ saved.left))))
    (hfits : saved.entry + 8 ≤ 4294967296) {j : Nat} (hj : j < 5) :
    c.memory.load32 (c.reg .esp + 40 + 4 * j : Nat) = (saved.noted error).getD j 0 := by
  have hesp := h.esp
  rw [List.length_cons, List.length_cons, List.length_append,
    show entered.general.length = 8 from rfl] at hesp
  unfold Cpu.noted
  by_cases hpushed : j < (error.toList ++ saved.left).length
  · rw [List.getD_append _ _ _ _ hpushed, ← List.getElem_eq_getD (h := hpushed)]
    have hplace : (x :: p :: entered.general ++ (error.toList ++ saved.left))[j + 10]? =
        (error.toList ++ saved.left)[j]? := List.getElem?_append_right (Nat.le_add_left 10 j)
    have hword := h.word (j + 10) _ (hplace.trans (List.getElem?_eq_getElem hpushed))
    rw [← hword, Nat.add_assoc]
    congr 3
    omega
  · have hleft := saved.length_left_bounds
    have hlength : (error.toList ++ saved.left).length =
      error.toList.length + saved.left.length := List.length_append
    have houtside := h.outside (c.reg .esp + 40 + 4 * j)
    rw [List.getD_append_right _ _ _ _ (by omega), houtside (by omega) (Or.inr (by omega))]
    obtain hplace | hplace : j - (error.toList ++ saved.left).length = 0 ∨
        j - (error.toList ++ saved.left).length = 1 := by omega
    · rw [hplace, show c.reg .esp + 40 + 4 * j = saved.entry by omega]
      rfl
    · rw [hplace, show c.reg .esp + 40 + 4 * j = saved.entry + 4 by omega]
      rfl

theorem Running.frame {x : Nat} {saved entered : Cpu} {error : Option Nat}
    (h : Running saved.memory saved.entry 64 c
      (x :: (c.reg .esp + 8) :: (entered.general ++ (error.toList ++ saved.left))))
    (hfits : saved.entry + 8 ≤ 4294967296)
    (hreg : ∀ r, r ≠ .esp → entered.reg r = saved.reg r)
    (hesp : entered.reg .esp + 4 * (error.toList ++ saved.left).length = saved.entry)
    {i w : Nat} (hw : (saved.frame error).words[i]? = some w) :
    c.memory.load32 (c.nth 1 + 4 * i : Nat) = w := by
  have hwords : (saved.frame error).words = entered.general ++
      (List.range 5).map fun j => (saved.noted error).getD j 0 := by
    have hreserved : (saved.frame error).reserved = entered.reg .esp := Nat.sub_eq_of_eq_add hesp.symm
    rw [InterruptFrame.words, hreserved]
    simp [Cpu.frame, general, hreg, List.range_succ]
  rw [h.nth (i := 1) rfl]
  rw [hwords] at hw
  by_cases hi : i < 8
  · rw [List.getElem?_append_left hi] at hw
    have hword := h.word (i + 2) w ((List.getElem?_append_left hi).trans hw)
    rw [← hword]
    congr 2
    omega
  · rw [List.getElem?_append_right (Nat.le_of_not_lt hi), List.getElem?_map] at hw
    obtain ⟨j, hj, rfl⟩ := Option.map_eq_some_iff.mp hw
    obtain ⟨hlast, rfl⟩ := List.getElem?_eq_some_iff.mp hj
    rw [List.length_range] at hlast
    have hgeneral : entered.general.length = 8 := rfl
    rw [List.getElem_range, ← h.noted hfits hlast]
    congr 2
    omega

theorem Running.dropArguments {x y : Nat} (h : Running m top 64 s (x :: y :: stack))
    (htop : top < 4294967296) (hfetch : (idtText tmpRes)[s.eip]? = some (.plain (.add .esp 8))) :
    ∃ t, s.trapStep tmpRes run = some t ∧ t.eip = s.eip + 1 ∧ t.seg = s.seg ∧
      t.memory = s.memory ∧ (∀ r, r ≠ .esp → t.reg r = s.reg r) ∧ Running m top 64 t stack := by
  have hdrop : Running m top 64 s ([x, y] ++ stack) := h
  refine ⟨_, (trapStep_of_fetch run hfetch).trans rfl, rfl, rfl, rfl, fun r hr => ?_,
    hdrop.drop ?_ htop rfl⟩
  · exact Function.update_of_ne hr ..
  · rw [setStatus_reg, set_reg, Function.update_self]
    rfl

theorem Running.dropArgumentsSp {x y : Nat} (h : Running m top 64 s (x :: y :: stack))
    (htop : top < 4294967296) (hfetch : (idtText tmpRes)[s.eip]? = some (.addSp 8))
    (hhalf : s.reg .esp % 65536 + 8 < 65536) :
    ∃ t, s.trapStep tmpRes run = some t ∧ t.eip = s.eip + 1 ∧ t.seg = s.seg ∧
      t.memory = s.memory ∧ (∀ r, r ≠ .esp → t.reg r = s.reg r) ∧ Running m top 64 t stack := by
  have hdrop : Running m top 64 s ([x, y] ++ stack) := h
  have hesp := h.esp
  rw [List.length_cons, List.length_cons] at hesp
  refine ⟨_, (trapStep_of_fetch run hfetch).trans rfl, rfl, rfl, rfl, fun r hr => ?_,
    hdrop.drop ?_ htop rfl⟩
  · exact Function.update_of_ne hr ..
  · unfold addSp
    rw [setStatus_reg, set_reg, Function.update_self, next_reg]
    have hsum : (s.reg .esp : Int) + 4 * ([x, y].length : Nat) = (s.reg .esp + 8 : Nat) := rfl
    rw [hsum, u32_natCast (by omega), Nat.mod_eq_of_lt hhalf]
    omega

theorem Running.store {room address v : Nat} (h : Running m top room s stack)
    (haddress : address + 4 + room ≤ top ∨ top ≤ address) (hfits : address + 4 ≤ 4294967296) :
    Running (s.memory.store32 address v) top room
      { s with memory := s.memory.store32 address v } stack := by
  obtain ⟨htop, hdepth, hesp, hword, -⟩ := h
  refine ⟨htop, hdepth, hesp, fun i w hw => ?_, fun _ _ _ => rfl⟩
  have hi : i < stack.length := (List.getElem?_eq_some_iff.mp hw).1
  change (s.memory.store32 address v).load32 (s.reg .esp + 4 * i : Nat) = w
  rw [Memory.load32_store32_of_apart hfits (by omega) (by omega)]
  exact hword i w hw

theorem Running.restore {saved : Cpu} (h : Running m top 64 s (saved.general ++ stack))
    (htop : top < 4294967296) (hfetch : (idtText tmpRes)[s.eip]? = some .popad) :
    ∃ t, s.trapStep tmpRes run = some t ∧ t.eip = s.eip + 1 ∧ t.seg = s.seg ∧
      t.memory = s.memory ∧ (∀ r, r ≠ .esp → t.reg r = saved.reg r) ∧
      Running m top 64 t stack := by
  obtain ⟨hrun, hreg⟩ := h.next.popad htop
  exact ⟨s.next.popad, trapStep_of_fetch run hfetch, rfl, rfl, rfl, hreg, hrun⟩

/-- The interrupted code is back, with the registers `reg`. -/
structure Continues (saved : Cpu) (reg : Reg → Nat) (s : Cpu) : Prop where
  reg : s.reg = reg
  eip : s.eip = saved.eip
  eflags : s.eflags = saved.eflags
  cs : s.seg .cs = saved.seg .cs
  ss : s.seg .ss = saved.seg .ss

theorem Running.iret {saved : Cpu} (h : Running m saved.entry 64 s saved.left) (reg : Reg → Nat)
    (hsaved : saved.Interruptible) (hkernel : s.cpl = 0)
    (hss : saved.cpl = 0 → s.seg .ss = saved.seg .ss) (hesp : reg .esp = saved.reg .esp)
    (hreg : ∀ r, r ≠ .esp → s.reg r = reg r)
    (hfetch : (idtText tmpRes)[s.eip]? = some (.plain .iretd)) :
    ∃ t, s.trapStep tmpRes run = some t ∧ Continues saved reg t ∧ t.memory = s.memory ∧
      ∀ x, x ≠ .cs → x ≠ .ss → t.seg x = s.seg x := by
  obtain ⟨t, hiret, heip, hflags, hback, hcs, hstack, hkept, hseg, hmemory⟩ :=
    h.next.resume hsaved hkernel hss
  refine ⟨t, (trapStep_of_fetch run hfetch).trans hiret, ⟨?_, heip, hflags, hcs, hstack⟩, hmemory, hseg⟩
  funext r
  by_cases hr : r = .esp
  · rw [hr, hback, hesp]
  · exact (hkept r hr).trans (hreg r hr)

end Entries

/-! Whole interrupts. -/

section Whole

variable (run : CFunction → Cpu → Option Cpu) {s : Cpu}

theorem Running.called {entered : Cpu} {error : Option Nat} {tmpRes x : Nat} {push : TrapInstr}
    (h : Running s.memory s.entry 64 entered (error.toList ++ s.left)) (hs : s.Interruptible)
    (hreg : ∀ r, r ≠ .esp → entered.reg r = s.reg r) (hx : x < 4294967296)
    (hfetch : ∀ j, j < 3 → (idtText tmpRes)[entered.eip + j]? =
      [.pushad, .plain (.push .esp), push][j]?)
    (hpush : ∀ t : Cpu, (∀ r, r ≠ .esp → t.reg r = s.reg r) →
      t.execTrap run push = some (t.pushWord x)) :
    ∃ c, walk (trapStep tmpRes run) 3 entered = some c ∧ c.eip = entered.eip + 3 ∧
      c.seg = entered.seg ∧ (∀ r, r ≠ .esp → c.reg r = s.reg r) ∧ c.nth 0 = x ∧
      (∀ i w, (s.frame error).words[i]? = some w → c.memory.load32 (c.nth 1 + 4 * i : Nat) = w) ∧
      Running s.memory s.entry 64 c
        (x :: (c.reg .esp + 8) :: (entered.general ++ (error.toList ++ s.left))) := by
  obtain ⟨hroom, hfits⟩ := hs.room
  obtain ⟨-, hleft⟩ := s.length_left_bounds
  have hstack : (error.toList ++ s.left).length ≤ 6 := by
    rw [List.length_append]
    cases error with
    | none => exact Nat.le_trans (Nat.le_of_eq (Nat.zero_add _)) (Nat.le_succ_of_le hleft)
    | some code => exact Nat.le_trans (Nat.le_of_eq (Nat.add_comm 1 _)) (Nat.succ_le_succ hleft)
  have hesp := h.esp
  have hbounded (r : Reg) : entered.reg r < 4294967296 := by
    by_cases hr : r = .esp
    · rw [hr]
      omega
    · rw [hreg r hr]
      exact hs.reg r
  obtain ⟨t, hwalk, heip, hseg, hkept, hrun⟩ :=
    h.enter run hbounded hstack hroom (hfetch 0 (by decide)) (hfetch 1 (by decide))
  have hkept' (r : Reg) (hr : r ≠ .esp) : t.next.reg r = s.reg r := (hkept r hr).trans (hreg r hr)
  have hstep : t.trapStep tmpRes run = some (t.next.pushWord x) := by
    rw [trapStep_of_fetch run (by rw [heip]; exact hfetch 2 (by decide)), hpush t.next hkept']
  have hlength : ((t.reg .esp + 4) :: (entered.general ++ (error.toList ++ s.left))).length =
      9 + (error.toList ++ s.left).length := by
    rw [List.length_cons, List.length_append, show entered.general.length = 8 from rfl]
    omega
  have hpushed := hrun.next.pushWord rfl hx (by omega) hroom
  have hlower : (t.next.pushWord x).reg .esp + 8 = t.reg .esp + 4 := by
    have hbefore := hrun.esp
    have hafter : (t.next.pushWord x).reg .esp +
      4 * ((t.reg .esp + 4) :: (entered.general ++ (error.toList ++ s.left))).length.succ = s.entry :=
        hpushed.esp
    omega
  rw [← hlower] at hpushed
  refine ⟨t.next.pushWord x, walk_trans hwalk ((walk_one ..).trans hstep), ?_, hseg,
    fun r hr => (pushWord_reg_of_ne _ _ hr).trans (hkept' r hr), hpushed.nth rfl,
    fun i w hw => hpushed.frame hfits hreg hesp hw, hpushed⟩
  rw [pushWord_eip, next_eip, heip]

theorem Back.of_next {top : Nat} {called t : Cpu} (h : Back top called t) (eip : Nat) :
    Back top called { t with eip := eip } := ⟨h.esp, h.eax, h.cs, h.ss, h.frame⟩

end Whole

end Cpu

open Cpu in
/-- Any interrupt but a division error and a system call, of a program or of the kernel: the handler
gets the number and the frame of the interrupted code. When it is back and the processor had pushed no
error code, the code goes on as if there had been no interrupt, but for what the handler did to memory
and to the data segments. -/
theorem interrupt_resumes {symbols : Symbols} (hlinked : symbols.Linked)
    (run : CFunction → Cpu → Option Cpu) {s : Cpu} (hs : s.Interruptible) {n : Nat}
    (hn : n < totalInterrupts) (hzero : n ≠ 0) (hsyscall : n ≠ 0x80) {error : Option Nat}
    (herror : ∀ code ∈ error, code < 4294967296) :
    ∃ entered called, s.interrupt symbols n error = some entered ∧
      walk (trapStep symbols.tmpRes run) 3 entered = some called ∧
      (idtText symbols.tmpRes)[called.eip]? = some (.callC .interruptHandler) ∧
      called.cpl = 0 ∧ called.nth 0 = n ∧
      (∀ i w, (s.frame error).words[i]? = some w →
        called.memory.load32 (called.nth 1 + 4 * i : Nat) = w) ∧
      ∀ t, run .interruptHandler called.next = some t → Back s.entry called t → error = none →
        ∃ resumed, walk (trapStep symbols.tmpRes run) 7 entered = some resumed ∧
          Continues s s.reg resumed ∧ resumed.memory = t.memory ∧
          ∀ x, x ≠ .cs → x ≠ .ss → resumed.seg x = t.seg x := by
  obtain ⟨entered, hinterrupt, heip, gate, hselector, hdeliver⟩ :=
    interrupt_of_lt symbols s error hn
  rw [if_neg hsyscall, if_neg hzero, hlinked.interrupt n hn] at heip
  obtain ⟨hrun, hreg, hcs, hss⟩ := deliver_run hs gate symbols.place herror
  rw [← hdeliver] at hrun hreg hcs hss
  have hfetch (j : Nat) (hj : j < 7) :
      (idtText symbols.tmpRes)[entered.eip + j]? = (interruptEntry n)[j]? := by
    rw [heip]
    exact getElem?_idtText_interrupt _ hn hj
  have hnumber : n < 4294967296 := Nat.lt_trans hn (by decide)
  obtain ⟨called, hwalk, hcalled, hseg, hkept, hfirst, hframe, hstack⟩ :=
    hrun.called run hs hreg hnumber (fun j hj => by
      rw [hfetch j (Nat.lt_trans hj (by decide))]
      match j, hj with
      | 0, _ => rfl
      | 1, _ => rfl
      | 2, _ => rfl) (fun t _ => rfl)
  have hcall : (idtText symbols.tmpRes)[called.eip]? = some (.callC .interruptHandler) := by
    rw [hcalled]
    exact hfetch 3 (by decide)
  have hlevel : called.cpl = 0 := by
    unfold Cpu.cpl
    rw [hseg, hcs, hselector]
    rfl
  refine ⟨entered, called, hinterrupt, hwalk, hcall, hlevel, hfirst, hframe, ?_⟩
  intro t hback hreturned hnone
  subst hnone
  have htop : s.entry < 4294967296 := by
    have hroom := hs.room.2
    omega
  have hstep : called.trapStep symbols.tmpRes run = some { t with eip := called.eip + 1 } := by
    rw [trapStep_of_fetch run hcall]
    exact congrArg (Option.map _) hback
  have hleave := hstack.back (hreturned.of_next (called.eip + 1))
  generalize hnext : ({ t with eip := called.eip + 1 } : Cpu) = t' at hstep hleave
  have hplace : t'.eip = entered.eip + 4 := by
    rw [← hnext, hcalled]
  obtain ⟨a, hdrop, haeip, haseg, hamemory, -, harun⟩ :=
    hleave.dropArguments run htop (by rw [hplace]; exact hfetch 4 (by decide))
  obtain ⟨b, hpopad, hbeip, hbseg, hbmemory, hbreg, hbrun⟩ :=
    harun.restore run htop (by rw [haeip, hplace]; exact hfetch 5 (by decide))
  have hbsegments : b.seg = t.seg := by rw [hbseg, haseg, ← hnext]
  obtain ⟨resumed, hiret, hcontinues, hmemory, hsegments⟩ :=
    hbrun.iret run s.reg hs
      (by
        unfold Cpu.cpl
        rw [hbsegments, hreturned.cs]
        exact hlevel)
      (fun hcpl => by rw [hbsegments, hreturned.ss, hseg, hss hcpl]) rfl
      (fun r hr => (hbreg r hr).trans (hreg r hr))
      (by rw [hbeip, haeip, hplace]; exact hfetch 6 (by decide))
  refine ⟨resumed, ?_, hcontinues, ?_, ?_⟩
  · exact walk_trans hwalk (walk_step hstep (walk_step hdrop (walk_step hpopad
      ((walk_one ..).trans hiret))))
  · rw [hmemory, hbmemory, hamemory, ← hnext]
  · intro x hx hx'
    rw [hsegments x hx hx', hbsegments]

def packedSymbols : Symbols where
  interruptPointerTable n := UInt32.ofNat (0x100000 + 7 * n)
  idtZero := 0x101000
  isr80hWrapper := 0x100E00
  tmpRes := 0x10A048
  place address := address - 0x100000

theorem packedSymbols_linked : packedSymbols.Linked where
  interrupt n hn := by
    unfold totalInterrupts at hn
    have haddress : 0x100000 + 7 * n < 2 ^ 32 := by omega
    change (UInt32.ofNat (0x100000 + 7 * n)).toNat - 0x100000 = 7 * n
    rw [UInt32.toNat_ofNat_of_lt' haddress]
    omega
  wrapper := rfl
  zero := by decide

theorem packedSymbols_resultApart : packedSymbols.ResultApart := by
  unfold Symbols.ResultApart
  decide

def startedCpu : Cpu where
  reg r := if r = .esp then 0x3FF000 else 2
  seg x := if x = .cs then userCodeSegment else userDataSegment
  eip := 0x400000
  eflags := 0x202
  memory := fun _ => 0

theorem startedCpu_interruptible : startedCpu.Interruptible where
  reg r := by cases r <;> decide
  eip := by decide
  eflags := by decide
  cs := by decide
  ss := by decide
  program _ := by decide
  kernel h := absurd h (by decide)

def returnSeven (_ : CFunction) (called : Cpu) : Option Cpu := some (called.set .eax 7)

theorem returnSeven_back (top : Nat) (called : Cpu) :
    Cpu.Back top called (called.next.set .eax 7) where
  esp := by simp
  eax := by simp
  cs := rfl
  ss := rfl
  frame _ _ _ := rfl

theorem interrupt_resumes_tick :
    ∃ entered resumed, startedCpu.interrupt packedSymbols 0x20 none = some entered ∧
      walk (Cpu.trapStep packedSymbols.tmpRes returnSeven) 7 entered = some resumed ∧
      resumed.reg = startedCpu.reg ∧ resumed.eip = 0x400000 := by
  have herror : ∀ code ∈ (none : Option Nat), code < 4294967296 := fun code hcode => by simp at hcode
  obtain ⟨entered, called, hinterrupt, -, -, -, -, -, hresumed⟩ :=
    interrupt_resumes packedSymbols_linked returnSeven startedCpu_interruptible (n := 0x20)
      (by decide) (by decide) (by decide) herror
  obtain ⟨resumed, hwalk, hcontinues, -⟩ := hresumed _ rfl (returnSeven_back _ called) rfl
  exact ⟨entered, resumed, hinterrupt, hwalk, hcontinues.reg, hcontinues.eip⟩

open Cpu in
/-- The system call of a program: the kernel gets the command in `eax` and the frame of the program,
which goes on with what the kernel returned in `eax` and every other register as it was. -/
theorem system_call_resumes {symbols : Symbols} (hlinked : symbols.Linked)
    (hapart : symbols.ResultApart) (run : CFunction → Cpu → Option Cpu) {s : Cpu}
    (hs : s.Interruptible) (hprogram : s.cpl ≠ 0) :
    ∃ entered called, s.interrupt symbols 0x80 none = some entered ∧
      walk (trapStep symbols.tmpRes run) 3 entered = some called ∧
      (idtText symbols.tmpRes)[called.eip]? = some (.callC .isr80hHandler) ∧
      called.cpl = 0 ∧ called.nth 0 = s.reg .eax ∧
      (∀ i w, (s.frame none).words[i]? = some w →
        called.memory.load32 (called.nth 1 + 4 * i : Nat) = w) ∧
      ∀ t, run .isr80hHandler called.next = some t → Back s.entry called t →
        ∃ resumed, walk (trapStep symbols.tmpRes run) 9 entered = some resumed ∧
          Continues s (Function.update s.reg .eax (t.reg .eax)) resumed ∧
          resumed.memory = t.memory.store32 symbols.tmpRes (t.reg .eax) ∧
          ∀ x, x ≠ .cs → x ≠ .ss → resumed.seg x = t.seg x := by
  have hvector : 0x80 < totalInterrupts := by decide
  have herror : ∀ code ∈ (none : Option Nat), code < 4294967296 := fun code hcode => by simp at hcode
  obtain ⟨entered, hinterrupt, heip, gate, hselector, hdeliver⟩ :=
    interrupt_of_lt symbols s none hvector
  rw [if_pos rfl, hlinked.wrapper] at heip
  obtain ⟨hrun, hreg, hcs, hss⟩ := deliver_run hs gate symbols.place herror
  rw [← hdeliver] at hrun hreg hcs hss
  have hfetch (j : Nat) :
      (idtText symbols.tmpRes)[entered.eip + j]? = (isr80hWrapper symbols.tmpRes)[j]? := by
    rw [heip]
    exact getElem?_idtText_wrapper ..
  have hpushed (t : Cpu) (ht : ∀ r, r ≠ .esp → t.reg r = s.reg r) :
      t.execTrap run (.plain (.push .eax)) = some (t.pushWord (s.reg .eax)) := by
    rw [← ht .eax (by decide)]
    rfl
  obtain ⟨called, hwalk, hcalled, hseg, hkept, hfirst, hframe, hstack⟩ :=
    hrun.called run hs hreg (hs.reg .eax) (fun j hj => by
      rw [hfetch j]
      match j, hj with
      | 0, _ => rfl
      | 1, _ => rfl
      | 2, _ => rfl) hpushed
  have hcall : (idtText symbols.tmpRes)[called.eip]? = some (.callC .isr80hHandler) := by
    rw [hcalled]
    exact hfetch 3
  have hlevel : called.cpl = 0 := by
    unfold Cpu.cpl
    rw [hseg, hcs, hselector]
    rfl
  refine ⟨entered, called, hinterrupt, hwalk, hcall, hlevel, hfirst, hframe, ?_⟩
  intro t hback hreturned
  have hentry : s.entry = tssEsp0 := if_neg hprogram
  have htop : s.entry < 4294967296 := by
    have hroom := hs.room.2
    omega
  have hstep : called.trapStep symbols.tmpRes run = some { t with eip := called.eip + 1 } := by
    rw [trapStep_of_fetch run hcall]
    exact congrArg (Option.map _) hback
  have hleave := hstack.back (hreturned.of_next (called.eip + 1))
  -- the arguments, the general registers and the five words of the processor
  have hdepth : t.reg .esp + 60 = tssEsp0 := by
    have hesp := hstack.esp
    have hleft : s.left.length = 5 := by rw [length_left, if_neg hprogram]
    simp only [List.length_cons, List.length_append, Option.toList_none, List.length_nil, hleft,
      show entered.general.length = 8 from rfl] at hesp
    rw [← hentry, ← hesp, hreturned.esp]
  have hresult := hreturned.eax
  generalize hnext : ({ t with eip := called.eip + 1 } : Cpu) = t' at hstep hleave
  have hplace : t'.eip = entered.eip + 4 := by
    rw [← hnext, hcalled]
  have hnextreg : t'.reg = t.reg := by rw [← hnext]
  obtain ⟨hroom, hapart⟩ := hapart
  have hstored := hleave.next.store (v := t'.reg .eax)
    (by rw [hentry]; unfold tssEsp0 at hapart ⊢; omega) hroom
  generalize hword : ({ t'.next with memory := t'.next.memory.store32 symbols.tmpRes (t'.reg .eax) } :
    Cpu) = w at hstored
  have hstore : t'.trapStep symbols.tmpRes run = some w := by
    rw [trapStep_of_fetch run (by rw [hplace]; exact hfetch 4), ← hword]
    rfl
  have hweip : w.eip = entered.eip + 5 := by rw [← hword, next_eip, hplace]
  have hwreg : w.reg = t.reg := by rw [← hword, next_reg, hnextreg]
  have hwseg : w.seg = t.seg := by rw [← hword, ← hnext]; rfl
  obtain ⟨a, hdrop, haeip, haseg, hamemory, -, harun⟩ :=
    hstored.dropArgumentsSp run htop (by rw [hweip]; exact hfetch 5)
      (by rw [hwreg]; unfold tssEsp0 at hdepth; omega)
  obtain ⟨b, hpopad, hbeip, hbseg, hbmemory, hbreg, hbrun⟩ :=
    harun.restore run htop (by rw [haeip, hweip]; exact hfetch 6)
  have hbsegments : b.seg = t.seg := by rw [hbseg, haseg, hwseg]
  have hbwords : b.memory = t.memory.store32 symbols.tmpRes (t.reg .eax) := by
    rw [hbmemory, hamemory, ← hword, next_memory, hnextreg, ← hnext]
  have hload : b.trapStep symbols.tmpRes run = some (b.next.set .eax (t.reg .eax)) := by
    rw [trapStep_of_fetch run (by rw [hbeip, haeip, hweip]; exact hfetch 7)]
    change some (b.next.set .eax (b.memory.load32 symbols.tmpRes)) = _
    rw [hbwords, Memory.load32_store32 hroom hresult]
  have hlast := hbrun.next.set (by decide : Reg.eax ≠ .esp) (t.reg .eax)
  obtain ⟨resumed, hiret, hcontinues, hmemory, hsegments⟩ :=
    hlast.iret run (Function.update s.reg .eax (t.reg .eax)) hs
      (by
        unfold Cpu.cpl
        rw [set_seg, next_seg, hbsegments, hreturned.cs]
        exact hlevel)
      (fun hcpl => absurd hcpl hprogram) (Function.update_of_ne (by decide) ..)
      (fun r hr => by
        rw [set_reg, next_reg]
        by_cases heax : r = .eax
        · rw [heax, Function.update_self, Function.update_self]
        · rw [Function.update_of_ne heax, Function.update_of_ne heax, hbreg r hr, hreg r hr])
      (by rw [set_eip, next_eip, hbeip, haeip, hweip]; exact hfetch 8)
  refine ⟨resumed, ?_, hcontinues, ?_, ?_⟩
  · exact walk_trans hwalk (walk_step hstep (walk_step hstore (walk_step hdrop
      (walk_step hpopad (walk_step hload ((walk_one ..).trans hiret))))))
  · rw [hmemory, set_memory, next_memory, hbwords]
  · intro x hx hx'
    rw [hsegments x hx hx', set_seg, next_seg, hbsegments]

theorem system_call_resumes_seven :
    ∃ entered resumed, startedCpu.interrupt packedSymbols 0x80 none = some entered ∧
      walk (Cpu.trapStep packedSymbols.tmpRes returnSeven) 9 entered = some resumed ∧
      resumed.reg .eax = 7 ∧ resumed.reg .ebx = 2 ∧ resumed.eip = 0x400000 := by
  obtain ⟨entered, called, hinterrupt, -, -, -, -, -, hresumed⟩ :=
    system_call_resumes packedSymbols_linked packedSymbols_resultApart returnSeven
      startedCpu_interruptible (by decide)
  obtain ⟨resumed, hwalk, hcontinues, -⟩ := hresumed _ rfl (returnSeven_back _ called)
  refine ⟨entered, resumed, hinterrupt, hwalk, ?_, ?_, hcontinues.eip⟩
  · rw [hcontinues.reg]
    simp
  · rw [hcontinues.reg]
    rfl

end BoiOS
