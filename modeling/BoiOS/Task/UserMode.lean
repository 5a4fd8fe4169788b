import BoiOS.Machine.Processor
import BoiOS.Task.TaskList

/-! Saving a task and entering user mode: `task_save_state` of task/task.c and the two routines of
task/task.asm that read what it saved through offsets of their own. -/
namespace BoiOS
open Library.Walk

structure InterruptFrame where
  edi : Nat
  esi : Nat
  ebp : Nat
  reserved : Nat
  ebx : Nat
  edx : Nat
  ecx : Nat
  eax : Nat
  ip : Nat
  cs : Nat
  flags : Nat
  esp : Nat
  ss : Nat

def taskSaveState (task : Task) (frame : InterruptFrame) : Task :=
  { task with
    registers :=
      { ip := frame.ip, cs := frame.cs, flags := frame.flags, esp := frame.esp, ss := frame.ss
        eax := frame.eax, ebp := frame.ebp, ebx := frame.ebx, ecx := frame.ecx, edi := frame.edi
        edx := frame.edx, esi := frame.esi } }

/-- The structure in memory, in the order of its declaration. -/
def Registers.words (r : Registers) : List Nat :=
  [r.edi, r.esi, r.ebp, r.ebx, r.edx, r.ecx, r.eax, r.ip, r.cs, r.flags, r.esp, r.ss]

def sizeofRegisters : Nat := 48

def restoreGeneralPurposeRegisters : List Instr :=
  [.push .ebp,
    .mov .ebp .esp,
    .load .ebx .ebp 8,
    .load .edi .ebx 0,
    .load .esi .ebx 4,
    .load .ebp .ebx 8,
    .load .edx .ebx 16,
    .load .ecx .ebx 20,
    .load .eax .ebx 24,
    .load .ebx .ebx 12,
    .add .esp 4,
    .ret]

def userModeEnter : List Instr :=
  [.mov .ebp .esp,
    .load .ebx .ebp 4,
    .pushMem .ebx 44,
    .pushMem .ebx 40,
    .pushf,
    .pop .eax,
    .or .eax interruptFlag,
    .push .eax,
    .pushMem .ebx 32,
    .pushMem .ebx 28,
    .loadAx .ebx 44,
    .movSeg .ds,
    .movSeg .es,
    .movSeg .fs,
    .movSeg .gs,
    .pushMem .ebp 4,
    .call 19,
    .add .esp 4,
    .iretd]

def taskText : List Instr := userModeEnter ++ restoreGeneralPurposeRegisters

/-- `user_mode_enter(regs)` was called in the kernel, and `regs` points to `r`: the stack holds the
return address and the argument, and the eight words below it are not part of the structure. -/
structure Called (s : Cpu) (regs : Nat) (r : Registers) : Prop where
  eip : s.eip = 0
  kernel : s.cpl = 0
  room : 32 ≤ s.reg .esp
  fits : s.reg .esp + 8 ≤ 4294967296
  argument : s.memory.load32 (s.reg .esp + 4 : Nat) = regs
  registers : ∀ i w, r.words[i]? = some w → s.memory.load32 (regs + 4 * i : Nat) = w
  within : regs + sizeofRegisters ≤ 4294967296
  apart : regs + sizeofRegisters + 32 ≤ s.reg .esp ∨ s.reg .esp ≤ regs

section Run

variable {s₀ s : Cpu} {regs : Nat} {r : Registers} {stack : List Nat}

theorem Called.word (h : Called s₀ regs r) (hrun : Cpu.Running s₀.memory (s₀.reg .esp) 32 s stack)
    {base : Reg} (hbase : s.reg base = regs) {i w : Nat} (hw : r.words[i]? = some w) :
    s.memory.load32 ((s.reg base : Int) + (4 * i : Nat)) = w := by
  have hi : i < 12 := (List.getElem?_eq_some_iff.mp hw).1
  have hwithin := h.within
  have hapart := h.apart
  unfold sizeofRegisters at hwithin hapart
  rw [hrun.load (a := regs + 4 * i) (by rw [hbase]) (by omega) (by omega)]
  exact h.registers i w hw

theorem Called.start (h : Called s₀ regs r) :
    ∃ t, walk (Cpu.step taskText) 2 s₀ = some t ∧ t.eip = 2 ∧ t.reg .ebp = s₀.reg .esp ∧
      t.reg .ebx = regs ∧ t.seg = s₀.seg ∧ t.eflags = s₀.eflags ∧
      Cpu.Running s₀.memory (s₀.reg .esp) 32 t [] := by
  have hfits := h.fits
  have hrun : Cpu.Running s₀.memory (s₀.reg .esp) 32 s₀ [] :=
    ⟨by omega, Nat.zero_le _, rfl, fun i w hw => by simp at hw, fun _ _ _ => rfl⟩
  have heip := h.eip
  have hargument := h.argument
  obtain ⟨reg, seg, eip, eflags, memory⟩ := s₀
  dsimp only at heip hargument
  subst heip
  refine ⟨_, rfl, rfl, ?_, ?_, rfl, rfl, ?_⟩
  · simp
  · simpa [Cpu.word] using hargument
  · exact ((hrun.next.set (by decide) _).next.set (by decide) _)

theorem Called.pushField (h : Called s₀ regs r)
    (hrun : Cpu.Running s₀.memory (s₀.reg .esp) 32 s stack) (hbase : s.reg .ebx = regs) {i w : Nat}
    (hw : r.words[i]? = some w) (hlength : stack.length < 8) :
    Cpu.Running s₀.memory (s₀.reg .esp) 32 (s.next.pushWord (s.next.word .ebx (4 * i)))
      (w :: stack) := by
  have hword : s.next.word .ebx (4 * i) = w := h.word hrun hbase hw
  refine hrun.next.pushWord hword ?_ (by omega) h.room
  rw [← hword]
  exact Memory.load32_lt ..

/-- The flags in the frame: those of the kernel, with interrupts enabled. -/
def enteredFlags (eflags : Nat) : Nat := eflags &&& 0x00FCFFFF ||| interruptFlag

theorem enteredFlags_lt (eflags : Nat) : enteredFlags eflags < 4294967296 := by
  have hand : eflags &&& 0x00FCFFFF < 2 ^ 32 := Nat.and_lt_two_pow _ (by decide)
  exact Nat.or_lt_two_pow hand (by decide)

theorem Called.pushStack (h : Called s₀ regs r)
    (hrun : Cpu.Running s₀.memory (s₀.reg .esp) 32 s []) (heip : s.eip = 2)
    (hbase : s.reg .ebx = regs) :
    ∃ t, walk (Cpu.step taskText) 4 s = some t ∧ t.eip = 6 ∧ t.reg .ebp = s.reg .ebp ∧
      t.reg .ebx = regs ∧ t.reg .eax = s.eflags &&& 0x00FCFFFF ∧ t.seg = s.seg ∧
      Cpu.Running s₀.memory (s₀.reg .esp) 32 t [r.esp, r.ss] := by
  have hfits := h.fits
  have hss := h.pushField hrun hbase (i := 11) rfl (by simp)
  have hesp := h.pushField hss (by simpa using hbase) (i := 10) rfl (by simp)
  have hpushf := hesp.next.pushWord (v := s.eflags &&& 0x00FCFFFF) rfl
    (Nat.and_lt_two_pow s.eflags (by decide : _ < 2 ^ 32)) (by simp) h.room
  have hpop := hpushf.next.pop (show Reg.eax ≠ .esp by decide) (by omega)
  have htop := hpushf.next.top
  obtain ⟨reg, seg, eip, eflags, memory⟩ := s
  dsimp only at heip
  subst heip
  refine ⟨_, rfl, rfl, ?_, ?_, ?_, rfl, hpop⟩
  · simp
  · simpa using hbase
  · rw [Cpu.set_reg, Function.update_self]
    exact htop

theorem Called.pushEntry (h : Called s₀ regs r)
    (hrun : Cpu.Running s₀.memory (s₀.reg .esp) 32 s [r.esp, r.ss]) (heip : s.eip = 6)
    (hbase : s.reg .ebx = regs) {eflags : Nat} (heax : s.reg .eax = eflags &&& 0x00FCFFFF) :
    ∃ t, walk (Cpu.step taskText) 4 s = some t ∧ t.eip = 10 ∧ t.reg .ebp = s.reg .ebp ∧
      t.reg .ebx = regs ∧ t.seg = s.seg ∧
      Cpu.Running s₀.memory (s₀.reg .esp) 32 t
        [r.ip, r.cs, enteredFlags eflags, r.esp, r.ss] := by
  have hvalue : s.reg .eax ||| interruptFlag = enteredFlags eflags := by
    rw [heax]
    rfl
  have hor := (hrun.next.set (by decide : Reg.eax ≠ .esp)
    (s.reg .eax ||| interruptFlag)).setStatus
      (statusFlags false false false (s.reg .eax ||| interruptFlag))
  have hflags := hor.next.pushWord hvalue (enteredFlags_lt eflags) (by simp) h.room
  have hcs := h.pushField hflags (by simpa using hbase) (i := 8) rfl (by simp)
  have hip := h.pushField hcs (by simpa using hbase) (i := 7) rfl (by simp)
  obtain ⟨reg, seg, eip, eflags, memory⟩ := s
  dsimp only at heip
  subst heip
  refine ⟨_, ?_, ?_, ?_, ?_, ?_, hip⟩
  · rfl
  · rfl
  · simp
  · simpa using hbase
  · rfl

theorem setSegments_run (hrun : Cpu.Running s₀.memory (s₀.reg .esp) 32 s stack)
    (heip : s.eip = 10) :
    ∃ t, walk (Cpu.step taskText) 5 s = some t ∧ t.eip = 15 ∧ t.reg .ebp = s.reg .ebp ∧
      t.reg .ebx = s.reg .ebx ∧ t.seg .cs = s.seg .cs ∧
      Cpu.Running s₀.memory (s₀.reg .esp) 32 t stack := by
  have hax := hrun.next.set (by decide : Reg.eax ≠ .esp) (s.reg .eax / 65536 * 65536 +
    s.memory.load16 ((s.reg .ebx : Int) + 44))
  obtain ⟨reg, seg, eip, eflags, memory⟩ := s
  dsimp only at heip
  subst heip
  refine ⟨_, rfl, rfl, ?_, ?_, ?_,
    (((hax.next.setSeg .ds _).next.setSeg .es _).next.setSeg .fs _).next.setSeg .gs _⟩
  · simp
  · simp
  · simp

theorem Called.callRestore (h : Called s₀ regs r)
    (hrun : Cpu.Running s₀.memory (s₀.reg .esp) 32 s stack) (heip : s.eip = 15)
    (hebp : s.reg .ebp = s₀.reg .esp) (hlength : stack.length < 6) :
    ∃ t, walk (Cpu.step taskText) 2 s = some t ∧ t.eip = 19 ∧ t.reg .ebp = s₀.reg .esp ∧
      t.seg = s.seg ∧ Cpu.Running s₀.memory (s₀.reg .esp) 32 t (17 :: regs :: stack) := by
  have hfits := h.fits
  have hargument : s.next.word .ebp 4 = regs := by
    refine (hrun.next.load (a := s₀.reg .esp + 4) ?_ (by omega) (by omega)).trans h.argument
    rw [← hebp]
    rfl
  have hregs : regs < 4294967296 := by
    rw [← h.argument]
    exact Memory.load32_lt ..
  have hpush := hrun.next.pushWord hargument hregs (by omega) h.room
  have hcall := hpush.next.pushWord (rfl : 17 = 17) (by decide) (by simp; omega) h.room
  obtain ⟨reg, seg, eip, eflags, memory⟩ := s
  dsimp only at heip
  subst heip
  refine ⟨_, rfl, rfl, ?_, rfl, hcall.congr rfl rfl⟩
  simpa using hebp

theorem Called.enterRestore (h : Called s₀ regs r) {back : Nat}
    (hrun : Cpu.Running s₀.memory (s₀.reg .esp) 32 s (back :: regs :: stack)) (heip : s.eip = 19)
    (hebp : s.reg .ebp = s₀.reg .esp) (hlength : stack.length < 6) :
    ∃ t, walk (Cpu.step taskText) 3 s = some t ∧ t.eip = 22 ∧ t.reg .ebx = regs ∧
      t.seg = s.seg ∧
      Cpu.Running s₀.memory (s₀.reg .esp) 32 t (s₀.reg .esp :: back :: regs :: stack) := by
  have hfits := h.fits
  have hpush := hrun.next.pushWord hebp (by omega) (by simp; omega) h.room
  have hframe := hpush.next.set (by decide : Reg.ebp ≠ .esp) ((s.next.pushWord (s.reg .ebp)).reg .esp)
  have hregs := hpush.word 2 regs rfl
  obtain ⟨reg, seg, eip, eflags, memory⟩ := s
  dsimp only at heip
  subst heip
  refine ⟨_, rfl, rfl, ?_, rfl, hframe.next.set (by decide) _⟩
  rw [Cpu.set_reg, Function.update_self]
  exact hregs

structure Restored (r : Registers) (reg : Reg → Nat) : Prop where
  edi : reg .edi = r.edi
  esi : reg .esi = r.esi
  ebp : reg .ebp = r.ebp
  ebx : reg .ebx = r.ebx
  edx : reg .edx = r.edx
  ecx : reg .ecx = r.ecx
  eax : reg .eax = r.eax

theorem Called.loadRegisters (h : Called s₀ regs r)
    (hrun : Cpu.Running s₀.memory (s₀.reg .esp) 32 s stack) (heip : s.eip = 22)
    (hbase : s.reg .ebx = regs) :
    ∃ t, walk (Cpu.step taskText) 7 s = some t ∧ t.eip = 29 ∧ t.seg = s.seg ∧
      Restored r t.reg ∧ Cpu.Running s₀.memory (s₀.reg .esp) 32 t stack := by
  have hword {i w : Nat} (hw : r.words[i]? = some w) :
      s.memory.load32 ((s.reg .ebx : Int) + (4 * i : Nat)) = w := h.word hrun hbase hw
  have hedi := hword (i := 0) rfl
  have hesi := hword (i := 1) rfl
  have hebp := hword (i := 2) rfl
  have hebx := hword (i := 3) rfl
  have hedx := hword (i := 4) rfl
  have hecx := hword (i := 5) rfl
  have heax := hword (i := 6) rfl
  obtain ⟨reg, seg, eip, eflags, memory⟩ := s
  dsimp only at heip
  subst heip
  refine ⟨_, rfl, rfl, rfl, ⟨?_, ?_, ?_, ?_, ?_, ?_, ?_⟩, hrun.congr ?_ rfl⟩
  · simpa [Cpu.word] using hedi
  · simpa [Cpu.word] using hesi
  · simpa [Cpu.word] using hebp
  · simpa [Cpu.word] using hebx
  · simpa [Cpu.word] using hedx
  · simpa [Cpu.word] using hecx
  · simpa [Cpu.word] using heax
  · simp

theorem addEsp_run {v : Nat} (hrun : Cpu.Running s₀.memory (s₀.reg .esp) 32 s (v :: stack))
    (hfits : s₀.reg .esp < 4294967296) (hfetch : taskText[s.eip]? = some (.add .esp 4)) :
    ∃ t, s.step taskText = some t ∧ t.eip = s.eip + 1 ∧ t.seg = s.seg ∧
      (∀ r, r ≠ .esp → t.reg r = s.reg r) ∧
      Cpu.Running s₀.memory (s₀.reg .esp) 32 t stack := by
  have hword : Cpu.Running s₀.memory (s₀.reg .esp) 32 s ([v] ++ stack) := hrun
  refine ⟨_, Cpu.step_of_fetch hfetch, rfl, rfl, ?_, hword.drop ?_ hfits rfl⟩
  · intro r hr
    exact Function.update_of_ne hr ..
  · rw [Cpu.setStatus_reg, Cpu.set_reg, Function.update_self]
    rfl

theorem ret_run {back : Nat} (hrun : Cpu.Running s₀.memory (s₀.reg .esp) 32 s (back :: stack))
    (hfits : s₀.reg .esp < 4294967296) (hfetch : taskText[s.eip]? = some .ret) :
    ∃ t, s.step taskText = some t ∧ t.eip = back ∧ t.seg = s.seg ∧
      (∀ r, r ≠ .esp → t.reg r = s.reg r) ∧
      Cpu.Running s₀.memory (s₀.reg .esp) 32 t stack := by
  have hword : Cpu.Running s₀.memory (s₀.reg .esp) 32 s ([back] ++ stack) := hrun
  refine ⟨_, Cpu.step_of_fetch hfetch, hrun.top, rfl, ?_, hword.drop ?_ hfits rfl⟩
  · intro r hr
    exact Function.update_of_ne hr ..
  · exact Cpu.dropWords_esp ..

theorem iretd_run {ip cs eflags esp ss : Nat}
    (hrun : Cpu.Running s₀.memory (s₀.reg .esp) 32 s [ip, cs, eflags, esp, ss])
    (hfetch : taskText[s.eip]? = some .iretd) (hkernel : s.cpl = 0) (hcs : cs < 65536)
    (hss : ss < 65536) (hlevel : cs % 4 = 3) (hstack : ss % 4 = 3) :
    ∃ t, s.step taskText = some t ∧ t.eip = ip ∧ t.seg .cs = cs ∧ t.eflags = eflags ∧
      t.reg .esp = esp ∧ t.seg .ss = ss ∧ ∀ r, r ≠ .esp → t.reg r = s.reg r := by
  rw [Cpu.step_of_fetch hfetch]
  refine ⟨_, hrun.next.iretd hkernel hcs hss (by omega) (by omega), rfl, ?_, rfl, ?_, ?_, ?_⟩
  · simp
  · simp
  · simp
  · intro r hr
    simp [hr]

/-- What the routine does: the program continues with the general registers, the entry point, the
selectors and the stack of the structure, and with the flags the kernel had. -/
theorem Called.userModeEnter_run (h : Called s₀ regs r) (hcs : r.cs < 65536) (hss : r.ss < 65536)
    (hlevel : r.cs % 4 = 3) (hstack : r.ss % 4 = 3) :
    ∃ t, walk (Cpu.step taskText) 31 s₀ = some t ∧ Restored r t.reg ∧ t.eip = r.ip ∧
      t.seg .cs = r.cs ∧ t.eflags = enteredFlags s₀.eflags ∧ t.reg .esp = r.esp ∧
      t.seg .ss = r.ss := by
  have hfits : s₀.reg .esp < 4294967296 := by
    have hcalled := h.fits
    omega
  obtain ⟨a, ha, haeip, haebp, haebx, haseg, haflags, harun⟩ := h.start
  obtain ⟨b, hb, hbeip, hbebp, hbebx, hbeax, hbseg, hbrun⟩ := h.pushStack harun haeip haebx
  obtain ⟨c, hc, hceip, hcebp, hcebx, hcseg, hcrun⟩ := h.pushEntry hbrun hbeip hbebx hbeax
  obtain ⟨d, hd, hdeip, hdebp, -, hdseg, hdrun⟩ := setSegments_run hcrun hceip
  have hdebp₀ : d.reg .ebp = s₀.reg .esp := by rw [hdebp, hcebp, hbebp, haebp]
  obtain ⟨e, he, heeip, heebp, heseg, herun⟩ := h.callRestore hdrun hdeip hdebp₀ (by simp)
  obtain ⟨f, hf, hfeip, hfebx, hfseg, hfrun⟩ := h.enterRestore herun heeip heebp (by simp)
  obtain ⟨g, hg, hgeip, hgseg, hgreg, hgrun⟩ := h.loadRegisters hfrun hfeip hfebx
  obtain ⟨i, hi, hieip, hiseg, hireg, hirun⟩ := addEsp_run hgrun hfits (by rw [hgeip]; rfl)
  obtain ⟨j, hj, hjeip, hjseg, hjreg, hjrun⟩ :=
    ret_run hirun hfits (by rw [hieip, hgeip]; rfl)
  obtain ⟨k, hk, hkeip, hkseg, hkreg, hkrun⟩ := addEsp_run hjrun hfits (by rw [hjeip]; rfl)
  have hkcs : k.cpl = 0 := by
    unfold Cpu.cpl
    rw [hkseg, hjseg, hiseg, hgseg, hfseg, heseg, hdseg, hcseg, hbseg, haseg]
    exact h.kernel
  obtain ⟨t, ht, hteip, htcs, htflags, htesp, htss, htreg⟩ :=
    iretd_run hkrun (by rw [hkeip, hjeip]; rfl) hkcs hcs hss hlevel hstack
  refine ⟨t, ?_, ?_, hteip, htcs, ?_, htesp, htss⟩
  · have hwalk := walk_trans (walk_trans ha hb) (walk_trans (walk_trans hc hd) (walk_trans he
      (walk_trans hf hg)))
    have hback := walk_trans (walk_trans ((walk_one ..).trans hi) ((walk_one ..).trans hj))
      (walk_trans ((walk_one ..).trans hk) ((walk_one ..).trans ht))
    exact walk_trans hwalk hback
  · have hkept (x : Reg) (hx : x ≠ .esp) : t.reg x = g.reg x := by
      rw [htreg x hx, hkreg x hx, hjreg x hx, hireg x hx]
    exact ⟨(hkept _ (by decide)).trans hgreg.edi, (hkept _ (by decide)).trans hgreg.esi,
      (hkept _ (by decide)).trans hgreg.ebp, (hkept _ (by decide)).trans hgreg.ebx,
      (hkept _ (by decide)).trans hgreg.edx, (hkept _ (by decide)).trans hgreg.ecx,
      (hkept _ (by decide)).trans hgreg.eax⟩
  · rw [htflags, haflags]

end Run

/-! Save and resume. -/

/-- A frame of a program: the processor stored 16-bit selectors of the lowest privilege. -/
structure FromProgram (frame : InterruptFrame) : Prop where
  cs : frame.cs < 65536
  ss : frame.ss < 65536
  level : frame.cs % 4 = 3
  stack : frame.ss % 4 = 3

/-- The program continues where the frame says, with interrupts enabled. -/
structure Resumed (frame : InterruptFrame) (s : Cpu) : Prop where
  edi : s.reg .edi = frame.edi
  esi : s.reg .esi = frame.esi
  ebp : s.reg .ebp = frame.ebp
  ebx : s.reg .ebx = frame.ebx
  edx : s.reg .edx = frame.edx
  ecx : s.reg .ecx = frame.ecx
  eax : s.reg .eax = frame.eax
  ip : s.eip = frame.ip
  cs : s.seg .cs = frame.cs
  flags : s.eflags = frame.flags ||| interruptFlag
  esp : s.reg .esp = frame.esp
  ss : s.seg .ss = frame.ss

/-- The saved flags are never read: the program gets the flags of the frame exactly if the kernel
has the same when it enters user mode. -/
theorem user_mode_enter_resumes_iff {frame : InterruptFrame} {task : Task} {s : Cpu} {regs : Nat}
    (hframe : FromProgram frame) (hcalled : Called s regs (taskSaveState task frame).registers) :
    ∃ t, walk (Cpu.step taskText) 31 s = some t ∧
      (Resumed frame t ↔ s.eflags &&& 0x00FCFFFF ||| interruptFlag = frame.flags ||| interruptFlag) := by
  obtain ⟨t, hrun, hgeneral, hip, hcs, hflags, hesp, hss⟩ :=
    hcalled.userModeEnter_run hframe.cs hframe.ss hframe.level hframe.stack
  refine ⟨t, hrun, ?_⟩
  constructor
  · intro h
    exact hflags.symm.trans h.flags
  · intro h
    exact ⟨hgeneral.edi, hgeneral.esi, hgeneral.ebp, hgeneral.ebx, hgeneral.edx, hgeneral.ecx,
      hgeneral.eax, hip, hcs, hflags.trans h, hesp, hss⟩

def carryFrame : InterruptFrame :=
  ⟨1, 2, 3, 0, 4, 5, 6, 7, 0x400000, userCodeSegment, 0x203, 0x3FF000, userDataSegment⟩

def carryTask : Task := taskSaveState (taskInit 0 0 0x400000) carryFrame

def carryMemory : Memory :=
  Memory.store32 (Memory.copyIn (fun _ => 0) 0x1000004
    (carryTask.registers.words.flatMap Memory.wordBytes)) 0x5FFF04 0x1000004

def carryCpu (eflags : Nat) : Cpu where
  reg r := if r = .esp then 0x5FFF00 else 0
  seg s := if s = .cs then 0x08 else 0x10
  eip := 0
  eflags := eflags
  memory := carryMemory

theorem carryCpu_called (eflags : Nat) : Called (carryCpu eflags) 0x1000004 carryTask.registers where
  eip := rfl
  kernel := by simp [carryCpu, Cpu.cpl]
  room := (by decide : 32 ≤ 0x5FFF00)
  fits := (by decide : 0x5FFF00 + 8 ≤ 4294967296)
  argument := (by decide +kernel : carryMemory.load32 (0x5FFF04 : Nat) = 0x1000004)
  registers := by
    intro i w hw
    have hi : i < 12 := (List.getElem?_eq_some_iff.mp hw).1
    have hwords : ∀ i < 12, some (carryMemory.load32 (0x1000004 + 4 * i : Nat)) =
        carryTask.registers.words[i]? := by decide +kernel
    have hword := hwords i hi
    rw [hw, Option.some.injEq] at hword
    exact hword
  within := by decide
  apart := Or.inr (by decide : 0x5FFF00 ≤ 0x1000004)

theorem carryFrame_fromProgram : FromProgram carryFrame := by
  constructor <;> decide

theorem user_mode_enter_resumes_iff_carryFrame :
    ∃ t, walk (Cpu.step taskText) 31 (carryCpu 0x3) = some t ∧ Resumed carryFrame t := by
  obtain ⟨t, hrun, hiff⟩ := user_mode_enter_resumes_iff carryFrame_fromProgram (carryCpu_called 0x3)
  exact ⟨t, hrun, hiff.mpr (by decide)⟩

theorem user_mode_enter_not_always_resumes :
    ¬ ∀ (frame : InterruptFrame) (task : Task) (s : Cpu) (regs : Nat), FromProgram frame →
      Called s regs (taskSaveState task frame).registers →
      ∃ t, walk (Cpu.step taskText) 31 s = some t ∧ Resumed frame t := by
  intro h
  obtain ⟨t, hrun, hresumed⟩ := h carryFrame (taskInit 0 0 0x400000) (carryCpu 0x2) 0x1000004
    carryFrame_fromProgram (carryCpu_called 0x2)
  obtain ⟨t', hrun', -, -, -, hflags, -⟩ := (carryCpu_called 0x2).userModeEnter_run
    (by decide) (by decide) (by decide) (by decide)
  rw [hrun, Option.some.injEq] at hrun'
  have hsaved := hresumed.flags
  rw [hrun', hflags] at hsaved
  exact absurd hsaved (by decide)

end BoiOS
