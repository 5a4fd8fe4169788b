import BoiOS.Fs.FileSystem
import BoiOS.Library.Transition

/-! Sequences of `fseek` on one open file. The driver compares the offset with the size of the file,
whatever the offset counts from, so that relative seeks that are each in range walk out of it. -/
namespace BoiOS
open Library.StateRun Library.Transition

/-- The addresses behind the number of an open descriptor: the driver's descriptor, the item it
refers to, and the directory record of a file, or the directory, that the item points to. -/
structure FileHandle where
  privateData : Nat
  item : Nat
  pointer : Nat

structure Kernel.ItemAt (k : Kernel) (fd : Int) (f : FileHandle) (type position : Nat) : Prop where
  number : fileGetDescriptor k.files fd ≠ 0
  descriptor : ∃ d, k.files.store (fileGetDescriptor k.files fd) = some d ∧
    d.privateData = f.privateData
  opened : k.fatDescriptors f.privateData = some ⟨f.item, position⟩
  item : k.fatItems f.item = some ⟨f.pointer, type⟩

structure Kernel.FileAt (k : Kernel) (fd : Int) (f : FileHandle) (position : Nat) : Prop extends
    k.ItemAt fd f fatItemTypeFile position where
  record : f.pointer ≠ 0

def Kernel.fileSize (k : Kernel) (f : FileHandle) : Nat := itemFileSize k.memory f.pointer

def Kernel.filePosition (k : Kernel) (f : FileHandle) : Nat :=
  ((k.fatDescriptors f.privateData).map FatFileDescriptor.position).getD 0

def Kernel.moveFile (k : Kernel) (f : FileHandle) (position : Nat) : Kernel :=
  putFatDescriptor f.privateData (some ⟨f.item, position⟩) k

theorem Kernel.ItemAt.filePosition {k : Kernel} {fd : Int} {f : FileHandle}
    {type position : Nat} (h : k.ItemAt fd f type position) : k.filePosition f = position := by
  unfold Kernel.filePosition
  rw [h.opened]
  rfl

@[simp] theorem Kernel.moveFile_filePosition (k : Kernel) (f : FileHandle) (position : Nat) :
    (k.moveFile f position).filePosition f = position := by
  have hfound : (k.moveFile f position).fatDescriptors f.privateData = some ⟨f.item, position⟩ :=
    Function.update_self ..
  unfold Kernel.filePosition
  rw [hfound]
  rfl

@[simp] theorem Kernel.moveFile_fileSize (k : Kernel) (f : FileHandle) (position : Nat) :
    (k.moveFile f position).fileSize f = k.fileSize f := rfl

theorem Kernel.FileAt.moveFile {k : Kernel} {fd : Int} {f : FileHandle} {position : Nat}
    (h : k.FileAt fd f position) (position' : Nat) :
    (k.moveFile f position').FileAt fd f position' where
  number := h.number
  descriptor := h.descriptor
  opened := Function.update_self ..
  item := h.item
  record := h.record

theorem Kernel.ItemAt.withDescriptor {α : Type} {k : Kernel} {fd : Int} {f : FileHandle}
    {type position : Nat} (h : k.ItemAt fd f type position) (missing : α) (act : Nat → KernelM α) :
    withDescriptor fd missing (fun d => act d.privateData) k = act f.privateData k := by
  obtain ⟨d, hstore, hdata⟩ := h.descriptor
  unfold BoiOS.withDescriptor
  rw [bind_of_ok (get_apply k)]
  dsimp only
  rw [if_neg h.number, bind_of_ok (fetch_eq_ok.mpr ⟨hstore, rfl⟩), hdata]

theorem fseek_apply {k : Kernel} {fd : Int} {f : FileHandle} {position : Nat}
    (h : k.FileAt fd f position) (offset whence : Nat) :
    fseek fd offset whence k = .ok (
      if offset ≥ k.fileSize f then (-eio, k)
      else if whence = seekSet then (allOk, k.moveFile f offset)
      else if whence = seekEnd then (-eunimp, k)
      else if whence = seekCur then (allOk, k.moveFile f (u32 ((position : Int) + offset)))
      else (-einvarg, k)) := by
  unfold fseek
  rw [h.withDescriptor (-eio) fun data => fat16Seek data offset whence]
  unfold fat16Seek
  rw [bind_of_ok (get_apply k), bind_of_ok (fetch_eq_ok.mpr ⟨h.opened, rfl⟩),
    bind_of_ok (fetch_eq_ok.mpr ⟨h.item, rfl⟩)]
  dsimp only
  rw [if_neg (not_not.mpr rfl), if_neg h.record]
  unfold Kernel.fileSize
  split_ifs <;> rfl

/-! Runs. -/

/-- A call of `fseek` on the file, which converts the offset, and what it answers. -/
structure SeekCall where
  offset : Int
  whence : Nat
  response : Int

def SeekCall.step (fd : Int) : Step Kernel SeekCall := fun k call k' =>
  -2147483648 ≤ call.offset ∧ call.offset < 2147483648 ∧
    fseek fd (u32 call.offset) call.whence k = .ok (call.response, k')

/-- A seek that succeeds leaves a position in the file, the one that was asked for; a seek that
fails leaves the position. -/
def SeekKept (f : FileHandle) : Step Kernel SeekCall := fun k call k' =>
  if call.response = allOk then
    k'.filePosition f < k'.fileSize f ∧
      (call.whence = seekSet → (k'.filePosition f : Int) = call.offset) ∧
      (call.whence = seekCur → (k'.filePosition f : Int) = k.filePosition f + call.offset)
  else k'.filePosition f = k.filePosition f

/-- The offset that is compared with the size is the one that was given, and a relative one that
is let through leads into the file. -/
def SeekInside (f : FileHandle) : Step Kernel SeekCall := fun k call _ =>
  u32 call.offset < k.fileSize f →
    (call.whence = seekSet → 0 ≤ call.offset) ∧
      (call.whence = seekCur → 0 ≤ k.filePosition f + call.offset ∧
        k.filePosition f + call.offset < k.fileSize f)

theorem Kernel.fileSize_lt (k : Kernel) (f : FileHandle) : k.fileSize f < 4294967296 :=
  Memory.load32_lt ..

theorem SeekCall.step_open {k k' : Kernel} {fd : Int} {f : FileHandle} {call : SeekCall}
    (h : ∃ position, k.FileAt fd f position) (hstep : SeekCall.step fd k call k') :
    ∃ position, k'.FileAt fd f position := by
  obtain ⟨position, hopen⟩ := h
  obtain ⟨-, -, hrun⟩ := hstep
  rw [fseek_apply hopen, Except.ok.injEq] at hrun
  split_ifs at hrun <;> obtain ⟨-, rfl⟩ := Prod.mk.inj hrun
  · exact ⟨position, hopen⟩
  · exact ⟨_, hopen.moveFile _⟩
  · exact ⟨position, hopen⟩
  · exact ⟨_, hopen.moveFile _⟩
  · exact ⟨position, hopen⟩

theorem SeekCall.step_kept_iff {k k' : Kernel} {fd : Int} {f : FileHandle} {call : SeekCall}
    (h : ∃ position, k.FileAt fd f position) (hstep : SeekCall.step fd k call k') :
    SeekKept f k call k' ↔ SeekInside f k call k' := by
  obtain ⟨position, hopen⟩ := h
  obtain ⟨hlow, hhigh, hrun⟩ := hstep
  have hsize := k.fileSize_lt f
  have hoffset := u32_natCast_eq call.offset
  have hposition := hopen.filePosition
  have hfails : ∀ code : Int, (-code, k) = (call.response, k') → code ≠ 0 → SeekKept f k call k' := by
    intro code hpair hcode
    obtain ⟨hresponse, rfl⟩ := Prod.mk.inj hpair
    unfold SeekKept allOk
    rw [if_neg (by omega)]
  have hsucceeds : ∀ position', (allOk, k.moveFile f position') = (call.response, k') →
      (SeekKept f k call k' ↔ position' < k.fileSize f ∧
        (call.whence = seekSet → (position' : Int) = call.offset) ∧
        (call.whence = seekCur → (position' : Int) = position + call.offset)) := by
    intro position' hpair
    obtain ⟨hresponse, rfl⟩ := Prod.mk.inj hpair
    unfold SeekKept
    rw [if_pos hresponse.symm, Kernel.moveFile_filePosition, Kernel.moveFile_fileSize, hposition]
  unfold SeekInside
  rw [hposition]
  rw [fseek_apply hopen, Except.ok.injEq] at hrun
  split_ifs at hrun with hbeyond hset hend hcur
  · exact iff_of_true (hfails eio hrun (by decide)) fun hin => by omega
  · rw [hsucceeds _ hrun, hset]
    have hother : seekSet ≠ seekCur := by decide
    simp only [hother, true_implies, false_implies, and_true]
    omega
  · refine iff_of_true (hfails eunimp hrun (by decide)) fun _ => ?_
    exact ⟨fun hset' => absurd hset' hset, fun hcur => absurd (hend.symm.trans hcur) (by decide)⟩
  · have hmoved := u32_natCast_eq ((position : Int) + u32 call.offset)
    have hother : seekCur ≠ seekSet := by decide
    rw [hsucceeds _ hrun, hcur]
    simp only [hother, true_implies, false_implies, true_and]
    omega
  · refine iff_of_true (hfails einvarg hrun (by decide)) fun _ => ?_
    exact ⟨fun hset' => absurd hset' hset, fun hcur' => absurd hcur' hcur⟩

/-- Along a sequence of calls every position is as it should be exactly if every call meets the
condition. -/
theorem fseek_keeps_position_iff {k : Kernel} {fd : Int} {f : FileHandle} {position : Nat}
    (h : k.FileAt fd f position) (run : List (SeekCall × Kernel))
    (hrun : Path (SeekCall.step fd) k run) :
    Along (SeekKept f) k run ↔ Along (SeekInside f) k run :=
  along_iff (fun _ _ _ hopen hstep _ => SeekCall.step_open hopen hstep)
    (fun _ _ _ hopen hstep => SeekCall.step_kept_iff hopen hstep) k run ⟨position, h⟩ hrun

/-! A file of ten bytes under the number 1. -/

def tenBytes : FileHandle := ⟨0x1000, 0x2000, 0x3000⟩

def tenBytesKernel : Kernel :=
  { emptyKernel 1 with
    files := ⟨fun i => if i = 0 then 0x4000 else 0,
      fun a => if a = 0x4000 then some ⟨1, diskAddress, 0x1000, diskAddress⟩ else none⟩
    fatDescriptors := fun a => if a = 0x1000 then some ⟨0x2000, 0⟩ else none
    fatItems := fun a => if a = 0x2000 then some ⟨0x3000, fatItemTypeFile⟩ else none
    memory := fun a => if a = 0x301C then 10 else 0 }

theorem tenBytesKernel_open : tenBytesKernel.FileAt 1 tenBytes 0 where
  number := by decide
  descriptor := ⟨_, rfl, rfl⟩
  opened := rfl
  item := rfl
  record := by decide

theorem tenBytesKernel_fileSize : tenBytesKernel.fileSize tenBytes = 10 := by decide +kernel

def seekTwice (offset : Nat) : List (SeekCall × Kernel) :=
  [(⟨5, seekSet, allOk⟩, tenBytesKernel.moveFile tenBytes 5),
    (⟨offset, seekCur, allOk⟩, (tenBytesKernel.moveFile tenBytes 5).moveFile tenBytes (5 + offset))]

theorem seekTwice_path {offset : Nat} (hoffset : offset < 10) :
    Path (SeekCall.step 1) tenBytesKernel (seekTwice offset) := by
  have hmoved := tenBytesKernel_open.moveFile 5
  refine ⟨⟨by decide, by decide, ?_⟩, ⟨by dsimp only; omega, by dsimp only; omega, ?_⟩, trivial⟩
  · have hfive : u32 5 = 5 := by decide +kernel
    rw [fseek_apply tenBytesKernel_open, tenBytesKernel_fileSize, hfive]
    rfl
  · have hin : ¬ offset ≥ 10 := by omega
    have hplace : u32 (((5 : Nat) : Int) + offset) = 5 + offset := u32_natCast (by omega)
    rw [fseek_apply hmoved, Kernel.moveFile_fileSize, tenBytesKernel_fileSize,
      u32_natCast (by omega), if_neg hin, hplace]
    rfl

theorem fseek_keeps_position_iff_tenBytes :
    Path (SeekCall.step 1) tenBytesKernel (seekTwice 2) ∧
      Along (SeekKept tenBytes) tenBytesKernel (seekTwice 2) := by
  have hpath := seekTwice_path (by decide : 2 < 10)
  refine ⟨hpath, (fseek_keeps_position_iff tenBytesKernel_open _ hpath).mpr ?_⟩
  refine ⟨fun _ => ⟨fun _ => by decide, fun hcur => absurd hcur (by decide)⟩, fun _ => ?_, trivial⟩
  rw [Kernel.moveFile_filePosition, Kernel.moveFile_fileSize, tenBytesKernel_fileSize]
  exact ⟨fun hset => absurd hset (by decide), fun _ => by decide⟩

theorem fseek_not_always_keeps_position : ¬ ∀ (k : Kernel) (fd : Int) (f : FileHandle)
    (position : Nat), k.FileAt fd f position → ∀ run : List (SeekCall × Kernel),
    Path (SeekCall.step fd) k run → Along (SeekKept f) k run := by
  intro hall
  have hkept := hall tenBytesKernel 1 tenBytes 0 tenBytesKernel_open (seekTwice 8)
    (seekTwice_path (by decide))
  have hsecond := hkept.2.1
  unfold SeekKept at hsecond
  rw [if_pos rfl, Kernel.moveFile_filePosition, Kernel.moveFile_fileSize, Kernel.moveFile_fileSize,
    tenBytesKernel_fileSize] at hsecond
  exact absurd hsecond.1 (by decide)

end BoiOS
