import BoiOS.Library.Transition
import BoiOS.Task.Process

/-! The keyboard of keyboard/classic.c, from the scancodes that are delivered to the characters that
are pushed. The table of scancodes is read at any index: behind it is other data of the kernel. -/
namespace BoiOS
open Library.Transition

namespace Key

def esc : UInt8 := 0x1B
def bckSpc : UInt8 := 0x08
def tab : UInt8 := 0x09
def enter : UInt8 := 0x0D
def space : UInt8 := 0x20
def lftCtr : UInt8 := 0x1E
def lftShft : UInt8 := 0x1E
def ritShft : UInt8 := 0x1E
def lftAlt : UInt8 := 0x1E
def f1 : UInt8 := 0x1E
def f2 : UInt8 := 0x1E
def f3 : UInt8 := 0x1E
def f4 : UInt8 := 0x1E
def f5 : UInt8 := 0x1E
def f6 : UInt8 := 0x1E
def f7 : UInt8 := 0x1E
def f8 : UInt8 := 0x1E
def f9 : UInt8 := 0x1E
def f10 : UInt8 := 0x1E
def numLck : UInt8 := 0x1E
def scrlLck : UInt8 := 0x1E

end Key

open Key in
/-- Seven scancodes a line, the characters as their codes. -/
def keyboardScanSetOne : List UInt8 :=
  [0x00, esc, 49, 50, 51, 52, 53, -- 1 to 5
    54, 55, 56, 57, 48, 45, 61, -- 6 to 0, - and =
    bckSpc, tab, 81, 87, 69, 82, 84, -- Q W E R T
    89, 85, 73, 79, 80, 91, 93, -- Y U I O P [ ]
    enter, lftCtr, 65, 83, 68, 70, 71, -- A S D F G
    72, 74, 75, 76, 59, 39, 96, -- H J K L, the semicolon and two quotes
    lftShft, 92, 90, 88, 67, 86, 66, -- the backslash, Z X C V B
    78, 77, 44, 46, 47, ritShft, 42, -- N M , . / *
    lftAlt, space, 0x00, f1, f2, f3, f4,
    f5, f6, f7, f8, f9, f10, numLck,
    scrlLck, 55, 56, 57, 45, 52, 53, -- 7 8 9 - 4 5
    54, 43, 49, 50, 51, 48, 46] -- 6 + 1 2 3 0 .

def classicKeyboardCapsLock : UInt8 := 0x3A
def classicKeyboardKeyReleased : UInt8 := 0x80
def keyboardCapsLockOff : Int := 0
def keyboardCapsLockOn : Int := 1

/-- The keyboard, what it pushes to, and the data behind its table. The last three are no fields of
the C structure: the index of every access to the table, the scancodes delivered and the characters
pushed so far. -/
structure ClassicKeyboard where
  capslockState : Int
  scheduler : Scheduler
  behind : Nat → UInt8
  accessed : List Nat
  delivered : List UInt8
  pushed : List UInt8

def keyboardSetCapslock (s : ClassicKeyboard) (state : Int) : ClassicKeyboard :=
  { s with capslockState := state }

def keyboardGetCapslock (s : ClassicKeyboard) : Int := s.capslockState

/-- The interrupt is registered in another table, and the port has no state. -/
def classicKeyboardInit (s : ClassicKeyboard) : Int × ClassicKeyboard :=
  (0, keyboardSetCapslock s keyboardCapsLockOff)

namespace ClassicKeyboard

def scanSetOne (s : ClassicKeyboard) (index : Nat) : UInt8 :=
  (keyboardScanSetOne[index]?).getD (s.behind (index - keyboardScanSetOne.length))

def push (s : ClassicKeyboard) (character : UInt8) : Except Stop ClassicKeyboard :=
  (keyboardPush s.scheduler character).map fun scheduler =>
    { s with scheduler, pushed := s.pushed ++ [character] }

/-- `task_page`, which switches to the task that is the current one already. -/
def taskPage (s : ClassicKeyboard) : Except Stop ClassicKeyboard :=
  (access (taskSwitch s.scheduler.tasks s.scheduler.tasks.currentTask)).map fun tasks =>
    { s with scheduler := { s.scheduler with tasks } }

end ClassicKeyboard

def classicKeyboardScancodeToChar (s : ClassicKeyboard) (scancode : UInt8) :
    UInt8 × ClassicKeyboard :=
  let sizeOfKeyboardSetOne := keyboardScanSetOne.length
  if scancode.toNat > sizeOfKeyboardSetOne then (0, s)
  else
    let c := s.scanSetOne scancode.toNat
    let s := { s with accessed := scancode.toNat :: s.accessed }
    if keyboardGetCapslock s = keyboardCapsLockOff then
      if 65 ≤ c ∧ c ≤ 90 then (c + 32, s) else (c, s)
    else (c, s)

/-- The first byte of the port is the scancode, the one read after it is thrown away. -/
def classicKeyboardHandleInterrupt (s : ClassicKeyboard) (scancode : UInt8) :
    Except Stop ClassicKeyboard :=
  let s := { s with delivered := s.delivered ++ [scancode] }
  if scancode &&& classicKeyboardKeyReleased ≠ 0 then s.taskPage
  else
    let oldState := keyboardGetCapslock s
    let s := if scancode = classicKeyboardCapsLock then
        keyboardSetCapslock s
          (if oldState = keyboardCapsLockOn then keyboardCapsLockOff else keyboardCapsLockOn)
      else s
    let (character, s) := classicKeyboardScancodeToChar s scancode
    (if character ≠ 0 then s.push character else .ok s).bind ClassicKeyboard.taskPage

/-! What an interrupt does. -/

namespace ClassicKeyboard
variable {s t : ClassicKeyboard}

theorem taskPage_eq_ok (h : s.taskPage = .ok t) : t = s := by
  unfold taskPage taskSwitch at h
  cases htask : s.scheduler.tasks.store s.scheduler.tasks.currentTask with
  | none =>
    rw [htask] at h
    cases h
  | some task =>
    rw [htask, Option.map_some, access_some] at h
    exact (Except.ok.inj h).symm

theorem push_eq_ok {character : UInt8} (h : s.push character = .ok t) :
    keyboardPush s.scheduler character = .ok t.scheduler ∧
      t = { s with scheduler := t.scheduler, pushed := s.pushed ++ [character] } := by
  unfold push at h
  cases hpush : keyboardPush s.scheduler character with
  | error e =>
    rw [hpush] at h
    cases h
  | ok scheduler =>
    rw [hpush] at h
    obtain rfl := Except.ok.inj h
    exact ⟨rfl, rfl⟩

def lookedUp (s : ClassicKeyboard) (scancode : UInt8) : ClassicKeyboard :=
  { s with
    capslockState :=
      if scancode = classicKeyboardCapsLock then
        if s.capslockState = keyboardCapsLockOn then keyboardCapsLockOff else keyboardCapsLockOn
      else s.capslockState
    delivered := s.delivered ++ [scancode] }

inductive Pushed (s : ClassicKeyboard) : UInt8 → ClassicKeyboard → Prop
  | none : Pushed s 0 s
  | some {character : UInt8} {scheduler : Scheduler} (hcharacter : character ≠ 0)
      (hpush : keyboardPush s.scheduler character = .ok scheduler) :
      Pushed s character { s with scheduler, pushed := s.pushed ++ [character] }

theorem handleInterrupt_eq_ok {scancode : UInt8}
    (h : classicKeyboardHandleInterrupt s scancode = .ok t) :
    scancode &&& classicKeyboardKeyReleased ≠ 0 ∧
        t = { s with delivered := s.delivered ++ [scancode] } ∨
      scancode &&& classicKeyboardKeyReleased = 0 ∧
        Pushed (classicKeyboardScancodeToChar (s.lookedUp scancode) scancode).2
          (classicKeyboardScancodeToChar (s.lookedUp scancode) scancode).1 t := by
  unfold classicKeyboardHandleInterrupt at h
  dsimp only at h
  by_cases hreleased : scancode &&& classicKeyboardKeyReleased = 0
  · rw [if_neg (not_not.mpr hreleased)] at h
    refine .inr ⟨hreleased, ?_⟩
    have hlooked : (if scancode = classicKeyboardCapsLock then
        keyboardSetCapslock { s with delivered := s.delivered ++ [scancode] }
          (if keyboardGetCapslock { s with delivered := s.delivered ++ [scancode] } =
            keyboardCapsLockOn then keyboardCapsLockOff else keyboardCapsLockOn)
        else { s with delivered := s.delivered ++ [scancode] }) = s.lookedUp scancode := by
      unfold lookedUp keyboardSetCapslock keyboardGetCapslock
      split_ifs <;> rfl
    rw [hlooked] at h
    generalize classicKeyboardScancodeToChar (s.lookedUp scancode) scancode = found at h ⊢
    by_cases hcharacter : found.1 = 0
    · rw [if_neg (not_not.mpr hcharacter)] at h
      rw [hcharacter, taskPage_eq_ok h]
      exact .none
    · rw [if_pos hcharacter] at h
      cases hpush : found.2.push found.1 with
      | error e =>
        rw [hpush] at h
        cases h
      | ok pushed =>
        rw [hpush] at h
        obtain ⟨hscheduler, hpushed⟩ := push_eq_ok hpush
        rw [taskPage_eq_ok h, hpushed]
        exact .some hcharacter hscheduler
  · rw [if_pos hreleased] at h
    exact .inl ⟨hreleased, taskPage_eq_ok h⟩

theorem Pushed.same {character : UInt8} (h : s.Pushed character t) :
    t.capslockState = s.capslockState ∧ t.accessed = s.accessed ∧ t.delivered = s.delivered := by
  cases h with
  | none => exact ⟨rfl, rfl, rfl⟩
  | some => exact ⟨rfl, rfl, rfl⟩

theorem Pushed.of_ne_zero {character : UInt8} (h : s.Pushed character t) (hne : character ≠ 0) :
    keyboardPush s.scheduler character = .ok t.scheduler ∧ t.pushed = s.pushed ++ [character] := by
  cases h with
  | none => exact absurd rfl hne
  | some _ hpush => exact ⟨hpush, rfl⟩

theorem scancodeToChar_state (s : ClassicKeyboard) (scancode : UInt8) :
    (classicKeyboardScancodeToChar s scancode).2 = { s with
      accessed := if scancode.toNat > 84 then s.accessed else scancode.toNat :: s.accessed } := by
  have hlength : keyboardScanSetOne.length = 84 := by decide
  unfold classicKeyboardScancodeToChar
  rw [hlength]
  by_cases habove : scancode.toNat > 84
  · rw [if_pos habove, if_pos habove]
  · rw [if_neg habove, if_neg habove]
    dsimp only
    split_ifs <;> rfl

structure IsLetter (scancode letter : UInt8) : Prop where
  key : keyboardScanSetOne[scancode.toNat]? = some letter
  low : 65 ≤ letter
  high : letter ≤ 90

theorem IsLetter.press {scancode letter : UInt8} (h : IsLetter scancode letter) :
    scancode &&& classicKeyboardKeyReleased = 0 ∧ scancode ≠ classicKeyboardCapsLock ∧
      scancode.toNat < 84 ∧ letter ≠ 0 ∧ letter + 32 ≠ 0 := by
  have hall : ∀ n < 84, 65 ≤ keyboardScanSetOne.getD n 0 → keyboardScanSetOne.getD n 0 ≤ 90 →
      UInt8.ofNat n &&& classicKeyboardKeyReleased = 0 ∧
        UInt8.ofNat n ≠ classicKeyboardCapsLock ∧ keyboardScanSetOne.getD n 0 ≠ 0 ∧
        keyboardScanSetOne.getD n 0 + 32 ≠ 0 := by
    decide +kernel
  obtain ⟨hlt, -⟩ := List.getElem?_eq_some_iff.mp h.key
  have hletter : keyboardScanSetOne.getD scancode.toNat 0 = letter := by
    rw [List.getD_eq_getElem?_getD, h.key, Option.getD_some]
  have hkey := hall scancode.toNat hlt
  rw [hletter, UInt8.ofNat_toNat] at hkey
  obtain ⟨hpress, hcaps, hnonzero, hlower⟩ := hkey h.low h.high
  exact ⟨hpress, hcaps, hlt, hnonzero, hlower⟩

theorem IsLetter.scancodeToChar {scancode letter : UInt8} (h : IsLetter scancode letter)
    (s : ClassicKeyboard) : (classicKeyboardScancodeToChar s scancode).1 =
      if s.capslockState = keyboardCapsLockOff then letter + 32 else letter := by
  obtain ⟨-, -, hlt, -⟩ := h.press
  have hlength : keyboardScanSetOne.length = 84 := by decide
  have hread : s.scanSetOne scancode.toNat = letter := by
    unfold scanSetOne
    rw [h.key, Option.getD_some]
  have hupper : 65 ≤ letter ∧ letter ≤ 90 := ⟨h.low, h.high⟩
  unfold classicKeyboardScancodeToChar keyboardGetCapslock
  rw [hlength, if_neg (by omega)]
  dsimp only
  rw [hread, if_pos hupper]
  split_ifs <;> rfl

/-! Runs. -/

def capsLockPresses (s : ClassicKeyboard) : Nat := s.delivered.count classicKeyboardCapsLock

/-- What the keyboard does with a scancode: it reads its table inside, a release changes nothing,
and a letter is pushed in the case that the presses of the caps lock say. -/
structure Handled (s : ClassicKeyboard) (scancode : UInt8) (t : ClassicKeyboard) : Prop where
  inside : ∀ index ∈ t.accessed, index < keyboardScanSetOne.length
  released : scancode &&& classicKeyboardKeyReleased ≠ 0 →
    t = { s with delivered := s.delivered ++ [scancode] }
  letter : ∀ letter, IsLetter scancode letter →
    let character := if s.capsLockPresses % 2 = 1 then letter else letter + 32
    keyboardPush s.scheduler character = .ok t.scheduler ∧ t.pushed = s.pushed ++ [character]

end ClassicKeyboard

inductive KeyboardEvent
  | interrupt (scancode : UInt8)
  | other
  deriving DecidableEq

namespace ClassicKeyboard

/-- Between the interrupts the kernel may do anything that leaves the keyboard alone. -/
def step : Step ClassicKeyboard KeyboardEvent := fun s event t =>
  match event with
  | .interrupt scancode => classicKeyboardHandleInterrupt s scancode = .ok t
  | .other => t.capslockState = s.capslockState ∧ t.accessed = s.accessed ∧
      t.delivered = s.delivered ∧ t.pushed = s.pushed

def Good : Step ClassicKeyboard KeyboardEvent := fun s event t =>
  match event with
  | .interrupt scancode => s.Handled scancode t
  | .other => True

structure Tracked (s : ClassicKeyboard) : Prop where
  inside : ∀ index ∈ s.accessed, index < keyboardScanSetOne.length
  caps : s.capslockState =
    if s.capsLockPresses % 2 = 1 then keyboardCapsLockOn else keyboardCapsLockOff

variable {s t : ClassicKeyboard}

theorem tracked_init (haccessed : s.accessed = []) (hdelivered : s.delivered = [])
    (hinit : classicKeyboardInit s = (0, t)) : t.Tracked := by
  obtain rfl := (Prod.mk.inj hinit).2
  refine ⟨fun index hindex => ?_, ?_⟩
  · have hnone : index ∈ s.accessed := hindex
    rw [haccessed] at hnone
    exact absurd hnone List.not_mem_nil
  · have hpresses : (keyboardSetCapslock s keyboardCapsLockOff).capsLockPresses = 0 := by
      unfold capsLockPresses keyboardSetCapslock
      dsimp only
      rw [hdelivered]
      rfl
    rw [hpresses]
    rfl

theorem capsLockPresses_append (s : ClassicKeyboard) (scancode : UInt8) :
    (s.delivered ++ [scancode]).count classicKeyboardCapsLock =
      s.capsLockPresses + if scancode = classicKeyboardCapsLock then 1 else 0 := by
  rw [List.count_append, List.count_singleton]
  unfold capsLockPresses
  simp only [beq_iff_eq]

theorem Tracked.lookedUp (h : s.Tracked) (scancode : UInt8) : (s.lookedUp scancode).Tracked := by
  refine ⟨h.inside, ?_⟩
  have hpresses := capsLockPresses_append s scancode
  have hcaps := h.caps
  unfold ClassicKeyboard.lookedUp
  change _ = if (s.delivered ++ [scancode]).count classicKeyboardCapsLock % 2 = 1 then _ else _
  rw [hpresses]
  dsimp only
  rw [hcaps]
  by_cases hpress : scancode = classicKeyboardCapsLock
  · rw [if_pos hpress, if_pos hpress]
    by_cases hodd : s.capsLockPresses % 2 = 1
    · rw [if_pos hodd, if_pos rfl, if_neg (by omega)]
    · rw [if_neg hodd, if_neg (by decide), if_pos (by omega)]
  · rw [if_neg hpress, if_neg hpress, Nat.add_zero]

theorem Tracked.handled (h : s.Tracked) {scancode : UInt8}
    (hrun : classicKeyboardHandleInterrupt s scancode = .ok t) (hne : scancode ≠ 84) :
    t.Tracked ∧ s.Handled scancode t := by
  have hlength : keyboardScanSetOne.length = 84 := by decide
  rcases handleInterrupt_eq_ok hrun with ⟨hreleased, rfl⟩ | ⟨hpressed, hpushed⟩
  · have hcaps : scancode ≠ classicKeyboardCapsLock := by
      rintro rfl
      exact absurd hreleased (by decide)
    have hpresses := capsLockPresses_append s scancode
    rw [if_neg hcaps, Nat.add_zero] at hpresses
    refine ⟨⟨h.inside, ?_⟩, h.inside, fun _ => rfl, fun letter hletter => ?_⟩
    · change s.capslockState =
        if (s.delivered ++ [scancode]).count classicKeyboardCapsLock % 2 = 1 then _ else _
      rw [hpresses]
      exact h.caps
    · exact absurd hletter.press.1 hreleased
  · have hlooked := h.lookedUp scancode
    obtain ⟨hcaps, haccessed, hdelivered⟩ := hpushed.same
    rw [scancodeToChar_state] at hcaps haccessed hdelivered
    have hinside : ∀ index ∈ t.accessed, index < keyboardScanSetOne.length := by
      have hnat : scancode.toNat ≠ 84 := fun heq => hne (UInt8.toNat_inj.mp heq)
      rw [haccessed, hlength]
      dsimp only
      intro index hindex
      split_ifs at hindex with habove
      · exact h.inside index hindex
      · obtain rfl | hindex := List.mem_cons.mp hindex
        · omega
        · exact h.inside index hindex
    refine ⟨⟨hinside, ?_⟩, hinside, fun hreleased => absurd hpressed hreleased,
      fun letter hletter => ?_⟩
    · unfold capsLockPresses
      rw [hcaps, hdelivered]
      exact hlooked.caps
    · intro character
      obtain ⟨-, hnotCaps, -, hnonzero, hlower⟩ := hletter.press
      have hstate : (s.lookedUp scancode).capslockState = s.capslockState := if_neg hnotCaps
      have hfound : (classicKeyboardScancodeToChar (s.lookedUp scancode) scancode).1 =
          character := by
        rw [hletter.scancodeToChar, hstate, h.caps]
        by_cases hodd : s.capsLockPresses % 2 = 1
        · have hupper : character = letter := if_pos hodd
          rw [if_pos hodd, if_neg (by decide), hupper]
        · have hlowercase : character = letter + 32 := if_neg hodd
          rw [if_neg hodd, if_pos rfl, hlowercase]
      have hcharacter : character ≠ 0 := by
        change (if s.capsLockPresses % 2 = 1 then letter else letter + 32) ≠ 0
        split_ifs
        · exact hnonzero
        · exact hlower
      rw [hfound, scancodeToChar_state] at hpushed
      exact hpushed.of_ne_zero hcharacter

/-- The scancode that equals the size of the table is read behind it. -/
theorem handleInterrupt_behind (hrun : classicKeyboardHandleInterrupt s 84 = .ok t) :
    84 ∈ t.accessed := by
  rcases handleInterrupt_eq_ok hrun with ⟨hreleased, -⟩ | ⟨-, hpushed⟩
  · exact absurd hreleased (by decide)
  · obtain ⟨-, haccessed, -⟩ := hpushed.same
    rw [haccessed, scancodeToChar_state]
    exact List.mem_cons_self ..

/-- Every run is good until the scancode 84 is delivered, which the comparison with the size of the
table lets through. -/
theorem keyboard_interrupts_good_iff (before s : ClassicKeyboard) (haccessed : before.accessed = [])
    (hdelivered : before.delivered = []) (hinit : classicKeyboardInit before = (0, s))
    (run : List (KeyboardEvent × ClassicKeyboard)) (hpath : Path step s run) :
    Along Good s run ↔ Along (fun _ event _ => event ≠ .interrupt 84) s run := by
  have htracked : s.Tracked := tracked_init haccessed hdelivered hinit
  refine along_iff (fun s event t (h : s.Tracked) hstep hne => ?_) (fun s event t h hstep => ?_)
    s run htracked hpath
  · cases event with
    | interrupt scancode => exact (h.handled hstep fun heq => hne (by rw [heq])).1
    | other =>
      obtain ⟨hcaps, haccessed, hdelivered, -⟩ := hstep
      refine ⟨by rw [haccessed]; exact h.inside, ?_⟩
      unfold capsLockPresses
      rw [hcaps, hdelivered]
      exact h.caps
  · cases event with
    | interrupt scancode =>
      constructor
      · rintro hgood heq
        obtain rfl := KeyboardEvent.interrupt.inj heq
        exact absurd (hgood.inside 84 (handleInterrupt_behind hstep)) (by decide)
      · intro hne
        exact (h.handled hstep fun heq => hne (by rw [heq])).2
    | other => exact iff_of_true trivial (by rintro ⟨⟩)

def idleKeyboard : ClassicKeyboard :=
  ⟨0, ⟨fun _ => none, fun _ => 0, 0, ⟨Function.update (fun _ => none) 1 (some (taskInit 0 0 0)), 1, 1,
    1⟩⟩, fun _ => 0, [], [], []⟩

def next (s : ClassicKeyboard) (event : KeyboardEvent) : ClassicKeyboard :=
  match event with
  | .interrupt scancode => match classicKeyboardHandleInterrupt s scancode with
    | .ok t => t
    | .error _ => s
  | .other => s

theorem keyboard_interrupts_good_capsLock :
    Along Good idleKeyboard (trace next idleKeyboard
      [.interrupt 0x3A, .interrupt 0xBA, .interrupt 0x10, .interrupt 0x90]) := by
  have hpath : Path step idleKeyboard (trace next idleKeyboard
      [.interrupt 0x3A, .interrupt 0xBA, .interrupt 0x10, .interrupt 0x90]) :=
    ⟨rfl, rfl, rfl, rfl, trivial⟩
  exact (keyboard_interrupts_good_iff idleKeyboard idleKeyboard rfl rfl rfl _ hpath).mpr
    ⟨by decide, by decide, by decide, by decide, trivial⟩

theorem keyboard_interrupts_not_always_good :
    ¬ ∀ (before s : ClassicKeyboard), before.accessed = [] → before.delivered = [] →
      classicKeyboardInit before = (0, s) → ∀ run : List (KeyboardEvent × ClassicKeyboard),
        Path step s run → Along Good s run := by
  intro hall
  have hgood := hall idleKeyboard idleKeyboard rfl rfl rfl
    (trace next idleKeyboard [.interrupt 84]) ⟨rfl, trivial⟩
  exact absurd (hgood.1.inside 84 (by decide)) (by decide)

end ClassicKeyboard
end BoiOS
