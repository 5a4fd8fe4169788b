import BoiOS.Keyboard.Classic
import BoiOS.Keyboard.KeyQueue

/-! From the scancodes to the keys that a program reads. The interrupts of the keyboard come
whenever they please between the system calls with which the running program asks for a key; what it
gets is what was typed, in order, and zeros in between. -/
namespace BoiOS

inductive ConsoleEvent
  | interrupt (scancode : UInt8)
  | poll
  deriving DecidableEq

/-- The interrupts and the polls of the running program, one after the other: what the polls
return, and the keyboard afterwards. -/
def consoleRun : List ConsoleEvent → ClassicKeyboard → Except Stop (List UInt8 × ClassicKeyboard)
  | [], s => .ok ([], s)
  | .interrupt scancode :: rest, s =>
      (classicKeyboardHandleInterrupt s scancode).bind (consoleRun rest)
  | .poll :: rest, s =>
      (keyboardPop s.scheduler).bind fun (c, scheduler) =>
        (consoleRun rest { s with scheduler }).map fun (keys, t) => (c :: keys, t)

def scancodes : List ConsoleEvent → List UInt8
  | [] => []
  | .interrupt scancode :: rest => scancode :: scancodes rest
  | .poll :: rest => scancodes rest

/-! What is typed. -/

structure Desk where
  capsOn : Bool
  waiting : List UInt8

def keyCharacter (capsOn : Bool) (scancode : UInt8) : UInt8 :=
  let c := (keyboardScanSetOne[scancode.toNat]?).getD 0
  if capsOn = false ∧ 65 ≤ c ∧ c ≤ 90 then c + 32 else c

def capsAfter (capsOn : Bool) (scancode : UInt8) : Bool :=
  if scancode = classicKeyboardCapsLock then !capsOn else capsOn

def typedBy (capsOn : Bool) (scancode : UInt8) : List UInt8 :=
  if scancode &&& classicKeyboardKeyReleased ≠ 0 then []
  else [keyCharacter (capsAfter capsOn scancode) scancode].filter (· ≠ 0)

def typedText : (capsOn : Bool) → List UInt8 → List UInt8
  | _, [] => []
  | capsOn, scancode :: rest =>
      typedBy capsOn scancode ++ typedText (capsAfter capsOn scancode) rest

namespace Desk

def press (d : Desk) (scancode : UInt8) : Desk :=
  ⟨capsAfter d.capsOn scancode, d.waiting ++ typedBy d.capsOn scancode⟩

def poll (d : Desk) : Desk := { d with waiting := d.waiting.tail }

def run : Desk → List ConsoleEvent → List UInt8 × Desk
  | d, [] => ([], d)
  | d, .interrupt scancode :: rest => (d.press scancode).run rest
  | d, .poll :: rest => ((d.waiting[0]?).getD 0 :: (d.poll.run rest).1, (d.poll.run rest).2)

/-- There are never more characters waiting than the ring has cells. -/
def Fits : Desk → List ConsoleEvent → Prop
  | _, [] => True
  | d, .interrupt scancode :: rest =>
      (d.press scancode).waiting.length ≤ 1024 ∧ (d.press scancode).Fits rest
  | d, .poll :: rest => d.poll.Fits rest

def Nonzero (d : Desk) : Prop := ∀ c ∈ d.waiting, c ≠ 0

end Desk

theorem typedBy_nonzero (capsOn : Bool) (scancode : UInt8) :
    ∀ c ∈ typedBy capsOn scancode, c ≠ 0 := by
  intro c hc
  unfold typedBy at hc
  split_ifs at hc
  · exact absurd hc List.not_mem_nil
  · simpa using (List.mem_filter.mp hc).2

theorem capsAfter_released {scancode : UInt8}
    (hreleased : scancode &&& classicKeyboardKeyReleased ≠ 0) (capsOn : Bool) :
    capsAfter capsOn scancode = capsOn := by
  unfold capsAfter
  rw [if_neg]
  rintro rfl
  exact absurd hreleased (by decide)

/-! The keyboard behind it. -/

/-- The keyboard of the running program, with its caps lock and its unread characters. -/
structure ClassicKeyboard.Represents (s : ClassicKeyboard) (process : Nat) (d : Desk) : Prop where
  caps : s.capslockState = if d.capsOn then keyboardCapsLockOn else keyboardCapsLockOff
  current : s.scheduler.currentProcess = process
  task : s.scheduler.tasks.currentTask ≠ 0
  reads : taskCurrentProcess s.scheduler.tasks = some process
  queue : ∃ kb, s.scheduler.keyboardOf process = some kb ∧ kb.Queue d.waiting

namespace ClassicKeyboard
variable {s : ClassicKeyboard} {process : Nat} {d : Desk}

theorem Represents.ready (h : s.Represents process d) :
    KeyRun.Ready process ⟨s.scheduler, [], []⟩ := by
  obtain ⟨kb, hkb, -⟩ := h.queue
  exact ⟨⟨kb, hkb⟩, h.current, h.task, h.reads⟩

theorem Represents.taskPage (h : s.Represents process d) : s.taskPage = .ok s := by
  have hreads := h.reads
  unfold taskCurrentProcess at hreads
  obtain ⟨task, htask, -⟩ := Option.map_eq_some_iff.mp hreads
  unfold ClassicKeyboard.taskPage taskSwitch
  rw [htask]
  rfl

theorem handleInterrupt_of_press {scancode : UInt8}
    (hpressed : scancode &&& classicKeyboardKeyReleased = 0) :
    classicKeyboardHandleInterrupt s scancode =
      (if (classicKeyboardScancodeToChar (s.lookedUp scancode) scancode).1 ≠ 0 then
        (classicKeyboardScancodeToChar (s.lookedUp scancode) scancode).2.push
          (classicKeyboardScancodeToChar (s.lookedUp scancode) scancode).1
      else .ok (classicKeyboardScancodeToChar (s.lookedUp scancode) scancode).2).bind
        ClassicKeyboard.taskPage := by
  have hlooked : (if scancode = classicKeyboardCapsLock then
      keyboardSetCapslock { s with delivered := s.delivered ++ [scancode] }
        (if keyboardGetCapslock { s with delivered := s.delivered ++ [scancode] } =
          keyboardCapsLockOn then keyboardCapsLockOff else keyboardCapsLockOn)
      else { s with delivered := s.delivered ++ [scancode] }) = s.lookedUp scancode := by
    unfold lookedUp keyboardSetCapslock keyboardGetCapslock
    split_ifs <;> rfl
  unfold classicKeyboardHandleInterrupt
  dsimp only
  rw [if_neg (not_not.mpr hpressed), hlooked]

theorem scancodeToChar_eq (hcaps : s.capslockState =
      if d.capsOn then keyboardCapsLockOn else keyboardCapsLockOff) {scancode : UInt8}
    (hne : scancode ≠ 84) :
    (classicKeyboardScancodeToChar s scancode).1 = keyCharacter d.capsOn scancode := by
  have hlength : keyboardScanSetOne.length = 84 := by decide
  have hnat : scancode.toNat ≠ 84 := fun heq => hne (UInt8.toNat_inj.mp heq)
  have hoff : s.capslockState = keyboardCapsLockOff ↔ d.capsOn = false := by
    rw [hcaps]
    cases d.capsOn with
    | true => simp [keyboardCapsLockOn, keyboardCapsLockOff]
    | false => simp
  unfold classicKeyboardScancodeToChar keyboardGetCapslock keyCharacter
  rw [hlength]
  by_cases habove : scancode.toNat > 84
  · have hnone : (keyboardScanSetOne[scancode.toNat]?).getD 0 = 0 := by
      rw [List.getElem?_eq_none (by omega)]
      rfl
    rw [if_pos habove, hnone, if_neg fun h => absurd h.2.1 (by decide)]
  · have hread : s.scanSetOne scancode.toNat = (keyboardScanSetOne[scancode.toNat]?).getD 0 := by
      unfold scanSetOne
      rw [List.getElem?_eq_getElem (by omega)]
      rfl
    rw [if_neg habove]
    dsimp only
    rw [hread]
    generalize (keyboardScanSetOne[scancode.toNat]?).getD 0 = c
    by_cases hcapsOff : d.capsOn = false
    · rw [if_pos (hoff.mpr hcapsOff)]
      by_cases hletter : 65 ≤ c ∧ c ≤ 90
      · rw [if_pos hletter, if_pos ⟨hcapsOff, hletter⟩]
      · rw [if_neg hletter, if_neg fun h => hletter h.2]
    · rw [if_neg (mt hoff.mp hcapsOff), if_neg fun h => hcapsOff h.1]

theorem Represents.lookedUp (h : s.Represents process d) (scancode : UInt8) :
    (s.lookedUp scancode).Represents process ⟨capsAfter d.capsOn scancode, d.waiting⟩ := by
  refine ⟨?_, h.current, h.task, h.reads, h.queue⟩
  have hcaps := h.caps
  unfold ClassicKeyboard.lookedUp capsAfter
  dsimp only
  rw [hcaps]
  by_cases hpress : scancode = classicKeyboardCapsLock
  · rw [if_pos hpress, if_pos hpress]
    cases d.capsOn with
    | true => rfl
    | false => rfl
  · rw [if_neg hpress, if_neg hpress]

theorem Represents.push (h : s.Represents process d) (hprocess : process ≠ 0) {c : UInt8}
    (hc : c ≠ 0) (hroom : d.waiting.length < 1024) :
    ∃ t, s.push c = .ok t ∧ t.Represents process ⟨d.capsOn, d.waiting ++ [c]⟩ := by
  obtain ⟨scheduler, hpush, hcurrent, htasks⟩ := h.ready.push hprocess hc
  obtain ⟨kb, hkb, hqueue⟩ := h.queue
  refine ⟨{ s with scheduler, pushed := s.pushed ++ [c] }, ?_, h.caps, hcurrent.trans h.current,
    ?_, ?_, ?_⟩
  · unfold ClassicKeyboard.push
    rw [hpush]
    rfl
  · dsimp only
    rw [htasks]
    exact h.task
  · dsimp only
    rw [htasks]
    exact h.reads
  · exact ⟨_, KeyRun.keyboardOf_push hprocess hc h.current hkb hpush, hqueue.push hc hroom⟩

theorem Represents.interrupt (h : s.Represents process d) (hprocess : process ≠ 0)
    {scancode : UInt8} (hne : scancode ≠ 84) (hroom : (d.press scancode).waiting.length ≤ 1024) :
    ∃ t, classicKeyboardHandleInterrupt s scancode = .ok t ∧
      t.Represents process (d.press scancode) := by
  by_cases hpressed : scancode &&& classicKeyboardKeyReleased = 0
  · have hlooked := h.lookedUp scancode
    have hfound : (classicKeyboardScancodeToChar (s.lookedUp scancode) scancode).2.Represents
        process ⟨capsAfter d.capsOn scancode, d.waiting⟩ := by
      rw [scancodeToChar_state]
      exact ⟨hlooked.caps, hlooked.current, hlooked.task, hlooked.reads, hlooked.queue⟩
    have htyped : typedBy d.capsOn scancode =
        [keyCharacter (capsAfter d.capsOn scancode) scancode].filter (· ≠ 0) :=
      if_neg (not_not.mpr hpressed)
    rw [handleInterrupt_of_press hpressed, scancodeToChar_eq hlooked.caps hne]
    unfold Desk.press at hroom ⊢
    rw [htyped] at hroom ⊢
    by_cases hcharacter : keyCharacter (capsAfter d.capsOn scancode) scancode = 0
    · rw [if_neg (not_not.mpr hcharacter), hcharacter]
      refine ⟨_, hfound.taskPage, ?_⟩
      simpa using hfound
    · have hone : [keyCharacter (capsAfter d.capsOn scancode) scancode].filter (· ≠ 0) =
          [keyCharacter (capsAfter d.capsOn scancode) scancode] := by simp [hcharacter]
      rw [hone] at hroom ⊢
      rw [List.length_append, List.length_singleton] at hroom
      obtain ⟨t, hpush, ht⟩ := hfound.push hprocess hcharacter hroom
      rw [if_pos hcharacter, hpush]
      exact ⟨t, ht.taskPage, ht⟩
  · have hsame : d.press scancode = d := by
      unfold Desk.press typedBy
      rw [capsAfter_released hpressed, if_pos hpressed, List.append_nil]
    refine ⟨{ s with delivered := s.delivered ++ [scancode] }, ?_, ?_⟩
    · have hdelivered : ClassicKeyboard.Represents { s with delivered := s.delivered ++ [scancode] }
          process d := ⟨h.caps, h.current, h.task, h.reads, h.queue⟩
      unfold classicKeyboardHandleInterrupt
      rw [if_pos hpressed]
      exact hdelivered.taskPage
    · rw [hsame]
      exact ⟨h.caps, h.current, h.task, h.reads, h.queue⟩

theorem Represents.poll (h : s.Represents process d) :
    ∃ scheduler, keyboardPop s.scheduler = .ok ((d.waiting[0]?).getD 0, scheduler) ∧
      ClassicKeyboard.Represents { s with scheduler } process d.poll := by
  obtain ⟨c, scheduler, hpop, hcurrent, htasks⟩ := h.ready.pop
  obtain ⟨kb, hkb, hqueue⟩ := h.queue
  obtain ⟨rfl, hkeyboard⟩ := KeyRun.keyboardPop_eq h.task h.reads hkb hpop
  have hfront := hqueue.front
  rw [hfront] at hpop hkeyboard
  refine ⟨scheduler, hpop, h.caps, hcurrent.trans h.current, ?_, ?_, ?_⟩
  · dsimp only
    rw [htasks]
    exact h.task
  · dsimp only
    rw [htasks]
    exact h.reads
  · unfold Desk.poll
    cases hwaiting : d.waiting with
    | nil =>
      rw [hwaiting] at hkeyboard hqueue
      exact ⟨kb, hkeyboard.trans (congrArg some (if_pos rfl)), hqueue⟩
    | cons c rest =>
      rw [hwaiting] at hkeyboard hqueue
      have hnonzero : c ≠ 0 := hqueue.nonzero c List.mem_cons_self
      exact ⟨_, hkeyboard.trans (congrArg some (if_neg hnonzero)), hqueue.pop⟩

theorem Represents.run (h : s.Represents process d) (hprocess : process ≠ 0)
    {events : List ConsoleEvent} (hinside : 84 ∉ scancodes events) (hfits : d.Fits events) :
    ∃ t, consoleRun events s = .ok ((d.run events).1, t) ∧
      t.Represents process (d.run events).2 := by
  induction events generalizing s d with
  | nil => exact ⟨s, rfl, h⟩
  | cons event rest ih =>
    cases event with
    | interrupt scancode =>
      obtain ⟨hne, hrest⟩ := not_or.mp (mt List.mem_cons.mpr hinside)
      obtain ⟨s', hinterrupt, hnext⟩ := h.interrupt hprocess (Ne.symm hne) hfits.1
      obtain ⟨t, hrun, ht⟩ := ih hnext hrest hfits.2
      refine ⟨t, ?_, ht⟩
      rw [consoleRun, hinterrupt]
      exact hrun
    | poll =>
      obtain ⟨scheduler, hpop, hnext⟩ := h.poll
      obtain ⟨t, hrun, ht⟩ := ih hnext hinside hfits
      refine ⟨t, ?_, ht⟩
      rw [consoleRun, hpop, Except.bind]
      dsimp only
      rw [hrun]
      rfl

end ClassicKeyboard

/-! No key is lost, none comes twice, and they come in order. -/

theorem Desk.Nonzero.press {d : Desk} (h : d.Nonzero) (scancode : UInt8) :
    (d.press scancode).Nonzero := by
  intro c hc
  rcases List.mem_append.mp hc with hc | hc
  · exact h c hc
  · exact typedBy_nonzero _ _ c hc

theorem Desk.Nonzero.poll {d : Desk} (h : d.Nonzero) : d.poll.Nonzero :=
  fun c hc => h c (List.mem_of_mem_tail hc)

theorem Desk.run_keys {d : Desk} (h : d.Nonzero) (events : List ConsoleEvent) :
    (d.run events).1.filter (· ≠ 0) ++ (d.run events).2.waiting =
      d.waiting ++ typedText d.capsOn (scancodes events) := by
  induction events generalizing d with
  | nil => exact (List.append_nil _).symm
  | cons event rest ih =>
    cases event with
    | interrupt scancode =>
      have hrest := ih (h.press scancode)
      rw [Desk.run, scancodes, typedText, hrest]
      exact List.append_assoc ..
    | poll =>
      have hrest := ih h.poll
      rw [Desk.run, scancodes]
      unfold Desk.poll at hrest ⊢
      cases hwaiting : d.waiting with
      | nil =>
        rw [hwaiting] at hrest
        exact hrest
      | cons c waiting =>
        have hnonzero : c ≠ 0 := h c (by rw [hwaiting]; exact List.mem_cons_self)
        rw [hwaiting] at hrest
        simp only [List.getElem?_cons_zero, Option.getD_some, List.tail_cons] at hrest ⊢
        rw [List.filter_cons_of_pos (by simpa using hnonzero), List.cons_append, hrest,
          List.cons_append]

end BoiOS
