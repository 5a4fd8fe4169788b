import BoiOS.Keyboard.Typing
import BoiOS.Terminal.Echo

/-! From the keyboard to the line and to the screen: a program that reads a line, the interrupts of
the keyboard that come between its polls, and the characters that it writes. -/
namespace BoiOS

variable {max place : Nat}

theorem LinesFit.of_prefix {line typed text : List UInt8} (h : LinesFit place max line text)
    (hstart : typed <+: text) : LinesFit place max line typed := fun before hbefore hfolded =>
  h before (hbefore.trans hstart) hfolded

theorem foldl_editLine_length (line typed : List UInt8) :
    (typed.foldl editLine line).length ≤ line.length + typed.length := by
  induction typed generalizing line with
  | nil => exact Nat.le_refl _
  | cons key typed ih =>
    have hgrown : (editLine line key).length ≤ line.length + 1 := edit_length true line key
    have hrest := ih (editLine line key)
    rw [List.foldl_cons, List.length_cons]
    omega

theorem linesFit_of_length {line text : List UInt8}
    (h : place + line.length + text.length < 80 * 25) : LinesFit place max line text := by
  intro before hstart _
  have hlength := hstart.length_le
  have hgrown := foldl_editLine_length line before
  omega

/-- A line that is typed at the keyboard. Whenever the interrupts come between the polls of the
reader, the keys that it has read and those that still wait are the characters of the scancodes in
their order; the reader returns with the fold of what it has read, up to Enter or to the key that
fills the line; and the line is on the screen, with the block behind it as long as it has room. -/
theorem typing_reaches_line {process : Nat} (hprocess : process ≠ 0) {s : ClassicKeyboard}
    {d : Desk} (h : s.Represents process d) (events : List ConsoleEvent)
    (hinside : 84 ∉ scancodes events) (hfits : d.Fits events) (hmax : 2 ≤ max) (out : Int → UInt8)
    {t : Terminal} (hcursor : t.At place)
    (hshown : ∀ key ∈ d.waiting ++ typedText d.capsOn (scancodes events), key ≠ 10 ∧ key ≠ 9)
    (hlines : LinesFit place max [] (d.waiting ++ typedText d.capsOn (scancodes events))) :
    ∃ keys s', consoleRun events s = .ok (keys, s') ∧
    ∃ typed rest unread,
      d.waiting ++ typedText d.capsOn (scancodes events) = typed ++ rest ++ unread ∧
      pressed keys = typed ++ rest ∧
      (∃ kb, s'.scheduler.keyboardOf process = some kb ∧ kb.Queue unread) ∧
      Folded max [] typed ∧
      let line := typed.foldl editLine []
      let read := boiosTerminalReadline out max true keys
      (read.1 = true ↔ line.length = max - 1 ∨ rest.head? = some 13) ∧
      (read.1 = true → Stored read.2.out line) ∧ (read.1 = false → rest = []) ∧
      ∃ reach ≤ 80 * 25, t.ShowsLine (writeAll t (read.2.printed.map (·, 15))) place reach
        (withBlock max line) := by
  obtain ⟨kb, hkb, hqueue⟩ := h.queue
  obtain ⟨s', hrun, hs'⟩ := h.run hprocess hinside hfits
  have hkeys := Desk.run_keys hqueue.nonzero events
  generalize d.run events = result at hrun hs' hkeys
  obtain ⟨keys, d'⟩ := result
  dsimp only at hrun hs' hkeys
  have hpositive : 0 < max := Nat.lt_of_lt_of_le Nat.zero_lt_two hmax
  obtain ⟨hends, -, hstored⟩ := boiosTerminalReadline_spec hpositive true out keys
  obtain ⟨typed, rest, hpressed, hfolded, hline, hlength, hend, hwait⟩ :=
    typedLine_folds [] (pressed keys) hpositive
  have hstart : pressed keys <+: d.waiting ++ typedText d.capsOn (scancodes events) :=
    ⟨d'.waiting, hkeys⟩
  have hkeeps : ReadLine.Keeps ⟨out, 0, [], []⟩ max [] :=
    ⟨⟨rfl, fun k hk => absurd hk (Nat.not_lt_zero k)⟩,
      fun _ hindex => absurd hindex List.not_mem_nil, hpositive⟩
  have hshows : t.ShowsLine (ReadLine.screen ⟨out, 0, [], []⟩ t) place place [] := .start hcursor
  obtain ⟨reach, hreach, hscreen⟩ := readlineLoop_shows keys hkeeps hshows
    (Nat.le_of_lt hlines.here)
    (fun key hkey => hshown key (hstart.subset hkey)) (hlines.of_prefix hstart)
  refine ⟨keys, s', hrun, typed, rest, d'.waiting, ?_, hpressed, hs'.queue, hfolded, ?_, ?_, ?_,
    reach, hreach, ?_⟩
  · rw [← hpressed]
    exact hkeys.symm
  · rw [hends]
    refine hend.trans (or_congr ?_ Iff.rfl)
    omega
  · rw [← hline]
    exact hstored
  · exact fun hread => hwait (hends.symm.trans hread)
  · rw [← hline]
    exact hscreen

def oneKeyboard : ClassicKeyboard :=
  ⟨keyboardCapsLockOff, KeyRun.oneProcess.scheduler, fun _ => 0, [], [], []⟩

theorem oneKeyboard_represents : oneKeyboard.Represents 1 ⟨false, []⟩ :=
  ⟨rfl, rfl, by decide, rfl, KeyRun.oneProcess_zeroed.unread⟩

def typedLetter : List ConsoleEvent :=
  [.poll, .interrupt 0x1E, .poll, .interrupt 0x9E, .poll, .interrupt 0x1C, .poll]

theorem typedLetter_shown :
    ∀ key ∈ ([] : List UInt8) ++ typedText false (scancodes typedLetter), key ≠ 10 ∧ key ≠ 9 := by
  have htext : typedText false (scancodes typedLetter) = [97, 13] := rfl
  rw [htext]
  exact List.forall_mem_cons.mpr ⟨by decide, List.forall_mem_singleton.mpr (by decide)⟩

theorem typing_reaches_line_letter :
    ∃ keys s', consoleRun typedLetter oneKeyboard = .ok (keys, s') ∧
    ∃ typed rest unread, [] ++ typedText false (scancodes typedLetter) = typed ++ rest ++ unread ∧
      pressed keys = typed ++ rest ∧
      (∃ kb, s'.scheduler.keyboardOf 1 = some kb ∧ kb.Queue unread) ∧ Folded 80 [] typed ∧
      let line := typed.foldl editLine []
      let read := boiosTerminalReadline (fun _ => 0) (80 : Nat) true keys
      (read.1 = true ↔ line.length = 80 - 1 ∨ rest.head? = some 13) ∧
      (read.1 = true → Stored read.2.out line) ∧ (read.1 = false → rest = []) ∧
      ∃ reach ≤ 80 * 25, (⟨fun _ => 0, 0, 0, []⟩ : Terminal).ShowsLine
        (writeAll ⟨fun _ => 0, 0, 0, []⟩ (read.2.printed.map (·, 15))) 0 reach
        (withBlock 80 line) :=
  typing_reaches_line (d := ⟨false, []⟩) (by decide) oneKeyboard_represents typedLetter (by decide)
    ⟨by decide, by decide, by decide, trivial⟩ (by decide) _ ⟨rfl, by decide⟩ typedLetter_shown
    (linesFit_of_length (by decide))

end BoiOS
