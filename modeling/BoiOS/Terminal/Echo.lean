import BoiOS.Programs.ReadLine
import BoiOS.Terminal.Terminal

/-! What is on the screen while a line is typed. The reader keeps a block behind the line, and takes
it away for as long as it takes to write a character or to erase one; what it writes goes to the
terminal through a system call of its own. -/
namespace BoiOS

/-- Characters are shown from a place on, the cells from there to `reach` are blank, and all others
are as they were. -/
structure Terminal.ShowsLine (t t' : Terminal) (place reach : Nat) (text : List UInt8) : Prop where
  cursor : t'.At (place + text.length)
  covers : place + text.length ≤ reach
  shown : ∀ i (hi : i < text.length), t'.videoMem (place + i) = terminalMakeChar text[i] 15
  blank : ∀ cell, place + text.length ≤ cell → cell < reach →
    t'.videoMem cell = terminalMakeChar 32 15
  other : ∀ cell, cell < place ∨ reach ≤ cell → t'.videoMem cell = t.videoMem cell

variable {t t' : Terminal} {place reach : Nat} {line : List UInt8}

theorem Terminal.ShowsLine.start (h : t.At place) : t.ShowsLine t place place [] :=
  ⟨h, Nat.le_refl place, fun i hi => absurd hi (Nat.not_lt_zero i),
    fun _ hlow hhigh => absurd hhigh (Nat.not_lt.mpr hlow), fun _ _ => rfl⟩

theorem Terminal.ShowsLine.write (h : t.ShowsLine t' place reach line) {c : UInt8} (hc : Plain c)
    (hmax : place + line.length < maxPlace) :
    t.ShowsLine (terminalWritechar t' c 15) place (max reach (place + line.length + 1))
      (line ++ [c]) := by
  have hput := terminalWritechar_plain 15 h.cursor hmax hc
  have hcovers := h.covers
  have hlength : (line ++ [c]).length = line.length + 1 := List.length_append
  refine ⟨?_, by omega, fun i hi => ?_, fun cell hlow hhigh => ?_, fun cell hout => ?_⟩
  · rw [hlength]
    exact hput.cursor
  · rw [hput.videoMem]
    by_cases hlast : i < line.length
    · rw [Function.update_of_ne (by omega), List.getElem_append_left hlast]
      exact h.shown i hlast
    · obtain rfl : i = line.length := by omega
      rw [Function.update_self, List.getElem_concat_length rfl]
  · rw [hput.videoMem, Function.update_of_ne (by omega)]
    exact h.blank cell (by omega) (by omega)
  · rw [hput.videoMem, Function.update_of_ne (by omega)]
    exact h.other cell (by omega)

theorem Terminal.ShowsLine.erase {c : UInt8} (h : t.ShowsLine t' place reach (line ++ [c]))
    (hmax : place + line.length < maxPlace) :
    t.ShowsLine (terminalWritechar t' 8 15) place reach line := by
  have hlength : (line ++ [c]).length = line.length + 1 := List.length_append
  have hcursor := h.cursor
  have hcovers := h.covers
  rw [hlength, ← Nat.add_assoc] at hcursor
  have hput := terminalWritechar_backspace 15 hcursor hmax
  refine ⟨hput.cursor, by omega, fun i hi => ?_, fun cell hlow hhigh => ?_, fun cell hout => ?_⟩
  · rw [hput.videoMem, Function.update_of_ne (by omega), h.shown i (by omega),
      List.getElem_append_left hi]
  · rw [hput.videoMem]
    by_cases hcell : cell = place + line.length
    · rw [hcell, Function.update_self]
    · rw [Function.update_of_ne hcell]
      exact h.blank cell (by omega) hhigh
  · rw [hput.videoMem, Function.update_of_ne (by omega)]
    exact h.other cell hout

/-! The reader. -/

def ReadLine.screen (s : ReadLine) (t : Terminal) : Terminal := writeAll t (s.printed.map (·, 15))

variable {s : ReadLine} {max : Nat}

theorem ReadLine.screen_putchar (s : ReadLine) (c : UInt8) (t : Terminal) :
    (s.putchar c).screen t = terminalWritechar (s.screen t) c 15 := by
  unfold ReadLine.screen ReadLine.putchar
  rw [List.map_append, writeAll_append]
  rfl

theorem plain_block : Plain 179 := by
  unfold Plain
  decide

theorem readlineKey_shows (hkeeps : s.Keeps max line)
    (hshows : t.ShowsLine (s.screen t) place reach (line ++ [179]))
    (hmax : place + line.length < maxPlace) {key : UInt8} (hnewline : key ≠ 10) (htab : key ≠ 9) :
    t.ShowsLine ((readlineKey true s key).screen t) place reach (editLine line key) := by
  have hi := hkeeps.holds.index
  have hcovers := hshows.covers
  rw [List.length_append, List.length_singleton] at hcovers
  have herased : t.ShowsLine ((s.putchar 8).screen t) place reach line := by
    rw [ReadLine.screen_putchar]
    exact hshows.erase hmax
  unfold readlineKey editLine
  simp only [if_true, true_and]
  by_cases hkey : key = 8
  · subst hkey
    rw [if_pos rfl]
    obtain rfl | ⟨rest, last, rfl⟩ := List.eq_nil_or_concat' line
    · have hhome : (s.putchar 8).i = 0 := hi
      rw [if_pos ⟨rfl, hhome⟩]
      exact herased
    · rw [List.length_append, List.length_singleton] at hi hmax hcovers
      have hhome : ¬ ((8 : UInt8) = 8 ∧ (s.putchar 8).i = 0) := by
        rintro ⟨-, hzero⟩
        change s.i = 0 at hzero
        omega
      have hsome : (8 : UInt8) = 8 ∧ ((s.putchar 8).putchar 8).i ≥ 1 := by
        refine ⟨rfl, ?_⟩
        change s.i ≥ 1
        omega
      rw [if_neg hhome, if_pos hsome, List.dropLast_concat]
      have hgone := herased.erase (by omega)
      rw [← ReadLine.screen_putchar] at hgone
      exact hgone
  · rw [if_neg (fun hboth => hkey hboth.1), if_neg hkey, if_neg (fun hboth => hkey hboth.1)]
    have hwritten := herased.write ⟨hnewline, htab, hkey⟩ hmax
    rw [max_eq_left (by omega), ← ReadLine.screen_putchar] at hwritten
    exact hwritten

/-- The lines on the way fit on the screen, with the block behind them. -/
def LinesFit (place max : Nat) (line typed : List UInt8) : Prop :=
  ∀ before, before <+: typed → Folded max line before →
    place + (before.foldl editLine line).length < 80 * 25

theorem LinesFit.here {typed : List UInt8} (h : LinesFit place max line typed) :
    place + line.length < 80 * 25 := h [] List.nil_prefix folded_nil

theorem LinesFit.next {key : UInt8} {typed : List UInt8}
    (h : LinesFit place max line (key :: typed)) (hkey : key ≠ 13) (hroom : line.length + 1 < max) :
    LinesFit place max (editLine line key) typed := fun before hprefix hfolded =>
  h (key :: before) (List.cons_prefix_cons.mpr ⟨rfl, hprefix⟩)
    (folded_cons.mpr ⟨hkey, hroom, hfolded⟩)

/-- The block is behind the line, unless the line has no room for another character. -/
def withBlock (max : Nat) (line : List UInt8) : List UInt8 :=
  if line.length + 1 = max then line else line ++ [179]

theorem withBlock_of_room (hroom : line.length + 1 < max) : withBlock max line = line ++ [179] :=
  if_neg (Nat.ne_of_lt hroom)

theorem withBlock_of_full (hfull : ¬ line.length + 1 < max) (hlength : line.length < max) :
    withBlock max line = line :=
  if_pos (Nat.le_antisymm hlength (Nat.not_lt.mp hfull))

theorem block_shows (hshows : t.ShowsLine (s.screen t) place reach line)
    (hhere : place + line.length < 80 * 25) :
    t.ShowsLine ((s.putchar 179).screen t) place (Nat.max reach (place + line.length + 1))
      (line ++ [179]) := by
  rw [ReadLine.screen_putchar]
  exact hshows.write plain_block (Nat.lt_trans hhere (by decide))

theorem readlineLoop_shows (keys : List UInt8) (hkeeps : s.Keeps max line)
    (hshows : t.ShowsLine (s.screen t) place reach line) (hreach : reach ≤ 80 * 25)
    (hkeys : ∀ key ∈ pressed keys, key ≠ 10 ∧ key ≠ 9)
    (hfits : LinesFit place max line (pressed keys)) :
    ∃ reach' ≤ 80 * 25, t.ShowsLine ((readlineLoop max true keys s).2.screen t) place reach'
      (withBlock max (typedLine editLine max line (pressed keys)).2) := by
  induction keys generalizing s line reach with
  | nil =>
    have hblock := block_shows hshows hfits.here
    rw [readlineLoop_nil]
    change ∃ reach' ≤ 80 * 25, t.ShowsLine _ place reach' (withBlock max line)
    by_cases hfull : line.length + 1 < max
    · rw [if_pos (hkeeps.room.mpr hfull), withBlock_of_room hfull]
      exact ⟨_, Nat.max_le.mpr ⟨hreach, hfits.here⟩, hblock⟩
    · rw [if_neg (mt hkeeps.room.mp hfull), withBlock_of_full hfull hkeeps.length]
      exact ⟨reach, hreach, hshows⟩
  | cons key keys ih =>
    by_cases hzero : key = 0
    · subst hzero
      rw [readlineLoop_zero]
      exact ih hkeeps hshows hreach hkeys hfits
    · have hpressed : pressed (key :: keys) = key :: pressed keys :=
        List.filter_cons_of_pos (by simpa using hzero)
      have hblock := block_shows hshows hfits.here
      have hreach' : Nat.max reach (place + line.length + 1) ≤ 80 * 25 :=
        Nat.max_le.mpr ⟨hreach, hfits.here⟩
      have hhere : place + line.length < maxPlace := Nat.lt_trans hfits.here (by decide)
      rw [hpressed] at hkeys hfits
      rw [readlineLoop_cons true hzero, hpressed, typedLine]
      by_cases hfull : line.length + 1 < max
      · rw [if_pos (hkeeps.room.mpr hfull)]
        by_cases henter : key = 13
        · rw [if_pos henter, if_pos (Or.inr henter), withBlock_of_room hfull]
          exact ⟨_, hreach', hblock⟩
        · rw [if_neg henter, if_neg (not_or.mpr ⟨Nat.not_le.mpr hfull, henter⟩)]
          obtain ⟨hnewline, htab⟩ := hkeys key List.mem_cons_self
          exact ih (readlineKey_keeps (hkeeps.putchar 179) hfull true key)
            (readlineKey_shows (hkeeps.putchar 179) hblock hhere hnewline htab) hreach'
            (fun key hmem => hkeys key (List.mem_cons_of_mem _ hmem)) (hfits.next henter hfull)
      · rw [if_neg (mt hkeeps.room.mp hfull), if_pos (Or.inl (Nat.not_lt.mp hfull)),
          withBlock_of_full hfull hkeeps.length]
        exact ⟨reach, hreach, hshows⟩

end BoiOS
