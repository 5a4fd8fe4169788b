import BoiOS.Machine.Strings
import Mathlib.Algebra.Group.Even
import Mathlib.Algebra.Group.Nat.Even
import Mathlib.Data.List.Infix

/-! The line reader of the programs, `boios_terminal_readline` of stdlib/src/boios.c. What
`boios_getkey` gives is a list: zero as long as no key was pressed. When the list ends, the reader
goes on waiting. -/
namespace BoiOS

structure ReadLine where
  out : Int → UInt8
  i : Int
  printed : List UInt8
  /-- The index of every store. -/
  written : List Int

def ReadLine.putchar (s : ReadLine) (c : UInt8) : ReadLine := { s with printed := s.printed ++ [c] }

def ReadLine.store (s : ReadLine) (index : Int) (c : UInt8) : ReadLine :=
  { s with out := Function.update s.out index c, written := index :: s.written }

def boiosGetkeyblock : List UInt8 → Option (UInt8 × List UInt8)
  | [] => none
  | val :: keys => if val = 0 then boiosGetkeyblock keys else some (val, keys)

theorem boiosGetkeyblock_length {keys rest : List UInt8} {key : UInt8}
    (h : boiosGetkeyblock keys = some (key, rest)) : rest.length < keys.length := by
  induction keys with
  | nil => cases h
  | cons val keys ih =>
    rw [boiosGetkeyblock] at h
    split at h
    · exact Nat.lt_succ_of_lt (ih h)
    · cases h
      exact Nat.lt_succ_self _

def readlineKey (outputWhileTyping : Bool) (s : ReadLine) (key : UInt8) : ReadLine :=
  let s := if outputWhileTyping then s.putchar 8 else s
  if outputWhileTyping ∧ key = 8 ∧ s.i = 0 then { s with i := s.i - 1 }
  else
    let s := if outputWhileTyping then s.putchar key else s
    if key = 8 ∧ s.i ≥ 1 then { s.store (s.i - 1) 0 with i := s.i - 2 }
    else s.store s.i key

/-- The result says whether the reader returned. -/
def readlineLoop (max : Int) (outputWhileTyping : Bool) (keys : List UInt8) (s : ReadLine) :
    Bool × ReadLine :=
  if s.i < max - 1 then
    let s := s.putchar 179
    match _h : boiosGetkeyblock keys with
    | none => (false, s)
    | some (key, rest) =>
        if key = 13 then (true, s.store s.i 0)
        else
          let s := readlineKey outputWhileTyping s key
          readlineLoop max outputWhileTyping rest { s with i := s.i + 1 }
  else (true, s.store s.i 0)
termination_by keys.length
decreasing_by exact boiosGetkeyblock_length _h

def boiosTerminalReadline (out : Int → UInt8) (max : Int) (outputWhileTyping : Bool)
    (keys : List UInt8) : Bool × ReadLine :=
  readlineLoop max outputWhileTyping keys ⟨out, 0, [], []⟩

/-! The line that is typed. -/

/-- A backspace takes the last character away, another key is appended. -/
def editLine (line : List UInt8) (key : UInt8) : List UInt8 :=
  if key = 8 then line.dropLast else line ++ [key]

/-- What the reader does without output: a backspace on the empty line is a character. -/
def editSilent (line : List UInt8) (key : UInt8) : List UInt8 :=
  if key = 8 ∧ line ≠ [] then line.dropLast else line ++ [key]

def pressed (keys : List UInt8) : List UInt8 := keys.filter (· ≠ 0)

/-- Every key was read into the line: none is Enter, and the line had room before each. -/
def Folded (max : Nat) (line typed : List UInt8) : Prop :=
  ∀ before key, before ++ [key] <+: typed →
    key ≠ 13 ∧ (before.foldl editLine line).length + 1 < max

/-- The backspaces that are typed while the line is empty. -/
def strays : (line typed : List UInt8) → Nat
  | _, [] => 0
  | line, key :: typed =>
      (if key = 8 ∧ line = [] then 1 else 0) + strays (editLine line key) typed

def typedLine (edit : List UInt8 → UInt8 → List UInt8) (max : Nat) (line : List UInt8) :
    List UInt8 → Bool × List UInt8
  | [] => (decide (max ≤ line.length + 1), line)
  | key :: keys =>
      if max ≤ line.length + 1 ∨ key = 13 then (true, line)
      else typedLine edit max (edit line key) keys

/-! The reader against the line. -/

structure ReadLine.Holds (s : ReadLine) (text : List UInt8) : Prop where
  index : s.i = text.length
  chars : ∀ k (hk : k < text.length), s.out k = text[k]

/-- No index outside of the first `max` was written. -/
def ReadLine.Inside (s : ReadLine) (max : Nat) : Prop := ∀ index ∈ s.written, 0 ≤ index ∧ index < max

variable {s : ReadLine} {line : List UInt8} {max : Nat}

theorem ReadLine.Inside.store (h : s.Inside max) {index : Int} (hlow : 0 ≤ index)
    (hhigh : index < max) (c : UInt8) : (s.store index c).Inside max := by
  intro k hk
  obtain rfl | hk := List.mem_cons.mp hk
  · exact ⟨hlow, hhigh⟩
  · exact h k hk

theorem ReadLine.Holds.finish (h : s.Holds line) : Stored (s.store s.i 0).out line := by
  have hi := h.index
  refine ⟨fun k hk => ?_, ?_⟩
  · exact (Function.update_of_ne (by omega) _ _).trans (h.chars k hk)
  · rw [← hi]
    exact Function.update_self _ _ _

theorem ReadLine.Holds.append (h : s.Holds line) (c : UInt8) :
    ReadLine.Holds { s.store s.i c with i := s.i + 1 } (line ++ [c]) := by
  have hi := h.index
  refine ⟨?_, fun k hk => ?_⟩
  · rw [List.length_append, List.length_singleton]
    dsimp only
    omega
  · rw [List.length_append, List.length_singleton] at hk
    by_cases hlast : k < line.length
    · rw [List.getElem_append_left hlast]
      exact (Function.update_of_ne (by omega) _ _).trans (h.chars k hlast)
    · have hk : k = line.length := by omega
      subst hk
      rw [List.getElem_concat_length rfl, ← hi]
      exact Function.update_self _ _ _

theorem ReadLine.Holds.dropLast (h : s.Holds line) (hline : line ≠ []) :
    ReadLine.Holds { s.store (s.i - 1) 0 with i := s.i - 2 + 1 } line.dropLast := by
  have hi := h.index
  have hlength := List.length_pos_iff.mpr hline
  refine ⟨?_, fun k hk => ?_⟩
  · rw [List.length_dropLast]
    dsimp only
    omega
  · rw [List.length_dropLast] at hk
    rw [List.getElem_dropLast]
    exact (Function.update_of_ne (by omega) _ _).trans (h.chars k (by omega))

def edit (outputWhileTyping : Bool) : List UInt8 → UInt8 → List UInt8 :=
  if outputWhileTyping then editLine else editSilent

structure ReadLine.Keeps (s : ReadLine) (max : Nat) (line : List UInt8) : Prop where
  holds : s.Holds line
  inside : s.Inside max
  length : line.length < max

theorem ReadLine.Keeps.putchar (h : s.Keeps max line) (c : UInt8) : (s.putchar c).Keeps max line :=
  ⟨⟨h.holds.index, h.holds.chars⟩, h.inside, h.length⟩

theorem ReadLine.Keeps.append (h : s.Keeps max line) (hroom : line.length + 1 < max) (c : UInt8) :
    ReadLine.Keeps { s.store s.i c with i := s.i + 1 } max (line ++ [c]) := by
  have hi := h.holds.index
  refine ⟨h.holds.append c, ReadLine.Inside.store h.inside (by omega) (by omega) c, ?_⟩
  rw [List.length_append, List.length_singleton]
  exact hroom

theorem ReadLine.Keeps.dropLast (h : s.Keeps max line) (hline : line ≠ []) :
    ReadLine.Keeps { s.store (s.i - 1) 0 with i := s.i - 2 + 1 } max line.dropLast := by
  have hi := h.holds.index
  have hlength := List.length_pos_iff.mpr hline
  have hmax := h.length
  refine ⟨h.holds.dropLast hline, ReadLine.Inside.store h.inside (by omega) (by omega) 0, ?_⟩
  rw [List.length_dropLast]
  omega

theorem ReadLine.Keeps.stored (h : s.Keeps max line) :
    Stored (s.store s.i 0).out line ∧ (s.store s.i 0).Inside max := by
  have hi := h.holds.index
  have hmax := h.length
  exact ⟨h.holds.finish, h.inside.store (by omega) (by omega) 0⟩

theorem ReadLine.Keeps.room (h : s.Keeps max line) :
    s.i < (max : Int) - 1 ↔ line.length + 1 < max := by
  have hi := h.holds.index
  omega

theorem readlineKey_keeps (h : s.Keeps max line) (hroom : line.length + 1 < max)
    (outputWhileTyping : Bool) (key : UInt8) :
    ReadLine.Keeps { readlineKey outputWhileTyping s key with
      i := (readlineKey outputWhileTyping s key).i + 1 } max (edit outputWhileTyping line key) := by
  have hi := h.holds.index
  have hempty : s.i = 0 ↔ line = [] := by
    rw [← List.length_eq_zero_iff]
    omega
  have hsome : s.i ≥ 1 ↔ line ≠ [] := by
    rw [← List.length_pos_iff]
    omega
  cases outputWhileTyping with
  | true =>
    change ReadLine.Keeps _ max (editLine line key)
    unfold readlineKey editLine
    simp only [if_true, true_and]
    by_cases hkey : key = 8
    · by_cases hline : line = []
      · have hhome : (s.putchar 8).i = 0 := hempty.mpr hline
        rw [if_pos ⟨hkey, hhome⟩, if_pos hkey]
        subst hline
        refine ⟨⟨?_, fun k hk => absurd hk (Nat.not_lt_zero k)⟩, h.inside, h.length⟩
        have hstart : s.i = 0 := hempty.mpr rfl
        change s.i - 1 + 1 = 0
        omega
      · have hhome : ¬ (key = 8 ∧ (s.putchar 8).i = 0) := fun hboth => hline (hempty.mp hboth.2)
        rw [if_neg hhome, if_pos hkey, if_pos ⟨hkey, hsome.mpr hline⟩]
        exact ((h.putchar 8).putchar key).dropLast hline
    · rw [if_neg (fun hboth => hkey hboth.1), if_neg hkey, if_neg (fun hboth => hkey hboth.1)]
      exact ((h.putchar 8).putchar key).append hroom key
  | false =>
    change ReadLine.Keeps _ max (editSilent line key)
    unfold readlineKey editSilent
    simp only [Bool.false_eq_true, if_false, false_and]
    by_cases herase : key = 8 ∧ line ≠ []
    · rw [if_pos herase, if_pos ⟨herase.1, hsome.mpr herase.2⟩]
      exact h.dropLast herase.2
    · rw [if_neg herase, if_neg (fun hboth => herase ⟨hboth.1, hsome.mp hboth.2⟩)]
      exact h.append hroom key

theorem readlineLoop_zero (outputWhileTyping : Bool) (keys : List UInt8) :
    readlineLoop max outputWhileTyping (0 :: keys) s = readlineLoop max outputWhileTyping keys s := by
  rw [readlineLoop, readlineLoop]
  rfl

theorem readlineLoop_nil (outputWhileTyping : Bool) : readlineLoop max outputWhileTyping [] s =
    if s.i < max - 1 then (false, s.putchar 179) else (true, s.store s.i 0) := by
  rw [readlineLoop]
  rfl

theorem readlineLoop_cons (outputWhileTyping : Bool) {key : UInt8} (hkey : key ≠ 0)
    (keys : List UInt8) : readlineLoop max outputWhileTyping (key :: keys) s =
      if s.i < max - 1 then
        if key = 13 then (true, (s.putchar 179).store s.i 0)
        else
          let s := readlineKey outputWhileTyping (s.putchar 179) key
          readlineLoop max outputWhileTyping keys { s with i := s.i + 1 }
      else (true, s.store s.i 0) := by
  have hget : boiosGetkeyblock (key :: keys) = some (key, keys) := if_neg hkey
  rw [readlineLoop]
  split
  · dsimp only
    split
    · next hnone =>
      rw [hget] at hnone
      cases hnone
    · next key' rest hsome =>
      rw [hget] at hsome
      cases hsome
      rfl
  · rfl

theorem readlineLoop_spec (outputWhileTyping : Bool) (keys : List UInt8) (h : s.Keeps max line) :
    let read := readlineLoop max outputWhileTyping keys s
    let typed := typedLine (edit outputWhileTyping) max line (pressed keys)
    read.1 = typed.1 ∧ read.2.Inside max ∧ (read.1 = true → Stored read.2.out typed.2) := by
  induction keys generalizing s line with
  | nil =>
    change (readlineLoop max outputWhileTyping [] s).1 = decide (max ≤ line.length + 1) ∧ _
    rw [readlineLoop_nil]
    by_cases hfull : line.length + 1 < max
    · rw [if_pos (h.room.mpr hfull), decide_eq_false (Nat.not_le.mpr hfull)]
      exact ⟨rfl, (h.putchar 179).inside, fun hread => absurd hread Bool.false_ne_true⟩
    · rw [if_neg (mt h.room.mp hfull), decide_eq_true (Nat.not_lt.mp hfull)]
      exact ⟨rfl, h.stored.2, fun _ => h.stored.1⟩
  | cons key keys ih =>
    by_cases hzero : key = 0
    · subst hzero
      rw [readlineLoop_zero]
      exact ih h
    · have hpressed : pressed (key :: keys) = key :: pressed keys :=
        List.filter_cons_of_pos (by simpa using hzero)
      rw [readlineLoop_cons outputWhileTyping hzero, hpressed, typedLine]
      by_cases hfull : line.length + 1 < max
      · rw [if_pos (h.room.mpr hfull)]
        by_cases henter : key = 13
        · rw [if_pos henter, if_pos (Or.inr henter)]
          exact ⟨rfl, (h.putchar 179).stored.2, fun _ => (h.putchar 179).stored.1⟩
        · rw [if_neg henter, if_neg (not_or.mpr ⟨Nat.not_le.mpr hfull, henter⟩)]
          exact ih (readlineKey_keeps (h.putchar 179) hfull outputWhileTyping key)
      · rw [if_neg (mt h.room.mp hfull), if_pos (Or.inl (Nat.not_lt.mp hfull))]
        exact ⟨rfl, h.stored.2, fun _ => h.stored.1⟩

theorem boiosTerminalReadline_spec (hmax : 0 < max) (outputWhileTyping : Bool) (out : Int → UInt8)
    (keys : List UInt8) :
    let read := boiosTerminalReadline out max outputWhileTyping keys
    let typed := typedLine (edit outputWhileTyping) max [] (pressed keys)
    read.1 = typed.1 ∧ read.2.Inside max ∧ (read.1 = true → Stored read.2.out typed.2) :=
  readlineLoop_spec outputWhileTyping keys
    ⟨⟨rfl, fun k hk => absurd hk (Nat.not_lt_zero k)⟩,
      fun _ hindex => absurd hindex List.not_mem_nil, hmax⟩

/-! The keys that are folded. -/

theorem folded_nil : Folded max line [] := by
  intro before key hprefix
  have hlength := hprefix.length_le
  simp at hlength

theorem folded_cons {key : UInt8} {typed : List UInt8} : Folded max line (key :: typed) ↔
    key ≠ 13 ∧ line.length + 1 < max ∧ Folded max (editLine line key) typed := by
  constructor
  · intro h
    obtain ⟨henter, hroom⟩ := h [] key (List.prefix_append [key] typed)
    exact ⟨henter, hroom, fun before next hprefix =>
      h (key :: before) next (List.cons_prefix_cons.mpr ⟨rfl, hprefix⟩)⟩
  · rintro ⟨henter, hroom, hrest⟩ before next hprefix
    cases before with
    | nil =>
      obtain ⟨rfl, -⟩ := List.cons_prefix_cons.mp hprefix
      exact ⟨henter, hroom⟩
    | cons first before =>
      obtain ⟨rfl, htail⟩ := List.cons_prefix_cons.mp hprefix
      exact hrest before next htail

theorem typedLine_folds (line keys : List UInt8) (hline : line.length < max) :
    ∃ typed rest, keys = typed ++ rest ∧ Folded max line typed ∧
      (typedLine editLine max line keys).2 = typed.foldl editLine line ∧
      (typed.foldl editLine line).length < max ∧
      ((typedLine editLine max line keys).1 = true ↔
        (typed.foldl editLine line).length + 1 = max ∨ rest.head? = some 13) ∧
      ((typedLine editLine max line keys).1 = false → rest = []) := by
  induction keys generalizing line with
  | nil =>
    refine ⟨[], [], rfl, folded_nil, rfl, hline, ?_, fun _ => rfl⟩
    simp [typedLine]
    omega
  | cons key keys ih =>
    rw [typedLine]
    by_cases hstop : max ≤ line.length + 1 ∨ key = 13
    · rw [if_pos hstop]
      refine ⟨[], key :: keys, rfl, folded_nil, rfl, hline, ⟨fun _ => ?_, fun _ => rfl⟩,
        fun hwait => absurd hwait.symm Bool.false_ne_true⟩
      rcases hstop with hfull | henter
      · exact .inl (Nat.le_antisymm hline hfull)
      · exact .inr (congrArg some henter)
    · rw [if_neg hstop]
      obtain ⟨hroom, henter⟩ := not_or.mp hstop
      have hnext : (editLine line key).length < max := by
        unfold editLine
        split
        · rw [List.length_dropLast]
          omega
        · rw [List.length_append, List.length_singleton]
          omega
      obtain ⟨typed, rest, rfl, hfolded, hrest⟩ := ih _ hnext
      exact ⟨key :: typed, rest, rfl, folded_cons.mpr ⟨henter, by omega, hfolded⟩, hrest⟩

/-- With output, the buffer gets the fold of the keys that are pressed, up to the first Enter or up to
the key that fills the line. -/
theorem readline_folds_keys (hmax : 2 ≤ max) (out : Int → UInt8) (keys : List UInt8) :
    let read := boiosTerminalReadline out max true keys
    (∀ index ∈ read.2.written, 0 ≤ index ∧ index ≤ (max : Int) - 1) ∧
    ∃ typed rest, pressed keys = typed ++ rest ∧ Folded max [] typed ∧
      let line := typed.foldl editLine []
      line.length ≤ max - 1 ∧
      (read.1 = true ↔ line.length = max - 1 ∨ rest.head? = some 13) ∧
      (read.1 = true → Stored read.2.out line) ∧ (read.1 = false → rest = []) := by
  intro read
  obtain ⟨hends, hinside, hstored⟩ := boiosTerminalReadline_spec
    (Nat.lt_of_lt_of_le Nat.zero_lt_two hmax) true out keys
  obtain ⟨typed, rest, hkeys, hfolded, hline, hlength, hend, hwait⟩ :=
    typedLine_folds [] (pressed keys) (Nat.lt_of_lt_of_le Nat.zero_lt_two hmax)
  refine ⟨fun index hindex => ?_, typed, rest, hkeys, hfolded, by omega, ?_, fun hread => ?_,
    fun hread => ?_⟩
  · have hbounds := hinside index hindex
    omega
  · rw [hends]
    refine hend.trans (or_congr ?_ Iff.rfl)
    omega
  · rw [← hline]
    exact hstored hread
  · exact hwait (hends.symm.trans hread)

theorem readline_folds_keys_three :
    let read := boiosTerminalReadline (fun _ => 0) 4 true [97, 8, 98, 0, 99, 100]
    (∀ index ∈ read.2.written, 0 ≤ index ∧ index ≤ 3) ∧
    ∃ typed rest, pressed [97, 8, 98, 0, 99, 100] = typed ++ rest ∧
      (read.1 = true → Stored read.2.out (typed.foldl editLine [])) := by
  obtain ⟨hinside, typed, rest, hkeys, -, -, -, hstored, -⟩ :=
    readline_folds_keys (show 2 ≤ 4 by decide) (fun _ => 0) [97, 8, 98, 0, 99, 100]
  exact ⟨hinside, typed, rest, hkeys, hstored⟩

/-! With and without output. -/

def finished (typed : Bool × List UInt8) : Option (List UInt8) := if typed.1 then some typed.2 else none

def lineRead (max : Nat) (read : Bool × ReadLine) : Option (List UInt8) :=
  finished (read.1, cString ((List.range max).map fun k : Nat => read.2.out k))

theorem edit_cases (outputWhileTyping : Bool) (line : List UInt8) (key : UInt8) :
    edit outputWhileTyping line key = line.dropLast ∨ edit outputWhileTyping line key = line ++ [key] := by
  cases outputWhileTyping with
  | true => exact (em (key = 8)).imp (fun h => if_pos h) fun h => if_neg h
  | false => exact (em (key = 8 ∧ line ≠ [])).imp (fun h => if_pos h) fun h => if_neg h

theorem edit_length (outputWhileTyping : Bool) (line : List UInt8) (key : UInt8) :
    (edit outputWhileTyping line key).length ≤ line.length + 1 := by
  obtain hdrop | happend := edit_cases outputWhileTyping line key
  · rw [hdrop, List.length_dropLast]
    omega
  · rw [happend, List.length_append, List.length_singleton]

theorem edit_nonzero (outputWhileTyping : Bool) {line : List UInt8} {key : UInt8} (hline : 0 ∉ line)
    (hkey : key ≠ 0) : 0 ∉ edit outputWhileTyping line key := by
  obtain hdrop | happend := edit_cases outputWhileTyping line key
  · rw [hdrop]
    exact fun hzero => hline (List.dropLast_subset line hzero)
  · rw [happend]
    simpa using ⟨hline, hkey.symm⟩

theorem editLine_no_backspace {line : List UInt8} (hline : 8 ∉ line) (key : UInt8) :
    8 ∉ editLine line key := by
  unfold editLine
  split
  · exact fun hmem => hline (List.dropLast_subset line hmem)
  · next hkey => simpa using ⟨hline, Ne.symm hkey⟩

theorem typedLine_bounds (outputWhileTyping : Bool) {line keys : List UInt8}
    (hlength : line.length < max) (hline : 0 ∉ line) (hkeys : 0 ∉ keys) :
    (typedLine (edit outputWhileTyping) max line keys).2.length < max ∧
      0 ∉ (typedLine (edit outputWhileTyping) max line keys).2 := by
  induction keys generalizing line with
  | nil => exact ⟨hlength, hline⟩
  | cons key keys ih =>
    obtain ⟨hkey, hrest⟩ := not_or.mp (mt List.mem_cons.mpr hkeys)
    rw [typedLine]
    split
    · exact ⟨hlength, hline⟩
    · next hstop =>
      have hgrown := edit_length outputWhileTyping line key
      exact ih (by omega) (edit_nonzero outputWhileTyping hline (Ne.symm hkey)) hrest

theorem lineRead_eq (hmax : 0 < max) (outputWhileTyping : Bool) (out : Int → UInt8)
    (keys : List UInt8) : lineRead max (boiosTerminalReadline out max outputWhileTyping keys) =
      finished (typedLine (edit outputWhileTyping) max [] (pressed keys)) := by
  have hkeys : 0 ∉ pressed keys := by simp [pressed]
  obtain ⟨hends, -, hstored⟩ := boiosTerminalReadline_spec hmax outputWhileTyping out keys
  obtain ⟨hlength, hzero⟩ := typedLine_bounds outputWhileTyping
    (show ([] : List UInt8).length < max from hmax) List.not_mem_nil hkeys
  unfold lineRead finished
  rw [hends] at hstored ⊢
  split
  · next hend => rw [(hstored hend).cString_eq hzero hlength]
  · rfl

/-- Every backspace typed on the empty line is paired with a second one before the line has all but
one of its characters and before Enter is pressed. `count` backspaces came before. -/
def Paired (max count : Nat) (line keys : List UInt8) : Prop :=
  ∀ typed, typed <+: keys → Folded max line typed →
    Even (count + strays line typed) ∨
      (typed.foldl editLine line).length + 2 ≠ max ∧ ¬ typed ++ [13] <+: keys

theorem paired_nil {count : Nat} :
    Paired max count line [] ↔ Even count ∨ line.length + 2 ≠ max := by
  constructor
  · intro h
    exact (h [] (List.prefix_refl []) folded_nil).imp id And.left
  · rintro h typed hprefix -
    obtain rfl := List.prefix_nil.mp hprefix
    exact h.imp id fun hroom => ⟨hroom, fun henter => absurd (List.prefix_nil.mp henter) (by simp)⟩

theorem paired_stop {count : Nat} {key : UInt8} {keys : List UInt8}
    (hstop : max ≤ line.length + 1 ∨ key = 13) : Paired max count line (key :: keys) ↔
      Even count ∨ line.length + 2 ≠ max ∧ key ≠ 13 := by
  have henter : [13] <+: key :: keys ↔ key = 13 := by
    constructor
    · exact fun h => (List.cons_prefix_cons.mp h).1.symm
    · rintro rfl
      exact List.prefix_append [13] keys
  constructor
  · intro h
    exact (h [] List.nil_prefix folded_nil).imp id fun h => ⟨h.1, fun hkey => h.2 (henter.mpr hkey)⟩
  · rintro h typed hprefix hfolded
    cases typed with
    | nil => exact h.imp id fun h => ⟨h.1, fun hkey => h.2 (henter.mp hkey)⟩
    | cons first typed =>
      obtain ⟨rfl, -⟩ := List.cons_prefix_cons.mp hprefix
      obtain ⟨hkey, hroom, -⟩ := folded_cons.mp hfolded
      rcases hstop with hfull | hstop
      · omega
      · exact absurd hstop hkey

theorem paired_cons {count : Nat} {key : UInt8} {keys : List UInt8}
    (hroom : line.length + 1 < max) (henter : key ≠ 13) : Paired max count line (key :: keys) ↔
      (Even count ∨ line.length + 2 ≠ max) ∧
        Paired max (count + if key = 8 ∧ line = [] then 1 else 0) (editLine line key) keys := by
  constructor
  · intro h
    refine ⟨(h [] List.nil_prefix folded_nil).imp id And.left, fun typed hprefix hfolded => ?_⟩
    have hnext := h (key :: typed) (List.cons_prefix_cons.mpr ⟨rfl, hprefix⟩)
      (folded_cons.mpr ⟨henter, hroom, hfolded⟩)
    rw [strays, ← Nat.add_assoc] at hnext
    exact hnext.imp id fun h => ⟨h.1, fun htail => h.2 (List.cons_prefix_cons.mpr ⟨rfl, htail⟩)⟩
  · rintro ⟨hhere, hrest⟩ typed hprefix hfolded
    cases typed with
    | nil =>
      exact hhere.imp id fun h => ⟨h, fun hpressed =>
        henter (List.cons_prefix_cons.mp hpressed).1.symm⟩
    | cons first typed =>
      obtain ⟨rfl, htail⟩ := List.cons_prefix_cons.mp hprefix
      obtain ⟨-, -, hfolded⟩ := folded_cons.mp hfolded
      have hnext := hrest typed htail hfolded
      rw [strays, ← Nat.add_assoc]
      exact hnext.imp id fun h => ⟨h.1, fun hpressed => h.2 (List.cons_prefix_cons.mp hpressed).2⟩

theorem typedLine_no_backspace {line : List UInt8} (hline : 8 ∉ line) (keys : List UInt8) :
    8 ∉ (typedLine editLine max line keys).2 := by
  induction keys generalizing line with
  | nil => exact hline
  | cons key keys ih =>
    rw [typedLine]
    split
    · exact hline
    · exact ih (editLine_no_backspace hline key)

def silentLine (count : Nat) (line : List UInt8) : List UInt8 :=
  if Even count then line else 8 :: line

theorem silentLine_edit (count : Nat) (line : List UInt8) (key : UInt8) :
    editSilent (silentLine count line) key =
      silentLine (count + if key = 8 ∧ line = [] then 1 else 0) (editLine line key) := by
  unfold editSilent editLine silentLine
  by_cases hkey : key = 8
  · by_cases hline : line = []
    · subst hkey hline
      by_cases heven : Even count
      · simp [heven, Nat.even_add_one]
      · simp [heven, Nat.even_add_one]
    · by_cases heven : Even count
      · simp [hkey, hline, heven]
      · simp [hkey, hline, heven, List.dropLast_cons_of_ne_nil hline]
  · by_cases heven : Even count
    · simp [hkey, heven]
    · simp [hkey, heven]

theorem silentLine_even {count : Nat} (h : Even count) (line : List UInt8) :
    silentLine count line = line := if_pos h

theorem silentLine_odd {count : Nat} (h : ¬ Even count) (line : List UInt8) :
    silentLine count line = 8 :: line := if_neg h

theorem typedLine_ne_backspace {line : List UInt8} (hline : 8 ∉ line) (keys other : List UInt8) :
    finished (typedLine editLine max line keys) ≠ some (8 :: other) := by
  unfold finished
  split
  · intro hsame
    have hmem : 8 ∉ (typedLine editLine max line keys).2 := typedLine_no_backspace hline keys
    rw [Option.some.inj hsame] at hmem
    exact hmem List.mem_cons_self
  · exact (Option.some_ne_none _).symm

theorem typedLine_agree_iff {count : Nat} {line keys : List UInt8} (hline : 8 ∉ line)
    (hlength : (silentLine count line).length < max) :
    finished (typedLine editLine max line keys) =
      finished (typedLine editSilent max (silentLine count line) keys) ↔
    Paired max count line keys := by
  induction keys generalizing line count with
  | nil =>
    rw [paired_nil]
    by_cases hcount : Even count
    · rw [silentLine_even hcount]
      exact iff_of_true rfl (.inl hcount)
    · rw [silentLine_odd hcount, List.length_cons] at hlength
      rw [silentLine_odd hcount, or_iff_right hcount]
      have hwaits : finished (typedLine editLine max line []) = none :=
        if_neg (by simpa [typedLine] using hlength)
      rw [hwaits]
      unfold finished typedLine
      rw [List.length_cons]
      by_cases hfull : max ≤ line.length + 1 + 1
      · simp [hfull]
        omega
      · simp [hfull]
        omega
  | cons key keys ih =>
    by_cases hstop : max ≤ line.length + 1 ∨ key = 13
    · rw [paired_stop hstop, typedLine, if_pos hstop]
      by_cases hcount : Even count
      · rw [silentLine_even hcount, typedLine, if_pos hstop]
        exact iff_of_true rfl (.inl hcount)
      · rw [silentLine_odd hcount, List.length_cons] at hlength
        have henter : key = 13 := hstop.resolve_left (Nat.not_le.mpr hlength)
        rw [silentLine_odd hcount, typedLine, if_pos (Or.inr henter)]
        refine iff_of_false (fun hsame => ?_) (not_or.mpr ⟨hcount, fun h => h.2 henter⟩)
        exact absurd (Option.some.inj hsame) List.ne_cons_self
    · obtain ⟨hroom, henter⟩ := not_or.mp hstop
      rw [paired_cons (Nat.not_le.mp hroom) henter, typedLine, if_neg hstop]
      by_cases hfull : max ≤ (silentLine count line).length + 1
      · have hcount : ¬ Even count := fun heven => hroom (silentLine_even heven line ▸ hfull)
        have hsilent : finished (typedLine editSilent max (silentLine count line) (key :: keys)) =
            some (silentLine count line) := by
          rw [typedLine, if_pos (Or.inl hfull)]
          rfl
        rw [silentLine_odd hcount, List.length_cons] at hlength hfull
        rw [hsilent, silentLine_odd hcount]
        refine iff_of_false (typedLine_ne_backspace (editLine_no_backspace hline key) keys line) ?_
        rintro ⟨heven | hroom', -⟩
        · exact hcount heven
        · omega
      · have hsilent : typedLine editSilent max (silentLine count line) (key :: keys) =
            typedLine editSilent max (editSilent (silentLine count line) key) keys :=
          if_neg (not_or.mpr ⟨hfull, henter⟩)
        have hgrown := edit_length false (silentLine count line) key
        have hnext : (editSilent (silentLine count line) key).length < max := by
          change (editSilent (silentLine count line) key).length ≤ _ at hgrown
          omega
        rw [silentLine_edit] at hsilent hnext
        rw [hsilent, ih (editLine_no_backspace hline key) hnext]
        refine (and_iff_right ?_).symm
        by_cases hcount : Even count
        · exact .inl hcount
        · rw [silentLine_odd hcount, List.length_cons] at hfull
          exact .inr (by omega)

/-- The reader stores the same line with and without output exactly if the backspaces that are typed on
the empty line are paired: without output the first one of a pair is a character of the line. -/
theorem readline_output_iff (hmax : 2 ≤ max) (out out' : Int → UInt8) (keys : List UInt8) :
    lineRead max (boiosTerminalReadline out max true keys) =
      lineRead max (boiosTerminalReadline out' max false keys) ↔
    ∀ typed, typed <+: pressed keys → Folded max [] typed →
      Even (strays [] typed) ∨
        (typed.foldl editLine []).length + 2 ≠ max ∧ ¬ typed ++ [13] <+: pressed keys := by
  have hpositive : 0 < max := Nat.lt_of_lt_of_le Nat.zero_lt_two hmax
  rw [lineRead_eq hpositive, lineRead_eq hpositive]
  have hagree : finished (typedLine editLine max [] (pressed keys)) =
      finished (typedLine editSilent max (silentLine 0 []) (pressed keys)) ↔
        Paired max 0 [] (pressed keys) := typedLine_agree_iff List.not_mem_nil hpositive
  rw [silentLine_even Even.zero] at hagree
  unfold Paired at hagree
  simp only [Nat.zero_add] at hagree
  exact hagree

theorem readline_output_iff_correction :
    lineRead 80 (boiosTerminalReadline (fun _ => 0) 80 true [97, 0, 8, 98, 13]) =
      lineRead 80 (boiosTerminalReadline (fun _ => 0) 80 false [97, 0, 8, 98, 13]) := by
  have hpairs : ∀ typed ∈ (pressed [97, 0, 8, 98, 13]).inits, Even (strays [] typed) := by decide
  refine (readline_output_iff (by decide) (fun _ => 0) (fun _ => 0) [97, 0, 8, 98, 13]).mpr ?_
  exact fun typed hprefix _ => .inl (hpairs typed ((List.mem_inits typed _).mpr hprefix))

theorem readline_output_differs : ¬ ∀ (max : Nat) (out : Int → UInt8) (keys : List UInt8), 2 ≤ max →
    lineRead max (boiosTerminalReadline out max true keys) =
      lineRead max (boiosTerminalReadline out max false keys) := by
  intro hall
  have hsame := hall 80 (fun _ => 0) [8, 97, 13] (by decide)
  rw [lineRead_eq (by decide), lineRead_eq (by decide)] at hsame
  exact absurd hsame (by decide)

end BoiOS
