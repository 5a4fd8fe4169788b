import BoiOS.Library.Transition
import BoiOS.Machine.Strings

/-! The text screen of terminal/terminal.c. The video memory is written without a bound, so it is a
function on all cells: the screen is the first 80 * 25 of them. `written` is no field of the C
structure; it records the cell of every store. -/
namespace BoiOS
open Library.Transition

def vgaWidth : Nat := 80
def vgaHeight : Nat := 25

def u16 (x : Int) : Nat := (x % 65536).toNat

theorem u16_eq {x : Int} {n : Nat} (hx : x = n) (hn : n < 65536) : u16 x = n := by
  unfold u16
  omega

structure Terminal where
  videoMem : Nat → UInt16
  terminalRow : Nat
  terminalCol : Nat
  written : List Nat

/-- Both characters are signed and are widened to `int`. -/
def terminalMakeChar (c color : UInt8) : UInt16 :=
  .ofBitVec ((color.toBitVec.signExtend 32 <<< 8 ||| c.toBitVec.signExtend 32).truncate 16)

def terminalPutchar (t : Terminal) (x y : Nat) (c color : UInt8) : Terminal :=
  { t with
    videoMem := Function.update t.videoMem (y * vgaWidth + x) (terminalMakeChar c color)
    written := (y * vgaWidth + x) :: t.written }

def terminalClearRow (y : Nat) : (count x : Nat) → Terminal → Terminal
  | 0, _, t => t
  | count + 1, x, t => terminalClearRow y count (x + 1) (terminalPutchar t x y 32 0)

def terminalClearRows : (count y : Nat) → Terminal → Terminal
  | 0, _, t => t
  | count + 1, y, t => terminalClearRows count (y + 1) (terminalClearRow y vgaWidth 0 t)

/-- The terminal over what the video memory held before. -/
def terminalInitialize (videoMem : Nat → UInt16) : Terminal :=
  terminalClearRows vgaHeight 0 ⟨videoMem, 0, 0, []⟩

/-- `terminal_writechar`, over what it does with a backspace. -/
def terminalWritecharWith (backspace : Terminal → Terminal) (t : Terminal) (c color : UInt8) :
    Terminal :=
  if c = 10 then { t with terminalRow := u16 (t.terminalRow + 1), terminalCol := 0 }
  else if c = 9 then
    let t := { t with terminalCol := u16 (t.terminalCol + 4) }
    if t.terminalCol ≥ vgaWidth then
      { t with terminalRow := u16 (t.terminalRow + 1), terminalCol := 0 }
    else t
  else if c = 8 then backspace t
  else
    let t := terminalPutchar t t.terminalCol t.terminalRow c color
    let t := { t with terminalCol := u16 (t.terminalCol + 1) }
    if t.terminalCol ≥ vgaWidth then
      { t with terminalCol := 0, terminalRow := u16 (t.terminalRow + 1) }
    else t

/-- The step to the cell before, at the start of a row to the end of the row above. -/
def terminalStepBack (t : Terminal) : Terminal :=
  let t := if t.terminalCol = 0 then
      { t with terminalRow := u16 (t.terminalRow - 1), terminalCol := vgaWidth }
    else t
  { t with terminalCol := u16 (t.terminalCol - 1) }

/-- The space that it writes is no backspace, so that the two functions do not go on calling each
other. -/
def terminalBackspace (t : Terminal) : Terminal :=
  if t.terminalCol = 0 ∧ t.terminalRow = 0 then t
  else terminalStepBack (terminalWritecharWith id (terminalStepBack t) 32 15)

def terminalWritechar (t : Terminal) (c color : UInt8) : Terminal :=
  terminalWritecharWith terminalBackspace t c color

theorem terminalBackspace_eq (t : Terminal) : terminalBackspace t =
    if t.terminalCol = 0 ∧ t.terminalRow = 0 then t
    else terminalStepBack (terminalWritechar (terminalStepBack t) 32 15) := rfl

def print (t : Terminal) (str : List UInt8) : Terminal :=
  (str.take (strlen str)).foldl (fun t c => terminalWritechar t c 15) t

/-! The cursor as a place among the cells. -/

def Plain (c : UInt8) : Prop := c ≠ 10 ∧ c ≠ 9 ∧ c ≠ 8

structure Terminal.At (t : Terminal) (place : Nat) : Prop where
  place : t.terminalRow * 80 + t.terminalCol = place
  col : t.terminalCol < 80

theorem Terminal.At.coordinates {t : Terminal} {place : Nat} (h : t.At place) :
    t.terminalRow = place / 80 ∧ t.terminalCol = place % 80 := by
  have hplace := h.place
  have hcol := h.col
  omega

/-- A character was put into a cell, and the cursor is where it goes then. -/
structure Terminal.Puts (t t' : Terminal) (cell : Nat) (value : UInt16) (place : Nat) : Prop where
  cursor : t'.At place
  videoMem : t'.videoMem = Function.update t.videoMem cell value
  written : t'.written = cell :: t.written

structure Terminal.Moves (t t' : Terminal) (place : Nat) : Prop where
  cursor : t'.At place
  videoMem : t'.videoMem = t.videoMem
  written : t'.written = t.written

def nextRow (place : Nat) : Nat := (place / 80 + 1) * 80

variable {t : Terminal} {place : Nat} {c color : UInt8}

/-- The rows are counted in 16 bits. -/
def maxPlace : Nat := 5242800

theorem terminalWritecharWith_plain (backspace : Terminal → Terminal) (h : t.At place)
    (hplace : place < maxPlace) (hc : Plain c) :
    t.Puts (terminalWritecharWith backspace t c color) place (terminalMakeChar c color)
      (place + 1) := by
  obtain ⟨hnewline, htab, hbackspace⟩ := hc
  have hcell := h.place
  have hcol := h.col
  unfold maxPlace at hplace
  have hnext : u16 ((t.terminalCol : Int) + 1) = t.terminalCol + 1 :=
    u16_eq (by omega) (by omega)
  unfold terminalWritecharWith terminalPutchar
  rw [if_neg hnewline, if_neg htab, if_neg hbackspace]
  simp only [hnext, vgaWidth, hcell]
  by_cases hlast : t.terminalCol + 1 ≥ 80
  · have hrow : u16 ((t.terminalRow : Int) + 1) = t.terminalRow + 1 :=
      u16_eq (by omega) (by omega)
    rw [if_pos hlast]
    refine ⟨⟨?_, Nat.zero_lt_succ _⟩, rfl, rfl⟩
    simp only [hrow]
    omega
  · rw [if_neg hlast]
    refine ⟨⟨?_, ?_⟩, rfl, rfl⟩
    · simp only
      omega
    · simp only
      omega

theorem terminalWritechar_plain (color : UInt8) (h : t.At place) (hplace : place < maxPlace) (hc : Plain c) :
    t.Puts (terminalWritechar t c color) place (terminalMakeChar c color) (place + 1) :=
  terminalWritecharWith_plain terminalBackspace h hplace hc

theorem terminalStepBack_at (h : t.At (place + 1)) (hplace : place < maxPlace) :
    t.Moves (terminalStepBack t) place := by
  have hcell := h.place
  have hcol := h.col
  unfold maxPlace at hplace
  unfold terminalStepBack
  by_cases hfirst : t.terminalCol = 0
  · have hrow : u16 ((t.terminalRow : Int) - 1) = t.terminalRow - 1 :=
      u16_eq (by omega) (by omega)
    have hcolumn : u16 ((vgaWidth : Int) - 1) = 79 := rfl
    rw [if_pos hfirst]
    simp only [hrow, hcolumn]
    refine ⟨⟨?_, Nat.lt_succ_self _⟩, rfl, rfl⟩
    simp only
    omega
  · have hcolumn : u16 ((t.terminalCol : Int) - 1) = t.terminalCol - 1 :=
      u16_eq (by omega) (by omega)
    rw [if_neg hfirst]
    simp only [hcolumn]
    refine ⟨⟨?_, ?_⟩, rfl, rfl⟩
    · simp only
      omega
    · simp only
      omega

theorem terminalWritechar_backspace (color : UInt8) (h : t.At (place + 1)) (hplace : place < maxPlace) :
    t.Puts (terminalWritechar t 8 color) place (terminalMakeChar 32 15) place := by
  have hcell := h.place
  have hhome : ¬ (t.terminalCol = 0 ∧ t.terminalRow = 0) := by
    rintro ⟨hcol, hrow⟩
    omega
  have hback := terminalStepBack_at h hplace
  have hput : (terminalStepBack t).Puts (terminalWritecharWith id (terminalStepBack t) 32 15) place
      (terminalMakeChar 32 15) (place + 1) :=
    terminalWritecharWith_plain id hback.cursor hplace ⟨by decide, by decide, by decide⟩
  have hagain := terminalStepBack_at hput.cursor hplace
  have hrun : terminalWritechar t 8 color =
      terminalStepBack (terminalWritecharWith id (terminalStepBack t) 32 15) := by
    change terminalBackspace t = _
    unfold terminalBackspace
    rw [if_neg hhome]
  rw [hrun]
  exact ⟨hagain.cursor, by rw [hagain.videoMem, hput.videoMem, hback.videoMem],
    by rw [hagain.written, hput.written, hback.written]⟩

theorem terminalWritechar_home (h : t.At 0) : terminalWritechar t 8 color = t := by
  have hcell := h.place
  change terminalBackspace t = t
  unfold terminalBackspace
  rw [if_pos ⟨by omega, by omega⟩]

theorem terminalWritechar_newline (h : t.At place) (hplace : place < maxPlace) :
    t.Moves (terminalWritechar t 10 color) (nextRow place) := by
  obtain ⟨hrow, -⟩ := h.coordinates
  unfold maxPlace at hplace
  have hnext : u16 ((t.terminalRow : Int) + 1) = t.terminalRow + 1 :=
    u16_eq (by omega) (by omega)
  refine ⟨⟨?_, Nat.zero_lt_succ _⟩, rfl, rfl⟩
  change u16 ((t.terminalRow : Int) + 1) * 80 + 0 = nextRow place
  rw [hnext, hrow]
  rfl

theorem terminalWritechar_tab (h : t.At place) (hplace : place < maxPlace) :
    t.Moves (terminalWritechar t 9 color)
      (if place % 80 + 4 < 80 then place + 4 else nextRow place) := by
  obtain ⟨hrow, hcol⟩ := h.coordinates
  have hcell := h.place
  have hlt := h.col
  unfold maxPlace at hplace
  have hnext : u16 ((t.terminalRow : Int) + 1) = t.terminalRow + 1 :=
    u16_eq (by omega) (by omega)
  have hcolumn : u16 ((t.terminalCol : Int) + 4) = t.terminalCol + 4 :=
    u16_eq (by omega) (by omega)
  unfold terminalWritechar terminalWritecharWith
  rw [if_neg (by decide), if_pos rfl, ← hcol]
  simp only [hcolumn, vgaWidth]
  by_cases hin : t.terminalCol + 4 < 80
  · rw [if_neg (Nat.not_le.mpr hin), if_pos hin]
    refine ⟨⟨?_, hin⟩, rfl, rfl⟩
    simp only
    omega
  · rw [if_pos (Nat.not_lt.mp hin), if_neg hin]
    refine ⟨⟨?_, Nat.zero_lt_succ _⟩, rfl, rfl⟩
    simp only
    rw [hnext, hrow]
    rfl

/-! The screen. -/

/-- The cursor is on the screen, and no cell outside of it was written. -/
structure Terminal.OnScreen (t : Terminal) : Prop where
  row : t.terminalRow < 25
  col : t.terminalCol < 80
  cells : ∀ cell ∈ t.written, cell < 80 * 25

/-- The character takes the cursor from the last row to the one below. -/
def LeavesScreen (t : Terminal) (c : UInt8) : Prop :=
  t.terminalRow = 24 ∧ (c = 10 ∨ c = 9 ∧ 76 ≤ t.terminalCol ∨ Plain c ∧ t.terminalCol = 79)

theorem Terminal.OnScreen.at (h : t.OnScreen) : t.At (t.terminalRow * 80 + t.terminalCol) :=
  ⟨rfl, h.col⟩

theorem Terminal.Puts.onScreen_iff {t' : Terminal} {cell next : Nat} {value : UInt16}
    (hput : t.Puts t' cell value next) (h : t.OnScreen) (hcell : cell < 2000) :
    t'.OnScreen ↔ next < 2000 := by
  have hnext := hput.cursor.place
  have hcol := hput.cursor.col
  constructor
  · intro hscreen
    have hrow := hscreen.row
    omega
  · intro hlt
    refine ⟨by omega, hcol, fun k hk => ?_⟩
    rw [hput.written] at hk
    obtain rfl | hk := List.mem_cons.mp hk
    · exact hcell
    · exact h.cells k hk

theorem Terminal.Moves.onScreen_iff {t' : Terminal} {next : Nat} (hmove : t.Moves t' next)
    (h : t.OnScreen) : t'.OnScreen ↔ next < 2000 := by
  have hnext := hmove.cursor.place
  have hcol := hmove.cursor.col
  constructor
  · intro hscreen
    have hrow := hscreen.row
    omega
  · intro hlt
    refine ⟨by omega, hcol, ?_⟩
    rw [hmove.written]
    exact h.cells

theorem onScreen_writechar_iff (h : t.OnScreen) (c color : UInt8) :
    (terminalWritechar t c color).OnScreen ↔ ¬ LeavesScreen t c := by
  have hrow := h.row
  have hcol := h.col
  have hmax : t.terminalRow * 80 + t.terminalCol < maxPlace := by
    unfold maxPlace
    omega
  unfold LeavesScreen Plain
  by_cases hnewline : c = 10
  · subst hnewline
    rw [(terminalWritechar_newline h.at hmax).onScreen_iff h]
    unfold nextRow
    simp
    omega
  by_cases htab : c = 9
  · subst htab
    rw [(terminalWritechar_tab h.at hmax).onScreen_iff h]
    unfold nextRow
    simp
    split <;> omega
  by_cases hbackspace : c = 8
  · subst hbackspace
    have hstays : (terminalWritechar t 8 color).OnScreen := by
      obtain hhome | ⟨place, hplace⟩ : t.terminalRow * 80 + t.terminalCol = 0 ∨
          ∃ place, t.terminalRow * 80 + t.terminalCol = place + 1 := by
        cases t.terminalRow * 80 + t.terminalCol with
        | zero => exact .inl rfl
        | succ place => exact .inr ⟨place, rfl⟩
      · rw [terminalWritechar_home (hhome ▸ h.at)]
        exact h
      · have hput := terminalWritechar_backspace color (hplace ▸ h.at) (by omega)
        exact (hput.onScreen_iff h (by omega)).mpr (by omega)
    simpa using hstays
  · have hput := terminalWritechar_plain color h.at hmax ⟨hnewline, htab, hbackspace⟩
    rw [hput.onScreen_iff h (by omega)]
    simp [hnewline, htab, hbackspace]
    omega

/-! Runs of characters. -/

inductive Output
  | writechar (c color : UInt8)
  | print (str : List UInt8)

def Output.run (t : Terminal) : Output → Terminal
  | writechar c color => terminalWritechar t c color
  | print str => BoiOS.print t str

def Output.characters : Output → List (UInt8 × UInt8)
  | writechar c color => [(c, color)]
  | print str => (str.take (strlen str)).map (·, 15)

def writeAll (t : Terminal) (shown : List (UInt8 × UInt8)) : Terminal :=
  shown.foldl (fun t shown => terminalWritechar t shown.1 shown.2) t

/-- The run of a list of calls, character by character. -/
def writing (t : Terminal) (calls : List Output) : List ((UInt8 × UInt8) × Terminal) :=
  trace (fun t shown => terminalWritechar t shown.1 shown.2) t (calls.flatMap Output.characters)

theorem Output.run_eq (call : Output) (t : Terminal) : call.run t = writeAll t call.characters := by
  cases call with
  | writechar c color => rfl
  | print str =>
    unfold writeAll characters
    rw [List.foldl_map]
    rfl

theorem writing_last (calls : List Output) (t : Terminal) :
    last t (writing t calls) = calls.foldl Output.run t := by
  unfold writing
  rw [last_trace]
  induction calls generalizing t with
  | nil => rfl
  | cons call rest ih =>
    rw [List.flatMap_cons, List.foldl_append, List.foldl_cons, ih]
    congr 1
    exact (call.run_eq t).symm

theorem writing_onScreen_last {t : Terminal} (h : t.OnScreen) {calls : List Output}
    (hrun : Along (fun _ _ t' => t'.OnScreen) t (writing t calls)) :
    (calls.foldl Output.run t).OnScreen := by
  rw [← writing_last]
  exact last_of_along Terminal.OnScreen h hrun

theorem terminalPutchar_onScreen {t : Terminal} {x y : Nat} (h : t.OnScreen) (hx : x < 80)
    (hy : y < 25) (c color : UInt8) : (terminalPutchar t x y c color).OnScreen := by
  refine ⟨h.row, h.col, fun cell hcell => ?_⟩
  obtain rfl | hcell := List.mem_cons.mp hcell
  · unfold vgaWidth
    omega
  · exact h.cells cell hcell

theorem terminalClearRow_onScreen {y : Nat} (hy : y < 25) (count x : Nat) {t : Terminal}
    (h : t.OnScreen) (hx : x + count ≤ 80) : (terminalClearRow y count x t).OnScreen := by
  induction count generalizing x t with
  | zero => exact h
  | succ count ih => exact ih (x + 1) (terminalPutchar_onScreen h (by omega) hy 32 0) (by omega)

theorem terminalClearRows_onScreen (count y : Nat) {t : Terminal} (h : t.OnScreen)
    (hy : y + count ≤ 25) : (terminalClearRows count y t).OnScreen := by
  induction count generalizing y t with
  | zero => exact h
  | succ count ih =>
    exact ih (y + 1) (terminalClearRow_onScreen (by omega) vgaWidth 0 h (le_refl 80)) (by omega)

theorem terminalInitialize_onScreen (videoMem : Nat → UInt16) :
    (terminalInitialize videoMem).OnScreen :=
  terminalClearRows_onScreen vgaHeight 0
    ⟨Nat.zero_lt_succ _, Nat.zero_lt_succ _, fun _ hcell => absurd hcell List.not_mem_nil⟩
    (le_refl 25)

/-- The screen holds the cursor and all writes as long as no character takes the cursor down from
the last row, which nothing in `terminal_writechar` prevents. -/
theorem writing_onScreen_iff (videoMem : Nat → UInt16) (calls : List Output) :
    (terminalInitialize videoMem).OnScreen ∧
    (Along (fun _ _ t' => t'.OnScreen) (terminalInitialize videoMem)
        (writing (terminalInitialize videoMem) calls) ↔
      Along (fun t shown _ => ¬ LeavesScreen t shown.1) (terminalInitialize videoMem)
        (writing (terminalInitialize videoMem) calls)) :=
  ⟨terminalInitialize_onScreen videoMem,
    along_iff (fun t shown t' (h : t.OnScreen) hstep hstays => by
        rw [hstep]
        exact (onScreen_writechar_iff h shown.1 shown.2).mpr hstays)
      (fun t shown t' h hstep => by
        rw [hstep]
        exact onScreen_writechar_iff h shown.1 shown.2)
      _ _ (terminalInitialize_onScreen videoMem) (path_trace _ _ _)⟩

theorem newlines_row (count : Nat) {t : Terminal} (h : t.terminalRow + count < 65536) :
    (writeAll t (List.replicate count (10, 15))).terminalRow = t.terminalRow + count := by
  induction count generalizing t with
  | zero => rfl
  | succ count ih =>
    have hnext : (terminalWritechar t 10 15).terminalRow = t.terminalRow + 1 := by
      change u16 ((t.terminalRow : Int) + 1) = t.terminalRow + 1
      exact u16_eq (by omega) (by omega)
    change (writeAll (terminalWritechar t 10 15) (List.replicate count (10, 15))).terminalRow = _
    rw [ih (by omega)]
    omega

theorem newlines_leave_screen {t : Terminal} (h : t.OnScreen) :
    ¬ (writeAll t (List.replicate 25 (10, 15))).OnScreen := by
  intro hscreen
  have hrow := hscreen.row
  have hbefore := h.row
  rw [newlines_row 25 (by omega)] at hrow
  omega

theorem writing_leaves_screen : ¬ ∀ (videoMem : Nat → UInt16) (calls : List Output),
    Along (fun _ _ t' => t'.OnScreen) (terminalInitialize videoMem)
      (writing (terminalInitialize videoMem) calls) := by
  intro hall
  have hstart := terminalInitialize_onScreen fun _ => 0
  have hend := writing_onScreen_last hstart (hall (fun _ => 0) [.print (List.replicate 25 10)])
  have hcharacters : (Output.print (List.replicate 25 10)).characters =
      List.replicate 25 (10, 15) := by decide
  rw [List.foldl_cons, List.foldl_nil, Output.run_eq, hcharacters] at hend
  exact newlines_leave_screen hstart hend

/-! Backspaces after typing. -/

theorem writeAll_append (t : Terminal) (before after : List (UInt8 × UInt8)) :
    writeAll t (before ++ after) = writeAll (writeAll t before) after := List.foldl_append

structure Terminal.Blanked (t t' : Terminal) (place count : Nat) : Prop where
  cursor : t'.At place
  blank : ∀ cell, place ≤ cell → cell < place + count → t'.videoMem cell = terminalMakeChar 32 15
  other : ∀ cell, cell < place ∨ place + count ≤ cell → t'.videoMem cell = t.videoMem cell

theorem writeAll_backspaces (w : List (UInt8 × UInt8)) {t : Terminal} {place : Nat} (h : t.At place)
    (hplain : ∀ shown ∈ w, Plain shown.1) (hmax : place + w.length ≤ maxPlace) (color : UInt8) :
    t.Blanked (writeAll t (w ++ List.replicate w.length (8, color))) place w.length := by
  induction w generalizing t place with
  | nil => exact ⟨h, fun cell hge hlt => absurd hlt (Nat.not_lt.mpr hge), fun _ _ => rfl⟩
  | cons shown rest ih =>
    obtain ⟨hshown, hrest⟩ := List.forall_mem_cons.mp hplain
    rw [List.length_cons] at hmax
    have hput := terminalWritechar_plain shown.2 h (by omega) hshown
    have hback := ih hput.cursor hrest (by omega)
    set typed := terminalWritechar t shown.1 shown.2
    have hlast := terminalWritechar_backspace color hback.cursor (by omega)
    have hrun : writeAll t (shown :: rest ++ List.replicate (rest.length + 1) (8, color)) =
        terminalWritechar (writeAll typed (rest ++ List.replicate rest.length (8, color))) 8
          color := by
      rw [List.replicate_succ', ← List.append_assoc, writeAll_append]
      rfl
    rw [List.length_cons, hrun]
    refine ⟨hlast.cursor, fun cell hge hlt => ?_, fun cell hout => ?_⟩
    · rw [hlast.videoMem]
      by_cases hcell : cell = place
      · rw [hcell, Function.update_self]
      · rw [Function.update_of_ne hcell]
        exact hback.blank cell (by omega) (by omega)
    · rw [hlast.videoMem, Function.update_of_ne (by omega), hback.other cell (by omega),
        hput.videoMem, Function.update_of_ne (by omega)]

/-- Typing and then erasing what was typed leaves blanks behind and nothing else. -/
theorem backspaces_undo_typing {t : Terminal} (hcol : t.terminalCol < 80) (w : List (UInt8 × UInt8))
    (hplain : ∀ shown ∈ w, Plain shown.1)
    (hfits : t.terminalRow * 80 + t.terminalCol + w.length ≤ 80 * 25) (color : UInt8) :
    let t' := writeAll t (w ++ List.replicate w.length (8, color))
    let start := t.terminalRow * 80 + t.terminalCol
    t'.terminalRow = t.terminalRow ∧ t'.terminalCol = t.terminalCol ∧
    (∀ cell, start ≤ cell → cell < start + w.length → t'.videoMem cell = 0x0F20) ∧
    ∀ cell, cell < start ∨ start + w.length ≤ cell → t'.videoMem cell = t.videoMem cell := by
  intro t' start
  have hback : t.Blanked t' start w.length :=
    writeAll_backspaces w ⟨rfl, hcol⟩ hplain (le_trans hfits (by decide)) color
  have hplace := hback.cursor.place
  have hcolumn := hback.cursor.col
  exact ⟨by omega, by omega, hback.blank, hback.other⟩

theorem backspaces_undo_typing_row_end :
    let t' := writeAll ⟨fun _ => 0, 3, 78, []⟩
      ([(65, 15), (66, 15), (179, 7)] ++ List.replicate 3 (8, 15))
    t'.terminalRow = 3 ∧ t'.terminalCol = 78 ∧ t'.videoMem 320 = 0x0F20 ∧ t'.videoMem 321 = 0 := by
  have hplain : ∀ shown ∈ [((65 : UInt8), (15 : UInt8)), (66, 15), (179, 7)], Plain shown.1 := by
    simp [Plain]
  obtain ⟨hrow, hcol, hblank, hother⟩ :=
    backspaces_undo_typing (t := ⟨fun _ => 0, 3, 78, []⟩) (by decide) _ hplain (by decide) 15
  exact ⟨hrow, hcol, hblank 320 (by decide) (by decide), hother 321 (.inr (by decide))⟩

/-! What `print` shows. -/

/-- The cell that shows a character: the character below the attribute. -/
def shownCell (c color : UInt8) : UInt16 := .ofNat (color.toNat * 256 + c.toNat)

theorem terminalMakeChar_eq_shownCell_iff (c : UInt8) :
    terminalMakeChar c 15 = shownCell c 15 ↔ c < 128 := by
  have hall : ∀ n < 256, terminalMakeChar (.ofNat n) 15 = shownCell (.ofNat n) 15 ↔
      UInt8.ofNat n < 128 := by decide +kernel
  have hc := hall c.toNat c.toNat_lt
  rwa [UInt8.ofNat_toNat] at hc

/-- The characters are in the cells from a place on, and the cursor is behind them. -/
structure Terminal.Shows (t t' : Terminal) (place : Nat) (w : List (UInt8 × UInt8)) : Prop where
  cursor : t'.At (place + w.length)
  shown : ∀ i (hi : i < w.length), t'.videoMem (place + i) = terminalMakeChar w[i].1 w[i].2
  other : ∀ cell, cell < place ∨ place + w.length ≤ cell → t'.videoMem cell = t.videoMem cell

theorem writeAll_plain (w : List (UInt8 × UInt8)) {t : Terminal} {place : Nat} (h : t.At place)
    (hplain : ∀ shown ∈ w, Plain shown.1) (hmax : place + w.length ≤ maxPlace) :
    t.Shows (writeAll t w) place w := by
  induction w generalizing t place with
  | nil => exact ⟨h, fun i hi => absurd hi (Nat.not_lt_zero i), fun _ _ => rfl⟩
  | cons shown rest ih =>
    obtain ⟨hshown, hrest⟩ := List.forall_mem_cons.mp hplain
    rw [List.length_cons] at hmax
    have hput := terminalWritechar_plain shown.2 h (by omega) hshown
    have hbehind := ih hput.cursor hrest (by omega)
    refine ⟨?_, fun i hi => ?_, fun cell hout => ?_⟩
    · rw [List.length_cons, Nat.add_comm rest.length 1, ← Nat.add_assoc]
      exact hbehind.cursor
    · cases i with
      | zero =>
        rw [Nat.add_zero, List.getElem_cons_zero]
        exact (hbehind.other place (.inl (Nat.lt_succ_self place))).trans (by
          rw [hput.videoMem, Function.update_self])
      | succ i =>
        have hcell := hbehind.shown i (Nat.lt_of_succ_lt_succ hi)
        rwa [Nat.add_assoc, Nat.add_comm 1 i] at hcell
    · rw [List.length_cons] at hout
      refine (hbehind.other cell (by omega)).trans ?_
      rw [hput.videoMem, Function.update_of_ne (by omega)]

theorem print_eq_writeAll {str : List UInt8} (h0 : 0 ∉ str) (t : Terminal) :
    print t str = writeAll t (str.map (·, 15)) := by
  have hcharacters : (Output.print str).characters = str.map (·, 15) := by
    change (str.take (strlen str)).map (·, 15) = _
    rw [strlen_of_nonzero h0, List.take_length]
  rw [← hcharacters]
  exact (Output.print str).run_eq t

/-- Each character is shown with the attribute 15 as long as all of them are below 128, and no
other cell changes in any case. -/
theorem print_shows_iff {t : Terminal} (hcol : t.terminalCol < 80) (str : List UInt8)
    (hplain : ∀ c ∈ str, Plain c) (h0 : 0 ∉ str)
    (hfits : t.terminalRow * 80 + t.terminalCol + str.length ≤ 80 * 25) :
    let t' := print t str
    let start := t.terminalRow * 80 + t.terminalCol
    (∀ i (hi : i < str.length), t'.videoMem (start + i) = shownCell str[i] 15) ∧
      (∀ cell, cell < start ∨ start + str.length ≤ cell → t'.videoMem cell = t.videoMem cell) ↔
    ∀ c ∈ str, c < 128 := by
  intro t' start
  have hshows : t.Shows t' start (str.map (·, 15)) := by
    have hrun : t' = writeAll t (str.map (·, 15)) := print_eq_writeAll h0 t
    rw [hrun]
    refine writeAll_plain _ ⟨rfl, hcol⟩ ?_ ?_
    · intro shown hmem
      obtain ⟨c, hc, rfl⟩ := List.mem_map.mp hmem
      exact hplain c hc
    · rw [List.length_map]
      exact le_trans hfits (by decide)
  have hcells : ∀ i (hi : i < str.length),
      t'.videoMem (start + i) = terminalMakeChar str[i] 15 := by
    intro i hi
    have hcell := hshows.shown i (by rwa [List.length_map])
    rwa [List.getElem_map] at hcell
  have hother := hshows.other
  rw [List.length_map] at hother
  constructor
  · rintro ⟨hright, -⟩ c hc
    obtain ⟨i, hi, rfl⟩ := List.mem_iff_getElem.mp hc
    rw [← terminalMakeChar_eq_shownCell_iff, ← hcells i hi]
    exact hright i hi
  · intro hlow
    refine ⟨fun i hi => ?_, hother⟩
    rw [hcells i hi, terminalMakeChar_eq_shownCell_iff]
    exact hlow _ (List.getElem_mem hi)

theorem print_shows_row_end :
    let t' := print ⟨fun _ => 0, 3, 79, []⟩ [72, 105]
    t'.videoMem 319 = shownCell 72 15 ∧ t'.videoMem 320 = shownCell 105 15 := by
  have hplain : ∀ c ∈ ([72, 105] : List UInt8), Plain c := by simp [Plain]
  have hlow : ∀ c ∈ ([72, 105] : List UInt8), c < 128 := by simp
  obtain ⟨hright, -⟩ := (print_shows_iff (t := ⟨fun _ => 0, 3, 79, []⟩) (by decide) [72, 105] hplain
    (by decide) (by decide)).mpr hlow
  exact ⟨hright 0 (by decide), hright 1 (by decide)⟩

theorem print_not_always_shows : ¬ ∀ (t : Terminal) (str : List UInt8), t.terminalCol < 80 →
    (∀ c ∈ str, Plain c) → 0 ∉ str →
    t.terminalRow * 80 + t.terminalCol + str.length ≤ 80 * 25 →
    (∀ i (hi : i < str.length), (print t str).videoMem (t.terminalRow * 80 + t.terminalCol + i) =
      shownCell str[i] 15) ∧
    ∀ cell, cell < t.terminalRow * 80 + t.terminalCol ∨
        t.terminalRow * 80 + t.terminalCol + str.length ≤ cell →
      (print t str).videoMem cell = t.videoMem cell := by
  intro hall
  have hplain : ∀ c ∈ ([179] : List UInt8), Plain c := by simp [Plain]
  have hshown := (hall ⟨fun _ => 0, 0, 0, []⟩ [179] (by decide) hplain (by decide) (by decide)).1 0
    (by decide)
  exact absurd hshown (by decide)

end BoiOS
