import BoiOS.Terminal.Terminal

/-! The screen as it lies in memory. The cells are the words from `0xB8000` on; a character that is
written below the last row goes into what comes behind them. -/
namespace BoiOS

def videoMemory : Nat := 0xB8000

namespace Memory

def videoCells (m : Memory) (cell : Nat) : UInt16 :=
  .ofNat (m.load16 (videoMemory + 2 * cell : Nat))

def withVideo (m : Memory) (cells : Nat → UInt16) : Memory := fun a =>
  if a < videoMemory then m a
  else
    let cell := cells ((a - videoMemory) / 2)
    if (a - videoMemory) % 2 = 0 then .ofNat cell.toNat else .ofNat (cell.toNat / 256)

theorem load16_natCast (m : Memory) {a : Nat} (ha : a + 1 < 4294967296) :
    m.load16 a = (m a).toNat + 256 * (m (a + 1)).toNat := by
  have hlow : u32 (a : Int) = a := u32_natCast (by omega)
  have hhigh : u32 ((a : Int) + 1) = a + 1 := u32_natCast (n := a + 1) ha
  unfold load16 load8
  rw [hlow, hhigh]

theorem toNat_videoCells (m : Memory) {cell : Nat} (hcell : videoMemory + 2 * cell + 1 < 4294967296) :
    (m.videoCells cell).toNat = (m (videoMemory + 2 * cell)).toNat +
      256 * (m (videoMemory + 2 * cell + 1)).toNat := by
  have hlow := (m (videoMemory + 2 * cell)).toNat_lt
  have hhigh := (m (videoMemory + 2 * cell + 1)).toNat_lt
  unfold videoCells
  rw [load16_natCast m hcell, UInt16.toNat_ofNat']
  omega

theorem videoCells_withVideo (m : Memory) (cells : Nat → UInt16) {cell : Nat}
    (hcell : videoMemory + 2 * cell + 1 < 4294967296) :
    (m.withVideo cells).videoCells cell = cells cell := by
  have hword := (cells cell).toNat_lt
  have hlow : (m.withVideo cells (videoMemory + 2 * cell)).toNat = (cells cell).toNat % 256 := by
    have hindex : (videoMemory + 2 * cell - videoMemory) / 2 = cell := by omega
    unfold withVideo
    rw [if_neg (by omega), if_pos (by omega), hindex, UInt8.toNat_ofNat']
  have hhigh : (m.withVideo cells (videoMemory + 2 * cell + 1)).toNat = (cells cell).toNat / 256 := by
    have hindex : (videoMemory + 2 * cell + 1 - videoMemory) / 2 = cell := by omega
    unfold withVideo
    rw [if_neg (by omega), if_neg (by omega), hindex, UInt8.toNat_ofNat']
    omega
  refine UInt16.toNat_inj.mp ?_
  rw [toNat_videoCells _ hcell, hlow, hhigh]
  omega

theorem withVideo_same (m : Memory) {cells : Nat → UInt16} {a : Nat} (ha : a + 1 < 4294967296)
    (hsame : videoMemory ≤ a →
      cells ((a - videoMemory) / 2) = m.videoCells ((a - videoMemory) / 2)) :
    m.withVideo cells a = m a := by
  by_cases hbelow : a < videoMemory
  · exact if_pos hbelow
  · obtain ⟨cell, hcell⟩ : ∃ cell, cell = (a - videoMemory) / 2 := ⟨_, rfl⟩
    have hroom : videoMemory + 2 * cell + 1 < 4294967296 := by omega
    have hword := m.toNat_videoCells hroom
    have hbyte := (m a).toNat_lt
    have hlow := (m (videoMemory + 2 * cell)).toNat_lt
    have heq := hsame (Nat.not_lt.mp hbelow)
    rw [← hcell] at heq
    refine UInt8.toNat_inj.mp ?_
    unfold withVideo
    rw [if_neg hbelow, ← hcell, heq]
    by_cases heven : (a - videoMemory) % 2 = 0
    · have hplace : videoMemory + 2 * cell = a := by omega
      rw [hplace] at hword
      rw [if_pos heven, UInt8.toNat_ofNat', hword]
      omega
    · have hplace : videoMemory + 2 * cell + 1 = a := by omega
      rw [hplace] at hword
      rw [if_neg heven, UInt8.toNat_ofNat', hword]
      omega

end Memory

structure Terminal.SameScreen (t t' : Terminal) : Prop where
  row : t'.terminalRow = t.terminalRow
  col : t'.terminalCol = t.terminalCol
  cells : ∀ cell < 80 * 25, t'.videoMem cell = t.videoMem cell

structure Terminal.Within (t : Terminal) : Prop where
  row : t.terminalRow < 25
  col : t.terminalCol < 80

variable {t t' t'' : Terminal} {c color : UInt8}

namespace Terminal

theorem SameScreen.refl (t : Terminal) : t.SameScreen t := ⟨rfl, rfl, fun _ _ => rfl⟩

theorem SameScreen.trans (h : t.SameScreen t') (h' : t'.SameScreen t'') : t.SameScreen t'' :=
  ⟨h'.row.trans h.row, h'.col.trans h.col,
    fun cell hcell => (h'.cells cell hcell).trans (h.cells cell hcell)⟩

theorem SameScreen.within (h : t.SameScreen t') (hwithin : t.Within) : t'.Within :=
  ⟨h.row.symm ▸ hwithin.row, h.col.symm ▸ hwithin.col⟩

theorem Within.at (h : t.Within) :
    t.At (t.terminalRow * 80 + t.terminalCol) ∧ t.terminalRow * 80 + t.terminalCol < 2000 := by
  have hrow := h.row
  have hcol := h.col
  exact ⟨⟨rfl, hcol⟩, by omega⟩

theorem SameScreen.of_at {place : Nat} (h : t.At place) (h' : t'.At place)
    (hcells : ∀ cell < 80 * 25, t'.videoMem cell = t.videoMem cell) : t.SameScreen t' :=
  ⟨h'.coordinates.1.trans h.coordinates.1.symm, h'.coordinates.2.trans h.coordinates.2.symm, hcells⟩

end Terminal

/-- What a character does from a place on the screen, on any terminal: it moves the cursor, or it puts
something into a cell of the screen. -/
theorem terminalWritechar_acts {place : Nat} (hplace : place < 2000) (c color : UInt8) :
    (∃ next, ∀ t : Terminal, t.At place → t.Moves (terminalWritechar t c color) next) ∨
      ∃ cell < 2000, ∃ value next, ∀ t : Terminal, t.At place →
        t.Puts (terminalWritechar t c color) cell value next := by
  have hmax : place < maxPlace := Nat.lt_trans hplace (by decide)
  by_cases hnewline : c = 10
  · subst hnewline
    exact .inl ⟨_, fun t ht => terminalWritechar_newline ht hmax⟩
  by_cases htab : c = 9
  · subst htab
    exact .inl ⟨_, fun t ht => terminalWritechar_tab ht hmax⟩
  by_cases hbackspace : c = 8
  · subst hbackspace
    cases place with
    | zero =>
      refine .inl ⟨0, fun t ht => ?_⟩
      rw [terminalWritechar_home ht]
      exact ⟨ht, rfl, rfl⟩
    | succ place =>
      exact .inr ⟨place, by omega, _, _,
        fun t ht => terminalWritechar_backspace color ht (by omega)⟩
  · exact .inr ⟨place, hplace, _, _,
      fun t ht => terminalWritechar_plain color ht hmax ⟨hnewline, htab, hbackspace⟩⟩

theorem Terminal.SameScreen.writechar (h : t.SameScreen t') (hwithin : t.Within) (c color : UInt8) :
    (terminalWritechar t c color).SameScreen (terminalWritechar t' c color) := by
  obtain ⟨hat, hplace⟩ := hwithin.at
  have hat' := (h.within hwithin).at.1
  rw [h.row, h.col] at hat'
  rcases terminalWritechar_acts hplace c color with ⟨next, hmoves⟩ | ⟨cell, -, value, next, hputs⟩
  · refine .of_at (hmoves t hat).cursor (hmoves t' hat').cursor fun cell hcell => ?_
    rw [(hmoves t hat).videoMem, (hmoves t' hat').videoMem]
    exact h.cells cell hcell
  · refine .of_at (hputs t hat).cursor (hputs t' hat').cursor fun other hother => ?_
    rw [(hputs t hat).videoMem, (hputs t' hat').videoMem]
    by_cases heq : other = cell
    · rw [heq, Function.update_self, Function.update_self]
    · rw [Function.update_of_ne heq, Function.update_of_ne heq]
      exact h.cells other hother

theorem Terminal.Within.writechar_other (h : t.Within) (c color : UInt8) {cell : Nat}
    (hcell : 80 * 25 ≤ cell) : (terminalWritechar t c color).videoMem cell = t.videoMem cell := by
  obtain ⟨hat, hplace⟩ := h.at
  rcases terminalWritechar_acts hplace c color with ⟨next, hmoves⟩ | ⟨put, hput, value, next, hputs⟩
  · rw [(hmoves t hat).videoMem]
  · rw [(hputs t hat).videoMem, Function.update_of_ne (by omega)]

/-! Clearing the screen. -/

theorem terminalClearRow_videoMem (y count x : Nat) (t : Terminal) :
    (terminalClearRow y count x t).videoMem = fun cell =>
      if y * 80 + x ≤ cell ∧ cell < y * 80 + x + count then terminalMakeChar 32 0
      else t.videoMem cell := by
  induction count generalizing x t with
  | zero =>
    ext1 cell
    rw [if_neg (by omega)]
    rfl
  | succ count ih =>
    unfold terminalClearRow
    rw [ih]
    ext1 cell
    by_cases hfirst : cell = y * 80 + x
    · rw [if_neg (by omega), if_pos (by omega), hfirst]
      exact Function.update_self ..
    · by_cases hrest : y * 80 + (x + 1) ≤ cell ∧ cell < y * 80 + (x + 1) + count
      · rw [if_pos hrest, if_pos (by omega)]
      · rw [if_neg hrest, if_neg (by omega)]
        exact Function.update_of_ne hfirst _ _

theorem terminalClearRows_videoMem (count y : Nat) (t : Terminal) :
    (terminalClearRows count y t).videoMem = fun cell =>
      if y * 80 ≤ cell ∧ cell < (y + count) * 80 then terminalMakeChar 32 0 else t.videoMem cell := by
  induction count generalizing y t with
  | zero =>
    ext1 cell
    rw [if_neg (by omega)]
    rfl
  | succ count ih =>
    unfold terminalClearRows
    rw [ih, terminalClearRow_videoMem]
    ext1 cell
    unfold vgaWidth
    dsimp only
    by_cases hrow : y * 80 ≤ cell ∧ cell < y * 80 + 80
    · rw [if_neg (by omega), if_pos (by omega), if_pos (by omega)]
    · by_cases hrest : (y + 1) * 80 ≤ cell ∧ cell < (y + 1 + count) * 80
      · rw [if_pos hrest, if_pos (by omega)]
      · rw [if_neg hrest, if_neg (by omega), if_neg (by omega)]

theorem terminalClearRow_cursor (y count x : Nat) (t : Terminal) :
    (terminalClearRow y count x t).terminalRow = t.terminalRow ∧
      (terminalClearRow y count x t).terminalCol = t.terminalCol := by
  induction count generalizing x t with
  | zero => exact ⟨rfl, rfl⟩
  | succ count ih => exact ih (x + 1) (terminalPutchar t x y 32 0)

theorem terminalClearRows_cursor (count y : Nat) (t : Terminal) :
    (terminalClearRows count y t).terminalRow = t.terminalRow ∧
      (terminalClearRows count y t).terminalCol = t.terminalCol := by
  induction count generalizing y t with
  | zero => exact ⟨rfl, rfl⟩
  | succ count ih =>
    obtain ⟨hrow, hcol⟩ := ih (y + 1) (terminalClearRow y vgaWidth 0 t)
    obtain ⟨hrow', hcol'⟩ := terminalClearRow_cursor y vgaWidth 0 t
    exact ⟨hrow.trans hrow', hcol.trans hcol'⟩

theorem terminalInitialize_videoMem (videoMem : Nat → UInt16) :
    (terminalInitialize videoMem).videoMem = fun cell =>
      if cell < 80 * 25 then terminalMakeChar 32 0 else videoMem cell := by
  unfold terminalInitialize
  rw [terminalClearRows_videoMem]
  ext1 cell
  unfold vgaHeight
  by_cases hcell : cell < 80 * 25
  · rw [if_pos (by omega), if_pos hcell]
  · rw [if_neg (by omega), if_neg hcell]

theorem terminalInitialize_at (videoMem : Nat → UInt16) : (terminalInitialize videoMem).At 0 := by
  obtain ⟨hrow, hcol⟩ := terminalClearRows_cursor vgaHeight 0 ⟨videoMem, 0, 0, []⟩
  refine ⟨?_, ?_⟩
  · unfold terminalInitialize
    rw [hrow, hcol]
    rfl
  · unfold terminalInitialize
    rw [hcol]
    exact Nat.zero_lt_succ _

end BoiOS
