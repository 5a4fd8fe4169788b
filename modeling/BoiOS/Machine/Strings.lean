import BoiOS.Machine.Memory
import Mathlib.Data.List.TakeWhile

/-! The string functions of string/string.c. A string is the list of its characters; what follows
the list, or the first zero in it, is the terminator. -/
namespace BoiOS

def strlen : List UInt8 → Nat
  | [] => 0
  | c :: rest => if c = 0 then 0 else strlen rest + 1

def strnlen : List UInt8 → (max : Nat) → Nat
  | _, 0 => 0
  | [], _ + 1 => 0
  | c :: rest, max + 1 => if c = 0 then 0 else strnlen rest max + 1

def isdigit (c : UInt8) : Bool := decide (c ≥ 48) && decide (c ≤ 57)

def tonumericdigit (c : UInt8) : Int := c.toNat - 48

def charAt (s : List UInt8) (i : Nat) : UInt8 := s.getD i 0

def tolower (c : UInt8) : UInt8 := if c ≥ 65 ∧ c ≤ 90 then c + 32 else c

def compareLoop (differ : UInt8 → UInt8 → Bool) : List UInt8 → List UInt8 → (n : Nat) → Int
  | _, _, 0 => 0
  | str1, str2, n + 1 =>
      let u1 := charAt str1 0
      let u2 := charAt str2 0
      if differ u1 u2 then u1.toNat - u2.toNat
      else if u1 = 0 then 0
      else compareLoop differ (str1.drop 1) (str2.drop 1) n

def istrncmp (str1 str2 : List UInt8) (n : Nat) : Int :=
  compareLoop (fun u1 u2 => u1 != u2 && tolower u1 != tolower u2) str1 str2 n

def strncmp (str1 str2 : List UInt8) (n : Nat) : Int :=
  compareLoop (fun u1 u2 => u1 != u2) str1 str2 n

/-- The string that `strncpy` leaves: at most `count - 1` characters. -/
def strncpy (src : List UInt8) (count : Nat) : List UInt8 := src.take (strnlen src (count - 1))

theorem strlen_of_nonzero {s : List UInt8} (h : 0 ∉ s) : strlen s = s.length := by
  induction s with
  | nil => rfl
  | cons c rest ih =>
    obtain ⟨hc, hrest⟩ := not_or.mp (mt List.mem_cons.mpr h)
    rw [strlen, if_neg (Ne.symm hc), ih hrest, List.length_cons]

theorem strnlen_of_nonzero {s : List UInt8} (h : 0 ∉ s) (max : Nat) :
    strnlen s max = min s.length max := by
  induction s generalizing max with
  | nil => cases max <;> simp [strnlen]
  | cons c rest ih =>
    obtain ⟨hc, hrest⟩ := not_or.mp (mt List.mem_cons.mpr h)
    cases max with
    | zero => simp [strnlen]
    | succ max =>
      rw [strnlen, if_neg (Ne.symm hc), ih hrest, List.length_cons]
      omega

def cString (buffer : List UInt8) : List UInt8 := buffer.takeWhile (· != 0)

theorem cString_nonzero (buffer : List UInt8) : 0 ∉ cString buffer := by
  intro hzero
  simpa using List.mem_takeWhile_imp hzero

theorem cString_append {s : List UInt8} (h : 0 ∉ s) (rest : List UInt8) :
    cString (s ++ 0 :: rest) = s := by
  induction s with
  | nil => rfl
  | cons c s ih =>
    obtain ⟨hc, hs⟩ := not_or.mp (mt List.mem_cons.mpr h)
    have hrest := ih hs
    unfold cString at *
    rw [List.cons_append, List.takeWhile_cons_of_pos (by simpa using Ne.symm hc), hrest]

theorem cString_of_nonzero {s : List UInt8} (h : 0 ∉ s) : cString s = s := by
  unfold cString
  rw [List.takeWhile_eq_self_iff]
  rintro c hc
  simpa using fun hzero : c = 0 => h (hzero ▸ hc)

structure Stored (buffer : Int → UInt8) (s : List UInt8) : Prop where
  chars : ∀ k (hk : k < s.length), buffer k = s[k]
  terminator : buffer s.length = 0

theorem Stored.cString_eq {buffer : Int → UInt8} {s : List UInt8} (h : Stored buffer s) (hs : 0 ∉ s)
    {size : Nat} (hlength : s.length < size) :
    cString ((List.range size).map fun k : Nat => buffer k) = s := by
  have hcells : (List.range size).map (fun k : Nat => buffer k) =
      s ++ 0 :: (List.range (size - (s.length + 1))).map fun k : Nat => buffer (s.length + 1 + k) := by
    refine List.ext_getElem ?_ fun k hk hk' => ?_
    · simp
      omega
    · rw [List.getElem_map, List.getElem_range]
      obtain hlow | rfl | hhigh := Nat.lt_trichotomy k s.length
      · rw [List.getElem_append_left hlow, h.chars k hlow]
      · rw [List.getElem_append_right (le_refl _)]
        simpa using h.terminator
      · obtain ⟨j, rfl⟩ := Nat.exists_eq_add_of_lt hhigh
        rw [List.getElem_append_right (by omega)]
        simp [show s.length + j + 1 - s.length = j + 1 by omega]
        congr 1
        omega
  rw [hcells, cString_append hs]

theorem strncpy_eq (src : List UInt8) (count : Nat) :
    strncpy src count = (cString src).take (count - 1) := by
  unfold strncpy
  generalize count - 1 = room
  induction room generalizing src with
  | zero => cases src <;> simp [strnlen]
  | succ room ih =>
    cases src with
    | nil => rfl
    | cons c src =>
      unfold strnlen cString
      by_cases hc : c = 0
      · rw [if_pos hc, hc]
        rfl
      · rw [if_neg hc, List.takeWhile_cons_of_pos (by simpa using hc), List.take_succ_cons, ih src]
        rfl

theorem strncpy_nonzero (src : List UInt8) (count : Nat) : 0 ∉ strncpy src count := by
  rw [strncpy_eq]
  exact fun hzero => cString_nonzero src (List.mem_of_mem_take hzero)

/-- The names are the same but for the case of ASCII letters. -/
def SameName (name query : List UInt8) : Prop := name.map tolower = query.map tolower

instance (name query : List UInt8) : Decidable (SameName name query) :=
  inferInstanceAs (Decidable (_ = _))

theorem tolower_eq_zero_iff {c : UInt8} : tolower c = 0 ↔ c = 0 := by
  unfold tolower
  split_ifs with hupper
  · constructor
    · intro hzero
      have hsum : (c + 32).toNat = 0 := by rw [hzero]; rfl
      have hlow : 65 ≤ c.toNat := hupper.1
      have hhigh : c.toNat ≤ 90 := hupper.2
      rw [UInt8.toNat_add, show (32 : UInt8).toNat = 32 from rfl] at hsum
      omega
    · intro hzero
      rw [hzero] at hupper
      exact absurd hupper.1 (by decide)
  · rfl

theorem istrncmp_succ (str1 str2 : List UInt8) (n : Nat) : istrncmp str1 str2 (n + 1) =
    if tolower (charAt str1 0) ≠ tolower (charAt str2 0) then
      ((charAt str1 0).toNat : Int) - (charAt str2 0).toNat
    else if charAt str1 0 = 0 then 0 else istrncmp (str1.drop 1) (str2.drop 1) n := by
  unfold istrncmp
  rw [compareLoop]
  by_cases hsame : charAt str1 0 = charAt str2 0
  · simp [hsame]
  · simp [hsame]

theorem istrncmp_eq_zero_iff {name : List UInt8} (hname : 0 ∉ name) {n : Nat}
    (hlength : name.length < n) (buffer : List UInt8) :
    istrncmp name buffer n = 0 ↔ SameName name (cString buffer) := by
  have hdiffer : ∀ {a b : UInt8}, a ≠ b → (a.toNat : Int) - b.toNat ≠ 0 := by
    intro a b hne hzero
    exact hne (UInt8.toNat_inj.mp (by omega))
  unfold SameName cString
  induction n generalizing name buffer with
  | zero => omega
  | succ n ih =>
    rw [istrncmp_succ]
    cases name with
    | nil =>
      cases buffer with
      | nil => simp [charAt]
      | cons c rest =>
        by_cases hc : c = 0
        · simp [charAt, hc]
        · have hlower : tolower 0 ≠ tolower c := fun h => hc (tolower_eq_zero_iff.mp h.symm)
          have hsub := hdiffer (Ne.symm hc)
          simp only [charAt, List.getD_nil, List.getD_cons_zero]
          rw [if_pos hlower, List.takeWhile_cons_of_pos (by simpa using hc)]
          exact iff_of_false hsub (by simp)
    | cons a as =>
      obtain ⟨ha, has⟩ := not_or.mp (mt List.mem_cons.mpr hname)
      cases buffer with
      | nil =>
        have hlower : tolower a ≠ tolower 0 := fun h => ha (tolower_eq_zero_iff.mp h).symm
        simp only [charAt, List.getD_nil, List.getD_cons_zero]
        rw [if_pos hlower]
        exact iff_of_false (hdiffer (Ne.symm ha)) (by simp)
      | cons c rest =>
        by_cases hlower : tolower a = tolower c
        · have hc : c ≠ 0 := by
            intro hc
            rw [hc] at hlower
            exact ha (tolower_eq_zero_iff.mp hlower).symm
          rw [List.length_cons] at hlength
          have hrest := ih has (by omega) rest
          simp only [charAt, List.getD_cons_zero, List.drop_one, List.tail_cons]
          rw [if_neg (not_not.mpr hlower), if_neg (Ne.symm ha),
            List.takeWhile_cons_of_pos (by simpa using hc), List.map_cons, List.map_cons,
            List.cons.injEq]
          exact ⟨fun h => ⟨hlower, hrest.mp h⟩, fun h => hrest.mpr h.2⟩
        · have hne : a ≠ c := fun h => hlower (congrArg tolower h)
          simp only [charAt, List.getD_cons_zero]
          rw [if_pos hlower]
          refine iff_of_false (hdiffer hne) fun h => ?_
          by_cases hc : c = 0
          · rw [hc] at h
            simp at h
          · rw [List.takeWhile_cons_of_pos (by simpa using hc), List.map_cons, List.map_cons,
              List.cons.injEq] at h
            exact hlower h.1

def Memory.HoldsString (m : Memory) (ptr : Nat) (s : List UInt8) : Prop :=
  m.bytesAt ptr (s.length + 1) = s ++ [0]

instance (m : Memory) (ptr : Nat) (s : List UInt8) : Decidable (m.HoldsString ptr s) :=
  inferInstanceAs (Decidable (_ = _))

theorem Memory.holdsString_copyIn {m : Memory} {base : Nat} {s : List UInt8}
    (hroom : s.length < 4294967296) : (m.copyIn base (s ++ [0])).HoldsString base s := by
  have hsize : (s ++ [0]).length = s.length + 1 := by
    rw [List.length_append, List.length_singleton]
  have hread := m.bytesAt_copyIn base (s ++ [0]) (by omega)
  rwa [hsize] at hread

end BoiOS
