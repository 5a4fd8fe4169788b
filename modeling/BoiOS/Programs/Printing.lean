import BoiOS.Machine.Strings
import Mathlib.Data.List.GetD
import Mathlib.Data.Nat.Digits.Lemmas
import Mathlib.Logic.Function.Basic

/-! The printing of the programs: `itoa` of stdlib/src/stdlib.c and `printf` of stdlib/src/stdio.c. -/
namespace BoiOS

structure Text where
  text : Int → UInt8
  loc : Int
  /-- The index of every store. -/
  written : List Int

def Text.prepend (t : Text) (c : UInt8) : Text :=
  ⟨Function.update t.text (t.loc - 1) c, t.loc - 1, (t.loc - 1) :: t.written⟩

theorem toInt_div_ten {i : Int32} {n : Nat} (hi : i.toInt = -n) :
    (i / 10).toInt = -((n / 10 : Nat) : Int) := by
  rw [Int32.toInt_div_of_ne_right i 10 (by decide), hi, show (10 : Int32).toInt = 10 from rfl,
    Int.neg_tdiv]
  rfl

theorem toInt_mod_ten {i : Int32} {n : Nat} (hi : i.toInt = -n) :
    (i % 10).toInt = -((n % 10 : Nat) : Int) := by
  rw [Int32.toInt_mod, hi, show (10 : Int32).toInt = 10 from rfl, Int.neg_tmod]
  rfl

theorem natAbs_div_lt {i : Int32} (hi : i ≠ 0) : (i / 10).toInt.natAbs < i.toInt.natAbs := by
  have hne : i.toInt ≠ 0 := fun hzero => hi (Int32.toInt_inj.mp hzero)
  rw [Int32.toInt_div_of_ne_right i 10 (by decide), show (10 : Int32).toInt = 10 from rfl,
    Int.natAbs_tdiv]
  change i.toInt.natAbs / 10 < i.toInt.natAbs
  omega

/-- The loop of `itoa`; `i` is not positive. -/
def itoaLoop (i : Int32) (t : Text) : Text :=
  if _h : i = 0 then t
  else itoaLoop (i / 10) (t.prepend (UInt8.ofInt (48 - (i % 10).toInt)))
termination_by i.toInt.natAbs
decreasing_by exact natAbs_div_lt _h

/-- `text` is what the last call left. -/
def itoa (text : Int → UInt8) (i : Int32) : Text :=
  let t : Text := ⟨Function.update text 11 0, 11, [11]⟩
  let neg := ¬ i ≥ 0
  let i := if i ≥ 0 then -i else i
  let t := itoaLoop i t
  let t := if t.loc = 1 then t.prepend 48 else t
  if neg then t.prepend 45 else t

def Text.string (t : Text) : List UInt8 :=
  cString ((List.range (12 - t.loc).toNat).map fun k : Nat => t.text (t.loc + k))

/-! Decimal numbers. -/

def decimalDigits (n : Nat) : List UInt8 := (Nat.digits 10 n).reverse.map fun d => UInt8.ofNat (48 + d)

def decimal (i : Int) : List UInt8 :=
  if i = 0 then [48] else if i < 0 then 45 :: decimalDigits i.natAbs else decimalDigits i.natAbs

theorem decimalDigits_zero : decimalDigits 0 = [] := by
  simp [decimalDigits]

theorem decimalDigits_pos {n : Nat} (hn : 0 < n) :
    decimalDigits n = decimalDigits (n / 10) ++ [UInt8.ofNat (48 + n % 10)] := by
  unfold decimalDigits
  rw [Nat.digits_def' (by decide) hn, List.reverse_cons, List.map_append]
  rfl

theorem decimalDigits_length (n : Nat) : (decimalDigits n).length = (Nat.digits 10 n).length := by
  unfold decimalDigits
  rw [List.length_map, List.length_reverse]

/-! The buffer. -/

structure Text.Holds (t : Text) (s : List UInt8) : Prop where
  loc : t.loc = 11 - s.length
  stored : Stored (fun k => t.text (t.loc + k)) s
  nonzero : 0 ∉ s

structure Text.Wrote (t : Text) : Prop where
  first : t.loc ∈ t.written
  all : ∀ index ∈ t.written, t.loc ≤ index ∧ index ≤ 11

variable {t : Text} {s : List UInt8}

theorem Text.Holds.prepend (h : t.Holds s) {c : UInt8} (hc : c ≠ 0) : (t.prepend c).Holds (c :: s) := by
  have hloc := h.loc
  refine ⟨?_, ⟨fun k hk => ?_, ?_⟩, ?_⟩
  · change t.loc - 1 = _
    rw [List.length_cons]
    omega
  · cases k with
    | zero =>
      change Function.update t.text (t.loc - 1) c (t.loc - 1 + 0) = c
      rw [Int.add_zero, Function.update_self]
    | succ k =>
      have hrest : k < s.length := Nat.lt_of_succ_lt_succ hk
      change Function.update t.text (t.loc - 1) c (t.loc - 1 + (k + 1 : Nat)) = s[k]
      rw [Function.update_of_ne (by omega), ← h.stored.chars k hrest]
      congr 1
      omega
  · change Function.update t.text (t.loc - 1) c (t.loc - 1 + ((s.length + 1 : Nat) : Int)) = 0
    rw [Function.update_of_ne (by omega), ← h.stored.terminator]
    congr 1
    omega
  · simpa using ⟨hc.symm, h.nonzero⟩

theorem Text.Wrote.prepend (h : t.Wrote) (c : UInt8) : (t.prepend c).Wrote := by
  refine ⟨List.mem_cons_self, fun index hindex => ?_⟩
  have hbegin := h.all t.loc h.first
  obtain rfl | hindex := List.mem_cons.mp hindex
  · exact ⟨le_refl _, by omega⟩
  · have hbounds := h.all index hindex
    change t.loc - 1 ≤ index ∧ index ≤ 11
    omega

theorem Text.Holds.string_eq (h : t.Holds s) : t.string = s := by
  have hloc := h.loc
  exact h.stored.cString_eq h.nonzero (by omega)

theorem Text.Holds.inside_iff (h : t.Holds s) (hwrote : t.Wrote) :
    (∀ index ∈ t.written, 0 ≤ index ∧ index ≤ 11) ↔ s.length ≤ 11 := by
  have hloc := h.loc
  constructor
  · intro hinside
    have hfirst := hinside t.loc hwrote.first
    omega
  · intro hlength index hindex
    have hbounds := hwrote.all index hindex
    omega

theorem itoaLoop_spec {i : Int32} {n : Nat} (hi : i.toInt = -n) (h : t.Holds s) (hwrote : t.Wrote) :
    (itoaLoop i t).Holds (decimalDigits n ++ s) ∧ (itoaLoop i t).Wrote := by
  induction i, t using itoaLoop.induct generalizing n s with
  | case1 t =>
    have hn : n = 0 := by
      change 0 = -(n : Int) at hi
      omega
    rw [itoaLoop, dif_pos rfl, hn, decimalDigits_zero]
    exact ⟨h, hwrote⟩
  | case2 i t hne ih =>
    have hn : 0 < n := by
      refine Nat.pos_of_ne_zero fun hzero => hne (Int32.toInt_inj.mp ?_)
      rw [hi, hzero]
      rfl
    have hdigit : UInt8.ofInt (48 - (i % 10).toInt) = UInt8.ofNat (48 + n % 10) := by
      rw [toInt_mod_ten hi]
      unfold UInt8.ofInt
      congr 1
      omega
    have hnonzero : UInt8.ofNat (48 + n % 10) ≠ 0 :=
      (by decide : ∀ d < 10, UInt8.ofNat (48 + d) ≠ 0) (n % 10) (Nat.mod_lt n (by decide))
    rw [itoaLoop, dif_neg hne]
    rw [hdigit] at ih ⊢
    rw [decimalDigits_pos hn, List.append_assoc]
    exact ih (toInt_div_ten hi) (h.prepend hnonzero) (hwrote.prepend _)

theorem toInt_neg_of_nonneg {i : Int32} (hi : 0 ≤ i.toInt) : (-i).toInt = -(i.toInt.natAbs : Int) := by
  have hhigh := i.toInt_lt
  rw [Int32.toInt_neg, Int.bmod_eq_of_le (by omega) (by omega)]
  omega

/-- The string of `itoa`: a number of ten digits gets a zero in front. -/
def printed (i : Int) : List UInt8 :=
  let digits := decimalDigits i.natAbs
  let digits := if digits.length = 10 then 48 :: digits else digits
  if i < 0 then 45 :: digits else digits

theorem itoa_spec (text : Int → UInt8) (i : Int32) :
    (itoa text i).Holds (printed i.toInt) ∧ (itoa text i).Wrote := by
  have hstart : Text.Holds ⟨Function.update text 11 0, 11, [11]⟩ [] :=
    ⟨rfl, ⟨fun k hk => absurd hk (Nat.not_lt_zero k), Function.update_self (11 : Int) (0 : UInt8) text⟩,
      List.not_mem_nil⟩
  have hfirst : Text.Wrote ⟨Function.update text 11 0, 11, [11]⟩ :=
    ⟨List.mem_singleton.mpr rfl, fun index hindex => by
      obtain rfl := List.mem_singleton.mp hindex
      exact ⟨le_refl _, le_refl _⟩⟩
  have hsign : i ≥ 0 ↔ 0 ≤ i.toInt := Int32.le_iff_toInt_le
  have hnegated : (if i ≥ 0 then -i else i).toInt = -(i.toInt.natAbs : Int) := by
    split
    · next hi => exact toInt_neg_of_nonneg (hsign.mp hi)
    · next hi =>
      have hlow : ¬ 0 ≤ i.toInt := fun h => hi (hsign.mpr h)
      omega
  obtain ⟨hdigits, hwrote⟩ := itoaLoop_spec hnegated hstart hfirst
  rw [List.append_nil] at hdigits
  unfold itoa printed
  dsimp only
  set looped := itoaLoop (if i ≥ 0 then -i else i) ⟨Function.update text 11 0, 11, [11]⟩
  have hten : looped.loc = 1 ↔ (decimalDigits i.toInt.natAbs).length = 10 := by
    have hloc := hdigits.loc
    omega
  have hnumber : (if looped.loc = 1 then looped.prepend 48 else looped).Holds
      (if (decimalDigits i.toInt.natAbs).length = 10 then 48 :: decimalDigits i.toInt.natAbs
        else decimalDigits i.toInt.natAbs) ∧
      (if looped.loc = 1 then looped.prepend 48 else looped).Wrote := by
    by_cases hlength : (decimalDigits i.toInt.natAbs).length = 10
    · rw [if_pos hlength, if_pos (hten.mpr hlength)]
      exact ⟨hdigits.prepend (by decide), hwrote.prepend 48⟩
    · rw [if_neg hlength, if_neg (mt hten.mp hlength)]
      exact ⟨hdigits, hwrote⟩
  by_cases hneg : i.toInt < 0
  · rw [if_pos hneg, if_pos (fun h => absurd (hsign.mp h) (by omega))]
    exact ⟨hnumber.1.prepend (by decide), hnumber.2.prepend 45⟩
  · rw [if_neg hneg, if_neg (not_not.mpr (hsign.mpr (by omega)))]
    exact hnumber

theorem decimalDigits_length_le_iff {n k : Nat} : (decimalDigits n).length ≤ k ↔ n < 10 ^ k := by
  rw [decimalDigits_length]
  exact Nat.digits_length_le_iff (by decide) n

theorem printed_eq_decimal_iff {i : Int} (hi : i.natAbs ≤ 2147483648) :
    printed i = decimal i ↔ i ≠ 0 ∧ i.natAbs ≤ 999999999 := by
  by_cases hzero : i = 0
  · subst hzero
    exact iff_of_false (by decide) fun h => h.1 rfl
  · rw [and_iff_right hzero]
    unfold printed decimal
    rw [if_neg hzero]
    by_cases hshort : i.natAbs ≤ 999999999
    · have hlength : (decimalDigits i.natAbs).length ≤ 9 := decimalDigits_length_le_iff.mpr (by omega)
      simp only [if_neg (show (decimalDigits i.natAbs).length ≠ 10 by omega)]
      exact iff_of_true trivial hshort
    · have hten : (decimalDigits i.natAbs).length ≤ 10 := decimalDigits_length_le_iff.mpr (by omega)
      have hnine : ¬ (decimalDigits i.natAbs).length ≤ 9 :=
        mt decimalDigits_length_le_iff.mp (by omega)
      simp only [if_pos (show (decimalDigits i.natAbs).length = 10 by omega)]
      refine iff_of_false (fun hsame => ?_) hshort
      split at hsame
      · exact absurd (List.cons.inj hsame).2 (List.cons_ne_self _ _)
      · exact absurd hsame (List.cons_ne_self _ _)

/-- The number is printed in its canonical form, inside the buffer, exactly if it is not zero and has
less than ten digits. -/
theorem itoa_decimal_iff (text : Int → UInt8) (i : Int32) :
    ((itoa text i).string = decimal i.toInt ∧
      ∀ index ∈ (itoa text i).written, 0 ≤ index ∧ index ≤ 11) ↔
    i ≠ 0 ∧ i.toInt.natAbs ≤ 999999999 := by
  have hlow := i.le_toInt
  have hhigh := i.toInt_lt
  have hzero : i.toInt = 0 ↔ i = 0 := Int32.toInt_inj (y := 0)
  obtain ⟨hholds, hwrote⟩ := itoa_spec text i
  rw [hholds.string_eq, hholds.inside_iff hwrote, printed_eq_decimal_iff (by omega), hzero.ne]
  refine and_iff_left_of_imp fun hshort => ?_
  have hlength : (decimalDigits i.toInt.natAbs).length ≤ 9 :=
    decimalDigits_length_le_iff.mpr (by omega)
  unfold printed
  simp only [if_neg (show (decimalDigits i.toInt.natAbs).length ≠ 10 by omega)]
  split
  · rw [List.length_cons]
    omega
  · omega

theorem itoa_zero : ¬ ∀ (text : Int → UInt8) (i : Int32),
    (itoa text i).string = decimal i.toInt ∧
      ∀ index ∈ (itoa text i).written, 0 ≤ index ∧ index ≤ 11 := by
  intro hall
  have hstring := (hall (fun _ => 0) 0).1
  rw [(itoa_spec (fun _ => 0) 0).1.string_eq] at hstring
  exact absurd hstring (by decide)

/-! The format. -/

/-- What `printf` reads and prints. The variable arguments are the words on the stack behind the
format. -/
structure Printf where
  p : Nat
  arg : Nat
  /-- The static buffer of `itoa`. -/
  text : Int → UInt8
  printed : List UInt8
  /-- The index of every byte of the format that was read. -/
  reads : List Nat

def Printf.read (s : Printf) : Printf := { s with reads := s.p :: s.reads }

def Printf.putchar (s : Printf) (c : UInt8) : Printf := { s with printed := s.printed ++ [c] }

def printfDirective (format : Int → UInt8) (args : Nat → UInt32) (stringAt : UInt32 → List UInt8)
    (s : Printf) : Printf :=
  if format s.p = 105 then
    let number := itoa s.text (args s.arg).toInt32
    { s with arg := s.arg + 1, text := number.text, printed := s.printed ++ number.string }
  else if format s.p = 115 then
    { s with arg := s.arg + 1, printed := s.printed ++ stringAt (args s.arg) }
  else s.putchar (format s.p)

def printfRound (format : Int → UInt8) (args : Nat → UInt32) (stringAt : UInt32 → List UInt8)
    (s : Printf) : Printf :=
  let s := if format s.p ≠ 37 then s.putchar (format s.p)
    else printfDirective format args stringAt { s with p := s.p + 1 }.read
  { s with p := s.p + 1 }

/-- The loop ends when it reads a zero; the fuel bounds its rounds. -/
def printfLoop (format : Int → UInt8) (args : Nat → UInt32) (stringAt : UInt32 → List UInt8) :
    (fuel : Nat) → Printf → Option Printf
  | 0, _ => none
  | fuel + 1, s =>
      if format s.p = 0 then some s.read
      else printfLoop format args stringAt fuel (printfRound format args stringAt s.read)

def printf (format : Int → UInt8) (args : Nat → UInt32) (stringAt : UInt32 → List UInt8)
    (text : Int → UInt8) (fuel : Nat) : Option Printf :=
  printfLoop format args stringAt fuel ⟨0, 0, text, [], []⟩

def trailing (s : List UInt8) : Nat := (s.reverse.takeWhile (· = 37)).length

theorem trailing_le (s : List UInt8) : trailing s ≤ s.length := by
  have hle := (List.takeWhile_prefix (l := s.reverse) (· = 37)).length_le
  rwa [List.length_reverse] at hle

theorem trailing_cons (c : UInt8) (rest : List UInt8) : trailing (c :: rest) =
    if trailing rest = rest.length then rest.length + (if c = 37 then 1 else 0) else trailing rest := by
  unfold trailing
  rw [List.reverse_cons, List.takeWhile_append, List.length_reverse]
  split
  · rw [List.length_append, List.length_reverse]
    split <;> simp [*]
  · rfl

theorem trailing_cons_of_ne {c : UInt8} (hc : c ≠ 37) (rest : List UInt8) :
    trailing (c :: rest) = trailing rest := by
  rw [trailing_cons, if_neg hc, Nat.add_zero]
  split
  · next h => exact h.symm
  · rfl

theorem even_trailing_directive (c : UInt8) (rest : List UInt8) :
    Even (trailing (37 :: c :: rest)) ↔ Even (trailing rest) := by
  have hle := trailing_le rest
  by_cases hc : c = 37
  · rw [trailing_cons, trailing_cons, hc, if_pos rfl, List.length_cons]
    by_cases hall : trailing rest = rest.length
    · rw [if_pos hall, if_pos rfl, hall, Nat.add_assoc]
      exact Nat.even_add.trans (iff_true_right even_two)
    · rw [if_neg hall, if_neg (by omega)]
  · have hrest := trailing_cons_of_ne hc rest
    rw [trailing_cons, hrest, if_neg (by rw [List.length_cons]; omega)]

variable {format : Int → UInt8} {args : Nat → UInt32} {stringAt : UInt32 → List UInt8}

theorem printfDirective_keeps (s : Printf) :
    (printfDirective format args stringAt s).p = s.p ∧
      (printfDirective format args stringAt s).reads = s.reads := by
  unfold printfDirective
  split
  · exact ⟨rfl, rfl⟩
  · split <;> exact ⟨rfl, rfl⟩

theorem printfRound_plain {s : Printf} (h : format s.p ≠ 37) :
    (printfRound format args stringAt s.read).p = s.p + 1 ∧
      (printfRound format args stringAt s.read).reads = s.p :: s.reads := by
  have hread : format s.read.p ≠ 37 := h
  unfold printfRound
  rw [if_pos hread]
  exact ⟨rfl, rfl⟩

theorem printfRound_directive {s : Printf} (h : format s.p = 37) :
    (printfRound format args stringAt s.read).p = s.p + 2 ∧
      (printfRound format args stringAt s.read).reads = (s.p + 1) :: s.p :: s.reads := by
  have hread : ¬ format s.read.p ≠ 37 := not_not.mpr h
  unfold printfRound
  rw [if_neg hread]
  set next : Printf := Printf.read { s.read with p := s.read.p + 1 }
  obtain ⟨hp, hreads⟩ : (printfDirective format args stringAt next).p = next.p ∧
    (printfDirective format args stringAt next).reads = next.reads := printfDirective_keeps next
  exact ⟨congrArg (· + 1) hp, hreads⟩

theorem printfLoop_p_le {fuel : Nat} {s r : Printf}
    (h : printfLoop format args stringAt fuel s = some r) : s.p ≤ r.p := by
  induction fuel generalizing s with
  | zero => cases h
  | succ fuel ih =>
    rw [printfLoop] at h
    split at h
    · cases h
      exact le_refl _
    · have hrest := ih h
      by_cases hc : format s.p = 37
      · rw [(printfRound_directive hc).1] at hrest
        omega
      · rw [(printfRound_plain hc).1] at hrest
        omega

/-- The loop ends, without a read behind the terminator. -/
def Bounded (format : Int → UInt8) (args : Nat → UInt32) (stringAt : UInt32 → List UInt8)
    (length : Nat) (s : Printf) : Prop :=
  ∃ fuel r, printfLoop format args stringAt fuel s = some r ∧ r.p = length ∧
    ∀ k ∈ r.reads, k ≤ length

theorem bounded_round_iff {length : Nat} {s : Printf} (h : format s.p ≠ 0) :
    Bounded format args stringAt length s ↔
      Bounded format args stringAt length (printfRound format args stringAt s.read) := by
  have hround : ∀ fuel, printfLoop format args stringAt (fuel + 1) s =
      printfLoop format args stringAt fuel (printfRound format args stringAt s.read) :=
    fun fuel => if_neg h
  constructor
  · rintro ⟨fuel, r, hrun, hr⟩
    cases fuel with
    | zero => cases hrun
    | succ fuel => exact ⟨fuel, r, (hround fuel).symm.trans hrun, hr⟩
  · rintro ⟨fuel, r, hrun, hr⟩
    exact ⟨fuel + 1, r, (hround fuel).trans hrun, hr⟩

theorem bounded_iff {str : List UInt8} (hstored : Stored format str) (hstr : 0 ∉ str)
    (left : Nat) {s : Printf} (hleft : s.p + left = str.length)
    (hreads : ∀ k ∈ s.reads, k ≤ str.length) :
    Bounded format args stringAt str.length s ↔ Even (trailing (str.drop s.p)) := by
  induction left using Nat.strong_induction_on generalizing s with
  | _ left ih =>
    have hread : ∀ k ∈ s.p :: s.reads, k ≤ str.length :=
      List.forall_mem_cons.mpr ⟨by omega, hreads⟩
    cases left with
    | zero =>
      have hend : format s.p = 0 := by
        rw [show s.p = str.length from hleft]
        exact hstored.terminator
      rw [show s.p = str.length from hleft, List.drop_length]
      exact iff_of_true ⟨1, s.read, if_pos hend, hleft, hread⟩ Even.zero
    | succ left =>
      have hp : s.p < str.length := by omega
      have hchar : format s.p = str[s.p] := hstored.chars s.p hp
      have hnonzero : format s.p ≠ 0 := fun hzero =>
        hstr (hzero ▸ hchar ▸ List.getElem_mem hp)
      rw [List.drop_eq_getElem_cons hp, ← hchar, bounded_round_iff hnonzero]
      by_cases hc : format s.p = 37
      · obtain ⟨hnext, hreads'⟩ : _ ∧ (printfRound format args stringAt s.read).reads = _ :=
          printfRound_directive hc
        cases left with
        | zero =>
          -- the percent sign is the last character, and the directive is the terminator
          refine iff_of_false ?_ ?_
          · rintro ⟨fuel, r, hrun, hr, -⟩
            have hle := printfLoop_p_le hrun
            omega
          · rw [hc, List.drop_eq_nil_of_le (by omega)]
            decide
        | succ left =>
          have hsecond : s.p + 1 < str.length := by omega
          rw [List.drop_eq_getElem_cons hsecond, hc, even_trailing_directive]
          rw [ih left (by omega) (by omega) (by
            rw [hreads']
            exact List.forall_mem_cons.mpr ⟨by omega, hread⟩), hnext]
      · obtain ⟨hnext, hreads'⟩ : _ ∧ (printfRound format args stringAt s.read).reads = _ :=
          printfRound_plain hc
        rw [trailing_cons_of_ne hc, ih left (by omega) (by omega) (by rwa [hreads']), hnext]

/-- The scan of a format stays in it exactly if the number of percent signs at its end is even: the
last one of an odd number takes the terminator for its directive. -/
theorem printf_bounded_iff {str : List UInt8} (hstored : Stored format str) (hstr : 0 ∉ str)
    (text : Int → UInt8) :
    (∃ fuel r, printf format args stringAt text fuel = some r ∧ r.p = str.length ∧
      ∀ k ∈ r.reads, k ≤ str.length) ↔ Even (trailing str) :=
  bounded_iff hstored hstr str.length (Nat.zero_add _) fun _ hk => absurd hk List.not_mem_nil

theorem stored_charAt (str : List UInt8) : Stored (fun k => charAt str k.toNat) str :=
  ⟨fun _ hk => List.getD_eq_getElem str 0 hk, List.getD_eq_default str 0 (le_refl _)⟩

theorem printf_bounded_number : ∃ fuel r, printf (fun k => charAt [37, 105, 37, 37] k.toNat)
    (fun _ => 7) (fun _ => []) (fun _ => 0) fuel = some r ∧ r.p = 4 ∧ ∀ k ∈ r.reads, k ≤ 4 :=
  (printf_bounded_iff (stored_charAt [37, 105, 37, 37]) (by decide) fun _ => 0).mpr (by decide)

theorem printf_percent : ¬ ∀ (format : Int → UInt8) (str : List UInt8) (args : Nat → UInt32)
    (stringAt : UInt32 → List UInt8) (text : Int → UInt8), Stored format str → 0 ∉ str →
    ∃ fuel r, printf format args stringAt text fuel = some r ∧ r.p = str.length ∧
      ∀ k ∈ r.reads, k ≤ str.length := by
  intro hall
  have hstored := stored_charAt [37]
  have hrun := hall (fun k => charAt [37] k.toNat) [37] (fun _ => 0) (fun _ => []) (fun _ => 0)
    hstored (by decide)
  have heven := (bounded_iff hstored (by decide) 1 rfl fun _ hk =>
    absurd hk List.not_mem_nil).mp hrun
  exact absurd heven (by decide)

end BoiOS
