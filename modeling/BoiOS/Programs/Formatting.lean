import BoiOS.Programs.Printing

/-! What `printf` of stdlib/src/stdio.c prints. The bytes behind the format pointer are read as
directives up to the first zero that is none; where a percent sign is the last character, the
terminator is a directive and what lies behind it is read on. -/
namespace BoiOS

inductive Directive
  | plain (c : UInt8)
  | number
  | string
  /-- A percent sign with any other character, which is printed. -/
  | percent (c : UInt8)

namespace Directive

def bytes : Directive → List UInt8
  | plain c => [c]
  | number => [37, 105]
  | string => [37, 115]
  | percent c => [37, c]

/-- The bytes are read as this directive. -/
def WellFormed : Directive → Prop
  | plain c => c ≠ 0 ∧ c ≠ 37
  | number => True
  | string => True
  | percent c => c ≠ 105 ∧ c ≠ 115

def arity : Directive → Nat
  | plain _ => 0
  | number => 1
  | string => 1
  | percent _ => 0

def rendered (stringAt : UInt32 → List UInt8) (arg : UInt32) : Directive → List UInt8
  | plain c => [c]
  | number => printed arg.toInt32.toInt
  | string => stringAt arg
  | percent c => [c]

def Lies (d : Directive) (format : Int → UInt8) (p : Nat) : Prop :=
  ∀ k (hk : k < d.bytes.length), format ((p : Int) + (k : Nat)) = d.bytes[k]

end Directive

def render (args : Nat → UInt32) (stringAt : UInt32 → List UInt8) (n : Nat) :
    List Directive → List UInt8
  | [] => []
  | d :: rest => d.rendered stringAt (args n) ++ render args stringAt (n + d.arity) rest

/-- The format from `p` on consists of the directives, with a zero behind them. -/
def Spells (format : Int → UInt8) (p : Nat) (directives : List Directive) : Prop :=
  Stored (fun k => format ((p : Int) + k)) (directives.flatMap Directive.bytes)

variable {format : Int → UInt8} {args : Nat → UInt32} {stringAt : UInt32 → List UInt8}
variable {p : Nat} {d : Directive} {rest directives : List Directive}

theorem spells_nil : Spells format p [] ↔ format p = 0 := by
  constructor
  · intro h
    have hzero := h.terminator
    rwa [List.flatMap_nil, List.length_nil, Int.natCast_zero, Int.add_zero] at hzero
  · intro hzero
    refine ⟨fun k hk => absurd hk (Nat.not_lt_zero k), ?_⟩
    rwa [List.flatMap_nil, List.length_nil, Int.natCast_zero, Int.add_zero]

theorem spells_cons : Spells format p (d :: rest) ↔
    d.Lies format p ∧ Spells format (p + d.bytes.length) rest := by
  unfold Spells
  rw [List.flatMap_cons]
  constructor
  · intro h
    refine ⟨fun k hk => ?_, fun k hk => ?_, ?_⟩
    · rw [← List.getElem_append_left hk]
      exact h.chars k (by rw [List.length_append]; omega)
    · have hchar := h.chars (d.bytes.length + k) (by rw [List.length_append]; omega)
      rw [List.getElem_append_right (Nat.le_add_right _ _)] at hchar
      simp only [Nat.add_sub_cancel_left] at hchar
      rw [← hchar]
      congr 1
      push_cast
      omega
    · have hzero := h.terminator
      rw [List.length_append] at hzero
      rw [← hzero]
      congr 1
      push_cast
      omega
  · rintro ⟨hlies, hrest⟩
    refine ⟨fun k hk => ?_, ?_⟩
    · by_cases hfirst : k < d.bytes.length
      · rw [List.getElem_append_left hfirst]
        exact hlies k hfirst
      · rw [List.length_append] at hk
        rw [List.getElem_append_right (Nat.not_lt.mp hfirst),
          ← hrest.chars (k - d.bytes.length) (by omega)]
        congr 1
        push_cast
        omega
    · rw [List.length_append]
      refine Eq.trans ?_ hrest.terminator
      congr 1
      push_cast
      omega

/-! One round. -/

theorem Directive.Lies.first (h : d.Lies format p) (hd : d.WellFormed) : format p ≠ 0 := by
  cases d with
  | plain c =>
    rw [← Int.add_zero (p : Int), show format (p + 0) = c from h 0 (Nat.zero_lt_succ _)]
    exact hd.1
  | number | string | percent c =>
    rw [← Int.add_zero (p : Int), show format (p + 0) = 37 from h 0 (Nat.zero_lt_succ _)]
    decide

theorem exists_directive (h : format p ≠ 0) : ∃ d : Directive, d.WellFormed ∧ d.Lies format p := by
  have hzero : format ((p : Int) + (0 : Nat)) = format p := by rw [Int.natCast_zero, Int.add_zero]
  by_cases hpercent : format p = 37
  · -- the second byte may be anything
    have htwo : ∀ (d : Directive) (c : UInt8), d.bytes = [37, c] → format ((p : Int) + (1 : Nat)) = c →
        d.Lies format p := by
      intro d c hbytes hc k hk
      simp only [hbytes] at hk ⊢
      match k, hk with
      | 0, _ => exact hzero.trans hpercent
      | 1, _ => exact hc
    by_cases hnumber : format ((p : Int) + (1 : Nat)) = 105
    · exact ⟨.number, trivial, htwo _ _ rfl hnumber⟩
    · by_cases hstring : format ((p : Int) + (1 : Nat)) = 115
      · exact ⟨.string, trivial, htwo _ _ rfl hstring⟩
      · exact ⟨.percent _, ⟨hnumber, hstring⟩, htwo _ _ rfl rfl⟩
  · refine ⟨.plain (format p), ⟨h, hpercent⟩, fun k hk => ?_⟩
    obtain rfl := Nat.lt_one_iff.mp hk
    exact hzero

structure Printf.Takes (s : Printf) (stringAt : UInt32 → List UInt8) (args : Nat → UInt32)
    (d : Directive) (s' : Printf) : Prop where
  p : s'.p = s.p + d.bytes.length
  arg : s'.arg = s.arg + d.arity
  printed : s'.printed = s.printed ++ d.rendered stringAt (args s.arg)

theorem itoa_string (text : Int → UInt8) (i : Int32) : (itoa text i).string = printed i.toInt :=
  (itoa_spec text i).1.string_eq

theorem printfDirective_takes {s : Printf} (hd : d.WellFormed) {c : UInt8} (hbytes : d.bytes = [37, c])
    (hc : format s.p = c) :
    (printfDirective format args stringAt s).p = s.p ∧
      (printfDirective format args stringAt s).arg = s.arg + d.arity ∧
      (printfDirective format args stringAt s).printed =
        s.printed ++ d.rendered stringAt (args s.arg) := by
  refine ⟨(printfDirective_keeps s).1, ?_⟩
  unfold printfDirective
  cases d with
  | plain => cases hbytes
  | number =>
    obtain rfl : 105 = c := (List.cons.inj (List.cons.inj hbytes).2).1
    rw [if_pos hc]
    exact ⟨rfl, congrArg (s.printed ++ ·) (itoa_string _ _)⟩
  | string =>
    obtain rfl : 115 = c := (List.cons.inj (List.cons.inj hbytes).2).1
    rw [if_neg (by rw [hc]; decide), if_pos hc]
    exact ⟨rfl, rfl⟩
  | percent c' =>
    obtain rfl : c' = c := (List.cons.inj (List.cons.inj hbytes).2).1
    rw [if_neg (by rw [hc]; exact hd.1), if_neg (by rw [hc]; exact hd.2)]
    refine ⟨rfl, ?_⟩
    change s.printed ++ [format s.p] = s.printed ++ [c']
    rw [hc]

theorem printfRound_takes {s : Printf} (hd : d.WellFormed) (h : d.Lies format s.p) :
    s.Takes stringAt args d (printfRound format args stringAt s.read) := by
  have hplain : ∀ c, d = .plain c →
      s.Takes stringAt args d (printfRound format args stringAt s.read) := by
    rintro c rfl
    have hc : format s.p = c := by
      rw [← Int.add_zero (s.p : Int)]
      exact h 0 (Nat.zero_lt_succ _)
    have hread : format s.read.p ≠ 37 := by
      change format s.p ≠ 37
      rw [hc]
      exact hd.2
    unfold printfRound
    rw [if_pos hread]
    refine ⟨rfl, rfl, ?_⟩
    change s.printed ++ [format s.p] = s.printed ++ [c]
    rw [hc]
  have hpercent : ∀ c, d.bytes = [37, c] →
      s.Takes stringAt args d (printfRound format args stringAt s.read) := by
    intro c hbytes
    have hlies : ∀ k (hk : k < [37, c].length), format ((s.p : Int) + (k : Nat)) = [37, c][k] := by
      intro k hk
      have hchar := h k (by rw [hbytes]; exact hk)
      simp only [hbytes] at hchar
      exact hchar
    have hfirst : format s.p = 37 := by
      rw [← Int.add_zero (s.p : Int)]
      exact hlies 0 (Nat.zero_lt_succ _)
    have hread : ¬ format s.read.p ≠ 37 := not_not.mpr hfirst
    unfold printfRound
    rw [if_neg hread]
    set next : Printf := Printf.read { s.read with p := s.read.p + 1 } with hnext
    have hsecond : format next.p = c := by
      rw [hnext]
      exact hlies 1 (Nat.lt_succ_self 1)
    obtain ⟨hp, harg, hprinted⟩ : _ ∧ (printfDirective format args stringAt next).arg = _ ∧ _ :=
      printfDirective_takes hd hbytes hsecond
    refine ⟨?_, harg, hprinted⟩
    rw [hbytes]
    exact congrArg (· + 1) hp
  cases d with
  | plain c => exact hplain c rfl
  | number => exact hpercent 105 rfl
  | string => exact hpercent 115 rfl
  | percent c => exact hpercent c rfl

/-! The whole format. -/

def argumentCount (directives : List Directive) : Nat := (directives.map Directive.arity).sum

theorem argumentCount_cons : argumentCount (d :: rest) = d.arity + argumentCount rest := by
  unfold argumentCount
  rw [List.map_cons, List.sum_cons]

theorem printfLoop_of_spells {s : Printf} (hd : ∀ d ∈ directives, d.WellFormed)
    (h : Spells format s.p directives) :
    ∃ fuel r, printfLoop format args stringAt fuel s = some r ∧
      r.printed = s.printed ++ render args stringAt s.arg directives ∧
      r.arg = s.arg + argumentCount directives := by
  induction directives generalizing s with
  | nil =>
    refine ⟨1, s.read, if_pos (spells_nil.mp h), ?_, rfl⟩
    change s.printed = s.printed ++ []
    rw [List.append_nil]
  | cons d rest ih =>
    obtain ⟨hlies, hrest⟩ := spells_cons.mp h
    obtain ⟨hfirst, hothers⟩ := List.forall_mem_cons.mp hd
    have hround : s.Takes stringAt args d (printfRound format args stringAt s.read) :=
      printfRound_takes hfirst hlies
    rw [← hround.p] at hrest
    obtain ⟨fuel, r, hrun, hprinted, harg⟩ := ih hothers hrest
    refine ⟨fuel + 1, r, (if_neg (hlies.first hfirst)).trans hrun, ?_, ?_⟩
    · rw [hprinted, hround.printed, hround.arg, List.append_assoc]
      rfl
    · rw [harg, hround.arg, argumentCount_cons, Nat.add_assoc]

theorem spells_of_printfLoop {fuel : Nat} {s r : Printf}
    (h : printfLoop format args stringAt fuel s = some r) :
    ∃ directives, (∀ d ∈ directives, d.WellFormed) ∧ Spells format s.p directives ∧
      r.printed = s.printed ++ render args stringAt s.arg directives ∧
      r.arg = s.arg + argumentCount directives := by
  induction fuel generalizing s with
  | zero => cases h
  | succ fuel ih =>
    rw [printfLoop] at h
    by_cases hend : format s.p = 0
    · rw [if_pos hend] at h
      obtain rfl := Option.some.inj h
      refine ⟨[], fun _ hd => absurd hd List.not_mem_nil, spells_nil.mpr hend, ?_, rfl⟩
      change s.printed = s.printed ++ []
      rw [List.append_nil]
    · rw [if_neg hend] at h
      obtain ⟨d, hd, hlies⟩ := exists_directive hend
      have hround : s.Takes stringAt args d (printfRound format args stringAt s.read) :=
        printfRound_takes hd hlies
      obtain ⟨rest, hrest, hspells, hprinted, harg⟩ := ih h
      rw [hround.p] at hspells
      refine ⟨d :: rest, List.forall_mem_cons.mpr ⟨hd, hrest⟩, spells_cons.mpr ⟨hlies, hspells⟩, ?_, ?_⟩
      · rw [hprinted, hround.printed, hround.arg, List.append_assoc]
        rfl
      · rw [harg, hround.arg, argumentCount_cons, Nat.add_assoc]

/-- `printf` comes to an end exactly if directives lie from the format on with a zero behind them, and
then it has printed them in order, each number and string with the next argument. -/
theorem printf_prints_iff (text : Int → UInt8) (out : List UInt8) (taken : Nat) :
    (∃ fuel r, printf format args stringAt text fuel = some r ∧ r.printed = out ∧ r.arg = taken) ↔
    ∃ directives, (∀ d ∈ directives, d.WellFormed) ∧
      Stored format (directives.flatMap Directive.bytes) ∧
      out = render args stringAt 0 directives ∧ taken = argumentCount directives := by
  have hstart : ∀ directives, Spells format 0 directives ↔
      Stored format (directives.flatMap Directive.bytes) := by
    intro directives
    unfold Spells
    have hsame : (fun k => format (((0 : Nat) : Int) + k)) = format := by
      funext k
      rw [Int.natCast_zero, Int.zero_add]
    rw [hsame]
  constructor
  · rintro ⟨fuel, r, hrun, rfl, rfl⟩
    obtain ⟨directives, hd, hspells, hprinted, harg⟩ := spells_of_printfLoop hrun
    exact ⟨directives, hd, (hstart directives).mp hspells, hprinted, harg.trans (Nat.zero_add _)⟩
  · rintro ⟨directives, hd, hstored, rfl, rfl⟩
    obtain ⟨fuel, r, hrun, hprinted, harg⟩ :
        ∃ fuel r, printfLoop format args stringAt fuel ⟨0, 0, text, [], []⟩ = some r ∧ _ :=
      printfLoop_of_spells hd ((hstart directives).mpr hstored)
    exact ⟨fuel, r, hrun, hprinted, harg.trans (Nat.zero_add _)⟩

/-- A percent sign at the end prints the terminator, and the string behind it. -/
example : render (fun _ => 7) (fun _ => []) 0 [.plain 97, .percent 0, .plain 98, .number] =
    [97, 0, 98, 55] := by
  decide

end BoiOS
