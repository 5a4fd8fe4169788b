import BoiOS.Library.Transition
import BoiOS.Library.Words
import BoiOS.Programs.CommandLine

/-! The words that `strtok` takes from a string, one call after the other. -/
namespace BoiOS
open Library.StateRun Library.Transition Library.Words

/-- A string in memory that does not go on behind the last address. -/
structure Memory.Holds (m : Memory) (a : Nat) (s : List UInt8) : Prop where
  string : m.HoldsString a s
  nonzero : 0 ∉ s
  room : a + s.length < 4294967296

variable {m : Memory} {a : Nat} {s delimeters : List UInt8}

theorem Memory.Holds.byte (h : m.Holds a s) {k : Nat} (hk : k ≤ s.length) :
    (s ++ [0])[k]? = some (m (a + k)) := by
  have hroom := h.room
  have hbytes : m.bytesAt a (s.length + 1) = s ++ [0] := h.string
  have hplace : u32 ((a : Int) + k) = a + k := u32_natCast (n := a + k) (by omega)
  rw [← hbytes, Memory.getElem?_bytesAt m (Nat.lt_succ_of_le hk), hplace]

theorem Memory.Holds.chars (h : m.Holds a s) (k : Nat) (hk : k < s.length) : m (a + k) = s[k] := by
  have hbyte := h.byte (Nat.le_of_lt hk)
  rw [List.getElem?_append_left hk, List.getElem?_eq_getElem hk] at hbyte
  exact (Option.some.inj hbyte).symm

theorem Memory.Holds.terminator (h : m.Holds a s) : m (a + s.length) = 0 := by
  have hbyte := h.byte (le_refl s.length)
  rw [List.getElem?_append_right (le_refl _), Nat.sub_self] at hbyte
  exact (Option.some.inj hbyte).symm

theorem Memory.Holds.of_chars (hchars : ∀ k (hk : k < s.length), m (a + k) = s[k])
    (hend : m (a + s.length) = 0) (hnonzero : 0 ∉ s) (hroom : a + s.length < 4294967296) :
    m.Holds a s := by
  refine ⟨List.ext_getElem (by simp [Memory.bytesAt]) fun k hk hk' => ?_, hnonzero, hroom⟩
  have hk : k < s.length + 1 := by simpa using hk'
  have hplace : u32 ((a : Int) + k) = a + k := u32_natCast (n := a + k) (by omega)
  have hbyte : (m.bytesAt a (s.length + 1))[k] = m (a + k) := by simp [Memory.bytesAt, hplace]
  rw [hbyte]
  rcases Nat.lt_succ_iff_lt_or_eq.mp hk with hlast | rfl
  · rw [List.getElem_append_left hlast, hchars k hlast]
  · rw [List.getElem_concat_length rfl, hend]

theorem Memory.Holds.drop (h : m.Holds a s) {k : Nat} (hk : k ≤ s.length) :
    m.Holds (a + k) (s.drop k) := by
  have hroom := h.room
  refine .of_chars (fun j hj => ?_) ?_ (fun hzero => h.nonzero (List.mem_of_mem_drop hzero)) ?_
  · rw [List.length_drop] at hj
    rw [List.getElem_drop, Nat.add_assoc]
    exact h.chars (k + j) (by omega)
  · rw [List.length_drop, Nat.add_assoc, Nat.add_sub_cancel' hk]
    exact h.terminator
  · rw [List.length_drop]
    omega

theorem Memory.Holds.head {c : UInt8} (h : m.Holds a (c :: s)) :
    m a = c ∧ c ≠ 0 ∧ m.Holds (a + 1) s :=
  ⟨h.chars 0 (Nat.zero_lt_succ _), fun hzero => h.nonzero (hzero ▸ List.mem_cons_self),
    h.drop (k := 1) (Nat.succ_le_of_lt (Nat.zero_lt_succ _))⟩

theorem Memory.Holds.congr {m' : Memory} (h : m.Holds a s)
    (hsame : ∀ x, a ≤ x → x ≤ a + s.length → m' x = m x) : m'.Holds a s := by
  refine .of_chars (fun k hk => ?_) ?_ h.nonzero h.room
  · rw [hsame (a + k) (by omega) (by omega)]
    exact h.chars k hk
  · rw [hsame (a + s.length) (by omega) (le_refl _)]
    exact h.terminator

theorem Memory.Holds.take (h : m.Holds a s) {k : Nat} (hk : k ≤ s.length) :
    Memory.Holds (Function.update m (a + k) 0) a (s.take k) := by
  have hroom := h.room
  refine .of_chars (fun j hj => ?_) ?_ (fun hzero => h.nonzero (List.mem_of_mem_take hzero)) ?_
  · rw [List.length_take] at hj
    rw [List.getElem_take, Function.update_of_ne (by omega)]
    exact h.chars j (by omega)
  · rw [List.length_take, Nat.min_eq_left hk]
    exact Function.update_self _ _ _
  · rw [List.length_take]
    omega

theorem Memory.Holds.unique {t : List UInt8} (h : m.Holds a s) (h' : m.Holds a t) : s = t := by
  have hle : ∀ {s t : List UInt8}, m.Holds a s → m.Holds a t → t.length ≤ s.length := by
    intro s t h h'
    by_contra hlt
    -- the end of the one string would be a character of the other
    have hzero := h'.chars s.length (by omega)
    rw [h.terminator] at hzero
    exact h'.nonzero (hzero ▸ List.getElem_mem _)
  refine List.ext_getElem (Nat.le_antisymm (hle h' h) (hle h h')) fun k hk hk' => ?_
  rw [← h.chars k hk, h'.chars k hk']

theorem Memory.Holds.stringAt (h : m.Holds a s) (count : Nat) :
    m.stringAt a count = s.take (count - 1) := by
  have hbytes : m.bytesAt a (s.length + 1) = s ++ [0] := h.string
  unfold Memory.stringAt
  rw [strncpy_eq]
  by_cases hshort : count - 1 ≤ s.length
  · rw [← bytesAt_take m a _ _ (Nat.le_succ_of_le hshort), hbytes,
      List.take_append_of_le_length hshort, cString_of_nonzero, List.take_take, Nat.min_self]
    exact fun hzero => h.nonzero (List.mem_of_mem_take hzero)
  · have hcells := List.take_append_drop (s.length + 1) (m.bytesAt a (count - 1))
    rw [bytesAt_take m a _ _ (by omega), hbytes, List.append_assoc, List.singleton_append] at hcells
    rw [← hcells, cString_append h.nonzero]

theorem Memory.holds_copyIn (m : Memory) (hs : 0 ∉ s) (hroom : a + s.length < 4294967296) :
    (m.copyIn a (s ++ [0])).Holds a s :=
  ⟨Memory.holdsString_copyIn (by omega), hs, hroom⟩

/-! One call. -/

def isDelimeter (delimeters : List UInt8) (c : UInt8) : Bool := decide (c ∈ delimeters)

theorem isDelimeter_of_mem {c : UInt8} (h : c ∈ delimeters) : isDelimeter delimeters c = true :=
  decide_eq_true h

theorem isDelimeter_of_not_mem {c : UInt8} (h : c ∉ delimeters) : isDelimeter delimeters c = false :=
  decide_eq_false h

def tokensOf (delimeters s : List UInt8) : List (List UInt8) := words (isDelimeter delimeters) s

/-- A call of `strtok` on the string at a place: the first word of it, or null; the next one is looked
for behind the word. -/
def takeWord (delimeters : List UInt8) (place : Nat) (s : List UInt8) (u : Userland) :
    Nat × Userland :=
  let start := place + (s.takeWhile (isDelimeter delimeters)).length
  let rest := s.dropWhile (isDelimeter delimeters)
  let word := rest.takeWhile fun c => !isDelimeter delimeters c
  if rest = [] then (0, { u with sp := 0 })
  else if word.length = rest.length then (start, { u with sp := start + word.length })
  else (start, { u with
    own := Function.update u.own (start + word.length) 0, sp := start + word.length + 1 })

theorem u32_succ {a : Nat} (h : a + 1 < 4294967296) : u32 ((a : Int) + 1) = a + 1 := by
  unfold u32
  omega

theorem strtokStart_eq (hd : 0 ∉ delimeters) (h : m.Holds a s) {fuel : Nat} (hfuel : s.length < fuel) :
    strtokStart m delimeters fuel a =
      .ok (a + (s.takeWhile (isDelimeter delimeters)).length) := by
  induction s generalizing a fuel with
  | nil =>
    cases fuel with
    | zero => exact absurd hfuel (Nat.not_lt_zero _)
    | succ fuel =>
      have hend : m a = 0 := h.terminator
      rw [strtokStart, hend, if_neg hd]
      rfl
  | cons c s ih =>
    cases fuel with
    | zero => exact absurd hfuel (Nat.not_lt_zero _)
    | succ fuel =>
      obtain ⟨hc, -, hrest⟩ := h.head
      have hroom := h.room
      rw [List.length_cons] at hfuel hroom
      rw [strtokStart, hc]
      by_cases hin : c ∈ delimeters
      · rw [if_pos hin, u32_succ (by omega), ih hrest (by omega),
          List.takeWhile_cons_of_pos (isDelimeter_of_mem hin), List.length_cons]
        congr 1
        omega
      · rw [if_neg hin, List.takeWhile_cons_of_neg (by simp [isDelimeter_of_not_mem hin])]
        rfl

theorem strtokEnd_eq (h : m.Holds a s) {fuel : Nat} (hfuel : s.length < fuel) :
    strtokEnd delimeters fuel m a =
      let word := s.takeWhile fun c => !isDelimeter delimeters c
      .ok (if word.length = s.length then (m, a + word.length)
        else (Function.update m (a + word.length) 0, a + word.length + 1)) := by
  induction s generalizing a fuel with
  | nil =>
    cases fuel with
    | zero => exact absurd hfuel (Nat.not_lt_zero _)
    | succ fuel =>
      have hend : m a = 0 := h.terminator
      rw [strtokEnd, if_pos hend]
      rfl
  | cons c s ih =>
    cases fuel with
    | zero => exact absurd hfuel (Nat.not_lt_zero _)
    | succ fuel =>
      obtain ⟨hc, hnonzero, hrest⟩ := h.head
      have hroom := h.room
      rw [List.length_cons] at hfuel hroom
      rw [strtokEnd, hc, if_neg hnonzero]
      by_cases hin : c ∈ delimeters
      · rw [if_pos hin, u32_succ (by omega),
          List.takeWhile_cons_of_neg (by simp [isDelimeter_of_mem hin])]
        simp
      · rw [if_neg hin, u32_succ (by omega), ih hrest (by omega),
          List.takeWhile_cons_of_pos (by simp [isDelimeter_of_not_mem hin])]
        have hplace : a + 1 + (s.takeWhile fun c => !isDelimeter delimeters c).length =
            a + ((s.takeWhile fun c => !isDelimeter delimeters c).length + 1) := by omega
        simp only [List.length_cons, Nat.add_right_cancel_iff, hplace]

theorem Memory.Holds.rest (h : m.Holds a s) (delimeters : List UInt8) :
    m.Holds (a + (s.takeWhile (isDelimeter delimeters)).length)
      (s.dropWhile (isDelimeter delimeters)) := by
  have hsplit := List.takeWhile_append_dropWhile (p := isDelimeter delimeters) (l := s)
  have hlength := congrArg List.length hsplit
  rw [List.length_append] at hlength
  have hdrop : s.drop (s.takeWhile (isDelimeter delimeters)).length =
      s.dropWhile (isDelimeter delimeters) :=
    (congrArg (List.drop _) hsplit.symm).trans List.drop_left
  rw [← hdrop]
  exact h.drop (by omega)

theorem strtok_of_start {str place : Nat} {u : Userland} (h : u.own.Holds place s)
    (hcall : str ≠ 0 ∨ u.sp ≠ 0)
    (hstart : strtokStart u.own delimeters 4294967296 (if u.sp = 0 then str else u.sp) =
      .ok (place + (s.takeWhile (isDelimeter delimeters)).length)) :
    strtok str delimeters u = .ok (takeWord delimeters place s u) := by
  have hword := h.rest delimeters
  have hroom := hword.room
  unfold strtok takeWord
  rw [if_neg (by rwa [not_and_or]), hstart]
  dsimp only [Except.bind]
  generalize place + (s.takeWhile (isDelimeter delimeters)).length = start at *
  cases hrest : s.dropWhile (isDelimeter delimeters) with
  | nil =>
    rw [hrest] at hword
    have hend : u.own start = 0 := hword.terminator
    rw [if_pos hend, if_pos rfl]
  | cons c rest =>
    rw [hrest] at hword hroom
    obtain ⟨hc, hnonzero, -⟩ := hword.head
    rw [hc, if_neg hnonzero, if_neg (List.cons_ne_nil c rest), strtokEnd_eq hword (by omega)]
    dsimp only [Except.map]
    split
    · rfl
    · rfl

theorem strtok_eq {str place : Nat} {u : Userland} (hd : 0 ∉ delimeters)
    (hplace : (if u.sp = 0 then str else u.sp) = place) (hnonnull : place ≠ 0)
    (h : u.own.Holds place s) : strtok str delimeters u = .ok (takeWord delimeters place s u) := by
  have hroom := h.room
  refine strtok_of_start h ?_ ?_
  · by_contra hnone
    rw [not_or, not_ne_iff, not_ne_iff] at hnone
    rw [if_pos hnone.2] at hplace
    exact hnonnull (hplace.symm.trans hnone.1)
  · rw [hplace]
    exact strtokStart_eq hd h (by omega)

theorem takeWord_nil {place : Nat} (u : Userland) (h : tokensOf delimeters s = []) :
    takeWord delimeters place s u = (0, { u with sp := 0 }) :=
  if_pos (words_eq_nil_iff.mp h)

/-- What a call leaves that takes a word: the word at the pointer, and the string behind it, with the
other words. -/
structure TakesWord (delimeters : List UInt8) (place : Nat) (s word : List UInt8)
    (words : List (List UInt8)) (u : Userland) (r : Nat × Userland) : Prop where
  start : r.1 = place + (s.takeWhile (isDelimeter delimeters)).length
  word : r.2.own.Holds r.1 word
  pending : r.1 < r.2.sp
  rest : ∃ rest, r.2.own.Holds r.2.sp rest ∧ tokensOf delimeters rest = words ∧
    r.2.sp + rest.length = place + s.length
  kernel : r.2.kernel = u.kernel

theorem takeWord_cons {place : Nat} {u : Userland} (h : u.own.Holds place s) {word : List UInt8}
    {words : List (List UInt8)} (hwords : tokensOf delimeters s = word :: words) :
    TakesWord delimeters place s word words u (takeWord delimeters place s u) := by
  have hrest := h.rest delimeters
  have hlength := congrArg List.length
    (List.takeWhile_append_dropWhile (p := isDelimeter delimeters) (l := s))
  rw [List.length_append] at hlength
  have hnonempty : word ≠ [] := by
    have hmem : word ∈ tokensOf delimeters s := by
      rw [hwords]
      exact List.mem_cons_self
    exact ne_nil_of_mem_words hmem
  unfold takeWord
  generalize hstart : place + (s.takeWhile (isDelimeter delimeters)).length = start at *
  cases htail : s.dropWhile (isDelimeter delimeters) with
  | nil =>
    rw [show tokensOf delimeters s = [] from words_eq_nil_iff.mpr htail] at hwords
    cases hwords
  | cons c tail =>
    rw [show tokensOf delimeters s = _ from words_of_dropWhile htail] at hwords
    obtain ⟨hword, hothers⟩ := List.cons.inj hwords
    rw [htail] at hrest hlength
    have hprefix := List.prefix_iff_eq_take.mp
      (List.takeWhile_prefix (l := c :: tail) fun x => !isDelimeter delimeters x)
    have hpositive : 0 < ((c :: tail).takeWhile fun x => !isDelimeter delimeters x).length := by
      rw [hword]
      exact List.length_pos_iff.mpr hnonempty
    have hle := (List.takeWhile_prefix (l := c :: tail) fun x => !isDelimeter delimeters x).length_le
    generalize hn : ((c :: tail).takeWhile fun x => !isDelimeter delimeters x).length = n at *
    rw [hword] at hprefix
    dsimp only
    rw [if_neg (List.cons_ne_nil c tail), hn, hprefix]
    by_cases hall : n = (c :: tail).length
    · rw [if_pos hall, hall, List.take_length]
      refine ⟨hstart.symm, hrest, by dsimp only; omega, ⟨[], ?_, ?_, ?_⟩, rfl⟩
      · have hend := hrest.drop (le_refl _)
        rwa [List.drop_length] at hend
      · rw [← hothers, hall, List.drop_eq_nil_of_le (Nat.le_succ _)]
        rfl
      · rw [List.length_nil, ← hlength]
        dsimp only
        omega
    · rw [if_neg hall]
      refine ⟨hstart.symm, hrest.take hle, by dsimp only; omega, ⟨_, ?_, hothers, ?_⟩, rfl⟩
      · refine (hrest.drop (k := n + 1) (by omega)).congr fun x hlow _ => ?_
        exact Function.update_of_ne (by omega) _ _
      · rw [List.length_drop]
        dsimp only
        omega

/-! All calls for a string. -/

/-- The calls of `strtok`, the first one with the string and the others without one, up to the first
that returns null. The words are those at the pointers that are returned. -/
inductive Tokenizes (delimeters : List UInt8) :
    (str : Nat) → Userland → List (List UInt8) → Userland → Prop
  | done {str : Nat} {u u' : Userland} (h : strtok str delimeters u = .ok (0, u')) :
      Tokenizes delimeters str u [] u'
  | word {str token : Nat} {u u' u'' : Userland} {word : List UInt8} {words : List (List UInt8)}
      (h : strtok str delimeters u = .ok (token, u')) (hnonnull : token ≠ 0)
      (hword : u'.own.Holds token word) (hrest : Tokenizes delimeters 0 u' words u'') :
      Tokenizes delimeters str u (word :: words) u''

theorem tokenizes_from (hd : 0 ∉ delimeters) {str place : Nat} {u : Userland}
    {words : List (List UInt8)} (hplace : (if u.sp = 0 then str else u.sp) = place)
    (hnonnull : place ≠ 0) (h : u.own.Holds place s) (hwords : tokensOf delimeters s = words) :
    ∃ u', Tokenizes delimeters str u words u' ∧ u'.sp = 0 := by
  induction words generalizing str place s u with
  | nil =>
    have hcall := strtok_eq hd hplace hnonnull h
    rw [takeWord_nil u hwords] at hcall
    exact ⟨_, .done hcall, rfl⟩
  | cons word words ih =>
    have htakes := takeWord_cons h hwords
    have hcall := strtok_eq hd hplace hnonnull h
    generalize takeWord delimeters place s u = r at htakes hcall
    obtain ⟨rest, hrest, htokens, -⟩ := htakes.rest
    have hstart := htakes.start
    have hpending : r.2.sp ≠ 0 := by
      have hlt := htakes.pending
      omega
    obtain ⟨u', hothers, hend⟩ := ih (if_neg hpending) hpending hrest htokens
    exact ⟨u', .word hcall (by omega) htakes.word hothers, hend⟩

/-- When nothing is pending, the calls for a string return its words in order, and nothing is pending
afterwards. -/
theorem strtok_tokenizes {str : Nat} {u : Userland} (hidle : u.sp = 0) (hstr : str ≠ 0)
    (hd : 0 ∉ delimeters) (h : u.own.Holds str s) :
    ∃ u', Tokenizes delimeters str u (tokensOf delimeters s) u' ∧ u'.sp = 0 :=
  tokenizes_from hd (if_pos hidle) hstr h rfl

def memoryWith (a : Nat) (s : List UInt8) : Memory := fun x => if x < a then 0 else s.getD (x - a) 0

theorem memoryWith_holds {a : Nat} {s : List UInt8} (hs : 0 ∉ s) (hroom : a + s.length < 4294967296) :
    (memoryWith a s).Holds a s := by
  refine .of_chars (fun k hk => ?_) ?_ hs hroom
  · simp [memoryWith, hk]
  · simp [memoryWith]

theorem strtok_tokenizes_two : ∃ u', Tokenizes [32, 44] 0x1000
    ⟨emptyKernel 16, memoryWith 0x1000 [32, 97, 98, 44, 32, 99], 0⟩ [[97, 98], [99]] u' ∧
      u'.sp = 0 :=
  strtok_tokenizes (u := ⟨emptyKernel 16, memoryWith 0x1000 [32, 97, 98, 44, 32, 99], 0⟩) rfl
    (show 0x1000 ≠ 0 by decide) (show 0 ∉ ([32, 44] : List UInt8) by decide)
    (memoryWith_holds (by decide) (by decide))

/-! A new string while another one is pending. -/

def FirstPlace (m : Memory) (delimeters : List UInt8) (a p : Nat) : Prop :=
  ∃ n < 4294967296, p = (fun x : Nat => u32 (x + 1))^[n] a ∧ m p ∉ delimeters ∧
    ∀ j < n, m ((fun x : Nat => u32 (x + 1))^[j] a) ∈ delimeters

theorem strtokStart_eq_ok_iff {fuel p : Nat} : strtokStart m delimeters fuel a = .ok p ↔
    ∃ n < fuel, p = (fun x : Nat => u32 (x + 1))^[n] a ∧ m p ∉ delimeters ∧
      ∀ j < n, m ((fun x : Nat => u32 (x + 1))^[j] a) ∈ delimeters := by
  induction fuel generalizing a with
  | zero => exact iff_of_false (fun h => by cases h) fun ⟨n, hn, _⟩ => absurd hn (Nat.not_lt_zero n)
  | succ fuel ih =>
    rw [strtokStart]
    by_cases hin : m a ∈ delimeters
    · rw [if_pos hin, ih]
      constructor
      · rintro ⟨n, hn, hp, hfree, hbefore⟩
        refine ⟨n + 1, Nat.succ_lt_succ hn, hp, hfree, fun j hj => ?_⟩
        cases j with
        | zero => exact hin
        | succ j => exact hbefore j (Nat.lt_of_succ_lt_succ hj)
      · rintro ⟨n, hn, hp, hfree, hbefore⟩
        cases n with
        | zero =>
          have hsame : p = a := hp
          exact absurd hin (hsame ▸ hfree)
        | succ n =>
          exact ⟨n, Nat.lt_of_succ_lt_succ hn, hp, hfree, fun j hj =>
            hbefore (j + 1) (Nat.succ_lt_succ hj)⟩
    · rw [if_neg hin, Except.ok.injEq]
      constructor
      · rintro rfl
        exact ⟨0, Nat.zero_lt_succ _, rfl, hin, fun j hj => absurd hj (Nat.not_lt_zero j)⟩
      · rintro ⟨n, hn, hp, hfree, hbefore⟩
        cases n with
        | zero => exact hp.symm
        | succ n => exact absurd (hbefore 0 (Nat.zero_lt_succ _)) hin

theorem strtokEnd_eq_ok {fuel sp : Nat} {m' : Memory}
    (h : strtokEnd delimeters fuel m a = .ok (m', sp)) :
    m' = m ∧ m sp = 0 ∨ ∃ x, m x ∈ delimeters ∧ m' x = 0 := by
  induction fuel generalizing a with
  | zero => cases h
  | succ fuel ih =>
    rw [strtokEnd] at h
    split at h
    · next hend =>
      rw [Except.ok.injEq, Prod.mk.injEq] at h
      exact .inl ⟨h.1.symm, h.2 ▸ hend⟩
    · split at h
      · next hin =>
        rw [Except.ok.injEq, Prod.mk.injEq] at h
        exact .inr ⟨a, hin, by rw [← h.1]; exact Function.update_self _ _ _⟩
      · exact ih h

theorem strtok_takes_first_iff {str : Nat} {u : Userland} (hstr : str ≠ 0) (hd : 0 ∉ delimeters)
    (h : u.own.Holds str s) : strtok str delimeters u = .ok (takeWord delimeters str s u) ↔
      u.sp = 0 ∨ ∃ p, FirstPlace u.own delimeters u.sp p ∧
        (p = str + (s.takeWhile (isDelimeter delimeters)).length ∨
          u.own p = 0 ∧ tokensOf delimeters s = []) := by
  by_cases hidle : u.sp = 0
  · exact iff_of_true (strtok_eq hd (if_pos hidle) hstr h) (.inl hidle)
  · rw [or_iff_right hidle]
    constructor
    · intro hcall
      unfold strtok at hcall
      rw [if_neg fun hnull => hstr hnull.1, if_neg hidle] at hcall
      cases hstart : strtokStart u.own delimeters 4294967296 u.sp with
      | error stop =>
        rw [hstart] at hcall
        cases hcall
      | ok p =>
        rw [hstart] at hcall
        dsimp only [Except.bind] at hcall
        refine ⟨p, strtokStart_eq_ok_iff.mp hstart, ?_⟩
        cases hwords : tokensOf delimeters s with
        | nil =>
          rw [takeWord_nil u hwords] at hcall
          refine .inr ⟨by_contra fun hend => ?_, rfl⟩
          rw [if_neg hend] at hcall
          -- the pointer would be null, at a word that ends there or whose end was stored
          cases hword : strtokEnd delimeters 4294967296 u.own p with
          | error stop =>
            rw [hword] at hcall
            cases hcall
          | ok r =>
            rw [hword] at hcall
            simp only [Except.map, Except.ok.injEq, Prod.mk.injEq, Userland.mk.injEq, true_and] at hcall
            obtain ⟨hp, hown, hsp⟩ := hcall
            rcases strtokEnd_eq_ok hword with ⟨-, hzero⟩ | ⟨x, hin, hzero⟩
            · rw [hsp, ← hp] at hzero
              exact hend hzero
            · rw [hown] at hzero
              exact hd (hzero ▸ hin)
        | cons word words =>
          have hfirst := (takeWord_cons h hwords).start
          generalize takeWord delimeters str s u = r at hcall hfirst
          refine .inl ?_
          by_cases hend : u.own p = 0
          · rw [if_pos hend, Except.ok.injEq] at hcall
            rw [← hcall] at hfirst
            dsimp only at hfirst
            omega
          · rw [if_neg hend] at hcall
            cases hword : strtokEnd delimeters 4294967296 u.own p with
            | error stop =>
              rw [hword] at hcall
              cases hcall
            | ok end' =>
              rw [hword] at hcall
              rw [← Except.ok.inj hcall] at hfirst
              exact hfirst
    · rintro ⟨p, hfirst, hsame | ⟨hend, hnone⟩⟩
      · rw [hsame] at hfirst
        refine strtok_of_start h (.inl hstr) ?_
        rw [if_neg hidle]
        exact strtokStart_eq_ok_iff.mpr hfirst
      · rw [takeWord_nil u hnone]
        unfold strtok
        rw [if_neg fun hnull => hstr hnull.1, if_neg hidle, strtokStart_eq_ok_iff.mpr hfirst]
        exact if_pos hend

/-- A call: the memory of the program at the call, and the string in which the next word is to be
looked for. -/
structure StrtokCall where
  own : Memory
  str : Nat
  delimeters : List UInt8
  s : List UInt8

def StrtokCall.start (c : StrtokCall) (u : Userland) : Userland := { u with own := c.own }

def StrtokCall.place (c : StrtokCall) (u : Userland) : Nat := if c.str = 0 then u.sp else c.str

def StrtokCall.expected (c : StrtokCall) (u : Userland) : Nat × Userland :=
  if c.place u = 0 then (0, c.start u) else takeWord c.delimeters (c.place u) c.s (c.start u)

/-- Nothing is pending when a new string comes, or it makes no difference. -/
def StrtokCall.Clean (c : StrtokCall) (u : Userland) : Prop :=
  c.str = 0 ∨ u.sp = 0 ∨ ∃ p, FirstPlace c.own c.delimeters u.sp p ∧
    (p = c.str + (c.s.takeWhile (isDelimeter c.delimeters)).length ∨
      c.own p = 0 ∧ tokensOf c.delimeters c.s = [])

/-- The next call. Before it the program changed its memory as it liked, but for the string. -/
def strtokStep : Step Userland StrtokCall := fun u c u' =>
  0 ∉ c.delimeters ∧ (c.place u ≠ 0 → c.own.Holds (c.place u) c.s) ∧
    ∃ token, strtok c.str c.delimeters (c.start u) = .ok (token, u')

theorem StrtokCall.expected_iff {c : StrtokCall} {u u' : Userland} (h : strtokStep u c u') :
    strtok c.str c.delimeters (c.start u) = .ok (c.expected u) ↔ c.Clean u := by
  obtain ⟨hd, hholds, -⟩ := h
  unfold Clean expected
  by_cases hstr : c.str = 0
  · have hplace : c.place u = u.sp := if_pos hstr
    rw [hplace] at hholds ⊢
    refine iff_of_true ?_ (.inl hstr)
    by_cases hidle : u.sp = 0
    · rw [if_pos hidle]
      exact if_pos ⟨hstr, hidle⟩
    · rw [if_neg hidle]
      exact strtok_eq hd (if_neg hidle) hidle (hholds hidle)
  · have hplace : c.place u = c.str := if_neg hstr
    rw [hplace] at hholds ⊢
    rw [if_neg hstr, or_iff_right hstr]
    exact strtok_takes_first_iff hstr hd (hholds hstr)

/-- In a run of calls each one takes the first word of its new string, or of what is left of the last
one, exactly if no new string comes while another one is pending. -/
theorem strtok_restarts_iff {u : Userland} {run : List (StrtokCall × Userland)}
    (hpath : Path strtokStep u run) :
    Along (fun u c _ => strtok c.str c.delimeters (c.start u) = .ok (c.expected u)) u run ↔
      Along (fun u c _ => c.Clean u) u run :=
  along_iff (fun _ _ _ (_ : True) _ _ => trivial)
    (fun _ _ _ _ hstep => StrtokCall.expected_iff hstep) u run trivial hpath

def twoStrings : Memory := fun x => if x < 0x2000 then memoryWith 0x1000 [97, 32, 98] x
  else memoryWith 0x2000 [99] x

theorem twoStrings_first : twoStrings.Holds 0x1000 [97, 32, 98] :=
  (memoryWith_holds (by decide) (by decide)).congr fun x _ hx =>
    if_pos (Nat.lt_of_le_of_lt hx (by decide))

theorem twoStrings_second : twoStrings.Holds 0x2000 [99] :=
  (memoryWith_holds (by decide) (by decide)).congr fun _ hx _ => if_neg (Nat.not_lt.mpr hx)

def idleUserland : Userland := ⟨emptyKernel 16, twoStrings, 0⟩

def firstString : StrtokCall := ⟨twoStrings, 0x1000, [32], [97, 32, 98]⟩

def pendingUserland : Userland :=
  { idleUserland with own := Function.update twoStrings 0x1001 0, sp := 0x1002 }

theorem firstString_taken : strtok 0x1000 [32] idleUserland = .ok (0x1000, pendingUserland) := by
  have htaken : strtok 0x1000 [32] idleUserland =
      .ok (takeWord [32] 0x1000 [97, 32, 98] idleUserland) :=
    strtok_eq (by decide) (if_pos rfl) (by decide) twoStrings_first
  exact htaken

theorem firstString_step : strtokStep idleUserland firstString pendingUserland :=
  ⟨by decide, fun _ => twoStrings_first, _, firstString_taken⟩

theorem strtok_restarts_iff_firstString :
    strtok firstString.str firstString.delimeters (firstString.start idleUserland) =
      .ok (firstString.expected idleUserland) := by
  have hpath : Path strtokStep idleUserland [(firstString, pendingUserland)] :=
    ⟨firstString_step, trivial⟩
  exact ((strtok_restarts_iff hpath).mpr ⟨.inr (.inl rfl), trivial⟩).1

def secondString : StrtokCall := ⟨pendingUserland.own, 0x2000, [32], [99]⟩

theorem strtok_not_always_restarts : ¬ ∀ (u : Userland) (run : List (StrtokCall × Userland)),
    Path strtokStep u run →
      Along (fun u c _ => strtok c.str c.delimeters (c.start u) = .ok (c.expected u)) u run := by
  intro hall
  have hpending : pendingUserland.own.Holds 0x1002 [98] :=
    (twoStrings_first.drop (k := 2) (by decide)).congr fun x hx _ =>
      Function.update_of_ne (by omega) _ _
  have hsecond : pendingUserland.own.Holds 0x2000 [99] :=
    twoStrings_second.congr fun x hx _ => Function.update_of_ne (by omega) _ _
  have hcall : strtok 0x2000 [32] pendingUserland =
      .ok (takeWord [32] 0x1002 [98] pendingUserland) :=
    strtok_eq (by decide) (if_neg (by decide)) (by decide) hpending
  have hpath : Path strtokStep idleUserland [(firstString, pendingUserland),
      (secondString, (takeWord [32] 0x1002 [98] pendingUserland).2)] :=
    ⟨firstString_step, ⟨by decide, fun _ => hsecond, _, hcall⟩, trivial⟩
  have hexpected := (hall idleUserland _ hpath).2.1
  have htoken := congrArg Prod.fst (Except.ok.inj (hcall.symm.trans hexpected))
  exact absurd htoken (by decide)

end BoiOS
