import Mathlib.Data.List.TakeWhile

/-! The words of a list: its maximal runs without a separator, the empty ones left out. -/
namespace Library.Words

variable {α : Type*} {p : α → Bool}

def words (p : α → Bool) (l : List α) : List (List α) := (l.splitOnP p).filter fun w => !w.isEmpty

@[simp] theorem words_nil : words p [] = [] := rfl

theorem ne_nil_of_mem_words {w l : List α} (h : w ∈ words p l) : w ≠ [] := by
  simpa using (List.mem_filter.mp h).2

theorem words_cons_of_pos {c : α} (hc : p c = true) (l : List α) : words p (c :: l) = words p l := by
  unfold words
  rw [List.splitOnP_cons_eq_if_modifyHead, if_pos hc]
  rfl

theorem words_dropWhile (l : List α) : words p (l.dropWhile p) = words p l := by
  induction l with
  | nil => rfl
  | cons c l ih =>
    by_cases hc : p c = true
    · rw [List.dropWhile_cons_of_pos hc, words_cons_of_pos hc, ih]
    · rw [List.dropWhile_cons_of_neg hc]

theorem words_of_forall_neg {w : List α} (hw : w ≠ []) (h : ∀ x ∈ w, p x = false) :
    words p w = [w] := by
  unfold words
  rw [List.splitOnP_eq_singleton h, List.filter_cons_of_pos (by simpa using hw), List.filter_nil]

theorem words_append_cons {w : List α} (hw : w ≠ []) (h : ∀ x ∈ w, p x = false) {c : α}
    (hc : p c = true) (l : List α) : words p (w ++ c :: l) = w :: words p l := by
  unfold words
  rw [List.splitOnP_append_cons_of_forall_mem h c hc, List.filter_cons_of_pos (by simpa using hw)]

theorem words_cons_of_neg {c : α} (hc : p c = false) (l : List α) :
    words p (c :: l) = (c :: l).takeWhile (fun x => !p x) ::
      words p ((c :: l).drop (((c :: l).takeWhile fun x => !p x).length + 1)) := by
  have hword : (c :: l).takeWhile (fun x => !p x) ≠ [] := by
    rw [List.takeWhile_cons_of_pos (by simpa using hc)]
    exact List.cons_ne_nil _ _
  have hneg : ∀ x ∈ (c :: l).takeWhile (fun x => !p x), p x = false := fun x hx => by
    simpa using List.mem_takeWhile_imp hx
  have hsplit := List.takeWhile_append_dropWhile (p := fun x => !p x) (l := c :: l)
  cases hrest : (c :: l).dropWhile (fun x => !p x) with
  | nil =>
    rw [hrest, List.append_nil] at hsplit
    rw [List.drop_eq_nil_of_le (by rw [hsplit]; exact Nat.le_succ _), words_nil]
    rw [hsplit] at hword hneg ⊢
    exact words_of_forall_neg hword hneg
  | cons sep rest =>
    have hsep : p sep = true := by
      have hhead := List.head_dropWhile_not (fun x => !p x) (l := c :: l) (by rw [hrest]; simp)
      simpa [hrest] using hhead
    rw [hrest] at hsplit
    generalize (c :: l).takeWhile (fun x => !p x) = word at *
    rw [← hsplit, words_append_cons hword hneg hsep]
    simp

theorem words_of_dropWhile {l rest : List α} {c : α} (h : l.dropWhile p = c :: rest) :
    words p l = (c :: rest).takeWhile (fun x => !p x) ::
      words p ((c :: rest).drop (((c :: rest).takeWhile fun x => !p x).length + 1)) := by
  have hc : p c = false := by
    have hhead := List.head_dropWhile_not p (l := l) (by rw [h]; exact List.cons_ne_nil c rest)
    simpa [h] using hhead
  rw [← words_dropWhile, h, words_cons_of_neg hc]

theorem words_eq_nil_iff {l : List α} : words p l = [] ↔ l.dropWhile p = [] := by
  constructor
  · intro hnone
    cases hrest : l.dropWhile p with
    | nil => rfl
    | cons c rest =>
      rw [words_of_dropWhile hrest] at hnone
      cases hnone
  · intro hrest
    rw [← words_dropWhile, hrest, words_nil]

/-! The words of a part of the list. -/

theorem flatten_words (l : List α) : (words p l).flatten = l.filter fun x => !p x := by
  have hsplit : (l.splitOnP p).flatten = l.filter fun x => !p x := by
    induction l with
    | nil => rfl
    | cons c l ih =>
      rw [List.splitOnP_cons_eq_if_modifyHead]
      by_cases hc : p c = true
      · rw [if_pos hc, List.flatten_cons, List.nil_append, ih, List.filter_cons_of_neg (by simpa)]
      · rw [if_neg hc, List.filter_cons_of_pos (by simpa using hc), ← ih]
        cases hl : l.splitOnP p with
        | nil => exact absurd hl (List.splitOnP_ne_nil p l)
        | cons w ws => rfl
  unfold words
  rw [List.flatten_filter_not_isEmpty, hsplit]

theorem length_words_le (l : List α) : (words p l).length ≤ l.length := by
  have hflatten : (words p l).length ≤ (words p l).flatten.length := by
    have hne : ∀ w ∈ words p l, w ≠ [] := fun w => ne_nil_of_mem_words
    generalize words p l = ws at hne ⊢
    induction ws with
    | nil => exact le_refl _
    | cons w ws ih =>
      have hw := List.length_pos_iff.mpr (hne w List.mem_cons_self)
      have hws := ih fun v hv => hne v (List.mem_cons_of_mem w hv)
      rw [List.flatten_cons, List.length_append, List.length_cons]
      omega
  rw [flatten_words] at hflatten
  exact hflatten.trans (List.length_filter_le _ l)

theorem words_append_of_pos {seps : List α} (h : ∀ x ∈ seps, p x = true) (l : List α) :
    words p (l ++ seps) = words p l := by
  cases seps with
  | nil => rw [List.append_nil]
  | cons c seps =>
    have hseps : words p seps = [] := words_eq_nil_iff.mpr
      (List.dropWhile_eq_nil_iff.mpr fun x hx => h x (List.mem_cons_of_mem c hx))
    unfold words at hseps ⊢
    rw [List.splitOnP_append_cons l seps (h c List.mem_cons_self), List.filter_append, hseps,
      List.append_nil]

theorem length_flatten_cut_le (ws : List (List α)) (m n : Nat) :
    ((ws.take n).map (List.take m)).flatten.length ≤ ws.flatten.length := by
  induction ws generalizing n with
  | nil => simp
  | cons w ws ih =>
    cases n with
    | zero => exact Nat.zero_le _
    | succ n =>
      have hws := ih n
      have hw := List.length_take_le' m w
      rw [List.take_succ_cons, List.map_cons, List.flatten_cons, List.flatten_cons,
        List.length_append, List.length_append]
      omega

/-- The first words of the front, each cut to a length, are all words exactly if nothing was cut off:
no word behind the front, none longer than that, and none too many. -/
theorem cut_words_eq_iff {l : List α} {k m n : Nat} :
    ((words p (l.take k)).take n).map (List.take m) = words p l ↔
      (∀ x ∈ l.drop k, p x = true) ∧ (words p l).length ≤ n ∧ ∀ w ∈ words p l, w.length ≤ m := by
  have hfront : (∀ x ∈ l.drop k, p x = true) → words p (l.take k) = words p l := fun hbehind => by
    rw [← words_append_of_pos hbehind (l.take k), List.take_append_drop]
  constructor
  · intro hcut
    have hbehind : ∀ x ∈ l.drop k, p x = true := by
      have hle := length_flatten_cut_le (words p (l.take k)) m n
      rw [hcut, flatten_words, flatten_words, ← List.take_append_drop k l, List.filter_append,
        List.length_append, List.take_append_drop] at hle
      have hnone : ((l.drop k).filter fun x => !p x) = [] :=
        List.length_eq_zero_iff.mp (by omega)
      intro x hx
      simpa using List.filter_eq_nil_iff.mp hnone x hx
    rw [hfront hbehind] at hcut
    have hlength := congrArg List.length hcut
    rw [List.length_map, List.length_take] at hlength
    have hcount : (words p l).length ≤ n := by omega
    rw [List.take_of_length_le hcount] at hcut
    refine ⟨hbehind, hcount, fun w hw => ?_⟩
    have hsame : (words p l).map (List.take m) = (words p l).map id := by rw [hcut, List.map_id]
    have hword := congrArg List.length (List.map_inj_left.mp hsame w hw)
    rw [List.length_take, id] at hword
    omega
  · rintro ⟨hbehind, hcount, hlength⟩
    rw [hfront hbehind, List.take_of_length_le hcount]
    calc (words p l).map (List.take m)
      _ = (words p l).map id := List.map_inj_left.mpr fun w hw => List.take_of_length_le (hlength w hw)
      _ = words p l := List.map_id _

end Library.Words
