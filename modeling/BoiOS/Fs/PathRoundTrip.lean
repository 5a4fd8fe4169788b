import BoiOS.Fs.PathParserSpec
import Mathlib.Data.List.Infix

/-! Printing and parsing of paths. A printed path is parsed back to its parts; an accepted path is
the print of its parts exactly if no two delimiters follow one another in it. -/
namespace BoiOS
open Library.StateRun

def joinParts : List (List UInt8) → List UInt8
  | [] => []
  | [part] => part
  | part :: next :: rest => part ++ pathDelimiter :: joinParts (next :: rest)

/-- `d:/p1/p2/.../pn` -/
def pathString (drive : UInt8) (parts : List (List UInt8)) : List UInt8 :=
  drive :: 58 :: pathDelimiter :: joinParts parts

/-- A name that a path can hold: not empty, without a delimiter and without a terminator. -/
structure PartName (part : List UInt8) : Prop where
  nonempty : part ≠ []
  delimiter : pathDelimiter ∉ part
  terminator : 0 ∉ part

theorem PartName.inPathPart {part : List UInt8} (h : PartName part) (c : UInt8) (hc : c ∈ part) :
    inPathPart c = true := by
  have hdelimiter : c ≠ pathDelimiter := fun heq => h.delimiter (heq ▸ hc)
  have hterminator : c ≠ 0 := fun heq => h.terminator (heq ▸ hc)
  unfold BoiOS.inPathPart
  simp [hdelimiter, hterminator]

theorem pathComponents_of_empty {path : List UInt8} (h : path.takeWhile inPathPart = []) :
    pathComponents path = [] := by
  rw [pathComponents, if_pos h]

theorem PartName.components_last {part : List UInt8} (h : PartName part) :
    pathComponents part = [part] := by
  have htake : part.takeWhile BoiOS.inPathPart = part :=
    List.takeWhile_eq_self_iff.mpr h.inPathPart
  have hdrop : part.dropWhile BoiOS.inPathPart = [] :=
    List.dropWhile_eq_nil_iff.mpr h.inPathPart
  rw [pathComponents, htake, hdrop, if_neg h.nonempty]
  exact congrArg _ (pathComponents_of_empty rfl)

theorem PartName.components_append {part : List UInt8} (h : PartName part) (rest : List UInt8) :
    pathComponents (part ++ pathDelimiter :: rest) = part :: pathComponents rest := by
  have hstop : ¬ BoiOS.inPathPart pathDelimiter = true := by decide
  have htake : (part ++ pathDelimiter :: rest).takeWhile BoiOS.inPathPart = part := by
    rw [List.takeWhile_append_of_pos h.inPathPart, List.takeWhile_cons_of_neg hstop,
      List.append_nil]
  have hdrop : (part ++ pathDelimiter :: rest).dropWhile BoiOS.inPathPart =
      pathDelimiter :: rest := by
    rw [List.dropWhile_append_of_pos h.inPathPart, List.dropWhile_cons_of_neg hstop]
  rw [pathComponents, htake, hdrop, if_neg h.nonempty]
  rfl

theorem pathComponents_joinParts (parts : List (List UInt8)) (h : ∀ part ∈ parts, PartName part) :
    pathComponents (joinParts parts) = parts ∧
      (parts ≠ [] → pathComponents (joinParts parts ++ [pathDelimiter]) = parts) := by
  induction parts with
  | nil => exact ⟨pathComponents_of_empty rfl, fun hne => absurd rfl hne⟩
  | cons part rest ih =>
    have hpart := h part (List.mem_cons_self ..)
    obtain ⟨hrest, htrailing⟩ := ih fun p hp => h p (List.mem_cons_of_mem _ hp)
    cases rest with
    | nil =>
      refine ⟨hpart.components_last, fun _ => ?_⟩
      rw [joinParts, hpart.components_append]
      exact congrArg _ (pathComponents_of_empty rfl)
    | cons next rest =>
      refine ⟨?_, fun _ => ?_⟩
      · rw [joinParts, hpart.components_append, hrest]
      · rw [joinParts, List.append_assoc, List.cons_append, hpart.components_append,
          htrailing (List.cons_ne_nil _ _)]

/-! The path from its components. -/

theorem pathDelimiter_of_stop {path : List UInt8} (h0 : 0 ∉ path)
    (h : path.takeWhile inPathPart = []) : path = [] ∨ ∃ rest, path = pathDelimiter :: rest := by
  cases path with
  | nil => exact Or.inl rfl
  | cons c rest =>
    refine Or.inr ⟨rest, ?_⟩
    have hstop : ¬ inPathPart c = true := by
      intro hin
      rw [List.takeWhile_cons_of_pos hin] at h
      exact List.cons_ne_nil _ _ h
    have hc : c ≠ 0 := fun heq => h0 (heq ▸ List.mem_cons_self ..)
    unfold inPathPart at hstop
    simp only [bne_iff_ne, ne_eq, hc, not_false_eq_true, Bool.and_eq_true, and_true, not_not] at hstop
    rw [hstop]

theorem exists_tail_of_components (path : List UInt8) (h0 : 0 ∉ path)
    (hne : pathComponents path ≠ []) : ∃ tail, path = joinParts (pathComponents path) ++ tail ∧
      (tail = [] ∨ tail = [pathDelimiter] ∨ [pathDelimiter, pathDelimiter] <+: tail) := by
  induction path using pathComponents.induct with
  | case1 path hempty => exact absurd (pathComponents_of_empty hempty) hne
  | case2 path hpart ih =>
    have hsplit := List.takeWhile_append_dropWhile (p := inPathPart) (l := path)
    have hcomponents : pathComponents path = path.takeWhile inPathPart ::
        pathComponents (skipDelimiter (path.dropWhile inPathPart)) := by
      rw [pathComponents, if_neg hpart]
    have hdrop0 : 0 ∉ path.dropWhile inPathPart := fun hmem =>
      h0 ((List.dropWhile_suffix inPathPart).subset hmem)
    have hdropStop : (path.dropWhile inPathPart).takeWhile inPathPart = [] := by
      rw [List.takeWhile_eq_nil_iff]
      intro hpos
      exact List.dropWhile_get_zero_not inPathPart path hpos
    rcases pathDelimiter_of_stop hdrop0 hdropStop with hend | ⟨rest, hrest⟩
    · rw [hend, List.append_nil] at hsplit
      refine ⟨[], ?_, Or.inl rfl⟩
      rw [hcomponents, hend, skipDelimiter, if_neg (by decide), pathComponents_of_empty rfl, joinParts,
        List.append_nil, hsplit]
    · have hskip : skipDelimiter (path.dropWhile inPathPart) = rest := by
        rw [hrest]
        rfl
      rw [hskip] at hcomponents ih
      rw [hrest] at hsplit hdrop0
      have hrest0 : 0 ∉ rest := fun hmem => hdrop0 (List.mem_cons_of_mem _ hmem)
      by_cases hnone : pathComponents rest = []
      · have hrestStop : rest.takeWhile inPathPart = [] := by
          by_contra hsome
          rw [pathComponents, if_neg hsome] at hnone
          exact List.cons_ne_nil _ _ hnone
        refine ⟨pathDelimiter :: rest, ?_, ?_⟩
        · rw [hcomponents, hnone, joinParts, hsplit]
        · rcases pathDelimiter_of_stop hrest0 hrestStop with rfl | ⟨more, rfl⟩
          · exact Or.inr (Or.inl rfl)
          · exact Or.inr (Or.inr ⟨more, rfl⟩)
      · obtain ⟨tail, htail, hshape⟩ := ih hrest0 hnone
        refine ⟨tail, ?_, hshape⟩
        obtain ⟨next, others, hlist⟩ := List.exists_cons_of_ne_nil hnone
        rw [hcomponents, hlist, joinParts, List.append_assoc, List.cons_append, ← hlist, ← htail,
          hsplit]

theorem pathComponents_partName (path : List UInt8) :
    ∀ part ∈ pathComponents path, PartName part := by
  induction path using pathComponents.induct with
  | case1 path hempty =>
    intro part hmem
    rw [pathComponents_of_empty hempty] at hmem
    exact absurd hmem List.not_mem_nil
  | case2 path hpart ih =>
    intro part hmem
    rw [pathComponents, if_neg hpart] at hmem
    rcases List.mem_cons.mp hmem with rfl | hmem
    · refine ⟨hpart, fun hdelimiter => ?_, zero_not_mem_takeWhile path⟩
      exact absurd (List.mem_takeWhile_imp hdelimiter) (by decide)
    · exact ih part hmem

/-! Two delimiters. -/

theorem double_of_append {a : UInt8} {part rest : List UInt8} (ha : a ∉ part)
    (h : [a, a] <:+: part ++ rest) : [a, a] <:+: rest := by
  induction part with
  | nil => exact h
  | cons c part ih =>
    obtain ⟨hc, hpart⟩ := not_or.mp (mt List.mem_cons.mpr ha)
    rw [List.cons_append, List.infix_cons_iff] at h
    rcases h with hprefix | hinfix
    · exact absurd (List.cons_prefix_cons.mp hprefix).1 hc
    · exact ih hpart hinfix

theorem not_double_joinParts (parts : List (List UInt8)) (h : ∀ part ∈ parts, PartName part) :
    ¬ [pathDelimiter, pathDelimiter] <:+: joinParts parts ++ [pathDelimiter] := by
  intro hdouble
  induction parts with
  | nil => exact absurd hdouble.length_le (by decide)
  | cons part rest ih =>
    have hpart := h part (List.mem_cons_self ..)
    cases rest with
    | nil =>
      have hlast := double_of_append hpart.delimiter hdouble
      exact absurd hlast.length_le (by decide)
    | cons next rest =>
      rw [joinParts, List.append_assoc, List.cons_append] at hdouble
      have hafter := double_of_append hpart.delimiter hdouble
      rw [List.infix_cons_iff] at hafter
      rcases hafter with hprefix | hinfix
      · -- the part after the delimiter would begin with one
        have hnext := h next (List.mem_cons_of_mem _ (List.mem_cons_self ..))
        obtain ⟨c, name, hname⟩ := List.exists_cons_of_ne_nil hnext.nonempty
        have hhead := (List.cons_prefix_cons.mp hprefix).2
        obtain ⟨more, hmore⟩ : ∃ more, joinParts (next :: rest) ++ [pathDelimiter] = c :: more := by
          rw [hname]
          cases rest with
          | nil => exact ⟨_, rfl⟩
          | cons _ _ => exact ⟨_, rfl⟩
        rw [hmore] at hhead
        have heq := (List.cons_prefix_cons.mp hhead).1
        refine hnext.delimiter ?_
        rw [hname, heq]
        exact List.mem_cons_self ..
      · exact ih (fun p hp => h p (List.mem_cons_of_mem _ hp)) hinfix

theorem joinParts_components_iff {path : List UInt8} (h0 : 0 ∉ path)
    (hne : pathComponents path ≠ []) :
    (path = joinParts (pathComponents path) ∨
        path = joinParts (pathComponents path) ++ [pathDelimiter]) ↔
      ¬ [pathDelimiter, pathDelimiter] <:+: path := by
  have hnot := not_double_joinParts _ (pathComponents_partName path)
  constructor
  · rintro (hpath | hpath)
    · rw [hpath]
      exact fun hdouble => hnot (hdouble.trans (List.prefix_append _ _).isInfix)
    · rw [hpath]
      exact hnot
  · intro hsingle
    obtain ⟨tail, htail, rfl | rfl | hdouble⟩ := exists_tail_of_components path h0 hne
    · exact Or.inl (by rwa [List.append_nil] at htail)
    · exact Or.inr htail
    · refine absurd ?_ hsingle
      rw [htail]
      exact hdouble.isInfix.trans (List.suffix_append _ _).isInfix

/-! With enough free blocks the parser returns. -/

theorem pathparserGetPathPart_ok {path : List UInt8} {k : Kernel} (hwf : k.heap.WellFormed)
    (hroom : path.takeWhile inPathPart ≠ [] → 0 < k.heap.freeBlocks) :
    ∃ r k', pathparserGetPathPart path k = .ok (r, k') ∧
      (path.takeWhile inPathPart ≠ [] → k'.heap.freeBlocks + 1 = k.heap.freeBlocks) := by
  obtain ⟨ptr, k₁, halloc, hserved⟩ := kzalloc_small hwf
    (show 1 ≤ boiosMaxPath by decide) (by decide)
  unfold pathparserGetPathPart
  rw [bind_of_ok halloc]
  by_cases hempty : path.takeWhile inPathPart = []
  · rw [if_pos hempty]
    exact ⟨_, _, rfl, fun hne => absurd hempty hne⟩
  · obtain ⟨hnull, hblocks⟩ := hserved (hroom hempty)
    rw [if_neg hempty, if_neg hnull]
    exact ⟨_, _, rfl, fun _ => hblocks⟩

theorem pathparserParsePathPart_ok {P : Set Int} {lastPart : Nat} {path : List UInt8} {k : Kernel}
    (h : k.heap.Guards P) (hlength : path.length < boiosMaxPath)
    (hlastP : lastPart ≠ 0 → k.heap.blockOf lastPart ∈ P)
    (hlast : lastPart ≠ 0 → ∃ last, k.pathParts lastPart = some last)
    (hroom : path.takeWhile inPathPart ≠ [] → 2 ≤ k.heap.freeBlocks) :
    ∃ r k', pathparserParsePathPart lastPart path k = .ok (r, k') ∧
      (path.takeWhile inPathPart ≠ [] → k'.heap.freeBlocks + 2 = k.heap.freeBlocks) := by
  obtain ⟨⟨name, rest⟩, k₁, hget, hblocks₁⟩ := pathparserGetPathPart_ok h.wellFormed
    fun hne => lt_of_lt_of_le (by decide) (hroom hne)
  obtain ⟨-, hframe₁, hparts₁, hresult⟩ := pathparserGetPathPart_spec h hlength hget
  unfold pathparserParsePathPart
  rw [bind_of_ok hget]
  dsimp only
  cases hresult with
  | none hnone _ =>
    rw [if_pos rfl]
    exact ⟨_, _, rfl, fun hne => absurd hnone hne⟩
  | some _ hsome hname _ hguards _ =>
    have hfree := hroom hsome
    have hfree₁ := hblocks₁ hsome
    rw [if_neg (hname.ne_zero h.wellFormed)]
    obtain ⟨part, k₂, halloc, hserved⟩ := kzalloc_small hguards.wellFormed
      (show 1 ≤ sizeofPathPart by decide) (by decide)
    obtain ⟨hobtained, hk₂⟩ := kzalloc_obtained hguards (by decide) halloc
    obtain ⟨hnull, hblocks₂⟩ := hserved (by omega)
    rw [bind_of_ok halloc, if_neg hnull, bind_of_ok (modify_apply _ _)]
    by_cases hfirst : lastPart = 0
    · rw [if_pos hfirst]
      refine ⟨_, _, rfl, fun _ => ?_⟩
      change k₂.heap.freeBlocks + 2 = _
      omega
    · obtain ⟨last, hlastEntry⟩ := hlast hfirst
      have hne : lastPart ≠ part := by
        intro heq
        obtain ⟨-, hisfree, -⟩ := hobtained.block.resolve_left hnull
        refine hguards.not_free hisfree (Set.mem_insert_of_mem _ ?_)
        rw [Heap.blockOf_congr hframe₁.start, ← heq]
        exact hlastP hfirst
      have hentry : (putPathPart part ⟨name, 0⟩ k₂).pathParts lastPart = some last := by
        unfold putPathPart
        dsimp only
        rw [Function.update_of_ne hne, hk₂]
        dsimp only
        rw [hparts₁, hlastEntry]
      rw [if_neg hfirst, bind_of_ok (get_apply _), hentry, bind_of_ok (fetch_some _ _)]
      refine ⟨_, _, rfl, fun _ => ?_⟩
      change k₂.heap.freeBlocks + 2 = _
      omega

theorem pathparserParseLoop_ok {P : Set Int} (fuel : Nat) {part name : Nat} {path : List UInt8}
    {k : Kernel} (h : k.heap.Guards P) (hlength : path.length < boiosMaxPath)
    (hfuel : path.length < fuel) (hpart : part ≠ 0) (hpartP : k.heap.blockOf part ∈ P)
    (hentry : k.pathParts part = some ⟨name, 0⟩)
    (hroom : 2 * (pathComponents path).length ≤ k.heap.freeBlocks) :
    ∃ k', pathparserParseLoop fuel part path k = .ok ((), k') := by
  induction fuel generalizing P part name path k with
  | zero => omega
  | succ fuel ih =>
    have hcount : path.takeWhile inPathPart ≠ [] → (pathComponents path).length =
        (pathComponents (skipDelimiter (path.dropWhile inPathPart))).length + 1 := by
      intro hne
      rw [pathComponents, if_neg hne, List.length_cons]
    obtain ⟨⟨next, rest⟩, k₁, hstep, hblocks⟩ := pathparserParsePathPart_ok h hlength
      (fun _ => hpartP) (fun _ => ⟨_, hentry⟩) fun hne => by
        have hlen := hcount hne
        omega
    obtain ⟨rfl, hframe, hparsed⟩ := pathparserParsePathPart_spec h hlength (fun _ => hpartP) hstep
    unfold pathparserParseLoop
    rw [bind_of_ok hstep]
    dsimp only
    cases hparsed with
    | none _ _ _ =>
      rw [if_pos rfl]
      exact ⟨_, rfl⟩
    | some _ str hsome hstr hnext hnew hguards hholds hlast hnextEntry hsame =>
      rw [if_neg (hnext.ne_zero h.wellFormed)]
      have hskip := skipDelimiter_length path
      have hpos := List.length_pos_iff.mpr hsome
      have hlen := hcount hsome
      have hused := hblocks hsome
      refine ih hguards (lt_of_le_of_lt (by omega) hlength) (by omega) (hnext.ne_zero h.wellFormed)
        ?_ hnextEntry (by omega)
      rw [Heap.blockOf_congr hframe.start]
      exact Set.mem_insert _ _

theorem pathparserParse_ok {path : List UInt8} {k : Kernel} (hwf : k.heap.WellFormed) (h0 : 0 ∉ path)
    (haccept : ¬ PathRejected path)
    (hroom : 2 * (pathComponents (path.drop 3)).length + 1 ≤ k.heap.freeBlocks) :
    ∃ root k', pathparserParse path k = .ok (root, k') := by
  have hguards := hwf.guards
  obtain ⟨hlong, hdrive⟩ := not_or.mp haccept
  obtain ⟨-, hget⟩ := pathparserGetDriveByPath_of_not_rejected haccept
  rw [hget] at hdrive
  have hshort : (path.drop 3).length < boiosMaxPath := by
    rw [strlen_of_nonzero h0] at hlong
    unfold boiosMaxPath at hlong ⊢
    rw [List.length_drop]
    omega
  unfold pathparserParse
  rw [if_neg hlong, hget]
  dsimp only at hdrive ⊢
  rw [if_neg hdrive]
  obtain ⟨ptr, k₁, halloc, hserved⟩ := kzalloc_small hwf
    (show 1 ≤ sizeofPathRoot by decide) (by decide)
  obtain ⟨hnull, hblocks⟩ := hserved (by omega)
  have hcreate : pathparserCreateRoot (tonumericdigit (charAt path 0)) k =
      .ok (ptr, putPathRoot ptr ⟨tonumericdigit (charAt path 0), 0⟩ k₁) := by
    unfold pathparserCreateRoot
    rw [bind_of_ok halloc, if_neg hnull]
    rfl
  obtain ⟨-, -, hguards₁, -, -, hroot₁, -⟩ := pathparserCreateRoot_spec hguards hcreate
  have hfree₁ : (putPathRoot ptr ⟨tonumericdigit (charAt path 0), 0⟩ k₁).heap.freeBlocks =
      k₁.heap.freeBlocks := rfl
  rw [bind_of_ok hcreate]
  obtain ⟨⟨first, rest⟩, k₂, hfirst, hblocks₂⟩ := pathparserParsePathPart_ok hguards₁ hshort
    (fun hne => absurd rfl hne) (fun hne => absurd rfl hne) fun hne => by
      rw [pathComponents, if_neg hne, List.length_cons] at hroom
      omega
  obtain ⟨rfl, hframe₂, hparsed⟩ := pathparserParsePathPart_spec hguards₁ hshort
    (fun hne => absurd rfl hne) hfirst
  rw [bind_of_ok hfirst]
  dsimp only
  cases hparsed with
  | none _ _ _ =>
    rw [if_pos rfl]
    exact ⟨_, _, rfl⟩
  | some _ name hsome hname hpart hnew hguards₂ hholds hlast hentry hsame =>
    have hroot₂ : k₂.pathRoots ptr = some ⟨tonumericdigit (charAt path 0), 0⟩ := by
      rw [hframe₂.rest]
      exact hroot₁
    have hskip := skipDelimiter_length (path.drop 3)
    have hused := hblocks₂ hsome
    rw [pathComponents, if_neg hsome, List.length_cons] at hroom
    rw [if_neg (hpart.ne_zero hguards₁.wellFormed), bind_of_ok (get_apply _), hroot₂,
      bind_of_ok (fetch_some _ _), bind_of_ok (modify_apply _ _)]
    obtain ⟨k₃, hloop⟩ := pathparserParseLoop_ok
      ((skipDelimiter ((path.drop 3).dropWhile inPathPart)).length + 1) (k := putPathRoot ptr _ k₂)
      hguards₂ (lt_of_le_of_lt (by omega) hshort) (Nat.lt_succ_self _)
      (hpart.ne_zero hguards₁.wellFormed)
      (by
        change k₂.heap.blockOf first ∈ _
        rw [Heap.blockOf_congr hframe₂.start]
        exact Set.mem_insert _ _) hentry
      (by
        change _ ≤ k₂.heap.freeBlocks
        omega)
    rw [bind_of_ok hloop]
    exact ⟨_, _, rfl⟩

/-! The two directions, for the whole parser. -/

theorem pathString_not_rejected {drive : UInt8} {path : List UInt8}
    (hdrive : isdigit drive = true) (h0 : 0 ∉ path) (hlength : path.length ≤ boiosMaxPath)
    (hpath : ∃ rest, path = drive :: 58 :: pathDelimiter :: rest) : ¬ PathRejected path := by
  obtain ⟨rest, rfl⟩ := hpath
  have hlong : ¬ strlen (drive :: 58 :: pathDelimiter :: rest) > boiosMaxPath := by
    rw [strlen_of_nonzero h0]
    omega
  have hvalid : pathparserPathValidFormat (drive :: 58 :: pathDelimiter :: rest) = true := by
    unfold pathparserPathValidFormat
    rw [strnlen_of_nonzero h0]
    simp only [List.length_cons, charAt, List.getD_cons_zero, List.getD_cons_succ, hdrive,
      Bool.and_true, beq_self_eq_true]
    refine decide_eq_true ?_
    unfold boiosMaxPath
    omega
  refine not_or.mpr ⟨hlong, ?_⟩
  unfold pathparserGetDriveByPath
  rw [hvalid]
  have hdigit : 48 ≤ drive.toNat := by
    unfold isdigit at hdrive
    rw [Bool.and_eq_true, decide_eq_true_eq, decide_eq_true_eq] at hdrive
    exact UInt8.le_iff_toNat_le.mp hdrive.1
  change ¬ tonumericdigit drive < 0
  unfold tonumericdigit
  omega

theorem zero_not_mem_joinParts (parts : List (List UInt8)) (h : ∀ part ∈ parts, PartName part) :
    0 ∉ joinParts parts := by
  induction parts with
  | nil => exact List.not_mem_nil
  | cons part rest ih =>
    have hpart := (h part (List.mem_cons_self ..)).terminator
    have hrest := ih fun p hp => h p (List.mem_cons_of_mem _ hp)
    cases rest with
    | nil => exact hpart
    | cons next rest =>
      rw [joinParts, List.mem_append, List.mem_cons]
      rintro (hmem | hmem | hmem)
      · exact hpart hmem
      · exact absurd hmem (by decide)
      · exact hrest hmem

theorem exists_rest_of_valid {path : List UInt8} (h0 : 0 ∉ path)
    (hvalid : pathparserPathValidFormat path = true) :
    ∃ drive rest, path = drive :: 58 :: pathDelimiter :: rest := by
  unfold pathparserPathValidFormat at hvalid
  rw [strnlen_of_nonzero h0] at hvalid
  dsimp only at hvalid
  rw [Bool.and_eq_true, Bool.and_eq_true, Bool.and_eq_true, decide_eq_true_eq, beq_iff_eq,
    beq_iff_eq] at hvalid
  obtain ⟨⟨hlength, -⟩, hcolon, hdelimiter⟩ := hvalid
  match path with
  | [] => exact absurd hlength (by decide)
  | [_] => exact absurd (show (0 : UInt8) = 58 from hcolon) (by decide)
  | [_, _] => exact absurd (show (0 : UInt8) = pathDelimiter from hdelimiter) (by decide)
  | drive :: colon :: delimiter :: rest =>
    refine ⟨drive, rest, ?_⟩
    rw [show colon = 58 from hcolon, show delimiter = pathDelimiter from hdelimiter]

theorem pathparser_parse_printed (k : Kernel) (hwf : k.heap.WellFormed) (drive : UInt8)
    (hdrive : isdigit drive = true) (parts : List (List UInt8)) (hne : parts ≠ [])
    (hparts : ∀ part ∈ parts, PartName part) (path : List UInt8)
    (hpath : path = pathString drive parts ∨ path = pathString drive parts ++ [pathDelimiter])
    (hlength : path.length ≤ boiosMaxPath)
    (halloc : 2 * parts.length + 2 ≤ k.heap.freeBlocks) :
    ∃ root k', pathparserParse path k = .ok (root, k') ∧ root ≠ 0 ∧
      ∃ r, k'.pathRoots root = some r ∧ r.driveNo = tonumericdigit drive ∧
        k'.PartList r.first parts := by
  obtain ⟨hjoin, htrailing⟩ := pathComponents_joinParts parts hparts
  obtain ⟨rest, hshape, hcomponents⟩ : ∃ rest, path = drive :: 58 :: pathDelimiter :: rest ∧
      pathComponents rest = parts := by
    rcases hpath with hpath | hpath
    · exact ⟨joinParts parts, hpath, hjoin⟩
    · exact ⟨joinParts parts ++ [pathDelimiter], hpath, htrailing hne⟩
  have hrest0 : 0 ∉ path := by
    have hjoin0 := zero_not_mem_joinParts parts hparts
    have hdigit : (0 : UInt8) ≠ drive := by
      rintro rfl
      exact absurd hdrive (by decide)
    have hstring0 : 0 ∉ pathString drive parts := by
      unfold pathString
      simp only [List.mem_cons, not_or]
      exact ⟨hdigit, by decide, by decide, hjoin0⟩
    rcases hpath with rfl | rfl
    · exact hstring0
    · rw [List.mem_append, List.mem_singleton]
      exact not_or.mpr ⟨hstring0, by decide⟩
  have haccept := pathString_not_rejected hdrive hrest0 hlength ⟨rest, hshape⟩
  have hdrop : path.drop 3 = rest := by rw [hshape]; rfl
  have hguards := hwf.guards
  obtain ⟨root, k', hrun⟩ := pathparserParse_ok hwf hrest0 haccept (by
    rw [hdrop, hcomponents]
    omega)
  rcases pathparserParse_spec hguards hrest0 hrun with ⟨hreject, -⟩ | ⟨-, hparsed⟩
  · exact absurd hreject haccept
  · obtain ⟨r, hroot, hdriveNo, hlist⟩ := hparsed.root
    rw [hdrop, hcomponents] at hlist
    rw [hshape] at hdriveNo
    exact ⟨root, k', hrun, hparsed.block.ne_zero hwf, r, hroot, hdriveNo, hlist⟩

theorem partName_a : PartName [97] := ⟨by decide, by decide, by decide⟩

theorem pathparser_parse_printed_ab : ∃ root k',
    pathparserParse (pathString 48 [[97], [97]]) (emptyKernel 8) = .ok (root, k') ∧ root ≠ 0 ∧
      ∃ r, k'.pathRoots root = some r ∧ r.driveNo = tonumericdigit 48 ∧
        k'.PartList r.first [[97], [97]] := by
  refine pathparser_parse_printed (emptyKernel 8) (emptyKernel_wellFormed (by decide)) 48 (by decide)
    [[97], [97]] (by decide) (fun part hpart => ?_) _ (Or.inl rfl) (by decide) (by decide)
  simp only [List.mem_cons, List.not_mem_nil, or_false, or_self] at hpart
  rw [hpart]
  exact partName_a

theorem pathparser_parse_drops_nothing_iff (k k' : Kernel) (hwf : k.heap.WellFormed)
    (path : List UInt8) (h0 : 0 ∉ path) (root : Nat)
    (hrun : pathparserParse path k = .ok (root, k')) (r : PathRoot)
    (hroot : k'.pathRoots root = some r) (haccept : root ≠ 0) (parts : List (List UInt8))
    (hlist : k'.PartList r.first parts) (hne : parts ≠ []) :
    (path = pathString (charAt path 0) parts ∨
        path = pathString (charAt path 0) parts ++ [pathDelimiter]) ↔
      ¬ [pathDelimiter, pathDelimiter] <:+: path.drop 3 := by
  have hguards := hwf.guards
  rcases pathparserParse_spec hguards h0 hrun with ⟨-, hnull, -⟩ | ⟨haccepted, hparsed⟩
  · exact absurd hnull haccept
  · obtain ⟨r', hroot', -, hlist'⟩ := hparsed.root
    rw [hroot, Option.some.injEq] at hroot'
    subst hroot'
    have hparts := hlist.unique hlist'
    rw [hparts] at hne ⊢
    obtain ⟨hvalid, -⟩ := pathparserGetDriveByPath_of_not_rejected haccepted
    have hdrop0 : 0 ∉ path.drop 3 := fun hmem => h0 (List.mem_of_mem_drop hmem)
    rw [← joinParts_components_iff hdrop0 hne]
    obtain ⟨c, rest, rfl⟩ := exists_rest_of_valid h0 hvalid
    simp only [pathString, charAt, List.getD_cons_zero, List.drop_succ_cons, List.drop_zero,
      List.cons_append, List.cons.injEq, true_and]

def doubledPath : List UInt8 := [48, 58, 47, 97, 47, 47, 97]

theorem pathComponents_doubledPath : pathComponents (doubledPath.drop 3) = [[97]] := by
  have happend := partName_a.components_append [47, 97]
  have hstop : pathComponents [47, 97] = [] := pathComponents_of_empty rfl
  rw [hstop] at happend
  exact happend

theorem pathparserParse_doubledPath : ∃ root k' r,
    pathparserParse doubledPath (emptyKernel 8) = .ok (root, k') ∧ root ≠ 0 ∧
      k'.pathRoots root = some r ∧ k'.PartList r.first [[97]] := by
  have hwf : (emptyKernel 8).heap.WellFormed := emptyKernel_wellFormed (by decide)
  have hguards := hwf.guards
  have haccept : ¬ PathRejected doubledPath := by decide
  have hfree : 2 * (pathComponents (doubledPath.drop 3)).length + 1 ≤
      (emptyKernel 8).heap.freeBlocks := by
    rw [pathComponents_doubledPath]
    decide
  obtain ⟨root, k', hrun⟩ := pathparserParse_ok hwf (by decide) haccept hfree
  rcases pathparserParse_spec hguards (by decide) hrun with ⟨hreject, -⟩ | ⟨-, hparsed⟩
  · exact absurd hreject haccept
  · obtain ⟨r, hroot, -, hlist⟩ := hparsed.root
    rw [pathComponents_doubledPath] at hlist
    exact ⟨root, k', r, hrun, hparsed.block.ne_zero hwf, hroot, hlist⟩

theorem pathparser_parse_drops_nothing_iff_doubledPath :
    (doubledPath = pathString (charAt doubledPath 0) [[97]] ∨
        doubledPath = pathString (charAt doubledPath 0) [[97]] ++ [pathDelimiter]) ↔
      ¬ [pathDelimiter, pathDelimiter] <:+: doubledPath.drop 3 := by
  obtain ⟨root, k', r, hrun, haccept, hroot, hlist⟩ := pathparserParse_doubledPath
  exact pathparser_parse_drops_nothing_iff (emptyKernel 8) k'
    (emptyKernel_wellFormed (by decide)) doubledPath (by decide) root hrun r hroot haccept [[97]]
    hlist (by decide)

theorem pathparser_parse_drops_input : ¬ ∀ (k k' : Kernel) (path : List UInt8) (root : Nat)
    (r : PathRoot) (parts : List (List UInt8)), k.heap.WellFormed → 0 ∉ path →
    pathparserParse path k = .ok (root, k') → root ≠ 0 → k'.pathRoots root = some r →
    k'.PartList r.first parts → parts ≠ [] →
    path = pathString (charAt path 0) parts ∨
      path = pathString (charAt path 0) parts ++ [pathDelimiter] := by
  intro hall
  obtain ⟨root, k', r, hrun, haccept, hroot, hlist⟩ := pathparserParse_doubledPath
  have hshape := hall _ k' _ root r _ (emptyKernel_wellFormed (by decide)) (by decide) hrun haccept
    hroot hlist (by decide)
  exact absurd hshape (by decide)

end BoiOS
