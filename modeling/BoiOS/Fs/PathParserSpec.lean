import BoiOS.Fs.PathParser
import BoiOS.Kernel.HeapFrame
import Mathlib.Data.List.TakeWhile

/-! What the path parser returns: the components of the path up to the first empty one, as a
linked list of parts. Every allocation of the parser is a single block, and nothing it does
touches the blocks that were held before. -/
namespace BoiOS
open Library.StateRun

def pathComponents (path : List UInt8) : List (List UInt8) :=
  if path.takeWhile inPathPart = [] then []
  else path.takeWhile inPathPart :: pathComponents (skipDelimiter (path.dropWhile inPathPart))
termination_by path.length
decreasing_by
  rename_i hpart
  have hlength := congrArg List.length (List.takeWhile_append_dropWhile (p := inPathPart) (l := path))
  have hpos := List.length_pos_iff.mpr hpart
  have hskip : (skipDelimiter (path.dropWhile inPathPart)).length ≤
      (path.dropWhile inPathPart).length := by
    unfold skipDelimiter
    split_ifs
    · rw [List.length_drop]
      omega
    · exact le_refl _
  rw [List.length_append] at hlength
  omega

def Kernel.PartList (k : Kernel) : (part : Nat) → List (List UInt8) → Prop
  | part, [] => part = 0
  | part, name :: rest => part ≠ 0 ∧ ∃ p, k.pathParts part = some p ∧ p.partName ≠ 0 ∧ 0 ∉ name ∧
      k.memory.HoldsString p.partName name ∧ k.PartList p.next rest

theorem skipDelimiter_length (path : List UInt8) :
    (skipDelimiter (path.dropWhile inPathPart)).length + (path.takeWhile inPathPart).length ≤
      path.length := by
  have hlength := congrArg List.length (List.takeWhile_append_dropWhile (p := inPathPart) (l := path))
  rw [List.length_append] at hlength
  unfold skipDelimiter
  split_ifs
  · rw [List.length_drop]
    omega
  · omega

theorem zero_not_mem_takeWhile (path : List UInt8) : 0 ∉ path.takeWhile inPathPart := by
  intro hmem
  have hpart := List.mem_takeWhile_imp hmem
  exact absurd hpart (by decide)

theorem holdsString_copyIn (m : Memory) (ptr size : Nat) (s : List UInt8) (hs : s.length < size)
    (hsize : size ≤ 4294967296) : ((m.clear ptr size).copyIn ptr s).HoldsString ptr s := by
  unfold Memory.HoldsString Memory.bytesAt
  apply List.ext_getElem
  · rw [List.length_map, List.length_range, List.length_append, List.length_singleton]
  · intro i hi _
    rw [List.length_map, List.length_range] at hi
    rw [List.getElem_map, List.getElem_range]
    have hindex : u32 ((u32 ((ptr : Int) + i) : Int) - ptr) = i := by
      unfold u32
      omega
    unfold Memory.copyIn Memory.clear
    rw [hindex, if_pos (by omega)]
    by_cases hlast : i < s.length
    · rw [List.getElem?_eq_getElem hlast, Option.getD_some, List.getElem_append_left hlast]
    · rw [List.getElem?_eq_none (by omega), Option.getD_none, List.getElem_append_right (by omega)]
      simp

theorem Memory.HoldsString.congr {m m' : Memory} {ptr : Nat} {s : List UInt8} (h : m.HoldsString ptr s)
    (hsame : ∀ i : Nat, i < s.length + 1 →
      m' (u32 ((ptr : Int) + i)) = m (u32 ((ptr : Int) + i))) : m'.HoldsString ptr s := by
  unfold Memory.HoldsString Memory.bytesAt at h ⊢
  rw [← h]
  apply List.map_congr_left
  intro i hi
  exact hsame i (List.mem_range.mp hi)

theorem Memory.HoldsString.same {P : Set Int} {k k' : Kernel} (hwf : k.heap.WellFormed) {ptr : Nat}
    {s : List UInt8} (h : k.memory.HoldsString ptr s) (hlength : s.length < 4096)
    (hptr : k.heap.IsBlock ptr) (hP : k.heap.blockOf ptr ∈ P) (hsame : k.SameMemory P k') :
    k'.memory.HoldsString ptr s := by
  refine h.congr fun i hi => hsame _ (u32_lt _) ?_
  rwa [Heap.blockOf_near hwf hptr]
  unfold u32
  omega

theorem Memory.HoldsString.unique {m : Memory} {ptr : Nat} {s t : List UInt8} (hs : m.HoldsString ptr s)
    (ht : m.HoldsString ptr t) (hs0 : 0 ∉ s) (ht0 : 0 ∉ t) : s = t := by
  have hlength : ∀ {s t : List UInt8}, m.HoldsString ptr s → m.HoldsString ptr t → 0 ∉ t →
      t.length ≤ s.length := by
    intro s t hs ht ht0
    by_contra hlt
    -- the terminator of the shorter string would be a character of the other
    have hterm : (s ++ [0])[s.length]? = some 0 := by simp
    have hchar : (t ++ [0])[s.length]? = t[s.length]? := List.getElem?_append_left (by omega)
    rw [← hs] at hterm
    rw [← ht] at hchar
    have hsame : (m.bytesAt ptr (t.length + 1))[s.length]? =
        (m.bytesAt ptr (s.length + 1))[s.length]? := by
      unfold Memory.bytesAt
      rw [List.getElem?_map, List.getElem?_map, List.getElem?_range (by omega),
        List.getElem?_range (by omega)]
    rw [hsame, hterm] at hchar
    exact ht0 (List.mem_of_getElem? hchar.symm)
  have heq : s.length = t.length := le_antisymm (hlength ht hs hs0) (hlength hs ht ht0)
  unfold Memory.HoldsString at hs ht
  rw [heq, ht] at hs
  exact List.append_cancel_right hs.symm

theorem Kernel.PartList.unique {k : Kernel} {names : List (List UInt8)} {part : Nat}
    {names' : List (List UInt8)} (h : k.PartList part names) (h' : k.PartList part names') :
    names = names' := by
  induction names generalizing part names' with
  | nil =>
    cases names' with
    | nil => rfl
    | cons name' rest' => exact absurd h h'.1
  | cons name rest ih =>
    cases names' with
    | nil => exact absurd h' h.1
    | cons name' rest' =>
      obtain ⟨-, p, hp, -, hname, hholds, hrest⟩ := h
      obtain ⟨-, p', hp', -, hname', hholds', hrest'⟩ := h'
      rw [hp, Option.some.injEq] at hp'
      subst hp'
      rw [hholds.unique hholds' hname hname', ih hrest hrest']

/-! One part. -/

/-- What a parser function leaves: only the heap, memory and the parts differ, and of these
nothing that belongs to the blocks of `P`. -/
structure ParserFrame (P : Set Int) (k k' : Kernel) : Prop where
  rest : k' = { k with heap := k'.heap, memory := k'.memory, pathParts := k'.pathParts }
  start : k'.heap.startAddress = k.heap.startAddress
  total : k'.heap.table.totalEntries = k.heap.table.totalEntries
  memory : k.SameMemory P k'

theorem ParserFrame.trans {P : Set Int} {k k' k'' : Kernel} (h : ParserFrame P k k')
    (h' : ParserFrame P k' k'') : ParserFrame P k k'' := by
  refine ⟨?_, h'.start.trans h.start, h'.total.trans h.total, h.memory.trans h'.memory h.start⟩
  have hrest := h'.rest
  rw [h.rest] at hrest
  exact hrest

theorem ParserFrame.mono {P Q : Set Int} {k k' : Kernel} (h : ParserFrame Q k k') (hle : P ⊆ Q) :
    ParserFrame P k k' :=
  ⟨h.rest, h.start, h.total, fun x hx hP => h.memory x hx (hle hP)⟩

theorem ParserFrame.put {P : Set Int} {k k' : Kernel} (h : ParserFrame P k k') (ptr : Nat)
    (part : PathPart) : ParserFrame P k (putPathPart ptr part k') := by
  refine ⟨?_, h.start, h.total, h.memory⟩
  unfold putPathPart
  rw [h.rest]

theorem kzalloc_parserFrame {P : Set Int} {k k' : Kernel} {size ptr : Nat} (h : k.heap.Guards P)
    (hsize : size ≤ 4096) (hrun : kzalloc size k = .ok (ptr, k')) : ParserFrame P k k' := by
  obtain ⟨hobtained, hk'⟩ := kzalloc_obtained h (by omega) hrun
  exact ⟨by rw [hk'], hobtained.start, hobtained.total, kzalloc_memory h hsize hrun⟩

inductive PathPartResult (P : Set Int) (path : List UInt8) (k k' : Kernel) : Nat → Prop
  | none (hnone : path.takeWhile inPathPart = []) (hguards : k'.heap.Guards P) :
      PathPartResult P path k k' 0
  | some (ptr : Nat) (hsome : path.takeWhile inPathPart ≠ []) (hblock : k.heap.IsBlock ptr)
      (hnew : k.heap.blockOf ptr ∉ P)
      (hguards : k'.heap.Guards (insert (k.heap.blockOf ptr) P))
      (hholds : k'.memory.HoldsString ptr (path.takeWhile inPathPart)) :
      PathPartResult P path k k' ptr

theorem pathparserGetPathPart_spec {P : Set Int} {path rest : List UInt8} {k k' : Kernel}
    {ptr : Nat} (h : k.heap.Guards P) (hlength : path.length < boiosMaxPath)
    (hrun : pathparserGetPathPart path k = .ok ((ptr, rest), k')) :
    rest = skipDelimiter (path.dropWhile inPathPart) ∧ ParserFrame P k k' ∧
      k'.pathParts = k.pathParts ∧ PathPartResult P path k k' ptr := by
  unfold pathparserGetPathPart at hrun
  obtain ⟨result, k₁, halloc, hrun⟩ := bind_eq_ok.mp hrun
  obtain ⟨hobtained, hk₁⟩ := kzalloc_obtained h (by decide) halloc
  have hframe := kzalloc_parserFrame h (by decide) halloc
  have hparts : k₁.pathParts = k.pathParts := by rw [hk₁]
  split_ifs at hrun with hempty hnull
  · -- the buffer was null, or the block that was just taken
    have hfreeable : k₁.heap.Freeable P result := by
      rcases hobtained.block with hzero | ⟨hblock, hfree, hheld⟩
      · exact Or.inl hzero
      · have hblockof := Heap.blockOf_congr hobtained.start result
        refine Or.inr ⟨hblock.congr hobtained.start hobtained.total, ?_, Or.inl ?_⟩
        · rw [hblockof]
          exact h.not_free hfree
        · rw [hblockof]
          exact hheld (by decide) (by decide)
    obtain ⟨_, k₂, hfree, hrun⟩ := bind_eq_ok.mp hrun
    have hk₂ := kfree_eq_ok.mp hfree
    obtain ⟨heq, rfl⟩ := pure_eq_ok.mp hrun
    obtain ⟨rfl, rfl⟩ := Prod.mk.inj heq
    have hheap₂ : k₂.heap = heapFree k₁.heap result := by rw [hk₂]
    refine ⟨rfl, ⟨?_, ?_, ?_, ?_⟩, ?_, .none hempty ?_⟩
    · rw [hk₂, hk₁]
    · rw [hheap₂, heapFree_startAddress]
      exact hobtained.start
    · rw [hheap₂, heapFree_totalEntries]
      exact hobtained.total
    · intro x hx hP
      rw [hk₂]
      exact hframe.memory x hx hP
    · rw [hk₂]
      exact hparts
    · rw [hheap₂]
      exact hobtained.guards.heapFree hfreeable
  · exact (throw_eq_ok.mp hrun).elim
  · obtain ⟨_, k₂, hcopy, hrun⟩ := bind_eq_ok.mp hrun
    have hk₂ := (modify_eq_ok.mp hcopy).symm
    obtain ⟨heq, rfl⟩ := pure_eq_ok.mp hrun
    obtain ⟨rfl, rfl⟩ := Prod.mk.inj heq
    obtain ⟨hblock, hfree, hheld⟩ := hobtained.block.resolve_left hnull
    have hpartLength : (path.takeWhile inPathPart).length < 128 :=
      lt_of_le_of_lt (List.takeWhile_prefix inPathPart).length_le hlength
    have hmemory₁ : k₁.memory = k.memory.clear result boiosMaxPath := by
      obtain ⟨-, hk⟩ := kzalloc_eq_ok halloc
      rw [hk]
      exact if_neg hnull
    have hmemory₂ : k₂.memory =
        (k.memory.clear result boiosMaxPath).copyIn result (path.takeWhile inPathPart) := by
      rw [hk₂, hmemory₁]
    have hheap₂ : k₂.heap = k₁.heap := by rw [hk₂]
    refine ⟨rfl, ⟨?_, ?_, ?_, ?_⟩, ?_, .some result hempty hblock (h.not_free hfree) ?_ ?_⟩
    · rw [hk₂, hk₁]
    · rw [hheap₂]
      exact hobtained.start
    · rw [hheap₂]
      exact hobtained.total
    · intro x hx hP
      rw [hmemory₂, ← hmemory₁]
      unfold Memory.copyIn
      rw [List.getElem?_eq_none, Option.getD_none]
      · exact hframe.memory x hx hP
      · by_contra hin
        have hnear : u32 ((x : Int) - result) < 4096 := by omega
        rw [Heap.blockOf_near h.wellFormed hblock hnear] at hP
        exact h.not_free hfree hP
    · rw [hk₂]
      exact hparts
    · rw [hheap₂]
      exact hobtained.guards.insert (hheld (by decide) (by decide))
    · rw [hmemory₂]
      exact holdsString_copyIn _ _ _ _ hpartLength (by decide)

/-- What `pathparser_parse_path_part` leaves: no part, or one whose name and structure are in two
blocks of their own, linked to by the last part. -/
inductive ParsedPart (P : Set Int) (lastPart : Nat) (path : List UInt8) (k k' : Kernel) : Nat → Prop
  | none (hnone : path.takeWhile inPathPart = []) (hguards : k'.heap.Guards P)
      (hsame : k'.pathParts = k.pathParts) : ParsedPart P lastPart path k k' 0
  | some (part name : Nat) (hsome : path.takeWhile inPathPart ≠ []) (hname : k.heap.IsBlock name)
      (hpart : k.heap.IsBlock part) (hnew : k.heap.blockOf part ∉ P)
      (hguards : k'.heap.Guards (insert (k.heap.blockOf part) (insert (k.heap.blockOf name) P)))
      (hholds : k'.memory.HoldsString name (path.takeWhile inPathPart))
      (hlast : lastPart ≠ 0 → ∃ last, k.pathParts lastPart = some last ∧
        k'.pathParts lastPart = some { last with next := part })
      (hentry : k'.pathParts part = some ⟨name, 0⟩)
      (hsame : ∀ a, a ≠ part → a ≠ lastPart → k'.pathParts a = k.pathParts a) :
      ParsedPart P lastPart path k k' part

theorem pathparserParsePathPart_spec {P : Set Int} {lastPart part : Nat} {path rest : List UInt8}
    {k k' : Kernel} (h : k.heap.Guards P) (hlength : path.length < boiosMaxPath)
    (hlastP : lastPart ≠ 0 → k.heap.blockOf lastPart ∈ P)
    (hrun : pathparserParsePathPart lastPart path k = .ok ((part, rest), k')) :
    rest = skipDelimiter (path.dropWhile inPathPart) ∧ ParserFrame P k k' ∧
      ParsedPart P lastPart path k k' part := by
  unfold pathparserParsePathPart at hrun
  obtain ⟨⟨name, path'⟩, k₁, hget, hrun⟩ := bind_eq_ok.mp hrun
  obtain ⟨rfl, hframe₁, hparts₁, hresult⟩ := pathparserGetPathPart_spec h hlength hget
  dsimp only at hrun
  cases hresult with
  | none hnone hguards =>
    rw [if_pos rfl] at hrun
    obtain ⟨heq, rfl⟩ := pure_eq_ok.mp hrun
    obtain ⟨rfl, rfl⟩ := Prod.mk.inj heq
    exact ⟨rfl, hframe₁, .none hnone hguards hparts₁⟩
  | some _ hsome hname hnameNew hguards hholds =>
    rw [if_neg (hname.ne_zero h.wellFormed)] at hrun
    obtain ⟨a, k₂, halloc, hrun⟩ := bind_eq_ok.mp hrun
    obtain ⟨hobtained, hk₂⟩ := kzalloc_obtained hguards (by decide) halloc
    have hframe₂ := kzalloc_parserFrame hguards (by decide) halloc
    by_cases hnull : a = 0
    · rw [if_pos hnull] at hrun
      exact (throw_eq_ok.mp hrun).elim
    rw [if_neg hnull] at hrun
    obtain ⟨hblock₁, hfree, hheld⟩ := hobtained.block.resolve_left hnull
    have hblockof : k₁.heap.blockOf a = k.heap.blockOf a := Heap.blockOf_congr hframe₁.start a
    rw [hblockof] at hfree hheld
    have hfresh := hguards.not_free hfree
    have hpart : k.heap.IsBlock a := hblock₁.congr hframe₁.start.symm hframe₁.total.symm
    have hguards₂ := hobtained.guards.insert (hheld (by decide) (by decide))
    have hholds₂ : k₂.memory.HoldsString name (path.takeWhile inPathPart) := by
      refine hholds.same hguards.wellFormed ?_ (hname.congr hframe₁.start hframe₁.total) ?_
        hframe₂.memory
      · have hshort := (List.takeWhile_prefix inPathPart (l := path)).length_le
        unfold boiosMaxPath at hlength
        omega
      · rw [Heap.blockOf_congr hframe₁.start]
        exact Set.mem_insert _ _
    have hframe : ParserFrame P k k₂ := hframe₁.trans (hframe₂.mono (Set.subset_insert _ _))
    have hnew : k.heap.blockOf a ∉ P := fun hP => hfresh (Set.mem_insert_of_mem _ hP)
    have hparts₂ : k₂.pathParts = k.pathParts := by rw [hk₂, ← hparts₁]
    obtain ⟨_, k₃, hput, hrun⟩ := bind_eq_ok.mp hrun
    obtain rfl := modify_eq_ok.mp hput
    have hframe₃ := hframe.put a ⟨name, 0⟩
    have hentry : (putPathPart a ⟨name, 0⟩ k₂).pathParts =
        Function.update k.pathParts a (some ⟨name, 0⟩) := by
      rw [← hparts₂]
      rfl
    split_ifs at hrun with hfirst
    · obtain ⟨heq, rfl⟩ := pure_eq_ok.mp hrun
      obtain ⟨rfl, rfl⟩ := Prod.mk.inj heq
      refine ⟨rfl, hframe₃, .some a name hsome hname hpart hnew hguards₂ hholds₂
        (fun hne => absurd hfirst hne) ?_ fun b hb _ => ?_⟩
      · rw [hentry, Function.update_self]
      · rw [hentry, Function.update_of_ne hb]
    · replace hrun := bind_get_eq_ok.mp hrun
      obtain ⟨last, hlast, hrun⟩ := bind_fetch_eq_ok.mp hrun
      obtain ⟨_, k₄, hlink, hrun⟩ := bind_eq_ok.mp hrun
      obtain rfl := modify_eq_ok.mp hlink
      obtain ⟨heq, rfl⟩ := pure_eq_ok.mp hrun
      obtain ⟨rfl, rfl⟩ := Prod.mk.inj heq
      have hne : lastPart ≠ a := by
        intro heq
        rw [← heq] at hnew
        exact hnew (hlastP hfirst)
      rw [hentry, Function.update_of_ne hne] at hlast
      have hold : ∀ b, b ≠ lastPart → (putPathPart lastPart { last with next := a }
          (putPathPart a ⟨name, 0⟩ k₂)).pathParts b = (putPathPart a ⟨name, 0⟩ k₂).pathParts b :=
        fun b hb => Function.update_of_ne hb _ _
      refine ⟨rfl, hframe₃.put _ _, .some a name hsome hname hpart hnew hguards₂ hholds₂
        (fun _ => ⟨last, hlast, Function.update_self ..⟩) ?_ fun b hb hb' => ?_⟩
      · rw [hold a hne.symm, hentry, Function.update_self]
      · rw [hold b hb', hentry, Function.update_of_ne hb]

/-! All parts. -/

theorem pathparserParseLoop_spec {P : Set Int} (fuel : Nat) {part : Nat} {path : List UInt8}
    {k k' : Kernel} {name : Nat} (h : k.heap.Guards P) (hlength : path.length < boiosMaxPath)
    (hpart : part ≠ 0) (hpartP : k.heap.blockOf part ∈ P)
    (hentry : k.pathParts part = some ⟨name, 0⟩)
    (hrun : pathparserParseLoop fuel part path k = .ok ((), k')) :
    k'.heap.Guards P ∧ ParserFrame P k k' ∧
      (∀ a, k.heap.blockOf a ∈ P → a ≠ part → k'.pathParts a = k.pathParts a) ∧
      ∃ next, k'.pathParts part = some ⟨name, next⟩ ∧ k'.PartList next (pathComponents path) := by
  induction fuel generalizing P part path k name with
  | zero => exact (throw_eq_ok.mp hrun).elim
  | succ fuel ih =>
    unfold pathparserParseLoop at hrun
    obtain ⟨⟨next, rest⟩, k₁, hstep, hrun⟩ := bind_eq_ok.mp hrun
    obtain ⟨rfl, hframe, hparsed⟩ := pathparserParsePathPart_spec h hlength (fun _ => hpartP) hstep
    dsimp only at hrun
    cases hparsed with
    | none hnone hguards hsame =>
      rw [if_pos rfl] at hrun
      obtain ⟨-, rfl⟩ := pure_eq_ok.mp hrun
      refine ⟨hguards, hframe, fun a _ _ => by rw [hsame], 0, by rw [hsame, hentry], ?_⟩
      rw [pathComponents, if_pos hnone]
      rfl
    | some _ str hsome hstr hnext hnew hguards hholds hlast hnextEntry hsame =>
      rw [if_neg (hnext.ne_zero h.wellFormed)] at hrun
      have hblockof : ∀ a, k₁.heap.blockOf a = k.heap.blockOf a := Heap.blockOf_congr hframe.start
      have hskip := skipDelimiter_length path
      obtain ⟨hguards', hframe', hsame', next', hnextEntry', hlist⟩ := ih hguards
        (lt_of_le_of_lt (by omega) hlength) (hnext.ne_zero h.wellFormed)
        (by rw [hblockof]; exact Set.mem_insert _ _) hnextEntry hrun
      have hne : ∀ a, k.heap.blockOf a ∈ P → a ≠ next := by
        rintro a ha rfl
        exact hnew ha
      have hsub : P ⊆ insert (k.heap.blockOf next) (insert (k.heap.blockOf str) P) :=
        fun b hb => Set.mem_insert_of_mem _ (Set.mem_insert_of_mem _ hb)
      have hkept : ∀ a, k.heap.blockOf a ∈ P → k'.pathParts a = k₁.pathParts a := by
        intro a ha
        refine hsame' a ?_ (hne a ha)
        rw [hblockof]
        exact hsub ha
      refine ⟨hguards'.mono hsub, hframe.trans (hframe'.mono hsub), fun a ha hapart => ?_, next, ?_, ?_⟩
      · rw [hkept a ha, hsame a (hne a ha) hapart]
      · obtain ⟨last, hlastEntry, hlinked⟩ := hlast hpart
        rw [hentry, Option.some.injEq] at hlastEntry
        rw [hkept part hpartP, hlinked, ← hlastEntry]
      · rw [pathComponents, if_neg hsome]
        refine ⟨hnext.ne_zero h.wellFormed, _, hnextEntry', hstr.ne_zero h.wellFormed,
          zero_not_mem_takeWhile path, ?_, hlist⟩
        refine hholds.same hguards.wellFormed ?_ (hstr.congr hframe.start hframe.total) ?_
          hframe'.memory
        · have hshort := (List.takeWhile_prefix inPathPart (l := path)).length_le
          unfold boiosMaxPath at hlength
          omega
        · rw [hblockof]
          exact Set.mem_insert_of_mem _ (Set.mem_insert _ _)

/-! The whole path. -/

/-- The paths that are turned down before anything is allocated. -/
def PathRejected (path : List UInt8) : Prop :=
  strlen path > boiosMaxPath ∨ (pathparserGetDriveByPath path).1 < 0

instance (path : List UInt8) : Decidable (PathRejected path) :=
  inferInstanceAs (Decidable (_ ∨ _))

theorem pathparserGetDriveByPath_of_not_rejected {path : List UInt8} (h : ¬ PathRejected path) :
    pathparserPathValidFormat path = true ∧
      pathparserGetDriveByPath path = (tonumericdigit (charAt path 0), path.drop 3) := by
  have hdrive := (not_or.mp h).2
  unfold pathparserGetDriveByPath at hdrive ⊢
  by_cases hvalid : pathparserPathValidFormat path = true
  · rw [hvalid] at hdrive ⊢
    exact ⟨rfl, rfl⟩
  · rw [Bool.not_eq_true] at hvalid
    rw [hvalid] at hdrive
    exact absurd (show -ebadpath < 0 by decide) hdrive

theorem pathparserCreateRoot_spec {P : Set Int} {driveNo : Int} {k k' : Kernel} {root : Nat}
    (h : k.heap.Guards P) (hrun : pathparserCreateRoot driveNo k = .ok (root, k')) :
    k.heap.IsBlock root ∧ k.heap.blockOf root ∉ P ∧
      k'.heap.Guards (insert (k.heap.blockOf root) P) ∧
      k'.heap.startAddress = k.heap.startAddress ∧
      k'.heap.table.totalEntries = k.heap.table.totalEntries ∧
      k'.pathRoots root = some ⟨driveNo, 0⟩ ∧
      k' = { k with heap := k'.heap, memory := k'.memory, pathRoots := k'.pathRoots } := by
  unfold pathparserCreateRoot at hrun
  obtain ⟨ptr, k₁, halloc, hrun⟩ := bind_eq_ok.mp hrun
  obtain ⟨hobtained, hk₁⟩ := kzalloc_obtained h (by decide) halloc
  split_ifs at hrun with hnull
  · exact (throw_eq_ok.mp hrun).elim
  obtain ⟨_, k₂, hput, hrun⟩ := bind_eq_ok.mp hrun
  have hk₂ := (modify_eq_ok.mp hput).symm
  obtain ⟨rfl, rfl⟩ := pure_eq_ok.mp hrun
  obtain ⟨hblock, hfree, hheld⟩ := hobtained.block.resolve_left hnull
  have hheap : k₂.heap = k₁.heap := by
    rw [hk₂]
    rfl
  refine ⟨hblock, h.not_free hfree, ?_, ?_, ?_, ?_, ?_⟩
  · rw [hheap]
    exact hobtained.guards.insert (hheld (by decide) (by decide))
  · rw [hheap]
    exact hobtained.start
  · rw [hheap]
    exact hobtained.total
  · rw [hk₂]
    exact Function.update_self ..
  · rw [hk₂, hk₁]
    rfl

/-- What `pathparser_parse` leaves of a path that is not turned down: a root in a block of its own,
with the drive of the path and the list of its components. -/
structure Parsed (P : Set Int) (path : List UInt8) (k k' : Kernel) (root : Nat) : Prop where
  block : k.heap.IsBlock root
  new : k.heap.blockOf root ∉ P
  guards : k'.heap.Guards (insert (k.heap.blockOf root) P)
  start : k'.heap.startAddress = k.heap.startAddress
  total : k'.heap.table.totalEntries = k.heap.table.totalEntries
  root : ∃ r, k'.pathRoots root = some r ∧ r.driveNo = tonumericdigit (charAt path 0) ∧
    k'.PartList r.first (pathComponents (path.drop 3))
  rest : k' = { k with
    heap := k'.heap, memory := k'.memory, pathRoots := k'.pathRoots, pathParts := k'.pathParts }

theorem pathparserParse_spec {P : Set Int} {path : List UInt8} {k k' : Kernel} {root : Nat}
    (h : k.heap.Guards P) (h0 : 0 ∉ path) (hrun : pathparserParse path k = .ok (root, k')) :
    (PathRejected path ∧ root = 0 ∧ k' = k) ∨ (¬ PathRejected path ∧ Parsed P path k k' root) := by
  unfold pathparserParse at hrun
  by_cases hreject : PathRejected path
  · refine Or.inl ⟨hreject, ?_⟩
    rcases hreject with hlong | hdrive
    · rw [if_pos hlong] at hrun
      obtain ⟨rfl, rfl⟩ := pure_eq_ok.mp hrun
      exact ⟨rfl, rfl⟩
    · dsimp only at hrun
      rw [if_pos hdrive] at hrun
      split_ifs at hrun
      · obtain ⟨rfl, rfl⟩ := pure_eq_ok.mp hrun
        exact ⟨rfl, rfl⟩
      · obtain ⟨rfl, rfl⟩ := pure_eq_ok.mp hrun
        exact ⟨rfl, rfl⟩
  · refine Or.inr ⟨hreject, ?_⟩
    obtain ⟨hlong, hdrive⟩ := not_or.mp hreject
    obtain ⟨hvalid, hget⟩ := pathparserGetDriveByPath_of_not_rejected hreject
    rw [hget] at hdrive hrun
    dsimp only at hrun hdrive
    rw [if_neg hlong, if_neg hdrive] at hrun
    rw [strlen_of_nonzero h0] at hlong
    have hshort : (path.drop 3).length < boiosMaxPath := by
      unfold boiosMaxPath at hlong ⊢
      rw [List.length_drop]
      omega
    obtain ⟨r, k₁, hcreate, hrun⟩ := bind_eq_ok.mp hrun
    obtain ⟨hblock, hnew, hguards₁, hstart₁, htotal₁, hroot₁, hk₁⟩ :=
      pathparserCreateRoot_spec h hcreate
    obtain ⟨⟨first, tmp⟩, k₂, hfirst, hrun⟩ := bind_eq_ok.mp hrun
    obtain ⟨rfl, hframe₂, hparsed⟩ := pathparserParsePathPart_spec hguards₁ hshort
      (fun hne => absurd rfl hne) hfirst
    dsimp only at hrun
    have hroot₂ : k₂.pathRoots = k₁.pathRoots := by rw [hframe₂.rest]
    cases hparsed with
    | none hnone hguards₂ hsame =>
      rw [if_pos rfl] at hrun
      obtain ⟨rfl, rfl⟩ := pure_eq_ok.mp hrun
      refine ⟨hblock, hnew, hguards₂, hframe₂.start.trans hstart₁, hframe₂.total.trans htotal₁,
        ⟨_, by rw [hroot₂, hroot₁], rfl, ?_⟩, ?_⟩
      · rw [pathComponents, if_pos hnone]
        rfl
      · rw [hframe₂.rest, hk₁]
    | some _ name hsome hname hpart hpartNew hguards₂ hholds hlast hentry hsame =>
      rw [if_neg (hpart.ne_zero hguards₁.wellFormed)] at hrun
      replace hrun := bind_get_eq_ok.mp hrun
      obtain ⟨rootNow, hrootNow, hrun⟩ := bind_fetch_eq_ok.mp hrun
      obtain ⟨_, k₃, hput, hrun⟩ := bind_eq_ok.mp hrun
      have hk₃ := (modify_eq_ok.mp hput).symm
      obtain ⟨_, k₄, hloop, hrun⟩ := bind_eq_ok.mp hrun
      obtain ⟨rfl, rfl⟩ := pure_eq_ok.mp hrun
      rw [hroot₂, hroot₁, Option.some.injEq] at hrootNow
      have hheap₃ : k₃.heap = k₂.heap := by
        rw [hk₃]
        rfl
      have hparts₃ : k₃.pathParts = k₂.pathParts := by
        rw [hk₃]
        rfl
      have hmemory₃ : k₃.memory = k₂.memory := by
        rw [hk₃]
        rfl
      have hstart₃ : k₃.heap.startAddress = k₁.heap.startAddress := by
        rw [hheap₃]
        exact hframe₂.start
      have htotal₃ : k₃.heap.table.totalEntries = k₁.heap.table.totalEntries := by
        rw [hheap₃]
        exact hframe₂.total
      have hblockof : ∀ a, k₃.heap.blockOf a = k₁.heap.blockOf a := Heap.blockOf_congr hstart₃
      have hskip := skipDelimiter_length (path.drop 3)
      rw [← hparts₃] at hentry
      rw [← hheap₃] at hguards₂
      obtain ⟨hguards₄, hframe₄, -, next, hentry₄, hlist⟩ := pathparserParseLoop_spec _ hguards₂
        (lt_of_le_of_lt (by omega) hshort) (hpart.ne_zero hguards₁.wellFormed)
        (by rw [hblockof]; exact Set.mem_insert _ _) hentry hloop
      have hroot₄ : k₄.pathRoots = k₃.pathRoots := by rw [hframe₄.rest]
      have hroot₃ : k₃.pathRoots = Function.update k₂.pathRoots r
          (some { rootNow with first := first }) := by
        rw [hk₃]
        rfl
      refine ⟨hblock, hnew, hguards₄.mono fun b hb => Set.mem_insert_of_mem _
        (Set.mem_insert_of_mem _ hb), ?_, ?_,
        ⟨{ rootNow with first := first }, by rw [hroot₄, hroot₃, Function.update_self], ?_, ?_⟩, ?_⟩
      · rw [hframe₄.start, hstart₃, hstart₁]
      · rw [hframe₄.total, htotal₃, htotal₁]
      · rw [← hrootNow]
      · rw [pathComponents, if_neg hsome]
        refine ⟨hpart.ne_zero hguards₁.wellFormed, _, hentry₄, hname.ne_zero hguards₁.wellFormed,
          zero_not_mem_takeWhile _, ?_, hlist⟩
        rw [← hmemory₃] at hholds
        refine hholds.same hguards₂.wellFormed ?_ (hname.congr hstart₃ htotal₃) ?_ hframe₄.memory
        · have hpartShort := (List.takeWhile_prefix inPathPart (l := path.drop 3)).length_le
          unfold boiosMaxPath at hshort
          omega
        · rw [hblockof]
          exact Set.mem_insert_of_mem _ (Set.mem_insert _ _)
      · rw [hframe₄.rest, hk₃, hframe₂.rest, hk₁]
        rfl

end BoiOS
