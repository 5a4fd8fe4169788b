import BoiOS.Memory.Heap

/-! What each heap operation does to the table, once for every caller. The search is
specified by the runs of free entries it can return, marking by the flags it leaves,
freeing by the run of has-next flags it follows. -/
namespace BoiOS

/-- The test `heap_get_entry_type(entry) == HEAP_BLOCK_TABLE_ENTRY_FREE`. -/
def HeapTable.IsFree (table : HeapTable) (i : Int) : Prop :=
  heapGetEntryType (table.entries i) = heapBlockTableEntryFree

def HeapTable.HasNext (table : HeapTable) (i : Int) : Prop :=
  table.entries i &&& heapBlockHasNext ≠ 0

instance (table : HeapTable) (i : Int) : Decidable (table.IsFree i) :=
  inferInstanceAs (Decidable (_ = _))

instance (table : HeapTable) (i : Int) : Decidable (table.HasNext i) :=
  inferInstanceAs (Decidable (_ ≠ _))

def HeapTable.FreeRun (table : HeapTable) (s n : Int) : Prop :=
  ∀ i, s ≤ i → i < s + n → table.IsFree i

/-- The `n` entries from `s` on are one allocation: taken, each but the last with a next. -/
def HeapTable.Chain (table : HeapTable) (s n : Int) : Prop :=
  ∀ i, s ≤ i → i < s + n → ¬ table.IsFree i ∧ (table.HasNext i ↔ i ≠ s + n - 1)

def HeapTable.NoRoom (table : HeapTable) (n : Int) : Prop :=
  ∀ s, 0 ≤ s → s + n ≤ table.totalEntries → ¬ table.FreeRun s n

def HeapTable.LastTaken (table : HeapTable) : Prop :=
  table.totalEntries = 0 ∨ ¬ table.IsFree (table.totalEntries - 1)

@[simp] theorem HeapTable.store_entries (table : HeapTable) (i : Int) (value : UInt8) :
    (table.store i value).entries = Function.update table.entries i value := rfl

@[simp] theorem HeapTable.store_totalEntries (table : HeapTable) (i : Int) (value : UInt8) :
    (table.store i value).totalEntries = table.totalEntries := rfl

@[simp] theorem HeapTable.store_written (table : HeapTable) (i : Int) (value : UInt8) :
    (table.store i value).written = i :: table.written := rfl

theorem HeapTable.isFree_congr {a b : HeapTable} {i : Int} (h : a.entries i = b.entries i) :
    a.IsFree i ↔ b.IsFree i := by
  unfold HeapTable.IsFree
  rw [h]

theorem HeapTable.hasNext_congr {a b : HeapTable} {i : Int} (h : a.entries i = b.entries i) :
    a.HasNext i ↔ b.HasNext i := by
  unfold HeapTable.HasNext
  rw [h]

theorem HeapTable.Chain.congr {a b : HeapTable} {s n : Int} (hchain : a.Chain s n)
    (h : ∀ i, s ≤ i → i < s + n → b.entries i = a.entries i) : b.Chain s n := by
  intro i hlow hhigh
  have hi := h i hlow hhigh
  rw [HeapTable.isFree_congr hi, HeapTable.hasNext_congr hi]
  exact hchain i hlow hhigh

theorem HeapTable.isFree_of_eq_zero {table : HeapTable} {i : Int} (h : table.entries i = 0) :
    table.IsFree i := by
  unfold HeapTable.IsFree heapGetEntryType heapBlockTableEntryFree
  rw [h]
  decide

/-! The search. -/

/-- What `heap_get_start_block` can return for a request of `n` blocks. -/
inductive StartBlock (table : HeapTable) (n : Int) : Int → Prop
  | fits (s : Int) (hlow : 0 ≤ s) (hroom : s + n ≤ table.totalEntries)
      (hfree : table.FreeRun s n) (hfirst : ∀ r, 0 ≤ r → r < s → ¬ table.FreeRun r n) :
      StartBlock table n s
  | tooShort (s : Int) (hlow : 0 ≤ s) (hin : s < table.totalEntries)
      (hshort : table.totalEntries < s + n) (hfree : table.FreeRun s (table.totalEntries - s))
      (hno : table.NoRoom n) : StartBlock table n s
  | none (hno : table.NoRoom n) (hlast : table.LastTaken) : StartBlock table n (-enomem)

/-- The loop's invariant: no run of `n` starts before the candidate, and the candidate is
the start of the free entries just passed. -/
structure SearchState (table : HeapTable) (n i current start : Int) : Prop where
  pos : 0 < n
  index : 0 ≤ i
  idle : start = -1 → current = 0 ∧ (i = 0 ∨ ¬ table.IsFree (i - 1)) ∧
    ∀ r, 0 ≤ r → r < i → ¬ table.FreeRun r n
  running : start ≠ -1 → 0 ≤ start ∧ start + current = i ∧ 0 < current ∧ current < n ∧
    table.FreeRun start current ∧ ∀ r, 0 ≤ r → r < start → ¬ table.FreeRun r n

theorem SearchState.skip {table : HeapTable} {n i current start : Int}
    (h : SearchState table n i current start) (htaken : ¬ table.IsFree i) :
    SearchState table n (i + 1) 0 (-1) := by
  refine ⟨h.pos, by have := h.index; omega, fun _ => ⟨rfl, Or.inr ?_, ?_⟩, fun hne => absurd rfl hne⟩
  · rw [show i + 1 - 1 = i by omega]
    exact htaken
  · intro r hr hri hrun
    have hpos := h.pos
    by_cases hs : start = -1
    · by_cases hlt : r < i
      · exact (h.idle hs).2.2 r hr hlt hrun
      · exact htaken (hrun i (by omega) (by omega))
    · obtain ⟨_, hi, _, hcur, _, hbefore⟩ := h.running hs
      by_cases hlt : r < start
      · exact hbefore r hr hlt hrun
      · -- the candidate is shorter than `n`, so a later run reaches entry `i`
        exact htaken (hrun i (by omega) (by omega))

theorem SearchState.extend {table : HeapTable} {n i current start : Int}
    (h : SearchState table n i current start) (hfree : table.IsFree i) :
    let start' := if start = -1 then i else start
    0 ≤ start' ∧ start' + (current + 1) = i + 1 ∧ 0 < current + 1 ∧ current + 1 ≤ n ∧
      table.FreeRun start' (current + 1) ∧ ∀ r, 0 ≤ r → r < start' → ¬ table.FreeRun r n := by
  have hpos := h.pos
  have hindex := h.index
  by_cases hs : start = -1
  · obtain ⟨hcur, _, hbefore⟩ := h.idle hs
    simp only [hs, ↓reduceIte]
    refine ⟨hindex, by omega, by omega, by omega, ?_, hbefore⟩
    intro j hj hj'
    rwa [show j = i by omega]
  · obtain ⟨hstart, hi, hcur, hlt, hrun, hbefore⟩ := h.running hs
    simp only [hs, ↓reduceIte]
    refine ⟨hstart, by omega, by omega, by omega, ?_, hbefore⟩
    intro j hj hj'
    by_cases hji : j = i
    · rwa [hji]
    · exact hrun j hj (by omega)

theorem SearchState.finish {table : HeapTable} {n current start : Int}
    (h : SearchState table n table.totalEntries current start) :
    StartBlock table n (if start = -1 then -enomem else start) := by
  by_cases hs : start = -1
  · obtain ⟨_, hlast, hbefore⟩ := h.idle hs
    rw [if_pos hs]
    refine StartBlock.none (fun r hr hroom => hbefore r hr (by have := h.pos; omega)) ?_
    unfold HeapTable.LastTaken
    rcases hlast with hzero | hlast
    · exact Or.inl (by omega)
    · exact Or.inr hlast
  · obtain ⟨hstart, hi, hcur, hlt, hrun, hbefore⟩ := h.running hs
    rw [if_neg hs]
    refine StartBlock.tooShort start hstart (by omega) (by omega) ?_ ?_
    · rwa [show (table.totalEntries : Int) - start = current by omega]
    · intro r hr hroom
      exact hbefore r hr (by omega)

/-- The C locals hold the candidate as an `int`. A table has less than 2^32 entries, so that no
candidate is converted to the mark of none. -/
theorem heapGetStartBlockLoop_wraps (table : HeapTable) (n : Nat) (hn : n < 4294967296)
    (hN : table.totalEntries < 4294967296) (count i : Nat) (current start : Int)
    (hcount : i + count = table.totalEntries) (hstate : SearchState table n i current start) :
    ∃ blockStart, heapGetStartBlockLoop table n count i current (i32 start) = i32 blockStart ∧
      StartBlock table n (if blockStart = -1 then -enomem else blockStart) := by
  induction count generalizing i current start with
  | zero =>
    have hi : (i : Int) = table.totalEntries := by omega
    rw [hi] at hstate
    exact ⟨start, rfl, hstate.finish⟩
  | succ count ih =>
    unfold heapGetStartBlockLoop
    by_cases hfree : table.IsFree i
    · have hext := hstate.extend hfree
      have hcandidate : (if i32 start = -1 then i32 i else i32 start) =
          i32 (if start = -1 then (i : Int) else start) := by
        by_cases hs : start = -1
        · rw [hs, if_pos (by decide +kernel), if_pos rfl]
        · have hrunning := hstate.running hs
          rw [if_neg hs, if_neg]
          unfold i32
          omega
      rw [if_neg (by simpa [HeapTable.IsFree] using hfree)]
      simp only [hcandidate]
      obtain ⟨hstart, hsum, hcur, hle, hrun, hbefore⟩ := hext
      generalize (if start = -1 then (i : Int) else start) = start' at *
      have hu : (u32 (current + 1) : Int) = current + 1 := u32_of_range (by omega) (by omega)
      by_cases hdone : u32 (current + 1) = n
      · have hn' : current + 1 = n := by omega
        refine ⟨start', by rw [if_pos hdone], ?_⟩
        rw [if_neg (by omega)]
        rw [hn'] at hrun
        exact StartBlock.fits start' hstart (by omega) hrun hbefore
      · rw [if_neg hdone]
        apply ih (i + 1) (current + 1) start' (by omega)
        refine ⟨hstate.pos, by omega, fun hs => absurd hs (by omega), fun _ => ?_⟩
        exact ⟨hstart, by push_cast; omega, hcur, by omega, hrun, hbefore⟩
    · rw [if_pos (by simpa [HeapTable.IsFree] using hfree)]
      have hskip := hstate.skip hfree
      obtain ⟨blockStart, hloop, hspec⟩ := ih (i + 1) 0 (-1) (by omega) (by push_cast; exact hskip)
      rw [show i32 (-1) = -1 by decide +kernel] at hloop
      exact ⟨blockStart, hloop, hspec⟩

theorem SearchState.start (table : HeapTable) {n : Nat} (hpos : 0 < n) :
    SearchState table n (0 : Nat) 0 (-1) :=
  ⟨by omega, le_refl _, fun _ => ⟨rfl, Or.inl rfl, by intros; omega⟩, fun h => absurd rfl h⟩

theorem heapGetStartBlock_wraps (heap : Heap) (n : Nat) (hpos : 0 < n) (hn : n < 4294967296)
    (hN : heap.table.totalEntries < 4294967296) :
    ∃ blockStart,
      heapGetStartBlock heap n = (if i32 blockStart = -1 then -enomem else i32 blockStart) ∧
      StartBlock heap.table n (if blockStart = -1 then -enomem else blockStart) := by
  obtain ⟨blockStart, hloop, hspec⟩ := heapGetStartBlockLoop_wraps heap.table n hn hN
    heap.table.totalEntries 0 0 (-1) (by omega) (.start heap.table hpos)
  refine ⟨blockStart, ?_, hspec⟩
  rw [show i32 (-1) = -1 by decide +kernel] at hloop
  unfold heapGetStartBlock
  rw [hloop]

/-- A request for at least one block gets the first run of that many free entries; without
one it gets the free entries at the end of the table, however few, or no block at all. -/
theorem heapGetStartBlock_spec (heap : Heap) (n : Nat) (hpos : 0 < n) (hn : n < 4294967296)
    (hN : heap.table.totalEntries < 2147483648) :
    StartBlock heap.table n (heapGetStartBlock heap n) := by
  obtain ⟨blockStart, heq, hspec⟩ := heapGetStartBlock_wraps heap n hpos hn (by omega)
  have hrange : i32 blockStart = blockStart := by
    by_cases hnone : blockStart = -1
    · rw [hnone]
      decide +kernel
    · rw [if_neg hnone] at hspec
      apply i32_of_range
      · cases hspec with
        | fits => omega
        | tooShort => omega
        | none => decide
      · cases hspec with
        | fits => omega
        | tooShort => omega
        | none => decide
  rw [heq, hrange]
  exact hspec

/-! Marking. -/

theorem not_isFree_of_taken {table : HeapTable} {i : Int} {flags : UInt8}
    (h : table.entries i = flags)
    (hflags : flags ∈ [0x01, 0x41, 0x81, 0xC1]) : ¬ table.IsFree i := by
  unfold HeapTable.IsFree heapGetEntryType heapBlockTableEntryFree
  rw [h]
  simp only [List.mem_cons, List.not_mem_nil, or_false] at hflags
  rcases hflags with rfl | rfl | rfl | rfl <;> decide

theorem hasNext_iff_of_eq {table : HeapTable} {i : Int} {flags : UInt8}
    (h : table.entries i = flags) : table.HasNext i ↔ flags &&& 0x80 ≠ 0 := by
  unfold HeapTable.HasNext heapBlockHasNext
  rw [h]

theorem heapMarkBlocksTakenLoop_frame (endBlock : Int) (count : Nat) (i : Int) (entry : UInt8)
    (table : HeapTable) :
    let after := heapMarkBlocksTakenLoop endBlock count i entry table
    after.totalEntries = table.totalEntries ∧
      (∀ j, j < i ∨ i + count ≤ j → after.entries j = table.entries j) ∧
      ∀ j, j ∈ after.written ↔ j ∈ table.written ∨ i ≤ j ∧ j < i + count := by
  induction count generalizing i entry table with
  | zero =>
    refine ⟨rfl, fun _ _ => rfl, fun j => ?_⟩
    constructor
    · exact Or.inl
    · rintro (h | h)
      · exact h
      · omega
  | succ count ih =>
    obtain ⟨htotal, hentries, hwritten⟩ := ih (i + 1)
      (if i ≠ endBlock - 1 then heapBlockTableEntryTaken ||| heapBlockHasNext
        else heapBlockTableEntryTaken) (table.store i entry)
    refine ⟨htotal, fun j hj => ?_, fun j => ?_⟩
    · unfold heapMarkBlocksTakenLoop
      rw [hentries j (by omega), HeapTable.store_entries, Function.update_of_ne (by omega)]
    · unfold heapMarkBlocksTakenLoop
      rw [hwritten j, HeapTable.store_written, List.mem_cons]
      constructor
      · rintro ((h | h) | h)
        · exact Or.inr (by omega)
        · exact Or.inl h
        · exact Or.inr (by omega)
      · rintro (h | h)
        · exact Or.inl (Or.inr h)
        · by_cases hji : j = i
          · exact Or.inl (Or.inl hji)
          · exact Or.inr (by omega)

theorem heapMarkBlocksTakenLoop_entries (endBlock : Int) (count : Nat) (i : Int) (entry : UInt8)
    (table : HeapTable) (j : Int) (hlow : i ≤ j) (hhigh : j < i + count) :
    (heapMarkBlocksTakenLoop endBlock count i entry table).entries j =
      if j = i then entry
      else if j = endBlock then heapBlockTableEntryTaken
      else heapBlockTableEntryTaken ||| heapBlockHasNext := by
  induction count generalizing i entry table with
  | zero => omega
  | succ count ih =>
    unfold heapMarkBlocksTakenLoop
    by_cases hji : j = i
    · obtain ⟨_, hframe, _⟩ := heapMarkBlocksTakenLoop_frame endBlock count (i + 1)
        (if i ≠ endBlock - 1 then heapBlockTableEntryTaken ||| heapBlockHasNext
          else heapBlockTableEntryTaken) (table.store i entry)
      rw [hframe j (by omega), if_pos hji, hji]
      simp
    · rw [ih (i + 1) _ _ (by omega) (by omega), if_neg hji]
      by_cases hnext : j = i + 1
      · rw [if_pos hnext]
        by_cases hend : i = endBlock - 1
        · rw [if_neg (by omega), if_pos (by omega)]
        · rw [if_pos hend, if_neg (by omega)]
      · rw [if_neg hnext]

@[simp] theorem heapMarkBlocksTaken_startAddress (heap : Heap) (s n : Int) :
    (heapMarkBlocksTaken heap s n).startAddress = heap.startAddress := rfl

@[simp] theorem heapMarkBlocksTaken_totalEntries (heap : Heap) (s n : Int) :
    (heapMarkBlocksTaken heap s n).table.totalEntries = heap.table.totalEntries :=
  (heapMarkBlocksTakenLoop_frame ..).1

theorem heapMarkBlocksTaken_table (heap : Heap) {s n : Int} (hend : i32 (s + n - 1) = s + n - 1) :
    (heapMarkBlocksTaken heap s n).table = heapMarkBlocksTakenLoop (s + n - 1)
      (s + n - 1 + 1 - s).toNat s
      (if n > 1 then heapBlockTableEntryTaken ||| heapBlockIsFirst ||| heapBlockHasNext
        else heapBlockTableEntryTaken ||| heapBlockIsFirst) heap.table := by
  unfold heapMarkBlocksTaken
  dsimp only
  rw [hend]

theorem heapMarkBlocksTaken_frame (heap : Heap) {s n : Int} (hend : i32 (s + n - 1) = s + n - 1) :
    let after := (heapMarkBlocksTaken heap s n).table
    (∀ j, j < s ∨ s + n ≤ j → after.entries j = heap.table.entries j) ∧
      ∀ j, j ∈ after.written ↔ j ∈ heap.table.written ∨ s ≤ j ∧ j < s + n := by
  intro after
  obtain ⟨-, hentries, hwritten⟩ := heapMarkBlocksTakenLoop_frame (s + n - 1)
    (s + n - 1 + 1 - s).toNat s
    (if n > 1 then heapBlockTableEntryTaken ||| heapBlockIsFirst ||| heapBlockHasNext
      else heapBlockTableEntryTaken ||| heapBlockIsFirst) heap.table
  rw [← heapMarkBlocksTaken_table heap hend] at hentries hwritten
  refine ⟨fun j hj => hentries j (by omega), fun j => ?_⟩
  refine (hwritten j).trans (or_congr_right ?_)
  omega

theorem heapMarkBlocksTaken_chain (heap : Heap) {s n : Int} (hend : i32 (s + n - 1) = s + n - 1) :
    (heapMarkBlocksTaken heap s n).table.Chain s n := by
  intro j hlow hhigh
  have hentry := heapMarkBlocksTakenLoop_entries (s + n - 1) (s + n - 1 + 1 - s).toNat s
    (if n > 1 then heapBlockTableEntryTaken ||| heapBlockIsFirst ||| heapBlockHasNext
      else heapBlockTableEntryTaken ||| heapBlockIsFirst) heap.table j hlow (by omega)
  have hafter : (heapMarkBlocksTaken heap s n).table.entries j =
      if j = s then (if n > 1 then 0xC1 else 0x41)
      else if j = s + n - 1 then 0x01 else 0x81 := by
    rw [heapMarkBlocksTaken_table heap hend]
    exact hentry
  constructor
  · apply not_isFree_of_taken hafter
    split_ifs <;> decide
  · rw [hasNext_iff_of_eq hafter]
    by_cases hfirst : j = s
    · rw [if_pos hfirst]
      by_cases hn : n > 1
      · rw [if_pos hn]
        exact ⟨fun _ => by omega, fun _ => by decide⟩
      · rw [if_neg hn]
        exact ⟨fun h => absurd rfl h, fun h => absurd hhigh (by omega)⟩
    · rw [if_neg hfirst]
      by_cases hend : j = s + n - 1
      · rw [if_pos hend]
        exact ⟨fun h => absurd rfl h, fun h => absurd hend h⟩
      · rw [if_neg hend]
        exact ⟨fun _ => hend, fun _ => by decide⟩

/-! Freeing. -/

/-- Freeing from `i` clears the entries up to the first one without a next, or all that
are left. -/
theorem heapMarkBlocksFreeLoop_spec (count : Nat) (i : Int) (table : HeapTable) :
    ∃ m : Nat, m ≤ count ∧ (0 < count → 0 < m) ∧
      (∀ j, i ≤ j → j < i + m - 1 → table.HasNext j) ∧
      (m < count → ¬ table.HasNext (i + m - 1)) ∧
      let after := heapMarkBlocksFreeLoop count i table
      after.totalEntries = table.totalEntries ∧
      (∀ j, i ≤ j → j < i + m → after.entries j = 0) ∧
      (∀ j, j < i ∨ i + m ≤ j → after.entries j = table.entries j) ∧
      ∀ j, j ∈ after.written ↔ j ∈ table.written ∨ i ≤ j ∧ j < i + m := by
  induction count generalizing i table with
  | zero =>
    refine ⟨0, le_refl _, by omega, by intros; omega, by omega, rfl, by intros; omega,
      fun _ _ => rfl, fun j => ⟨Or.inl, ?_⟩⟩
    rintro (h | h)
    · exact h
    · omega
  | succ count ih =>
    unfold heapMarkBlocksFreeLoop
    by_cases hnext : table.HasNext i
    · obtain ⟨m, hle, hpos, hchain, hstop, htotal, hzero, hframe, hwritten⟩ :=
        ih (i + 1) (table.store i heapBlockTableEntryFree)
      have hsame : ∀ j, i + 1 ≤ j →
          (table.store i heapBlockTableEntryFree).entries j = table.entries j := by
        intro j hj
        rw [HeapTable.store_entries, Function.update_of_ne (by omega)]
      simp only [if_neg (show ¬ table.entries i &&& heapBlockHasNext = 0 from hnext)]
      refine ⟨m + 1, by omega, by omega, fun j hlow hhigh => ?_, fun hlt => ?_, htotal,
        fun j hlow hhigh => ?_, fun j hj => ?_, fun j => ?_⟩
      · by_cases hji : j = i
        · rwa [hji]
        · exact (HeapTable.hasNext_congr (hsame j (by omega))).mp
            (hchain j (by omega) (by push_cast at hhigh; omega))
      · have hm := hpos (by omega)
        have := hstop (by omega)
        rw [HeapTable.hasNext_congr (hsame _ (by omega))] at this
        rwa [show i + ((m + 1 : Nat) : Int) - 1 = i + 1 + m - 1 by push_cast; omega]
      · by_cases hji : j = i
        · rw [hframe j (by omega), hji]
          simp [heapBlockTableEntryFree]
        · exact hzero j (by omega) (by push_cast at hhigh; omega)
      · rw [hframe j (by push_cast at hj; omega), HeapTable.store_entries,
          Function.update_of_ne (by push_cast at hj; omega)]
      · rw [hwritten j, HeapTable.store_written, List.mem_cons]
        push_cast
        constructor
        · rintro ((h | h) | h)
          · exact Or.inr (by omega)
          · exact Or.inl h
          · exact Or.inr (by omega)
        · rintro (h | h)
          · exact Or.inl (Or.inr h)
          · by_cases hji : j = i
            · exact Or.inl (Or.inl hji)
            · exact Or.inr (by omega)
    · have hzero : table.entries i &&& heapBlockHasNext = 0 := by
        simpa [HeapTable.HasNext] using hnext
      simp only [if_pos hzero]
      refine ⟨1, by omega, by omega, by intros; omega, fun _ => ?_, rfl, fun j hlow hhigh => ?_,
        fun j hj => ?_, fun j => ?_⟩
      · simpa using hnext
      · rw [show j = i by push_cast at hhigh; omega]
        simp [heapBlockTableEntryFree]
      · rw [HeapTable.store_entries, Function.update_of_ne (by push_cast at hj; omega)]
      · rw [HeapTable.store_written, List.mem_cons]
        push_cast
        constructor
        · rintro (h | h)
          · exact Or.inr (by omega)
          · exact Or.inl h
        · rintro (h | h)
          · exact Or.inr h
          · exact Or.inl (by omega)

@[simp] theorem heapMarkBlocksFree_startAddress (heap : Heap) (s : Int) :
    (heapMarkBlocksFree heap s).startAddress = heap.startAddress := by
  rw [heapMarkBlocksFree]

theorem heapMarkBlocksFree_table (heap : Heap) (s : Int) :
    (heapMarkBlocksFree heap s).table =
      heapMarkBlocksFreeLoop (i32 heap.table.totalEntries - s).toNat s heap.table := rfl

@[simp] theorem heapMarkBlocksFree_totalEntries (heap : Heap) (s : Int) :
    (heapMarkBlocksFree heap s).table.totalEntries = heap.table.totalEntries := by
  rw [heapMarkBlocksFree_table]
  obtain ⟨_, _, _, _, _, htotal, _⟩ := heapMarkBlocksFreeLoop_spec
    (i32 heap.table.totalEntries - s).toNat s heap.table
  exact htotal

@[simp] theorem heapFree_startAddress (heap : Heap) (ptr : Nat) :
    (heapFree heap ptr).startAddress = heap.startAddress := by
  rw [heapFree, heapMarkBlocksFree_startAddress]

@[simp] theorem heapFree_totalEntries (heap : Heap) (ptr : Nat) :
    (heapFree heap ptr).table.totalEntries = heap.table.totalEntries := by
  rw [heapFree, heapMarkBlocksFree_totalEntries]

theorem heapMarkBlocksFree_after {heap : Heap} {s j b : Int} (hlow : s ≤ j)
    (hstop : ¬ heap.table.HasNext j) (hb : j < b) :
    (heapMarkBlocksFree heap s).table.entries b = heap.table.entries b := by
  rw [heapMarkBlocksFree_table]
  obtain ⟨m, _, _, hnext, _, _, _, hframe, _⟩ := heapMarkBlocksFreeLoop_spec
    (i32 heap.table.totalEntries - s).toNat s heap.table
  have hpast : b < s ∨ s + m ≤ b := by
    by_contra hinside
    have hbefore : j < s + m - 1 := by omega
    exact hstop (hnext j hlow hbefore)
  exact hframe b hpast

/-- A byte below the table that has no next keeps the free of the null pointer below the table. -/
def FreeOfNullStaysBelow (heap : Heap) : Prop :=
  ∃ j : Int, j < 0 ∧ heapAddressToBlock heap 0 ≤ j ∧ ¬ heap.table.HasNext j

theorem FreeOfNullStaysBelow.congr {heap heap' : Heap} (h : FreeOfNullStaysBelow heap)
    (hstart : heap'.startAddress = heap.startAddress)
    (hbelow : ∀ j < 0, heap'.table.HasNext j → heap.table.HasNext j) :
    FreeOfNullStaysBelow heap' := by
  obtain ⟨j, hj, hlow, hstop⟩ := h
  refine ⟨j, hj, ?_, fun hnext => hstop (hbelow j hj hnext)⟩
  unfold heapAddressToBlock at hlow ⊢
  rwa [hstart]

theorem heapMarkBlocksFree_chain (heap : Heap) (s n : Int) (hlow : 0 ≤ s) (hpos : 0 < n)
    (hroom : s + n ≤ heap.table.totalEntries) (hN : heap.table.totalEntries < 2147483648)
    (hchain : heap.table.Chain s n) :
    let after := (heapMarkBlocksFree heap s).table
    after.totalEntries = heap.table.totalEntries ∧
      (∀ j, s ≤ j → j < s + n → after.entries j = 0) ∧
      (∀ j, j < s ∨ s + n ≤ j → after.entries j = heap.table.entries j) ∧
      ∀ j, j ∈ after.written ↔ j ∈ heap.table.written ∨ s ≤ j ∧ j < s + n := by
  have hwrap : i32 heap.table.totalEntries = heap.table.totalEntries :=
    i32_of_range (by omega) (by omega)
  obtain ⟨m, hle, hm, hnext, hstop, htotal, hzero, hframe, hwritten⟩ :=
    heapMarkBlocksFreeLoop_spec (i32 heap.table.totalEntries - s).toNat s heap.table
  have hmn : (m : Int) = n := by
    rw [hwrap] at hle hm hstop
    have hmpos := hm (by omega)
    rcases lt_trichotomy (m : Int) n with hlt | heq | hgt
    · -- it stopped early, at an entry that has a next
      exact absurd (((hchain (s + m - 1) (by omega) (by omega)).2).mpr (by omega))
        (hstop (by omega))
    · exact heq
    · -- it went past the last block, which has none
      exact absurd rfl (((hchain (s + n - 1) (by omega) (by omega)).2).mp
        (hnext (s + n - 1) (by omega) (by omega)))
  rw [hmn] at hzero hframe hwritten
  intro after
  have hafter : after = heapMarkBlocksFreeLoop (i32 heap.table.totalEntries - s).toNat s
      heap.table := heapMarkBlocksFree_table heap s
  rw [hafter]
  exact ⟨htotal, hzero, hframe, hwritten⟩

theorem heapMarkBlocksFree_heapMarkBlocksTaken {heap : Heap} {s n : Int} (hlow : 0 ≤ s)
    (hpos : 0 < n) (hroom : s + n ≤ heap.table.totalEntries)
    (hN : heap.table.totalEntries < 2147483648)
    (hfree : ∀ i, s ≤ i → i < s + n → heap.table.entries i = heapBlockTableEntryFree) :
    (heapMarkBlocksFree (heapMarkBlocksTaken heap s n) s).table.entries = heap.table.entries := by
  have hend : i32 (s + n - 1) = s + n - 1 := i32_of_range (by omega) (by omega)
  obtain ⟨houtside, -⟩ := heapMarkBlocksTaken_frame heap hend
  obtain ⟨-, hcleared, hframe, -⟩ := heapMarkBlocksFree_chain (heapMarkBlocksTaken heap s n) s n
    hlow hpos (by rwa [heapMarkBlocksTaken_totalEntries])
    (by rwa [heapMarkBlocksTaken_totalEntries]) (heapMarkBlocksTaken_chain heap hend)
  funext i
  by_cases hin : s ≤ i ∧ i < s + n
  · rw [hcleared i hin.1 hin.2, hfree i hin.1 hin.2]
    rfl
  · rw [hframe i (by omega), houtside i (by omega)]

/-! Creation. -/

theorem heapClearEntries_spec (table : HeapTable) (size : Nat) :
    let after := heapClearEntries table size
    after.totalEntries = table.totalEntries ∧
      (∀ j : Int, 0 ≤ j → j < size → after.entries j = 0) ∧
      ∀ j, j ∈ after.written ↔ j ∈ table.written ∨ 0 ≤ j ∧ j < size := by
  induction size with
  | zero =>
    refine ⟨rfl, by intros; omega, fun j => ⟨Or.inl, ?_⟩⟩
    rintro (h | h)
    · exact h
    · omega
  | succ size ih =>
    obtain ⟨htotal, hzero, hwritten⟩ := ih
    refine ⟨htotal, fun j hlow hhigh => ?_, fun j => ?_⟩
    · unfold heapClearEntries
      rw [HeapTable.store_entries]
      by_cases hj : j = size
      · rw [hj]
        simp [heapBlockTableEntryFree]
      · rw [Function.update_of_ne hj]
        exact hzero j hlow (by push_cast at hhigh; omega)
    · unfold heapClearEntries
      rw [HeapTable.store_written, List.mem_cons, hwritten j]
      push_cast
      constructor
      · rintro (h | h | h)
        · exact Or.inr (by omega)
        · exact Or.inl h
        · exact Or.inr (by omega)
      · rintro (h | h)
        · exact Or.inr (Or.inl h)
        · by_cases hj : j = size
          · exact Or.inl hj
          · exact Or.inr (Or.inr (by omega))

theorem heapClearEntries_below (table : HeapTable) (size : Nat) {j : Int} (hj : j < 0) :
    (heapClearEntries table size).entries j = table.entries j := by
  induction size with
  | zero => rfl
  | succ size ih =>
    unfold heapClearEntries
    rw [HeapTable.store_entries, Function.update_of_ne (by omega)]
    exact ih

theorem heapCreate_below {heap created : Heap} {ptr endOfHeap : Nat} {table : HeapTable}
    (h : heapCreate heap ptr endOfHeap table = (0, created)) {j : Int} (hj : j < 0) :
    created.table.entries j = table.entries j := by
  unfold heapCreate at h
  dsimp only at h
  split_ifs at h with halign hvalid
  · exact absurd (congrArg Prod.fst h) (show ¬ -einvarg = 0 by decide)
  · simp only [Prod.mk.injEq] at h
    exact absurd hvalid (by rw [h.1]; decide)
  · simp only [Prod.mk.injEq] at h
    rw [← h.2]
    exact heapClearEntries_below table _ hj

/-- A heap that was created has as many entries as its address range has blocks, all free. -/
theorem heapCreate_spec {heap created : Heap} {ptr endOfHeap : Nat} {table : HeapTable}
    (h : heapCreate heap ptr endOfHeap table = (0, created)) :
    created.startAddress = ptr ∧
      created.table.totalEntries = u32 ((endOfHeap : Int) - ptr) / 4096 ∧
      (∀ j : Int, 0 ≤ j → j < created.table.totalEntries → created.table.entries j = 0) ∧
      ∀ j, j ∈ created.table.written ↔
        j ∈ table.written ∨ 0 ≤ j ∧ j < created.table.totalEntries := by
  unfold heapCreate at h
  dsimp only at h
  split_ifs at h with halign hvalid
  · exact absurd (congrArg Prod.fst h) (show ¬ -einvarg = 0 by decide)
  · simp only [Prod.mk.injEq] at h
    exact absurd hvalid (by rw [h.1]; decide)
  · simp only [Prod.mk.injEq] at h
    obtain ⟨hresponse, rfl⟩ := h
    obtain ⟨htotal, hzero, hwritten⟩ := heapClearEntries_spec table table.totalEntries
    unfold heapValidateTable at hresponse
    dsimp only at hresponse
    split_ifs at hresponse with hblocks
    · exact absurd hresponse (by decide)
    · dsimp only
      rw [htotal]
      exact ⟨rfl, not_not.mp hblocks, hzero, hwritten⟩

/-! Addresses. -/

theorem heapBlockToAddress_eq (heap : Heap) (s : Int) :
    heapBlockToAddress heap s = u32 (heap.startAddress + s * 4096) := by
  unfold heapBlockToAddress boiosHeapBlockSize i32 u32
  push_cast
  omega

def Heap.blockOf (heap : Heap) (ptr : Nat) : Int :=
  ((ptr : Int) - heap.startAddress) % 4294967296 / 4096

@[simp] theorem blockOf_heapMarkBlocksTaken (heap : Heap) (s n : Int) (ptr : Nat) :
    (heapMarkBlocksTaken heap s n).blockOf ptr = heap.blockOf ptr := by
  simp [Heap.blockOf]

@[simp] theorem blockOf_heapMarkBlocksFree (heap : Heap) (s : Int) (ptr : Nat) :
    (heapMarkBlocksFree heap s).blockOf ptr = heap.blockOf ptr := by
  simp [Heap.blockOf]

theorem blockOf_heapBlockToAddress (heap : Heap) (s : Int) (hlow : 0 ≤ s) (hhigh : s < 1048576) :
    heap.blockOf (heapBlockToAddress heap s) = s := by
  rw [heapBlockToAddress_eq]
  unfold Heap.blockOf u32
  omega

/-- In the lower two gigabytes of the heap the code finds the block of a pointer. -/
theorem heapAddressToBlock_eq_blockOf (heap : Heap) (ptr : Nat)
    (h : ((ptr : Int) - heap.startAddress) % 4294967296 < 2147483648) :
    heapAddressToBlock heap ptr = heap.blockOf ptr := by
  unfold heapAddressToBlock Heap.blockOf boiosHeapBlockSize
  have hwrap : i32 ((ptr : Int) - heap.startAddress) =
      ((ptr : Int) - heap.startAddress) % 4294967296 := by
    unfold i32
    omega
  rw [hwrap, Int.tdiv_eq_ediv_of_nonneg (by omega), Nat.cast_ofNat]

theorem heapAlignValueToUpper_div (size : Nat) (hsize : size ≤ 0xFFFFF000) :
    heapAlignValueToUpper size / boiosHeapBlockSize = (size + 4095) / 4096 := by
  unfold heapAlignValueToUpper boiosHeapBlockSize
  split_ifs with haligned
  · omega
  · have hwrap : u32 ((size - size % 4096 : Nat) + 4096) = size - size % 4096 + 4096 :=
      u32_natCast (n := size - size % 4096 + 4096) (by omega)
    push_cast at hwrap ⊢
    rw [hwrap]
    omega

@[simp] theorem heapMalloc_startAddress (heap : Heap) (size : Nat) :
    (heapMalloc heap size).2.startAddress = heap.startAddress := by
  unfold heapMalloc heapMallocBlocks
  dsimp only
  split_ifs
  · rfl
  · exact heapMarkBlocksTaken_startAddress ..

theorem heapMalloc_aligned {heap : Heap} (h : heap.startAddress % 4096 = 0) (size : Nat) :
    (heapMalloc heap size).1 % 4096 = 0 := by
  unfold heapMalloc heapMallocBlocks
  dsimp only
  split_ifs
  · rfl
  · rw [heapBlockToAddress_eq]
    unfold u32
    omega

/-! Requests. -/

def blocksFor (size : Nat) : Nat := (size + 4095) / 4096

theorem totalBlocks_eq {size : Nat} (hsize : size ≤ 0xFFFFF000) (heap : Heap) :
    heapMalloc heap size = heapMallocBlocks heap (blocksFor size) := by
  simp only [heapMalloc, blocksFor, heapAlignValueToUpper_div size hsize]

theorem blocksFor_pos {size : Nat} (hsize : 1 ≤ size) : 0 < blocksFor size := by
  unfold blocksFor
  omega

theorem blocksFor_le {size : Nat} (hsize : size ≤ 0xFFFFF000) : blocksFor size ≤ 1048575 := by
  unfold blocksFor
  omega

theorem i32_blocksFor_end {size : Nat} (hsize : size ≤ 0xFFFFF000) {b : Int} (hlow : 0 ≤ b)
    (hhigh : b < 1048576) : i32 (b + blocksFor size - 1) = b + blocksFor size - 1 := by
  have hblocks := blocksFor_le hsize
  exact i32_of_range (by omega) (by omega)

/-- What a request can lead to: the first run that fits is taken, the free entries at the
end are taken although they are too few, or nothing is. -/
theorem heapMalloc_cases {heap : Heap} (hsmall : heap.table.totalEntries < 1048576)
    {size : Nat} (hlow : 1 ≤ size) (hhigh : size ≤ 0xFFFFF000) :
    (∃ b : Int, 0 ≤ b ∧ b + blocksFor size ≤ heap.table.totalEntries ∧
      heap.table.FreeRun b (blocksFor size) ∧
      heapMalloc heap size =
        (heapBlockToAddress heap b, heapMarkBlocksTaken heap b (blocksFor size))) ∨
    (∃ b : Int, 0 ≤ b ∧ heap.table.totalEntries < b + blocksFor size ∧
      b < heap.table.totalEntries ∧
      heap.table.FreeRun b (heap.table.totalEntries - b) ∧
      heap.table.NoRoom (blocksFor size) ∧
      heapMalloc heap size =
        (heapBlockToAddress heap b, heapMarkBlocksTaken heap b (blocksFor size))) ∨
    (heap.table.NoRoom (blocksFor size) ∧ heap.table.LastTaken ∧
      heapMalloc heap size = (0, heap)) := by
  have hle := blocksFor_le hhigh
  have hspec := heapGetStartBlock_spec heap (blocksFor size) (blocksFor_pos hlow)
    (by omega) (by omega)
  have hint : i32 (blocksFor size) = blocksFor size := i32_of_range (by omega) (by omega)
  rw [totalBlocks_eq hhigh]
  unfold heapMallocBlocks
  dsimp only
  rw [hint]
  generalize heapGetStartBlock heap (blocksFor size) = startBlock at hspec ⊢
  cases hspec with
  | fits _ hb hroom hfree _ =>
    rw [if_neg (by omega)]
    exact Or.inl ⟨_, hb, hroom, hfree, rfl⟩
  | tooShort _ hb hin hshort hfree hno =>
    rw [if_neg (by omega)]
    exact Or.inr (Or.inl ⟨_, hb, hshort, hin, hfree, hno, rfl⟩)
  | none hno hlast =>
    rw [if_pos (by decide)]
    exact Or.inr (Or.inr ⟨hno, hlast, rfl⟩)

theorem heapGetStartBlockLoop_zero {table : HeapTable} (count i : Nat) (current start : Int)
    (hcurrent : 0 ≤ current) (hbound : current + (count + 1 : Nat) < 4294967296)
    (hlast : ¬ table.IsFree ((i : Int) + count)) :
    heapGetStartBlockLoop table 0 (count + 1) i current start = -1 := by
  induction count generalizing i current start with
  | zero =>
    unfold heapGetStartBlockLoop
    rw [if_pos (by simpa [HeapTable.IsFree] using hlast)]
    rfl
  | succ count ih =>
    have hlast' : ¬ table.IsFree (((i + 1 : Nat) : Int) + count) := by
      rwa [show ((i + 1 : Nat) : Int) + count = (i : Int) + (count + 1 : Nat) by push_cast; omega]
    unfold heapGetStartBlockLoop
    by_cases hfree : table.IsFree i
    · have hcur : u32 (current + 1) ≠ 0 := by
        unfold u32
        omega
      rw [if_neg (by simpa [HeapTable.IsFree] using hfree), if_neg hcur]
      exact ih (i + 1) (current + 1) _ (by omega) (by push_cast at hbound ⊢; omega) hlast'
    · rw [if_pos (by simpa [HeapTable.IsFree] using hfree)]
      exact ih (i + 1) 0 (-1) (le_refl 0) (by push_cast at hbound ⊢; omega) hlast'

theorem heapAlignValueToUpper_div_zero {size : Nat} (hsize : size < 4294967296)
    (h : size = 0 ∨ 0xFFFFF000 < size) : heapAlignValueToUpper size / boiosHeapBlockSize = 0 := by
  unfold heapAlignValueToUpper boiosHeapBlockSize
  split_ifs with haligned
  · omega
  · have hwrap : u32 ((size - size % 4096 : Nat) + (4096 : Nat)) = 0 := by
      unfold u32
      omega
    rw [hwrap]

theorem heapMalloc_none {heap : Heap} (hsmall : heap.table.totalEntries < 4294967296) {size : Nat}
    (hsize : size < 4294967296) (h : size = 0 ∨ 0xFFFFF000 < size)
    (hlast : heap.table.LastTaken) : heapMalloc heap size = (0, heap) := by
  have hstart : heapGetStartBlock heap 0 = -enomem := by
    unfold heapGetStartBlock
    rw [if_pos]
    cases htotal : heap.table.totalEntries with
    | zero => rfl
    | succ count =>
      apply heapGetStartBlockLoop_zero count 0 0 (-1) (le_refl 0) (by omega)
      rcases hlast with hempty | hlast
      · omega
      · rw [htotal] at hlast
        rwa [show ((0 : Nat) : Int) + count = ((count + 1 : Nat) : Int) - 1 by push_cast; omega]
  unfold heapMalloc heapMallocBlocks
  dsimp only
  rw [heapAlignValueToUpper_div_zero hsize h, hstart, if_pos (by decide)]

/-- The requests that the allocator serves: one that some run of free blocks is long enough for,
or any one that finds the last entry taken. -/
def Heap.Serves (heap : Heap) (size : Nat) : Prop :=
  (1 ≤ size ∧ size ≤ 0xFFFFF000 ∧ ¬ heap.table.NoRoom (blocksFor size)) ∨ heap.table.LastTaken

theorem heapMalloc_serves {heap : Heap} (hsmall : heap.table.totalEntries < 1048576) {size : Nat}
    (hsize : size < 4294967296) (h : heap.Serves size) :
    (1 ≤ size ∧ size ≤ 0xFFFFF000 ∧ ∃ b : Int, 0 ≤ b ∧
      b + blocksFor size ≤ heap.table.totalEntries ∧ heap.table.FreeRun b (blocksFor size) ∧
      heapMalloc heap size =
        (heapBlockToAddress heap b, heapMarkBlocksTaken heap b (blocksFor size))) ∨
    heapMalloc heap size = (0, heap) := by
  by_cases hround : size = 0 ∨ 0xFFFFF000 < size
  · rcases h with ⟨hlow, hhigh, _⟩ | hlast
    · omega
    · exact Or.inr (heapMalloc_none (by omega) hsize hround hlast)
  · have hlow : 1 ≤ size := by omega
    have hhigh : size ≤ 0xFFFFF000 := by omega
    rcases heapMalloc_cases hsmall hlow hhigh with hfits | ⟨b, hb, _, hin, hfree, hno, _⟩ |
      ⟨_, _, hnone⟩
    · exact Or.inl ⟨hlow, hhigh, hfits⟩
    · exfalso
      rcases h with ⟨_, _, hroom⟩ | hempty | hlast
      · exact hroom hno
      · omega
      · exact hlast (hfree _ (by omega) (by omega))
    · exact Or.inr hnone

end BoiOS
