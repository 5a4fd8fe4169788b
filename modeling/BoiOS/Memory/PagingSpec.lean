import BoiOS.Memory.Paging
import Mathlib.Data.Nat.Bitwise

/-! What the mapping functions do to a page directory, once for every caller. A directory is
seen as the function from page addresses to entries that `paging_get` reads. -/
namespace BoiOS

/-- `directory` holds the tables `tables`, all in memory and all different. -/
structure IsDirectory (s : PageStore) (directory : Nat) (tables : Nat → Nat) : Prop where
  holds : ∃ entries, s.arrays directory = some entries ∧
    ∀ i < 1024, pagingFrame (entries i) = tables i
  present : ∀ i < 1024, ∃ entries, s.arrays (tables i) = some entries
  apart : ∀ i < 1024, tables i ≠ directory
  distinct : ∀ i < 1024, ∀ j < 1024, tables i = tables j → i = j

theorem pagingDirectoryIndex_lt {va : Nat} (h : va < 4294967296) : pagingDirectoryIndex va < 1024 := by
  unfold pagingDirectoryIndex pagingTotalEntriesPerTable pagingPageSize
  omega

theorem page_eq_of_indexes {va va' : Nat} (ha : va % 4096 = 0) (ha' : va' % 4096 = 0)
    (hdirectory : pagingDirectoryIndex va = pagingDirectoryIndex va')
    (htable : pagingTableIndex va = pagingTableIndex va') : va = va' := by
  unfold pagingDirectoryIndex pagingTotalEntriesPerTable pagingPageSize at hdirectory
  unfold pagingTableIndex pagingTotalEntriesPerTable pagingPageSize at htable
  omega

theorem IsDirectory.table {s : PageStore} {directory : Nat} {tables : Nat → Nat}
    (h : IsDirectory s directory tables) {va : Nat} (hva : va < 4294967296) :
    pagingTable s directory va = some (tables (pagingDirectoryIndex va)) := by
  obtain ⟨entries, harray, hframe⟩ := h.holds
  unfold pagingTable
  rw [harray, Option.map_some, hframe _ (pagingDirectoryIndex_lt hva)]

/-- What a store of one entry changes: the table of its address, and the record. -/
def PageStore.setEntry (s : PageStore) (table va value : Nat) (entries : Nat → Nat) : PageStore :=
  { s with
    arrays := Function.update s.arrays table
      (some (Function.update entries (pagingTableIndex va) value))
    entered := (va, value) :: s.entered }

theorem IsDirectory.pagingSet {s : PageStore} {directory : Nat} {tables : Nat → Nat}
    (h : IsDirectory s directory tables) {va : Nat} (hva : va < 4294967296)
    (haligned : va % 4096 = 0) (value : Nat) :
    ∃ entries, s.arrays (tables (pagingDirectoryIndex va)) = some entries ∧
      pagingSet s directory va value =
        .ok (0, s.setEntry (tables (pagingDirectoryIndex va)) va value entries) := by
  obtain ⟨entries, harray⟩ := h.present _ (pagingDirectoryIndex_lt hva)
  refine ⟨entries, harray, ?_⟩
  unfold BoiOS.pagingSet pagingIsAligned pagingPageSize
  rw [if_neg (by simp [haligned]), h.table hva, access_some]
  simp only [Except.bind, harray, access_some, Except.map]
  rfl

theorem IsDirectory.setEntry_other {s : PageStore} {directory : Nat} {tables : Nat → Nat}
    (h : IsDirectory s directory tables) {table va value : Nat} {entries : Nat → Nat}
    (hdirectory : directory ≠ table) (htables : ∀ i < 1024, tables i ≠ table) :
    IsDirectory (s.setEntry table va value entries) directory tables ∧
      ∀ va' < 4294967296, pagingGet (s.setEntry table va value entries) directory va' =
        pagingGet s directory va' := by
  obtain ⟨es, hes, hframe⟩ := h.holds
  have hsame : ∀ i < 1024, (s.setEntry table va value entries).arrays (tables i) =
      s.arrays (tables i) := by
    intro i hi
    exact Function.update_of_ne (htables i hi) _ _
  have hdir : (s.setEntry table va value entries).arrays directory = s.arrays directory :=
    Function.update_of_ne hdirectory _ _
  have hkept : IsDirectory (s.setEntry table va value entries) directory tables := by
    refine ⟨⟨es, hdir.trans hes, hframe⟩, fun i hi => ?_, h.apart, h.distinct⟩
    rw [hsame i hi]
    exact h.present i hi
  refine ⟨hkept, fun va' hva' => ?_⟩
  obtain ⟨page, hpage, hget⟩ := pagingGet_eq hva'
  rw [hget, hget]
  unfold pagingEntry
  rw [hkept.table hpage, h.table hpage, access_some]
  simp only [Except.bind]
  rw [hsame _ (pagingDirectoryIndex_lt hpage)]

theorem IsDirectory.setEntry_self {s : PageStore} {directory : Nat} {tables : Nat → Nat}
    (h : IsDirectory s directory tables) {va : Nat} (value : Nat) {entries : Nat → Nat}
    (hva : va < 4294967296) (haligned : va % 4096 = 0)
    (hentries : s.arrays (tables (pagingDirectoryIndex va)) = some entries) :
    let after := s.setEntry (tables (pagingDirectoryIndex va)) va value entries
    IsDirectory after directory tables ∧
      ∀ va' < 4294967296, va' % 4096 = 0 → pagingGet after directory va' =
        if va' = va then .ok value else pagingGet s directory va' := by
  intro after
  have hindex := pagingDirectoryIndex_lt hva
  obtain ⟨es, hes, hframe⟩ := h.holds
  have hdir : after.arrays directory = s.arrays directory :=
    Function.update_of_ne (h.apart _ hindex).symm _ _
  have hkept : IsDirectory after directory tables := by
    refine ⟨⟨es, hdir.trans hes, hframe⟩, fun i hi => ?_, h.apart, h.distinct⟩
    by_cases hi' : i = pagingDirectoryIndex va
    · rw [hi']
      exact ⟨_, Function.update_self ..⟩
    · obtain ⟨es', hes'⟩ := h.present i hi
      refine ⟨es', ?_⟩
      rw [← hes']
      exact Function.update_of_ne (fun heq => hi' (h.distinct i hi _ hindex heq)) _ _
  refine ⟨hkept, fun va' hva' haligned' => ?_⟩
  rw [pagingGet_of_aligned haligned', pagingGet_of_aligned haligned']
  unfold pagingEntry
  rw [hkept.table hva', h.table hva', access_some]
  simp only [Except.bind]
  by_cases htable : pagingDirectoryIndex va' = pagingDirectoryIndex va
  · have harray : after.arrays (tables (pagingDirectoryIndex va)) =
        some (Function.update entries (pagingTableIndex va) value) := Function.update_self ..
    rw [htable, harray, hentries, access_some, access_some]
    simp only [Except.map]
    by_cases heq : va' = va
    · rw [heq, if_pos rfl, Function.update_self]
    · rw [if_neg heq, Function.update_of_ne]
      exact fun hindexes => heq (page_eq_of_indexes haligned' haligned htable hindexes)
  · have hne : tables (pagingDirectoryIndex va') ≠ tables (pagingDirectoryIndex va) :=
      fun heq => htable (h.distinct _ (pagingDirectoryIndex_lt hva') _ hindex heq)
    have harray : after.arrays (tables (pagingDirectoryIndex va')) =
        s.arrays (tables (pagingDirectoryIndex va')) := Function.update_of_ne hne _ _
    rw [harray, if_neg (fun heq => htable (by rw [heq]))]

/-! Ranges. -/

/-- The entries of `n` pages from the address `v` on, in the order in which they are stored. -/
def rangeEntries (v p flags : Nat) : (n : Nat) → List (Nat × Nat)
  | 0 => []
  | n + 1 => (v, p ||| flags) ::
      rangeEntries (u32 ((v : Int) + 4096)) (u32 ((p : Int) + 4096)) flags n

theorem u32_page_aligned {a : Nat} (h : a % 4096 = 0) : u32 ((a : Int) + 4096) % 4096 = 0 := by
  unfold u32
  omega

theorem pagingMap_eq_ok {s s' : PageStore} {chunk v p flags : Nat} {res : Int}
    (hv : v % 4096 = 0) (hp : p % 4096 = 0) (h : pagingMap s chunk v p flags = .ok (res, s')) :
    res = 0 ∧ s'.entered = (v, p ||| flags) :: s.entered := by
  unfold pagingMap pagingPageSize at h
  rw [if_neg (by simp [hv, hp])] at h
  cases hchunk : s.chunks chunk with
  | none => simp [hchunk, Except.bind] at h
  | some directory =>
    simp only [hchunk, access_some, Except.bind] at h
    unfold pagingSet pagingIsAligned pagingPageSize at h
    rw [if_neg (by simp [hv])] at h
    cases htable : pagingTable s directory v with
    | none => simp [htable, Except.bind] at h
    | some table =>
      simp only [htable, access_some, Except.bind] at h
      cases harray : s.arrays table with
      | none => simp [harray, Except.map] at h
      | some entries =>
        simp only [harray, access_some, Except.map, Except.ok.injEq, Prod.mk.injEq] at h
        obtain ⟨rfl, rfl⟩ := h
        exact ⟨rfl, rfl⟩

theorem pagingMapRange_entered {s s' : PageStore} {chunk v p n flags : Nat} {res res' : Int}
    (hv : v % 4096 = 0) (hp : p % 4096 = 0) (hres : res = 0)
    (h : pagingMapRange s chunk v p n flags res = .ok (res', s')) :
    res' = 0 ∧ s'.entered = (rangeEntries v p flags n).reverse ++ s.entered := by
  induction n generalizing s v p res with
  | zero =>
    simp only [pagingMapRange, Except.ok.injEq, Prod.mk.injEq] at h
    obtain ⟨rfl, rfl⟩ := h
    exact ⟨hres, rfl⟩
  | succ n ih =>
    unfold pagingMapRange at h
    cases hmap : pagingMap s chunk v p flags with
    | error stop => simp [hmap, Except.bind] at h
    | ok r =>
      obtain ⟨r, s₁⟩ := r
      obtain ⟨rfl, hentered⟩ := pagingMap_eq_ok hv hp hmap
      simp only [hmap, Except.bind, lt_irrefl, ↓reduceIte] at h
      obtain ⟨hres', hentered'⟩ := ih (u32_page_aligned hv) (u32_page_aligned hp) rfl h
      refine ⟨hres', ?_⟩
      rw [hentered', hentered]
      simp [rangeEntries]

theorem mem_rangeEntries {v p : Nat} (flags n : Nat) (hv : v < 4294967296)
    (hp : p < 4294967296) (e : Nat × Nat) : e ∈ rangeEntries v p flags n ↔
      ∃ i < n, e = (u32 ((v : Int) + 4096 * i), u32 ((p : Int) + 4096 * i) ||| flags) := by
  induction n generalizing v p with
  | zero => simp [rangeEntries]
  | succ n ih =>
    have hshift : ∀ a i : Nat, u32 ((u32 ((a : Int) + 4096) : Int) + 4096 * i) =
        u32 ((a : Int) + 4096 * (i + 1 : Nat)) := by
      intro a i
      rw [u32_add_u32]
      congr 1
      push_cast
      omega
    have hzero : ∀ a : Nat, a < 4294967296 → u32 ((a : Int) + 4096 * (0 : Nat)) = a := by
      intro a ha
      unfold u32
      omega
    unfold rangeEntries
    rw [List.mem_cons, ih (u32_lt _) (u32_lt _)]
    constructor
    · rintro (rfl | ⟨i, hi, rfl⟩)
      · exact ⟨0, by omega, by rw [hzero v hv, hzero p hp]⟩
      · exact ⟨i + 1, by omega, by rw [hshift, hshift]⟩
    · rintro ⟨i, hi, rfl⟩
      cases i with
      | zero => exact Or.inl (by rw [hzero v hv, hzero p hp])
      | succ i => exact Or.inr ⟨i, by omega, by rw [hshift, hshift]⟩

theorem pagingFrame_or {p flags : Nat} (hp : p % 4096 = 0) (hflags : flags < 4096) :
    pagingFrame (p ||| flags) = p := by
  obtain ⟨q, rfl⟩ : ∃ q, p = 2 ^ 12 * q := ⟨p / 4096, by omega⟩
  have hor := Nat.two_pow_add_eq_or_of_lt (b := flags) (i := 12) (by omega) q
  rw [← hor]
  unfold pagingFrame
  omega

/-! What a range does to the directory it goes through, and to others. -/

def ApartFrom (tables : Nat → Nat) (directory' : Nat) (tables' : Nat → Nat) : Prop :=
  ∀ i < 1024, directory' ≠ tables i ∧ ∀ j < 1024, tables' j ≠ tables i

/-- A step from `s` to `s'` through the directory `tables` leaves every directory apart from it
as it was. -/
def KeepsOthers (tables : Nat → Nat) (s s' : PageStore) : Prop :=
  ∀ directory' tables', IsDirectory s directory' tables' → ApartFrom tables directory' tables' →
    IsDirectory s' directory' tables' ∧
      ∀ va < 4294967296, pagingGet s' directory' va = pagingGet s directory' va

theorem KeepsOthers.refl (tables : Nat → Nat) (s : PageStore) : KeepsOthers tables s s :=
  fun _ _ h _ => ⟨h, fun _ _ => rfl⟩

theorem KeepsOthers.trans {tables : Nat → Nat} {s₁ s₂ s₃ : PageStore}
    (h₁ : KeepsOthers tables s₁ s₂) (h₂ : KeepsOthers tables s₂ s₃) : KeepsOthers tables s₁ s₃ := by
  intro directory' tables' hdir hapart
  obtain ⟨hdir₂, hget₂⟩ := h₁ directory' tables' hdir hapart
  obtain ⟨hdir₃, hget₃⟩ := h₂ directory' tables' hdir₂ hapart
  exact ⟨hdir₃, fun va hva => (hget₃ va hva).trans (hget₂ va hva)⟩

theorem pagingMapRange_get {s : PageStore} {directory chunk : Nat} {tables : Nat → Nat}
    (hdir : IsDirectory s directory tables) (hchunk : s.chunks chunk = some directory)
    (flags : Nat) {v p n : Nat} (hv : v % 4096 = 0) (hvlt : v < 4294967296) (hp : p % 4096 = 0)
    (hplt : p < 4294967296) (hn : n ≤ 1048576) :
    ∃ s', pagingMapRange s chunk v p n flags 0 = .ok (0, s') ∧
      IsDirectory s' directory tables ∧ s'.chunks = s.chunks ∧ KeepsOthers tables s s' ∧
      ∀ va < 4294967296, va % 4096 = 0 → pagingGet s' directory va =
        if u32 ((va : Int) - v) < 4096 * n then .ok (u32 ((p : Int) + u32 ((va : Int) - v)) ||| flags)
        else pagingGet s directory va := by
  induction n generalizing s v p with
  | zero =>
    exact ⟨s, rfl, hdir, rfl, KeepsOthers.refl tables s, fun va _ _ => by simp⟩
  | succ n ih =>
    obtain ⟨entries, harray, hset⟩ := hdir.pagingSet hvlt hv (p ||| flags)
    have hmap : pagingMap s chunk v p flags =
        .ok (0, s.setEntry (tables (pagingDirectoryIndex v)) v (p ||| flags) entries) := by
      unfold pagingMap pagingPageSize
      rw [if_neg (by simp [hv, hp]), hchunk, access_some]
      exact hset
    obtain ⟨hdir₁, hget₁⟩ := hdir.setEntry_self (p ||| flags) hvlt hv harray
    have hothers : KeepsOthers tables s
        (s.setEntry (tables (pagingDirectoryIndex v)) v (p ||| flags) entries) := by
      intro directory' tables' hdir' hapart
      have hindex := hapart _ (pagingDirectoryIndex_lt hvlt)
      exact hdir'.setEntry_other hindex.1 hindex.2
    obtain ⟨s', hrange, hdir', hchunks, hkeeps, hget⟩ := ih hdir₁ hchunk (u32_page_aligned hv)
      (u32_lt _) (u32_page_aligned hp) (u32_lt _) (by omega)
    refine ⟨s', ?_, hdir', hchunks, hothers.trans hkeeps, fun va hva haligned => ?_⟩
    · unfold pagingMapRange
      simp only [hmap, Except.bind, lt_irrefl, ↓reduceIte, pagingPageSize, Nat.cast_ofNat]
      exact hrange
    · rw [hget va hva haligned, hget₁ va hva haligned]
      by_cases hfirst : va = v
      · have hfar : ¬ u32 ((va : Int) - u32 ((v : Int) + 4096)) < 4096 * n := by
          rw [hfirst, u32_sub_u32]
          unfold u32
          omega
        have hnear : u32 ((va : Int) - v) = 0 := by
          rw [hfirst]
          unfold u32
          omega
        have hp0 : u32 ((p : Int) + (0 : Nat)) = p := by
          unfold u32
          omega
        rw [if_neg hfar, if_pos hfirst, hnear, if_pos (by omega), hp0]
      · have hshift : u32 ((va : Int) - u32 ((v : Int) + 4096)) + 4096 = u32 ((va : Int) - v) := by
          rw [u32_sub_u32]
          unfold u32
          omega
        have hpshift : u32 ((u32 ((p : Int) + 4096) : Int) +
            u32 ((va : Int) - u32 ((v : Int) + 4096))) =
            u32 ((p : Int) + u32 ((va : Int) - v)) := by
          rw [u32_add_u32, ← hshift]
          congr 1
          push_cast
          omega
        rw [if_neg hfirst, hpshift]
        by_cases hin : u32 ((va : Int) - v) < 4096 * (n + 1)
        · rw [if_pos (by omega), if_pos hin]
        · rw [if_neg (by omega), if_neg hin]

theorem pagingAlignToLowerPage_aligned (a : Nat) : pagingAlignToLowerPage a % 4096 = 0 := by
  unfold pagingAlignToLowerPage pagingPageSize
  omega

theorem pagingAlignToLowerPage_lt {a : Nat} (h : a < 4294967296) :
    pagingAlignToLowerPage a < 4294967296 := by
  unfold pagingAlignToLowerPage
  omega

theorem pagingAlignAddress_aligned (a : Nat) : pagingAlignAddress a % 4096 = 0 := by
  unfold pagingAlignAddress pagingPageSize u32
  split_ifs <;> omega

theorem pagingAlignAddress_lt {a : Nat} (h : a < 4294967296) :
    pagingAlignAddress a < 4294967296 := by
  unfold pagingAlignAddress
  split_ifs
  · exact u32_lt _
  · exact h

theorem pagingMapTo_entered {s s' : PageStore} {chunk v p e flags : Nat} {res : Int}
    (hv : v % 4096 = 0) (hp : p % 4096 = 0) (he : e % 4096 = 0)
    (h : pagingMapTo s chunk v p e flags = .ok (res, s')) :
    (e < p ∧ res = -einvarg ∧ s' = s) ∨
      (p ≤ e ∧ res = 0 ∧
        s'.entered = (rangeEntries v p flags ((e - p) / 4096)).reverse ++ s.entered) := by
  unfold pagingMapTo pagingPageSize at h
  rw [if_neg (by simp [hv, hp, he])] at h
  split_ifs at h with hlt
  · simp only [Except.ok.injEq, Prod.mk.injEq] at h
    exact Or.inl ⟨hlt, h.1.symm, h.2.symm⟩
  · obtain ⟨hres, hentered⟩ := pagingMapRange_entered hv hp rfl h
    exact Or.inr ⟨by omega, hres, hentered⟩

theorem pagingMapTo_get {s : PageStore} {directory chunk : Nat} {tables : Nat → Nat}
    (hdir : IsDirectory s directory tables) (hchunk : s.chunks chunk = some directory)
    (flags : Nat) {v p e : Nat} (hv : v % 4096 = 0) (hvlt : v < 4294967296) (hp : p % 4096 = 0)
    (he : e % 4096 = 0) (helt : e < 4294967296) (hle : p ≤ e) :
    ∃ s', pagingMapTo s chunk v p e flags = .ok (0, s') ∧
      IsDirectory s' directory tables ∧ s'.chunks = s.chunks ∧ KeepsOthers tables s s' ∧
      ∀ va < 4294967296, va % 4096 = 0 → pagingGet s' directory va =
        if u32 ((va : Int) - v) < e - p then .ok (p + u32 ((va : Int) - v) ||| flags)
        else pagingGet s directory va := by
  obtain ⟨s', hrange, hdir', hchunks, hkeeps, hget⟩ := pagingMapRange_get hdir hchunk flags
    hv hvlt hp (by omega) (by omega : (e - p) / 4096 ≤ 1048576)
  refine ⟨s', ?_, hdir', hchunks, hkeeps, fun va hva haligned => ?_⟩
  · unfold pagingMapTo pagingPageSize
    rw [if_neg (by simp [hv, hp, he]), if_neg (by omega)]
    exact hrange
  · rw [hget va hva haligned]
    have hpages : 4096 * ((e - p) / 4096) = e - p := by omega
    rw [hpages]
    split_ifs with hin
    · have hwrap : u32 ((p : Int) + u32 ((va : Int) - v)) = p + u32 ((va : Int) - v) := by
        generalize u32 ((va : Int) - v) = o at *
        unfold u32
        omega
      rw [hwrap]
    · rfl

end BoiOS
