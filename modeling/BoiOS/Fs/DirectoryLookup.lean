import BoiOS.Fs.PathWalk
import BoiOS.Fs.SearchHeap

/-! The lookup of a name in a directory. The count of the records comes from a scan of the disk and
the records from a read of their own, so that the records that are looked at are the first ones of
the array, as many as were counted, whatever the directory lists. -/
namespace BoiOS
open Library.StateRun

/-! What a lookup should do. -/

/-- The record precedes the first blank one, lies in the directory and is not deleted. -/
structure DirectoryRegion.Listed (r : DirectoryRegion) (disk : Disk) (i : Nat) : Prop where
  inside : i < r.places
  before : ∀ l ≤ i, charAt (recordAt disk r.position l) 0 ≠ 0x00
  kept : charAt (recordAt disk r.position i) 0 ≠ 0xE5

def Kernel.query (k : Kernel) (fileName : Nat) : List UInt8 := cString (k.memory.bytesAt fileName 128)

/-- The directory lists the record, which has the name that is looked for. -/
def DirectoryRegion.Lists (r : DirectoryRegion) (k : Kernel) (fileName i : Nat) : Prop :=
  r.Listed k.disk i ∧ SameName (recordName (recordAt k.disk r.position i)) (k.query fileName)

/-- The search has passed the records before the one with the index `j`. -/
def SearchedTo (d : FatDirectory) (fileName : Nat) (k : Kernel) (j before : Nat) (k₁ : Kernel) : Prop :=
  fat16FindItemInDirectoryLoop d.item fileName j 0 0 k = .ok (before, k₁)

def Named (d : FatDirectory) (fileName : Nat) (k : Kernel) (j : Nat) : Prop :=
  j < d.totalItems.toNat ∧ SameName (recordName (k.arrayRecord d j)) (k.query fileName)

def LastNamed (d : FatDirectory) (fileName : Nat) (k : Kernel) (j : Nat) : Prop :=
  Named d fileName k j ∧ ∀ l, j < l → ¬ Named d fileName k l

/-- The item of the answer was made from the record with the index `j`, and from none behind it. -/
def MadeFrom (d : FatDirectory) (fileName : Nat) (k : Kernel) (fItem : Nat) (k' : Kernel) (j : Nat) :
    Prop :=
  LastNamed d fileName k j ∧ ∃ before k₁, SearchedTo d fileName k j before k₁ ∧
    fat16NewFatItemOrDirectoryItem (recordAddress d.item j) k₁ = .ok (fItem, k')

/-- The lookup looks at records of the array only, and answers an item if and only if the directory
lists a record with the name; the item is made from the bytes of such a record and describes it. -/
structure LookupExact (r : DirectoryRegion) (d : FatDirectory) (fileName : Nat) (k : Kernel) : Prop where
  inside : ∀ j < d.totalItems.toNat, j < r.loaded
  answers : ∃ fItem k', fat16FindItemInDirectory d fileName k = .ok (fItem, k') ∧
    (fItem ≠ 0 ↔ ∃ i, r.Lists k fileName i) ∧
    (fItem ≠ 0 → ∃ i j, r.Lists k fileName i ∧ MadeFrom d fileName k fItem k' j ∧
      k.arrayRecord d j = recordAt k.disk r.position i ∧
      k'.Describes fItem (recordAt k.disk r.position i))

/-! When it does. -/

def DirectoryRegion.NamedLast (r : DirectoryRegion) (query : List UInt8) (j : Nat) : Prop :=
  (j < r.count.toNat ∧ SameName (recordName (r.record j)) query) ∧
    ∀ l, j < l → l < r.count.toNat → ¬ SameName (recordName (r.record l)) query

/-- The heap when the search comes to the record with the index `j`. -/
def DirectoryRegion.heapAt (r : DirectoryRegion) (disk : Disk) (p : FatPrivate) (query : List UInt8)
    (heap : Heap) (j : Nat) : Except Stop Heap :=
  searchHeap disk p query ((List.range j).map r.record) heap

/-- What the scan and the array have to do with the directory, on the disk and the heap before the
lookup: no more records are counted than are loaded; the subdirectories with the name can be read; the
last of the counted records with the name, if a block is left for an item, is one that the directory
lists, and there are as many blocks as its item takes; where the directory lists a record with the
name, there is such a record, and a block. -/
structure ScanAgrees (r : DirectoryRegion) (disk : Disk) (p : FatPrivate) (heap : Heap)
    (query : List UInt8) : Prop where
  counted : r.count.toNat ≤ r.loaded
  readable : ∃ heap', r.heapAt disk p query heap r.count.toNat = .ok heap'
  listed : ∀ j heap', r.NamedLast query j → r.heapAt disk p query heap j = .ok heap' →
    0 < heap'.freeBlocks → itemBlocks (r.record j) ≤ heap'.freeBlocks ∧
      ∃ i, r.Listed disk i ∧ recordAt disk r.position i = r.record j
  reached : (∃ i, r.Listed disk i ∧ SameName (recordName (recordAt disk r.position i)) query) →
    ∃ j heap', r.NamedLast query j ∧ r.heapAt disk p query heap j = .ok heap' ∧ 0 < heap'.freeBlocks

/-! The search. -/

/-- What the search reads stays where it is while it allocates. -/
structure Searchable (P : Set Int) (d : FatDirectory) (fileName : Nat) (k : Kernel) : Prop where
  guards : k.heap.Guards P
  sectorSize : k.disk.sectorSize = 512
  records : ∀ j < d.totalItems.toNat, k.KeptBytes P (recordAddress d.item j) sizeofFatDirectoryItem
  name : k.KeptBytes P fileName 128

theorem recordMatches_iff (m : Memory) (items fileName j : Nat) :
    RecordMatches m items fileName j ↔
      SameName (recordName (m.recordBytes (recordAddress items j)))
        (cString (m.bytesAt fileName 128)) := by
  obtain ⟨hzero, hlength⟩ := recordName_string (m.recordBytes (recordAddress items j))
  unfold RecordMatches
  rw [fat16GetFullRelativeFilename_eq]
  exact istrncmp_eq_zero_iff hzero (by omega) _

section Search
variable {P : Set Int} {d : FatDirectory} {fileName : Nat} {k k' : Kernel}

theorem Searchable.later (h : Searchable P d fileName k) (hframe : ContentFrame P k k') :
    Searchable P d fileName k' where
  guards := hframe.guards
  sectorSize := by rw [hframe.disk, h.sectorSize]
  records := fun j hj => hframe.keptBytes (h.records j hj)
  name := hframe.keptBytes h.name

theorem Searchable.named_iff (h : Searchable P d fileName k) (hframe : ContentFrame P k k') {j : Nat}
    (hj : j < d.totalItems.toNat) :
    RecordMatches k'.memory d.item fileName j ↔ Named d fileName k j := by
  have hrecord : k'.memory.recordBytes (recordAddress d.item j) = k.arrayRecord d j :=
    hframe.bytesAt (h.records j hj)
  rw [recordMatches_iff, hrecord, hframe.bytesAt h.name]
  exact ⟨fun hsame => ⟨hj, hsame⟩, fun hnamed => hnamed.2⟩

theorem Searchable.loop {count i before fItem : Nat} (h : Searchable P d fileName k)
    (hcount : i + count ≤ d.totalItems.toNat)
    (hrun : fat16FindItemInDirectoryLoop d.item fileName count i before k = .ok (fItem, k')) :
    ContentFrame P k k' := by
  induction count generalizing i before k with
  | zero =>
    obtain ⟨-, rfl⟩ := pure_eq_ok.mp hrun
    exact .refl h.guards
  | succ count ih =>
    by_cases hmatch : RecordMatches k.memory d.item fileName i
    · rw [fat16FindItemInDirectoryLoop_match hmatch] at hrun
      obtain ⟨next, k₁, hnew, hrun⟩ := bind_eq_ok.mp hrun
      obtain ⟨hframe, -⟩ := fat16NewFatItemOrDirectoryItem_content h.guards h.sectorSize
        (h.records i (by omega)) hnew
      exact hframe.trans (ih (h.later hframe) (by omega) hrun)
    · rw [fat16FindItemInDirectoryLoop_skip hmatch] at hrun
      exact ih h (by omega) hrun

theorem Searchable.searchedTo (h : Searchable P d fileName k) {j before : Nat} {k₁ : Kernel}
    (hj : j ≤ d.totalItems.toNat) (hsearched : SearchedTo d fileName k j before k₁) :
    ContentFrame P k k₁ := h.loop (by omega) hsearched

theorem Searchable.searchedTo_leaves {p : FatPrivate} (h : Searchable P d fileName k)
    (hvolume : k.VolumeOpen p) {n : Nat} (hn : n ≤ d.totalItems.toNat) :
    Leaves Kernel.SameVolume Kernel.heap k (fat16FindItemInDirectoryLoop d.item fileName n 0 0)
      (searchHeap k.disk p (k.query fileName) ((List.range n).map (k.arrayRecord d)) k.heap) := by
  induction n with
  | zero => exact .pure .refl rfl _
  | succ n ih =>
    refine .congr (fat16FindItemInDirectoryLoop_add n 0 0 k) ?_
    rw [List.range_succ, List.map_append, List.map_singleton, searchHeap_concat]
    refine (ih (by omega)).bind .trans fun before k₁ hsearched hsame => ?_
    have hframe := h.searchedTo (by omega) hsearched
    have h₁ := h.later hframe
    have hnamed := h.named_iff hframe hn
    have hrecord : k₁.memory.recordBytes (recordAddress d.item n) = k.arrayRecord d n :=
      hframe.bytesAt (h.records n hn)
    rw [Nat.zero_add]
    by_cases hname : SameName (recordName (k.arrayRecord d n)) (k.query fileName)
    · have hnew := fat16NewFatItemOrDirectoryItem_leaves (hvolume.later hsame) h₁.guards
        (h₁.records n hn)
      rw [hrecord, hsame.1] at hnew
      rw [if_pos hname]
      refine .congr (fat16FindItemInDirectoryLoop_match (hnamed.mpr ⟨hn, hname⟩)) ?_
      exact hnew.followed .trans fun fItem k₂ => ⟨fItem, k₂, rfl, rfl, .refl k₂⟩
    · rw [if_neg hname]
      refine .congr (fat16FindItemInDirectoryLoop_skip fun hmatch => hname (hnamed.mp hmatch).2) ?_
      exact .pure .refl rfl _

theorem exists_searchedTo_of_run {fItem j : Nat} (hj : j ≤ d.totalItems.toNat)
    (hrun : fat16FindItemInDirectory d fileName k = .ok (fItem, k')) :
    ∃ before k₁, SearchedTo d fileName k j before k₁ ∧
      fat16FindItemInDirectoryLoop d.item fileName (d.totalItems.toNat - j) j before k₁ =
        .ok (fItem, k') := by
  unfold fat16FindItemInDirectory at hrun
  rw [show d.totalItems.toNat = j + (d.totalItems.toNat - j) by omega,
    fat16FindItemInDirectoryLoop_add] at hrun
  obtain ⟨before, k₁, hsearched, hrest⟩ := bind_eq_ok.mp hrun
  rw [Nat.zero_add] at hrest
  exact ⟨before, k₁, hsearched, hrest⟩

theorem Searchable.find_last (h : Searchable P d fileName k) {j before fItem : Nat} {k₁ : Kernel}
    (hlast : LastNamed d fileName k j) (hsearched : SearchedTo d fileName k j before k₁)
    (hnew : fat16NewFatItemOrDirectoryItem (recordAddress d.item j) k₁ = .ok (fItem, k')) :
    fat16FindItemInDirectory d fileName k = .ok (fItem, k') := by
  have hj := hlast.1.1
  have hframe := h.searchedTo hj.le hsearched
  have h₁ := h.later hframe
  obtain ⟨hframe', -⟩ := fat16NewFatItemOrDirectoryItem_content h₁.guards h₁.sectorSize
    (h₁.records j hj) hnew
  refine fat16FindItemInDirectory_last hj hsearched ((h.named_iff hframe hj).mpr hlast.1) hnew
    fun l hl hl' hmatch => ?_
  exact hlast.2 l hl ((h.named_iff (hframe.trans hframe') hl').mp hmatch)

theorem Searchable.find_none (h : Searchable P d fileName k)
    (hnone : ∀ j, ¬ Named d fileName k j) : fat16FindItemInDirectory d fileName k = .ok (0, k) := by
  refine fat16FindItemInDirectoryLoop_none fun j _ hj hmatch => ?_
  rw [Nat.zero_add] at hj
  exact hnone j ((h.named_iff (.refl h.guards) hj).mp hmatch)

theorem exists_lastNamed (h : ∃ j, Named d fileName k j) : ∃ j, LastNamed d fileName k j := by
  obtain ⟨j₀, hj₀⟩ := h
  by_contra hnone
  -- otherwise there is one behind each of them
  have hbehind : ∀ n, ∃ j, n ≤ j ∧ Named d fileName k j := by
    intro n
    induction n with
    | zero => exact ⟨j₀, Nat.zero_le _, hj₀⟩
    | succ n ih =>
      obtain ⟨j, hle, hj⟩ := ih
      by_contra hbound
      exact hnone ⟨j, hj, fun l hl hnamed => hbound ⟨l, by omega, hnamed⟩⟩
  obtain ⟨j, hle, hj, -⟩ := hbehind d.totalItems.toNat
  omega

theorem LastNamed.unique {j l : Nat} (hj : LastNamed d fileName k j) (hl : LastNamed d fileName k l) :
    j = l := by
  rcases lt_trichotomy j l with hlt | heq | hgt
  · exact absurd hl.1 (hj.2 l hlt)
  · exact heq
  · exact absurd hj.1 (hl.2 j hgt)

end Search

/-! Exact lookups. -/

section Exact
variable {P : Set Int} {r : DirectoryRegion} {d : FatDirectory} {p : FatPrivate} {fileName : Nat}
  {k : Kernel}

theorem Searchable.answer (h : Searchable P d fileName k) (hvolume : k.VolumeOpen p) {j fItem : Nat}
    {k' : Kernel} (hlast : LastNamed d fileName k j)
    (hrun : fat16FindItemInDirectory d fileName k = .ok (fItem, k')) :
    MadeFrom d fileName k fItem k' j ∧ ∃ heap', searchHeap k.disk p (k.query fileName)
        ((List.range j).map (k.arrayRecord d)) k.heap = .ok heap' ∧
      (fItem ≠ 0 ↔ 0 < heap'.freeBlocks) ∧
      (fItem ≠ 0 → (k'.Describes fItem (k.arrayRecord d j) ↔
        itemBlocks (k.arrayRecord d j) ≤ heap'.freeBlocks)) := by
  have hj := hlast.1.1
  obtain ⟨before, k₁, hsearched, hrest⟩ := exists_searchedTo_of_run hj.le hrun
  have hframe := h.searchedTo hj.le hsearched
  have h₁ := h.later hframe
  have hmatch := (h.named_iff hframe hj).mpr hlast.1
  rw [show d.totalItems.toNat - j = d.totalItems.toNat - j - 1 + 1 by omega,
    fat16FindItemInDirectoryLoop_match hmatch] at hrest
  obtain ⟨next, k₂, hnew, -⟩ := bind_eq_ok.mp hrest
  -- the records behind it have another name, so that its item is the answer
  have hanswer := h.find_last hlast hsearched hnew
  rw [hrun, Except.ok.injEq, Prod.mk.injEq] at hanswer
  obtain ⟨rfl, rfl⟩ := hanswer
  obtain ⟨-, hserved, hdescribes⟩ := fat16NewFatItemOrDirectoryItem_content h₁.guards
    h₁.sectorSize (h₁.records j hj) hnew
  have hrecord : k₁.memory.recordBytes (recordAddress d.item j) = k.arrayRecord d j :=
    hframe.bytesAt (h.records j hj)
  rw [hrecord] at hdescribes
  obtain ⟨hheap, -⟩ := (h.searchedTo_leaves hvolume hj.le).of_run hsearched
  exact ⟨⟨hlast, before, k₁, hsearched, hnew⟩, k₁.heap, hheap, hserved, hdescribes⟩

structure ArrayHeld (r : DirectoryRegion) (d : FatDirectory) (k : Kernel) : Prop where
  count : d.totalItems = r.count
  record : ∀ j < r.count.toNat, k.arrayRecord d j = r.record j

theorem ArrayHeld.lastNamed_iff (h : ArrayHeld r d k) {j : Nat} :
    LastNamed d fileName k j ↔ r.NamedLast (k.query fileName) j := by
  unfold LastNamed Named DirectoryRegion.NamedLast
  rw [h.count]
  constructor
  · rintro ⟨⟨hj, hname⟩, hlast⟩
    rw [h.record j hj] at hname
    refine ⟨⟨hj, hname⟩, fun l hl hin hother => hlast l hl ⟨hin, ?_⟩⟩
    rwa [h.record l hin]
  · rintro ⟨⟨hj, hname⟩, hlast⟩
    refine ⟨⟨hj, by rwa [h.record j hj]⟩, fun l hl hother => hlast l hl hother.1 ?_⟩
    rw [← h.record l hother.1]
    exact hother.2

theorem ArrayHeld.heapAt_eq (h : ArrayHeld r d k) (disk : Disk) (query : List UInt8) (heap : Heap)
    {j : Nat} (hj : j ≤ r.count.toNat) : r.heapAt disk p query heap j =
      searchHeap disk p query ((List.range j).map (k.arrayRecord d)) heap := by
  have hrecords : (List.range j).map r.record = (List.range j).map (k.arrayRecord d) :=
    List.map_congr_left fun l hl => (h.record l ((List.mem_range.mp hl).trans_le hj)).symm
  unfold DirectoryRegion.heapAt
  rw [hrecords]

theorem Searchable.exact_of_scanAgrees (h : Searchable P d fileName k) (hvolume : k.VolumeOpen p)
    (hheld : ArrayHeld r d k) (hagrees : ScanAgrees r k.disk p k.heap (k.query fileName)) :
    LookupExact r d fileName k := by
  have hall := h.searchedTo_leaves hvolume le_rfl
  obtain ⟨last, hreadable⟩ := hagrees.readable
  rw [hheld.heapAt_eq _ _ _ le_rfl, ← hheld.count] at hreadable
  rw [hreadable] at hall
  obtain ⟨fItem, k', hrun, -⟩ := hall
  refine ⟨fun j hj => ?_, fItem, k', hrun, ?_⟩
  · have hcounted := hagrees.counted
    rw [hheld.count] at hj
    omega
  by_cases hsome : ∃ j, Named d fileName k j
  · obtain ⟨j, hlast⟩ := exists_lastNamed hsome
    obtain ⟨hmade, heap', hheap, hserved, hdescribes⟩ := h.answer hvolume hlast hrun
    have hnamed := hheld.lastNamed_iff.mp hlast
    have hj := hnamed.1.1
    rw [← hheld.heapAt_eq _ _ _ hj.le] at hheap
    rw [hheld.record j hj] at hdescribes
    have hfound : fItem ≠ 0 → ∃ i j, r.Lists k fileName i ∧ MadeFrom d fileName k fItem k' j ∧
        k.arrayRecord d j = recordAt k.disk r.position i ∧
        k'.Describes fItem (recordAt k.disk r.position i) := by
      intro hne
      obtain ⟨hroom, i, hlisted, hsame⟩ := hagrees.listed j heap' hnamed hheap (hserved.mp hne)
      refine ⟨i, j, ⟨hlisted, ?_⟩, hmade, (hheld.record j hj).trans hsame.symm, ?_⟩
      · rw [hsame]
        exact hnamed.1.2
      · rw [hsame]
        exact (hdescribes hne).mpr hroom
    refine ⟨⟨fun hne => ?_, fun hlists => ?_⟩, hfound⟩
    · obtain ⟨i, -, hlists, -⟩ := hfound hne
      exact ⟨i, hlists⟩
    · obtain ⟨l, heap'', hnamed', hheap', hroom⟩ := hagrees.reached hlists
      obtain rfl := hlast.unique (hheld.lastNamed_iff.mpr hnamed')
      obtain rfl := Except.ok.inj (hheap.symm.trans hheap')
      exact hserved.mpr hroom
  · have hnone := not_exists.mp hsome
    have hnothing := hrun.symm.trans (h.find_none hnone)
    rw [Except.ok.injEq, Prod.mk.injEq] at hnothing
    obtain ⟨rfl, rfl⟩ := hnothing
    refine ⟨⟨fun hne => absurd rfl hne, fun hlists => ?_⟩, fun hne => absurd rfl hne⟩
    obtain ⟨j, -, hnamed, -⟩ := hagrees.reached hlists
    exact absurd (hheld.lastNamed_iff.mpr hnamed).1 (hnone j)

theorem Searchable.scanAgrees_of_exact (h : Searchable P d fileName k) (hvolume : k.VolumeOpen p)
    (hheld : ArrayHeld r d k) (hcounted : r.count.toNat ≤ r.loaded)
    (hexact : LookupExact r d fileName k) : ScanAgrees r k.disk p k.heap (k.query fileName) := by
  obtain ⟨fItem, k', hrun, hiff, hfound⟩ := hexact.answers
  refine ⟨hcounted, ⟨k'.heap, ?_⟩, fun j heap' hnamed hheap hroom => ?_, fun hlists => ?_⟩
  · rw [hheld.heapAt_eq _ _ _ le_rfl, ← hheld.count]
    exact ((h.searchedTo_leaves hvolume le_rfl).of_run hrun).1
  · have hlast : LastNamed d fileName k j := hheld.lastNamed_iff.mpr hnamed
    obtain ⟨-, heap'', hheap', hserved, hdescribes⟩ := h.answer hvolume hlast hrun
    rw [← hheld.heapAt_eq _ _ _ hnamed.1.1.le, hheap] at hheap'
    obtain rfl := Except.ok.inj hheap'
    have hne := hserved.mpr hroom
    obtain ⟨i, l, ⟨hlisted, -⟩, ⟨hlast', -⟩, hsame, hdescribed⟩ := hfound hne
    obtain rfl := hlast.unique hlast'
    rw [← hsame] at hdescribed
    rw [← hheld.record j hnamed.1.1]
    exact ⟨(hdescribes hne).mp hdescribed, i, hlisted, hsame.symm⟩
  · have hne := hiff.mpr hlists
    obtain ⟨i, j, -, ⟨hlast, -⟩, -⟩ := hfound hne
    obtain ⟨-, heap', hheap, hserved, -⟩ := h.answer hvolume hlast hrun
    have hnamed := hheld.lastNamed_iff.mp hlast
    rw [← hheld.heapAt_eq _ _ _ hnamed.1.1.le] at hheap
    exact ⟨j, heap', hnamed, hheap, hserved.mp hne⟩

end Exact

/-! The lookup in a loaded directory. -/

/-- What belongs to `P` or lies below the heap is as it was after the load, and so are the sectors. The
volume may have been bound to the disk in between. -/
structure KeptSinceLoad (P : Set Int) (k₁ k : Kernel) : Prop where
  content : ContentFrame P k₁ { k with disk := k₁.disk }
  sectors : k.disk.sectors = k₁.disk.sectors

/-- A lookup in a loaded directory is exact exactly if the scan agrees with the array and with what
the directory lists. -/
theorem fat16_find_item_in_directory_exact_iff {P : Set Int} {k₀ k₁ k : Kernel}
    {r : DirectoryRegion} {d : FatDirectory} {p : FatPrivate} {fileName : Nat}
    (h : k₀.heap.WellFormed) (hsector : k₀.disk.sectorSize = 512) (hload : DirectoryLoad k₀ r d k₁)
    (hrecords : 0 < r.loaded → k₁.heap.blockOf d.item ∈ P) (hlater : KeptSinceLoad P k₁ k)
    (hvolume : k.VolumeOpen p) (hname : k.KeptBytes P fileName 128) :
    LookupExact r d fileName k ↔ ScanAgrees r k.disk p k.heap (k.query fileName) := by
  have hloaded := hload.arrayLoaded h hsector
  have hkept : ∀ j < r.loaded, k₁.KeptBytes P (recordAddress d.item j) sizeofFatDirectoryItem :=
    fun j hj => hloaded.keptBytes (hrecords (by omega)) hj
  have hready : r.count.toNat ≤ r.loaded → Searchable P d fileName k ∧ ArrayHeld r d k := by
    intro hcounted
    refine ⟨⟨hlater.content.guards, hvolume.sectorSize, fun j hj => ?_, hname⟩, hloaded.count,
      fun j hj => ?_⟩
    · rw [hloaded.count] at hj
      exact hlater.content.keptBytes (hkept j (by omega))
    · rw [← hloaded.record j (by omega)]
      exact hlater.content.bytesAt (hkept j (by omega))
  constructor
  · intro hexact
    have hcounted : r.count.toNat ≤ r.loaded := by
      by_contra hover
      have hinside := hexact.inside r.loaded (by rw [hloaded.count]; omega)
      omega
    obtain ⟨hsearchable, hheld⟩ := hready hcounted
    exact hsearchable.scanAgrees_of_exact hvolume hheld hcounted hexact
  · intro hagrees
    obtain ⟨hsearchable, hheld⟩ := hready hagrees.counted
    exact hsearchable.exact_of_scanAgrees hvolume hheld hagrees

/-! Directories in which the lookup is exact. -/

theorem recordAt_congr {disk disk' : Disk} (h : disk'.sectors = disk.sectors) (position i : Nat) :
    recordAt disk' position i = recordAt disk position i := by
  unfold recordAt diskBytes diskByte
  rw [h]

/-- With a block for the item and one for the copy of its record, a file of a plain directory is found
by a name that no other record has. -/
theorem DirectoryLoad.scanAgrees_of_plain {k₀ k₁ : Kernel} {r : DirectoryRegion} {d : FatDirectory}
    {last : Nat} {disk : Disk} {query : List UInt8} {heap : Heap} (hload : DirectoryLoad k₀ r d k₁)
    (hplain : r.Plain k₀.disk last) (hsectors : disk.sectors = k₀.disk.sectors)
    (hfile : ∀ i < last, SameName (recordName (recordAt k₀.disk r.position i)) query →
      ¬ IsSubdirectory (recordAt k₀.disk r.position i))
    (hone : ∀ i < last, ∀ j < last, SameName (recordName (recordAt k₀.disk r.position i)) query →
      SameName (recordName (recordAt k₀.disk r.position j)) query → i = j)
    (hroom : 2 ≤ heap.freeBlocks) (p : FatPrivate) : ScanAgrees r disk p heap query := by
  obtain ⟨hcount, hloaded, hrecord⟩ := hload.plain hplain
  have hrecords : ∀ j, recordAt disk r.position j = recordAt k₀.disk r.position j :=
    recordAt_congr hsectors r.position
  have hnumber : r.count.toNat = last := by omega
  have hinside := hplain.inside
  -- no record before the one with the name takes a block
  have hbefore : ∀ j < last, SameName (recordName (recordAt k₀.disk r.position j)) query →
      r.heapAt disk p query heap j = .ok heap := by
    intro j hj hname
    refine searchHeap_of_none (fun record hmem hother => ?_) heap
    obtain ⟨i, hi, rfl⟩ := List.mem_map.mp hmem
    have hlt := List.mem_range.mp hi
    rw [hrecord i (by omega)] at hother
    have hsame := hone i (by omega) j hj hother hname
    omega
  refine ⟨by omega, ?_, fun j heap' hnamed hheap _ => ?_, fun hlists => ?_⟩
  · refine searchHeap_files (fun record hmem hname => ?_) heap
    obtain ⟨i, hi, rfl⟩ := List.mem_map.mp hmem
    have hlt := List.mem_range.mp hi
    rw [hrecord i (by omega)] at hname ⊢
    exact hfile i (by omega) hname
  · obtain ⟨⟨hj, hname⟩, -⟩ := hnamed
    rw [hnumber] at hj
    rw [hrecord j hj] at hname ⊢
    obtain rfl := Except.ok.inj ((hbefore j hj hname).symm.trans hheap)
    refine ⟨?_, j, ⟨by omega, fun l hl => ?_, ?_⟩, hrecords j⟩
    · unfold itemBlocks
      rwa [if_neg (hfile j hj hname)]
    · rw [hrecords]
      exact hplain.ends.before l (by omega)
    · rw [hrecords]
      exact hplain.kept j hj
  · obtain ⟨i, hlisted, hname⟩ := hlists
    have hi : i < last := by
      by_contra hbehind
      have hblank := hlisted.before last (by omega)
      rw [hrecords] at hblank
      exact hblank hplain.ends.blank
    rw [hrecords] at hname
    refine ⟨i, heap, ⟨⟨by omega, by rwa [hrecord i hi]⟩, fun l hl hin hother => ?_⟩,
      hbefore i hi hname, by omega⟩
    rw [hrecord l (by omega)] at hother
    have hsame := hone l (by omega) i hi hother hname
    omega

/-! A volume whose root directory has the files `A` and `B`, in front of it or filling it up. -/

def twoFilesPrivate (rootEntries : Nat) : FatPrivate where
  header := ⟨1, 1, 1, rootEntries, 1⟩
  rootDirectory := ⟨0, 0, 0, 0⟩
  clusterReadStream := 0x6000
  fatReadStream := 0x6008
  directoryStream := 0x6010

def twoFilesKernel (rootEntries : Nat) : Kernel :=
  { emptyKernel 8 with
    memory := fun a => if a = 0x7000 then 65 else 0
    disk := ⟨512, fat16Fs, some (twoFilesPrivate rootEntries),
      fun _ i => (treeRecord 65 0x20 5 ++ treeRecord 66 0x20 6).getD i 0⟩
    streams := fun _ => some 0 }

def twoFilesRegion (rootEntries : Nat) : DirectoryRegion where
  position := 1024
  places := rootEntries
  start := 1024
  count := 2
  loaded := rootEntries
  array := diskBytes (twoFilesKernel rootEntries).disk 1024 (32 * rootEntries)

theorem twoFilesKernel_record (rootEntries i : Nat) :
    recordAt (twoFilesKernel rootEntries).disk 1024 i = recordAt (twoFilesKernel 0).disk 1024 i :=
  recordAt_congr rfl 1024 i

theorem twoFilesKernel_ends (rootEntries : Nat) :
    ScanEnds (twoFilesKernel rootEntries).disk 1024 2 := by
  refine ⟨?_, fun i hi => ?_⟩
  · rw [twoFilesKernel_record]
    decide +kernel
  · rw [twoFilesKernel_record]
    revert i
    decide +kernel

theorem twoFilesKernel_region {rootEntries : Nat} (hentries : rootEntries < 65536) :
    rootRegion (twoFilesKernel rootEntries).disk (twoFilesPrivate rootEntries) =
      .ok (twoFilesRegion rootEntries) := by
  have hcount : recordCount (twoFilesKernel rootEntries).disk 1024 2 = 2 := by
    refine Nat.count_of_forall fun i hi => ?_
    rw [twoFilesKernel_record]
    revert i
    decide +kernel
  have hscan := scanLoop_start (twoFilesKernel_ends rootEntries) (by decide)
  rw [hcount] at hscan
  have hread : streamRead (twoFilesKernel rootEntries).disk (1024 : Nat) (32 * rootEntries : Nat) =
      .ok (diskBytes (twoFilesKernel rootEntries).disk 1024 (32 * rootEntries)) :=
    streamReadLoop_eq (by omega) (by omega)
  have hsector : (twoFilesPrivate rootEntries).header.fatCopies *
      (twoFilesPrivate rootEntries).header.sectorsPerFat +
      (twoFilesPrivate rootEntries).header.reservedSectors = 2 := rfl
  have hstart : i32 ((2 * 512 : Nat) : Int) = (1024 : Nat) :=
    i32_of_range (by decide) (by decide)
  have hsame : scanCount (twoFilesKernel rootEntries).disk 2 =
      scanLoop (twoFilesKernel rootEntries).disk scanFuel (i32 ((2 * 512 : Nat) : Int)) 0 := rfl
  rw [rootRegion_eq_ok, hsector, hsame, hstart]
  exact ⟨2, _, hscan, hread, rfl⟩

def twoFilesRun (rootEntries : Nat) : KernelM (Int × Nat × List UInt8) := do
  let (response, _) ← fat16GetRootDirectory (twoFilesPrivate rootEntries) ⟨0, 0, 0, 0⟩
  let k ← get
  pure (response, k.heap.freeBlocks, k.query 0x7000)

theorem twoFilesKernel_wellFormed (rootEntries : Nat) :
    (twoFilesKernel rootEntries).heap.WellFormed :=
  (emptyKernel_wellFormed (by decide) : (emptyKernel 8).heap.WellFormed)

theorem twoFilesKernel_load {rootEntries freeBlocks : Nat} {query : List UInt8}
    (hpos : 0 < rootEntries) (hentries : rootEntries < 65536)
    (h : value? (twoFilesRun rootEntries (twoFilesKernel rootEntries)) =
      some (allOk, freeBlocks, query)) :
    ∃ d k₁ k p, DirectoryLoad (twoFilesKernel rootEntries) (twoFilesRegion rootEntries) d k₁ ∧
      KeptSinceLoad {k₁.heap.blockOf d.item} k₁ k ∧ k.VolumeOpen p ∧
      k.KeptBytes {k₁.heap.blockOf d.item} 0x7000 128 ∧
      k.disk.sectors = (twoFilesKernel rootEntries).disk.sectors ∧
      k.heap.freeBlocks = freeBlocks ∧ k.query 0x7000 = query := by
  obtain ⟨k', hrun⟩ := exists_of_value? h
  unfold twoFilesRun at hrun
  obtain ⟨⟨response, d⟩, k₁, hload, hrun⟩ := bind_eq_ok.mp hrun
  replace hrun := bind_get_eq_ok.mp hrun
  obtain ⟨hresult, -⟩ := pure_eq_ok.mp hrun
  simp only [Prod.mk.injEq] at hresult
  obtain ⟨rfl, hfree, hquery⟩ := hresult
  have hwf := twoFilesKernel_wellFormed rootEntries
  have hbounded : (twoFilesPrivate rootEntries).header.Bounded :=
    ⟨show 1 < 256 by decide, show 1 < 65536 by decide, show 1 < 256 by decide, hentries,
      show 1 < 65536 by decide⟩
  have hroot : DirectoryLoad (twoFilesKernel rootEntries) (twoFilesRegion rootEntries) d k₁ :=
    .root rfl hbounded (twoFilesKernel_region hentries) hload
  have hloaded := hroot.arrayLoaded hwf rfl
  have hopen : (twoFilesKernel rootEntries).KeepsOpen k₁ := Kept.run inferInstance hload
  obtain ⟨hframe, -⟩ := fat16GetRootDirectory_spec hwf.guards hentries hload
  let p : FatPrivate := { twoFilesPrivate rootEntries with rootDirectory := d }
  let k := bindDisk fat16Fs (some p) k₁
  have hsectors : k.disk.sectors = (twoFilesKernel rootEntries).disk.sectors := by
    change k₁.disk.sectors = _
    rw [hloaded.disk]
  refine ⟨d, k₁, k, p, hroot, ⟨.of_same (hloaded.guards hpos) rfl rfl rfl, rfl⟩, ?_,
    fun i hi => Or.inl ?_, hsectors, hfree, hquery⟩
  · refine ⟨?_, rfl, show 0x6008 ≠ 0 by decide, hopen _ rfl, hopen _ rfl, hopen _ rfl⟩
    change k₁.disk.sectorSize = 512
    rw [hloaded.disk]
    rfl
  · have hstart : k.heap.startAddress = 0x1000000 := hframe.start
    rw [hstart]
    unfold u32
    omega

set_option synthInstance.maxSize 2048 in
theorem fat16_find_item_in_directory_exact_iff_twoFiles :
    ∃ d k, LookupExact (twoFilesRegion 16) d 0x7000 k := by
  obtain ⟨d, k₁, k, p, hload, hlater, hvolume, hname, hsectors, hfree, hquery⟩ :=
    twoFilesKernel_load (by decide) (by decide)
      (by decide +kernel : value? (twoFilesRun 16 (twoFilesKernel 16)) = some (allOk, 7, [65]))
  refine ⟨d, k, (fat16_find_item_in_directory_exact_iff (twoFilesKernel_wellFormed 16) rfl hload
    (fun _ => Set.mem_singleton _) hlater hvolume hname).mpr ?_⟩
  have hplain : (twoFilesRegion 16).Plain (twoFilesKernel 16).disk 2 :=
    ⟨rfl, twoFilesKernel_ends 16, by decide, by decide, by decide +kernel, by decide +kernel⟩
  rw [hquery]
  exact hload.scanAgrees_of_plain hplain hsectors (by decide +kernel) (by decide +kernel) (by omega) p

set_option synthInstance.maxSize 2048 in
theorem fat16_find_item_in_directory_not_always_exact : ¬ ∀ (P : Set Int) (k₀ k₁ k : Kernel)
    (r : DirectoryRegion) (d : FatDirectory) (p : FatPrivate) (fileName : Nat),
    k₀.heap.WellFormed → k₀.disk.sectorSize = 512 → DirectoryLoad k₀ r d k₁ →
    (0 < r.loaded → k₁.heap.blockOf d.item ∈ P) → KeptSinceLoad P k₁ k → k.VolumeOpen p →
    k.KeptBytes P fileName 128 → LookupExact r d fileName k := by
  intro hall
  obtain ⟨d, k₁, k, p, hload, hlater, hvolume, hname, -⟩ :=
    twoFilesKernel_load (by decide) (by decide)
      (by decide +kernel : value? (twoFilesRun 1 (twoFilesKernel 1)) = some (allOk, 7, [65]))
  have hexact := hall _ _ _ _ _ _ _ _ (twoFilesKernel_wellFormed 1) rfl hload
    (fun _ => Set.mem_singleton _) hlater hvolume hname
  have hcount := (hload.arrayLoaded (twoFilesKernel_wellFormed 1) rfl).count
  have hinside := hexact.inside 1 (by rw [hcount]; decide)
  exact absurd hinside (by decide)

end BoiOS
