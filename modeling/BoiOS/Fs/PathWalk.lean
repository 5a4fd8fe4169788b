import BoiOS.Fs.FileFrame
import Mathlib.Order.Interval.Finset.Nat

/-! Paths of more than one part. The driver looks every part up in the directory of the part before
it and gives that directory back. A part that is not there is noticed when it is the first or the
last one; in between the null pointer is taken for an item. That a directory could be loaded is not
asked at all. -/
namespace BoiOS
open Library.StateRun

/-! What a path leads to. -/

def Kernel.PartNames (k : Kernel) : (part : Nat) → List Nat → Prop
  | part, [] => part = 0
  | part, name :: names => part ≠ 0 ∧ part < 4294967296 ∧ ∃ next,
      k.pathParts part = some ⟨name, next⟩ ∧ k.PartNames next names

def Kernel.directoryAt (k : Kernel) (item : Nat) : Option FatDirectory :=
  (k.fatItems item).bind fun f =>
    if f.type = fatItemTypeDirectory then k.fatDirectories f.pointer else none

def Kernel.IsFile (k : Kernel) (item : Nat) : Prop :=
  ∃ f, k.fatItems item = some f ∧ f.type ≠ fatItemTypeDirectory

def Kernel.Unloaded (k : Kernel) (item : Nat) : Prop :=
  ∃ f, k.fatItems item = some f ∧ f.type = fatItemTypeDirectory ∧ k.fatDirectories f.pointer = none

/-- The item stands for a directory, in which the name is looked up. -/
def Kernel.LooksUp (k : Kernel) (item name next : Nat) (k' : Kernel) : Prop :=
  ∃ d, k.directoryAt item = some d ∧ fat16FindItemInDirectory d name k = .ok (next, k')

def Kernel.released (k : Kernel) (item : Nat) : Kernel :=
  match fat16FatItemFree item k with
  | .ok (_, k') => k'
  | .error _ => k

/-- What the names lead to from an item on: the item at the end, or 0 where a part is missing or a
part that is not the last one is a file or has no directory. -/
inductive PathResult : (item : Nat) → (names : List Nat) → Kernel → (result : Nat) → Kernel → Prop
  | found {item : Nat} {k : Kernel} : PathResult item [] k item k
  | missing {name : Nat} {names : List Nat} {k : Kernel} : PathResult 0 (name :: names) k 0 k
  | file {item name : Nat} {names : List Nat} {k : Kernel} :
      k.IsFile item → PathResult item (name :: names) k 0 k
  | unloaded {item name : Nat} {names : List Nat} {k : Kernel} :
      k.Unloaded item → PathResult item (name :: names) k 0 k
  | directory {item name next result : Nat} {names : List Nat} {k k₁ k' : Kernel} :
      k.LooksUp item name next k₁ → PathResult next names (k₁.released item) result k' →
        PathResult item (name :: names) k result k'

/-- A part that is not the last one is missing, or has no directory. -/
inductive BreaksInside : (item : Nat) → (names : List Nat) → Kernel → Prop
  | missing {item name : Nat} {names : List Nat} {k k₁ : Kernel} :
      k.LooksUp item name 0 k₁ → names ≠ [] → BreaksInside item (name :: names) k
  | unloaded {item name : Nat} {names : List Nat} {k : Kernel} :
      k.Unloaded item → BreaksInside item (name :: names) k
  | later {item name next : Nat} {names : List Nat} {k k₁ : Kernel} :
      k.LooksUp item name next k₁ → BreaksInside next names (k₁.released item) →
        BreaksInside item (name :: names) k

/-! The parts. -/

theorem Kernel.PartNames.unique {k : Kernel} {names names' : List Nat} {part : Nat}
    (h : k.PartNames part names) (h' : k.PartNames part names') : names = names' := by
  induction names generalizing part names' with
  | nil =>
    cases names' with
    | nil => rfl
    | cons name' names' => exact absurd h h'.1
  | cons name names ih =>
    cases names' with
    | nil => exact absurd h' h.1
    | cons name' names' =>
      obtain ⟨-, -, next, hpart, hrest⟩ := h
      obtain ⟨-, -, next', hpart', hrest'⟩ := h'
      rw [hpart, Option.some.injEq, PathPart.mk.injEq] at hpart'
      obtain ⟨rfl, rfl⟩ := hpart'
      rw [ih hrest hrest']

theorem Kernel.PartNames.congr {k k' : Kernel} (hsame : k'.pathParts = k.pathParts)
    {names : List Nat} {part : Nat} (h : k.PartNames part names) : k'.PartNames part names := by
  induction names generalizing part with
  | nil => exact h
  | cons name names ih =>
    obtain ⟨hne, hlt, next, hpart, hrest⟩ := h
    exact ⟨hne, hlt, next, by rw [hsame, hpart], ih hrest⟩

theorem Kernel.PartNames.addresses {k : Kernel} {names : List Nat} {part : Nat}
    (h : k.PartNames part names) : ∃ s ⊆ Finset.Ico 1 4294967296, s.card = names.length ∧
      ∀ a ∈ s, ∃ rest, k.PartNames a rest ∧ rest.length ≤ names.length := by
  induction names generalizing part with
  | nil =>
    refine ⟨∅, Finset.empty_subset _, rfl, fun a ha => ?_⟩
    exact absurd ha (Finset.notMem_empty a)
  | cons name names ih =>
    have hwhole := h
    obtain ⟨hne, hlt, next, hpart, hrest⟩ := h
    obtain ⟨s, hsub, hcard, hlists⟩ := ih hrest
    have hnew : part ∉ s := by
      intro hmem
      obtain ⟨rest, hrest', hlength⟩ := hlists part hmem
      rw [hrest'.unique hwhole, List.length_cons] at hlength
      omega
    refine ⟨insert part s, ?_, ?_, fun a ha => ?_⟩
    · rw [Finset.insert_subset_iff]
      exact ⟨Finset.mem_Ico.mpr ⟨Nat.one_le_iff_ne_zero.mpr hne, hlt⟩, hsub⟩
    · rw [Finset.card_insert_of_notMem hnew, hcard, List.length_cons]
    · rcases Finset.mem_insert.mp ha with rfl | ha
      · exact ⟨_, hwhole, le_rfl⟩
      · obtain ⟨rest, hrest', hlength⟩ := hlists a ha
        exact ⟨rest, hrest', by rw [List.length_cons]; omega⟩

theorem Kernel.PartNames.length_lt {k : Kernel} {names : List Nat} {part : Nat}
    (h : k.PartNames part names) : names.length < 4294967296 := by
  obtain ⟨s, hsub, hcard, -⟩ := h.addresses
  have hle := Finset.card_le_card hsub
  rw [Nat.card_Ico] at hle
  omega

/-! The walk. -/

theorem Kernel.directoryAt_eq_some {k : Kernel} {item : Nat} {d : FatDirectory} :
    k.directoryAt item = some d ↔ ∃ f, k.fatItems item = some f ∧ f.type = fatItemTypeDirectory ∧
      k.fatDirectories f.pointer = some d := by
  unfold Kernel.directoryAt
  rw [Option.bind_eq_some_iff]
  constructor
  · rintro ⟨f, hf, hd⟩
    split_ifs at hd with htype
    exact ⟨f, hf, htype, hd⟩
  · rintro ⟨f, hf, htype, hd⟩
    exact ⟨f, hf, by rw [if_pos htype, hd]⟩

theorem Kernel.LooksUp.unique {k k₁ k₂ : Kernel} {item name next next' : Nat}
    (h : k.LooksUp item name next k₁) (h' : k.LooksUp item name next' k₂) :
    next = next' ∧ k₁ = k₂ := by
  obtain ⟨d, hd, hrun⟩ := h
  obtain ⟨d', hd', hrun'⟩ := h'
  obtain rfl := Option.some.inj (hd.symm.trans hd')
  exact Prod.mk.inj (Except.ok.inj (hrun.symm.trans hrun'))

theorem Kernel.Unloaded.not_looksUp {k k₁ : Kernel} {item name next : Nat} (h : k.Unloaded item) :
    ¬ k.LooksUp item name next k₁ := by
  rintro ⟨d, hd, -⟩
  obtain ⟨f, hf, -, hnone⟩ := h
  obtain ⟨f', hf', -, hd⟩ := Kernel.directoryAt_eq_some.mp hd
  obtain rfl := Option.some.inj (hf.symm.trans hf')
  exact Option.some_ne_none d (hd.symm.trans hnone)

theorem Kernel.IsFile.not_unloaded {k : Kernel} {item : Nat} (h : k.IsFile item) :
    ¬ k.Unloaded item := by
  rintro ⟨f, hf, htype, -⟩
  obtain ⟨f', hf', htype'⟩ := h
  obtain rfl := Option.some.inj (hf.symm.trans hf')
  exact htype' htype

theorem Kernel.IsFile.not_looksUp {k k₁ : Kernel} {item name next : Nat} (h : k.IsFile item) :
    ¬ k.LooksUp item name next k₁ := by
  rintro ⟨d, hd, -⟩
  obtain ⟨f, hf, htype⟩ := h
  obtain ⟨f', hf', htype', -⟩ := Kernel.directoryAt_eq_some.mp hd
  obtain rfl := Option.some.inj (hf.symm.trans hf')
  exact htype htype'

theorem Kernel.LooksUp.released {P : Set Int} {k k₁ : Kernel} {item name next : Nat}
    (h : k.LooksUp item name next k₁) (hitem : k.FoundItem P item) (hnull : k.fatItems 0 = none) :
    fat16FatItemFree item k₁ = .ok ((), k₁.released item) ∧ DriverFrame P k (k₁.released item) ∧
      (k₁.released item).FoundItem P next := by
  obtain ⟨d, hd, hrun⟩ := h
  obtain ⟨f, hf, htype, hd⟩ := Kernel.directoryAt_eq_some.mp hd
  obtain ⟨k₂, hfree, hframe, hfound⟩ := hitem.next hnull hf htype hd hrun
  have hreleased : k₁.released item = k₂ := by
    unfold Kernel.released
    rw [hfree]
  rw [hreleased]
  exact ⟨hfree, hframe, hfound⟩

theorem fat16WalkPath_directory {P : Set Int} {fuel item name next part rest : Nat} {k k₁ : Kernel}
    (h : k.LooksUp item name next k₁) (hitem : k.FoundItem P item) (hnull : k.fatItems 0 = none)
    (hne : part ≠ 0) (hpart : k.pathParts part = some ⟨name, rest⟩) :
    fat16WalkPath (fuel + 1) item part k = fat16WalkPath fuel next rest (k₁.released item) := by
  obtain ⟨hfree, -, -⟩ := h.released hitem hnull
  obtain ⟨d, hd, hrun⟩ := h
  obtain ⟨f, hf, htype, hd⟩ := Kernel.directoryAt_eq_some.mp hd
  rw [fat16WalkPath, if_neg hne, bind_of_ok (get_apply k), bind_of_ok (fetch_eq_ok.mpr ⟨hf, rfl⟩),
    if_neg (not_not.mpr htype), bind_of_ok (fetch_eq_ok.mpr ⟨hd, rfl⟩),
    bind_of_ok (fetch_eq_ok.mpr ⟨hpart, rfl⟩), bind_of_ok hrun, bind_of_ok hfree]

theorem fat16WalkPath_null {fuel part : Nat} {k : Kernel} (hnull : k.fatItems 0 = none)
    (hne : part ≠ 0) : fat16WalkPath fuel 0 part k = .error .faulted := by
  cases fuel with
  | zero => rfl
  | succ fuel =>
    rw [fat16WalkPath, if_neg hne, bind_of_ok (get_apply k), hnull]
    rfl

theorem breaksInside_cons_iff {k k₁ : Kernel} {item name next : Nat} {names : List Nat}
    (h : k.LooksUp item name next k₁) : BreaksInside item (name :: names) k ↔
      next = 0 ∧ names ≠ [] ∨ BreaksInside next names (k₁.released item) := by
  constructor
  · intro hbreaks
    cases hbreaks with
    | missing hlook hrest =>
      obtain ⟨rfl, -⟩ := h.unique hlook
      exact Or.inl ⟨rfl, hrest⟩
    | unloaded hunloaded => exact absurd h hunloaded.not_looksUp
    | later hlook hbreaks =>
      obtain ⟨rfl, rfl⟩ := h.unique hlook
      exact Or.inr hbreaks
  · rintro (⟨rfl, hrest⟩ | hbreaks)
    · exact .missing h hrest
    · exact .later h hbreaks

theorem fat16WalkPath_iff {P : Set Int} {item result : Nat} {names : List Nat} {k k' : Kernel}
    (hresult : PathResult item names k result k') {fuel part : Nat} (hitem : k.FoundItem P item)
    (hnull : k.fatItems 0 = none) (hparts : k.PartNames part names) (hfuel : names.length < fuel)
    (hsome : item ≠ 0 ∨ names = []) :
    fat16WalkPath fuel item part k = .ok (result, k') ↔ ¬ BreaksInside item names k := by
  induction hresult generalizing fuel part with
  | found =>
    obtain ⟨fuel, rfl⟩ := Nat.exists_eq_add_of_lt hfuel
    refine iff_of_true ?_ fun hbreaks => by cases hbreaks
    rw [show part = 0 from hparts]
    rfl
  | missing => exact absurd hsome (by simp)
  | file hfile =>
    obtain ⟨fuel, rfl⟩ := Nat.exists_eq_add_of_lt hfuel
    have hnode := hfile
    obtain ⟨f, hf, htype⟩ := hnode
    refine iff_of_true ?_ fun hbreaks => ?_
    · rw [fat16WalkPath, if_neg hparts.1, bind_of_ok (get_apply _),
        bind_of_ok (fetch_eq_ok.mpr ⟨hf, rfl⟩), if_pos htype]
      rfl
    · cases hbreaks with
      | missing hlook _ => exact hfile.not_looksUp hlook
      | unloaded hunloaded => exact hfile.not_unloaded hunloaded
      | later hlook _ => exact hfile.not_looksUp hlook
  | unloaded hunloaded =>
    have hnode := hunloaded
    obtain ⟨f, hf, htype, hnone⟩ := hnode
    refine iff_of_false (fun hrun => ?_) (not_not.mpr (.unloaded hunloaded))
    obtain ⟨fuel, rfl⟩ := Nat.exists_eq_add_of_lt hfuel
    rw [fat16WalkPath, if_neg hparts.1, bind_of_ok (get_apply _),
      bind_of_ok (fetch_eq_ok.mpr ⟨hf, rfl⟩), if_neg (not_not.mpr htype), hnone] at hrun
    cases hrun
  | @directory item name next result names k k₁ k' hlook _ ih =>
    obtain ⟨fuel, rfl⟩ := Nat.exists_eq_add_of_lt hfuel
    obtain ⟨hne, -, rest, hpart, hrest⟩ := hparts
    obtain ⟨-, hframe, hfound⟩ := hlook.released hitem hnull
    have hnull' := (hframe.items 0 (Or.inl rfl)).trans hnull
    have hparts' : (k₁.released item).PartNames rest names := hrest.congr (by rw [hframe.rest])
    rw [fat16WalkPath_directory hlook hitem hnull hne hpart, breaksInside_cons_iff hlook, not_or]
    by_cases hlost : next = 0 ∧ names ≠ []
    · obtain ⟨rfl, hnames⟩ := hlost
      have hpart' : rest ≠ 0 := by
        cases names with
        | nil => exact absurd rfl hnames
        | cons name' names => exact hrest.1
      rw [fat16WalkPath_null hnull' hpart']
      exact iff_of_false (fun h => by cases h) fun h => h.1 ⟨rfl, hnames⟩
    · have hlength : (name :: names).length = names.length + 1 := rfl
      rw [ih hfound hnull' hparts' (by omega) (by tauto)]
      exact ⟨fun h => ⟨hlost, h⟩, fun h => h.2⟩

/-- The driver answers what the path leads to exactly if it does not break inside: every part between
the first and the last one is there, and every part but the last one has its directory. -/
theorem fat16_get_directory_entry_iff {k k₁ k' : Kernel} {p : FatPrivate} {path first item : Nat}
    {names : List Nat} {result : Nat} (h : k.heap.WellFormed) (hnull : k.fatItems 0 = none)
    (hprivate : k.disk.fsPrivate = some p) (hparts : k.PartNames path (first :: names))
    (hfirst : fat16FindItemInDirectory p.rootDirectory first k = .ok (item, k₁))
    (hresult : PathResult item names k₁ result k') :
    fat16GetDirectoryEntry path k = .ok (result, k') ↔ ¬ BreaksInside item names k₁ := by
  have hlength := hparts.length_lt
  obtain ⟨-, -, rest, hpart, hrest⟩ := hparts
  obtain ⟨hframe, hitem⟩ := fat16FindItemInDirectory_spec h.guards hfirst
  have hnull₁ := (hframe.items 0 (Or.inl rfl)).trans hnull
  unfold fat16GetDirectoryEntry
  rw [bind_of_ok (get_apply k), bind_of_ok (fatPrivate_apply hprivate),
    bind_of_ok (fetch_eq_ok.mpr ⟨hpart, rfl⟩), bind_of_ok hfirst]
  by_cases hzero : item = 0
  · subst hzero
    rw [if_pos rfl]
    have hnone : ∀ {name next k₂}, ¬ k₁.LooksUp 0 name next k₂ := by
      rintro name next k₂ ⟨d, hd, -⟩
      unfold Kernel.directoryAt at hd
      rw [hnull₁] at hd
      cases hd
    refine iff_of_true ?_ fun hbreaks => ?_
    · cases hresult with
      | found => rfl
      | missing => rfl
      | file hfile => rfl
      | unloaded hunloaded => rfl
      | directory hlook _ => exact absurd hlook hnone
    · cases hbreaks with
      | missing hlook _ => exact hnone hlook
      | unloaded hunloaded =>
        obtain ⟨f, hf, -⟩ := hunloaded
        exact Option.some_ne_none f (hf.symm.trans hnull₁)
      | later hlook _ => exact hnone hlook
  · rw [if_neg hzero]
    have hrest' : k₁.PartNames rest names := hrest.congr (by rw [hframe.rest])
    rw [List.length_cons] at hlength
    exact fat16WalkPath_iff hresult hitem hnull₁ hrest' (by omega) (Or.inl hzero)

/-! A volume with a directory `D` that has one file `A`, and the path `D/x`, with the part `last`
behind it. -/

def treeRecord (name attributes cluster : UInt8) : List UInt8 :=
  name :: List.replicate 10 32 ++ [attributes] ++ List.replicate 14 0 ++ [cluster, 0, 0, 0, 0, 0]

def treePrivate : FatPrivate where
  header := ⟨1, 1, 1, 16, 1⟩
  rootDirectory := ⟨0x5000, 1, 2, 3⟩
  clusterReadStream := 0x6000
  fatReadStream := 0x6008
  directoryStream := 0x6010

def treeKernel (last : Nat) : Kernel :=
  { emptyKernel 8 with
    memory := fun a =>
      if a = 0x7000 then 68 else if a = 0x7100 then 120 else if a = 0x7200 then 121
      else if 0x5000 ≤ a then (treeRecord 68 0x10 2).getD (a - 0x5000) 0 else 0
    disk := ⟨512, fat16Fs, some treePrivate, fun _ i => (treeRecord 65 0x20 5).getD i 0⟩
    streams := fun _ => some 0
    pathParts := fun a =>
      if a = 0x8000 then some ⟨0x7000, 0x8008⟩ else if a = 0x8008 then some ⟨0x7100, last⟩
      else if a = 0x8010 then some ⟨0x7200, 0⟩ else none }

theorem treeKernel_wellFormed (last : Nat) : (treeKernel last).heap.WellFormed :=
  (emptyKernel_wellFormed (by decide) : (emptyKernel 8).heap.WellFormed)

theorem treeKernel_parts {last : Nat} {names : List Nat} (h : (treeKernel last).PartNames last names) :
    (treeKernel last).PartNames 0x8000 (0x7000 :: 0x7100 :: names) :=
  ⟨by decide, by decide, 0x8008, rfl, by decide, by decide, last, rfl, h⟩

def treeLookup : KernelM Nat := do
  let item ← fat16FindItemInDirectory treePrivate.rootDirectory 0x7000
  let k ← get
  let directory ← fetch (k.directoryAt item)
  fat16FindItemInDirectory directory 0x7100

theorem treeKernel_looksUp {last : Nat} (h : value? (treeLookup (treeKernel last)) = some 0) :
    ∃ item k₁ k₂, fat16FindItemInDirectory treePrivate.rootDirectory 0x7000 (treeKernel last) =
      .ok (item, k₁) ∧ k₁.LooksUp item 0x7100 0 k₂ := by
  obtain ⟨k₂, hrun⟩ := exists_of_value? h
  unfold treeLookup at hrun
  obtain ⟨item, k₁, hfirst, hrun⟩ := bind_eq_ok.mp hrun
  replace hrun := bind_get_eq_ok.mp hrun
  obtain ⟨d, hd, hrun⟩ := bind_fetch_eq_ok.mp hrun
  exact ⟨item, k₁, k₂, hfirst, d, hd, hrun⟩

theorem fat16_get_directory_entry_iff_treeKernel :
    ∃ k', fat16GetDirectoryEntry 0x8000 (treeKernel 0) = .ok (0, k') := by
  obtain ⟨item, k₁, k₂, hfirst, hlook⟩ :=
    treeKernel_looksUp (by decide +kernel : value? (treeLookup (treeKernel 0)) = some 0)
  have hlast : (treeKernel 0).PartNames 0 [] := rfl
  refine ⟨k₂.released item, (fat16_get_directory_entry_iff (treeKernel_wellFormed 0) rfl rfl
    (treeKernel_parts hlast) hfirst (.directory hlook .found)).mpr fun hbreaks => ?_⟩
  rcases (breaksInside_cons_iff hlook).mp hbreaks with ⟨-, hnone⟩ | hrest
  · exact hnone rfl
  · cases hrest

theorem fat16_get_directory_entry_not_always_exact : ¬ ∀ (k k₁ k' : Kernel) (p : FatPrivate)
    (path first item : Nat) (names : List Nat) (result : Nat), k.heap.WellFormed →
    k.fatItems 0 = none → k.disk.fsPrivate = some p → k.PartNames path (first :: names) →
    fat16FindItemInDirectory p.rootDirectory first k = .ok (item, k₁) →
    PathResult item names k₁ result k' →
    fat16GetDirectoryEntry path k = .ok (result, k') := by
  intro hall
  obtain ⟨item, k₁, k₂, hfirst, hlook⟩ :=
    treeKernel_looksUp (by decide +kernel : value? (treeLookup (treeKernel 0x8010)) = some 0)
  have hlast : (treeKernel 0x8010).PartNames 0x8010 [0x7200] := ⟨by decide, by decide, 0, rfl, rfl⟩
  have hrun := hall _ _ _ _ _ _ _ _ _ (treeKernel_wellFormed 0x8010) rfl rfl
    (treeKernel_parts hlast) hfirst (.directory hlook .missing)
  have hstop : fat16GetDirectoryEntry 0x8000 (treeKernel 0x8010) = .error .faulted :=
    error_of_stop? (by decide +kernel)
  rw [hstop] at hrun
  cases hrun

end BoiOS
