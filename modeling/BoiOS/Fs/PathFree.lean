import BoiOS.Fs.PathRoundTrip
import BoiOS.Memory.HeapClean

/-! Giving a parsed path back. The parser takes a block for the root, two for each part, and one for
the part that is not there, which it gives back itself. -/
namespace BoiOS
open Library.StateRun

def pathparserFreeLoop : (fuel : Nat) → (part : Nat) → KernelM Unit
  | 0, _ => throw .faulted
  | fuel + 1, part =>
      if part = 0 then pure ()
      else do
        let k ← get
        let p ← fetch (k.pathParts part)
        let nextPart := p.next
        kfree p.partName
        kfree part
        pathparserFreeLoop fuel nextPart

def pathparserFree (fuel root : Nat) : KernelM Unit := do
  let k ← get
  let r ← fetch (k.pathRoots root)
  pathparserFreeLoop fuel r.first
  kfree root

/-! What the parser takes. -/

/-- The list of parts at an address: the blocks of its parts and of their names. -/
def Kernel.PartBlocks (k : Kernel) : (part : Nat) → List (Nat × Nat) → Prop
  | part, [] => part = 0
  | part, (block, name) :: rest => part = block ∧ part ≠ 0 ∧
      ∃ next, k.pathParts part = some ⟨name, next⟩ ∧ k.PartBlocks next rest

/-- The blocks in the order in which they are given back. -/
def partAddresses (parts : List (Nat × Nat)) : List Nat :=
  parts.flatMap fun part => [part.2, part.1]

theorem partAddresses_cons_perm (parts : List (Nat × Nat)) (part name : Nat) (taken : List Nat) :
    (partAddresses parts ++ part :: name :: taken).Perm
      (partAddresses ((part, name) :: parts) ++ taken) := by
  refine List.perm_middle.trans ?_
  refine (List.Perm.cons part List.perm_middle).trans ?_
  exact List.Perm.swap ..

variable {heap : Heap} {taken : List Nat} {k k' : Kernel} {path rest : List UInt8}

theorem kzalloc_tookList (hplaced : heap.Placed) (hclean : heap.table.Clean)
    (h : TookList taken heap k.heap) (hroom : taken.length < heap.freeBlocks) {size ptr : Nat}
    (hlow : 1 ≤ size) (hhigh : size ≤ 4096) (hrun : kzalloc size k = .ok (ptr, k')) :
    ptr ≠ 0 ∧ TookList (ptr :: taken) heap k'.heap := by
  have hcount := h.freeBlocks hplaced hclean
  have hplaced' := hplaced.congr h.took.start h.took.total
  have hserved := hplaced'.heapMalloc_served hlow hhigh (by omega)
  rw [← (kzalloc_eq_ok hrun).1] at hserved
  obtain ⟨htake, -⟩ := hplaced'.kzalloc hlow hhigh hrun hserved
  exact ⟨hserved, h.take htake⟩

theorem pathparserGetPathPart_tookList (hplaced : heap.Placed) (hclean : heap.table.Clean)
    (h : TookList taken heap k.heap) (hroom : taken.length < heap.freeBlocks) {ptr : Nat}
    (hrun : pathparserGetPathPart path k = .ok ((ptr, rest), k')) :
    rest = skipDelimiter (path.dropWhile inPathPart) ∧ k'.pathParts = k.pathParts ∧
      k'.pathRoots = k.pathRoots ∧
      (path.takeWhile inPathPart = [] ∧ ptr = 0 ∧ TookList taken heap k'.heap ∨
        path.takeWhile inPathPart ≠ [] ∧ ptr ≠ 0 ∧ TookList (ptr :: taken) heap k'.heap) := by
  unfold pathparserGetPathPart at hrun
  obtain ⟨result, k₁, halloc, hrun⟩ := bind_eq_ok.mp hrun
  obtain ⟨hne, htook⟩ := kzalloc_tookList hplaced hclean h hroom (by decide) (by decide) halloc
  obtain ⟨-, hk₁⟩ := kzalloc_eq_ok halloc
  have hparts : k₁.pathParts = k.pathParts := by rw [hk₁]
  have hroots : k₁.pathRoots = k.pathRoots := by rw [hk₁]
  split_ifs at hrun with hempty
  · obtain ⟨_, k₂, hfree, hrun⟩ := bind_eq_ok.mp hrun
    obtain rfl := kfree_eq_ok.mp hfree
    obtain ⟨heq, rfl⟩ := pure_eq_ok.mp hrun
    obtain ⟨rfl, rfl⟩ := Prod.mk.inj heq
    exact ⟨rfl, hparts, hroots, .inl ⟨hempty, rfl, (htook.give hplaced hclean).2⟩⟩
  · obtain ⟨_, k₂, hcopy, hrun⟩ := bind_eq_ok.mp hrun
    obtain rfl := modify_eq_ok.mp hcopy
    obtain ⟨heq, rfl⟩ := pure_eq_ok.mp hrun
    obtain ⟨rfl, rfl⟩ := Prod.mk.inj heq
    exact ⟨rfl, hparts, hroots, .inr ⟨hempty, hne, htook⟩⟩

/-- What `pathparser_parse_path_part` took: nothing, or a part behind the last one and its name. -/
inductive TookPart (heap : Heap) (taken : List Nat) (lastPart : Nat) (path : List UInt8)
    (k k' : Kernel) : Nat → Prop
  | none (hnone : path.takeWhile inPathPart = []) (htook : TookList taken heap k'.heap)
      (hparts : k'.pathParts = k.pathParts) : TookPart heap taken lastPart path k k' 0
  | some (part name : Nat) (hsome : path.takeWhile inPathPart ≠ []) (hpart : part ≠ 0)
      (htook : TookList (part :: name :: taken) heap k'.heap)
      (hentry : k'.pathParts part = some ⟨name, 0⟩)
      (hlast : lastPart ≠ 0 → ∃ last, k.pathParts lastPart = some last ∧
        k'.pathParts lastPart = some { last with next := part })
      (hother : ∀ a, a ≠ part → a ≠ lastPart → k'.pathParts a = k.pathParts a) :
      TookPart heap taken lastPart path k k' part

theorem pathparserParsePathPart_tookPart (hplaced : heap.Placed) (hclean : heap.table.Clean)
    (h : TookList taken heap k.heap) {lastPart part : Nat} (hlastPart : lastPart ≠ 0 → lastPart ∈ taken)
    (hroom : taken.length + 2 * (pathComponents path).length < heap.freeBlocks)
    (hrun : pathparserParsePathPart lastPart path k = .ok ((part, rest), k')) :
    rest = skipDelimiter (path.dropWhile inPathPart) ∧ k'.pathRoots = k.pathRoots ∧
      TookPart heap taken lastPart path k k' part := by
  unfold pathparserParsePathPart at hrun
  obtain ⟨⟨name, path'⟩, k₁, hget, hrun⟩ := bind_eq_ok.mp hrun
  obtain ⟨rfl, hparts₁, hroots₁, hname⟩ :=
    pathparserGetPathPart_tookList hplaced hclean h (by omega) hget
  dsimp only at hrun
  rcases hname with ⟨hnone, rfl, htook₁⟩ | ⟨hsome, hname, htook₁⟩
  · rw [if_pos rfl] at hrun
    obtain ⟨heq, rfl⟩ := pure_eq_ok.mp hrun
    obtain ⟨rfl, rfl⟩ := Prod.mk.inj heq
    exact ⟨rfl, hroots₁, .none hnone htook₁ hparts₁⟩
  · rw [pathComponents, if_neg hsome, List.length_cons] at hroom
    rw [if_neg hname] at hrun
    obtain ⟨a, k₂, halloc, hrun⟩ := bind_eq_ok.mp hrun
    obtain ⟨hpart, htook₂⟩ := kzalloc_tookList hplaced hclean htook₁
      (by rw [List.length_cons]; omega) (by decide) (by decide) halloc
    obtain ⟨-, hk₂⟩ := kzalloc_eq_ok halloc
    have hroots₂ : k₂.pathRoots = k.pathRoots := by rw [hk₂, ← hroots₁]
    have hentry : (putPathPart a ⟨name, 0⟩ k₂).pathParts =
        Function.update k.pathParts a (some ⟨name, 0⟩) := by
      rw [← hparts₁, hk₂]
      rfl
    rw [if_neg hpart] at hrun
    obtain ⟨_, k₃, hput, hrun⟩ := bind_eq_ok.mp hrun
    obtain rfl := modify_eq_ok.mp hput
    split_ifs at hrun with hfirst
    · obtain ⟨heq, rfl⟩ := pure_eq_ok.mp hrun
      obtain ⟨rfl, rfl⟩ := Prod.mk.inj heq
      refine ⟨rfl, hroots₂, .some a name hsome hpart htook₂ ?_ (fun hne => absurd hfirst hne)
        fun b hb _ => ?_⟩
      · rw [hentry, Function.update_self]
      · rw [hentry, Function.update_of_ne hb]
    · replace hrun := bind_get_eq_ok.mp hrun
      obtain ⟨last, hlast, hrun⟩ := bind_fetch_eq_ok.mp hrun
      obtain ⟨_, k₄, hlink, hrun⟩ := bind_eq_ok.mp hrun
      obtain rfl := modify_eq_ok.mp hlink
      obtain ⟨heq, rfl⟩ := pure_eq_ok.mp hrun
      obtain ⟨rfl, rfl⟩ := Prod.mk.inj heq
      have hne : lastPart ≠ a := by
        rintro rfl
        exact (List.nodup_cons.mp htook₂.nodup).1 (List.mem_cons_of_mem _ (hlastPart hfirst))
      rw [hentry, Function.update_of_ne hne] at hlast
      have hold : ∀ b, b ≠ lastPart → (putPathPart lastPart { last with next := a }
          (putPathPart a ⟨name, 0⟩ k₂)).pathParts b = (putPathPart a ⟨name, 0⟩ k₂).pathParts b :=
        fun b hb => Function.update_of_ne hb _ _
      refine ⟨rfl, hroots₂, .some a name hsome hpart htook₂ ?_
        (fun _ => ⟨last, hlast, Function.update_self ..⟩) fun b hb hb' => ?_⟩
      · rw [hold a hne.symm, hentry, Function.update_self]
      · rw [hold b hb', hentry, Function.update_of_ne hb]

theorem pathparserParseLoop_tookList (hplaced : heap.Placed) (hclean : heap.table.Clean) (fuel : Nat)
    (h : TookList taken heap k.heap) {part name : Nat} (hne : part ≠ 0) (hpart : part ∈ taken)
    (hentry : k.pathParts part = some ⟨name, 0⟩)
    (hroom : taken.length + 2 * (pathComponents path).length < heap.freeBlocks)
    (hrun : pathparserParseLoop fuel part path k = .ok ((), k')) :
    ∃ parts, parts.length = (pathComponents path).length ∧
      TookList (partAddresses parts ++ taken) heap k'.heap ∧ k'.pathRoots = k.pathRoots ∧
      (∀ a ∈ taken, a ≠ part → k'.pathParts a = k.pathParts a) ∧
      ∃ next, k'.pathParts part = some ⟨name, next⟩ ∧ k'.PartBlocks next parts := by
  induction fuel generalizing taken part name path k with
  | zero => exact (throw_eq_ok.mp hrun).elim
  | succ fuel ih =>
    unfold pathparserParseLoop at hrun
    obtain ⟨⟨next, rest⟩, k₁, hstep, hrun⟩ := bind_eq_ok.mp hrun
    obtain ⟨rfl, hroots, htaken⟩ :=
      pathparserParsePathPart_tookPart hplaced hclean h (fun _ => hpart) hroom hstep
    dsimp only at hrun
    cases htaken with
    | none hnone htook hparts =>
      rw [if_pos rfl] at hrun
      obtain ⟨-, rfl⟩ := pure_eq_ok.mp hrun
      refine ⟨[], ?_, htook, hroots, fun a _ _ => by rw [hparts], 0, by rw [hparts, hentry], rfl⟩
      rw [pathComponents_of_empty hnone]
      rfl
    | some _ str hsome hnext htook hnextEntry hlast hother =>
      rw [if_neg hnext] at hrun
      rw [pathComponents, if_neg hsome, List.length_cons] at hroom ⊢
      obtain ⟨parts, hlength, htook', hroots', hsame', next', hentry', hlist⟩ := ih htook hnext
        (List.mem_cons_self ..) hnextEntry (by rw [List.length_cons, List.length_cons]; omega) hrun
      have hold : ∀ a ∈ taken, a ≠ next := by
        rintro a ha rfl
        exact (List.nodup_cons.mp htook.nodup).1 (List.mem_cons_of_mem _ ha)
      have hkept : ∀ a ∈ taken, k'.pathParts a = k₁.pathParts a := fun a ha =>
        hsame' a (List.mem_cons_of_mem _ (List.mem_cons_of_mem _ ha)) (hold a ha)
      refine ⟨(next, str) :: parts, ?_, htook'.perm (partAddresses_cons_perm ..),
        hroots'.trans hroots, fun a ha hapart => ?_, next, ?_, rfl, hnext, next', hentry', hlist⟩
      · rw [List.length_cons, hlength]
      · rw [hkept a ha, hother a (hold a ha) hapart]
      · obtain ⟨last, hlastEntry, hlinked⟩ := hlast hne
        rw [hentry, Option.some.injEq] at hlastEntry
        rw [hkept part hpart, hlinked, ← hlastEntry]

theorem pathparserCreateRoot_tookList {driveNo : Int} {root : Nat} (hplaced : k.heap.Placed)
    (hclean : k.heap.table.Clean) (hroom : 0 < k.heap.freeBlocks)
    (hrun : pathparserCreateRoot driveNo k = .ok (root, k')) :
    TookList [root] k.heap k'.heap ∧ k'.pathRoots root = some ⟨driveNo, 0⟩ := by
  unfold pathparserCreateRoot at hrun
  obtain ⟨pathR, k₁, halloc, hrun⟩ := bind_eq_ok.mp hrun
  obtain ⟨hne, htook⟩ :=
    kzalloc_tookList hplaced hclean (.nil k.heap) hroom (by decide) (by decide) halloc
  rw [if_neg hne] at hrun
  obtain ⟨_, k₂, hput, hrun⟩ := bind_eq_ok.mp hrun
  obtain rfl := modify_eq_ok.mp hput
  obtain ⟨rfl, rfl⟩ := pure_eq_ok.mp hrun
  exact ⟨htook, Function.update_self ..⟩

/-- A parsed path: its root, and the list of its parts behind it. -/
structure TookPath (heap : Heap) (k : Kernel) (root : Nat) (parts : List (Nat × Nat)) : Prop where
  took : TookList (partAddresses parts ++ [root]) heap k.heap
  entry : ∃ r, k.pathRoots root = some r ∧ k.PartBlocks r.first parts

theorem pathparserParse_tookPath {root : Nat} (hplaced : k.heap.Placed)
    (hclean : k.heap.table.Clean)
    (hroom : 2 * (pathComponents (path.drop 3)).length + 2 ≤ k.heap.freeBlocks) (hroot : root ≠ 0)
    (hrun : pathparserParse path k = .ok (root, k')) :
    ∃ parts, parts.length = (pathComponents (path.drop 3)).length ∧ TookPath k.heap k' root parts := by
  unfold pathparserParse at hrun
  by_cases hlong : strlen path > boiosMaxPath
  · rw [if_pos hlong] at hrun
    exact absurd (pure_eq_ok.mp hrun).1.symm hroot
  rw [if_neg hlong] at hrun
  by_cases hdrive : (pathparserGetDriveByPath path).1 < 0
  · dsimp only at hrun
    rw [if_pos hdrive] at hrun
    exact absurd (pure_eq_ok.mp hrun).1.symm hroot
  obtain ⟨-, hget⟩ := pathparserGetDriveByPath_of_not_rejected (not_or.mpr ⟨hlong, hdrive⟩)
  rw [hget] at hdrive hrun
  dsimp only at hrun hdrive
  rw [if_neg hdrive] at hrun
  obtain ⟨r, k₁, hcreate, hrun⟩ := bind_eq_ok.mp hrun
  obtain ⟨htook₁, hrootEntry₁⟩ :=
    pathparserCreateRoot_tookList hplaced hclean (by omega) hcreate
  obtain ⟨⟨first, tmp⟩, k₂, hfirst, hrun⟩ := bind_eq_ok.mp hrun
  have hrest : [r].length + 2 * (pathComponents (path.drop 3)).length < k.heap.freeBlocks := by
    rw [List.length_singleton]
    omega
  obtain ⟨rfl, hroots₂, htaken⟩ := pathparserParsePathPart_tookPart hplaced hclean htook₁
    (fun hnull => absurd rfl hnull) hrest hfirst
  have hrootEntry : k₂.pathRoots r = some ⟨tonumericdigit (charAt path 0), 0⟩ := by
    rw [hroots₂, hrootEntry₁]
  dsimp only at hrun
  cases htaken with
  | none hnone htook₂ _ =>
    rw [if_pos rfl] at hrun
    obtain ⟨rfl, rfl⟩ := pure_eq_ok.mp hrun
    refine ⟨[], ?_, htook₂, _, hrootEntry, rfl⟩
    rw [pathComponents_of_empty hnone]
    rfl
  | some _ name hsome hpart htook₂ hentry _ _ =>
    rw [if_neg hpart] at hrun
    replace hrun := bind_get_eq_ok.mp hrun
    obtain ⟨rootNow, hrootNow, hrun⟩ := bind_fetch_eq_ok.mp hrun
    obtain ⟨_, k₃, hput, hrun⟩ := bind_eq_ok.mp hrun
    obtain rfl := modify_eq_ok.mp hput
    obtain ⟨_, k₄, hloop, hrun⟩ := bind_eq_ok.mp hrun
    obtain ⟨rfl, rfl⟩ := pure_eq_ok.mp hrun
    rw [pathComponents, if_neg hsome, List.length_cons] at hroom ⊢
    have hrest₂ : [first, name, r].length + 2 * (pathComponents
        (skipDelimiter ((path.drop 3).dropWhile inPathPart))).length < k.heap.freeBlocks := by
      rw [List.length_cons, List.length_cons, List.length_singleton]
      omega
    obtain ⟨parts, hlength, htook₄, hroots₄, -, next, hentry₄, hlist⟩ :=
      pathparserParseLoop_tookList (k := putPathRoot r { rootNow with first } k₂) hplaced hclean _
        htook₂ hpart (List.mem_cons_self ..) hentry hrest₂ hloop
    refine ⟨(first, name) :: parts, by rw [List.length_cons, hlength],
      htook₄.perm (partAddresses_cons_perm ..), { rootNow with first }, ?_, rfl, hpart, next,
      hentry₄, hlist⟩
    rw [hroots₄]
    exact Function.update_self ..

/-! What giving it back leaves. -/

theorem Kernel.PartBlocks.congr {parts : List (Nat × Nat)} {part : Nat}
    (h : k.PartBlocks part parts) (hsame : k'.pathParts = k.pathParts) : k'.PartBlocks part parts := by
  induction parts generalizing part with
  | nil => exact h
  | cons first rest ih =>
    obtain ⟨hblock, hne, next, hentry, hrest⟩ := h
    exact ⟨hblock, hne, next, by rw [hsame]; exact hentry, ih hrest⟩

theorem pathparserFreeLoop_returns (hplaced : heap.Placed) (hclean : heap.table.Clean)
    (parts : List (Nat × Nat)) (fuel : Nat) {part : Nat} (hfuel : parts.length < fuel)
    (h : TookList (partAddresses parts ++ taken) heap k.heap) (hlist : k.PartBlocks part parts) :
    ∃ k', pathparserFreeLoop fuel part k = .ok ((), k') ∧ TookList taken heap k'.heap := by
  induction parts generalizing fuel part k with
  | nil =>
    obtain ⟨rounds, rfl⟩ := Nat.exists_eq_add_of_lt hfuel
    refine ⟨k, ?_, h⟩
    unfold pathparserFreeLoop
    rw [if_pos (show part = 0 from hlist)]
    rfl
  | cons first rest ih =>
    obtain ⟨rounds, rfl⟩ := Nat.exists_eq_add_of_lt hfuel
    obtain ⟨hblock, hne, next, hentry, hrest⟩ := hlist
    have hname : TookList (first.2 :: part :: (partAddresses rest ++ taken)) heap k.heap := by
      rw [hblock]
      exact h
    obtain ⟨-, hpart⟩ := hname.give hplaced hclean
    obtain ⟨-, hothers⟩ := hpart.give hplaced hclean
    let k₁ : Kernel := { k with heap := heapFree (heapFree k.heap first.2) part }
    have hlist₁ : k₁.PartBlocks next rest := hrest.congr rfl
    obtain ⟨k', hloop, htook⟩ := ih (rest.length + 1 + rounds) (by omega) hothers hlist₁
    refine ⟨k', ?_, htook⟩
    have hrounds : (first :: rest).length + rounds + 1 = (rest.length + 1 + rounds) + 1 := by
      rw [List.length_cons]
    rw [hrounds]
    unfold pathparserFreeLoop
    rw [if_neg hne, bind_of_ok (get_apply _), hentry, bind_of_ok (fetch_some _ _),
      bind_of_ok (kfree_apply ..), bind_of_ok (kfree_apply ..)]
    exact hloop

/-- A path that was parsed is given back without a trace. Its root, the blocks of its parts and the
buffer for the part that is not there are all that `kzalloc` is asked for, and it has a block for
each request as long as one is free. -/
theorem pathparser_free_restores (hplaced : k.heap.Placed) (hclean : k.heap.table.Clean)
    (path : List UInt8) (hroom : 2 * (pathComponents (path.drop 3)).length + 2 ≤ k.heap.freeBlocks)
    (root : Nat) (hroot : root ≠ 0) (hrun : pathparserParse path k = .ok (root, k')) (fuel : Nat)
    (hfuel : (pathComponents (path.drop 3)).length < fuel) :
    ∃ k'', pathparserFree fuel root k' = .ok ((), k'') ∧
      k''.heap.table.entries = k.heap.table.entries ∧
      k''.heap.table.totalEntries = k.heap.table.totalEntries ∧
      k''.heap.startAddress = k.heap.startAddress := by
  obtain ⟨parts, hlength, htook, r, hentry, hlist⟩ :=
    pathparserParse_tookPath hplaced hclean hroom hroot hrun
  obtain ⟨k₁, hloop, htook₁⟩ :=
    pathparserFreeLoop_returns hplaced hclean parts fuel (by omega) htook hlist
  obtain ⟨-, hnone⟩ := htook₁.give hplaced hclean
  refine ⟨{ k₁ with heap := heapFree k₁.heap root }, ?_, hnone.restored, hnone.took.total, hnone.took.start⟩
  unfold pathparserFree
  rw [bind_of_ok (get_apply _), hentry, bind_of_ok (fetch_some _ _), bind_of_ok hloop]
  rfl

theorem pathparser_free_restores_doubledPath : ∃ root k' k'',
    pathparserParse doubledPath (emptyKernel 8) = .ok (root, k') ∧
      pathparserFree 2 root k' = .ok ((), k'') ∧
      k''.heap.table.entries = (emptyKernel 8).heap.table.entries := by
  have hwf : (emptyKernel 8).heap.WellFormed := emptyKernel_wellFormed (by decide)
  have hclean : (emptyKernel 8).heap.table.Clean := fun _ hb _ _ => bootEntries_eq_zero hb
  obtain ⟨root, k', -, hrun, hroot, -⟩ := pathparserParse_doubledPath
  have hone : (pathComponents (doubledPath.drop 3)).length = 1 := by
    rw [pathComponents_doubledPath]
    rfl
  obtain ⟨k'', hfree, hentries, -⟩ := pathparser_free_restores hwf.placed hclean doubledPath
    (by rw [hone, emptyKernel_freeBlocks]; decide) root hroot hrun 2 (by rw [hone]; decide)
  exact ⟨root, k', k'', hrun, hfree, hentries⟩

end BoiOS
