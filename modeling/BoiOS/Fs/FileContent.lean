import BoiOS.Fs.DirectoryContent
import BoiOS.Fs.FileFrame

/-! What opening, reading and closing a file leaves of the memory of others: the bytes of the
allocations of `P` and those below the heap. Paths, items and descriptors are in blocks of their own,
and what is read goes into the buffer. -/
namespace BoiOS
open Library.StateRun

variable {P : Set Int} {k k' : Kernel}

namespace ContentFrame

theorem blockMemory (h : ContentFrame P k k') : k.SameMemory P k' :=
  fun x hx hin => h.memory x hx (Or.inr ⟨_, hin, le_rfl, fun j hlow hhigh => by omega⟩)

theorem of_put {f : Kernel → Kernel} (h : ContentFrame P k k')
    (hheap : (f k').heap = k'.heap) (hmemory : (f k').memory = k'.memory)
    (hdisk : (f k').disk = k'.disk) : ContentFrame P k (f k') :=
  h.trans (.of_same h.guards hheap hmemory hdisk)

end ContentFrame

/-! Paths. -/

theorem pathparserCreateRoot_content {driveNo : Int} {root : Nat} (h : k.heap.Guards P)
    (hrun : pathparserCreateRoot driveNo k = .ok (root, k')) : ContentFrame P k k' := by
  unfold pathparserCreateRoot at hrun
  obtain ⟨ptr, k₁, halloc, hrun⟩ := bind_eq_ok.mp hrun
  have hframe := ContentFrame.of_kzalloc h (by decide) halloc
  by_cases hnull : ptr = 0
  · rw [if_pos hnull] at hrun
    exact (throw_eq_ok.mp hrun).elim
  rw [if_neg hnull] at hrun
  obtain ⟨_, k₂, hput, hrun⟩ := bind_eq_ok.mp hrun
  obtain ⟨-, rfl⟩ := pure_eq_ok.mp hrun
  rw [← modify_eq_ok.mp hput]
  exact hframe.of_put rfl rfl rfl

theorem pathparserGetPathPart_content {path rest : List UInt8} {ptr : Nat} (h : k.heap.Guards P)
    (hlength : path.length < boiosMaxPath)
    (hrun : pathparserGetPathPart path k = .ok ((ptr, rest), k')) : ContentFrame P k k' := by
  unfold pathparserGetPathPart at hrun
  obtain ⟨result, k₁, halloc, hrun⟩ := bind_eq_ok.mp hrun
  have hframe := ContentFrame.of_kzalloc h (by decide) halloc
  by_cases hempty : path.takeWhile inPathPart = []
  · rw [if_pos hempty] at hrun
    obtain ⟨_, k₂, hfree, hrun⟩ := bind_eq_ok.mp hrun
    obtain ⟨-, rfl⟩ := pure_eq_ok.mp hrun
    exact hframe.trans (.of_kfree hframe.guards (kzalloc_freeable h (by decide) halloc) hfree)
  rw [if_neg hempty] at hrun
  by_cases hnull : result = 0
  · rw [if_pos hnull] at hrun
    exact (throw_eq_ok.mp hrun).elim
  rw [if_neg hnull] at hrun
  obtain ⟨_, k₂, hcopy, hrun⟩ := bind_eq_ok.mp hrun
  obtain ⟨-, rfl⟩ := pure_eq_ok.mp hrun
  have hshort : (path.takeWhile inPathPart).length ≤ boiosMaxPath :=
    (List.takeWhile_prefix inPathPart).length_le.trans hlength.le
  rw [← modify_eq_ok.mp hcopy]
  refine hframe.trans (.of_copyIn hframe.guards fun x hx hkept => hshort.trans ?_)
  exact ContentFrame.kzalloc_apart h (by decide) halloc hnull hx (hframe.owned.kept_iff.mp hkept)

theorem pathparserParsePathPart_content {lastPart part : Nat} {path rest : List UInt8}
    (h : k.heap.Guards P) (hlength : path.length < boiosMaxPath)
    (hrun : pathparserParsePathPart lastPart path k = .ok ((part, rest), k')) :
    ContentFrame P k k' ∧ rest.length ≤ path.length := by
  unfold pathparserParsePathPart at hrun
  obtain ⟨⟨name, path'⟩, k₁, hget, hrun⟩ := bind_eq_ok.mp hrun
  obtain ⟨hrest, -⟩ := pathparserGetPathPart_spec h hlength hget
  have hframe₁ := pathparserGetPathPart_content h hlength hget
  have hshort : path'.length ≤ path.length := by
    have hskip := skipDelimiter_length path
    rw [hrest]
    omega
  dsimp only at hrun
  by_cases hnone : name = 0
  · rw [if_pos hnone] at hrun
    obtain ⟨heq, rfl⟩ := pure_eq_ok.mp hrun
    obtain ⟨-, rfl⟩ := Prod.mk.inj heq
    exact ⟨hframe₁, hshort⟩
  rw [if_neg hnone] at hrun
  obtain ⟨a, k₂, halloc, hrun⟩ := bind_eq_ok.mp hrun
  have hframe₂ := hframe₁.trans (.of_kzalloc hframe₁.guards (by decide) halloc)
  by_cases hnull : a = 0
  · rw [if_pos hnull] at hrun
    exact (throw_eq_ok.mp hrun).elim
  rw [if_neg hnull] at hrun
  obtain ⟨_, k₃, hput, hrun⟩ := bind_eq_ok.mp hrun
  obtain rfl := modify_eq_ok.mp hput
  have hframe₃ : ContentFrame P k (putPathPart a ⟨name, 0⟩ k₂) := hframe₂.of_put rfl rfl rfl
  by_cases hfirst : lastPart = 0
  · rw [if_pos hfirst] at hrun
    obtain ⟨heq, rfl⟩ := pure_eq_ok.mp hrun
    obtain ⟨-, rfl⟩ := Prod.mk.inj heq
    exact ⟨hframe₃, hshort⟩
  · rw [if_neg hfirst] at hrun
    replace hrun := bind_get_eq_ok.mp hrun
    obtain ⟨last, -, hrun⟩ := bind_fetch_eq_ok.mp hrun
    obtain ⟨_, k₄, hlink, hrun⟩ := bind_eq_ok.mp hrun
    obtain ⟨heq, rfl⟩ := pure_eq_ok.mp hrun
    obtain ⟨-, rfl⟩ := Prod.mk.inj heq
    rw [← modify_eq_ok.mp hlink]
    exact ⟨hframe₃.of_put rfl rfl rfl, hshort⟩

theorem pathparserParseLoop_content (fuel : Nat) {part : Nat} {path : List UInt8} {u : Unit}
    (h : k.heap.Guards P) (hlength : path.length < boiosMaxPath)
    (hrun : pathparserParseLoop fuel part path k = .ok (u, k')) : ContentFrame P k k' := by
  induction fuel generalizing part path k with
  | zero => exact (throw_eq_ok.mp hrun).elim
  | succ fuel ih =>
    unfold pathparserParseLoop at hrun
    obtain ⟨⟨next, rest⟩, k₁, hstep, hrun⟩ := bind_eq_ok.mp hrun
    obtain ⟨hframe, hshort⟩ := pathparserParsePathPart_content h hlength hstep
    dsimp only at hrun
    split_ifs at hrun
    · obtain ⟨-, rfl⟩ := pure_eq_ok.mp hrun
      exact hframe
    · exact hframe.trans (ih hframe.guards (lt_of_le_of_lt hshort hlength) hrun)

theorem pathparserParse_content {path : List UInt8} {root : Nat} (h : k.heap.Guards P)
    (h0 : 0 ∉ path) (hrun : pathparserParse path k = .ok (root, k')) : ContentFrame P k k' := by
  unfold pathparserParse at hrun
  by_cases hreject : PathRejected path
  · have hsame : k' = k := by
      rcases hreject with hlong | hdrive
      · rw [if_pos hlong] at hrun
        exact (pure_eq_ok.mp hrun).2.symm
      · dsimp only at hrun
        rw [if_pos hdrive] at hrun
        split_ifs at hrun
        · exact (pure_eq_ok.mp hrun).2.symm
        · exact (pure_eq_ok.mp hrun).2.symm
    rw [hsame]
    exact .refl h
  obtain ⟨hlong, hdrive⟩ := not_or.mp hreject
  obtain ⟨-, hget⟩ := pathparserGetDriveByPath_of_not_rejected hreject
  rw [hget] at hdrive hrun
  dsimp only at hrun hdrive
  rw [if_neg hlong, if_neg hdrive] at hrun
  rw [strlen_of_nonzero h0] at hlong
  have hshort : (path.drop 3).length < boiosMaxPath := by
    unfold boiosMaxPath at hlong ⊢
    rw [List.length_drop]
    omega
  obtain ⟨r, k₁, hcreate, hrun⟩ := bind_eq_ok.mp hrun
  have hframe₁ := pathparserCreateRoot_content h hcreate
  obtain ⟨⟨first, tmp⟩, k₂, hfirst, hrun⟩ := bind_eq_ok.mp hrun
  obtain ⟨hframe₂, hrest⟩ := pathparserParsePathPart_content hframe₁.guards hshort hfirst
  have hframe := hframe₁.trans hframe₂
  dsimp only at hrun
  by_cases hnone : first = 0
  · rw [if_pos hnone] at hrun
    obtain ⟨-, rfl⟩ := pure_eq_ok.mp hrun
    exact hframe
  rw [if_neg hnone] at hrun
  replace hrun := bind_get_eq_ok.mp hrun
  obtain ⟨rootNow, -, hrun⟩ := bind_fetch_eq_ok.mp hrun
  obtain ⟨_, k₃, hput, hrun⟩ := bind_eq_ok.mp hrun
  obtain ⟨_, k₄, hloop, hrun⟩ := bind_eq_ok.mp hrun
  obtain ⟨-, rfl⟩ := pure_eq_ok.mp hrun
  obtain rfl := modify_eq_ok.mp hput
  have hframe₃ : ContentFrame P k (putPathRoot r { rootNow with first := first } k₂) :=
    hframe.of_put rfl rfl rfl
  exact hframe₃.trans
    (pathparserParseLoop_content _ hframe₃.guards (lt_of_le_of_lt hrest hshort) hloop)

/-! Items. -/

theorem fat16CloneDirectoryItem_kept {item copy : Nat} (h : k.heap.Guards P)
    (hrun : fat16CloneDirectoryItem item sizeofFatDirectoryItem k = .ok (copy, k')) :
    ContentFrame P k k' := by
  unfold fat16CloneDirectoryItem at hrun
  rw [if_neg (lt_irrefl _)] at hrun
  obtain ⟨ptr, k₁, halloc, hrun⟩ := bind_eq_ok.mp hrun
  have hframe := ContentFrame.of_kzalloc h (by decide) halloc
  by_cases hnull : ptr = 0
  · rw [if_pos hnull] at hrun
    obtain ⟨-, rfl⟩ := pure_eq_ok.mp hrun
    exact hframe
  rw [if_neg hnull] at hrun
  obtain ⟨_, k₂, hcopy, hrun⟩ := bind_eq_ok.mp hrun
  obtain ⟨-, rfl⟩ := pure_eq_ok.mp hrun
  have hlength : (k₁.memory.bytesAt item sizeofFatDirectoryItem).length = sizeofFatDirectoryItem := by
    simp [Memory.bytesAt]
  rw [← modify_eq_ok.mp hcopy]
  refine hframe.trans (.of_copyIn hframe.guards fun x hx hkept => ?_)
  rw [hlength]
  exact ContentFrame.kzalloc_apart h (by decide) halloc hnull hx (hframe.owned.kept_iff.mp hkept)

theorem fat16NewFatItemOrDirectoryItem_kept {item fItem : Nat} (h : k.heap.Guards P)
    (hsector : k.disk.sectorSize = 512)
    (hrun : fat16NewFatItemOrDirectoryItem item k = .ok (fItem, k')) : ContentFrame P k k' := by
  unfold fat16NewFatItemOrDirectoryItem at hrun
  obtain ⟨ptr, k₁, halloc, hrun⟩ := bind_eq_ok.mp hrun
  have hframe := ContentFrame.of_kzalloc h (by decide) halloc
  by_cases hnull : ptr = 0
  · rw [if_pos hnull] at hrun
    obtain ⟨-, rfl⟩ := pure_eq_ok.mp hrun
    exact hframe
  rw [if_neg hnull] at hrun
  replace hrun := bind_get_eq_ok.mp hrun
  split_ifs at hrun
  · obtain ⟨directory, k₂, hload, hrun⟩ := bind_eq_ok.mp hrun
    obtain ⟨_, k₃, hmodify, hrun⟩ := bind_eq_ok.mp hrun
    obtain ⟨-, rfl⟩ := pure_eq_ok.mp hrun
    rw [← modify_eq_ok.mp hmodify]
    have hloaded := fat16LoadFatDirectory_content hframe.guards (by rw [hframe.disk, hsector]) hload
    exact (hframe.trans hloaded).of_put rfl rfl rfl
  · obtain ⟨copy, k₂, hclone, hrun⟩ := bind_eq_ok.mp hrun
    obtain ⟨_, k₃, hmodify, hrun⟩ := bind_eq_ok.mp hrun
    obtain ⟨-, rfl⟩ := pure_eq_ok.mp hrun
    rw [← modify_eq_ok.mp hmodify]
    exact (hframe.trans (fat16CloneDirectoryItem_kept hframe.guards hclone)).of_put rfl rfl rfl

theorem fat16FindItemInDirectoryLoop_kept (count : Nat) {i items fileName fItem item : Nat}
    (h : k.heap.Guards P) (hsector : k.disk.sectorSize = 512)
    (hrun : fat16FindItemInDirectoryLoop items fileName count i fItem k = .ok (item, k')) :
    ContentFrame P k k' := by
  induction count generalizing i fItem k with
  | zero =>
    obtain ⟨-, rfl⟩ := pure_eq_ok.mp hrun
    exact .refl h
  | succ count ih =>
    unfold fat16FindItemInDirectoryLoop at hrun
    replace hrun := bind_get_eq_ok.mp hrun
    split_ifs at hrun
    · obtain ⟨next, k₁, hnew, hrun⟩ := bind_eq_ok.mp hrun
      have hframe := fat16NewFatItemOrDirectoryItem_kept h hsector hnew
      exact hframe.trans (ih hframe.guards (by rw [hframe.disk, hsector]) hrun)
    · exact ih h hsector hrun

theorem fat16FatItemFree_kept {item : Nat} {u : Unit} (h : k.heap.Guards P)
    (hitem : k.ItemFreeable P item) (hrun : fat16FatItemFree item k = .ok (u, k')) :
    ContentFrame P k k' := by
  unfold fat16FatItemFree at hrun
  replace hrun := bind_get_eq_ok.mp hrun
  obtain ⟨i, hi, hrun⟩ := bind_fetch_eq_ok.mp hrun
  have hstep : ∃ k₁, ContentFrame P k k₁ ∧ k.heap.KeepsFreeable k₁.heap ∧ (do
        kfree item
        modify (putFatItem item none)) k₁ = .ok (u, k') := by
    by_cases hdir : i.type = fatItemTypeDirectory
    · rw [if_pos hdir] at hrun
      obtain ⟨_, k₁, hfirst, hrun⟩ := bind_eq_ok.mp hrun
      have hdirectory := hitem.directory i hi hdir
      exact ⟨k₁, fat16FreeDirectory_content h hdirectory hfirst,
        (fat16FreeDirectory_spec h hdirectory hfirst).1.freeable, hrun⟩
    · rw [if_neg hdir] at hrun
      by_cases hfile : i.type = fatItemTypeFile
      · rw [if_pos hfile] at hrun
        obtain ⟨_, k₁, hfirst, hrun⟩ := bind_eq_ok.mp hrun
        have hpointer := hitem.file i hi hfile
        exact ⟨k₁, .of_kfree h hpointer hfirst, (ReleaseFrame.of_kfree h hpointer hfirst).freeable, hrun⟩
      · rw [if_neg hfile] at hrun
        exact ⟨k, .refl h, .refl _, hrun⟩
  obtain ⟨k₁, hframe₁, hkeeps, hrun⟩ := hstep
  obtain ⟨_, k₂, hsecond, hrun⟩ := bind_eq_ok.mp hrun
  rw [← modify_eq_ok.mp hrun]
  have hframe := hframe₁.trans (.of_kfree hframe₁.guards (hkeeps P item hitem.self) hsecond)
  exact hframe.of_put rfl rfl rfl

theorem Kernel.FoundItem.next_kept {item fileName tmp : Nat} {i : FatItem} {d : FatDirectory}
    {k₁ k₂ : Kernel} {u : Unit} (hitem : k.FoundItem P item) (hsector : k.disk.sectorSize = 512)
    (hnull : k.fatItems 0 = none) (hi : k.fatItems item = some i)
    (htype : i.type = fatItemTypeDirectory) (hd : k.fatDirectories i.pointer = some d)
    (hfind : fat16FindItemInDirectory d fileName k = .ok (tmp, k₁))
    (hfree : fat16FatItemFree item k₁ = .ok (u, k₂)) : ContentFrame P k k₂ := by
  rcases hitem with hzero | ⟨S, hmore, htree⟩
  · rw [hzero, hnull] at hi
    exact absurd hi.symm (Option.some_ne_none i)
  have hframe₁ := fat16FindItemInDirectoryLoop_kept _ hmore.left hsector hfind
  obtain ⟨-, hafter⟩ := htree.freeable_after hmore hi htype hd hfind
  rcases hafter with ⟨-, hfreeable⟩ | ⟨T, -, -, hguardsT, hfreeable⟩
  · exact hframe₁.trans (fat16FatItemFree_kept hframe₁.guards hfreeable hfree)
  · exact hframe₁.trans
      ((fat16FatItemFree_kept hguardsT hfreeable hfree).mono Set.subset_union_left)

theorem fat16WalkPath_kept (fuel : Nat) {currentItem nextPart item : Nat} (h : k.heap.Guards P)
    (hsector : k.disk.sectorSize = 512) (hnull : k.fatItems 0 = none)
    (hitem : k.FoundItem P currentItem)
    (hrun : fat16WalkPath fuel currentItem nextPart k = .ok (item, k')) : ContentFrame P k k' := by
  induction fuel generalizing currentItem nextPart k with
  | zero => exact (throw_eq_ok.mp hrun).elim
  | succ fuel ih =>
    unfold fat16WalkPath at hrun
    by_cases hend : nextPart = 0
    · rw [if_pos hend] at hrun
      obtain ⟨-, rfl⟩ := pure_eq_ok.mp hrun
      exact .refl h
    rw [if_neg hend] at hrun
    replace hrun := bind_get_eq_ok.mp hrun
    obtain ⟨i, hi, hrun⟩ := bind_fetch_eq_ok.mp hrun
    by_cases htype : i.type ≠ fatItemTypeDirectory
    · rw [if_pos htype] at hrun
      obtain ⟨-, rfl⟩ := pure_eq_ok.mp hrun
      exact .refl h
    rw [if_neg htype] at hrun
    obtain ⟨d, hd, hrun⟩ := bind_fetch_eq_ok.mp hrun
    obtain ⟨part, -, hrun⟩ := bind_fetch_eq_ok.mp hrun
    obtain ⟨tmp, k₁, hfind, hrun⟩ := bind_eq_ok.mp hrun
    obtain ⟨k₂, hfree, hdriver, hfound⟩ := hitem.next hnull hi (not_not.mp htype) hd hfind
    have hframe := hitem.next_kept hsector hnull hi (not_not.mp htype) hd hfind hfree
    rw [bind_of_ok hfree] at hrun
    exact hframe.trans (ih hframe.guards (by rw [hframe.disk, hsector])
      (by rw [hdriver.items 0 (Or.inl rfl), hnull]) hfound hrun)

theorem fat16GetDirectoryEntry_kept {path item : Nat} (h : k.heap.Guards P)
    (hsector : k.disk.sectorSize = 512) (hnull : k.fatItems 0 = none)
    (hrun : fat16GetDirectoryEntry path k = .ok (item, k')) : ContentFrame P k k' := by
  unfold fat16GetDirectoryEntry at hrun
  replace hrun := bind_get_eq_ok.mp hrun
  obtain ⟨p, k₁, hprivate, hrun⟩ := bind_eq_ok.mp hrun
  obtain ⟨-, rfl⟩ := fatPrivate_eq_ok.mp hprivate
  obtain ⟨part, -, hrun⟩ := bind_fetch_eq_ok.mp hrun
  obtain ⟨root, k₂, hfind, hrun⟩ := bind_eq_ok.mp hrun
  obtain ⟨hdriver, hroot⟩ := fat16FindItemInDirectory_spec h hfind
  have hframe := fat16FindItemInDirectoryLoop_kept _ h hsector hfind
  by_cases hzero : root = 0
  · rw [if_pos hzero] at hrun
    obtain ⟨-, rfl⟩ := pure_eq_ok.mp hrun
    exact hframe
  · rw [if_neg hzero] at hrun
    exact hframe.trans (fat16WalkPath_kept _ hframe.guards (by rw [hframe.disk, hsector])
      (by rw [hdriver.items 0 (Or.inl rfl), hnull]) hroot hrun)

/-! Files. -/

theorem fat16Open_kept {path mode data : Nat} (h : k.heap.Guards P)
    (hsector : k.disk.sectorSize = 512) (hnull : k.fatItems 0 = none)
    (hrun : fat16Open path mode k = .ok (data, k')) : ContentFrame P k k' := by
  unfold fat16Open at hrun
  obtain ⟨descriptor, k₁, hobject, hrun⟩ := bind_eq_ok.mp hrun
  obtain ⟨k₀, halloc, hk₁⟩ := kzallocObject_eq_ok hobject
  have hframe₀ := ContentFrame.of_kzalloc h (by decide) halloc
  have hdriver₀ := DriverFrame.of_kzalloc h (by decide) halloc
  have hfreeable₀ := kzalloc_freeable h (by decide) halloc
  have hframe₁ : ContentFrame P k k₁ := by
    rw [hk₁]
    split_ifs
    · exact hframe₀
    · exact hframe₀.of_put rfl rfl rfl
  have hheap₁ : k₁.heap = k₀.heap := by
    rw [hk₁]
    split_ifs <;> rfl
  have hitems₁ : k₁.fatItems 0 = none := by
    have hsame : k₁.fatItems = k₀.fatItems := by
      rw [hk₁]
      split_ifs <;> rfl
    rw [hsame, hdriver₀.items 0 (Or.inl rfl), hnull]
  rw [← hheap₁] at hfreeable₀
  have hrelease : ∀ {k₂ k₃ k₄ : Kernel} {u u' : Unit}, ContentFrame P k k₂ →
      k₂.heap.Freeable P descriptor → kfree descriptor k₂ = .ok (u, k₃) →
      (modify (putFatDescriptor descriptor none) : KernelM Unit) k₃ = .ok (u', k₄) →
      ContentFrame P k k₄ := by
    intro k₂ k₃ k₄ u u' hframe hfreeable hfree hmodify
    rw [← modify_eq_ok.mp hmodify]
    exact (hframe.trans (.of_kfree hframe.guards hfreeable hfree)).of_put rfl rfl rfl
  by_cases hmode : mode ≠ fileModeRead
  · rw [if_pos hmode] at hrun
    by_cases hzero : descriptor ≠ 0
    · rw [if_pos hzero] at hrun
      obtain ⟨_, k₂, hfree, hrun⟩ := bind_eq_ok.mp hrun
      obtain ⟨_, k₃, hmodify, hrun⟩ := bind_eq_ok.mp hrun
      obtain ⟨-, rfl⟩ := pure_eq_ok.mp hrun
      exact hrelease hframe₁ hfreeable₀ hfree hmodify
    · rw [if_neg hzero] at hrun
      obtain ⟨-, rfl⟩ := pure_eq_ok.mp hrun
      exact hframe₁
  rw [if_neg hmode] at hrun
  by_cases hzero : descriptor = 0
  · rw [if_pos hzero] at hrun
    obtain ⟨-, rfl⟩ := pure_eq_ok.mp hrun
    exact hframe₁
  rw [if_neg hzero] at hrun
  obtain ⟨hblock, hnew, hguards⟩ := kzalloc_new h (by decide) (by decide) halloc hzero
  obtain ⟨item, k₂, hentry, hrun⟩ := bind_eq_ok.mp hrun
  rw [← hheap₁] at hblock hnew hguards
  have hsector₁ : k₁.disk.sectorSize = 512 := by rw [hframe₁.disk, hsector]
  have hheld := fat16GetDirectoryEntry_kept hguards hsector₁ hitems₁ hentry
  have hframe₂ := hframe₁.trans (hheld.mono (Set.subset_insert ..))
  by_cases hnone : item = 0
  · rw [if_pos hnone] at hrun
    obtain ⟨_, k₃, hfree, hrun⟩ := bind_eq_ok.mp hrun
    obtain ⟨_, k₄, hmodify, hrun⟩ := bind_eq_ok.mp hrun
    obtain ⟨-, rfl⟩ := pure_eq_ok.mp hrun
    have hblock₂ : k₂.heap.blockOf descriptor = k₁.heap.blockOf descriptor :=
      Heap.blockOf_congr hheld.owned.start _
    have hself := hheld.guards.held _ (Set.mem_insert ..)
    exact hrelease hframe₂ (Or.inr ⟨hblock.congr hheld.owned.start hheld.owned.total,
      by rwa [hblock₂], Or.inl (by rwa [hblock₂])⟩) hfree hmodify
  · rw [if_neg hnone] at hrun
    obtain ⟨_, k₃, hmodify, hrun⟩ := bind_eq_ok.mp hrun
    obtain ⟨-, rfl⟩ := pure_eq_ok.mp hrun
    rw [← modify_eq_ok.mp hmodify]
    exact hframe₂.of_put rfl rfl rfl

theorem fileNewDescriptorIn_kept {response : Int} {desc : Nat} (h : k.heap.Guards P)
    (hrun : fileNewDescriptorIn k = .ok ((response, desc), k')) : ContentFrame P k k' := by
  unfold fileNewDescriptorIn at hrun
  replace hrun := bind_get_eq_ok.mp hrun
  cases hslot : fileFindFreeSlot k.files boiosMaxFileDescriptors 0 with
  | none =>
    rw [hslot] at hrun
    obtain ⟨-, rfl⟩ := pure_eq_ok.mp hrun
    exact .refl h
  | some i =>
    rw [hslot] at hrun
    obtain ⟨ptr, k₁, halloc, hrun⟩ := bind_eq_ok.mp hrun
    obtain ⟨response', k₂, hnew, hrun⟩ := bind_eq_ok.mp hrun
    obtain ⟨-, rfl⟩ := pure_eq_ok.mp hrun
    have hframe := ContentFrame.of_kzalloc h (by decide) halloc
    unfold filesRun at hnew
    cases hfiles : fileNewDescriptor k₁.files ptr with
    | error stop => simp [hfiles, Except.map] at hnew
    | ok r =>
      simp only [hfiles, Except.map, Except.ok.injEq, Prod.mk.injEq] at hnew
      rw [← hnew.2]
      exact hframe.of_put (f := fun k => { k with files := r.2 }) rfl rfl rfl

theorem fopen_kept {filename modeStr : List UInt8} {fd : Int} (h : k.heap.Guards P)
    (hsector : k.disk.sectorSize = 512) (hnull : k.fatItems 0 = none) (h0 : 0 ∉ filename)
    (hrun : fopen filename modeStr k = .ok (fd, k')) : ContentFrame P k k' := by
  unfold fopen at hrun
  obtain ⟨rootPath, k₁, hparse, hrun⟩ := bind_eq_ok.mp hrun
  have hframe₁ := pathparserParse_content h h0 hparse
  have hitems₁ : k₁.fatItems 0 = none := by
    rcases pathparserParse_spec h h0 hparse with ⟨-, -, rfl⟩ | ⟨-, hparsed⟩
    · exact hnull
    · rw [hparsed.rest]
      exact hnull
  have hsector₁ : k₁.disk.sectorSize = 512 := by rw [hframe₁.disk, hsector]
  by_cases hrejected : rootPath = 0
  · rw [if_pos hrejected] at hrun
    obtain ⟨-, rfl⟩ := pure_eq_ok.mp hrun
    exact hframe₁
  rw [if_neg hrejected] at hrun
  replace hrun := bind_get_eq_ok.mp hrun
  obtain ⟨r, -, hrun⟩ := bind_fetch_eq_ok.mp hrun
  split_ifs at hrun
  · obtain ⟨-, rfl⟩ := pure_eq_ok.mp hrun
    exact hframe₁
  · obtain ⟨-, rfl⟩ := pure_eq_ok.mp hrun
    exact hframe₁
  · obtain ⟨-, rfl⟩ := pure_eq_ok.mp hrun
    exact hframe₁
  · obtain ⟨-, rfl⟩ := pure_eq_ok.mp hrun
    exact hframe₁
  obtain ⟨data, k₂, hopen, hrun⟩ := bind_eq_ok.mp hrun
  have hframe₂ := hframe₁.trans (fat16Open_kept hframe₁.guards hsector₁ hitems₁ hopen)
  by_cases herror : i32 data < 0
  · rw [if_pos herror] at hrun
    obtain ⟨-, rfl⟩ := pure_eq_ok.mp hrun
    exact hframe₂
  rw [if_neg herror] at hrun
  obtain ⟨⟨response, desc⟩, k₃, hslot, hrun⟩ := bind_eq_ok.mp hrun
  have hframe₃ := hframe₂.trans (fileNewDescriptorIn_kept hframe₂.guards hslot)
  dsimp only at hrun
  by_cases hfull : response < 0
  · rw [if_pos hfull] at hrun
    obtain ⟨-, rfl⟩ := pure_eq_ok.mp hrun
    exact hframe₃
  rw [if_neg hfull] at hrun
  replace hrun := bind_get_eq_ok.mp hrun
  obtain ⟨d, -, hrun⟩ := bind_fetch_eq_ok.mp hrun
  obtain ⟨_, k₄, hput, hrun⟩ := bind_eq_ok.mp hrun
  obtain ⟨-, rfl⟩ := pure_eq_ok.mp hrun
  rw [← modify_eq_ok.mp hput]
  exact hframe₃.of_put rfl rfl rfl

theorem fread_kept {ptr size : Nat} {fd res : Int} (h : k.heap.Guards P)
    (hsector : k.disk.sectorSize = 512)
    (hapart : ∀ x < 4294967296, k.heap.Kept P x → size ≤ u32 ((x : Int) - ptr))
    (hrun : fread ptr size 1 fd k = .ok (res, k')) : ContentFrame P k k' := by
  unfold fread at hrun
  by_cases hbad : size = 0 ∨ 1 = 0 ∨ fd < 1
  · rw [if_pos hbad] at hrun
    obtain ⟨-, rfl⟩ := pure_eq_ok.mp hrun
    exact .refl h
  rw [if_neg hbad] at hrun
  unfold withDescriptor at hrun
  replace hrun := bind_get_eq_ok.mp hrun
  by_cases hmissing : fileGetDescriptor k.files fd = 0
  · rw [if_pos hmissing] at hrun
    obtain ⟨-, rfl⟩ := pure_eq_ok.mp hrun
    exact .refl h
  rw [if_neg hmissing] at hrun
  obtain ⟨d, -, hrun⟩ := bind_fetch_eq_ok.mp hrun
  unfold fat16Read at hrun
  replace hrun := bind_get_eq_ok.mp hrun
  obtain ⟨f, -, hrun⟩ := bind_fetch_eq_ok.mp hrun
  obtain ⟨i, -, hrun⟩ := bind_fetch_eq_ok.mp hrun
  by_cases hrecord : i.type ≠ fatItemTypeFile ∨ i.pointer = 0
  · rw [if_pos hrecord] at hrun
    exact (throw_eq_ok.mp hrun).elim
  rw [if_neg hrecord] at hrun
  obtain ⟨response, k₁, hloop, hrun⟩ := bind_eq_ok.mp hrun
  have hk₁ : k' = k₁ := by
    split_ifs at hrun
    · exact (pure_eq_ok.mp hrun).2.symm
    · exact (pure_eq_ok.mp hrun).2.symm
  rw [hk₁]
  unfold fat16ReadLoop at hloop
  replace hloop := bind_get_eq_ok.mp hloop
  obtain ⟨⟨response', bytes⟩, k₂, hread, hloop⟩ := bind_eq_ok.mp hloop
  obtain ⟨_, k₃, hstore, hloop⟩ := bind_eq_ok.mp hloop
  have hk₃ : k₁ = k₃ := by
    split_ifs at hloop
    · exact (pure_eq_ok.mp hloop).2.symm
    · exact (pure_eq_ok.mp hloop).2.symm
  have hlength := fat16ReadInternal_length hsector (by unfold i32; omega) hread
  have hstreams := fat16ReadInternal_keeps _ _ _ _ _ _ hread
  have hframe := ContentFrame.of_streams h hstreams
  have hsize := i32_natCast_toNat_le size
  rw [hk₃]
  refine hframe.trans (storeBytes_content hframe.guards (fun x hx hkept => ?_) hstore)
  have hout := hapart x hx (hframe.owned.kept_iff.mp hkept)
  omega

theorem fat16Close_kept {S : Set Int} {data : Nat} {response : Int}
    (hguards : k.heap.GuardsMore P S) (h : k.OpenDescriptor P S data)
    (hrun : fat16Close data k = .ok (response, k')) : ContentFrame P k k' := by
  unfold fat16Close at hrun
  replace hrun := bind_get_eq_ok.mp hrun
  obtain ⟨f, hf, hrun⟩ := bind_fetch_eq_ok.mp hrun
  obtain ⟨_, k₁, hitem, hrun⟩ := bind_eq_ok.mp hrun
  obtain ⟨_, k₂, hfree, hrun⟩ := bind_eq_ok.mp hrun
  obtain ⟨_, k₃, hmodify, hrun⟩ := bind_eq_ok.mp hrun
  obtain ⟨-, rfl⟩ := pure_eq_ok.mp hrun
  obtain ⟨f', hf', htree⟩ := h.entry
  obtain rfl := Option.some.inj (hf.symm.trans hf')
  have hfreeable := htree.freeable hguards
  have hkeeps := (fat16FatItemFree_spec hguards.left hfreeable hitem).freeable
  have hframe₁ := fat16FatItemFree_kept hguards.left hfreeable hitem
  rw [← modify_eq_ok.mp hmodify]
  exact (hframe₁.trans (.of_kfree hframe₁.guards
    (hkeeps P data (hguards.freeable h.block)) hfree)).of_put rfl rfl rfl

theorem fclose_kept {S : Set Int} {fd response : Int} (hguards : k.heap.GuardsMore P S)
    (h : k.OpenFile P S fd) (hrun : fclose fd k = .ok (response, k')) : ContentFrame P k k' := by
  unfold fclose at hrun
  replace hrun := bind_get_eq_ok.mp hrun
  rcases h with hzero | ⟨hblock, d, hd, hdescriptor⟩
  · rw [if_pos hzero] at hrun
    obtain ⟨-, rfl⟩ := pure_eq_ok.mp hrun
    exact .refl hguards.left
  rw [if_neg (hblock.block.ne_zero hguards.guards.wellFormed)] at hrun
  obtain ⟨d', hd', hrun⟩ := bind_fetch_eq_ok.mp hrun
  obtain rfl := Option.some.inj (hd.symm.trans hd')
  obtain ⟨closed, k₁, hclose, hrun⟩ := bind_eq_ok.mp hrun
  obtain ⟨-, hkeeps₁, -⟩ := fat16Close_spec hguards hdescriptor hclose
  have hframe₁ := fat16Close_kept hguards hdescriptor hclose
  by_cases hok : closed = allOk
  · rw [if_pos hok] at hrun
    obtain ⟨_, k₂, hslot, hrun⟩ := bind_eq_ok.mp hrun
    obtain ⟨_, k₃, hfree, hrun⟩ := bind_eq_ok.mp hrun
    obtain ⟨-, rfl⟩ := pure_eq_ok.mp hrun
    have hframe₂ : ContentFrame P k k₂ ∧ k₂.heap = k₁.heap := by
      unfold filesRun at hslot
      cases hfiles : fileFreeDescriptor k₁.files (fileGetDescriptor k.files fd) with
      | error stop => simp [hfiles, Except.map] at hslot
      | ok files =>
        simp only [hfiles, Except.map, Except.ok.injEq, Prod.mk.injEq] at hslot
        rw [← hslot.2]
        exact ⟨hframe₁.of_put (f := fun k => { k with files }) rfl rfl rfl, rfl⟩
    have hfreeable : k₂.heap.Freeable P (fileGetDescriptor k.files fd) := by
      rw [hframe₂.2]
      exact hkeeps₁ P _ (hguards.freeable hblock)
    exact hframe₂.1.trans (.of_kfree hframe₂.1.guards hfreeable hfree)
  · rw [if_neg hok] at hrun
    obtain ⟨-, rfl⟩ := pure_eq_ok.mp hrun
    exact hframe₁

end BoiOS
