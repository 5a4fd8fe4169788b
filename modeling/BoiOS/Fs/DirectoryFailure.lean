import BoiOS.Fs.DirectorySearch
import BoiOS.Fs.PathWalk

/-! Directories that cannot be loaded. `fat16_load_fat_directory` gives back what it has allocated
and then returns it, and its caller puts it into an item without a look; the item is used like any
other, and its directory is given back a second time. -/
namespace BoiOS
open Library.StateRun

/-- `fat16_load_fat_directory` with its local variable `response`. -/
def fat16LoadFatDirectoryResponse (item : Nat) : KernelM (Int × Nat) := do
  let k ← get
  let fatPrivate ← fatPrivate
  if itemAttributes k.memory item &&& fatFileSubdirectory = 0 then pure (-einvarg, 0)
  else do
    let directory ← kzalloc sizeofFatDirectory
    if directory = 0 then pure (-enomem, 0)
    else do
      let k ← get
      let cluster := fat16GetFirstCluster k.memory item
      let clusterSector := fat16ClusterToSector fatPrivate cluster
      let totalItems ← fat16GetTotalItemsForDirectory (u32 clusterSector)
      let directorySize := i32 (totalItems * sizeofFatDirectoryItem)
      let items ← kzalloc (u32 directorySize)
      modify (putFatDirectory directory (some ⟨items, totalItems, 0, 0⟩))
      if items = 0 then do
        fat16FreeDirectory directory
        pure (-enomem, directory)
      else do
        let (response, bytes) ← fat16ReadInternal cluster 0 directorySize
        storeBytes items bytes
        if response ≠ allOk then do
          fat16FreeDirectory directory
          pure (response, directory)
        else pure (response, directory)

theorem fat16LoadFatDirectory_eq (item : Nat) : fat16LoadFatDirectory item = (do
    let (_, directory) ← fat16LoadFatDirectoryResponse item
    pure directory) := by
  unfold fat16LoadFatDirectory fat16LoadFatDirectoryResponse
  simp only [bind_assoc]
  refine bind_congr fun k => bind_congr fun p => ?_
  split_ifs
  · rfl
  simp only [bind_assoc]
  refine bind_congr fun directory => ?_
  split_ifs
  · rfl
  simp only [bind_assoc]
  refine bind_congr fun k => bind_congr fun totalItems => bind_congr fun items =>
    bind_congr fun _ => ?_
  split_ifs
  · simp only [bind_assoc]
    rfl
  simp only [bind_assoc]
  refine bind_congr fun r => bind_congr fun _ => ?_
  split_ifs
  · simp only [bind_assoc]
    rfl
  · rfl

theorem fat16LoadFatDirectoryResponse_failed {item directory : Nat} {response : Int} {k k' : Kernel}
    (hrun : fat16LoadFatDirectoryResponse item k = .ok ((response, directory), k'))
    (hfailed : response ≠ allOk) : directory = 0 ∨ k'.fatDirectories directory = none := by
  have hgone : ∀ {ptr : Nat} {code : Int} {k₁ : Kernel}, ptr ≠ 0 →
      (do fat16FreeDirectory ptr; pure (code, ptr)) k₁ = .ok ((response, directory), k') →
      k'.fatDirectories directory = none := by
    intro ptr code k₁ hne hrun
    obtain ⟨_, k₂, hfree, hrun⟩ := bind_eq_ok.mp hrun
    obtain ⟨hresult, rfl⟩ := pure_eq_ok.mp hrun
    obtain ⟨-, rfl⟩ := Prod.mk.inj hresult
    exact fat16FreeDirectory_gone hne hfree
  unfold fat16LoadFatDirectoryResponse at hrun
  obtain ⟨_, _, -, hrun⟩ := bind_eq_ok.mp hrun
  obtain ⟨_, _, -, hrun⟩ := bind_eq_ok.mp hrun
  split_ifs at hrun
  · obtain ⟨hresult, -⟩ := pure_eq_ok.mp hrun
    exact Or.inl (Prod.mk.inj hresult).2.symm
  obtain ⟨ptr, _, -, hrun⟩ := bind_eq_ok.mp hrun
  split_ifs at hrun with hnull
  · obtain ⟨hresult, -⟩ := pure_eq_ok.mp hrun
    exact Or.inl (Prod.mk.inj hresult).2.symm
  obtain ⟨_, _, -, hrun⟩ := bind_eq_ok.mp hrun
  obtain ⟨_, _, -, hrun⟩ := bind_eq_ok.mp hrun
  obtain ⟨_, _, -, hrun⟩ := bind_eq_ok.mp hrun
  obtain ⟨_, _, -, hrun⟩ := bind_eq_ok.mp hrun
  split_ifs at hrun
  · exact Or.inr (hgone hnull hrun)
  obtain ⟨r, _, -, hrun⟩ := bind_eq_ok.mp hrun
  obtain ⟨_, _, -, hrun⟩ := bind_eq_ok.mp hrun
  split_ifs at hrun with hresponse
  · exact Or.inr (hgone hnull hrun)
  · obtain ⟨hresult, -⟩ := pure_eq_ok.mp hrun
    obtain ⟨rfl, -⟩ := Prod.mk.inj hresult
    exact absurd hfailed hresponse

/-! The item above it. -/

def FailedLoad (record : Nat) (k : Kernel) (fItem directory : Nat) (k' : Kernel) : Prop :=
  ∃ k₁ response k₂, kzalloc sizeofFatItem k = .ok (fItem, k₁) ∧ fItem ≠ 0 ∧
    itemAttributes k₁.memory record &&& fatFileSubdirectory ≠ 0 ∧
    fat16LoadFatDirectoryResponse record k₁ = .ok ((response, directory), k₂) ∧
    response ≠ allOk ∧ k' = putFatItem fItem (some ⟨directory, fatItemTypeDirectory⟩) k₂

/-- The last record with the name is that of a subdirectory whose load fails. -/
def FailedLookup (d : FatDirectory) (fileName : Nat) (k : Kernel) (fItem directory : Nat)
    (k' : Kernel) : Prop :=
  ∃ j before k₁, j < d.totalItems.toNat ∧
    fat16FindItemInDirectoryLoop d.item fileName j 0 0 k = .ok (before, k₁) ∧
    RecordMatches k₁.memory d.item fileName j ∧
    FailedLoad (recordAddress d.item j) k₁ fItem directory k' ∧
    ∀ l, j < l → l < d.totalItems.toNat → ¬ RecordMatches k'.memory d.item fileName l

/-- The lookup answers no item; and where it answers one, that can be opened and closed without an
access to what was given back. -/
structure FailureReported (d : FatDirectory) (fileName : Nat) (k : Kernel) : Prop where
  null : ∀ item k', fat16FindItemInDirectory d fileName k = .ok (item, k') → item = 0
  close : ∀ item k', fat16FindItemInDirectory d fileName k = .ok (item, k') → item ≠ 0 →
    ∀ descriptor, fat16Close descriptor (putFatDescriptor descriptor (some ⟨item, 0⟩) k') ≠
      .error .faulted

theorem FailedLoad.run {record fItem directory : Nat} {k k' : Kernel}
    (h : FailedLoad record k fItem directory k') :
    fat16NewFatItemOrDirectoryItem record k = .ok (fItem, k') := by
  obtain ⟨k₁, response, k₂, halloc, hne, hattributes, hload, -, rfl⟩ := h
  unfold fat16NewFatItemOrDirectoryItem
  rw [bind_of_ok halloc, if_neg hne, bind_of_ok (get_apply k₁), if_pos hattributes,
    fat16LoadFatDirectory_eq, bind_assoc, bind_of_ok hload]
  rfl

theorem FailedLoad.item {record fItem directory : Nat} {k k' : Kernel}
    (h : FailedLoad record k fItem directory k') : fItem ≠ 0 ∧
      k'.fatItems fItem = some ⟨directory, fatItemTypeDirectory⟩ ∧
      (directory = 0 ∨ k'.fatDirectories directory = none) := by
  obtain ⟨k₁, response, k₂, -, hne, -, hload, hfailed, rfl⟩ := h
  have hdirectory := fat16LoadFatDirectoryResponse_failed hload hfailed
  exact ⟨hne, Function.update_self .., hdirectory⟩

theorem FailedLookup.run {d : FatDirectory} {fileName fItem directory : Nat} {k k' : Kernel}
    (h : FailedLookup d fileName k fItem directory k') :
    fat16FindItemInDirectory d fileName k = .ok (fItem, k') := by
  obtain ⟨j, before, k₁, hj, hbefore, hmatch, hload, hlast⟩ := h
  exact fat16FindItemInDirectory_last hj hbefore hmatch hload.run hlast

theorem fat16FatItemFree_unloaded {k : Kernel} {item pointer : Nat}
    (hitem : k.fatItems item = some ⟨pointer, fatItemTypeDirectory⟩) (hne : pointer ≠ 0)
    (hgone : k.fatDirectories pointer = none) : fat16FatItemFree item k = .error .faulted := by
  have hfree : fat16FreeDirectory pointer k = .error .faulted := by
    unfold fat16FreeDirectory
    rw [if_neg hne, bind_of_ok (get_apply k), hgone]
    rfl
  unfold fat16FatItemFree
  rw [bind_of_ok (get_apply k), bind_of_ok (fetch_eq_ok.mpr ⟨hitem, rfl⟩)]
  exact bind_of_error hfree _

/-- A load that fails is never reported: there is an item, and its directory is null, or given back
already when a `fat16_close` right after the opening gives it back. -/
theorem failed_directory_never_reported {d : FatDirectory} {fileName fItem directory : Nat}
    {k k' : Kernel} (h : FailedLookup d fileName k fItem directory k') :
    ¬ FailureReported d fileName k ∧ k'.fatItems fItem = some ⟨directory, fatItemTypeDirectory⟩ ∧
      (directory = 0 ∨ ∀ descriptor, fat16Close descriptor
        (putFatDescriptor descriptor (some ⟨fItem, 0⟩) k') = .error .faulted) := by
  have hrun := h.run
  obtain ⟨j, before, k₁, -, -, -, hload, -⟩ := h
  obtain ⟨hne, hitem, hdirectory⟩ := hload.item
  refine ⟨fun hreported => hne (hreported.null _ _ hrun), hitem, ?_⟩
  by_cases hzero : directory = 0
  · exact Or.inl hzero
  · refine Or.inr fun descriptor => ?_
    have hopened : (putFatDescriptor descriptor (some ⟨fItem, 0⟩) k').fatDescriptors descriptor =
        some ⟨fItem, 0⟩ := Function.update_self ..
    have hfree : fat16FatItemFree fItem (putFatDescriptor descriptor (some ⟨fItem, 0⟩) k') =
        .error .faulted := fat16FatItemFree_unloaded hitem hzero (hdirectory.resolve_left hzero)
    unfold fat16Close
    rw [bind_of_ok (get_apply _), bind_of_ok (fetch_eq_ok.mpr ⟨hopened, rfl⟩)]
    exact bind_of_error hfree _

/-! A volume on which the directory `D` starts in the cluster 3 and goes on in the next sector, but
not in the table. -/

def brokenSector (sector : Nat) (i : Nat) : UInt8 :=
  if sector = 4 then (treeRecord 65 0x20 5).getD (i % 32) 0
  else if sector = 5 then (treeRecord 65 0x20 5).getD i 0
  else 0

def brokenKernel : Kernel :=
  { treeKernel 0 with
    memory := fun a =>
      if a = 0x7000 then 68 else if 0x5000 ≤ a then (treeRecord 68 0x10 3).getD (a - 0x5000) 0 else 0
    disk := ⟨512, fat16Fs, some treePrivate, brokenSector⟩ }

def brokenLoad : KernelM (Nat × Nat × Int × Nat) := do
  let fItem ← kzalloc sizeofFatItem
  let k ← get
  let (response, directory) ← fat16LoadFatDirectoryResponse 0x5000
  pure (fItem, itemAttributes k.memory 0x5000 &&& fatFileSubdirectory, response, directory)

theorem brokenKernel_load :
    ∃ k', FailedLoad (recordAddress 0x5000 0) brokenKernel 0x1000000 0x1001000 k' := by
  obtain ⟨k₂, hrun⟩ : ∃ k', brokenLoad brokenKernel =
      .ok ((0x1000000, fatFileSubdirectory, -eio, 0x1001000), k') :=
    exists_of_value? (by decide +kernel)
  unfold brokenLoad at hrun
  obtain ⟨fItem, k₁, halloc, hrun⟩ := bind_eq_ok.mp hrun
  replace hrun := bind_get_eq_ok.mp hrun
  obtain ⟨⟨response, directory⟩, _, hload, hrun⟩ := bind_eq_ok.mp hrun
  obtain ⟨hresult, rfl⟩ := pure_eq_ok.mp hrun
  simp only [Prod.mk.injEq] at hresult
  obtain ⟨rfl, hattributes, rfl, rfl⟩ := hresult
  have hrecord : recordAddress 0x5000 0 = 0x5000 := by decide +kernel
  rw [hrecord]
  exact ⟨_, k₁, -eio, _, halloc, by decide, by rw [hattributes]; decide, hload, by decide, rfl⟩

theorem brokenKernel_lookup : ∃ k',
    FailedLookup treePrivate.rootDirectory 0x7000 brokenKernel 0x1000000 0x1001000 k' := by
  obtain ⟨k', hload⟩ := brokenKernel_load
  have hone : treePrivate.rootDirectory.totalItems.toNat = 1 := rfl
  refine ⟨k', 0, 0, brokenKernel, by decide, rfl, by decide +kernel, hload, fun l hl hl' => ?_⟩
  rw [hone] at hl'
  omega

theorem failed_directory_never_reported_broken : ∃ k', ∀ descriptor, fat16Close descriptor
    (putFatDescriptor descriptor (some ⟨0x1000000, 0⟩) k') = .error .faulted := by
  obtain ⟨k', hlookup⟩ := brokenKernel_lookup
  obtain ⟨-, -, hclose⟩ := failed_directory_never_reported hlookup
  exact ⟨k', hclose.resolve_left (by decide)⟩

theorem failed_directory_not_always_reported : ¬ ∀ (d : FatDirectory) (fileName : Nat) (k : Kernel)
    (fItem directory : Nat) (k' : Kernel), FailedLookup d fileName k fItem directory k' →
    FailureReported d fileName k := by
  intro hall
  obtain ⟨k', hlookup⟩ := brokenKernel_lookup
  have hreported := hall _ _ _ _ _ _ hlookup
  exact absurd (hreported.null _ _ hlookup.run) (by decide)

end BoiOS
