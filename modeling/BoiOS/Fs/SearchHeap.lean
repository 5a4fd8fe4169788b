import BoiOS.Fs.DirectoryLoad

/-! The heap in a search. Every record with the name gets an item, and the items stay; which blocks
they take, and whether a subdirectory on the way can be read, follows from the disk, the records and
the heap before the search. -/
namespace BoiOS
open Library.StateRun

/-! The heap as a function. -/

def recordCluster (record : List UInt8) : Nat :=
  ((charAt record 20).toNat + 256 * (charAt record 21).toNat) |||
    ((charAt record 26).toNat + 256 * (charAt record 27).toNat)

/-- The heap after the load of the directory that begins with a cluster. -/
def loadedHeap (disk : Disk) (p : FatPrivate) (cluster : Nat) (heap : Heap) : Except Stop Heap :=
  let (directory, heap) := heapMalloc heap sizeofFatDirectory
  if directory = 0 then .ok heap
  else do
    let totalItems ← scanCount disk (u32 (fat16ClusterToSector p cluster))
    let size := i32 (totalItems * sizeofFatDirectoryItem)
    let (items, heap) := heapMalloc heap (u32 size)
    if items = 0 then .ok (heapFree heap directory)
    else do
      let (response, _) ← clusterRead disk p cluster size
      .ok (if response ≠ allOk then heapFree (heapFree heap items) directory else heap)

def itemHeap (disk : Disk) (p : FatPrivate) (record : List UInt8) (heap : Heap) : Except Stop Heap :=
  let (fItem, heap) := heapMalloc heap sizeofFatItem
  if fItem = 0 then .ok heap
  else if IsSubdirectory record then loadedHeap disk p (recordCluster record) heap
  else .ok (heapMalloc heap sizeofFatDirectoryItem).2

/-- The heap after a search of the records. -/
def searchHeap (disk : Disk) (p : FatPrivate) (query : List UInt8) (records : List (List UInt8))
    (heap : Heap) : Except Stop Heap :=
  records.foldlM (fun heap record =>
    if SameName (recordName record) query then itemHeap disk p record heap else .ok heap) heap

theorem searchHeap_concat (disk : Disk) (p : FatPrivate) (query : List UInt8)
    (records : List (List UInt8)) (record : List UInt8) (heap : Heap) :
    searchHeap disk p query (records ++ [record]) heap =
      (searchHeap disk p query records heap).bind fun heap =>
        if SameName (recordName record) query then itemHeap disk p record heap else .ok heap := by
  unfold searchHeap
  rw [List.foldlM_append]
  refine congrArg _ (funext fun heap => ?_)
  exact bind_pure _

theorem searchHeap_of_none {disk : Disk} {p : FatPrivate} {query : List UInt8}
    {records : List (List UInt8)} (h : ∀ record ∈ records, ¬ SameName (recordName record) query)
    (heap : Heap) : searchHeap disk p query records heap = .ok heap := by
  induction records with
  | nil => rfl
  | cons record records ih =>
    obtain ⟨hfirst, hrest⟩ := List.forall_mem_cons.mp h
    unfold searchHeap
    rw [List.foldlM_cons, if_neg hfirst]
    exact ih hrest

theorem itemHeap_file {record : List UInt8} (h : ¬ IsSubdirectory record) (disk : Disk)
    (p : FatPrivate) (heap : Heap) : ∃ heap', itemHeap disk p record heap = .ok heap' := by
  unfold itemHeap
  dsimp only
  split_ifs
  · exact ⟨_, rfl⟩
  · exact ⟨_, rfl⟩

theorem searchHeap_files {disk : Disk} {p : FatPrivate} {query : List UInt8}
    {records : List (List UInt8)}
    (h : ∀ record ∈ records, SameName (recordName record) query → ¬ IsSubdirectory record)
    (heap : Heap) : ∃ heap', searchHeap disk p query records heap = .ok heap' := by
  induction records generalizing heap with
  | nil => exact ⟨heap, rfl⟩
  | cons record records ih =>
    obtain ⟨hfirst, hrest⟩ := List.forall_mem_cons.mp h
    unfold searchHeap
    rw [List.foldlM_cons]
    by_cases hname : SameName (recordName record) query
    · obtain ⟨heap', hitem⟩ := itemHeap_file (hfirst hname) disk p heap
      rw [if_pos hname, hitem]
      exact ih hrest heap'
    · rw [if_neg hname]
      exact ih hrest heap

/-! The runs of the driver. -/

/-- What a search does not change: the disk, and that the streams are open. -/
def Kernel.SameVolume (k k' : Kernel) : Prop := k'.disk = k.disk ∧ k.KeepsOpen k'

theorem Kernel.SameVolume.refl (k : Kernel) : k.SameVolume k := ⟨rfl, fun _ h => h⟩

theorem Kernel.SameVolume.trans {k k' k'' : Kernel} (h : k.SameVolume k') (h' : k'.SameVolume k'') :
    k.SameVolume k'' := ⟨h'.1.trans h.1, fun stream hopen => h'.2 stream (h.2 stream hopen)⟩

theorem Kernel.StreamsMoved.sameVolume {k k' : Kernel} (h : k.StreamsMoved k') : k.SameVolume k' :=
  ⟨h.disk, h.opened⟩

theorem Kernel.VolumeOpen.later {k k' : Kernel} {p : FatPrivate} (h : k.VolumeOpen p)
    (hsame : k.SameVolume k') : k'.VolumeOpen p := h.moved hsame.1 hsame.2

theorem fat16GetFirstCluster_eq (m : Memory) (item : Nat) :
    fat16GetFirstCluster m item = recordCluster (m.recordBytes item) := by
  have hbyte : ∀ i < sizeofFatDirectoryItem, (charAt (m.recordBytes item) i).toNat = m.load8 ((item : Int) + i) := by
    intro i hi
    unfold charAt Memory.recordBytes
    rw [List.getD_eq_getElem?_getD, Memory.getElem?_bytesAt m hi]
    rfl
  unfold recordCluster
  rw [hbyte 20 (by decide), hbyte 21 (by decide), hbyte 26 (by decide), hbyte 27 (by decide)]
  unfold fat16GetFirstCluster itemHigh16BitsFirstCluster itemLow16BitsFirstCluster Memory.load16
  rw [Int.add_assoc, Int.add_assoc]
  rfl

section Runs
variable {P : Set Int} {p : FatPrivate} {k : Kernel} {item : Nat}

theorem fat16FreeDirectory_heap {directory : Nat} {d : FatDirectory} (hne : directory ≠ 0)
    (hd : k.fatDirectories directory = some d) : ∃ k', fat16FreeDirectory directory k = .ok ((), k') ∧
      k'.heap = heapFree (if d.item ≠ 0 then heapFree k.heap d.item else k.heap) directory ∧
      k.SameVolume k' := by
  have hrest : ∀ k₁ : Kernel, (do
      kfree directory
      modify (putFatDirectory directory none)) k₁ = .ok ((), { k₁ with
        heap := heapFree k₁.heap directory
        fatDirectories := Function.update k₁.fatDirectories directory none }) := by
    intro k₁
    rw [bind_of_ok (kfree_apply ..), modify_apply]
    rfl
  unfold fat16FreeDirectory
  rw [if_neg hne, bind_of_ok (get_apply k), bind_of_ok (fetch_eq_ok.mpr ⟨hd, rfl⟩)]
  by_cases hitem : d.item ≠ 0
  · rw [if_pos hitem, if_pos hitem]
    dsimp only
    rw [bind_of_ok (kfree_apply d.item k), hrest]
    exact ⟨_, rfl, rfl, rfl, fun _ h => h⟩
  · rw [if_neg hitem, if_neg hitem]
    dsimp only
    rw [hrest]
    exact ⟨_, rfl, rfl, rfl, fun _ h => h⟩

theorem fat16FreeDirectory_leaves {directory : Nat} {d : FatDirectory} {heap : Heap}
    (hne : directory ≠ 0) (hheap : k.heap = heap) (hd : k.fatDirectories directory = some d) :
    Leaves Kernel.SameVolume Kernel.heap k (do
      fat16FreeDirectory directory
      pure directory) (.ok (heapFree (if d.item ≠ 0 then heapFree heap d.item else heap)
        directory)) := by
  obtain ⟨k', hrun, hheap', hsame⟩ := fat16FreeDirectory_heap hne hd
  rw [hheap] at hheap'
  exact .step .trans hrun hsame (.pure .refl hheap' _)

theorem kzalloc_heap {size : Nat} (hsize : size ≤ 0xFFFFF000) (k : Kernel) : ∃ k',
    kzalloc size k = .ok ((heapMalloc k.heap size).1, k') ∧
      k'.heap = (heapMalloc k.heap size).2 ∧ k.SameVolume k' :=
  ⟨_, kzalloc_apply hsize k, rfl, rfl, fun _ h => h⟩

theorem fat16LoadFatDirectory_leaves (hvolume : k.VolumeOpen p) (h : k.heap.Guards P)
    (hkept : k.KeptBytes P item sizeofFatDirectoryItem)
    (hdirectory : IsSubdirectory (k.memory.recordBytes item)) :
    Leaves Kernel.SameVolume Kernel.heap k (fat16LoadFatDirectory item)
      (loadedHeap k.disk p (recordCluster (k.memory.recordBytes item)) k.heap) := by
  have hattributes : ¬ itemAttributes k.memory item &&& fatFileSubdirectory = 0 := by
    rw [itemAttributes_eq]
    exact hdirectory
  obtain ⟨k₁, halloc, hheap₁, hsame₁⟩ := kzalloc_heap (by decide : sizeofFatDirectory ≤ _) k
  have hframe := ContentFrame.of_kzalloc h (by decide) halloc
  have hcluster : fat16GetFirstCluster k₁.memory item = recordCluster (k.memory.recordBytes item) := by
    rw [hframe.firstCluster hkept, fat16GetFirstCluster_eq]
  unfold fat16LoadFatDirectory loadedHeap
  refine .step .trans (get_apply k) (.refl k) (.step .trans (fatPrivate_apply hvolume.fsPrivate)
    (.refl k) ?_)
  rw [if_neg hattributes]
  refine .step .trans halloc hsame₁ ?_
  dsimp only
  rw [← hheap₁]
  by_cases hnull : (heapMalloc k.heap sizeofFatDirectory).1 = 0
  · rw [if_pos hnull, if_pos hnull]
    exact .pure .refl rfl _
  rw [if_neg hnull, if_neg hnull]
  refine .step .trans (get_apply k₁) (.refl k₁) ?_
  have hvolume₁ := hvolume.later hsame₁
  rw [hcluster, ← hsame₁.1]
  have hcount := fat16GetTotalItemsForDirectory_computes
    (u32 (fat16ClusterToSector p (recordCluster (k.memory.recordBytes item)))) hvolume₁.sectorSize
    hvolume₁.fsPrivate hvolume₁.directoryOpened
  refine .of_computes .trans Kernel.StreamsMoved.sameVolume hcount fun totalItems k₂ htotal hmoved => ?_
  obtain ⟨hlow, hhigh⟩ := scanCount_size htotal
  obtain ⟨hsize, -, -⟩ := directorySize_eq hlow hhigh
  have hheap₂ : k₂.heap = k₁.heap := by rw [hmoved.only]
  obtain ⟨k₃, hrecords, hheap₃, hsame₃⟩ :=
    kzalloc_heap (by omega : u32 (i32 (totalItems * sizeofFatDirectoryItem)) ≤ _) k₂
  refine .step .trans hrecords hsame₃ ?_
  rw [← hheap₂, ← hheap₃]
  generalize (heapMalloc k₂.heap (u32 (i32 (totalItems * sizeofFatDirectoryItem)))).1 = items
  generalize (heapMalloc k.heap sizeofFatDirectory).1 = directory at hnull ⊢
  -- the directory is entered, and its entry is still there when it is freed
  let k₄ := loadedKernel k₃ directory items totalItems
  have hentry : k₄.fatDirectories directory = some ⟨items, totalItems, 0, 0⟩ :=
    Function.update_self ..
  have hsame₄ : k₃.SameVolume k₄ := ⟨rfl, fun _ h => h⟩
  refine .step .trans (modify_apply ..) hsame₄ ?_
  by_cases hitems : items = 0
  · have hgone := fat16FreeDirectory_leaves hnull (rfl : k₄.heap = k₃.heap) hentry
    rw [if_neg (not_not.mpr hitems)] at hgone
    rw [if_pos hitems, if_pos hitems]
    exact hgone
  rw [if_neg hitems, if_neg hitems]
  have hsame : k₁.SameVolume k₄ := hmoved.sameVolume.trans (hsame₃.trans hsame₄)
  have hread := fat16ReadInternal_clusterRead (hvolume₁.later hsame)
    (recordCluster (k.memory.recordBytes item)) (i32 (totalItems * sizeofFatDirectoryItem))
  rw [hsame.1] at hread
  refine .of_computes .trans Kernel.StreamsMoved.sameVolume hread fun r k₅ _ hmoved₅ => ?_
  let k₆ : Kernel := { k₅ with memory := k₅.memory.copyIn items r.2 }
  have hstore : storeBytes items r.2 k₅ = .ok ((), k₆) := storeBytes_apply k₅ items r.2 fun _ => hitems
  have hheap₆ : k₆.heap = k₃.heap := by
    change k₅.heap = k₃.heap
    rw [hmoved₅.only]
    rfl
  have hentry₆ : k₆.fatDirectories directory = some ⟨items, totalItems, 0, 0⟩ := by
    change k₅.fatDirectories directory = _
    rw [hmoved₅.only]
    exact hentry
  refine .step .trans hstore (⟨rfl, fun _ h => h⟩ : k₅.SameVolume k₆) ?_
  split_ifs with hfailed
  · have hgone := fat16FreeDirectory_leaves hnull hheap₆ hentry₆
    rwa [if_pos hitems] at hgone
  · exact .pure Kernel.SameVolume.refl hheap₆ _

theorem fat16NewFatItemOrDirectoryItem_leaves (hvolume : k.VolumeOpen p) (h : k.heap.Guards P)
    (hkept : k.KeptBytes P item sizeofFatDirectoryItem) :
    Leaves Kernel.SameVolume Kernel.heap k (fat16NewFatItemOrDirectoryItem item)
      (itemHeap k.disk p (k.memory.recordBytes item) k.heap) := by
  obtain ⟨k₁, halloc, hheap₁, hsame₁⟩ := kzalloc_heap (by decide : sizeofFatItem ≤ _) k
  have hframe := ContentFrame.of_kzalloc h (by decide) halloc
  have hrecord : k₁.memory.recordBytes item = k.memory.recordBytes item := hframe.bytesAt hkept
  unfold fat16NewFatItemOrDirectoryItem itemHeap
  refine .step .trans halloc hsame₁ ?_
  dsimp only
  rw [← hheap₁, ← hsame₁.1, ← hrecord]
  by_cases hnull : (heapMalloc k.heap sizeofFatItem).1 = 0
  · rw [if_pos hnull, if_pos hnull]
    exact .pure .refl rfl _
  rw [if_neg hnull, if_neg hnull]
  generalize (heapMalloc k.heap sizeofFatItem).1 = fItem
  have hentered : ∀ (entry : FatItem) (k₂ : Kernel), ∃ b k₃, (do
      modify (putFatItem fItem (some entry))
      pure fItem : KernelM Nat) k₂ = .ok (b, k₃) ∧ k₃.heap = k₂.heap ∧ k₂.SameVolume k₃ :=
    fun entry k₂ => ⟨_, _, rfl, rfl, rfl, fun _ h => h⟩
  refine .step .trans (get_apply k₁) (.refl k₁) ?_
  rw [itemAttributes_eq]
  have hattributes : recordAttributes (k₁.memory.recordBytes item) &&& fatFileSubdirectory ≠ 0 ↔
      IsSubdirectory (k₁.memory.recordBytes item) := Iff.rfl
  by_cases hdirectory : IsSubdirectory (k₁.memory.recordBytes item)
  · have hload := fat16LoadFatDirectory_leaves (hvolume.later hsame₁) hframe.guards
      (hframe.keptBytes hkept) hdirectory
    rw [if_pos (hattributes.mpr hdirectory), if_pos hdirectory]
    exact hload.followed .trans fun directory => hentered _
  · rw [if_neg (mt hattributes.mp hdirectory), if_neg hdirectory]
    have hclone : Leaves Kernel.SameVolume Kernel.heap k₁
        (fat16CloneDirectoryItem item sizeofFatDirectoryItem)
        (.ok (heapMalloc k₁.heap sizeofFatDirectoryItem).2) := by
      obtain ⟨k₂, halloc₂, hheap₂, hsame₂⟩ :=
        kzalloc_heap (by decide : sizeofFatDirectoryItem ≤ _) k₁
      unfold fat16CloneDirectoryItem
      rw [if_neg (lt_irrefl _), ← hheap₂]
      refine .step .trans halloc₂ hsame₂ ?_
      split_ifs
      · exact .pure .refl rfl _
      · exact .step .trans (modify_apply ..) ⟨rfl, fun _ h => h⟩ (.pure .refl rfl _)
    exact hclone.followed .trans fun copy => hentered _

end Runs

end BoiOS
