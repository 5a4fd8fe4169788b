import BoiOS.Fs.DirectoryScan
import BoiOS.Fs.FileRead
import BoiOS.Memory.HeapOwned
import Mathlib.Data.List.TakeWhile

/-! What a lookup leaves of the memory that it reads. Every item that is made on the way is in blocks
of its own, the records of a subdirectory too, so that neither the records that are still to be
looked at nor the name change. -/
namespace BoiOS
open Library.StateRun

/-- Nothing changed that belongs to the allocations of `P` or lies below the heap. -/
structure ContentFrame (P : Set Int) (k k' : Kernel) : Prop where
  guards : k'.heap.Guards P
  owned : Heap.SameOwned P k.heap k'.heap
  memory : ∀ x < 4294967296, k.heap.Kept P x → k'.memory x = k.memory x
  disk : k'.disk = k.disk

namespace ContentFrame
variable {P : Set Int} {k k' k'' : Kernel}

theorem refl (h : k.heap.Guards P) : ContentFrame P k k :=
  ⟨h, .refl P k.heap, fun _ _ _ => rfl, rfl⟩

theorem trans (h : ContentFrame P k k') (h' : ContentFrame P k' k'') : ContentFrame P k k'' := by
  refine ⟨h'.guards, h.owned.trans h'.owned, fun x hx hkept => ?_, h'.disk.trans h.disk⟩
  rw [h'.memory x hx (h.owned.kept_iff.mpr hkept), h.memory x hx hkept]

theorem mono {Q : Set Int} (h : ContentFrame Q k k') (hle : P ⊆ Q) : ContentFrame P k k' := by
  refine ⟨h.guards.mono hle, ⟨h.owned.start, h.owned.total, fun b hb => h.owned.entries b ?_⟩,
    fun x hx hkept => h.memory x hx (hkept.mono hle), h.disk⟩
  obtain ⟨s, hs, hchain⟩ := hb
  exact ⟨s, hle hs, hchain⟩

theorem of_same (h : k.heap.Guards P) (hheap : k'.heap = k.heap) (hmemory : k'.memory = k.memory)
    (hdisk : k'.disk = k.disk) : ContentFrame P k k' := by
  refine ⟨by rwa [hheap], ?_, fun x _ _ => by rw [hmemory], hdisk⟩
  rw [hheap]
  exact .refl P k.heap

theorem of_streams (h : k.heap.Guards P) (hstreams : k.StreamsOnly k') : ContentFrame P k k' := by
  unfold Kernel.StreamsOnly at hstreams
  refine of_same h ?_ ?_ ?_
  · rw [hstreams]
  · rw [hstreams]
  · rw [hstreams]

theorem kzalloc_apart {size ptr : Nat} (h : k.heap.Guards P) (hsize : size ≤ 2147483648)
    (hrun : kzalloc size k = .ok (ptr, k')) (hptr : ptr ≠ 0) {x : Nat} (hx : x < 4294967296)
    (hkept : k.heap.Kept P x) : size ≤ u32 ((x : Int) - ptr) := by
  obtain ⟨rfl, -⟩ := kzalloc_eq_ok hrun
  exact h.heapMalloc_apart hsize hx hkept hptr

theorem of_kzalloc {size ptr : Nat} (h : k.heap.Guards P) (hsize : size ≤ 2147483648)
    (hrun : kzalloc size k = .ok (ptr, k')) : ContentFrame P k k' := by
  obtain ⟨hobtained, -⟩ := kzalloc_obtained h (by omega) hrun
  obtain ⟨-, hk'⟩ := kzalloc_eq_ok hrun
  have hheap : k'.heap = (heapMalloc k.heap size).2 := by rw [hk']
  have hmemory : k'.memory = if ptr = 0 then k.memory else k.memory.clear ptr size := by rw [hk']
  refine ⟨hobtained.guards, ?_, fun x hx hkept => ?_, by rw [hk']⟩
  · rw [hheap]
    exact h.heapMalloc_sameOwned (by omega)
  · rw [hmemory]
    by_cases hptr : ptr = 0
    · rw [if_pos hptr]
    · have hapart := kzalloc_apart h hsize hrun hptr hx hkept
      rw [if_neg hptr]
      exact if_neg (by omega)

theorem of_kfree {ptr : Nat} {u : Unit} (h : k.heap.Guards P) (hptr : k.heap.Freeable P ptr)
    (hrun : kfree ptr k = .ok (u, k')) : ContentFrame P k k' := by
  rw [kfree_eq_ok.mp hrun]
  exact ⟨h.heapFree hptr, h.heapFree_sameOwned hptr, fun _ _ _ => rfl, rfl⟩

theorem of_copyIn {out : Nat} {bytes : List UInt8} (h : k.heap.Guards P)
    (hapart : ∀ x < 4294967296, k.heap.Kept P x → bytes.length ≤ u32 ((x : Int) - out)) :
    ContentFrame P k { k with memory := k.memory.copyIn out bytes } := by
  refine ⟨h, .refl P k.heap, fun x hx hkept => ?_, rfl⟩
  have houtside : bytes[u32 ((x : Int) - out)]? = none :=
    List.getElem?_eq_none (hapart x hx hkept)
  dsimp only
  unfold Memory.copyIn
  rw [houtside]
  rfl

end ContentFrame

theorem storeBytes_content {P : Set Int} {k k' : Kernel} {out : Nat} {bytes : List UInt8} {u : Unit}
    (h : k.heap.Guards P)
    (hapart : ∀ x < 4294967296, k.heap.Kept P x → bytes.length ≤ u32 ((x : Int) - out))
    (hrun : storeBytes out bytes k = .ok (u, k')) : ContentFrame P k k' := by
  unfold storeBytes at hrun
  split_ifs at hrun
  · rw [(pure_eq_ok.mp hrun).2]
    exact .refl (by rwa [← (pure_eq_ok.mp hrun).2])
  · exact (throw_eq_ok.mp hrun).elim
  · rw [← modify_eq_ok.mp hrun]
    exact .of_copyIn h hapart

theorem fat16FreeDirectory_content {P : Set Int} {k k' : Kernel} {directory : Nat} {u : Unit}
    (h : k.heap.Guards P) (hdirectory : k.DirectoryFreeable P directory)
    (hrun : fat16FreeDirectory directory k = .ok (u, k')) : ContentFrame P k k' := by
  unfold fat16FreeDirectory at hrun
  by_cases hnull : directory = 0
  · rw [if_pos hnull] at hrun
    obtain ⟨-, rfl⟩ := pure_eq_ok.mp hrun
    exact .refl h
  rw [if_neg hnull] at hrun
  replace hrun := bind_get_eq_ok.mp hrun
  obtain ⟨d, hd, hrun⟩ := bind_fetch_eq_ok.mp hrun
  obtain ⟨hitem, hself⟩ := hdirectory.resolve_left hnull d hd
  have hstep : ∃ k₁, ContentFrame P k k₁ ∧ k₁.heap.Freeable P directory ∧ (do
        kfree directory
        modify (putFatDirectory directory none)) k₁ = .ok (u, k') := by
    by_cases hd0 : d.item ≠ 0
    · rw [if_pos hd0] at hrun
      obtain ⟨_, k₁, hfirst, hrun⟩ := bind_eq_ok.mp hrun
      refine ⟨k₁, .of_kfree h hitem hfirst, ?_, hrun⟩
      rw [kfree_eq_ok.mp hfirst]
      exact h.keepsFreeable hitem P directory hself
    · rw [if_neg hd0] at hrun
      exact ⟨k, .refl h, hself, hrun⟩
  obtain ⟨k₁, hframe₁, hself₁, hrun⟩ := hstep
  obtain ⟨_, k₂, hsecond, hrun⟩ := bind_eq_ok.mp hrun
  have hframe := hframe₁.trans (.of_kfree hframe₁.guards hself₁ hsecond)
  rw [← modify_eq_ok.mp hrun]
  exact hframe.trans (.of_same hframe.guards rfl rfl rfl)

/-! Loading. -/

theorem fat16ReadInternalFromStream_length {k k' : Kernel} {stream fuel : Nat}
    {cluster offset total response : Int} {bytes : List UInt8} (hsector : k.disk.sectorSize = 512)
    (hhigh : total < 2147483648)
    (hrun : fat16ReadInternalFromStream stream fuel cluster offset total k =
      .ok ((response, bytes), k')) : bytes.length ≤ total.toNat := by
  induction fuel generalizing k k' offset total response bytes with
  | zero => exact (throw_eq_ok.mp hrun).elim
  | succ fuel ih =>
    unfold fat16ReadInternalFromStream at hrun
    replace hrun := bind_get_eq_ok.mp hrun
    obtain ⟨p, _, hfetch, hrun⟩ := bind_eq_ok.mp hrun
    obtain ⟨-, rfl⟩ := fatPrivate_eq_ok.mp hfetch
    have hsize : 0 ≤ sizeOfClusterBytes p k.disk := by
      unfold sizeOfClusterBytes
      rw [hsector]
      omega
    dsimp only at hrun
    generalize sizeOfClusterBytes p k.disk = size at hsize hrun
    obtain ⟨clusterToUse, k₁, hcluster, hrun⟩ := bind_eq_ok.mp hrun
    have hstreams₁ := fat16GetClusterForOffset_keeps _ _ _ _ _ hcluster
    by_cases hbroken : clusterToUse < 0
    · rw [if_pos hbroken] at hrun
      obtain ⟨hresult, -⟩ := pure_eq_ok.mp hrun
      obtain ⟨-, rfl⟩ := Prod.mk.inj hresult
      exact Nat.zero_le _
    rw [if_neg hbroken] at hrun
    have htake : (if total > size then size else total).toNat +
        (total - if total > size then size else total).toNat ≤ total.toNat ∧
        (if total > size then size else total) ≤ total := by
      split_ifs <;> omega
    generalize (if total > size then size else total) = totalToRead at htake hrun
    obtain ⟨hsum, hle⟩ := htake
    obtain ⟨response₂, k₂, hseek, hrun⟩ := bind_eq_ok.mp hrun
    obtain ⟨rfl, rfl⟩ := diskstreamerSeek_eq_ok hseek
    rw [if_neg (not_not.mpr rfl)] at hrun
    obtain ⟨⟨response₃, first⟩, k₃, hread, hrun⟩ := bind_eq_ok.mp hrun
    obtain ⟨hok, hfirst, hk₃⟩ := diskstreamerRead_eq_ok (Function.update_self ..) hread
    have hlength := streamRead_length (by omega) hfirst
    dsimp only at hok hlength hrun
    rw [if_neg (not_not.mpr hok)] at hrun
    split_ifs at hrun with hmore
    · obtain ⟨⟨response₄, rest⟩, k₄, hrest, hrun⟩ := bind_eq_ok.mp hrun
      obtain ⟨hresult, -⟩ := pure_eq_ok.mp hrun
      obtain ⟨-, rfl⟩ := Prod.mk.inj hresult
      have hsector₃ : k₃.disk.sectorSize = 512 := by
        unfold Kernel.StreamsOnly at hstreams₁
        rw [hk₃, hstreams₁]
        exact hsector
      have hbound := ih hsector₃ (by omega) hrest
      change (first ++ rest).length ≤ _
      rw [List.length_append, hlength]
      omega
    · obtain ⟨hresult, -⟩ := pure_eq_ok.mp hrun
      obtain ⟨-, rfl⟩ := Prod.mk.inj hresult
      rw [hlength]
      omega

theorem fat16ReadInternal_length {k k' : Kernel} {cluster offset total response : Int}
    {bytes : List UInt8} (hsector : k.disk.sectorSize = 512) (hhigh : total < 2147483648)
    (hrun : fat16ReadInternal cluster offset total k = .ok ((response, bytes), k')) :
    bytes.length ≤ total.toNat := by
  unfold fat16ReadInternal at hrun
  obtain ⟨p, _, hfetch, hrun⟩ := bind_eq_ok.mp hrun
  obtain ⟨-, rfl⟩ := fatPrivate_eq_ok.mp hfetch
  exact fat16ReadInternalFromStream_length hsector hhigh hrun

theorem directorySize_eq {totalItems : Int} (hlow : 0 ≤ totalItems)
    (hhigh : 32 * totalItems ≤ 2147483648) :
    (u32 (i32 (totalItems * sizeofFatDirectoryItem)) : Int) = 32 * totalItems ∧
      i32 (totalItems * sizeofFatDirectoryItem) < 2147483648 ∧
      (i32 (totalItems * sizeofFatDirectoryItem)).toNat ≤
        u32 (i32 (totalItems * sizeofFatDirectoryItem)) := by
  unfold sizeofFatDirectoryItem u32 i32
  omega

theorem LoadSteps.content {P : Set Int} {p : FatPrivate} {item directory items : Nat}
    {k k₁ k₂ k₃ : Kernel} {totalItems : Int} (h : k.heap.Guards P)
    (hsector : k.disk.sectorSize = 512)
    (hsteps : LoadSteps p item k k₁ k₂ k₃ directory items totalItems) :
    ContentFrame P k (loadedKernel k₃ directory items totalItems) ∧
      0 ≤ totalItems ∧ 32 * totalItems ≤ 2147483648 ∧
      (items ≠ 0 → ∀ x < 4294967296, k₃.heap.Kept P x →
        u32 (i32 (totalItems * sizeofFatDirectoryItem)) ≤ u32 ((x : Int) - items)) := by
  have hframe₁ := ContentFrame.of_kzalloc h (by decide) hsteps.allocated
  have hframe₂ := ContentFrame.of_streams hframe₁.guards
    (fat16GetTotalItemsForDirectory_keeps _ _ _ _ hsteps.counted)
  obtain ⟨hlow, hhigh⟩ := scanCount_size
    (fat16GetTotalItemsForDirectory_scan (by rw [hframe₁.disk, hsector]) hsteps.counted)
  obtain ⟨hsize, -, -⟩ := directorySize_eq hlow hhigh
  have hframe₃ := ContentFrame.of_kzalloc hframe₂.guards (by omega) hsteps.records
  have hframe := (hframe₁.trans hframe₂).trans hframe₃
  refine ⟨hframe.trans (.of_same hframe.guards rfl rfl rfl), hlow, hhigh,
    fun hitems x hx hkept => ?_⟩
  exact ContentFrame.kzalloc_apart hframe₂.guards (by omega) hsteps.records hitems hx
    (hframe₃.owned.kept_iff.mp hkept)

theorem LoadSteps.read_content {P : Set Int} {p : FatPrivate} {item directory items : Nat}
    {k k₁ k₂ k₃ k₄ k₅ : Kernel} {totalItems cluster response : Int} {bytes : List UInt8} {u : Unit}
    (h : k.heap.Guards P) (hsector : k.disk.sectorSize = 512)
    (hsteps : LoadSteps p item k k₁ k₂ k₃ directory items totalItems) (hitems : items ≠ 0)
    (hread : fat16ReadInternal cluster 0 (i32 (totalItems * sizeofFatDirectoryItem))
      (loadedKernel k₃ directory items totalItems) = .ok ((response, bytes), k₄))
    (hstore : storeBytes items bytes k₄ = .ok (u, k₅)) : ContentFrame P k k₅ := by
  obtain ⟨hframe, hlow, hhigh, hapart⟩ := hsteps.content h hsector
  obtain ⟨-, hrange, hle⟩ := directorySize_eq hlow hhigh
  have hstreams := fat16ReadInternal_keeps _ _ _ _ _ _ hread
  have hframe₄ := ContentFrame.of_streams hframe.guards hstreams
  have hlength := fat16ReadInternal_length (by rw [hframe.disk, hsector]) hrange hread
  have hheap : k₄.heap = k₃.heap := by
    unfold Kernel.StreamsOnly at hstreams
    rw [hstreams]
    rfl
  refine (hframe.trans hframe₄).trans (storeBytes_content hframe₄.guards (fun x hx hkept => ?_) hstore)
  rw [hheap] at hkept
  have happ := hapart hitems x hx hkept
  omega

theorem fat16LoadFatDirectory_content {P : Set Int} {k k' : Kernel} {item directory : Nat}
    (h : k.heap.Guards P) (hsector : k.disk.sectorSize = 512)
    (hrun : fat16LoadFatDirectory item k = .ok (directory, k')) : ContentFrame P k k' := by
  cases fat16LoadFatDirectory_result hrun with
  | refused => exact .refl h
  | noDirectory halloc => exact .of_kzalloc h (by decide) halloc
  | noRecords hsteps hfree =>
    obtain ⟨-, hblocks⟩ := hsteps.frame h
    obtain ⟨hframe, -⟩ := hsteps.content h hsector
    exact hframe.trans (fat16FreeDirectory_content hframe.guards
      (hblocks.freeable rfl (Function.update_self ..)) hfree)
  | failed hsteps hitems hread hstore _ hfree =>
    obtain ⟨hdriver, hblocks⟩ := hsteps.frame h
    obtain ⟨-, hheap, hentry⟩ := load_read_frame hdriver.guards hread hstore
    have hframe := hsteps.read_content h hsector hitems hread hstore
    exact hframe.trans (fat16FreeDirectory_content hframe.guards (hblocks.freeable hheap hentry) hfree)
  | loaded hsteps hitems hread hstore => exact hsteps.read_content h hsector hitems hread hstore

/-! The bytes of a record. -/

def recordAttributes (record : List UInt8) : Nat := (charAt record 11).toNat

def IsSubdirectory (record : List UInt8) : Prop := recordAttributes record &&& fatFileSubdirectory ≠ 0

instance (record : List UInt8) : Decidable (IsSubdirectory record) :=
  inferInstanceAs (Decidable (_ ≠ _))

def recordName (record : List UInt8) : List UInt8 :=
  let name := fat16ToProperString (record.take 8) 8
  let ext := (record.drop 8).take 3
  if charAt ext 0 ≠ 0x00 ∧ charAt ext 0 ≠ 0x20 then name ++ 46 :: fat16ToProperString ext 3
  else name

theorem fat16ToProperString_zero (chars : List UInt8) (size : Nat) :
    0 ∉ fat16ToProperString chars size ∧ (fat16ToProperString chars size).length ≤ size := by
  unfold fat16ToProperString
  constructor
  · intro hmem
    have hpart := List.mem_takeWhile_imp hmem
    simp at hpart
  · refine (List.takeWhile_prefix _).length_le.trans ?_
    rw [List.length_take]
    omega

theorem recordName_string (record : List UInt8) :
    0 ∉ recordName record ∧ (recordName record).length ≤ 12 := by
  obtain ⟨hname, hlength⟩ := fat16ToProperString_zero (record.take 8) 8
  obtain ⟨hext, hlength'⟩ := fat16ToProperString_zero ((record.drop 8).take 3) 3
  unfold recordName
  dsimp only
  split_ifs
  · refine ⟨?_, ?_⟩
    · rw [List.mem_append, List.mem_cons, not_or, not_or]
      exact ⟨hname, by decide, hext⟩
    · rw [List.length_append, List.length_cons]
      omega
  · exact ⟨hname, by omega⟩

/-- The bytes from an address on belong to the allocations of `P` or lie below the heap. -/
def Kernel.KeptBytes (P : Set Int) (k : Kernel) (ptr size : Nat) : Prop :=
  ∀ i < size, k.heap.Kept P (u32 ((ptr : Int) + i))

def Memory.recordBytes (m : Memory) (item : Nat) : List UInt8 := m.bytesAt item sizeofFatDirectoryItem

theorem itemAttributes_eq (m : Memory) (item : Nat) :
    itemAttributes m item = recordAttributes (m.recordBytes item) := by
  unfold recordAttributes charAt Memory.recordBytes
  rw [List.getD_eq_getElem?_getD, Memory.getElem?_bytesAt m (by decide)]
  rfl

theorem fat16GetFullRelativeFilename_eq (m : Memory) (item : Nat) :
    fat16GetFullRelativeFilename m item = recordName (m.recordBytes item) := by
  have hname : (m.recordBytes item).take 8 = itemFileName m item :=
    m.bytesAt_take item 32 8 (by decide)
  have hext : ((m.recordBytes item).drop 8).take 3 = itemExt m item :=
    m.bytesAt_drop_take item 32 8 3 (by decide)
  unfold fat16GetFullRelativeFilename recordName
  rw [hname, hext]

theorem ContentFrame.bytesAt {P : Set Int} {k k' : Kernel} (h : ContentFrame P k k') {ptr size : Nat}
    (hkept : k.KeptBytes P ptr size) : k'.memory.bytesAt ptr size = k.memory.bytesAt ptr size := by
  refine List.map_congr_left fun i hi => ?_
  exact h.memory _ (u32_lt _) (hkept i (List.mem_range.mp hi))

theorem ContentFrame.keptBytes {P : Set Int} {k k' : Kernel} (h : ContentFrame P k k')
    {ptr size : Nat} (hkept : k.KeptBytes P ptr size) : k'.KeptBytes P ptr size :=
  fun i hi => h.owned.kept_iff.mpr (hkept i hi)

/-! Items. -/

/-- The item stands for the record: it holds a copy of a file's record. -/
def Kernel.Describes (k : Kernel) (fItem : Nat) (record : List UInt8) : Prop :=
  ∃ f, k.fatItems fItem = some f ∧
    if IsSubdirectory record then f.type = fatItemTypeDirectory
    else f.type = fatItemTypeFile ∧ f.pointer ≠ 0 ∧ k.memory.recordBytes f.pointer = record

/-- The blocks that an item takes, besides what a subdirectory is loaded into. -/
def itemBlocks (record : List UInt8) : Nat := if IsSubdirectory record then 1 else 2

theorem fat16CloneDirectoryItem_content {P : Set Int} {k k' : Kernel} {item copy : Nat}
    (h : k.heap.Guards P) (hkept : k.KeptBytes P item sizeofFatDirectoryItem)
    (hrun : fat16CloneDirectoryItem item sizeofFatDirectoryItem k = .ok (copy, k')) :
    ContentFrame P k k' ∧ (copy ≠ 0 ↔ 0 < k.heap.freeBlocks) ∧
      (copy ≠ 0 → k'.memory.recordBytes copy = k.memory.recordBytes item) := by
  unfold fat16CloneDirectoryItem at hrun
  rw [if_neg (lt_irrefl _)] at hrun
  obtain ⟨ptr, k₁, halloc, hrun⟩ := bind_eq_ok.mp hrun
  have hframe := ContentFrame.of_kzalloc h (by decide) halloc
  obtain ⟨hserved, -⟩ := kzalloc_served_iff h.wellFormed (by decide) (by decide) halloc
  by_cases hnull : ptr = 0
  · rw [if_pos hnull] at hrun
    obtain ⟨rfl, rfl⟩ := pure_eq_ok.mp hrun
    rw [hnull] at hserved
    exact ⟨hframe, hserved, fun hne => absurd rfl hne⟩
  rw [if_neg hnull] at hrun
  obtain ⟨_, k₂, hcopy, hrun⟩ := bind_eq_ok.mp hrun
  obtain ⟨rfl, rfl⟩ := pure_eq_ok.mp hrun
  have hrecord := hframe.bytesAt hkept
  have hlength : (k₁.memory.bytesAt item sizeofFatDirectoryItem).length = sizeofFatDirectoryItem := by
    simp [Memory.bytesAt]
  obtain ⟨hblock, -, -⟩ := kzalloc_new h (by decide) (by decide) halloc hnull
  have haddress := hblock.address
  have hhigh := hblock.high
  have hbelow := hframe.guards.wellFormed.below
  rw [← modify_eq_ok.mp hcopy]
  refine ⟨hframe.trans (.of_copyIn hframe.guards fun x hx hin => ?_), hserved, fun _ => ?_⟩
  · rw [hlength]
    exact ContentFrame.kzalloc_apart h (by decide) halloc hnull hx (hframe.owned.kept_iff.mp hin)
  · have hread := Memory.bytesAt_copyIn k₁.memory ptr
      (k₁.memory.bytesAt item sizeofFatDirectoryItem) (by
        rw [hlength]
        unfold sizeofFatDirectoryItem
        omega)
    rw [hlength, hrecord] at hread
    dsimp only [Memory.recordBytes]
    rw [hrecord]
    exact hread

theorem fat16NewFatItemOrDirectoryItem_content {P : Set Int} {k k' : Kernel} {item fItem : Nat}
    (h : k.heap.Guards P) (hsector : k.disk.sectorSize = 512)
    (hkept : k.KeptBytes P item sizeofFatDirectoryItem)
    (hrun : fat16NewFatItemOrDirectoryItem item k = .ok (fItem, k')) :
    ContentFrame P k k' ∧ (fItem ≠ 0 ↔ 0 < k.heap.freeBlocks) ∧
      (fItem ≠ 0 → (k'.Describes fItem (k.memory.recordBytes item) ↔
        itemBlocks (k.memory.recordBytes item) ≤ k.heap.freeBlocks)) := by
  unfold fat16NewFatItemOrDirectoryItem at hrun
  obtain ⟨ptr, k₁, halloc, hrun⟩ := bind_eq_ok.mp hrun
  have hframe := ContentFrame.of_kzalloc h (by decide) halloc
  obtain ⟨hserved, hleft⟩ := kzalloc_served_iff h.wellFormed (by decide) (by decide) halloc
  by_cases hnull : ptr = 0
  · rw [if_pos hnull] at hrun
    obtain ⟨rfl, rfl⟩ := pure_eq_ok.mp hrun
    rw [hnull] at hserved
    exact ⟨hframe, hserved, fun hne => absurd rfl hne⟩
  rw [if_neg hnull] at hrun
  replace hrun := bind_get_eq_ok.mp hrun
  have hrecord : k₁.memory.recordBytes item = k.memory.recordBytes item := hframe.bytesAt hkept
  have hattributes : itemAttributes k₁.memory item &&& fatFileSubdirectory ≠ 0 ↔
      IsSubdirectory (k.memory.recordBytes item) := by
    rw [itemAttributes_eq, hrecord]
    rfl
  have hblocks := hleft hnull
  by_cases hdirectory : IsSubdirectory (k.memory.recordBytes item)
  · rw [if_pos (hattributes.mpr hdirectory)] at hrun
    obtain ⟨directory, k₂, hload, hrun⟩ := bind_eq_ok.mp hrun
    obtain ⟨_, k₃, hmodify, hrun⟩ := bind_eq_ok.mp hrun
    obtain ⟨rfl, rfl⟩ := pure_eq_ok.mp hrun
    have hframe₂ := hframe.trans
      (fat16LoadFatDirectory_content hframe.guards (by rw [hframe.disk, hsector]) hload)
    rw [← modify_eq_ok.mp hmodify]
    refine ⟨hframe₂.trans (.of_same hframe₂.guards rfl rfl rfl), hserved, fun _ => iff_of_true ?_ ?_⟩
    · refine ⟨_, Function.update_self .., ?_⟩
      rw [if_pos hdirectory]
    · unfold itemBlocks
      rw [if_pos hdirectory]
      omega
  · rw [if_neg (mt hattributes.mp hdirectory)] at hrun
    obtain ⟨copy, k₂, hclone, hrun⟩ := bind_eq_ok.mp hrun
    obtain ⟨_, k₃, hmodify, hrun⟩ := bind_eq_ok.mp hrun
    obtain ⟨rfl, rfl⟩ := pure_eq_ok.mp hrun
    obtain ⟨hframe₂, hcopy, hbytes⟩ := fat16CloneDirectoryItem_content hframe.guards
      (hframe.keptBytes hkept) hclone
    have hframe₂' := hframe.trans hframe₂
    rw [← modify_eq_ok.mp hmodify]
    refine ⟨hframe₂'.trans (.of_same hframe₂'.guards rfl rfl rfl), hserved, fun _ => ?_⟩
    unfold Kernel.Describes itemBlocks
    rw [if_neg hdirectory]
    constructor
    · rintro ⟨f, hf, hkind⟩
      rw [if_neg hdirectory] at hkind
      obtain rfl := Option.some.inj (hf.symm.trans (Function.update_self ..))
      have hfree := hcopy.mp hkind.2.1
      omega
    · intro htwo
      have hne := hcopy.mpr (by omega)
      refine ⟨_, Function.update_self .., ?_⟩
      rw [if_neg hdirectory]
      exact ⟨rfl, hne, (hbytes hne).trans hrecord⟩

end BoiOS
