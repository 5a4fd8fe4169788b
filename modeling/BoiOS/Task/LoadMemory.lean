import BoiOS.Task.LoadReturns

/-! A load writes only into what it allocates itself. The allocation of the image has to be served:
a run at the end of the heap that is too short for a file of more than two gigabytes would be handed
out too, and clearing the image would wrap around. -/
namespace BoiOS
open Library.StateRun

variable {size : Nat}

def Heap.RoomFor (heap : Heap) (size : Nat) : Prop := ¬ heap.table.NoRoom (blocksFor size)

theorem Heap.RoomFor.size_le {heap : Heap} (hroom : heap.RoomFor size) (h : heap.WellFormed) :
    size ≤ 2147483648 := by
  unfold Heap.RoomFor HeapTable.NoRoom at hroom
  push Not at hroom
  obtain ⟨s, hs, hhigh, -⟩ := hroom
  have hbelow := h.below
  unfold blocksFor at hhigh
  omega

theorem Heap.RoomFor.served {k k' : Kernel} {ptr : Nat} (hroom : k.heap.RoomFor size)
    (h : k.heap.WellFormed) (hlow : 1 ≤ size) (hrun : kzalloc size k = .ok (ptr, k')) : ptr ≠ 0 := by
  have hsize := hroom.size_le h
  obtain ⟨hptr, -⟩ := kzalloc_eq_ok hrun
  rw [hptr]
  intro hnull
  exact hroom ((Heap.heapMalloc_eq_zero_iff h hlow (by omega)).1.mp hnull).1

theorem Heap.RoomFor.of_free {heap : Heap} {b : Int} (hsize : size ≤ 4096) (hlow : 0 ≤ b)
    (hhigh : b < heap.table.totalEntries) (hfree : heap.table.IsFree b) : heap.RoomFor size := by
  have hone : blocksFor size ≤ 1 := by
    unfold blocksFor
    omega
  intro hnone
  refine hnone b hlow (by omega) fun i hfirst hlast => ?_
  rwa [show i = b by omega]

/-! The image. -/

variable {P S : Set Int} {k k' : Kernel}

theorem fread_image_kept {k₁ k₂ : Kernel} {ptr : Nat} {fd res : Int} (h : k.heap.Guards P)
    (hsector : k.disk.sectorSize = 512) (hroom : k.heap.RoomFor size)
    (halloc : kzalloc size k = .ok (ptr, k₁)) (hframe : ContentFrame P k k₂)
    (hread : fread ptr size 1 fd k₂ = .ok (res, k')) : ContentFrame P k k' := by
  refine hframe.trans (fread_kept hframe.guards (by rw [hframe.disk, hsector]) ?_ hread)
  intro x hx hkept
  by_cases hempty : size = 0
  · omega
  · exact ContentFrame.kzalloc_apart h (hroom.size_le h.wellFormed) halloc
      (hroom.served h.wellFormed (by omega) halloc) hx (hframe.owned.kept_iff.mp hkept)

theorem elfLoadOpened_kept {ptr elfFile fileSize : Nat} {fd res : Int}
    (hmore : k.heap.GuardsMore P S) (hregular : k.OpenRegular S fd)
    (hsector : k.disk.sectorSize = 512) (hroom : k.heap.RoomFor fileSize)
    (hrun : elfLoadOpened ptr fd fileSize k = .ok ((res, elfFile), k')) : ContentFrame P k k' := by
  have hsize := hroom.size_le hmore.guards.wellFormed
  unfold elfLoadOpened at hrun
  obtain ⟨memory, k₁, halloc, hrun⟩ := bind_eq_ok.mp hrun
  have hframe₁ := ContentFrame.of_kzalloc hmore.guards hsize halloc
  obtain ⟨-, hk₁⟩ := kzalloc_obtained hmore.guards (by omega) halloc
  have hregular₁ := hregular.congr hframe₁.owned.start hframe₁.owned.total (by rw [hk₁])
    (by rw [hk₁]) (by rw [hk₁])
  replace hrun := bind_get_eq_ok.mp hrun
  obtain ⟨file, -, hrun⟩ := bind_fetch_eq_ok.mp hrun
  obtain ⟨_, k₂, hput, hrun⟩ := bind_eq_ok.mp hrun
  obtain rfl := modify_eq_ok.mp hput
  obtain ⟨res₁, k₃, hread, hrun⟩ := bind_eq_ok.mp hrun
  have hframe₃ := fread_image_kept hmore.guards hsector hroom halloc
    (hframe₁.of_put (f := putElfFile ptr _) rfl rfl rfl) hread
  obtain ⟨hreadonly, -⟩ := fread_spec hread
  unfold Kernel.ReadOnly at hreadonly
  have hregular₃ : k₃.OpenRegular S fd := by
    rw [hreadonly]
    exact hregular₁.congr rfl rfl rfl rfl rfl
  by_cases hfailed : res₁ < 0
  · rw [if_pos hfailed] at hrun
    obtain ⟨_, k₄, hclose, hrun⟩ := bind_eq_ok.mp hrun
    obtain ⟨-, rfl⟩ := pure_eq_ok.mp hrun
    exact (hframe₃.mono Set.subset_union_left).trans
      (fclose_kept ⟨hframe₃.guards, hmore.apart⟩ (hregular₃.open P) hclose)
  rw [if_neg hfailed] at hrun
  replace hrun := bind_get_eq_ok.mp hrun
  obtain ⟨file₃, -, hrun⟩ := bind_fetch_eq_ok.mp hrun
  dsimp only at hrun
  obtain ⟨_, k₄, hput, hrun⟩ := bind_eq_ok.mp hrun
  obtain rfl := modify_eq_ok.mp hput
  obtain ⟨_, k₅, hclose, hrun⟩ := bind_eq_ok.mp hrun
  have hregular₄ : (putElfFile ptr (elfProcessLoaded k₃.memory file₃).2 k₃).OpenRegular S fd :=
    hregular₃.congr rfl rfl rfl rfl rfl
  have hframe₄ := hframe₃.of_put (f := putElfFile ptr (elfProcessLoaded k₃.memory file₃).2)
    rfl rfl rfl
  have hclosed := fclose_kept ⟨hframe₄.guards, hmore.apart⟩ (hregular₄.open P) hclose
  have hk' : k' = k₅ := by
    split_ifs at hrun
    · exact (pure_eq_ok.mp hrun).2.symm
    · exact (pure_eq_ok.mp hrun).2.symm
  rw [hk']
  exact (hframe₄.mono Set.subset_union_left).trans hclosed

/-- The size that an image is allocated with. -/
def imageRequest (filename : List UInt8) : KernelM Nat := do
  let fd ← fopen filename [114]
  let (_, stat) ← fstat fd
  pure stat.fileSize

def ImageServed (filename : List UInt8) (k : Kernel) : Prop :=
  ∀ size k', imageRequest filename k = .ok (size, k') → k'.heap.RoomFor size

theorem ImageServed.room {filename : List UInt8} (h : ImageServed filename k) {fd res : Int}
    {stat : FileStat} {k₁ : Kernel} (hopen : fopen filename [114] k = .ok (fd, k₁))
    (hstat : fstat fd k₁ = .ok ((res, stat), k')) : k'.heap.RoomFor stat.fileSize := by
  refine h _ _ ?_
  unfold imageRequest
  rw [bind_of_ok hopen, bind_of_ok hstat]
  rfl

structure ImagesServed (filename : List UInt8) (process : Nat) (k : Kernel) : Prop where
  elf : ∀ elfFile k', kzallocObject sizeofElfFile (fun ptr => putElfFile ptr ⟨0, 0, 0, 0, 0⟩) k =
    .ok (elfFile, k') → ImageServed filename k'
  binary : ∀ k', processLoadElf filename process k = .ok (-einformat, k') → ImageServed filename k'

theorem elfLoad_kept {filename : List UInt8} {elfFile : Nat} {res : Int} (h : k.heap.Guards P)
    (hsector : k.disk.sectorSize = 512) (hitems : k.fatItems 0 = none) (h0 : 0 ∉ filename)
    (hserved : ∀ elfFile k₁, kzallocObject sizeofElfFile
      (fun ptr => putElfFile ptr ⟨0, 0, 0, 0, 0⟩) k = .ok (elfFile, k₁) → ImageServed filename k₁)
    (hrun : elfLoad kernelFiles filename k = .ok ((res, elfFile), k')) : ContentFrame P k k' := by
  unfold elfLoad kernelFiles at hrun
  obtain ⟨ptr, k₁, hobject, hrun⟩ := bind_eq_ok.mp hrun
  obtain ⟨k₀, halloc, hk₁⟩ := kzallocObject_eq_ok hobject
  have hframe₀ := ContentFrame.of_kzalloc h (by decide) halloc
  have hframe₁ : ContentFrame P k k₁ := by
    rw [hk₁]
    split_ifs
    · exact hframe₀
    · exact hframe₀.of_put rfl rfl rfl
  have hitems₁ : k₁.fatItems 0 = none := by
    obtain ⟨-, hk₀⟩ := kzalloc_obtained h (by decide) halloc
    rw [hk₁, hk₀]
    split_ifs
    · exact hitems
    · exact hitems
  have hsector₁ : k₁.disk.sectorSize = 512 := by rw [hframe₁.disk, hsector]
  obtain ⟨fd, k₂, hopen, hrun⟩ := bind_eq_ok.mp hrun
  have hframe₂ := hframe₁.trans (fopen_kept hframe₁.guards hsector₁ hitems₁ h0 hopen)
  obtain ⟨-, hfile⟩ := fopen_open hframe₁.guards hitems₁ h0 hopen
  by_cases hnone : fd ≤ 0
  · rw [if_pos hnone] at hrun
    obtain ⟨_, k₃, hclose, hrun⟩ := bind_eq_ok.mp hrun
    obtain ⟨-, rfl⟩ := pure_eq_ok.mp hrun
    exact hframe₂.trans (fclose_kept (.none hframe₂.guards) (Or.inl rfl) hclose)
  rw [if_neg hnone] at hrun
  obtain ⟨S, hmore, hfile⟩ := hfile.resolve_left (by omega)
  obtain ⟨⟨res₁, stat⟩, k₃, hstat, hrun⟩ := bind_eq_ok.mp hrun
  have hroom := (hserved _ _ hobject).room hopen hstat
  obtain ⟨hk₃, -, hregular⟩ := fstat_spec hmore hfile hstat
  rw [hk₃] at hrun hroom
  dsimp only at hrun
  by_cases hbad : res₁ < 0
  · rw [if_pos hbad] at hrun
    obtain ⟨_, k₄, hclose, hrun⟩ := bind_eq_ok.mp hrun
    obtain ⟨-, rfl⟩ := pure_eq_ok.mp hrun
    exact hframe₂.trans (fclose_kept hmore hfile hclose)
  rw [if_neg hbad] at hrun
  obtain ⟨-, hregular⟩ := hregular.resolve_left hbad
  exact hframe₂.trans
    (elfLoadOpened_kept hmore hregular (by rw [hframe₂.disk, hsector]) hroom hrun)

/-! The program data. -/

theorem modifyProcess_kept {process : Nat} {f : Process → Process} {u : Unit} (h : k.heap.Guards P)
    (hrun : modifyProcess process f k = .ok (u, k')) : ContentFrame P k k' := by
  obtain ⟨p, -, rfl⟩ := modifyProcess_eq_ok hrun
  exact .of_same h rfl rfl rfl

theorem processLoadElf_kept {filename : List UInt8} {process : Nat} {res : Int}
    (h : k.heap.Guards P) (hsector : k.disk.sectorSize = 512) (hitems : k.fatItems 0 = none)
    (h0 : 0 ∉ filename) (hserved : ImagesServed filename process k)
    (hrun : processLoadElf filename process k = .ok (res, k')) : ContentFrame P k k' := by
  unfold processLoadElf at hrun
  obtain ⟨⟨res₁, elfFile⟩, k₁, hload, hrun⟩ := bind_eq_ok.mp hrun
  have hframe := elfLoad_kept h hsector hitems h0 hserved.elf hload
  dsimp only at hrun
  by_cases hfailed : res₁ < 0
  · rw [if_pos hfailed] at hrun
    obtain ⟨-, rfl⟩ := pure_eq_ok.mp hrun
    exact hframe
  rw [if_neg hfailed] at hrun
  obtain ⟨_, k₂, hmodify, hrun⟩ := bind_eq_ok.mp hrun
  obtain ⟨-, rfl⟩ := pure_eq_ok.mp hrun
  exact hframe.trans (modifyProcess_kept hframe.guards hmodify)

theorem processLoadElf_items {filename : List UInt8} {process : Nat} {res : Int}
    (h : k.heap.Guards P) (hitems : k.fatItems 0 = none) (hnull : k.elfFiles 0 = none)
    (h0 : 0 ∉ filename) (hrun : processLoadElf filename process k = .ok (res, k')) :
    k'.fatItems 0 = k.fatItems 0 := by
  unfold processLoadElf at hrun
  obtain ⟨⟨res₁, elfFile⟩, k₁, hload, hrun⟩ := bind_eq_ok.mp hrun
  obtain ⟨hframe, -⟩ := elfLoad_spec h hitems hnull h0 hload
  dsimp only at hrun
  by_cases hfailed : res₁ < 0
  · rw [if_pos hfailed] at hrun
    obtain ⟨-, rfl⟩ := pure_eq_ok.mp hrun
    exact hframe.null
  rw [if_neg hfailed] at hrun
  obtain ⟨_, k₂, hmodify, hrun⟩ := bind_eq_ok.mp hrun
  obtain ⟨-, rfl⟩ := pure_eq_ok.mp hrun
  obtain ⟨p, -, rfl⟩ := modifyProcess_eq_ok hmodify
  exact hframe.null

theorem processLoadBinary_kept {filename : List UInt8} {process : Nat} {res : Int}
    (h : k.heap.Guards P) (hsector : k.disk.sectorSize = 512) (hitems : k.fatItems 0 = none)
    (h0 : 0 ∉ filename) (hserved : ImageServed filename k)
    (hrun : processLoadBinary filename process k = .ok (res, k')) : ContentFrame P k k' := by
  unfold processLoadBinary at hrun
  obtain ⟨fd, k₁, hopen, hrun⟩ := bind_eq_ok.mp hrun
  have hframe₁ := fopen_kept h hsector hitems h0 hopen
  obtain ⟨-, hfile⟩ := fopen_open h hitems h0 hopen
  have hsector₁ : k₁.disk.sectorSize = 512 := by rw [hframe₁.disk, hsector]
  by_cases hnone : fd = 0
  · rw [if_pos hnone] at hrun
    obtain ⟨_, k₂, hclose, hrun⟩ := bind_eq_ok.mp hrun
    obtain ⟨-, rfl⟩ := pure_eq_ok.mp hrun
    exact hframe₁.trans (fclose_kept (.none hframe₁.guards) (Or.inl (by rw [hnone]; rfl)) hclose)
  rw [if_neg hnone] at hrun
  obtain ⟨S, hmore, hfile⟩ := hfile.resolve_left hnone
  obtain ⟨⟨res₁, stat⟩, k₂, hstat, hrun⟩ := bind_eq_ok.mp hrun
  have hroom := hserved.room hopen hstat
  obtain ⟨hk₂, -, hregular⟩ := fstat_spec hmore hfile hstat
  rw [hk₂] at hrun hroom
  dsimp only at hrun
  by_cases hbad : res₁ ≠ allOk
  · rw [if_pos hbad] at hrun
    obtain ⟨_, k₃, hclose, hrun⟩ := bind_eq_ok.mp hrun
    obtain ⟨-, rfl⟩ := pure_eq_ok.mp hrun
    exact hframe₁.trans (fclose_kept hmore hfile hclose)
  rw [if_neg hbad] at hrun
  have hok : ¬ res₁ < 0 := by
    rw [not_not.mp hbad]
    decide
  obtain ⟨-, hregular⟩ := hregular.resolve_left hok
  have hsize := hroom.size_le hmore.guards.wellFormed
  obtain ⟨ptr, k₃, halloc, hrun⟩ := bind_eq_ok.mp hrun
  have hframe₃ := ContentFrame.of_kzalloc hmore.guards hsize halloc
  obtain ⟨-, hk₃⟩ := kzalloc_obtained hmore.guards (by omega) halloc
  have hregular₃ := hregular.congr hframe₃.owned.start hframe₃.owned.total (by rw [hk₃])
    (by rw [hk₃]) (by rw [hk₃])
  have hclosing : ∀ {k₄ k₅ : Kernel} {r : Int}, ContentFrame (P ∪ S) k₁ k₄ → k₄.OpenRegular S fd →
      fclose fd k₄ = .ok (r, k₅) → ContentFrame P k k₅ := by
    intro k₄ k₅ r hframe hopened hclose
    exact (hframe₁.trans (hframe.mono Set.subset_union_left)).trans
      (fclose_kept ⟨hframe.guards, hmore.apart⟩ (hopened.open P) hclose)
  by_cases hzero : ptr = 0
  · rw [if_pos hzero] at hrun
    obtain ⟨_, k₄, hclose, hrun⟩ := bind_eq_ok.mp hrun
    obtain ⟨-, rfl⟩ := pure_eq_ok.mp hrun
    exact hclosing hframe₃ hregular₃ hclose
  rw [if_neg hzero] at hrun
  obtain ⟨read, k₄, hread, hrun⟩ := bind_eq_ok.mp hrun
  have hframe₄ := fread_image_kept hmore.guards hsector₁ hroom halloc hframe₃ hread
  obtain ⟨hreadonly, -⟩ := fread_spec hread
  unfold Kernel.ReadOnly at hreadonly
  have hregular₄ : k₄.OpenRegular S fd := by
    rw [hreadonly]
    exact hregular₃.congr rfl rfl rfl rfl rfl
  by_cases hshort : read ≠ 1
  · rw [if_pos hshort] at hrun
    obtain ⟨_, k₅, hfree, hrun⟩ := bind_eq_ok.mp hrun
    obtain ⟨_, k₆, hclose, hrun⟩ := bind_eq_ok.mp hrun
    obtain ⟨-, rfl⟩ := pure_eq_ok.mp hrun
    have hfreeable : k₄.heap.Freeable (P ∪ S) ptr := by
      have hheap₄ : k₄.heap = k₃.heap := by rw [hreadonly]
      rw [hheap₄]
      exact kzalloc_freeable hmore.guards (by omega) halloc
    have hframe₅ := hframe₄.trans (.of_kfree hframe₄.guards hfreeable hfree)
    have hk₅ := kfree_eq_ok.mp hfree
    exact hclosing hframe₅ (hregular₄.congr (by rw [hk₅, heapFree_startAddress])
      (by rw [hk₅, heapFree_totalEntries]) (by rw [hk₅]) (by rw [hk₅]) (by rw [hk₅])) hclose
  rw [if_neg hshort] at hrun
  obtain ⟨_, k₅, hmodify, hrun⟩ := bind_eq_ok.mp hrun
  obtain ⟨_, k₆, hclose, hrun⟩ := bind_eq_ok.mp hrun
  obtain ⟨-, rfl⟩ := pure_eq_ok.mp hrun
  obtain ⟨p, -, rfl⟩ := modifyProcess_eq_ok hmodify
  exact hclosing (hframe₄.of_put (f := putProcess process _) rfl rfl rfl)
    (hregular₄.congr rfl rfl rfl rfl rfl) hclose

theorem processLoadData_kept {filename : List UInt8} {process : Nat} {res : Int}
    (h : k.heap.Guards P) (hsector : k.disk.sectorSize = 512) (hitems : k.fatItems 0 = none)
    (hnull : k.elfFiles 0 = none) (h0 : 0 ∉ filename) (hserved : ImagesServed filename process k)
    (hrun : processLoadData filename process k = .ok (res, k')) : ContentFrame P k k' := by
  unfold processLoadData at hrun
  obtain ⟨res₁, k₁, helf, hrun⟩ := bind_eq_ok.mp hrun
  have hframe := processLoadElf_kept h hsector hitems h0 hserved helf
  by_cases hformat : res₁ = -einformat
  · rw [if_pos hformat] at hrun
    rw [hformat] at helf
    have hitems₁ : k₁.fatItems 0 = none := by
      rw [processLoadElf_items h hitems hnull h0 helf, hitems]
    exact hframe.trans (processLoadBinary_kept hframe.guards (by rw [hframe.disk, hsector]) hitems₁
      h0 (hserved.binary _ helf) hrun)
  · rw [if_neg hformat] at hrun
    obtain ⟨-, rfl⟩ := pure_eq_ok.mp hrun
    exact hframe

/-! The task. -/

theorem taskNew_kept {process task : Nat} (h : k.heap.Guards P)
    (hrun : taskNew process k = .ok (task, k')) : ContentFrame P k k' := by
  unfold taskNew at hrun
  obtain ⟨ptr, k₁, halloc, hrun⟩ := bind_eq_ok.mp hrun
  have hframe₁ := ContentFrame.of_kzalloc h (by decide) halloc
  by_cases hnull : ptr = 0
  · rw [if_pos hnull] at hrun
    exact (throw_eq_ok.mp hrun).elim
  rw [if_neg hnull] at hrun
  obtain ⟨directory, k₂, hpages, hrun⟩ := bind_eq_ok.mp hrun
  have hframe₂ := hframe₁.trans (pagingNew4gb_kept hframe₁.guards hpages)
  obtain ⟨ip, k₃, hentry, hrun⟩ := bind_eq_ok.mp hrun
  rw [taskEntry_eq_ok hentry] at hrun
  obtain ⟨_, k₄, hlink, hrun⟩ := bind_eq_ok.mp hrun
  obtain ⟨-, rfl⟩ := pure_eq_ok.mp hrun
  obtain ⟨tasks, -, hk₄⟩ := tasksRun_eq_ok hlink
  rw [hk₄]
  exact hframe₂.trans (.of_same hframe₂.guards rfl rfl rfl)

theorem pagingRun_kept {f : PageStore → Except Stop (Int × PageStore)} {res : Int}
    (h : k.heap.Guards P) (hrun : pagingRun f k = .ok (res, k')) : ContentFrame P k k' := by
  obtain ⟨s, -, rfl⟩ := pagingRun_eq_ok hrun
  exact .of_same h rfl rfl rfl

theorem processMapElf_kept {process : Nat} {res : Int} (h : k.heap.Guards P)
    (hrun : processMapElf process k = .ok (res, k')) : ContentFrame P k k' := by
  unfold processMapElf at hrun
  replace hrun := bind_get_eq_ok.mp hrun
  obtain ⟨p, -, hrun⟩ := bind_fetch_eq_ok.mp hrun
  obtain ⟨file, -, hrun⟩ := bind_fetch_eq_ok.mp hrun
  obtain ⟨t, -, hrun⟩ := bind_fetch_eq_ok.mp hrun
  exact pagingRun_kept h hrun

theorem processMapBinary_kept {process : Nat} {res : Int} (h : k.heap.Guards P)
    (hrun : processMapBinary process k = .ok (res, k')) : ContentFrame P k k' := by
  unfold processMapBinary at hrun
  replace hrun := bind_get_eq_ok.mp hrun
  obtain ⟨p, -, hrun⟩ := bind_fetch_eq_ok.mp hrun
  obtain ⟨t, -, hrun⟩ := bind_fetch_eq_ok.mp hrun
  exact pagingRun_kept h hrun

theorem processMapStack_kept {process : Nat} {res : Int} (h : k.heap.Guards P)
    (hrun : processMapStack process k = .ok (res, k')) : ContentFrame P k k' := by
  unfold processMapStack at hrun
  replace hrun := bind_get_eq_ok.mp hrun
  obtain ⟨p, -, hrun⟩ := bind_fetch_eq_ok.mp hrun
  obtain ⟨t, -, hrun⟩ := bind_fetch_eq_ok.mp hrun
  exact pagingRun_kept h hrun

theorem processMapMemory_kept {process : Nat} {res : Int} (h : k.heap.Guards P)
    (hrun : processMapMemory process k = .ok (res, k')) : ContentFrame P k k' := by
  unfold processMapMemory at hrun
  replace hrun := bind_get_eq_ok.mp hrun
  obtain ⟨p, -, hrun⟩ := bind_fetch_eq_ok.mp hrun
  have hthen {k₁ : Kernel} {res₁ : Int} (hframe : ContentFrame P k k₁)
      (hrest : (if res₁ < 0 then pure res₁ else processMapStack process : KernelM Int) k₁ =
        .ok (res, k')) : ContentFrame P k k' := by
    split_ifs at hrest
    · obtain ⟨-, rfl⟩ := pure_eq_ok.mp hrest
      exact hframe
    · exact hframe.trans (processMapStack_kept hframe.guards hrest)
  split_ifs at hrun
  · obtain ⟨res₁, k₁, hmap, hrun⟩ := bind_eq_ok.mp hrun
    exact hthen (processMapElf_kept h hmap) hrun
  · obtain ⟨res₁, k₁, hmap, hrun⟩ := bind_eq_ok.mp hrun
    exact hthen (processMapBinary_kept h hmap) hrun
  · exact (throw_eq_ok.mp hrun).elim

/-! The load. -/

def LoadServed (filename : List UInt8) (k : Kernel) : Prop :=
  ∀ process k', kzallocObject sizeofProcess (fun ptr => putProcess ptr processInit) k =
    .ok (process, k') → ImagesServed filename process k'

theorem processLoadFailed_status {process : Nat} {res : Int} {r : Int × Nat}
    (hrun : processLoadFailed process res k = .ok (r, k')) : r.1 = res := by
  unfold processLoadFailed at hrun
  replace hrun := bind_get_eq_ok.mp hrun
  obtain ⟨p, -, hrun⟩ := bind_fetch_eq_ok.mp hrun
  split_ifs at hrun
  · obtain ⟨_, k₁, -, hrun⟩ := bind_eq_ok.mp hrun
    rw [← (pure_eq_ok.mp hrun).1]
  · rw [← (pure_eq_ok.mp hrun).1]

theorem processLoadForSlot_kept {filename : List UInt8} {slot : Nat} {r : Int × Nat}
    (h : k.heap.Guards P) (hsector : k.disk.sectorSize = 512) (hnull : k.NullFree)
    (h0 : 0 ∉ filename) (hserved : LoadServed filename k)
    (hrun : KernelM.processLoadForSlot filename slot k = .ok (r, k')) (hok : 0 ≤ r.1) :
    ContentFrame P k k' := by
  unfold KernelM.processLoadForSlot at hrun
  replace hrun := bind_get_eq_ok.mp hrun
  by_cases htaken : processGet k.scheduler slot ≠ 0
  · rw [if_pos htaken] at hrun
    exact (throw_eq_ok.mp hrun).elim
  rw [if_neg htaken] at hrun
  obtain ⟨process, k₁, hobject, hrun⟩ := bind_eq_ok.mp hrun
  obtain ⟨k₀, halloc, hk₁⟩ := kzallocObject_eq_ok hobject
  by_cases hnone : process = 0
  · rw [if_pos hnone] at hrun
    obtain ⟨rfl, -⟩ := pure_eq_ok.mp hrun
    exact absurd hok (by decide)
  rw [if_neg hnone] at hrun hk₁
  have hframe₀ := ContentFrame.of_kzalloc h (by decide) halloc
  have hframe₁ : ContentFrame P k k₁ := by
    rw [hk₁]
    exact hframe₀.of_put rfl rfl rfl
  have hstart := Loading.start h hobject hnone
  have hnull₁ := hnull.frame hstart.frame
  obtain ⟨res, k₂, hdata, hrun⟩ := bind_eq_ok.mp hrun
  have hframe₂ := hframe₁.trans (processLoadData_kept hframe₁.guards (by rw [hframe₁.disk, hsector])
    hnull₁.items hnull₁.elfFiles h0 (hserved _ _ hobject) hdata)
  by_cases hneg : res < 0
  · rw [if_pos hneg] at hrun
    rw [processLoadFailed_status hrun] at hok
    omega
  rw [if_neg hneg] at hrun
  obtain ⟨stack, k₃, hstack, hrun⟩ := bind_eq_ok.mp hrun
  have hframe₃ := hframe₂.trans (.of_kzalloc hframe₂.guards (by decide) hstack)
  by_cases hnoStack : stack = 0
  · rw [if_pos hnoStack] at hrun
    rw [processLoadFailed_status hrun] at hok
    exact absurd hok (by decide)
  rw [if_neg hnoStack] at hrun
  obtain ⟨_, k₄, hfields, hrun⟩ := bind_eq_ok.mp hrun
  have hframe₄ := hframe₃.trans (modifyProcess_kept hframe₃.guards hfields)
  obtain ⟨task, k₅, hnew, hrun⟩ := bind_eq_ok.mp hrun
  have hframe₅ := hframe₄.trans (taskNew_kept hframe₄.guards hnew)
  obtain ⟨_, k₆, hset, hrun⟩ := bind_eq_ok.mp hrun
  have hframe₆ := hframe₅.trans (modifyProcess_kept hframe₅.guards hset)
  obtain ⟨res₇, k₇, hmap, hrun⟩ := bind_eq_ok.mp hrun
  have hframe₇ := hframe₆.trans (processMapMemory_kept hframe₆.guards hmap)
  by_cases hunmapped : res₇ < 0
  · rw [if_pos hunmapped] at hrun
    rw [processLoadFailed_status hrun] at hok
    omega
  · rw [if_neg hunmapped] at hrun
    obtain ⟨_, k₈, henter, hrun⟩ := bind_eq_ok.mp hrun
    obtain ⟨-, rfl⟩ := pure_eq_ok.mp hrun
    rw [← modify_eq_ok.mp henter]
    exact hframe₇.trans (.of_same hframe₇.guards rfl rfl rfl)

theorem processLoadSwitch_kept {filename : List UInt8} {r : Int × Nat} (h : k.heap.Guards P)
    (hsector : k.disk.sectorSize = 512) (hnull : k.NullFree) (h0 : 0 ∉ filename)
    (hserved : LoadServed filename k)
    (hrun : KernelM.processLoadSwitch filename k = .ok (r, k')) (hok : 0 ≤ r.1) :
    ContentFrame P k k' := by
  unfold KernelM.processLoadSwitch at hrun
  obtain ⟨⟨res, process⟩, k₁, hload, hrun⟩ := bind_eq_ok.mp hrun
  have hframe : 0 ≤ res → ContentFrame P k k₁ := by
    intro hres
    rcases processLoad_eq_ok hload with ⟨-, hneg, -⟩ | ⟨-, slot, -, -, -, hload⟩
    · dsimp only at hneg
      omega
    · exact processLoadForSlot_kept h hsector hnull h0 hserved hload hres
  dsimp only at hrun
  split_ifs at hrun with hzero
  · obtain ⟨_, k₂, hswitch, hrun⟩ := bind_eq_ok.mp hrun
    obtain ⟨-, rfl⟩ := pure_eq_ok.mp hrun
    rw [← modify_eq_ok.mp hswitch]
    have hframe' := hframe (by omega)
    exact hframe'.trans (.of_same hframe'.guards rfl rfl rfl)
  · obtain ⟨rfl, rfl⟩ := pure_eq_ok.mp hrun
    exact hframe hok

end BoiOS
