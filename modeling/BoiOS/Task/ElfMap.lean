import BoiOS.Loader.ElfLoad
import BoiOS.Memory.PagingSpec
import BoiOS.Task.ProcessMap

/-! What `process_map_elf` enters into a page directory: for each header of any type the pages
that its rounded range covers, up to the first header whose range is refused. -/
namespace BoiOS
open Library.StateRun

theorem elfFilePhdrs_pVaddr_lt {m : Memory} {file : ElfFile} :
    ∀ phdr ∈ elfFilePhdrs m file, phdr.pVaddr < 4294967296 := by
  intro phdr hphdr
  obtain ⟨i, _, rfl⟩ := List.mem_map.mp hphdr
  exact m.load32_lt _

theorem elfPageFlags_lt (phdr : Elf32Phdr) : elfPageFlags phdr < 4096 := by
  unfold elfPageFlags
  split_ifs <;> decide

theorem elfPagesEnd_lt (file : ElfFile) (phdr : Elf32Phdr) : elfPagesEnd file phdr < 4294967296 :=
  pagingAlignAddress_lt (u32_lt _)

def InsideImage (base size start stop : Nat) : Prop :=
  base ≤ start ∧ stop ≤ base + (size + 4095) / 4096 * 4096

/-- Up to the first header whose range ends before it starts, where the mapping stops with an
error, every header's page range is empty or lies in the blocks of the image. -/
def ElfHeadersInside (file : ElfFile) (size : Nat) : List Elf32Phdr → Prop
  | [] => True
  | phdr :: rest =>
      elfPagesEnd file phdr < elfPagesStart file phdr ∨
        ((elfPagesStart file phdr = elfPagesEnd file phdr ∨
          InsideImage file.elfMemory size (elfPagesStart file phdr) (elfPagesEnd file phdr)) ∧
          ElfHeadersInside file size rest)

def EntryInside (base size : Nat) (e : Nat × Nat) : Prop :=
  InsideImage base size (pagingFrame e.2) (pagingFrame e.2 + 4096)

theorem elfPages_inside_iff (file : ElfFile) {phdr : Elf32Phdr} (hvaddr : phdr.pVaddr < 4294967296)
    (size : Nat) (hle : elfPagesStart file phdr ≤ elfPagesEnd file phdr) :
    (∀ e ∈ rangeEntries (pagingAlignToLowerPage phdr.pVaddr) (elfPagesStart file phdr)
        (elfPageFlags phdr) ((elfPagesEnd file phdr - elfPagesStart file phdr) / 4096),
      EntryInside file.elfMemory size e) ↔
      (elfPagesStart file phdr = elfPagesEnd file phdr ∨
        InsideImage file.elfMemory size (elfPagesStart file phdr) (elfPagesEnd file phdr)) := by
  have hstart : elfPagesStart file phdr % 4096 = 0 := pagingAlignToLowerPage_aligned _
  have hend : elfPagesEnd file phdr % 4096 = 0 := pagingAlignAddress_aligned _
  have hlt := elfPagesEnd_lt file phdr
  have hmem := mem_rangeEntries (elfPageFlags phdr)
    ((elfPagesEnd file phdr - elfPagesStart file phdr) / 4096)
    (pagingAlignToLowerPage_lt hvaddr) (lt_of_le_of_lt hle hlt)
  generalize elfPagesStart file phdr = start at *
  generalize elfPagesEnd file phdr = stop at *
  have hframe : ∀ i < (stop - start) / 4096,
      pagingFrame (u32 ((start : Int) + 4096 * i) ||| elfPageFlags phdr) = start + 4096 * i := by
    intro i hi
    have hwrap : u32 ((start : Int) + 4096 * i) = start + 4096 * i := by
      unfold u32
      omega
    rw [hwrap]
    exact pagingFrame_or (by omega) (elfPageFlags_lt phdr)
  unfold EntryInside InsideImage
  constructor
  · intro h
    by_cases hempty : start = stop
    · exact Or.inl hempty
    · refine Or.inr ?_
      have hpages : 0 < (stop - start) / 4096 := by omega
      have hfirst := h _ ((hmem _).mpr ⟨0, hpages, rfl⟩)
      have hlast := h _ ((hmem _).mpr ⟨(stop - start) / 4096 - 1, by omega, rfl⟩)
      rw [hframe 0 hpages] at hfirst
      rw [hframe _ (by omega)] at hlast
      omega
  · rintro hinside e he
    obtain ⟨i, hi, rfl⟩ := (hmem e).mp he
    rw [hframe i hi]
    omega

theorem processMapElfLoop_inside_iff {chunk : Nat} {file : ElfFile} (size : Nat)
    {phdrs : List Elf32Phdr} {res res' : Int} {s s' : PageStore}
    (hvaddr : ∀ phdr ∈ phdrs, phdr.pVaddr < 4294967296)
    (h : processMapElfLoop chunk file phdrs res s = .ok (res', s')) :
    ∃ new, s'.entered = new ++ s.entered ∧
      ((∀ e ∈ new, EntryInside file.elfMemory size e) ↔ ElfHeadersInside file size phdrs) := by
  induction phdrs generalizing res s with
  | nil =>
    simp only [processMapElfLoop, Except.ok.injEq, Prod.mk.injEq] at h
    obtain ⟨_, rfl⟩ := h
    exact ⟨[], rfl, by simp [ElfHeadersInside]⟩
  | cons phdr rest ih =>
    unfold processMapElfLoop at h
    cases hmap : processMapElfPhdr chunk file phdr s with
    | error stop => simp [hmap, Except.bind] at h
    | ok r =>
      obtain ⟨r, s₁⟩ := r
      simp only [hmap, Except.bind] at h
      have hentered := pagingMapTo_entered (pagingAlignToLowerPage_aligned _)
        (pagingAlignToLowerPage_aligned _) (pagingAlignAddress_aligned _) hmap
      rcases hentered with ⟨hlt, rfl, rfl⟩ | ⟨hle, rfl, hentered⟩
      · rw [if_pos (by decide)] at h
        simp only [Except.ok.injEq, Prod.mk.injEq] at h
        obtain ⟨_, rfl⟩ := h
        refine ⟨[], rfl, ?_⟩
        unfold ElfHeadersInside
        simp [show elfPagesEnd file phdr < elfPagesStart file phdr from hlt]
      · rw [if_neg (by decide)] at h
        obtain ⟨new, hnew, hiff⟩ := ih (fun p hp => hvaddr p (List.mem_cons_of_mem _ hp)) h
        refine ⟨_, by rw [hnew, hentered, ← List.append_assoc], ?_⟩
        have hfirst := elfPages_inside_iff file (hvaddr phdr (List.mem_cons_self ..)) size hle
        have hnot : ¬ elfPagesEnd file phdr < elfPagesStart file phdr := Nat.not_lt.mpr hle
        unfold ElfHeadersInside
        rw [← hfirst, ← hiff]
        simp only [List.mem_append, List.mem_reverse, hnot, false_or]
        constructor
        · intro hall
          exact ⟨fun e he => hall e (Or.inr he), fun e he => hall e (Or.inl he)⟩
        · rintro ⟨hold, hrest⟩ e (he | he)
          · exact hrest e he
          · exact hold e he

theorem processMapElf_eq_ok {process : Nat} {res : Int} {k k' : Kernel}
    (h : processMapElf process k = .ok (res, k')) :
    ∃ p file task, k.scheduler.store process = some p ∧ k.elfFiles p.ptr = some file ∧
      k.scheduler.tasks.store p.task = some task ∧
      processMapElfLoop task.pageDirectory file (elfFilePhdrs k.memory file) 0 k.pages =
        .ok (res, k'.pages) ∧ k' = { k with pages := k'.pages } := by
  unfold processMapElf at h
  replace h := bind_get_eq_ok.mp h
  obtain ⟨p, hp, h⟩ := bind_fetch_eq_ok.mp h
  obtain ⟨file, hfile, h⟩ := bind_fetch_eq_ok.mp h
  obtain ⟨task, htask, h⟩ := bind_fetch_eq_ok.mp h
  refine ⟨p, file, task, hp, hfile, htask, ?_⟩
  obtain ⟨pages, hloop, rfl⟩ := pagingRun_eq_ok h
  exact ⟨hloop, rfl⟩

def newEntries (before after : PageStore) : List (Nat × Nat) :=
  after.entered.take (after.entered.length - before.entered.length)

/-- Every physical page that `process_map_elf` enters for a file that `elf_load` accepted lies in
the blocks of its image exactly if every program header's range is empty or does. -/
theorem process_map_elf_inside_iff {file filename : List UInt8} {k k₁ k₂ k₃ : Kernel}
    {elfFile process : Nat} {res : Int} {p : Process}
    (hload : elfLoad (fileServing file) filename k = .ok ((0, elfFile), k₁))
    (hp : k₂.scheduler.store process = some p) (hptr : p.ptr = elfFile)
    (hkept : k₂.elfFiles elfFile = k₁.elfFiles elfFile)
    (hmap : processMapElf process k₂ = .ok (res, k₃)) :
    ∃ f, k₂.elfFiles elfFile = some f ∧ f.elfMemory = elfBase k file ∧
      ((∀ e ∈ newEntries k₂.pages k₃.pages, EntryInside (elfBase k file) file.length e) ↔
        ElfHeadersInside f file.length (elfFilePhdrs k₂.memory f)) := by
  rcases elfLoad_serving hload with ⟨_, hres⟩ | ⟨_, _, hloaded⟩
  · exact absurd hres (by decide)
  · obtain ⟨_, f, hf, hbase⟩ := hloaded rfl
    obtain ⟨p', f', task, hp', hf', _, hloop, _⟩ := processMapElf_eq_ok hmap
    obtain rfl := Option.some.inj (hp.symm.trans hp')
    rw [hptr, hkept, hf] at hf'
    obtain rfl := Option.some.inj hf'
    refine ⟨f, hkept.trans hf, hbase, ?_⟩
    obtain ⟨new, hnew, hiff⟩ := processMapElfLoop_inside_iff file.length elfFilePhdrs_pVaddr_lt hloop
    have hnewEntries : newEntries k₂.pages k₃.pages = new := by
      unfold newEntries
      rw [hnew, List.length_append, Nat.add_sub_cancel, List.take_left]
    rw [hnewEntries, ← hbase]
    exact hiff

/-! An executable of 84 bytes whose one segment claims two pages of memory. -/

def twoPageFile : List UInt8 :=
  [127, 69, 76, 70, 1, 1, 1, 0, 0, 0, 0, 0, 0, 0, 0, 0, 2, 0, 3, 0, 1, 0, 0, 0, 0, 0, 64, 0, 52,
    0, 0, 0, 0, 0, 0, 0, 0, 0, 0, 0, 52, 0, 32, 0, 1, 0, 40, 0, 0, 0, 0, 0, 1, 0, 0, 0, 0, 0, 0,
    0, 0, 0, 64, 0, 0, 0, 0, 0, 84, 0, 0, 0, 0, 32, 0, 0, 6, 0, 0, 0, 0, 16, 0, 0]

def programState (elfFile : Nat) (k : Kernel) : Kernel :=
  { k with
    scheduler := { k.scheduler with
      store := fun _ => some { processInit with ptr := elfFile, task := 0x1003000, stack := 0x1008000 }
      tasks := { k.scheduler.tasks with
        store := fun _ => some (taskInit 0x1004000 0x1005000 boiosProgramVirtualAddress) } }
    pages :=
      { chunks := fun _ => some 0x1006000
        arrays := fun a => some fun i => if a = 0x1006000 then 0x2000000 + 4096 * i else 0
        entered := [] } }

def loadAndMap {α : Type} (file : List UInt8) (map : KernelM Int) (observe : Kernel → Kernel → α) :
    KernelM ((Int × Nat) × Int × α) := do
  let loaded ← elfLoad (fileServing file) []
  modify (programState loaded.2)
  let before ← get
  let res ← map
  let after ← get
  pure (loaded, res, observe before after)

theorem loadAndMap_eq_ok {α : Type} {file : List UInt8} {map : KernelM Int}
    {observe : Kernel → Kernel → α} {k k' : Kernel} {loaded : Int × Nat} {res : Int} {seen : α}
    (h : loadAndMap file map observe k = .ok ((loaded, res, seen), k')) :
    ∃ k₁, elfLoad (fileServing file) [] k = .ok (loaded, k₁) ∧
      map (programState loaded.2 k₁) = .ok (res, k') ∧
      observe (programState loaded.2 k₁) k' = seen := by
  unfold loadAndMap at h
  obtain ⟨r, k₁, hload, h⟩ := bind_eq_ok.mp h
  obtain ⟨_, k₂, hmodify, h⟩ := bind_eq_ok.mp h
  obtain ⟨before, _, hget, h⟩ := bind_eq_ok.mp h
  obtain ⟨hbefore, rfl⟩ := get_eq_ok.mp hget
  obtain ⟨res', k₃, hmap, h⟩ := bind_eq_ok.mp h
  obtain ⟨after, _, hget, h⟩ := bind_eq_ok.mp h
  obtain ⟨hafter, rfl⟩ := get_eq_ok.mp hget
  obtain ⟨heq, rfl⟩ := pure_eq_ok.mp h
  simp only [Prod.mk.injEq] at heq
  obtain ⟨rfl, rfl, rfl⟩ := heq
  rw [← modify_eq_ok.mp hmodify] at hmap hbefore
  exact ⟨k₁, hload, hmap, by rw [hbefore, hafter]⟩

theorem loadAndMap_twoPageFile : value? (loadAndMap twoPageFile (processMapElf 0)
      (fun _ after => after.pages.entered) (emptyKernel 8)) =
    some ((0, 0x1000000), 0, [(0x401000, 0x1002007), (0x400000, 0x1001007)]) := by
  decide +kernel

theorem process_map_elf_inside_twoPage : ∃ k₁ k₃ : Kernel, ∃ f,
    (programState 0x1000000 k₁).elfFiles 0x1000000 = some f ∧
      ((∀ e ∈ newEntries (programState 0x1000000 k₁).pages k₃.pages,
          EntryInside (elfBase (emptyKernel 8) twoPageFile) twoPageFile.length e) ↔
        ElfHeadersInside f twoPageFile.length
          (elfFilePhdrs (programState 0x1000000 k₁).memory f)) := by
  obtain ⟨k₃, h⟩ := exists_of_value? loadAndMap_twoPageFile
  obtain ⟨k₁, hload, hmap, _⟩ := loadAndMap_eq_ok h
  have hkept : (programState 0x1000000 k₁).elfFiles 0x1000000 = k₁.elfFiles 0x1000000 := rfl
  obtain ⟨f, hf, _, hiff⟩ := process_map_elf_inside_iff hload rfl rfl hkept hmap
  exact ⟨k₁, k₃, f, hf, hiff⟩

theorem process_map_elf_not_always_inside : ¬ ∀ (file filename : List UInt8) (k k₁ k₂ k₃ : Kernel)
    (elfFile process : Nat) (res : Int) (p : Process),
    elfLoad (fileServing file) filename k = .ok ((0, elfFile), k₁) →
    k₂.scheduler.store process = some p → p.ptr = elfFile →
    k₂.elfFiles elfFile = k₁.elfFiles elfFile → processMapElf process k₂ = .ok (res, k₃) →
    ∀ e ∈ newEntries k₂.pages k₃.pages, EntryInside (elfBase k file) file.length e := by
  intro hall
  obtain ⟨k₃, h⟩ := exists_of_value? loadAndMap_twoPageFile
  obtain ⟨k₁, hload, hmap, hentered⟩ := loadAndMap_eq_ok h
  have hkept : (programState 0x1000000 k₁).elfFiles 0x1000000 = k₁.elfFiles 0x1000000 := rfl
  have hinside := hall _ _ _ _ _ _ _ _ _ _ hload rfl rfl hkept hmap
  unfold newEntries at hinside
  rw [hentered] at hinside
  have hsecond := hinside (0x401000, 0x1002007) (List.mem_cons_self ..)
  have hbase : elfBase (emptyKernel 8) twoPageFile = 0x1001000 := by
    decide +kernel
  unfold EntryInside InsideImage at hsecond
  rw [hbase] at hsecond
  exact absurd hsecond (by decide +kernel)

end BoiOS
