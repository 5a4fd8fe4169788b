import BoiOS.Memory.HeapSpec
import BoiOS.Task.ElfMap
import Mathlib.Data.List.Pairwise

/-! What a program sees through its page directory after `process_map_memory`: the page directory
holds, for every page, the entry of the last program header that covers it. -/
namespace BoiOS
open Library.StateRun

def elfCovers (file : ElfFile) (page : Nat) (phdr : Elf32Phdr) : Bool :=
  decide (u32 ((page : Int) - pagingAlignToLowerPage phdr.pVaddr) <
    elfPagesEnd file phdr - elfPagesStart file phdr)

def elfFrame (file : ElfFile) (phdr : Elf32Phdr) (page : Nat) : Nat :=
  elfPagesStart file phdr + u32 ((page : Int) - pagingAlignToLowerPage phdr.pVaddr)

/-- The last header in file order, of whatever type, that covers the page. -/
def elfLastCover (file : ElfFile) (page : Nat) (phdrs : List Elf32Phdr) : Option Elf32Phdr :=
  phdrs.reverse.find? (elfCovers file page)

theorem processMapElfLoop_get {s s' : PageStore} {directory chunk : Nat} {tables : Nat → Nat}
    {file : ElfFile} {phdrs : List Elf32Phdr} {res res' : Int}
    (hdir : IsDirectory s directory tables) (hchunk : s.chunks chunk = some directory)
    (hvaddr : ∀ phdr ∈ phdrs, phdr.pVaddr < 4294967296)
    (h : processMapElfLoop chunk file phdrs res s = .ok (res', s')) (hres : 0 ≤ res') :
    (∀ phdr ∈ phdrs, elfPagesStart file phdr ≤ elfPagesEnd file phdr) ∧
      IsDirectory s' directory tables ∧ s'.chunks chunk = some directory ∧
      ∀ page < 4294967296, page % 4096 = 0 → pagingGet s' directory page =
        match elfLastCover file page phdrs with
        | some phdr => .ok (elfFrame file phdr page ||| elfPageFlags phdr)
        | none => pagingGet s directory page := by
  induction phdrs generalizing res s with
  | nil =>
    simp only [processMapElfLoop, Except.ok.injEq, Prod.mk.injEq] at h
    obtain ⟨_, rfl⟩ := h
    exact ⟨fun _ hmem => absurd hmem List.not_mem_nil, hdir, hchunk, fun _ _ _ => rfl⟩
  | cons phdr rest ih =>
    have hlower := pagingAlignToLowerPage_aligned phdr.pVaddr
    have hlowerlt := pagingAlignToLowerPage_lt (hvaddr phdr (List.mem_cons_self ..))
    have hstart : elfPagesStart file phdr % 4096 = 0 := pagingAlignToLowerPage_aligned _
    have hstop : elfPagesEnd file phdr % 4096 = 0 := pagingAlignAddress_aligned _
    have hstoplt := elfPagesEnd_lt file phdr
    unfold processMapElfLoop at h
    by_cases hle : elfPagesStart file phdr ≤ elfPagesEnd file phdr
    · obtain ⟨s₁, hmap, hdir₁, hchunks₁, _, hget₁⟩ := pagingMapTo_get hdir hchunk
        (elfPageFlags phdr) hlower hlowerlt hstart hstop hstoplt hle
      have hphdr : processMapElfPhdr chunk file phdr s = .ok (0, s₁) := hmap
      simp only [hphdr, Except.bind, lt_irrefl, ↓reduceIte] at h
      obtain ⟨hles, hdir', hchunk', hget⟩ := ih hdir₁ (by rw [hchunks₁]; exact hchunk)
        (fun p hp => hvaddr p (List.mem_cons_of_mem _ hp)) h
      refine ⟨?_, hdir', hchunk', fun page hpage haligned => ?_⟩
      · intro p hp
        rcases List.mem_cons.mp hp with rfl | hp
        · exact hle
        · exact hles p hp
      · rw [hget page hpage haligned]
        unfold elfLastCover
        rw [List.reverse_cons, List.find?_append]
        cases hlast : rest.reverse.find? (elfCovers file page) with
        | some q => rfl
        | none =>
          rw [Option.none_or, hget₁ page hpage haligned]
          by_cases hcovers : u32 ((page : Int) - pagingAlignToLowerPage phdr.pVaddr) <
              elfPagesEnd file phdr - elfPagesStart file phdr
          · have htrue : elfCovers file page phdr = true := decide_eq_true hcovers
            simp only [List.find?_cons, htrue, if_pos hcovers]
            rfl
          · have hfalse : elfCovers file page phdr = false := decide_eq_false hcovers
            simp only [List.find?_cons, hfalse, List.find?_nil, if_neg hcovers]
    · -- the mapping is refused, and the loop ends with an error
      have hphdr : processMapElfPhdr chunk file phdr s = .ok (-einvarg, s) := by
        unfold processMapElfPhdr pagingMapTo pagingPageSize
        rw [if_neg (by simp [hlower, hstart, hstop]), if_pos (by omega)]
      simp only [hphdr, Except.bind] at h
      rw [if_pos (by decide)] at h
      simp only [Except.ok.injEq, Prod.mk.injEq] at h
      rw [← h.1] at hres
      exact absurd hres (by decide)

theorem processMapStack_get {s s' : PageStore} {directory chunk stack : Nat} {tables : Nat → Nat}
    {res : Int} (hdir : IsDirectory s directory tables)
    (hchunk : s.chunks chunk = some directory)
    (h : pagingMapTo s chunk boiosProgramVirtualStackAddressEnd stack
      (pagingAlignAddress (u32 ((stack : Int) + boiosUserProgramStackSize)))
      (userPage ||| pagingIsWritable) = .ok (res, s')) (hres : 0 ≤ res) :
    ∀ page < 4294967296, page % 4096 = 0 → (page < 0x3FB000 ∨ 0x3FF000 ≤ page) →
      pagingGet s' directory page = pagingGet s directory page := by
  have hrefused : ∀ r : Except Stop (Int × PageStore), r = .ok (-einvarg, s) →
      r = .ok (res, s') → False := by
    intro r hr hr'
    rw [hr, Except.ok.injEq, Prod.mk.injEq] at hr'
    rw [← hr'.1] at hres
    exact absurd hres (by decide)
  have haligned := pagingAlignAddress_aligned (u32 ((stack : Int) + boiosUserProgramStackSize))
  have hlt := pagingAlignAddress_lt (u32_lt ((stack : Int) + boiosUserProgramStackSize))
  by_cases hstack : stack % 4096 = 0
  · have hround : pagingAlignAddress (u32 ((stack : Int) + boiosUserProgramStackSize)) =
        u32 ((stack : Int) + 16384) := by
      unfold pagingAlignAddress pagingPageSize boiosUserProgramStackSize
      rw [if_neg]
      · rfl
      · unfold u32
        omega
    rw [hround] at h haligned hlt
    by_cases hle : stack ≤ u32 ((stack : Int) + 16384)
    · obtain ⟨s₁, hmap, _, _, _, hget⟩ := pagingMapTo_get hdir hchunk
        (userPage ||| pagingIsWritable) (by decide : boiosProgramVirtualStackAddressEnd % 4096 = 0)
        (by decide) hstack haligned hlt hle
      rw [hmap, Except.ok.injEq, Prod.mk.injEq] at h
      obtain ⟨_, rfl⟩ := h
      intro page hpage hpagealigned houtside
      rw [hget page hpage hpagealigned, if_neg]
      have hend : (boiosProgramVirtualStackAddressEnd : Int) = 0x3FB000 := by decide
      rw [hend]
      unfold u32
      omega
    · refine (hrefused _ ?_ h).elim
      unfold pagingMapTo pagingPageSize
      rw [if_neg (by simp [hstack, haligned, show boiosProgramVirtualStackAddressEnd % 4096 = 0 by decide]),
        if_pos (by omega)]
  · refine (hrefused _ ?_ h).elim
    unfold pagingMapTo pagingPageSize
    rw [if_pos (Or.inr (Or.inl hstack))]

theorem processMapMemory_eq_ok {process : Nat} {res : Int} {k k' : Kernel} {p : Process}
    (hp : k.scheduler.store process = some p) (htype : p.filetype = processFileTypeElf)
    (h : processMapMemory process k = .ok (res, k')) (hres : 0 ≤ res) :
    ∃ file task res₁ s₁, k.elfFiles p.ptr = some file ∧
      k.scheduler.tasks.store p.task = some task ∧ 0 ≤ res₁ ∧
      processMapElfLoop task.pageDirectory file (elfFilePhdrs k.memory file) 0 k.pages =
        .ok (res₁, s₁) ∧
      pagingMapTo s₁ task.pageDirectory boiosProgramVirtualStackAddressEnd p.stack
        (pagingAlignAddress (u32 ((p.stack : Int) + boiosUserProgramStackSize)))
        (userPage ||| pagingIsWritable) = .ok (res, k'.pages) ∧ k'.memory = k.memory := by
  unfold processMapMemory at h
  replace h := bind_get_eq_ok.mp h
  obtain ⟨p', hp', h⟩ := bind_fetch_eq_ok.mp h
  rw [hp, Option.some.injEq] at hp'
  obtain rfl := hp'
  rw [if_pos htype] at h
  obtain ⟨res₁, k₁, hmap, h⟩ := bind_eq_ok.mp h
  obtain ⟨p', file, task, hp', hfile, htask, hloop, hk₁⟩ := processMapElf_eq_ok hmap
  rw [hp, Option.some.injEq] at hp'
  obtain rfl := hp'
  split_ifs at h with hneg
  · obtain ⟨rfl, _⟩ := pure_eq_ok.mp h
    omega
  · refine ⟨file, task, res₁, k₁.pages, hfile, htask, by omega, hloop, ?_⟩
    unfold processMapStack at h
    replace h := bind_get_eq_ok.mp h
    obtain ⟨p', hp', h⟩ := bind_fetch_eq_ok.mp h
    obtain ⟨task', htask', h⟩ := bind_fetch_eq_ok.mp h
    have hsched : k₁.scheduler = k.scheduler := by rw [hk₁]
    have hmemory : k₁.memory = k.memory := by rw [hk₁]
    rw [hsched, hp, Option.some.injEq] at hp'
    obtain rfl := hp'
    rw [hsched, htask, Option.some.injEq] at htask'
    obtain rfl := htask'
    obtain ⟨pages, hstack, rfl⟩ := pagingRun_eq_ok h
    exact ⟨hstack, hmemory⟩

/-! The segments. -/

def Elf32Phdr.OnPage (phdr : Elf32Phdr) (page : Nat) : Prop :=
  u32 ((page : Int) - pagingAlignToLowerPage phdr.pVaddr) <
    (phdr.pVaddr % 4096 + phdr.pMemsz + 4095) / 4096 * 4096

def Elf32Phdr.Apart (a b : Elf32Phdr) : Prop :=
  ∀ page < 4294967296, page % 4096 = 0 → ¬ (a.OnPage page ∧ b.OnPage page)

instance : Std.Symm Elf32Phdr.Apart where
  symm _ _ h page hpage haligned hboth := h page hpage haligned hboth.symm

/-- The loadable segments lie inside the file, are congruent to their addresses, share no page and
leave the pages of the stack alone. -/
structure ElfSegments (file : List UInt8) (phdrs : List Elf32Phdr) : Prop where
  inside : ∀ phdr ∈ phdrs, phdr.pType = ptLoad →
    0 ≤ phdr.pOffset ∧ phdr.pOffset + phdr.pFilesz ≤ file.length
  congruent : ∀ phdr ∈ phdrs, phdr.pType = ptLoad → phdr.pOffset % 4096 = (phdr.pVaddr : Int) % 4096
  disjoint : (phdrs.filter fun phdr => phdr.pType = ptLoad).Pairwise Elf32Phdr.Apart
  offStack : ∀ phdr ∈ phdrs, phdr.pType = ptLoad →
    ∀ page, 0x3FB000 ≤ page → page < 0x3FF000 → page % 4096 = 0 → ¬ phdr.OnPage page

/-- Byte `i` of a segment as the file has it, or zero past its end. -/
def elfByteExpected (file : List UInt8) (phdr : Elf32Phdr) (i : Nat) : UInt8 :=
  if i < phdr.pFilesz then file.getD (phdr.pOffset.toNat + i) 0 else 0

/-- Read through the page directory, byte `i` of the segment is the expected one, on a page that
the program may write exactly if the segment has `PF_W`. -/
def ElfByteLoaded (k : Kernel) (directory : Nat) (file : List UInt8) (phdr : Elf32Phdr)
    (i : Nat) : Prop :=
  let va := u32 ((phdr.pVaddr : Int) + i)
  ∃ entry pa, pagingGet k.pages directory (pagingAlignToLowerPage va) = .ok entry ∧
    pagingGetPhysicalAddress k.pages directory va = .ok pa ∧
    k.memory pa = elfByteExpected file phdr i ∧
    (entry &&& 7 = 7 ↔ phdr.pFlags &&& pfW ≠ 0)

/-- The last header that covers the page of byte `i` has the same `PF_W` and a frame with the
expected byte at its place. -/
def ElfLastHeaderAgrees (m : Memory) (f : ElfFile) (file : List UInt8) (phdrs : List Elf32Phdr)
    (phdr : Elf32Phdr) (i : Nat) : Prop :=
  let va := u32 ((phdr.pVaddr : Int) + i)
  ∃ last, elfLastCover f (pagingAlignToLowerPage va) phdrs = some last ∧
    m (elfFrame f last (pagingAlignToLowerPage va) + va % 4096) = elfByteExpected file phdr i ∧
    (last.pFlags &&& pfW ≠ 0 ↔ phdr.pFlags &&& pfW ≠ 0)

theorem elfCovers_iff_onPage {f : ElfFile} {phdr : Elf32Phdr} (hbase : f.elfMemory % 4096 = 0)
    (hcongruent : phdr.pOffset % 4096 = (phdr.pVaddr : Int) % 4096)
    (hstack : ∀ page, 0x3FB000 ≤ page → page < 0x3FF000 → page % 4096 = 0 → ¬ phdr.OnPage page)
    (hle : elfPagesStart f phdr ≤ elfPagesEnd f phdr) (page : Nat) :
    elfCovers f page phdr = true ↔ phdr.OnPage page := by
  have hlow := hstack 0x3FB000 (by omega) (by omega) (by omega)
  have hhigh := hstack 0x3FE000 (by omega) (by omega) (by omega)
  have hphys : elfPhdrPhysAddress f phdr % 4096 = phdr.pVaddr % 4096 := by
    unfold elfPhdrPhysAddress u32
    omega
  have hphyslt : elfPhdrPhysAddress f phdr < 4294967296 := u32_lt _
  have hsize : elfPagesEnd f phdr - elfPagesStart f phdr =
      (phdr.pVaddr % 4096 + phdr.pMemsz + 4095) / 4096 * 4096 := by
    unfold Elf32Phdr.OnPage pagingAlignToLowerPage pagingPageSize at hlow hhigh
    have hsmall : (phdr.pVaddr % 4096 + phdr.pMemsz + 4095) / 4096 * 4096 ≤ 4294950912 := by
      unfold u32 at hlow hhigh
      omega
    unfold elfPagesStart elfPagesEnd pagingAlignToLowerPage pagingAlignAddress pagingPageSize at hle ⊢
    generalize elfPhdrPhysAddress f phdr = phys at *
    unfold u32 at hle ⊢
    split_ifs at hle ⊢ <;> omega
  unfold elfCovers Elf32Phdr.OnPage
  rw [decide_eq_true_iff, hsize]

theorem elfPageFlags_and (p : Nat) (hp : p % 4096 = 0) (phdr : Elf32Phdr) :
    (p ||| elfPageFlags phdr) &&& 7 = 7 ↔ phdr.pFlags &&& pfW ≠ 0 := by
  have hzero : p &&& 7 = 0 := by
    rw [show 7 = 2 ^ 3 - 1 from rfl, Nat.and_two_pow_sub_one_eq_mod]
    omega
  rw [Nat.and_or_distrib_right, hzero, Nat.zero_or]
  unfold elfPageFlags
  split_ifs with hwritable
  · exact ⟨fun _ => hwritable, fun _ => by decide⟩
  · exact ⟨fun h => absurd h (by decide), fun h => absurd h hwritable⟩

theorem elfLastCover_isSome {f : ElfFile} {phdrs : List Elf32Phdr} {phdr : Elf32Phdr}
    (hmem : phdr ∈ phdrs) {page : Nat} (hcovers : elfCovers f page phdr = true) :
    ∃ last, elfLastCover f page phdrs = some last := by
  have hsome : (elfLastCover f page phdrs).isSome = true := by
    unfold elfLastCover
    rw [List.find?_isSome]
    exact ⟨phdr, List.mem_reverse.mpr hmem, hcovers⟩
  exact Option.isSome_iff_exists.mp hsome

theorem onPage_of_byte {phdr : Elf32Phdr} {i : Nat} (hi : i < phdr.pMemsz) :
    phdr.OnPage (pagingAlignToLowerPage (u32 ((phdr.pVaddr : Int) + i))) := by
  unfold Elf32Phdr.OnPage pagingAlignToLowerPage pagingPageSize u32
  omega

theorem elfByteLoaded_iff {k : Kernel} {directory : Nat} {f : ElfFile} {file : List UInt8}
    {phdr last : Elf32Phdr} {phdrs : List Elf32Phdr} {i : Nat}
    (hlast : elfLastCover f (pagingAlignToLowerPage (u32 ((phdr.pVaddr : Int) + i))) phdrs =
      some last)
    (hget : pagingGet k.pages directory
        (pagingAlignToLowerPage (u32 ((phdr.pVaddr : Int) + i))) =
      .ok (elfFrame f last (pagingAlignToLowerPage (u32 ((phdr.pVaddr : Int) + i))) |||
        elfPageFlags last)) :
    ElfByteLoaded k directory file phdr i ↔ ElfLastHeaderAgrees k.memory f file phdrs phdr i := by
  unfold ElfByteLoaded ElfLastHeaderAgrees pagingGetPhysicalAddress
  generalize u32 ((phdr.pVaddr : Int) + i) = va at *
  have hpage := pagingAlignToLowerPage_aligned va
  have hoffset : va - pagingAlignToLowerPage va = va % 4096 := by
    unfold pagingAlignToLowerPage pagingPageSize
    omega
  have hframe : elfFrame f last (pagingAlignToLowerPage va) % 4096 = 0 := by
    have hstart : elfPagesStart f last % 4096 = 0 := pagingAlignToLowerPage_aligned _
    have hlower := pagingAlignToLowerPage_aligned last.pVaddr
    unfold elfFrame u32
    omega
  dsimp only
  rw [hget, hlast, hoffset]
  simp only [Except.map, Except.ok.injEq, Option.some.injEq, exists_eq_left']
  rw [← elfPageFlags_and _ hframe last]
  constructor
  · rintro ⟨_, _, rfl, rfl, hbyte, hflags⟩
    rw [pagingFrame_or hframe (elfPageFlags_lt last)] at hbyte
    exact ⟨hbyte, hflags⟩
  · rintro ⟨hbyte, hflags⟩
    rw [← pagingFrame_or hframe (elfPageFlags_lt last)] at hbyte
    exact ⟨_, _, rfl, rfl, hbyte, hflags⟩

/-- After `process_map_memory` has mapped a program that `elf_load` accepted, with its segments
inside the file, congruent, disjoint and off the stack: every byte of every segment is where the
program expects it, with the right to write it exactly if the segment has it, if and only if for
every byte the last header that covers its page has the same `PF_W` and puts that byte there. -/
theorem process_map_memory_loads_iff {file filename : List UInt8} {k k₁ k₂ k₃ : Kernel}
    {elfFile process directory : Nat} {res : Int} {p : Process} {task : Task} {tables : Nat → Nat}
    (hheap : k.heap.startAddress % 4096 = 0)
    (hload : elfLoad (fileServing file) filename k = .ok ((0, elfFile), k₁))
    (hp : k₂.scheduler.store process = some p) (htype : p.filetype = processFileTypeElf)
    (hptr : p.ptr = elfFile) (hkept : k₂.elfFiles elfFile = k₁.elfFiles elfFile)
    (htask : k₂.scheduler.tasks.store p.task = some task)
    (hchunk : k₂.pages.chunks task.pageDirectory = some directory)
    (hdir : IsDirectory k₂.pages directory tables)
    (hmap : processMapMemory process k₂ = .ok (res, k₃)) (hres : 0 ≤ res) :
    ∃ f, k₂.elfFiles elfFile = some f ∧ f.elfMemory = elfBase k file ∧
      ∀ phdrs, phdrs = elfFilePhdrs k₂.memory f → ElfSegments file phdrs →
        ((∀ phdr ∈ phdrs, phdr.pType = ptLoad → ∀ i < phdr.pMemsz,
            ElfByteLoaded k₃ directory file phdr i) ↔
          ∀ phdr ∈ phdrs, phdr.pType = ptLoad → ∀ i < phdr.pMemsz,
            ElfLastHeaderAgrees k₂.memory f file phdrs phdr i) := by
  rcases elfLoad_serving hload with ⟨_, hres₀⟩ | ⟨_, _, hloaded⟩
  · exact absurd hres₀ (by decide)
  · obtain ⟨_, f, hf, hbase⟩ := hloaded rfl
    obtain ⟨f', task', res₁, s₁, hf', htask', hres₁, hloop, hstack, hmemory⟩ :=
      processMapMemory_eq_ok hp htype hmap hres
    rw [hptr, hkept, hf] at hf'
    obtain rfl := Option.some.inj hf'
    obtain rfl := Option.some.inj (htask.symm.trans htask')
    refine ⟨f, hkept.trans hf, hbase, fun phdrs hphdrs hsegments => ?_⟩
    rw [← hphdrs] at hloop
    obtain ⟨hle, hdir₁, hchunk₁, hget₁⟩ := processMapElfLoop_get hdir hchunk
      (hphdrs ▸ elfFilePhdrs_pVaddr_lt) hloop hres₁
    have hget₃ := processMapStack_get hdir₁ hchunk₁ hstack hres
    have haligned : f.elfMemory % 4096 = 0 := by
      rw [hbase]
      exact heapMalloc_aligned (by rw [heapMalloc_startAddress, hheap]) _
    have hiff : ∀ phdr ∈ phdrs, phdr.pType = ptLoad → ∀ i < phdr.pMemsz,
        (ElfByteLoaded k₃ directory file phdr i ↔
          ElfLastHeaderAgrees k₂.memory f file phdrs phdr i) := by
      intro phdr hmem hload i hi
      have hon := onPage_of_byte hi
      have hpagealigned := pagingAlignToLowerPage_aligned (u32 ((phdr.pVaddr : Int) + i))
      have hpagelt := pagingAlignToLowerPage_lt (u32_lt ((phdr.pVaddr : Int) + i))
      have hoff := hsegments.offStack phdr hmem hload
      have hcovers := (elfCovers_iff_onPage haligned (hsegments.congruent phdr hmem hload) hoff
        (hle phdr hmem) _).mpr hon
      obtain ⟨last, hlast⟩ := elfLastCover_isSome hmem hcovers
      rw [← hmemory]
      refine elfByteLoaded_iff hlast ?_
      have houtside : pagingAlignToLowerPage (u32 ((phdr.pVaddr : Int) + i)) < 0x3FB000 ∨
          0x3FF000 ≤ pagingAlignToLowerPage (u32 ((phdr.pVaddr : Int) + i)) := by
        by_contra hinside
        exact hoff _ (by omega) (by omega) hpagealigned hon
      rw [hget₃ _ hpagelt hpagealigned houtside, hget₁ _ hpagelt hpagealigned, hlast]
    constructor
    · intro h phdr hmem hload i hi
      exact (hiff phdr hmem hload i hi).mp (h phdr hmem hload i hi)
    · intro h phdr hmem hload i hi
      exact (hiff phdr hmem hload i hi).mpr (h phdr hmem hload i hi)

/-! An executable of 85 bytes whose one segment has 84 bytes in the file and one more in memory. -/

def zeroByteFile : List UInt8 :=
  [127, 69, 76, 70, 1, 1, 1, 0, 0, 0, 0, 0, 0, 0, 0, 0, 2, 0, 3, 0, 1, 0, 0, 0, 0, 0, 64, 0, 52,
    0, 0, 0, 0, 0, 0, 0, 0, 0, 0, 0, 52, 0, 32, 0, 1, 0, 40, 0, 0, 0, 0, 0, 1, 0, 0, 0, 0, 0, 0,
    0, 0, 0, 64, 0, 0, 0, 0, 0, 84, 0, 0, 0, 85, 0, 0, 0, 6, 0, 0, 0, 0, 16, 0, 0, 7]

def zeroBytePhdr : Elf32Phdr := ⟨1, 0, 0x400000, 84, 85, 6⟩

theorem loadAndMap_zeroByteFile : value? (loadAndMap zeroByteFile (processMapMemory 0)
      (fun before after => ((before.elfFiles 0x1000000).map (elfFilePhdrs before.memory),
        (pagingGetPhysicalAddress after.pages 0x1006000 0x400054).toOption.map after.memory))
      (emptyKernel 8)) = some ((0, 0x1000000), 0, some [zeroBytePhdr], some 7) := by
  decide +kernel

theorem programState_isDirectory (elfFile : Nat) (k : Kernel) :
    IsDirectory (programState elfFile k).pages 0x1006000 fun i => 0x2000000 + 4096 * i := by
  refine ⟨⟨_, rfl, fun i hi => ?_⟩, fun i hi => ⟨_, rfl⟩, fun i hi => by omega,
    fun i hi j hj h => by omega⟩
  unfold pagingFrame
  rw [if_pos rfl]
  omega

theorem zeroByteFile_segments : ElfSegments zeroByteFile [zeroBytePhdr] where
  inside phdr hmem _ := by
    rw [List.mem_singleton.mp hmem]
    decide
  congruent phdr hmem _ := by
    rw [List.mem_singleton.mp hmem]
    decide
  disjoint := by
    rw [show ([zeroBytePhdr].filter fun phdr => phdr.pType = ptLoad) = [zeroBytePhdr] from rfl]
    exact List.pairwise_singleton ..
  offStack phdr hmem _ page hlow hhigh haligned := by
    rw [List.mem_singleton.mp hmem]
    unfold Elf32Phdr.OnPage pagingAlignToLowerPage pagingPageSize zeroBytePhdr u32
    dsimp only
    omega

theorem process_map_memory_loads_zeroByte : ∃ k₁ k₃ : Kernel, ∃ f,
    (programState 0x1000000 k₁).elfFiles 0x1000000 = some f ∧
      elfFilePhdrs (programState 0x1000000 k₁).memory f = [zeroBytePhdr] ∧
      ((∀ phdr ∈ [zeroBytePhdr], phdr.pType = ptLoad → ∀ i < phdr.pMemsz,
          ElfByteLoaded k₃ 0x1006000 zeroByteFile phdr i) ↔
        ∀ phdr ∈ [zeroBytePhdr], phdr.pType = ptLoad → ∀ i < phdr.pMemsz,
          ElfLastHeaderAgrees (programState 0x1000000 k₁).memory f zeroByteFile [zeroBytePhdr]
            phdr i) := by
  obtain ⟨k₃, h⟩ := exists_of_value? loadAndMap_zeroByteFile
  obtain ⟨k₁, hload, hmap, hseen⟩ := loadAndMap_eq_ok h
  simp only [Prod.mk.injEq, Option.map_eq_some_iff] at hseen
  obtain ⟨⟨f, hf, hphdrs⟩, -⟩ := hseen
  have hkept : (programState 0x1000000 k₁).elfFiles 0x1000000 = k₁.elfFiles 0x1000000 := rfl
  obtain ⟨f', hf', -, hiff⟩ := process_map_memory_loads_iff (by decide) hload rfl rfl rfl hkept rfl
    rfl (programState_isDirectory _ _) hmap (le_refl 0)
  obtain rfl := Option.some.inj (hf.symm.trans hf')
  exact ⟨k₁, k₃, f, hf, hphdrs, hiff _ hphdrs.symm zeroByteFile_segments⟩

theorem process_map_memory_not_always_loads : ¬ ∀ (file filename : List UInt8)
    (k k₁ k₂ k₃ : Kernel) (elfFile process directory : Nat) (res : Int) (p : Process) (task : Task)
    (tables : Nat → Nat) (f : ElfFile),
    elfLoad (fileServing file) filename k = .ok ((0, elfFile), k₁) →
    k₂.scheduler.store process = some p → p.filetype = processFileTypeElf → p.ptr = elfFile →
    k₂.elfFiles elfFile = k₁.elfFiles elfFile → k₂.elfFiles elfFile = some f →
    k₂.scheduler.tasks.store p.task = some task →
    k₂.pages.chunks task.pageDirectory = some directory →
    IsDirectory k₂.pages directory tables →
    processMapMemory process k₂ = .ok (res, k₃) → 0 ≤ res →
    ElfSegments file (elfFilePhdrs k₂.memory f) →
    ∀ phdr ∈ elfFilePhdrs k₂.memory f, phdr.pType = ptLoad → ∀ i < phdr.pMemsz,
      ElfByteLoaded k₃ directory file phdr i := by
  intro hall
  obtain ⟨k₃, h⟩ := exists_of_value? loadAndMap_zeroByteFile
  obtain ⟨k₁, hload, hmap, hseen⟩ := loadAndMap_eq_ok h
  simp only [Prod.mk.injEq, Option.map_eq_some_iff] at hseen
  obtain ⟨⟨f, hf, hphdrs⟩, pa', haddress, hbyte⟩ := hseen
  have hkept : (programState 0x1000000 k₁).elfFiles 0x1000000 = k₁.elfFiles 0x1000000 := rfl
  have hbytes := hall _ _ _ _ _ _ _ _ _ _ _ _ _ f hload rfl rfl rfl hkept hf rfl rfl
    (programState_isDirectory _ _) hmap (le_refl 0) (by rw [hphdrs]; exact zeroByteFile_segments)
    zeroBytePhdr (by rw [hphdrs]; exact List.mem_singleton.mpr rfl) rfl 84 (by decide)
  have hva : u32 ((zeroBytePhdr.pVaddr : Int) + (84 : Nat)) = 0x400054 := by
    decide +kernel
  unfold ElfByteLoaded at hbytes
  rw [hva] at hbytes
  obtain ⟨_, pa, _, hpa, hexpected, _⟩ := hbytes
  rw [hpa] at haddress
  obtain rfl := Option.some.inj haddress
  rw [hbyte] at hexpected
  exact absurd hexpected (by decide)

end BoiOS
