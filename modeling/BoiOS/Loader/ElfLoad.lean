import BoiOS.Loader.Elf

/-! What `elf_load` accepts. The file is served whole by the file functions, so that its bytes
are the only input; a file shorter than a header is followed by what its block held before. -/
namespace BoiOS
open Library.StateRun

def fileServing (file : List UInt8) : FileApi where
  fopen _ := pure 1
  fstat _ := pure (0, ⟨0, file.length⟩)
  fread ptr size nmemb fd :=
    if size = 0 ∨ nmemb = 0 ∨ fd < 1 then pure (-einvarg)
    else if ptr = 0 then throw .faulted
    else do
      modify fun k => { k with memory := k.memory.copyIn ptr (file.take (size * nmemb)) }
      pure nmemb
  fclose _ := pure 0

theorem fread_serving_eq_ok {file : List UInt8} {ptr : Nat} {res : Int} {k k' : Kernel}
    (h : (fileServing file).fread ptr file.length 1 1 k = .ok (res, k')) :
    (file = [] ∧ res = -einvarg ∧ k' = k) ∨
      (file ≠ [] ∧ res = 1 ∧ k' = { k with memory := k.memory.copyIn ptr file }) := by
  unfold fileServing at h
  dsimp only at h
  by_cases hempty : file = []
  · rw [if_pos (Or.inl (by simp [hempty]))] at h
    obtain ⟨rfl, rfl⟩ := pure_eq_ok.mp h
    exact Or.inl ⟨hempty, rfl, rfl⟩
  · rw [if_neg (by simp [hempty])] at h
    split_ifs at h with hnull
    · exact (throw_eq_ok.mp h).elim
    · obtain ⟨_, k₁, hmodify, h⟩ := bind_eq_ok.mp h
      obtain ⟨rfl, rfl⟩ := pure_eq_ok.mp h
      refine Or.inr ⟨hempty, rfl, ?_⟩
      rw [← modify_eq_ok.mp hmodify, Nat.mul_one, List.take_length]

/-- Where the file is loaded: the block the heap hands out after the one for the `elf_file`. -/
def elfBase (k : Kernel) (file : List UInt8) : Nat :=
  (heapMalloc (heapMalloc k.heap sizeofElfFile).2 file.length).1

def elfImage (k : Kernel) (file : List UInt8) : Memory :=
  let elfFile := (heapMalloc k.heap sizeofElfFile).1
  let memory := if elfFile = 0 then k.memory else k.memory.clear elfFile sizeofElfFile
  let memory := if elfBase k file = 0 then memory else memory.clear (elfBase k file) file.length
  memory.copyIn (elfBase k file) file

@[simp] theorem elfProcessPheadersLoop_elfMemory (m : Memory) (header count i : Nat)
    (elfFile : ElfFile) :
    (elfProcessPheadersLoop m header count i elfFile).elfMemory = elfFile.elfMemory := by
  induction count generalizing i elfFile with
  | zero => rfl
  | succ count ih =>
    unfold elfProcessPheadersLoop
    rw [ih]
    unfold elfProcessPheader elfProcessPhdrPtLoad
    dsimp only
    split_ifs <;> rfl

@[simp] theorem elfProcessLoaded_elfMemory (m : Memory) (elfFile : ElfFile) :
    (elfProcessLoaded m elfFile).2.elfMemory = elfFile.elfMemory := by
  unfold elfProcessLoaded elfProcessPheaders
  dsimp only
  split_ifs
  · rfl
  · exact elfProcessPheadersLoop_elfMemory ..

theorem elfProcessLoaded_fst (m : Memory) (elfFile : ElfFile) :
    (elfProcessLoaded m elfFile).1 = elfValidateLoaded m elfFile.elfMemory := by
  unfold elfProcessLoaded elfValidateLoaded
  dsimp only
  split_ifs with hvalid hneg hneg
  · exact absurd hneg (by decide)
  · rfl
  · rfl
  · exact absurd (show -einformat < 0 by decide) hneg

theorem elfLoad_serving {file filename : List UInt8} {k k' : Kernel} {res : Int} {elfFile : Nat}
    (h : elfLoad (fileServing file) filename k = .ok ((res, elfFile), k')) :
    (file = [] ∧ res = -einvarg) ∨
      (file ≠ [] ∧ res = elfValidateLoaded (elfImage k file) (elfBase k file) ∧
        (res = 0 → k'.memory = elfImage k file ∧
          ∃ f, k'.elfFiles elfFile = some f ∧ f.elfMemory = elfBase k file)) := by
  unfold elfLoad at h
  obtain ⟨ptr, k₁, halloc, h⟩ := bind_eq_ok.mp h
  obtain ⟨k₀, hzalloc, hplace⟩ := kzallocObject_eq_ok halloc
  obtain ⟨hptr, hk₀⟩ := kzalloc_eq_ok hzalloc
  obtain ⟨fd, k₂, hopen, h⟩ := bind_eq_ok.mp h
  obtain ⟨rfl, rfl⟩ := pure_eq_ok.mp hopen
  rw [if_neg (by decide)] at h
  obtain ⟨⟨statRes, stat⟩, k₃, hstat, h⟩ := bind_eq_ok.mp h
  obtain ⟨heq, rfl⟩ := pure_eq_ok.mp hstat
  obtain ⟨rfl, rfl⟩ := Prod.mk.inj heq
  dsimp only at h
  rw [if_neg (by decide)] at h
  obtain ⟨memory, k₄, hmemory, h⟩ := bind_eq_ok.mp h
  obtain ⟨hbase, hk₄⟩ := kzalloc_eq_ok hmemory
  have hheap : k₁.heap = (heapMalloc k.heap sizeofElfFile).2 := by
    rw [hplace]
    split_ifs
    · rw [hk₀]
    · rw [hk₀, putElfFile]
  have hbase : memory = elfBase k file := by
    rw [hbase, hheap]
    rfl
  have hmem : k₄.memory.copyIn memory file = elfImage k file := by
    have hmem₁ : k₁.memory = if ptr = 0 then k.memory else k.memory.clear ptr sizeofElfFile := by
      rw [hplace]
      split_ifs with hzero <;> rw [hk₀] <;> simp [hzero, putElfFile]
    rw [hk₄]
    dsimp only
    rw [hmem₁, hbase, hptr]
    rfl
  replace h := bind_get_eq_ok.mp h
  obtain ⟨f, hf, h⟩ := bind_fetch_eq_ok.mp h
  obtain ⟨_, k₅, hput, h⟩ := bind_eq_ok.mp h
  have hk₅ := modify_eq_ok.mp hput
  obtain ⟨freadRes, k₆, hread, h⟩ := bind_eq_ok.mp h
  rcases fread_serving_eq_ok hread with ⟨hempty, hfreadRes, _⟩ | ⟨hfile, hfreadRes, hk₆⟩
  · rw [hfreadRes, if_pos (by decide)] at h
    obtain ⟨_, _, hclose, h⟩ := bind_eq_ok.mp h
    obtain ⟨heq, _⟩ := pure_eq_ok.mp h
    exact Or.inl ⟨hempty, (Prod.mk.inj heq).1.symm⟩
  · rw [hfreadRes, if_neg (by decide)] at h
    have hmem₆ : k₆.memory = elfImage k file := by
      rw [hk₆, ← hk₅]
      exact hmem
    replace h := bind_get_eq_ok.mp h
    obtain ⟨f', hf', h⟩ := bind_fetch_eq_ok.mp h
    have hfbase : f'.elfMemory = elfBase k file := by
      rw [hk₆, ← hk₅] at hf'
      simp only [putElfFile, Function.update_self, Option.some.injEq] at hf'
      rw [← hf', hbase]
    obtain ⟨_, k₇, hput', h⟩ := bind_eq_ok.mp h
    have hk₇ := modify_eq_ok.mp hput'
    obtain ⟨_, k₈, hclose, h⟩ := bind_eq_ok.mp h
    obtain ⟨rfl, rfl⟩ := pure_eq_ok.mp hclose
    have hverdict := elfProcessLoaded_fst k₆.memory f'
    rw [hmem₆, hfbase] at hverdict
    refine Or.inr ⟨hfile, ?_⟩
    rw [hmem₆] at h hk₇
    split_ifs at h with hneg
    · obtain ⟨heq, rfl⟩ := pure_eq_ok.mp h
      obtain ⟨rfl, rfl⟩ := Prod.mk.inj heq
      refine ⟨hverdict, fun hzero => absurd hzero ?_⟩
      omega
    · obtain ⟨heq, rfl⟩ := pure_eq_ok.mp h
      obtain ⟨rfl, rfl⟩ := Prod.mk.inj heq
      refine ⟨hverdict, fun _ => ?_⟩
      rw [← hk₇]
      refine ⟨hmem₆, _, Function.update_self .., ?_⟩
      rw [elfProcessLoaded_elfMemory, hfbase]

/-! The file itself as memory, from address 0 on. -/

def fileMemory (file : List UInt8) : Memory := fun a => file.getD a 0

theorem load8_copyIn (m : Memory) (base : Nat) (file : List UInt8) {o : Nat} (ho : o < file.length)
    (hwrap : o < 4294967296) :
    (m.copyIn base file).load8 ((base : Int) + o) = (fileMemory file).load8 ((0 : Nat) + (o : Int)) := by
  have hindex : u32 ((u32 ((base : Int) + o) : Int) - base) = o := by
    unfold u32
    omega
  have hzero : u32 ((0 : Nat) + (o : Int)) = o := by
    unfold u32
    omega
  unfold Memory.load8 Memory.copyIn fileMemory
  rw [hindex, hzero, List.getD_eq_getElem?_getD, List.getElem?_eq_getElem ho]
  rfl

theorem load16_copyIn (m : Memory) (base : Nat) (file : List UInt8) {o : Nat}
    (ho : o + 1 < file.length) (hwrap : o + 1 < 4294967296) :
    (m.copyIn base file).load16 ((base : Int) + o) =
      (fileMemory file).load16 ((0 : Nat) + (o : Int)) := by
  have hlow := load8_copyIn m base file (o := o) (by omega) (by omega)
  have hhigh := load8_copyIn m base file ho hwrap
  push_cast at hhigh hlow
  unfold Memory.load16
  push_cast
  rw [hlow, add_assoc, hhigh, add_assoc]

theorem load32_copyIn (m : Memory) (base : Nat) (file : List UInt8) {o : Nat}
    (ho : o + 3 < file.length) (hwrap : o + 3 < 4294967296) :
    (m.copyIn base file).load32 ((base : Int) + o) =
      (fileMemory file).load32 ((0 : Nat) + (o : Int)) := by
  have hlow := load16_copyIn m base file (o := o) (by omega) (by omega)
  have hhigh := load16_copyIn m base file (o := o + 2) ho hwrap
  push_cast at hhigh hlow
  unfold Memory.load32
  push_cast
  rw [hlow, add_assoc, hhigh, add_assoc]

/-- The offsets of the header bytes that validation, `elf_process_pheaders` and `process_map_elf`
read: signature, class, encoding, `e_phoff`, `e_phnum` and every program header. -/
def elfHeaderReads (m : Memory) (base : Nat) : List Int :=
  [0, 1, 2, 3, 4, 5, 28, 29, 30, 31, 44, 45] ++
    (List.range (ePhnum m base)).flatMap fun i : Nat =>
      (List.range 32).map fun j : Nat => ePhoff m base + 32 * i + j

/-- What acceptance should mean. -/
structure ElfSound (file : List UInt8) (m : Memory) (base : Nat) : Prop where
  complete : 52 ≤ file.length
  signature : elfValidSignature (fileMemory file) 0
  classOk : elfValidClass (fileMemory file) 0
  encoding : elfValidEncoding (fileMemory file) 0
  executable : elfIsExecutable (fileMemory file) 0
  table : ∀ i : Nat, i < ePhnum (fileMemory file) 0 → 0 ≤ ePhoff (fileMemory file) 0 + 32 * i ∧
    ePhoff (fileMemory file) 0 + 32 * i + 32 ≤ file.length
  reads : ∀ o ∈ elfHeaderReads m base, 0 ≤ o ∧ o < file.length

/-- What the loader never looks at: the length of the file, its type and entry point, and where
its program headers end. -/
structure ElfComplete (file : List UInt8) : Prop where
  complete : 52 ≤ file.length
  executable : elfIsExecutable (fileMemory file) 0
  table : ∀ i : Nat, i < ePhnum (fileMemory file) 0 → 0 ≤ ePhoff (fileMemory file) 0 + 32 * i ∧
    ePhoff (fileMemory file) 0 + 32 * i + 32 ≤ file.length

theorem header_of_complete {file : List UInt8} (h : 52 ≤ file.length) (m : Memory) (base : Nat) :
    (∀ i < 16, eIdent (m.copyIn base file) base i = eIdent (fileMemory file) 0 i) ∧
      ePhoff (m.copyIn base file) base = ePhoff (fileMemory file) 0 ∧
      ePhnum (m.copyIn base file) base = ePhnum (fileMemory file) 0 := by
  refine ⟨fun i hi => ?_, ?_, ?_⟩
  · exact load8_copyIn m base file (by omega) (by omega)
  · unfold ePhoff
    rw [show (28 : Int) = (28 : Nat) from rfl, load32_copyIn m base file (by omega) (by omega)]
  · unfold ePhnum
    rw [show (44 : Int) = (44 : Nat) from rfl, load16_copyIn m base file (by omega) (by omega)]

theorem ElfComplete.sound {file : List UInt8} (h : ElfComplete file) (m : Memory) {base : Nat}
    (hvalid : elfValidateLoaded (m.copyIn base file) base = 0) :
    ElfSound file (m.copyIn base file) base := by
  obtain ⟨hident, hphoff, hphnum⟩ := header_of_complete h.complete m base
  unfold elfValidateLoaded at hvalid
  split_ifs at hvalid with hchecks
  · simp only [Bool.and_eq_true] at hchecks
    obtain ⟨⟨⟨hsignature, hclass⟩, hencoding⟩, _⟩ := hchecks
    refine ⟨h.complete, ?_, ?_, ?_, h.executable, h.table, fun o ho => ?_⟩
    · unfold elfValidSignature at hsignature ⊢
      rwa [List.map_congr_left fun i hi => (hident i (by have := List.mem_range.mp hi; omega)).symm]
    · unfold elfValidClass at hclass ⊢
      rwa [← hident 4 (by omega)]
    · unfold elfValidEncoding at hencoding ⊢
      rwa [← hident 5 (by omega)]
    · have hcomplete := h.complete
      unfold elfHeaderReads at ho
      rw [hphoff, hphnum] at ho
      rcases List.mem_append.mp ho with ho | ho
      · simp only [List.mem_cons, List.not_mem_nil, or_false] at ho
        omega
      · obtain ⟨i, hi, ho⟩ := List.mem_flatMap.mp ho
        obtain ⟨j, hj, rfl⟩ := List.mem_map.mp ho
        obtain ⟨hlow, hhigh⟩ := h.table i (List.mem_range.mp hi)
        have hj := List.mem_range.mp hj
        omega
  · exact absurd hvalid (by decide)

/-- An accepted file is sound exactly if it was rejected, empty, or has what the loader does not
check: a whole header, of an executable entered in program space, and its program headers. -/
theorem elf_load_sound_iff {file filename : List UInt8} {k k' : Kernel} {res : Int} {elfFile : Nat}
    (h : elfLoad (fileServing file) filename k = .ok ((res, elfFile), k')) :
    (res = 0 → ElfSound file (elfImage k file) (elfBase k file)) ↔
      (file = [] ∨ elfValidateLoaded (elfImage k file) (elfBase k file) ≠ 0 ∨
        ElfComplete file) := by
  rcases elfLoad_serving h with ⟨hempty, hres⟩ | ⟨_, hres, _⟩
  · refine ⟨fun _ => Or.inl hempty, fun _ hzero => absurd hzero ?_⟩
    rw [hres]
    decide
  · constructor
    · intro hsound
      by_cases hvalid : elfValidateLoaded (elfImage k file) (elfBase k file) = 0
      · obtain ⟨hcomplete, _, _, _, hexecutable, htable, _⟩ := hsound (hres.trans hvalid)
        exact Or.inr (Or.inr ⟨hcomplete, hexecutable, htable⟩)
      · exact Or.inr (Or.inl hvalid)
    · rintro (hempty | hinvalid | hcomplete) hzero
      · contradiction
      · exact absurd (hres.symm.trans hzero) hinvalid
      · exact hcomplete.sound _ (hres.symm.trans hzero)

/-! A relocatable file: a header that passes the four checks, with `e_type` 1 and `e_entry` 0. -/

def relocatableFile : List UInt8 :=
  [0x7F, 0x45, 0x4C, 0x46, 1, 1, 1, 0, 0, 0, 0, 0, 0, 0, 0, 0, 1, 0, 3, 0, 1, 0, 0, 0, 0, 0, 0, 0,
    52, 0, 0, 0, 0, 0, 0, 0, 0, 0, 0, 0, 52, 0, 32, 0, 0, 0, 40, 0, 0, 0, 0, 0]

theorem relocatableFile_accepted : ∃ k', elfLoad (fileServing relocatableFile) [] (emptyKernel 4) =
    .ok ((0, 0x1000000), k') :=
  exists_of_value? (by decide +kernel)

theorem elf_load_sound_relocatable :
    ((0 : Int) = 0 → ElfSound relocatableFile (elfImage (emptyKernel 4) relocatableFile)
      (elfBase (emptyKernel 4) relocatableFile)) ↔
      (relocatableFile = [] ∨ elfValidateLoaded (elfImage (emptyKernel 4) relocatableFile)
        (elfBase (emptyKernel 4) relocatableFile) ≠ 0 ∨ ElfComplete relocatableFile) := by
  obtain ⟨k', h⟩ := relocatableFile_accepted
  exact elf_load_sound_iff h

theorem elf_load_not_always_sound : ¬ ∀ (file filename : List UInt8) (k k' : Kernel)
    (elfFile : Nat), elfLoad (fileServing file) filename k = .ok ((0, elfFile), k') →
    ElfSound file (elfImage k file) (elfBase k file) := by
  intro h
  obtain ⟨k', hload⟩ := relocatableFile_accepted
  have hexecutable := (h _ _ _ _ _ hload).executable
  have hnot : elfIsExecutable (fileMemory relocatableFile) 0 = false := by
    decide +kernel
  rw [hnot] at hexecutable
  exact Bool.false_ne_true hexecutable

end BoiOS
