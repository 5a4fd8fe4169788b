import BoiOS.Loader.ElfLoad
import BoiOS.Task.ProcessMap

/-! The extent of a loaded ELF file: the least address that a segment begins at and the greatest one
that it ends at. The fields hold 0 until the first segment is seen, and a base of 0 is taken for one
that was not set yet. -/
namespace BoiOS

def elfLoads (phdrs : List Elf32Phdr) : List Elf32Phdr :=
  phdrs.filter fun phdr => phdr.pType = ptLoad

def elfUnprocessed (memory : Nat) : ElfFile := ⟨memory, 0, 0, 0, 0⟩

/-! The loop over the headers. -/

theorem elfProcessPheadersLoop_eq {m : Memory} {header : Nat} (count i : Nat) (f : ElfFile) :
    elfProcessPheadersLoop m header count i f =
      ((List.range' i count).map fun j => elf32Phdr m (elfProgramHeader m header j)).foldl
        elfProcessPheader f := by
  induction count generalizing i f with
  | zero => rfl
  | succ count ih =>
    unfold elfProcessPheadersLoop
    rw [ih, List.range'_succ, List.map_cons, List.foldl_cons]

theorem elfHasProgramHeader_of_valid {m : Memory} {memory : Nat}
    (h : elfValidateLoaded m memory = allOk) : elfHasProgramHeader m memory = true := by
  unfold elfValidateLoaded at h
  split_ifs at h with hvalid
  · simp only [Bool.and_eq_true] at hvalid
    exact hvalid.2
  · exact absurd h (by decide)

theorem elfProcessPheaders_eq {m : Memory} {f : ElfFile}
    (h : elfValidateLoaded m f.elfMemory = allOk) :
    elfProcessPheaders m f = (elfLoads (elfFilePhdrs m f)).foldl elfProcessPhdrPtLoad f := by
  have hheader := elfHasProgramHeader_of_valid h
  have hphdrs : (List.range' 0 (ePhnum m f.elfMemory)).map
      (fun j => elf32Phdr m (elfProgramHeader m f.elfMemory j)) = elfFilePhdrs m f := by
    unfold elfFilePhdrs elfPhdrs
    rw [← List.range_eq_range']
    refine List.map_congr_left fun j _ => ?_
    rw [elfProgramHeader, hheader, if_neg (by decide)]
  unfold elfProcessPheaders elfLoads
  rw [elfProcessPheadersLoop_eq, hphdrs, List.foldl_filter]
  refine congrArg (fun step => (elfFilePhdrs m f).foldl step f) ?_
  funext g phdr
  simp only [elfProcessPheader, decide_eq_true_eq]

/-! The base. -/

/-- What the loop knows of the base after the segments `loads`. -/
structure BaseSeen (memory : Nat) (loads : List Elf32Phdr) (f : ElfFile) : Prop where
  unset : f.virtualBaseAddress = 0 ↔ ∀ phdr, loads.getLast? = some phdr → phdr.pVaddr = 0
  attained : loads ≠ [] → ∃ phdr ∈ loads, phdr.pVaddr = f.virtualBaseAddress ∧
    f.physicalBaseAddress = u32 ((memory : Int) + phdr.pOffset)
  least : (∀ phdr ∈ loads, phdr.pVaddr ≠ 0) → ∀ phdr ∈ loads, f.virtualBaseAddress ≤ phdr.pVaddr

theorem elfProcessPhdrPtLoad_base (f : ElfFile) (phdr : Elf32Phdr) :
    (elfProcessPhdrPtLoad f phdr).virtualBaseAddress =
      (if f.virtualBaseAddress ≥ phdr.pVaddr ∨ f.virtualBaseAddress = 0 then phdr.pVaddr
        else f.virtualBaseAddress) ∧
    (elfProcessPhdrPtLoad f phdr).physicalBaseAddress =
      (if f.virtualBaseAddress ≥ phdr.pVaddr ∨ f.virtualBaseAddress = 0 then
        u32 ((f.elfMemory : Int) + phdr.pOffset) else f.physicalBaseAddress) ∧
    (elfProcessPhdrPtLoad f phdr).elfMemory = f.elfMemory := by
  unfold elfProcessPhdrPtLoad
  dsimp only
  split_ifs
  all_goals exact ⟨rfl, rfl, rfl⟩

theorem BaseSeen.step {memory : Nat} {loads : List Elf32Phdr} {f : ElfFile} {phdr : Elf32Phdr}
    (h : BaseSeen memory loads f) (hmemory : f.elfMemory = memory) :
    BaseSeen memory (loads ++ [phdr]) (elfProcessPhdrPtLoad f phdr) := by
  obtain ⟨hvirtual, hphysical, -⟩ := elfProcessPhdrPtLoad_base f phdr
  by_cases hset : f.virtualBaseAddress ≥ phdr.pVaddr ∨ f.virtualBaseAddress = 0
  · rw [if_pos hset] at hvirtual hphysical
    refine ⟨?_, fun _ => ⟨phdr, by simp, hvirtual.symm, by rw [hphysical, hmemory]⟩, ?_⟩
    · rw [hvirtual]
      simp
    · intro hnonzero
      rw [hvirtual]
      intro other hother
      rcases List.mem_append.mp hother with hmem | hmem
      · have hleast := h.least (fun p hp => hnonzero p (List.mem_append_left _ hp)) other hmem
        rcases hset with hbelow | hzero
        · omega
        · -- the base is 0 although no segment begins there: no segment was seen
          obtain ⟨last, hlast⟩ : ∃ last, loads.getLast? = some last :=
            Option.isSome_iff_exists.mp (by
              rw [List.getLast?_isSome]
              exact List.ne_nil_of_mem hmem)
          exact absurd (h.unset.mp hzero last hlast)
            (hnonzero last (List.mem_append_left _ (List.mem_of_getLast? hlast)))
      · rw [List.mem_singleton.mp hmem]
  · rw [if_neg hset] at hvirtual hphysical
    rw [not_or] at hset
    refine ⟨?_, fun _ => ?_, ?_⟩
    · rw [hvirtual]
      simp
      omega
    · have hne : loads ≠ [] := by
        rintro rfl
        exact hset.2 (h.unset.mpr (by simp))
      obtain ⟨other, hother, hbase, hphys⟩ := h.attained hne
      exact ⟨other, List.mem_append_left _ hother, by rw [hvirtual, hbase],
        by rw [hphysical, hphys]⟩
    · intro hnonzero other hother
      rw [hvirtual]
      rcases List.mem_append.mp hother with hmem | hmem
      · exact h.least (fun p hp => hnonzero p (List.mem_append_left _ hp)) other hmem
      · rw [List.mem_singleton.mp hmem]
        omega

/-! The end. -/

/-- No segment ends beyond the last address. -/
def ElfInRange (phdrs : List Elf32Phdr) : Prop :=
  ∀ phdr ∈ elfLoads phdrs, phdr.pVaddr + phdr.pFilesz < 4294967296

structure EndSeen (memory : Nat) (loads : List Elf32Phdr) (f : ElfFile) : Prop where
  attained : loads ≠ [] → ∃ phdr ∈ loads, phdr.pVaddr + phdr.pFilesz = f.virtualEndAddress ∧
    f.physicalEndAddress = u32 ((memory : Int) + phdr.pOffset + phdr.pFilesz)
  greatest : ∀ phdr ∈ loads, phdr.pVaddr + phdr.pFilesz ≤ f.virtualEndAddress
  unset : loads = [] → f.virtualEndAddress = 0

theorem elfProcessPhdrPtLoad_end (f : ElfFile) (phdr : Elf32Phdr) :
    (elfProcessPhdrPtLoad f phdr).virtualEndAddress =
      (if f.virtualEndAddress ≤ u32 ((phdr.pVaddr : Int) + phdr.pFilesz) ∨
          f.virtualEndAddress = 0 then u32 ((phdr.pVaddr : Int) + phdr.pFilesz)
        else f.virtualEndAddress) ∧
    (elfProcessPhdrPtLoad f phdr).physicalEndAddress =
      (if f.virtualEndAddress ≤ u32 ((phdr.pVaddr : Int) + phdr.pFilesz) ∨
          f.virtualEndAddress = 0 then
        u32 ((f.elfMemory : Int) + phdr.pOffset + phdr.pFilesz) else f.physicalEndAddress) := by
  unfold elfProcessPhdrPtLoad
  dsimp only
  split_ifs
  all_goals exact ⟨rfl, rfl⟩

theorem EndSeen.step {memory : Nat} {loads : List Elf32Phdr} {f : ElfFile} {phdr : Elf32Phdr}
    (h : EndSeen memory loads f) (hmemory : f.elfMemory = memory)
    (hrange : phdr.pVaddr + phdr.pFilesz < 4294967296) :
    EndSeen memory (loads ++ [phdr]) (elfProcessPhdrPtLoad f phdr) := by
  obtain ⟨hvirtual, hphysical⟩ := elfProcessPhdrPtLoad_end f phdr
  have hend : u32 ((phdr.pVaddr : Int) + phdr.pFilesz) = phdr.pVaddr + phdr.pFilesz :=
    u32_natCast hrange
  rw [hend] at hvirtual hphysical
  by_cases hset : f.virtualEndAddress ≤ phdr.pVaddr + phdr.pFilesz ∨ f.virtualEndAddress = 0
  · rw [if_pos hset] at hvirtual hphysical
    refine ⟨fun _ => ⟨phdr, by simp, hvirtual.symm, by rw [hphysical, hmemory]⟩, ?_, by simp⟩
    intro other hother
    rw [hvirtual]
    rcases List.mem_append.mp hother with hmem | hmem
    · have hbelow := h.greatest other hmem
      omega
    · rw [List.mem_singleton.mp hmem]
  · rw [if_neg hset] at hvirtual hphysical
    rw [not_or] at hset
    refine ⟨fun _ => ?_, ?_, by simp⟩
    · obtain ⟨other, hother, hat, hphys⟩ := h.attained (fun hempty => hset.2 (h.unset hempty))
      exact ⟨other, List.mem_append_left _ hother, by rw [hvirtual, hat], by rw [hphysical, hphys]⟩
    · intro other hother
      rw [hvirtual]
      rcases List.mem_append.mp hother with hmem | hmem
      · exact h.greatest other hmem
      · rw [List.mem_singleton.mp hmem]
        omega

/-! The extent. -/

theorem elfLoads_seen (memory : Nat) (loads : List Elf32Phdr) :
    (loads.foldl elfProcessPhdrPtLoad (elfUnprocessed memory)).elfMemory = memory ∧
      BaseSeen memory loads (loads.foldl elfProcessPhdrPtLoad (elfUnprocessed memory)) ∧
      ((∀ phdr ∈ loads, phdr.pVaddr + phdr.pFilesz < 4294967296) →
        EndSeen memory loads (loads.foldl elfProcessPhdrPtLoad (elfUnprocessed memory))) := by
  induction loads using List.reverseRecOn with
  | nil =>
    refine ⟨rfl, ⟨by simp [elfUnprocessed], fun h => absurd rfl h, by simp⟩, fun _ => ?_⟩
    exact ⟨fun h => absurd rfl h, by simp, fun _ => rfl⟩
  | append_singleton loads phdr ih =>
    obtain ⟨hmemory, hbase, hend⟩ := ih
    rw [List.foldl_concat]
    refine ⟨(elfProcessPhdrPtLoad_base _ phdr).2.2.trans hmemory, hbase.step hmemory, ?_⟩
    intro hrange
    exact (hend fun p hp => hrange p (List.mem_append_left _ hp)).step hmemory
      (hrange phdr (by simp))

/-- The extent of a file: the least base and the greatest end, each with the place in the image of a
segment that attains it. -/
structure ElfExtent (memory : Nat) (phdrs : List Elf32Phdr) (f : ElfFile) : Prop where
  base : elfLoads phdrs ≠ [] → ∃ phdr ∈ elfLoads phdrs, phdr.pVaddr = f.virtualBaseAddress ∧
    f.physicalBaseAddress = u32 ((memory : Int) + phdr.pOffset)
  least : ∀ phdr ∈ elfLoads phdrs, f.virtualBaseAddress ≤ phdr.pVaddr
  ending : ElfInRange phdrs → elfLoads phdrs ≠ [] → ∃ phdr ∈ elfLoads phdrs,
    phdr.pVaddr + phdr.pFilesz = f.virtualEndAddress ∧
      f.physicalEndAddress = u32 ((memory : Int) + phdr.pOffset + phdr.pFilesz)
  greatest : ElfInRange phdrs → ∀ phdr ∈ elfLoads phdrs,
    phdr.pVaddr + phdr.pFilesz ≤ f.virtualEndAddress

/-- No segment begins at 0, or the last one does. -/
def ElfBaseKept (phdrs : List Elf32Phdr) : Prop :=
  (∀ phdr ∈ elfLoads phdrs, phdr.pVaddr ≠ 0) ∨
    ∃ phdr, (elfLoads phdrs).getLast? = some phdr ∧ phdr.pVaddr = 0

theorem elfExtent_iff (memory : Nat) (phdrs : List Elf32Phdr) :
    ElfExtent memory phdrs ((elfLoads phdrs).foldl elfProcessPhdrPtLoad (elfUnprocessed memory)) ↔
      ElfBaseKept phdrs := by
  obtain ⟨-, hbase, hend⟩ := elfLoads_seen memory (elfLoads phdrs)
  constructor
  · intro h
    by_contra hlost
    unfold ElfBaseKept at hlost
    rw [not_or] at hlost
    obtain ⟨hzero, hnot⟩ := hlost
    push Not at hzero
    obtain ⟨phdr, hmem, hvaddr⟩ := hzero
    obtain ⟨last, hlast⟩ : ∃ last, (elfLoads phdrs).getLast? = some last :=
      Option.isSome_iff_exists.mp (List.getLast?_isSome.mpr (List.ne_nil_of_mem hmem))
    have hleast := h.least phdr hmem
    rw [hvaddr, Nat.le_zero, hbase.unset] at hleast
    exact hnot ⟨last, hlast, hleast last hlast⟩
  · intro hkept
    refine ⟨hbase.attained, ?_, fun h => (hend h).attained, fun h => (hend h).greatest⟩
    rcases hkept with hnonzero | ⟨phdr, hphdr, hzero⟩
    · exact hbase.least hnonzero
    · intro other _
      have hunset := hbase.unset.mpr fun p hp => by
        rw [hphdr, Option.some.injEq] at hp
        rw [← hp, hzero]
      omega

theorem ElfExtent.perm {memory memory' : Nat} {phdrs phdrs' : List Elf32Phdr} {f f' : ElfFile}
    (h : ElfExtent memory phdrs f) (h' : ElfExtent memory' phdrs' f') (hperm : phdrs.Perm phdrs')
    (hsome : elfLoads phdrs ≠ []) :
    f.virtualBaseAddress = f'.virtualBaseAddress ∧
      (ElfInRange phdrs → f.virtualEndAddress = f'.virtualEndAddress) := by
  have hloads : ∀ phdr, phdr ∈ elfLoads phdrs ↔ phdr ∈ elfLoads phdrs' :=
    fun phdr => (hperm.filter _).mem_iff
  have hsome' : elfLoads phdrs' ≠ [] := by
    obtain ⟨phdr, hphdr⟩ := List.exists_mem_of_ne_nil _ hsome
    exact List.ne_nil_of_mem ((hloads phdr).mp hphdr)
  obtain ⟨low, hlow, hlowat, -⟩ := h.base hsome
  obtain ⟨low', hlow', hlowat', -⟩ := h'.base hsome'
  refine ⟨?_, fun hrange => ?_⟩
  · have hle := h.least low' ((hloads low').mpr hlow')
    have hge := h'.least low ((hloads low).mp hlow)
    omega
  · have hrange' : ElfInRange phdrs' := fun phdr hphdr => hrange phdr ((hloads phdr).mpr hphdr)
    obtain ⟨high, hhigh, hhighat, -⟩ := h.ending hrange hsome
    obtain ⟨high', hhigh', hhighat', -⟩ := h'.ending hrange' hsome'
    have hle := h.greatest hrange high' ((hloads high').mpr hhigh')
    have hge := h'.greatest hrange' high ((hloads high).mp hhigh)
    omega

/-- The addresses found are the ones that are found with the headers in any other order. -/
def ElfOrderFree (m : Memory) (memory : Nat) : Prop :=
  ∀ m' memory', elfValidateLoaded m' memory' = allOk →
    (elfFilePhdrs m (elfUnprocessed memory)).Perm (elfFilePhdrs m' (elfUnprocessed memory')) →
    elfLoads (elfFilePhdrs m (elfUnprocessed memory)) ≠ [] →
    ElfBaseKept (elfFilePhdrs m (elfUnprocessed memory)) →
    ElfBaseKept (elfFilePhdrs m' (elfUnprocessed memory')) →
    (elfProcessPheaders m (elfUnprocessed memory)).virtualBaseAddress =
        (elfProcessPheaders m' (elfUnprocessed memory')).virtualBaseAddress ∧
      (ElfInRange (elfFilePhdrs m (elfUnprocessed memory)) →
        (elfProcessPheaders m (elfUnprocessed memory)).virtualEndAddress =
          (elfProcessPheaders m' (elfUnprocessed memory')).virtualEndAddress)

/-- The loop over the headers of an accepted file finds the extent exactly if no segment begins at 0
or the last one does; a base of 0 is otherwise lost. -/
theorem elf_process_pheaders_extent_iff {m : Memory} {memory : Nat}
    (haccepted : elfValidateLoaded m memory = allOk) :
    (ElfExtent memory (elfFilePhdrs m (elfUnprocessed memory))
        (elfProcessPheaders m (elfUnprocessed memory)) ↔
      ElfBaseKept (elfFilePhdrs m (elfUnprocessed memory))) ∧ ElfOrderFree m memory := by
  have hprocess : elfProcessPheaders m (elfUnprocessed memory) = _ := elfProcessPheaders_eq haccepted
  constructor
  · rw [hprocess]
    exact elfExtent_iff memory _
  · intro m' memory' haccepted' hperm hsome hkept hkept'
    have hprocess' : elfProcessPheaders m' (elfUnprocessed memory') = _ :=
      elfProcessPheaders_eq haccepted'
    rw [hprocess, hprocess']
    exact ((elfExtent_iff memory _).mpr hkept).perm ((elfExtent_iff memory' _).mpr hkept') hperm hsome

/-! An executable of 116 bytes with two segments, of which the first one begins at 0. -/

def zeroBaseFile (second : UInt8) : List UInt8 :=
  [127, 69, 76, 70, 1, 1, 1, 0, 0, 0, 0, 0, 0, 0, 0, 0, 2, 0, 3, 0, 1, 0, 0, 0, 0, 0, 64, 0, 52,
    0, 0, 0, 0, 0, 0, 0, 0, 0, 0, 0, 52, 0, 32, 0, 2, 0, 40, 0, 0, 0, 0, 0, 1, 0, 0, 0, 0, 0, 0,
    0, 0, 0, 0, 0, 0, 0, 0, 0, 16, 0, 0, 0, 16, 0, 0, 0, 5, 0, 0, 0, 0, 16, 0, 0, 1, 0, 0, 0, 0,
    0, 0, 0, 0, second, 0, 0, 0, 0, 0, 0, 16, 0, 0, 0, 16, 0, 0, 0, 5, 0, 0, 0, 0, 16, 0, 0]

theorem elf_process_pheaders_extent_bothZero :
    (ElfExtent 0 (elfFilePhdrs (fileMemory (zeroBaseFile 0)) (elfUnprocessed 0))
        (elfProcessPheaders (fileMemory (zeroBaseFile 0)) (elfUnprocessed 0)) ↔
      ElfBaseKept (elfFilePhdrs (fileMemory (zeroBaseFile 0)) (elfUnprocessed 0))) ∧
      ElfOrderFree (fileMemory (zeroBaseFile 0)) 0 :=
  elf_process_pheaders_extent_iff (by decide +kernel)

theorem elf_process_pheaders_not_always_extent :
    ¬ ∀ (m : Memory) (memory : Nat), elfValidateLoaded m memory = allOk →
      ElfExtent memory (elfFilePhdrs m (elfUnprocessed memory))
        (elfProcessPheaders m (elfUnprocessed memory)) := by
  intro hall
  have hextent := hall (fileMemory (zeroBaseFile 16)) 0 (by decide +kernel)
  have hbase : (elfProcessPheaders (fileMemory (zeroBaseFile 16))
      (elfUnprocessed 0)).virtualBaseAddress = 4096 := by
    decide +kernel
  have hfirst : ⟨1, 0, 0, 16, 16, 5⟩ ∈
      elfLoads (elfFilePhdrs (fileMemory (zeroBaseFile 16)) (elfUnprocessed 0)) := by
    decide +kernel
  have hleast := hextent.least _ hfirst
  rw [hbase] at hleast
  exact absurd hleast (by decide)

end BoiOS
