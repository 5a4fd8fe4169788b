import BoiOS.Programs.ParseCommand

/-! The arguments of a program. The kernel counts the nodes of the list, and copies each word to a
block of the program and its address to the next cell of the array. -/
namespace BoiOS
open Library.StateRun

variable {process argv i node : Nat} {P M Q : Set Int} {k k' : Kernel} {word : List UInt8}
  {words : List (List UInt8)}

/-! The counting. -/

theorem processCountCommandArgumentsLoop_chain {m : Memory} (h : CommandChain m node words)
    {fuel : Nat} (hfuel : words.length < fuel) :
    processCountCommandArgumentsLoop m fuel node k = .ok (words.length, k) := by
  induction h generalizing fuel with
  | done =>
    obtain ⟨fuel, rfl⟩ := Nat.exists_eq_succ_of_ne_zero (Nat.ne_of_gt (Nat.zero_lt_of_lt hfuel))
    rw [processCountCommandArgumentsLoop, if_pos rfl]
    rfl
  | node hnonnull _ _ ih =>
    obtain ⟨fuel, rfl⟩ := Nat.exists_eq_succ_of_ne_zero (Nat.ne_of_gt (Nat.zero_lt_of_lt hfuel))
    rw [processCountCommandArgumentsLoop, if_neg hnonnull, bind_of_ok (ih (Nat.lt_of_succ_lt_succ hfuel))]
    rfl

/-! The copying. -/

def copiedArgument (m : Memory) (cell argumentStr : Nat) (word : List UInt8) : Memory :=
  (m.copyIn argumentStr (word ++ [0])).store32 cell argumentStr

structure Kernel.CellHolds (M : Set Int) (k : Kernel) (cell : Nat) (word : List UInt8) : Prop where
  block : k.heap.BlockIn M (k.memory.load32 cell)
  word : k.memory.Holds (k.memory.load32 cell) word

/-- Of the memory of the blocks only the cells of the array from an index on changed. -/
structure OnlyCells (P : Set Int) (argv i : Nat) (k k' : Kernel) : Prop where
  start : k'.heap.startAddress = k.heap.startAddress
  total : k'.heap.table.totalEntries = k.heap.table.totalEntries
  memory : ∀ x < 4294967296, k.heap.blockOf x ∈ P → ¬ (argv + 4 * i ≤ x ∧ x < argv + 4096) →
    k'.memory x = k.memory x

theorem OnlyCells.sameMemory (h : OnlyCells P argv i k k') (hwf : k.heap.WellFormed)
    (hargv : k.heap.IsBlock argv) (hQ : Q ⊆ P) (hnot : k.heap.blockOf argv ∉ Q) :
    k.SameMemory Q k' := by
  intro x hx hblock
  refine h.memory x hx (hQ hblock) fun hin => hnot ?_
  rwa [← Heap.blockOf_near hwf hargv (x := x) (by unfold u32; omega)]

theorem Kernel.CellHolds.mono {M' : Set Int} {cell : Nat} (h : k.CellHolds M cell word)
    (hle : M ⊆ M') : k.CellHolds M' cell word := ⟨h.block.mono hle, h.word⟩

theorem OnlyCells.cellHolds (h : OnlyCells P argv (i + 1) k k') (hwf : k.heap.WellFormed)
    (hargv : k.heap.IsBlock argv) (hP : k.heap.blockOf argv ∈ P) (hi : i < 1024)
    (hnew : k.heap.blockOf (k.memory.load32 (argv + 4 * i : Nat)) ≠ k.heap.blockOf argv)
    (hlength : word.length < 4096) (hM : M ⊆ P) (hcell : k.CellHolds M (argv + 4 * i) word) :
    k'.CellHolds M (argv + 4 * i) word := by
  have hroom := hargv.room hwf
  have hload : k'.memory.load32 (argv + 4 * i : Nat) = k.memory.load32 (argv + 4 * i : Nat) := by
    refine Memory.load32_same (by omega) fun x hlow hhigh => h.memory x (by omega) ?_ (by omega)
    rwa [Heap.blockOf_near hwf hargv (by unfold u32; omega)]
  obtain ⟨hblock, hword⟩ := hcell
  have hroom' := hblock.block.room hwf
  have hapart := hblock.block.apart hargv hnew
  refine ⟨by rw [hload]; exact hblock.congr h.start h.total, ?_⟩
  rw [hload]
  refine hword.congr fun x hlow hhigh => h.memory x (by omega) ?_ (by omega)
  rw [Heap.blockOf_near hwf hblock.block (by unfold u32; omega)]
  exact hM hblock.mem

structure CopiedTo (process : Nat) (P M : Set Int) (argv i : Nat) (word : List UInt8)
    (k k' : Kernel) (argumentStr : Nat) : Prop where
  new : k'.heap.blockOf argumentStr ∉ P
  owning : Owning process (insert (k'.heap.blockOf argumentStr) P)
    (insert (k'.heap.blockOf argumentStr) M) k'
  capacity : capacity process k' + 1 = capacity process k
  cells : OnlyCells P argv i k k'
  load : k'.memory.load32 (argv + 4 * i : Nat) = argumentStr
  cell : k'.CellHolds (insert (k'.heap.blockOf argumentStr) M) (argv + 4 * i) word

theorem Obtains.copy {argumentStr : Nat} (h : Obtains process P M k k' argumentStr)
    (hkept : MallocKept process P k k') (hargv : k.heap.IsBlock argv)
    (hP : k.heap.blockOf argv ∈ P) (hi : i < 1024) (hword : 0 ∉ word)
    (hlength : word.length < sizeofArgument) :
    CopiedTo process P M argv i word k
      { k' with memory := copiedArgument k'.memory (argv + 4 * i) argumentStr word } argumentStr := by
  have hwf := h.owning.guards.wellFormed
  have hsize : sizeofArgument = 512 := rfl
  have hroom := h.block.room hwf
  have hargv' : k'.heap.IsBlock argv := hargv.congr hkept.start hkept.total
  have hargvRoom := hargv'.room hwf
  have hapart := h.block.apart hargv' fun heq => h.new (by
    rw [heq, Heap.blockOf_congr hkept.start]
    exact hP)
  have hcopied : ∀ x : Nat, 4 ≤ u32 ((x : Int) - (argv + 4 * i : Nat)) →
      copiedArgument k'.memory (argv + 4 * i) argumentStr word x =
        k'.memory.copyIn argumentStr (word ++ [0]) x := fun x hx => Memory.store32_off hx
  have hload : (copiedArgument k'.memory (argv + 4 * i) argumentStr word).load32
      (argv + 4 * i : Nat) = argumentStr := Memory.load32_store32 (by omega) (by omega)
  refine ⟨h.new, h.owning.congr h.owning.guards rfl rfl rfl rfl, h.capacity,
    ⟨hkept.start, hkept.total, fun x hx hblock hout => ?_⟩, hload, ?_⟩
  · rw [← hkept.memory x hx hblock]
    rw [← Heap.blockOf_congr hkept.start] at hblock
    have hfar := h.block.far hwf h.new hblock
    dsimp only
    rw [hcopied x (by unfold u32; omega)]
    refine Memory.copyIn_outside ?_
    rw [List.length_append, List.length_singleton]
    omega
  · constructor
    · dsimp only
      rw [hload]
      exact ⟨h.block, Set.mem_insert ..⟩
    · dsimp only
      rw [hload]
      refine (Memory.holds_copyIn k'.memory hword (by omega)).congr fun x hlow hhigh => hcopied x ?_
      unfold u32
      omega

/-- What the copying leaves: the cells of the array point to the words, in blocks of the program. -/
structure ArgumentsCopied (process : Nat) (P M M' : Set Int) (argv i : Nat) (k k' : Kernel)
    (words : List (List UInt8)) : Prop where
  more : M ⊆ M'
  owning : ∃ P', Owning process P' M' k'
  cells : OnlyCells P argv i k k'
  argument : ∀ j word, words[j]? = some word → k'.CellHolds M' (argv + 4 * (i + j)) word

theorem processInjectArgumentsLoop_chain {fuel : Nat} (h : Owning process P M k) (hM : M ⊆ P)
    (hQ : Q ⊆ P) (hargv : k.heap.IsBlock argv) (hP : k.heap.blockOf argv ∈ P)
    (hnot : k.heap.blockOf argv ∉ Q) (hchain : k.ChainIn Q node words)
    (hi : i + words.length ≤ 1024) (hroom : words.length ≤ capacity process k)
    (hfuel : words.length < fuel) :
    ∃ k' M', processInjectArgumentsLoop process argv fuel i node k = .ok (allOk, k') ∧
      ArgumentsCopied process P M M' argv i k k' words := by
  induction words generalizing P M k i node fuel with
  | nil =>
    obtain ⟨fuel, rfl⟩ := Nat.exists_eq_succ_of_ne_zero (Nat.ne_of_gt (Nat.zero_lt_of_lt hfuel))
    cases hchain with
    | done =>
      rw [processInjectArgumentsLoop, if_pos rfl]
      exact ⟨k, M, rfl, ⟨fun _ hb => hb, ⟨P, h⟩, ⟨rfl, rfl, fun _ _ _ _ => rfl⟩,
        fun j word hj => by simp at hj⟩⟩
  | cons word words ih =>
    obtain ⟨fuel, rfl⟩ := Nat.exists_eq_succ_of_ne_zero (Nat.ne_of_gt (Nat.zero_lt_of_lt hfuel))
    have hwf := h.guards.wellFormed
    rw [List.length_cons] at hi hroom hfuel
    obtain ⟨argumentStr, k₁, hmalloc, hkept, hserved⟩ :=
      h.processMalloc (show 1 ≤ sizeofArgument by decide) (show sizeofArgument ≤ 4096 by decide)
    have hobtains := hserved.resolve_left fun hfull => by
      have hnone := hfull.2.1
      omega
    have hbelow : k.SameMemory Q k₁ := fun x hx hblock => hkept.memory x hx (hQ hblock)
    cases hchain.frame hwf hbelow hkept.start hkept.total with
    | node hnonnull hblock hword hlength _ =>
      have hstring : k₁.memory.stringAt node sizeofArgument = word := by
        rw [hword.stringAt]
        exact List.take_of_length_le (Nat.le_sub_one_of_lt hlength)
      have hcell : u32 ((argv : Int) + 4 * i) = argv + 4 * i := by
        have hend := hargv.room hwf
        unfold u32
        omega
      have hcopy := hobtains.copy hkept hargv hP (by omega : i < 1024) hword.nonzero hlength
      let k₂ : Kernel := { k₁ with memory := copiedArgument k₁.memory (argv + 4 * i) argumentStr word }
      have hsame : ∀ x, k₂.heap.blockOf x = k.heap.blockOf x := Heap.blockOf_congr hcopy.cells.start
      have hargv₂ : k₂.heap.IsBlock argv := hargv.congr hcopy.cells.start hcopy.cells.total
      have hP₂ : k₂.heap.blockOf argv ∈ insert (k₁.heap.blockOf argumentStr) P := by
        rw [hsame argv]
        exact Set.mem_insert_of_mem _ hP
      have hnew : k₂.heap.blockOf (k₂.memory.load32 (argv + 4 * i : Nat)) ≠ k₂.heap.blockOf argv := by
        rw [hcopy.load]
        intro heq
        refine hcopy.new ?_
        rw [heq, hsame]
        exact hP
      cases hchain.frame hwf (hcopy.cells.sameMemory hwf hargv hQ hnot) hcopy.cells.start
        hcopy.cells.total with
      | node _ _ _ _ hrest =>
        have hcapacity : capacity process k₂ + 1 = capacity process k := hcopy.capacity
        obtain ⟨k', M', hloop, hcopied⟩ := ih (k := k₂) hcopy.owning
          (Set.insert_subset_insert hM) (hQ.trans (Set.subset_insert ..)) hargv₂ hP₂
          (by rwa [hsame]) hrest (by omega : i + 1 + words.length ≤ 1024) (by omega)
          (by omega : words.length < fuel)
        refine ⟨k', M', ?_, ⟨(Set.subset_insert ..).trans hcopied.more, hcopied.owning, ?_,
          fun j word' hj => ?_⟩⟩
        · rw [processInjectArgumentsLoop, if_neg hnonnull, bind_of_ok hmalloc,
            if_neg hobtains.nonnull, bind_of_ok (modify_apply _ k₁), bind_of_ok (modify_apply _ _),
            bind_of_ok (get_apply _)]
          dsimp only
          rw [hstring, hcell]
          exact hloop
        · refine ⟨hcopied.cells.start.trans hcopy.cells.start,
            hcopied.cells.total.trans hcopy.cells.total, fun x hx hin hout => ?_⟩
          rw [hcopied.cells.memory x hx (by rw [hsame x]; exact Set.mem_insert_of_mem _ hin) (by omega),
            hcopy.cells.memory x hx hin hout]
        · cases j with
          | zero =>
            obtain rfl : word = word' := Option.some.inj hj
            have hsize : sizeofArgument = 512 := rfl
            exact (hcopied.cells.cellHolds hcopy.owning.guards.wellFormed hargv₂ hP₂ (by omega) hnew
              (by omega) (Set.insert_subset_insert hM) hcopy.cell).mono hcopied.more
          | succ j =>
            have hlast := hcopied.argument j word' hj
            rwa [show i + 1 + j = i + (j + 1) by omega] at hlast

/-! The arguments as the program reads them. -/

def Kernel.programMemory (k : Kernel) (process : Nat) : Memory := fun va =>
  match (access (k.scheduler.store process)).bind fun p =>
      (access (k.scheduler.tasks.store p.task)).bind fun task =>
        taskVirtualAddressToPhysical k task va with
  | .ok address => k.memory address
  | .error _ => 0

theorem Owning.translate (h : Owning process P M k) {ptr x : Nat} (hptr : k.heap.BlockIn M ptr)
    (hlow : ptr ≤ x) (hhigh : x < ptr + 4096) :
    ∃ p task, k.scheduler.store process = some p ∧ k.scheduler.tasks.store p.task = some task ∧
      taskVirtualAddressToPhysical k task x = .ok x := by
  obtain ⟨p, task, directory, tables, hp, htask, hchunk, -, hin⟩ := h.mapped
  have haligned := hptr.block.aligned h.guards.wellFormed
  have hpage : pagingAlignToLowerPage x = ptr := by
    unfold pagingAlignToLowerPage pagingPageSize
    omega
  have haddress : pagingGetPhysicalAddress k.pages directory x = .ok x := by
    refine pagingGetPhysicalAddress_eq_ok.mpr ⟨_, by rw [hpage]; exact hin ptr hptr, ?_⟩
    rw [pagingFrame_or haligned (by decide)]
    omega
  refine ⟨p, task, hp, htask, ?_⟩
  unfold taskVirtualAddressToPhysical
  rw [hchunk, access_some]
  exact haddress

theorem Owning.programMemory (h : Owning process P M k) {ptr x : Nat} (hptr : k.heap.BlockIn M ptr)
    (hlow : ptr ≤ x) (hhigh : x < ptr + 4096) : k.programMemory process x = k.memory x := by
  obtain ⟨p, task, hp, htask, haddress⟩ := h.translate hptr hlow hhigh
  unfold Kernel.programMemory
  simp only [hp, htask, access_some, Except.bind, haddress]

def Kernel.HasArguments (k : Kernel) (process : Nat) (words : List (List UInt8)) : Prop :=
  ∃ p, k.scheduler.store process = some p ∧ p.arguments.argc = words.length ∧
    ∀ i word, words[i]? = some word → (k.programMemory process).Holds
      ((k.programMemory process).load32 (p.arguments.argv + 4 * i : Nat)) word

theorem Owning.argument (h : Owning process P M k) (hargv : k.heap.BlockIn M argv) (hi : i < 1024)
    (hlength : word.length < 4096) (hcell : k.CellHolds M (argv + 4 * i) word) :
    (k.programMemory process).Holds
      ((k.programMemory process).load32 (argv + 4 * i : Nat)) word := by
  have hroom := hargv.block.room h.guards.wellFormed
  have hload : (k.programMemory process).load32 (argv + 4 * i : Nat) =
      k.memory.load32 (argv + 4 * i : Nat) :=
    Memory.load32_same (by omega) fun x hlow hhigh => h.programMemory hargv (by omega) (by omega)
  rw [hload]
  exact hcell.word.congr fun x hlow hhigh => h.programMemory hcell.block hlow (by omega)

theorem Owning.putProcess (h : Owning process P M k) {p p' : Process}
    (hp : k.scheduler.store process = some p) (htask : p'.task = p.task) :
    Owning process P M (BoiOS.putProcess process p' k) := by
  obtain ⟨q, task, directory, tables, hq, hqtask, hchunk, hdir, hin⟩ := h.mapped
  obtain rfl := Option.some.inj (hp.symm.trans hq)
  rw [← htask] at hqtask
  exact ⟨h.guards, p', task, directory, tables, putProcess_store_self .., hqtask, hchunk, hdir, hin⟩

/-- With a block for the array and one for each word, the words of the list become the arguments of
the process. -/
theorem processInjectArguments_chain {root : Nat} (h : Owning process P ∅ k) (hQ : Q ⊆ P)
    (hchain : k.ChainIn Q root words) (hsome : words ≠ []) (hmany : words.length ≤ 1024)
    (hroom : words.length + 1 ≤ capacity process k) :
    ∃ k' P' M', processInjectArguments process root k = .ok (allOk, k') ∧
      Owning process P' M' k' ∧ k'.HasArguments process words := by
  have hpositive := List.length_pos_iff.mpr hsome
  have hcount : processCountCommandArguments root k = .ok (words.length, k) := by
    unfold processCountCommandArguments
    rw [bind_of_ok (get_apply k)]
    exact processCountCommandArgumentsLoop_chain hchain.chain (by omega)
  have hsize : u32 (4 * (words.length : Int)) = 4 * words.length := by
    unfold u32
    omega
  obtain ⟨argv, k₁, hmalloc, hkept, hserved⟩ :=
    h.processMalloc (by omega : 1 ≤ 4 * words.length) (by omega)
  have hobtains := hserved.resolve_left fun hfull => by
    have hnone := hfull.2.1
    omega
  have hcapacity := hobtains.capacity
  have hsame : k.SameMemory Q k₁ := fun x hx hblock => hkept.memory x hx (hQ hblock)
  obtain ⟨k₂, M', hloop, hcopied⟩ := processInjectArgumentsLoop_chain (i := 0)
    hobtains.owning (Set.insert_subset_insert (Set.empty_subset P)) (hQ.trans (Set.subset_insert ..))
    hobtains.block (Set.mem_insert ..) (fun hin => hobtains.new (hQ hin))
    (hchain.frame h.guards.wellFormed hsame hkept.start hkept.total) (by omega) (by omega)
    (by omega : words.length < 4294967296)
  obtain ⟨P', howning⟩ := hcopied.owning
  obtain ⟨p, -, -, -, hp, -⟩ := howning.mapped
  let p' : Process := { p with arguments := ⟨i32 words.length, argv⟩ }
  have hput : Owning process P' M' (putProcess process p' k₂) := howning.putProcess hp rfl
  refine ⟨_, P', M', ?_, hput, _, putProcess_store_self .., i32_of_range (by omega) (by omega),
    fun i word hword => ?_⟩
  · unfold processInjectArguments
    rw [bind_of_ok hcount, if_neg (by omega), hsize, bind_of_ok hmalloc, if_neg hobtains.nonnull,
      bind_of_ok hloop, if_neg (by decide), bind_of_ok (modifyProcess_of_store hp)]
    rfl
  · have hi : i < words.length := (List.getElem?_eq_some_iff.mp hword).1
    have hlength := hchain.length_lt word (List.mem_of_getElem? hword)
    have hfits : sizeofArgument ≤ 4096 := by decide
    have hargv : k₂.heap.BlockIn M' argv := by
      refine ⟨hobtains.block.congr hcopied.cells.start hcopied.cells.total, ?_⟩
      rw [Heap.blockOf_congr hcopied.cells.start]
      exact hcopied.more (Set.mem_insert ..)
    have hcell := hcopied.argument i word hword
    rw [Nat.zero_add] at hcell
    exact hput.argument hargv (by omega) (by omega) ⟨hcell.block, hcell.word⟩

end BoiOS
