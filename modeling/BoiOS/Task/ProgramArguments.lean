import BoiOS.Memory.PagingSpec
import BoiOS.Task.Process

/-! The system call that tells a program its arguments. The kernel translates the program's
pointer once, for the first byte, and stores eight bytes from there on; it looks neither at the
page of the last byte nor at the flags of any page. -/
namespace BoiOS
open Library.StateRun

def wordBytes (v : Int) : List UInt8 :=
  (List.range 4).map fun i => UInt8.ofNat (u32 v / 256 ^ i % 256)

/-- The stores of `process_get_arguments`, through pointers to the two fields of the structure at
an address: the address of each byte and its value. -/
def argumentStores (p : Process) (arguments : Nat) : List (Nat × UInt8) :=
  (wordBytes p.arguments.argc ++ wordBytes p.arguments.argv).zipIdx.map fun (value, i) =>
    (u32 ((arguments : Int) + i), value)

def Memory.run (m : Memory) (stores : List (Nat × UInt8)) : Memory :=
  stores.foldl (fun m store => Function.update m store.1 store.2) m

def taskVirtualAddressToPhysical (k : Kernel) (task : Task) (virtAddr : Nat) : Except Stop Nat :=
  (access (k.pages.chunks task.pageDirectory)).bind fun directory =>
    pagingGetPhysicalAddress k.pages directory virtAddr

/-- What the system call stores. `stackItem` is the word that the program left on its stack. -/
def isr80hCommand8Stores (k : Kernel) (stackItem : Nat) : Except Stop (List (Nat × UInt8)) := do
  let task ← access (k.scheduler.tasks.store k.scheduler.tasks.currentTask)
  let p ← access (k.scheduler.store task.process)
  let arguments ← taskVirtualAddressToPhysical k task stackItem
  pure (argumentStores p arguments)

def isr80hCommand8GetProgramArguments (stackItem : Nat) : KernelM Nat := fun k =>
  (isr80hCommand8Stores k stackItem).map fun stores =>
    (0, { k with memory := k.memory.run stores })

/-- The page of an address is present and the program may write it: the flags of the directory and
of the table both say so. -/
def UserWritable (s : PageStore) (directory va : Nat) : Prop :=
  ∃ entries, s.arrays directory = some entries ∧ entries (pagingDirectoryIndex va) &&& 7 = 7 ∧
    ∃ entry, pagingGet s directory (pagingAlignToLowerPage va) = .ok entry ∧ entry &&& 7 = 7

def PageStore.Words (s : PageStore) : Prop :=
  ∀ array entries, s.arrays array = some entries → ∀ i, entries i < 4294967296

/-- The kernel wrote where the program may write: each byte at the translation of its own address,
and nothing if one of the pages may not be written. -/
structure WritesForCaller (directory p : Nat) (stores : List (Nat × UInt8)) (k k' : Kernel) : Prop where
  lands : ∀ i : Nat, i < 8 → ∃ store, stores[i]? = some store ∧
    pagingGetPhysicalAddress k.pages directory (u32 ((p : Int) + i)) = .ok store.1
  refuses : (∃ i : Nat, i < 8 ∧ ¬ UserWritable k.pages directory (u32 ((p : Int) + i))) →
    k'.memory = k.memory

/-- All eight bytes are in one page, or the next page of the program is backed by the next frame. -/
def OneFrame (s : PageStore) (directory p : Nat) : Prop :=
  p % 4096 ≤ 4088 ∨ ∃ entry next, pagingGet s directory (pagingAlignToLowerPage p) = .ok entry ∧
    pagingGet s directory (pagingAlignToLowerPage (u32 ((p : Int) + 7))) = .ok next ∧
    pagingFrame next = u32 ((pagingFrame entry : Int) + 4096)

/-- The bytes at the translated address are already those of the arguments. -/
def AlreadyStored (s : PageStore) (m : Memory) (directory p : Nat) (process : Process) : Prop :=
  ∃ arguments, pagingGetPhysicalAddress s directory p = .ok arguments ∧
    ∀ store ∈ argumentStores process arguments, m store.1 = store.2

@[simp] theorem argumentStores_length (p : Process) (arguments : Nat) :
    (argumentStores p arguments).length = 8 := by
  simp [argumentStores, wordBytes]

theorem argumentStores_getElem (p : Process) (arguments : Nat) {i : Nat} (hi : i < 8) :
    ∃ store, (argumentStores p arguments)[i]? = some store ∧
      store.1 = u32 ((arguments : Int) + i) := by
  have hlength : (wordBytes p.arguments.argc ++ wordBytes p.arguments.argv).length = 8 := by
    simp [wordBytes]
  unfold argumentStores
  rw [List.getElem?_map, List.getElem?_zipIdx, List.getElem?_eq_getElem (by omega)]
  exact ⟨_, rfl, by simp⟩

theorem run_of_mem (stores : List (Nat × UInt8)) (m : Memory)
    (hnodup : (stores.map Prod.fst).Nodup) (store : Nat × UInt8) (hmem : store ∈ stores) :
    m.run stores store.1 = store.2 := by
  induction stores generalizing m with
  | nil => exact absurd hmem List.not_mem_nil
  | cons first rest ih =>
    rw [List.map_cons, List.nodup_cons] at hnodup
    unfold Memory.run at ih ⊢
    rw [List.foldl_cons]
    rcases List.mem_cons.mp hmem with rfl | hmem
    · have hkept : ∀ (l : List (Nat × UInt8)) (m : Memory), store.1 ∉ l.map Prod.fst →
          (l.foldl (fun m store => Function.update m store.1 store.2) m) store.1 = m store.1 := by
        intro l
        induction l with
        | nil => intro m _; rfl
        | cons other l ihl =>
          intro m hnot
          rw [List.map_cons, List.mem_cons, not_or] at hnot
          rw [List.foldl_cons, ihl _ hnot.2, Function.update_of_ne hnot.1]
      rw [hkept rest _ hnodup.1, Function.update_self]
    · exact ih _ hnodup.2 hmem

theorem run_of_stored (stores : List (Nat × UInt8)) (m : Memory)
    (h : ∀ store ∈ stores, m store.1 = store.2) : m.run stores = m := by
  induction stores generalizing m with
  | nil => rfl
  | cons first rest ih =>
    have hfirst : Function.update m first.1 first.2 = m := by
      rw [← h first (List.mem_cons_self ..), Function.update_eq_self]
    unfold Memory.run at ih ⊢
    rw [List.foldl_cons, hfirst]
    exact ih m fun store hstore => h store (List.mem_cons_of_mem _ hstore)

/-! Translation. -/

theorem pagingGetPhysicalAddress_eq_ok {s : PageStore} {directory va pa : Nat} :
    pagingGetPhysicalAddress s directory va = .ok pa ↔
      ∃ entry, pagingGet s directory (pagingAlignToLowerPage va) = .ok entry ∧
        pa = pagingFrame entry + va % 4096 := by
  have hoffset : va - pagingAlignToLowerPage va = va % 4096 := by
    unfold pagingAlignToLowerPage pagingPageSize
    omega
  unfold pagingGetPhysicalAddress
  dsimp only
  rw [hoffset]
  cases pagingGet s directory (pagingAlignToLowerPage va) with
  | error stop => simp [Except.map]
  | ok entry =>
    simp only [Except.map, Except.ok.injEq, exists_eq_left']
    exact eq_comm

theorem pagingGet_lt {s : PageStore} (h : s.Words) {directory va entry : Nat}
    (hget : pagingGet s directory va = .ok entry) : entry < 4294967296 := by
  unfold pagingGet pagingEntry at hget
  generalize (if pagingIsAligned va then va else 0) = page at hget
  cases htable : pagingTable s directory page with
  | none => simp [htable, Except.bind] at hget
  | some table =>
    cases harray : s.arrays table with
    | none => simp [htable, harray, Except.bind, Except.map] at hget
    | some entries =>
      simp only [htable, harray, access_some, Except.bind, Except.map, Except.ok.injEq] at hget
      rw [← hget]
      exact h table entries harray _

theorem lands_iff {s : PageStore} (hwords : s.Words) {directory p arguments : Nat}
    (hp : p < 4294967296) (harguments : pagingGetPhysicalAddress s directory p = .ok arguments) :
    (∀ i : Nat, i < 8 → pagingGetPhysicalAddress s directory (u32 ((p : Int) + i)) =
        .ok (u32 ((arguments : Int) + i))) ↔ OneFrame s directory p := by
  obtain ⟨entry, hentry, hargs⟩ := pagingGetPhysicalAddress_eq_ok.mp harguments
  have hlt := pagingGet_lt hwords hentry
  have hframe : pagingFrame entry % 4096 = 0 ∧ pagingFrame entry + 4096 ≤ 4294967296 := by
    unfold pagingFrame
    omega
  have hpage : ∀ i : Nat, p % 4096 + i < 4096 → u32 ((p : Int) + i) = p + i := by
    intro i hi
    unfold u32
    omega
  have hsame : ∀ i : Nat, p % 4096 + i < 4096 →
      pagingGetPhysicalAddress s directory (u32 ((p : Int) + i)) =
        .ok (u32 ((arguments : Int) + i)) := by
    intro i hi
    rw [hpage i hi]
    have halign : pagingAlignToLowerPage (p + i) = pagingAlignToLowerPage p := by
      unfold pagingAlignToLowerPage pagingPageSize
      omega
    refine pagingGetPhysicalAddress_eq_ok.mpr ⟨entry, by rw [halign, hentry], ?_⟩
    unfold u32
    omega
  constructor
  · intro hall
    by_cases hone : p % 4096 ≤ 4088
    · exact Or.inl hone
    · obtain ⟨next, hnext, haddress⟩ := pagingGetPhysicalAddress_eq_ok.mp (hall 7 (by decide))
      have hnextLt := pagingGet_lt hwords hnext
      refine Or.inr ⟨entry, next, hentry, hnext, ?_⟩
      have hnextFrame : pagingFrame next % 4096 = 0 ∧ pagingFrame next + 4096 ≤ 4294967296 := by
        unfold pagingFrame
        omega
      unfold u32 at haddress ⊢
      omega
  · rintro (hone | ⟨entry', next, hentry', hnext, hfollow⟩) i hi
    · exact hsame i (by omega)
    · by_cases hin : p % 4096 + i < 4096
      · exact hsame i hin
      · -- the byte is in the page of the last one
        rw [hentry, Except.ok.injEq] at hentry'
        subst hentry'
        have halign : pagingAlignToLowerPage (u32 ((p : Int) + i)) =
            pagingAlignToLowerPage (u32 ((p : Int) + 7)) := by
          unfold pagingAlignToLowerPage pagingPageSize u32
          omega
        refine pagingGetPhysicalAddress_eq_ok.mpr ⟨next, by rw [halign]; exact hnext, ?_⟩
        unfold u32 at hfollow ⊢
        omega

theorem run_argumentStores_iff (process : Process) (arguments : Nat) (m : Memory) :
    m.run (argumentStores process arguments) = m ↔
      ∀ store ∈ argumentStores process arguments, m store.1 = store.2 := by
  constructor
  · intro hsame store hmem
    have hnodup : ((argumentStores process arguments).map Prod.fst).Nodup := by
      rw [List.nodup_iff_getElem?_ne_getElem?]
      intro i j hij hj heq
      rw [List.length_map, argumentStores_length] at hj
      obtain ⟨si, hsi, hai⟩ := argumentStores_getElem process arguments (show i < 8 by omega)
      obtain ⟨sj, hsj, haj⟩ := argumentStores_getElem process arguments hj
      rw [List.getElem?_map, List.getElem?_map, hsi, hsj, Option.map_some, Option.map_some,
        Option.some.injEq, hai, haj] at heq
      unfold u32 at heq
      omega
    rw [← run_of_mem _ m hnodup store hmem, hsame]
  · exact run_of_stored _ m

theorem get_program_arguments_confined_iff (k k' : Kernel) (hwords : k.pages.Words) (task : Task)
    (process : Process) (directory p res : Nat) (hp : p < 4294967296)
    (htask : k.scheduler.tasks.store k.scheduler.tasks.currentTask = some task)
    (hprocess : k.scheduler.store task.process = some process)
    (hdirectory : k.pages.chunks task.pageDirectory = some directory)
    (stores : List (Nat × UInt8)) (hstores : isr80hCommand8Stores k p = .ok stores)
    (hrun : isr80hCommand8GetProgramArguments p k = .ok (res, k')) :
    WritesForCaller directory p stores k k' ↔ OneFrame k.pages directory p ∧
      ((∀ i : Nat, i < 8 → UserWritable k.pages directory (u32 ((p : Int) + i))) ∨
        AlreadyStored k.pages k.memory directory p process) := by
  have hmemory : k'.memory = k.memory.run stores := by
    unfold isr80hCommand8GetProgramArguments at hrun
    rw [hstores] at hrun
    simp only [Except.map, Except.ok.injEq, Prod.mk.injEq] at hrun
    rw [← hrun.2]
  obtain ⟨arguments, harguments, rfl⟩ : ∃ arguments,
      pagingGetPhysicalAddress k.pages directory p = .ok arguments ∧
        stores = argumentStores process arguments := by
    unfold isr80hCommand8Stores taskVirtualAddressToPhysical at hstores
    simp only [htask, hprocess, hdirectory, access_some, bind, Except.bind] at hstores
    cases harguments : pagingGetPhysicalAddress k.pages directory p with
    | error stop => simp [harguments] at hstores
    | ok arguments =>
      simp only [harguments, pure, Except.pure, Except.ok.injEq] at hstores
      exact ⟨arguments, rfl, hstores.symm⟩
  have hlands : (∀ i : Nat, i < 8 → ∃ store, (argumentStores process arguments)[i]? = some store ∧
      pagingGetPhysicalAddress k.pages directory (u32 ((p : Int) + i)) = .ok store.1) ↔
      OneFrame k.pages directory p := by
    rw [← lands_iff hwords hp harguments]
    refine forall_congr' fun i => forall_congr' fun hi => ?_
    obtain ⟨store, hstore, haddress⟩ := argumentStores_getElem process arguments hi
    rw [hstore, ← haddress]
    simp
  have hstored : AlreadyStored k.pages k.memory directory p process ↔
      k.memory.run (argumentStores process arguments) = k.memory := by
    rw [run_argumentStores_iff]
    unfold AlreadyStored
    rw [harguments]
    simp
  constructor
  · intro h
    refine ⟨hlands.mp h.lands, ?_⟩
    by_cases hall : ∀ i : Nat, i < 8 → UserWritable k.pages directory (u32 ((p : Int) + i))
    · exact Or.inl hall
    · push Not at hall
      exact Or.inr (hstored.mpr (hmemory.symm.trans (h.refuses hall)))
  · rintro ⟨hframe, hwritable⟩
    refine ⟨hlands.mpr hframe, ?_⟩
    rintro ⟨i, hi, hnot⟩
    rcases hwritable with hall | halready
    · exact absurd (hall i hi) hnot
    · rw [hmemory]
      exact hstored.mp halready

def programKernel (flags : Nat) : Kernel :=
  { emptyKernel 8 with
    pages :=
      { chunks := fun chunk => if chunk = 0x1000 then some 0x2000 else none
        arrays := fun array =>
          if array = 0x2000 then some fun _ => 0x3007
          else if array = 0x3000 then some (pagingIdentityTable flags 0) else none
        entered := [] }
    scheduler :=
      { store := fun _ => some { processInit with arguments := ⟨1, 0x1004000⟩ }
        processes := fun _ => 0
        currentProcess := 0
        tasks := ⟨fun _ => some (taskInit 0x1000 0x4000 0), 0x5000, 0x5000, 0x5000⟩ } }

theorem programKernel_words {flags : Nat} (hflags : flags < 4294967296) :
    (programKernel flags).pages.Words := by
  intro array entries harray i
  have hor : pagingIdentityTable flags 0 i < 4294967296 :=
    Nat.or_lt_two_pow (n := 32) (u32_lt _) hflags
  unfold programKernel at harray
  dsimp only at harray
  split_ifs at harray with hdirectory htable
  · rw [← Option.some.inj harray]
    exact (by decide : 0x3007 < 4294967296)
  · rw [← Option.some.inj harray]
    exact hor

theorem get_program_arguments_confined_iff_readOnly : ∃ stores k',
    isr80hCommand8GetProgramArguments 0x100000 (programKernel 5) = .ok (0, k') ∧
    (WritesForCaller 0x2000 0x100000 stores (programKernel 5) k' ↔
      OneFrame (programKernel 5).pages 0x2000 0x100000 ∧
        ((∀ i : Nat, i < 8 → UserWritable (programKernel 5).pages 0x2000
            (u32 (((0x100000 : Nat) : Int) + i))) ∨
          AlreadyStored (programKernel 5).pages (programKernel 5).memory 0x2000 0x100000
            { processInit with arguments := ⟨1, 0x1004000⟩ })) :=
  ⟨_, _, rfl, get_program_arguments_confined_iff (programKernel 5) _ (programKernel_words (by decide))
    (taskInit 0x1000 0x4000 0) _ 0x2000 0x100000 0 (by decide) rfl rfl rfl _ rfl rfl⟩

theorem get_program_arguments_not_confined : ¬ ∀ (k k' : Kernel) (task : Task)
    (directory p res : Nat) (stores : List (Nat × UInt8)), p < 4294967296 →
    k.scheduler.tasks.store k.scheduler.tasks.currentTask = some task →
    k.pages.chunks task.pageDirectory = some directory →
    isr80hCommand8Stores k p = .ok stores →
    isr80hCommand8GetProgramArguments p k = .ok (res, k') →
    WritesForCaller directory p stores k k' := by
  intro hall
  have hconfined := hall (programKernel 5) _ (taskInit 0x1000 0x4000 0) 0x2000 0x100000 0 _
    (by decide) rfl rfl rfl rfl
  have hreadOnly : ¬ UserWritable (programKernel 5).pages 0x2000
      (u32 (((0x100000 : Nat) : Int) + (0 : Nat))) := by
    rintro ⟨entries, -, -, entry, hget, hflags⟩
    have hentry : pagingGet (programKernel 5).pages 0x2000
        (pagingAlignToLowerPage (u32 (((0x100000 : Nat) : Int) + (0 : Nat)))) = .ok 0x100005 := by
      decide +kernel
    rw [hentry, Except.ok.injEq] at hget
    rw [← hget] at hflags
    exact absurd hflags (by decide)
  have hsame := congrFun (hconfined.refuses ⟨0, by decide, hreadOnly⟩) 0x100000
  revert hsame
  decide +kernel

end BoiOS
