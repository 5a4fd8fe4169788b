import BoiOS.Library.Transition
import BoiOS.Memory.HeapRooted
import BoiOS.Task.ExitReturns

/-! What is left of a process that exits. Nothing that it frees while it runs, and nothing that
`process_terminate` frees, is the structure of the process itself. -/
namespace BoiOS
open Library.StateRun Library.Transition

theorem Heap.BlockIn.misses {S : Set Int} {b : Int} {heap : Heap} {ptr : Nat}
    (h : heap.BlockIn S ptr) (hwf : heap.WellFormed) (hb : b ∉ S) : heap.Misses b ptr := by
  have hbelow := hwf.below
  have haddress := h.block.address
  have hlow := h.block.low
  have hhigh := h.block.high
  have hblock := heapAddressToBlock_eq_blockOf heap ptr (by omega)
  refine ⟨?_, by omega, Or.inr (by omega)⟩
  rw [hblock]
  rintro rfl
  exact hb h.mem

def Kernel.PagesMiss (b : Int) (k : Kernel) (task : Nat) : Prop :=
  ∃ chunk directory tables,
    (k.scheduler.tasks.store task).map Task.pageDirectory = some chunk ∧
      k.pages.chunks chunk = some directory ∧ IsDirectory k.pages directory tables ∧
      k.heap.Misses b chunk ∧ k.heap.Misses b directory ∧ ∀ i < 1024, k.heap.Misses b (tables i)

/-- What a process refers to is elsewhere than the block. -/
structure Kernel.PartsMiss (b : Int) (k : Kernel) (p : Process) : Prop where
  ptr : k.heap.Misses b p.ptr
  elfMemory : p.filetype = processFileTypeElf → ∀ file, k.elfFiles p.ptr = some file →
    k.heap.Misses b file.elfMemory
  stack : k.heap.Misses b p.stack
  task : k.heap.Misses b p.task
  pages : k.PagesMiss b p.task
  allocations : ∀ i < boiosMaxProgramAllocations, k.heap.Misses b (p.allocations i).ptr

/-- The block stays taken, and the process does not refer to it. -/
structure Kernel.Leaves (b : Int) (process : Nat) (k : Kernel) : Prop where
  rooted : k.heap.Rooted b
  parts : ∃ p, k.scheduler.store process = some p ∧ k.PartsMiss b p

theorem ProcessLoaded.leaves {P : Set Int} {slot process : Nat} {k k' : Kernel}
    (h : ProcessLoaded P slot k k' process) : k'.Leaves (k.heap.blockOf process) process := by
  obtain ⟨S, T, p, hguards, htree, -⟩ := h.tree
  have hwf := hguards.guards.wellFormed
  have hself : k.heap.blockOf process ∈ insert (k.heap.blockOf process) P := Set.mem_insert ..
  have hS : k.heap.blockOf process ∉ S := fun hin => hguards.apart _ hin hself
  have hT : k.heap.blockOf process ∉ T := fun hin => hguards.apartTask _ hin (Or.inl hself)
  have hrooted : k'.heap.Rooted (k.heap.blockOf process) :=
    hguards.guards.rooted (Or.inl (Or.inl hself))
  refine ⟨hrooted, p, htree.stored, ?_⟩
  obtain ⟨htask, chunk, hchunk, hchunkBlock, directory, tables, hentry, hdirectory, hdir, htables⟩ :=
    htree.task
  refine {
    ptr := htree.program.block.misses hwf hS
    elfMemory := fun hkind file hfile => ?_
    stack := htree.stack.misses hwf hS
    task := htask.misses hwf hT
    pages := ⟨chunk, directory, tables, hchunk, hentry, hdir, hchunkBlock.misses hwf hT,
      hdirectory.misses hwf hT, fun i hi => (htables i hi).misses hwf hT⟩
    allocations := fun i hi => ?_ }
  · rcases htree.program with ⟨-, -, file', hfile', hmemory⟩ | ⟨hbinary, -⟩
    · obtain rfl := Option.some.inj (hfile.symm.trans hfile')
      rcases hmemory with hzero | hin
      · rw [hzero]
        exact hrooted.misses_null
      · exact hin.misses hwf hS
    · rw [hbinary] at hkind
      exact absurd hkind (by decide)
  · rw [htree.allocations i hi]
    exact hrooted.misses_null

/-! Running. -/

theorem Kernel.PartsMiss.congr {b : Int} {k k' : Kernel} {p p' : Process} (h : k.PartsMiss b p)
    (hstart : k'.heap.startAddress = k.heap.startAddress) (helf : k'.elfFiles = k.elfFiles)
    (htasks : k'.scheduler.tasks = k.scheduler.tasks)
    (hpages : ∀ chunk directory tables,
      (k.scheduler.tasks.store p.task).map Task.pageDirectory = some chunk →
        k.pages.chunks chunk = some directory → IsDirectory k.pages directory tables →
          MapFrame directory tables k.pages k'.pages)
    (hfiletype : p'.filetype = p.filetype) (hptr : p'.ptr = p.ptr) (hstack : p'.stack = p.stack)
    (htask : p'.task = p.task)
    (hallocations : ∀ i < boiosMaxProgramAllocations, (p'.allocations i).ptr = (p.allocations i).ptr ∨
      k.heap.Misses b (p'.allocations i).ptr) : k'.PartsMiss b p' := by
  obtain ⟨chunk, directory, tables, hchunk, hentry, hdir, hmissChunk, hmissDirectory, hmissTables⟩ :=
    h.pages
  have hmap := hpages chunk directory tables hchunk hentry hdir
  refine {
    ptr := by rw [hptr]; exact h.ptr.congr hstart
    elfMemory := fun hkind file hfile => ?_
    stack := by rw [hstack]; exact h.stack.congr hstart
    task := by rw [htask]; exact h.task.congr hstart
    pages := ⟨chunk, directory, tables, by rw [htasks, htask, hchunk], by rw [hmap.chunks, hentry],
      hmap.directory, hmissChunk.congr hstart, hmissDirectory.congr hstart,
      fun i hi => (hmissTables i hi).congr hstart⟩
    allocations := fun i hi => ?_ }
  · rw [hfiletype] at hkind
    rw [helf, hptr] at hfile
    exact (h.elfMemory hkind file hfile).congr hstart
  · rcases hallocations i hi with hsame | hnew
    · rw [hsame]
      exact (h.allocations i hi).congr hstart
    · exact hnew.congr hstart

theorem Kernel.PartsMiss.putProcess {b : Int} {process : Nat} {k : Kernel} {p q : Process}
    (h : k.PartsMiss b p) : (BoiOS.putProcess process q k).PartsMiss b p := by
  unfold BoiOS.putProcess
  exact ⟨h.ptr, h.elfMemory, h.stack, h.task, h.pages, h.allocations⟩

theorem processMapAllocation_mapFrame {k : Kernel} {p : Process} {task : Task}
    {a : ProcessAllocation} {flags : Nat} {res : Int} {pages : PageStore}
    (htask : k.scheduler.tasks.store p.task = some task) (hptr : a.ptr < 4294967296)
    (hmap : processMapAllocation task.pageDirectory a flags k.pages = .ok (res, pages))
    (chunk directory : Nat) (tables : Nat → Nat)
    (hchunk : (k.scheduler.tasks.store p.task).map Task.pageDirectory = some chunk)
    (hentry : k.pages.chunks chunk = some directory)
    (hdir : IsDirectory k.pages directory tables) : MapFrame directory tables k.pages pages := by
  rw [htask, Option.map_some, Option.some.injEq] at hchunk
  rw [← hchunk] at hentry
  unfold processMapAllocation at hmap
  exact pagingMapTo_frame hdir hentry hptr hmap

variable {b : Int} {process : Nat} {k k' : Kernel}

theorem Kernel.Leaves.malloc (h : k.Leaves b process) {size ptr : Nat} (hsize : size < 4294967296)
    (hrun : processMalloc process size k = .ok (ptr, k')) : k'.Leaves b process := by
  obtain ⟨p, hp, hparts⟩ := h.parts
  obtain ⟨hrooted, hmisses⟩ := h.rooted.heapMalloc hsize
  have hstart := heapMalloc_startAddress k.heap size
  have hback := hrooted.heapFree (hmisses.congr hstart)
  have hbackStart := (heapFree_startAddress (heapMalloc k.heap size).2
    (heapMalloc k.heap size).1).trans hstart
  have hrefl : ∀ chunk directory tables,
      (k.scheduler.tasks.store p.task).map Task.pageDirectory = some chunk →
        k.pages.chunks chunk = some directory → IsDirectory k.pages directory tables →
          MapFrame directory tables k.pages k.pages := fun _ _ _ _ _ hdir => .refl hdir
  cases processMalloc_eq_ok hrun with
  | outOfMemory =>
    exact ⟨hrooted, p, hp, hparts.congr hstart rfl rfl hrefl rfl rfl rfl rfl fun _ _ => Or.inl rfl⟩
  | noEntry =>
    exact ⟨hback, p, hp, hparts.congr hbackStart rfl rfl hrefl rfl rfl rfl rfl
      fun _ _ => Or.inl rfl⟩
  | unmapped p' task res pages _ hp' htask hmap =>
    obtain rfl := Option.some.inj (hp'.symm.trans hp)
    exact ⟨hback, p', hp, hparts.congr hbackStart rfl rfl
      (processMapAllocation_mapFrame htask hmisses.2.1 hmap) rfl rfl rfl rfl fun _ _ => Or.inl rfl⟩
  | entered p' task res pages index _ hp' htask hmap =>
    obtain rfl := Option.some.inj (hp'.symm.trans hp)
    refine ⟨hrooted, _, putProcess_store_self .., hparts.congr hstart rfl rfl
      (processMapAllocation_mapFrame htask hmisses.2.1 hmap) rfl rfl rfl rfl fun i _ => ?_⟩
    dsimp only
    by_cases hi : i = index
    · rw [hi, Function.update_self]
      exact Or.inr hmisses
    · rw [Function.update_of_ne hi]
      exact Or.inl rfl

theorem Kernel.Leaves.free (h : k.Leaves b process) {ptr : Nat} {u : Unit}
    (hrun : processFree process ptr k = .ok (u, k')) : k'.Leaves b process := by
  obtain ⟨p, hp, hparts⟩ := h.parts
  cases processFree_eq_ok hrun with
  | notFound => exact h
  | unmapped p' task i res pages hp' hi _ htask hmap =>
    obtain rfl := Option.some.inj (hp'.symm.trans hp)
    exact ⟨h.rooted, p', hp, hparts.congr rfl rfl rfl
      (processMapAllocation_mapFrame htask (hparts.allocations i hi).2.1 hmap) rfl rfl rfl rfl
      fun _ _ => Or.inl rfl⟩
  | freed p' task i res pages hp' hi hptr htask hmap =>
    obtain rfl := Option.some.inj (hp'.symm.trans hp)
    have hmisses := hparts.allocations i hi
    have hframe := processMapAllocation_mapFrame htask hmisses.2.1 hmap
    rw [hptr] at hmisses
    have hgone := h.rooted.heapFree hmisses
    have hstart := heapFree_startAddress k.heap ptr
    generalize heapFree k.heap ptr = heap at hgone hstart ⊢
    obtain ⟨allocations, hunjoin, hcleared⟩ := processAllocationUnjoin_spec p' ptr
    rw [hunjoin]
    have hmissed : ({ k with heap, pages } : Kernel).PartsMiss b { p' with allocations } := by
      refine hparts.congr hstart rfl rfl hframe rfl rfl rfl rfl fun j _ => ?_
      rcases hcleared j with hsame | hclear
      · exact Or.inl (congrArg ProcessAllocation.ptr hsame)
      · dsimp only
        rw [hclear]
        exact Or.inr h.rooted.misses_null
    exact ⟨hgone, { p' with allocations }, putProcess_store_self .., hmissed.putProcess⟩

/-- A request of the process for memory, with what it is given, or a pointer that it frees. -/
inductive MemoryCall
  | malloc (size ptr : Nat)
  | free (ptr : Nat)

def memoryStep (process : Nat) : Step Kernel MemoryCall := fun k call k' =>
  match call with
  | .malloc size ptr => size < 4294967296 ∧ processMalloc process size k = .ok (ptr, k')
  | .free ptr => processFree process ptr k = .ok ((), k')

theorem Kernel.Leaves.step {call : MemoryCall} (h : k.Leaves b process)
    (hstep : memoryStep process k call k') : k'.Leaves b process := by
  cases call with
  | malloc size ptr => exact h.malloc hstep.1 hstep.2
  | free ptr => exact h.free hstep

/-! The exit. -/

theorem processTerminateAllocationsLoop_leaves {u : Unit} {count i : Nat} (h : k.Leaves b process)
    (hrun : processTerminateAllocationsLoop process count i k = .ok (u, k')) :
    k'.Leaves b process := by
  induction count generalizing i k with
  | zero =>
    obtain ⟨-, rfl⟩ := pure_eq_ok.mp hrun
    exact h
  | succ count ih =>
    unfold processTerminateAllocationsLoop at hrun
    replace hrun := bind_get_eq_ok.mp hrun
    obtain ⟨p, -, hrun⟩ := bind_fetch_eq_ok.mp hrun
    obtain ⟨_, k₁, hfree, hrun⟩ := bind_eq_ok.mp hrun
    exact ih (h.free hfree) hrun

/-- Blocks are given back, none of them the one at `b`. -/
structure Heap.GivesOthers (b : Int) (heap heap' : Heap) : Prop where
  rooted : heap'.Rooted b
  start : heap'.startAddress = heap.startAddress

theorem Heap.GivesOthers.trans {heap heap' heap'' : Heap} (h : heap.GivesOthers b heap')
    (h' : heap'.GivesOthers b heap'') : heap.GivesOthers b heap'' :=
  ⟨h'.rooted, h'.start.trans h.start⟩

theorem Heap.GivesOthers.kfree {heap heap' : Heap} {ptr : Nat} {u : Unit}
    (h : heap.GivesOthers b heap') (hptr : heap.Misses b ptr)
    (hrun : BoiOS.kfree ptr k = .ok (u, k')) (hheap : k.heap = heap') :
    heap.GivesOthers b k'.heap := by
  rw [kfree_eq_ok.mp hrun, hheap]
  exact h.trans ⟨h.rooted.heapFree (hptr.congr h.start), heapFree_startAddress ..⟩

theorem processFreeProgramData_gives {p : Process} {res : Int} (h : k.heap.Rooted b)
    (hp : k.scheduler.store process = some p) (hparts : k.PartsMiss b p)
    (hrun : processFreeProgramData process k = .ok (res, k')) :
    k.heap.GivesOthers b k'.heap ∧ k'.pages = k.pages ∧ k'.scheduler = k.scheduler := by
  have hsame : k'.scheduler = k.scheduler :=
    Kept.run (inferInstance : Kept SameScheduler (processFreeProgramData process)) hrun
  unfold processFreeProgramData at hrun
  replace hrun := bind_get_eq_ok.mp hrun
  obtain ⟨p', hp', hrun⟩ := bind_fetch_eq_ok.mp hrun
  obtain rfl := Option.some.inj (hp'.symm.trans hp)
  by_cases hbinary : p'.filetype = processFileTypeBin
  · rw [if_pos hbinary] at hrun
    obtain ⟨_, k₁, hfree, hrun⟩ := bind_eq_ok.mp hrun
    obtain ⟨-, rfl⟩ := pure_eq_ok.mp hrun
    refine ⟨.kfree ⟨h, rfl⟩ hparts.ptr hfree rfl, ?_, hsame⟩
    rw [kfree_eq_ok.mp hfree]
  rw [if_neg hbinary] at hrun
  by_cases hkind : p'.filetype = processFileTypeElf
  · rw [if_pos hkind] at hrun
    obtain ⟨_, k₁, hclose, hrun⟩ := bind_eq_ok.mp hrun
    obtain ⟨-, rfl⟩ := pure_eq_ok.mp hrun
    unfold elfClose at hclose
    by_cases hnull : p'.ptr = 0
    · rw [if_pos hnull] at hclose
      obtain ⟨-, rfl⟩ := pure_eq_ok.mp hclose
      exact ⟨⟨h, rfl⟩, rfl, rfl⟩
    rw [if_neg hnull] at hclose
    replace hclose := bind_get_eq_ok.mp hclose
    obtain ⟨file, hfile, hclose⟩ := bind_fetch_eq_ok.mp hclose
    obtain ⟨_, k₂, hmemory, hclose⟩ := bind_eq_ok.mp hclose
    obtain ⟨_, k₃, hself, hclose⟩ := bind_eq_ok.mp hclose
    have hfirst := Heap.GivesOthers.kfree ⟨h, rfl⟩ (hparts.elfMemory hkind file hfile) hmemory rfl
    have hboth := hfirst.kfree hparts.ptr hself rfl
    have hpages : k₃.pages = k.pages := by
      rw [kfree_eq_ok.mp hself, kfree_eq_ok.mp hmemory]
    rw [← modify_eq_ok.mp hclose] at hsame ⊢
    exact ⟨hboth, hpages, hsame⟩
  · rw [if_neg hkind] at hrun
    obtain ⟨-, rfl⟩ := pure_eq_ok.mp hrun
    exact ⟨⟨h, rfl⟩, rfl, rfl⟩

theorem pagingFree4gbLoop_gives {directory : Nat} {entries : Nat → Nat} (count : Nat) {i : Nat}
    {u : Unit} (h : k.heap.Rooted b) (harray : k.pages.arrays directory = some entries)
    (htables : ∀ j < i + count, k.heap.Misses b (pagingFrame (entries j)) ∧
      pagingFrame (entries j) ≠ directory)
    (hrun : pagingFree4gbLoop directory count i k = .ok (u, k')) : k.heap.GivesOthers b k'.heap := by
  induction count generalizing i k with
  | zero =>
    obtain ⟨-, rfl⟩ := pure_eq_ok.mp hrun
    exact ⟨h, rfl⟩
  | succ count ih =>
    unfold pagingFree4gbLoop at hrun
    replace hrun := bind_get_eq_ok.mp hrun
    obtain ⟨es, hes, hrun⟩ := bind_fetch_eq_ok.mp hrun
    obtain rfl := Option.some.inj (hes.symm.trans harray)
    obtain ⟨_, k₁, hfree, hrun⟩ := bind_eq_ok.mp hrun
    obtain ⟨_, k₂, hdrop, hrun⟩ := bind_eq_ok.mp hrun
    obtain rfl := modify_eq_ok.mp hdrop
    obtain ⟨hmiss, happart⟩ := htables i (by omega)
    have hstep := Heap.GivesOthers.kfree ⟨h, rfl⟩ hmiss hfree rfl
    have harray₂ : (k₁.pages.dropArray (pagingFrame (es i))).arrays directory = some es := by
      rw [← harray, kfree_eq_ok.mp hfree]
      exact Function.update_of_ne happart.symm _ _
    refine hstep.trans (ih (i := i + 1) (k := { k₁ with
      pages := k₁.pages.dropArray (pagingFrame (es i)) }) ?_ harray₂ (fun j hj => ?_) hrun)
    · exact hstep.rooted
    · obtain ⟨hmiss, happart⟩ := htables j (by omega)
      exact ⟨hmiss.congr hstep.start, happart⟩

theorem taskFree_gives {task : Nat} {u : Unit} (h : k.heap.Rooted b)
    (htask : k.heap.Misses b task) (hpages : k.PagesMiss b task)
    (hrun : taskFree task k = .ok (u, k')) : k.heap.GivesOthers b k'.heap := by
  obtain ⟨chunk, directory, tables, hchunk, hentry, hdir, hmissChunk, hmissDirectory, hmissTables⟩ :=
    hpages
  obtain ⟨entries, harray, hframes⟩ := hdir.holds
  unfold taskFree at hrun
  replace hrun := bind_get_eq_ok.mp hrun
  obtain ⟨t, ht, hrun⟩ := bind_fetch_eq_ok.mp hrun
  rw [ht, Option.map_some, Option.some.injEq] at hchunk
  rw [hchunk] at hrun
  obtain ⟨_, k₁, hdirectory, hrun⟩ := bind_eq_ok.mp hrun
  obtain ⟨_, k₂, hunlink, hfree⟩ := bind_eq_ok.mp hrun
  unfold pagingFree4gb at hdirectory
  replace hdirectory := bind_get_eq_ok.mp hdirectory
  obtain ⟨directory', hfetched, hdirectory⟩ := bind_fetch_eq_ok.mp hdirectory
  obtain rfl := Option.some.inj (hfetched.symm.trans hentry)
  obtain ⟨_, k₃, hloop, hdirectory⟩ := bind_eq_ok.mp hdirectory
  have hstep₁ := pagingFree4gbLoop_gives _ h harray (fun j hj => by
    have hj : j < 1024 := by
      unfold pagingTotalEntriesPerTable at hj
      omega
    rw [hframes j hj]
    exact ⟨hmissTables j hj, hdir.apart j hj⟩) hloop
  obtain ⟨_, k₄, hfree₄, hdirectory⟩ := bind_eq_ok.mp hdirectory
  obtain ⟨_, k₅, hdrop, hdirectory⟩ := bind_eq_ok.mp hdirectory
  obtain rfl := modify_eq_ok.mp hdrop
  obtain ⟨_, k₆, hfree₆, hdirectory⟩ := bind_eq_ok.mp hdirectory
  obtain rfl := modify_eq_ok.mp hdirectory
  obtain ⟨tasks, -, rfl⟩ := tasksRun_eq_ok hunlink
  have hstep₂ := hstep₁.kfree hmissDirectory hfree₄ rfl
  have hstep₃ := hstep₂.kfree hmissChunk hfree₆ rfl
  exact hstep₃.kfree htask hfree rfl

theorem processTerminate_rooted {res : Int} (h : k.Leaves b process)
    (hrun : KernelM.processTerminate process k = .ok (res, k')) : k'.heap.Rooted b := by
  unfold KernelM.processTerminate at hrun
  obtain ⟨_, k₁, hallocations, hrun⟩ := bind_eq_ok.mp hrun
  obtain ⟨hrooted, p, hp, hparts⟩ := processTerminateAllocationsLoop_leaves h hallocations
  obtain ⟨res', k₂, hdata, hrun⟩ := bind_eq_ok.mp hrun
  obtain ⟨hgives, hpages, hscheduler⟩ := processFreeProgramData_gives hrooted hp hparts hdata
  by_cases hneg : res' < 0
  · rw [if_pos hneg] at hrun
    obtain ⟨-, rfl⟩ := pure_eq_ok.mp hrun
    exact hgives.rooted
  rw [if_neg hneg] at hrun
  replace hrun := bind_get_eq_ok.mp hrun
  obtain ⟨p', hp', hrun⟩ := bind_fetch_eq_ok.mp hrun
  rw [hscheduler, hp, Option.some.injEq] at hp'
  subst hp'
  obtain ⟨_, k₃, hstack, hrun⟩ := bind_eq_ok.mp hrun
  have hstep := hgives.kfree hparts.stack hstack rfl
  obtain ⟨_, k₄, htask, hrun⟩ := bind_eq_ok.mp hrun
  have hmiss : k₃.PagesMiss b p.task := by
    obtain ⟨chunk, directory, tables, hchunk, hentry, hdir, hmissChunk, hmissDirectory,
      hmissTables⟩ := hparts.pages
    refine ⟨chunk, directory, tables, ?_, ?_, ?_, hmissChunk.congr hstep.start,
      hmissDirectory.congr hstep.start, fun i hi => (hmissTables i hi).congr hstep.start⟩
    · rw [kfree_eq_ok.mp hstack, hscheduler, hchunk]
    · rw [kfree_eq_ok.mp hstack, hpages, hentry]
    · rw [kfree_eq_ok.mp hstack, hpages]
      exact hdir
  have hgone := hstep.trans (taskFree_gives hstep.rooted (hparts.task.congr hstep.start) hmiss htask)
  obtain ⟨_, k₅, hunlink, hrun⟩ := bind_eq_ok.mp hrun
  obtain ⟨-, rfl⟩ := pure_eq_ok.mp hrun
  obtain ⟨s, -, rfl⟩ := schedulerRun_eq_ok hunlink
  exact hgone.rooted

/-- No exit brings the heap table back to what it was before the load: the structure of the process
is never given back, whatever the program file is and whatever the process asked for and freed. -/
theorem process_exit_never_restores {filename : List UInt8} {r : Int × Nat} {res : Int}
    {k k₁ k₂ : Kernel} (h : k.heap.WellFormed) (hnull : k.NullFree) (h0 : 0 ∉ filename)
    (hload : KernelM.processLoad filename k = .ok (r, k₁)) (hres : 0 ≤ r.1)
    (run : List (MemoryCall × Kernel)) (hpath : Path (memoryStep r.2) k₁ run)
    (hexit : KernelM.processTerminate r.2 (last k₁ run) = .ok (res, k₂)) :
    k₂.heap.table.entries ≠ k.heap.table.entries := by
  obtain ⟨-, slot, -, -, -, hloaded⟩ := processLoad_loaded h.guards hnull h0 hload hres
  have hleaves : (last k₁ run).Leaves (k.heap.blockOf r.2) r.2 :=
    last_of_path (fun _ _ _ hs hstep => hs.step hstep) k₁ run hloaded.leaves hpath
  have hrooted := processTerminate_rooted hleaves hexit
  intro hsame
  exact hrooted.taken ((HeapTable.isFree_congr (congrFun hsame _)).mpr hloaded.free)

theorem process_exit_never_restores_firstKernel : ∃ k₁ k₂,
    KernelM.processLoad binaryName firstKernel = .ok ((0, 0x1000000), k₁) ∧
      KernelM.processTerminate 0x1000000 k₁ = .ok (allOk, k₂) ∧
        k₂.heap.table.entries ≠ firstKernel.heap.table.entries := by
  obtain ⟨k₁, hload⟩ := firstKernel_loads
  obtain ⟨k₂, hexit⟩ := processLoad_exits firstKernel_wellFormed firstKernel_nullFree (by decide)
    firstKernel_tasks rfl hload (le_refl 0)
  exact ⟨k₁, k₂, hload, hexit, process_exit_never_restores firstKernel_wellFormed
    firstKernel_nullFree (by decide) hload (le_refl 0) [] trivial hexit⟩

theorem process_exit_not_always_restores : ¬ ∀ (filename : List UInt8) (r : Int × Nat) (res : Int)
    (k k₁ k₂ : Kernel) (run : List (MemoryCall × Kernel)), k.heap.WellFormed → k.NullFree →
    0 ∉ filename → KernelM.processLoad filename k = .ok (r, k₁) → 0 ≤ r.1 →
    Path (memoryStep r.2) k₁ run → KernelM.processTerminate r.2 (last k₁ run) = .ok (res, k₂) →
    k₂.heap.table.entries = k.heap.table.entries := by
  intro hall
  obtain ⟨k₁, hload⟩ := firstKernel_loads
  obtain ⟨-, slot, -, -, -, hloaded⟩ := processLoad_loaded firstKernel_wellFormed.guards
    firstKernel_nullFree (by decide) hload (le_refl 0)
  obtain ⟨k₂, hexit⟩ := processLoad_exits firstKernel_wellFormed firstKernel_nullFree (by decide)
    firstKernel_tasks rfl hload (le_refl 0)
  have hsame := hall _ _ _ _ _ _ [] firstKernel_wellFormed firstKernel_nullFree (by decide) hload
    (le_refl 0) trivial hexit
  have hrooted := processTerminate_rooted hloaded.leaves hexit
  exact hrooted.taken ((HeapTable.isFree_congr (congrFun hsame _)).mpr hloaded.free)

end BoiOS
