import BoiOS.Machine.AddressSpace
import BoiOS.Programs.SystemRun
import BoiOS.Programs.Tokens
import BoiOS.Task.BlockAllocations

/-! The list of words that `boios_parse_command` builds. It ends with the words, or where an
allocation fails. -/
namespace BoiOS
open Library.StateRun Library.Words

variable {caller node current : Nat} {P : Set Int} {m : Memory} {word : List UInt8}

/-! The nodes of a list. -/

inductive CommandChain (m : Memory) : Nat → List (List UInt8) → Prop
  | done : CommandChain m 0 []
  | node {node : Nat} {word : List UInt8} {words : List (List UInt8)} (hnonnull : node ≠ 0)
      (hword : m.Holds node word) (hrest : CommandChain m (commandNext m node) words) :
      CommandChain m node (word :: words)

theorem CommandChain.unique {words words' : List (List UInt8)} (h : CommandChain m node words)
    (h' : CommandChain m node words') : words = words' := by
  induction h generalizing words' with
  | done =>
    cases h' with
    | done => rfl
    | node hnonnull => exact absurd rfl hnonnull
  | node hnonnull hword _ ih =>
    cases h' with
    | done => exact absurd rfl hnonnull
    | node _ hword' hrest' => rw [hword.unique hword', ih hrest']

theorem CommandChain.eq_zero_iff {words : List (List UInt8)} (h : CommandChain m node words) :
    node = 0 ↔ words = [] := by
  cases h with
  | done => exact iff_of_true rfl rfl
  | node hnonnull => exact iff_of_false hnonnull (List.cons_ne_nil _ _)

theorem Memory.load32_same {m' : Memory} {a : Nat} (hroom : a + 4 ≤ 4294967296)
    (h : ∀ x, a ≤ x → x < a + 4 → m' x = m x) : m'.load32 a = m.load32 a := by
  refine Memory.load32_congr fun i hi => ?_
  unfold Memory.load8
  rw [u32_natCast (by omega), h _ (by omega) (by omega)]

theorem Memory.store32_off {a v x : Nat} (h : 4 ≤ u32 ((x : Int) - a)) : m.store32 a v x = m x := by
  have hbytes : (Memory.wordBytes v).length = 4 := rfl
  refine Memory.copyIn_outside ?_
  rwa [hbytes]

theorem commandNext_congr {m' : Memory} (hroom : node + sizeofCommandArgument ≤ 4294967296)
    (h : ∀ x, node + sizeofArgument ≤ x → x < node + sizeofCommandArgument → m' x = m x) :
    commandNext m' node = commandNext m node := by
  unfold sizeofCommandArgument sizeofArgument at *
  exact Memory.load32_same (a := node + 512) (by omega) fun x hlow hhigh => h x hlow (by omega)

def filledNode (m : Memory) (node : Nat) (word : List UInt8) : Memory :=
  (m.copyIn node (word ++ [0])).store32 (u32 (node + sizeofArgument)) 0

def linkedNode (m : Memory) (current node : Nat) : Memory :=
  m.store32 (u32 (current + sizeofArgument)) node

theorem linkedNode_off {x : Nat} (h : 4 ≤ u32 ((x : Int) - (current + sizeofArgument : Nat))) :
    linkedNode m current node x = m x := by
  refine Memory.store32_off ?_
  unfold u32 sizeofArgument at *
  omega

theorem linkedNode_next (hroom : current + sizeofCommandArgument ≤ 4294967296)
    (hnode : node < 4294967296) : commandNext (linkedNode m current node) current = node := by
  unfold sizeofCommandArgument at hroom
  have hplace : u32 ((current : Int) + sizeofArgument) = current + 512 := by
    unfold u32 sizeofArgument
    omega
  unfold linkedNode commandNext
  rw [hplace]
  exact Memory.load32_store32 (by omega) hnode

theorem filledNode_holds (hroom : node + sizeofCommandArgument ≤ 4294967296) (hword : 0 ∉ word)
    (hlength : word.length < sizeofArgument) : (filledNode m node word).Holds node word := by
  unfold sizeofCommandArgument at hroom
  unfold sizeofArgument at hlength
  refine (Memory.holds_copyIn m hword (by omega)).congr fun x hlow hhigh => ?_
  refine linkedNode_off ?_
  unfold u32 sizeofArgument
  omega

theorem filledNode_off {x : Nat} (hlength : word.length < sizeofArgument)
    (h : sizeofCommandArgument ≤ u32 ((x : Int) - node)) : filledNode m node word x = m x := by
  have hlink : 4 ≤ u32 ((x : Int) - (node + sizeofArgument : Nat)) := by
    unfold sizeofCommandArgument u32 at *
    unfold sizeofArgument
    omega
  have hcopy : (word ++ [0]).length ≤ u32 ((x : Int) - node) := by
    rw [List.length_append, List.length_singleton]
    unfold sizeofCommandArgument at h
    unfold sizeofArgument at hlength
    omega
  exact (linkedNode_off hlink).trans (Memory.copyIn_outside hcopy)

/-! One more node. -/

namespace Heap.IsBlock
variable {heap : Heap} {p q : Nat}

theorem room (h : heap.IsBlock p) (hwf : heap.WellFormed) : p + 4096 ≤ 2147483648 := by
  have haddress := h.address
  have hhigh := h.high
  have hbelow := hwf.below
  omega

theorem apart (hp : heap.IsBlock p) (hq : heap.IsBlock q) (hne : heap.blockOf p ≠ heap.blockOf q) :
    p + 4096 ≤ q ∨ q + 4096 ≤ p := by
  have haddress := hp.address
  have haddress' := hq.address
  omega

theorem far (h : heap.IsBlock p) (hwf : heap.WellFormed) (hnew : heap.blockOf p ∉ P) {x : Nat}
    (hx : heap.blockOf x ∈ P) : 4096 ≤ u32 ((x : Int) - p) := by
  by_contra hnear
  rw [Heap.blockOf_near hwf h (by omega)] at hx
  exact hnew hx

end Heap.IsBlock

theorem Serving.setMemory {k : Kernel} (h : Serving caller P k) (memory : Memory) :
    Serving caller P { k with memory } :=
  ⟨h.current, h.guards, h.mapped⟩

structure NewNode (caller : Nat) (P : Set Int) (k k' : Kernel) (node : Nat) (word : List UInt8) :
    Prop where
  taken : TakesBlockOf caller P k k' node
  start : k'.heap.startAddress = k.heap.startAddress
  memory : k.SameMemory P k'
  word : k'.memory.Holds node word
  next : commandNext k'.memory node = 0

theorem TakesBlockOf.fill {k k' : Kernel} (h : TakesBlockOf caller P k k' node)
    (hstart : k'.heap.startAddress = k.heap.startAddress) (hmemory : k.SameMemory P k')
    (hword : 0 ∉ word) (hlength : word.length < sizeofArgument) :
    NewNode caller P k { k' with memory := filledNode k'.memory node word } node word := by
  have hwf := h.serving.guards.wellFormed
  have hroom : node + sizeofCommandArgument ≤ 4294967296 := by
    have hblock := h.block.room hwf
    unfold sizeofCommandArgument
    omega
  refine ⟨⟨h.nonnull, h.block, h.new, h.blocks, h.serving.setMemory _, h.capacity⟩, hstart, fun x hx hP => ?_,
    filledNode_holds hroom hword hlength, linkedNode_next hroom (by decide)⟩
  rw [← Heap.blockOf_congr hstart] at hP
  have hfar := h.block.far hwf h.new hP
  rw [← hmemory x hx (by rwa [← Heap.blockOf_congr hstart])]
  refine filledNode_off hlength ?_
  unfold sizeofCommandArgument
  omega

/-- Of the memory of the blocks only the pointer to the next node changed. -/
structure OnlyLinks (P : Set Int) (current : Nat) (k k' : Kernel) : Prop where
  start : k'.heap.startAddress = k.heap.startAddress
  memory : ∀ x < 4294967296, k.heap.blockOf x ∈ P →
    4 ≤ u32 ((x : Int) - (current + sizeofArgument : Nat)) → k'.memory x = k.memory x

theorem OnlyLinks.holds {k k' : Kernel} (h : OnlyLinks P node k k') (hwf : k.heap.WellFormed)
    (hblock : k.heap.IsBlock node) (hP : k.heap.blockOf node ∈ P) (hword : k.memory.Holds node word)
    (hlength : word.length < sizeofArgument) : k'.memory.Holds node word := by
  have hroom := hblock.room hwf
  have hsize : sizeofArgument = 512 := rfl
  refine hword.congr fun x hlow hhigh => h.memory x (by omega) ?_ (by unfold u32; omega)
  rwa [Heap.blockOf_near hwf hblock (by unfold u32; omega)]

theorem NewNode.apart {k k' : Kernel} (h : NewNode caller P k k' node word)
    (hcurrent : k.heap.IsBlock current) (hP : k.heap.blockOf current ∈ P) :
    (current + 4096 ≤ node ∨ node + 4096 ≤ current) ∧ current + 4096 ≤ 2147483648 ∧
      node + 4096 ≤ 2147483648 := by
  have hwf := h.taken.serving.guards.wellFormed
  have hcurrent' := h.taken.blocks current hcurrent
  refine ⟨hcurrent'.apart h.taken.block fun heq => h.taken.new ?_, hcurrent'.room hwf,
    h.taken.block.room hwf⟩
  rw [← heq, Heap.blockOf_congr h.start]
  exact hP

theorem NewNode.next_link {k k' : Kernel} (h : NewNode caller P k k' node word)
    (hcurrent : k.heap.IsBlock current) (hP : k.heap.blockOf current ∈ P) :
    commandNext (linkedNode k'.memory current node) current = node ∧
      commandNext (linkedNode k'.memory current node) node = 0 := by
  obtain ⟨hapart, hroom, hroom'⟩ := h.apart hcurrent hP
  refine ⟨linkedNode_next (by unfold sizeofCommandArgument; omega) (by omega), ?_⟩
  rw [← h.next]
  refine commandNext_congr (by unfold sizeofCommandArgument; omega) fun x hlow hhigh => ?_
  refine linkedNode_off ?_
  unfold sizeofCommandArgument at hhigh
  unfold sizeofArgument u32 at *
  omega

theorem NewNode.link {k k' k'' : Kernel} (h : NewNode caller P k k' node word)
    (hcurrent : k.heap.IsBlock current) (hP : k.heap.blockOf current ∈ P)
    (hword : word.length < sizeofArgument)
    (hlinks : OnlyLinks (insert (k'.heap.blockOf node) P) node
      { k' with memory := linkedNode k'.memory current node } k'') :
    OnlyLinks P current k k'' ∧ commandNext k''.memory current = node ∧
      k''.memory.Holds node word := by
  have hwf := h.taken.serving.guards.wellFormed
  have hcurrent' := h.taken.blocks current hcurrent
  obtain ⟨hapart, hroom, hroom'⟩ := h.apart hcurrent hP
  have hsize : sizeofArgument = 512 := rfl
  have hsize' : sizeofCommandArgument = 516 := rfl
  rw [← Heap.blockOf_congr h.start] at hP
  have hold : ∀ x < 4294967296, k'.heap.blockOf x ∈ P →
      k''.memory x = linkedNode k'.memory current node x := by
    intro x hx hx'
    refine hlinks.memory x hx (Set.mem_insert_of_mem _ hx') ?_
    have hfar := h.taken.block.far hwf h.taken.new hx'
    unfold u32 at *
    omega
  refine ⟨⟨hlinks.start.trans h.start, fun x hx hx' hoff => ?_⟩, ?_, ?_⟩
  · rw [hold x hx (by rwa [Heap.blockOf_congr h.start]), linkedNode_off hoff, h.memory x hx hx']
  · rw [← (h.next_link hcurrent (by rwa [← Heap.blockOf_congr h.start])).1]
    refine commandNext_congr (by omega) fun x hlow hhigh => hold x (by omega) ?_
    rw [Heap.blockOf_near hwf hcurrent' (by unfold u32; omega)]
    exact hP
  · refine hlinks.holds hwf h.taken.block (Set.mem_insert _ _) ?_ hword
    refine h.word.congr fun x hlow hhigh => linkedNode_off ?_
    unfold u32
    omega

/-! The nodes in their blocks. -/

/-- The nodes from a pointer on are in blocks of `Q` and hold the words, one each. -/
inductive Kernel.ChainIn (Q : Set Int) (k : Kernel) : Nat → List (List UInt8) → Prop
  | done : Kernel.ChainIn Q k 0 []
  | node {node : Nat} {word : List UInt8} {words : List (List UInt8)} (hnonnull : node ≠ 0)
      (hblock : k.heap.BlockIn Q node) (hword : k.memory.Holds node word)
      (hlength : word.length < sizeofArgument)
      (hrest : Kernel.ChainIn Q k (commandNext k.memory node) words) :
      Kernel.ChainIn Q k node (word :: words)

namespace Kernel.ChainIn
variable {Q : Set Int} {k k' : Kernel} {words : List (List UInt8)}

theorem chain (h : k.ChainIn Q node words) : CommandChain k.memory node words := by
  induction h with
  | done => exact .done
  | node hnonnull _ hword _ _ ih => exact .node hnonnull hword ih

theorem length_lt (h : k.ChainIn Q node words) : ∀ word ∈ words, word.length < sizeofArgument := by
  induction h with
  | done => exact fun _ hin => absurd hin List.not_mem_nil
  | node _ _ _ hlength _ ih => exact List.forall_mem_cons.mpr ⟨hlength, ih⟩

theorem frame (h : k.ChainIn Q node words) (hwf : k.heap.WellFormed) (hmemory : k.SameMemory Q k')
    (hstart : k'.heap.startAddress = k.heap.startAddress)
    (htotal : k'.heap.table.totalEntries = k.heap.table.totalEntries) :
    k'.ChainIn Q node words := by
  induction h with
  | done => exact .done
  | @node node word words hnonnull hblock hword hlength _ ih =>
    have hroom := hblock.block.room hwf
    have hsize : sizeofArgument = 512 := rfl
    have hsize' : sizeofCommandArgument = 516 := rfl
    have hsame : ∀ x, node ≤ x → x < node + 4096 → k'.memory x = k.memory x := by
      intro x hlow hhigh
      refine hmemory x (by omega) ?_
      rw [Heap.blockOf_near hwf hblock.block (by unfold u32; omega)]
      exact hblock.mem
    have hnext : commandNext k'.memory node = commandNext k.memory node :=
      commandNext_congr (by omega) fun x hlow hhigh => hsame x (by omega) (by omega)
    refine .node hnonnull (hblock.congr hstart htotal)
      (hword.congr fun x hlow hhigh => hsame x hlow (by omega)) hlength ?_
    rw [hnext]
    exact ih

end Kernel.ChainIn

/-! The loop. -/

theorem Serving.boiosMalloc {u : Userland} (h : Serving caller P u.kernel) :
    ∃ ptr k', BoiOS.boiosMalloc sizeofCommandArgument u = .ok (ptr, { u with kernel := k' }) ∧
      MallocKept caller P u.kernel k' ∧ Serving caller P k' ∧
      (ptr = 0 ∧ capacity caller u.kernel = 0 ∨ TakesBlockOf caller P u.kernel k' ptr) := by
  have hsize : sizeofCommandArgument ≤ 4096 := by decide
  obtain ⟨ptr, k', hrun, hspec⟩ := h.processMalloc (by decide) hsize
  have hcall : isr80hCommand4Malloc sizeofCommandArgument u.kernel = .ok (ptr, k') := by
    unfold isr80hCommand4Malloc
    rw [bind_of_ok (get_apply u.kernel), bind_of_ok (fetch_eq_ok.mpr ⟨h.current, rfl⟩), hrun]
  refine ⟨ptr, k', ?_, hspec⟩
  unfold BoiOS.boiosMalloc syscall
  rw [hcall]
  rfl

/-- A word as a node holds it. -/
def cutWord (word : List UInt8) : List UInt8 := word.take (sizeofArgument - 1)

theorem cutWord_spec {token : Nat} (h : m.Holds token word) :
    m.stringAt token sizeofArgument = cutWord word ∧ 0 ∉ cutWord word ∧
      (cutWord word).length < sizeofArgument := by
  refine ⟨h.stringAt _, fun hzero => h.nonzero (List.mem_of_mem_take hzero), ?_⟩
  have hlength := List.length_take_le (sizeofArgument - 1) word
  unfold cutWord
  unfold sizeofArgument at *
  omega

theorem fillCommandArgument_apply {token : Nat} {u : Userland} (h : u.own.Holds token word) :
    fillCommandArgument node token u = .ok ((), { u with
      kernel := { u.kernel with memory := filledNode u.kernel.memory node (cutWord word) } }) := by
  rw [← (cutWord_spec h).1]
  rfl

theorem strtok_pending {rest : List UInt8} {u : Userland} (hpending : u.sp ≠ 0)
    (hrest : u.own.Holds u.sp rest) : strtok 0 [32] u = .ok (takeWord [32] u.sp rest u) :=
  strtok_eq (by decide) (if_neg hpending) hpending hrest

/-- What putting words behind a node leaves: the nodes are in blocks that the heap holds. -/
structure Appended (caller : Nat) (P Q : Set Int) (current : Nat) (k k' : Kernel)
    (words : List (List UInt8)) : Prop where
  more : P ⊆ Q
  serving : Serving caller Q k'
  total : k'.heap.table.totalEntries = k.heap.table.totalEntries
  links : OnlyLinks P current k k'
  chain : k'.ChainIn Q (commandNext k'.memory current) words

theorem boiosParseCommandLoop_eq {words : List (List UInt8)} {rest : List UInt8} {fuel : Nat}
    {u : Userland} (h : Serving caller P u.kernel) (hcurrent : u.kernel.heap.IsBlock current)
    (hP : u.kernel.heap.blockOf current ∈ P) (hnext : commandNext u.kernel.memory current = 0)
    (hpending : u.sp ≠ 0) (hrest : u.own.Holds u.sp rest) (hwords : tokensOf [32] rest = words)
    (hfuel : words.length < fuel) :
    ∃ u' Q, boiosParseCommandLoop fuel current u = .ok ((), u') ∧
      Appended caller P Q current u.kernel u'.kernel
        ((words.take (capacity caller u.kernel)).map cutWord) := by
  induction words generalizing fuel u P current rest with
  | nil =>
    obtain ⟨fuel, rfl⟩ := Nat.exists_eq_succ_of_ne_zero (Nat.ne_of_gt (Nat.zero_lt_of_lt hfuel))
    have hcall := strtok_pending hpending hrest
    rw [takeWord_nil u hwords] at hcall
    unfold boiosParseCommandLoop
    rw [bind_of_ok hcall, if_pos rfl]
    refine ⟨_, P, rfl, ⟨fun _ hb => hb, h, rfl, ⟨rfl, fun _ _ _ _ => rfl⟩, ?_⟩⟩
    rw [List.take_nil, List.map_nil]
    dsimp only
    rw [hnext]
    exact .done
  | cons word words ih =>
    obtain ⟨fuel, rfl⟩ := Nat.exists_eq_succ_of_ne_zero (Nat.ne_of_gt (Nat.zero_lt_of_lt hfuel))
    have htakes := takeWord_cons hrest hwords
    have hcall := strtok_pending hpending hrest
    generalize takeWord [32] u.sp rest u = r at htakes hcall
    obtain ⟨token, u₁⟩ := r
    obtain ⟨hstart, hword, hsp, ⟨rest', hrest', hwords', -⟩, hkernel⟩ := htakes
    dsimp only at hstart hword hsp hrest' hkernel
    rw [← hkernel] at h hcurrent hP hnext ⊢
    obtain ⟨node, k', hmalloc, hkept, hserving, hserved⟩ := h.boiosMalloc
    have hheap := hkept.start
    have hsame := hkept.memory
    unfold boiosParseCommandLoop
    rw [bind_of_ok hcall, if_neg (by omega), bind_of_ok hmalloc]
    rcases hserved with ⟨rfl, hfull⟩ | htaken
    · rw [if_pos rfl]
      refine ⟨_, P, rfl, ⟨fun _ hb => hb, hserving, hkept.total,
        ⟨hheap, fun x hx hx' _ => hsame x hx hx'⟩, ?_⟩⟩
      have hstays : commandNext k'.memory current = commandNext u₁.kernel.memory current := by
        have hroom := hcurrent.room h.guards.wellFormed
        have hsize : sizeofCommandArgument = 516 := rfl
        refine commandNext_congr (by omega) fun x hlow hhigh => hsame x (by omega) ?_
        rwa [Heap.blockOf_near h.guards.wellFormed hcurrent (by unfold u32; omega)]
      rw [hfull, List.take_zero, List.map_nil]
      dsimp only
      rw [hstays, hnext]
      exact .done
    · obtain ⟨-, hnonzero, hlength⟩ := cutWord_spec hword
      have hnew := htaken.fill hheap hsame hnonzero hlength
      have hfill : fillCommandArgument node token { u₁ with kernel := k' } = _ :=
        fillCommandArgument_apply hword
      rw [if_neg htaken.nonnull, bind_of_ok hfill]
      have hlink := hnew.next_link hcurrent hP
      let u₂ : Userland := { u₁ with
        kernel := { k' with
          memory := linkedNode (filledNode k'.memory node (cutWord word)) current node } }
      obtain ⟨u', Q, hloop, happended⟩ := ih (u := u₂) (hnew.taken.serving.setMemory _)
        hnew.taken.block (Set.mem_insert _ _) hlink.2 (by omega : u₁.sp ≠ 0) hrest' hwords'
        (Nat.lt_of_succ_lt_succ hfuel)
      obtain ⟨honly, hnode, hheld⟩ := hnew.link hcurrent hP hlength happended.links
      refine ⟨u', Q, hloop, ⟨(Set.subset_insert ..).trans happended.more, happended.serving,
        happended.total.trans hkept.total, honly, ?_⟩⟩
      rw [← htaken.capacity, List.take_succ_cons, List.map_cons, hnode]
      refine .node htaken.nonnull ⟨htaken.block.congr happended.links.start happended.total, ?_⟩ hheld
        hlength happended.chain
      rw [Heap.blockOf_congr happended.links.start]
      exact happended.more (Set.mem_insert ..)

/-! The whole call. -/

/-- A call of `boios_parse_command` with a command string. `pending` is what is left of a string that
was taken up before. -/
structure ParseCall where
  caller : Nat
  start : Userland
  command : Nat
  max : Int
  scommand : Nat
  cmd : List UInt8
  pending : List UInt8

namespace ParseCall

def copied (c : ParseCall) : Userland := { c.start with
  own := c.start.own.copyIn c.scommand (c.start.own.stringAt c.command sizeofScommand ++ [0]) }

theorem copied_sp (c : ParseCall) : c.copied.sp = c.start.sp := by rw [copied]

theorem copied_kernel (c : ParseCall) : c.copied.kernel = c.start.kernel := by rw [copied]

structure Valid (c : ParseCall) : Prop where
  serving : Serving c.caller ∅ c.start.kernel
  array : c.scommand ≠ 0
  room : c.scommand + sizeofScommand ≤ 4294967296
  command : c.start.own.Holds c.command c.cmd
  pending : c.start.sp ≠ 0 → c.copied.own.Holds c.start.sp c.pending

def text (c : ParseCall) : List UInt8 :=
  if c.start.sp = 0 then c.cmd.take (sizeofScommand - 1) else c.pending

def taken (c : ParseCall) : List (List UInt8) :=
  if c.max ≥ sizeofScommand then []
  else ((tokensOf [32] c.text).take (capacity c.caller c.start.kernel)).map cutWord

variable {c : ParseCall}

theorem Valid.text_holds (h : c.Valid) :
    c.copied.own.Holds (if c.start.sp = 0 then c.scommand else c.start.sp) c.text := by
  unfold text
  by_cases hidle : c.start.sp = 0
  · have hsize : sizeofScommand = 1025 := rfl
    have hroom := h.room
    have hlength := List.length_take_le (sizeofScommand - 1) c.cmd
    rw [if_pos hidle, if_pos hidle]
    unfold copied
    dsimp only
    rw [h.command.stringAt]
    exact Memory.holds_copyIn _ (fun hzero => h.command.nonzero (List.mem_of_mem_take hzero))
      (by omega)
  · rw [if_neg hidle, if_neg hidle]
    exact h.pending hidle

theorem Valid.boiosParseCommand_eq (h : c.Valid) : ∃ root u' Q,
    boiosParseCommand c.command c.max c.scommand c.start = .ok (root, u') ∧
      Serving c.caller Q u'.kernel ∧ u'.kernel.ChainIn Q root c.taken := by
  unfold boiosParseCommand taken
  by_cases hmax : c.max ≥ sizeofScommand
  · rw [if_pos hmax, if_pos hmax]
    exact ⟨0, c.start, ∅, rfl, h.serving, .done⟩
  · rw [if_neg hmax, if_neg hmax]
    have hcopy : copyOwn c.scommand c.command sizeofScommand c.start = .ok ((), c.copied) := by
      unfold copyOwn copied
      rfl
    have hheld := h.text_holds
    have hfuel := hheld.room
    have hplace : (if c.start.sp = 0 then c.scommand else c.start.sp) ≠ 0 := by
      split_ifs with hidle
      · exact h.array
      · exact hidle
    generalize hat : (if c.start.sp = 0 then c.scommand else c.start.sp) = place at *
    have hcall : strtok c.scommand [32] c.copied = .ok (takeWord [32] place c.text c.copied) :=
      strtok_eq (by decide) (by rw [copied_sp, hat]) hplace hheld
    rw [bind_of_ok hcopy]
    cases hwords : tokensOf [32] c.text with
    | nil =>
      rw [takeWord_nil _ hwords] at hcall
      rw [bind_of_ok hcall, if_pos rfl]
      have hserving : Serving c.caller ∅ c.copied.kernel := by
        rw [copied_kernel]
        exact h.serving
      generalize c.copied = copied at hserving
      refine ⟨0, { copied with sp := 0 }, ∅, rfl, hserving, ?_⟩
      rw [List.take_nil]
      exact .done
    | cons word words =>
      have hcount : (tokensOf [32] c.text).length ≤ c.text.length := length_words_le c.text
      have htakes := takeWord_cons hheld hwords
      rw [hwords, List.length_cons] at hcount
      generalize takeWord [32] place c.text c.copied = r at htakes hcall
      obtain ⟨token, u₁⟩ := r
      obtain ⟨hstart, hword, hsp, ⟨rest, hrest, hwords', -⟩, hkernel⟩ := htakes
      dsimp only at hstart hword hsp hrest hkernel
      have hserving := h.serving
      rw [copied_kernel] at hkernel
      rw [← hkernel] at hserving ⊢
      obtain ⟨node, k', hmalloc, hkept, hleft, hserved⟩ := hserving.boiosMalloc
      rw [bind_of_ok hcall, if_neg (by omega), bind_of_ok hmalloc]
      rcases hserved with ⟨rfl, hfull⟩ | htaken
      · rw [if_pos rfl]
        refine ⟨0, _, ∅, rfl, hleft, ?_⟩
        rw [hfull, List.take_zero]
        exact .done
      · obtain ⟨-, hnonzero, hlength⟩ := cutWord_spec hword
        have hnew := htaken.fill hkept.start hkept.memory hnonzero hlength
        have hfill : fillCommandArgument node token { u₁ with kernel := k' } = _ :=
          fillCommandArgument_apply hword
        rw [if_neg htaken.nonnull, bind_of_ok hfill]
        obtain ⟨u', Q, hloop, happended⟩ := boiosParseCommandLoop_eq
          (u := { u₁ with kernel := { k' with
            memory := filledNode k'.memory node (cutWord word) } })
          hnew.taken.serving hnew.taken.block (Set.mem_insert _ _) hnew.next
          (by omega : u₁.sp ≠ 0) hrest hwords' (by omega : words.length < 4294967296)
        rw [bind_of_ok hloop]
        refine ⟨node, u', Q, rfl, happended.serving, ?_⟩
        have hheld' := happended.links.holds hnew.taken.serving.guards.wellFormed hnew.taken.block
          (Set.mem_insert _ _) hnew.word hlength
        rw [← htaken.capacity, List.take_succ_cons, List.map_cons]
        refine .node htaken.nonnull ⟨htaken.block.congr happended.links.start happended.total, ?_⟩
          hheld' hlength happended.chain
        rw [Heap.blockOf_congr happended.links.start]
        exact happended.more (Set.mem_insert ..)

/-- The call returns null, or a list with all words of the command. -/
def Complete (c : ParseCall) : Prop :=
  ∃ root u', boiosParseCommand c.command c.max c.scommand c.start = .ok (root, u') ∧
    (root = 0 ∨ CommandChain u'.kernel.memory root (tokensOf [32] c.cmd))

/-- No list is begun: the command may be too long, there is no word, or no node for the first one. -/
def Refused (c : ParseCall) : Prop :=
  c.max ≥ sizeofScommand ∨ tokensOf [32] c.text = [] ∨ capacity c.caller c.start.kernel = 0

/-- With nothing pending all words are in the part that is copied, each fits into a node, and there are
nodes for them. Else the words that are taken from the pending string are by chance the same. -/
def Fits (c : ParseCall) : Prop :=
  if c.start.sp = 0 then
    (∀ x ∈ c.cmd.drop (sizeofScommand - 1), x = 32) ∧
      (tokensOf [32] c.cmd).length ≤ capacity c.caller c.start.kernel ∧
      ∀ word ∈ tokensOf [32] c.cmd, word.length ≤ sizeofArgument - 1
  else ((tokensOf [32] c.pending).take (capacity c.caller c.start.kernel)).map cutWord =
    tokensOf [32] c.cmd

theorem taken_eq_nil_iff : c.taken = [] ↔ c.Refused := by
  unfold taken Refused
  by_cases hmax : c.max ≥ sizeofScommand
  · rw [if_pos hmax]
    exact iff_of_true rfl (.inl hmax)
  · rw [if_neg hmax, List.map_eq_nil_iff, List.take_eq_nil_iff, or_iff_right hmax, or_comm]

theorem taken_eq_iff (hmax : ¬ c.max ≥ sizeofScommand) :
    c.taken = tokensOf [32] c.cmd ↔ c.Fits := by
  unfold taken text Fits
  rw [if_neg hmax]
  by_cases hidle : c.start.sp = 0
  · rw [if_pos hidle, if_pos hidle]
    have hcut := cut_words_eq_iff (p := isDelimeter [32]) (l := c.cmd) (k := sizeofScommand - 1)
      (m := sizeofArgument - 1) (n := capacity c.caller c.start.kernel)
    simp only [isDelimeter, decide_eq_true_eq, List.mem_singleton] at hcut
    exact hcut
  · rw [if_neg hidle, if_neg hidle]

end ParseCall

/-- The list has all words of the command exactly if none was begun, or nothing was cut off: no word
behind the part that is copied, none longer than a node holds, and no more words than nodes. -/
theorem boios_parse_command_complete_iff {c : ParseCall} (h : c.Valid) :
    c.Complete ↔ c.Refused ∨ c.Fits := by
  obtain ⟨root, u', Q, hrun, -, hchain⟩ := h.boiosParseCommand_eq
  replace hchain := hchain.chain
  have hnull : root = 0 ↔ c.Refused := by
    rw [← c.taken_eq_nil_iff, hchain.eq_zero_iff]
  have hcomplete : c.Complete ↔ root = 0 ∨ c.taken = tokensOf [32] c.cmd := by
    constructor
    · rintro ⟨root', u'', hrun', hall⟩
      rw [hrun, Except.ok.injEq, Prod.mk.injEq] at hrun'
      obtain ⟨rfl, rfl⟩ := hrun'
      exact hall.imp_right hchain.unique
    · intro hall
      refine ⟨root, u', hrun, hall.imp_right fun hsame => ?_⟩
      rwa [← hsame]
  rw [hcomplete, hnull]
  by_cases hmax : c.max ≥ sizeofScommand
  · exact iff_of_true (.inl (.inl hmax)) (.inl (.inl hmax))
  · rw [ParseCall.taken_eq_iff hmax]

/-! The command `a b` of a caller whose table has some entries left. -/

def tableKernel (n : Nat) : Kernel :=
  { shellKernel with
    scheduler := { shellKernel.scheduler with
      store := fun _ => some { processInit with
        task := 0x4000
        allocations := fun i => if i < n then ⟨0, 0⟩ else ⟨0x1002000, 4096⟩ } } }

def tableCall (n : Nat) : ParseCall :=
  { caller := shellProcess
    start := ⟨tableKernel n, memoryWith 0x3F0000 [97, 32, 98], 0⟩
    command := 0x3F0000
    max := sizeofBuf
    scommand := 0x3F2000
    cmd := [97, 32, 98]
    pending := [] }

theorem tableCall_valid (n : Nat) : (tableCall n).Valid := by
  have harray : 0x3F2000 ≠ 0 := by decide
  have hroom : 0x3F2000 + sizeofScommand ≤ 4294967296 := by decide
  refine ⟨⟨rfl, shellKernel_wellFormed.guards, ?_⟩, harray, hroom,
    memoryWith_holds (by decide) (by decide), fun hpending => absurd rfl hpending⟩
  exact ⟨_, _, 0x6000, _, rfl, rfl, rfl, oneProgramKernel_isDirectory⟩

theorem boios_parse_command_complete_iff_tableCall : (tableCall 2).Complete := by
  have hcapacity : (tokensOf [32] [97, 32, 98]).length ≤ capacity shellProcess (tableKernel 2) := by
    decide +kernel
  have hidle : (tableCall 2).start.sp = 0 := rfl
  refine (boios_parse_command_complete_iff (tableCall_valid 2)).mpr (.inr ?_)
  unfold ParseCall.Fits
  rw [if_pos hidle]
  exact ⟨by decide +kernel, hcapacity, by decide +kernel⟩

theorem boios_parse_command_not_always_complete : ¬ ∀ c : ParseCall, c.Valid → c.Complete := by
  intro hall
  obtain ⟨root, u', hrun, hlist⟩ := hall (tableCall 1) (tableCall_valid 1)
  obtain ⟨root', u'', Q, hrun', -, hchain⟩ := (tableCall_valid 1).boiosParseCommand_eq
  replace hchain := hchain.chain
  have htaken : (tableCall 1).taken = [[97]] := by decide +kernel
  rw [hrun, Except.ok.injEq, Prod.mk.injEq] at hrun'
  obtain ⟨rfl, rfl⟩ := hrun'
  rw [htaken] at hchain
  rcases hlist with hnull | hcomplete
  · exact absurd (hchain.eq_zero_iff.mp hnull) (by decide)
  · exact absurd (hchain.unique hcomplete) (by decide)

end BoiOS
