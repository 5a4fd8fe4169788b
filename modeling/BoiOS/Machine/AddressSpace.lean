import BoiOS.Machine.Strings

/-! Strings behind a translation of addresses: where the page of a byte is not there, the processor
stops with a page fault. -/
namespace BoiOS

/-- Where the byte of an address is in memory, if its page is there. -/
abbrev AddressSpace := Nat → Option Nat

def strncpyInLoop (space : AddressSpace) : (count dest src : Nat) → Memory → Option Memory
  | 0, dest, _, m => (space dest).map fun d => m.copyIn d [0]
  | count + 1, dest, src, m =>
      (space src).bind fun s =>
        if m s = 0 then (space dest).map fun d => m.copyIn d [0]
        else (space dest).bind fun d =>
          strncpyInLoop space count (u32 ((dest : Int) + 1)) (u32 ((src : Int) + 1))
            (m.copyIn d [m s])

def strncpyIn (space : AddressSpace) (dest src : Nat) (count : Int) (m : Memory) : Option Memory :=
  strncpyInLoop space (count - 1).toNat dest src m

structure StringIn (space : AddressSpace) (m : Memory) (src limit : Nat) (s : List UInt8) :
    Prop where
  length : s.length ≤ limit
  chars : ∀ i c, s[i]? = some c →
    c ≠ 0 ∧ ∃ a, space (u32 ((src : Int) + (i : Nat))) = some a ∧ m a = c
  ends : s.length < limit → ∃ a, space (u32 ((src : Int) + s.length)) = some a ∧ m a = 0

/-- None of the bytes that are read for the string is one of the `size` bytes from `base` on. -/
def ReadsOff (space : AddressSpace) (src limit : Nat) (s : List UInt8) (base size : Nat) : Prop :=
  ∀ i ≤ s.length, i < limit → ∀ a, space (u32 ((src : Int) + (i : Nat))) = some a →
    size ≤ u32 ((a : Int) - base)

theorem u32_succ_add (a i : Nat) :
    u32 ((u32 ((a : Int) + 1) : Int) + (i : Nat)) = u32 ((a : Int) + (i + 1 : Nat)) := by
  rw [u32_add_u32]
  congr 1
  omega

namespace Memory

theorem copyIn_cons (m : Memory) (ptr : Nat) (c : UInt8) (rest : List UInt8)
    (hroom : rest.length < 4294967296) :
    (m.copyIn ptr [c]).copyIn (ptr + 1) rest = m.copyIn ptr (c :: rest) := by
  funext a
  have hlt := u32_lt ((a : Int) - ptr)
  by_cases hfirst : u32 ((a : Int) - ptr) = 0
  · have hlast : u32 ((a : Int) - (ptr + 1 : Nat)) = 4294967295 := by
      unfold u32 at hfirst ⊢
      omega
    unfold copyIn
    rw [hfirst, hlast, List.getElem?_eq_none (by omega)]
    rfl
  · obtain ⟨i, hi⟩ := Nat.exists_eq_succ_of_ne_zero hfirst
    have hnext : u32 ((a : Int) - (ptr + 1 : Nat)) = i := by
      unfold u32 at hi ⊢
      omega
    unfold copyIn
    rw [hi, hnext, Nat.succ_eq_add_one, List.getElem?_cons_succ, List.getElem?_cons_succ,
      List.getElem?_nil]
    rfl

theorem copyIn_u32 (m : Memory) (ptr : Nat) (bytes : List UInt8) :
    m.copyIn (u32 ptr) bytes = m.copyIn ptr bytes := by
  funext a
  have hsame : u32 ((a : Int) - u32 ptr) = u32 ((a : Int) - ptr) := by
    unfold u32
    omega
  unfold copyIn
  rw [hsame]

theorem copyIn_inside {m : Memory} {ptr : Nat} {bytes : List UInt8} {i : Nat} {c : UInt8}
    (hi : bytes[i]? = some c) (hlength : bytes.length ≤ 4294967296) :
    m.copyIn ptr bytes (u32 ((ptr : Int) + i)) = c := by
  have hin := (List.getElem?_eq_some_iff.mp hi).1
  have hplace : u32 ((u32 ((ptr : Int) + i) : Int) - ptr) = i := by
    unfold u32
    omega
  unfold copyIn
  rw [hplace, hi]
  rfl

theorem copyIn_outside {m : Memory} {ptr : Nat} {bytes : List UInt8} {a : Nat}
    (h : bytes.length ≤ u32 ((a : Int) - ptr)) : m.copyIn ptr bytes a = m a := by
  unfold copyIn
  rw [List.getElem?_eq_none h]
  rfl

end Memory

namespace StringIn
variable {space : AddressSpace} {m : Memory} {src limit : Nat} {s : List UInt8}

theorem congr {space' : AddressSpace} {m' : Memory} (h : StringIn space m src limit s)
    (hspace : ∀ i ≤ s.length, i < limit →
      space' (u32 ((src : Int) + (i : Nat))) = space (u32 ((src : Int) + (i : Nat))))
    (hsame : ∀ i ≤ s.length, i < limit → ∀ a, space (u32 ((src : Int) + (i : Nat))) = some a →
      m' a = m a) : StringIn space' m' src limit s := by
  have hbyte : ∀ i ≤ s.length, i < limit → ∀ c,
      (∃ a, space (u32 ((src : Int) + (i : Nat))) = some a ∧ m a = c) →
      ∃ a, space' (u32 ((src : Int) + (i : Nat))) = some a ∧ m' a = c := by
    rintro i hi hlt c ⟨a, ha, hma⟩
    exact ⟨a, (hspace i hi hlt).trans ha, (hsame i hi hlt a ha).trans hma⟩
  refine ⟨h.length, fun i c hi => ?_, fun hlt => hbyte _ (le_refl _) hlt 0 (h.ends hlt)⟩
  obtain ⟨hc, hplace⟩ := h.chars i c hi
  have hin := (List.getElem?_eq_some_iff.mp hi).1
  have hlength := h.length
  exact ⟨hc, hbyte i (by omega) (by omega) c hplace⟩

theorem first (h : StringIn space m src (limit + 1) []) (hsrc : src < 4294967296) :
    ∃ a, space src = some a ∧ m a = 0 := by
  simpa [u32_natCast hsrc] using h.ends (Nat.succ_pos limit)

theorem head {c : UInt8} (h : StringIn space m src limit (c :: s)) (hsrc : src < 4294967296) :
    c ≠ 0 ∧ ∃ a, space src = some a ∧ m a = c := by
  simpa [u32_natCast hsrc] using h.chars 0 c rfl

theorem tail {c : UInt8} (h : StringIn space m src (limit + 1) (c :: s)) :
    StringIn space m (u32 ((src : Int) + 1)) limit s := by
  refine ⟨Nat.le_of_succ_le_succ h.length, fun i d hi => ?_, fun hlt => ?_⟩
  · rw [u32_succ_add]
    exact h.chars (i + 1) d hi
  · rw [u32_succ_add]
    exact h.ends (Nat.succ_lt_succ hlt)

theorem strncpyInLoop_eq {dest base : Nat} (h : StringIn space m src limit s)
    (hsrc : src < 4294967296) (hdest : dest < 4294967296)
    (hplaces : ∀ i ≤ s.length,
      space (u32 ((dest : Int) + (i : Nat))) = some (u32 ((base : Int) + (i : Nat))))
    (hoff : ReadsOff space src limit s base (s.length + 1)) (hroom : s.length < 4294967295) :
    strncpyInLoop space limit dest src m = some (m.copyIn base (s ++ [0])) := by
  have hfirst {base dest : Nat} (hdest : dest < 4294967296)
      (hplace : space (u32 ((dest : Int) + (0 : Nat))) = some (u32 ((base : Int) + (0 : Nat)))) :
      space dest = some (u32 base) := by
    rwa [Int.ofNat_zero, Int.add_zero, Int.add_zero, u32_natCast hdest] at hplace
  induction limit generalizing m src dest base s with
  | zero =>
    obtain rfl := List.length_eq_zero_iff.mp (Nat.le_zero.mp h.length)
    unfold strncpyInLoop
    rw [hfirst hdest (hplaces 0 (Nat.zero_le _)), Option.map_some, Memory.copyIn_u32,
      List.nil_append]
  | succ limit ih =>
    unfold strncpyInLoop
    cases s with
    | nil =>
      obtain ⟨a, ha, hzero⟩ := h.first hsrc
      rw [ha, Option.bind_some, if_pos hzero, hfirst hdest (hplaces 0 (Nat.zero_le _)),
        Option.map_some, Memory.copyIn_u32, List.nil_append]
    | cons c s =>
      obtain ⟨hc, a, ha, hma⟩ := h.head hsrc
      rw [List.length_cons] at hroom hplaces hoff
      -- the character that was copied is not one of those that are still to be read
      have hrest : StringIn space (m.copyIn (u32 base) [c]) (u32 ((src : Int) + 1)) limit s := by
        refine h.tail.congr (fun _ _ _ => rfl) fun i hi hlt b hb => ?_
        rw [u32_succ_add] at hb
        have hapart := hoff (i + 1) (Nat.succ_le_succ hi) (Nat.succ_lt_succ hlt) b hb
        rw [Memory.copyIn_u32]
        exact Memory.copyIn_outside (by rw [List.length_singleton]; omega)
      have hplaces' : ∀ i ≤ s.length, space (u32 ((u32 ((dest : Int) + 1) : Int) + (i : Nat))) =
          some (u32 (((base + 1 : Nat) : Int) + (i : Nat))) := by
        intro i hi
        rw [u32_succ_add, hplaces (i + 1) (Nat.succ_le_succ hi)]
        congr 2
        push_cast
        omega
      have hoff' : ReadsOff space (u32 ((src : Int) + 1)) limit s (base + 1) (s.length + 1) := by
        intro i hi hlt b hb
        rw [u32_succ_add] at hb
        have hapart := hoff (i + 1) (Nat.succ_le_succ hi) (Nat.succ_lt_succ hlt) b hb
        unfold u32 at hapart ⊢
        push_cast
        omega
      have hloop := ih hrest (u32_lt _) (u32_lt _) hplaces' hoff' (by omega)
      rw [ha, Option.bind_some, hma, if_neg hc, hfirst hdest (hplaces 0 (Nat.zero_le _)),
        Option.bind_some, hloop, Memory.copyIn_u32, Memory.copyIn_cons _ _ _ _ (by simp; omega),
        List.cons_append]

end StringIn

theorem StringIn.of_copyIn {m : Memory} {base limit : Nat} {s : List UInt8} (hnonzero : 0 ∉ s)
    (hlength : s.length ≤ limit) (hroom : s.length < 4294967296) :
    StringIn some (m.copyIn base (s ++ [0])) base limit s := by
  have hsize : (s ++ [0]).length ≤ 4294967296 := by
    rw [List.length_append, List.length_singleton]
    omega
  refine ⟨hlength, fun i c hi => ⟨?_, _, rfl, ?_⟩, fun _ => ⟨_, rfl, ?_⟩⟩
  · rintro rfl
    exact hnonzero (List.mem_of_getElem? hi)
  · refine Memory.copyIn_inside ?_ hsize
    rw [List.getElem?_append_left (List.getElem?_eq_some_iff.mp hi).1]
    exact hi
  · refine Memory.copyIn_inside ?_ hsize
    rw [List.getElem?_append_right (le_refl _), Nat.sub_self]
    rfl

theorem StringIn.nonzero {space : AddressSpace} {m : Memory} {src limit : Nat} {s : List UInt8}
    (h : StringIn space m src limit s) : 0 ∉ s := by
  intro hzero
  obtain ⟨i, hi⟩ := List.getElem?_of_mem hzero
  exact (h.chars i 0 hi).1 rfl

theorem strncpyInLoop_dest {space : AddressSpace} {count dest src : Nat} {m m' : Memory}
    (h : strncpyInLoop space count dest src m = some m') : ∃ d, space dest = some d := by
  cases count with
  | zero =>
    obtain ⟨d, hd, -⟩ := Option.map_eq_some_iff.mp h
    exact ⟨d, hd⟩
  | succ count =>
    unfold strncpyInLoop at h
    obtain ⟨a, -, h⟩ := Option.bind_eq_some_iff.mp h
    split_ifs at h
    · obtain ⟨d, hd, -⟩ := Option.map_eq_some_iff.mp h
      exact ⟨d, hd⟩
    · obtain ⟨d, hd, -⟩ := Option.bind_eq_some_iff.mp h
      exact ⟨d, hd⟩

end BoiOS
