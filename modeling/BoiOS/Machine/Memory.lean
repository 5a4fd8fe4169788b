import BoiOS.Machine.Words
import Mathlib.Algebra.Group.Nat.Defs

/-! Physical memory, as far as the kernel uses it as plain bytes: file images, stacks, directory
records, strings and the allocations of programs. Addresses wrap at 2^32 and words are little-endian. -/
namespace BoiOS

abbrev Memory := Nat → UInt8

namespace Memory

def load8 (m : Memory) (a : Int) : Nat := (m (u32 a)).toNat

def load16 (m : Memory) (a : Int) : Nat := m.load8 a + 256 * m.load8 (a + 1)

def load32 (m : Memory) (a : Int) : Nat := m.load16 a + 65536 * m.load16 (a + 2)

def clear (m : Memory) (ptr size : Nat) : Memory := fun a =>
  if u32 ((a : Int) - ptr) < size then 0 else m a

def copyIn (m : Memory) (ptr : Nat) (bytes : List UInt8) : Memory := fun a =>
  (bytes[u32 ((a : Int) - ptr)]?).getD (m a)

@[simp] theorem copyIn_nil (m : Memory) (ptr : Nat) : m.copyIn ptr [] = m := rfl

theorem copyIn_clear (m : Memory) (ptr : Nat) {size i : Nat} (hi : i < size)
    (hsize : size ≤ 4294967296) (bytes : List UInt8) :
    (m.clear ptr size).copyIn ptr bytes (u32 ((ptr : Int) + i)) = bytes.getD i 0 := by
  have hplace : u32 ((u32 ((ptr : Int) + i) : Int) - ptr) = i := by
    unfold u32
    omega
  unfold copyIn clear
  rw [hplace, if_pos hi, List.getD_eq_getElem?_getD]

theorem copyIn_append (m : Memory) (ptr : Nat) (bytes rest : List UInt8)
    (hroom : ptr + bytes.length + rest.length ≤ 4294967296) :
    (m.copyIn ptr bytes).copyIn (ptr + bytes.length) rest = m.copyIn ptr (bytes ++ rest) := by
  funext a
  have hplace : u32 ((a : Int) - (ptr + bytes.length : Nat)) =
      if u32 ((a : Int) - ptr) < bytes.length then
        u32 ((a : Int) - ptr) + 4294967296 - bytes.length
      else u32 ((a : Int) - ptr) - bytes.length := by
    unfold u32
    split_ifs <;> omega
  have hlt := u32_lt ((a : Int) - ptr)
  unfold copyIn
  rw [hplace]
  split_ifs with hfirst
  · rw [List.getElem?_append_left hfirst, List.getElem?_eq_none (by omega)]
    rfl
  · rw [List.getElem?_append_right (by omega), List.getElem?_eq_none (l := bytes) (by omega)]
    rfl

def bytesAt (m : Memory) (ptr : Nat) (size : Nat) : List UInt8 :=
  (List.range size).map fun i : Nat => m (u32 ((ptr : Int) + i))

theorem getElem?_bytesAt (m : Memory) {ptr size i : Nat} (hi : i < size) :
    (m.bytesAt ptr size)[i]? = some (m (u32 ((ptr : Int) + i))) := by
  simp [bytesAt, hi]

theorem bytesAt_take (m : Memory) (ptr size n : Nat) (hroom : n ≤ size) :
    (m.bytesAt ptr size).take n = m.bytesAt ptr n := by
  unfold bytesAt
  rw [← List.map_take, List.take_range, Nat.min_eq_left hroom]

theorem bytesAt_drop_take (m : Memory) (ptr size i n : Nat) (hroom : i + n ≤ size) :
    ((m.bytesAt ptr size).drop i).take n = m.bytesAt (u32 ((ptr : Int) + i)) n := by
  refine List.ext_getElem? fun j => ?_
  by_cases hj : j < n
  · rw [List.getElem?_take_of_lt hj, List.getElem?_drop, getElem?_bytesAt m (by omega),
      getElem?_bytesAt m hj, u32_add_u32]
    push_cast
    rw [Int.add_assoc]
  · rw [List.getElem?_eq_none, List.getElem?_eq_none]
    · simp [bytesAt]
      omega
    · simp [bytesAt]
      omega

theorem bytesAt_copyIn (m : Memory) (ptr : Nat) (bytes : List UInt8)
    (hroom : bytes.length ≤ 4294967296) :
    (m.copyIn ptr bytes).bytesAt ptr bytes.length = bytes := by
  refine List.ext_getElem (by simp [bytesAt]) fun i hi hi' => ?_
  have hplace : u32 ((u32 ((ptr : Int) + i) : Int) - ptr) = i := by
    unfold u32
    omega
  simp [bytesAt, copyIn, hplace, hi']

def wordBytes (v : Nat) : List UInt8 :=
  [UInt8.ofNat v, UInt8.ofNat (v / 256), UInt8.ofNat (v / 65536), UInt8.ofNat (v / 16777216)]

def store32 (m : Memory) (a v : Nat) : Memory := m.copyIn a (wordBytes v)

theorem load8_store32_of_apart {m : Memory} {a v : Nat} {b : Int}
    (hapart : 4 ≤ u32 ((u32 b : Int) - a)) : (m.store32 a v).load8 b = m.load8 b := by
  unfold load8 store32 copyIn
  rw [List.getElem?_eq_none (by exact hapart)]
  rfl

theorem load8_store32 {m : Memory} {a v i : Nat} (ha : a + i < 4294967296) (hi : i < 4) :
    (m.store32 a v).load8 (a + i : Nat) = v / 256 ^ i % 256 := by
  have hplace : u32 (((a + i : Nat) : Int) - a) = i := by
    rw [show ((a + i : Nat) : Int) - a = (i : Nat) by omega, u32_natCast (by omega)]
  unfold load8 store32 copyIn
  rw [u32_natCast ha, hplace]
  match i, hi with
  | 0, _ => simp [wordBytes]
  | 1, _ => simp [wordBytes]
  | 2, _ => simp [wordBytes]
  | 3, _ => simp [wordBytes]

theorem load32_natCast (m : Memory) (a : Nat) : m.load32 a =
    m.load8 (a + 0 : Nat) + 256 * m.load8 (a + 1 : Nat) +
      65536 * (m.load8 (a + 2 : Nat) + 256 * m.load8 (a + 3 : Nat)) := by
  have hthree : (a : Int) + 2 + 1 = (a + 3 : Nat) := by omega
  unfold load32 load16
  rw [hthree]
  rfl

theorem load32_lt (m : Memory) (a : Int) : m.load32 a < 4294967296 := by
  unfold load32 load16 load8
  have h0 := (m (u32 a)).toNat_lt
  have h1 := (m (u32 (a + 1))).toNat_lt
  have h2 := (m (u32 (a + 2))).toNat_lt
  have h3 := (m (u32 (a + 2 + 1))).toNat_lt
  omega

theorem load32_store32 {m : Memory} {a v : Nat} (ha : a + 4 ≤ 4294967296) (hv : v < 4294967296) :
    (m.store32 a v).load32 a = v := by
  rw [load32_natCast, load8_store32 (by omega) (by decide), load8_store32 (by omega) (by decide),
    load8_store32 (by omega) (by decide), load8_store32 (by omega) (by decide)]
  omega

theorem load32_congr {m m' : Memory} {a : Nat}
    (h : ∀ i < 4, m'.load8 (a + i : Nat) = m.load8 (a + i : Nat)) : m'.load32 a = m.load32 a := by
  rw [load32_natCast, load32_natCast, h 0 (by decide), h 1 (by decide), h 2 (by decide),
    h 3 (by decide)]

theorem load32_store32_of_apart {m : Memory} {a v b : Nat} (ha : a + 4 ≤ 4294967296)
    (hb : b + 4 ≤ 4294967296) (hapart : b + 4 ≤ a ∨ a + 4 ≤ b) :
    (m.store32 a v).load32 b = m.load32 b := by
  refine load32_congr fun i hi => load8_store32_of_apart ?_
  rw [u32_natCast (by omega)]
  unfold u32
  omega

end Memory
end BoiOS
