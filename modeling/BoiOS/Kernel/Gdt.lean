import BoiOS.Machine.Words
import Mathlib.Data.Nat.Bitwise
import Mathlib.Data.UInt
import Mathlib.Logic.Function.Basic

/-! The segment descriptors of gdt/gdt.c. A descriptor is eight bytes of the table; what the processor
makes of them is the other direction. -/
namespace BoiOS

structure GdtStructured where
  base : UInt32
  limit : UInt32
  type : UInt8
  deriving DecidableEq

def sizeofGdt : Nat := 8

/-- `gdt` is the table as bytes; the descriptor begins at `target`. -/
def encodeGdtEntry (gdt : Nat → UInt8) (target : Nat) (src : GdtStructured) :
    Except Stop (Nat → UInt8) :=
  if src.limit > 65536 ∧ src.limit &&& 0xFFF ≠ 0xFFF then .error .panicked
  else
    let limit := if src.limit > 65536 then src.limit >>> 12 else src.limit
    let gdt := Function.update gdt (target + 6) (if src.limit > 65536 then 0xC0 else 0x40)
    let gdt := Function.update gdt target (limit &&& 0xFF).toUInt8
    let gdt := Function.update gdt (target + 1) (limit >>> 8 &&& 0xFF).toUInt8
    let gdt := Function.update gdt (target + 6) (gdt (target + 6) ||| (limit >>> 16 &&& 0x0F).toUInt8)
    let gdt := Function.update gdt (target + 2) (src.base &&& 0xFF).toUInt8
    let gdt := Function.update gdt (target + 3) (src.base >>> 8 &&& 0xFF).toUInt8
    let gdt := Function.update gdt (target + 4) (src.base >>> 16 &&& 0xFF).toUInt8
    let gdt := Function.update gdt (target + 7) (src.base >>> 24 &&& 0xFF).toUInt8
    .ok (Function.update gdt (target + 5) src.type)

def gdtStructuredToGdtLoop (gdt : Nat → UInt8) : List GdtStructured → (i : Nat) →
    Except Stop (Nat → UInt8)
  | [], _ => .ok gdt
  | src :: rest, i =>
      (encodeGdtEntry gdt (sizeofGdt * i) src).bind fun gdt => gdtStructuredToGdtLoop gdt rest (i + 1)

def gdtStructuredToGdt (gdt : Nat → UInt8) (structuredGdt : List GdtStructured) :
    Except Stop (Nat → UInt8) := gdtStructuredToGdtLoop gdt structuredGdt 0

/-! What the processor reads. -/

/-- The 20 bits of the limit, before they are scaled. -/
def descriptorLimit20 (gdt : Nat → UInt8) (entry : Nat) : Nat :=
  (gdt entry).toNat + 256 * (gdt (entry + 1)).toNat + 65536 * ((gdt (entry + 6)).toNat % 16)

def descriptorLimit (gdt : Nat → UInt8) (entry : Nat) : Nat :=
  if gdt (entry + 6) &&& 0x80 = 0 then descriptorLimit20 gdt entry
  else descriptorLimit20 gdt entry * 4096 + 0xFFF

def descriptorBase (gdt : Nat → UInt8) (entry : Nat) : Nat :=
  (gdt (entry + 2)).toNat + 256 * (gdt (entry + 3)).toNat + 65536 * (gdt (entry + 4)).toNat +
    16777216 * (gdt (entry + 7)).toNat

def descriptorAccess (gdt : Nat → UInt8) (entry : Nat) : UInt8 := gdt (entry + 5)

structure Describes (gdt : Nat → UInt8) (entry : Nat) (src : GdtStructured) : Prop where
  base : descriptorBase gdt entry = src.base.toNat
  limit : descriptorLimit gdt entry = src.limit.toNat
  access : descriptorAccess gdt entry = src.type

/-- A limit that a descriptor can hold. -/
def GdtStructured.Encodable (src : GdtStructured) : Prop :=
  src.limit ≤ 65536 ∨ src.limit &&& 0xFFF = 0xFFF

/-! Bytes. -/

theorem toNat_low_byte (x : UInt32) : (x &&& 0xFF).toUInt8.toNat = x.toNat % 256 := by
  rw [UInt32.toNat_toUInt8, UInt32.toNat_and]
  have hmask : x.toNat &&& (0xFF : UInt32).toNat = x.toNat % 256 :=
    Nat.and_two_pow_sub_one_eq_mod x.toNat 8
  rw [hmask]
  omega

theorem toNat_shiftRight (x k : UInt32) (hk : k.toNat < 32) :
    (x >>> k).toNat = x.toNat / 2 ^ k.toNat := by
  rw [UInt32.toNat_shiftRight, Nat.mod_eq_of_lt hk, Nat.shiftRight_eq_div_pow]

theorem toNat_low_nibble (x : UInt32) : (x &&& 0x0F).toUInt8.toNat = x.toNat % 16 := by
  rw [UInt32.toNat_toUInt8, UInt32.toNat_and]
  have hmask : x.toNat &&& (0x0F : UInt32).toNat = x.toNat % 16 :=
    Nat.and_two_pow_sub_one_eq_mod x.toNat 4
  rw [hmask]
  omega

theorem limit_mask (x : UInt32) : x &&& 0xFFF = 0xFFF ↔ x.toNat % 4096 = 4095 := by
  have hmask : x.toNat &&& (0xFFF : UInt32).toNat = x.toNat % 4096 :=
    Nat.and_two_pow_sub_one_eq_mod x.toNat 12
  rw [← UInt32.toNat_inj, UInt32.toNat_and, hmask]
  rfl

theorem flags_nibble (nibble : UInt8) (h : nibble.toNat < 16) :
    (0x40 ||| nibble).toNat % 16 = nibble.toNat ∧ (0x40 ||| nibble) &&& 0x80 = 0 ∧
      (0xC0 ||| nibble).toNat % 16 = nibble.toNat ∧ (0xC0 ||| nibble) &&& 0x80 ≠ 0 := by
  have hall : ∀ n < 16, (0x40 ||| UInt8.ofNat n).toNat % 16 = n ∧
      (0x40 ||| UInt8.ofNat n) &&& 0x80 = 0 ∧ (0xC0 ||| UInt8.ofNat n).toNat % 16 = n ∧
        (0xC0 ||| UInt8.ofNat n) &&& 0x80 ≠ 0 := by
    decide +kernel
  have hnibble := hall nibble.toNat h
  rwa [UInt8.ofNat_toNat] at hnibble

/-! One descriptor. -/

theorem base_bytes (base : UInt32) : (base &&& 0xFF).toUInt8.toNat +
    256 * (base >>> 8 &&& 0xFF).toUInt8.toNat + 65536 * (base >>> 16 &&& 0xFF).toUInt8.toNat +
      16777216 * (base >>> 24 &&& 0xFF).toUInt8.toNat = base.toNat := by
  have hbase := base.toNat_lt
  have h8 : (base >>> 8).toNat = base.toNat / 256 := toNat_shiftRight base 8 (by decide)
  have h16 : (base >>> 16).toNat = base.toNat / 65536 := toNat_shiftRight base 16 (by decide)
  have h24 : (base >>> 24).toNat = base.toNat / 16777216 := toNat_shiftRight base 24 (by decide)
  rw [toNat_low_byte, toNat_low_byte, toNat_low_byte, toNat_low_byte, h8, h16, h24]
  omega

theorem limit_bytes {limit : UInt32} (h : limit.toNat < 1048576) (flags : UInt8)
    (hflags : flags = 0x40 ∨ flags = 0xC0) : (limit &&& 0xFF).toUInt8.toNat +
      256 * (limit >>> 8 &&& 0xFF).toUInt8.toNat +
      65536 * ((flags ||| (limit >>> 16 &&& 0x0F).toUInt8).toNat % 16) = limit.toNat := by
  have h8 : (limit >>> 8).toNat = limit.toNat / 256 := toNat_shiftRight limit 8 (by decide)
  have h16 : (limit >>> 16).toNat = limit.toNat / 65536 := toNat_shiftRight limit 16 (by decide)
  have hnibble := toNat_low_nibble (limit >>> 16)
  obtain ⟨hbyte, -, hpage, -⟩ :=
    flags_nibble (limit >>> 16 &&& 0x0F).toUInt8 (by omega)
  have hlow : (flags ||| (limit >>> 16 &&& 0x0F).toUInt8).toNat % 16 = limit.toNat / 65536 % 16 := by
    rcases hflags with rfl | rfl
    · rw [hbyte, hnibble, h16]
    · rw [hpage, hnibble, h16]
  rw [toNat_low_byte, toNat_low_byte, h8, hlow]
  omega

theorem descriptor_stores (gdt : Nat → UInt8) (target : Nat)
    (flags limit₀ limit₁ limit₂ base₀ base₁ base₂ base₃ type : UInt8) :
    ∃ gdt', (
      let gdt := Function.update gdt (target + 6) flags
      let gdt := Function.update gdt target limit₀
      let gdt := Function.update gdt (target + 1) limit₁
      let gdt := Function.update gdt (target + 6) (gdt (target + 6) ||| limit₂)
      let gdt := Function.update gdt (target + 2) base₀
      let gdt := Function.update gdt (target + 3) base₁
      let gdt := Function.update gdt (target + 4) base₂
      let gdt := Function.update gdt (target + 7) base₃
      Function.update gdt (target + 5) type) = gdt' ∧
    gdt' target = limit₀ ∧ gdt' (target + 1) = limit₁ ∧ gdt' (target + 6) = flags ||| limit₂ ∧
    (gdt' (target + 2)).toNat + 256 * (gdt' (target + 3)).toNat +
      65536 * (gdt' (target + 4)).toNat + 16777216 * (gdt' (target + 7)).toNat =
        base₀.toNat + 256 * base₁.toNat + 65536 * base₂.toNat + 16777216 * base₃.toNat ∧
    gdt' (target + 5) = type ∧ ∀ a, a < target ∨ target + sizeofGdt ≤ a → gdt' a = gdt a := by
  refine ⟨_, rfl, by simp, by simp, by simp, by simp, by simp, fun a ha => ?_⟩
  unfold sizeofGdt at ha
  have hapart : ∀ j < 8, a ≠ target + j := fun j hj => by omega
  have hfirst : a ≠ target := by omega
  simp [hapart, hfirst]

theorem GdtStructured.Encodable.scaled {src : GdtStructured} (h : src.Encodable) :
    ∃ limit, ∃ flags : UInt8,
      (if src.limit > 65536 then src.limit >>> 12 else src.limit) = limit ∧
      (if src.limit > 65536 then 0xC0 else 0x40) = flags ∧ limit.toNat < 1048576 ∧
      (flags = 0x40 ∧ limit.toNat = src.limit.toNat ∨
        flags = 0xC0 ∧ limit.toNat * 4096 + 0xFFF = src.limit.toNat) := by
  refine ⟨_, (if src.limit > 65536 then 0xC0 else 0x40 : UInt8), rfl, rfl, ?_⟩
  by_cases hlarge : src.limit > 65536
  · have hends := (limit_mask src.limit).mp (h.resolve_left (UInt32.not_le.mpr hlarge))
    have hscaled : (src.limit >>> 12).toNat = src.limit.toNat / 4096 :=
      toNat_shiftRight src.limit 12 (by decide)
    have hlt := src.limit.toNat_lt
    rw [if_pos hlarge, if_pos hlarge]
    exact ⟨by omega, Or.inr ⟨rfl, by omega⟩⟩
  · have hsmall : src.limit.toNat ≤ 65536 := UInt32.le_iff_toNat_le.mp (UInt32.not_lt.mp hlarge)
    rw [if_neg hlarge, if_neg hlarge]
    exact ⟨by omega, Or.inl ⟨rfl, rfl⟩⟩

theorem encodeGdtEntry_spec {src : GdtStructured} (h : src.Encodable) (gdt : Nat → UInt8)
    (target : Nat) : ∃ gdt', encodeGdtEntry gdt target src = .ok gdt' ∧ Describes gdt' target src ∧
      ∀ a, a < target ∨ target + sizeofGdt ≤ a → gdt' a = gdt a := by
  have hgate : ¬ (src.limit > 65536 ∧ src.limit &&& 0xFFF ≠ 0xFFF) := by
    rintro ⟨hlarge, hmask⟩
    rcases h with hsmall | hends
    · exact absurd hlarge (UInt32.not_lt.mpr hsmall)
    · exact hmask hends
  obtain ⟨limit, flags, hlimit, hflags, hlow, hscale⟩ := h.scaled
  have hbytes := limit_bytes hlow flags (hscale.imp And.left And.left)
  obtain ⟨-, hbyte, -, hpage⟩ := flags_nibble (limit >>> 16 &&& 0x0F).toUInt8
    (by rw [toNat_low_nibble]; omega)
  obtain ⟨gdt', hgdt', h₀, h₁, h₆, hbase, htype, hrest⟩ := descriptor_stores gdt target flags
    (limit &&& 0xFF).toUInt8 (limit >>> 8 &&& 0xFF).toUInt8 (limit >>> 16 &&& 0x0F).toUInt8
    (src.base &&& 0xFF).toUInt8 (src.base >>> 8 &&& 0xFF).toUInt8
    (src.base >>> 16 &&& 0xFF).toUInt8 (src.base >>> 24 &&& 0xFF).toUInt8 src.type
  unfold encodeGdtEntry
  rw [if_neg hgate, hlimit, hflags]
  refine ⟨gdt', congrArg Except.ok hgdt', ⟨hbase.trans (base_bytes src.base), ?_, htype⟩, hrest⟩
  unfold descriptorLimit descriptorLimit20
  rw [h₀, h₁, h₆, hbytes]
  rcases hscale with ⟨hflag, hsame⟩ | ⟨hflag, hsame⟩
  · rw [hflag, if_pos hbyte, hsame]
  · rw [hflag, if_neg hpage, hsame]

/-! The table. -/

theorem Describes.congr {gdt gdt' : Nat → UInt8} {entry : Nat} {src : GdtStructured}
    (h : Describes gdt entry src)
    (hsame : ∀ a, entry ≤ a → a < entry + sizeofGdt → gdt' a = gdt a) : Describes gdt' entry src := by
  have hbyte : ∀ j < 8, gdt' (entry + j) = gdt (entry + j) := by
    intro j hj
    refine hsame _ (by omega) ?_
    unfold sizeofGdt
    omega
  have hfirst := hbyte 0 (by decide)
  rw [Nat.add_zero] at hfirst
  obtain ⟨hbase, hlimit, haccess⟩ := h
  refine ⟨?_, ?_, ?_⟩
  · rw [← hbase]
    unfold descriptorBase
    rw [hbyte 2 (by decide), hbyte 3 (by decide), hbyte 4 (by decide), hbyte 7 (by decide)]
  · rw [← hlimit]
    unfold descriptorLimit descriptorLimit20
    rw [hfirst, hbyte 1 (by decide), hbyte 6 (by decide)]
  · rw [← haccess]
    exact hbyte 5 (by decide)

theorem gdtStructuredToGdtLoop_spec {structuredGdt : List GdtStructured}
    (h : ∀ src ∈ structuredGdt, src.Encodable) (gdt : Nat → UInt8) (i : Nat) :
    ∃ gdt', gdtStructuredToGdtLoop gdt structuredGdt i = .ok gdt' ∧
      (∀ j src, structuredGdt[j]? = some src → Describes gdt' (sizeofGdt * (i + j)) src) ∧
      ∀ a, a < sizeofGdt * i ∨ sizeofGdt * (i + structuredGdt.length) ≤ a → gdt' a = gdt a := by
  induction structuredGdt generalizing gdt i with
  | nil => exact ⟨gdt, rfl, fun j src hsrc => by simp at hsrc, fun _ _ => rfl⟩
  | cons src rest ih =>
    obtain ⟨hfirst, hothers⟩ := List.forall_mem_cons.mp h
    obtain ⟨gdt₁, hencode, hdescribes, hframe⟩ := encodeGdtEntry_spec hfirst gdt (sizeofGdt * i)
    obtain ⟨gdt', hloop, hentries, hrest⟩ := ih hothers gdt₁ (i + 1)
    refine ⟨gdt', ?_, fun j src' hsrc => ?_, fun a ha => ?_⟩
    · rw [gdtStructuredToGdtLoop, hencode]
      exact hloop
    · cases j with
      | zero =>
        rw [List.getElem?_cons_zero, Option.some.injEq] at hsrc
        rw [← hsrc]
        exact hdescribes.congr fun a _ ha => hrest a (Or.inl (by omega))
      | succ j =>
        rw [List.getElem?_cons_succ] at hsrc
        have hentry := hentries j src' hsrc
        rwa [show i + 1 + j = i + (j + 1) by omega] at hentry
    · rw [List.length_cons] at ha
      unfold sizeofGdt at ha hrest hframe
      rw [hrest a (by omega), hframe a (by omega)]

/-- Every segment with a limit that a descriptor can hold is read back from its entry, and nothing is
written behind the table. -/
theorem gdt_structured_to_gdt_decodes {structuredGdt : List GdtStructured}
    (h : ∀ src ∈ structuredGdt, src.limit ≤ 65536 ∨ src.limit &&& 0xFFF = 0xFFF)
    (gdt : Nat → UInt8) : ∃ gdt', gdtStructuredToGdt gdt structuredGdt = .ok gdt' ∧
      (∀ i src, structuredGdt[i]? = some src →
        descriptorBase gdt' (sizeofGdt * i) = src.base.toNat ∧
        descriptorLimit gdt' (sizeofGdt * i) = src.limit.toNat ∧
        descriptorAccess gdt' (sizeofGdt * i) = src.type) ∧
      ∀ a, sizeofGdt * structuredGdt.length ≤ a → gdt' a = gdt a := by
  obtain ⟨gdt', hrun, hentries, hrest⟩ := gdtStructuredToGdtLoop_spec h gdt 0
  refine ⟨gdt', hrun, fun i src hsrc => ?_, fun a ha => hrest a (Or.inr (by rwa [Nat.zero_add]))⟩
  have hentry := hentries i src hsrc
  rw [Nat.zero_add] at hentry
  exact ⟨hentry.base, hentry.limit, hentry.access⟩

theorem gdt_structured_to_gdt_decodes_kernel :
    ∃ gdt', gdtStructuredToGdt (fun _ => 0) [⟨0, 0, 0⟩, ⟨0, 0xFFFFFFFF, 0x9A⟩,
      ⟨0, 0xFFFFFFFF, 0x92⟩, ⟨0, 0xFFFFFFFF, 0xF8⟩, ⟨0, 0xFFFFFFFF, 0xF2⟩,
      ⟨0x10A000, 100, 0xE9⟩] = .ok gdt' ∧
      descriptorLimit gdt' (sizeofGdt * 1) = 0xFFFFFFFF := by
  have hlimits : ∀ src ∈ ([⟨0, 0, 0⟩, ⟨0, 0xFFFFFFFF, 0x9A⟩, ⟨0, 0xFFFFFFFF, 0x92⟩,
      ⟨0, 0xFFFFFFFF, 0xF8⟩, ⟨0, 0xFFFFFFFF, 0xF2⟩, ⟨0x10A000, 100, 0xE9⟩] : List GdtStructured),
      src.limit ≤ 65536 ∨ src.limit &&& 0xFFF = 0xFFF := by
    decide
  obtain ⟨gdt', hrun, hentries, -⟩ := gdt_structured_to_gdt_decodes hlimits fun _ => 0
  exact ⟨gdt', hrun, (hentries 1 _ rfl).2.1⟩

end BoiOS
