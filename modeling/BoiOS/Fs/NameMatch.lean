import BoiOS.Fs.DirectoryContent
import BoiOS.Library.Buffer
import Mathlib.Data.List.Forall2

/-! The name of a record, as the driver formats it in a buffer, and the comparison with the name that
is looked for. The stores are those of `fat16_get_full_relative_filename`, one by one: the zeros,
the base and its terminator, the dot over that terminator, and the extension and its own. -/
namespace BoiOS
open Library.Buffer

/-- The loop of `fat16_to_proper_string`, which copies a character while `i` is below `size - 1`, and
the last one before it stops; with the stores, where `*out` ends up. -/
def fat16ToProperStringLoop : (room out : Nat) → (chars : List UInt8) → List (Nat × UInt8) × Nat
  | 0, out, chars =>
      if charAt chars 0 ≠ 0x00 ∧ charAt chars 0 ≠ 0x20 then
        ([(out, charAt chars 0), (out + 1, 0)], out + 1)
      else ([(out, 0)], out)
  | room + 1, out, chars =>
      if charAt chars 0 ≠ 0x00 ∧ charAt chars 0 ≠ 0x20 then
        let rest := fat16ToProperStringLoop room (out + 1) (chars.drop 1)
        ((out, charAt chars 0) :: rest.1, rest.2)
      else ([(out, 0)], out)

def fat16ToProperStringStores (out : Nat) (chars : List UInt8) (size : Nat) :
    List (Nat × UInt8) × Nat :=
  fat16ToProperStringLoop (size - 1) out chars

/-- The characters of a field are the bytes of the record from the field on, with what follows it. -/
def fat16GetFullRelativeFilenameStores (record : List UInt8) (maxLen : Nat) : List (Nat × UInt8) :=
  let name := fat16ToProperStringStores 0 record 8
  storesFrom 0 (List.replicate maxLen 0) ++ name.1 ++
    if charAt (record.drop 8) 0 ≠ 0x00 ∧ charAt (record.drop 8) 0 ≠ 0x20 then
      (name.2, 46) :: (fat16ToProperStringStores (name.2 + 1) (record.drop 8) 3).1
    else []

/-! What a name is. -/

/-- The field up to its first zero or space. -/
def cutAtBlank (field : List UInt8) : List UInt8 :=
  field.take (field.findIdx fun c => c == 0x00 || c == 0x20)

def shortName (base ext : List UInt8) : List UInt8 :=
  if charAt ext 0 = 0x00 ∨ charAt ext 0 = 0x20 then cutAtBlank base
  else cutAtBlank base ++ [46] ++ cutAtBlank ext

def SmallLetterOf (a b : UInt8) : Prop := 65 ≤ a.toNat ∧ a.toNat ≤ 90 ∧ b.toNat = a.toNat + 32

def EqualButCase (a b : UInt8) : Prop := a = b ∨ SmallLetterOf a b ∨ SmallLetterOf b a

theorem tolower_toNat (c : UInt8) :
    (tolower c).toNat = if 65 ≤ c.toNat ∧ c.toNat ≤ 90 then c.toNat + 32 else c.toNat := by
  unfold tolower
  by_cases hupper : c ≥ 65 ∧ c ≤ 90
  · have hlow : 65 ≤ c.toNat := hupper.1
    have hhigh : c.toNat ≤ 90 := hupper.2
    rw [if_pos hupper, if_pos ⟨hlow, hhigh⟩, UInt8.toNat_add,
      show (32 : UInt8).toNat = 32 from rfl]
    omega
  · have hother : ¬(65 ≤ c.toNat ∧ c.toNat ≤ 90) := fun h => hupper ⟨h.1, h.2⟩
    rw [if_neg hupper, if_neg hother]

theorem tolower_eq_iff (a b : UInt8) : tolower a = tolower b ↔ EqualButCase a b := by
  unfold EqualButCase SmallLetterOf
  rw [← UInt8.toNat_inj, ← UInt8.toNat_inj, tolower_toNat, tolower_toNat]
  split_ifs <;> omega

theorem sameName_iff (name query : List UInt8) :
    SameName name query ↔ List.Forall₂ EqualButCase name query := by
  have hletter : (fun a b : UInt8 => tolower a = tolower b) = EqualButCase := by
    funext a b
    exact propext (tolower_eq_iff a b)
  unfold SameName
  rw [← List.forall₂_eq_eq_eq, List.forall₂_map_left_iff, List.forall₂_map_right_iff, hletter]

theorem takeWhile_eq_cutAtBlank (field : List UInt8) :
    (field.takeWhile fun c => c != 0x00 && c != 0x20) = cutAtBlank field := by
  unfold cutAtBlank
  induction field with
  | nil => rfl
  | cons c field ih =>
    rw [List.findIdx_cons]
    cases hblank : (c == 0x00 || c == 0x20) with
    | true =>
      have hstop : ¬(c != 0x00 && c != 0x20) = true := by
        simp only [Bool.or_eq_true, beq_iff_eq] at hblank
        simpa using fun hzero => hblank.resolve_left hzero
      simp only [List.takeWhile_cons, hstop]
      rfl
    | false =>
      obtain ⟨hzero, hspace⟩ := Bool.or_eq_false_iff.mp hblank
      have hgo : (c != 0x00 && c != 0x20) = true := by
        rw [bne, bne, hzero, hspace]
        rfl
      simp only [List.takeWhile_cons, hgo, ih]
      rfl

theorem fat16ToProperString_eq_cut (field : List UInt8) :
    fat16ToProperString field field.length = cutAtBlank field := by
  unfold fat16ToProperString
  rw [List.take_length, takeWhile_eq_cutAtBlank]

theorem fat16GetFullRelativeFilename_eq_shortName (m : Memory) (item : Nat) :
    fat16GetFullRelativeFilename m item = shortName (itemFileName m item) (itemExt m item) := by
  have hname := fat16ToProperString_eq_cut (itemFileName m item)
  have hext := fat16ToProperString_eq_cut (itemExt m item)
  have hlength : (itemFileName m item).length = 8 := by simp [itemFileName, Memory.bytesAt]
  have hlength' : (itemExt m item).length = 3 := by simp [itemExt, Memory.bytesAt]
  rw [hlength] at hname
  rw [hlength'] at hext
  unfold fat16GetFullRelativeFilename shortName
  rw [hname, hext]
  by_cases hblank : charAt (itemExt m item) 0 = 0x00 ∨ charAt (itemExt m item) 0 = 0x20
  · rw [if_pos hblank, if_neg (by rwa [← not_or, not_not])]
  · rw [if_neg hblank, if_pos (not_or.mp hblank)]
    simp

/-! What the stores leave in the buffer. -/

theorem fat16ToProperString_stop {chars : List UInt8} (size : Nat)
    (h : ¬(charAt chars 0 ≠ 0x00 ∧ charAt chars 0 ≠ 0x20)) : fat16ToProperString chars size = [] := by
  unfold fat16ToProperString
  cases size with
  | zero => rfl
  | succ size =>
    cases chars with
    | nil => rfl
    | cons c chars =>
      have hc : ¬(c ≠ 0x00 ∧ c ≠ 0x20) := h
      rw [List.take_succ_cons, List.takeWhile_cons_of_neg (by simpa using hc)]

theorem fat16ToProperString_copy {chars : List UInt8} (size : Nat)
    (h : charAt chars 0 ≠ 0x00 ∧ charAt chars 0 ≠ 0x20) : fat16ToProperString chars (size + 1) =
      charAt chars 0 :: fat16ToProperString (chars.drop 1) size := by
  cases chars with
  | nil => exact absurd rfl h.1
  | cons c chars =>
    have hc : c ≠ 0x00 ∧ c ≠ 0x20 := h
    unfold fat16ToProperString
    rw [List.take_succ_cons, List.takeWhile_cons_of_pos (by simpa using hc)]
    rfl

theorem fat16ToProperStringLoop_eq (room out : Nat) (chars : List UInt8) :
    fat16ToProperStringLoop room out chars =
      (storesFrom out (fat16ToProperString chars (room + 1) ++ [0]),
        out + (fat16ToProperString chars (room + 1)).length) := by
  induction room generalizing out chars with
  | zero =>
    unfold fat16ToProperStringLoop
    by_cases hcopy : charAt chars 0 ≠ 0x00 ∧ charAt chars 0 ≠ 0x20
    · rw [if_pos hcopy, fat16ToProperString_copy 0 hcopy]
      simp [fat16ToProperString, storesFrom]
    · rw [if_neg hcopy, fat16ToProperString_stop 1 hcopy]
      rfl
  | succ room ih =>
    unfold fat16ToProperStringLoop
    by_cases hcopy : charAt chars 0 ≠ 0x00 ∧ charAt chars 0 ≠ 0x20
    · rw [if_pos hcopy, ih, fat16ToProperString_copy (room + 1) hcopy]
      simp only [List.cons_append, storesFrom, List.length_cons, Prod.mk.injEq, true_and]
      omega
    · rw [if_neg hcopy, fat16ToProperString_stop (room + 2) hcopy]
      rfl

theorem fat16ToProperString_take (chars : List UInt8) (size : Nat) :
    fat16ToProperString (chars.take size) size = fat16ToProperString chars size := by
  unfold fat16ToProperString
  rw [List.take_take, Nat.min_self]

def dotExtension (record : List UInt8) : List UInt8 :=
  if charAt (record.drop 8) 0 ≠ 0x00 ∧ charAt (record.drop 8) 0 ≠ 0x20 then
    46 :: fat16ToProperString (record.drop 8) 3
  else []

theorem recordName_eq_append (record : List UInt8) :
    recordName record = fat16ToProperString record 8 ++ dotExtension record := by
  have hfirst : charAt ((record.drop 8).take 3) 0 = charAt (record.drop 8) 0 := by
    unfold charAt
    cases record.drop 8 <;> rfl
  unfold recordName dotExtension
  dsimp only
  rw [hfirst, fat16ToProperString_take, fat16ToProperString_take]
  split_ifs
  · rfl
  · rw [List.append_nil]

theorem fat16GetFullRelativeFilenameStores_eq (record : List UInt8) (maxLen : Nat) :
    fat16GetFullRelativeFilenameStores record maxLen =
      storesFrom 0 (List.replicate maxLen 0) ++
        storesFrom 0 (fat16ToProperString record 8 ++ [0]) ++
        if dotExtension record = [] then []
        else storesFrom (fat16ToProperString record 8).length (dotExtension record ++ [0]) := by
  unfold fat16GetFullRelativeFilenameStores fat16ToProperStringStores dotExtension
  dsimp only
  rw [fat16ToProperStringLoop_eq, fat16ToProperStringLoop_eq]
  split_ifs with hext hnil
  · exact absurd hnil (by simp)
  · simp [storesFrom]
  · rfl
  · contradiction

theorem fat16GetFullRelativeFilenameStores_fits (record : List UInt8) :
    Fits boiosMaxPath (fat16GetFullRelativeFilenameStores record boiosMaxPath) := by
  obtain ⟨-, hlength⟩ := recordName_string record
  rw [recordName_eq_append, List.length_append] at hlength
  rw [fat16GetFullRelativeFilenameStores_eq, fits_append, fits_append,
    fits_storesFrom_iff (by simp [boiosMaxPath]), fits_storesFrom_iff (by simp)]
  unfold boiosMaxPath
  refine ⟨⟨by simp, by simp; omega⟩, ?_⟩
  split_ifs
  · intro s hs
    exact absurd hs List.not_mem_nil
  · rw [fits_storesFrom_iff (by simp)]
    simp
    omega

theorem applyStores_fat16GetFullRelativeFilename {buffer : List UInt8}
    (hbuffer : buffer.length = boiosMaxPath) (record : List UInt8) :
    applyStores (fat16GetFullRelativeFilenameStores record boiosMaxPath) buffer =
      recordName record ++ List.replicate (boiosMaxPath - (recordName record).length) 0 := by
  obtain ⟨-, hlength⟩ := recordName_string record
  rw [recordName_eq_append, List.length_append] at hlength
  have hcleared : applyStores (storesFrom 0 (List.replicate boiosMaxPath 0)) buffer =
      List.replicate boiosMaxPath 0 := by
    rw [applyStores_storesFrom (by simp [hbuffer])]
    simp [hbuffer]
  have hroom : (fat16ToProperString record 8).length < boiosMaxPath := by
    unfold boiosMaxPath
    omega
  have hbase : applyStores (storesFrom ([] : List UInt8).length (fat16ToProperString record 8 ++ [0]))
      ([] ++ List.replicate boiosMaxPath 0) = _ := applyStores_blank 0 hroom
  rw [List.length_nil, List.nil_append, List.nil_append] at hbase
  rw [fat16GetFullRelativeFilenameStores_eq, applyStores_append, applyStores_append, hcleared, hbase,
    recordName_eq_append]
  split_ifs with hnone
  · rw [hnone, List.append_nil]
    rfl
  · have hroom' : (dotExtension record).length <
        boiosMaxPath - (fat16ToProperString record 8).length := by
      unfold boiosMaxPath
      omega
    rw [applyStores_blank 0 hroom', List.length_append, Nat.sub_add_eq]

theorem istrncmp_cString (str1 str2 : List UInt8) (n : Nat) :
    istrncmp (cString str1) str2 n = istrncmp str1 str2 n := by
  induction n generalizing str1 str2 with
  | zero => rfl
  | succ n ih =>
    rw [istrncmp_succ, istrncmp_succ]
    cases str1 with
    | nil => rfl
    | cons c str1 =>
      by_cases hc : c = 0
      · rw [hc]
        rfl
      · have hstring : cString (c :: str1) = c :: cString str1 :=
          List.takeWhile_cons_of_pos (by simpa using hc)
        have hrest := ih str1 (str2.drop 1)
        rw [hstring]
        simp only [charAt, List.getD_cons_zero, List.drop_one, List.tail_cons] at hrest ⊢
        rw [hrest]

theorem Memory.HoldsString.sameName_iff {m : Memory} {ptr size : Nat} {query name : List UInt8}
    (h : m.HoldsString ptr query) (hquery : 0 ∉ query) (hname : name.length < size) :
    SameName name (cString (m.bytesAt ptr size)) ↔ SameName name query := by
  have hbytes : m.bytesAt ptr (query.length + 1) = query ++ [0] := h
  by_cases hshort : query.length < size
  · have htake := m.bytesAt_take ptr size (query.length + 1) hshort
    have hsplit : m.bytesAt ptr size = query ++ 0 :: (m.bytesAt ptr size).drop (query.length + 1) := by
      rw [← List.take_append_drop (query.length + 1) (m.bytesAt ptr size), htake, hbytes]
      simp
    rw [hsplit, cString_append hquery]
  · have htake := m.bytesAt_take ptr (query.length + 1) size (by omega)
    have hcut : m.bytesAt ptr size = query.take size := by
      rw [← htake, hbytes, List.take_append_of_le_length (by omega)]
    rw [hcut, cString_of_nonzero fun hzero => hquery (List.mem_of_mem_take hzero)]
    have hdiffer : ∀ {s : List UInt8}, size ≤ s.length → ¬ SameName name s := by
      intro s hs hsame
      have hlength := congrArg List.length hsame
      rw [List.length_map, List.length_map] at hlength
      omega
    refine iff_of_false (hdiffer ?_) (hdiffer (by omega))
    rw [List.length_take]
    omega

/-- For every record, query and content of the buffer: the name stays in the buffer, with at most
twelve characters before its terminator, and compares equal exactly if the query is the base up to
its first blank, with a dot and the extension up to its own if there is one, but for the case of
letters. -/
theorem fat16_name_match_iff (m : Memory) (item fileName : Nat) (buffer query : List UInt8)
    (hbuffer : buffer.length = boiosMaxPath) (hquery : 0 ∉ query)
    (hstring : m.HoldsString fileName query) :
    let stores := fat16GetFullRelativeFilenameStores (m.recordBytes item) boiosMaxPath
    let tmpFilename := applyStores stores buffer
    Fits boiosMaxPath stores ∧ (cString tmpFilename).length ≤ 12 ∧
      (istrncmp tmpFilename (m.bytesAt fileName boiosMaxPath) boiosMaxPath = 0 ↔
        List.Forall₂ EqualButCase (shortName (itemFileName m item) (itemExt m item)) query) := by
  dsimp only
  obtain ⟨hzero, hlength⟩ := recordName_string (m.recordBytes item)
  have hmax : boiosMaxPath = 128 := rfl
  have hname : cString (applyStores
      (fat16GetFullRelativeFilenameStores (m.recordBytes item) boiosMaxPath) buffer) =
        recordName (m.recordBytes item) := by
    have hrest : boiosMaxPath - (recordName (m.recordBytes item)).length =
        boiosMaxPath - (recordName (m.recordBytes item)).length - 1 + 1 := by omega
    rw [applyStores_fat16GetFullRelativeFilename hbuffer, hrest, List.replicate_succ,
      cString_append hzero]
  refine ⟨fat16GetFullRelativeFilenameStores_fits _, by rwa [hname], ?_⟩
  rw [← istrncmp_cString, hname, istrncmp_eq_zero_iff hzero (by omega),
    hstring.sameName_iff hquery (by omega), sameName_iff, ← fat16GetFullRelativeFilename_eq,
    fat16GetFullRelativeFilename_eq_shortName]

def kernelName : List UInt8 := [107, 101, 114, 110, 101, 108, 46, 98, 105, 110]

def kernelRecord : Memory :=
  (Memory.copyIn (fun _ => 0) 4096 [75, 69, 82, 78, 69, 76, 32, 32, 66, 73, 78]).copyIn 8192
    kernelName

theorem fat16_name_match_kernel :
    istrncmp (applyStores (fat16GetFullRelativeFilenameStores (kernelRecord.recordBytes 4096)
      boiosMaxPath) (List.replicate 128 255)) (kernelRecord.bytesAt 8192 boiosMaxPath)
      boiosMaxPath = 0 :=
  (fat16_name_match_iff kernelRecord 4096 8192 (List.replicate 128 255) kernelName
    List.length_replicate (by decide) (by decide +kernel)).2.2.mpr
    ((sameName_iff _ _).mp (by decide +kernel))

end BoiOS
