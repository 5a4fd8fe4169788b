import BoiOS.Fs.ClusterRead
import Mathlib.Data.Nat.Count

/-! How many records a directory is said to have. The scan goes over the disk from the start of the
directory up to the first blank record, wherever that is, and counts the records on the way whose
sixth byte is not 0xE5. -/
namespace BoiOS
open Library.StateRun

/-! The position of the stream. -/

theorem i32_add_i32 (x y : Int) : i32 (i32 x + y) = i32 (x + y) := by
  unfold i32
  omega

theorem Kernel.seek_seek (k : Kernel) (stream : Nat) (p q : Int) :
    (k.seek stream p).seek stream q = k.seek stream q := by
  unfold Kernel.seek
  dsimp only
  rw [Function.update_idem]

theorem diskstreamerReadLoop_position {k k' : Kernel} {stream fuel : Nat} {position total : Int}
    {r : Int × List UInt8} (hstream : k.streams stream = some position)
    (hrun : diskstreamerReadLoop fuel stream total k = .ok (r, k')) :
    k' = k.seek stream (i32 (position + total)) := by
  induction fuel generalizing k position total r with
  | zero => exact (throw_eq_ok.mp hrun).elim
  | succ fuel ih =>
    unfold diskstreamerReadLoop at hrun
    replace hrun := bind_get_eq_ok.mp hrun
    obtain ⟨position', hposition, hrun⟩ := bind_fetch_eq_ok.mp hrun
    obtain rfl := Option.some.inj (hstream.symm.trans hposition)
    -- how much the first round reads does not count: the rest is read after it
    have hround : ∀ totalToRead : Int, (do
        let bytes ← sectorBytes k.disk (position.tdiv boiosSectorSize)
          (position.tmod boiosSectorSize) totalToRead
        modify fun k => k.seek stream (i32 (position + totalToRead))
        if i32 (position.tmod boiosSectorSize + total) ≥ boiosSectorSize then do
          let rest ← diskstreamerReadLoop fuel stream (total - totalToRead)
          pure (rest.1, bytes ++ rest.2)
        else pure (allOk, bytes) : KernelM (Int × List UInt8)) k = .ok (r, k') →
        (i32 (position.tmod boiosSectorSize + total) ≥ boiosSectorSize ∨ totalToRead = total) →
        k' = k.seek stream (i32 (position + total)) := by
      intro totalToRead hround hrest
      obtain ⟨bytes, k₁, hbytes, hround⟩ := bind_eq_ok.mp hround
      have hk₁ : k₁ = k := by
        unfold sectorBytes at hbytes
        split_ifs at hbytes
        · exact (throw_eq_ok.mp hbytes).elim
        · exact (pure_eq_ok.mp hbytes).2.symm
      obtain ⟨_, k₂, hmodify, hround⟩ := bind_eq_ok.mp hround
      rw [hk₁] at hmodify
      have hk₂ : k₂ = k.seek stream (i32 (position + totalToRead)) := (modify_eq_ok.mp hmodify).symm
      split_ifs at hround with hreach
      · obtain ⟨rest, k₃, hread, hround⟩ := bind_eq_ok.mp hround
        obtain ⟨-, rfl⟩ := pure_eq_ok.mp hround
        have hnow : k₂.streams stream = some (i32 (position + totalToRead)) := by
          rw [hk₂]
          exact Function.update_self ..
        rw [ih hnow hread, hk₂, Kernel.seek_seek, i32_add_i32,
          show position + totalToRead + (total - totalToRead) = position + total by omega]
      · obtain ⟨-, rfl⟩ := pure_eq_ok.mp hround
        rw [hk₂, hrest.resolve_left hreach]
    refine hround _ hrun ?_
    by_cases hreach : i32 (position.tmod boiosSectorSize + total) ≥ boiosSectorSize
    · exact Or.inl hreach
    · exact Or.inr (if_neg hreach)

theorem diskstreamerRead_eq_ok {k k' : Kernel} {stream : Nat} {position total : Int}
    {r : Int × List UInt8} (hstream : k.streams stream = some position)
    (hrun : diskstreamerRead stream total k = .ok (r, k')) :
    r.1 = allOk ∧ streamRead k.disk position total = .ok r.2 ∧
      k' = k.seek stream (i32 (position + total)) := by
  have hcomputes := diskstreamerRead_computes total hstream
  have hposition := diskstreamerReadLoop_position hstream hrun
  cases hread : streamRead k.disk position total with
  | error e =>
    rw [hread] at hcomputes
    have hstopped : diskstreamerRead stream total k = .error e := hcomputes
    rw [hstopped] at hrun
    cases hrun
  | ok bytes =>
    rw [hread] at hcomputes
    obtain ⟨k₁, hrun', -⟩ := hcomputes
    rw [hrun', Except.ok.injEq, Prod.mk.injEq] at hrun
    obtain ⟨rfl, -⟩ := hrun
    exact ⟨rfl, rfl, hposition⟩

theorem diskstreamerSeek_eq_ok {k k' : Kernel} {stream : Nat} {position response : Int}
    (hrun : diskstreamerSeek stream position k = .ok (response, k')) :
    response = allOk ∧ k' = k.seek stream position := by
  unfold diskstreamerSeek at hrun
  replace hrun := bind_get_eq_ok.mp hrun
  obtain ⟨_, -, hrun⟩ := bind_fetch_eq_ok.mp hrun
  obtain ⟨_, _, hmodify, hrun⟩ := bind_eq_ok.mp hrun
  obtain ⟨rfl, rfl⟩ := pure_eq_ok.mp hrun
  exact ⟨rfl, (modify_eq_ok.mp hmodify).symm⟩

/-! The scan. -/

/-- The count as a function of the disk and the position of the stream. -/
def scanLoop (disk : Disk) : (fuel : Nat) → (position i : Int) → Except Stop Int
  | 0, _, _ => .error .faulted
  | fuel + 1, position, i => do
      let item ← streamRead disk position sizeofFatDirectoryItem
      if charAt item 0 = 0x00 then .ok i
      else if charAt item 5 = 0xE5 then scanLoop disk fuel (i32 (position + sizeofFatDirectoryItem)) i
      else scanLoop disk fuel (i32 (position + sizeofFatDirectoryItem)) (i32 (i + 1))

theorem scanLoop_of_ok {disk : Disk} {fuel : Nat} {position i : Int} {item : List UInt8}
    (hread : streamRead disk position sizeofFatDirectoryItem = .ok item) :
    scanLoop disk (fuel + 1) position i =
      if charAt item 0 = 0x00 then .ok i
      else if charAt item 5 = 0xE5 then scanLoop disk fuel (i32 (position + sizeofFatDirectoryItem)) i
      else scanLoop disk fuel (i32 (position + sizeofFatDirectoryItem)) (i32 (i + 1)) := by
  rw [scanLoop, hread]
  rfl

theorem scanLoop_eq_ok {disk : Disk} {fuel : Nat} {position i total : Int}
    (h : scanLoop disk (fuel + 1) position i = .ok total) :
    ∃ item, streamRead disk position sizeofFatDirectoryItem = .ok item := by
  cases hread : streamRead disk position sizeofFatDirectoryItem with
  | ok item => exact ⟨item, rfl⟩
  | error e =>
    rw [scanLoop, hread] at h
    cases h

theorem fat16GetTotalItemsForDirectoryLoop_computes {k : Kernel} {stream fuel : Nat}
    {position i : Int} (hstream : k.streams stream = some position) :
    Computes Kernel.StreamsMoved k (fat16GetTotalItemsForDirectoryLoop stream fuel i)
      (scanLoop k.disk fuel position i) := by
  induction fuel generalizing k position i with
  | zero => rfl
  | succ fuel ih =>
    have hread := diskstreamerRead_computes sizeofFatDirectoryItem hstream
    unfold fat16GetTotalItemsForDirectoryLoop
    cases hbytes : streamRead k.disk position sizeofFatDirectoryItem with
    | error e =>
      rw [hbytes] at hread
      rw [scanLoop, hbytes]
      exact bind_of_error hread _
    | ok item =>
      rw [hbytes] at hread
      obtain ⟨k₁, hrun, hmoved⟩ := hread
      obtain ⟨-, -, hk₁⟩ := diskstreamerRead_eq_ok hstream hrun
      have hnow : k₁.streams stream = some (i32 (position + sizeofFatDirectoryItem)) := by
        rw [hk₁]
        exact Function.update_self ..
      refine .step .trans hrun hmoved ?_
      rw [scanLoop_of_ok hbytes, ← hmoved.disk]
      dsimp only
      rw [if_neg (not_not.mpr rfl)]
      split_ifs
      · exact .pure .refl k₁ _
      · exact ih hnow
      · exact ih hnow

def scanFuel : Nat := 134217728

def scanCount (disk : Disk) (sector : Nat) : Except Stop Int :=
  scanLoop disk scanFuel (i32 (sector * 512)) 0

theorem fat16GetTotalItemsForDirectory_computes {k : Kernel} {p : FatPrivate} (sector : Nat)
    (hsector : k.disk.sectorSize = 512) (hprivate : k.disk.fsPrivate = some p)
    (hopened : (k.streams p.directoryStream).isSome) :
    Computes Kernel.StreamsMoved k (fat16GetTotalItemsForDirectory sector)
      (scanCount k.disk sector) := by
  unfold fat16GetTotalItemsForDirectory scanCount
  refine .read (get_apply k) (.read (fatPrivate_apply hprivate) ?_)
  rw [hsector]
  refine .step .trans (diskstreamerSeek_apply _ hopened) (.of_seek ..) ?_
  exact fat16GetTotalItemsForDirectoryLoop_computes (Function.update_self ..)

theorem fat16GetTotalItemsForDirectory_scan {k k' : Kernel} {sector : Nat} {total : Int}
    (hsector : k.disk.sectorSize = 512)
    (hrun : fat16GetTotalItemsForDirectory sector k = .ok (total, k')) :
    scanCount k.disk sector = .ok total := by
  have hscan := hrun
  unfold fat16GetTotalItemsForDirectory at hrun
  replace hrun := bind_get_eq_ok.mp hrun
  obtain ⟨p, _, hfetch, hrun⟩ := bind_eq_ok.mp hrun
  obtain ⟨hprivate, rfl⟩ := fatPrivate_eq_ok.mp hfetch
  obtain ⟨response, k₁, hseek, -⟩ := bind_eq_ok.mp hrun
  unfold diskstreamerSeek at hseek
  obtain ⟨position, hposition, -⟩ := bind_fetch_eq_ok.mp (bind_get_eq_ok.mp hseek)
  have hcomputes := fat16GetTotalItemsForDirectory_computes sector hsector hprivate
    (by rw [hposition]; rfl)
  cases hcount : scanCount k.disk sector with
  | error e =>
    rw [hcount] at hcomputes
    have hstopped : fat16GetTotalItemsForDirectory sector k = .error e := hcomputes
    rw [hstopped] at hscan
    cases hscan
  | ok total' =>
    rw [hcount] at hcomputes
    obtain ⟨k₂, hrun', -⟩ := hcomputes
    rw [hrun', Except.ok.injEq, Prod.mk.injEq] at hscan
    rw [hscan.1]

/-! How far the scan goes. A directory starts with a sector, and behind the largest position comes
the smallest one, which is the start of a sector as well; the next record begins in the middle of
a sector with a negative number, and there is no reading from there. -/

theorem streamRead_negative {disk : Disk} {position : Int} (hlow : position.tmod 512 < 0) :
    streamRead disk position sizeofFatDirectoryItem = .error .faulted := by
  have hreach : i32 (position.tmod 512 + 32) = position.tmod 512 + 32 := by
    have hbound : -512 < position.tmod 512 := Int.lt_tmod_of_pos _ (by decide)
    exact i32_of_range (by omega) (by omega)
  unfold streamRead sizeofFatDirectoryItem
  rw [show ((32 : Nat) : Int).toNat + 1 = 32 + 1 from rfl, streamReadLoop]
  unfold boiosSectorSize
  dsimp only
  push_cast
  rw [hreach]
  have hshort : ¬ position.tmod 512 + 32 ≥ 512 := by omega
  rw [if_neg hshort, if_pos ⟨by decide, Or.inl hlow⟩]

theorem scanLoop_negative {disk : Disk} {fuel : Nat} {position i total : Int}
    (hlow : -2147483648 ≤ position) (hnegative : position < 0) (haligned : position % 512 = 0)
    (h : scanLoop disk fuel position i = .ok total) : total = i := by
  cases fuel with
  | zero => cases h
  | succ fuel =>
    obtain ⟨item, hread⟩ := scanLoop_eq_ok h
    have hnext : i32 (position + sizeofFatDirectoryItem) = position + 32 :=
      i32_of_range (by unfold sizeofFatDirectoryItem; omega) (by unfold sizeofFatDirectoryItem; omega)
    have hmiddle : (position + 32).tmod 512 < 0 := by
      rw [show position + 32 = -(-position - 32) by omega, Int.neg_tmod,
        Int.tmod_eq_emod_of_nonneg (by omega)]
      omega
    have hstops : ∀ n, scanLoop disk fuel (position + 32) n ≠ .ok total := by
      intro n hn
      cases fuel with
      | zero => cases hn
      | succ fuel =>
        obtain ⟨item, hread⟩ := scanLoop_eq_ok hn
        rw [streamRead_negative hmiddle] at hread
        cases hread
    rw [scanLoop_of_ok hread, hnext] at h
    split_ifs at h
    · exact (Except.ok.inj h).symm
    · exact absurd h (hstops _)
    · exact absurd h (hstops _)

theorem scanLoop_bound {disk : Disk} {fuel : Nat} {position i total : Int} (hlow : 0 ≤ position)
    (hhigh : position < 2147483648) (haligned : position % 32 = 0) (hi : 0 ≤ i)
    (hcount : 32 * i ≤ position) (h : scanLoop disk fuel position i = .ok total) :
    0 ≤ total ∧ 32 * total ≤ 2147483648 := by
  induction fuel generalizing position i with
  | zero => cases h
  | succ fuel ih =>
    obtain ⟨item, hread⟩ := scanLoop_eq_ok h
    have hcounted : i32 (i + 1) = i + 1 := i32_of_range (by omega) (by omega)
    rw [scanLoop_of_ok hread, hcounted] at h
    by_cases hlast : position + 32 = 2147483648
    · have hnext : i32 (position + sizeofFatDirectoryItem) = -2147483648 := by
        unfold i32 sizeofFatDirectoryItem
        omega
      rw [hnext] at h
      split_ifs at h
      · have htotal := Except.ok.inj h
        omega
      · have htotal := scanLoop_negative le_rfl (by decide) (by decide) h
        omega
      · have htotal := scanLoop_negative le_rfl (by decide) (by decide) h
        omega
    · have hnext : i32 (position + sizeofFatDirectoryItem) = position + 32 :=
        i32_of_range (by unfold sizeofFatDirectoryItem; omega)
          (by unfold sizeofFatDirectoryItem; omega)
      rw [hnext] at h
      split_ifs at h
      · have htotal := Except.ok.inj h
        omega
      · exact ih (by omega) (by omega) (by omega) hi (by omega) h
      · exact ih (by omega) (by omega) (by omega) (by omega) (by omega) h

theorem scanCount_size {disk : Disk} {sector : Nat} {total : Int}
    (h : scanCount disk sector = .ok total) : 0 ≤ total ∧ 32 * total ≤ 2147483648 := by
  unfold scanCount at h
  have hrange : -2147483648 ≤ i32 (sector * 512) ∧ i32 (sector * 512) < 2147483648 ∧
      i32 (sector * 512) % 512 = 0 := by
    unfold i32
    omega
  obtain ⟨hlow, hhigh, haligned⟩ := hrange
  by_cases hnegative : i32 (sector * 512) < 0
  · have htotal := scanLoop_negative hlow hnegative haligned h
    omega
  · exact scanLoop_bound (by omega) hhigh (by omega) le_rfl (by omega) h

/-! The count, where the scan stays in the range of the positions. -/

def recordAt (disk : Disk) (position i : Nat) : List UInt8 :=
  diskBytes disk (position + sizeofFatDirectoryItem * i) sizeofFatDirectoryItem

structure ScanEnds (disk : Disk) (position last : Nat) : Prop where
  blank : charAt (recordAt disk position last) 0 = 0x00
  before : ∀ i < last, charAt (recordAt disk position i) 0 ≠ 0x00

def recordCount (disk : Disk) (position last : Nat) : Nat :=
  Nat.count (fun i => charAt (recordAt disk position i) 5 ≠ 0xE5) last

theorem scanLoop_eq {disk : Disk} {position last : Nat} (h : ScanEnds disk position last)
    (hrange : position + 32 * (last + 1) < 2147483648) (fuel i : Nat) (hi : i ≤ last)
    (hfuel : last - i < fuel) : scanLoop disk fuel (position + sizeofFatDirectoryItem * i : Nat)
      (recordCount disk position i) = .ok (recordCount disk position last : Int) := by
  induction fuel generalizing i with
  | zero => omega
  | succ fuel ih =>
    have hread : streamRead disk (position + sizeofFatDirectoryItem * i : Nat)
        sizeofFatDirectoryItem = .ok (recordAt disk position i) := by
      unfold sizeofFatDirectoryItem
      exact streamReadLoop_eq (by omega) (by omega)
    rw [scanLoop_of_ok hread]
    rcases Nat.lt_or_eq_of_le hi with hbefore | rfl
    · have hbound : recordCount disk position i ≤ i := Nat.count_le _
      have hnext : i32 ((position + sizeofFatDirectoryItem * i : Nat) + sizeofFatDirectoryItem) =
          (position + sizeofFatDirectoryItem * (i + 1) : Nat) := by
        unfold sizeofFatDirectoryItem
        rw [i32_of_range (by omega) (by omega)]
        omega
      have hrest := ih (i + 1) (by omega) (by omega)
      rw [if_neg (h.before i hbefore), hnext]
      by_cases hskipped : charAt (recordAt disk position i) 5 = 0xE5
      · have hsame : recordCount disk position (i + 1) = recordCount disk position i := by
          unfold recordCount
          rw [Nat.count_succ, if_neg (not_not.mpr hskipped)]
          rfl
        rw [if_pos hskipped]
        rwa [hsame] at hrest
      · have hmore : recordCount disk position (i + 1) = recordCount disk position i + 1 := by
          unfold recordCount
          rw [Nat.count_succ, if_pos hskipped]
        rw [if_neg hskipped, i32_of_range (by omega) (by omega)]
        rwa [hmore] at hrest
    · rw [if_pos h.blank]

/-- The count of a directory is that of the records before the first blank one whose sixth byte is
not 0xE5. -/
theorem scanLoop_start {disk : Disk} {position last : Nat} (h : ScanEnds disk position last)
    (hrange : position + 32 * (last + 1) < 2147483648) :
    scanLoop disk scanFuel position 0 = .ok (recordCount disk position last : Int) := by
  have hcount := scanLoop_eq h hrange scanFuel 0 (by omega) (by unfold scanFuel; omega)
  have hzero : recordCount disk position 0 = 0 := Nat.count_zero _
  rwa [hzero, Nat.mul_zero, Nat.add_zero] at hcount

end BoiOS
