import BoiOS.Fs.DirectoryScan

/-! What a read of a stream delivers, and what it asks the drive for. The bytes are those of the
disk from the position on. The sectors go one too far where the read ends with a sector: the round
that reads its last bytes takes the sector to be overrun. -/
namespace BoiOS
open Library.StateRun

/-! The bytes. -/

theorem diskstreamerReadLoop_exact {k : Kernel} {stream position total fuel : Nat}
    (hstream : k.streams stream = some (position : Int)) (hrange : position + total < 2147483648)
    (hfuel : total < fuel) :
    diskstreamerReadLoop fuel stream total k = .ok ((allOk, diskBytes k.disk position total),
      k.seek stream ((position + total : Nat) : Int)) := by
  have hcomputes : Computes Kernel.StreamsMoved k (diskstreamerReadLoop fuel stream total)
      ((streamReadLoop k.disk fuel position total).map fun bytes => (allOk, bytes)) :=
    diskstreamerReadLoop_computes hstream
  rw [streamReadLoop_eq hfuel hrange] at hcomputes
  obtain ⟨k', hrun, -⟩ := hcomputes
  rw [hrun, diskstreamerReadLoop_position hstream hrun, i32_of_range (by omega) (by omega)]
  rfl

/-- A read in the range of the positions stores the bytes of the disk, moves the stream behind them
and changes nothing else; one round for each byte and one more are enough for it. -/
theorem diskstreamer_read_exact {k : Kernel} {stream position total : Nat}
    (hstream : k.streams stream = some (position : Int)) (hrange : position + total < 2147483648) :
    (∀ fuel, total < fuel →
      diskstreamerReadLoop fuel stream total k = diskstreamerRead stream total k) ∧
    diskstreamerRead stream total k = .ok ((allOk, diskBytes k.disk position total),
      k.seek stream ((position + total : Nat) : Int)) := by
  have hread : diskstreamerRead stream total k = .ok ((allOk, diskBytes k.disk position total),
      k.seek stream ((position + total : Nat) : Int)) :=
    diskstreamerReadLoop_exact hstream hrange (Nat.lt_succ_self total)
  refine ⟨fun fuel hfuel => ?_, hread⟩
  rw [hread, diskstreamerReadLoop_exact hstream hrange hfuel]

def startKernel : Kernel := { emptyKernel 1 with streams := fun _ => some 0 }

theorem diskstreamer_read_exact_oneSector :
    (∀ fuel, 512 < fuel → diskstreamerReadLoop fuel 0 (512 : Nat) startKernel =
      diskstreamerRead 0 (512 : Nat) startKernel) ∧
    diskstreamerRead 0 (512 : Nat) startKernel =
      .ok ((allOk, diskBytes startKernel.disk 0 512), startKernel.seek 0 ((0 + 512 : Nat) : Int)) := by
  have hstart : startKernel.streams 0 = some ((0 : Nat) : Int) := rfl
  exact diskstreamer_read_exact hstart (by decide)

/-! The sectors. -/

/-- `diskstreamer_read` once more, with the sectors that it passes to `disk_read_block`, in their
order, also where the run ends early. -/
def diskstreamerReadTraced : (fuel : Nat) → (stream : Nat) → (total : Int) → (k : Kernel) →
    List Nat × Except Stop ((Int × List UInt8) × Kernel)
  | 0, _, _, _ => ([], .error .faulted)
  | fuel + 1, stream, total, k =>
      match k.streams stream with
      | none => ([], .error .faulted)
      | some position =>
          let sector := position.tdiv boiosSectorSize
          let offset := position.tmod boiosSectorSize
          let reach := i32 (offset + total)
          let totalToRead :=
            if reach ≥ boiosSectorSize then total - (reach - boiosSectorSize) else total
          match sectorBytes k.disk sector offset totalToRead k with
          | .error stop => ([u32 sector], .error stop)
          | .ok (bytes, k) =>
              let k := k.seek stream (i32 (position + totalToRead))
              if reach ≥ boiosSectorSize then
                let rest := diskstreamerReadTraced fuel stream (total - totalToRead) k
                (u32 sector :: rest.1,
                  rest.2.map fun r => ((r.1.1, bytes ++ r.1.2), r.2))
              else ([u32 sector], .ok ((allOk, bytes), k))

theorem diskstreamerReadTraced_run (fuel stream : Nat) (total : Int) (k : Kernel) :
    (diskstreamerReadTraced fuel stream total k).2 = diskstreamerReadLoop fuel stream total k := by
  induction fuel generalizing total k with
  | zero => rfl
  | succ fuel ih =>
    unfold diskstreamerReadTraced diskstreamerReadLoop
    rw [bind_of_ok (get_apply k)]
    cases hstream : k.streams stream with
    | none => rfl
    | some position =>
      rw [bind_of_ok (fetch_some position k)]
      dsimp only
      cases hsector : sectorBytes k.disk (position.tdiv boiosSectorSize)
          (position.tmod boiosSectorSize)
          (if i32 (position.tmod boiosSectorSize + total) ≥ boiosSectorSize then
            total - (i32 (position.tmod boiosSectorSize + total) - boiosSectorSize)
          else total) k with
      | error stop => rw [bind_of_error hsector]
      | ok r =>
        obtain ⟨bytes, k₁⟩ := r
        rw [bind_of_ok hsector, bind_of_ok (modify_apply _ k₁)]
        split_ifs with hreach
        · dsimp only
          rw [ih, bind_apply]
          rfl
        · rfl

def diskstreamerReadSectors (stream : Nat) (total : Int) (k : Kernel) : List Nat :=
  (diskstreamerReadTraced (total.toNat + 1) stream total k).1

theorem diskstreamerReadTraced_round {k : Kernel} {stream fuel : Nat}
    {position total reach totalToRead : Int} (hstream : k.streams stream = some position)
    (hreach : i32 (position.tmod boiosSectorSize + total) = reach)
    (htake : (if reach ≥ boiosSectorSize then total - (reach - boiosSectorSize) else total) =
      totalToRead) :
    (diskstreamerReadTraced (fuel + 1) stream total k).1 = u32 (position.tdiv boiosSectorSize) ::
      if reach ≥ boiosSectorSize ∧ ¬ (0 < totalToRead ∧ (position.tmod boiosSectorSize < 0 ∨
          boiosSectorSize < position.tmod boiosSectorSize + totalToRead)) then
        (diskstreamerReadTraced fuel stream (total - totalToRead)
          (k.seek stream (i32 (position + totalToRead)))).1
      else [] := by
  rw [diskstreamerReadTraced, hstream]
  dsimp only
  rw [hreach, htake]
  unfold sectorBytes
  by_cases houtside : 0 < totalToRead ∧ (position.tmod boiosSectorSize < 0 ∨
      boiosSectorSize < position.tmod boiosSectorSize + totalToRead)
  · rw [if_pos houtside, if_neg fun h => h.2 houtside]
    rfl
  · rw [if_neg houtside, pure_apply]
    dsimp only
    by_cases hover : reach ≥ boiosSectorSize
    · rw [if_pos hover, if_pos ⟨hover, houtside⟩]
    · rw [if_neg hover, if_neg fun h => hover h.1]

section

variable {k : Kernel} {stream position total fuel : Nat}

theorem sector_eq (hposition : position < 2147483648) :
    u32 ((position : Int).tdiv boiosSectorSize) = position / 512 := by
  rw [show (position : Int).tdiv boiosSectorSize = (position / 512 : Nat) from rfl,
    u32_natCast (by omega)]

/-- A round that stays within its sector, or that is so long that the sum of its offset and its
length overflows and the copy leaves the sector buffer, is the last one. -/
theorem diskstreamerReadTraced_last (hstream : k.streams stream = some (position : Int))
    (hposition : position < 2147483648) (htotal : total < 2147483648)
    (hlast : position % 512 + total < 512 ∨ 2147483648 ≤ position % 512 + total) :
    (diskstreamerReadTraced (fuel + 1) stream total k).1 = [position / 512] := by
  have hreach : ¬ i32 (((position % 512 : Nat) : Int) + (total : Nat)) ≥ boiosSectorSize := by
    unfold i32 boiosSectorSize
    omega
  rw [diskstreamerReadTraced_round hstream rfl rfl, if_neg fun h => hreach h.1,
    sector_eq hposition]

theorem diskstreamerReadTraced_over (hstream : k.streams stream = some (position : Int))
    (hposition : position < 2147483648) (hlow : 512 ≤ position % 512 + total)
    (hhigh : position % 512 + total < 2147483648) :
    (diskstreamerReadTraced (fuel + 1) stream total k).1 = position / 512 ::
      (diskstreamerReadTraced fuel stream ((total - (512 - position % 512) : Nat) : Int)
        (k.seek stream (i32 ((position + (512 - position % 512) : Nat) : Int)))).1 := by
  have hreach : i32 ((position : Int).tmod boiosSectorSize + (total : Nat)) =
      (position % 512 + total : Nat) := by
    rw [show (position : Int).tmod boiosSectorSize = (position % 512 : Nat) from rfl,
      i32_of_range (by omega) (by omega)]
    rfl
  have hover : ((position % 512 + total : Nat) : Int) ≥ boiosSectorSize := by
    unfold boiosSectorSize
    omega
  have htake : (if ((position % 512 + total : Nat) : Int) ≥ boiosSectorSize then
      (total : Int) - (((position % 512 + total : Nat) : Int) - boiosSectorSize) else total) =
      (512 - position % 512 : Nat) := by
    rw [if_pos hover]
    unfold boiosSectorSize
    omega
  have hin : ¬ ((0 : Int) < (512 - position % 512 : Nat) ∧
      ((position : Int).tmod boiosSectorSize < 0 ∨
        boiosSectorSize < (position : Int).tmod boiosSectorSize + (512 - position % 512 : Nat))) := by
    rw [show (position : Int).tmod boiosSectorSize = (position % 512 : Nat) from rfl]
    unfold boiosSectorSize
    omega
  have hleft : (total : Int) - (512 - position % 512 : Nat) =
      (total - (512 - position % 512) : Nat) := by omega
  rw [diskstreamerReadTraced_round hstream hreach htake, if_pos ⟨hover, hin⟩, sector_eq hposition,
    hleft]
  rfl

theorem diskstreamerReadTraced_sectors (hstream : k.streams stream = some (position : Int))
    (hrange : position + total < 2147483648) (hfuel : total < fuel) (sector : Nat) :
    sector ∈ (diskstreamerReadTraced fuel stream total k).1 ↔
      position / 512 ≤ sector ∧ sector ≤ (position + total) / 512 := by
  induction fuel generalizing k position total with
  | zero => omega
  | succ fuel ih =>
    by_cases hover : 512 ≤ position % 512 + total
    · have hnext : i32 ((position + (512 - position % 512) : Nat) : Int) =
          (position + (512 - position % 512) : Nat) := i32_of_range (by omega) (by omega)
      rw [diskstreamerReadTraced_over hstream (by omega) hover (by omega), List.mem_cons, hnext,
        ih (Function.update_self ..) (by omega) (by omega)]
      omega
    · rw [diskstreamerReadTraced_last hstream (by omega) (by omega) (by omega), List.mem_singleton]
      omega

/-- A read beyond the largest position wraps to the smallest one, whose sector is on no drive. -/
theorem diskstreamerReadTraced_wrapped (hstream : k.streams stream = some (position : Int))
    (hposition : position < 2147483648) (hrange : 2147483648 ≤ position + total)
    (hhigh : position % 512 + total < 2147483648) (hfuel : total < fuel) :
    4290772992 ∈ (diskstreamerReadTraced fuel stream total k).1 := by
  induction fuel generalizing k position total with
  | zero => omega
  | succ fuel ih =>
    rw [diskstreamerReadTraced_over hstream hposition (by omega) hhigh]
    refine List.mem_cons_of_mem _ ?_
    by_cases hlast : position + (512 - position % 512) = 2147483648
    · obtain ⟨fuel, rfl⟩ : ∃ n, fuel = n + 1 := ⟨fuel - 1, by omega⟩
      have hwrapped : u32 ((i32 ((position + (512 - position % 512) : Nat) : Int)).tdiv
          boiosSectorSize) = 4290772992 := by
        rw [hlast]
        unfold i32 u32 boiosSectorSize
        decide
      rw [← hwrapped, diskstreamerReadTraced_round (Function.update_self ..) rfl rfl]
      exact List.mem_cons_self ..
    · have hnext : i32 ((position + (512 - position % 512) : Nat) : Int) =
          (position + (512 - position % 512) : Nat) := i32_of_range (by omega) (by omega)
      rw [hnext]
      exact ih (Function.update_self ..) (by omega) (by omega) (by omega) (by omega)

end

/-- A sector is asked for by right if a byte of the read lies in it. -/
def SectorOf (position total sector : Nat) : Prop :=
  ∃ byte, position ≤ byte ∧ byte < position + total ∧ byte / 512 = sector

/-- Every sector that a read asks for holds a byte of it exactly if the read does not end with a
sector; reads whose end is no position ask for a sector that is on no drive, unless they are so long
that the first round is the last one. -/
theorem diskstreamer_read_own_sectors_iff {k : Kernel} {stream position total : Nat}
    (hstream : k.streams stream = some (position : Int)) (hposition : position < 2147483648)
    (hlow : 1 ≤ total) (htotal : total < 2147483648) :
    (∀ sector ∈ diskstreamerReadSectors stream total k, SectorOf position total sector) ↔
      position + total < 2147483648 ∧ (position + total) % 512 ≠ 0 ∨
        2147483648 ≤ position % 512 + total := by
  unfold diskstreamerReadSectors SectorOf
  rw [Int.toNat_natCast]
  by_cases hlong : 2147483648 ≤ position % 512 + total
  · rw [diskstreamerReadTraced_last hstream hposition htotal (Or.inr hlong)]
    refine ⟨fun _ => Or.inr hlong, fun _ sector hsector => ⟨position, ?_⟩⟩
    rw [List.mem_singleton] at hsector
    omega
  by_cases hrange : position + total < 2147483648
  · constructor
    · intro hall
      obtain ⟨byte, -, hbelow, hin⟩ := hall ((position + total) / 512)
        ((diskstreamerReadTraced_sectors hstream hrange (by omega) _).mpr (by omega))
      omega
    · intro hinside sector hsector
      rw [diskstreamerReadTraced_sectors hstream hrange (by omega)] at hsector
      refine ⟨max position (512 * sector), ?_, ?_, ?_⟩
      all_goals omega
  · refine ⟨fun hall => ?_, fun hinside => ?_⟩
    · obtain ⟨byte, -, hbelow, hin⟩ := hall 4290772992
        (diskstreamerReadTraced_wrapped hstream hposition (by omega) (by omega) (by omega))
      omega
    · omega

theorem diskstreamer_read_own_sectors_halfSector :
    (∀ sector ∈ diskstreamerReadSectors 0 (256 : Nat) startKernel, SectorOf 0 256 sector) ↔
      0 + 256 < 2147483648 ∧ (0 + 256) % 512 ≠ 0 ∨ 2147483648 ≤ 0 % 512 + 256 :=
  diskstreamer_read_own_sectors_iff rfl (by decide) (by decide) (by decide)

theorem diskstreamer_read_not_always_own_sectors :
    ¬ ∀ (k : Kernel) (stream position total : Nat), k.streams stream = some (position : Int) →
      position < 2147483648 → 1 ≤ total → total < 2147483648 →
      ∀ sector ∈ diskstreamerReadSectors stream total k, SectorOf position total sector := by
  intro hall
  have hstart : startKernel.streams 0 = some ((0 : Nat) : Int) := rfl
  have hnext : 1 ∈ diskstreamerReadSectors 0 (512 : Nat) startKernel :=
    (diskstreamerReadTraced_sectors hstart (by decide) (Nat.lt_succ_self 512) 1).mpr (by decide)
  obtain ⟨byte, -, hbelow, hin⟩ :=
    hall startKernel 0 0 512 hstart (by decide) (by decide) (by decide) 1 hnext
  omega

end BoiOS
