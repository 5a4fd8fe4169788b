import BoiOS.Disk.Ata

/-! Reads on an ATA channel. The driver fetches a word only when one is there, however long the
drives take; it comes to an end if the drive has as many blocks for it as it counts, and each of
them gets ready. -/
namespace BoiOS
open Library.StateRun

def blockBytes (held : Nat → Nat → UInt8) (sector : Nat) : (blocks : Nat) → List UInt8
  | 0 => []
  | blocks + 1 => (List.range 512).map (held sector) ++ blockBytes held (sector + 1) blocks

theorem length_blockBytes (held : Nat → Nat → UInt8) (sector blocks : Nat) :
    (blockBytes held sector blocks).length = 512 * blocks := by
  induction blocks generalizing sector with
  | zero => rfl
  | succ blocks ih =>
    rw [blockBytes, List.length_append, List.length_map, List.length_range, ih]
    omega

theorem getElem?_blockBytes (held : Nat → Nat → UInt8) {sector blocks j : Nat}
    (hj : j < 512 * blocks) :
    (blockBytes held sector blocks)[j]? = some (held (sector + j / 512) (j % 512)) := by
  induction blocks generalizing sector j with
  | zero => omega
  | succ blocks ih =>
    rw [blockBytes]
    by_cases hfirst : j < 512
    · rw [List.getElem?_append_left (by simpa using hfirst), List.getElem?_map,
        List.getElem?_range hfirst, Nat.div_eq_of_lt hfirst, Nat.mod_eq_of_lt hfirst]
      rfl
    · rw [List.getElem?_append_right (by simpa using hfirst), List.length_map, List.length_range,
        ih (by omega), show sector + 1 + (j - 512) / 512 = sector + j / 512 by omega,
        show (j - 512) % 512 = j % 512 by omega]

namespace AtaChannel

def before (c : AtaChannel) (drive : Bool) (sector blocks : Nat) (wait : Option Nat)
    (delays : Nat → Option Nat) : AtaChannel :=
  { c with transfer := some ⟨drive, sector, blocks, 0, wait⟩, delays := delays }

def serving (c : AtaChannel) (drive : Bool) (sector : Nat) : (blocks : Nat) →
    (delays : Nat → Option Nat) → AtaChannel
  | 0, delays => { c with transfer := none, delays := delays }
  | blocks + 1, delays => c.before drive sector (blocks + 1) (delays 0) fun i => delays (i + 1)

theorem serving_succ (c : AtaChannel) (drive : Bool) (sector blocks : Nat)
    (delays : Nat → Option Nat) : c.serving drive sector (blocks + 1) delays =
      c.before drive sector (blocks + 1) (delays 0) fun i => delays (i + 1) := rfl

def within (c : AtaChannel) (drive : Bool) (sector blocks word : Nat)
    (delays : Nat → Option Nat) : AtaChannel :=
  { c with transfer := some ⟨drive, sector, blocks, word, some 0⟩, delays := delays }

@[simp] theorem serving_sectors (c : AtaChannel) (drive : Bool) (sector blocks : Nat)
    (delays : Nat → Option Nat) : (c.serving drive sector blocks delays).sectors = c.sectors := by
  cases blocks with
  | zero => rfl
  | succ blocks => rfl

@[simp] theorem serving_delays (c : AtaChannel) (drive : Bool) (sector blocks : Nat)
    (delays : Nat → Option Nat) : (c.serving drive sector blocks delays).delays =
      if blocks = 0 then delays else fun i => delays (i + 1) := by
  cases blocks with
  | zero => rfl
  | succ blocks => rfl

theorem serving_transfer_eq_none (c : AtaChannel) (drive : Bool) (sector blocks : Nat)
    (delays : Nat → Option Nat) :
    (c.serving drive sector blocks delays).transfer = none ↔ blocks = 0 := by
  cases blocks with
  | zero => simp [serving]
  | succ blocks => simp [serving, before]

end AtaChannel

/-! The command. -/

theorem outb_of_idle {c : AtaChannel} (hidle : c.transfer = none) (port : Nat) (val : BitVec 8) :
    outb port val c = .ok ((), c.write port val) := by
  unfold outb
  rw [bind_of_ok (get_apply c), hidle]
  rfl

theorem write_idle {c : AtaChannel} (hidle : c.transfer = none) (port : Nat) (val : BitVec 8)
    (hport : port ≠ 0x1F7) : (c.write port val).transfer = none := by
  unfold AtaChannel.write
  rw [if_neg (fun h : port = 0x1F7 ∧ val = 0x20 => hport h.1)]
  split_ifs
  all_goals exact hidle

theorem getLsbD_byte (lba : BitVec 32) {n i : Nat} (hi : i < 8) (hn : n + i < 32) :
    ((lba.sshiftRight n).setWidth 8).getLsbD i = lba.getLsbD (n + i) := by
  rw [BitVec.getLsbD_setWidth, BitVec.getLsbD_sshiftRight, if_pos hn]
  simp [hi]
  omega

theorem getLsbD_device (lba : BitVec 32) {i : Nat} (hi : i < 5) :
    ((lba.sshiftRight 24 ||| 0xE0).setWidth 8).getLsbD i = lba.getLsbD (24 + i) := by
  have hclear : (0xE0 : BitVec 32).getLsbD i = false := by
    revert i
    decide
  rw [BitVec.setWidth_or, BitVec.getLsbD_or, getLsbD_byte lba (by omega) (by omega),
    BitVec.getLsbD_setWidth, hclear, Bool.and_false, Bool.or_false]

theorem address_of_lba (lba : BitVec 32) :
    ((lba.sshiftRight 24 ||| 0xE0).setWidth 8).extractLsb' 0 4 ++
        (lba.sshiftRight 16).setWidth 8 ++ (lba.sshiftRight 8).setWidth 8 ++
        (lba &&& 0xFF).setWidth 8 = lba.setWidth 28 := by
  refine BitVec.eq_of_getLsbD_eq fun i hi => ?_
  have hmask : ∀ j < 8, (0xFF : BitVec 32).getLsbD j = true := by decide
  have hright : (lba.setWidth 28).getLsbD i = lba.getLsbD i := by
    rw [BitVec.getLsbD_setWidth, decide_eq_true (by exact hi), Bool.true_and]
  rw [hright, BitVec.getLsbD_append, BitVec.getLsbD_append, BitVec.getLsbD_append]
  split_ifs with h0 h1 h2
  · rw [BitVec.getLsbD_setWidth, BitVec.getLsbD_and, hmask i h0, decide_eq_true h0, Bool.true_and,
      Bool.and_true]
  · rw [getLsbD_byte lba h1 (by omega)]
    congr 1
    omega
  · rw [getLsbD_byte lba h2 (by omega)]
    congr 1
    omega
  · rw [BitVec.getLsbD_extractLsb', decide_eq_true (by omega), Bool.true_and,
      getLsbD_device lba (by omega)]
    congr 1
    omega

/-- The number of blocks that a drive takes a count for. -/
def servedBlocks (total : Int) : Nat :=
  if BitVec.ofInt 8 total = 0 then 256 else (BitVec.ofInt 8 total).toNat

theorem servedBlocks_pos (total : Int) : 0 < servedBlocks total := by
  unfold servedBlocks
  split_ifs with hzero
  · decide
  · exact Nat.pos_of_ne_zero fun h => hzero (BitVec.eq_of_toNat_eq h)

theorem servedBlocks_le (total : Int) : servedBlocks total ≤ 256 := by
  unfold servedBlocks
  split_ifs with hzero
  · exact Nat.le_refl 256
  · exact Nat.le_of_lt (BitVec.ofInt 8 total).isLt

theorem servedBlocks_of_range {total : Int} (hlow : 1 ≤ total) (hhigh : total ≤ 256) :
    (servedBlocks total : Int) = total := by
  have htoNat : ((BitVec.ofInt 8 total).toNat : Int) = total % 256 := by
    rw [BitVec.toNat_ofInt]
    omega
  unfold servedBlocks
  split_ifs with hzero
  · rw [hzero] at htoNat
    change ((0 : Nat) : Int) = _ at htoNat
    omega
  · have hne : (BitVec.ofInt 8 total).toNat ≠ 0 := fun h => hzero (BitVec.eq_of_toNat_eq h)
    omega

def AtaChannel.asked (c : AtaChannel) (lba : BitVec 32) (total : Int) : AtaChannel :=
  { c with
    device := (lba.sshiftRight 24 ||| 0xE0).setWidth 8
    sectorCount := BitVec.ofInt 8 total
    lbaLow := (lba &&& 0xFF).setWidth 8
    lbaMid := (lba.sshiftRight 8).setWidth 8
    lbaHigh := (lba.sshiftRight 16).setWidth 8 }

theorem discReadSector_of_idle {c : AtaChannel} (hidle : c.transfer = none) (readings : Nat)
    (lba : BitVec 32) (total : Int) :
    discReadSector readings lba total c =
      (readBlocks readings total.toNat >>= fun bytes => pure (0, bytes))
        ((c.asked lba total).serving (lba.getLsbD 28) (lba.setWidth 28).toNat (servedBlocks total)
          c.delays) := by
  have hcommand : (c.asked lba total).readCommand = (c.asked lba total).serving (lba.getLsbD 28)
      (lba.setWidth 28).toNat (servedBlocks total) c.delays := by
    obtain ⟨blocks, hblocks⟩ : ∃ n, servedBlocks total = n + 1 :=
      ⟨servedBlocks total - 1, by have := servedBlocks_pos total; omega⟩
    have hcount : (if BitVec.ofInt 8 total = 0 then 256 else (BitVec.ofInt 8 total).toNat) =
        blocks + 1 := hblocks
    have hdrive := getLsbD_device lba (i := 4) (by decide)
    have haddress := address_of_lba lba
    unfold AtaChannel.readCommand AtaChannel.address
    rw [hblocks]
    unfold AtaChannel.asked AtaChannel.serving AtaChannel.before
    dsimp only
    rw [hdrive, haddress, hcount]
  have hdevice := write_idle hidle 0x1F6 ((lba.sshiftRight 24 ||| 0xE0).setWidth 8) (by decide)
  have hcount := write_idle hdevice 0x1F2 (BitVec.ofInt 8 total) (by decide)
  have hlow := write_idle hcount 0x1F3 ((lba &&& 0xFF).setWidth 8) (by decide)
  have hmid := write_idle hlow 0x1F4 ((lba.sshiftRight 8).setWidth 8) (by decide)
  have hhigh := write_idle hmid 0x1F5 ((lba.sshiftRight 16).setWidth 8) (by decide)
  unfold discReadSector
  rw [bind_of_ok (outb_of_idle hidle _ _), bind_of_ok (outb_of_idle hdevice _ _),
    bind_of_ok (outb_of_idle hcount _ _), bind_of_ok (outb_of_idle hlow _ _),
    bind_of_ok (outb_of_idle hmid _ _), bind_of_ok (outb_of_idle hhigh _ _), ← hcommand]
  rfl

/-! The blocks. -/

section

variable {c : AtaChannel} {drive : Bool} {sector blocks : Nat} {delays : Nat → Option Nat}

theorem awaitData_busy {t : Transfer} (htransfer : c.transfer = some t) (hwait : t.wait ≠ some 0)
    (readings : Nat) : awaitData (readings + 1) c = awaitData readings c.tick := by
  have hstatus : c.status = 0x80 := by
    unfold AtaChannel.status
    rw [htransfer]
    exact if_neg hwait
  have hinsb : insb 0x1F7 c = .ok (0x80, c.tick) := by
    rw [← hstatus]
    rfl
  rw [awaitData, bind_of_ok hinsb]
  rfl

theorem awaitData_of_wait {wait : Nat} (readings : Nat) :
    awaitData readings (c.before drive sector blocks (some wait) delays) =
      if wait < readings then .ok ((), c.within drive sector blocks 0 delays)
      else .error .waiting := by
  induction readings generalizing wait with
  | zero =>
    rw [if_neg (Nat.not_lt_zero wait)]
    rfl
  | succ readings ih =>
    cases wait with
    | zero =>
      have hinsb : insb 0x1F7 (c.before drive sector blocks (some 0) delays) =
          .ok (0x58, c.within drive sector blocks 0 delays) := rfl
      rw [if_pos (Nat.succ_pos readings), awaitData, bind_of_ok hinsb]
      rfl
    | succ wait =>
      rw [awaitData_busy rfl (by simp)]
      refine Eq.trans (@ih wait) ?_
      simp only [Nat.add_lt_add_iff_right]

theorem awaitData_of_never (readings : Nat) :
    awaitData readings (c.before drive sector blocks none delays) = .error .waiting := by
  induction readings with
  | zero => rfl
  | succ readings ih =>
    rw [awaitData_busy rfl (by simp)]
    exact ih

theorem awaitData_of_idle (hidle : c.transfer = none) (readings : Nat) :
    awaitData readings c = .error .waiting := by
  induction readings with
  | zero => rfl
  | succ readings ih =>
    have hinsb : insb 0x1F7 c = .ok (0x50, c) := by
      unfold insb
      rw [bind_of_ok (get_apply c), if_pos rfl]
      have htick : c.tick = c := by
        unfold AtaChannel.tick
        rw [hidle, Option.map_none, ← hidle]
      have hstatus : c.status = 0x50 := by
        unfold AtaChannel.status
        rw [hidle]
      rw [bind_of_ok (modify_apply _ c), htick, hstatus]
      rfl
    rw [awaitData, bind_of_ok hinsb]
    exact ih

theorem storedWord_append (low high : UInt8) :
    storedWord (high.toBitVec ++ low.toBitVec) = [low, high] := by
  unfold storedWord
  rw [BitVec.extractLsb'_append_eq_right, BitVec.extractLsb'_append_eq_left]

theorem insw_within (word : Nat) :
    insw 0x1F0 (c.within drive sector blocks word delays) =
      .ok ((c.sectors drive sector (2 * word + 1)).toBitVec ++
          (c.sectors drive sector (2 * word)).toBitVec,
        (c.within drive sector blocks word delays).fetched
          ⟨drive, sector, blocks, word, some 0⟩) := by
  unfold insw
  rw [bind_of_ok (get_apply _)]
  rfl

theorem fetched_within {word : Nat} (hword : word < 255) :
    (c.within drive sector blocks word delays).fetched ⟨drive, sector, blocks, word, some 0⟩ =
      c.within drive sector blocks (word + 1) delays := by
  unfold AtaChannel.fetched
  rw [if_pos hword]
  rfl

theorem fetched_last :
    (c.within drive sector (blocks + 1) 255 delays).fetched
        ⟨drive, sector, blocks + 1, 255, some 0⟩ = c.serving drive (sector + 1) blocks delays := by
  unfold AtaChannel.fetched
  cases blocks with
  | zero => rfl
  | succ blocks =>
    rw [if_neg (Nat.lt_irrefl 255), if_pos (Nat.succ_lt_succ (Nat.succ_pos blocks))]
    rfl

theorem readWords_within {word words : Nat} (hwords : word + (words + 1) = 256) :
    readWords (words + 1) (c.within drive sector (blocks + 1) word delays) =
      .ok ((List.range' (2 * word) (2 * (words + 1))).map (c.sectors drive sector),
        c.serving drive (sector + 1) blocks delays) := by
  have hpair : ∀ n m, (List.range' n (2 * (m + 1))).map (c.sectors drive sector) =
      [c.sectors drive sector n, c.sectors drive sector (n + 1)] ++
        (List.range' (n + 2) (2 * m)).map (c.sectors drive sector) := fun n m => rfl
  induction words generalizing word with
  | zero =>
    obtain rfl : word = 255 := by omega
    rw [readWords, bind_of_ok (insw_within 255), fetched_last, storedWord_append, hpair]
    rfl
  | succ words ih =>
    rw [readWords, bind_of_ok (insw_within word), fetched_within (by omega),
      bind_of_ok (ih (by omega)), storedWord_append, hpair _ (words + 1)]
    rfl

theorem readBlock_serving {wait readings : Nat} (hwait : delays 0 = some wait)
    (hready : wait < readings) :
    (awaitData readings >>= fun _ => readWords 256)
        (c.serving drive sector (blocks + 1) delays) =
      .ok ((List.range 512).map (c.sectors drive sector),
        c.serving drive (sector + 1) blocks fun i => delays (i + 1)) := by
  have hawait : awaitData readings (c.serving drive sector (blocks + 1) delays) =
      .ok ((), c.within drive sector (blocks + 1) 0 fun i => delays (i + 1)) := by
    rw [c.serving_succ, hwait, awaitData_of_wait, if_pos hready]
  have hwords : 0 + (255 + 1) = 256 := rfl
  rw [bind_of_ok hawait, readWords_within hwords, List.range_eq_range']

theorem awaitData_serving {readings : Nat} (hwait : ∀ wait < readings, delays 0 ≠ some wait) :
    awaitData readings (c.serving drive sector (blocks + 1) delays) = .error .waiting := by
  rw [c.serving_succ]
  cases hdelay : delays 0 with
  | none => exact awaitData_of_never readings
  | some wait => rw [awaitData_of_wait, if_neg fun hready => hwait wait hready hdelay]

end

/-- `n` blocks get ready, each before `readings` readings of the status were looked at. -/
def ReadyWithin (readings : Nat) (delays : Nat → Option Nat) (n : Nat) : Prop :=
  ∀ i < n, ∃ wait < readings, delays i = some wait

theorem readyWithin_succ {readings n : Nat} {delays : Nat → Option Nat} :
    ReadyWithin readings delays (n + 1) ↔ (∃ wait < readings, delays 0 = some wait) ∧
      ReadyWithin readings (fun i => delays (i + 1)) n := by
  constructor
  · intro h
    exact ⟨h 0 (Nat.succ_pos n), fun i hi => h (i + 1) (Nat.succ_lt_succ hi)⟩
  · rintro ⟨hfirst, hrest⟩ i hi
    cases i with
    | zero => exact hfirst
    | succ i => exact hrest i (Nat.lt_of_succ_lt_succ hi)

/-- The blocks are read if the drive serves as many and gets ready for each; otherwise the driver
goes on looking at the status. -/
theorem readBlocks_serving (c : AtaChannel) (drive : Bool) {readings : Nat} {sector blocks n : Nat}
    {delays : Nat → Option Nat} :
    (n ≤ blocks ∧ ReadyWithin readings delays n →
      readBlocks readings n (c.serving drive sector blocks delays) =
        .ok (blockBytes (c.sectors drive) sector n,
          c.serving drive (sector + n) (blocks - n) fun i => delays (i + n))) ∧
    (¬ (n ≤ blocks ∧ ReadyWithin readings delays n) →
      readBlocks readings n (c.serving drive sector blocks delays) = .error .waiting) := by
  induction n generalizing sector blocks delays with
  | zero =>
    refine ⟨fun _ => rfl, fun h => ?_⟩
    exact absurd ⟨Nat.zero_le blocks, fun i hi => absurd hi (Nat.not_lt_zero i)⟩ h
  | succ n ih =>
    cases blocks with
    | zero =>
      refine ⟨fun h => absurd h.1 (Nat.not_succ_le_zero n), fun _ => ?_⟩
      rw [readBlocks, bind_of_error (awaitData_of_idle rfl readings)]
    | succ blocks =>
      rw [readyWithin_succ, Nat.succ_le_succ_iff]
      by_cases hfirst : ∃ wait < readings, delays 0 = some wait
      · obtain ⟨wait, hready, hwait⟩ := hfirst
        obtain ⟨_, ready, hawait, hwords⟩ :=
          bind_eq_ok.mp (@readBlock_serving c drive sector blocks delays _ _ hwait hready)
        have hrest := @ih (sector + 1) blocks fun i => delays (i + 1)
        rw [readBlocks, bind_of_ok hawait, bind_of_ok hwords]
        refine ⟨fun h => ?_, fun h => ?_⟩
        · rw [bind_of_ok (hrest.1 ⟨h.1, h.2.2⟩), pure_apply, blockBytes,
            Nat.add_sub_add_right, show sector + 1 + n = sector + (n + 1) by omega]
          rfl
        · rw [bind_of_error (hrest.2 fun hall => h ⟨hall.1, ⟨wait, hready, hwait⟩, hall.2⟩)]
      · refine ⟨fun h => absurd h.2.1 hfirst, fun _ => ?_⟩
        rw [readBlocks, bind_of_error (awaitData_serving fun wait hready hwait =>
          hfirst ⟨wait, hready, hwait⟩)]

/-! Requests. -/

theorem ReadyWithin.mono {readings more n : Nat} {delays : Nat → Option Nat}
    (h : ReadyWithin readings delays n) (hmore : readings ≤ more) : ReadyWithin more delays n := by
  intro i hi
  obtain ⟨wait, hwait, hdelay⟩ := h i hi
  exact ⟨wait, Nat.lt_of_lt_of_le hwait hmore, hdelay⟩

theorem exists_readyWithin_iff {n : Nat} {delays : Nat → Option Nat} :
    (∃ readings, ReadyWithin readings delays n) ↔ ∀ i < n, (delays i).isSome := by
  constructor
  · rintro ⟨readings, hready⟩ i hi
    obtain ⟨wait, -, hdelay⟩ := hready i hi
    rw [hdelay]
    rfl
  · intro hall
    induction n with
    | zero => exact ⟨0, fun i hi => absurd hi (Nat.not_lt_zero i)⟩
    | succ n ih =>
      obtain ⟨readings, hready⟩ := ih fun i hi => hall i (Nat.lt_succ_of_lt hi)
      obtain ⟨wait, hwait⟩ := Option.isSome_iff_exists.mp (hall n (Nat.lt_succ_self n))
      refine ⟨max readings (wait + 1), fun i hi => ?_⟩
      by_cases hlast : i = n
      · rw [hlast]
        exact ⟨wait, by omega, hwait⟩
      · exact (hready.mono (Nat.le_max_left ..)) i (by omega)

theorem toNat_le_servedBlocks_iff (total : Int) :
    total.toNat ≤ servedBlocks total ↔ total ≤ 256 := by
  have hle := servedBlocks_le total
  constructor
  · omega
  · intro hhigh
    by_cases hlow : 1 ≤ total
    · have := servedBlocks_of_range hlow hhigh
      omega
    · omega

def AtaChannel.requested (c : AtaChannel) (lba : BitVec 32) (total : Int) : List UInt8 :=
  blockBytes (c.sectors (lba.getLsbD 28)) (lba.setWidth 28).toNat total.toNat

def AtaChannel.answered (c : AtaChannel) (lba : BitVec 32) (total : Int) : AtaChannel :=
  (c.asked lba total).serving (lba.getLsbD 28) ((lba.setWidth 28).toNat + total.toNat)
    (servedBlocks total - total.toNat) fun i => c.delays (i + total.toNat)

theorem answered_transfer_eq_none (c : AtaChannel) (lba : BitVec 32) {total : Int}
    (hhigh : total ≤ 256) : (c.answered lba total).transfer = none ↔ 0 < total := by
  have hpos := servedBlocks_pos total
  unfold AtaChannel.answered
  rw [AtaChannel.serving_transfer_eq_none]
  by_cases hlow : 1 ≤ total
  · have := servedBlocks_of_range hlow hhigh
    omega
  · omega

section

variable {c : AtaChannel} (hidle : c.transfer = none) (disk readings : Nat) (lba : BitVec 32)
variable {total : Int}
include hidle

theorem diskReadBlock_of_ready (hhigh : total ≤ 256)
    (hready : ReadyWithin readings c.delays total.toNat) :
    diskReadBlock readings disk disk lba total c =
      .ok ((0, c.requested lba total), c.answered lba total) := by
  have hblocks := (@readBlocks_serving (c.asked lba total) (lba.getLsbD 28) readings
    (lba.setWidth 28).toNat (servedBlocks total) total.toNat c.delays).1
      ⟨(toNat_le_servedBlocks_iff total).mpr hhigh, hready⟩
  unfold diskReadBlock
  rw [if_neg fun h => h rfl, discReadSector_of_idle hidle, bind_of_ok hblocks]
  rfl

theorem diskReadBlock_of_not_ready
    (hnot : ¬ (total ≤ 256 ∧ ReadyWithin readings c.delays total.toNat)) :
    diskReadBlock readings disk disk lba total c = .error .waiting := by
  have hblocks := (@readBlocks_serving (c.asked lba total) (lba.getLsbD 28) readings
    (lba.setWidth 28).toNat (servedBlocks total) total.toNat c.delays).2
      fun h => hnot ⟨(toNat_le_servedBlocks_iff total).mp h.1, h.2⟩
  unfold diskReadBlock
  rw [if_neg fun h => h rfl, discReadSector_of_idle hidle, bind_of_error hblocks]

end

/-- On an idle channel the driver never fetches a word that is not there and never writes a register
during a transfer. It returns if it asks for at most 256 blocks and each of them gets ready. Then it
has stored the sectors from the low 28 bits of `lba` on, of the drive that bit 28 selects; a request
for no block at all leaves the channel in the middle of a transfer. -/
theorem disk_read_block_iff {c : AtaChannel} (hidle : c.transfer = none) (disk : Nat)
    (lba : BitVec 32) (total : Int) :
    (∀ readings stop, diskReadBlock readings disk disk lba total c = .error stop →
      stop = .waiting) ∧
    ((∃ readings r, diskReadBlock readings disk disk lba total c = .ok r) ↔
      total ≤ 256 ∧ ∀ i : Nat, (i : Int) < total → (c.delays i).isSome) ∧
    ∀ readings status bytes c', diskReadBlock readings disk disk lba total c =
        .ok ((status, bytes), c') →
      status = 0 ∧ bytes.length = 512 * total.toNat ∧
      (∀ j < 512 * total.toNat, bytes[j]? = some
        (c.sectors (lba.getLsbD 28) (lba.toNat % 268435456 + j / 512) (j % 512))) ∧
      (c'.transfer = none ↔ 0 < total) ∧ c'.sectors = c.sectors := by
  have hsome : (∀ i : Nat, (i : Int) < total → (c.delays i).isSome) ↔
      ∃ readings, ReadyWithin readings c.delays total.toNat := by
    rw [exists_readyWithin_iff]
    exact forall_congr' fun i => by rw [Int.lt_toNat]
  have hcases : ∀ readings,
      (total ≤ 256 ∧ ReadyWithin readings c.delays total.toNat ∧
        diskReadBlock readings disk disk lba total c =
          .ok ((0, c.requested lba total), c.answered lba total)) ∨
      diskReadBlock readings disk disk lba total c = .error .waiting := by
    intro readings
    by_cases hready : total ≤ 256 ∧ ReadyWithin readings c.delays total.toNat
    · exact .inl ⟨hready.1, hready.2,
        diskReadBlock_of_ready hidle disk readings lba hready.1 hready.2⟩
    · exact .inr (diskReadBlock_of_not_ready hidle disk readings lba hready)
  refine ⟨fun readings stop hstop => ?_, ?_, fun readings status bytes c' hread => ?_⟩
  · rcases hcases readings with ⟨-, -, hrun⟩ | hrun
    · rw [hrun] at hstop
      cases hstop
    · rw [hrun] at hstop
      cases hstop
      rfl
  · rw [hsome]
    constructor
    · rintro ⟨readings, r, hread⟩
      rcases hcases readings with ⟨hhigh, hready, -⟩ | hrun
      · exact ⟨hhigh, readings, hready⟩
      · rw [hrun] at hread
        cases hread
    · rintro ⟨hhigh, readings, hready⟩
      exact ⟨readings, _, diskReadBlock_of_ready hidle disk readings lba hhigh hready⟩
  · rcases hcases readings with ⟨hhigh, -, hrun⟩ | hrun
    · rw [hrun, Except.ok.injEq, Prod.mk.injEq, Prod.mk.injEq] at hread
      obtain ⟨⟨rfl, rfl⟩, rfl⟩ := hread
      refine ⟨rfl, length_blockBytes .., fun j hj => ?_,
        answered_transfer_eq_none c lba hhigh, AtaChannel.serving_sectors ..⟩
      rw [AtaChannel.requested, getElem?_blockBytes _ hj, BitVec.toNat_setWidth]
    · rw [hrun] at hread
      cases hread

def numberedChannel : AtaChannel where
  device := 0
  sectorCount := 0
  lbaLow := 0
  lbaMid := 0
  lbaHigh := 0
  transfer := none
  delays := fun i => if i = 2 then none else some 0
  sectors := fun _ sector _ => UInt8.ofNat sector

theorem disk_read_block_iff_numbered :
    (∀ readings stop, diskReadBlock readings 0 0 7 2 numberedChannel = .error stop →
      stop = .waiting) ∧
    ((∃ readings r, diskReadBlock readings 0 0 7 2 numberedChannel = .ok r) ↔
      (2 : Int) ≤ 256 ∧ ∀ i : Nat, (i : Int) < 2 → (numberedChannel.delays i).isSome) ∧
    ∀ readings status bytes c', diskReadBlock readings 0 0 7 2 numberedChannel =
        .ok ((status, bytes), c') →
      status = 0 ∧ bytes.length = 512 * (2 : Int).toNat ∧
      (∀ j < 512 * (2 : Int).toNat, bytes[j]? = some (numberedChannel.sectors
        ((7 : BitVec 32).getLsbD 28) ((7 : BitVec 32).toNat % 268435456 + j / 512) (j % 512))) ∧
      (c'.transfer = none ↔ (0 : Int) < 2) ∧ c'.sectors = numberedChannel.sectors :=
  disk_read_block_iff rfl 0 7 2

/-! Runs of requests. -/

def diskRequests (readings disk : Nat) : List (BitVec 32 × Int) → AtaM (List (List UInt8))
  | [] => pure []
  | (lba, total) :: rest => do
      let (_, bytes) ← diskReadBlock readings disk disk lba total
      let more ← diskRequests readings disk rest
      pure (bytes :: more)

theorem diskReadBlock_of_transfer {c : AtaChannel} (hbusy : c.transfer ≠ none) (disk readings : Nat)
    (lba : BitVec 32) (total : Int) :
    diskReadBlock readings disk disk lba total c = .error .busy := by
  have houtb : ∀ port val, outb port val c = .error .busy := by
    intro port val
    unfold outb
    rw [bind_of_ok (get_apply c), if_pos (Option.isSome_iff_ne_none.mpr hbusy)]
    rfl
  unfold diskReadBlock discReadSector
  rw [if_neg fun h => h rfl, bind_of_error (houtb _ _)]

/-- Requests that can follow one another: none for more than 256 blocks, and none for no block at
all but the last one. -/
def Servable : List (BitVec 32 × Int) → Prop
  | [] => True
  | (_, total) :: rest => total ≤ 256 ∧ (rest ≠ [] → 0 < total) ∧ Servable rest

theorem diskRequests_of_servable {requests : List (BitVec 32 × Int)} (disk : Nat) {c : AtaChannel}
    (hidle : c.transfer = none) (hserves : ∀ i, (c.delays i).isSome) (h : Servable requests) :
    ∃ bound, ∀ readings, bound ≤ readings →
      ∃ r, diskRequests readings disk requests c = .ok r := by
  induction requests generalizing c with
  | nil => exact ⟨0, fun readings _ => ⟨_, rfl⟩⟩
  | cons request rest ih =>
    obtain ⟨lba, total⟩ := request
    obtain ⟨hhigh, hlow, hrest⟩ := h
    obtain ⟨first, hready⟩ := exists_readyWithin_iff.mpr fun i (_ : i < total.toNat) => hserves i
    have hfirst : ∀ {readings}, first ≤ readings → diskReadBlock readings disk disk lba total c =
        .ok ((0, c.requested lba total), c.answered lba total) := fun hmore =>
      diskReadBlock_of_ready hidle disk _ lba hhigh (hready.mono hmore)
    by_cases hlast : rest = []
    · subst hlast
      refine ⟨first, fun readings hmore => ⟨([c.requested lba total], c.answered lba total), ?_⟩⟩
      rw [diskRequests, bind_of_ok (hfirst hmore)]
      rfl
    · have htotal := hlow hlast
      have hserves' : ∀ i, ((c.answered lba total).delays i).isSome := by
        intro i
        unfold AtaChannel.answered
        rw [AtaChannel.serving_delays]
        split_ifs
        · exact hserves _
        · exact hserves _
      obtain ⟨bound, hbound⟩ :=
        ih ((answered_transfer_eq_none c lba hhigh).mpr htotal) hserves' hrest
      refine ⟨max first bound, fun readings hmore => ?_⟩
      obtain ⟨⟨results, c'⟩, hrun⟩ := hbound readings (by omega)
      refine ⟨(c.requested lba total :: results, c'), ?_⟩
      rw [diskRequests, bind_of_ok (hfirst (by omega))]
      dsimp only
      rw [bind_of_ok hrun]
      rfl

theorem servable_of_diskRequests {requests : List (BitVec 32 × Int)} (disk readings : Nat)
    {c c' : AtaChannel} {results : List (List UInt8)} (hidle : c.transfer = none)
    (h : diskRequests readings disk requests c = .ok (results, c')) :
    Servable requests ∧ results = requests.map fun q => c.requested q.1 q.2 := by
  induction requests generalizing c c' results with
  | nil =>
    obtain ⟨rfl, -⟩ := pure_eq_ok.mp h
    exact ⟨trivial, rfl⟩
  | cons request rest ih =>
    obtain ⟨lba, total⟩ := request
    obtain ⟨⟨status, bytes⟩, c₁, hread, h⟩ := bind_eq_ok.mp h
    obtain ⟨more, c₂, hrun, hresult⟩ := bind_eq_ok.mp h
    obtain ⟨rfl, rfl⟩ := pure_eq_ok.mp hresult
    have hready : total ≤ 256 ∧ ReadyWithin readings c.delays total.toNat := by
      by_contra hnot
      rw [diskReadBlock_of_not_ready hidle disk readings lba hnot] at hread
      cases hread
    rw [diskReadBlock_of_ready hidle disk readings lba hready.1 hready.2, Except.ok.injEq,
      Prod.mk.injEq, Prod.mk.injEq] at hread
    obtain ⟨⟨rfl, rfl⟩, rfl⟩ := hread
    by_cases htransfer : (c.answered lba total).transfer = none
    · obtain ⟨hservable, rfl⟩ := ih htransfer hrun
      refine ⟨⟨hready.1, fun _ => (answered_transfer_eq_none c lba hready.1).mp htransfer,
        hservable⟩, ?_⟩
      have hsectors : (c.answered lba total).sectors = c.sectors := AtaChannel.serving_sectors ..
      rw [List.map_cons]
      unfold AtaChannel.requested
      rw [hsectors]
    · cases rest with
      | nil =>
        obtain ⟨rfl, -⟩ := pure_eq_ok.mp hrun
        exact ⟨⟨hready.1, fun h => absurd rfl h, trivial⟩, rfl⟩
      | cons next rest =>
        rw [diskRequests, bind_of_error (diskReadBlock_of_transfer htransfer ..)] at hrun
        cases hrun

/-- On an idle channel whose drives get ready for every block, a run of requests is served exactly
if none of them is for more than 256 blocks and none but the last is for no block at all. Then each
one gets the sectors it asks for. -/
theorem disk_requests_iff {c : AtaChannel} (hidle : c.transfer = none)
    (hserves : ∀ i, (c.delays i).isSome) (disk : Nat) (requests : List (BitVec 32 × Int)) :
    ((∃ readings r, diskRequests readings disk requests c = .ok r) ↔ Servable requests) ∧
    ∀ readings results c', diskRequests readings disk requests c = .ok (results, c') →
      results = requests.map fun q => c.requested q.1 q.2 := by
  refine ⟨⟨?_, fun h => ?_⟩, fun readings results c' hrun =>
    (servable_of_diskRequests disk readings hidle hrun).2⟩
  · rintro ⟨readings, ⟨results, c'⟩, hrun⟩
    exact (servable_of_diskRequests disk readings hidle hrun).1
  · obtain ⟨bound, hbound⟩ := diskRequests_of_servable disk hidle hserves h
    obtain ⟨r, hrun⟩ := hbound bound (Nat.le_refl bound)
    exact ⟨bound, r, hrun⟩

theorem disk_requests_iff_zeros :
    ((∃ readings r, diskRequests readings 0 [(7, 2), (1, 0)]
        { numberedChannel with delays := fun _ => some 5 } = .ok r) ↔
      Servable [(7, 2), (1, 0)]) ∧
    ∀ readings results c', diskRequests readings 0 [(7, 2), (1, 0)]
        { numberedChannel with delays := fun _ => some 5 } = .ok (results, c') →
      results = [((7 : BitVec 32), (2 : Int)), (1, 0)].map fun q =>
        AtaChannel.requested { numberedChannel with delays := fun _ => some 5 } q.1 q.2 :=
  disk_requests_iff rfl (fun _ => rfl) 0 _

end BoiOS
