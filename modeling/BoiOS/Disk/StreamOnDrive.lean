import BoiOS.Disk.AtaReads
import BoiOS.Disk.Streamer
import BoiOS.Library.Patience

/-! The streams of disk/streamer.c on a drive. A stream that asks the drive for each of its sectors
delivers what a stream on the contents of the disk delivers, whatever the drive makes it wait. -/
namespace BoiOS
open Library.StateRun Library.Patience

structure Computer where
  kernel : Kernel
  channel : AtaChannel

abbrev ComputerM (α : Type) := Prog Computer AtaStop α

def onKernel {α : Type} (x : KernelM α) : ComputerM α := fun s =>
  match x s.kernel with
  | .ok (a, k) => .ok (a, { s with kernel := k })
  | .error stop => .error (.kernel stop)

def onChannel {α : Type} (x : AtaM α) : ComputerM α := fun s =>
  match x s.channel with
  | .ok (a, c) => .ok (a, { s with channel := c })
  | .error stop => .error stop

def bufferBytes (buf : List UInt8) (offset total : Int) : KernelM (List UInt8) :=
  if 0 < total ∧ (offset < 0 ∨ boiosSectorSize < offset + total) then throw .faulted
  else pure ((List.range total.toNat).map fun i => buf.getD (offset.toNat + i) 0)

/-- `diskstreamer_read` with its call of `disk_read_block`; the streams are all on the disk at
`disk`. -/
def diskstreamerReadOnDrive (readings disk : Nat) : (fuel : Nat) → (stream : Nat) → (total : Int) →
    ComputerM (Int × List UInt8)
  | 0, _, _ => throw (.kernel .faulted)
  | fuel + 1, stream, total => do
      let s ← get
      let position ← onKernel (fetch (s.kernel.streams stream))
      let sector := position.tdiv boiosSectorSize
      let offset := position.tmod boiosSectorSize
      let reach := i32 (offset + total)
      let totalToRead :=
        if reach ≥ boiosSectorSize then total - (reach - boiosSectorSize) else total
      let (response, buf) ← onChannel (diskReadBlock readings disk disk (BitVec.ofInt 32 sector) 1)
      if response < 0 then pure (response, [])
      else do
        let bytes ← onKernel (bufferBytes buf offset totalToRead)
        onKernel (modify fun k =>
          { k with
            streams := Function.update k.streams stream (some (i32 (position + totalToRead))) })
        if reach ≥ boiosSectorSize then do
          let (response, rest) ←
            diskstreamerReadOnDrive readings disk fuel stream (total - totalToRead)
          pure (response, bytes ++ rest)
        else pure (response, bytes)

/-- An idle channel whose drives get ready for every block and hold a disk: bit 28 of an address
selects the drive, and those above it do not count. -/
structure AtaChannel.Holds (c : AtaChannel) (disk : Disk) : Prop where
  idle : c.transfer = none
  serves : ∀ i, (c.delays i).isSome
  sectors : ∀ lba < 4294967296, ∀ i < 512,
    disk.sectors lba i = c.sectors (lba.testBit 28) (lba % 268435456) i

def driveSetting : Setting Computer Kernel AtaStop Stop where
  related s k := s.kernel = k ∧ s.channel.Holds k.disk
  stop := .kernel
  gaveUp := .waiting

theorem onKernel_same {α : Type} {x : KernelM α} {k : Kernel} {c : AtaChannel}
    (hholds : c.Holds k.disk) (hdisk : ∀ a k', x k = .ok (a, k') → k'.disk = k.disk) :
    driveSetting.Same (onKernel x ⟨k, c⟩) (x k) := by
  unfold onKernel
  cases hrun : x k with
  | error stop => exact .error stop
  | ok r =>
    obtain ⟨a, k'⟩ := r
    refine .ok ⟨rfl, ?_⟩
    rw [hdisk a k' hrun]
    exact hholds

theorem diskReadBlock_one {c : AtaChannel} {held : Disk} (hholds : c.Holds held) (disk : Nat)
    (lba : BitVec 32) :
    ∃ buf c' wait, c'.Holds held ∧ (∀ i < 512, buf[i]? = some (held.sectors lba.toNat i)) ∧
      (∀ readings, diskReadBlock readings disk disk lba 1 c = .error .waiting ∨
        diskReadBlock readings disk disk lba 1 c = .ok ((0, buf), c')) ∧
      ∀ readings, wait < readings →
        diskReadBlock readings disk disk lba 1 c = .ok ((0, buf), c') := by
  obtain ⟨wait, hwait⟩ := Option.isSome_iff_exists.mp (hholds.serves 0)
  have hready : ∀ {readings}, wait < readings → ReadyWithin readings c.delays (1 : Int).toNat := by
    intro readings hlt i hi
    obtain rfl : i = 0 := Nat.lt_one_iff.mp hi
    exact ⟨wait, hlt, hwait⟩
  refine ⟨c.requested lba 1, c.answered lba 1, wait, ⟨?_, fun i => ?_, ?_⟩, fun i hi => ?_,
    fun readings => ?_, fun readings hlt =>
      diskReadBlock_of_ready hholds.idle disk readings lba (by decide) (hready hlt)⟩
  · exact (answered_transfer_eq_none c lba (by decide)).mpr Int.one_pos
  · exact hholds.serves (i + 1)
  · exact hholds.sectors
  · rw [AtaChannel.requested, getElem?_blockBytes _ (by exact hi), Nat.div_eq_of_lt hi,
      Nat.mod_eq_of_lt hi, BitVec.toNat_setWidth, hholds.sectors _ lba.isLt i hi]
    rfl
  · by_cases hlt : wait < readings
    · exact .inr (diskReadBlock_of_ready hholds.idle disk readings lba (by decide) (hready hlt))
    · refine .inl (diskReadBlock_of_not_ready hholds.idle disk readings lba fun h => ?_)
      obtain ⟨wait', hlt', hwait'⟩ := h.2 0 Nat.one_pos
      rw [hwait, Option.some.injEq] at hwait'
      omega

theorem bufferBytes_eq {held : Disk} {buf : List UInt8} {sector : Int}
    (hbuf : ∀ i < 512, buf[i]? = some (held.sectors (u32 sector) i)) (offset total : Int) :
    bufferBytes buf offset total = sectorBytes held sector offset total := by
  unfold bufferBytes sectorBytes
  split_ifs with houtside
  · rfl
  · refine congrArg pure (List.map_congr_left fun i hi => ?_)
    rw [List.mem_range] at hi
    rw [List.getD_eq_getElem?_getD, hbuf _ (by unfold boiosSectorSize at houtside; omega)]
    rfl

theorem toNat_ofInt_32 (x : Int) : (BitVec.ofInt 32 x).toNat = u32 x := by
  rw [BitVec.toNat_ofInt]
  unfold u32
  rfl

theorem onChannel_one {k : Kernel} {c : AtaChannel} {held : Disk} (hholds : c.Holds held)
    (disk : Nat) (sector : Int) :
    ∃ buf c' wait, c'.Holds held ∧ (∀ i < 512, buf[i]? = some (held.sectors (u32 sector) i)) ∧
      (∀ readings,
        onChannel (diskReadBlock readings disk disk (BitVec.ofInt 32 sector) 1) ⟨k, c⟩ =
            .error .waiting ∨
          onChannel (diskReadBlock readings disk disk (BitVec.ofInt 32 sector) 1) ⟨k, c⟩ =
            .ok ((0, buf), ⟨k, c'⟩)) ∧
      ∀ readings, wait + 1 ≤ readings →
        onChannel (diskReadBlock readings disk disk (BitVec.ofInt 32 sector) 1) ⟨k, c⟩ =
          .ok ((0, buf), ⟨k, c'⟩) := by
  obtain ⟨buf, c', wait, hholds', hbuf, hall, hready⟩ :=
    diskReadBlock_one hholds disk (BitVec.ofInt 32 sector)
  rw [toNat_ofInt_32] at hbuf
  have hlift : ∀ {readings r}, diskReadBlock readings disk disk (BitVec.ofInt 32 sector) 1 c = r →
      onChannel (diskReadBlock readings disk disk (BitVec.ofInt 32 sector) 1) ⟨k, c⟩ =
        r.map fun v => (v.1, ⟨k, v.2⟩) := by
    rintro readings r rfl
    unfold onChannel
    cases diskReadBlock readings disk disk (BitVec.ofInt 32 sector) 1 c with
    | error stop => rfl
    | ok v => rfl
  refine ⟨buf, c', wait, hholds', hbuf, fun readings => ?_, fun readings hlt => ?_⟩
  · exact (hall readings).imp hlift hlift
  · exact hlift (hready readings hlt)

theorem sectorBytes_disk {held : Disk} {sector offset total : Int} {bytes : List UInt8}
    {k k' : Kernel} (h : sectorBytes held sector offset total k = .ok (bytes, k')) : k' = k := by
  unfold sectorBytes at h
  split_ifs at h
  · exact (throw_eq_ok.mp h).elim
  · exact (pure_eq_ok.mp h).2.symm

theorem diskstreamerReadLoop_onDrive (disk fuel stream : Nat) (total : Int) :
    driveSetting.Simulates (fun readings => diskstreamerReadOnDrive readings disk fuel stream total)
      (diskstreamerReadLoop fuel stream total) := by
  induction fuel generalizing total with
  | zero =>
    intro s k hrelated
    exact .of_same (.error Stop.faulted)
  | succ fuel ih =>
    rintro ⟨k, c⟩ _ ⟨rfl, hholds⟩
    unfold diskstreamerReadOnDrive diskstreamerReadLoop
    refine .congr ?_ (fun n => bind_of_ok (get_apply _) _) (bind_of_ok (get_apply _) _)
    refine .bind (.of_same (onKernel_same hholds fun a k' h => ?_)) ?_
    · rw [(fetch_eq_ok.mp h).2]
    rintro position ⟨k', c'⟩ _ hposition ⟨rfl, hholds⟩
    obtain ⟨-, rfl⟩ := fetch_eq_ok.mp hposition
    obtain ⟨buf, c'', wait, hholds, hbuf, hall, hready⟩ :=
      onChannel_one (k := k) hholds disk (position.tdiv boiosSectorSize)
    refine .waiting hall hready ?_
    dsimp only
    rw [bufferBytes_eq hbuf]
    simp only [Int.lt_irrefl, if_false]
    refine .bind (.of_same (onKernel_same hholds fun a k' h => ?_)) ?_
    · rw [sectorBytes_disk h]
    rintro bytes ⟨k₁, c₁⟩ _ hbytes ⟨rfl, hholds⟩
    refine .bind (.of_same (onKernel_same hholds fun a k' h => ?_)) ?_
    · rw [← modify_eq_ok.mp h]
    rintro ⟨⟩ ⟨k₂, c₂⟩ _ hmoved ⟨rfl, hholds⟩
    dsimp only
    split_ifs with hreach
    · refine .bind (ih _ _ _ ⟨rfl, hholds⟩) ?_
      rintro ⟨response, rest⟩ s' k' - hrelated
      exact .of_same (.ok hrelated)
    · exact .of_same (.ok ⟨rfl, hholds⟩)

/-! Runs. -/

inductive StreamCall
  | seek (stream : Nat) (position : Int)
  | read (stream : Nat) (total : Int)

def streamCall : StreamCall → KernelM (Int × List UInt8)
  | .seek stream position => do
      let status ← diskstreamerSeek stream position
      pure (status, [])
  | .read stream total => diskstreamerRead stream total

def streamCallOnDrive (readings disk : Nat) : StreamCall → ComputerM (Int × List UInt8)
  | .seek stream position => onKernel (streamCall (.seek stream position))
  | .read stream total =>
      diskstreamerReadOnDrive readings disk (total.toNat + 1) stream total

def streamCalls : List StreamCall → KernelM (List (Int × List UInt8))
  | [] => pure []
  | call :: rest => do
      let result ← streamCall call
      let results ← streamCalls rest
      pure (result :: results)

def streamCallsOnDrive (readings disk : Nat) : List StreamCall → ComputerM (List (Int × List UInt8))
  | [] => pure []
  | call :: rest => do
      let result ← streamCallOnDrive readings disk call
      let results ← streamCallsOnDrive readings disk rest
      pure (result :: results)

theorem diskstreamerSeek_disk {stream : Nat} {position status : Int} {k k' : Kernel}
    (h : diskstreamerSeek stream position k = .ok (status, k')) : k'.disk = k.disk := by
  unfold diskstreamerSeek at h
  rw [bind_get_eq_ok] at h
  obtain ⟨old, -, h⟩ := bind_fetch_eq_ok.mp h
  obtain ⟨_, k₁, hmodify, h⟩ := bind_eq_ok.mp h
  rw [← (pure_eq_ok.mp h).2, ← modify_eq_ok.mp hmodify]

theorem streamCall_onDrive (disk : Nat) (call : StreamCall) :
    driveSetting.Simulates (fun readings => streamCallOnDrive readings disk call)
      (streamCall call) := by
  cases call with
  | seek stream position =>
    rintro ⟨k, c⟩ _ ⟨rfl, hholds⟩
    refine .of_same (onKernel_same hholds fun result k' h => ?_)
    obtain ⟨status, k₁, hseek, hresult⟩ := bind_eq_ok.mp h
    rw [← (pure_eq_ok.mp hresult).2]
    exact diskstreamerSeek_disk hseek
  | read stream total => exact diskstreamerReadLoop_onDrive disk (total.toNat + 1) stream total

theorem streamCalls_onDrive (disk : Nat) (calls : List StreamCall) :
    driveSetting.Simulates (fun readings => streamCallsOnDrive readings disk calls)
      (streamCalls calls) := by
  induction calls with
  | nil =>
    intro s k hrelated
    exact .of_same (.ok hrelated)
  | cons call rest ih =>
    intro s k hrelated
    refine .bind (streamCall_onDrive disk call s k hrelated) fun result s' k' _ hrelated => ?_
    refine .bind (ih s' k' hrelated) fun results s'' k'' _ hrelated => ?_
    exact .of_same (.ok hrelated)

/-- A run of seeks and reads on any streams, with a drive that takes its time. What it delivers with
any patience is what it delivers from the contents of the disk; with enough patience it delivers
that; and it never fetches a word that is not there or writes a register during a transfer. -/
theorem stream_calls_on_drive {k : Kernel} {c : AtaChannel} (hholds : c.Holds k.disk) (disk : Nat)
    (calls : List StreamCall) :
    (∀ readings results k' c', streamCallsOnDrive readings disk calls ⟨k, c⟩ =
        .ok (results, ⟨k', c'⟩) →
      streamCalls calls k = .ok (results, k') ∧ c'.Holds k'.disk) ∧
    (∀ results k', streamCalls calls k = .ok (results, k') →
      ∃ readings c', streamCallsOnDrive readings disk calls ⟨k, c⟩ = .ok (results, ⟨k', c'⟩)) ∧
    ∀ readings stop, streamCallsOnDrive readings disk calls ⟨k, c⟩ = .error stop →
      stop = .waiting ∨ ∃ e, stop = .kernel e ∧ streamCalls calls k = .error e := by
  have hsimulates := streamCalls_onDrive disk calls ⟨k, c⟩ k ⟨rfl, hholds⟩
  refine ⟨fun readings results k' c' hrun => ?_, fun results k' hrun => ?_,
    fun readings stop hrun => hsimulates.error hrun⟩
  · obtain ⟨_, hkernel, rfl, hholds'⟩ := hsimulates.ok hrun
    exact ⟨hkernel, hholds'⟩
  · obtain ⟨readings, ⟨k'', c'⟩, hdrive, rfl, -⟩ := hsimulates.exists_ok hrun
    exact ⟨readings, c', hdrive⟩

def countingChannel : AtaChannel where
  device := 0
  sectorCount := 0
  lbaLow := 0
  lbaMid := 0
  lbaHigh := 0
  transfer := none
  delays := fun _ => some 2
  sectors := fun _ sector i => UInt8.ofNat (sector + i)

def countingKernel : Kernel :=
  { emptyKernel 1 with
    streams := fun _ => some 0
    disk := ⟨512, 1, none, fun lba i => UInt8.ofNat (lba % 268435456 + i)⟩ }

theorem countingChannel_holds : countingChannel.Holds countingKernel.disk :=
  ⟨rfl, fun _ => rfl, fun _ _ _ _ => rfl⟩

theorem stream_calls_on_drive_counting :
    (∀ readings results k' c',
      streamCallsOnDrive readings 0 [.seek 1 510, .read 1 4] ⟨countingKernel, countingChannel⟩ =
        .ok (results, ⟨k', c'⟩) →
      streamCalls [.seek 1 510, .read 1 4] countingKernel = .ok (results, k') ∧
        c'.Holds k'.disk) ∧
    (∀ results k', streamCalls [.seek 1 510, .read 1 4] countingKernel = .ok (results, k') →
      ∃ readings c', streamCallsOnDrive readings 0 [.seek 1 510, .read 1 4]
        ⟨countingKernel, countingChannel⟩ = .ok (results, ⟨k', c'⟩)) ∧
    ∀ readings stop, streamCallsOnDrive readings 0 [.seek 1 510, .read 1 4]
        ⟨countingKernel, countingChannel⟩ = .error stop →
      stop = .waiting ∨ ∃ e, stop = .kernel e ∧
        streamCalls [.seek 1 510, .read 1 4] countingKernel = .error e :=
  stream_calls_on_drive countingChannel_holds 0 _

end BoiOS
