import BoiOS.Library.StateRun
import BoiOS.Machine.Words
import Mathlib.Data.BitVec

/-! The driver of disk/disk.c on the ports of an ATA channel, which io/io.asm reads and writes a
byte or a word at a time. The drives answer when they are ready, each block after as many readings
of the status as they please, or never. -/
namespace BoiOS
open Library.StateRun

/-- A read command under way. `wait` counts the readings of the status that come before the next
word is there, if it ever is. -/
structure Transfer where
  drive : Bool
  sector : Nat
  blocks : Nat
  word : Nat
  wait : Option Nat

/-- The registers of the command block, and the two drives behind them. `delays` are the delays of
the blocks to come, in the order in which they are served. -/
structure AtaChannel where
  device : BitVec 8
  sectorCount : BitVec 8
  lbaLow : BitVec 8
  lbaMid : BitVec 8
  lbaHigh : BitVec 8
  transfer : Option Transfer
  delays : Nat → Option Nat
  sectors : Bool → Nat → Nat → UInt8

/-- How a run on the ports ends early: the readings of the status that are looked at are used up, a
word is fetched that is not there, a register is written during a transfer, or the kernel itself
stops. -/
inductive AtaStop
  | waiting
  | notReady
  | busy
  | kernel (stop : Stop)
  deriving DecidableEq

abbrev AtaM (α : Type) := Prog AtaChannel AtaStop α

namespace AtaChannel

def address (c : AtaChannel) : BitVec 28 :=
  c.device.extractLsb' 0 4 ++ c.lbaHigh ++ c.lbaMid ++ c.lbaLow

/-- A count of 0 stands for 256 blocks; bit 4 of the device register selects the drive. -/
def readCommand (c : AtaChannel) : AtaChannel :=
  { c with
    transfer := some
      { drive := c.device.getLsbD 4
        sector := c.address.toNat
        blocks := if c.sectorCount = 0 then 256 else c.sectorCount.toNat
        word := 0
        wait := c.delays 0 }
    delays := fun i => c.delays (i + 1) }

def write (c : AtaChannel) (port : Nat) (val : BitVec 8) : AtaChannel :=
  if port = 0x1F6 then { c with device := val }
  else if port = 0x1F2 then { c with sectorCount := val }
  else if port = 0x1F3 then { c with lbaLow := val }
  else if port = 0x1F4 then { c with lbaMid := val }
  else if port = 0x1F5 then { c with lbaHigh := val }
  else if port = 0x1F7 ∧ val = 0x20 then c.readCommand
  else c

/-- The status while nothing is asked for, while a drive is busy, and with a word to fetch. -/
def status (c : AtaChannel) : BitVec 8 :=
  match c.transfer with
  | none => 0x50
  | some t => if t.wait = some 0 then 0x58 else 0x80

/-- A reading of the status is a moment of the wait. -/
def tick (c : AtaChannel) : AtaChannel :=
  { c with transfer := c.transfer.map fun t => { t with wait := t.wait.map Nat.pred } }

def dataWord (c : AtaChannel) (t : Transfer) : BitVec 16 :=
  (c.sectors t.drive t.sector (2 * t.word + 1)).toBitVec ++
    (c.sectors t.drive t.sector (2 * t.word)).toBitVec

/-- With the last word of a block the drive goes on to the next one, or is done. -/
def fetched (c : AtaChannel) (t : Transfer) : AtaChannel :=
  if t.word < 255 then { c with transfer := some { t with word := t.word + 1 } }
  else if 1 < t.blocks then
    { c with
      transfer := some
        { t with sector := t.sector + 1, blocks := t.blocks - 1, word := 0, wait := c.delays 0 }
      delays := fun i => c.delays (i + 1) }
  else { c with transfer := none }

end AtaChannel

/-! The functions of io/io.asm. -/

def outb (port : Nat) (val : BitVec 8) : AtaM Unit := do
  let c ← get
  if c.transfer.isSome then throw .busy
  else modify fun c => c.write port val

def insb (port : Nat) : AtaM (BitVec 8) := do
  let c ← get
  if port = 0x1F7 then do
    modify AtaChannel.tick
    pure c.status
  else pure 0xFF

def insw (port : Nat) : AtaM (BitVec 16) := do
  let c ← get
  match c.transfer with
  | none => throw .notReady
  | some t =>
      if port = 0x1F0 ∧ t.wait = some 0 then do
        modify fun c => c.fetched t
        pure (c.dataWord t)
      else throw .notReady

/-! The functions of disk/disk.c. -/

/-- `while(!(c & 0x08)) c = insb(0x1F7);`, with as many readings as are looked at. -/
def awaitData : (readings : Nat) → AtaM Unit
  | 0 => throw .waiting
  | readings + 1 => do
      let c ← insb 0x1F7
      if c &&& 0x08 = 0 then awaitData readings else pure ()

def storedWord (word : BitVec 16) : List UInt8 := [⟨word.extractLsb' 0 8⟩, ⟨word.extractLsb' 8 8⟩]

def readWords : (words : Nat) → AtaM (List UInt8)
  | 0 => pure []
  | words + 1 => do
      let word ← insw 0x1F0
      let rest ← readWords words
      pure (storedWord word ++ rest)

def readBlocks (readings : Nat) : (blocks : Nat) → AtaM (List UInt8)
  | 0 => pure []
  | blocks + 1 => do
      awaitData readings
      let block ← readWords 256
      let rest ← readBlocks readings blocks
      pure (block ++ rest)

/-- `disc_read_sector`: what it returns, and the bytes that it stores from `buf` on. -/
def discReadSector (readings : Nat) (lba : BitVec 32) (totalBlocks : Int) :
    AtaM (Int × List UInt8) := do
  outb 0x1F6 ((lba.sshiftRight 24 ||| 0xE0).setWidth 8)
  outb 0x1F2 (BitVec.ofInt 8 totalBlocks)
  outb 0x1F3 ((lba &&& 0xFF).setWidth 8)
  outb 0x1F4 ((lba.sshiftRight 8).setWidth 8)
  outb 0x1F5 ((lba.sshiftRight 16).setWidth 8)
  outb 0x1F7 0x20
  let bytes ← readBlocks readings totalBlocks.toNat
  pure (0, bytes)

/-- `disk` is the address of the one disk. -/
def diskReadBlock (readings disk idisk : Nat) (lba : BitVec 32) (total : Int) :
    AtaM (Int × List UInt8) :=
  if idisk ≠ disk then pure (-eio, []) else discReadSector readings lba total

end BoiOS
