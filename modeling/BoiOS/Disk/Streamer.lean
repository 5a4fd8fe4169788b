import BoiOS.Kernel.State

/-! The byte streams of disk/streamer.c. A stream is its position on the one disk; the drive
answers every request, so that a read has no error of its own. -/
namespace BoiOS

def boiosSectorSize : Int := 512

def diskstreamerSeek (stream : Nat) (position : Int) : KernelM Int := do
  let k ← get
  let _ ← fetch (k.streams stream)
  modify fun k => { k with streams := Function.update k.streams stream (some position) }
  pure allOk

/-- The bytes `buf[offset]` on, after the sector was read into `buf`; the buffer is one sector. -/
def sectorBytes (disk : Disk) (sector offset total : Int) : KernelM (List UInt8) :=
  if 0 < total ∧ (offset < 0 ∨ boiosSectorSize < offset + total) then throw .faulted
  else pure ((List.range total.toNat).map fun i => disk.sectors (u32 sector) (offset.toNat + i))

/-- `diskstreamer_read`: the status, and the bytes it stores from `out` on. Each round but the
last takes at least one byte, so that a fuel of one more than the total is enough. -/
def diskstreamerReadLoop : (fuel : Nat) → (stream : Nat) → (total : Int) →
    KernelM (Int × List UInt8)
  | 0, _, _ => throw .faulted
  | fuel + 1, stream, total => do
      let k ← get
      let position ← fetch (k.streams stream)
      let sector := position.tdiv boiosSectorSize
      let offset := position.tmod boiosSectorSize
      let reach := i32 (offset + total)
      let totalToRead := if reach ≥ boiosSectorSize then total - (reach - boiosSectorSize) else total
      let bytes ← sectorBytes k.disk sector offset totalToRead
      modify fun k =>
        { k with
          streams := Function.update k.streams stream (some (i32 (position + totalToRead))) }
      if reach ≥ boiosSectorSize then do
        let (response, rest) ← diskstreamerReadLoop fuel stream (total - totalToRead)
        pure (response, bytes ++ rest)
      else pure (allOk, bytes)

def diskstreamerRead (stream : Nat) (total : Int) : KernelM (Int × List UInt8) :=
  diskstreamerReadLoop (total.toNat + 1) stream total

end BoiOS
