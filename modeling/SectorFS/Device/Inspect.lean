import SectorFS.Device

namespace SectorFS.Device

open Layout (sectorSize)

def bytes (device : Device) : Bytes := device.blocks.toList.flatMap Block.bytes

/-- `data` laid over the bytes of the device from position `pos` on. Of the two subtractions at
most one is not zero: a block starts before `pos` or at some place inside `data`. -/
def patch (device : Device) (pos : Nat) (data : Bytes) : Device :=
  { device with
    blocks := device.blocks.mapIdx fun i block ↦
      block.overwrite (pos - sectorSize * i) (data.drop (sectorSize * i - pos)) }

/-- The 32-bit FNV-1a hash of all bytes: each is mixed in by exclusive or, then by a product with
the prime of that hash. -/
def digest (device : Device) : UInt32 :=
  device.blocks.foldl (fun hash block ↦
    block.bytes.foldl (fun hash byte ↦ (hash ^^^ byte.toUInt32) * 0x01000193) hash) 0x811c9dc5

end SectorFS.Device
