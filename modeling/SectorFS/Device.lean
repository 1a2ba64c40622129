import SectorFS.Error

namespace SectorFS

open Layout (sectorSize)

structure Block where
  bytes : Bytes
  length_bytes : bytes.length = sectorSize
  deriving DecidableEq, Repr

namespace Block

def zero : Block := ⟨Bytes.zeros sectorSize, Bytes.length_zeros _⟩

def overwrite (block : Block) (pos : Nat) (data : Bytes) : Block :=
  ⟨block.bytes.overwrite pos data, (Bytes.length_overwrite _ _ _).trans block.length_bytes⟩

end Block

/-- How a device misbehaves. A sector out of range is refused before any of this counts. -/
structure Faults where
  badReads : List UInt32 := []
  badWrites : List UInt32 := []
  /-- Writes still carried out; a write to one of `badWrites` does not use this up. -/
  writesLeft : Option Nat := none
  badFlush : Bool := false
  deriving DecidableEq, Repr

structure Device where
  /-- Number of sectors the device reports. -/
  sectorCount : Nat
  /-- Bytes in a sector, as the device reports it. -/
  bytesPerSector : Nat
  blocks : Array Block
  faults : Faults := {}
  /-- Sectors written so far, in order. -/
  written : List UInt32 := []
  /-- Number of successful flushes so far. -/
  flushes : Nat := 0
  deriving DecidableEq, Repr

/-- What may change the device. An action that fails keeps the changes it made before. -/
abbrev Action := ExceptT Error (StateM Device)

namespace Device

def blank (sectorCount bytesPerSector : Nat) : Device where
  sectorCount := sectorCount
  bytesPerSector := bytesPerSector
  blocks := Array.replicate sectorCount Block.zero

/-- A device that reports its size and stores nothing, so that no sector is in range. -/
def hollow (sectorCount : Nat) : Device where
  sectorCount := sectorCount
  bytesPerSector := sectorSize
  blocks := #[]

def read (device : Device) (sector : UInt32) : Except Error Block :=
  match device.blocks[sector.toNat]? with
  | none => .error (.invalidSector sector)
  | some block => if sector ∈ device.faults.badReads then .error (.device .read) else .ok block

def put (device : Device) (sector : UInt32) (block : Block) : Device :=
  { device with
    blocks := device.blocks.setIfInBounds sector.toNat block
    faults.writesLeft := device.faults.writesLeft.map (· - 1)
    written := device.written ++ [sector] }

def refusal? (device : Device) (sector : UInt32) : Option Error :=
  if device.blocks.size ≤ sector.toNat then some (.invalidSector sector)
  else if sector ∈ device.faults.badWrites ∨ device.faults.writesLeft = some 0 then
    some (.device .write)
  else none

end Device

namespace Action

def query {α : Type} (ask : Device → Except Error α) : Action α :=
  ExceptT.mk fun device ↦ (ask device, device)

def write (sector : UInt32) (block : Block) : Action Unit :=
  ExceptT.mk fun device ↦
    match device.refusal? sector with
    | some error => (.error error, device)
    | none => (.ok (), device.put sector block)

def flush : Action Unit :=
  ExceptT.mk fun device ↦
    if device.faults.badFlush then (.error (.device .flush), device)
    else (.ok (), { device with flushes := device.flushes + 1 })

end Action

end SectorFS
