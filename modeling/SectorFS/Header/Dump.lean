import SectorFS.Header
import SectorFS.Text.Quoted

namespace SectorFS.Header

open Layout (sectorSize)

def renderByte (byte : UInt8) : String :=
  if 0x20 ≤ byte ∧ byte ≤ 0x7e then (Char.ofUInt8 byte).toString
  else "\\" ++ Text.Quoted.hex byte.toNat

/-- The contents of the sectors, of which `remaining` bytes belong to the file. -/
def renderSectors (device : Device) : List UInt32 → (remaining : Nat) → Except Error String
  | [], _ => .ok ""
  | sector :: rest, remaining => do
    let block ← device.read sector
    let line := String.join ((block.bytes.take remaining).map renderByte)
    let lines ← renderSectors device rest (remaining - sectorSize)
    return line ++ "\n" ++ lines

def render (header : Header) (device : Device) : Except Error String := do
  let blocks := String.join (header.dataSectors.map fun s ↦ s!" {s.toNat}")
  let contents ← renderSectors device header.dataSectors header.length
  return s!"FileHeader contents. File size: {header.length}. File blocks:{blocks}\n"
    ++ "File contents:\n" ++ contents

end SectorFS.Header
