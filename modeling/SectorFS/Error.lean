import SectorFS.Bytes
import SectorFS.Layout
import SectorFS.Text.Quoted

namespace SectorFS

open Layout
open Text.Quoted (quote)

inductive Capacity
  | noFreeSector
  | directoryFull
  | fileTooLarge
  | openTableFull
  deriving DecidableEq, Repr

def Capacity.message : Capacity → String
  | .noFreeSector => "no free sectors"
  | .directoryFull => "directory full"
  | .fileTooLarge => "file too large"
  | .openTableFull => "open file table full"

inductive BadArgument
  | badNameLength (name : String)
  | reservedCharacter (name : String)
  | noFinalComponent (path : String)
  | cannotRemove (name : String)
  | emptyDirectoryName
  | geometry (numSectors sectorSize : Nat)
  | other (text : String)
  deriving DecidableEq, Repr

def BadArgument.message : BadArgument → String
  | .badNameLength name => s!"name {quote name} must be 1..={maxNameLength} bytes"
  | .reservedCharacter name => s!"name {quote name} contains a reserved character"
  | .noFinalComponent path => s!"path {quote path} has no final component"
  | .cannotRemove name => s!"cannot remove {quote name}"
  | .emptyDirectoryName => "empty directory name"
  | .geometry n size =>
    s!"device has {n} sectors of {size} bytes, need {Layout.numSectors} of {Layout.sectorSize}"
  | .other text => text

inductive Damage
  | shortHeader (length : Nat)
  | headerCounts (numBytes numSectors : Nat)
  | entryKind (code : UInt8)
  | mapHolds (got need : Nat)
  | mapTakes (got need : Nat)
  | directoryHolds (got need : Nat)
  | directoryTakes (got need : Nat)
  | sectorAlreadyFree
  | other (text : String)
  deriving DecidableEq, Repr

def Damage.message : Damage → String
  | .shortHeader n => s!"short header buffer ({n} bytes)"
  | .headerCounts n k => s!"header claims {n} bytes in {k} sectors"
  | .entryKind code => s!"unknown entry type {code.toNat}"
  | .mapHolds got need => s!"free map file holds {got} of {need} bytes"
  | .mapTakes got need => s!"free map file takes {got} of {need} bytes"
  | .directoryHolds got need => s!"directory file holds {got} of {need} bytes"
  | .directoryTakes got need => s!"directory file takes {got} of {need} bytes"
  | .sectorAlreadyFree => "data sector already free"
  | .other text => text

inductive DeviceFault
  | read
  | write
  | flush
  | other (text : String)
  deriving DecidableEq, Repr

def DeviceFault.message : DeviceFault → String
  | .read => "injected read fault"
  | .write => "injected write fault"
  | .flush => "injected flush fault"
  | .other text => text

inductive Error
  | invalidArgument (cause : BadArgument)
  | notFound (name : String)
  | alreadyExists (name : String)
  | capacityExceeded (bound : Capacity)
  | invalidHandle (handle : Nat)
  | notDirectory (name : String)
  | invalidSector (sector : UInt32)
  | corruption (sector : UInt32) (damage : Damage)
  | device (fault : DeviceFault)
  deriving DecidableEq, Repr

namespace Error

def message : Error → String
  | invalidArgument cause => s!"invalid argument: {cause.message}"
  | notFound name => s!"{name} not found"
  | alreadyExists name => s!"{name} already exists"
  | capacityExceeded bound => s!"capacity exceeded: {bound.message}"
  | invalidHandle handle => s!"invalid file handle {handle}"
  | notDirectory name => s!"{name} is not a directory"
  | invalidSector sector => s!"sector {sector.toNat} out of range"
  | corruption sector damage => s!"corrupt metadata at sector {sector.toNat}: {damage.message}"
  | device fault => s!"I/O error: {fault.message}"

def isDeviceFailure : Error → Bool
  | invalidSector _ | device _ => true
  | _ => false

end Error

end SectorFS
