import SectorFS.Directory.Dump
import SectorFS.FreeMap.Stored
import SectorFS.OpenTable
import SectorFS.Path

namespace SectorFS

open Layout Operation

structure Session where
  /-- Header sector of the directory that relative paths start from. -/
  directory : UInt32 := rootSector
  deriving DecidableEq, Repr

structure Volume where
  freeMapFile : File
  rootFile : File
  openTable : OpenTable
  deriving DecidableEq, Repr

namespace Volume

def freeMap (volume : Volume) (device : Device) : Except Error FreeMap :=
  FreeMap.load volume.freeMapFile device

def locate (session : Session) (path : String) (device : Device) :
    Except Error (UInt32 × String) := do
  let (parent, name) ← Path.splitParent path
  return (← Path.resolve session.directory parent device, name)

def lookup (session : Session) (path : String) (device : Device) : Except Error UInt32 := do
  let (parent, name) ← locate session path device
  let (_, directory) ← device.openDirectory parent
  match directory.find? name with
  | none => throw (.notFound name)
  | some entry => return entry.sector

def withTable {α : Type} (volume : Volume) (operation : OpenTable → Operation (α × OpenTable)) :
    Operation (α × Volume) := do
  let (a, openTable) ← operation volume.openTable
  return (a, { volume with openTable })

def openFile (volume : Volume) (session : Session) (path : String) : Operation (Nat × Volume) := do
  let sector ← noteFailure (.openFailed path) (query (lookup session path))
  volume.withTable fun table ↦ table.openFile path sector (query (·.openFile sector))

def enter (session : Session) (path : String) : Operation Session := do
  if path.isEmpty then throw (.invalidArgument .emptyDirectoryName)
  let sector ← noteFailure (.enterFailed path) (query (Path.resolve session.directory path))
  note (.entered path sector)
  return ⟨sector⟩

end Volume

end SectorFS
