import SectorFS.Volume

namespace SectorFS

open Layout Operation

structure Removal where
  name : String
  sector : UInt32
  parentFile : File
  parent : Directory

namespace Removal

def find (session : Session) (path : String) (device : Device) : Except Error Removal := do
  let (parentSector, name) ← Volume.locate session path device
  if name = dot ∨ name = dotDot then throw (.invalidArgument (.cannotRemove name))
  let (parentFile, parent) ← device.openDirectory parentSector
  match parent.find? name with
  | none => throw (.notFound name)
  | some entry => return ⟨name, entry.sector, parentFile, parent⟩

def prepare (removal : Removal) (volume : Volume) (device : Device) :
    Except Error (FreeMap × Directory) := do
  let header ← device.readHeader removal.sector
  let map ← (← (← volume.freeMap device).release header).clear removal.sector
  return (map, ← removal.parent.remove removal.name)

end Removal

def Volume.remove (volume : Volume) (session : Session) (path : String) : Operation Unit :=
  noteFailure (.removeFailed path) do
    let removal ← query (Removal.find session path)
    if volume.openTable.handleOf? removal.sector |>.isSome then note (.removingOpen path)
    let (map, parent) ← query (removal.prepare volume)
    act (map.store volume.freeMapFile)
    act (parent.store removal.parentFile)
    note (.removed path removal.sector)

end SectorFS
