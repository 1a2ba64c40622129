import SectorFS.Volume

namespace SectorFS

open Layout Operation

structure Creation where
  sector : UInt32
  header : Header
  /-- The table of a new directory. -/
  table? : Option Directory
  parentFile : File
  /-- The parent with the new entry in it. -/
  parent : Directory
  map : FreeMap

namespace Creation

def prepare (volume : Volume) (session : Session) (path : String) (kind : Kind) (size : Nat)
    (device : Device) : Except Error Creation := do
  let (parentSector, name) ← Volume.locate session path device
  let (parentFile, parent) ← device.openDirectory parentSector
  if (parent.find? name).isSome then throw (.alreadyExists name)
  let map ← volume.freeMap device
  match map.takeFirst? with
  | none => throw (.capacityExceeded .noFreeSector)
  | some (sector, map) =>
    let parent ← parent.add name sector kind
    let (header, map) ← map.allocate size
    let table? ← match kind with
      | .regular => pure none
      | .directory => some <$> Directory.linked directorySlots sector parentSector
    return { sector, header, table?, parentFile, parent, map }

/-- Writes the prepared file. The table of a new directory goes through its header, as it is on the
device by then. -/
def commit (creation : Creation) (freeMapFile : File) : Action Unit := do
  Action.writeHeader creation.header creation.sector
  match creation.table? with
  | none => pure ()
  | some table =>
    let file ← Action.query (·.openFile creation.sector)
    table.store file
  creation.parent.store creation.parentFile
  creation.map.store freeMapFile

end Creation

namespace Volume

def createEntry (volume : Volume) (session : Session) (path : String) (kind : Kind) (size : Nat) :
    Operation Unit :=
  noteFailure (.createFailed kind path) do
    let creation ← query (Creation.prepare volume session path kind size)
    note (.allocated size creation.header.dataSectors)
    act (creation.commit volume.freeMapFile)
    note (.created path creation.sector kind size)

/-- A regular file keeps the size it is created with. -/
def createFile (volume : Volume) (session : Session) (path : String) (size : Nat) :
    Operation Unit :=
  volume.createEntry session path .regular size

def createDirectory (volume : Volume) (session : Session) (path : String) : Operation Unit :=
  volume.createEntry session path .directory directoryFileSize

end Volume

end SectorFS
