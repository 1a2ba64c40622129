import SectorFS.Volume

namespace SectorFS.Volume

open Operation

def list (session : Session) : Operation (List ListedEntry) := do
  let (_, directory) ← query (·.openDirectory session.directory)
  notes (directory.list.map fun entry ↦ .listed entry.name)
  return directory.list

def listRoot (volume : Volume) (device : Device) : Except Error (List ListedEntry) := do
  return (← volume.rootFile.readDirectory device).list

def render (volume : Volume) (session : Session) (device : Device) : Except Error String := do
  let mapFile ← volume.freeMapFile.header.render device
  let directoryFile ← (← device.readHeader session.directory).render device
  let map ← volume.freeMap device
  let (_, directory) ← device.openDirectory session.directory
  let table ← directory.render device
  return "Bit map file header:\n" ++ mapFile ++ "Directory file header:\n" ++ directoryFile ++
    map.render ++ "\n" ++ table

def print (volume : Volume) (session : Session) : Operation String := do
  let text ← query (volume.render session)
  note (.printed text)
  return text

def numFree (volume : Volume) (device : Device) : Except Error Nat := do
  return (← volume.freeMap device).numFree

def touch (volume : Volume) (change : String) : Operation (List ListedFile) := do
  let files := volume.openTable.list
  note (.touching change)
  notes (files.map fun file ↦ .wouldModify file.name file.handle)
  return files

end SectorFS.Volume
