import SectorFS.Volume

namespace SectorFS.Volume

open Layout Operation

def reservedMap : Except Error FreeMap := do
  (← (FreeMap.empty numSectors).mark freeMapSector).mark rootSector

def checkGeometry (device : Device) : Except Error Unit :=
  if numSectors ≤ device.sectorCount ∧ device.bytesPerSector = sectorSize then .ok ()
  else .error (.invalidArgument (.geometry device.sectorCount device.bytesPerSector))

def assemble (device : Device) : Except Error Volume := do
  let freeMapFile ← device.openFile freeMapSector
  let rootFile ← device.openFile rootSector
  return ⟨freeMapFile, rootFile, .empty maxOpenFiles⟩

/-- Lays out an empty volume. The headers go first, because the files are opened through them. -/
def format : Operation Volume := do
  note .formatting
  query checkGeometry
  let map ← query fun _ ↦ reservedMap
  let (mapHeader, map) ← allocate map freeMapFileSize
  let (rootHeader, map) ← allocate map directoryFileSize
  note .writingHeaders
  act (Action.writeHeader mapHeader freeMapSector)
  act (Action.writeHeader rootHeader rootSector)
  let volume ← query assemble
  let root ← query fun _ ↦ Directory.linked directorySlots rootSector rootSector
  note .writingTables
  act (map.store volume.freeMapFile)
  act (root.store volume.rootFile)
  act Action.flush
  note (.laidOut map)
  return volume

/-- Takes up the volume on the device, trusting what is stored there. -/
def mount : Operation Volume := do
  let volume ← query assemble
  note .mounted
  return volume

end SectorFS.Volume
