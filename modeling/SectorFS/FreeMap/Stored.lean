import SectorFS.File
import SectorFS.FreeMap

namespace SectorFS.FreeMap

/-- Reads the map from its file. A failed attempt leaves the bytes read so far in the map. -/
def fetch (map : FreeMap) (file : File) (device : Device) : FreeMap × Except Error Unit :=
  let (bytes, stop) := device.gather (file.spans 0 map.size)
  (map.overlay bytes,
    match stop with
    | some error => .error error
    | none =>
      if bytes.length = map.size then .ok ()
      else .error (.corruption file.sector (.mapHolds bytes.length map.size)))

def load (file : File) (device : Device) : Except Error FreeMap :=
  let (map, outcome) := (empty Layout.numSectors).fetch file device
  outcome.map fun _ ↦ map

/-- Writes as much of the map as its file has room for, which has to be all of it. -/
def store (map : FreeMap) (file : File) : Action Unit := do
  let took ← file.write (map.firstBytes file.length) 0
  if took = map.size then pure () else throw (.corruption file.sector (.mapTakes took map.size))

end SectorFS.FreeMap
