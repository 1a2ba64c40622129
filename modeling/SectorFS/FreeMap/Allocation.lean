import SectorFS.FreeMap
import SectorFS.Header

namespace SectorFS

open Layout

def Header.ofSectors (numBytes : Nat) (sectors : List UInt32) (h : sectors.length ≤ numDirect) :
    Header where
  numBytes := UInt32.ofNat numBytes
  numSectors := UInt32.ofNat sectors.length
  slots := sectors ++ List.replicate (numDirect - sectors.length) 0
  length_slots := by
    rw [List.length_append, List.length_replicate, Nat.add_sub_cancel' h]

namespace FreeMap

def allocate (map : FreeMap) (numBytes : Nat) : Except Error (Header × FreeMap) :=
  if hsize : numBytes ≤ maxFileSize then
    if map.numFree < sectorsFor numBytes then .error (.capacityExceeded .noFreeSector)
    else
      let taken := map.firstFree (sectorsFor numBytes)
      .ok (.ofSectors numBytes taken
        (Nat.le_trans (map.length_firstFree_le _) (sectorsFor_le hsize)), taken.foldl insert map)
  else .error (.capacityExceeded .fileTooLarge)

/-- The map with the data sectors of a header freed. A sector that is free already is damage. -/
def release (map : FreeMap) (header : Header) : Except Error FreeMap :=
  match header.dataSectors.find? fun s ↦ !map.used s with
  | some sector => .error (.corruption sector .sectorAlreadyFree)
  | none => .ok (header.dataSectors.foldl erase map)

end FreeMap

end SectorFS
