import SectorFS.Directory
import SectorFS.File

namespace SectorFS

open Layout

namespace Directory

def size (directory : Directory) : Nat := directory.capacity * slotSize

def bytes (directory : Directory) : Bytes := directory.slots.flatMap Slot.encode

/-- Decodes the slots in order. From a slot that does not decode on, the old ones stay. -/
def decodeSlots (sector : UInt32) : List Slot → Bytes → List Slot × Except Error Unit
  | [], _ => ([], .ok ())
  | slot :: rest, bytes =>
    match Slot.decode sector (bytes.take slotSize) with
    | .error error => (slot :: rest, .error error)
    | .ok decoded =>
      let (more, outcome) := decodeSlots sector rest (bytes.drop slotSize)
      (decoded :: more, outcome)

def fetch (directory : Directory) (file : File) (device : Device) :
    Directory × Except Error Unit :=
  match file.read directory.size 0 device with
  | .error error => (directory, .error error)
  | .ok bytes =>
    if bytes.length = directory.size then
      let (slots, outcome) := decodeSlots file.sector directory.slots bytes
      (⟨slots⟩, outcome)
    else
      (directory,
        .error (.corruption file.sector (.directoryHolds bytes.length directory.size)))

def store (directory : Directory) (file : File) : Action Unit := do
  let took ← file.write directory.bytes 0
  if took = directory.size then pure ()
  else throw (.corruption file.sector (.directoryTakes took directory.size))

theorem length_bytes (directory : Directory) : directory.bytes.length = directory.size := by
  obtain ⟨slots⟩ := directory
  induction slots with
  | nil => rfl
  | cons slot rest ih =>
    simp only [bytes, size, capacity, List.flatMap_cons, List.length_append, Slot.length_encode,
      List.length_cons] at ih ⊢
    rw [ih, Nat.succ_mul, Nat.add_comm]

end Directory

def File.readDirectory (file : File) (device : Device) : Except Error Directory :=
  let (directory, outcome) := (Directory.empty directorySlots).fetch file device
  outcome.map fun _ ↦ directory

def Device.openDirectory (device : Device) (sector : UInt32) :
    Except Error (File × Directory) := do
  let file ← device.openFile sector
  return (file, ← file.readDirectory device)

end SectorFS
