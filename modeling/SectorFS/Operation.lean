import SectorFS.Event
import SectorFS.FreeMap.Allocation

/-!
Operations: what may change the device and add to the log. An operation is built of questions to
the device, which change nothing, of actions on it, and of notes in the log. One that fails keeps
what it changed and noted before.
-/

namespace SectorFS

structure Host where
  device : Device
  log : List Event := []
  deriving DecidableEq, Repr

abbrev Operation := ExceptT Error (StateM Host)

namespace Operation

variable {α : Type}

def query (ask : Device → Except Error α) : Operation α :=
  ExceptT.mk fun host ↦ (ask host.device, host)

def act (action : Action α) : Operation α :=
  ExceptT.mk fun host ↦
    let (outcome, device) := action.run host.device
    (outcome, { host with device })

def notes (events : List Event) : Operation Unit :=
  ExceptT.mk fun host ↦ (.ok (), { host with log := host.log ++ events })

def note (event : Event) : Operation Unit := notes [event]

def noteFailure (event : Error → Event) (operation : Operation α) : Operation α :=
  ExceptT.mk fun host ↦
    match operation.run host with
    | (.ok a, after) => (.ok a, after)
    | (.error error, after) => (.error error, { after with log := after.log ++ [event error] })

def allocate (map : FreeMap) (numBytes : Nat) : Operation (Header × FreeMap) := do
  let (header, map) ← query fun _ ↦ map.allocate numBytes
  note (.allocated numBytes header.dataSectors)
  return (header, map)

end Operation

end SectorFS
