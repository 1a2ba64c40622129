import SectorFS.Volume.Create
import SectorFS.Volume.Format
import SectorFS.Volume.Remove
import SectorFS.Volume.Report

/-!
Runs. A machine is a device with its log, the volume in use on it, if there is one, and the sessions
of its callers. A request asks for one operation; `Machine.step` carries it out and answers.
-/

namespace SectorFS

inductive Request
  | format
  | mount
  | newSession
  | addSession (session : Session)
  | setDirectory (session : Nat) (sector : UInt32)
  | directory (session : Nat)
  | createFile (session : Nat) (path : String) (size : Nat)
  | createDirectory (session : Nat) (path : String)
  | openFile (session : Nat) (path : String)
  | call (handle : Nat) (call : HandleCall)
  | closeAll
  | isValid (handle : Nat)
  | remove (session : Nat) (path : String)
  | enter (session : Nat) (path : String)
  | list (session : Nat)
  | listRoot
  | print (session : Nat)
  | numFree
  | freeMap
  | openFiles
  | touch (change : String)
  | sync
  | geometry
  | resolve (start : UInt32) (path : String)
  deriving DecidableEq, Repr

inductive Reply
  | done
  | ofHandle (reply : HandleReply)
  | number (n : Nat)
  | flag (b : Bool)
  | sector (sector : UInt32)
  | entries (entries : List ListedEntry)
  | files (files : List ListedFile)
  | map (map : FreeMap)
  | text (text : String)
  | geometry (sectorCount bytesPerSector : Nat)
  deriving DecidableEq, Repr

inductive Failure
  | noVolume
  | noSession (session : Nat)
  | refused (error : Error)
  deriving DecidableEq, Repr

structure Machine where
  host : Host
  volume? : Option Volume := none
  sessions : Array Session := #[{}]
  deriving DecidableEq, Repr

namespace Machine

def start (device : Device) : Machine := { host := { device } }

abbrev Step := ExceptT Failure (StateM Machine)

namespace Step

variable {α : Type}

def operate (operation : Operation α) : Step α :=
  ExceptT.mk fun machine ↦
    let (outcome, host) := operation.run machine.host
    (outcome.mapError .refused, { machine with host })

def volume : Step Volume := do
  match (← get).volume? with
  | none => throw .noVolume
  | some volume => return volume

def session (index : Nat) : Step Session := do
  match (← get).sessions[index]? with
  | none => throw (.noSession index)
  | some session => return session

def setVolume (volume : Volume) : Step Unit :=
  modify fun machine ↦ { machine with volume? := some volume }

def operateOn (operation : Volume → Operation (α × Volume)) : Step α := do
  let (a, after) ← operate (operation (← volume))
  setVolume after
  return a

def addSession (session : Session) : Step Nat :=
  modifyGet fun machine ↦
    (machine.sessions.size, { machine with sessions := machine.sessions.push session })

def setSession (index : Nat) (session : Session) : Step Unit :=
  modify fun machine ↦ { machine with sessions := machine.sessions.setIfInBounds index session }

end Step

open Step

def answer : Request → Step Reply
  | .format => do
    setVolume (← operate Volume.format)
    return .done
  | .mount => do
    setVolume (← operate Volume.mount)
    return .done
  | .newSession => do
    let _ ← volume
    return .number (← addSession {})
  | .addSession session => return .number (← addSession session)
  | .setDirectory index sector => do
    let _ ← session index
    setSession index ⟨sector⟩
    return .done
  | .directory index => return .sector (← session index).directory
  | .createFile index path size => do
    operate ((← volume).createFile (← session index) path size)
    return .done
  | .createDirectory index path => do
    operate ((← volume).createDirectory (← session index) path)
    return .done
  | .openFile index path => do
    let _ ← volume
    let session ← session index
    return .number (← operateOn fun volume ↦ volume.openFile session path)
  | .call handle call =>
    return .ofHandle (← operateOn fun volume ↦ volume.withTable fun table ↦ table.call handle call)
  | .closeAll => return .number (← operateOn fun volume ↦ volume.withTable OpenTable.closeAll)
  | .isValid handle => return .flag ((← volume).openTable.isValid handle)
  | .remove index path => do
    operate ((← volume).remove (← session index) path)
    return .done
  | .enter index path => do
    let _ ← volume
    let moved ← operate (Volume.enter (← session index) path)
    setSession index moved
    return .sector moved.directory
  | .list index => do
    let _ ← volume
    return .entries (← operate (Volume.list (← session index)))
  | .listRoot => return .entries (← operate (Operation.query (← volume).listRoot))
  | .print index => return .text (← operate ((← volume).print (← session index)))
  | .numFree => return .number (← operate (Operation.query (← volume).numFree))
  | .freeMap => return .map (← operate (Operation.query (← volume).freeMap))
  | .openFiles => return .files (← volume).openTable.list
  | .touch change => return .files (← operate ((← volume).touch change))
  | .sync => do
    let _ ← volume
    operate (Operation.act Action.flush)
    return .done
  | .geometry => do
    let _ ← volume
    let device := (← get).host.device
    return .geometry device.sectorCount device.bytesPerSector
  | .resolve start path => return .sector (← operate (Operation.query (Path.resolve start path)))

def step (request : Request) (machine : Machine) : Except Failure Reply × Machine :=
  (answer request).run machine

/-- The answers to a list of requests, and the machine after them. A request that fails does not
stop the run. -/
def run : List Request → Machine → List (Except Failure Reply) × Machine
  | [], machine => ([], machine)
  | request :: rest, machine =>
    let (answer, machine) := step request machine
    let (answers, machine) := run rest machine
    (answer :: answers, machine)

end Machine

end SectorFS
