import SectorFS.Machine
import SectorFS.Proofs.OpenTable
import SectorFS.Proofs.Volume

/-!
How the callers of a machine are to behave. Sessions start at the root and move by entering; data
are written through handles of regular files alone; a file is removed only while nobody uses it,
and a directory only when it is empty besides. All of this can be checked while a machine runs.
-/

namespace SectorFS

open Layout

def Volume.entryAt (session : Session) (path : String) (device : Device) : Except Error Entry := do
  let (parent, name) ← locate session path device
  let (_, directory) ← device.openDirectory parent
  match directory.find? name with
  | none => throw (.notFound name)
  | some entry => return entry

theorem Volume.entryAt_eq_ok_iff {session : Session} {path : String} {device : Device}
    {entry : Entry} : entryAt session path device = .ok entry ↔
    ∃ here name file table, locate session path device = .ok (here, name) ∧
      device.openDirectory here = .ok (file, table) ∧ table.find? name = some entry := by
  constructor
  · intro h
    obtain ⟨⟨here, name⟩, hlocate, h⟩ := bind_eq_ok.1 h
    obtain ⟨⟨file, table⟩, hopen, h⟩ := bind_eq_ok.1 h
    cases hfind : table.find? name with
    | none => simp only [hfind] at h; contradiction
    | some other =>
      simp only [hfind] at h
      cases h
      exact ⟨here, name, file, table, hlocate, hopen, hfind⟩
  · intro h
    obtain ⟨here, name, file, table, hlocate, hopen, hfind⟩ := h
    refine bind_eq_ok.2 ⟨(here, name), hlocate, bind_eq_ok.2 ⟨(file, table), hopen, ?_⟩⟩
    simp only [hfind]
    rfl

theorem Volume.entryAt_of_lookup {session : Session} {path : String} {device : Device} {s : UInt32}
    (h : lookup session path device = .ok s) :
    ∃ entry, entryAt session path device = .ok entry ∧ entry.sector = s := by
  obtain ⟨here, name, file, table, entry, hlocate, hopen, hfind, hs⟩ := lookup_eq_ok_iff.1 h
  exact ⟨entry, entryAt_eq_ok_iff.2 ⟨here, name, file, table, hlocate, hopen, hfind⟩, hs⟩

def Device.hasEmptyDirectory (device : Device) (sector : UInt32) : Bool :=
  match device.openDirectory sector with
  | .ok (_, table) => table.isEmpty
  | .error _ => false

namespace Machine

def opened? (machine : Machine) (handle : Nat) : Option OpenFile :=
  machine.volume?.bind fun volume ↦ volume.openTable.get? handle

def isOpen (machine : Machine) (sector : UInt32) : Bool :=
  machine.volume?.any fun volume ↦ (volume.openTable.handleOf? sector).isSome

def removal? (machine : Machine) : Request → Option Removal
  | .remove index path =>
    machine.sessions[index]?.bind fun session ↦
      (Removal.find session path machine.host.device).toOption
  | _ => none

def mayRemove (machine : Machine) (removal : Removal) : Bool :=
  !machine.isOpen removal.sector &&
    match (removal.parent.find? removal.name).map Entry.kind with
    | some .directory => machine.host.device.hasEmptyDirectory removal.sector &&
        machine.sessions.all fun session ↦ session.directory != removal.sector
    | _ => true

/-- Whether a caller who keeps the discipline may ask this; `regular` are the handles that were
last opened on regular files. -/
def admits (regular : List Nat) (machine : Machine) : Request → Bool
  | .format | .setDirectory .. => false
  | .addSession session => session.directory == rootSector
  | .call handle (.write _) | .call handle (.writeAt ..) => regular.contains handle
  | .remove index path => (machine.removal? (.remove index path)).all machine.mayRemove
  | _ => true

/-- The handles of regular files after a request and its answer. -/
def track (regular : List Nat) (machine : Machine) (request : Request)
    (answer : Except Failure Reply) : List Nat :=
  match request, answer with
  | .openFile index path, .ok (.number handle) =>
    let kind := machine.sessions[index]?.bind fun session ↦
      (Volume.entryAt session path machine.host.device).toOption.map Entry.kind
    if kind = some .regular then handle :: regular else regular.filter (· != handle)
  | _, _ => regular

def disciplined (regular : List Nat) (machine : Machine) : List Request → Bool
  | [] => true
  | request :: rest =>
    machine.admits regular request &&
      disciplined (machine.track regular request (step request machine).1)
        (step request machine).2 rest

theorem disciplined_cons {regular : List Nat} {machine : Machine} {request : Request}
    {rest : List Request} : disciplined regular machine (request :: rest) = true ↔
      machine.admits regular request = true ∧
        disciplined (machine.track regular request (step request machine).1)
          (step request machine).2 rest = true := by
  rw [disciplined, Bool.and_eq_true]

theorem disciplined_of_append {regular : List Nat} {machine : Machine} {requests rest : List Request}
    (h : disciplined regular machine (requests ++ rest) = true) :
    disciplined regular machine requests = true := by
  induction requests generalizing regular machine with
  | nil => rfl
  | cons request requests ih =>
    obtain ⟨hadmits, hrest⟩ := disciplined_cons.1 h
    exact disciplined_cons.2 ⟨hadmits, ih hrest⟩

end Machine

end SectorFS
