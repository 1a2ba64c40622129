import SectorFS.Proofs.Machine
import SectorFS.Proofs.OpenTable
import SectorFS.Proofs.Path
import SectorFS.Proofs.Volume.Create
import SectorFS.Proofs.Volume.Remove

namespace SectorFS

open Layout

namespace Path

variable {device : Device} {start other : UInt32} {path route top : String} {here : UInt32}

/-- Both paths have the same final component, and it is looked for in the same directory, or neither
path gets that far, for the same reason. -/
def Meet (device : Device) (start : UInt32) (path : String) (other : UInt32) (route : String) :
    Prop :=
  ∃ names others name, components path = names ++ [name] ∧ components route = others ++ [name] ∧
    walk device (origin other route) others = walk device (origin start path) names

theorem meet_of_components (habsolute : isAbsolute path = isAbsolute route)
    (hcomponents : components path = components route) (hne : components path ≠ [])
    (device : Device) (start : UInt32) : Meet device start path start route := by
  have hsplit := List.dropLast_concat_getLast hne
  refine ⟨_, _, _, hsplit.symm, hcomponents.symm.trans hsplit.symm, ?_⟩
  rw [origin_congr habsolute]

theorem meet_of_resolve (htop : isAbsolute top = true) (hhere : resolve start top device = .ok here)
    (hpath : isAbsolute path = false) (hne : components path ≠ []) (other : UInt32) :
    Meet device here path other (top ++ separator.toString ++ path) := by
  have hsplit := List.dropLast_concat_getLast hne
  refine ⟨_, components top ++ (components path).dropLast, _, hsplit.symm, ?_, ?_⟩
  · rw [components_append, List.append_assoc, hsplit]
  · rw [resolve_eq, origin, if_pos htop] at hhere
    rw [origin, if_pos (isAbsolute_append htop path), walk_append, hhere, origin_of_relative hpath]
    rfl

theorem Meet.resolve_eq (h : Meet device start path other route) :
    resolve other route device = resolve start path device := by
  obtain ⟨names, others, name, hpath, hroute, hwalk⟩ := h
  rw [Path.resolve_eq, Path.resolve_eq, hpath, hroute, walk_append, walk_append, hwalk]

theorem Meet.isEmpty_eq (h : Meet device start path other route) :
    path.isEmpty = false ∧ route.isEmpty = false := by
  obtain ⟨names, others, name, hpath, hroute, -⟩ := h
  exact ⟨isEmpty_of_components (by simp [hpath]), isEmpty_of_components (by simp [hroute])⟩

end Path

namespace Volume

variable {device : Device} {session other : Session} {path route : String} {volume : Volume}
  {host after : Host}

theorem locate_eq_of_meet (h : Path.Meet device session.directory path other.directory route) :
    locate other route device = locate session path device := by
  obtain ⟨names, others, name, hpath, hroute, hwalk⟩ := h
  rw [locate_of_components hpath, locate_of_components hroute, hwalk]

/-- Whatever is asked of the place that a path leads to is answered the same. -/
theorem lookup_eq_of_locate (h : locate other route device = locate session path device) :
    lookup other route device = lookup session path device := by
  rw [lookup, h, lookup]

theorem prepare_eq_of_locate (h : locate other route device = locate session path device)
    (volume : Volume) (kind : Kind) (size : Nat) :
    Creation.prepare volume other route kind size device =
      Creation.prepare volume session path kind size device := by
  rw [Creation.prepare, h, Creation.prepare]

theorem find_eq_of_locate (h : locate other route device = locate session path device) :
    Removal.find other route device = Removal.find session path device := by
  rw [Removal.find, h, Removal.find]

theorem run_creating_eq_of_locate (h : locate other route device = locate session path device)
    (volume : Volume) (kind : Kind) (size : Nat) :
    (volume.creating other route kind size).run device =
      (volume.creating session path kind size).run device := by
  rw [creating, run_bind, creating, run_bind, Action.run_query (prepare_eq_of_locate h _ _ _),
    Action.run_query rfl]

theorem run_removing_eq_of_locate (h : locate other route device = locate session path device)
    (volume : Volume) :
    (volume.removing other route).run device = (volume.removing session path).run device := by
  rw [removing, run_bind, removing, run_bind, Action.run_query (find_eq_of_locate h),
    Action.run_query rfl]

open Operation

def binding (volume : Volume) (handle : Nat) (sector : UInt32) (path : String) (file : File) :
    Volume :=
  { volume with
    openTable := volume.openTable.set handle (some ⟨sector, OpenTable.keptName path, 0, file⟩) }

/-- What opening a file leaves of a volume under one path and under another: the volume itself, or
in each the same file in the same slot that was free, called after the path. -/
inductive Opens (volume : Volume) (path route : String) : Volume → Volume → Prop
  | kept : Opens volume path route volume volume
  | bound {handle : Nat} (hfree : volume.openTable.get? handle = none) (sector : UInt32)
      (file : File) : Opens volume path route (volume.binding handle sector path file)
        (volume.binding handle sector route file)

theorem run_openFile (volume : Volume) (session : Session) (path : String) (host : Host) :
    (volume.openFile session path).run host = match lookup session path host.device with
      | .error error => (.error error, { host with log := host.log ++ [.openFailed path error] })
      | .ok sector =>
        match (volume.openTable.openFile path sector (query (·.openFile sector))).run host with
        | (.error error, after) => (.error error, after)
        | (.ok (handle, openTable), after) => (.ok (handle, { volume with openTable }), after) := by
  rw [openFile, run_bind, run_noteFailure, run_query]
  cases lookup session path host.device with
  | error error => rfl
  | ok sector =>
    dsimp only
    rw [withTable, run_bind]
    cases (volume.openTable.openFile path sector (query (·.openFile sector))).run host with
    | mk outcome after => cases outcome <;> rfl

/-- Under both paths the same file is opened, or neither path opens one. -/
theorem run_openFile_of_lookup
    (h : lookup other route host.device = lookup session path host.device) (volume : Volume) :
    (∃ error log noted,
        (volume.openFile session path).run host = (.error error, ⟨host.device, log⟩) ∧
        (volume.openFile other route).run host = (.error error, ⟨host.device, noted⟩)) ∨
      ∃ handle left right log noted, volume.Opens path route left right ∧
        (volume.openFile session path).run host = (.ok (handle, left), ⟨host.device, log⟩) ∧
        (volume.openFile other route).run host = (.ok (handle, right), ⟨host.device, noted⟩) := by
  rw [run_openFile, run_openFile, h]
  cases lookup session path host.device with
  | error error => exact .inl ⟨error, _, _, rfl, rfl⟩
  | ok sector =>
    cases hbound : volume.openTable.handleOf? sector with
    | some handle =>
      simp only [OpenTable.openFile, hbound]
      exact .inr ⟨handle, volume, volume, _, _, .kept, rfl, rfl⟩
    | none =>
      cases hfree : volume.openTable.firstFree? with
      | none =>
        simp only [OpenTable.openFile, hbound, hfree]
        exact .inl ⟨_, _, _, rfl, rfl⟩
      | some handle =>
        simp only [OpenTable.openFile, hbound, hfree, run_bind, run_query]
        cases host.device.openFile sector with
        | error error => exact .inl ⟨error, _, _, rfl, rfl⟩
        | ok file =>
          exact .inr ⟨handle, _, _, _, _, .bound (OpenTable.get?_of_firstFree? hfree) sector file,
            rfl, rfl⟩

theorem run_enter (session : Session) {path : String} (hne : path.isEmpty = false) (host : Host) :
    (enter session path).run host = match Path.resolve session.directory path host.device with
      | .error error => (.error error, { host with log := host.log ++ [.enterFailed path error] })
      | .ok here => (.ok ⟨here⟩, { host with log := host.log ++ [.entered path here] }) := by
  simp only [enter, hne, Bool.false_eq_true, if_false, run_bind, run_noteFailure, run_query]
  cases Path.resolve session.directory path host.device <;> rfl

theorem run_enter_of_meet (h : Path.Meet host.device session.directory path other.directory route) :
    (∃ error log noted, (enter session path).run host = (.error error, ⟨host.device, log⟩) ∧
        (enter other route).run host = (.error error, ⟨host.device, noted⟩)) ∨
      ∃ here log noted, (enter session path).run host = (.ok ⟨here⟩, ⟨host.device, log⟩) ∧
        (enter other route).run host = (.ok ⟨here⟩, ⟨host.device, noted⟩) := by
  obtain ⟨hpath, hroute⟩ := h.isEmpty_eq
  rw [run_enter session hpath, run_enter other hroute, h.resolve_eq]
  cases Path.resolve session.directory path host.device with
  | error error => exact .inl ⟨error, _, _, rfl, rfl⟩
  | ok here => exact .inr ⟨here, _, _, rfl, rfl⟩

end Volume

inductive Errand
  | createFile (size : Nat)
  | createDirectory
  | openFile
  | remove
  | enter

def Errand.request (session : Nat) (path : String) : Errand → Request
  | createFile size => .createFile session path size
  | createDirectory => .createDirectory session path
  | openFile => .openFile session path
  | remove => .remove session path
  | enter => .enter session path

namespace Machine

def movedBy (sessions : Array Session) (index : Nat) : Except Failure Reply → Array Session
  | .ok (.sector here) => sessions.setIfInBounds index ⟨here⟩
  | _ => sessions

/-- What comes of an errand from one session along `path` and from another along `route`: the same
answer and the same device, and no volume is changed except by opening a file. -/
structure Concur (machine : Machine) (errand : Errand) (index : Nat) (path : String) (other : Nat)
    (route : String) (left right : Except Failure Reply × Machine) : Prop where
  answer : right.1 = left.1
  device : right.2.host.device = left.2.host.device
  volume : left.2.volume? = machine.volume? ∧ right.2.volume? = machine.volume? ∨
    errand = .openFile ∧ ∃ volume opened opened', machine.volume? = some volume ∧
      left.2.volume? = some opened ∧ right.2.volume? = some opened' ∧
      volume.Opens path route opened opened'
  sessions : left.2.sessions = movedBy machine.sessions index left.1
  sessions' : right.2.sessions = movedBy machine.sessions other right.1

variable {machine : Machine} {errand : Errand} {index other : Nat} {path route : String}
  {session session' : Session}

theorem concur_onTree {operation operation' : Volume → Session → Operation Unit}
    {action action' : Volume → Action Unit} (hs : machine.sessions[index]? = some session)
    (hs' : machine.sessions[other]? = some session')
    (hacts : ∀ volume, (operation volume session).ActsAs (action volume))
    (hacts' : ∀ volume, (operation' volume session').ActsAs (action' volume))
    (hsame : ∀ volume, (action' volume).run machine.host.device =
      (action volume).run machine.host.device) :
    machine.Concur errand index path other route ((Step.onTree index operation).run machine)
      ((Step.onTree other operation').run machine) := by
  obtain ⟨host, volume?, sessions⟩ := machine
  dsimp only at hs hs' hsame
  rw [Step.run_onTree, Step.run_onTree]
  dsimp only
  rw [hs, hs']
  cases volume? with
  | none => exact ⟨rfl, rfl, .inl ⟨rfl, rfl⟩, rfl, rfl⟩
  | some volume =>
    have hdone := hacts' volume host
    rw [hsame volume, hacts volume host] at hdone
    obtain ⟨hanswer, hdevice⟩ := Prod.mk.inj hdone
    dsimp only
    rw [← hanswer]
    cases ((operation volume session).run host).1 with
    | error error => exact ⟨rfl, hdevice.symm, .inl ⟨rfl, rfl⟩, rfl, rfl⟩
    | ok done => exact ⟨rfl, hdevice.symm, .inl ⟨rfl, rfl⟩, rfl, rfl⟩

theorem concur_openFile (hs : machine.sessions[index]? = some session)
    (hs' : machine.sessions[other]? = some session')
    (h : Volume.lookup session' route machine.host.device =
      Volume.lookup session path machine.host.device) :
    machine.Concur .openFile index path other route (step (.openFile index path) machine)
      (step (.openFile other route) machine) := by
  obtain ⟨host, volume?, sessions⟩ := machine
  dsimp only at hs hs' h
  rw [step_openFile, step_openFile]
  dsimp only
  rw [hs, hs']
  cases volume? with
  | none => exact ⟨rfl, rfl, .inl ⟨rfl, rfl⟩, rfl, rfl⟩
  | some volume =>
    rcases Volume.run_openFile_of_lookup h volume with
      ⟨error, log, noted, hleft, hright⟩ | ⟨handle, left, right, log, noted, hopens, hleft, hright⟩
    · simp only [hleft, hright]
      exact ⟨rfl, rfl, .inl ⟨rfl, rfl⟩, rfl, rfl⟩
    · simp only [hleft, hright]
      exact ⟨rfl, rfl, .inr ⟨rfl, volume, left, right, rfl, rfl, rfl, hopens⟩, rfl, rfl⟩

theorem concur_enter (hs : machine.sessions[index]? = some session)
    (hs' : machine.sessions[other]? = some session')
    (h : Path.Meet machine.host.device session.directory path session'.directory route) :
    machine.Concur .enter index path other route (step (.enter index path) machine)
      (step (.enter other route) machine) := by
  obtain ⟨host, volume?, sessions⟩ := machine
  dsimp only at hs hs' h
  rw [step_enter, step_enter]
  dsimp only
  rw [hs, hs']
  cases volume? with
  | none => exact ⟨rfl, rfl, .inl ⟨rfl, rfl⟩, rfl, rfl⟩
  | some volume =>
    rcases Volume.run_enter_of_meet h with
      ⟨error, log, noted, hleft, hright⟩ | ⟨here, log, noted, hleft, hright⟩
    · simp only [hleft, hright]
      exact ⟨rfl, rfl, .inl ⟨rfl, rfl⟩, rfl, rfl⟩
    · simp only [hleft, hright]
      exact ⟨rfl, rfl, .inl ⟨rfl, rfl⟩, rfl, rfl⟩

/-- Paths that meet serve for the same errands. -/
theorem concur_of_meet (hs : machine.sessions[index]? = some session)
    (hs' : machine.sessions[other]? = some session')
    (h : Path.Meet machine.host.device session.directory path session'.directory route)
    (errand : Errand) :
    machine.Concur errand index path other route (step (errand.request index path) machine)
      (step (errand.request other route) machine) := by
  have hlocate := Volume.locate_eq_of_meet h
  have hcreate (errand : Errand) (kind : Kind) (size : Nat) :
      machine.Concur errand index path other route
        ((Step.onTree index fun volume session ↦
          volume.createEntry session path kind size).run machine)
        ((Step.onTree other fun volume session ↦
          volume.createEntry session route kind size).run machine) :=
    concur_onTree hs hs' (fun volume ↦ volume.actsAs_createEntry session path kind size)
      (fun volume ↦ volume.actsAs_createEntry session' route kind size)
      fun volume ↦ Volume.run_creating_eq_of_locate hlocate volume kind size
  cases errand with
  | createFile size => exact hcreate _ .regular size
  | createDirectory => exact hcreate _ .directory directoryFileSize
  | remove =>
    exact concur_onTree hs hs' (fun volume ↦ volume.actsAs_remove session path)
      (fun volume ↦ volume.actsAs_remove session' route)
      fun volume ↦ Volume.run_removing_eq_of_locate hlocate volume
  | openFile => exact concur_openFile hs hs' (Volume.lookup_eq_of_locate hlocate)
  | enter => exact concur_enter hs hs' h

/-- Only the components of a path count, and whether it is absolute. A path from a session's
directory serves for the same errands as its continuation of any absolute path to that directory. -/
theorem concur_of_components (machine : Machine) (errand : Errand)
    (hs : machine.sessions[index]? = some session) :
    (∀ path route, Path.isAbsolute path = Path.isAbsolute route →
      Path.components path = Path.components route → Path.components path ≠ [] →
      machine.Concur errand index path index route (step (errand.request index path) machine)
        (step (errand.request index route) machine)) ∧
    ∀ top start path, Path.isAbsolute top = true →
      Path.resolve start top machine.host.device = .ok session.directory →
      Path.isAbsolute path = false → Path.components path ≠ [] →
      ∀ other session', machine.sessions[other]? = some session' →
        machine.Concur errand index path other (top ++ separator.toString ++ path)
          (step (errand.request index path) machine)
          (step (errand.request other (top ++ separator.toString ++ path)) machine) := by
  constructor
  · intro path route habsolute hcomponents hne
    exact concur_of_meet hs hs (Path.meet_of_components habsolute hcomponents hne _ _) errand
  · intro top start path htop hhere hpath hne other session' hs'
    exact concur_of_meet hs hs' (Path.meet_of_resolve htop hhere hpath hne _) errand

theorem concur_of_components_nested :
    let machine := (run [.format, .createDirectory 0 "a", .createDirectory 0 "a/b",
      .addSession ⟨8⟩] (start (.blank 1024 128))).2
    (step (.createFile 1 "./c/" 5) machine).1 = .ok .done ∧
      machine.Concur (.createFile 5) 1 "./c/" 1 ".//c" (step (.createFile 1 "./c/" 5) machine)
        (step (.createFile 1 ".//c" 5) machine) ∧
      machine.Concur (.createFile 5) 1 "./c/" 0 "/a//b/./c/"
        (step (.createFile 1 "./c/" 5) machine) (step (.createFile 0 "/a//b/./c/" 5) machine) := by
  intro machine
  obtain ⟨hs, hroot, hhere, hdone⟩ : machine.sessions[1]? = some ⟨8⟩ ∧
      machine.sessions[0]? = some ⟨rootSector⟩ ∧
      Path.resolve rootSector "/a//b" machine.host.device = .ok 8 ∧
      (step (.createFile 1 "./c/" 5) machine).1 = .ok .done := by decide +kernel
  obtain ⟨hspelled, hcontinued⟩ := concur_of_components machine (.createFile 5) hs
  refine ⟨hdone, hspelled _ _ ?_ ?_ ?_, hcontinued "/a//b" _ "./c/" ?_ hhere ?_ ?_ _ _ hroot⟩
  all_goals decide +kernel

end Machine

end SectorFS
