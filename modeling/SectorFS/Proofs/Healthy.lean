import SectorFS.Proofs.Creating
import SectorFS.Proofs.Linkage
import SectorFS.Proofs.Removing
import SectorFS.Proofs.Volume.Report

namespace SectorFS

open Layout Operation

def Error.tellsDamage : Error → Bool
  | corruption .. => true
  | error => error.isDeviceFailure

def Undamaged {α : Type} (x : Except Error α) : Prop :=
  ∀ error, x = .error error → error.tellsDamage = false

section Undamaged

variable {α β : Type} {x : Except Error α} {demands : List Demand}

theorem undamaged_of_exists (h : ∃ a, x = .ok a) : Undamaged x := by
  obtain ⟨a, rfl⟩ := h
  exact nofun

theorem undamaged_of_map {f : α → β} (h : Undamaged (x.map f)) : Undamaged x := by
  intro error hx
  exact h error (by rw [hx]; rfl)

theorem undamaged_run_bind {operation : Operation α} {f : α → Operation β} {host : Host}
    (h : Undamaged (operation.run host).1)
    (h' : ∀ a after, operation.run host = (.ok a, after) → Undamaged ((f a).run after).1) :
    Undamaged ((operation >>= f).run host).1 := by
  rw [run_bind]
  cases hrun : operation.run host with
  | mk outcome after =>
    rw [hrun] at h
    cases outcome with
    | error error =>
      rintro _ ⟨⟩
      exact h error rfl
    | ok a => exact h' a after hrun

theorem undamaged_query {ask : Device → Except Error α} {host : Host}
    (h : Undamaged (ask host.device)) :
    Undamaged ((query ask).run host).1 := h

theorem undamaged_noteFailure {operation : Operation α} {host : Host}
    (h : Undamaged (operation.run host).1) (event : Error → Event) :
    Undamaged ((noteFailure event operation).run host).1 := by
  rw [run_noteFailure]
  cases hrun : operation.run host with
  | mk outcome after =>
    rw [hrun] at h
    cases outcome with
    | error error =>
      rintro _ ⟨⟩
      exact h error rfl
    | ok a => exact nofun

theorem of_run_noteFailure_query {event : Error → Event} {ask : Device → Except Error α} {a : α}
    {host after : Host} (h : (noteFailure event (query ask)).run host = (.ok a, after)) :
    ask host.device = .ok a ∧ after = host := by
  rw [run_noteFailure, run_query] at h
  cases hask : ask host.device with
  | error error =>
    rw [hask] at h
    cases congrArg Prod.fst h
  | ok b =>
    rw [hask] at h
    cases h
    exact ⟨rfl, rfl⟩

theorem Demand.undamaged_check (h : ∀ demand ∈ demands, demand.error.tellsDamage = false) :
    Undamaged (check demands) := by
  intro error hcheck
  obtain ⟨before, rest, rfl, -⟩ := check_eq_error_iff.1 hcheck
  exact h ⟨false, error⟩ (by simp)

theorem Path.Stops.undamaged {device : Device} {start : UInt32} {names : List String} {error : Error}
    (h : Path.Stops device start names error) : error.tellsDamage = false := by
  obtain ⟨-, -, -, -, -, -, -, -, ⟨-, rfl⟩ | ⟨-, -, -, rfl⟩⟩ := h
  · rfl
  · rfl

end Undamaged

namespace Volume

variable {volume : Volume} {tree : Tree} {session : Session} {path : String} {device : Device}
  {host : Host} {demands : Directory → FreeMap → String → List Demand}

theorem Answers.undamaged {answer : Except Error Unit} (h : Answers demands session path device answer)
    (hdemands : ∀ table map name, ∀ demand ∈ demands table map name,
      demand.error.tellsDamage = false) : Undamaged answer := by
  intro error hanswer
  rcases List.eq_nil_or_concat (Path.components path) with hnone | ⟨names, name, hcomponents⟩
  · cases hanswer.symm.trans (h.nameless hnone)
    rfl
  · rw [List.concat_eq_append] at hcomponents
    cases hwalk : Path.walk device (Path.origin session.directory path) names with
    | error lost =>
      obtain ⟨hlost, hstops⟩ := h.lost names name lost hcomponents hwalk
      cases hanswer.symm.trans hlost
      exact hstops.undamaged
    | ok here =>
      obtain ⟨table, map, -, -, hcheck⟩ := h.decided names name here hcomponents hwalk
      exact Demand.undamaged_check (hdemands table map name) error (hcheck.symm.trans hanswer)

section Settled

variable (h : volume.Settled tree device) (hsession : device.Reaches session.directory)
include h hsession

theorem Settled.undamaged_resolve (path : String) :
    Undamaged (Path.resolve session.directory path device) := by
  obtain ⟨up, hup⟩ := h.stored.reaches_iff.1 hsession
  obtain ⟨above, hdir⟩ := Tree.hasDirectory_origin hup path
  rw [Path.resolve_eq]
  rcases h.stored.walk_cases hdir (Path.components path) with
    ⟨here, -, hok, -⟩ | ⟨lost, hlost, hstops⟩
  · exact undamaged_of_exists ⟨here, hok⟩
  · intro error herror
    cases herror.symm.trans hlost
    exact hstops.undamaged

theorem Settled.undamaged_lookup (path : String) : Undamaged (lookup session path device) := by
  have hasks : Answers (fun table _ name ↦ [⟨(table.find? name).isSome, .notFound name⟩]) session
      path device ((lookup session path device).map fun _ ↦ ()) := by
    apply h.answers hsession
    · intro error hlocate
      rw [lookup, hlocate]
      rfl
    · intro here name file table map hlocate _ hopen _
      simp only [lookup, hlocate, hopen, bind, Except.bind]
      cases table.find? name <;> rfl
  exact undamaged_of_map (hasks.undamaged (by simp [Error.tellsDamage, Error.isDeviceFailure]))

theorem Settled.undamaged_find (path : String) : Undamaged (Removal.find session path device) := by
  have hasks : Answers (fun table _ name ↦ Removal.demands table name) session path device
      ((Removal.find session path device).map fun _ ↦ ()) := by
    apply h.answers hsession
    · intro error hlocate
      rw [Removal.find, hlocate]
      rfl
    · intro here name file table map hlocate _ hopen _
      exact Removal.governs_find hlocate hopen
  exact undamaged_of_map (hasks.undamaged
    (by simp [Removal.demands, Error.tellsDamage, Error.isDeviceFailure]))

end Settled

section Settled

variable (h : volume.Settled tree host.device) (hsession : host.device.Reaches session.directory)
include h hsession

theorem Settled.undamaged_createEntry (path : String) {kind : Kind} {size : Nat}
    (hsized : kind = .directory → size = directoryFileSize) :
    Undamaged ((volume.createEntry session path kind size).run host).1 :=
  (h.creates_entry hsession path hsized).answers.undamaged
    (by simp [Creation.demands, Error.tellsDamage, Error.isDeviceFailure])

theorem Settled.undamaged_remove (path : String) :
    Undamaged ((volume.remove session path).run host).1 := by
  rcases h.removing_cases hsession path with ⟨lost, hfind, hrun⟩ |
    ⟨removal, here, entry, after, -, hrun, -⟩
  · rw [((volume.actsAs_remove session path).eq_of_run hrun).1]
    rintro _ ⟨⟩
    exact h.undamaged_find hsession path _ hfind
  · exact undamaged_of_exists ⟨(), ((volume.actsAs_remove session path).eq_of_run hrun).1⟩

theorem Settled.undamaged_enter (path : String) : Undamaged ((enter session path).run host).1 := by
  unfold enter
  split
  · rintro _ ⟨⟩
    rfl
  · have hresolve := undamaged_query (h.undamaged_resolve hsession path)
    exact undamaged_run_bind (undamaged_noteFailure hresolve _) fun _ _ _ ↦ nofun

end Settled

end Volume

theorem OpenTable.undamaged_openFile {table : OpenTable} {sector : UInt32} {load : Operation File}
    {host : Host} (hload : Undamaged (load.run host).1) (name : String) :
    Undamaged ((table.openFile name sector load).run host).1 := by
  unfold openFile
  split
  · exact nofun
  · split
    · rintro _ ⟨⟩
      rfl
    · exact undamaged_run_bind hload fun _ _ _ ↦ nofun

theorem Tree.Stored.exists_openFile {tree : Tree} {device : Device} {s : UInt32}
    (h : tree.Stored device) (hs : s ∈ rootSector :: tree.map Node.sector) :
    ∃ file, device.openFile s = .ok file := by
  rcases List.mem_cons.1 hs with rfl | hs
  · obtain ⟨file, table, hopen⟩ := h.exists_openDirectory (hasDirectory_root tree)
    exact ⟨file, (Device.openDirectory_eq_ok_iff.1 hopen).1⟩
  · obtain ⟨node, hnode, rfl⟩ := List.mem_map.1 hs
    obtain ⟨header, hheader⟩ := h.headers node hnode
    exact ⟨_, Device.openFile_of_readHeader hheader⟩

theorem Volume.Settled.undamaged_openFile {volume : Volume} {tree : Tree} {session : Session}
    {host : Host} (h : volume.Settled tree host.device)
    (hsession : host.device.Reaches session.directory) (path : String) :
    Undamaged ((volume.openFile session path).run host).1 := by
  have hlookup := undamaged_query (h.undamaged_lookup hsession path)
  refine undamaged_run_bind (undamaged_noteFailure hlookup _) ?_
  intro s after hrun
  -- The path leads to a file of the tree, whose header can be read.
  obtain ⟨hfound, rfl⟩ := of_run_noteFailure_query hrun
  obtain ⟨up, hup⟩ := h.stored.reaches_iff.1 hsession
  obtain ⟨entry, hentry, rfl⟩ := entryAt_of_lookup hfound
  have hload : Undamaged ((query (·.openFile entry.sector)).run after).1 :=
    undamaged_of_exists (h.stored.exists_openFile (h.stored.mem_of_entryAt hup hentry))
  exact undamaged_run_bind (OpenTable.undamaged_openFile hload path) fun _ _ _ ↦ nofun

theorem OpenTable.undamaged_call {table : OpenTable} {handle : Nat} {call : HandleCall} {host : Host}
    (h : ∀ opened, table.get? handle = some opened → ∃ answer,
      ((table.call handle call).run host).1 = .ok answer) :
    Undamaged ((table.call handle call).run host).1 := by
  cases hget : table.get? handle with
  | none =>
    rw [run_call, hget]
    rintro _ ⟨⟩
    rfl
  | some opened => exact undamaged_of_exists (h opened hget)

namespace Volume.Settled

variable {volume : Volume} {tree : Tree} {session : Session} {host : Host} {up : UInt32}
  (h : volume.Settled tree host.device) (hup : tree.HasDirectory session.directory up)
include h hup

theorem exists_run_list : ∃ entries, ((list session).run host).1 = .ok entries := by
  obtain ⟨file, table, hopen⟩ := h.stored.exists_openDirectory hup
  have hrun : (query (·.openDirectory session.directory)).run host = (.ok (file, table), host) := by
    rw [run_query, hopen]
  refine ⟨table.list, ?_⟩
  rw [list, run_bind_of_ok hrun]
  rfl

theorem exists_run_print : ∃ text, ((volume.print session).run host).1 = .ok text := by
  obtain ⟨text, htext⟩ := h.exists_render hup
  have hrun : (query (volume.render session)).run host = (.ok text, host) := by
    rw [run_query, htext]
  refine ⟨text, ?_⟩
  rw [print, run_bind_of_ok hrun]
  rfl

end Volume.Settled

def Failure.tellsDamage : Failure → Bool
  | refused error => error.tellsDamage
  | _ => false

/-- The request is one to the volume in use: it neither lays out a new one nor walks from a sector
of the caller's choice. -/
def Request.isOperation : Request → Bool
  | .format | .resolve .. => false
  | _ => true

namespace Machine

namespace Step

variable {α β : Type} {x : Step α} {f : α → Step β} {machine after : Machine} {a : α}

def Spared (x : Step α) (machine : Machine) : Prop :=
  ∀ failure, (x.run machine).1 = .error failure → failure.tellsDamage = false

theorem spared_of_ok (h : x.run machine = (.ok a, after)) : Spared x machine := by
  intro failure hfailed
  rw [h] at hfailed
  contradiction

theorem spared_pure (a : α) : Spared (pure a) machine := spared_of_ok rfl

theorem Spared.bind (h : Spared x machine)
    (h' : ∀ a after, x.run machine = (.ok a, after) → Spared (f a) after) :
    Spared (x >>= f) machine := by
  intro failure hfailed
  rw [run_bind] at hfailed
  cases hrun : x.run machine with
  | mk outcome after =>
    rw [hrun] at hfailed
    cases outcome with
    | error other =>
      cases hfailed
      exact h failure (by rw [hrun])
    | ok a => exact h' a after hrun failure hfailed

theorem spared_operate {operation : Operation α} (h : Undamaged (operation.run machine.host).1) :
    Spared (operate operation) machine := by
  intro failure hfailed
  rw [run_operate] at hfailed
  cases hrun : (operation.run machine.host).1 with
  | error error =>
    rw [hrun] at hfailed
    cases hfailed
    exact h error hrun
  | ok a =>
    rw [hrun] at hfailed
    contradiction

theorem spared_bind_of_ok (hrun : x.run machine = (.ok a, after)) (h : Spared (f a) after) :
    Spared (x >>= f) machine := by
  intro failure hfailed
  rw [run_bind_of_ok hrun] at hfailed
  exact h failure hfailed

theorem spared_bind_of_error {failure : Failure} (hrun : x.run machine = (.error failure, after))
    (h : failure.tellsDamage = false) : Spared (x >>= f) machine := by
  intro other hfailed
  rw [run_bind_of_error hrun] at hfailed
  cases hfailed
  exact h

theorem run_operate_bind_of_ok {operation : Operation α}
    (h : (operation.run machine.host).1 = .ok a) : (operate operation >>= f).run machine =
      (f a).run { machine with host := (operation.run machine.host).2 } := by
  rw [run_bind, run_operate, h]
  rfl

end Step

open Step

variable {machine : Machine} {volume : Volume} {tree : Tree} {index : Nat} {α : Type}

namespace Sound

variable (h : machine.Sound volume tree)
include h

theorem reaches {session : Session} (hs : machine.sessions[index]? = some session) :
    machine.host.device.Reaches session.directory :=
  h.stored.reaches_iff.2 (h.sessions session (Array.mem_of_getElem? hs))

theorem run_volume : Step.volume.run machine = (.ok volume, machine) := by
  rw [Step.run_volume, h.mounted]

theorem spared_volume_bind {f : Volume → Step α} (h' : Spared (f volume) machine) :
    Spared (Step.volume >>= f) machine :=
  spared_bind_of_ok h.run_volume h'

theorem spared_session_bind {f : Session → Step α} (h' : ∀ session,
      machine.host.device.Reaches session.directory → Spared (f session) machine) :
    Spared (Step.session index >>= f) machine := by
  cases hs : machine.sessions[index]? with
  | none => exact spared_bind_of_error (by rw [run_session, hs]) rfl
  | some session => exact spared_bind_of_ok (by rw [run_session, hs]) (h' session (h.reaches hs))

theorem spared_operateOn {operation : Volume → Operation (α × Volume)}
    (h' : Undamaged ((operation volume).run machine.host).1) :
    Spared (operateOn operation) machine :=
  h.spared_volume_bind ((spared_operate h').bind fun _ _ _ ↦ spared_of_ok rfl)

/-- A call on a handle that is bound is carried out. -/
theorem exists_run_call {handle : Nat} {opened : OpenFile}
    (hget : volume.openTable.get? handle = some opened) (call : HandleCall) :
    ∃ reply table, ((volume.openTable.call handle call).run machine.host).1 = .ok (reply, table) := by
  obtain ⟨log, hrun⟩ :=
    OpenTable.run_call_of_bound hget h.faultFree (h.onDevice_opened hget).1 call
  exact ⟨_, _, congrArg Prod.fst hrun⟩

/-- No operation fails with an error that tells of damage. -/
theorem spared_answer {request : Request} (hop : request.isOperation = true) :
    Spared (answer request) machine := by
  have hdirectory {session : Session} (hsession : machine.host.device.Reaches session.directory) :=
    h.stored.reaches_iff.1 hsession
  cases request with
  | format => contradiction
  | resolve start path => contradiction
  | mount => exact spared_of_ok h.run_mount
  | newSession => exact h.spared_volume_bind (spared_of_ok rfl)
  | addSession session => exact spared_of_ok rfl
  | setDirectory index sector => exact h.spared_session_bind fun _ _ ↦ spared_of_ok rfl
  | directory index => exact h.spared_session_bind fun _ _ ↦ spared_of_ok rfl
  | createFile index path size =>
    refine h.spared_volume_bind (h.spared_session_bind fun session hsession ↦ ?_)
    have hcreate : Undamaged ((volume.createEntry session path .regular size).run machine.host).1 :=
      h.settled.undamaged_createEntry hsession path nofun
    exact (spared_operate hcreate).bind fun _ _ _ ↦ spared_pure _
  | createDirectory index path =>
    refine h.spared_volume_bind (h.spared_session_bind fun session hsession ↦ ?_)
    exact (spared_operate (h.settled.undamaged_createEntry hsession path fun _ ↦ rfl)).bind
      fun _ _ _ ↦ spared_pure _
  | openFile index path =>
    refine h.spared_volume_bind (h.spared_session_bind fun session hsession ↦ ?_)
    exact (h.spared_operateOn (h.settled.undamaged_openFile hsession path)).bind
      fun _ _ _ ↦ spared_pure _
  | call handle call =>
    refine (h.spared_operateOn ?_).bind fun _ _ _ ↦ spared_pure _
    refine undamaged_run_bind (OpenTable.undamaged_call fun opened hget ↦ ?_) fun _ _ _ ↦ nofun
    obtain ⟨reply, table, hrun⟩ := h.exists_run_call hget call
    exact ⟨(reply, table), hrun⟩
  | closeAll =>
    exact (h.spared_operateOn (undamaged_of_exists ⟨_, rfl⟩)).bind fun _ _ _ ↦ spared_pure _
  | isValid handle => exact h.spared_volume_bind (spared_pure _)
  | remove index path =>
    refine h.spared_volume_bind (h.spared_session_bind fun session hsession ↦ ?_)
    exact (spared_operate (h.settled.undamaged_remove hsession path)).bind fun _ _ _ ↦ spared_pure _
  | enter index path =>
    refine h.spared_volume_bind (h.spared_session_bind fun session hsession ↦ ?_)
    exact (spared_operate (h.settled.undamaged_enter hsession path)).bind
      fun _ _ _ ↦ spared_of_ok rfl
  | list index =>
    refine h.spared_volume_bind (h.spared_session_bind fun session hsession ↦ ?_)
    obtain ⟨up, hup⟩ := hdirectory hsession
    exact (spared_operate (undamaged_of_exists (h.settled.exists_run_list hup))).bind
      fun _ _ _ ↦ spared_pure _
  | listRoot =>
    exact h.spared_volume_bind ((spared_operate (undamaged_of_exists h.settled.exists_listRoot)).bind
      fun _ _ _ ↦ spared_pure _)
  | print index =>
    refine h.spared_volume_bind (h.spared_session_bind fun session hsession ↦ ?_)
    obtain ⟨up, hup⟩ := hdirectory hsession
    exact (spared_operate (undamaged_of_exists (h.settled.exists_run_print hup))).bind
      fun _ _ _ ↦ spared_pure _
  | numFree =>
    exact h.spared_volume_bind ((spared_operate (undamaged_of_exists h.settled.exists_numFree)).bind
      fun _ _ _ ↦ spared_pure _)
  | freeMap =>
    exact h.spared_volume_bind ((spared_operate (undamaged_of_exists h.settled.exists_freeMap)).bind
      fun _ _ _ ↦ spared_pure _)
  | openFiles => exact h.spared_volume_bind (spared_pure _)
  | touch change =>
    exact h.spared_volume_bind ((spared_operate (undamaged_of_exists ⟨_, rfl⟩)).bind
      fun _ _ _ ↦ spared_pure _)
  | sync =>
    have hflush := undamaged_of_exists ⟨(), congrArg Prod.fst (Action.run_flush h.faultFree)⟩
    exact h.spared_volume_bind ((spared_operate hflush).bind fun _ _ _ ↦ spared_pure _)
  | geometry => exact h.spared_volume_bind (spared_of_ok rfl)

theorem answers_volume {operation : Volume → Operation α} {a : α} (reply : α → Reply)
    (hrun : ((operation volume).run machine.host).1 = .ok a) :
    ((Step.volume >>= fun volume ↦ operate (operation volume) >>= fun a ↦
      pure (reply a)).run machine).1 = .ok (reply a) := by
  rw [run_bind_of_ok h.run_volume, run_operate_bind_of_ok hrun]
  rfl

theorem answers_session {operation : Volume → Session → Operation α} {a : α} {session : Session}
    (hs : machine.sessions[index]? = some session) (reply : α → Reply)
    (hrun : ((operation volume session).run machine.host).1 = .ok a) :
    ((Step.volume >>= fun volume ↦ Step.session index >>= fun session ↦
      operate (operation volume session) >>= fun a ↦ pure (reply a)).run machine).1 =
        .ok (reply a) := by
  have hsession : (Step.session index).run machine = (.ok session, machine) := by
    rw [run_session, hs]
  rw [run_bind_of_ok h.run_volume, run_bind_of_ok hsession, run_operate_bind_of_ok hrun]
  rfl

end Sound

/-- Every operation is answered without a word of damage, and everything that a volume can be asked
about itself and every call on a handle in use has an answer. -/
structure Healthy (machine : Machine) : Prop where
  undamaged : ∀ request failure, request.isOperation = true →
    (step request machine).1 = .error failure → failure.tellsDamage = false
  lists : ∀ index < machine.sessions.size,
    ∃ entries, (step (.list index) machine).1 = .ok (.entries entries)
  prints : ∀ index < machine.sessions.size,
    ∃ text, (step (.print index) machine).1 = .ok (.text text)
  counts : ∃ count, (step .numFree machine).1 = .ok (.number count)
  maps : ∃ map, (step .freeMap machine).1 = .ok (.map map)
  listsRoot : ∃ entries, (step .listRoot machine).1 = .ok (.entries entries)
  serves : ∀ handle opened call, machine.opened? handle = some opened →
    ∃ reply, (step (.call handle call) machine).1 = .ok (.ofHandle reply)

theorem Sound.healthy (h : machine.Sound volume tree) : machine.Healthy := by
  have hsettled := h.settled
  refine ⟨fun request failure hop ↦ h.spared_answer hop failure, ?_, ?_, ?_, ?_, ?_, ?_⟩
  · intro index hlt
    have hs := Array.getElem?_eq_getElem hlt
    obtain ⟨up, hup⟩ := h.sessions _ (Array.getElem_mem hlt)
    obtain ⟨entries, hrun⟩ := hsettled.exists_run_list hup
    exact ⟨entries, h.answers_session hs .entries hrun⟩
  · intro index hlt
    have hs := Array.getElem?_eq_getElem hlt
    obtain ⟨up, hup⟩ := h.sessions _ (Array.getElem_mem hlt)
    obtain ⟨text, hrun⟩ := hsettled.exists_run_print hup
    exact ⟨text, h.answers_session hs .text hrun⟩
  · obtain ⟨count, hcount⟩ := hsettled.exists_numFree
    exact ⟨count, h.answers_volume .number hcount⟩
  · obtain ⟨map, hmap⟩ := hsettled.exists_freeMap
    exact ⟨map, h.answers_volume .map hmap⟩
  · obtain ⟨entries, hentries⟩ := hsettled.exists_listRoot
    exact ⟨entries, h.answers_volume .entries hentries⟩
  · intro handle opened call hget
    rw [h.opened?_eq] at hget
    obtain ⟨log, hstep⟩ := h.step_call_of_bound hget call
    exact ⟨_, congrArg Prod.fst hstep⟩

/-- Along every disciplined run on a volume just laid out the machine is healthy. -/
theorem healthy_of_disciplined {device : Device} (h : device.Ready) {requests : List Request}
    (hd : disciplined [] (step .format (start device)).2 requests = true) (k : Nat) :
    (run (.format :: requests.take k) (start device)).2.Healthy := by
  rw [← List.take_append_drop k requests] at hd
  obtain ⟨volume, tree, hsound⟩ := sound_of_disciplined h (disciplined_of_append hd)
  exact hsound.healthy

theorem healthy_of_disciplined_errands :
    (Device.blank 1024 128).Ready ∧
      disciplined [] (step .format (start (.blank 1024 128))).2 errands = true ∧
      (run (.format :: errands.take 5) (start (.blank 1024 128))).2.Healthy := by
  have hready : (Device.blank 1024 128).Ready := Device.ready_blank (Nat.le_refl _)
  have hd : disciplined [] (step .format (start (.blank 1024 128))).2 errands = true := by
    decide +kernel
  exact ⟨hready, hd, healthy_of_disciplined hready hd 5⟩

end Machine

end SectorFS
