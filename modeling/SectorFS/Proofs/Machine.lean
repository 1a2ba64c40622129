import Mathlib.Control.Monad.Basic
import SectorFS.Machine
import SectorFS.Proofs.Volume

namespace SectorFS

structure Machine.SameState (machine after : Machine) : Prop where
  device : after.host.device = machine.host.device
  volume : after.volume? = machine.volume?
  sessions : after.sessions = machine.sessions

def Request.isQuestion : Request → Bool
  | .directory _ | .isValid _ | .list _ | .listRoot | .print _ | .numFree | .freeMap | .openFiles
  | .touch _ | .geometry | .resolve .. => true
  | _ => false

namespace Machine

theorem SameState.refl (machine : Machine) : SameState machine machine := ⟨rfl, rfl, rfl⟩

theorem SameState.trans {first second third : Machine} (h : SameState first second)
    (h' : SameState second third) : SameState first third :=
  ⟨h'.device.trans h.device, h'.volume.trans h.volume, h'.sessions.trans h.sessions⟩

variable {machine : Machine}

namespace Step

variable {α β : Type} {x : Step α} {f : α → Step β} {volume : Volume} {session : Session}
  {index : Nat} {operation : Operation α}

theorem run_volume (machine : Machine) : Step.volume.run machine = match machine.volume? with
    | none => (.error .noVolume, machine)
    | some volume => (.ok volume, machine) := by
  change (match machine.volume? with
    | none => throw Failure.noVolume
    | some volume => pure volume : Step Volume).run machine = _
  cases machine.volume? <;> rfl

theorem run_session (index : Nat) (machine : Machine) :
    (Step.session index).run machine = match machine.sessions[index]? with
      | none => (.error (.noSession index), machine)
      | some session => (.ok session, machine) := by
  change (match machine.sessions[index]? with
    | none => throw (Failure.noSession index)
    | some session => pure session : Step Session).run machine = _
  cases machine.sessions[index]? <;> rfl

theorem run_operate (operation : Operation α) (machine : Machine) :
    (operate operation).run machine = ((operation.run machine.host).1.mapError .refused,
      { machine with host := (operation.run machine.host).2 }) := rfl

def onTree (index : Nat) (operation : Volume → Session → Operation Unit) : Step Reply := do
  operate (operation (← Step.volume) (← Step.session index))
  return .done

theorem run_onTree (index : Nat) (operation : Volume → Session → Operation Unit)
    (machine : Machine) : (onTree index operation).run machine =
      match machine.volume?, machine.sessions[index]? with
      | none, _ => (.error .noVolume, machine)
      | some _, none => (.error (.noSession index), machine)
      | some volume, some session =>
        ((((operation volume session).run machine.host).1.mapError .refused).map fun _ ↦ .done,
          { machine with host := ((operation volume session).run machine.host).2 }) := by
  obtain ⟨host, volume?, sessions⟩ := machine
  rw [onTree, run_bind, run_volume]
  cases volume? with
  | none => rfl
  | some volume =>
    simp only [run_bind, run_session]
    cases sessions[index]? with
    | none => rfl
    | some session =>
      simp only [run_operate]
      cases ((operation volume session).run host).1 <;> rfl

theorem run_operateOn (operation : Volume → Operation (α × Volume)) (machine : Machine) :
    (operateOn operation).run machine = match machine.volume? with
      | none => (.error .noVolume, machine)
      | some volume => match (operation volume).run machine.host with
        | (.error error, host) => (.error (.refused error), { machine with host })
        | (.ok (a, after), host) => (.ok a, { machine with host, volume? := some after }) := by
  obtain ⟨host, volume?, sessions⟩ := machine
  rw [operateOn, run_bind, run_volume]
  cases volume? with
  | none => rfl
  | some volume =>
    simp only [run_bind, run_operate]
    cases (operation volume).run host with
    | mk outcome after => cases outcome <;> rfl

theorem run_onTable (operation : OpenTable → Operation (α × OpenTable)) (machine : Machine) :
    (operateOn fun volume ↦ volume.withTable operation).run machine = match machine.volume? with
      | none => (.error .noVolume, machine)
      | some volume => match (operation volume.openTable).run machine.host with
        | (.error error, host) => (.error (.refused error), { machine with host })
        | (.ok (a, openTable), host) =>
          (.ok a, { machine with host, volume? := some { volume with openTable } }) := by
  obtain ⟨host, volume?, sessions⟩ := machine
  rw [run_operateOn]
  cases volume? with
  | none => rfl
  | some volume =>
    simp only [Volume.withTable, run_bind]
    cases (operation volume.openTable).run host with
    | mk outcome after => cases outcome <;> rfl

def Quiet (x : Step α) : Prop := ∀ machine, SameState machine (x.run machine).2

theorem quiet_pure (a : α) : (pure a : Step α).Quiet := SameState.refl

theorem quiet_get : (get : Step Machine).Quiet := SameState.refl

theorem quiet_volume : Step.volume.Quiet := by
  intro machine
  rw [run_volume]
  cases machine.volume? <;> exact .refl machine

theorem quiet_session (index : Nat) : (Step.session index).Quiet := by
  intro machine
  rw [run_session]
  cases machine.sessions[index]? <;> exact .refl machine

theorem quiet_operate (h : operation.Quiet) : (operate operation).Quiet :=
  fun machine ↦ ⟨h machine.host, rfl, rfl⟩

theorem Quiet.bind (h : x.Quiet) (h' : ∀ a, (f a).Quiet) : (x >>= f).Quiet := by
  intro machine
  have hfirst := h machine
  rw [run_bind]
  cases hr : x.run machine with
  | mk outcome after =>
    rw [hr] at hfirst
    cases outcome with
    | error failure => exact hfirst
    | ok a => exact hfirst.trans (h' a after)

end Step

open Step Operation

theorem answer_createFile (index : Nat) (path : String) (size : Nat) :
    answer (.createFile index path size) =
      onTree index fun volume session ↦ volume.createEntry session path .regular size := rfl

theorem answer_createDirectory (index : Nat) (path : String) :
    answer (.createDirectory index path) = onTree index fun volume session ↦
      volume.createEntry session path .directory Layout.directoryFileSize := rfl

theorem answer_remove (index : Nat) (path : String) :
    answer (.remove index path) = onTree index fun volume session ↦ volume.remove session path :=
  rfl

theorem onTree_of_session {index : Nat} {volume : Volume} {session : Session}
    (hv : machine.volume? = some volume) (hs : machine.sessions[index]? = some session)
    {operation : Volume → Session → Operation Unit} {action : Action Unit}
    (hacts : (operation volume session).ActsAs action) :
    ((onTree index operation).run machine).1.isOk = (action.run machine.host.device).1.isOk ∧
      ((onTree index operation).run machine).2.host.device =
        (action.run machine.host.device).2 ∧
      ((onTree index operation).run machine).2.volume? = machine.volume? ∧
      ((onTree index operation).run machine).2.sessions = machine.sessions := by
  obtain ⟨host, volume?, sessions⟩ := machine
  obtain rfl := hv
  rw [run_onTree]
  dsimp only at hs ⊢
  rw [hs, hacts host]
  refine ⟨?_, rfl, rfl, rfl⟩
  dsimp only
  cases ((operation volume session).run host).1 <;> rfl

theorem onTree_of_no_session {index : Nat} {volume : Volume}
    (hv : machine.volume? = some volume) (hs : machine.sessions[index]? = none)
    (operation : Volume → Session → Operation Unit) :
    (onTree index operation).run machine = (.error (.noSession index), machine) := by
  rw [run_onTree, hv, hs]

theorem done_of_onTree {index : Nat} {operation : Volume → Session → Operation Unit}
    (h : ((onTree index operation).run machine).1.isOk = true) :
    ((onTree index operation).run machine).1 = .ok .done := by
  rw [run_onTree] at h ⊢
  cases hv : machine.volume? with
  | none => rw [hv] at h; contradiction
  | some volume =>
    cases hs : machine.sessions[index]? with
    | none => rw [hv, hs] at h; contradiction
    | some session =>
      rw [hv, hs] at h
      dsimp only at h ⊢
      cases hrun : ((operation volume session).run machine.host).1 with
      | error error => rw [hrun] at h; contradiction
      | ok => rfl

/-- A request on the tree fails for want of a volume or a session, or it does what its action
does. -/
theorem onTree_cases (machine : Machine) (index : Nat)
    {operation : Volume → Session → Operation Unit} {action : Volume → Session → Action Unit}
    (hacts : ∀ volume session, (operation volume session).ActsAs (action volume session)) :
    SameState machine ((onTree index operation).run machine).2 ∧
        ((onTree index operation).run machine).1.isOk = false ∨
      ∃ volume session, machine.volume? = some volume ∧ machine.sessions[index]? = some session ∧
        ((onTree index operation).run machine).1.isOk =
          ((action volume session).run machine.host.device).1.isOk ∧
        ((onTree index operation).run machine).2.host.device =
          ((action volume session).run machine.host.device).2 ∧
        ((onTree index operation).run machine).2.volume? = machine.volume? ∧
        ((onTree index operation).run machine).2.sessions = machine.sessions := by
  cases hv : machine.volume? with
  | none =>
    rw [run_onTree, hv]
    exact .inl ⟨.refl machine, rfl⟩
  | some volume =>
    cases hs : machine.sessions[index]? with
    | none =>
      rw [onTree_of_no_session hv hs]
      exact .inl ⟨.refl machine, rfl⟩
    | some session =>
      exact .inr ⟨volume, session, rfl, rfl, hv ▸ onTree_of_session hv hs (hacts volume session)⟩

theorem step_openFile (index : Nat) (path : String) (machine : Machine) :
    step (.openFile index path) machine = match machine.volume?, machine.sessions[index]? with
      | none, _ => (.error .noVolume, machine)
      | some _, none => (.error (.noSession index), machine)
      | some volume, some session => match (volume.openFile session path).run machine.host with
        | (.error error, host) => (.error (.refused error), { machine with host })
        | (.ok (handle, after), host) =>
          (.ok (.number handle), { machine with host, volume? := some after }) := by
  obtain ⟨host, volume?, sessions⟩ := machine
  rw [step, answer, run_bind, run_volume]
  cases volume? with
  | none => rfl
  | some volume =>
    simp only [run_bind, run_session]
    cases sessions[index]? with
    | none => rfl
    | some session =>
      simp only [run_operateOn]
      cases (volume.openFile session path).run host with
      | mk outcome after => cases outcome <;> rfl

theorem step_enter (index : Nat) (path : String) (machine : Machine) :
    step (.enter index path) machine = match machine.volume?, machine.sessions[index]? with
      | none, _ => (.error .noVolume, machine)
      | some _, none => (.error (.noSession index), machine)
      | some _, some session => match (Volume.enter session path).run machine.host with
        | (.error error, host) => (.error (.refused error), { machine with host })
        | (.ok moved, host) => (.ok (.sector moved.directory),
          { machine with host, sessions := machine.sessions.setIfInBounds index moved }) := by
  obtain ⟨host, volume?, sessions⟩ := machine
  rw [step, answer, run_bind, run_volume]
  cases volume? with
  | none => rfl
  | some volume =>
    simp only [run_bind, run_session]
    cases sessions[index]? with
    | none => rfl
    | some session =>
      simp only [run_operate]
      cases (Volume.enter session path).run host with
      | mk outcome after => cases outcome <;> rfl

theorem step_call (handle : Nat) (call : HandleCall) (machine : Machine) :
    step (.call handle call) machine = match machine.volume? with
      | none => (.error .noVolume, machine)
      | some volume => match (volume.openTable.call handle call).run machine.host with
        | (.error error, host) => (.error (.refused error), { machine with host })
        | (.ok (reply, openTable), host) => (.ok (.ofHandle reply),
          { machine with host, volume? := some { volume with openTable } }) := by
  obtain ⟨host, volume?, sessions⟩ := machine
  rw [step, answer, run_bind, run_onTable]
  cases volume? with
  | none => rfl
  | some volume =>
    dsimp only
    cases (volume.openTable.call handle call).run host with
    | mk outcome after => cases outcome <;> rfl

theorem step_closeAll (machine : Machine) :
    step .closeAll machine = match machine.volume? with
      | none => (.error .noVolume, machine)
      | some volume => (.ok (.number volume.openTable.size), { machine with
          host := (volume.openTable.closeAll.run machine.host).2
          volume? := some { volume with openTable := .empty volume.openTable.capacity } }) := by
  obtain ⟨host, volume?, sessions⟩ := machine
  rw [step, answer, run_bind, run_onTable]
  cases volume? <;> rfl

theorem step_newSession (machine : Machine) :
    step .newSession machine = match machine.volume? with
      | none => (.error .noVolume, machine)
      | some _ => (.ok (.number machine.sessions.size),
          { machine with sessions := machine.sessions.push {} }) := by
  obtain ⟨host, volume?, sessions⟩ := machine
  rw [step, answer, run_bind, run_volume]
  cases volume? <;> rfl

theorem step_sync (machine : Machine) :
    step .sync machine = match machine.volume? with
      | none => (.error .noVolume, machine)
      | some _ => (((Operation.act Action.flush).run machine.host).1.mapError .refused |>.map
            fun _ ↦ .done,
          { machine with host := ((Operation.act Action.flush).run machine.host).2 }) := by
  obtain ⟨host, volume?, sessions⟩ := machine
  rw [step, answer, run_bind, run_volume]
  cases volume? with
  | none => rfl
  | some volume =>
    simp only [run_bind, run_operate]
    cases ((Operation.act Action.flush).run host).1 <;> rfl

theorem run_setVolume (operation : Operation Volume) (machine : Machine) :
    (do setVolume (← operate operation); return .done : Step Reply).run machine =
      match operation.run machine.host with
      | (.error error, host) => (.error (.refused error), { machine with host })
      | (.ok volume, host) => (.ok .done, { machine with host, volume? := some volume }) := by
  rw [run_bind, run_operate]
  cases operation.run machine.host with
  | mk outcome after => cases outcome <;> rfl

theorem sameState_step {request : Request} (h : request.isQuestion = true) (machine : Machine) :
    SameState machine (step request machine).2 := by
  suffices (answer request).Quiet from this machine
  cases request with
  | directory index => exact (quiet_session index).bind fun _ ↦ quiet_pure _
  | isValid handle => exact quiet_volume.bind fun _ ↦ quiet_pure _
  | list index =>
    refine quiet_volume.bind fun _ ↦ (quiet_session index).bind fun session ↦
      (quiet_operate ?_).bind fun _ ↦ quiet_pure _
    exact (Operation.quiet_query _).bind fun _ ↦ (Operation.quiet_notes _).bind fun _ ↦
      Operation.quiet_pure _
  | listRoot =>
    exact quiet_volume.bind fun _ ↦ (quiet_operate (Operation.quiet_query _)).bind fun _ ↦
      quiet_pure _
  | print index =>
    refine quiet_volume.bind fun _ ↦ (quiet_session index).bind fun session ↦
      (quiet_operate ?_).bind fun _ ↦ quiet_pure _
    exact (Operation.quiet_query _).bind fun _ ↦ (Operation.quiet_notes _).bind fun _ ↦
      Operation.quiet_pure _
  | numFree | freeMap =>
    exact quiet_volume.bind fun _ ↦ (quiet_operate (Operation.quiet_query _)).bind fun _ ↦
      quiet_pure _
  | openFiles => exact quiet_volume.bind fun _ ↦ quiet_pure _
  | touch change =>
    refine quiet_volume.bind fun _ ↦ (quiet_operate ?_).bind fun _ ↦ quiet_pure _
    exact (Operation.quiet_notes _).bind fun _ ↦ (Operation.quiet_notes _).bind fun _ ↦
      Operation.quiet_pure _
  | geometry => exact quiet_volume.bind fun _ ↦ quiet_get.bind fun _ ↦ quiet_pure _
  | resolve start path =>
    exact (quiet_operate (Operation.quiet_query _)).bind fun _ ↦ quiet_pure _
  | _ => contradiction

end Machine

end SectorFS
