import SectorFS.Proofs.Guarded.Volume

namespace SectorFS

open Layout

structure Kept where
  volume? : Option Volume := none
  sessions : Array Session := #[{}]

def Kept.Bounded (kept : Kept) : Prop :=
  ∀ volume, kept.volume? = some volume → volume.openTable.Bounded

def Machine.kept (machine : Machine) : Kept := ⟨machine.volume?, machine.sessions⟩

abbrev Serving := ExceptT Failure (StateT Kept Program)

namespace Serving

variable {α β : Type}

def operate (program : Program α) : Serving α :=
  ExceptT.mk fun kept ↦ do
    let outcome ← program.attempt
    return (outcome.mapError .refused, kept)

def volume : Serving Volume := do
  match (← get).volume? with
  | none => throw .noVolume
  | some volume => return volume

def session (index : Nat) : Serving Session := do
  match (← get).sessions[index]? with
  | none => throw (.noSession index)
  | some session => return session

def setVolume (volume : Volume) : Serving Unit :=
  modify fun kept ↦ { kept with volume? := some volume }

def operateOn (program : Volume → Program (α × Volume)) : Serving α := do
  let (a, after) ← operate (program (← volume))
  setVolume after
  return a

def addSession (session : Session) : Serving Nat :=
  modifyGet fun kept ↦ (kept.sessions.size, { kept with sessions := kept.sessions.push session })

def setSession (index : Nat) (session : Session) : Serving Unit :=
  modify fun kept ↦ { kept with sessions := kept.sessions.setIfInBounds index session }

/-- The program does with what is kept, with the device and with the log what the step does with the
machine. -/
structure Serves (serving : Serving α) (step : Machine.Step α) (post : α → Prop) : Prop where
  safe : ∀ kept : Kept, kept.Bounded → (serving.run.run kept).Safe
    fun (outcome, after) ↦ after.Bounded ∧ ∀ a, outcome = .ok a → post a
  run : ∀ machine : Machine, machine.kept.Bounded →
    (serving.run.run machine.kept).run machine.host =
      .ok (.ok ((step.run machine).1, (step.run machine).2.kept), (step.run machine).2.host)

variable {serving : Serving α} {step : Machine.Step α} {post : α → Prop} {f : α → Serving β}
  {g : α → Machine.Step β} {post' : β → Prop}

theorem Serves.bind (h : serving.Serves step post) (h' : ∀ a, post a → (f a).Serves (g a) post') :
    (serving >>= f).Serves (step >>= g) post' := by
  constructor
  · intro kept hkept
    refine (h.safe kept hkept).bind fun (outcome, after) ⟨hafter, hpost⟩ ↦ ?_
    cases outcome with
    | error error => exact ⟨hafter, nofun⟩
    | ok a => exact (h' a (hpost a rfl)).safe after hafter
  · intro machine hmachine
    have hrun := h.run machine hmachine
    obtain ⟨hafter, hpost⟩ := (h.safe _ hmachine).of_run hrun
    change (Program.handle _ _ (serving.run.run machine.kept)).run machine.host = _
    rw [Program.run_handle, hrun, run_bind]
    cases hstep : step.run machine with
    | mk outcome after =>
      rw [hstep] at hafter hpost
      cases outcome with
      | error error => rfl
      | ok a => exact (h' a (hpost a rfl)).run after hafter

theorem serves_pure {a : α} (h : post a) : (pure a : Serving α).Serves (pure a) post :=
  ⟨fun _ hkept ↦ ⟨hkept, fun _ heq ↦ Except.ok.inj heq ▸ h⟩, fun _ _ ↦ rfl⟩

theorem serves_operate {program : Program α} {operation : Operation α}
    (h : program.Follows operation post) :
    (operate program).Serves (Machine.Step.operate operation) post := by
  constructor
  · intro kept hkept
    have hattempt : program.attempt.Safe fun outcome ↦ ∀ a, outcome = .ok a → post a :=
      h.safe.handle (fun a ha _ heq ↦ Except.ok.inj heq ▸ ha) fun _ ↦ nofun
    refine hattempt.bind fun outcome houtcome ↦ ⟨hkept, fun a ha ↦ ?_⟩
    cases outcome with
    | error error => contradiction
    | ok b => exact houtcome a (congrArg Except.ok (Except.ok.inj ha))
  · intro machine _
    change (Program.handle _ _ (Program.handle _ _ program)).run machine.host = _
    rw [Program.run_handle, Program.run_handle, h.run]
    change _ = Except.ok (Except.ok ((operation.run machine.host).1.mapError Failure.refused,
      machine.kept), (operation.run machine.host).2)
    cases operation.run machine.host with
    | mk outcome after => cases outcome <;> rfl

theorem serves_volume : volume.Serves Machine.Step.volume fun volume ↦ volume.openTable.Bounded := by
  constructor
  · rintro ⟨volume?, sessions⟩ hkept
    cases volume? with
    | none => exact ⟨hkept, nofun⟩
    | some volume => exact ⟨hkept, fun _ heq ↦ Except.ok.inj heq ▸ hkept volume rfl⟩
  · rintro ⟨host, volume?, sessions⟩ _
    cases volume? <;> rfl

theorem serves_session (index : Nat) :
    (session index).Serves (Machine.Step.session index) fun _ ↦ True := by
  have hsession : ∀ kept : Kept, (session index).run.run kept = match kept.sessions[index]? with
      | none => pure (.error (.noSession index), kept)
      | some session => pure (.ok session, kept) := by
    intro kept
    change ((match kept.sessions[index]? with | none => _ | some session => _ : Serving Session)).run.run
      kept = _
    cases kept.sessions[index]? <;> rfl
  have hstep : ∀ machine : Machine, (Machine.Step.session index).run machine =
      match machine.sessions[index]? with
      | none => (.error (.noSession index), machine)
      | some session => (.ok session, machine) := by
    intro machine
    change ((match machine.sessions[index]? with
      | none => _ | some session => _ : Machine.Step Session)).run machine = _
    cases machine.sessions[index]? <;> rfl
  constructor
  · intro kept hkept
    rw [hsession]
    cases kept.sessions[index]? with
    | none => exact ⟨hkept, nofun⟩
    | some session => exact ⟨hkept, fun _ _ ↦ trivial⟩
  · intro machine _
    rw [hsession, hstep]
    change Program.run (match machine.sessions[index]? with | none => _ | some session => _) _ = _
    cases machine.sessions[index]? <;> rfl

theorem serves_setVolume {volume : Volume} (h : volume.openTable.Bounded) :
    (setVolume volume).Serves (Machine.Step.setVolume volume) fun _ ↦ True :=
  ⟨fun _ _ ↦ ⟨fun _ heq ↦ Option.some.inj heq ▸ h, fun _ _ ↦ trivial⟩, fun _ _ ↦ rfl⟩

theorem serves_addSession (session : Session) :
    (addSession session).Serves (Machine.Step.addSession session) fun _ ↦ True :=
  ⟨fun _ hkept ↦ ⟨hkept, fun _ _ ↦ trivial⟩, fun _ _ ↦ rfl⟩

theorem serves_setSession (index : Nat) (session : Session) :
    (setSession index session).Serves (Machine.Step.setSession index session) fun _ ↦ True :=
  ⟨fun _ hkept ↦ ⟨hkept, fun _ _ ↦ trivial⟩, fun _ _ ↦ rfl⟩

theorem serves_operateOn {program : Volume → Program (α × Volume)}
    {operation : Volume → Operation (α × Volume)}
    (h : ∀ volume : Volume, volume.openTable.Bounded → (program volume).Follows (operation volume)
      fun (_, after) ↦ after.openTable.Bounded) :
    (operateOn program).Serves (Machine.Step.operateOn operation) fun _ ↦ True :=
  Serves.bind serves_volume fun volume hvolume ↦
    Serves.bind (serves_operate (h volume hvolume)) fun _ hafter ↦
      Serves.bind (serves_setVolume hafter) fun _ _ ↦ serves_pure trivial

end Serving

open Serving in
def serve : Request → Serving Reply
  | .format => do
    setVolume (← operate Guarded.format)
    return .done
  | .mount => do
    setVolume (← operate Guarded.mount)
    return .done
  | .newSession => do
    let _ ← volume
    return .number (← addSession {})
  | .addSession session => return .number (← addSession session)
  | .setDirectory index sector => do
    let _ ← session index
    setSession index ⟨sector⟩
    return .done
  | .directory index => return .sector (← session index).directory
  | .createFile index path size => do
    operate (Guarded.createEntry (← volume) (← session index) path .regular size)
    return .done
  | .createDirectory index path => do
    operate (Guarded.createEntry (← volume) (← session index) path .directory directoryFileSize)
    return .done
  | .openFile index path => do
    let _ ← volume
    let session ← session index
    return .number (← operateOn fun volume ↦ Guarded.openPath volume session path)
  | .call handle call =>
    return .ofHandle (← operateOn fun volume ↦
      Guarded.withTable volume fun table ↦ Guarded.callHandle table handle call)
  | .closeAll => return .number (← operateOn fun volume ↦ Guarded.withTable volume Guarded.closeAll)
  | .isValid handle => return .flag ((← volume).openTable.isValid handle)
  | .remove index path => do
    operate (Guarded.remove (← volume) (← session index) path)
    return .done
  | .enter index path => do
    let _ ← volume
    let moved ← operate (Guarded.enter (← session index) path)
    setSession index moved
    return .sector moved.directory
  | .list index => do
    let _ ← volume
    return .entries (← operate (Guarded.listSession (← session index)))
  | .listRoot => return .entries (← operate (Guarded.listRoot (← volume)))
  | .print index => return .text (← operate (Guarded.print (← volume) (← session index)))
  | .numFree => return .number (← operate (Guarded.numFree (← volume)))
  | .freeMap => return .map (← operate (Guarded.loadMap (← volume).freeMapFile))
  | .openFiles => return .files (← volume).openTable.list
  | .touch change => return .files (← operate (Guarded.touch (← volume) change))
  | .sync => do
    let _ ← volume
    operate Program.flushDevice
    return .done
  | .geometry => do
    let _ ← volume
    let (sectorCount, bytesPerSector) ← operate (.geometry fun count size ↦ .done (count, size))
    return .geometry sectorCount bytesPerSector
  | .resolve start path => return .sector (← operate (Guarded.resolve start path))

def serveAll : List Request → Kept → Program (List (Except Failure Reply) × Kept)
  | [], kept => return ([], kept)
  | request :: rest, kept => do
    let (answer, kept) ← (serve request).run.run kept
    let (answers, kept) ← serveAll rest kept
    return (answer :: answers, kept)

/-- The positions in a request are machine words, and so are the lengths of its paths. -/
def Request.Fits : Request → Prop
  | .createFile _ path _ | .createDirectory _ path | .openFile _ path | .remove _ path =>
    Guarded.Countable path
  | .call _ asked => asked.Fits
  | _ => True

instance : DecidablePred Request.Fits
  | .createFile _ path _ | .createDirectory _ path | .openFile _ path | .remove _ path =>
    inferInstanceAs (Decidable (byteLength path.toList < wordLimit))
  | .call _ asked => inferInstanceAs (Decidable asked.Fits)
  | .format | .mount | .newSession | .addSession _ | .setDirectory .. | .directory _ | .closeAll
  | .isValid _ | .enter .. | .list _ | .listRoot | .print _ | .numFree | .freeMap | .openFiles
  | .touch _ | .sync | .geometry | .resolve .. => isTrue trivial

open Serving in
theorem serves_newVolume {program : Program Volume} {operation : Operation Volume}
    (h : program.Follows operation Volume.Unopened) :
    (do setVolume (← operate program); return .done : Serving Reply).Serves
      (do Machine.Step.setVolume (← Machine.Step.operate operation); return .done)
      fun _ ↦ True := by
  refine Serves.bind (serves_operate h) fun made hmade ↦ ?_
  have hbounded : made.openTable.Bounded := hmade ▸ Guarded.bounded_empty
  exact Serves.bind (serves_setVolume hbounded) fun _ _ ↦ serves_pure trivial

open Serving in
theorem serves_forSession {program : Volume → Session → Program Unit}
    {operation : Volume → Session → Operation Unit} (index : Nat)
    (h : ∀ volume session, (program volume session).Follows (operation volume session)
      fun _ ↦ True) :
    (do operate (program (← volume) (← session index)); return .done : Serving Reply).Serves
      (do
        Machine.Step.operate (operation (← Machine.Step.volume) (← Machine.Step.session index))
        return .done)
      fun _ ↦ True :=
  Serves.bind serves_volume fun volume _ ↦
    Serves.bind (serves_session index) fun session _ ↦
      Serves.bind (serves_operate (h volume session)) fun _ _ ↦ serves_pure trivial

open Serving in
theorem serves_answer {request : Request} (h : request.Fits) :
    (serve request).Serves (Machine.answer request) fun _ ↦ True := by
  cases request with
  | format => exact serves_newVolume Guarded.follows_format
  | mount => exact serves_newVolume Guarded.follows_mount
  | newSession =>
    exact Serves.bind serves_volume fun _ _ ↦
      Serves.bind (serves_addSession {}) fun _ _ ↦ serves_pure trivial
  | addSession session =>
    exact Serves.bind (serves_addSession session) fun _ _ ↦ serves_pure trivial
  | setDirectory index sector =>
    exact Serves.bind (serves_session index) fun _ _ ↦
      Serves.bind (serves_setSession index ⟨sector⟩) fun _ _ ↦ serves_pure trivial
  | directory index => exact Serves.bind (serves_session index) fun _ _ ↦ serves_pure trivial
  | createFile index path size =>
    exact serves_forSession index fun _ _ ↦ Guarded.follows_createEntry h .regular size
  | createDirectory index path =>
    exact serves_forSession index fun _ _ ↦
      Guarded.follows_createEntry h .directory directoryFileSize
  | openFile index path =>
    exact Serves.bind serves_volume fun _ _ ↦
      Serves.bind (serves_session index) fun session _ ↦
        Serves.bind (serves_operateOn fun _ ↦ Guarded.follows_openPath h) fun _ _ ↦
          serves_pure trivial
  | call handle call =>
    exact Serves.bind (serves_operateOn fun _ hbounded ↦
      Guarded.follows_withTable (Guarded.follows_callHandle hbounded h)) fun _ _ ↦
        serves_pure trivial
  | closeAll =>
    exact Serves.bind (serves_operateOn fun _ hbounded ↦
      Guarded.follows_withTable (Guarded.follows_closeAll hbounded)) fun _ _ ↦ serves_pure trivial
  | isValid handle => exact Serves.bind serves_volume fun _ _ ↦ serves_pure trivial
  | remove index path => exact serves_forSession index fun _ _ ↦ Guarded.follows_remove h
  | enter index path =>
    exact Serves.bind serves_volume fun _ _ ↦
      Serves.bind (serves_session index) fun session _ ↦
        Serves.bind (serves_operate (Guarded.follows_enter session path)) fun moved _ ↦
          Serves.bind (serves_setSession index moved) fun _ _ ↦ serves_pure trivial
  | list index =>
    exact Serves.bind serves_volume fun _ _ ↦
      Serves.bind (serves_session index) fun session _ ↦
        Serves.bind (serves_operate (Guarded.follows_listSession session)) fun _ _ ↦
          serves_pure trivial
  | listRoot =>
    exact Serves.bind serves_volume fun volume _ ↦
      Serves.bind (serves_operate (Guarded.asks_listRoot volume)) fun _ _ ↦ serves_pure trivial
  | print index =>
    exact Serves.bind serves_volume fun volume _ ↦
      Serves.bind (serves_session index) fun session _ ↦
        Serves.bind (serves_operate (Guarded.follows_print volume session)) fun _ _ ↦
          serves_pure trivial
  | numFree =>
    exact Serves.bind serves_volume fun volume _ ↦
      Serves.bind (serves_operate (Guarded.asks_numFree volume)) fun _ _ ↦ serves_pure trivial
  | freeMap =>
    exact Serves.bind serves_volume fun volume _ ↦
      Serves.bind (serves_operate (Guarded.asks_loadMap volume.freeMapFile)) fun _ _ ↦
        serves_pure trivial
  | openFiles => exact Serves.bind serves_volume fun _ _ ↦ serves_pure trivial
  | touch change =>
    exact Serves.bind serves_volume fun volume _ ↦
      Serves.bind (serves_operate (Guarded.follows_touch volume change)) fun _ _ ↦
        serves_pure trivial
  | sync =>
    exact Serves.bind serves_volume fun _ _ ↦
      Serves.bind (serves_operate Program.follows_flush) fun _ _ ↦ serves_pure trivial
  | geometry =>
    exact Serves.bind serves_volume fun _ _ ↦
      ⟨fun _ hkept _ _ ↦ ⟨hkept, fun _ _ ↦ trivial⟩, fun _ _ ↦ rfl⟩
  | resolve start path =>
    exact Serves.bind (serves_operate (Guarded.asks_resolve start path)) fun _ _ ↦
      serves_pure trivial

theorem safe_serveAll {requests : List Request} (h : ∀ request ∈ requests, request.Fits)
    {kept : Kept} (hkept : kept.Bounded) :
    (serveAll requests kept).Safe fun (_, after) ↦ after.Bounded := by
  induction requests generalizing kept with
  | nil => exact hkept
  | cons request rest ih =>
    have hserve := (serves_answer (h request List.mem_cons_self)).safe kept hkept
    refine hserve.bind fun (answer, next) ⟨hnext, _⟩ ↦ ?_
    exact (ih (fun other hother ↦ h other (List.mem_cons_of_mem _ hother)) hnext).bind
      fun _ hafter ↦ hafter

/-- The requests are answered as the machine answers them, with the same effect. -/
theorem run_serveAll {requests : List Request} (h : ∀ request ∈ requests, request.Fits)
    {machine : Machine} (hmachine : machine.kept.Bounded) :
    (serveAll requests machine.kept).run machine.host =
      .ok (.ok ((Machine.run requests machine).1, (Machine.run requests machine).2.kept),
        (Machine.run requests machine).2.host) := by
  induction requests generalizing machine with
  | nil => rfl
  | cons request rest ih =>
    have hserve := serves_answer (h request List.mem_cons_self)
    have hrun := hserve.run machine hmachine
    -- The bounds after the first request are those that it keeps on any device.
    have hnext := ((hserve.safe _ hmachine).of_run hrun).1
    have hrest := ih (fun other hother ↦ h other (List.mem_cons_of_mem _ hother)) hnext
    change (Program.handle _ _ ((serve request).run.run machine.kept)).run machine.host = _
    rw [Program.run_handle, hrun]
    change (Program.handle _ _ (serveAll rest (Machine.step request machine).2.kept)).run
      (Machine.step request machine).2.host = _
    rw [Program.run_handle, show (serveAll rest (Machine.step request machine).2.kept).run
      (Machine.step request machine).2.host = _ from hrest]
    rfl

end SectorFS
