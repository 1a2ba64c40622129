import SectorFS.Proofs.Machine
import SectorFS.Proofs.Tree.Format
import SectorFS.Proofs.Volume.Create
import SectorFS.Proofs.Volume.Remove

namespace SectorFS

namespace Operation

variable {α β : Type} {operation : Operation α} {action : Action α} {f : α → Operation β}

/-- What the operation answers and does to the device depends on the device alone. -/
def Blind (operation : Operation α) : Prop :=
  ∀ first second : Host, first.device = second.device →
    (operation.run first).1 = (operation.run second).1 ∧
      (operation.run first).2.device = (operation.run second).2.device

theorem ActsAs.blind (h : operation.ActsAs action) : operation.Blind := by
  intro first second heq
  have hfirst := h first
  have hsecond := h second
  rw [heq, hsecond] at hfirst
  obtain ⟨houtcome, hdevice⟩ := Prod.mk.inj hfirst
  exact ⟨houtcome.symm, hdevice.symm⟩

theorem blind_query (ask : Device → Except Error α) : (query ask).Blind :=
  (actsAs_query ask).blind

theorem blind_act (action : Action α) : (act action).Blind := (actsAs_act action).blind

theorem blind_pure (a : α) : (pure a : Operation α).Blind := (actsAs_pure a).blind

theorem blind_throw (error : Error) : (throw error : Operation α).Blind :=
  fun _ _ h ↦ ⟨rfl, h⟩

theorem blind_notes (events : List Event) : (notes events).Blind := fun _ _ h ↦ ⟨rfl, h⟩

theorem Blind.bind (h : operation.Blind) (h' : ∀ a, (f a).Blind) : (operation >>= f).Blind := by
  intro first second heq
  obtain ⟨houtcome, hdevice⟩ := h first second heq
  rw [run_bind, run_bind]
  cases hfirst : operation.run first with
  | mk outcome left =>
    cases hsecond : operation.run second with
    | mk other right =>
      rw [hfirst, hsecond] at houtcome hdevice
      cases houtcome
      cases outcome with
      | error error => exact ⟨rfl, hdevice⟩
      | ok a => exact h' a left right hdevice

theorem Blind.noteFailure {event : Error → Event} (h : operation.Blind) :
    (noteFailure event operation).Blind := by
  intro first second heq
  obtain ⟨houtcome, hdevice⟩ := h first second heq
  rw [run_noteFailure, run_noteFailure]
  cases hfirst : operation.run first with
  | mk outcome left =>
    cases hsecond : operation.run second with
    | mk other right =>
      rw [hfirst, hsecond] at houtcome hdevice
      cases houtcome
      cases outcome <;> exact ⟨rfl, hdevice⟩

end Operation

open Operation

theorem OpenFile.blind_call (opened : OpenFile) (handle : Nat) (call : HandleCall) :
    (opened.call handle call).Blind := by
  cases call with
  | close => exact (blind_notes _).bind fun _ ↦ blind_pure _
  | read count => exact (blind_query _).bind fun _ ↦ (blind_notes _).bind fun _ ↦ blind_pure _
  | readAt count pos => exact (blind_query _).bind fun _ ↦ (blind_notes _).bind fun _ ↦ blind_pure _
  | write data => exact (blind_act _).bind fun _ ↦ (blind_notes _).bind fun _ ↦ blind_pure _
  | writeAt data pos => exact (blind_act _).bind fun _ ↦ (blind_notes _).bind fun _ ↦ blind_pure _
  | seek pos => exact blind_pure _
  | tell => exact blind_pure _

namespace OpenTable

theorem blind_call (table : OpenTable) (handle : Nat) (call : HandleCall) :
    (table.call handle call).Blind := by
  unfold OpenTable.call
  cases table.get? handle with
  | none => exact (blind_notes _).bind fun _ ↦ blind_throw _
  | some opened => exact (opened.blind_call handle call).bind fun _ ↦ blind_pure _

theorem blind_openFile (table : OpenTable) (name : String) (sector : UInt32)
    {load : Operation File} (h : load.Blind) : (table.openFile name sector load).Blind := by
  unfold OpenTable.openFile
  cases table.handleOf? sector with
  | some handle => exact (blind_notes _).bind fun _ ↦ blind_pure _
  | none =>
    cases table.firstFree? with
    | none => exact (blind_notes _).bind fun _ ↦ blind_throw _
    | some handle => exact h.bind fun _ ↦ (blind_notes _).bind fun _ ↦ blind_pure _

theorem blind_closeAll (table : OpenTable) : table.closeAll.Blind :=
  (blind_notes _).bind fun _ ↦ (blind_notes _).bind fun _ ↦ blind_pure _

end OpenTable

namespace Volume

theorem blind_withTable {α : Type} {operation : OpenTable → Operation (α × OpenTable)}
    (h : ∀ table, (operation table).Blind) (volume : Volume) : (volume.withTable operation).Blind :=
  (h _).bind fun _ ↦ blind_pure _

theorem blind_openFile (volume : Volume) (session : Session) (path : String) :
    (volume.openFile session path).Blind :=
  (blind_query _).noteFailure.bind fun _ ↦
    blind_withTable (fun table ↦ table.blind_openFile _ _ (blind_query _)) volume

theorem blind_enter (session : Session) (path : String) : (enter session path).Blind := by
  have hwalk : ((noteFailure (.enterFailed path)
      (query (Path.resolve session.directory path)) >>= fun sector ↦
        note (.entered path sector) >>= fun _ ↦ pure ⟨sector⟩ : Operation Session)).Blind :=
    (blind_query _).noteFailure.bind fun _ ↦ (blind_notes _).bind fun _ ↦ blind_pure _
  unfold enter
  by_cases h : path.isEmpty = true
  · simp only [if_pos h]
    exact (blind_throw _).bind fun _ ↦ hwalk
  · simp only [if_neg h]
    exact hwalk

end Volume

namespace Machine

namespace Step

variable {α β : Type} {x : Step α} {f : α → Step β} {operation : Operation α}

/-- From machines that differ in their logs at most, the step gives the same answer and leads to
such machines. -/
def Blind (x : Step α) : Prop :=
  ∀ first second, SameState first second → (x.run first).1 = (x.run second).1 ∧
    SameState (x.run first).2 (x.run second).2

theorem blind_pure (a : α) : (pure a : Step α).Blind := fun _ _ h ↦ ⟨rfl, h⟩

theorem blind_volume : Step.volume.Blind := by
  intro first second h
  rw [run_volume, run_volume, h.volume]
  cases first.volume? <;> exact ⟨rfl, h⟩

theorem blind_session (index : Nat) : (Step.session index).Blind := by
  intro first second h
  rw [run_session, run_session, h.sessions]
  cases first.sessions[index]? <;> exact ⟨rfl, h⟩

theorem blind_setVolume (volume : Volume) : (setVolume volume).Blind :=
  fun _ _ h ↦ ⟨rfl, h.device, rfl, h.sessions⟩

theorem blind_addSession (session : Session) : (Step.addSession session).Blind := by
  intro first second h
  have hindex : (Except.ok first.sessions.size : Except Failure Nat) = .ok second.sessions.size := by
    rw [h.sessions]
  exact ⟨hindex, h.device, h.volume, congrArg (Array.push · session) h.sessions⟩

theorem blind_setSession (index : Nat) (session : Session) : (setSession index session).Blind :=
  fun _ _ h ↦ ⟨rfl, h.device, h.volume, congrArg (Array.setIfInBounds · index session) h.sessions⟩

theorem blind_operate (h : operation.Blind) : (operate operation).Blind := by
  intro first second hsame
  obtain ⟨houtcome, hdevice⟩ := h first.host second.host hsame.device.symm
  exact ⟨congrArg (Except.mapError Failure.refused) houtcome, hdevice.symm, hsame.volume,
    hsame.sessions⟩

theorem Blind.bind (h : x.Blind) (h' : ∀ a, (f a).Blind) : (x >>= f).Blind := by
  intro first second hsame
  obtain ⟨houtcome, hafter⟩ := h first second hsame
  rw [run_bind, run_bind]
  cases hfirst : x.run first with
  | mk outcome left =>
    cases hsecond : x.run second with
    | mk other right =>
      rw [hfirst, hsecond] at houtcome hafter
      cases houtcome
      cases outcome with
      | error failure => exact ⟨rfl, hafter⟩
      | ok a => exact h' a left right hafter

theorem blind_operateOn {operation : Volume → Operation (α × Volume)}
    (h : ∀ volume, (operation volume).Blind) : (operateOn operation).Blind :=
  blind_volume.bind fun volume ↦ (blind_operate (h volume)).bind fun _ ↦
    (blind_setVolume _).bind fun _ ↦ blind_pure _

theorem blind_onTree (index : Nat) {operation : Volume → Session → Operation Unit}
    {action : Volume → Session → Action Unit}
    (hacts : ∀ volume session, (operation volume session).ActsAs (action volume session)) :
    (onTree index operation).Blind :=
  blind_volume.bind fun volume ↦ (blind_session index).bind fun session ↦
    (blind_operate (hacts volume session).blind).bind fun _ ↦ blind_pure _

end Step

open Step

theorem blind_answer (request : Request) : (answer request).Blind := by
  cases request with
  | format =>
    exact (blind_operate Volume.actsAs_format.blind).bind fun _ ↦
      (blind_setVolume _).bind fun _ ↦ Step.blind_pure _
  | mount =>
    exact (blind_operate ((blind_query _).bind fun _ ↦ (blind_notes _).bind fun _ ↦
      Operation.blind_pure _)).bind fun _ ↦ (blind_setVolume _).bind fun _ ↦ Step.blind_pure _
  | newSession =>
    exact blind_volume.bind fun _ ↦ (blind_addSession _).bind fun _ ↦ Step.blind_pure _
  | addSession session => exact (blind_addSession session).bind fun _ ↦ Step.blind_pure _
  | setDirectory index sector =>
    exact (blind_session index).bind fun _ ↦ (blind_setSession _ _).bind fun _ ↦ Step.blind_pure _
  | directory index => exact (blind_session index).bind fun _ ↦ Step.blind_pure _
  | createFile index path size =>
    exact blind_onTree index fun volume session ↦ volume.actsAs_createEntry session path _ _
  | createDirectory index path =>
    exact blind_onTree index fun volume session ↦ volume.actsAs_createEntry session path _ _
  | remove index path =>
    exact blind_onTree index fun volume session ↦ volume.actsAs_remove session path
  | openFile index path =>
    exact blind_volume.bind fun _ ↦ (blind_session index).bind fun session ↦
      (blind_operateOn fun volume ↦ volume.blind_openFile session path).bind fun _ ↦
        Step.blind_pure _
  | call handle call =>
    exact (blind_operateOn fun volume ↦ volume.blind_withTable fun table ↦
      table.blind_call handle call).bind fun _ ↦ Step.blind_pure _
  | closeAll =>
    exact (blind_operateOn fun volume ↦ volume.blind_withTable OpenTable.blind_closeAll).bind
      fun _ ↦ Step.blind_pure _
  | isValid handle => exact blind_volume.bind fun _ ↦ Step.blind_pure _
  | enter index path =>
    exact blind_volume.bind fun _ ↦ (blind_session index).bind fun session ↦
      (blind_operate (Volume.blind_enter session path)).bind fun _ ↦
        (blind_setSession _ _).bind fun _ ↦ Step.blind_pure _
  | list index =>
    exact blind_volume.bind fun _ ↦ (blind_session index).bind fun session ↦
      (blind_operate ((blind_query _).bind fun _ ↦ (blind_notes _).bind fun _ ↦
        Operation.blind_pure _)).bind fun _ ↦ Step.blind_pure _
  | listRoot | numFree | freeMap =>
    exact blind_volume.bind fun _ ↦ (blind_operate (blind_query _)).bind fun _ ↦ Step.blind_pure _
  | print index =>
    exact blind_volume.bind fun _ ↦ (blind_session index).bind fun session ↦
      (blind_operate ((blind_query _).bind fun _ ↦ (blind_notes _).bind fun _ ↦
        Operation.blind_pure _)).bind fun _ ↦ Step.blind_pure _
  | openFiles => exact blind_volume.bind fun _ ↦ Step.blind_pure _
  | touch change =>
    exact blind_volume.bind fun _ ↦ (blind_operate ((blind_notes _).bind fun _ ↦
      (blind_notes _).bind fun _ ↦ Operation.blind_pure _)).bind fun _ ↦ Step.blind_pure _
  | sync =>
    exact blind_volume.bind fun _ ↦ (blind_operate (blind_act _)).bind fun _ ↦ Step.blind_pure _
  | geometry =>
    -- The device is asked directly here, and not by an operation.
    refine blind_volume.bind fun _ first second h ↦ ⟨?_, h⟩
    have hanswer : ∀ machine : Machine, ((do
        let device := (← get).host.device
        return .geometry device.sectorCount device.bytesPerSector : Step Reply).run machine).1 =
          .ok (.geometry machine.host.device.sectorCount machine.host.device.bytesPerSector) :=
      fun _ ↦ rfl
    rw [hanswer, hanswer, h.device]
  | resolve start path => exact (blind_operate (blind_query _)).bind fun _ ↦ Step.blind_pure _

/-- Machines that differ in their logs at most answer any requests alike. -/
theorem run_congr {first second : Machine} (h : SameState first second) (requests : List Request) :
    (run requests first).1 = (run requests second).1 ∧
      SameState (run requests first).2 (run requests second).2 := by
  induction requests generalizing first second with
  | nil => exact ⟨rfl, h⟩
  | cons request rest ih =>
    obtain ⟨hanswer, hafter⟩ := blind_answer request first second h
    obtain ⟨hanswers, hend⟩ := ih hafter
    exact ⟨congrArg₂ List.cons hanswer hanswers, hend⟩

end Machine

end SectorFS
