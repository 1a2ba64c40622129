import SectorFS.Operation
import SectorFS.Proofs.Device.Edits

namespace SectorFS.Operation

variable {α β : Type} {operation : Operation α} {action : Action α} {f : α → Operation β}
  {g : α → Action β} {host : Host}

/-- The operation does to the device what the action does. -/
def ActsAs (operation : Operation α) (action : Action α) : Prop :=
  ∀ host, action.run host.device = ((operation.run host).1, (operation.run host).2.device)

theorem ActsAs.eq_of_run (h : operation.ActsAs action) {outcome : Except Error α} {after : Device}
    (hrun : action.run host.device = (outcome, after)) :
    (operation.run host).1 = outcome ∧ (operation.run host).2.device = after :=
  Prod.mk.inj ((h host).symm.trans hrun)

def Quiet (operation : Operation α) : Prop :=
  ∀ host, (operation.run host).2.device = host.device

theorem run_query (ask : Device → Except Error α) (host : Host) :
    (query ask).run host = (ask host.device, host) := rfl

theorem run_act (action : Action α) (host : Host) : (act action).run host =
    ((action.run host.device).1, { host with device := (action.run host.device).2 }) := rfl

theorem notes_nil : notes [] = pure () := funext fun host ↦ by
  change (Except.ok (), { host with log := host.log ++ [] }) = (Except.ok (), host)
  rw [List.append_nil]

theorem notes_append (first second : List Event) :
    notes (first ++ second) = notes first >>= fun _ ↦ notes second := funext fun host ↦ by
  change (Except.ok (), { host with log := host.log ++ (first ++ second) }) =
    (Except.ok (), { host with log := host.log ++ first ++ second })
  rw [List.append_assoc]

theorem actsAs_query (ask : Device → Except Error α) : (query ask).ActsAs (Action.query ask) :=
  fun _ ↦ rfl

theorem actsAs_act (action : Action α) : (act action).ActsAs action := fun _ ↦ rfl

theorem actsAs_pure (a : α) : (pure a : Operation α).ActsAs (pure a) := fun _ ↦ rfl

theorem actsAs_note (event : Event) : (note event).ActsAs (pure ()) := fun _ ↦ rfl

theorem ActsAs.bind (h : operation.ActsAs action) (h' : ∀ a, (f a).ActsAs (g a)) :
    (operation >>= f).ActsAs (action >>= g) := by
  intro host
  rw [run_bind, run_bind, h host]
  cases hr : operation.run host with
  | mk outcome after =>
    cases outcome with
    | error error => rfl
    | ok a => exact h' a after

theorem ActsAs.note_bind (event : Event) {action : Action β} {operation : Operation β}
    (h : operation.ActsAs action) : (note event >>= fun _ ↦ operation).ActsAs action := fun host ↦
  h { host with log := host.log ++ [event] }

theorem run_noteFailure (event : Error → Event) (operation : Operation α) (host : Host) :
    (noteFailure event operation).run host = match operation.run host with
      | (.ok a, after) => (.ok a, after)
      | (.error error, after) =>
        (.error error, { after with log := after.log ++ [event error] }) := rfl

theorem ActsAs.noteFailure {event : Error → Event} (h : operation.ActsAs action) :
    (noteFailure event operation).ActsAs action := by
  intro host
  rw [h host, run_noteFailure]
  cases hr : operation.run host with
  | mk outcome after => cases outcome <;> rfl

theorem quiet_query (ask : Device → Except Error α) : (query ask).Quiet := fun _ ↦ rfl

theorem quiet_notes (events : List Event) : (notes events).Quiet := fun _ ↦ rfl

theorem quiet_pure (a : α) : (pure a : Operation α).Quiet := fun _ ↦ rfl

theorem quiet_throw (error : Error) : (throw error : Operation α).Quiet := fun _ ↦ rfl

theorem Quiet.bind (h : operation.Quiet) (h' : ∀ a, (f a).Quiet) : (operation >>= f).Quiet := by
  intro host
  have hdevice := h host
  rw [run_bind]
  cases hr : operation.run host with
  | mk outcome after =>
    rw [hr] at hdevice
    cases outcome with
    | error error => exact hdevice
    | ok a => exact (h' a after).trans hdevice

theorem Quiet.noteFailure {event : Error → Event} (h : operation.Quiet) :
    (noteFailure event operation).Quiet := by
  intro host
  have hdevice := h host
  rw [run_noteFailure]
  cases hr : operation.run host with
  | mk outcome after =>
    rw [hr] at hdevice
    cases outcome <;> exact hdevice

end SectorFS.Operation
