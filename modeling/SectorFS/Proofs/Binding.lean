import Mathlib.Data.List.Induction
import SectorFS.Proofs.Soundness.Handles

namespace SectorFS

open Layout Operation

/-- What holds after some inputs and did not before them was brought about by one of them, and has
held ever since. -/
theorem exists_since {ι : Type} {Held : List ι → Prop} {Sets : List ι → ι → Prop}
    (hstart : ¬Held [])
    (hstep : ∀ earlier input, Held (earlier ++ [input]) → Held earlier ∨ Sets earlier input)
    {inputs : List ι} (h : Held inputs) :
    ∃ earlier input later, inputs = earlier ++ input :: later ∧ Sets earlier input ∧
      ∀ middle, middle <+: later → Held (earlier ++ input :: middle) := by
  induction inputs using List.reverseRecOn with
  | nil => exact absurd h hstart
  | append_singleton inputs last ih =>
    rcases hstep inputs last h with hheld | hsets
    · obtain ⟨earlier, input, later, rfl, hsets, hsince⟩ := ih hheld
      refine ⟨earlier, input, later ++ [last], by simp, hsets, fun middle hmiddle ↦ ?_⟩
      rcases List.prefix_concat_iff.1 hmiddle with rfl | hmiddle
      · rwa [List.append_assoc, List.cons_append] at h
      · exact hsince middle hmiddle
    · refine ⟨inputs, last, [], rfl, hsets, fun middle hmiddle ↦ ?_⟩
      rwa [List.prefix_nil.1 hmiddle]

namespace Operation

variable {α β : Type} {operation : Operation α} {f : α → Operation β} {P : α → Prop} {Q : β → Prop}

def Gives (operation : Operation α) (P : α → Prop) : Prop :=
  ∀ host a after, operation.run host = (.ok a, after) → P a

theorem gives_pure {a : α} (h : P a) : (pure a : Operation α).Gives P := by
  intro host b after hrun
  cases hrun
  exact h

theorem gives_query {ask : Device → Except Error α} (h : ∀ device a, ask device = .ok a → P a) :
    (query ask).Gives P :=
  fun host a _ hrun ↦ h host.device a (Prod.mk.inj hrun).1

theorem Gives.bind (h : operation.Gives P) (h' : ∀ a, P a → (f a).Gives Q) :
    (operation >>= f).Gives Q := by
  intro host b after hrun
  rw [run_bind] at hrun
  cases hfirst : operation.run host with
  | mk outcome middle =>
    rw [hfirst] at hrun
    cases outcome with
    | error error => exact absurd (Prod.mk.inj hrun).1 nofun
    | ok a => exact h' a (h host a middle hfirst) middle b after hrun

theorem gives_bind (h : ∀ a, (f a).Gives Q) : (operation >>= f).Gives Q :=
  Gives.bind (P := fun _ ↦ True) (fun _ _ _ _ ↦ trivial) fun a _ ↦ h a

end Operation

namespace Volume

def Unopened (volume : Volume) : Prop := volume.openTable = .empty maxOpenFiles

theorem unopened_of_assemble (device : Device) (volume : Volume)
    (h : assemble device = .ok volume) : volume.Unopened := by
  obtain ⟨mapFile, -, h⟩ := bind_eq_ok.1 h
  obtain ⟨rootFile, -, h⟩ := bind_eq_ok.1 h
  cases h
  rfl

theorem gives_mount : mount.Gives Unopened :=
  (gives_query unopened_of_assemble).bind fun _ hvolume ↦ gives_bind fun _ ↦ gives_pure hvolume

theorem gives_format : format.Gives Unopened := by
  refine gives_bind fun _ ↦ gives_bind fun _ ↦ gives_bind fun _ ↦ gives_bind fun _ ↦
    gives_bind fun _ ↦ gives_bind fun _ ↦ gives_bind fun _ ↦ gives_bind fun _ ↦ ?_
  refine (gives_query unopened_of_assemble).bind fun _ hvolume ↦ ?_
  exact gives_bind fun _ ↦ gives_bind fun _ ↦ gives_bind fun _ ↦ gives_bind fun _ ↦
    gives_bind fun _ ↦ gives_bind fun _ ↦ gives_pure hvolume

end Volume

def Request.sparesVolume : Request → Bool
  | .format | .mount | .openFile .. | .call .. | .closeAll => false
  | _ => true

namespace Machine

variable {machine after : Machine} {volume : Volume} {request : Request} {requests : List Request}
  {index handle : Nat} {path : String} {opened : OpenFile}

theorem opened?_eq (hv : machine.volume? = some volume) (handle : Nat) :
    machine.opened? handle = volume.openTable.get? handle := by
  rw [opened?, hv, Option.bind_some]

/-- Whatever is bound after was bound before, to the same sector and file. -/
def KeepsBindings (machine after : Machine) : Prop :=
  ∀ handle now, after.opened? handle = some now →
    ∃ was, machine.opened? handle = some was ∧ now.sector = was.sector ∧ now.file = was.file

theorem keepsBindings_of_volume? (h : after.volume? = machine.volume?) :
    KeepsBindings machine after := by
  intro handle now hnow
  rw [opened?, h] at hnow
  exact ⟨now, hnow, rfl, rfl⟩

theorem keepsBindings_of_within {table : OpenTable} (hv : machine.volume? = some volume)
    (hafter : after.volume? = some { volume with openTable := table })
    (h : table.Within volume.openTable) : KeepsBindings machine after := by
  intro handle now hnow
  rw [opened?_eq hafter] at hnow
  rw [opened?_eq hv]
  exact h handle now hnow

theorem opened?_setVolume {operation : Operation Volume} (h : operation.Gives Volume.Unopened)
    (hafter : after = ((do Step.setVolume (← Step.operate operation); return .done :
      Step Reply).run machine).2) :
    after.volume? = machine.volume? ∨ ∀ handle, after.opened? handle = none := by
  rw [hafter, run_setVolume]
  cases hrun : operation.run machine.host with
  | mk outcome host =>
    cases outcome with
    | error error => exact .inl rfl
    | ok volume =>
      refine .inr fun handle ↦ ?_
      have hnone := h machine.host volume host hrun
      rw [opened?, Option.bind_some, hnone, OpenTable.get?_empty]

theorem keepsBindings_of_cleared
    (h : after.volume? = machine.volume? ∨ ∀ handle, after.opened? handle = none) :
    KeepsBindings machine after := by
  rcases h with hv | hnone
  · exact keepsBindings_of_volume? hv
  · exact fun handle now hnow ↦ nomatch (hnone handle).symm.trans hnow

theorem keepsBindings_call (handle : Nat) (call : HandleCall) (machine : Machine) :
    KeepsBindings machine (step (.call handle call) machine).2 := by
  rw [step_call]
  cases hv : machine.volume? with
  | none => exact keepsBindings_of_volume? rfl
  | some volume =>
    dsimp only
    rw [OpenTable.run_call]
    cases hget : volume.openTable.get? handle with
    | none => exact keepsBindings_of_volume? hv.symm
    | some opened =>
      dsimp only
      cases hrun : (opened.call handle call).run machine.host with
      | mk outcome host =>
        cases outcome with
        | error error => exact keepsBindings_of_volume? hv.symm
        | ok answer =>
          obtain ⟨reply, slot⟩ := answer
          exact keepsBindings_of_within hv rfl (OpenTable.within_set_of_call hget hrun)

theorem volume?_onTree {operation : Volume → Session → Operation Unit}
    {action : Volume → Session → Action Unit}
    (hacts : ∀ volume session, (operation volume session).ActsAs (action volume session)) :
    ((Step.onTree index operation).run machine).2.volume? = machine.volume? := by
  rcases onTree_cases machine index hacts with ⟨hsame, -⟩ | ⟨_, _, -, -, -, -, hv, -⟩
  · exact hsame.volume
  · exact hv

theorem volume?_enter (index : Nat) (path : String) (machine : Machine) :
    (step (.enter index path) machine).2.volume? = machine.volume? := by
  rw [step_enter]
  cases hv : machine.volume? with
  | none => exact hv
  | some volume =>
    cases machine.sessions[index]? with
    | none => exact hv
    | some session =>
      dsimp only
      cases (Volume.enter session path).run machine.host with
      | mk outcome host => cases outcome <;> rfl

theorem volume?_step (h : request.sparesVolume = true) (machine : Machine) :
    (step request machine).2.volume? = machine.volume? := by
  by_cases hquestion : request.isQuestion = true
  · exact (sameState_step hquestion machine).volume
  · cases request with
    | newSession =>
      rw [step_newSession]
      cases hv : machine.volume? with
      | none => exact hv
      | some volume => rfl
    | addSession session => rfl
    | setDirectory index sector =>
      rw [step, answer, run_bind, Step.run_session]
      cases machine.sessions[index]? <;> rfl
    | enter index path => exact volume?_enter index path machine
    | sync =>
      rw [step_sync]
      cases hv : machine.volume? with
      | none => exact hv
      | some volume => rfl
    | createFile index path size =>
      exact volume?_onTree fun volume session ↦ volume.actsAs_createEntry session path _ _
    | createDirectory index path =>
      exact volume?_onTree fun volume session ↦ volume.actsAs_createEntry session path _ _
    | remove index path =>
      exact volume?_onTree fun volume session ↦ volume.actsAs_remove session path
    | format | mount | openFile | call | closeAll => contradiction
    | _ => exact absurd rfl hquestion

/-- The other requests leave all bindings alone or end all of them. -/
theorem volume?_step_or_cleared (hopen : ∀ index path, request ≠ .openFile index path)
    (hcall : ∀ handle call, request ≠ .call handle call) (machine : Machine) :
    (step request machine).2.volume? = machine.volume? ∨
      ∀ handle, (step request machine).2.opened? handle = none := by
  cases request with
  | openFile index path => exact absurd rfl (hopen index path)
  | call handle call => exact absurd rfl (hcall handle call)
  | format => exact opened?_setVolume Volume.gives_format rfl
  | mount => exact opened?_setVolume Volume.gives_mount rfl
  | closeAll =>
    rw [step_closeAll]
    cases hv : machine.volume? with
    | none => exact .inl hv
    | some volume => exact .inr fun handle ↦ OpenTable.get?_empty _ handle
  | _ => exact .inl (volume?_step rfl machine)

/-- Only opening a file binds a handle. -/
theorem keepsBindings_step (h : ∀ index path, request ≠ .openFile index path) (machine : Machine) :
    KeepsBindings machine (step request machine).2 := by
  by_cases hcall : ∀ handle call, request ≠ .call handle call
  · exact keepsBindings_of_cleared (volume?_step_or_cleared h hcall machine)
  · simp only [not_forall, not_not] at hcall
    obtain ⟨handle, call, rfl⟩ := hcall
    exact keepsBindings_call handle call machine

theorem openFile_cases (machine : Machine) (index : Nat) (path : String) :
    (∃ failure, (step (.openFile index path) machine).1 = .error failure) ∧
        (step (.openFile index path) machine).2.volume? = machine.volume? ∨
      ∃ volume session handle left after, machine.volume? = some volume ∧
        machine.sessions[index]? = some session ∧
        (volume.openFile session path).run machine.host = (.ok (handle, left), after) ∧
        step (.openFile index path) machine =
          (.ok (.number handle), { machine with host := after, volume? := some left }) := by
  rw [step_openFile]
  cases hv : machine.volume? with
  | none => exact .inl ⟨⟨_, rfl⟩, hv⟩
  | some volume =>
    cases machine.sessions[index]? with
    | none => exact .inl ⟨⟨_, rfl⟩, hv⟩
    | some session =>
      dsimp only
      cases hrun : (volume.openFile session path).run machine.host with
      | mk outcome after =>
        cases outcome with
        | error error => exact .inl ⟨⟨_, rfl⟩, rfl⟩
        | ok answer =>
          exact .inr ⟨volume, session, answer.1, answer.2, after, rfl, rfl, hrun, rfl⟩

/-- A path that was opened leads to the sector that its handle is bound to. -/
theorem of_openFile (h : (step (.openFile index path) machine).1 = .ok (.number handle)) :
    ∃ session s opened, machine.sessions[index]? = some session ∧
      Volume.lookup session path machine.host.device = .ok s ∧
      (step (.openFile index path) machine).2.opened? handle = some opened ∧ opened.sector = s := by
  rcases openFile_cases machine index path with ⟨⟨failure, hfailed⟩, -⟩ |
    ⟨volume, session, bound, left, after, hv, hs, hrun, hstep⟩
  · exact absurd (h.symm.trans hfailed) nofun
  · rw [hstep] at h ⊢
    cases h
    rw [opened?, Option.bind_some]
    obtain ⟨s, hlookup, ⟨rfl, opened, hget, hsector⟩ | ⟨file, -, -, hlt, rfl⟩⟩ :=
      Volume.openFile_ok hrun
    · exact ⟨session, s, opened, hs, hlookup, hget, hsector⟩
    · refine ⟨session, s, ⟨s, OpenTable.keptName path, 0, file⟩, hs, hlookup, ?_, rfl⟩
      rw [OpenTable.get?_set, if_pos ⟨rfl, hlt⟩]

/-- What is bound after a step was bound before it, or the step opened the file. -/
theorem opened?_of_step {now : OpenFile} (h : (step request machine).2.opened? handle = some now) :
    (∃ was, machine.opened? handle = some was ∧ now.sector = was.sector ∧ now.file = was.file) ∨
      machine.opened? handle = none ∧ machine.host.device.openFile now.sector = .ok now.file ∧
        ∃ index path, request = .openFile index path := by
  by_cases hopening : ∀ index path, request ≠ .openFile index path
  · exact .inl (keepsBindings_step hopening machine handle now h)
  · simp only [not_forall, not_not] at hopening
    obtain ⟨index, path, rfl⟩ := hopening
    rcases openFile_cases machine index path with ⟨-, hv⟩ |
      ⟨volume, session, bound, left, after, hv, -, hrun, hstep⟩
    · exact .inl (keepsBindings_of_volume? hv handle now h)
    · rw [hstep, opened?, Option.bind_some] at h
      rw [opened?_eq hv]
      obtain ⟨s, -, ⟨rfl, -⟩ | ⟨file, hopen, hfree, -, rfl⟩⟩ := Volume.openFile_ok hrun
      · exact .inl ⟨now, h, rfl, rfl⟩
      · rw [OpenTable.get?_set] at h
        split at h
        · next hself =>
          obtain ⟨rfl, -⟩ := hself
          cases h
          exact .inr ⟨hfree, hopen, index, path, rfl⟩
        · exact .inl ⟨now, h, rfl, rfl⟩

theorem run_concat (requests : List Request) (request : Request) (machine : Machine) :
    (run (requests ++ [request]) machine).2 = (step request (run requests machine).2).2 := by
  induction requests generalizing machine with
  | nil => rfl
  | cons first rest ih => exact ih (step first machine).2

/-- In the course of the run the handle was bound to the file found at that sector then, and it has
been bound to it ever since. -/
def BoundAlong (machine : Machine) (requests : List Request) (handle : Nat) (s : UInt32)
    (file : File) : Prop :=
  ∃ earlier index path later, requests = earlier ++ .openFile index path :: later ∧
    (run earlier machine).2.opened? handle = none ∧
    (run earlier machine).2.host.device.openFile s = .ok file ∧
    ∀ middle, middle <+: later → ∃ opened,
      (run (earlier ++ .openFile index path :: middle) machine).2.opened? handle = some opened ∧
        opened.sector = s ∧ opened.file = file

/-- What is bound at the end of a run was bound in it, if it was not at its beginning. -/
theorem bound_of_run (hstart : machine.opened? handle = none)
    (h : (run requests machine).2.opened? handle = some opened) :
    BoundAlong machine requests handle opened.sector opened.file := by
  let Held (requests : List Request) : Prop := ∃ now,
    (run requests machine).2.opened? handle = some now ∧
      now.sector = opened.sector ∧ now.file = opened.file
  let Binds (earlier : List Request) (request : Request) : Prop :=
    (run earlier machine).2.opened? handle = none ∧
      (run earlier machine).2.host.device.openFile opened.sector = .ok opened.file ∧
        ∃ index path, request = .openFile index path
  have hfirst : ¬Held [] := fun ⟨now, hnow, _⟩ ↦ nomatch hstart.symm.trans hnow
  have hstep : ∀ earlier request, Held (earlier ++ [request]) →
      Held earlier ∨ Binds earlier request := by
    rintro earlier request ⟨now, hnow, hsector, hfile⟩
    rw [run_concat] at hnow
    rcases opened?_of_step hnow with ⟨was, hwas, hs, hf⟩ | ⟨hfree, hopen, hrequest⟩
    · exact .inl ⟨was, hwas, hs ▸ hsector, hf ▸ hfile⟩
    · exact .inr ⟨hfree, hsector ▸ hfile ▸ hopen, hrequest⟩
  obtain ⟨earlier, request, later, rfl, ⟨hfree, hopen, index, path, rfl⟩, hsince⟩ :=
    exists_since hfirst hstep ⟨opened, h, rfl, rfl⟩
  exact ⟨earlier, index, path, later, rfl, hfree, hopen, hsince⟩

end Machine

end SectorFS
