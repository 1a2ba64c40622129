import SectorFS.Proofs.Binding
import SectorFS.Proofs.Linkage
import SectorFS.Proofs.Machine.Unlogged
import SectorFS.Proofs.Soundness.Headers

namespace SectorFS

open Layout

namespace Machine

variable {machine : Machine} {volume left : Volume} {tree : Tree} {request : Request}
  {index handle : Nat} {path : String}

def Sized (machine : Machine) : Prop :=
  ∀ volume, machine.volume? = some volume → volume.openTable.capacity = maxOpenFiles

theorem sized_start (device : Device) : (start device).Sized := nofun

theorem capacity_of_unopened (h : volume.Unopened) : volume.openTable.capacity = maxOpenFiles := by
  rw [h, OpenTable.capacity]
  exact List.length_replicate

theorem capacity_set (table : OpenTable) (handle : Nat) (slot : Option OpenFile) :
    (table.set handle slot).capacity = table.capacity := List.length_set

theorem sized_setVolume {operation : Operation Volume} (h : operation.Gives Volume.Unopened)
    (hsized : machine.Sized) : Sized ((do
      Step.setVolume (← Step.operate operation); return .done : Step Reply).run machine).2 := by
  rw [run_setVolume]
  cases hrun : operation.run machine.host with
  | mk outcome host =>
    cases outcome with
    | error error => exact hsized
    | ok volume =>
      intro _ hv
      cases hv
      exact capacity_of_unopened (h machine.host volume host hrun)

theorem sized_openFile (hsized : machine.Sized) :
    Sized (step (.openFile index path) machine).2 := by
  rcases openFile_cases machine index path with ⟨-, hv⟩ |
    ⟨volume, session, bound, left, after, hv, -, hrun, hstep⟩
  · intro volume hvolume
    exact hsized volume (hv ▸ hvolume)
  · intro _ hleft
    rw [hstep] at hleft
    cases hleft
    obtain ⟨s, -, ⟨rfl, -⟩ | ⟨file, -, -, -, rfl⟩⟩ := Volume.openFile_ok hrun
    · exact hsized _ hv
    · exact (capacity_set _ _ _).trans (hsized volume hv)

theorem sized_call (handle : Nat) (call : HandleCall) (hsized : machine.Sized) :
    Sized (step (.call handle call) machine).2 := by
  rw [step_call]
  cases hv : machine.volume? with
  | none => exact hsized
  | some volume =>
    dsimp only
    rw [OpenTable.run_call]
    cases volume.openTable.get? handle with
    | none => exact hv ▸ hsized
    | some opened =>
      dsimp only
      cases (opened.call handle call).run machine.host with
      | mk outcome host =>
        cases outcome with
        | error error => exact hv ▸ hsized
        | ok answer =>
          intro _ hleft
          cases hleft
          exact (capacity_set _ _ _).trans (hsized volume hv)

theorem sized_step (hsized : machine.Sized) (request : Request) : Sized (step request machine).2 := by
  cases request with
  | format => exact sized_setVolume Volume.gives_format hsized
  | mount => exact sized_setVolume Volume.gives_mount hsized
  | openFile index path => exact sized_openFile hsized
  | call handle call => exact sized_call handle call hsized
  | closeAll =>
    rw [step_closeAll]
    cases hv : machine.volume? with
    | none => exact hsized
    | some volume =>
      intro _ hleft
      cases hleft
      exact List.length_replicate.trans (hsized volume hv)
  | _ => exact fun volume hv ↦ hsized volume ((volume?_step rfl machine).symm.trans hv)

theorem sized_run (hsized : machine.Sized) (requests : List Request) :
    Sized (run requests machine).2 := by
  induction requests generalizing machine with
  | nil => exact hsized
  | cons request rest ih => exact ih (sized_step hsized request)

/-- Mounting the device that a machine is in use on, and closing all its files, are the same to
whoever goes on with it; and what the volume keeps of the device is what is there. -/
structure Remounts (machine : Machine) : Prop where
  /-- The headers that the volume keeps are those on the device. -/
  headers : ∃ volume, machine.volume? = some volume ∧
    machine.host.device.openFile freeMapSector = .ok volume.freeMapFile ∧
    machine.host.device.openFile rootSector = .ok volume.rootFile
  /-- The file of the root that is held open lists what a session at the root lists. -/
  listing : ∃ entries, (step .listRoot machine).1 = .ok (.entries entries) ∧
    ((Volume.list {}).run machine.host).1 = .ok entries
  mounts : (step .mount machine).1 = .ok .done
  alike : ∀ later, (run later (step .mount machine).2).1 = (run later (step .closeAll machine).2).1 ∧
    SameState (run later (step .closeAll machine).2).2 (run later (step .mount machine).2).2

theorem Sound.listing (h : machine.Sound volume tree) :
    ∃ entries, (step .listRoot machine).1 = .ok (.entries entries) ∧
      ((Volume.list {}).run machine.host).1 = .ok entries := by
  obtain ⟨table, ⟨file, hopen, -⟩, -⟩ := h.stored.tables _ _ (Tree.hasDirectory_root tree)
  obtain ⟨hfile, hread⟩ := Device.openDirectory_eq_ok_iff.1 hopen
  cases hfile.symm.trans h.current.root
  have hroot : volume.listRoot machine.host.device = .ok table.list :=
    bind_eq_ok.2 ⟨table, hread, rfl⟩
  refine ⟨table.list, ?_, ?_⟩
  · rw [step, answer, run_bind, Step.run_volume, h.mounted]
    simp only [run_bind, Step.run_operate, Operation.run_query, hroot]
    rfl
  · rw [Volume.list, run_bind, Operation.run_query, hopen]
    rfl

theorem Sound.remounts (h : machine.Sound volume tree) (hsized : machine.Sized) :
    machine.Remounts := by
  have hmount := h.run_mount
  have hclosed := step_closeAll machine
  rw [h.mounted] at hclosed
  dsimp only at hclosed
  have hsame : SameState (step .closeAll machine).2 (step .mount machine).2 := by
    rw [hmount, hclosed, hsized volume h.mounted]
    exact ⟨rfl, rfl, rfl⟩
  refine ⟨⟨volume, h.mounted, h.current.map, h.current.root⟩, h.listing, congrArg Prod.fst hmount,
    fun later ↦ ?_⟩
  obtain ⟨hanswers, hafter⟩ := run_congr hsame later
  exact ⟨hanswers.symm, hafter⟩

/-- The headers of the free map and of the root are not written again once the volume was laid out,
and after every disciplined run the volume can be taken up anew without any difference to what is
answered and stored from there on, but that no file is open. -/
theorem remounts_of_disciplined {device : Device} (h : device.Ready) {requests : List Request}
    (hd : disciplined [] (step .format (start device)).2 requests = true) :
    (step .format (start device)).2.host.device.Spares
        (run (.format :: requests) (start device)).2.host.device wellKnown ∧
      (run (.format :: requests) (start device)).2.Remounts := by
  obtain ⟨-, volume, hsound⟩ := sound_format h
  obtain ⟨left, tree, hrun⟩ := sound_of_disciplined h hd
  have hknows : KnowsRegular [] volume [] := nofun
  exact ⟨hsound.spares_run hknows hd, hrun.remounts (sized_run (sized_start device) _)⟩

theorem remounts_of_disciplined_errands :
    (Device.blank 1024 128).Ready ∧
      disciplined [] (step .format (start (.blank 1024 128))).2 errands = true ∧
      (step .format (start (.blank 1024 128))).2.host.device.Spares
        (run (.format :: errands) (start (.blank 1024 128))).2.host.device wellKnown ∧
      (run (.format :: errands) (start (.blank 1024 128))).2.Remounts := by
  have hready : (Device.blank 1024 128).Ready := Device.ready_blank (Nat.le_refl _)
  have hd : disciplined [] (step .format (start (.blank 1024 128))).2 errands = true := by
    decide +kernel
  exact ⟨hready, hd, remounts_of_disciplined hready hd⟩

end Machine

end SectorFS
