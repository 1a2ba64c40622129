import SectorFS.Proofs.Soundness.Changes
import SectorFS.Proofs.Soundness.Handles
import SectorFS.Proofs.Tree.Format

namespace SectorFS

open Layout Operation

theorem Volume.moved_of_enter {session moved : Session} {path : String} {host after : Host}
    (h : (enter session path).run host = (.ok moved, after)) :
    Path.resolve session.directory path host.device = .ok moved.directory := by
  unfold enter at h
  by_cases hempty : path.isEmpty = true
  · rw [if_pos hempty] at h
    exact absurd (congrArg Prod.fst h) nofun
  · rw [if_neg hempty] at h
    have hwalk : ((noteFailure (.enterFailed path)
        (query (Path.resolve session.directory path)) >>= fun sector ↦
          note (.entered path sector) >>= fun _ ↦ pure ⟨sector⟩ : Operation Session)).run host =
            (.ok moved, after) := h
    rw [run_bind, Operation.run_noteFailure, Operation.run_query] at hwalk
    cases hresolve : Path.resolve session.directory path host.device with
    | error error =>
      rw [hresolve] at hwalk
      exact absurd (congrArg Prod.fst hwalk) nofun
    | ok s =>
      rw [hresolve] at hwalk
      cases hwalk
      rfl

/-- A device that works, with as many sectors of the right size as it reports, enough for a
volume. -/
structure Device.Ready (device : Device) : Prop where
  faultFree : device.faults = {}
  sectorSize : device.bytesPerSector = Layout.sectorSize
  room : numSectors ≤ device.sectorCount
  sectorCount : device.sectorCount = device.blocks.size

theorem Device.ready_blank {count : Nat} (h : numSectors ≤ count) :
    (Device.blank count Layout.sectorSize).Ready :=
  ⟨rfl, rfl, h, Array.size_replicate.symm⟩

namespace Machine

variable {machine : Machine} {volume : Volume} {tree : Tree} {request : Request}
  {requests rest : List Request} {regular : List Nat} {index : Nat} {path : String}

theorem KnowsRegular.empty (regular : List Nat) (capacity : Nat) (tree : Tree)
    (mapFile rootFile : File) :
    KnowsRegular regular ⟨mapFile, rootFile, .empty capacity⟩ tree := by
  intro handle _ opened hget
  rw [OpenTable.get?_empty] at hget
  contradiction

theorem Sound.leads_closeAll (h : machine.Sound volume tree)
    (hknows : KnowsRegular regular volume tree) :
    Leads machine (step .closeAll machine).2 regular tree .closeAll := by
  have hwithin := OpenTable.within_empty volume.openTable.capacity volume.openTable
  rw [step_closeAll, h.mounted]
  exact h.leads_of_blocks h.faultFree rfl rfl (h.opened_of_within hwithin) ⟨rfl, rfl⟩ h.sessions
    (hknows.of_within hwithin) fun _ _ ↦ rfl

theorem Sound.leads_enter (h : machine.Sound volume tree)
    (hknows : KnowsRegular regular volume tree) :
    Leads machine (step (.enter index path) machine).2 regular tree (.enter index path) := by
  rw [step_enter, h.mounted]
  cases hs : machine.sessions[index]? with
  | none => exact h.leads_of_sameState hknows (.refl machine) fun _ _ ↦ rfl
  | some session =>
    dsimp only
    have hquiet := Volume.quiet_enter session path machine.host
    cases hrun : (Volume.enter session path).run machine.host with
    | mk outcome host =>
      rw [hrun] at hquiet
      cases outcome with
      | error error =>
        exact h.leads_of_sameState hknows ⟨hquiet, h.mounted.symm, rfl⟩ fun _ _ ↦ rfl
      | ok moved =>
        obtain ⟨up, hup⟩ := h.sessions session (Array.mem_of_getElem? hs)
        have hmoved := h.stored.hasDirectory_resolve hup (Volume.moved_of_enter hrun)
        refine h.leads_of_blocks (hquiet ▸ h.faultFree) (congrArg _ hquiet) rfl h.current.opened
          ⟨rfl, rfl⟩ (fun other hother ↦ ?_) hknows fun _ _ ↦ rfl
        rcases Array.mem_or_eq_of_mem_setIfInBounds hother with hother | rfl
        · exact h.sessions other hother
        · exact hmoved

theorem Sound.leads_session (h : machine.Sound volume tree)
    (hknows : KnowsRegular regular volume tree) {session : Session}
    (hroot : session.directory = rootSector)
    (heffect : ∀ sector bytes, machine.effect sector request bytes = bytes) :
    Leads machine { machine with sessions := machine.sessions.push session } regular tree request := by
  refine h.leads_of_blocks h.faultFree rfl h.mounted h.current.opened ⟨rfl, rfl⟩
    (fun other hother ↦ ?_) hknows heffect
  rcases Array.mem_push.1 hother with hother | rfl
  · exact h.sessions other hother
  · exact ⟨rootSector, hroot ▸ Tree.hasDirectory_root tree⟩

theorem Sound.run_mount (h : machine.Sound volume tree) : step .mount machine = (.ok .done,
    { machine with
      host := { machine.host with log := machine.host.log ++ [.mounted] }
      volume? := some ⟨volume.freeMapFile, volume.rootFile, .empty maxOpenFiles⟩ }) := by
  have hassemble : Volume.assemble machine.host.device =
      .ok ⟨volume.freeMapFile, volume.rootFile, .empty maxOpenFiles⟩ :=
    bind_eq_ok.2 ⟨_, h.current.map, bind_eq_ok.2 ⟨_, h.current.root, rfl⟩⟩
  have hrun : Volume.mount.run machine.host =
      (.ok ⟨volume.freeMapFile, volume.rootFile, .empty maxOpenFiles⟩,
        { machine.host with log := machine.host.log ++ [.mounted] }) := by
    rw [Volume.mount, run_bind, Operation.run_query, hassemble]
    rfl
  have hstep := run_setVolume Volume.mount machine
  rw [hrun] at hstep
  exact hstep

theorem Sound.leads_mount (h : machine.Sound volume tree) :
    Leads machine (step .mount machine).2 regular tree .mount := by
  rw [h.run_mount]
  refine h.leads_of_blocks h.faultFree rfl rfl (fun handle opened hget ↦ ?_) ⟨rfl, rfl⟩ h.sessions
    (.empty _ _ _ _ _) fun _ _ ↦ rfl
  rw [OpenTable.get?_empty] at hget
  contradiction

theorem Sound.leads_sync (h : machine.Sound volume tree)
    (hknows : KnowsRegular regular volume tree) :
    Leads machine (step .sync machine).2 regular tree .sync := by
  have hflush : ((Operation.act Action.flush).run machine.host).2.device =
      { machine.host.device with flushes := machine.host.device.flushes + 1 } :=
    congrArg Prod.snd (Action.run_flush h.faultFree)
  rw [step_sync, h.mounted]
  refine h.leads_of_blocks ?_ ?_ rfl h.current.opened ⟨rfl, rfl⟩ h.sessions hknows
    fun _ _ ↦ rfl
  · rw [hflush]
    exact h.faultFree
  · rw [hflush]

/-- The step lemma of the invariant. -/
theorem Sound.leads_step (h : machine.Sound volume tree) (hknows : KnowsRegular regular volume tree)
    (hadmits : machine.admits regular request = true) :
    Leads machine (step request machine).2
      (machine.track regular request (step request machine).1) tree request := by
  by_cases hquestion : request.isQuestion = true
  · have hsame := sameState_step hquestion machine
    cases request with
    | _ => first
      | contradiction
      | exact h.leads_of_sameState hknows hsame fun _ _ ↦ rfl
  · cases request with
    | format => contradiction
    | setDirectory index sector => contradiction
    | mount => exact h.leads_mount
    | newSession =>
      have hstep : step .newSession machine = (.ok (.number machine.sessions.size),
          { machine with sessions := machine.sessions.push {} }) := by
        rw [step_newSession, h.mounted]
      rw [hstep]
      exact h.leads_session hknows rfl (effect_of_ne nofun)
    | addSession session =>
      exact h.leads_session hknows (beq_iff_eq.1 hadmits) (effect_of_ne nofun)
    | createFile index path size => exact h.leads_create hknows nofun (effect_of_ne nofun)
    | createDirectory index path =>
      exact h.leads_create hknows (fun _ ↦ rfl) (effect_of_ne nofun)
    | openFile index path => exact h.leads_openFile hknows
    | call handle call => exact h.leads_call hknows hadmits
    | closeAll => exact h.leads_closeAll hknows
    | remove index path => exact h.leads_remove hknows hadmits
    | enter index path => exact h.leads_enter hknows
    | sync => exact h.leads_sync hknows
    | _ => exact absurd rfl hquestion

/-- Whatever was on the device, laying out a volume succeeds, and gives the same volume. -/
theorem step_format {device : Device} (h : device.Ready) {mapHeader rootHeader : Header}
    {map : FreeMap} (b : Volume.Blueprint mapHeader rootHeader map) {root : Directory}
    (hroot : Directory.linked directorySlots rootSector rootSector = .ok root)
    (hcap : root.capacity = directorySlots) :
    ∃ host, step .format (start device) =
        (.ok .done, ⟨host, some ⟨b.mapFile, b.rootFile, .empty maxOpenFiles⟩, #[{}]⟩) ∧
      host.device.faults = {} ∧ host.device.blocks = (b.laid root device).blocks := by
  have hroom : numSectors ≤ device.blocks.size := h.sectorCount ▸ h.room
  have hgeometry : Volume.checkGeometry device = .ok () := if_pos ⟨h.room, h.sectorSize⟩
  have hrun := b.run_formatting hroom h.faultFree hgeometry hroot hcap
  have hacts := Volume.actsAs_format (start device).host
  rw [show (start device).host.device = device from rfl, hrun] at hacts
  have hstep := run_setVolume Volume.format (start device)
  generalize Volume.format.run (start device).host = answered at hacts hstep
  obtain ⟨outcome, host⟩ := answered
  obtain ⟨rfl, hdevice⟩ := Prod.mk.inj hacts
  refine ⟨host, hstep, ?_, ?_⟩
  · exact hdevice ▸ b.faults_laid h.faultFree root
  · exact hdevice ▸ rfl

/-- A machine just laid out is sound, and has the empty tree. -/
theorem sound_format {device : Device} (h : device.Ready) :
    (step .format (start device)).1 = .ok .done ∧
      ∃ volume, (step .format (start device)).2.Sound volume [] := by
  have hroom : numSectors ≤ device.blocks.size := h.sectorCount ▸ h.room
  obtain ⟨mapHeader, rootHeader, map, b⟩ := Volume.exists_blueprint
  obtain ⟨root, hroot, hcap, hlinked, hchildren, hnames⟩ :=
    Directory.exists_linked rootSector rootSector
  obtain ⟨host, hstep, hf, hblocks⟩ := step_format h b hroot hcap
  rw [hstep]
  refine ⟨rfl, ⟨b.mapFile, b.rootFile, .empty maxOpenFiles⟩, ?_⟩
  have hlaid := b.faults_laid h.faultFree root
  have hstored := b.stored hroom h.faultFree hcap hlinked hchildren
  have hframe := hstored.frame_of_blocks hblocks
  obtain ⟨hmap, hrootFile⟩ := b.openFile_laid hroom h.faultFree root
  have hcurrent : Volume.Current ⟨b.mapFile, b.rootFile, .empty maxOpenFiles⟩ []
      (b.laid root device) := by
    refine ⟨hmap, hrootFile, fun handle opened hget ↦ ?_⟩
    rw [OpenTable.get?_empty] at hget
    contradiction
  refine ⟨hf, hframe.stored hlaid hf hstored (fun _ _ _ ↦ id) id,
    hframe.tidy hlaid hf hstored (fun _ _ _ ↦ id) id (b.tidy hroom h.faultFree hcap hnames), rfl,
    hframe.current hlaid hf hcurrent fun handle opened hget ↦ (hcurrent.opened handle opened hget).1,
    fun session hsession ↦ ⟨rootSector, ?_⟩⟩
  obtain rfl := Array.mem_singleton.1 hsession
  exact Tree.hasDirectory_root []

/-- The invariant holds after the first part of every disciplined run, and the rest of the run is
disciplined there. -/
theorem Sound.run (h : machine.Sound volume tree) (hknows : KnowsRegular regular volume tree)
    (hd : disciplined regular machine (requests ++ rest) = true) :
    ∃ known left grown, (Machine.run requests machine).2.Sound left grown ∧
      KnowsRegular known left grown ∧
      disciplined known (Machine.run requests machine).2 rest = true := by
  induction requests generalizing regular machine volume tree with
  | nil => exact ⟨regular, volume, tree, h, hknows, hd⟩
  | cons request requests ih =>
    obtain ⟨hadmits, hrest⟩ := disciplined_cons.1 hd
    obtain ⟨left, grown, hsound, hleft, -⟩ := h.leads_step hknows hadmits
    exact ih hsound hleft hrest

theorem sound_of_disciplined {device : Device} (h : device.Ready)
    (hd : disciplined [] (step .format (start device)).2 requests = true) :
    ∃ volume tree, (Machine.run (.format :: requests) (start device)).2.Sound volume tree := by
  obtain ⟨-, volume, hsound⟩ := sound_format h
  have hknows : KnowsRegular [] volume [] := nofun
  rw [← List.append_nil requests] at hd
  obtain ⟨-, left, tree, hrun, -, -⟩ := hsound.run hknows hd
  exact ⟨left, tree, hrun⟩

end Machine

end SectorFS
