import SectorFS.Proofs.Contents
import SectorFS.Proofs.Soundness.Twins

namespace SectorFS

open Layout

namespace Machine

variable {first second : Machine} {volume : Volume} {tree : Tree} {request other : Request}
  {requests others rest left : List Request} {regular : List Nat} {sector : UInt32}

namespace Twins

variable (t : Twins tree first second)
include t

theorem opened?_eq (handle : Nat) : second.opened? handle = first.opened? handle := by
  rw [opened?, t.volume, opened?]

variable (h : first.Sound volume tree)
include h

theorem removal?_eq (request : Request) : second.removal? request = first.removal? request := by
  cases request with
  | remove index path =>
    rw [removal?, removal?, t.sessions]
    cases hs : first.sessions[index]? with
    | none => rfl
    | some session =>
      obtain ⟨up, hup⟩ := h.sessions session (Array.mem_of_getElem? hs)
      rw [Option.bind_some, Option.bind_some, t.alike.find_eq h.stored hup]
  | _ => rfl

theorem mayRemove_eq {removal : Removal} (hremoval : first.removal? request = some removal) :
    second.mayRemove removal = first.mayRemove removal := by
  cases request with
  | remove index path =>
    obtain ⟨session, hs, hfind⟩ := Option.bind_eq_some_iff.1 hremoval
    have hfind : Removal.find session path first.host.device = .ok removal := by
      cases hfound : Removal.find session path first.host.device with
      | error error => rw [hfound] at hfind; contradiction
      | ok found => rw [hfound] at hfind; exact congrArg _ (Option.some.inj hfind)
    obtain ⟨here, above, entry, -, hfound, hmem⟩ := h.found hs hfind
    rw [mayRemove, mayRemove, isOpen, isOpen, t.volume, t.sessions, hfound.named, Option.map_some]
    cases hkind : entry.kind with
    | regular => rfl
    | directory =>
      have hnode : tree.HasDirectory removal.sector here :=
        hfound.sector ▸ .inr ⟨_, hmem, hkind, rfl, rfl⟩
      simp only [Device.hasEmptyDirectory, t.alike.openDirectory_eq h.stored hnode]
  | _ => contradiction

theorem admits_eq (hlike : request.Alike other) :
    second.admits regular other = first.admits regular request := by
  cases hlike with
  | write | writeAt => rfl
  | same =>
    cases request with
    | remove index path =>
      rw [admits, admits, t.removal?_eq h]
      cases hremoval : first.removal? (.remove index path) with
      | none => rfl
      | some removal => exact t.mayRemove_eq h hremoval
    | call handle call => cases call <;> rfl
    | _ => rfl

theorem track_eq (hlike : request.Alike other) :
    second.track regular other (step other second).1 =
      first.track regular request (step request first).1 := by
  cases hlike with
  | write | writeAt => rfl
  | same =>
    cases request with
    | openFile index path =>
      have hkind : (second.sessions[index]?.bind fun session ↦
            (Volume.entryAt session path second.host.device).toOption.map Entry.kind) =
          first.sessions[index]?.bind fun session ↦
            (Volume.entryAt session path first.host.device).toOption.map Entry.kind := by
        rw [t.sessions]
        cases hs : first.sessions[index]? with
        | none => rfl
        | some session =>
          obtain ⟨up, hup⟩ := h.sessions session (Array.mem_of_getElem? hs)
          rw [Option.bind_some, Option.bind_some, t.alike.entryAt_eq h.stored hup]
      rw [(h.twins_openFile t).1]
      cases (step (.openFile index path) first).1 with
      | error failure => rfl
      | ok reply =>
        cases reply with
        | number handle => simp only [track, hkind]
        | _ => rfl
    | _ => rfl

theorem removes_eq (hlike : request.Alike other) (hadmits : first.admits regular request = true) :
    second.removes sector other = first.removes sector request := by
  cases hlike with
  | write | writeAt => rfl
  | same =>
    rw [removes, removes, t.removal?_eq h]
    cases hremoval : first.removal? request with
    | none => rfl
    | some removal =>
      cases request with
      | remove index path =>
        rw [(h.twins_remove t hadmits).1]
      | _ => contradiction

end Twins

def writesTo (machine : Machine) (sector : UInt32) : Request → Bool
  | .call handle call => (machine.opened? handle).any fun opened ↦
      opened.sector == sector && (call.writes? opened.cursor).isSome
  | _ => false

theorem effect_of_not_writesTo {machine : Machine} (h : machine.writesTo sector request = false)
    (bytes : Bytes) : machine.effect sector request bytes = bytes := by
  cases request with
  | call handle call =>
    rw [writesTo] at h
    rw [effect]
    cases hopened : machine.opened? handle with
    | none => rfl
    | some opened =>
      dsimp only
      by_cases hs : opened.sector = sector
      · rw [hopened, Option.any_some, beq_iff_eq.2 hs, Bool.true_and] at h
        rw [if_pos hs, Option.isNone_iff_eq_none.1 (Option.isSome_eq_false_iff.1 h)]
      · rw [if_neg hs]
  | _ => rfl

theorem Twins.writesTo_eq (t : Twins tree first second) (hlike : request.Alike other) :
    second.writesTo sector other = first.writesTo sector request := by
  cases hlike with
  | write | writeAt => rw [writesTo, writesTo, t.opened?_eq]; rfl
  | same =>
    cases request with
    | call handle call => rw [writesTo, writesTo, t.opened?_eq]
    | _ => rfl

def leaves (sector : UInt32) : List Request → Machine → Bool
  | [], _ => true
  | request :: rest, machine =>
    !machine.removes sector request && !machine.writesTo sector request &&
      leaves sector rest (step request machine).2

theorem leaves_cons {machine : Machine} : leaves sector (request :: rest) machine = true ↔
    (machine.removes sector request = false ∧ machine.writesTo sector request = false) ∧
      leaves sector rest (step request machine).2 = true := by
  simp only [leaves, Bool.and_eq_true, Bool.not_eq_true']

theorem keeps_of_leaves {machine : Machine} (h : leaves sector requests machine = true) :
    keeps sector requests machine = true ∧
      ∀ bytes, evolve sector requests machine bytes = bytes := by
  induction requests generalizing machine with
  | nil => exact ⟨rfl, fun _ ↦ rfl⟩
  | cons request requests ih =>
    obtain ⟨⟨hremoves, hwrites⟩, hrest⟩ := leaves_cons.1 h
    obtain ⟨hkeeps, hsame⟩ := ih hrest
    refine ⟨?_, fun bytes ↦ ?_⟩
    · rw [keeps, hremoves, hkeeps]
      rfl
    · rw [evolve, effect_of_not_writesTo hwrites, hsame]

theorem Sound.twins_leads (h : first.Sound volume tree) (t : Twins tree first second)
    (hknows : KnowsRegular regular volume tree) (hlike : request.Alike other)
    (hadmits : first.admits regular request = true) :
    ∃ left grown, (step request first).2.Sound left grown ∧
      KnowsRegular (first.track regular request (step request first).1) left grown ∧
      Twins grown (step request first).2 (step other second).2 := by
  obtain ⟨left, grown, hsound, hleft, -⟩ := h.leads_step hknows hadmits
  obtain ⟨trunk, htwins⟩ := h.twins_step t hknows hlike hadmits
  exact ⟨left, grown, hsound, hleft, htwins.of_stored hsound.stored⟩

theorem Sound.twins_run (h : first.Sound volume tree) (t : Twins tree first second)
    (hknows : KnowsRegular regular volume tree) (hlike : List.Forall₂ Request.Alike requests others)
    (hd : disciplined regular first (requests ++ rest) = true) :
    ∃ known left grown, (Machine.run requests first).2.Sound left grown ∧
      KnowsRegular known left grown ∧
      Twins grown (Machine.run requests first).2 (Machine.run others second).2 ∧
      disciplined known (Machine.run requests first).2 rest = true := by
  induction hlike generalizing regular first second volume tree with
  | nil => exact ⟨regular, volume, tree, h, hknows, t, hd⟩
  | cons halike _ ih =>
    obtain ⟨hadmits, hrest⟩ := disciplined_cons.1 hd
    obtain ⟨left, grown, hsound, hleft, htwins⟩ := h.twins_leads t hknows halike hadmits
    exact ih hsound htwins hleft hrest

theorem Sound.twins_disciplined (h : first.Sound volume tree) (t : Twins tree first second)
    (hknows : KnowsRegular regular volume tree) (hlike : List.Forall₂ Request.Alike requests others)
    (hd : disciplined regular first requests = true) :
    disciplined regular second others = true := by
  induction hlike generalizing regular first second volume tree with
  | nil => rfl
  | cons halike _ ih =>
    obtain ⟨hadmits, hrest⟩ := disciplined_cons.1 hd
    obtain ⟨left, grown, hsound, hleft, htwins⟩ := h.twins_leads t hknows halike hadmits
    refine disciplined_cons.2 ⟨(t.admits_eq h halike).trans hadmits, ?_⟩
    rw [t.track_eq h halike]
    exact ih hsound htwins hleft hrest

theorem Sound.twins_leaves (h : first.Sound volume tree) (t : Twins tree first second)
    (hknows : KnowsRegular regular volume tree) (hlike : List.Forall₂ Request.Alike requests others)
    (hd : disciplined regular first requests = true) (hleaves : leaves sector requests first = true) :
    leaves sector others second = true := by
  induction hlike generalizing regular first second volume tree with
  | nil => rfl
  | cons halike _ ih =>
    obtain ⟨hadmits, hrest⟩ := disciplined_cons.1 hd
    obtain ⟨⟨hremoves, hwrites⟩, hleft⟩ := leaves_cons.1 hleaves
    obtain ⟨left, grown, hsound, hknown, htwins⟩ := h.twins_leads t hknows halike hadmits
    refine leaves_cons.2 ⟨⟨?_, ?_⟩, ih hsound htwins hknown hrest hleft⟩
    · exact (t.removes_eq h halike hadmits).trans hremoves
    · exact (t.writesTo_eq halike).trans hwrites

/-- Whatever the devices held, they are laid out alike. -/
theorem twins_format {device device' : Device} (h : device.Ready) (h' : device'.Ready) :
    Twins [] (step .format (start device)).2 (step .format (start device')).2 := by
  have hroom : numSectors ≤ device.blocks.size := h.sectorCount ▸ h.room
  have hroom' : numSectors ≤ device'.blocks.size := h'.sectorCount ▸ h'.room
  obtain ⟨mapHeader, rootHeader, map, b⟩ := Volume.exists_blueprint
  obtain ⟨root, hroot, hcap, hlinked, hchildren, -⟩ := Directory.exists_linked rootSector rootSector
  obtain ⟨host, hstep, hf, hblocks⟩ := step_format h b hroot hcap
  obtain ⟨host', hstep', hf', hblocks'⟩ := step_format h' b hroot hcap
  have hstored := b.stored hroom h.faultFree hcap hlinked hchildren
  have hstored' := b.stored hroom' h'.faultFree hcap hlinked hchildren
  have hlaid := b.faults_laid h.faultFree root
  have hlaid' := b.faults_laid h'.faultFree root
  have halike := hstored.alike_of_blocks hlaid hf hblocks
  have hstoredNow := halike.stored hstored (hblocks ▸ hstored.room)
  -- The two layouts are alike, and each device has the blocks of its layout.
  have hbetween : Tree.Alike [] (b.laid root device) (b.laid root device') := by
    refine ⟨fun s hs ↦ ?_, fun here parent table hdir htable ↦ ?_, fun stored hhas ↦ ?_⟩
    · obtain ⟨hmap, hrootFile⟩ := b.openFile_laid hroom h.faultFree root
      obtain ⟨hmap', hrootFile'⟩ := b.openFile_laid hroom' h'.faultFree root
      rcases List.mem_cons.1 hs with rfl | hs
      · exact (Device.openFile_eq_ok_iff.1 hmap').2.trans (Device.openFile_eq_ok_iff.1 hmap).2.symm
      · cases List.mem_singleton.1 hs
        exact (Device.openFile_eq_ok_iff.1 hrootFile').2.trans
          (Device.openFile_eq_ok_iff.1 hrootFile).2.symm
    · rcases hdir with ⟨rfl, rfl⟩ | ⟨node, hnode, -⟩
      · exact (b.hasTable hroom h.faultFree hcap).eq htable ▸ b.hasTable hroom' h'.faultFree hcap
      · contradiction
    · exact hhas.eq (b.hasMap hroom h.faultFree root) ▸ b.hasMap hroom' h'.faultFree root
  rw [hstep, hstep']
  refine ⟨hstoredNow, hf', hblocks' ▸ hstored'.room, ?_, rfl, rfl⟩
  exact ((halike.symm hstored).trans hbetween).trans (hstored'.alike_of_blocks hlaid' hf' hblocks')

end Machine

end SectorFS
