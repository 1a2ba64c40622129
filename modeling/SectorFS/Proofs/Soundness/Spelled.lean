import SectorFS.Proofs.Soundness.Headers
import SectorFS.Proofs.Tree.Spelled

namespace SectorFS

open Layout

namespace Machine

variable {machine : Machine} {volume : Volume} {tree : Tree} {request : Request}
  {requests : List Request} {regular : List Nat} {index handle : Nat} {path : String}
  {call : HandleCall}

theorem Sound.spelled_of_blocks {after : Device} (h : machine.Sound volume tree)
    (hf : after.faults = {}) (hblocks : after.blocks = machine.host.device.blocks)
    (hspelled : machine.host.device.Spelled) : after.Spelled :=
  (h.stored.frame_of_blocks hblocks).spelled h.faultFree hf h.stored (fun _ _ _ ↦ id) id hspelled

theorem Sound.spelled_create (h : machine.Sound volume tree)
    (hspelled : machine.host.device.Spelled) {kind : Kind} {size : Nat}
    (hsized : kind = .directory → size = directoryFileSize) :
    ((Step.onTree index fun volume session ↦
      volume.createEntry session path kind size).run machine).2.host.device.Spelled := by
  generalize hrun : (Step.onTree index fun volume session ↦
    volume.createEntry session path kind size).run machine = answered
  obtain ⟨answer, after⟩ := answered
  rcases h.create_cases hsized hrun with
    ⟨hsame, -⟩ | ⟨session, creation, here, above, entry, name, old, stored, -, -, m⟩
  · exact hsame.device ▸ hspelled
  · exact m.writes.device ▸ m.placed.spelled hspelled

theorem Sound.spelled_remove (h : machine.Sound volume tree)
    (hspelled : machine.host.device.Spelled)
    (hadmits : machine.admits regular (.remove index path) = true) :
    ((Step.onTree index fun volume session ↦
      volume.remove session path).run machine).2.host.device.Spelled := by
  generalize hrun : (Step.onTree index fun volume session ↦
    volume.remove session path).run machine = answered
  obtain ⟨answer, after⟩ := answered
  rcases h.remove_cases hrun with ⟨hsame, -⟩ |
    ⟨session, removal, here, above, entry, header, stored, map, table, hs, -, hfind, p, hwrites⟩
  · exact hsame.device ▸ hspelled
  · obtain ⟨-, hunused⟩ := h.unused_of_admits hadmits hs hfind p.toFound p.mem_tree
    have hchildless := h.childless p.mem_tree fun hkind ↦ (hunused hkind).1
    exact hwrites.device ▸ p.spelled hspelled hchildless

theorem Sound.spelled_call (h : machine.Sound volume tree) (hknows : KnowsRegular regular volume tree)
    (hspelled : machine.host.device.Spelled)
    (hadmits : machine.admits regular (.call handle call) = true) :
    (step (.call handle call) machine).2.host.device.Spelled := by
  rcases h.device_call handle call with ⟨hsame, -⟩ | ⟨opened, data, pos, hget, hwrites, hdevice⟩
  · exact hsame ▸ hspelled
  · obtain ⟨hdir, hmap⟩ := h.opened_apart hget hknows (mem_of_admits hadmits hwrites)
    rw [hdevice]
    exact (h.frame_write hget data pos).spelled h.faultFree (Device.faults_edit h.faultFree _)
      h.stored hdir hmap hspelled

theorem Sound.spelled_step (h : machine.Sound volume tree) (hknows : KnowsRegular regular volume tree)
    (hspelled : machine.host.device.Spelled) (hadmits : machine.admits regular request = true) :
    (step request machine).2.host.device.Spelled := by
  by_cases hkeeps : request.keepsBlocks = true
  · obtain ⟨left, grown, hsound, -⟩ := h.leads_step hknows hadmits
    exact h.spelled_of_blocks hsound.faultFree (h.blocks_step hkeeps).1 hspelled
  · cases request with
    | format => contradiction
    | createFile index path size => exact h.spelled_create hspelled nofun
    | createDirectory index path => exact h.spelled_create hspelled fun _ ↦ rfl
    | remove index path => exact h.spelled_remove hspelled hadmits
    | call handle call => exact h.spelled_call hknows hspelled hadmits
    | _ => exact absurd rfl hkeeps

theorem Sound.spelled_run (h : machine.Sound volume tree) (hknows : KnowsRegular regular volume tree)
    (hspelled : machine.host.device.Spelled)
    (hd : disciplined regular machine requests = true) :
    (Machine.run requests machine).2.host.device.Spelled := by
  induction requests generalizing regular machine volume tree with
  | nil => exact hspelled
  | cons request rest ih =>
    obtain ⟨hadmits, hrest⟩ := disciplined_cons.1 hd
    obtain ⟨left, grown, hsound, hleft, -⟩ := h.leads_step hknows hadmits
    exact ih hsound hleft (h.spelled_step hknows hspelled hadmits) hrest

theorem spelled_format {device : Device} (h : device.Ready) :
    (step .format (start device)).2.host.device.Spelled := by
  have hroom : numSectors ≤ device.blocks.size := h.sectorCount ▸ h.room
  obtain ⟨mapHeader, rootHeader, map, b⟩ := Volume.exists_blueprint
  obtain ⟨root, hroot, hcap, hlinked, hchildren, -⟩ :=
    Directory.exists_linked rootSector rootSector
  obtain ⟨host, hstep, hf, hblocks⟩ := step_format h b hroot hcap
  have hlaid := b.faults_laid h.faultFree root
  have hstored := b.stored hroom h.faultFree hcap hlinked hchildren
  rw [hstep]
  exact (hstored.frame_of_blocks hblocks).spelled hlaid hf hstored (fun _ _ _ ↦ id) id
    (b.spelled hroom h.faultFree hcap hstored)

/-- After every disciplined run the tables are on the device as they would be written. -/
theorem spelled_of_disciplined {device : Device} (h : device.Ready)
    (hd : disciplined [] (step .format (start device)).2 requests = true) :
    (Machine.run (.format :: requests) (start device)).2.host.device.Spelled := by
  obtain ⟨-, volume, hsound⟩ := sound_format h
  exact hsound.spelled_run hsound.knowsRegular_nil (spelled_format h) hd

end Machine

end SectorFS
