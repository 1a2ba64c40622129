import SectorFS.Proofs.FreeMap
import SectorFS.Proofs.Volume
import SectorFS.Volume.Remove

namespace SectorFS

open Layout

namespace Removal

structure Found (removal : Removal) (device : Device) (here : UInt32) (entry : Entry) : Prop where
  opened : device.openDirectory here = .ok (removal.parentFile, removal.parent)
  named : removal.parent.find? removal.name = some entry
  sector : entry.sector = removal.sector
  ne_dot : removal.name ≠ dot
  ne_dotDot : removal.name ≠ dotDot

structure Prepared (removal : Removal) (freeMapFile : File) (device : Device) (header : Header)
    (stored map : FreeMap) (parent : Directory) : Prop where
  known : device.readHeader removal.sector = .ok header
  loaded : FreeMap.load freeMapFile device = .ok stored
  released : ∃ left, stored.release header = .ok left ∧ left.clear removal.sector = .ok map
  removed : removal.parent.remove removal.name = .ok parent

def mapEdits (freeMapFile : File) (map : FreeMap) (device : Device) : List Edit :=
  freeMapFile.rewrites device map.bytes 0

def parentEdits (removal : Removal) (freeMapFile : File) (map : FreeMap) (parent : Directory)
    (device : Device) : List Edit :=
  removal.parentFile.rewrites (device.edit (mapEdits freeMapFile map device)) parent.bytes 0

def edits (removal : Removal) (freeMapFile : File) (map : FreeMap) (parent : Directory)
    (device : Device) : List Edit :=
  mapEdits freeMapFile map device ++ removal.parentEdits freeMapFile map parent device

theorem edits_healed (removal : Removal) (freeMapFile : File) (map : FreeMap) (parent : Directory)
    (device : Device) : removal.edits freeMapFile map parent device.healed =
      removal.edits freeMapFile map parent device := by
  have hmap : mapEdits freeMapFile map device.healed = mapEdits freeMapFile map device :=
    File.rewrites_healed _ _ _ _
  rw [edits, parentEdits, hmap, ← Device.healed_edit, File.rewrites_healed, edits, parentEdits]

variable {removal : Removal} {freeMapFile : File} {device : Device} {here t : UInt32}
  {entry : Entry} {header : Header} {stored map : FreeMap} {parent : Directory}

theorem of_find {session : Session} {path : String} (h : find session path device = .ok removal) :
    ∃ here entry, Volume.locate session path device = .ok (here, removal.name) ∧
      removal.Found device here entry := by
  obtain ⟨⟨here, name⟩, hlocate, h⟩ := bind_eq_ok.1 h
  by_cases hname : name = dot ∨ name = dotDot
  · simp only [if_pos hname] at h
    contradiction
  · simp only [if_neg hname] at h
    obtain ⟨⟨parentFile, table⟩, hopen, h⟩ := bind_eq_ok.1 h
    cases hfind : table.find? name with
    | none => simp only [hfind] at h; contradiction
    | some entry =>
      simp only [hfind] at h
      cases h
      exact ⟨here, entry, hlocate, hopen, hfind, rfl, fun hn ↦ hname (.inl hn),
        fun hn ↦ hname (.inr hn)⟩

theorem find_eq_ok {session : Session} {path name : String} {file : File} {table : Directory}
    (hlocate : Volume.locate session path device = .ok (here, name))
    (hopen : device.openDirectory here = .ok (file, table))
    (hfind : table.find? name = some entry) (hlink : entry.isLink = false) :
    find session path device = .ok ⟨name, entry.sector, file, table⟩ ∧
      Found ⟨name, entry.sector, file, table⟩ device here entry := by
  have hname := Entry.isNamed_iff.2 (Directory.mem_of_find? hfind).2
  obtain ⟨hdot, hdotDot⟩ := Bool.or_eq_false_iff.1 hlink
  have hne : ∀ link, entry.isNamed link = false → name ≠ link := by
    rintro link hnot rfl
    exact absurd (hname.symm.trans hnot) nofun
  refine ⟨?_, hopen, hfind, rfl, hne dot hdot, hne dotDot hdotDot⟩
  have hnot : ¬(name = dot ∨ name = dotDot) := fun hn ↦ hn.elim (hne dot hdot) (hne dotDot hdotDot)
  simp only [find, hlocate, hopen, hfind, if_neg hnot, bind, Except.bind]
  rfl

theorem of_prepare {volume : Volume} (h : removal.prepare volume device = .ok (map, parent)) :
    ∃ header stored, removal.Prepared volume.freeMapFile device header stored map parent := by
  obtain ⟨header, hheader, h⟩ := bind_eq_ok.1 h
  obtain ⟨stored, hload, h⟩ := bind_eq_ok.1 h
  obtain ⟨left, hrelease, h⟩ := bind_eq_ok.1 h
  obtain ⟨cleared, hclear, h⟩ := bind_eq_ok.1 h
  obtain ⟨table, hremove, h⟩ := bind_eq_ok.1 h
  cases h
  exact ⟨header, stored, hheader, hload, ⟨left, hrelease, hclear⟩, hremove⟩

theorem Found.healed (h : removal.Found device here entry) :
    removal.Found device.healed here entry :=
  { h with opened := Device.openDirectory_healed h.opened }

theorem Found.isLink (h : removal.Found device here entry) : entry.isLink = false :=
  Directory.isLink_of_ne (Directory.mem_of_find? h.named).2 h.ne_dot h.ne_dotDot

namespace Prepared

theorem healed (h : removal.Prepared freeMapFile device header stored map parent) :
    removal.Prepared freeMapFile device.healed header stored map parent :=
  { h with
    known := Device.readHeader_healed h.known
    loaded := FreeMap.load_healed h.loaded }

variable (h : removal.Prepared freeMapFile device header stored map parent)
include h

theorem count_stored : stored.count = numSectors := FreeMap.count_of_load h.loaded

theorem count_map : map.count = numSectors := by
  obtain ⟨left, hrelease, hclear⟩ := h.released
  rw [(FreeMap.of_clear hclear).2.1, (FreeMap.of_release hrelease).2.1, h.count_stored]

theorem used_map :
    map.used t = true ↔ stored.used t = true ∧ t ∉ removal.sector :: header.dataSectors := by
  obtain ⟨left, hrelease, hclear⟩ := h.released
  rw [(FreeMap.of_clear hclear).2.2, (FreeMap.of_release hrelease).2.2, and_assoc, List.mem_cons,
    not_or, ne_eq, and_comm (b := ¬t = removal.sector)]

theorem replaces (hfound : removal.Found device here entry) :
    Directory.Replaces removal.parent parent (some entry) none := by
  obtain ⟨other, hfind, hreplaces⟩ := Directory.of_remove h.removed
  cases hfind.symm.trans hfound.named
  exact hreplaces

theorem carriesOut_commit (hfound : removal.Found device here entry) :
    (map.store freeMapFile >>= fun _ ↦ parent.store removal.parentFile).CarriesOut device
      (removal.edits freeMapFile map parent device) () := by
  have hopened := (Device.openDirectory_eq_ok_iff.1 hfound.opened).2
  have hcap := (h.replaces hfound).capacity.trans (File.capacity_of_readDirectory hopened)
  have hmap : (map.store freeMapFile).CarriesOut device (mapEdits freeMapFile map device) () :=
    FreeMap.carriesOut_store h.loaded (Nat.le_refl _) h.count_map
  have hparent : (parent.store removal.parentFile).CarriesOut
      (device.edit (mapEdits freeMapFile map device))
      (removal.parentEdits freeMapFile map parent device) () :=
    Directory.carriesOut_store hopened (Nat.le_of_eq (Device.size_edit _ _).symm) hcap
  exact hmap.next hparent

end Prepared

end Removal

namespace Volume

open Operation

variable {volume : Volume} {session : Session} {path : String} {device : Device} {removal : Removal}
  {map : FreeMap} {parent : Directory} {error : Error}

def removing (volume : Volume) (session : Session) (path : String) : Action Unit :=
  Action.query (Removal.find session path) >>= fun removal ↦
    Action.query (removal.prepare volume) >>= fun left ↦
      left.1.store volume.freeMapFile >>= fun _ ↦ left.2.store removal.parentFile

theorem actsAs_remove (volume : Volume) (session : Session) (path : String) :
    (volume.remove session path).ActsAs (volume.removing session path) := by
  refine ActsAs.noteFailure ((actsAs_query _).bind fun removal ↦ ?_)
  have htail : (query (removal.prepare volume) >>= fun left ↦
      act (left.1.store volume.freeMapFile) >>= fun _ ↦
        act (left.2.store removal.parentFile) >>= fun _ ↦
          note (.removed path removal.sector)).ActsAs
      (Action.query (removal.prepare volume) >>= fun left ↦
        left.1.store volume.freeMapFile >>= fun _ ↦ left.2.store removal.parentFile) := by
    refine (actsAs_query _).bind fun left ↦ (actsAs_act _).bind fun _ ↦ ?_
    have hdone := (actsAs_act (left.2.store removal.parentFile)).bind fun _ ↦
      actsAs_note (.removed path removal.sector)
    rwa [bind_pure_unit] at hdone
  by_cases hopen : (volume.openTable.handleOf? removal.sector).isSome = true
  · simp only [if_pos hopen]
    exact ActsAs.note_bind _ htail
  · simp only [if_neg hopen]
    exact htail

theorem run_removing_of_find_error (h : Removal.find session path device = .error error) :
    (volume.removing session path).run device = (.error error, device) :=
  run_bind_of_error (Action.run_query h)

theorem run_removing_of_prepare_error (h : Removal.find session path device = .ok removal)
    (h' : removal.prepare volume device = .error error) :
    (volume.removing session path).run device = (.error error, device) := by
  rw [removing, run_bind_of_ok (Action.run_query h), run_bind_of_error (Action.run_query h')]

theorem run_removing_of_ok (h : Removal.find session path device = .ok removal)
    (h' : removal.prepare volume device = .ok (map, parent)) :
    (volume.removing session path).run device =
      (map.store volume.freeMapFile >>= fun _ ↦ parent.store removal.parentFile).run device := by
  rw [removing, run_bind_of_ok (Action.run_query h), run_bind_of_ok (Action.run_query h')]

end Volume

end SectorFS
