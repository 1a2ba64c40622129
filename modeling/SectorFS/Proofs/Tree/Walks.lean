import SectorFS.Proofs.Path
import SectorFS.Proofs.Soundness

namespace SectorFS

open Layout

namespace Tree

variable {tree : Tree} {first second : Device} {here parent start up : UInt32} {name path : String}
  {session : Session}

theorem hasDirectory_origin (hdir : tree.HasDirectory start up) (path : String) :
    ∃ above, tree.HasDirectory (Path.origin start path) above := by
  unfold Path.origin
  split
  · exact ⟨rootSector, hasDirectory_root tree⟩
  · exact ⟨up, hdir⟩

/-- Which sectors hold headers can be told from the device. -/
theorem Stored.mem_sectors_iff (h : tree.Stored first) {s : UInt32} :
    s ∈ tree.sectors ↔ s = freeMapSector ∨ s = rootSector ∨ ∃ here table entry,
      first.Reaches here ∧ first.HasTable here table ∧ entry ∈ table.children ∧ entry.sector = s := by
  rw [sectors, List.mem_cons, List.mem_cons]
  refine or_congr_right (or_congr_right ⟨fun hmem ↦ ?_, ?_⟩)
  · obtain ⟨node, hnode, rfl⟩ := List.mem_map.1 hmem
    obtain ⟨above, hdir⟩ := h.rooted.listed hnode
    obtain ⟨table, htable, -, hperm⟩ := h.tables _ _ hdir
    exact ⟨node.parent, table, node.entry, h.reaches_iff.2 ⟨above, hdir⟩, htable,
      hperm.mem_iff.2 (mem_children.2 hnode), rfl⟩
  · rintro ⟨here, table, entry, hreach, htable, hentry, rfl⟩
    obtain ⟨above, hdir⟩ := h.reaches_iff.1 hreach
    obtain ⟨stored, hstored, -, hperm⟩ := h.tables _ _ hdir
    obtain rfl := htable.eq hstored
    exact List.mem_map.2 ⟨⟨here, entry⟩, mem_children.1 (hperm.mem_iff.1 hentry), rfl⟩

namespace Alike

variable (h : tree.Alike first second) (hstored : tree.Stored first)
include h hstored

/-- It does not matter in which order a tree lists its files. -/
theorem of_stored {other : Tree} (hother : other.Stored first) : other.Alike first second := by
  refine ⟨fun s hs ↦ h.headers s ?_, fun here parent table hdir htable ↦ ?_, h.map⟩
  · exact hstored.mem_sectors_iff.2 (hother.mem_sectors_iff.1 hs)
  · obtain ⟨above, habove⟩ := hstored.reaches_iff.1 (hother.reaches_iff.2 ⟨parent, hdir⟩)
    exact h.tables here above table habove htable

theorem openDirectory_eq (hdir : tree.HasDirectory here parent) :
    second.openDirectory here = first.openDirectory here := by
  obtain ⟨table, hwas, -⟩ := hstored.tables here parent hdir
  obtain ⟨now, hnow, -⟩ := h.tables here parent table hdir hwas
  obtain ⟨file, hopen, -⟩ := hwas
  have hfile := (Device.openDirectory_eq_ok_iff.1 hopen).1
  rw [← h.openFile_eq hdir.mem_sectors, (Device.openDirectory_eq_ok_iff.1 hnow).1] at hfile
  rw [hopen, hnow, Except.ok.inj hfile]

theorem walk_eq (hdir : tree.HasDirectory start up) (names : List String) :
    Path.walk second start names = Path.walk first start names := by
  induction names generalizing start up with
  | nil => rfl
  | cons name rest ih =>
    have henter : Path.enter second start name = Path.enter first start name := by
      rw [Path.enter, h.openDirectory_eq hstored hdir, Path.enter]
    rw [Path.walk_cons, Path.walk_cons, henter]
    cases hnext : Path.enter first start name with
    | error error => rfl
    | ok next =>
      obtain ⟨file, table, entry, hopen, hfind, hkind, rfl⟩ := Path.enter_eq_ok_iff.1 hnext
      obtain ⟨above, habove⟩ :=
        hstored.hasDirectory_of_entry hdir hopen (Directory.mem_of_find? hfind).1 hkind
      exact ih habove

theorem resolve_eq (hdir : tree.HasDirectory start up) (path : String) :
    Path.resolve start path second = Path.resolve start path first := by
  obtain ⟨above, habove⟩ := hasDirectory_origin hdir path
  rw [Path.resolve_eq, Path.resolve_eq, h.walk_eq hstored habove]

theorem locate_eq (hdir : tree.HasDirectory session.directory up) (path : String) :
    Volume.locate session path second = Volume.locate session path first := by
  unfold Volume.locate
  cases Path.splitParent path with
  | error error => rfl
  | ok parts =>
    change (Path.resolve session.directory parts.1 second >>= fun here ↦ pure (here, parts.2)) = _
    rw [h.resolve_eq hstored hdir]
    rfl

theorem locate_bind_eq {α : Type} (hdir : tree.HasDirectory session.directory up) (path : String)
    {ask ask' : UInt32 × String → Except Error α}
    (hask : ∀ here above name, tree.HasDirectory here above → ask' (here, name) = ask (here, name)) :
    Volume.locate session path second >>= ask' = Volume.locate session path first >>= ask := by
  rw [h.locate_eq hstored hdir]
  cases hlocate : Volume.locate session path first with
  | error error => rfl
  | ok found =>
    obtain ⟨here, name⟩ := found
    obtain ⟨above, habove⟩ := hstored.hasDirectory_locate hdir hlocate
    exact hask here above name habove

theorem lookup_eq (hdir : tree.HasDirectory session.directory up) (path : String) :
    Volume.lookup session path second = Volume.lookup session path first :=
  h.locate_bind_eq hstored hdir path fun here above name habove ↦ by
    simp only [h.openDirectory_eq hstored habove]

theorem entryAt_eq (hdir : tree.HasDirectory session.directory up) (path : String) :
    Volume.entryAt session path second = Volume.entryAt session path first :=
  h.locate_bind_eq hstored hdir path fun here above name habove ↦ by
    simp only [h.openDirectory_eq hstored habove]

variable {volume : Volume} (hmap : first.openFile freeMapSector = .ok volume.freeMapFile)

theorem find_eq (hdir : tree.HasDirectory session.directory up) (path : String) :
    Removal.find session path second = Removal.find session path first :=
  h.locate_bind_eq hstored hdir path fun here above name habove ↦ by
    simp only [h.openDirectory_eq hstored habove]

include hmap

theorem freeMap_eq : volume.freeMap second = volume.freeMap first := by
  obtain ⟨map, hwas, -⟩ := hstored.marked
  obtain ⟨now, hnow, -, hnowLoad⟩ := h.map map hwas
  obtain ⟨was, hopen, -, hload⟩ := hwas
  cases hmap.symm.trans hopen
  rw [← h.openFile_eq tree.freeMapSector_mem] at hopen
  cases hopen.symm.trans hnow
  rw [Volume.freeMap, hnowLoad, Volume.freeMap, hload]

theorem prepare_eq (hdir : tree.HasDirectory session.directory up) (path : String) (kind : Kind)
    (size : Nat) : Creation.prepare volume session path kind size second =
      Creation.prepare volume session path kind size first :=
  h.locate_bind_eq hstored hdir path fun here above name habove ↦ by
    simp only [h.openDirectory_eq hstored habove, h.freeMap_eq hstored hmap]

theorem prepareRemoval_eq {removal : Removal} (hmem : removal.sector ∈ tree.sectors) :
    removal.prepare volume second = removal.prepare volume first := by
  simp only [Removal.prepare, h.headers _ hmem, h.freeMap_eq hstored hmap]

end Alike

end Tree

end SectorFS
