import SectorFS.Volume.Report
import SectorFS.Proofs.Settled

namespace SectorFS

open Layout

theorem exists_mapM_eq_ok {α β ε : Type} {f : α → Except ε β} {xs : List α}
    (h : ∀ x ∈ xs, ∃ y, f x = .ok y) : ∃ ys, xs.mapM f = .ok ys := by
  induction xs with
  | nil => exact ⟨[], rfl⟩
  | cons x rest ih =>
    obtain ⟨y, hy⟩ := h x (by simp)
    obtain ⟨ys, hys⟩ := ih fun z hz ↦ h z (by simp [hz])
    refine ⟨y :: ys, ?_⟩
    rw [List.mapM_cons, hy]
    simp [hys, bind, Except.bind, pure, Except.pure]

namespace Header

variable {device : Device} (hf : device.faults = {})
include hf

theorem exists_renderSectors {sectors : List UInt32} (h : ∀ s ∈ sectors, device.Has s)
    (remaining : Nat) : ∃ text, renderSectors device sectors remaining = .ok text := by
  induction sectors generalizing remaining with
  | nil => exact ⟨"", rfl⟩
  | cons s rest ih =>
    obtain ⟨block, hblock⟩ := Device.has_iff.1 (h s (by simp))
    obtain ⟨lines, hlines⟩ := ih (fun t ht ↦ h t (by simp [ht])) (remaining - sectorSize)
    exact ⟨_, bind_eq_ok.2 ⟨block, (Device.read_eq_ok_iff hf).2 hblock,
      bind_eq_ok.2 ⟨lines, hlines, rfl⟩⟩⟩

theorem exists_render {header : Header} (h : ∀ s ∈ header.dataSectors, device.Has s) :
    ∃ text, header.render device = .ok text := by
  obtain ⟨contents, hcontents⟩ := exists_renderSectors hf h header.length
  exact ⟨_, bind_eq_ok.2 ⟨contents, hcontents, rfl⟩⟩

end Header

namespace Tree.Stored

variable {tree : Tree} {device : Device} {here parent s : UInt32} {file : File} {table : Directory}
  {entry : Entry} {header : Header} (h : tree.Stored device) (hf : device.faults = {})
include h hf

theorem exists_renderHeader (hs : s ∈ tree.sectors) (hheader : device.readHeader s = .ok header) :
    ∃ text, header.render device = .ok text := by
  apply Header.exists_render hf
  intro t ht
  rw [← Device.dataSectors_of_readHeader hheader] at ht
  exact h.has_of_mem_owned (mem_owned.2 ⟨s, hs, List.mem_cons_of_mem _ ht⟩)

theorem exists_renderEntry (hdir : tree.HasDirectory here parent)
    (hopen : device.openDirectory here = .ok (file, table)) (hentry : entry ∈ table.entries) :
    ∃ text, entry.render device = .ok text := by
  unfold Entry.render
  cases hkind : entry.kind with
  | directory => exact ⟨_, rfl⟩
  | regular =>
    -- The links of a directory are directories, so a regular entry is a file of the tree.
    have hnode : ⟨here, entry⟩ ∈ tree := by
      rcases h.entry_cases hdir hopen hentry with ⟨-, hlink, -⟩ | ⟨-, hnode⟩
      · simp [hkind] at hlink
      · exact hnode
    obtain ⟨header, hheader⟩ := h.headers _ hnode
    obtain ⟨text, htext⟩ := h.exists_renderHeader hf (mem_sectors_of_mem hnode) hheader
    exact ⟨_, bind_eq_ok.2 ⟨header, hheader, bind_eq_ok.2 ⟨text, htext, rfl⟩⟩⟩

theorem exists_renderDirectory (hdir : tree.HasDirectory here parent)
    (hopen : device.openDirectory here = .ok (file, table)) :
    ∃ text, table.render device = .ok text := by
  obtain ⟨parts, hparts⟩ := exists_mapM_eq_ok (f := fun entry : Entry ↦ entry.render device)
    fun entry hentry ↦ h.exists_renderEntry hf hdir hopen hentry
  exact ⟨_, bind_eq_ok.2 ⟨parts, hparts, rfl⟩⟩

end Tree.Stored

theorem Tree.Stored.exists_openDirectory {tree : Tree} {device : Device} {here parent : UInt32}
    (h : tree.Stored device) (hdir : tree.HasDirectory here parent) :
    ∃ file table, device.openDirectory here = .ok (file, table) := by
  obtain ⟨table, ⟨file, hopen, -⟩, -⟩ := h.tables here parent hdir
  exact ⟨file, table, hopen⟩

namespace Volume.Settled

variable {volume : Volume} {tree : Tree} {device : Device} {session : Session} {up : UInt32}
  (h : volume.Settled tree device)
include h

theorem exists_freeMap : ∃ map, volume.freeMap device = .ok map := by
  obtain ⟨map, ⟨file, hopen, -, hload⟩, -⟩ := h.stored.marked
  cases h.map.symm.trans hopen
  exact ⟨map, hload⟩

theorem exists_numFree : ∃ count, volume.numFree device = .ok count := by
  obtain ⟨map, hmap⟩ := h.exists_freeMap
  exact ⟨_, bind_eq_ok.2 ⟨map, hmap, rfl⟩⟩

theorem exists_listRoot : ∃ entries, volume.listRoot device = .ok entries := by
  obtain ⟨file, table, hopen⟩ := h.stored.exists_openDirectory (Tree.hasDirectory_root tree)
  obtain ⟨hfile, hread⟩ := Device.openDirectory_eq_ok_iff.1 hopen
  cases h.root.symm.trans hfile
  exact ⟨_, bind_eq_ok.2 ⟨table, hread, rfl⟩⟩

theorem exists_render (hup : tree.HasDirectory session.directory up) :
    ∃ text, volume.render session device = .ok text := by
  obtain ⟨file, table, hopen⟩ := h.stored.exists_openDirectory hup
  obtain ⟨-, hmapHeader⟩ := Device.openFile_eq_ok_iff.1 h.map
  obtain ⟨-, hheader⟩ :=
    Device.openFile_eq_ok_iff.1 (Device.openDirectory_eq_ok_iff.1 hopen).1
  obtain ⟨mapText, hmapText⟩ :=
    h.stored.exists_renderHeader h.faultFree tree.freeMapSector_mem hmapHeader
  obtain ⟨headerText, hheaderText⟩ :=
    h.stored.exists_renderHeader h.faultFree hup.mem_sectors hheader
  obtain ⟨map, hmap⟩ := h.exists_freeMap
  obtain ⟨tableText, htableText⟩ := h.stored.exists_renderDirectory h.faultFree hup hopen
  simp [render, hmapText, hheader, hheaderText, hmap, hopen, htableText, bind, Except.bind, pure,
    Except.pure]

end Volume.Settled

end SectorFS
