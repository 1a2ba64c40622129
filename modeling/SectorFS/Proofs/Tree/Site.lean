import SectorFS.Proofs.Tree

namespace SectorFS

open Layout

namespace Tree

variable {tree : Tree} {device : Device} {freeMapFile parentFile : File} {here above t : UInt32}
  {table new : Directory} {stored map : FreeMap} {first edits more : List Edit}

structure Site (tree : Tree) (device : Device) (freeMapFile parentFile : File)
    (here above : UInt32) (table : Directory) (stored : FreeMap) : Prop where
  faultFree : device.faults = {}
  sound : tree.Stored device
  inside : tree.HasDirectory here above
  mapped : device.openFile freeMapSector = .ok freeMapFile
  opened : device.openDirectory here = .ok (parentFile, table)
  loaded : FreeMap.load freeMapFile device = .ok stored

namespace Site

variable (site : tree.Site device freeMapFile parentFile here above table stored)
include site

theorem openFile_parent : device.openFile here = .ok parentFile :=
  (Device.openDirectory_eq_ok_iff.1 site.opened).1

theorem length_parentFile : parentFile.length = directoryFileSize := by
  obtain ⟨other, ⟨file, hopen, hlen⟩, -⟩ := site.sound.tables here above site.inside
  obtain rfl := (Prod.mk.inj (Except.ok.inj (hopen.symm.trans site.opened))).1
  exact hlen

theorem hasTable : device.HasTable here table := ⟨parentFile, site.opened, site.length_parentFile⟩

theorem length_freeMapFile : freeMapFile.length = freeMapFileSize := by
  obtain ⟨map, ⟨file, hopen, hlen, -⟩, -⟩ := site.sound.marked
  obtain rfl := Except.ok.inj (hopen.symm.trans site.mapped)
  exact hlen

theorem hasMap : device.HasMap stored :=
  ⟨freeMapFile, site.mapped, site.length_freeMapFile, site.loaded⟩

theorem used_stored (ht : t ∈ tree.owned device) : stored.used t = true := by
  obtain ⟨map, hmap, hused⟩ := site.sound.marked
  exact hmap.eq site.hasMap ▸ hused t ht

theorem mem_owned_parent (ht : t ∈ parentFile.header.dataSectors) : t ∈ tree.owned device := by
  rw [← Device.dataSectors_of_openFile site.openFile_parent] at ht
  exact mem_owned.2 ⟨here, site.inside.mem_sectors, List.mem_cons_of_mem _ ht⟩

theorem mem_owned_map (ht : t ∈ freeMapFile.header.dataSectors) : t ∈ tree.owned device := by
  rw [← Device.dataSectors_of_openFile site.mapped] at ht
  exact mem_owned.2 ⟨_, tree.freeMapSector_mem, List.mem_cons_of_mem _ ht⟩

theorem parent_apart_map (ht : t ∈ parentFile.header.dataSectors) :
    t ∉ freeMapFile.header.dataSectors := by
  intro ht'
  rw [← Device.dataSectors_of_openFile site.openFile_parent] at ht
  rw [← Device.dataSectors_of_openFile site.mapped] at ht'
  exact site.sound.freeMapSector_ne site.inside (site.sound.eq_of_mem_footprint
    site.inside.mem_sectors tree.freeMapSector_mem (List.mem_cons_of_mem _ ht)
    (List.mem_cons_of_mem _ ht'))

theorem onDevice_parent (edits : List Edit) :
    parentFile.OnDevice (device.edit edits) ∧ parentFile.header.dataSectors.Nodup := by
  obtain ⟨hon, hnodup⟩ := site.sound.onDevice site.openFile_parent site.inside.mem_sectors
  exact ⟨hon.edit _, hnodup⟩

theorem onDevice_map (edits : List Edit) :
    freeMapFile.OnDevice (device.edit edits) ∧ freeMapFile.header.dataSectors.Nodup := by
  obtain ⟨hon, hnodup⟩ := site.sound.onDevice site.mapped tree.freeMapSector_mem
  exact ⟨hon.edit _, hnodup⟩

theorem frame (hedits : ∀ edit ∈ edits, edit.1 ∈ tree.owned device →
      edit.1 ∈ parentFile.header.dataSectors ∨ edit.1 ∈ freeMapFile.header.dataSectors) :
    tree.Frame device (device.edit edits) fun s ↦ s = here ∨ s = freeMapSector := by
  refine site.sound.frame_edit fun edit hedit howned ↦ ?_
  rcases hedits edit hedit howned with h | h
  · exact ⟨here, site.inside.mem_sectors, .inl rfl,
      (Device.dataSectors_of_openFile site.openFile_parent).symm ▸ h⟩
  · exact ⟨_, tree.freeMapSector_mem, .inr rfl,
      (Device.dataSectors_of_openFile site.mapped).symm ▸ h⟩

/-- Where the open directory kept its table, all directories did. -/
theorem hasTable_of_kept {after : Device} (hf : after.faults = {})
    (frame : tree.Frame device after fun s ↦ s = here ∨ s = freeMapSector)
    (hkept : after.HasTable here table) {s up : UInt32} {other : Directory}
    (hdir : tree.HasDirectory s up) (hother : device.HasTable s other) : after.HasTable s other := by
  by_cases heq : s = here
  · subst heq
    exact hother.eq site.hasTable ▸ hkept
  · exact frame.hasTable_of_ne site.faultFree hf site.sound hdir heq hother

theorem hasTable_store (hcap : new.capacity = directorySlots)
    (frame : tree.Frame device (device.edit (first ++
      parentFile.rewrites (device.edit first) new.bytes 0 ++ more))
        fun s ↦ s = here ∨ s = freeMapSector)
    (hmore : ∀ edit ∈ more, edit.1 ∉ parentFile.header.dataSectors) :
    (device.edit (first ++ parentFile.rewrites (device.edit first) new.bytes 0 ++ more)).HasTable
      here new := by
  have hfirst := Device.faults_edit site.faultFree first
  obtain ⟨hon, hnodup⟩ := site.onDevice_parent first
  have hread := Directory.readDirectory_store hfirst hnodup hon
    (Nat.le_of_eq site.length_parentFile.symm) hcap
  refine ⟨parentFile, Device.openDirectory_eq_ok_iff.2 ⟨?_, ?_⟩, site.length_parentFile⟩
  · rw [frame.openFile_eq site.faultFree (Device.faults_edit site.faultFree _)
      site.inside.mem_sectors]
    exact site.openFile_parent
  · rw [Device.edit_append, Device.edit_append]
    refine File.readDirectory_congr (Device.faults_edit hfirst _)
      (Device.faults_edit (Device.faults_edit hfirst _) _) (fun s hs ↦ ?_) hread
    exact Device.block?_edit_of_ne fun edit hedit heq ↦ hmore edit hedit (heq ▸ hs)

/-- Where the table is written in part, it is the old or the new one. -/
theorem hasTable_take {x y : Slot} (hnew : table.Replaces new x y)
    (hfirst : ∀ edit ∈ first, edit.1 ∉ parentFile.header.dataSectors) {k : Nat}
    (frame : tree.Frame device (device.edit (first ++
      (parentFile.rewrites (device.edit first) new.bytes 0).take k))
        fun s ↦ s = here ∨ s = freeMapSector) :
    (device.edit (first ++ (parentFile.rewrites (device.edit first) new.bytes 0).take k)).HasTable
        here table ∨
      (device.edit (first ++ (parentFile.rewrites (device.edit first) new.bytes 0).take k)).HasTable
        here new := by
  have hf := Device.faults_edit site.faultFree first
  obtain ⟨hon, hnodup⟩ := site.onDevice_parent first
  have hread : parentFile.readDirectory (device.edit first) = .ok table := by
    refine File.readDirectory_congr site.faultFree hf (fun s hs ↦ ?_)
      (Device.openDirectory_eq_ok_iff.1 site.opened).2
    exact Device.block?_edit_of_ne fun edit hedit heq ↦ hfirst edit hedit (heq ▸ hs)
  have hfile := frame.openFile_eq site.faultFree (Device.faults_edit site.faultFree _)
    site.inside.mem_sectors
  rw [site.openFile_parent] at hfile
  have htake := Directory.readDirectory_take_store hf hnodup hon hread hnew k
  rw [← Device.edit_append] at htake
  exact htake.imp
    (fun h ↦ ⟨_, Device.openDirectory_eq_ok_iff.2 ⟨hfile, h⟩, site.length_parentFile⟩)
    fun h ↦ ⟨_, Device.openDirectory_eq_ok_iff.2 ⟨hfile, h⟩, site.length_parentFile⟩

theorem hasMap_store (hcount : map.count = numSectors)
    (frame : tree.Frame device (device.edit (first ++
      freeMapFile.rewrites (device.edit first) map.bytes 0 ++ more))
        fun s ↦ s = here ∨ s = freeMapSector)
    (hmore : ∀ edit ∈ more, edit.1 ∉ freeMapFile.header.dataSectors) :
    (device.edit (first ++ freeMapFile.rewrites (device.edit first) map.bytes 0 ++ more)).HasMap
      map := by
  have hfirst := Device.faults_edit site.faultFree first
  obtain ⟨hon, hnodup⟩ := site.onDevice_map first
  have hload := FreeMap.load_store hfirst hnodup hon
    (Nat.le_of_eq site.length_freeMapFile.symm) hcount
  refine ⟨freeMapFile, ?_, site.length_freeMapFile, ?_⟩
  · rw [frame.openFile_eq site.faultFree (Device.faults_edit site.faultFree _)
      tree.freeMapSector_mem]
    exact site.mapped
  · rw [Device.edit_append, Device.edit_append, FreeMap.load_congr (Device.faults_edit hfirst _)
      (Device.faults_edit (Device.faults_edit hfirst _) _) fun s hs ↦ ?_]
    · exact hload
    · exact Device.block?_edit_of_ne fun edit hedit heq ↦ hmore edit hedit (heq ▸ hs)

end Site

end Tree

end SectorFS
