import SectorFS.Proofs.Tree.Growth
import SectorFS.Proofs.Tree.Site
import SectorFS.Proofs.Volume.Create

namespace SectorFS

open Layout

namespace Creation

variable {creation : Creation} {freeMapFile file : File} {kind : Kind} {size : Nat}
  {device : Device} {here above t : UInt32} {name : String} {old : Directory} {stored : FreeMap}
  {tree : Tree} {edit : Edit}

theorem fst_mem_of_mem_tableEdits {hc : creation.header.Consistent}
    (h : edit ∈ creation.tableEdits (creation.file hc) device) :
    edit.1 ∈ creation.header.dataSectors := by
  unfold tableEdits at h
  cases htable : creation.table? with
  | none => simp only [htable] at h; contradiction
  | some table =>
    simp only [htable] at h
    exact File.fst_mem_of_mem_rewrites h

theorem mem_footprint_of_mem_freshEdits {hc : creation.header.Consistent}
    (h : edit ∈ creation.freshEdits (creation.file hc) device) : edit.1 ∈ creation.footprint := by
  rcases List.mem_cons.1 h with rfl | h
  · exact List.mem_cons_self
  · exact List.mem_cons_of_mem _ (fst_mem_of_mem_tableEdits h)

theorem mem_of_mem_parentEdits (h : edit ∈ creation.parentEdits file device) :
    edit.1 ∈ creation.parentFile.header.dataSectors := File.fst_mem_of_mem_rewrites h

theorem mem_of_mem_mapEdits (h : edit ∈ creation.mapEdits file freeMapFile device) :
    edit.1 ∈ freeMapFile.header.dataSectors := File.fst_mem_of_mem_rewrites h

structure Placed (creation : Creation) (tree : Tree) (freeMapFile : File) (kind : Kind) (size : Nat)
    (device : Device) (here above : UInt32) (name : String) (old : Directory) (stored : FreeMap) :
    Prop extends creation.Prepared freeMapFile kind size device here name old stored where
  faultFree : device.faults = {}
  sound : tree.Stored device
  inside : tree.HasDirectory here above
  mapped : device.openFile freeMapSector = .ok freeMapFile
  sized : kind = .directory → size = directoryFileSize

namespace Placed

variable (p : creation.Placed tree freeMapFile kind size device here above name old stored)
include p

theorem site : tree.Site device freeMapFile creation.parentFile here above old stored :=
  ⟨p.faultFree, p.sound, p.inside, p.mapped, p.opened, p.loaded⟩

/-- What an allocation finds free belongs to no file. -/
theorem fresh (ht : t ∈ creation.footprint) : t ∉ tree.owned device := by
  intro howned
  have hfree := (p.nodup_footprint.2 t ht).2
  rw [p.site.used_stored howned] at hfree
  contradiction

/-- Whatever part of the writes is carried out, they go to fresh sectors and to the contents of the
parent and of the free map. -/
theorem frame (edits : List Edit)
    (hsub : ∀ edit ∈ edits, edit ∈ creation.edits (creation.file p.consistent) freeMapFile device) :
    tree.Frame device (device.edit edits) fun s ↦ s = here ∨ s = freeMapSector := by
  refine p.site.frame fun edit hedit howned ↦ ?_
  rcases List.mem_append.1 (hsub edit hedit) with h | h
  · rcases List.mem_append.1 h with h | h
    · exact absurd howned (p.fresh (mem_footprint_of_mem_freshEdits h))
    · exact .inl (mem_of_mem_parentEdits h)
  · exact .inr (mem_of_mem_mapEdits h)

theorem ne_of_fresh (ht : t ∈ creation.footprint)
    (hedit : edit ∈ creation.parentEdits (creation.file p.consistent) device ++
      creation.mapEdits (creation.file p.consistent) freeMapFile device) : edit.1 ≠ t := by
  rintro rfl
  rcases List.mem_append.1 hedit with h | h
  · exact p.fresh ht (p.site.mem_owned_parent (mem_of_mem_parentEdits h))
  · exact p.fresh ht (p.site.mem_owned_map (mem_of_mem_mapEdits h))

theorem block?_header {more : List Edit} (hmore : ∀ edit ∈ more,
      edit ∈ creation.parentEdits (creation.file p.consistent) device ++
        creation.mapEdits (creation.file p.consistent) freeMapFile device) :
    (device.edit (creation.freshEdits (creation.file p.consistent) device ++ more)).block?
      creation.sector = some creation.header.block := by
  have hself : creation.sector ∈ creation.footprint := List.mem_cons_self
  have hhas : device.Has creation.sector :=
    Nat.lt_of_lt_of_le (p.nodup_footprint.2 _ hself).1 p.sound.room
  obtain ⟨block, hb⟩ := Device.has_iff.1 hhas
  have hrest : ∀ edit ∈ creation.tableEdits (creation.file p.consistent)
      (device.edit [(creation.sector, creation.header.block)]) ++ more,
      edit.1 ≠ creation.sector := by
    intro edit hedit
    rcases List.mem_append.1 hedit with h | h
    · intro heq
      exact (List.nodup_cons.1 p.nodup_footprint.1).1 (heq ▸ fst_mem_of_mem_tableEdits h)
    · exact p.ne_of_fresh hself (hmore edit h)
  rw [freshEdits, List.append_assoc, Device.edit_append, Device.block?_edit_of_ne hrest,
    Device.edit, Device.edit, Device.block?_put, if_pos rfl, hb, Option.map_some]

theorem block?_data (hkind : kind = .regular) (ht : t ∈ creation.header.dataSectors) :
    (device.edit (creation.edits (creation.file p.consistent) freeMapFile device)).block? t =
      device.block? t := by
  have hmem : t ∈ creation.footprint := List.mem_cons_of_mem _ ht
  refine Device.block?_edit_of_ne fun edit hedit ↦ ?_
  rw [edits, List.append_assoc] at hedit
  rcases List.mem_append.1 hedit with h | h
  · rw [freshEdits, tableEdits, p.plain hkind, List.append_nil, List.mem_singleton] at h
    rw [h]
    rintro rfl
    exact (List.nodup_cons.1 p.nodup_footprint.1).1 ht
  · exact p.ne_of_fresh hmem h

theorem readHeader_new {more : List Edit} (hmore : ∀ edit ∈ more,
      edit ∈ creation.parentEdits (creation.file p.consistent) device ++
        creation.mapEdits (creation.file p.consistent) freeMapFile device) :
    (device.edit (creation.freshEdits (creation.file p.consistent) device ++ more)).readHeader
      creation.sector = .ok creation.header :=
  Device.readHeader_of_block? (Device.faults_edit p.faultFree _) (p.block?_header hmore) p.consistent

/-- The table of a new directory, once it is written, stays. -/
theorem hasTable_new {table : Directory} (htable : creation.table? = some table) {more : List Edit}
    (hmore : ∀ edit ∈ more, edit ∈ creation.parentEdits (creation.file p.consistent) device ++
      creation.mapEdits (creation.file p.consistent) freeMapFile device) :
    (device.edit (creation.freshEdits (creation.file p.consistent) device ++ more)).HasTable
      creation.sector table := by
  obtain ⟨rfl, hcap, -⟩ := p.table_eq htable
  have hlen : (creation.file p.consistent).length = directoryFileSize :=
    p.length_header.trans (p.sized rfl)
  have hnodup := (List.nodup_cons.1 p.nodup_footprint.1).2
  have hon : (creation.file p.consistent).OnDevice
      (device.edit [(creation.sector, creation.header.block)]) := fun s hs ↦
    Device.has_edit.2 (Nat.lt_of_lt_of_le
      (p.nodup_footprint.2 s (List.mem_cons_of_mem _ hs)).1 p.sound.room)
  have hstored := Directory.readDirectory_store (Device.faults_edit p.faultFree _) hnodup hon
    (Nat.le_of_eq hlen.symm) hcap
  have hopen := Device.openFile_of_readHeader (p.readHeader_new hmore)
  refine ⟨creation.file p.consistent, Device.openDirectory_eq_ok_iff.2 ⟨hopen, ?_⟩, hlen⟩
  refine File.readDirectory_congr (Device.faults_edit (Device.faults_edit p.faultFree _) _)
    (Device.faults_edit p.faultFree _) (fun s hs ↦ ?_) hstored
  have hmem : s ∈ creation.footprint := List.mem_cons_of_mem _ hs
  rw [freshEdits, tableEdits, htable, ← Device.edit_append, Device.edit_append device]
  exact Device.block?_edit_of_ne fun edit hedit ↦ p.ne_of_fresh hmem (hmore edit hedit)

theorem hasTable_made {table : Directory} (htable : creation.table? = some table) :
    (device.edit (creation.edits (creation.file p.consistent) freeMapFile device)).HasTable
      creation.sector table := by
  rw [edits, List.append_assoc]
  exact p.hasTable_new htable fun edit h ↦ h

/-- The parent's table is the new one when its writes are done, whether or not the map's are. -/
theorem hasTable_parent {more : List Edit} (hmore : ∀ edit ∈ more,
      edit ∈ creation.mapEdits (creation.file p.consistent) freeMapFile device) :
    (device.edit (creation.freshEdits (creation.file p.consistent) device ++
      creation.parentEdits (creation.file p.consistent) device ++ more)).HasTable
        here creation.parent := by
  refine p.site.hasTable_store p.capacity_parent (p.frame _ fun edit hedit ↦ ?_)
    fun edit hedit hmem ↦ p.site.parent_apart_map hmem (mem_of_mem_mapEdits (hmore edit hedit))
  rcases List.mem_append.1 hedit with h | h
  · exact List.mem_append_left _ h
  · exact List.mem_append_right _ (hmore edit h)

theorem hasMap_new : (device.edit (creation.edits (creation.file p.consistent) freeMapFile
    device)).HasMap creation.map := by
  rw [← List.append_nil (creation.edits (creation.file p.consistent) freeMapFile device)]
  refine p.site.hasMap_store p.count_map (p.frame _ fun edit hedit ↦ ?_) nofun
  rcases List.mem_append.1 hedit with h | h
  · exact h
  · contradiction

/-- The whole commit adds the new file to the tree. -/
theorem grafted : ∃ entry : Entry, entry.name = Bytes.ofText name ∧
    entry.sector = creation.sector ∧ entry.kind = kind ∧ old.find? name = none ∧
      tree.Grafted ⟨here, entry⟩ device
        (device.edit (creation.edits (creation.file p.consistent) freeMapFile device))
        old creation.parent creation.header creation.map := by
  obtain ⟨entry, hname, hsector, hkind, hnone, hreplaces⟩ := p.replaces
  obtain ⟨table, htable, hlinked, -⟩ := p.sound.tables here above p.inside
  obtain rfl := htable.eq p.site.hasTable
  refine ⟨entry, hname, hsector, hkind, hnone, ?_⟩
  have hall : creation.edits (creation.file p.consistent) freeMapFile device =
      creation.freshEdits (creation.file p.consistent) device ++
        (creation.parentEdits (creation.file p.consistent) device ++
          creation.mapEdits (creation.file p.consistent) freeMapFile device) :=
    List.append_assoc _ _ _
  have hsame : Node.sector ⟨here, entry⟩ = creation.sector := hsector
  constructor
  · exact p.frame _ fun edit h ↦ h
  · exact htable
  · exact p.hasTable_parent fun edit h ↦ h
  · exact hreplaces.entries_perm
  · exact hlinked.isLink_of_find?_eq_none hnone hname
  · rw [hsame, hall]
    exact p.readHeader_new fun edit h ↦ h
  · intro hdirectory
    rw [hsame]
    obtain ⟨made, -, hsome⟩ := p.table (hkind.symm.trans hdirectory)
    obtain ⟨-, -, hrest⟩ := p.table_eq hsome
    exact ⟨made, p.hasTable_made hsome, hrest⟩
  · rw [hsame]
    exact p.nodup_footprint.1
  · rw [hsame]
    exact fun t ht ↦ p.fresh ht
  · exact p.hasMap_new

theorem run_commit : (creation.commit freeMapFile).run device = (.ok (),
    device.edit (creation.edits (creation.file p.consistent) freeMapFile device)) :=
  (p.carriesOut_commit p.sized p.sound.room).run_of_faultFree p.faultFree

theorem stored_of_grafted {entry : Entry} (hsector : entry.sector = creation.sector)
    (g : tree.Grafted ⟨here, entry⟩ device
      (device.edit (creation.edits (creation.file p.consistent) freeMapFile device))
      old creation.parent creation.header creation.map) : Tree.Stored (⟨here, entry⟩ :: tree)
      (device.edit (creation.edits (creation.file p.consistent) freeMapFile device)) := by
  have hfoot : Node.sector ⟨here, entry⟩ :: creation.header.dataSectors = creation.footprint :=
    congrArg (· :: _) hsector
  refine g.stored p.faultFree (Device.faults_edit p.faultFree _) p.sound p.inside
    (fun t ht ↦ ?_) fun t ht ↦ ?_
  · exact p.used_map.2 (.inl (p.site.used_stored ht))
  · exact p.used_map.2 (.inr (hfoot ▸ ht))

theorem grown (htidy : tree.Tidy device) : ∃ entry : Entry, entry.name = Bytes.ofText name ∧
    entry.sector = creation.sector ∧ entry.kind = kind ∧
      tree.Grafted ⟨here, entry⟩ device
        (device.edit (creation.edits (creation.file p.consistent) freeMapFile device))
        old creation.parent creation.header creation.map ∧
      Tree.Stored (⟨here, entry⟩ :: tree)
        (device.edit (creation.edits (creation.file p.consistent) freeMapFile device)) ∧
      Tree.Tidy (⟨here, entry⟩ :: tree)
        (device.edit (creation.edits (creation.file p.consistent) freeMapFile device)) := by
  obtain ⟨entry, hname, hsector, hkind, hnone, g⟩ := p.grafted
  have hfoot : Node.sector ⟨here, entry⟩ :: creation.header.dataSectors = creation.footprint :=
    congrArg (· :: _) hsector
  refine ⟨entry, hname, hsector, hkind, g, p.stored_of_grafted hsector g, ?_⟩
  refine g.tidy p.faultFree (Device.faults_edit p.faultFree _) p.sound p.inside htidy ?_
    fun t ht ↦ ?_
  · exact hname ▸ Directory.find?_eq_none.1 hnone
  · exact (p.used_map.1 ht).imp (htidy.exact _ t p.site.hasMap) fun ht ↦ hfoot ▸ ht

end Placed

end Creation

end SectorFS
