import SectorFS.Proofs.Tree.Create
import SectorFS.Proofs.Tree.Marked
import SectorFS.Proofs.Tree.Remove

namespace SectorFS

open Layout

namespace Creation

variable {creation : Creation} {freeMapFile : File} {kind : Kind} {size : Nat} {device : Device}
  {here above t : UInt32} {name : String} {old : Directory} {stored : FreeMap} {tree : Tree}

namespace Placed

variable (p : creation.Placed tree freeMapFile kind size device here above name old stored)
include p

def unmapped : List Edit :=
  creation.freshEdits (creation.file p.consistent) device ++
    creation.parentEdits (creation.file p.consistent) device

theorem frame_unmapped (edits : List Edit) (hsub : ∀ edit ∈ edits, edit ∈ p.unmapped) :
    tree.Frame device (device.edit edits) fun s ↦ s = here := by
  refine p.sound.frame_edit fun edit hedit howned ↦ ?_
  rcases List.mem_append.1 (hsub edit hedit) with h | h
  · exact absurd howned (p.fresh (mem_footprint_of_mem_freshEdits h))
  · refine ⟨here, p.inside.mem_sectors, rfl, ?_⟩
    rw [Device.dataSectors_of_openFile p.site.openFile_parent]
    exact mem_of_mem_parentEdits h

/-- Wherever the writes before the one to the map stop, the parent has its old or its new table. -/
theorem hasTable_take (k : Nat) : (device.edit (p.unmapped.take k)).HasTable here old ∨
    (device.edit (p.unmapped.take k)).HasTable here creation.parent := by
  have happart : ∀ edit ∈ creation.freshEdits (creation.file p.consistent) device,
      edit.1 ∉ tree.owned device := fun edit hedit ↦ p.fresh (mem_footprint_of_mem_freshEdits hedit)
  have hframe := p.frame (p.unmapped.take k) fun edit hedit ↦
    List.mem_append_left _ (List.mem_of_mem_take hedit)
  -- The fresh sectors come first, and as long as they do the parent is not touched.
  by_cases hk : k ≤ (creation.freshEdits (creation.file p.consistent) device).length
  · refine .inl (p.site.hasTable.congr p.faultFree (Device.faults_edit p.faultFree _) fun t ht ↦ ?_)
    rw [unmapped, List.take_append_of_le_length hk]
    exact Device.block?_edit_of_ne fun edit hedit heq ↦ happart edit (List.mem_of_mem_take hedit)
      (Tree.mem_owned.2 ⟨here, p.inside.mem_sectors, heq ▸ ht⟩)
  · obtain ⟨entry, -, -, -, -, hreplaces⟩ := p.replaces
    have hsplit : p.unmapped.take k = creation.freshEdits (creation.file p.consistent) device ++
        (creation.parentEdits (creation.file p.consistent) device).take
          (k - (creation.freshEdits (creation.file p.consistent) device).length) := by
      rw [← List.take_length_add_append, Nat.add_sub_of_le (Nat.le_of_not_le hk), unmapped]
    rw [hsplit] at hframe ⊢
    exact p.site.hasTable_take hreplaces
      (fun edit hedit hmem ↦ happart edit hedit (p.site.mem_owned_parent hmem)) hframe

/-- The map is written in one piece, so a commit that is cut short does not write it. -/
theorem take_edits {k : Nat} (hk : k < (creation.edits (creation.file p.consistent) freeMapFile
    device).length) : (creation.edits (creation.file p.consistent) freeMapFile device).take k =
      p.unmapped.take k := by
  have hone : (creation.mapEdits (creation.file p.consistent) freeMapFile device).length = 1 :=
    File.length_rewrites_of_length p.site.length_freeMapFile
      (FreeMap.length_bytes_of_count p.count_map) _
  rw [edits, List.length_append, hone] at hk
  exact List.take_append_of_le_length (Nat.le_of_lt_succ hk)

theorem hasMap_take (k : Nat) : (device.edit (p.unmapped.take k)).HasMap stored :=
  (p.frame_unmapped _ fun edit (hedit : edit ∈ p.unmapped.take k) ↦
    List.mem_of_mem_take hedit).hasMap p.faultFree (Device.faults_edit p.faultFree _)
      (p.sound.freeMapSector_ne p.inside).symm p.site.hasMap

/-- A creation that stopped before the write to the map leaves every found file marked just when it
did not change the parent's table. -/
theorem marked_take_iff (k : Nat) : (device.edit (p.unmapped.take k)).Marked ↔
    Device.SameTables device (device.edit (p.unmapped.take k)) := by
  have hf := Device.faults_edit p.faultFree (p.unmapped.take k)
  have hframe := p.frame (p.unmapped.take k) fun edit hedit ↦
    List.mem_append_left _ (List.mem_of_mem_take hedit)
  have hmap := p.hasMap_take k
  obtain ⟨entry, hname, hsector, -, hnone, hreplaces⟩ := p.replaces
  have hperm := hreplaces.entries_perm
  rcases p.hasTable_take k with hold | hnew
  · have hsame : ∀ s up table, tree.HasDirectory s up → device.HasTable s table →
        (device.edit (p.unmapped.take k)).HasTable s table := fun s up table ↦
      p.site.hasTable_of_kept hf hframe hold
    refine iff_of_true ?_ fun s table hreach htable ↦ ?_
    · exact p.sound.marked_after (fun _ ↦ False) hframe p.faultFree hf id
        (fun s up table hdir htable ↦ ⟨table, hsame s up table hdir htable, fun _ ↦ id, fun _ _ ↦ id⟩)
        hmap fun s hs _ t ht ↦ p.site.used_stored (Tree.mem_owned.2 ⟨s, hs, ht⟩)
    · obtain ⟨up, hdir⟩ := p.sound.reaches_iff.1 hreach
      exact hsame s up table hdir htable
  · refine iff_of_false ?_ fun hsame ↦ ?_
    · refine p.sound.not_marked_after (fun s up table hdir htable ↦ ?_) p.inside hnew
        (hperm.mem_iff.2 List.mem_cons_self) hmap ?_
      · by_cases heq : s = here
        · subst heq
          obtain rfl := htable.eq p.site.hasTable
          exact ⟨_, hnew, fun other hmem ↦ hperm.mem_iff.2 (List.mem_cons_of_mem _ hmem)⟩
        · exact ⟨table, hframe.hasTable_of_ne p.faultFree hf p.sound hdir heq htable, fun _ ↦ id⟩
      · exact hsector ▸ (p.nodup_footprint.2 _ List.mem_cons_self).2
    · have hback := hsame here old (p.sound.reaches_iff.2 ⟨above, p.inside⟩) p.site.hasTable
      have hmem : entry ∈ old.entries := hback.eq hnew ▸ hperm.mem_iff.2 List.mem_cons_self
      exact Directory.find?_eq_none.1 hnone (hname ▸ List.mem_map_of_mem hmem)

end Placed

end Creation

namespace Removal

variable {removal : Removal} {freeMapFile : File} {device : Device} {here above : UInt32}
  {entry : Entry} {header : Header} {stored map : FreeMap} {parent : Directory} {tree : Tree}

namespace Placed

variable (p : removal.Placed tree freeMapFile device here above entry header stored map parent)
include p

theorem length_mapEdits : (mapEdits freeMapFile map device).length = 1 :=
  File.length_rewrites_of_length p.site.length_freeMapFile
    (FreeMap.length_bytes_of_count p.count_map) device

theorem used_map_of_ne {s t : UInt32} (hs : s ∈ tree.sectors) (hne : s ≠ removal.sector)
    (ht : t ∈ device.footprint s) : map.used t = true := by
  refine p.used_map.2 ⟨p.site.used_stored (Tree.mem_owned.2 ⟨s, hs, ht⟩), fun hmem ↦ hne ?_⟩
  rw [← p.footprint_eq] at hmem
  have hself := Tree.mem_sectors_of_mem p.mem_tree
  exact (p.sound.eq_of_mem_footprint hs hself ht hmem).trans p.sector

theorem sector_ne_of_mem_children {here' up : UInt32} {table : Directory} {other : Entry}
    (hdir : tree.HasDirectory here' up) (htable : device.HasTable here' table)
    (hother : other ∈ table.children) (hs : other.sector = removal.sector) :
    here' = here ∧ other = entry := by
  obtain ⟨was, hwas, -, hperm⟩ := p.sound.tables here' up hdir
  obtain rfl := hwas.eq htable
  have hnode := Tree.mem_children.1 (hperm.mem_iff.1 hother)
  have hsame := p.sound.eq_of_sector hnode p.mem_tree (hs.trans p.sector.symm)
  exact ⟨congrArg Node.parent hsame, congrArg Node.entry hsame⟩

theorem not_mem_parent : entry ∉ parent.entries := by
  intro hmem
  obtain ⟨was, hwas, -, hperm⟩ := p.sound.tables here above p.inside
  obtain rfl := hwas.eq p.site.hasTable
  have hchildren := Directory.children_perm (p.replaces p.toFound).symm.entries_perm p.toFound.isLink
  have hnodup := (hchildren.symm.trans hperm).nodup_iff.2 (p.sound.nodup_children here)
  exact (List.nodup_cons.1 hnodup).1 (Directory.mem_children.2 ⟨hmem, p.toFound.isLink⟩)

theorem take_edits (k : Nat) : (removal.edits freeMapFile map parent device).take (k + 1) =
    mapEdits freeMapFile map device ++ (removal.parentEdits freeMapFile map parent device).take k := by
  rw [edits, Nat.add_comm, ← p.length_mapEdits, List.take_length_add_append]

/-- Once the map is written, the files found are marked when the entry is out of its table. -/
theorem marked_iff_of_hasMap {after : Device}
    (frame : tree.Frame device after fun s ↦ s = here ∨ s = freeMapSector) (hf : after.faults = {})
    (hmap : after.HasMap map)
    (htable : after.HasTable here removal.parent ∨ after.HasTable here parent) :
    after.Marked ↔ ¬Device.SameTables device after := by
  have hperm := (p.replaces p.toFound).symm.entries_perm
  have hentry : entry ∈ removal.parent.entries := hperm.mem_iff.2 List.mem_cons_self
  -- The old table still lists the file that the map has given up; the new one does not.
  rcases htable with hold | hnew
  · have hsame : ∀ s up table, tree.HasDirectory s up → device.HasTable s table →
        after.HasTable s table := fun s up table ↦ p.site.hasTable_of_kept hf frame hold
    refine iff_of_false ?_ (not_not_intro fun s table hreach htable ↦ ?_)
    · refine p.sound.not_marked_after (fun s up table hdir htable ↦
        ⟨table, hsame s up table hdir htable, fun _ ↦ id⟩) p.inside hold hentry hmap ?_
      refine Bool.eq_false_iff.2 fun hused ↦ (p.used_map.1 hused).2 ?_
      exact p.sector ▸ List.mem_cons_self
    · obtain ⟨up, hdir⟩ := p.sound.reaches_iff.1 hreach
      exact hsame s up table hdir htable
  · refine iff_of_true ?_ fun hsame ↦ ?_
    · have hroot : rootSector ≠ removal.sector := fun heq ↦
        (p.sound.sector_ne p.mem_tree).2 (p.sector.trans heq.symm)
      refine p.sound.marked_after (fun s ↦ s = removal.sector) frame p.faultFree hf hroot
        (fun s up table hdir htable ↦ ?_) hmap fun s hs hne t ht ↦ p.used_map_of_ne hs hne ht
      by_cases heq : s = here
      · subst heq
        obtain rfl := htable.eq p.site.hasTable
        have hsub : ∀ other ∈ parent.entries, other ∈ removal.parent.entries := fun other hother ↦
          hperm.mem_iff.2 (List.mem_cons_of_mem _ hother)
        refine ⟨parent, hnew, hsub, fun other hother hs ↦ ?_⟩
        obtain ⟨hmem, hlink⟩ := Directory.mem_children.1 hother
        obtain ⟨-, rfl⟩ := p.sector_ne_of_mem_children hdir htable
          (Directory.mem_children.2 ⟨hsub other hmem, hlink⟩) hs
        exact p.not_mem_parent hmem
      · exact ⟨table, frame.hasTable_of_ne p.faultFree hf p.sound hdir heq htable, fun _ ↦ id,
          fun other hother hs ↦ heq (p.sector_ne_of_mem_children hdir htable hother hs).1⟩
    · have hback := hsame here removal.parent (p.sound.reaches_iff.2 ⟨above, p.inside⟩)
        p.site.hasTable
      exact p.not_mem_parent (hback.eq hnew ▸ hentry)

/-- A removal that stopped leaves every found file marked just when it did not write the map yet, or
when it changed the parent's table as well. -/
theorem marked_take_iff (k : Nat) :
    (device.edit ((removal.edits freeMapFile map parent device).take k)).Marked ↔
      Device.SameMap device (device.edit ((removal.edits freeMapFile map parent device).take k)) ∨
        ¬Device.SameTables device
          (device.edit ((removal.edits freeMapFile map parent device).take k)) := by
  cases k with
  | zero => exact iff_of_true (p.sound.marked_self p.faultFree) (.inl (Device.SameMap.refl device))
  | succ k =>
    rw [p.take_edits]
    have hmap := p.hasMap_new ((removal.parentEdits freeMapFile map parent device).take k)
      fun edit hedit ↦ List.mem_of_mem_take hedit
    have hframe := p.frame (mapEdits freeMapFile map device ++
      (removal.parentEdits freeMapFile map parent device).take k) fun edit hedit ↦
        (List.take_sublist _ _).mem (p.take_edits k ▸ hedit)
    have hchanged : ¬Device.SameMap device (device.edit (mapEdits freeMapFile map device ++
        (removal.parentEdits freeMapFile map parent device).take k)) := by
      intro hsame
      obtain rfl := (hsame _ p.site.hasMap).eq hmap
      have hself := p.site.used_stored (Tree.mem_owned.2
        ⟨entry.sector, Tree.mem_sectors_of_mem p.mem_tree, List.mem_cons_self⟩)
      rw [p.sector] at hself
      exact (p.used_map.1 hself).2 List.mem_cons_self
    rw [p.marked_iff_of_hasMap hframe (Device.faults_edit p.faultFree _) hmap (p.hasTable_take k)]
    exact ⟨.inr, fun h ↦ h.resolve_left hchanged⟩

end Placed

end Removal

end SectorFS
