import SectorFS.Proofs.Tree.Create
import SectorFS.Proofs.Tree.Format
import SectorFS.Proofs.Tree.Remove

namespace SectorFS

open Layout

namespace Device

variable {device after : Device} {s here : UInt32} {bytes other : Bytes} {map : FreeMap}

def HasBytes (device : Device) (s : UInt32) (bytes : Bytes) : Prop :=
  ∃ file, device.openFile s = .ok file ∧ file.contents device = bytes

/-- The file of every directory holds the bytes of its table, free slots too, of whose bytes reading
it tells nothing. -/
def Spelled (device : Device) : Prop :=
  ∀ here table, device.Reaches here → device.HasTable here table →
    device.HasBytes here table.bytes

theorem HasBytes.congr (hf : device.faults = {}) (hf' : after.faults = {})
    (hsame : ∀ t ∈ device.footprint s, after.block? t = device.block? t)
    (h : device.HasBytes s bytes) : after.HasBytes s bytes := by
  obtain ⟨file, hopen, hbytes⟩ := h
  refine ⟨file, (openFile_congr hf hf' (hsame _ (mem_footprint_self _ _))).trans hopen, ?_⟩
  rw [File.contents_congr fun t ht ↦ hsame t ?_]
  · exact hbytes
  · exact List.mem_cons_of_mem _ (dataSectors_of_openFile hopen ▸ ht)

theorem HasMap.hasBytes (hf : device.faults = {}) (h : device.HasMap map)
    (hon : ∀ t ∈ device.dataSectors freeMapSector, device.Has t) :
    device.HasBytes freeMapSector map.bytes := by
  obtain ⟨file, hopen, hlen, hload⟩ := h
  obtain ⟨bytes, hread, hbytes, rfl⟩ := FreeMap.load_eq_ok_iff.1 hload
  rw [dataSectors_of_openFile hopen] at hon
  rw [File.read_eq hf hon, List.drop_zero, List.take_of_length_le (by simp [hlen])] at hread
  refine ⟨file, hopen, ?_⟩
  rw [FreeMap.bytes_overlay _ hbytes]
  exact Except.ok.inj hread

end Device

namespace Tree

variable {tree first rest : Tree} {node : Node} {before after device : Device}
  {touched : UInt32 → Prop} {s here parent : UInt32} {old new : Directory} {map : FreeMap}
  {header : Header} {bytes : Bytes}

theorem Stored.spelled_iff (h : tree.Stored device) : device.Spelled ↔
    ∀ here parent table, tree.HasDirectory here parent → device.HasTable here table →
      device.HasBytes here table.bytes :=
  ⟨fun hspelled here parent table hdir ↦ hspelled here table (h.reaches_iff.2 ⟨parent, hdir⟩),
    fun hall here table hreach htable ↦ (h.reaches_iff.1 hreach).elim fun parent hdir ↦
      hall here parent table hdir htable⟩

theorem Frame.hasBytes (frame : tree.Frame before after touched) (hf : before.faults = {})
    (hf' : after.faults = {}) (hs : s ∈ tree.sectors) (hnot : ¬touched s)
    (h : before.HasBytes s bytes) : after.HasBytes s bytes :=
  h.congr hf hf' (frame.footprint s hs hnot)

/-- A directory that a change does not touch stays spelled out. -/
theorem Frame.hasBytes_table (frame : tree.Frame before after touched) (hf : before.faults = {})
    (hf' : after.faults = {}) (h : tree.Stored before) (hspelled : before.Spelled)
    (hdir : tree.HasDirectory here parent) (hnot : ¬touched here) {table : Directory}
    (htable : after.HasTable here table) : after.HasBytes here table.bytes := by
  obtain ⟨stored, hstored, -⟩ := h.tables here parent hdir
  obtain rfl := htable.eq (frame.hasTable hf hf' hdir hnot hstored)
  apply frame.hasBytes hf hf' hdir.mem_sectors hnot
  exact hspelled here _ (h.reaches_iff.2 ⟨parent, hdir⟩) hstored

/-- A change to the data of regular files leaves the directories as they are. -/
theorem Frame.spelled (frame : tree.Frame before after touched) (hf : before.faults = {})
    (hf' : after.faults = {}) (h : tree.Stored before) (hdir : ∀ here parent,
      tree.HasDirectory here parent → ¬touched here) (hmap : ¬touched freeMapSector)
    (hspelled : before.Spelled) : after.Spelled := by
  apply (frame.stored hf hf' h hdir hmap).spelled_iff.2
  intro here parent table hhere
  exact frame.hasBytes_table hf hf' h hspelled hhere (hdir here parent hhere)

theorem Grafted.spelled (g : tree.Grafted node before after old new header map)
    (hf : before.faults = {}) (hf' : after.faults = {}) (h : tree.Stored before)
    (hafter : Stored (node :: tree) after) (hspelled : before.Spelled)
    (hparent : after.HasBytes node.parent new.bytes)
    (hmade : node.entry.kind = .directory → ∀ table, after.HasTable node.sector table →
      after.HasBytes node.sector table.bytes) : after.Spelled := by
  apply hafter.spelled_iff.2
  intro here parent table hdir htable
  rcases (hasDirectory_append [] node tree).1 hdir with ⟨hkind, rfl, -⟩ | hdir
  · exact hmade hkind table htable
  · by_cases hhere : here = node.parent
    · subst hhere
      exact htable.eq g.becomes ▸ hparent
    · apply g.frame.hasBytes_table hf hf' h hspelled hdir _ htable
      exact fun hn ↦ hn.elim hhere (h.freeMapSector_ne hdir)

theorem Pruned.spelled (p : Pruned (first ++ node :: rest) node before after old new map)
    (hf : before.faults = {}) (hf' : after.faults = {}) (h : Stored (first ++ node :: rest) before)
    (hafter : Stored (first ++ rest) after) (hspelled : before.Spelled)
    (hparent : after.HasBytes node.parent new.bytes) : after.Spelled := by
  apply hafter.spelled_iff.2
  intro here parent table hdir htable
  have hdir' := (hasDirectory_append first node rest).2 (.inr hdir)
  by_cases hhere : here = node.parent
  · subst hhere
    exact htable.eq p.becomes ▸ hparent
  · apply p.frame.hasBytes_table hf hf' h hspelled hdir' _ htable
    exact fun hn ↦ hn.elim hhere (h.freeMapSector_ne hdir')

end Tree

namespace Creation.Placed

variable {creation : Creation} {tree : Tree} {freeMapFile : File} {kind : Kind} {size : Nat}
  {device : Device} {here above : UInt32} {name : String} {old : Directory} {stored : FreeMap}
  (p : creation.Placed tree freeMapFile kind size device here above name old stored)
include p

theorem length_parent : creation.parent.bytes.length = creation.parentFile.length := by
  rw [Directory.length_bytes_of_capacity p.capacity_parent, p.site.length_parentFile]

theorem hasBytes_parent :
    (device.edit (creation.edits (creation.file p.consistent) freeMapFile device)).HasBytes here
      creation.parent.bytes := by
  obtain ⟨hon, hnodup⟩ := p.site.sound.onDevice p.site.openFile_parent p.inside.mem_sectors
  have hframe := p.frame _ fun edit h ↦ h
  refine ⟨creation.parentFile, ?_, File.contents_store hnodup hon p.length_parent ?_⟩
  · rw [hframe.openFile_eq p.faultFree (Device.faults_edit p.faultFree _) p.inside.mem_sectors]
    exact p.site.openFile_parent
  · intro edit hedit hmem
    exact p.site.parent_apart_map hmem (mem_of_mem_mapEdits hedit)

/-- Beyond the ends of the files that a creation rewrites nothing changes. -/
theorem tail_edits :
    creation.parentFile.tail
        (device.edit (creation.edits (creation.file p.consistent) freeMapFile device)) =
      creation.parentFile.tail device ∧
    freeMapFile.tail
        (device.edit (creation.edits (creation.file p.consistent) freeMapFile device)) =
      freeMapFile.tail device := by
  have hfresh : ∀ edit ∈ creation.freshEdits (creation.file p.consistent) device,
      edit.1 ∉ tree.owned device := fun edit hedit ↦
    p.fresh (mem_footprint_of_mem_freshEdits hedit)
  constructor
  · obtain ⟨hon, hnodup⟩ := p.site.onDevice_parent []
    refine File.tail_store hnodup hon (fun edit hedit hmem ↦ ?_) fun edit hedit hmem ↦ ?_
    · exact hfresh edit hedit (p.site.mem_owned_parent hmem)
    · exact p.site.parent_apart_map hmem (mem_of_mem_mapEdits hedit)
  · obtain ⟨hon, hnodup⟩ := p.site.onDevice_map []
    rw [← List.append_nil (creation.edits (creation.file p.consistent) freeMapFile device)]
    refine File.tail_store hnodup hon (fun edit hedit hmem ↦ ?_) nofun
    rcases List.mem_append.1 hedit with h | h
    · exact hfresh edit h (p.site.mem_owned_map hmem)
    · exact p.site.parent_apart_map (mem_of_mem_parentEdits h) hmem

/-- The table of a new directory is written once. -/
theorem hasBytes_made {table : Directory} (htable : creation.table? = some table) :
    (device.edit (creation.edits (creation.file p.consistent) freeMapFile device)).HasBytes
      creation.sector table.bytes := by
  obtain ⟨rfl, hcap, -⟩ := p.table_eq htable
  obtain ⟨entry, -, hsector, -, -, g⟩ := p.grafted
  have hnodup := p.nodup_footprint
  have hon : (creation.file p.consistent).OnDevice device := fun s hs ↦
    Nat.lt_of_lt_of_le (hnodup.2 s (List.mem_cons_of_mem _ hs)).1 p.sound.room
  have hlen : table.bytes.length = (creation.file p.consistent).length := by
    rw [Directory.length_bytes_of_capacity hcap, ← p.sized rfl]
    exact p.length_header.symm
  have hhead : (device.edit (creation.edits (creation.file p.consistent) freeMapFile
      device)).readHeader creation.sector = .ok creation.header := by
    rw [← hsector]
    exact g.headed
  refine ⟨creation.file p.consistent, Device.openFile_of_readHeader hhead, ?_⟩
  rw [edits, List.append_assoc, freshEdits, tableEdits, htable]
  refine File.contents_store (List.nodup_cons.1 hnodup.1).2 hon hlen fun edit hedit hmem ↦ ?_
  exact p.ne_of_fresh (List.mem_cons_of_mem _ hmem) hedit rfl

theorem spelled (hspelled : device.Spelled) :
    (device.edit (creation.edits (creation.file p.consistent) freeMapFile device)).Spelled := by
  obtain ⟨entry, -, hsector, hkind, -, g⟩ := p.grafted
  have hf := Device.faults_edit p.faultFree
    (creation.edits (creation.file p.consistent) freeMapFile device)
  refine g.spelled p.faultFree hf p.sound (p.stored_of_grafted hsector g) hspelled
    p.hasBytes_parent fun hdirectory table htable ↦ ?_
  obtain ⟨made, -, hmade⟩ := p.table (hkind.symm.trans hdirectory)
  have hself : Node.sector ⟨here, entry⟩ = creation.sector := hsector
  rw [hself] at htable ⊢
  exact htable.eq (p.hasTable_made hmade) ▸ p.hasBytes_made hmade

end Creation.Placed

namespace Removal.Placed

variable {removal : Removal} {tree : Tree} {freeMapFile : File} {device : Device}
  {here above : UInt32} {entry : Entry} {header : Header} {stored map : FreeMap} {parent : Directory}
  (p : removal.Placed tree freeMapFile device here above entry header stored map parent)
include p

theorem length_parent : parent.bytes.length = removal.parentFile.length := by
  have hread := (Device.openDirectory_eq_ok_iff.1 p.opened).2
  have hcap := (p.replaces p.toFound).capacity.trans (File.capacity_of_readDirectory hread)
  rw [Directory.length_bytes_of_capacity hcap, p.site.length_parentFile]

theorem hasBytes_parent : (device.edit (removal.edits freeMapFile map parent device)).HasBytes here
    parent.bytes := by
  obtain ⟨hon, hnodup⟩ := p.site.sound.onDevice p.site.openFile_parent p.inside.mem_sectors
  refine ⟨removal.parentFile, ?_, ?_⟩
  · rw [p.pruned.frame.openFile_eq p.faultFree (Device.faults_edit p.faultFree _)
      p.inside.mem_sectors]
    exact p.site.openFile_parent
  · rw [← List.append_nil (removal.edits freeMapFile map parent device)]
    exact File.contents_store hnodup hon p.length_parent nofun

theorem length_map : map.bytes.length = freeMapFile.length := by
  rw [FreeMap.length_bytes_of_count p.count_map, p.site.length_freeMapFile]

omit p in
theorem edits_eq : removal.edits freeMapFile map parent device =
    [] ++ freeMapFile.rewrites (device.edit []) map.bytes 0 ++
      removal.parentEdits freeMapFile map parent device := rfl

theorem contents_map :
    freeMapFile.contents (device.edit (removal.edits freeMapFile map parent device)) = map.bytes := by
  obtain ⟨hon, hnodup⟩ := p.site.onDevice_map []
  rw [edits_eq]
  refine File.contents_store hnodup hon p.length_map fun edit hedit hmem ↦ ?_
  exact p.site.parent_apart_map (mem_of_mem_parentEdits hedit) hmem

theorem tail_edits :
    removal.parentFile.tail (device.edit (removal.edits freeMapFile map parent device)) =
      removal.parentFile.tail device ∧
    freeMapFile.tail (device.edit (removal.edits freeMapFile map parent device)) =
      freeMapFile.tail device := by
  constructor
  · obtain ⟨hon, hnodup⟩ := p.site.onDevice_parent []
    rw [← List.append_nil (removal.edits freeMapFile map parent device)]
    refine File.tail_store hnodup hon (fun edit hedit hmem ↦ ?_) nofun
    exact p.site.parent_apart_map hmem (mem_of_mem_mapEdits hedit)
  · obtain ⟨hon, hnodup⟩ := p.site.onDevice_map []
    rw [edits_eq]
    refine File.tail_store hnodup hon nofun fun edit hedit hmem ↦ ?_
    exact p.site.parent_apart_map (mem_of_mem_parentEdits hedit) hmem

theorem spelled (hspelled : device.Spelled) (hchildless : tree.children entry.sector = []) :
    (device.edit (removal.edits freeMapFile map parent device)).Spelled := by
  have hf := Device.faults_edit p.faultFree (removal.edits freeMapFile map parent device)
  have hparent := p.hasBytes_parent
  have hpruned := p.pruned
  have hstored := p.sound
  obtain ⟨first, rest, rfl⟩ := List.append_of_mem p.mem_tree
  exact hpruned.spelled p.faultFree hf hstored
    (hpruned.stored p.faultFree hf hstored hchildless) hspelled hparent

end Removal.Placed

theorem Volume.Blueprint.spelled {mapHeader rootHeader : Header} {map : FreeMap} {device : Device}
    (b : Volume.Blueprint mapHeader rootHeader map) (hroom : numSectors ≤ device.blocks.size)
    (hf : device.faults = {}) {root : Directory} (hcap : root.capacity = directorySlots)
    (hstored : Tree.Stored [] (b.laid root device)) : (b.laid root device).Spelled := by
  apply hstored.spelled_iff.2
  rintro here parent table (⟨rfl, -⟩ | ⟨node, hnode, -⟩) htable
  · obtain rfl := (b.hasTable hroom hf hcap).eq htable
    have hnodup : b.rootFile.header.dataSectors.Nodup := by
      change rootHeader.dataSectors.Nodup
      rw [b.rootSectors]
      decide
    have hlen : root.bytes.length = b.rootFile.length :=
      (Directory.length_bytes_of_capacity hcap).trans b.rootLength.symm
    refine ⟨b.rootFile, (b.openFile_laid hroom hf root).2, ?_⟩
    have hcontents : b.rootFile.contents ((b.mapped device).edit ([] ++
        b.rootFile.rewrites ((b.mapped device).edit []) root.bytes 0 ++ [])) = root.bytes :=
      File.contents_store hnodup (b.onDevice_rootFile hroom) hlen nofun
    rwa [List.append_nil] at hcontents
  · contradiction

end SectorFS
