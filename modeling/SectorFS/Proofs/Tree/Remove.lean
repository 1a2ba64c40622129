import SectorFS.Proofs.Tree.Growth
import SectorFS.Proofs.Tree.Site
import SectorFS.Proofs.Volume.Remove

namespace SectorFS

open Layout

namespace Removal

variable {removal : Removal} {freeMapFile : File} {device : Device} {here above t : UInt32}
  {entry : Entry} {header : Header} {stored map : FreeMap} {parent : Directory} {tree : Tree}
  {edit : Edit}

theorem mem_of_mem_mapEdits (h : edit ∈ mapEdits freeMapFile map device) :
    edit.1 ∈ freeMapFile.header.dataSectors := File.fst_mem_of_mem_rewrites h

theorem mem_of_mem_parentEdits (h : edit ∈ removal.parentEdits freeMapFile map parent device) :
    edit.1 ∈ removal.parentFile.header.dataSectors := File.fst_mem_of_mem_rewrites h

theorem Found.mem_tree (hfound : removal.Found device here entry) (h : tree.Stored device)
    (hdir : tree.HasDirectory here above) : ⟨here, entry⟩ ∈ tree := by
  have hmem := (Directory.mem_of_find? hfound.named).1
  rcases h.entry_cases hdir hfound.opened hmem with ⟨hlink, -⟩ | ⟨-, hnode⟩
  · rw [hfound.isLink] at hlink
    contradiction
  · exact hnode

structure Placed (removal : Removal) (tree : Tree) (freeMapFile : File) (device : Device)
    (here above : UInt32) (entry : Entry) (header : Header) (stored map : FreeMap)
    (parent : Directory) : Prop
    extends removal.Found device here entry,
      removal.Prepared freeMapFile device header stored map parent where
  faultFree : device.faults = {}
  sound : tree.Stored device
  inside : tree.HasDirectory here above
  mapped : device.openFile freeMapSector = .ok freeMapFile

namespace Placed

variable (p : removal.Placed tree freeMapFile device here above entry header stored map parent)
include p

theorem site : tree.Site device freeMapFile removal.parentFile here above removal.parent stored :=
  ⟨p.faultFree, p.sound, p.inside, p.mapped, p.opened, p.loaded⟩

theorem mem_tree : ⟨here, entry⟩ ∈ tree := p.toFound.mem_tree p.sound p.inside

theorem footprint_eq : device.footprint entry.sector = removal.sector :: header.dataSectors := by
  rw [p.sector, Device.footprint, Device.dataSectors_of_readHeader p.known]

theorem frame (edits : List Edit)
    (hsub : ∀ edit ∈ edits, edit ∈ removal.edits freeMapFile map parent device) :
    tree.Frame device (device.edit edits) fun s ↦ s = here ∨ s = freeMapSector := by
  refine p.site.frame fun edit hedit _ ↦ ?_
  rcases List.mem_append.1 (hsub edit hedit) with h | h
  · exact .inr (mem_of_mem_mapEdits h)
  · exact .inl (mem_of_mem_parentEdits h)

theorem hasMap_new (more : List Edit)
    (hmore : ∀ edit ∈ more, edit ∈ removal.parentEdits freeMapFile map parent device) :
    (device.edit (mapEdits freeMapFile map device ++ more)).HasMap map := by
  have hframe := p.frame (mapEdits freeMapFile map device ++ more) fun edit hedit ↦ by
    rcases List.mem_append.1 hedit with h | h
    · exact List.mem_append_left _ h
    · exact List.mem_append_right _ (hmore edit h)
  rw [← List.nil_append (mapEdits freeMapFile map device)] at hframe ⊢
  exact p.site.hasMap_store p.count_map hframe fun edit hedit hmem ↦
    p.site.parent_apart_map (mem_of_mem_parentEdits (hmore edit hedit)) hmem

/-- Where the table is written in part, it is the old or the new one. -/
theorem hasTable_take (k : Nat) :
    (device.edit (mapEdits freeMapFile map device ++
      (removal.parentEdits freeMapFile map parent device).take k)).HasTable here removal.parent ∨
    (device.edit (mapEdits freeMapFile map device ++
      (removal.parentEdits freeMapFile map parent device).take k)).HasTable here parent := by
  refine p.site.hasTable_take (p.replaces p.toFound)
    (fun edit hedit hmem ↦ p.site.parent_apart_map hmem (mem_of_mem_mapEdits hedit))
    (p.frame _ fun edit hedit ↦ ?_)
  rcases List.mem_append.1 hedit with h | h
  · exact List.mem_append_left _ h
  · exact List.mem_append_right _ (List.mem_of_mem_take h)

theorem hasTable_new : (device.edit (removal.edits freeMapFile map parent device)).HasTable here
    parent := by
  have hcap := (p.replaces p.toFound).capacity.trans
    (File.capacity_of_readDirectory (Device.openDirectory_eq_ok_iff.1 p.opened).2)
  rw [← List.append_nil (removal.edits freeMapFile map parent device)]
  refine p.site.hasTable_store hcap (p.frame _ fun edit hedit ↦ ?_) nofun
  rcases List.mem_append.1 hedit with h | h
  · exact h
  · contradiction

theorem run_commit : (map.store freeMapFile >>= fun _ ↦ parent.store removal.parentFile).run device =
    (.ok (), device.edit (removal.edits freeMapFile map parent device)) :=
  (p.carriesOut_commit p.toFound).run_of_faultFree p.faultFree

/-- The whole commit takes the file out of the tree. -/
theorem pruned : tree.Pruned ⟨here, entry⟩ device
    (device.edit (removal.edits freeMapFile map parent device)) removal.parent parent map := by
  refine ⟨p.frame _ fun edit h ↦ h, p.site.hasTable, p.hasTable_new,
    (p.replaces p.toFound).symm.entries_perm, p.toFound.isLink, p.hasMap_new _ fun edit h ↦ h,
    fun t ↦ ?_⟩
  have hfootprint : device.footprint (Node.sector ⟨here, entry⟩) =
      removal.sector :: header.dataSectors := p.footprint_eq
  rw [hfootprint, p.used_map]
  refine and_congr_left fun _ ↦
    ⟨fun hused ↦ ⟨stored, p.site.hasMap, hused⟩, fun ⟨other, hother, hused⟩ ↦ ?_⟩
  exact hother.eq p.site.hasMap ▸ hused

end Placed

end Removal

end SectorFS
