import Mathlib.Data.List.Basic
import SectorFS.Proofs.Creating
import SectorFS.Proofs.Tree.Spelled

namespace SectorFS

open Layout

theorem Directory.Replaces.undo {old mid new : Directory} {entry : Entry}
    (hnodup : mid.entries.Nodup) (h : old.Replaces mid none (some entry))
    (h' : mid.Replaces new (some entry) none) : new = old := by
  obtain ⟨first, rest, hold, hmid⟩ := h
  obtain ⟨first', rest', hmid', hnew⟩ := h'
  have hentries : mid.entries = first.filterMap id ++ entry :: rest.filterMap id := by
    rw [entries, hmid, List.filterMap_append]
    rfl
  rw [hentries, List.nodup_middle, ← List.filterMap_append, List.nodup_cons] at hnodup
  have hnot : some entry ∉ first ++ rest := fun hmem ↦
    hnodup.1 (List.mem_filterMap.2 ⟨_, hmem, rfl⟩)
  rw [List.mem_append, not_or] at hnot
  obtain ⟨rfl, -, rfl⟩ :=
    (List.append_cons_inj_of_notMem hnot.1 hnot.2).1 (hmid.symm.trans hmid')
  cases old
  cases new
  cases hold
  cases hnew
  rfl

/-- A map of the volume's size is given by the sectors it counts as used. -/
theorem FreeMap.eq_of_used {map other : FreeMap} (hcount : map.count = numSectors)
    (hother : other.count = numSectors) (h : ∀ s, map.used s = true ↔ other.used s = true) :
    map = other := by
  have hmem : ∀ map : FreeMap, map.count = numSectors → ∀ i,
      i ∈ map.marks ↔ i < numSectors ∧ map.used (UInt32.ofNat i) = true := by
    intro map hcount i
    have hreach : map.reach = numSectors := by
      rw [reach, hcount]
      rfl
    constructor
    · intro hi
      have hlt : i < numSectors := by
        have hbound := map.lt_of_mem_marks i hi
        rw [hcount] at hbound
        exact hbound
      refine ⟨hlt, ?_⟩
      rw [map.used_ofNat (hreach ▸ hlt)]
      exact List.contains_iff_mem.2 hi
    · rintro ⟨hlt, hi⟩
      rw [map.used_ofNat (hreach ▸ hlt)] at hi
      exact List.contains_iff_mem.1 hi
  refine eq_of_marks (hcount.trans hother.symm) ?_
  refine Marks.eq_of_mem_iff map.pairwise_marks other.pairwise_marks fun i ↦ ?_
  rw [hmem map hcount, hmem other hother, h]

namespace Device

/-- The devices store the same free map and the same directories with the same tables, byte for
byte, and every sector that the map counts as used holds the same. -/
structure Restored (before after : Device) : Prop where
  map : ∃ stored, before.HasMap stored ∧ after.HasMap stored ∧
    before.HasBytes freeMapSector stored.bytes ∧ after.HasBytes freeMapSector stored.bytes
  reaches : ∀ here, after.Reaches here ↔ before.Reaches here
  tables : ∀ here, before.Reaches here → ∃ table, before.HasTable here table ∧
    after.HasTable here table ∧ before.HasBytes here table.bytes ∧ after.HasBytes here table.bytes
  used : ∀ stored s, before.HasMap stored → stored.used s = true →
    after.block? s = before.block? s

structure SameOutside (before after : Device) (sectors : List UInt32) : Prop where
  size : after.blocks.size = before.blocks.size
  block : ∀ t, t ∉ sectors → after.block? t = before.block? t

variable {before middle after : Device} {sectors : List UInt32}

theorem SameOutside.refl (device : Device) (sectors : List UInt32) :
    device.SameOutside device sectors := ⟨rfl, fun _ _ ↦ rfl⟩

theorem SameOutside.trans (h : before.SameOutside middle sectors)
    (h' : middle.SameOutside after sectors) : before.SameOutside after sectors :=
  ⟨h'.size.trans h.size, fun t ht ↦ (h'.block t ht).trans (h.block t ht)⟩

theorem SameOutside.frame {tree : Tree} (h : before.SameOutside after sectors)
    (hstored : tree.Stored before) {touched : UInt32 → Prop} {s : UInt32} (hs : s ∈ tree.sectors)
    (htouched : touched s) (hsub : ∀ t ∈ sectors, t ∈ before.dataSectors s) :
    tree.Frame before after touched :=
  hstored.frame h.size fun t _ hnot ↦ h.block t fun ht ↦ hnot s hs htouched (hsub t ht)

end Device

/-- If all that is in use is as it was, so are the map and the directories. -/
theorem Tree.Stored.restored {tree : Tree} {before after : Device} (h : tree.Stored before)
    (htidy : tree.Tidy before) (hspelled : before.Spelled) (hf : before.faults = {})
    (hf' : after.faults = {}) (hsize : after.blocks.size = before.blocks.size)
    (hblocks : ∀ t ∈ tree.owned before, after.block? t = before.block? t) :
    before.Restored after := by
  have hframe : tree.Frame before after fun _ ↦ False := h.frame hsize fun t ht _ ↦ hblocks t ht
  have halike := hframe.alike hf hf' (fun _ _ _ ↦ id) id
  have hafter := hframe.stored hf hf' h (fun _ _ _ ↦ id) id
  refine ⟨?_, fun here ↦ hafter.reaches_iff.trans h.reaches_iff.symm, fun here hreach ↦ ?_,
    fun stored s hmap hused ↦ hblocks s (htidy.exact stored s hmap hused)⟩
  · obtain ⟨stored, hmap, -⟩ := h.marked
    have hbytes := hmap.hasBytes hf fun t ht ↦ h.has_of_mem_owned
      (Tree.mem_owned.2 ⟨_, tree.freeMapSector_mem, List.mem_cons_of_mem _ ht⟩)
    exact ⟨stored, hmap, halike.map stored hmap, hbytes,
      hframe.hasBytes hf hf' tree.freeMapSector_mem id hbytes⟩
  · obtain ⟨parent, hdir⟩ := h.reaches_iff.1 hreach
    obtain ⟨table, htable, -⟩ := h.tables here parent hdir
    have hbytes := hspelled here table hreach htable
    exact ⟨table, htable, halike.tables here parent table hdir htable, hbytes,
      hframe.hasBytes hf hf' hdir.mem_sectors id hbytes⟩

/-- A creation that was carried out, what it left after changes to the data of the new file, and a
removal of this file that is prepared there. -/
structure Undoing (creation : Creation) (removal : Removal) (tree : Tree) (freeMapFile : File)
    (kind : Kind) (size : Nat) (name : String) (here above up : UInt32) (entry : Entry)
    (header : Header) (old parent : Directory) (stored middle map : FreeMap)
    (before created later : Device) : Prop where
  made : creation.Placed tree freeMapFile kind size before here above name old stored
  tidy : tree.Tidy before
  spelled : before.Spelled
  outcome : created =
    before.edit (creation.edits (creation.file made.consistent) freeMapFile before)
  grafted : tree.Grafted ⟨here, entry⟩ before created old creation.parent creation.header
    creation.map
  replaces : old.Replaces creation.parent none (some entry)
  sector : entry.sector = creation.sector
  between : created.SameOutside later creation.header.dataSectors
  taken : removal.Placed (⟨here, entry⟩ :: tree) freeMapFile later here up entry header middle map
    parent

namespace Undoing

variable {creation : Creation} {removal : Removal} {tree : Tree} {freeMapFile : File} {kind : Kind}
  {size : Nat} {name : String} {here above up s t : UInt32} {entry : Entry} {header : Header}
  {old parent : Directory} {stored middle map : FreeMap} {before created later : Device}
  (u : Undoing creation removal tree freeMapFile kind size name here above up entry header old parent
    stored middle map before created later)
include u

theorem faults_created : created.faults = {} := u.outcome ▸ Device.faults_edit u.made.faultFree _

theorem stored_created : Tree.Stored (⟨here, entry⟩ :: tree) created := by
  have hgrafted := u.grafted
  rw [u.outcome] at hgrafted ⊢
  exact u.made.stored_of_grafted u.sector hgrafted

omit u in
theorem mem_sectors_new : entry.sector ∈ Tree.sectors (⟨here, entry⟩ :: tree) :=
  List.mem_cons_of_mem _ (List.mem_cons_of_mem _ List.mem_cons_self)

omit u in
theorem mem_sectors_old (hs : s ∈ tree.sectors) : s ∈ Tree.sectors (⟨here, entry⟩ :: tree) :=
  (Tree.sectors_perm [] ⟨here, entry⟩ tree).mem_iff.2 (List.mem_cons_of_mem _ hs)

theorem footprint_eq : entry.sector :: creation.header.dataSectors = creation.footprint :=
  congrArg (· :: _) u.sector

theorem fresh (ht : t ∈ creation.footprint) : t ∉ tree.owned before := u.made.fresh ht

theorem ne_of_mem (ht : t ∈ tree.sectors) : t ≠ entry.sector := by
  rintro rfl
  refine u.fresh (t := entry.sector) ?_ (Tree.mem_owned.2 ⟨_, ht, Device.mem_footprint_self _ _⟩)
  exact u.footprint_eq ▸ List.mem_cons_self

theorem frame_between : Tree.Frame (⟨here, entry⟩ :: tree) created later fun s ↦
    s = entry.sector := by
  refine u.between.frame u.stored_created mem_sectors_new rfl fun t ht ↦ ?_
  have hdata := Device.dataSectors_of_readHeader u.grafted.headed
  exact hdata.symm ▸ ht

theorem openFile_later (hs : s ∈ tree.sectors) : later.openFile s = before.openFile s := by
  rw [u.frame_between.openFile_eq u.faults_created u.taken.faultFree
      (mem_sectors_old hs),
    u.grafted.frame.openFile_eq u.made.faultFree u.faults_created hs]

theorem dataSectors_later (hs : s ∈ tree.sectors) :
    later.dataSectors s = before.dataSectors s := by
  rw [u.frame_between.dataSectors_eq u.faults_created u.taken.faultFree
      (mem_sectors_old hs),
    u.grafted.frame.dataSectors_eq u.made.faultFree u.faults_created hs]

theorem parentFile_eq : removal.parentFile = creation.parentFile := by
  have hopen := u.taken.site.openFile_parent
  rw [u.openFile_later u.made.inside.mem_sectors, u.made.site.openFile_parent] at hopen
  exact (Except.ok.inj hopen).symm

/-- The removal finds the table and the map that the creation left. -/
theorem found_eq : removal.parent = creation.parent ∧ middle = creation.map := by
  have hdir : Tree.HasDirectory (⟨here, entry⟩ :: tree) here above := u.made.inside.cons
  constructor
  · refine u.taken.site.hasTable.eq (u.frame_between.hasTable u.faults_created u.taken.faultFree
      hdir ?_ u.grafted.becomes)
    exact u.ne_of_mem u.made.inside.mem_sectors
  · refine u.taken.site.hasMap.eq (u.frame_between.hasMap u.faults_created u.taken.faultFree ?_
      u.grafted.mapped)
    exact u.ne_of_mem tree.freeMapSector_mem

/-- The removal leaves the table that was there before the creation. -/
theorem parent_eq : parent = old := by
  have hnames := u.tidy.names _ _ _ u.made.inside u.made.site.hasTable
  have hnew : (creation.parent.entries.map Entry.name).Nodup := by
    obtain ⟨other, hname, -, -, hnone, hreplaces⟩ := u.made.replaces
    rw [(hreplaces.entries_perm.map Entry.name).nodup_iff, List.map_cons, hname]
    exact List.nodup_cons.2 ⟨Directory.find?_eq_none.1 hnone, hnames⟩
  have hremoved := u.taken.replaces u.taken.toFound
  rw [u.found_eq.1] at hremoved
  exact u.replaces.undo (List.Nodup.of_map _ hnew) hremoved

/-- The removal frees the sectors that the creation took. -/
theorem map_eq : map = stored := by
  refine FreeMap.eq_of_used u.taken.count_map u.made.count_stored fun s ↦ ?_
  have hfoot : later.footprint entry.sector = creation.footprint := by
    rw [u.frame_between.footprint_eq u.faults_created u.taken.faultFree mem_sectors_new,
      ← u.footprint_eq]
    exact u.grafted.footprint_eq
  rw [u.taken.used_map_iff, hfoot, u.found_eq.2, u.made.used_map]
  constructor
  · rintro ⟨hused | hnew, hnot⟩
    · exact hused
    · exact absurd hnew hnot
  · intro hused
    refine ⟨.inl hused, fun hnew ↦ ?_⟩
    rw [(u.made.nodup_footprint.2 s hnew).2] at hused
    contradiction

theorem size_after {edits : List Edit} :
    (later.edit edits).blocks.size = before.blocks.size := by
  rw [Device.size_edit, u.between.size, u.outcome, Device.size_edit]

/-- A file that the creation and the removal rewrite is as it was, if the removal leaves the
contents that it had. -/
theorem block?_of_contents {file : File} (hopen : before.openFile s = .ok file)
    (hs : s ∈ tree.sectors)
    (hcontents : file.contents (later.edit (removal.edits freeMapFile map parent later)) =
      file.contents before)
    (hmade : file.tail created = file.tail before)
    (htaken : file.tail (later.edit (removal.edits freeMapFile map parent later)) = file.tail later)
    (ht : t ∈ before.dataSectors s) :
    (later.edit (removal.edits freeMapFile map parent later)).block? t = before.block? t := by
  obtain ⟨hon, -⟩ := u.made.sound.onDevice hopen hs
  have hdata := Device.dataSectors_of_openFile hopen
  have hon' : file.OnDevice (later.edit (removal.edits freeMapFile map parent later)) := by
    intro t ht
    rw [Device.Has, u.size_after]
    exact hon t ht
  have hlater : file.tail later = file.tail created := by
    refine File.tail_congr fun t ht ↦ ?_
    refine u.frame_between.footprint s (mem_sectors_old hs) (u.ne_of_mem hs) t ?_
    rw [u.grafted.frame.footprint_eq u.made.faultFree u.faults_created hs]
    exact List.mem_cons_of_mem _ (hdata ▸ ht)
  have htail := htaken.trans (hlater.trans hmade)
  exact File.block?_eq_of_contents hon hon' hcontents htail t (hdata ▸ ht)

theorem block?_parent (ht : t ∈ before.dataSectors here) :
    (later.edit (removal.edits freeMapFile map parent later)).block? t = before.block? t := by
  have hopen := u.made.site.openFile_parent
  have hmade := u.made.tail_edits.1
  rw [← u.outcome] at hmade
  obtain ⟨file, hfile, hwas⟩ := u.spelled here old
    (u.made.sound.reaches_iff.2 ⟨above, u.made.inside⟩) u.made.site.hasTable
  cases hopen.symm.trans hfile
  obtain ⟨file, hfile, hnow⟩ := u.taken.hasBytes_parent
  rw [u.taken.pruned.frame.openFile_eq u.taken.faultFree (Device.faults_edit u.taken.faultFree _)
    u.taken.inside.mem_sectors, u.openFile_later u.made.inside.mem_sectors] at hfile
  cases hopen.symm.trans hfile
  refine u.block?_of_contents hopen u.made.inside.mem_sectors ?_ hmade ?_ ht
  · rw [hnow, u.parent_eq, hwas]
  · exact u.parentFile_eq ▸ u.taken.tail_edits.1

theorem block?_map (ht : t ∈ before.dataSectors freeMapSector) :
    (later.edit (removal.edits freeMapFile map parent later)).block? t = before.block? t := by
  have hopen := u.made.mapped
  have hmade := u.made.tail_edits.2
  rw [← u.outcome] at hmade
  obtain ⟨file, hfile, hwas⟩ := u.made.site.hasMap.hasBytes u.made.faultFree fun t ht ↦
    u.made.sound.has_of_mem_owned
      (Tree.mem_owned.2 ⟨_, tree.freeMapSector_mem, List.mem_cons_of_mem _ ht⟩)
  cases hopen.symm.trans hfile
  refine u.block?_of_contents hopen tree.freeMapSector_mem ?_ hmade u.taken.tail_edits.2 ht
  rw [u.taken.contents_map, u.map_eq, hwas]

/-- Whatever was in use before the creation is as it was after the removal. -/
theorem block?_owned (ht : t ∈ tree.owned before) :
    (later.edit (removal.edits freeMapFile map parent later)).block? t = before.block? t := by
  by_cases hparent : t ∈ before.dataSectors here
  · exact u.block?_parent hparent
  · by_cases hmap : t ∈ before.dataSectors freeMapSector
    · exact u.block?_map hmap
    · have hnew : t ∉ creation.footprint := fun hnew ↦ u.fresh hnew ht
      rw [Creation.footprint, List.mem_cons, not_or] at hnew
      have hmade := u.made.block?_edits hnew.1 (fun _ ↦ hnew.2) hparent hmap
      rw [← u.outcome] at hmade
      have htaken := u.taken.block?_take (removal.edits freeMapFile map parent later).length
        ((u.dataSectors_later tree.freeMapSector_mem).symm ▸ hmap)
        ((u.dataSectors_later u.made.inside.mem_sectors).symm ▸ hparent)
      rw [List.take_length] at htaken
      calc (later.edit (removal.edits freeMapFile map parent later)).block? t
          = later.block? t := htaken
        _ = created.block? t := u.between.block t hnew.2
        _ = before.block? t := hmade

theorem restored :
    before.Restored (later.edit (removal.edits freeMapFile map parent later)) :=
  u.made.sound.restored u.tidy u.spelled u.made.faultFree
    (Device.faults_edit u.taken.faultFree _) u.size_after fun _ ↦ u.block?_owned

end Undoing

end SectorFS
