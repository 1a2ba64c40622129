import SectorFS.Proofs.Directory.Stored
import SectorFS.Proofs.FreeMap

/-!
The tree of files that a device stores. A tree is the list of its files, each before the directory
that lists it; `Tree.Stored` says that a device stores exactly this tree, and that no two files
share a sector. From that alone, a change to the sectors of some files leaves all other files as
they are (`Tree.Stored.frame`).
-/

namespace SectorFS

open Layout

namespace Device

variable {device after : Device} {s t here : UInt32} {table : Directory} {map : FreeMap}

def dataSectors (device : Device) (s : UInt32) : List UInt32 :=
  match device.readHeader s with
  | .ok header => header.dataSectors
  | .error _ => []

def footprint (device : Device) (s : UInt32) : List UInt32 := s :: device.dataSectors s

def HasTable (device : Device) (here : UInt32) (table : Directory) : Prop :=
  ∃ file, device.openDirectory here = .ok (file, table) ∧ file.length = directoryFileSize

def HasMap (device : Device) (map : FreeMap) : Prop :=
  ∃ file, device.openFile freeMapSector = .ok file ∧ file.length = freeMapFileSize ∧
    FreeMap.load file device = .ok map

theorem dataSectors_of_readHeader {header : Header} (h : device.readHeader s = .ok header) :
    device.dataSectors s = header.dataSectors := by
  rw [dataSectors, h]

theorem dataSectors_of_openFile {file : File} (h : device.openFile s = .ok file) :
    device.dataSectors s = file.header.dataSectors :=
  dataSectors_of_readHeader (openFile_eq_ok_iff.1 h).2

theorem dataSectors_congr (hf : device.faults = {}) (hf' : after.faults = {})
    (h : after.block? s = device.block? s) : after.dataSectors s = device.dataSectors s := by
  rw [dataSectors, readHeader_congr hf hf' h, dataSectors]

theorem mem_footprint_self (device : Device) (s : UInt32) : s ∈ device.footprint s :=
  List.mem_cons_self

theorem HasTable.eq {other : Directory} (h : device.HasTable here table)
    (h' : device.HasTable here other) : table = other := by
  obtain ⟨file, hopen, -⟩ := h
  obtain ⟨file', hopen', -⟩ := h'
  exact (Prod.mk.inj (Except.ok.inj (hopen.symm.trans hopen'))).2

theorem HasMap.eq {other : FreeMap} (h : device.HasMap map) (h' : device.HasMap other) :
    map = other := by
  obtain ⟨file, hopen, -, hload⟩ := h
  obtain ⟨file', hopen', -, hload'⟩ := h'
  obtain rfl := Except.ok.inj (hopen.symm.trans hopen')
  exact Except.ok.inj (hload.symm.trans hload')

theorem HasTable.congr (hf : device.faults = {}) (hf' : after.faults = {})
    (hsame : ∀ t ∈ device.footprint here, after.block? t = device.block? t)
    (h : device.HasTable here table) : after.HasTable here table := by
  obtain ⟨file, hopen, hlen⟩ := h
  refine ⟨file, openDirectory_congr hf hf' (hsame _ (mem_footprint_self _ _)) ?_ hopen, hlen⟩
  intro header hheader t ht
  exact hsame t (List.mem_cons_of_mem _ (dataSectors_of_readHeader hheader ▸ ht))

theorem HasMap.congr (hf : device.faults = {}) (hf' : after.faults = {})
    (hsame : ∀ t ∈ device.footprint freeMapSector, after.block? t = device.block? t)
    (h : device.HasMap map) : after.HasMap map := by
  obtain ⟨file, hopen, hlen, hload⟩ := h
  refine ⟨file, (openFile_congr hf hf' (hsame _ (mem_footprint_self _ _))).trans hopen, hlen, ?_⟩
  rw [FreeMap.load_congr hf hf' fun t ht ↦ hsame t ?_]
  · exact hload
  · exact List.mem_cons_of_mem _ (dataSectors_of_openFile hopen ▸ ht)

end Device

/-- A file of a tree other than the root: its entry, and the directory that lists it. -/
structure Node where
  parent : UInt32
  entry : Entry
  deriving DecidableEq

def Node.sector (node : Node) : UInt32 := node.entry.sector

abbrev Tree := List Node

namespace Tree

/-- The directory at `here` belongs to the tree, below `parent`. The root is its own parent. -/
def HasDirectory (tree : Tree) (here parent : UInt32) : Prop :=
  here = rootSector ∧ parent = rootSector ∨
    ∃ node ∈ tree, node.entry.kind = .directory ∧ node.sector = here ∧ node.parent = parent

/-- Every file stands before the directory that lists it. -/
def Rooted : Tree → Prop
  | [] => True
  | node :: rest => (∃ parent, HasDirectory rest node.parent parent) ∧ Rooted rest

def children (tree : Tree) (here : UInt32) : List Entry :=
  (tree.filter fun node ↦ node.parent == here).map Node.entry

def sectors (tree : Tree) : List UInt32 := freeMapSector :: rootSector :: tree.map Node.sector

def owned (tree : Tree) (device : Device) : List UInt32 := tree.sectors.flatMap device.footprint

/-- The device stores the tree: the tables of its directories list what it has, all headers can be
read, and no two files share a sector or use one that the free map does not count as used. -/
structure Stored (tree : Tree) (device : Device) : Prop where
  room : numSectors ≤ device.blocks.size
  rooted : tree.Rooted
  tables : ∀ here parent, tree.HasDirectory here parent →
    ∃ table, device.HasTable here table ∧ table.Linked here parent ∧
      table.children.Perm (tree.children here)
  headers : ∀ node ∈ tree, ∃ header, device.readHeader node.sector = .ok header
  marked : ∃ map, device.HasMap map ∧ ∀ s ∈ tree.owned device, map.used s = true
  nodup : (tree.owned device).Nodup

variable {tree first rest : Tree} {node : Node} {device before after : Device}
  {s t here parent : UInt32} {entry : Entry} {table : Directory}

theorem hasDirectory_root (tree : Tree) : tree.HasDirectory rootSector rootSector := .inl ⟨rfl, rfl⟩

theorem HasDirectory.mono (h : rest.HasDirectory here parent) (hsub : ∀ node ∈ rest, node ∈ tree) :
    tree.HasDirectory here parent := by
  rcases h with h | ⟨node, hnode, h⟩
  · exact .inl h
  · exact .inr ⟨node, hsub node hnode, h⟩

theorem HasDirectory.cons (h : tree.HasDirectory here parent) :
    HasDirectory (node :: tree) here parent :=
  h.mono fun _ ↦ List.mem_cons_of_mem _

theorem mem_sectors_of_mem (h : node ∈ tree) : node.sector ∈ tree.sectors :=
  List.mem_cons_of_mem _ (List.mem_cons_of_mem _ (List.mem_map_of_mem h))

theorem freeMapSector_mem (tree : Tree) : freeMapSector ∈ tree.sectors := List.mem_cons_self

theorem HasDirectory.mem_root_cons (h : tree.HasDirectory here parent) :
    here ∈ rootSector :: tree.map Node.sector := by
  rcases h with ⟨rfl, -⟩ | ⟨node, hnode, -, rfl, -⟩
  · exact List.mem_cons_self
  · exact List.mem_cons_of_mem _ (List.mem_map_of_mem hnode)

theorem HasDirectory.mem_sectors (h : tree.HasDirectory here parent) : here ∈ tree.sectors :=
  List.mem_cons_of_mem _ h.mem_root_cons

theorem mem_children : entry ∈ tree.children here ↔ ⟨here, entry⟩ ∈ tree := by
  constructor
  · intro h
    obtain ⟨node, hfilter, rfl⟩ := List.mem_map.1 h
    obtain ⟨hnode, hparent⟩ := List.mem_filter.1 hfilter
    obtain rfl := beq_iff_eq.1 hparent
    exact hnode
  · intro h
    exact List.mem_map.2 ⟨⟨here, entry⟩, List.mem_filter.2 ⟨h, beq_self_eq_true _⟩, rfl⟩

theorem mem_owned : t ∈ tree.owned device ↔ ∃ s ∈ tree.sectors, t ∈ device.footprint s :=
  List.mem_flatMap

theorem Rooted.listed (h : tree.Rooted) (hnode : node ∈ tree) :
    ∃ above, tree.HasDirectory node.parent above := by
  induction tree with
  | nil => contradiction
  | cons other rest ih =>
    have hsub : ∀ node ∈ rest, node ∈ other :: rest := fun _ ↦ List.mem_cons_of_mem _
    rcases List.mem_cons.1 hnode with rfl | hnode
    · obtain ⟨above, habove⟩ := h.1
      exact ⟨above, habove.mono hsub⟩
    · obtain ⟨above, habove⟩ := ih h.2 hnode
      exact ⟨above, habove.mono hsub⟩

theorem Rooted.above (h : tree.Rooted) (hdir : tree.HasDirectory here parent) :
    ∃ above, tree.HasDirectory parent above := by
  rcases hdir with ⟨-, rfl⟩ | ⟨node, hnode, -, -, rfl⟩
  · exact ⟨rootSector, hasDirectory_root tree⟩
  · exact h.listed hnode

theorem Rooted.children_eq_nil (h : tree.Rooted) (hnot : ∀ parent, ¬tree.HasDirectory here parent) :
    tree.children here = [] := by
  rw [List.eq_nil_iff_forall_not_mem]
  intro entry hentry
  obtain ⟨parent, hparent⟩ := h.listed (mem_children.1 hentry)
  exact hnot parent hparent

namespace Stored

variable (h : tree.Stored device)
include h

/-- No sector belongs to two files. -/
theorem eq_of_mem_footprint (hs : s ∈ tree.sectors) (ht : t ∈ tree.sectors) {u : UInt32}
    (hus : u ∈ device.footprint s) (hut : u ∈ device.footprint t) : s = t := by
  have hnodup := h.nodup
  rw [owned, List.Nodup, List.pairwise_flatMap] at hnodup
  have hpair := hnodup.2
  generalize tree.sectors = sectors at hs ht hpair
  induction sectors with
  | nil => contradiction
  | cons first rest ih =>
    obtain ⟨hfirst, hrest⟩ := List.pairwise_cons.1 hpair
    rcases List.mem_cons.1 hs with rfl | hsrest <;> rcases List.mem_cons.1 ht with rfl | htrest
    · rfl
    · exact absurd rfl (hfirst t htrest u hus u hut)
    · exact absurd rfl (hfirst s hsrest u hut u hus)
    · exact ih hsrest htrest hrest

theorem nodup_sectors : tree.sectors.Nodup := by
  have hnodup := h.nodup
  rw [owned, List.Nodup, List.pairwise_flatMap] at hnodup
  exact hnodup.2.imp fun hpair ↦ hpair _ (List.mem_cons_self) _ (List.mem_cons_self)

theorem nodup_footprint (hs : s ∈ tree.sectors) : (device.footprint s).Nodup := by
  have hnodup := h.nodup
  rw [owned, List.Nodup, List.pairwise_flatMap] at hnodup
  exact hnodup.1 s hs

theorem eq_of_sector {other : Node} (hnode : node ∈ tree) (hother : other ∈ tree)
    (hs : node.sector = other.sector) : node = other := by
  have hnodup := (List.nodup_cons.1 (List.nodup_cons.1 h.nodup_sectors).2).2
  exact List.inj_on_of_nodup_map hnodup hnode hother hs

theorem nodup_children (here : UInt32) : (tree.children here).Nodup := by
  have hnodup := (List.nodup_cons.1 (List.nodup_cons.1 h.nodup_sectors).2).2
  refine List.Nodup.of_map Entry.sector ?_
  rw [children, List.map_map]
  exact hnodup.sublist (List.filter_sublist.map _)

theorem sector_ne (hnode : node ∈ tree) :
    node.sector ≠ freeMapSector ∧ node.sector ≠ rootSector := by
  obtain ⟨hmap, hrest⟩ := List.nodup_cons.1 h.nodup_sectors
  obtain ⟨hroot, -⟩ := List.nodup_cons.1 hrest
  have hmem := List.mem_map_of_mem (f := Node.sector) hnode
  exact ⟨fun hn ↦ hmap (hn ▸ List.mem_cons_of_mem _ hmem), fun hn ↦ hroot (hn ▸ hmem)⟩

theorem freeMapSector_ne (hdir : tree.HasDirectory here parent) : here ≠ freeMapSector := by
  rcases hdir with ⟨rfl, -⟩ | ⟨node, hnode, -, rfl, -⟩
  · decide
  · exact (h.sector_ne hnode).1

theorem kind_of_hasDirectory (hnode : node ∈ tree) (hdir : tree.HasDirectory node.sector parent) :
    node.entry.kind = .directory := by
  rcases hdir with ⟨hroot, -⟩ | ⟨other, hother, hkind, hs, -⟩
  · exact absurd hroot (h.sector_ne hnode).2
  · exact h.eq_of_sector hother hnode hs ▸ hkind

theorem has_of_mem_owned (hs : s ∈ tree.owned device) : device.Has s := by
  obtain ⟨map, ⟨file, -, -, hload⟩, hused⟩ := h.marked
  have hlt := FreeMap.lt_of_used (hused s hs)
  rw [FreeMap.count_of_load hload] at hlt
  exact Nat.lt_of_lt_of_le hlt h.room

theorem onDevice {file : File} (hopen : device.openFile s = .ok file) (hs : s ∈ tree.sectors) :
    file.OnDevice device ∧ file.header.dataSectors.Nodup := by
  have hdata := Device.dataSectors_of_openFile hopen
  refine ⟨fun t ht ↦ h.has_of_mem_owned (mem_owned.2 ⟨s, hs, ?_⟩), ?_⟩
  · exact List.mem_cons_of_mem _ (hdata ▸ ht)
  · exact hdata ▸ (List.nodup_cons.1 (h.nodup_footprint hs)).2

end Stored

/-! ## What a tree looks at -/

/-- The devices have in common what the tree looks at: the headers of its files, the tables of its
directories and the free map. The data of regular files may differ. -/
structure Alike (tree : Tree) (first second : Device) : Prop where
  headers : ∀ s ∈ tree.sectors, second.readHeader s = first.readHeader s
  tables : ∀ here parent table, tree.HasDirectory here parent → first.HasTable here table →
    second.HasTable here table
  map : ∀ map, first.HasMap map → second.HasMap map

theorem owned_congr (h : ∀ s ∈ tree.sectors, after.readHeader s = before.readHeader s) :
    tree.owned after = tree.owned before := by
  have hall : ∀ s ∈ tree.sectors, after.footprint s = before.footprint s := fun s hs ↦ by
    rw [Device.footprint, Device.dataSectors, h s hs, Device.footprint, Device.dataSectors]
  rw [owned, owned]
  generalize tree.sectors = sectors at hall
  induction sectors with
  | nil => rfl
  | cons s rest ih =>
    rw [List.flatMap_cons, List.flatMap_cons, hall s List.mem_cons_self,
      ih fun t ht ↦ hall t (List.mem_cons_of_mem _ ht)]

theorem Alike.openFile_eq (h : tree.Alike before after) (hs : s ∈ tree.sectors) :
    after.openFile s = before.openFile s :=
  Device.openFile_eq_of_readHeader (h.headers s hs)

theorem Alike.dataSectors_eq (h : tree.Alike before after) (hs : s ∈ tree.sectors) :
    after.dataSectors s = before.dataSectors s := by
  rw [Device.dataSectors, h.headers s hs, Device.dataSectors]

theorem Alike.stored (h : tree.Alike before after) (hstored : tree.Stored before)
    (hroom : numSectors ≤ after.blocks.size) : tree.Stored after := by
  refine ⟨hroom, hstored.rooted, ?_, ?_, ?_, ?_⟩
  · intro here parent hhere
    obtain ⟨table, htable, hrest⟩ := hstored.tables here parent hhere
    exact ⟨table, h.tables here parent table hhere htable, hrest⟩
  · intro node hnode
    rw [h.headers _ (mem_sectors_of_mem hnode)]
    exact hstored.headers node hnode
  · obtain ⟨map, hhas, hused⟩ := hstored.marked
    exact ⟨map, h.map map hhas, (owned_congr h.headers).symm ▸ hused⟩
  · rw [owned_congr h.headers]
    exact hstored.nodup

theorem Alike.refl (tree : Tree) (device : Device) : tree.Alike device device :=
  ⟨fun _ _ ↦ rfl, fun _ _ _ _ ↦ id, fun _ ↦ id⟩

theorem Alike.symm (h : tree.Alike before after) (hstored : tree.Stored before) :
    tree.Alike after before := by
  refine ⟨fun s hs ↦ (h.headers s hs).symm, fun here parent table hdir htable ↦ ?_,
    fun map hmap ↦ ?_⟩
  · obtain ⟨stored, hwas, -⟩ := hstored.tables here parent hdir
    exact htable.eq (h.tables here parent stored hdir hwas) ▸ hwas
  · obtain ⟨stored, hwas, -⟩ := hstored.marked
    exact hmap.eq (h.map stored hwas) ▸ hwas

theorem Alike.trans (h : tree.Alike before device) (h' : tree.Alike device after) :
    tree.Alike before after :=
  ⟨fun s hs ↦ (h'.headers s hs).trans (h.headers s hs), fun here parent table hdir htable ↦
    h'.tables here parent table hdir (h.tables here parent table hdir htable),
    fun map hmap ↦ h'.map map (h.map map hmap)⟩

/-! ## What a change leaves -/

/-- From one device to the other, no header changes, and the other sectors change of the touched
files alone. -/
structure Frame (tree : Tree) (before after : Device) (touched : UInt32 → Prop) : Prop where
  size : after.blocks.size = before.blocks.size
  header : ∀ s ∈ tree.sectors, after.block? s = before.block? s
  footprint : ∀ s ∈ tree.sectors, ¬touched s → ∀ t ∈ before.footprint s,
    after.block? t = before.block? t

variable {touched : UInt32 → Prop}

/-- What changes belongs to no file, or to the data of a touched one. -/
theorem Stored.frame (h : tree.Stored before) (hsize : after.blocks.size = before.blocks.size)
    (hchange : ∀ t, t ∈ tree.owned before →
      (∀ s ∈ tree.sectors, touched s → t ∉ before.dataSectors s) →
        after.block? t = before.block? t) :
    tree.Frame before after touched := by
  have hself : ∀ s ∈ tree.sectors, s ∈ tree.owned before := fun s hs ↦
    mem_owned.2 ⟨s, hs, List.mem_cons_self⟩
  refine ⟨hsize, fun s hs ↦ hchange s (hself s hs) ?_, fun s hs hnot t ht ↦
    hchange t (mem_owned.2 ⟨s, hs, ht⟩) ?_⟩
  · intro u hu _ hsu
    obtain rfl := h.eq_of_mem_footprint hs hu List.mem_cons_self (List.mem_cons_of_mem _ hsu)
    exact (List.nodup_cons.1 (h.nodup_footprint hs)).1 hsu
  · intro u hu htouched htu
    exact hnot (h.eq_of_mem_footprint hs hu ht (List.mem_cons_of_mem _ htu) ▸ htouched)

theorem Stored.frame_edit {edits : List Edit} (h : tree.Stored before)
    (hedits : ∀ edit ∈ edits, edit.1 ∈ tree.owned before →
      ∃ s ∈ tree.sectors, touched s ∧ edit.1 ∈ before.dataSectors s) :
    tree.Frame before (before.edit edits) touched := by
  refine h.frame (Device.size_edit _ _) fun t ht hnot ↦ Device.block?_edit_of_ne ?_
  rintro edit hedit rfl
  obtain ⟨s, hs, htouched, hmem⟩ := hedits edit hedit ht
  exact hnot s hs htouched hmem

namespace Frame

variable (frame : tree.Frame before after touched) (hf : before.faults = {}) (hf' : after.faults = {})
include frame hf hf'

theorem dataSectors_eq (hs : s ∈ tree.sectors) : after.dataSectors s = before.dataSectors s :=
  Device.dataSectors_congr hf hf' (frame.header s hs)

theorem footprint_eq (hs : s ∈ tree.sectors) : after.footprint s = before.footprint s := by
  rw [Device.footprint, frame.dataSectors_eq hf hf' hs, Device.footprint]

theorem readHeader_eq (hs : s ∈ tree.sectors) : after.readHeader s = before.readHeader s :=
  Device.readHeader_congr hf hf' (frame.header s hs)

theorem openFile_eq (hs : s ∈ tree.sectors) : after.openFile s = before.openFile s :=
  Device.openFile_congr hf hf' (frame.header s hs)

theorem owned_eq : tree.owned after = tree.owned before :=
  owned_congr fun _ ↦ frame.readHeader_eq hf hf'

theorem hasTable (hdir : tree.HasDirectory here parent) (hnot : ¬touched here)
    (h : before.HasTable here table) : after.HasTable here table :=
  h.congr hf hf' (frame.footprint here hdir.mem_sectors hnot)

theorem hasMap {map : FreeMap} (hnot : ¬touched freeMapSector) (h : before.HasMap map) :
    after.HasMap map :=
  h.congr hf hf' (frame.footprint _ tree.freeMapSector_mem hnot)

theorem alike (hdir : ∀ here parent, tree.HasDirectory here parent → ¬touched here)
    (hmap : ¬touched freeMapSector) : tree.Alike before after :=
  ⟨fun _ ↦ frame.readHeader_eq hf hf', fun here parent _ hhere ↦
    frame.hasTable hf hf' hhere (hdir here parent hhere), fun _ ↦ frame.hasMap hf hf' hmap⟩

theorem stored (h : tree.Stored before) (hdir : ∀ here parent, tree.HasDirectory here parent →
      ¬touched here) (hmap : ¬touched freeMapSector) : tree.Stored after :=
  (frame.alike hf hf' hdir hmap).stored h (frame.size ▸ h.room)

end Frame

theorem Frame.hasTable_of_ne (frame : tree.Frame before after fun t ↦ t = s ∨ t = freeMapSector)
    (hf : before.faults = {}) (hf' : after.faults = {}) (h : tree.Stored before)
    (hdir : tree.HasDirectory here parent) (hne : here ≠ s) (htable : before.HasTable here table) :
    after.HasTable here table :=
  frame.hasTable hf hf' hdir (fun hn ↦ hn.elim hne (h.freeMapSector_ne hdir)) htable

end Tree

/-! ## What a walk finds -/

namespace Tree.Stored

variable {tree : Tree} {device : Device} {here parent : UInt32} {file : File} {table : Directory}
  {entry : Entry} (h : tree.Stored device)
include h

/-- An entry of a directory is one of its links, or a file of the tree. -/
theorem entry_cases (hdir : tree.HasDirectory here parent)
    (hopen : device.openDirectory here = .ok (file, table)) (hentry : entry ∈ table.entries) :
    entry.isLink = true ∧ entry.kind = .directory ∧ (entry.sector = here ∨ entry.sector = parent) ∨
      entry.isLink = false ∧ ⟨here, entry⟩ ∈ tree := by
  obtain ⟨stored, ⟨file', hopen', -⟩, hlinked, hperm⟩ := h.tables here parent hdir
  obtain ⟨-, rfl⟩ := Prod.mk.inj (Except.ok.inj (hopen.symm.trans hopen'))
  have hlink : ∀ link target, table.LinksTo link target → entry.isNamed link = true →
      entry.kind = .directory ∧ entry.sector = target := by
    intro link target hto hnamed
    obtain ⟨other, hfilter, hsector, hkind⟩ := hto
    have hmem : entry ∈ table.entries.filter fun entry ↦ entry.isNamed link :=
      List.mem_filter.2 ⟨hentry, hnamed⟩
    rw [hfilter, List.mem_singleton] at hmem
    exact hmem ▸ ⟨hkind, hsector⟩
  cases hisLink : entry.isLink with
  | false =>
    have hchild := hperm.mem_iff.1 (Directory.mem_children.2 ⟨hentry, hisLink⟩)
    exact .inr ⟨rfl, mem_children.1 hchild⟩
  | true =>
    rcases Bool.or_eq_true_iff.1 hisLink with hdot | hdotDot
    · exact .inl ⟨rfl, (hlink _ _ hlinked.toSelf hdot).imp_right .inl⟩
    · exact .inl ⟨rfl, (hlink _ _ hlinked.toParent hdotDot).imp_right .inr⟩

theorem hasDirectory_of_entry (hdir : tree.HasDirectory here parent)
    (hopen : device.openDirectory here = .ok (file, table)) (hentry : entry ∈ table.entries)
    (hkind : entry.kind = .directory) : ∃ above, tree.HasDirectory entry.sector above := by
  rcases h.entry_cases hdir hopen hentry with ⟨-, -, hs | hs⟩ | ⟨-, hnode⟩
  · exact ⟨parent, hs ▸ hdir⟩
  · exact hs ▸ h.rooted.above hdir
  · exact ⟨here, .inr ⟨_, hnode, hkind, rfl, rfl⟩⟩

end Tree.Stored

inductive Device.Reaches (device : Device) : UInt32 → Prop
  | root : Reaches device rootSector
  | child {here : UInt32} {file : File} {table : Directory} {entry : Entry} :
    Reaches device here → device.openDirectory here = .ok (file, table) → entry ∈ table.children →
      entry.kind = .directory → Reaches device entry.sector

namespace Tree

variable {tree : Tree} {device : Device} {here : UInt32}

/-- A walk from the root finds the directories of the tree, all of them and no others. -/
theorem Stored.reaches_iff (h : tree.Stored device) :
    device.Reaches here ↔ ∃ parent, tree.HasDirectory here parent := by
  constructor
  · intro hreach
    induction hreach with
    | root => exact ⟨rootSector, hasDirectory_root tree⟩
    | @child here file table entry _ hopen hentry hkind ih =>
      obtain ⟨parent, hdir⟩ := ih
      obtain ⟨other, ⟨file', hopen', -⟩, -, hperm⟩ := h.tables here parent hdir
      cases hopen.symm.trans hopen'
      exact ⟨here, .inr ⟨⟨here, entry⟩, mem_children.1 (hperm.mem_iff.1 hentry), hkind, rfl, rfl⟩⟩
  · rintro ⟨parent, hdir⟩
    -- Along the list, the directory that lists a file is met before the file.
    suffices ∀ rest, rest <:+ tree → Rooted rest → ∀ here parent, HasDirectory rest here parent →
        device.Reaches here from this tree (List.suffix_refl _) h.rooted here parent hdir
    intro rest
    induction rest with
    | nil =>
      intro _ _ here parent hdir
      rcases hdir with ⟨rfl, -⟩ | ⟨node, hnode, -⟩
      · exact .root
      · contradiction
    | cons node rest ih =>
      intro hsuffix hrooted here parent hdir
      have hreach := ih ((List.suffix_cons node rest).trans hsuffix) hrooted.2
      rcases hdir with ⟨rfl, -⟩ | ⟨other, hother, hkind, rfl, -⟩
      · exact .root
      · rcases List.mem_cons.1 hother with rfl | hother
        · obtain ⟨above, habove⟩ := hrooted.1
          have hmem : other ∈ tree := hsuffix.subset List.mem_cons_self
          obtain ⟨up, hup⟩ := h.rooted.listed hmem
          obtain ⟨table, ⟨file, hopen, -⟩, -, hperm⟩ := h.tables _ _ hup
          exact .child (hreach _ _ habove) hopen (hperm.mem_iff.2 (mem_children.2 hmem)) hkind
        · exact hreach _ _ (.inr ⟨other, hother, hkind, rfl, rfl⟩)

end Tree

end SectorFS
