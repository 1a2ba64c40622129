import SectorFS.Proofs.Damage
import SectorFS.Proofs.Settled

namespace SectorFS

open Layout

structure Tree.Adds (tree : Tree) (node : Node) (size : Nat) (before after : Device) : Prop where
  gained : ∃ old new, before.HasTable node.parent old ∧ after.HasTable node.parent new ∧
    old.Gains new node.entry
  others : ∀ here parent table, tree.HasDirectory here parent → here ≠ node.parent →
    before.HasTable here table → after.HasTable here table
  headed : ∃ header, after.readHeader node.sector = .ok header ∧ header.length = size
  /-- The file lies in the first free sectors, its header in the first of them. -/
  placed : ∀ map, before.HasMap map →
    after.footprint node.sector = map.freeSectors.take (1 + sectorsFor size)
  length_footprint : (after.footprint node.sector).length = 1 + sectorsFor size
  marked : ∃ stored map, before.HasMap stored ∧ after.HasMap map ∧
    ∀ t, map.used t = true ↔ stored.used t = true ∨ t ∈ after.footprint node.sector
  /-- A new directory has its two links and nothing else. -/
  made : node.entry.kind = .directory → ∃ table, after.HasTable node.sector table ∧
    table.Linked node.sector node.parent ∧ table.children = []
  /-- The data of a new regular file is what was in its sectors. -/
  kept : ∀ t, t ≠ node.sector → t ∉ before.dataSectors node.parent →
    t ∉ before.dataSectors freeMapSector →
      (node.entry.kind = .directory → t ∉ after.dataSectors node.sector) →
        after.block? t = before.block? t

namespace Creation.Placed

variable {creation : Creation} {tree : Tree} {freeMapFile : File} {kind : Kind} {size : Nat}
  {device : Device} {here above t : UInt32} {name : String} {old : Directory} {stored : FreeMap}
  (p : creation.Placed tree freeMapFile kind size device here above name old stored)
include p

theorem block?_edits (hself : t ≠ creation.sector)
    (hdata : kind = .directory → t ∉ creation.header.dataSectors)
    (hparent : t ∉ device.dataSectors here) (hmap : t ∉ device.dataSectors freeMapSector) :
    (device.edit (creation.edits (creation.file p.consistent) freeMapFile device)).block? t =
      device.block? t := by
  rw [Device.dataSectors_of_openFile p.mapped] at hmap
  rw [Device.dataSectors_of_openFile p.site.openFile_parent] at hparent
  refine Device.block?_edit_of_ne ?_
  rintro edit hedit rfl
  rcases List.mem_append.1 hedit with h | h
  · rcases List.mem_append.1 h with h | h
    · rcases List.mem_cons.1 h with rfl | h
      · exact hself rfl
      · cases kind with
        | regular =>
          rw [tableEdits, p.plain rfl] at h
          contradiction
        | directory => exact hdata rfl (fst_mem_of_mem_tableEdits h)
    · exact hparent (mem_of_mem_parentEdits h)
  · exact hmap (mem_of_mem_mapEdits h)

theorem adds : ∃ entry : Entry, entry.name = Bytes.ofText name ∧ entry.kind = kind ∧
    entry.sector = creation.sector ∧ tree.Adds ⟨here, entry⟩ size device
      (device.edit (creation.edits (creation.file p.consistent) freeMapFile device)) ∧
    tree.Grafted ⟨here, entry⟩ device
      (device.edit (creation.edits (creation.file p.consistent) freeMapFile device))
      old creation.parent creation.header creation.map := by
  obtain ⟨entry, hname, hsector, hkind, -, g⟩ := p.grafted
  obtain ⟨other, hgains, hname', hkind', hfirst⟩ := p.gains
  have hf := Device.faults_edit p.faultFree
    (creation.edits (creation.file p.consistent) freeMapFile device)
  obtain ⟨taken, htake, hallocate⟩ := p.allocated
  -- The entry put into the parent's table is that of the new node.
  have hsame : other = entry := by
    refine Entry.eq_of_fields (hname'.trans hname.symm) (hkind'.trans hkind.symm) ?_
    rw [(FreeMap.of_takeFirst?_eq_some htake).2, List.head?_cons] at hfirst
    exact (Option.some.inj hfirst).symm.trans hsector.symm
  subst hsame
  have hfoot : (device.edit (creation.edits (creation.file p.consistent) freeMapFile
      device)).footprint (Node.sector ⟨here, other⟩) = creation.footprint :=
    g.footprint_eq.trans (congrArg (· :: _) hsector)
  refine ⟨other, hname, hkind, hsector, ?_, g⟩
  constructor
  · exact ⟨old, creation.parent, g.was, g.becomes, hgains⟩
  · intro s up table hdir hne htable
    exact g.frame.hasTable_of_ne p.faultFree hf p.sound hdir hne htable
  · exact ⟨creation.header, g.headed, p.length_header⟩
  · intro map hmap
    rw [hfoot, hmap.eq p.site.hasMap]
    exact FreeMap.taken_eq_take htake hallocate
  · rw [hfoot, footprint, List.length_cons, p.consistent.length_dataSectors, p.length_header,
      Nat.add_comm]
  · refine ⟨stored, creation.map, p.site.hasMap, g.mapped, fun t ↦ ?_⟩
    rw [hfoot]
    exact p.used_map
  · intro hdirectory
    obtain ⟨table, htable, hlinked, hchildren, -⟩ := g.made hdirectory
    exact ⟨table, htable, hlinked, hchildren⟩
  · intro t hself hparent hmap hdata
    rw [Device.dataSectors_of_readHeader g.headed] at hdata
    exact p.block?_edits (hsector ▸ hself) (fun h ↦ hdata (hkind.trans h)) hparent hmap

end Creation.Placed

namespace Volume

open Operation

variable {volume : Volume} {tree : Tree} {session : Session} {path : String} {kind : Kind}
  {size : Nat} {device : Device} {host : Host}

/-- What a creation answers and leaves, on a volume that is settled on the tree. -/
structure Creates (volume : Volume) (tree : Tree) (session : Session) (path : String) (kind : Kind)
    (size : Nat) (before : Device) (done : Except Error Unit × Host) : Prop where
  succeeds_iff : done.1 = .ok () ↔ ∃ names name here table map,
    Path.components path = names ++ [name] ∧
      Path.walk before (Path.origin session.directory path) names = .ok here ∧
      before.HasTable here table ∧ before.HasMap map ∧ table.find? name = none ∧
      1 ≤ (Bytes.ofText name).length ∧ (Bytes.ofText name).length ≤ maxNameLength ∧
      0 ∉ Bytes.ofText name ∧ none ∈ table.slots ∧ size ≤ maxFileSize ∧
      1 + sectorsFor size ≤ map.numFree
  answers : Answers (fun table map name ↦ Creation.demands table map name size) session path before
    done.1
  unchanged : done.1 ≠ .ok () → done.2.device = before
  adds : done.1 = .ok () → ∀ names name here, Path.components path = names ++ [name] →
    Path.walk before (Path.origin session.directory path) names = .ok here →
      ∃ entry : Entry, entry.name = Bytes.ofText name ∧ entry.kind = kind ∧
        tree.Adds ⟨here, entry⟩ size before done.2.device ∧
        volume.Settled (⟨here, entry⟩ :: tree) done.2.device

theorem Answers.creates_iff {answer : Except Error Unit} (h : Answers
      (fun table map name ↦ Creation.demands table map name size) session path device answer) :
    answer = .ok () ↔ ∃ names name here table map, Path.components path = names ++ [name] ∧
      Path.walk device (Path.origin session.directory path) names = .ok here ∧
      device.HasTable here table ∧ device.HasMap map ∧ table.find? name = none ∧
      1 ≤ (Bytes.ofText name).length ∧ (Bytes.ofText name).length ≤ maxNameLength ∧
      0 ∉ Bytes.ofText name ∧ none ∈ table.slots ∧ size ≤ maxFileSize ∧
      1 + sectorsFor size ≤ map.numFree := by
  rw [h.eq_ok_iff]
  simp only [Creation.demands_met_iff]

theorem Settled.creating_cases (h : volume.Settled tree device)
    (hsession : device.Reaches session.directory) (path : String)
    (hsized : kind = .directory → size = directoryFileSize) :
    (∃ error, Creation.prepare volume session path kind size device = .error error ∧
        (volume.creating session path kind size).run device = (.error error, device)) ∨
      ∃ creation here name entry after,
        Creation.prepare volume session path kind size device = .ok creation ∧
        (volume.creating session path kind size).run device = (.ok (), after) ∧
        locate session path device = .ok (here, name) ∧ entry.name = Bytes.ofText name ∧
        entry.kind = kind ∧ tree.Adds ⟨here, entry⟩ size device after ∧
        volume.Settled (⟨here, entry⟩ :: tree) after := by
  cases hprepare : Creation.prepare volume session path kind size device with
  | error error => exact .inl ⟨error, rfl, run_creating_of_error hprepare⟩
  | ok creation =>
    obtain ⟨up, hup⟩ := h.stored.reaches_iff.1 hsession
    obtain ⟨here, name, old, stored, hlocate, hprepared⟩ := Creation.of_prepare hprepare
    obtain ⟨above, hdir⟩ := h.stored.hasDirectory_locate hup hlocate
    have p : creation.Placed tree volume.freeMapFile kind size device here above name old stored :=
      ⟨hprepared, h.faultFree, h.stored, hdir, h.map, hsized⟩
    obtain ⟨entry, hname, hkind, hsector, hadds, g⟩ := p.adds
    obtain ⟨-, -, -, -, hnone, -⟩ := p.replaces
    have hf := Device.faults_edit p.faultFree
      (creation.edits (creation.file p.consistent) volume.freeMapFile device)
    refine .inr ⟨creation, here, name, entry, _, rfl, ?_, hlocate, hname, hkind, hadds, ?_⟩
    · rw [run_creating_of_ok hprepare, p.run_commit]
    · refine ⟨hf, p.stored_of_grafted hsector g, ?_, ?_, ?_⟩
      · refine g.distinctNames h.faultFree hf h.stored hdir h.distinct ?_
        exact hname ▸ Directory.find?_eq_none.1 hnone
      · rw [g.frame.openFile_eq h.faultFree hf tree.freeMapSector_mem]
        exact h.map
      · rw [g.frame.openFile_eq h.faultFree hf (Tree.hasDirectory_root tree).mem_sectors]
        exact h.root

theorem Settled.creates_entry (h : volume.Settled tree host.device)
    (hsession : host.device.Reaches session.directory) (path : String)
    (hsized : kind = .directory → size = directoryFileSize) :
    Creates volume tree session path kind size host.device
      ((volume.createEntry session path kind size).run host) := by
  have hacts := volume.actsAs_createEntry session path kind size
  have hasks : Answers (fun table map name ↦ Creation.demands table map name size) session path
      host.device ((Creation.prepare volume session path kind size host.device).map fun _ ↦ ()) := by
    refine h.answers hsession (fun error hlocate ↦ ?_)
      fun here name file table map hlocate hname hopen hload ↦
        Creation.governs_prepare hlocate hname hopen hload kind size
    rw [Creation.prepare, hlocate]
    rfl
  rcases h.creating_cases hsession path hsized with ⟨error, hprepare, hrun⟩ |
    ⟨creation, here, name, entry, after, hprepare, hrun, hlocate, hname, hkind, hadds, hsettled⟩
  · obtain ⟨hanswer, hdevice⟩ := hacts.eq_of_run hrun
    rw [hprepare, Except.map, ← hanswer] at hasks
    refine ⟨hasks.creates_iff, hasks, fun _ ↦ hdevice, fun hok ↦ ?_⟩
    rw [hanswer] at hok
    contradiction
  · obtain ⟨hanswer, hdevice⟩ := hacts.eq_of_run hrun
    rw [hprepare, Except.map, ← hanswer] at hasks
    refine ⟨hasks.creates_iff, hasks, fun hne ↦ absurd hanswer hne, ?_⟩
    intro _ names leaf place hcomponents hwalk
    rw [locate_of_components hcomponents, hwalk] at hlocate
    cases hlocate
    rw [hdevice]
    exact ⟨entry, hname, hkind, hadds, hsettled⟩

/-- Creating a file and creating a directory on a settled volume, from a directory that is found
from the root. -/
theorem creates_exactly (h : volume.Settled tree host.device)
    (hsession : host.device.Reaches session.directory) (path : String) :
    (∀ size, Creates volume tree session path .regular size host.device
        ((volume.createFile session path size).run host)) ∧
      Creates volume tree session path .directory directoryFileSize host.device
        ((volume.createDirectory session path).run host) :=
  ⟨fun _ ↦ h.creates_entry hsession path nofun, h.creates_entry hsession path fun _ ↦ rfl⟩

theorem creates_exactly_furnished : ∃ volume tree, furnished.volume? = some volume ∧
    volume.Settled tree furnished.host.device ∧ furnished.host.device.Reaches rootSector ∧
    (furnished.volume?.map fun volume ↦
      ((volume.createFile ⟨rootSector⟩ "d/f" 200).run furnished.host).1) = some (.ok ()) ∧
    Creates volume tree ⟨rootSector⟩ "d/f" .regular 200 furnished.host.device
      ((volume.createFile ⟨rootSector⟩ "d/f" 200).run furnished.host) ∧
    Creates volume tree ⟨rootSector⟩ "a/d" .directory directoryFileSize furnished.host.device
      ((volume.createDirectory ⟨rootSector⟩ "a/d").run furnished.host) := by
  obtain ⟨volume, tree, hvolume, hsettled⟩ := settled_furnished
  have hsession : furnished.host.device.Reaches (Session.directory ⟨rootSector⟩) := .root
  have hrun : (furnished.volume?.map fun volume ↦
      ((volume.createFile ⟨rootSector⟩ "d/f" 200).run furnished.host).1) = some (.ok ()) := by
    decide +kernel
  exact ⟨volume, tree, hvolume, hsettled, hsession, hrun,
    (creates_exactly hsettled hsession "d/f").1 200, (creates_exactly hsettled hsession "a/d").2⟩

end Volume

end SectorFS
