import SectorFS.Proofs.Damage
import SectorFS.Proofs.Settled

namespace SectorFS

open Layout

structure Tree.Drops (tree : Tree) (node : Node) (before after : Device) : Prop where
  listed : node ∈ tree
  lost : ∃ old new, before.HasTable node.parent old ∧ after.HasTable node.parent new ∧
    old.Replaces new (some node.entry) none ∧ node.entry.name ∉ new.entries.map Entry.name
  others : ∀ here parent table, tree.HasDirectory here parent → here ≠ node.parent →
    before.HasTable here table → after.HasTable here table
  sized : ∃ header, before.readHeader node.sector = .ok header ∧
    (before.footprint node.sector).length = 1 + sectorsFor header.length
  /-- Of the sectors in use, those of the file become free and no others. -/
  unmarked : ∃ stored map, before.HasMap stored ∧ after.HasMap map ∧
    (∀ t ∈ before.footprint node.sector, stored.used t = true) ∧
    (∀ t, map.used t = true ↔ stored.used t = true ∧ t ∉ before.footprint node.sector) ∧
    ∀ other ∈ tree, other ≠ node → ∀ t ∈ before.footprint other.sector, map.used t = true
  kept : ∀ t, t ∉ before.dataSectors node.parent → t ∉ before.dataSectors freeMapSector →
    after.block? t = before.block? t

namespace Removal

variable {removal : Removal} {tree : Tree} {device : Device} {here above : UInt32} {entry : Entry}
  {volume : Volume}

/-- What is found can be removed: its sectors are in range and in use, and its name is there. -/
theorem exists_prepare (h : volume.Settled tree device) (hdir : tree.HasDirectory here above)
    (hfound : removal.Found device here entry) :
    ∃ map parent, removal.prepare volume device = .ok (map, parent) := by
  have hnode := hfound.mem_tree h.stored hdir
  obtain ⟨header, hheader⟩ := h.stored.headers _ hnode
  have hheader' : device.readHeader removal.sector = .ok header := hfound.sector ▸ hheader
  obtain ⟨stored, ⟨mapFile, hopen, -, hload⟩, hused⟩ := h.stored.marked
  cases h.map.symm.trans hopen
  have hfoot : ∀ t ∈ device.footprint removal.sector, stored.used t = true := fun t ht ↦
    hused t (Tree.mem_owned.2 ⟨_, hfound.sector ▸ Tree.mem_sectors_of_mem hnode, ht⟩)
  have hdata : ∀ t ∈ header.dataSectors, stored.used t = true := fun t ht ↦
    hfoot t (List.mem_cons_of_mem _ (Device.dataSectors_of_readHeader hheader' ▸ ht))
  obtain ⟨left, hleft⟩ := FreeMap.exists_release hdata
  have hlt : removal.sector.toNat < left.count := by
    rw [(FreeMap.of_release hleft).2.1]
    exact FreeMap.lt_of_used (hfoot _ List.mem_cons_self)
  obtain ⟨map, hmap⟩ := FreeMap.exists_clear hlt
  obtain ⟨parent, hparent⟩ := Directory.remove_of_find? hfound.named
  refine ⟨map, parent, ?_⟩
  simp only [prepare, Volume.freeMap, hheader', hload, hleft, hmap, hparent, bind, Except.bind]
  rfl

namespace Placed

variable {freeMapFile : File} {header : Header} {stored map : FreeMap} {parent : Directory}
  (p : removal.Placed tree freeMapFile device here above entry header stored map parent)
include p

theorem drops (hdistinct : tree.DistinctNames device) : tree.Drops ⟨here, entry⟩ device
    (device.edit (removal.edits freeMapFile map parent device)) := by
  have hf := Device.faults_edit p.faultFree (removal.edits freeMapFile map parent device)
  have hfoot := p.footprint_eq
  have hself := Tree.mem_sectors_of_mem p.mem_tree
  refine ⟨p.mem_tree, ⟨removal.parent, parent, p.site.hasTable, p.hasTable_new,
    p.replaces p.toFound, ?_⟩, ?_, ⟨header, ?_, ?_⟩,
    ⟨stored, map, p.site.hasMap, p.pruned.mapped, ?_, fun t ↦ p.used_map_iff, ?_⟩, ?_⟩
  · have hnames := hdistinct _ _ _ p.inside p.site.hasTable
    rw [(p.pruned.entries.map Entry.name).nodup_iff, List.map_cons] at hnames
    exact (List.nodup_cons.1 hnames).1
  · intro s up table hdir hne htable
    exact p.pruned.frame.hasTable_of_ne p.faultFree hf p.sound hdir hne htable
  · exact (congrArg device.readHeader p.sector).trans p.known
  · change (device.footprint entry.sector).length = _
    rw [hfoot, List.length_cons, (Device.consistent_of_readHeader p.known).length_dataSectors,
      Nat.add_comm]
  · exact fun t ht ↦ p.site.used_stored (Tree.mem_owned.2 ⟨_, hself, ht⟩)
  · intro other hother hne t ht
    refine p.used_map_of_ne (Tree.mem_sectors_of_mem hother) (fun heq ↦ hne ?_) ht
    exact p.sound.eq_of_sector hother p.mem_tree (heq.trans p.sector.symm)
  · intro t hparent hmap
    have hblock := p.block?_take (removal.edits freeMapFile map parent device).length hmap hparent
    rwa [List.take_length] at hblock

end Placed

end Removal

namespace Volume

variable {volume : Volume} {tree : Tree} {session : Session} {path : String} {device : Device}
  {host : Host}

structure Removes (tree : Tree) (session : Session) (path : String) (before : Device)
    (done : Except Error Unit × Host) : Prop where
  succeeds_iff : done.1 = .ok () ↔ ∃ names name here table entry,
    Path.components path = names ++ [name] ∧
      Path.walk before (Path.origin session.directory path) names = .ok here ∧
      name ≠ dot ∧ name ≠ dotDot ∧ before.HasTable here table ∧ table.find? name = some entry
  answers : Answers (fun table _ name ↦ Removal.demands table name) session path before done.1
  unchanged : done.1 ≠ .ok () → done.2.device = before
  drops : done.1 = .ok () → ∀ names name here, Path.components path = names ++ [name] →
    Path.walk before (Path.origin session.directory path) names = .ok here →
      ∃ entry : Entry, entry.name = Bytes.ofText name ∧
        tree.Drops ⟨here, entry⟩ before done.2.device

theorem Settled.removes_iff {answer : Except Error Unit} (h : volume.Settled tree device)
    (hasks : Answers (fun table _ name ↦ Removal.demands table name) session path device answer) :
    answer = .ok () ↔ ∃ names name here table entry, Path.components path = names ++ [name] ∧
      Path.walk device (Path.origin session.directory path) names = .ok here ∧
      name ≠ dot ∧ name ≠ dotDot ∧ device.HasTable here table ∧ table.find? name = some entry := by
  obtain ⟨map, hmap, -⟩ := h.stored.marked
  rw [hasks.eq_ok_iff]
  simp only [Removal.demands_met_iff]
  constructor
  · rintro ⟨names, name, here, table, -, hcomponents, hwalk, htable, -, hdot, hdotDot, entry, hfind⟩
    exact ⟨names, name, here, table, entry, hcomponents, hwalk, hdot, hdotDot, htable, hfind⟩
  · rintro ⟨names, name, here, table, entry, hcomponents, hwalk, hdot, hdotDot, htable, hfind⟩
    exact ⟨names, name, here, table, map, hcomponents, hwalk, htable, hmap, hdot, hdotDot, entry,
      hfind⟩

theorem Settled.removing_cases (h : volume.Settled tree device)
    (hsession : device.Reaches session.directory) (path : String) :
    (∃ error, Removal.find session path device = .error error ∧
        (volume.removing session path).run device = (.error error, device)) ∨
      ∃ removal here entry after, Removal.find session path device = .ok removal ∧
        (volume.removing session path).run device = (.ok (), after) ∧
        locate session path device = .ok (here, removal.name) ∧
        entry.name = Bytes.ofText removal.name ∧ tree.Drops ⟨here, entry⟩ device after := by
  cases hfind : Removal.find session path device with
  | error error => exact .inl ⟨error, rfl, run_removing_of_find_error hfind⟩
  | ok removal =>
    obtain ⟨up, hup⟩ := h.stored.reaches_iff.1 hsession
    obtain ⟨here, entry, hlocate, hfound⟩ := Removal.of_find hfind
    obtain ⟨above, hdir⟩ := h.stored.hasDirectory_locate hup hlocate
    obtain ⟨map, parent, hprepare⟩ := Removal.exists_prepare h hdir hfound
    obtain ⟨header, stored, hprepared⟩ := Removal.of_prepare hprepare
    have p : removal.Placed tree volume.freeMapFile device here above entry header stored map
        parent := ⟨hfound, hprepared, h.faultFree, h.stored, hdir, h.map⟩
    refine .inr ⟨removal, here, entry, _, rfl, ?_, hlocate, (Directory.mem_of_find? p.named).2,
      p.drops h.distinct⟩
    rw [run_removing_of_ok hfind hprepare, p.run_commit]

/-- Removing a file or a directory from a settled volume, from a directory that is found from the
root. -/
theorem removes_exactly (h : volume.Settled tree host.device)
    (hsession : host.device.Reaches session.directory) (path : String) :
    Removes tree session path host.device ((volume.remove session path).run host) := by
  have hacts := volume.actsAs_remove session path
  have hasks : Answers (fun table _ name ↦ Removal.demands table name) session path host.device
      ((Removal.find session path host.device).map fun _ ↦ ()) := by
    refine h.answers hsession (fun error hlocate ↦ ?_)
      fun here name file table map hlocate _ hopen _ ↦ Removal.governs_find hlocate hopen
    rw [Removal.find, hlocate]
    rfl
  rcases h.removing_cases hsession path with ⟨error, hfind, hrun⟩ |
    ⟨removal, here, entry, after, hfind, hrun, hlocate, hname, hdrops⟩
  · obtain ⟨hanswer, hdevice⟩ := hacts.eq_of_run hrun
    rw [hfind, Except.map, ← hanswer] at hasks
    refine ⟨h.removes_iff hasks, hasks, fun _ ↦ hdevice, fun hok ↦ ?_⟩
    rw [hanswer] at hok
    contradiction
  · obtain ⟨hanswer, hdevice⟩ := hacts.eq_of_run hrun
    rw [hfind, Except.map, ← hanswer] at hasks
    refine ⟨h.removes_iff hasks, hasks, fun hne ↦ absurd hanswer hne, ?_⟩
    intro _ names leaf place hcomponents hwalk
    rw [locate_of_components hcomponents, hwalk] at hlocate
    cases hlocate
    rw [hdevice]
    exact ⟨entry, hname, hdrops⟩

theorem removes_exactly_furnished : ∃ volume tree, furnished.volume? = some volume ∧
    volume.Settled tree furnished.host.device ∧ furnished.host.device.Reaches rootSector ∧
    (furnished.volume?.map fun volume ↦
      ((volume.remove ⟨rootSector⟩ "d/../a").run furnished.host).1) = some (.ok ()) ∧
    Removes tree ⟨rootSector⟩ "d/../a" furnished.host.device
      ((volume.remove ⟨rootSector⟩ "d/../a").run furnished.host) := by
  obtain ⟨volume, tree, hvolume, hsettled⟩ := settled_furnished
  have hsession : furnished.host.device.Reaches (Session.directory ⟨rootSector⟩) := .root
  have hrun : (furnished.volume?.map fun volume ↦
      ((volume.remove ⟨rootSector⟩ "d/../a").run furnished.host).1) = some (.ok ()) := by
    decide +kernel
  exact ⟨volume, tree, hvolume, hsettled, hsession, hrun, removes_exactly hsettled hsession "d/../a"⟩

end Volume

end SectorFS
