import SectorFS.Proofs.Directory.Slots
import SectorFS.Proofs.Failure

namespace SectorFS

open Layout

namespace Creation.Placed

variable {creation : Creation} {tree : Tree} {freeMapFile : File} {kind : Kind} {size : Nat}
  {device : Device} {here above t : UInt32} {name : String} {old : Directory} {stored : FreeMap}
  (p : creation.Placed tree freeMapFile kind size device here above name old stored)
include p

/-- The new entry takes the first free slot, and its header the first free sector. -/
theorem gains : ∃ entry : Entry, old.Gains creation.parent entry ∧ entry.name = Bytes.ofText name ∧
    entry.kind = kind ∧ stored.freeSectors.head? = some entry.sector := by
  obtain ⟨entry, hmake, hgains⟩ := Directory.gains_of_add p.added
  obtain ⟨hname, hsector, hkind⟩ := Entry.of_make hmake
  obtain ⟨taken, htake, -⟩ := p.allocated
  obtain ⟨first, hfirst, heq⟩ := Option.map_eq_some_iff.1 htake
  rw [FreeMap.firstFree_eq_take, List.head?_take] at hfirst
  cases heq
  exact ⟨entry, hgains, hname, hkind, hsector ▸ hfirst⟩

/-- Before the write to the map, what is in use changes in the parent's table alone. -/
theorem block?_take (k : Nat) (hused : stored.used t = true) (ht : t ∉ device.dataSectors here) :
    (device.edit (p.unmapped.take k)).block? t = device.block? t := by
  refine Device.block?_edit_of_ne fun edit hedit heq ↦ ?_
  rcases List.mem_append.1 (List.mem_of_mem_take hedit) with h | h
  · rw [← heq, (p.nodup_footprint.2 _ (mem_footprint_of_mem_freshEdits h)).2] at hused
    contradiction
  · rw [Device.dataSectors_of_openFile p.site.openFile_parent] at ht
    exact ht (heq ▸ mem_of_mem_parentEdits h)

end Creation.Placed

namespace Removal.Placed

variable {removal : Removal} {tree : Tree} {freeMapFile : File} {device : Device}
  {here above t : UInt32} {entry : Entry} {header : Header} {stored map : FreeMap}
  {parent : Directory}
  (p : removal.Placed tree freeMapFile device here above entry header stored map parent)
include p

theorem block?_take (k : Nat) (hmap : t ∉ device.dataSectors freeMapSector)
    (ht : t ∉ device.dataSectors here) :
    (device.edit ((removal.edits freeMapFile map parent device).take k)).block? t =
      device.block? t := by
  rw [Device.dataSectors_of_openFile p.mapped] at hmap
  rw [Device.dataSectors_of_openFile p.site.openFile_parent] at ht
  refine Device.block?_edit_of_ne fun edit hedit heq ↦ ?_
  rcases List.mem_append.1 (List.mem_of_mem_take hedit) with h | h
  · exact hmap (heq ▸ mem_of_mem_mapEdits h)
  · exact ht (heq ▸ mem_of_mem_parentEdits h)

theorem used_map_iff : map.used t = true ↔
    stored.used t = true ∧ t ∉ device.footprint entry.sector := by
  rw [p.used_map, p.footprint_eq]

end Removal.Placed

namespace Volume

/-- From `before` to `after`, no more than this is changed by the creation of a file that fails. -/
structure CreationDamage (session : Session) (path : String) (kind : Kind)
    (before after : Device) : Prop where
  /-- The free map stays, and with it the sectors that it counts as used, the parent's aside. -/
  map : ∃ map, before.HasMap map ∧ after.HasMap map ∧ ∀ t, map.used t = true →
    (∀ here name, locate session path before = .ok (here, name) → t ∉ before.dataSectors here) →
      after.block? t = before.block? t
  /-- The parent has its old table, or the one with the new entry in the first free slot. -/
  table : ∀ here name, locate session path before = .ok (here, name) →
    ∃ old, before.HasTable here old ∧ (after.HasTable here old ∨
      ∃ new entry, after.HasTable here new ∧ old.Gains new entry ∧
        entry.name = Bytes.ofText name ∧ entry.kind = kind ∧
        ∀ map, before.HasMap map → map.freeSectors.head? = some entry.sector)

structure RemovalDamage (session : Session) (path : String) (before after : Device) : Prop where
  /-- Only the contents of the free map and of the parent change. -/
  kept : ∀ t, t ∉ before.dataSectors freeMapSector →
    (∀ here name, locate session path before = .ok (here, name) → t ∉ before.dataSectors here) →
      after.block? t = before.block? t
  /-- If anything changes, the map is without the sectors of the file, and the parent has its old
  table or the one without the entry. -/
  parts : after = before ∨ ∃ here name old entry stored map,
    locate session path before = .ok (here, name) ∧ before.HasTable here old ∧
      old.find? name = some entry ∧ before.HasMap stored ∧ after.HasMap map ∧
      (∀ t, map.used t = true ↔ stored.used t = true ∧ t ∉ before.footprint entry.sector) ∧
      (after.HasTable here old ∨
        ∃ new, after.HasTable here new ∧ old.Replaces new (some entry) none)

variable {volume : Volume} {session : Session} {path : String} {kind : Kind} {size : Nat}
  {device after : Device} {error : Error} {tree : Tree} {up : UInt32}

theorem creationDamage_refl (hstored : tree.Stored device)
    (hup : tree.HasDirectory session.directory up) :
    CreationDamage session path kind device device := by
  obtain ⟨map, hmap, -⟩ := hstored.marked
  refine ⟨⟨map, hmap, hmap, fun _ _ _ ↦ rfl⟩, fun here name hlocate ↦ ?_⟩
  obtain ⟨above, hdir⟩ := hstored.hasDirectory_locate hup hlocate
  obtain ⟨old, hold, -⟩ := hstored.tables here above hdir
  exact ⟨old, hold, .inl hold⟩

theorem removalDamage_refl (session : Session) (path : String) (device : Device) :
    RemovalDamage session path device device :=
  ⟨fun _ _ _ ↦ rfl, .inl rfl⟩

variable (hstored : tree.Stored device.healed)
  (hmap : device.healed.openFile freeMapSector = .ok volume.freeMapFile)
  (hup : tree.HasDirectory session.directory up)
include hstored hmap hup

theorem creationDamage_of_failed (hsized : kind = .directory → size = directoryFileSize)
    (h : (volume.creating session path kind size).run device = (.error error, after)) :
    CreationDamage session path kind device.healed after.healed := by
  rcases creating_failed_cases hstored hmap hup hsized h with
    heq | ⟨creation, here, above, name, old, stored, hlocate, p, k, heq⟩
  · rw [heq]
    exact creationDamage_refl hstored hup
  · rw [heq]
    refine ⟨⟨stored, p.site.hasMap, p.hasMap_take k, fun t hused ht ↦ ?_⟩, ?_⟩
    · exact p.block?_take k hused (ht here name hlocate)
    · intro here' name' hlocate'
      cases hlocate.symm.trans hlocate'
      refine ⟨old, p.site.hasTable, (p.hasTable_take k).imp_right fun hnew ↦ ?_⟩
      obtain ⟨entry, hgains, hname, hkind, hfirst⟩ := p.gains
      exact ⟨creation.parent, entry, hnew, hgains, hname, hkind,
        fun map hhas ↦ hhas.eq p.site.hasMap ▸ hfirst⟩

theorem removalDamage_of_failed
    (h : (volume.removing session path).run device = (.error error, after)) :
    RemovalDamage session path device.healed after.healed := by
  rcases removing_failed_cases hstored hmap hup h with
    heq | ⟨removal, here, above, entry, header, stored, map, parent, hlocate, p, k, heq⟩
  · rw [heq]
    exact removalDamage_refl session path _
  · rw [heq]
    refine ⟨fun t ht hparent ↦ p.block?_take k ht (hparent here removal.name hlocate), ?_⟩
    cases k with
    | zero => exact .inl rfl
    | succ k =>
      rw [p.take_edits]
      refine .inr ⟨here, removal.name, removal.parent, entry, stored, map, hlocate, p.site.hasTable,
        p.named, p.site.hasMap, ?_, fun t ↦ p.used_map_iff, (p.hasTable_take k).imp_right fun hnew ↦
          ⟨parent, hnew, p.replaces p.toFound⟩⟩
      exact p.hasMap_new _ fun edit hedit ↦ List.mem_of_mem_take hedit

end Volume

namespace Machine

variable {machine : Machine} {volume : Volume} {tree : Tree} {session : Session} {path : String}
  {kind : Kind} {size index : Nat} {failure : Failure}

theorem Sound.creationDamage_of_failed (h : machine.Sound volume tree) (faults : Faults)
    (hs : machine.sessions[index]? = some session)
    (hsized : kind = .directory → size = directoryFileSize)
    (hfailed : ((Step.onTree index fun volume session ↦
      volume.createEntry session path kind size).run (machine.afflict faults)).1 = .error failure) :
    Volume.CreationDamage session path kind machine.host.device
      ((Step.onTree index fun volume session ↦ volume.createEntry session path kind size).run
        (machine.afflict faults)).2.host.device.healed := by
  have hupholds := h.upholds faults
  have hheal : (machine.afflict faults).host.device.healed = machine.host.device :=
    Device.healed_of_faultFree h.faultFree
  obtain ⟨up, hup⟩ := h.sessions session (Array.mem_of_getElem? hs)
  refine hupholds.failed_inSession (P := fun after ↦ Volume.CreationDamage session path kind
    machine.host.device after.healed) (fun volume session ↦
      volume.actsAs_createEntry session path kind size) ?_ ?_ hfailed
  · rw [hheal]
    exact Volume.creationDamage_refl h.stored hup
  · intro volume session' up' error after hv hs' hup' hrun
    cases hs.symm.trans hs'
    rw [← hheal]
    exact Volume.creationDamage_of_failed hupholds.stored (hupholds.mapped volume hv) hup' hsized
      hrun

theorem Sound.removalDamage_of_failed (h : machine.Sound volume tree) (faults : Faults)
    (hs : machine.sessions[index]? = some session)
    (hfailed : ((Step.onTree index fun volume session ↦ volume.remove session path).run
      (machine.afflict faults)).1 = .error failure) :
    Volume.RemovalDamage session path machine.host.device
      ((Step.onTree index fun volume session ↦ volume.remove session path).run
        (machine.afflict faults)).2.host.device.healed := by
  have hupholds := h.upholds faults
  have hheal : (machine.afflict faults).host.device.healed = machine.host.device :=
    Device.healed_of_faultFree h.faultFree
  refine hupholds.failed_inSession (P := fun after ↦ Volume.RemovalDamage session path
    machine.host.device after.healed) (fun volume session ↦
      volume.actsAs_remove session path) ?_ ?_ hfailed
  · rw [hheal]
    exact Volume.removalDamage_refl session path _
  · intro volume session' up' error after hv hs' hup' hrun
    cases hs.symm.trans hs'
    rw [← hheal]
    exact Volume.removalDamage_of_failed hupholds.stored (hupholds.mapped volume hv) hup' hrun

/-- However the device fails after a disciplined run: a change of the tree that is not carried out
leaves no more damage than this. -/
theorem damage_of_failed {device : Device} (h : device.Ready) {requests : List Request}
    (hd : disciplined [] (step .format (start device)).2 requests = true) {machine : Machine}
    (hm : machine = (run (.format :: requests) (start device)).2) (faults : Faults) {index : Nat}
    {session : Session} (hs : machine.sessions[index]? = some session) (path : String) :
    (∀ size failure, (step (.createFile index path size) (machine.afflict faults)).1 =
        .error failure →
      Volume.CreationDamage session path .regular machine.host.device
        (step (.createFile index path size) (machine.afflict faults)).2.host.device.healed) ∧
    (∀ failure, (step (.createDirectory index path) (machine.afflict faults)).1 =
        .error failure →
      Volume.CreationDamage session path .directory machine.host.device
        (step (.createDirectory index path) (machine.afflict faults)).2.host.device.healed) ∧
    ∀ failure, (step (.remove index path) (machine.afflict faults)).1 = .error failure →
      Volume.RemovalDamage session path machine.host.device
        (step (.remove index path) (machine.afflict faults)).2.host.device.healed := by
  obtain ⟨volume, tree, hsound⟩ := sound_of_disciplined h hd
  rw [← hm] at hsound
  refine ⟨fun size failure hfailed ↦ ?_, fun failure hfailed ↦ ?_, fun failure hfailed ↦ ?_⟩
  · exact hsound.creationDamage_of_failed faults hs Kind.noConfusion hfailed
  · exact hsound.creationDamage_of_failed faults hs (fun _ ↦ rfl) hfailed
  · exact hsound.removalDamage_of_failed faults hs hfailed

def unscathed : Machine := (run [.format, .createFile 0 "a" 0] (start (.blank 1024 128))).2

theorem damage_of_failed_unscathed :
    (Device.blank 1024 128).Ready ∧
      disciplined [] (step .format (start (.blank 1024 128))).2 [.createFile 0 "a" 0] = true ∧
      unscathed.sessions[0]? = some ⟨rootSector⟩ ∧
      (step (.createDirectory 0 "b") (unscathed.afflict { writesLeft := some 4 })).1 =
        .error (.refused (.device .write)) ∧
      Volume.CreationDamage ⟨rootSector⟩ "b" .directory unscathed.host.device
        (step (.createDirectory 0 "b")
          (unscathed.afflict { writesLeft := some 4 })).2.host.device.healed ∧
      (step (.remove 0 "a") (unscathed.afflict { badWrites := [3] })).1 =
        .error (.refused (.device .write)) ∧
      Volume.RemovalDamage ⟨rootSector⟩ "a" unscathed.host.device
        (step (.remove 0 "a") (unscathed.afflict { badWrites := [3] })).2.host.device.healed := by
  have hready : (Device.blank 1024 128).Ready := Device.ready_blank (Nat.le_refl _)
  have hd : disciplined [] (step .format (start (.blank 1024 128))).2 [.createFile 0 "a" 0] = true := by
    decide +kernel
  have hm : unscathed = (run (.format :: [.createFile 0 "a" 0]) (start (.blank 1024 128))).2 := rfl
  have hs : unscathed.sessions[0]? = some ⟨rootSector⟩ := by decide +kernel
  have hcreate : (step (.createDirectory 0 "b") (unscathed.afflict { writesLeft := some 4 })).1 =
      .error (.refused (.device .write)) := by
    decide +kernel
  have hremove : (step (.remove 0 "a") (unscathed.afflict { badWrites := [3] })).1 =
      .error (.refused (.device .write)) := by
    decide +kernel
  have hcreated := (damage_of_failed hready hd hm { writesLeft := some 4 } hs "b").2.1 _ hcreate
  have hremoved := (damage_of_failed hready hd hm { badWrites := [3] } hs "a").2.2 _ hremove
  exact ⟨hready, hd, hs, hcreate, hcreated, hremove, hremoved⟩

end Machine

end SectorFS
