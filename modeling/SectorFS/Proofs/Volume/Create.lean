import SectorFS.Proofs.FreeMap
import SectorFS.Proofs.Volume
import SectorFS.Volume.Create

namespace SectorFS

open Layout

namespace Creation

structure Prepared (creation : Creation) (freeMapFile : File) (kind : Kind) (size : Nat)
    (device : Device) (here : UInt32) (name : String) (old : Directory) (stored : FreeMap) :
    Prop where
  opened : device.openDirectory here = .ok (creation.parentFile, old)
  loaded : FreeMap.load freeMapFile device = .ok stored
  allocated : ∃ taken, stored.takeFirst? = some (creation.sector, taken) ∧
    taken.allocate size = .ok (creation.header, creation.map)
  added : old.add name creation.sector kind = .ok creation.parent
  plain : kind = .regular → creation.table? = none
  table : kind = .directory → ∃ table,
    Directory.linked directorySlots creation.sector here = .ok table ∧ creation.table? = some table

def footprint (creation : Creation) : List UInt32 := creation.sector :: creation.header.dataSectors

def file (creation : Creation) (h : creation.header.Consistent) : File :=
  ⟨creation.sector, creation.header, h⟩

def storeTable (creation : Creation) : Action Unit :=
  match creation.table? with
  | none => pure ()
  | some table => Action.query (·.openFile creation.sector) >>= fun file ↦ table.store file

def tableEdits (creation : Creation) (file : File) (device : Device) : List Edit :=
  match creation.table? with
  | none => []
  | some table => file.rewrites device table.bytes 0

def freshEdits (creation : Creation) (file : File) (device : Device) : List Edit :=
  [(creation.sector, creation.header.block)] ++
    creation.tableEdits file (device.edit [(creation.sector, creation.header.block)])

def parentEdits (creation : Creation) (file : File) (device : Device) : List Edit :=
  creation.parentFile.rewrites (device.edit (creation.freshEdits file device)) creation.parent.bytes 0

def mapEdits (creation : Creation) (file freeMapFile : File) (device : Device) : List Edit :=
  freeMapFile.rewrites
    (device.edit (creation.freshEdits file device ++ creation.parentEdits file device))
    creation.map.bytes 0

def edits (creation : Creation) (file freeMapFile : File) (device : Device) : List Edit :=
  creation.freshEdits file device ++ creation.parentEdits file device ++
    creation.mapEdits file freeMapFile device

theorem edits_healed (creation : Creation) (file freeMapFile : File) (device : Device) :
    creation.edits file freeMapFile device.healed = creation.edits file freeMapFile device := by
  have hfresh : creation.freshEdits file device.healed = creation.freshEdits file device := by
    unfold freshEdits tableEdits
    cases creation.table? with
    | none => rfl
    | some table =>
      dsimp only
      rw [← Device.healed_edit, File.rewrites_healed]
  have hparent : creation.parentEdits file device.healed = creation.parentEdits file device := by
    rw [parentEdits, hfresh, ← Device.healed_edit, File.rewrites_healed, parentEdits]
  rw [edits, mapEdits, hfresh, hparent, ← Device.healed_edit, File.rewrites_healed, edits, mapEdits]

variable {creation : Creation} {freeMapFile : File} {kind : Kind} {size : Nat} {device : Device}
  {here t : UInt32} {name : String} {old : Directory} {stored : FreeMap}

theorem of_prepare {volume : Volume} {session : Session} {path : String}
    (h : prepare volume session path kind size device = .ok creation) :
    ∃ here name old stored, Volume.locate session path device = .ok (here, name) ∧
      creation.Prepared volume.freeMapFile kind size device here name old stored := by
  obtain ⟨⟨here, name⟩, hlocate, h⟩ := bind_eq_ok.1 h
  obtain ⟨⟨parentFile, old⟩, hopen, h⟩ := bind_eq_ok.1 h
  refine ⟨here, name, old, ?_⟩
  by_cases hsome : (old.find? name).isSome = true
  · simp only [if_pos hsome] at h
    contradiction
  · simp only [if_neg hsome] at h
    obtain ⟨stored, hload, h⟩ := bind_eq_ok.1 h
    cases htake : stored.takeFirst? with
    | none => simp only [htake] at h; contradiction
    | some first =>
      obtain ⟨sector, taken⟩ := first
      simp only [htake] at h
      obtain ⟨parent, hadd, h⟩ := bind_eq_ok.1 h
      obtain ⟨⟨header, map⟩, hallocate, h⟩ := bind_eq_ok.1 h
      refine ⟨stored, hlocate, ?_⟩
      cases kind with
      | regular =>
        cases h
        exact ⟨hopen, hload, ⟨taken, htake, hallocate⟩, hadd, fun _ ↦ rfl, nofun⟩
      | directory =>
        obtain ⟨table, htable, -⟩ := Directory.exists_linked sector here
        simp only [htable] at h
        cases h
        exact ⟨hopen, hload, ⟨taken, htake, hallocate⟩, hadd, nofun, fun _ ↦ ⟨table, htable, rfl⟩⟩

namespace Prepared

theorem healed (h : creation.Prepared freeMapFile kind size device here name old stored) :
    creation.Prepared freeMapFile kind size device.healed here name old stored :=
  { h with
    opened := Device.openDirectory_healed h.opened
    loaded := FreeMap.load_healed h.loaded }

variable (h : creation.Prepared freeMapFile kind size device here name old stored)
include h

theorem count_stored : stored.count = numSectors := FreeMap.count_of_load h.loaded

theorem nodup_footprint : creation.footprint.Nodup ∧
    ∀ s ∈ creation.footprint, s.toNat < numSectors ∧ stored.used s = false := by
  obtain ⟨taken, htake, hallocate⟩ := h.allocated
  obtain ⟨hlt, hfree, rfl⟩ := FreeMap.of_takeFirst? htake
  obtain ⟨-, -, hnodup, hdata, -, -⟩ := FreeMap.of_allocate hallocate
  have hdata' : ∀ s ∈ creation.header.dataSectors,
      s.toNat < numSectors ∧ stored.used s = false ∧ s ≠ creation.sector := by
    intro s hs
    obtain ⟨hs, hunused⟩ := hdata s hs
    rw [FreeMap.count_insert, h.count_stored] at hs
    rw [FreeMap.used_insert _ hlt, Bool.or_eq_false_iff, beq_eq_false_iff_ne] at hunused
    exact ⟨hs, hunused⟩
  refine ⟨List.nodup_cons.2 ⟨fun hmem ↦ (hdata' _ hmem).2.2 rfl, hnodup⟩, fun s hs ↦ ?_⟩
  rcases List.mem_cons.1 hs with rfl | hs
  · exact ⟨h.count_stored ▸ hlt, hfree⟩
  · exact ⟨(hdata' s hs).1, (hdata' s hs).2.1⟩

theorem consistent : creation.header.Consistent := by
  obtain ⟨taken, -, hallocate⟩ := h.allocated
  exact (FreeMap.of_allocate hallocate).1

theorem length_header : creation.header.length = size := by
  obtain ⟨taken, -, hallocate⟩ := h.allocated
  exact (FreeMap.of_allocate hallocate).2.1

theorem count_map : creation.map.count = numSectors := by
  obtain ⟨taken, htake, hallocate⟩ := h.allocated
  obtain ⟨-, -, rfl⟩ := FreeMap.of_takeFirst? htake
  obtain ⟨-, -, -, -, hcount, -⟩ := FreeMap.of_allocate hallocate
  rw [hcount, FreeMap.count_insert, h.count_stored]

theorem used_map : creation.map.used t = true ↔ stored.used t = true ∨ t ∈ creation.footprint := by
  obtain ⟨taken, htake, hallocate⟩ := h.allocated
  obtain ⟨hlt, -, rfl⟩ := FreeMap.of_takeFirst? htake
  obtain ⟨-, -, -, -, -, hused⟩ := FreeMap.of_allocate hallocate
  rw [hused, FreeMap.used_insert _ hlt, Bool.or_eq_true, beq_iff_eq, footprint, List.mem_cons,
    or_assoc]

theorem replaces : ∃ entry : Entry, entry.name = Bytes.ofText name ∧ entry.sector = creation.sector ∧
    entry.kind = kind ∧ old.find? name = none ∧
    Directory.Replaces old creation.parent none (some entry) := by
  obtain ⟨entry, hmake, hnone, hreplaces⟩ := Directory.of_add h.added
  obtain ⟨hname, hsector, hkind⟩ := Entry.of_make hmake
  exact ⟨entry, hname, hsector, hkind, hnone, hreplaces⟩

theorem capacity_parent : creation.parent.capacity = directorySlots := by
  obtain ⟨entry, -, -, -, -, hreplaces⟩ := h.replaces
  have hread := (Device.openDirectory_eq_ok_iff.1 h.opened).2
  exact hreplaces.capacity.trans (File.capacity_of_readDirectory hread)

theorem table_eq {table : Directory} (htable : creation.table? = some table) :
    kind = .directory ∧ table.capacity = directorySlots ∧ table.Linked creation.sector here ∧
      table.children = [] ∧ (table.entries.map Entry.name).Nodup := by
  cases kind with
  | regular => exact absurd (htable.symm.trans (h.plain rfl)) nofun
  | directory =>
    obtain ⟨linked, hlinked, hsome⟩ := h.table rfl
    obtain ⟨other, hother, hrest⟩ := Directory.exists_linked creation.sector here
    cases hsome.symm.trans htable
    cases hlinked.symm.trans hother
    exact ⟨rfl, hrest⟩

end Prepared

theorem commit_eq (creation : Creation) (freeMapFile : File) : creation.commit freeMapFile =
    Action.writeHeader creation.header creation.sector >>= fun _ ↦ creation.storeTable >>=
      fun _ ↦ creation.parent.store creation.parentFile >>= fun _ ↦
        creation.map.store freeMapFile := by
  unfold commit storeTable
  cases creation.table? with
  | none => rfl
  | some table => simp only [bind_assoc]

/-- A header that was just written is the one found, unless the device fails. -/
theorem openFile_put (hc : creation.header.Consistent) (hs : device.Has creation.sector) :
    (device.edit [(creation.sector, creation.header.block)]).openFile creation.sector =
        .ok (creation.file hc) ∨
      (device.edit [(creation.sector, creation.header.block)]).faults ≠ {} ∧
        ∃ error, (device.edit [(creation.sector, creation.header.block)]).openFile creation.sector =
          .error error := by
  generalize hafter : device.edit [(creation.sector, creation.header.block)] = after
  have hblock : after.block? creation.sector = some creation.header.block := by
    obtain ⟨block, hb⟩ := Device.has_iff.1 hs
    rw [← hafter, Device.edit, Device.edit, Device.block?_put, if_pos rfl, hb, Option.map_some]
  have hheal : after.healed.openFile creation.sector = .ok (creation.file hc) :=
    Device.openFile_of_readHeader
      (Device.readHeader_of_block? after.faults_healed hblock hc)
  cases hopen : after.openFile creation.sector with
  | ok file =>
    rw [Device.openFile_healed hopen] at hheal
    exact .inl hheal
  | error error =>
    refine .inr ⟨fun hf ↦ ?_, error, rfl⟩
    rw [Device.healed_of_faultFree hf, hopen] at hheal
    contradiction

theorem Prepared.carriesOut_storeTable
    (h : creation.Prepared freeMapFile kind size device here name old stored)
    (hkind : kind = .directory → size = directoryFileSize)
    (hhas : ∀ s ∈ creation.footprint, device.Has s) :
    creation.storeTable.CarriesOut (device.edit [(creation.sector, creation.header.block)])
      (creation.tableEdits (creation.file h.consistent)
        (device.edit [(creation.sector, creation.header.block)])) () := by
  unfold storeTable tableEdits
  cases htable : creation.table? with
  | none => exact Action.carriesOut_pure _ _
  | some table =>
    obtain ⟨rfl, hcap, -⟩ := h.table_eq htable
    have hlen := Directory.length_bytes_of_capacity hcap
    have hfile : (creation.file h.consistent).length = directoryFileSize :=
      h.length_header.trans (hkind rfl)
    have hextent : (creation.file h.consistent).extent 0 table.bytes.length = directoryFileSize := by
      rw [File.extent, hlen, hfile]
      rfl
    refine Action.CarriesOut.query_bind (a := creation.file h.consistent) ?_ ?_
    · rcases creation.openFile_put h.consistent (hhas _ List.mem_cons_self) with hopen | ⟨hf, herror⟩
      · exact .inl hopen
      · refine .inr ⟨hf, herror, File.rewrites_ne_nil ?_⟩
        rw [hextent]
        decide
    · exact Directory.carriesOut_store_of_room hcap (Nat.le_of_eq hfile.symm) fun span hspan ↦
        Device.has_edit.2 (hhas _ (List.mem_cons_of_mem _ (File.sector_mem_of_mem_spans hspan)))

/-- The commit writes its blocks in order, and only a failing device can stop it. -/
theorem Prepared.carriesOut_commit
    (h : creation.Prepared freeMapFile kind size device here name old stored)
    (hkind : kind = .directory → size = directoryFileSize)
    (hroom : numSectors ≤ device.blocks.size) :
    (creation.commit freeMapFile).CarriesOut device
      (creation.edits (creation.file h.consistent) freeMapFile device) () := by
  have hhas : ∀ s ∈ creation.footprint, device.Has s := fun s hs ↦
    Nat.lt_of_lt_of_le (h.nodup_footprint.2 s hs).1 hroom
  have hhead : (Action.writeHeader creation.header creation.sector).CarriesOut device
      [(creation.sector, creation.header.block)] () :=
    Action.carriesOut_write (hhas _ List.mem_cons_self) _
  have htable := h.carriesOut_storeTable hkind hhas
  have hopened := (Device.openDirectory_eq_ok_iff.1 h.opened).2
  have hparent : (creation.parent.store creation.parentFile).CarriesOut
      (device.edit (creation.freshEdits (creation.file h.consistent) device))
      (creation.parentEdits (creation.file h.consistent) device) () :=
    Directory.carriesOut_store hopened (Nat.le_of_eq (Device.size_edit _ _).symm) h.capacity_parent
  have hmap : (creation.map.store freeMapFile).CarriesOut
      (device.edit (creation.freshEdits (creation.file h.consistent) device ++
        creation.parentEdits (creation.file h.consistent) device))
      (creation.mapEdits (creation.file h.consistent) freeMapFile device) () :=
    FreeMap.carriesOut_store h.loaded (Nat.le_of_eq (Device.size_edit _ _).symm) h.count_map
  rw [Device.edit_append] at hmap
  have htail := hparent.next hmap
  rw [freshEdits, Device.edit_append] at htail
  rw [commit_eq, edits, List.append_assoc, freshEdits, List.append_assoc]
  exact hhead.next (htable.next htail)

end Creation

namespace Volume

open Operation

variable {volume : Volume} {session : Session} {path : String} {kind : Kind} {size : Nat}
  {device : Device} {creation : Creation}

def creating (volume : Volume) (session : Session) (path : String) (kind : Kind) (size : Nat) :
    Action Unit :=
  Action.query (Creation.prepare volume session path kind size) >>= fun creation ↦
    creation.commit volume.freeMapFile

theorem actsAs_createEntry (volume : Volume) (session : Session) (path : String) (kind : Kind)
    (size : Nat) : (volume.createEntry session path kind size).ActsAs
      (volume.creating session path kind size) := by
  refine ActsAs.noteFailure ((actsAs_query _).bind fun creation ↦ ActsAs.note_bind _ ?_)
  have hdone := (actsAs_act (creation.commit volume.freeMapFile)).bind fun _ ↦
    actsAs_note (.created path creation.sector kind size)
  rwa [bind_pure_unit] at hdone

theorem run_creating_of_error {error : Error}
    (h : Creation.prepare volume session path kind size device = .error error) :
    (volume.creating session path kind size).run device = (.error error, device) :=
  run_bind_of_error (Action.run_query h)

theorem run_creating_of_ok (h : Creation.prepare volume session path kind size device = .ok creation) :
    (volume.creating session path kind size).run device =
      (creation.commit volume.freeMapFile).run device :=
  run_bind_of_ok (Action.run_query h)

end Volume

end SectorFS
