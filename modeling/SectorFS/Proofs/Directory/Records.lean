import SectorFS.Proofs.Directory.Slots
import SectorFS.Proofs.Guarded.Directory
import SectorFS.Proofs.Guarded.InPlace

namespace SectorFS

open Layout

structure Record where
  inUse : Bool
  kind : Kind
  sector : UInt32
  /-- The name, filled up with zeros. -/
  name : Bytes
  length_name : name.length = maxNameLength + 1
  deriving DecidableEq, Repr

namespace Record

def null : Record := ⟨false, .regular, 0, .zeros (maxNameLength + 1), Bytes.length_zeros _⟩

def isNamed (record : Record) (name : String) : Bool := record.name.trimZeros == Bytes.ofText name

def listed (record : Record) : ListedEntry :=
  ⟨record.name.trimZeros.toText?.getD "?", record.sector, record.kind⟩

def indexOf? (records : List Record) (name : String) : Option Nat :=
  records.findIdx? fun record ↦ record.inUse && record.isNamed name

end Record

def Slot.record (slot : Slot) : Record :=
  ⟨slot.isSome, slot.kind, slot.sector, slot.storedName, slot.length_storedName⟩

def Directory.records (table : Directory) : List Record := table.slots.map Slot.record

namespace Directory

inductive Request
  | add (name : String) (sector : UInt32) (kind : Kind)
  | remove (name : String)
  | find (name : String)
  | findEntry (name : String)
  | entryType (name : String)
  | list
  | isEmpty
  deriving DecidableEq, Repr

inductive Reply
  | done
  | sector (found : Option UInt32)
  | entry (found : Option Record)
  | kind (found : Option Kind)
  | listed (entries : List ListedEntry)
  | flag (empty : Bool)
  deriving DecidableEq, Repr

def serve : Request → Directory → Except Error Reply × Directory
  | .add name sector kind, table => changed .done table (table.add name sector kind)
  | .remove name, table => changed .done table (table.remove name)
  | .find name, table => (.ok (.sector ((table.find? name).map Entry.sector)), table)
  | .findEntry name, table =>
    (.ok (.entry ((table.find? name).map fun entry ↦ Slot.record (some entry))), table)
  | .entryType name, table => (.ok (.kind ((table.find? name).map Entry.kind)), table)
  | .list, table => (.ok (.listed table.list), table)
  | .isEmpty, table => (.ok (.flag table.isEmpty), table)

end Directory

/-! ## In place -/

namespace Guarded

def record (kind : Kind) (sector : UInt32) (stored : Bytes) : Guarded Record :=
  if h : stored.length = maxNameLength + 1 then .ok ⟨true, kind, sector, stored, h⟩
  else .error .range

end Guarded

namespace InPlace

def newRecord (name : String) (sector : UInt32) (kind : Kind) : InPlace (List Record) Record := do
  let bytes := Bytes.ofText name
  if bytes.length = 0 ∨ maxNameLength < bytes.length then
    throw (.invalidArgument (.badNameLength name))
  else if separator ∈ name.toList ∨ 0 ∈ bytes then
    throw (.invalidArgument (.reservedCharacter name))
  else
    let stored ← Guarded.copy (Bytes.zeros (maxNameLength + 1)) 0 bytes.length bytes
    Guarded.record kind sector stored

def addRecord (name : String) (sector : UInt32) (kind : Kind) : InPlace (List Record) Unit := do
  let record ← newRecord name sector kind
  if (Record.indexOf? (← get) name).isSome then throw (.alreadyExists name)
  else match (← get).findIdx? fun record ↦ !record.inUse with
    | none => throw (.capacityExceeded .directoryFull)
    | some i => set (← Guarded.set (← get) i record)

def removeRecord (name : String) : InPlace (List Record) Unit := do
  match Record.indexOf? (← get) name with
  | none => throw (.notFound name)
  | some i => set (← Guarded.set (← get) i .null)

def findRecord (name : String) : InPlace (List Record) (Option Record) := do
  match Record.indexOf? (← get) name with
  | none => return none
  | some i => return some (← Guarded.get (← get) i)

def linkRecords (self parent : UInt32) : InPlace (List Record) Unit := do
  addRecord dot self .directory
  addRecord dotDot parent .directory

def onRecords : Directory.Request → InPlace (List Record) Directory.Reply
  | .add name sector kind => do addRecord name sector kind; return .done
  | .remove name => do removeRecord name; return .done
  | .find name => do return .sector ((← findRecord name).map Record.sector)
  | .findEntry name => do return .entry (← findRecord name)
  | .entryType name => do return .kind ((← findRecord name).map Record.kind)
  | .list => do return .listed (((← get).filter Record.inUse).map Record.listed)
  | .isEmpty => do
    return .flag (((← get).filter Record.inUse).all fun record ↦
      record.isNamed dot || record.isNamed dotDot)

end InPlace

/-! ## Slots as records -/

theorem Guarded.record_storedName (entry : Entry) :
    record entry.kind entry.sector (Slot.storedName (some entry)) =
      .ok (Slot.record (some entry)) :=
  dif_pos (Slot.length_storedName _)

theorem Slot.trimZeros_record (entry : Entry) :
    (Slot.record (some entry)).name.trimZeros = entry.name :=
  Bytes.trimZeros_append_zeros entry.getLast?_name _

theorem Slot.isNamed_record (entry : Entry) (name : String) :
    (Slot.record (some entry)).isNamed name = entry.isNamed name := by
  rw [Record.isNamed, Slot.trimZeros_record, Entry.isNamed]

theorem Slot.listed_record (entry : Entry) :
    (Slot.record (some entry)).listed = ⟨entry.label, entry.sector, entry.kind⟩ := by
  rw [Record.listed, Slot.trimZeros_record]
  rfl

theorem length_records (table : Directory) : table.records.length = table.slots.length :=
  List.length_map _

theorem indexOf?_records (table : Directory) (name : String) :
    Record.indexOf? table.records name = Directory.indexOf? table.slots name := by
  rw [Record.indexOf?, Directory.records, List.findIdx?_map, Directory.indexOf?]
  congr 1
  funext slot
  cases slot with
  | none => rfl
  | some entry => exact Slot.isNamed_record entry name

theorem findIdx?_records (table : Directory) :
    (table.records.findIdx? fun record ↦ !record.inUse) = table.slots.findIdx? Option.isNone := by
  rw [Directory.records, List.findIdx?_map]
  congr 1
  funext slot
  cases slot <;> rfl

theorem filter_inUse_records (table : Directory) : table.records.filter Record.inUse =
    table.entries.map fun entry ↦ Slot.record (some entry) := by
  obtain ⟨slots⟩ := table
  induction slots with
  | nil => rfl
  | cons slot rest ih =>
    cases slot with
    | none => exact ih
    | some entry => exact congrArg (Slot.record (some entry) :: ·) ih

theorem set_records (table : Directory) (i : Nat) (slot : Slot) :
    table.records.set i slot.record = Directory.records ⟨table.slots.set i slot⟩ :=
  List.map_set.symm

/-! ## Requests on records -/

namespace InPlace

theorem exec_newRecord (name : String) (sector : UInt32) (kind : Kind) (records : List Record) :
    (newRecord name sector kind).exec records =
      .ok ((Entry.make name sector kind).map fun entry ↦ Slot.record (some entry), records) := by
  rw [newRecord, Entry.make]
  by_cases hlen : 1 ≤ (Bytes.ofText name).length ∧ (Bytes.ofText name).length ≤ maxNameLength
  · rw [if_neg (by omega), dif_pos hlen]
    by_cases hchars : separator ∈ name.toList ∨ 0 ∈ Bytes.ofText name
    · rw [if_pos hchars, dif_pos hchars]
      rfl
    · rw [if_neg hchars, dif_neg hchars, exec_guarded (Guarded.copy_name hlen.2)]
      exact congrArg (fun x ↦ exec (liftM x) records)
        (Guarded.record_storedName ⟨Bytes.ofText name, hlen.2, _, kind, sector⟩)
  · rw [if_pos (by omega), dif_neg hlen]
    rfl

theorem exec_addRecord (table : Directory) (name : String) (sector : UInt32) (kind : Kind) :
    (addRecord name sector kind).exec table.records =
      .ok (changed () table.records ((table.add name sector kind).map Directory.records)) := by
  have hnew := exec_newRecord name sector kind table.records
  rw [addRecord, Directory.add]
  cases hmake : Entry.make name sector kind with
  | error error =>
    rw [hmake] at hnew
    exact exec_bind_error hnew
  | ok entry =>
    rw [hmake] at hnew
    rw [exec_bind_ok hnew, exec_get_bind, indexOf?_records, Guarded.isSome_indexOf?]
    change _ = Except.ok (changed _ _ (Except.map _ (if (table.find? name).isSome then _ else _)))
    cases (table.find? name).isSome with
    | true => rfl
    | false =>
      rw [if_neg Bool.false_ne_true, if_neg Bool.false_ne_true, exec_get_bind, findIdx?_records,
        Directory.fillFirst?_eq_map]
      cases hfree : table.slots.findIdx? Option.isNone with
      | none => rfl
      | some i =>
        have hlt : i < table.records.length := by
          rw [length_records]
          exact (List.findIdx?_eq_some_iff_getElem.1 hfree).1
        dsimp only
        rw [exec_get_bind, exec_guarded (Guarded.set_eq_ok hlt _), set_records]
        rfl

theorem exec_removeRecord (table : Directory) (name : String) :
    (removeRecord name).exec table.records =
      .ok (changed () table.records ((table.remove name).map Directory.records)) := by
  rw [removeRecord, exec_get_bind, indexOf?_records, Directory.remove, Guarded.eraseFirst?_eq_map]
  cases hindex : Directory.indexOf? table.slots name with
  | none => rfl
  | some i =>
    have hlt : i < table.records.length := by
      rw [length_records]
      exact Guarded.lt_of_indexOf? hindex
    have hset : table.records.set i .null = Directory.records ⟨table.slots.set i none⟩ :=
      set_records table i none
    dsimp only
    rw [exec_get_bind, exec_guarded (Guarded.set_eq_ok hlt _), hset]
    rfl

theorem exec_findRecord (table : Directory) (name : String) :
    (findRecord name).exec table.records =
      .ok (.ok ((table.find? name).map fun entry ↦ Slot.record (some entry)), table.records) := by
  rw [findRecord, exec_get_bind, indexOf?_records,
    show table.find? name = _ from Guarded.find?_eq_bind table.slots name]
  cases hindex : Directory.indexOf? table.slots name with
  | none => rfl
  | some i =>
    obtain ⟨entry, hslot⟩ := Guarded.exists_of_indexOf? hindex
    have hget : Guarded.get table.records i = .ok (Slot.record (some entry)) :=
      Guarded.get_eq_ok (by rw [Directory.records, List.getElem?_map, hslot]; rfl)
    dsimp only
    rw [exec_get_bind, exec_guarded hget, Option.bind_some, hslot]
    rfl

theorem linked_of_linkRecords {capacity : Nat} {self parent : UInt32} {records : List Record}
    (h : (linkRecords self parent).exec (List.replicate capacity .null) = .ok (.ok (), records)) :
    ∃ table, Directory.linked capacity self parent = .ok table ∧ table.records = records := by
  have hempty : (Directory.empty capacity).records = List.replicate capacity .null :=
    List.map_replicate
  have hself := exec_addRecord (.empty capacity) dot self .directory
  rw [linkRecords, ← hempty] at h
  cases hdot : (Directory.empty capacity).add dot self .directory with
  | error error =>
    rw [hdot] at hself
    rw [exec_bind_error hself] at h
    cases h
  | ok table =>
    have hparent := exec_addRecord table dotDot parent .directory
    rw [hdot] at hself
    rw [exec_bind_ok hself] at h
    have h := hparent.symm.trans h
    cases hlinked : table.add dotDot parent .directory with
    | error error => rw [hlinked] at h; cases h
    | ok linked =>
      rw [hlinked] at h
      cases h
      exact ⟨linked, bind_eq_ok.2 ⟨table, hdot, hlinked⟩, rfl⟩

/-- On its records a table answers each request as on its slots. -/
theorem exec_onRecords (request : Directory.Request) (table : Directory) :
    (onRecords request).exec table.records =
      .ok ((Directory.serve request table).1, (Directory.serve request table).2.records) := by
  cases request with
  | add name sector kind =>
    rw [onRecords, exec_changed (exec_addRecord table name sector kind), changed_map]
    rfl
  | remove name =>
    rw [onRecords, exec_changed (exec_removeRecord table name), changed_map]
    rfl
  | find name =>
    rw [onRecords, exec_bind_ok (exec_findRecord table name), Option.map_map]
    rfl
  | findEntry name =>
    rw [onRecords, exec_bind_ok (exec_findRecord table name)]
    rfl
  | entryType name =>
    rw [onRecords, exec_bind_ok (exec_findRecord table name), Option.map_map]
    rfl
  | list =>
    have hlist : (table.records.filter Record.inUse).map Record.listed = table.list := by
      rw [filter_inUse_records, List.map_map, Directory.list]
      exact List.map_congr_left fun entry _ ↦ Slot.listed_record entry
    rw [onRecords, exec_get_bind, hlist]
    rfl
  | isEmpty =>
    have hempty : ((table.records.filter Record.inUse).all fun record ↦
        record.isNamed dot || record.isNamed dotDot) = table.isEmpty := by
      rw [filter_inUse_records, List.all_map, Directory.isEmpty]
      congr 1
      funext entry
      exact congrArg₂ or (Slot.isNamed_record entry dot) (Slot.isNamed_record entry dotDot)
    rw [onRecords, exec_get_bind, hempty]
    rfl

end InPlace

end SectorFS
