import Mathlib.Data.List.Induction
import SectorFS.Proofs.Directory.Shelf

namespace SectorFS

open Layout

namespace Guarded

def encodeRecord (record : Record) (raw : Bytes) : Guarded Bytes := do
  let raw ← copy raw 0 slotSize (Bytes.zeros slotSize)
  let raw ← set raw 0 (if record.inUse then 1 else 0)
  let raw ← set raw 1 record.kind.code
  let raw ← copy raw 2 (2 + maxNameLength + 1) record.name
  writeWord raw (slotSize - 4) record.sector

def encodeRecords (records : List Record) : Guarded Bytes := do
  return (← records.mapM fun record ↦ encodeRecord record (Bytes.zeros slotSize)).flatten

end Guarded

namespace InPlace

variable {σ : Type}

def decodeRecord (directory : UInt32) (raw : Bytes) : InPlace σ Record := do
  if (← Guarded.get raw 0) = 0 then return .null
  else
    let code ← Guarded.get raw 1
    match Kind.ofCode? code with
    | none => throw (.corruption directory (.entryKind code))
    | some kind =>
      let stored ← Guarded.copy (Bytes.zeros (maxNameLength + 1)) 0 (maxNameLength + 1)
        (← Guarded.slice raw 2 (2 + maxNameLength + 1))
      let stored ← Guarded.set stored maxNameLength 0
      let sector ← Guarded.readWord raw (slotSize - 4)
      Guarded.record kind sector stored

def decodeRecords (directory : UInt32) : (i more : Nat) → Bytes → InPlace (List Record) Unit
  | _, 0, _ => return ()
  | i, more + 1, bytes => do
    let record ← decodeRecord directory (← Guarded.slice bytes 0 slotSize)
    set (← Guarded.set (← get) i record)
    decodeRecords directory (i + 1) more (← Guarded.slice bytes slotSize bytes.length)

def fetchRecords (file : File) (device : Device) : InPlace (List Record) Unit := do
  let records ← get
  match file.read (records.length * slotSize) 0 device with
  | .error error => throw error
  | .ok bytes =>
    if bytes.length = records.length * slotSize then
      decodeRecords file.sector 0 records.length bytes
    else throw (.corruption file.sector
      (.directoryHolds bytes.length (records.length * slotSize)))

end InPlace

theorem Bytes.trimZeros_append_filling (bytes : Bytes) :
    bytes.trimZeros ++ zeros (bytes.length - bytes.trimZeros.length) = bytes := by
  induction bytes using List.reverseRecOn with
  | nil => rfl
  | append_singleton bytes byte ih =>
    rw [Guarded.trimZeros_concat]
    split
    · next hzero =>
      have hle := length_trimZeros_le bytes
      rw [List.length_append, List.length_singleton, Nat.sub_add_comm hle, zeros,
        List.replicate_succ', ← List.append_assoc, ← zeros, ih, hzero]
    · rw [Nat.sub_self]
      exact List.append_nil _

/-- The filling of a name that is read ends in one zero more than the nine bytes have. -/
theorem Guarded.storedName_entryOf {rest : Bytes} (h : maxNameLength < rest.length) (kind : Kind)
    (sector : UInt32) : Slot.storedName (some (entryOf rest kind sector)) =
      rest.take maxNameLength ++ [0] := by
  have hlen : (rest.take maxNameLength).length = maxNameLength := by
    rw [List.length_take, Nat.min_eq_left (Nat.le_of_lt h)]
  have hle := Bytes.length_trimZeros_le (rest.take maxNameLength)
  have hfilled := Bytes.trimZeros_append_filling (rest.take maxNameLength)
  rw [hlen] at hle hfilled
  change Bytes.trimZeros (rest.take maxNameLength) ++ Bytes.zeros (maxNameLength + 1 -
    (Bytes.trimZeros (rest.take maxNameLength)).length) = _
  rw [Nat.sub_add_comm hle, Bytes.zeros, List.replicate_succ', ← List.append_assoc, ← Bytes.zeros,
    hfilled]

/-- The last of the ten bytes of a name is set to zero, whatever was read there. -/
theorem Guarded.record_set_take {rest : Bytes} (h : maxNameLength < rest.length) (kind : Kind)
    (sector : UInt32) : record kind sector ((rest.take (maxNameLength + 1)).set maxNameLength 0) =
      .ok (Slot.record (some (entryOf rest kind sector))) := by
  have hlen : (rest.take maxNameLength).length = maxNameLength := by
    rw [List.length_take, Nat.min_eq_left (Nat.le_of_lt h)]
  have hset : (rest.take (maxNameLength + 1)).set maxNameLength 0 =
      rest.take maxNameLength ++ [0] := by
    rw [List.take_succ_eq_append_getElem h, List.set_append_right _ _ (Nat.le_of_eq hlen), hlen,
      Nat.sub_self, List.set_cons_zero]
  rw [hset, ← storedName_entryOf h kind sector]
  exact record_storedName (entryOf rest kind sector)

theorem Guarded.encodeRecord_eq (slot : Slot) :
    encodeRecord slot.record (Bytes.zeros slotSize) = .ok slot.encode :=
  encodeSlot_eq slot (Bytes.length_zeros _)

theorem Guarded.encodeRecords_eq (table : Directory) :
    encodeRecords table.records = .ok table.bytes := by
  have hparts : (table.records.mapM fun record ↦ encodeRecord record (Bytes.zeros slotSize)) =
      .ok (table.slots.map Slot.encode) := by
    rw [Directory.records, List.mapM_map]
    exact mapM_eq_ok fun slot _ ↦ encodeRecord_eq slot
  rw [encodeRecords, hparts, ok_bind, ← List.flatMap_def]
  rfl

namespace InPlace

variable {σ : Type} {directory : UInt32}

theorem exec_decodeRecord {raw : Bytes} (h : raw.length = slotSize) (s : σ) :
    (decodeRecord directory raw).exec s =
      .ok ((Slot.decode directory raw).map Slot.record, s) := by
  obtain ⟨flag, code, rest, rfl, hrest⟩ := Guarded.exists_fields h
  rw [decodeRecord, Slot.decode, exec_guarded (Guarded.get_eq_ok rfl)]
  by_cases hflag : flag = 0
  · rw [if_pos hflag, if_pos hflag]
    rfl
  · rw [if_neg hflag, if_neg hflag, exec_guarded (Guarded.get_eq_ok rfl)]
    cases Kind.ofCode? code with
    | none => rfl
    | some kind =>
      have htake : (rest.take (maxNameLength + 1)).length = maxNameLength + 1 := by
        rw [List.length_take, hrest]
        rfl
      dsimp only
      rw [exec_guarded (Guarded.slice_stored hrest), exec_guarded (Guarded.copy_stored htake),
        exec_guarded (Guarded.set_eq_ok (by rw [htake]; exact Nat.lt_succ_self _) 0),
        exec_guarded (Guarded.readWord_sector hrest), Guarded.record_set_take (by omega)]
      rfl

/-- Reading into records is reading into slots, up to where it stops. -/
theorem exec_decodeRecords {done rest : List Slot} {bytes : Bytes}
    (h : bytes.length = rest.length * slotSize) :
    (decodeRecords directory done.length rest.length bytes).exec
        (Directory.records ⟨done ++ rest⟩) =
      .ok ((Directory.decodeSlots directory rest bytes).2,
        Directory.records ⟨done ++ (Directory.decodeSlots directory rest bytes).1⟩) := by
  -- The slots before the index are read already, those from it on are still the old ones.
  induction rest generalizing done bytes with
  | nil => rfl
  | cons slot rest ih =>
    rw [List.length_cons, Nat.succ_mul] at h
    have hraw : (bytes.take slotSize).length = slotSize := by
      rw [List.length_take]
      omega
    have hmore : (bytes.drop slotSize).length = rest.length * slotSize := by
      rw [List.length_drop]
      omega
    have hindex : done.length < (Directory.records ⟨done ++ slot :: rest⟩).length := by
      rw [length_records, List.length_append, List.length_cons]
      omega
    have hset : ∀ decoded : Slot,
        (Directory.records ⟨done ++ slot :: rest⟩).set done.length decoded.record =
          Directory.records ⟨(done ++ [decoded]) ++ rest⟩ := fun decoded ↦ by
      rw [set_records, List.set_append_right _ _ (Nat.le_refl _), Nat.sub_self, List.set_cons_zero,
        List.append_assoc, List.singleton_append]
    have hslice : Guarded.slice bytes slotSize bytes.length = .ok (bytes.drop slotSize) := by
      rw [Guarded.slice_eq_ok (by omega) (Nat.le_refl _), ← List.length_drop, List.take_length]
    rw [List.length_cons, decodeRecords, exec_guarded (Guarded.slice_zero (by omega)),
      Directory.decodeSlots]
    cases hdecode : Slot.decode directory (bytes.take slotSize) with
    | error error =>
      refine exec_bind_error ?_
      rw [exec_decodeRecord hraw, hdecode]
      rfl
    | ok decoded =>
      have hrecord : (decodeRecord directory (bytes.take slotSize)).exec
          (Directory.records ⟨done ++ slot :: rest⟩) =
            .ok (.ok decoded.record, Directory.records ⟨done ++ slot :: rest⟩) := by
        rw [exec_decodeRecord hraw, hdecode]
        rfl
      have hnext := @ih (done ++ [decoded]) _ hmore
      rw [List.length_append, List.length_singleton,
        List.append_assoc _ _ (Directory.decodeSlots _ _ _).1] at hnext
      rw [exec_bind_ok hrecord, exec_get_bind, exec_guarded (Guarded.set_eq_ok hindex _), hset]
      refine (exec_bind_ok rfl).trans ?_
      rw [exec_guarded hslice, hnext]
      rfl

theorem exec_fetchRecords (table : Directory) (file : File) (device : Device) :
    (fetchRecords file device).exec table.records =
      .ok ((table.fetch file device).2, (table.fetch file device).1.records) := by
  have hsize : table.records.length * slotSize = table.size :=
    congrArg (· * slotSize) (length_records table)
  rw [fetchRecords, exec_get_bind, Directory.fetch, hsize]
  cases file.read table.size 0 device with
  | error error => rfl
  | ok bytes =>
    dsimp only
    by_cases hlen : bytes.length = table.size
    · have hdecode := @exec_decodeRecords file.sector [] table.slots bytes hlen
      rw [if_pos hlen, if_pos hlen, length_records]
      exact hdecode
    · rw [if_neg hlen, if_neg hlen]
      rfl

end InPlace

namespace Directory

inductive Held : List Record → Prop
  | made {capacity : Nat} {records : List Record} (h : Starts capacity records) : Held records
  | served {records after : List Record} {request : Request} {outcome : Except Error Reply}
      (h : Held records)
      (hexec : (InPlace.onRecords request).exec records = .ok (outcome, after)) : Held after
  | fetched {records after : List Record} {file : File} {device : Device}
      {outcome : Except Error Unit} (h : Held records)
      (hexec : (InPlace.fetchRecords file device).exec records = .ok (outcome, after)) : Held after

theorem Held.exists_table {records : List Record} (h : Held records) :
    ∃ table : Directory, table.records = records := by
  induction h with
  | made h =>
    obtain ⟨table, -, hrecords⟩ := h.exists_table
    exact ⟨table, hrecords⟩
  | @served _ _ request _ _ hexec ih =>
    obtain ⟨table, rfl⟩ := ih
    rw [InPlace.exec_onRecords] at hexec
    exact ⟨_, (Prod.mk.inj (Except.ok.inj hexec)).2⟩
  | @fetched _ _ file device _ _ hexec ih =>
    obtain ⟨table, rfl⟩ := ih
    rw [InPlace.exec_fetchRecords] at hexec
    exact ⟨_, (Prod.mk.inj (Except.ok.inj hexec)).2⟩

end Directory

end SectorFS
