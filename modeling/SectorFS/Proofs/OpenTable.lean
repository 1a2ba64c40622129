import SectorFS.OpenTable
import SectorFS.Proofs.File
import SectorFS.Proofs.Operation

namespace SectorFS

open Operation

def HandleCall.writes? (cursor : Nat) : HandleCall → Option (Bytes × Nat)
  | write data => some (data, cursor)
  | writeAt data pos => some (data, pos)
  | _ => none

namespace OpenFile

variable {opened left : OpenFile} {handle : Nat} {call : HandleCall} {slot : Option OpenFile}
  {reply : HandleReply} {host after : Host} {data : Bytes} {pos : Nat}

theorem answer_of_noted {α β : Type} {operation : Operation α} {event : α → Event} {f : α → β} {b : β}
    (h : (operation >>= fun a ↦ note (event a) >>= fun _ ↦ pure (f a)).run host = (.ok b, after)) :
    ∃ a, f a = b := by
  rw [run_bind] at h
  cases hrun : operation.run host with
  | mk outcome middle =>
    rw [hrun] at h
    cases outcome with
    | error error => exact absurd (congrArg Prod.fst h) nofun
    | ok a => exact ⟨a, Except.ok.inj (congrArg Prod.fst h)⟩

/-- What a call that is answered leaves in the slot of its file. -/
inductive Leaves (opened : OpenFile) : HandleCall → HandleReply → Option OpenFile → Prop
  | close : Leaves opened .close .done none
  | read (count : Nat) (bytes : Bytes) : Leaves opened (.read count) (.bytes bytes)
      (some { opened with cursor := opened.cursor + bytes.length })
  | write (data : Bytes) (count : Nat) : Leaves opened (.write data) (.number count)
      (some { opened with cursor := opened.cursor + count })
  | readAt (count pos : Nat) (bytes : Bytes) :
      Leaves opened (.readAt count pos) (.bytes bytes) (some opened)
  | writeAt (data : Bytes) (pos count : Nat) :
      Leaves opened (.writeAt data pos) (.number count) (some opened)
  | seek (pos : Nat) : Leaves opened (.seek pos) .done (some { opened with cursor := pos })
  | tell : Leaves opened .tell (.number opened.cursor) (some opened)

theorem leaves_of_call (h : (opened.call handle call).run host = (.ok (reply, slot), after)) :
    opened.Leaves call reply slot := by
  cases call with
  | close =>
    cases h
    exact .close
  | read count =>
    obtain ⟨bytes, ⟨⟩⟩ := answer_of_noted h
    exact .read count bytes
  | write data =>
    obtain ⟨count, ⟨⟩⟩ := answer_of_noted h
    exact .write data count
  | readAt count pos =>
    obtain ⟨bytes, ⟨⟩⟩ := answer_of_noted h
    exact .readAt count pos bytes
  | writeAt data pos =>
    obtain ⟨count, ⟨⟩⟩ := answer_of_noted h
    exact .writeAt data pos count
  | seek pos =>
    cases h
    exact .seek pos
  | tell =>
    cases h
    exact .tell

theorem slot_of_call (h : (opened.call handle call).run host = (.ok (reply, some left), after)) :
    ∃ cursor, left = { opened with cursor } := by
  cases leaves_of_call h <;> exact ⟨_, rfl⟩

theorem run_act_write (hf : host.device.faults = {}) (hon : opened.file.OnDevice host.device)
    (data : Bytes) (pos : Nat) : (act (opened.file.write data pos)).run host =
      (.ok (opened.file.extent pos data.length), { host with
        device := host.device.edit (opened.file.rewrites host.device data pos) }) := by
  rw [Operation.run_act, File.run_write hf hon]

/-- The slot after a call on a device that works: only lengths count for it. -/
def slotAfter (opened : OpenFile) : HandleCall → Option OpenFile
  | .close => none
  | .read count =>
    some { opened with cursor := opened.cursor + opened.file.extent opened.cursor count }
  | .write data =>
    some { opened with cursor := opened.cursor + opened.file.extent opened.cursor data.length }
  | .readAt .. | .writeAt .. | .tell => some opened
  | .seek pos => some { opened with cursor := pos }

theorem file_of_slotAfter (h : opened.slotAfter call = some left) : left.file = opened.file := by
  cases call with
  | close => contradiction
  | read | write | readAt | writeAt | seek | tell =>
    cases h
    rfl

def replyTo (opened : OpenFile) (device : Device) : HandleCall → HandleReply
  | .close | .seek _ => .done
  | .read count => .bytes (((opened.file.contents device).drop opened.cursor).take count)
  | .readAt count pos => .bytes (((opened.file.contents device).drop pos).take count)
  | .write data => .number (opened.file.extent opened.cursor data.length)
  | .writeAt data pos => .number (opened.file.extent pos data.length)
  | .tell => .number opened.cursor

def editsOf (opened : OpenFile) (device : Device) (call : HandleCall) : List Edit :=
  match call.writes? opened.cursor with
  | none => []
  | some (data, pos) => opened.file.rewrites device data pos

/-- A call on a device that works, as a whole. -/
theorem run_call_eq (handle : Nat) (hf : host.device.faults = {})
    (hon : opened.file.OnDevice host.device) (call : HandleCall) :
    ∃ log, (opened.call handle call).run host =
      (.ok (opened.replyTo host.device call, opened.slotAfter call),
        ⟨host.device.edit (opened.editsOf host.device call), log⟩) := by
  cases call with
  | read count =>
    have hread := File.read_eq hf hon count opened.cursor
    exact ⟨_, by
      rw [OpenFile.call, run_bind, run_query, hread, slotAfter, ← File.length_of_read hread]
      rfl⟩
  | readAt count pos =>
    exact ⟨_, by
      rw [OpenFile.call, run_bind, run_query, File.read_eq hf hon]
      rfl⟩
  | write data =>
    exact ⟨_, by rw [OpenFile.call, run_bind_of_ok (run_act_write hf hon _ _)]; rfl⟩
  | writeAt data pos =>
    exact ⟨_, by rw [OpenFile.call, run_bind_of_ok (run_act_write hf hon _ _)]; rfl⟩
  | close | seek pos | tell => exact ⟨_, rfl⟩

theorem replyTo_of_writes (h : call.writes? opened.cursor = some (data, pos)) (device : Device) :
    opened.replyTo device call = .number (opened.file.extent pos data.length) := by
  cases call with
  | write | writeAt => cases h; rfl
  | _ => contradiction

theorem fst_mem_of_mem_editsOf {device : Device} {edit : Edit}
    (h : edit ∈ opened.editsOf device call) : edit.1 ∈ opened.file.header.dataSectors := by
  unfold editsOf at h
  split at h
  · contradiction
  · exact File.fst_mem_of_mem_rewrites h

end OpenFile

namespace OpenTable

variable {table after : OpenTable} {handle other : Nat} {slot : Option OpenFile} {opened : OpenFile}
  {sector : UInt32} {host : Host}

theorem get?_set : (table.set handle slot).get? other =
    if handle = other ∧ handle < table.capacity then slot else table.get? other := by
  unfold get? set capacity
  rw [List.getElem?_set]
  by_cases h : handle = other
  · subst h
    by_cases hlt : handle < table.slots.length
    · simp [hlt]
    · simp [hlt]
  · simp [h]

theorem set_set (table : OpenTable) (handle : Nat) (slot other : Option OpenFile) :
    (table.set handle slot).set handle other = table.set handle other := by
  rw [set, set, List.set_set, set]

theorem set_of_get? (h : table.get? handle = some opened) :
    table.set handle (some opened) = table := by
  have hslot : table.slots[handle]? = some (some opened) := Option.join_eq_some_iff.1 h
  obtain ⟨hlt, hslot⟩ := List.getElem?_eq_some_iff.1 hslot
  rw [set, ← hslot, List.set_getElem_self hlt]

theorem get?_empty (capacity handle : Nat) : (empty capacity).get? handle = none := by
  unfold get? empty
  rw [List.getElem?_replicate]
  split <;> rfl

theorem mem_bindings : (handle, opened) ∈ table.bindings ↔ table.get? handle = some opened := by
  rw [get?, Option.join_eq_some_iff, bindings, List.mem_filterMap]
  constructor
  · rintro ⟨⟨slot, other⟩, hmem, hslot⟩
    obtain ⟨bound, rfl, heq⟩ := Option.map_eq_some_iff.1 hslot
    cases heq
    exact List.mem_zipIdx_iff_getElem?.1 hmem
  · intro h
    exact ⟨(some opened, handle), List.mem_zipIdx_iff_getElem?.2 h, rfl⟩

theorem find?_bindings (table : OpenTable) (handle : Nat) :
    table.bindings.find? (fun binding ↦ binding.1 == handle) =
      (table.get? handle).map fun opened ↦ (handle, opened) := by
  cases hfind : table.bindings.find? fun binding ↦ binding.1 == handle with
  | none =>
    cases hget : table.get? handle with
    | none => rfl
    | some opened =>
      have hne := List.find?_eq_none.1 hfind (handle, opened) (mem_bindings.2 hget)
      exact absurd (beq_self_eq_true handle) hne
  | some found =>
    have hself : found.1 = handle := by simpa using List.find?_some hfind
    have hget := mem_bindings.1 (List.mem_of_find?_eq_some hfind)
    rw [hself] at hget
    rw [hget, ← hself]
    rfl

theorem find?_list (table : OpenTable) (handle : Nat) :
    table.list.find? (fun listed ↦ listed.handle == handle) =
      (table.get? handle).map fun opened ↦
        ⟨handle, opened.sector, opened.name, opened.cursor, opened.file.length⟩ := by
  rw [list, List.find?_map]
  exact (congrArg _ (table.find?_bindings handle)).trans (Option.map_map ..)

theorem lt_capacity_of_get? (h : table.get? handle = some opened) : handle < table.capacity := by
  have hslot : table.slots[handle]? = some (some opened) := Option.join_eq_some_iff.1 h
  exact (List.getElem?_eq_some_iff.1 hslot).1

theorem get?_of_handleOf? (h : table.handleOf? sector = some handle) :
    ∃ opened, table.get? handle = some opened ∧ opened.sector = sector := by
  obtain ⟨hlt, hp, -⟩ := List.findIdx?_eq_some_iff_getElem.1 h
  cases hs : table.slots[handle] with
  | none => rw [hs] at hp; contradiction
  | some opened =>
    rw [hs] at hp
    refine ⟨opened, ?_, beq_iff_eq.1 hp⟩
    rw [get?, List.getElem?_eq_getElem hlt, hs]
    rfl

theorem sector_ne_of_handleOf? (h : table.handleOf? sector = none)
    (hget : table.get? handle = some opened) : opened.sector ≠ sector := by
  intro heq
  have hlt := lt_capacity_of_get? hget
  have hnone := List.findIdx?_eq_none_iff.1 h (table.slots[handle]) (List.getElem_mem hlt)
  rw [get?, List.getElem?_eq_getElem hlt] at hget
  have hslot : table.slots[handle] = some opened := hget
  rw [hslot] at hnone
  simp [heq] at hnone

theorem get?_of_firstFree? (h : table.firstFree? = some handle) : table.get? handle = none := by
  obtain ⟨hlt, hp, -⟩ := List.findIdx?_eq_some_iff_getElem.1 h
  rw [get?, List.getElem?_eq_getElem hlt, Option.isNone_iff_eq_none.1 hp]
  rfl

theorem lt_capacity_of_firstFree? (h : table.firstFree? = some handle) : handle < table.capacity :=
  (List.findIdx?_eq_some_iff_getElem.1 h).1

/-- Opening answers the handle that the sector had, or binds it to a handle that was free. -/
theorem openFile_ok {name : String} {load : Operation File} {loaded : Host}
    (h : (table.openFile name sector load).run host = (.ok (handle, after), loaded)) :
    (after = table ∧ ∃ opened, table.get? handle = some opened ∧ opened.sector = sector) ∨
      table.handleOf? sector = none ∧ ∃ file, (load.run host).1 = .ok file ∧
        table.get? handle = none ∧ handle < table.capacity ∧
          after = table.set handle (some ⟨sector, keptName name, 0, file⟩) := by
  unfold openFile at h
  cases hbound : table.handleOf? sector with
  | some bound =>
    simp only [hbound] at h
    cases h
    exact .inl ⟨rfl, get?_of_handleOf? hbound⟩
  | none =>
    simp only [hbound] at h
    cases hfree : table.firstFree? with
    | none =>
      simp only [hfree] at h
      exact absurd (congrArg Prod.fst h) nofun
    | some free =>
      simp only [hfree, run_bind] at h
      cases hload : load.run host with
      | mk outcome middle =>
        rw [hload] at h
        cases outcome with
        | error error => exact absurd (congrArg Prod.fst h) nofun
        | ok file =>
          cases h
          exact .inr ⟨rfl, file, rfl, get?_of_firstFree? hfree, lt_capacity_of_firstFree? hfree, rfl⟩

def afterCall (table : OpenTable) (handle : Nat) (call : HandleCall) : OpenTable :=
  match table.get? handle with
  | none => table
  | some opened => table.set handle (opened.slotAfter call)

theorem run_call (table : OpenTable) (handle : Nat) (call : HandleCall) (host : Host) :
    (table.call handle call).run host = match table.get? handle with
      | none => (.error (.invalidHandle handle),
          { host with log := host.log ++ [.badHandle handle call] })
      | some opened => match (opened.call handle call).run host with
        | (.error error, after) => (.error error, after)
        | (.ok (reply, slot), after) => (.ok (reply, table.set handle slot), after) := by
  unfold OpenTable.call
  cases table.get? handle with
  | none => rfl
  | some opened =>
    simp only [run_bind]
    cases (opened.call handle call).run host with
    | mk outcome after => cases outcome <;> rfl

theorem run_call_of_bound (hget : table.get? handle = some opened) (hf : host.device.faults = {})
    (hon : opened.file.OnDevice host.device) (call : HandleCall) :
    ∃ log, (table.call handle call).run host =
      (.ok (opened.replyTo host.device call, table.afterCall handle call),
        ⟨host.device.edit (opened.editsOf host.device call), log⟩) := by
  obtain ⟨log, hrun⟩ := opened.run_call_eq handle hf hon call
  refine ⟨log, ?_⟩
  rw [run_call, afterCall, hget]
  dsimp only
  rw [hrun]

end OpenTable

end SectorFS
