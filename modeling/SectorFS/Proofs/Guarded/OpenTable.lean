import SectorFS.Proofs.Guarded.File
import SectorFS.Proofs.Guarded.Text
import SectorFS.Proofs.OpenTable

namespace SectorFS

open Layout

structure OpenTable.Bounded (table : OpenTable) : Prop where
  capacity : table.capacity = maxOpenFiles
  cursor : ∀ opened, some opened ∈ table.slots → opened.cursor < wordLimit

def HandleCall.Fits : HandleCall → Prop
  | .seek pos => pos < wordLimit
  | _ => True

instance : DecidablePred HandleCall.Fits
  | .seek pos => inferInstanceAs (Decidable (pos < wordLimit))
  | .close | .read _ | .write _ | .readAt .. | .writeAt .. | .tell => isTrue trivial

namespace Guarded

def openHandle (table : OpenTable) (name : String) (sector : UInt32) :
    Program (Nat × OpenTable) := do
  match table.handleOf? sector with
  | some handle =>
    Program.say [.alreadyOpen name handle]
    return (handle, table)
  | none =>
    match table.firstFree? with
    | none =>
      Program.say [.tableFull table.capacity]
      .fail (.capacityExceeded .openTableFull)
    | some index =>
      let file ← openFile sector
      let slots ← set table.slots index (some ⟨sector, ← shortName name, 0, file⟩)
      Program.say [.opened name index sector]
      return (index, ⟨slots⟩)

def callFile (opened : OpenFile) (handle : Nat) :
    HandleCall → Program (HandleReply × Option OpenFile)
  | .close => do
    Program.say [.closed opened.name handle]
    return (.done, none)
  | .read count => do
    let bytes ← readBytes opened.file count opened.cursor
    let cursor ← add opened.cursor bytes.length
    Program.say [.bytesRead bytes.length opened.name handle]
    return (.bytes bytes, some { opened with cursor })
  | .write data => do
    let count ← writeAt opened.file data opened.cursor
    let cursor ← add opened.cursor count
    Program.say [.bytesWritten count opened.name handle]
    return (.number count, some { opened with cursor })
  | .readAt count pos => do
    let bytes ← readBytes opened.file count pos
    Program.say [.bytesReadAt bytes.length opened.name pos handle]
    return (.bytes bytes, some opened)
  | .writeAt data pos => do
    let count ← writeAt opened.file data pos
    Program.say [.bytesWrittenAt count opened.name pos handle]
    return (.number count, some opened)
  | .seek pos => return (.done, some { opened with cursor := pos })
  | .tell => return (.number opened.cursor, some opened)

def callHandle (table : OpenTable) (handle : Nat) (call : HandleCall) :
    Program (HandleReply × OpenTable) := do
  match table.get? handle with
  | none =>
    Program.say [.badHandle handle call]
    .fail (.invalidHandle handle)
  | some opened =>
    let (reply, slot) ← callFile opened handle call
    return (reply, ⟨← set table.slots handle slot⟩)

def closeSlots : List (Option OpenFile) → (index closed : Nat) → Program Nat
  | [], _, closed => return closed
  | none :: rest, index, closed => closeSlots rest (index + 1) closed
  | some opened :: rest, index, closed => do
    Program.say [.closing opened.name index]
    closeSlots rest (index + 1) (← add closed 1)

def closeAll (table : OpenTable) : Program (Nat × OpenTable) := do
  let closed ← closeSlots table.slots 0 0
  Program.say [.closedAll closed]
  return (closed, .empty table.capacity)

variable {table : OpenTable} {opened : OpenFile} {handle : Nat} {call : HandleCall}

theorem bounded_empty : (OpenTable.empty maxOpenFiles).Bounded :=
  ⟨List.length_replicate, fun _ h ↦ nomatch List.eq_of_mem_replicate h⟩

theorem bounded_set (h : table.Bounded) {slot : Option OpenFile}
    (hslot : ∀ opened, slot = some opened → opened.cursor < wordLimit) :
    (table.set handle slot).Bounded := by
  refine ⟨(List.length_set ..).trans h.capacity, fun opened hmem ↦ ?_⟩
  rcases List.mem_or_eq_of_mem_set hmem with hold | hnew
  · exact h.cursor opened hold
  · exact hslot opened hnew.symm

theorem follows_openHandle (h : table.Bounded) (name : String) (sector : UInt32) :
    (openHandle table name sector).Follows
      (table.openFile name sector (Operation.query (·.openFile sector)))
      fun (_, table) ↦ table.Bounded := by
  rw [openHandle, OpenTable.openFile]
  cases table.handleOf? sector with
  | some handle =>
    exact Program.Follows.bind (Program.follows_say _) fun _ _ ↦ Program.follows_pure h
  | none =>
    cases hfree : table.firstFree? with
    | none => exact Program.Follows.bind (Program.follows_say _) fun _ _ ↦ Program.follows_fail _
    | some index =>
      have hlt := OpenTable.lt_capacity_of_firstFree? hfree
      refine Program.Follows.bind (asks_openFile sector) fun file _ ↦ ?_
      rw [Program.guarded_bind (shortName_eq name), Program.guarded_bind (set_eq_ok hlt _)]
      refine Program.Follows.bind (Program.follows_say _) fun _ _ ↦
        Program.follows_pure (bounded_set h fun opened hopened ↦ ?_)
      cases hopened
      exact Nat.two_pow_pos 64

/-- A cursor cannot leave the machine's words. -/
theorem cursor_add {count : Nat} (h : opened.cursor < wordLimit)
    (hcount : count ≤ opened.file.length - opened.cursor) : opened.cursor + count < wordLimit := by
  have hlen := length_le opened.file
  simp only [wordLimit, maxFileSize, numDirect, sectorSize] at *
  omega

theorem follows_callFile (h : opened.cursor < wordLimit) (hfits : call.Fits) :
    (callFile opened handle call).Follows (opened.call handle call)
      fun (_, slot) ↦ ∀ opened, slot = some opened → opened.cursor < wordLimit := by
  have hkept : ∀ other, some opened = some other → other.cursor < wordLimit := by
    rintro _ ⟨⟩
    exact h
  cases call with
  | close =>
    exact Program.Follows.bind (Program.follows_say _) fun _ _ ↦ Program.follows_pure nofun
  | read count =>
    -- The cursor may be anywhere; past the end of the file it does not move.
    refine Program.Follows.bind (asks_readBytes opened.file count opened.cursor) fun bytes hbytes ↦ ?_
    have hcursor : opened.cursor + bytes.length < wordLimit :=
      cursor_add h (hbytes ▸ Nat.min_le_right _ _)
    rw [Program.guarded_bind (add_eq_ok hcursor)]
    refine Program.Follows.bind (Program.follows_say _) fun _ _ ↦ Program.follows_pure ?_
    rintro _ ⟨⟩
    exact hcursor
  | write data =>
    refine Program.Follows.bind (acts_writeAt opened.file data opened.cursor) fun count hcount ↦ ?_
    have hcursor : opened.cursor + count < wordLimit :=
      cursor_add h (hcount ▸ Nat.min_le_right _ _)
    rw [Program.guarded_bind (add_eq_ok hcursor)]
    refine Program.Follows.bind (Program.follows_say _) fun _ _ ↦ Program.follows_pure ?_
    rintro _ ⟨⟩
    exact hcursor
  | readAt count pos =>
    exact Program.Follows.bind (asks_readBytes opened.file count pos) fun _ _ ↦
      Program.Follows.bind (Program.follows_say _) fun _ _ ↦ Program.follows_pure hkept
  | writeAt data pos =>
    exact Program.Follows.bind (acts_writeAt opened.file data pos) fun _ _ ↦
      Program.Follows.bind (Program.follows_say _) fun _ _ ↦ Program.follows_pure hkept
  | seek pos =>
    refine Program.follows_pure ?_
    rintro _ ⟨⟩
    exact hfits
  | tell => exact Program.follows_pure hkept

theorem follows_callHandle (h : table.Bounded) (hfits : call.Fits) :
    (callHandle table handle call).Follows (table.call handle call)
      fun (_, table) ↦ table.Bounded := by
  rw [callHandle, OpenTable.call]
  cases hopened : table.get? handle with
  | none => exact Program.Follows.bind (Program.follows_say _) fun _ _ ↦ Program.follows_fail _
  | some opened =>
    have hlt := OpenTable.lt_capacity_of_get? hopened
    have hmem : some opened ∈ table.slots := List.mem_of_getElem? (Option.join_eq_some_iff.1 hopened)
    refine Program.Follows.bind (follows_callFile (h.cursor opened hmem) hfits)
      fun (reply, slot) hslot ↦ ?_
    dsimp only
    rw [Program.guarded_bind (set_eq_ok hlt slot)]
    exact Program.follows_pure (bounded_set h hslot)

open Operation in
theorem follows_closeSlots {slots : List (Option OpenFile)} {closed : Nat}
    (h : closed + slots.length < wordLimit) (index : Nat) :
    (closeSlots slots index closed).Follows
      (notes (((slots.zipIdx index).filterMap fun (slot, handle) ↦
        slot.map fun opened ↦ (handle, opened)).map fun (handle, opened) ↦
          .closing opened.name handle) >>= fun _ ↦
        pure (closed + slots.countP Option.isSome))
      fun _ ↦ True := by
  induction slots generalizing index closed with
  | nil =>
    rw [List.zipIdx_nil, List.filterMap_nil, List.map_nil, notes_nil, pure_bind]
    exact Program.follows_pure trivial
  | cons slot rest ih =>
    rw [List.length_cons] at h
    rw [List.zipIdx_cons, List.countP_cons]
    cases slot with
    | none => exact ih (by omega) (index + 1)
    | some opened =>
      have hrest := @ih (closed + 1) (by omega) (index + 1)
      rw [Nat.add_assoc, Nat.add_comm 1] at hrest
      change (closeSlots (some opened :: rest) index closed).Follows
        (notes ([.closing opened.name index] ++ List.map _ (List.filterMap _ _)) >>= fun _ ↦
          pure (closed + (rest.countP Option.isSome + 1))) _
      rw [notes_append, bind_assoc]
      refine Program.Follows.bind (Program.follows_say _) fun _ _ ↦ ?_
      rw [Program.guarded_bind (add_eq_ok (by omega))]
      exact hrest

open Operation in
theorem follows_closeAll (h : table.Bounded) :
    (closeAll table).Follows table.closeAll fun (_, table) ↦ table.Bounded := by
  have hclose : table.closeAll = (notes (table.bindings.map fun (handle, opened) ↦
      .closing opened.name handle) >>= fun _ ↦ pure (0 + table.slots.countP Option.isSome)) >>=
        fun closed ↦ note (.closedAll closed) >>= fun _ ↦
          pure (closed, OpenTable.empty table.capacity) := by
    rw [bind_assoc, Nat.zero_add]
    rfl
  have hlength : 0 + table.slots.length < wordLimit := by
    rw [Nat.zero_add, show table.slots.length = maxOpenFiles from h.capacity]
    decide
  rw [hclose]
  refine Program.Follows.bind (follows_closeSlots hlength 0) fun closed _ ↦ ?_
  refine Program.Follows.bind (Program.follows_say _) fun _ _ ↦ Program.follows_pure ?_
  rw [h.capacity]
  exact bounded_empty

end Guarded

end SectorFS
