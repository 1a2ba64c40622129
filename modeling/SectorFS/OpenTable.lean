import SectorFS.File
import SectorFS.Operation

namespace SectorFS

open Operation

structure OpenFile where
  sector : UInt32
  name : String
  cursor : Nat
  file : File
  deriving DecidableEq, Repr

structure ListedFile where
  handle : Nat
  sector : UInt32
  name : String
  cursor : Nat
  length : Nat
  deriving DecidableEq, Repr

/-- Carries out a call on an open file and answers with the slot after it. Reading and writing at
the cursor moves it by what was transferred; a cursor can be set past the end of the file. -/
def OpenFile.call (opened : OpenFile) (handle : Nat) :
    HandleCall → Operation (HandleReply × Option OpenFile)
  | .close => do
    note (.closed opened.name handle)
    return (.done, none)
  | .read count => do
    let bytes ← query (opened.file.read count opened.cursor)
    note (.bytesRead bytes.length opened.name handle)
    return (.bytes bytes, some { opened with cursor := opened.cursor + bytes.length })
  | .write data => do
    let count ← act (opened.file.write data opened.cursor)
    note (.bytesWritten count opened.name handle)
    return (.number count, some { opened with cursor := opened.cursor + count })
  | .readAt count pos => do
    let bytes ← query (opened.file.read count pos)
    note (.bytesReadAt bytes.length opened.name pos handle)
    return (.bytes bytes, some opened)
  | .writeAt data pos => do
    let count ← act (opened.file.write data pos)
    note (.bytesWrittenAt count opened.name pos handle)
    return (.number count, some opened)
  | .seek pos => return (.done, some { opened with cursor := pos })
  | .tell => return (.number opened.cursor, some opened)

structure OpenTable where
  slots : List (Option OpenFile)
  deriving DecidableEq, Repr

namespace OpenTable

def empty (capacity : Nat) : OpenTable := ⟨List.replicate capacity none⟩

def capacity (table : OpenTable) : Nat := table.slots.length

def size (table : OpenTable) : Nat := table.slots.countP Option.isSome

def isEmpty (table : OpenTable) : Bool := table.size == 0

def get? (table : OpenTable) (handle : Nat) : Option OpenFile := table.slots[handle]?.join

def set (table : OpenTable) (handle : Nat) (slot : Option OpenFile) : OpenTable :=
  ⟨table.slots.set handle slot⟩

def isValid (table : OpenTable) (handle : Nat) : Bool := (table.get? handle).isSome

def handleOf? (table : OpenTable) (sector : UInt32) : Option Nat :=
  table.slots.findIdx? fun slot ↦ slot.any fun opened ↦ opened.sector == sector

def firstFree? (table : OpenTable) : Option Nat := table.slots.findIdx? Option.isNone

/-- The longest run of whole characters from the start that fits into so many bytes. -/
def fitting : (room : Nat) → List Char → List Char
  | _, [] => []
  | room, c :: rest =>
    if c.utf8Size ≤ room then c :: fitting (room - c.utf8Size) rest else []

def keptName (name : String) : String :=
  String.ofList (fitting Layout.openNameLength name.toList)

/-- Binds `sector` to the first free slot. The file is loaded only when a slot is free and the
sector is not bound. -/
def openFile (table : OpenTable) (name : String) (sector : UInt32) (load : Operation File) :
    Operation (Nat × OpenTable) := do
  match table.handleOf? sector with
  | some handle =>
    note (.alreadyOpen name handle)
    return (handle, table)
  | none =>
    match table.firstFree? with
    | none =>
      note (.tableFull table.capacity)
      throw (.capacityExceeded .openTableFull)
    | some handle =>
      let file ← load
      note (.opened name handle sector)
      return (handle, table.set handle (some ⟨sector, keptName name, 0, file⟩))

def call (table : OpenTable) (handle : Nat) (call : HandleCall) :
    Operation (HandleReply × OpenTable) := do
  match table.get? handle with
  | none =>
    note (.badHandle handle call)
    throw (.invalidHandle handle)
  | some opened =>
    let (reply, slot) ← opened.call handle call
    return (reply, table.set handle slot)

def bindings (table : OpenTable) : List (Nat × OpenFile) :=
  table.slots.zipIdx.filterMap fun (slot, handle) ↦ slot.map fun opened ↦ (handle, opened)

def closeAll (table : OpenTable) : Operation (Nat × OpenTable) := do
  notes (table.bindings.map fun (handle, opened) ↦ .closing opened.name handle)
  note (.closedAll table.size)
  return (table.size, empty table.capacity)

def list (table : OpenTable) : List ListedFile :=
  table.bindings.map fun (handle, opened) ↦
    ⟨handle, opened.sector, opened.name, opened.cursor, opened.file.length⟩

end OpenTable

end SectorFS
