import SectorFS.Directory.Entry

namespace SectorFS

open Layout

structure ListedEntry where
  name : String
  sector : UInt32
  kind : Kind
  deriving DecidableEq, Repr

structure Directory where
  slots : List Slot
  deriving DecidableEq, Repr

namespace Directory

def empty (capacity : Nat) : Directory := ⟨List.replicate capacity none⟩

def capacity (directory : Directory) : Nat := directory.slots.length

def entries (directory : Directory) : List Entry := directory.slots.filterMap id

def find? (directory : Directory) (name : String) : Option Entry :=
  directory.entries.find? fun entry ↦ entry.isNamed name

def fillFirst? (entry : Entry) : List Slot → Option (List Slot)
  | [] => none
  | none :: rest => some (some entry :: rest)
  | some other :: rest => (fillFirst? entry rest).map (some other :: ·)

def eraseFirst? (name : String) : List Slot → Option (List Slot)
  | [] => none
  | none :: rest => (eraseFirst? name rest).map (none :: ·)
  | some entry :: rest =>
    if entry.isNamed name then some (none :: rest)
    else (eraseFirst? name rest).map (some entry :: ·)

def add (directory : Directory) (name : String) (sector : UInt32) (kind : Kind) :
    Except Error Directory := do
  let entry ← Entry.make name sector kind
  if (directory.find? name).isSome then throw (.alreadyExists name)
  match fillFirst? entry directory.slots with
  | none => throw (.capacityExceeded .directoryFull)
  | some slots => return ⟨slots⟩

def remove (directory : Directory) (name : String) : Except Error Directory :=
  match eraseFirst? name directory.slots with
  | none => .error (.notFound name)
  | some slots => .ok ⟨slots⟩

def linked (capacity : Nat) (self parent : UInt32) : Except Error Directory := do
  let directory ← (empty capacity).add dot self .directory
  directory.add dotDot parent .directory

def list (directory : Directory) : List ListedEntry :=
  directory.entries.map fun entry ↦ ⟨entry.label, entry.sector, entry.kind⟩

def isEmpty (directory : Directory) : Bool :=
  directory.entries.all fun entry ↦ entry.isNamed dot || entry.isNamed dotDot

end Directory

end SectorFS
