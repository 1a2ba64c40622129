import SectorFS.Directory.Stored

namespace SectorFS.Path

open Layout

def pieces : List Char → List (List Char)
  | [] => [[]]
  | c :: rest =>
    if c = separator then [] :: pieces rest
    else match pieces rest with
      | piece :: more => (c :: piece) :: more
      | [] => [[c]]

def isAbsolute (path : String) : Bool := path.toList.head? == some separator

def components (path : String) : List String :=
  ((pieces path.toList).filter fun piece ↦ !piece.isEmpty).map String.ofList

/-- The path up to its final component, and that component. Separators at the end do not count;
the text is looked at from its end, so both parts come out reversed. -/
def splitParent (path : String) : Except Error (String × String) :=
  let trimmed := path.toList.reverse.dropWhile (· == separator)
  let leaf := String.ofList (trimmed.takeWhile (· != separator)).reverse
  match trimmed, trimmed.dropWhile (· != separator) with
  | [], _ => .error (.invalidArgument (.noFinalComponent path))
  | _, [] => .ok ("", leaf)
  | _, [_] => .ok (separator.toString, leaf)
  | _, _ :: parent => .ok (String.ofList parent.reverse, leaf)

def enter (device : Device) (directory : UInt32) (name : String) : Except Error UInt32 := do
  let (_, table) ← device.openDirectory directory
  match table.find? name with
  | none => throw (.notFound name)
  | some entry =>
    match entry.kind with
    | .regular => throw (.notDirectory name)
    | .directory => return entry.sector

def resolve (start : UInt32) (path : String) (device : Device) : Except Error UInt32 :=
  (components path).foldlM (enter device) (if isAbsolute path then rootSector else start)

end SectorFS.Path
