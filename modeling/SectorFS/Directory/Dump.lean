import SectorFS.Directory
import SectorFS.Header.Dump

namespace SectorFS

def Kind.word : Kind → String
  | .regular => "file"
  | .directory => "dir"

def Entry.render (entry : Entry) (device : Device) : Except Error String := do
  let line := s!"Name: {entry.label}, Sector: {entry.sector.toNat}, Type: {entry.kind.word}\n"
  match entry.kind with
  | .directory => return line
  | .regular => return line ++ (← (← device.readHeader entry.sector).render device)

def Directory.render (directory : Directory) (device : Device) : Except Error String := do
  let parts ← directory.entries.mapM fun entry ↦ entry.render device
  return "Directory contents:\n" ++ String.join parts

end SectorFS
