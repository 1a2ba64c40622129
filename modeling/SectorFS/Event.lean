import SectorFS.Directory.Entry
import SectorFS.FreeMap
import SectorFS.HandleCall

namespace SectorFS

open Text.Quoted (quote)

inductive Level
  | info
  | warn
  | debug
  deriving DecidableEq, Repr

def Level.name : Level → String
  | .info => "INFO"
  | .warn => "WARN"
  | .debug => "DEBUG"

inductive Event
  | formatting
  | writingHeaders
  | writingTables
  | laidOut (map : FreeMap)
  | mounted
  | allocated (numBytes : Nat) (sectors : List UInt32)
  | created (path : String) (sector : UInt32) (kind : Kind) (size : Nat)
  | createFailed (kind : Kind) (path : String) (error : Error)
  | removingOpen (path : String)
  | removed (path : String) (sector : UInt32)
  | removeFailed (path : String) (error : Error)
  | entered (path : String) (sector : UInt32)
  | enterFailed (path : String) (error : Error)
  | listed (name : String)
  | printed (text : String)
  | touching (note : String)
  | wouldModify (name : String) (handle : Nat)
  | openFailed (path : String) (error : Error)
  | alreadyOpen (name : String) (handle : Nat)
  | tableFull (capacity : Nat)
  | opened (name : String) (handle : Nat) (sector : UInt32)
  | badHandle (handle : Nat) (call : HandleCall)
  | closed (name : String) (handle : Nat)
  | closing (name : String) (handle : Nat)
  | closedAll (count : Nat)
  | bytesRead (count : Nat) (name : String) (handle : Nat)
  | bytesWritten (count : Nat) (name : String) (handle : Nat)
  | bytesReadAt (count : Nat) (name : String) (pos handle : Nat)
  | bytesWrittenAt (count : Nat) (name : String) (pos handle : Nat)
  deriving DecidableEq, Repr

namespace Event

def level : Event → Level
  | formatting | mounted | created .. | removed .. | entered .. | touching _ | wouldModify ..
  | alreadyOpen .. | opened .. | closed .. | closedAll _ => .info
  | createFailed .. | removingOpen _ | removeFailed .. | enterFailed .. | openFailed ..
  | tableFull _ | badHandle .. => .warn
  | writingHeaders | writingTables | laidOut _ | allocated .. | listed _ | printed _ | closing ..
  | bytesRead .. | bytesWritten .. | bytesReadAt .. | bytesWrittenAt .. => .debug

def bracketed (sectors : List UInt32) : String :=
  "[" ++ ", ".intercalate (sectors.map fun s ↦ toString s.toNat) ++ "]"

def message : Event → String
  | formatting => "formatting the file system"
  | writingHeaders => "writing headers back to disk"
  | writingTables => "writing bitmap and directory back to disk"
  | laidOut map => map.render
  | mounted => "mounted the file system"
  | allocated n sectors => s!"allocated {n} bytes in sectors {bracketed sectors}"
  | created path sector kind size =>
    s!"created {quote path} at sector {sector.toNat} ({kind.name}, {size} bytes)"
  | createFailed .regular path error => s!"create {quote path} failed: {error.message}"
  | createFailed .directory path error =>
    s!"create directory {quote path} failed: {error.message}"
  | removingOpen path => s!"removing {quote path} while it is still open"
  | removed path sector => s!"removed {quote path} (sector {sector.toNat})"
  | removeFailed path error => s!"remove {quote path} failed: {error.message}"
  | entered path sector => s!"changed to directory {quote path} (sector {sector.toNat})"
  | enterFailed path error => s!"change directory to {quote path} failed: {error.message}"
  | listed name => name
  | printed text => text
  | touching note => s!"touch opened files: {note}"
  | wouldModify name handle => s!" - '{name}' (handle {handle}) would be modified"
  | openFailed path error => s!"open {quote path} failed: {error.message}"
  | alreadyOpen name handle => s!"'{name}' is already open (handle {handle})"
  | tableFull capacity => s!"open file table is full (max {capacity} files)"
  | opened name handle sector => s!"'{name}' opened (handle {handle}, sector {sector.toNat})"
  | badHandle handle call => s!"invalid file handle {handle} for {call.name}"
  | closed name handle => s!"closed '{name}' (handle {handle})"
  | closing name handle => s!"closing '{name}' (handle {handle})"
  | closedAll n => s!"closed {n} open files"
  | bytesRead n name handle => s!"read {n} bytes from '{name}' (handle {handle})"
  | bytesWritten n name handle => s!"wrote {n} bytes to '{name}' (handle {handle})"
  | bytesReadAt n name pos handle =>
    s!"read {n} bytes from '{name}' at {pos} (handle {handle})"
  | bytesWrittenAt n name pos handle =>
    s!"wrote {n} bytes to '{name}' at {pos} (handle {handle})"

def line (event : Event) : String := event.level.name ++ " " ++ event.message

end Event

end SectorFS
