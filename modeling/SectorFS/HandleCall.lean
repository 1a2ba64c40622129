import SectorFS.Bytes

namespace SectorFS

inductive HandleCall
  | close
  | read (count : Nat)
  | write (data : Bytes)
  | readAt (count pos : Nat)
  | writeAt (data : Bytes) (pos : Nat)
  | seek (pos : Nat)
  | tell
  deriving DecidableEq, Repr

def HandleCall.name : HandleCall → String
  | .close => "close"
  | .read _ => "read"
  | .write _ => "write"
  | .readAt .. => "read_at"
  | .writeAt .. => "write_at"
  | .seek _ => "seek"
  | .tell => "tell"

inductive HandleReply
  | done
  | bytes (bytes : Bytes)
  | number (n : Nat)
  deriving DecidableEq, Repr

end SectorFS
