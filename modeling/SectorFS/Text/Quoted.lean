import SectorFS.Text.Extending
import SectorFS.Text.Ignorable
import SectorFS.Text.Unprintable

namespace SectorFS.Text.Quoted

/-- Whether a run of the list holds `n`. The runs are in increasing order, so the search stops at
the first one that starts above `n`. -/
def covers : List (Nat × Nat) → Nat → Bool
  | [], _ => false
  | (first, last) :: rest, n => if n < first then false else n ≤ last || covers rest n

def isHidden (c : Char) : Bool :=
  covers Unprintable.ranges c.toNat || covers Ignorable.ranges c.toNat ||
    covers Extending.ranges c.toNat

def hex (n : Nat) : String := String.ofList (Nat.toDigits 16 n)

def escape (c : Char) : String :=
  if c = '\x00' then "\\0"
  else if c = '\t' then "\\t"
  else if c = '\n' then "\\n"
  else if c = '\r' then "\\r"
  else if c = '"' then "\\\""
  else if c = '\\' then "\\\\"
  else if isHidden c then "\\u\x7b" ++ hex c.toNat ++ "\x7d"
  else c.toString

def quote (text : String) : String :=
  "\"" ++ String.join (text.toList.map escape) ++ "\""

end SectorFS.Text.Quoted
