import SectorFS.Device

/-!
Entries of a directory, and the sixteen bytes of the slot that stores one: a flag, the kind, the
name in ten bytes filled up with zeros, and the sector of the header. A free slot stores the flag
zero. The tenth byte of a name is never read, so a name has at most nine bytes; it does not end in
a zero byte, so the filling can be told from it.
-/

namespace SectorFS

open Layout

inductive Kind
  | regular
  | directory
  deriving DecidableEq, Repr

namespace Kind

def code : Kind → UInt8
  | regular => 1
  | directory => 2

def ofCode? (code : UInt8) : Option Kind :=
  if code = 1 then some regular else if code = 2 then some directory else none

def name : Kind → String
  | regular => "Regular"
  | directory => "Directory"

theorem ofCode?_code (kind : Kind) : ofCode? kind.code = some kind := by cases kind <;> rfl

end Kind

structure Entry where
  name : Bytes
  length_name : name.length ≤ maxNameLength
  getLast?_name : name.getLast? ≠ some 0
  kind : Kind
  /-- Where the header of the file is stored. -/
  sector : UInt32
  deriving DecidableEq, Repr

namespace Entry

/-- An entry under a name that a caller chose: one to nine bytes, without the separator and without
zero bytes. -/
def make (name : String) (sector : UInt32) (kind : Kind) : Except Error Entry :=
  let bytes := Bytes.ofText name
  if hlen : 1 ≤ bytes.length ∧ bytes.length ≤ maxNameLength then
    if hchars : separator ∈ name.toList ∨ 0 ∈ bytes then
      .error (.invalidArgument (.reservedCharacter name))
    else
      .ok {
        name := bytes
        length_name := hlen.2
        getLast?_name := fun h ↦ hchars (.inr (List.mem_of_getLast? h))
        kind := kind
        sector := sector }
  else .error (.invalidArgument (.badNameLength name))

def isNamed (entry : Entry) (name : String) : Bool := entry.name == Bytes.ofText name

/-- The name as a text; a name that is no UTF-8 shows as a question mark. -/
def label (entry : Entry) : String := entry.name.toText?.getD "?"

end Entry

abbrev Slot := Option Entry

namespace Slot

def name (slot : Slot) : Bytes := slot.elim [] Entry.name

def kind (slot : Slot) : Kind := slot.elim .regular Entry.kind

def sector (slot : Slot) : UInt32 := slot.elim 0 Entry.sector

def storedName (slot : Slot) : Bytes :=
  slot.name ++ Bytes.zeros (maxNameLength + 1 - slot.name.length)

def encode (slot : Slot) : Bytes :=
  (if slot.isSome then 1 else 0) :: slot.kind.code :: (slot.storedName ++ Bytes.ofWord slot.sector)

theorem length_name_le (slot : Slot) : slot.name.length ≤ maxNameLength := by
  cases slot with
  | none => exact Nat.zero_le _
  | some entry => exact entry.length_name

theorem length_storedName (slot : Slot) : slot.storedName.length = maxNameLength + 1 := by
  rw [storedName, List.length_append, Bytes.length_zeros]
  exact Nat.add_sub_cancel' (Nat.le_succ_of_le slot.length_name_le)

theorem take_storedName (slot : Slot) :
    slot.storedName.take maxNameLength =
      slot.name ++ Bytes.zeros (maxNameLength - slot.name.length) := by
  rw [storedName, List.take_append, List.take_of_length_le slot.length_name_le, Bytes.zeros,
    List.take_replicate]
  congr 2
  omega

theorem length_encode (slot : Slot) : slot.encode.length = slotSize := by
  simp only [encode, List.length_cons, List.length_append, length_storedName, Bytes.length_ofWord]
  rfl

def decode (directory : UInt32) : Bytes → Except Error Slot
  | flag :: code :: rest =>
    if flag = 0 then .ok none
    else match Kind.ofCode? code with
      | none => .error (.corruption directory (.entryKind code))
      | some kind => .ok (some {
          name := Bytes.trimZeros (rest.take maxNameLength)
          length_name := Nat.le_trans (Bytes.length_trimZeros_le _) (List.length_take_le _ _)
          getLast?_name := Bytes.getLast?_trimZeros _
          kind := kind
          sector := (Bytes.words (rest.drop (maxNameLength + 1))).headD 0 })
  | _ => .ok none

theorem decode_encode (directory : UInt32) (slot : Slot) :
    decode directory slot.encode = .ok slot := by
  cases slot with
  | none => rfl
  | some entry =>
    have hname : Bytes.trimZeros ((storedName (some entry) ++ Bytes.ofWord entry.sector).take
        maxNameLength) = entry.name := by
      rw [List.take_append_of_le_length (by rw [length_storedName]; exact Nat.le_succ _),
        take_storedName]
      exact Bytes.trimZeros_append_zeros entry.getLast?_name _
    have hsector : (Bytes.words ((storedName (some entry) ++ Bytes.ofWord entry.sector).drop
        (maxNameLength + 1))).headD 0 = entry.sector := by
      have hword := Bytes.words_ofWord_append entry.sector []
      rw [List.append_nil] at hword
      rw [List.drop_append_of_le_length (Nat.le_of_eq (length_storedName _).symm),
        List.drop_of_length_le (Nat.le_of_eq (length_storedName _)), List.nil_append, hword]
      rfl
    have hcode := Kind.ofCode?_code entry.kind
    have hflag : (1 : UInt8) ≠ 0 := by decide
    obtain ⟨name, hlength, hlast, kind, sector⟩ := entry
    rw [encode, if_pos Option.isSome_some, decode, if_neg hflag]
    simp only [Slot.kind, Option.elim_some, hcode, Except.ok.injEq, Option.some.injEq,
      Entry.mk.injEq, true_and]
    exact ⟨hname, hsector⟩

end Slot

end SectorFS
