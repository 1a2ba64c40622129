import SectorFS.Proofs.Directory.Shelf
import SectorFS.Proofs.Guarded.Text

namespace SectorFS

open Layout

namespace Bytes

def isFirst (byte : UInt8) : Bool := byte < 0x80 || 0xc0 ≤ byte

/-- The place is before the first byte of a character, or at the end. -/
def startsAt (bytes : Bytes) (place : Nat) : Bool :=
  match bytes[place]? with
  | some byte => isFirst byte
  | none => place == bytes.length

/-- A place up to which bytes may be taken from the start. -/
def mayCut (bytes : Bytes) (place : Nat) : Bool := place == 0 || bytes.startsAt place

end Bytes

namespace Guarded

def settleBytes (bytes : Bytes) : (place : Nat) → Guarded Nat
  | 0 => if bytes.mayCut 0 then .ok 0 else .error .underflow
  | place + 1 => if bytes.mayCut (place + 1) then .ok (place + 1) else settleBytes bytes place

def shortBytes (bytes : Bytes) : Guarded Bytes := do
  let place ← settleBytes bytes (min bytes.length openNameLength)
  if bytes.mayCut place then return bytes.take place else .error .character

end Guarded

namespace Bytes

variable {front back : Bytes} {place : Nat}

theorem isFirst_ofNat (n : Nat) :
    isFirst (UInt8.ofNat n) = true ↔ n % 256 < 128 ∨ 192 ≤ n % 256 := by
  rw [isFirst, Bool.or_eq_true, decide_eq_true_iff, decide_eq_true_iff, UInt8.lt_iff_toNat_lt,
    UInt8.le_iff_toNat_le, UInt8.toNat_ofNat']
  rfl

theorem exists_first (c : Char) : ∃ first more, String.utf8EncodeChar c = first :: more ∧
    isFirst first = true ∧ ∀ byte ∈ more, ¬isFirst byte = true := by
  simp only [String.utf8EncodeChar]
  -- The four forms: after the first byte, every byte is at least 128 and less than 192.
  split_ifs <;> refine ⟨_, _, rfl, ?_, ?_⟩ <;>
    simp only [List.forall_mem_cons, List.not_mem_nil, false_imp_iff, implies_true, and_true,
      isFirst_ofNat] <;> omega

theorem startsAt_append_right (front back : Bytes) (place : Nat) :
    startsAt (front ++ back) (front.length + place) = startsAt back place := by
  simp only [startsAt, List.getElem?_append_right (Nat.le_add_right _ _), Nat.add_sub_cancel_left,
    List.length_append]
  cases back[place]? with
  | some byte => rfl
  | none => exact Bool.eq_iff_iff.2 (by simp only [beq_iff_eq, Nat.add_left_cancel_iff])

theorem startsAt_append_left (hlt : place < front.length) :
    startsAt (front ++ back) place = isFirst front[place] := by
  rw [startsAt, List.getElem?_append_left hlt, List.getElem?_eq_getElem hlt]

end Bytes

namespace Guarded

theorem length_utf8Encode (text : List Char) :
    (text.flatMap String.utf8EncodeChar).length = byteLength text := by
  simp [byteLength, List.length_flatMap]

theorem byteLength_toList (text : String) : byteLength text.toList = text.utf8ByteSize := by
  rw [← length_utf8Encode]
  exact Bytes.length_ofText text

theorem startsAt_zero (text : List Char) :
    Bytes.startsAt (text.flatMap String.utf8EncodeChar) 0 = true := by
  cases text with
  | nil => rfl
  | cons c rest =>
    obtain ⟨first, more, hbytes, hfirst, -⟩ := Bytes.exists_first c
    rw [List.flatMap_cons, hbytes]
    exact hfirst

/-- The first bytes of characters are found at the places between the characters. -/
theorem startsAt_eq (text : List Char) (place : Nat) :
    Bytes.startsAt (text.flatMap String.utf8EncodeChar) place = isBoundary text place := by
  induction text generalizing place with
  | nil => cases place <;> rfl
  | cons c rest ih =>
    have hlen := String.length_utf8EncodeChar c
    -- The place is in the first character, at its start or not, or it is one of the others.
    rcases Nat.lt_or_ge place c.utf8Size with hlt | hge
    · cases place with
      | zero => exact startsAt_zero (c :: rest)
      | succ place =>
        obtain ⟨first, more, hbytes, -, hmore⟩ := Bytes.exists_first c
        rw [hbytes, List.length_cons] at hlen
        have hin : place < more.length := by omega
        rw [isBoundary_of_lt (Nat.succ_pos _) hlt, List.flatMap_cons, hbytes,
          Bytes.startsAt_append_left (Nat.succ_lt_succ hin), List.getElem_cons_succ]
        exact Bool.eq_false_iff.2 (hmore _ (List.getElem_mem hin))
    · obtain ⟨place, rfl⟩ := Nat.exists_eq_add_of_le hge
      rw [isBoundary_cons_add, List.flatMap_cons, ← hlen, Bytes.startsAt_append_right, ih]

theorem mayCut_eq (text : List Char) (place : Nat) :
    Bytes.mayCut (text.flatMap String.utf8EncodeChar) place = isBoundary text place := by
  rw [Bytes.mayCut, startsAt_eq]
  cases place with
  | zero => exact (startsAt_zero text).symm.trans (startsAt_eq text 0)
  | succ place => rfl

theorem settleBytes_eq (text : List Char) (place : Nat) :
    settleBytes (text.flatMap String.utf8EncodeChar) place = settle text place := by
  induction place with
  | zero => rw [settleBytes, settle, mayCut_eq]
  | succ place ih => rw [settleBytes, settle, mayCut_eq, ih]

theorem shortBytes_eq (name : String) :
    shortBytes (Bytes.ofText name) = .ok (Bytes.ofText (OpenTable.keptName name)) := by
  obtain ⟨rest, hrest⟩ := fitting_prefix openNameLength name.toList
  have hbytes := congrArg (List.flatMap String.utf8EncodeChar) hrest
  rw [List.flatMap_append] at hbytes
  have hkept : Bytes.ofText (OpenTable.keptName name) =
      (OpenTable.fitting openNameLength name.toList).flatMap String.utf8EncodeChar := by
    rw [Bytes.ofText, OpenTable.keptName, String.toList_ofList]
  have htake : (Bytes.ofText name).take
      (byteLength (OpenTable.fitting openNameLength name.toList)) =
        Bytes.ofText (OpenTable.keptName name) := by
    rw [hkept, Bytes.ofText, hbytes, ← length_utf8Encode, List.take_left]
  rw [shortBytes, Bytes.ofText, length_utf8Encode, settleBytes_eq, settle_fitting]
  change (if _ then _ else _) = _
  rw [mayCut_eq, if_pos (isBoundary_fitting _ _)]
  exact congrArg _ htake

end Guarded

end SectorFS
