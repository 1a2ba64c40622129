import SectorFS.Directory.Entry
import SectorFS.Proofs.Guarded.Header
import SectorFS.Proofs.Guarded.Text

namespace SectorFS

open Layout

namespace Guarded

def entryOf (stored : Bytes) (kind : Kind) (sector : UInt32) : Entry where
  name := Bytes.trimZeros (stored.take maxNameLength)
  length_name := Nat.le_trans (Bytes.length_trimZeros_le _) (List.length_take_le _ _)
  getLast?_name := Bytes.getLast?_trimZeros _
  kind := kind
  sector := sector

def newEntry (name : String) (sector : UInt32) (kind : Kind) : Program Entry := do
  let bytes := Bytes.ofText name
  if bytes.length = 0 ∨ maxNameLength < bytes.length then
    .fail (.invalidArgument (.badNameLength name))
  else if separator ∈ name.toList ∨ 0 ∈ bytes then
    .fail (.invalidArgument (.reservedCharacter name))
  else
    let stored ← copy (Bytes.zeros (maxNameLength + 1)) 0 bytes.length bytes
    return entryOf stored kind sector

def nameBytes (entry : Entry) : Guarded Bytes := trimStored (Slot.storedName (some entry))

def nameEq (entry : Entry) (name : String) : Guarded Bool := do
  return (← nameBytes entry) == Bytes.ofText name

def label (entry : Entry) : Guarded String := do return ((← nameBytes entry).toText?).getD "?"

def encodeSlot (slot : Slot) (raw : Bytes) : Guarded Bytes := do
  let raw ← copy raw 0 slotSize (Bytes.zeros slotSize)
  let raw ← set raw 0 (if slot.isSome then 1 else 0)
  let raw ← set raw 1 slot.kind.code
  let raw ← copy raw 2 (2 + maxNameLength + 1) slot.storedName
  writeWord raw (slotSize - 4) slot.sector

def decodeSlot (sector : UInt32) (raw : Bytes) : Program Slot := do
  if (← get raw 0) = 0 then return none
  else
    let code ← get raw 1
    match Kind.ofCode? code with
    | none => .fail (.corruption sector (.entryKind code))
    | some kind =>
      let stored ← copy (Bytes.zeros (maxNameLength + 1)) 0 (maxNameLength + 1)
        (← slice raw 2 (2 + maxNameLength + 1))
      let stored ← set stored maxNameLength 0
      return some (entryOf stored kind (← readWord raw (slotSize - 4)))

theorem entryOf_eq {stored : Bytes} (entry : Entry)
    (h : stored.take maxNameLength = (Slot.storedName (some entry)).take maxNameLength) :
    entryOf stored entry.kind entry.sector = entry := by
  have hname : Bytes.trimZeros (stored.take maxNameLength) = entry.name := by
    rw [h, Slot.take_storedName]
    exact Bytes.trimZeros_append_zeros entry.getLast?_name _
  obtain ⟨name, hlength, hlast, kind, sector⟩ := entry
  simp only [entryOf, hname]

theorem overwrite_zeros {bytes : Bytes} {count : Nat} (h : bytes.length ≤ count) :
    (Bytes.zeros count).overwrite 0 bytes = bytes ++ Bytes.zeros (count - bytes.length) := by
  rw [Bytes.overwrite_zero (by rw [Bytes.length_zeros]; exact h), Bytes.zeros, List.drop_replicate,
    Bytes.zeros]

theorem copy_name {bytes : Bytes} (h : bytes.length ≤ maxNameLength) :
    copy (Bytes.zeros (maxNameLength + 1)) 0 bytes.length bytes =
      .ok (bytes ++ Bytes.zeros (maxNameLength + 1 - bytes.length)) := by
  rw [copy_eq_ok (Nat.zero_add _).symm (by rw [Bytes.length_zeros]; omega),
    overwrite_zeros (by omega)]

theorem newEntry_eq (name : String) (sector : UInt32) (kind : Kind) :
    newEntry name sector kind = liftM (Entry.make name sector kind) := by
  rw [newEntry, Entry.make]
  by_cases hlen : 1 ≤ (Bytes.ofText name).length ∧ (Bytes.ofText name).length ≤ maxNameLength
  · rw [if_neg (by omega), dif_pos hlen]
    by_cases hchars : separator ∈ name.toList ∨ 0 ∈ Bytes.ofText name
    · rw [if_pos hchars, dif_pos hchars]
      rfl
    · rw [if_neg hchars, dif_neg hchars, Program.guarded_bind (copy_name hlen.2)]
      refine congrArg Program.done ?_
      exact entryOf_eq ⟨Bytes.ofText name, _, _, kind, sector⟩ rfl
  · rw [if_pos (by omega), dif_neg hlen]
    rfl

theorem nameBytes_eq (entry : Entry) : nameBytes entry = .ok entry.name := by
  rw [nameBytes, trimStored_eq]
  exact congrArg Except.ok (Bytes.trimZeros_append_zeros entry.getLast?_name _)

theorem nameEq_eq (entry : Entry) (name : String) :
    nameEq entry name = .ok (entry.isNamed name) := by
  rw [nameEq, nameBytes_eq]
  rfl

theorem label_eq (entry : Entry) : label entry = .ok entry.label := by
  rw [label, nameBytes_eq]
  rfl

theorem encodeSlot_eq (slot : Slot) {raw : Bytes} (h : raw.length = slotSize) :
    encodeSlot slot raw = .ok slot.encode := by
  have hfill : copy raw 0 slotSize (Bytes.zeros slotSize) = .ok (Bytes.zeros slotSize) := by
    rw [copy_eq_ok (by rw [Bytes.length_zeros, Nat.zero_add]) (Nat.le_of_eq h.symm),
      Bytes.overwrite_zero (by rw [Bytes.length_zeros, h]),
      List.drop_of_length_le (by rw [Bytes.length_zeros, h]), List.append_nil]
  obtain ⟨flag, hflag⟩ : ∃ flag : UInt8, (if slot.isSome then 1 else 0) = flag := ⟨_, rfl⟩
  have hname : copy (flag :: slot.kind.code :: Bytes.zeros 14) 2 (2 + maxNameLength + 1)
      slot.storedName = .ok (flag :: slot.kind.code :: slot.storedName ++ Bytes.zeros 4) := by
    have hlen := slot.length_storedName
    rw [copy_eq_ok (by omega)
      (by rw [List.length_cons, List.length_cons, Bytes.length_zeros]; decide)]
    refine congrArg Except.ok ?_
    have hover : Bytes.overwrite ([flag, slot.kind.code] ++ Bytes.zeros 14) 2 slot.storedName =
        [flag, slot.kind.code] ++ Bytes.overwrite (Bytes.zeros 14) 0 slot.storedName :=
      Bytes.overwrite_append_of_ge (Nat.le_refl _) _ _
    rw [overwrite_zeros (by rw [hlen]; decide), hlen] at hover
    exact hover
  have hword : writeWord (flag :: slot.kind.code :: slot.storedName ++ Bytes.zeros 4) (slotSize - 4)
      slot.sector = .ok (flag :: slot.kind.code :: slot.storedName ++ Bytes.ofWord slot.sector ++
        Bytes.zeros 0) :=
    writeWord_zeros (by rw [List.length_cons, List.length_cons, slot.length_storedName]; rfl)
      (by decide) slot.sector
  rw [encodeSlot, hfill, ok_bind, hflag, set_eq_ok (by rw [Bytes.length_zeros]; decide),
    ok_bind, set_eq_ok (by rw [List.length_set, Bytes.length_zeros]; decide), ok_bind]
  change (copy (flag :: slot.kind.code :: Bytes.zeros 14) 2 _ _ >>= _) = _
  rw [hname, ok_bind]
  refine hword.trans (congrArg Except.ok ?_)
  rw [Slot.encode, hflag]
  exact List.append_nil _

theorem exists_fields {raw : Bytes} (h : raw.length = slotSize) : ∃ flag code rest,
    raw = flag :: code :: rest ∧ rest.length = maxNameLength + 1 + 4 := by
  obtain ⟨flag, more, rfl⟩ := List.exists_cons_of_length_eq_add_one h
  obtain ⟨code, rest, rfl⟩ := List.exists_cons_of_length_eq_add_one (Nat.succ.inj h)
  exact ⟨flag, code, rest, rfl, Nat.succ.inj (Nat.succ.inj h)⟩

variable {flag code : UInt8} {rest stored : Bytes}

theorem slice_stored (h : rest.length = maxNameLength + 1 + 4) :
    slice (flag :: code :: rest) 2 (2 + maxNameLength + 1) =
      .ok (rest.take (maxNameLength + 1)) :=
  slice_eq_ok (by decide) (by rw [List.length_cons, List.length_cons, h]; decide)

theorem copy_stored (h : stored.length = maxNameLength + 1) :
    copy (Bytes.zeros (maxNameLength + 1)) 0 (maxNameLength + 1) stored = .ok stored := by
  rw [copy_eq_ok (by rw [h, Nat.zero_add]) (Nat.le_of_eq (Bytes.length_zeros _).symm),
    overwrite_zeros (Nat.le_of_eq h), h, Nat.sub_self]
  exact congrArg Except.ok (List.append_nil _)

theorem readWord_sector (h : rest.length = maxNameLength + 1 + 4) :
    readWord (flag :: code :: rest) (slotSize - 4) =
      .ok ((Bytes.words (rest.drop (maxNameLength + 1))).headD 0) := by
  have hraw : (flag :: code :: rest).length = slotSize := by
    rw [List.length_cons, List.length_cons, h]
    rfl
  have hlen : (rest.drop (maxNameLength + 1)).length = 4 := by
    rw [List.length_drop, h]
    rfl
  have hfirst := getElem?_words (rest.drop (maxNameLength + 1)) 0 (Nat.le_of_eq hlen.symm)
  rw [readWord_eq (by rw [hraw]; decide) (by decide), List.headD_eq_head?_getD,
    List.head?_eq_getElem?, hfirst, Option.getD_some]
  simp only [wordAt, List.getD_eq_getElem?_getD, List.getElem?_drop]
  rfl

theorem decodeSlot_eq (sector : UInt32) {raw : Bytes} (h : raw.length = slotSize) :
    decodeSlot sector raw = liftM (Slot.decode sector raw) := by
  obtain ⟨flag, code, rest, rfl, hrest⟩ := exists_fields h
  rw [decodeSlot, Slot.decode, Program.guarded_bind (get_eq_ok rfl)]
  by_cases hflag : flag = 0
  · rw [if_pos hflag, if_pos hflag]
    rfl
  · rw [if_neg hflag, if_neg hflag, Program.guarded_bind (get_eq_ok rfl)]
    cases Kind.ofCode? code with
    | none => rfl
    | some kind =>
      have htake : (rest.take (maxNameLength + 1)).length = maxNameLength + 1 := by
        rw [List.length_take, hrest]
        rfl
      dsimp only
      rw [Program.guarded_bind (slice_stored hrest), Program.guarded_bind (copy_stored htake),
        Program.guarded_bind (set_eq_ok (by rw [htake]; exact Nat.lt_succ_self _) 0),
        Program.guarded_bind (readWord_sector hrest)]
      refine congrArg Program.done (congrArg some ?_)
      rw [entryOf]
      simp only [List.take_set_of_le (Nat.le_refl maxNameLength), List.take_take]
      rfl

end Guarded

end SectorFS
