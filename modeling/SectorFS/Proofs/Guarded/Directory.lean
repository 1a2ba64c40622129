import SectorFS.Directory.Dump
import SectorFS.Directory.Stored
import SectorFS.Proofs.Directory
import SectorFS.Proofs.Guarded.Entry
import SectorFS.Proofs.Guarded.File

namespace SectorFS

open Layout

def Directory.indexOf? (slots : List Slot) (name : String) : Option Nat :=
  slots.findIdx? fun slot ↦ slot.any fun entry ↦ entry.isNamed name

namespace Guarded

def findIndex (name : String) : List Slot → (i : Nat) → Guarded (Option Nat)
  | [], _ => .ok none
  | none :: rest, i => findIndex name rest (i + 1)
  | some entry :: rest, i => do
    if ← nameEq entry name then return some i else findIndex name rest (i + 1)

def findEntry (directory : Directory) (name : String) : Guarded (Option Entry) := do
  match ← findIndex name directory.slots 0 with
  | none => return none
  | some i => get directory.slots i

def addEntry (directory : Directory) (name : String) (sector : UInt32) (kind : Kind) :
    Program Directory := do
  let entry ← newEntry name sector kind
  if (← findIndex name directory.slots 0).isSome then .fail (.alreadyExists name)
  else match Directory.fillFirst? entry directory.slots with
    | none => .fail (.capacityExceeded .directoryFull)
    | some slots => return ⟨slots⟩

def removeEntry (directory : Directory) (name : String) : Program Directory := do
  match ← findIndex name directory.slots 0 with
  | none => .fail (.notFound name)
  | some i => return ⟨← set directory.slots i none⟩

def linked (capacity : Nat) (self parent : UInt32) : Program Directory := do
  let directory ← addEntry (.empty capacity) dot self .directory
  addEntry directory dotDot parent .directory

def list (directory : Directory) : Guarded (List ListedEntry) :=
  directory.entries.mapM fun entry ↦ do return ⟨← label entry, entry.sector, entry.kind⟩

def decodeSlots (sector : UInt32) : List Slot → Bytes → Program (List Slot)
  | [], _ => return []
  | slot :: rest, bytes =>
    if slotSize ≤ bytes.length then do
      let decoded ← decodeSlot sector (bytes.take slotSize)
      let more ← decodeSlots sector rest (bytes.drop slotSize)
      return decoded :: more
    else return slot :: rest

def fetchDirectory (directory : Directory) (file : File) : Program Directory := do
  let buf ← readWhole file (Bytes.zeros (← mul directory.capacity slotSize)) .directoryHolds
  return ⟨← decodeSlots file.sector directory.slots buf⟩

def readDirectory (file : File) : Program Directory :=
  fetchDirectory (.empty directorySlots) file

def openDirectory (sector : UInt32) : Program (File × Directory) := do
  let file ← openFile sector
  return (file, ← readDirectory file)

def encodeSlots : List Slot → Bytes → Guarded Bytes
  | [], bytes => .ok bytes
  | slot :: rest, bytes =>
    if slotSize ≤ bytes.length then do
      return (← encodeSlot slot (bytes.take slotSize)) ++
        (← encodeSlots rest (bytes.drop slotSize))
    else .ok bytes

def storeDirectory (directory : Directory) (file : File) : Program Unit := do
  let buf ← encodeSlots directory.slots (Bytes.zeros (← mul directory.capacity slotSize))
  writeWhole file buf .directoryTakes

def printEntry (entry : Entry) : Program String := do
  let name ← label entry
  let line := s!"Name: {name}, Sector: {entry.sector.toNat}, Type: {entry.kind.word}\n"
  match entry.kind with
  | .directory => return line
  | .regular => return line ++ (← printHeader (← readHeader entry.sector))

def printDirectory (directory : Directory) : Program String := do
  let parts ← directory.entries.mapM printEntry
  return "Directory contents:\n" ++ String.join parts

/-! ## Names in a table -/

theorem findIndex_eq (name : String) (slots : List Slot) (i : Nat) :
    findIndex name slots i = .ok ((Directory.indexOf? slots name).map (· + i)) := by
  induction slots generalizing i with
  | nil => rfl
  | cons slot rest ih =>
    have hshift : (fun j ↦ j + i) ∘ (fun j ↦ j + 1) = fun j ↦ j + (i + 1) := by
      funext j
      exact Nat.add_right_comm j 1 i
    rw [Directory.indexOf?, List.findIdx?_cons]
    cases slot with
    | none =>
      rw [findIndex, ih, Option.any_none, if_neg Bool.false_ne_true, Option.map_map, hshift]
      rfl
    | some entry =>
      rw [findIndex, nameEq_eq, ok_bind, Option.any_some]
      cases entry.isNamed name with
      | true => exact congrArg (fun n ↦ Except.ok (some n)) (Nat.zero_add i).symm
      | false =>
        rw [if_neg Bool.false_ne_true, if_neg Bool.false_ne_true, ih, Option.map_map, hshift]
        rfl

theorem findIndex_zero (name : String) (slots : List Slot) :
    findIndex name slots 0 = .ok (Directory.indexOf? slots name) := by
  rw [findIndex_eq]
  exact congrArg Except.ok Option.map_id'

theorem indexOf?_cons_none (rest : List Slot) (name : String) :
    Directory.indexOf? (none :: rest) name =
      (Directory.indexOf? rest name).map (· + 1) := by
  rw [Directory.indexOf?, List.findIdx?_cons]
  rfl

theorem indexOf?_cons_some (entry : Entry) (rest : List Slot) (name : String) :
    Directory.indexOf? (some entry :: rest) name =
      if entry.isNamed name then some 0 else (Directory.indexOf? rest name).map (· + 1) := by
  rw [Directory.indexOf?, List.findIdx?_cons]
  rfl

theorem find?_eq_bind (slots : List Slot) (name : String) :
    Directory.find? ⟨slots⟩ name = (Directory.indexOf? slots name).bind fun i ↦ slots[i]?.join := by
  induction slots with
  | nil => rfl
  | cons slot rest ih =>
    cases slot with
    | none =>
      rw [indexOf?_cons_none, Option.bind_map]
      exact ih
    | some entry =>
      rw [indexOf?_cons_some, Directory.find?_cons_some]
      cases entry.isNamed name with
      | true => rfl
      | false =>
        rw [if_neg Bool.false_ne_true, if_neg Bool.false_ne_true, Option.bind_map]
        exact ih

theorem eraseFirst?_eq_map (slots : List Slot) (name : String) :
    Directory.eraseFirst? name slots =
      (Directory.indexOf? slots name).map fun i ↦ slots.set i none := by
  induction slots with
  | nil => rfl
  | cons slot rest ih =>
    cases slot with
    | none =>
      rw [indexOf?_cons_none, Directory.eraseFirst?, ih, Option.map_map, Option.map_map]
      rfl
    | some entry =>
      rw [indexOf?_cons_some, Directory.eraseFirst?, ih]
      cases entry.isNamed name with
      | true => rfl
      | false =>
        rw [if_neg Bool.false_ne_true, if_neg Bool.false_ne_true, Option.map_map, Option.map_map]
        rfl

theorem lt_of_indexOf? {slots : List Slot} {name : String} {i : Nat}
    (h : Directory.indexOf? slots name = some i) : i < slots.length :=
  (List.findIdx?_eq_some_iff_getElem.1 h).1

theorem exists_of_indexOf? {slots : List Slot} {name : String} {i : Nat}
    (h : Directory.indexOf? slots name = some i) : ∃ entry, slots[i]? = some (some entry) := by
  obtain ⟨hlt, hnamed, -⟩ := List.findIdx?_eq_some_iff_getElem.1 h
  rw [List.getElem?_eq_getElem hlt]
  cases hslot : slots[i] with
  | none =>
    rw [hslot] at hnamed
    contradiction
  | some entry => exact ⟨entry, rfl⟩

theorem findEntry_eq (directory : Directory) (name : String) :
    findEntry directory name = .ok (directory.find? name) := by
  rw [findEntry, findIndex_zero, ok_bind, show directory = ⟨directory.slots⟩ from rfl,
    find?_eq_bind]
  cases hindex : Directory.indexOf? directory.slots name with
  | none => rfl
  | some i =>
    have hslot := List.getElem?_eq_getElem (lt_of_indexOf? hindex)
    rw [Option.bind_some, hslot, Option.join_some]
    exact get_eq_ok hslot

theorem isSome_indexOf? (directory : Directory) (name : String) :
    (Directory.indexOf? directory.slots name).isSome = (directory.find? name).isSome := by
  rw [show directory.find? name = _ from find?_eq_bind directory.slots name]
  cases hindex : Directory.indexOf? directory.slots name with
  | none => rfl
  | some i =>
    obtain ⟨entry, hentry⟩ := exists_of_indexOf? hindex
    rw [Option.bind_some, hentry]
    rfl

theorem addEntry_eq (directory : Directory) (name : String) (sector : UInt32) (kind : Kind) :
    addEntry directory name sector kind = liftM (directory.add name sector kind) := by
  rw [addEntry, Directory.add, newEntry_eq]
  cases Entry.make name sector kind with
  | error error => rfl
  | ok entry =>
    rw [Program.except_bind rfl, Program.guarded_bind (findIndex_zero name directory.slots),
      isSome_indexOf?]
    change _ = liftM (if (directory.find? name).isSome then _ else _ : Except Error Directory)
    cases (directory.find? name).isSome with
    | true => rfl
    | false =>
      rw [if_neg Bool.false_ne_true, if_neg Bool.false_ne_true]
      cases Directory.fillFirst? entry directory.slots <;> rfl

theorem removeEntry_eq (directory : Directory) (name : String) :
    removeEntry directory name = liftM (directory.remove name) := by
  rw [removeEntry, Directory.remove, Program.guarded_bind (findIndex_zero name directory.slots),
    eraseFirst?_eq_map]
  cases hindex : Directory.indexOf? directory.slots name with
  | none => rfl
  | some i =>
    dsimp only
    rw [Program.guarded_bind (set_eq_ok (lt_of_indexOf? hindex) none)]
    rfl

theorem linked_eq (capacity : Nat) (self parent : UInt32) :
    linked capacity self parent = liftM (Directory.linked capacity self parent) := by
  rw [linked, Directory.linked, addEntry_eq]
  cases (Directory.empty capacity).add dot self .directory with
  | error error => rfl
  | ok directory => exact addEntry_eq directory dotDot parent .directory

theorem list_eq (directory : Directory) : list directory = .ok directory.list :=
  mapM_eq_ok fun entry _ ↦ by rw [label_eq]; rfl

/-! ## Tables in their files -/

theorem decodeSlots_eq {sector : UInt32} {slots : List Slot} {bytes : Bytes}
    (h : bytes.length = slots.length * slotSize) :
    decodeSlots sector slots bytes = liftM (match Directory.decodeSlots sector slots bytes with
      | (decoded, outcome) => outcome.map fun _ ↦ decoded) := by
  induction slots generalizing bytes with
  | nil => rfl
  | cons slot rest ih =>
    rw [List.length_cons, Nat.succ_mul] at h
    rw [decodeSlots, if_pos (by omega), decodeSlot_eq sector (by rw [List.length_take]; omega),
      Directory.decodeSlots, ih (by rw [List.length_drop]; omega)]
    cases Slot.decode sector (bytes.take slotSize) with
    | error error => rfl
    | ok decoded =>
      cases Directory.decodeSlots sector rest (bytes.drop slotSize) with
      | mk more outcome => cases outcome <;> rfl

theorem mul_capacity {capacity : Nat} (h : capacity ≤ directorySlots) :
    mul capacity slotSize = .ok (capacity * slotSize) :=
  mul_eq_ok (Nat.lt_of_le_of_lt (Nat.mul_le_mul_right _ h) (by decide))

theorem length_decodeSlots (sector : UInt32) (slots : List Slot) (bytes : Bytes) :
    (Directory.decodeSlots sector slots bytes).1.length = slots.length := by
  induction slots generalizing bytes with
  | nil => rfl
  | cons slot rest ih =>
    rw [Directory.decodeSlots]
    cases Slot.decode sector (bytes.take slotSize) with
    | error error => rfl
    | ok decoded => exact congrArg (· + 1) (ih _)

theorem asks_fetchDirectory {directory : Directory} (h : directory.capacity ≤ directorySlots)
    (file : File) : (fetchDirectory directory file).Asks
      (fun device ↦ match directory.fetch file device with
        | (fetched, outcome) => outcome.map fun _ ↦ fetched)
      fun fetched ↦ fetched.capacity = directory.capacity := by
  have hask : (fun device ↦ match directory.fetch file device with
      | (fetched, outcome) => outcome.map fun _ ↦ fetched) = fun device ↦
        wholeFrom file (Bytes.zeros directory.size).length .directoryHolds device >>= fun buf ↦
          match Directory.decodeSlots file.sector directory.slots buf with
          | (decoded, outcome) => outcome.map fun _ ↦ ⟨decoded⟩ := by
    funext device
    rw [Directory.fetch, wholeFrom, Bytes.length_zeros]
    cases file.read directory.size 0 device with
    | error error => rfl
    | ok bytes =>
      change _ = (if bytes.length = directory.size then _ else _) >>= _
      dsimp only
      split <;> rfl
  rw [hask, fetchDirectory, Program.guarded_bind (mul_capacity h)]
  refine Program.Asks.bind (asks_readWhole file _ .directoryHolds) fun buf hlen ↦ ?_
  have hlength := length_decodeSlots file.sector directory.slots buf
  rw [decodeSlots_eq (hlen.trans (Bytes.length_zeros _))]
  cases hdecode : Directory.decodeSlots file.sector directory.slots buf with
  | mk decoded outcome =>
    rw [hdecode] at hlength
    cases outcome with
    | error error => exact Program.asks_fail _
    | ok _ => exact Program.asks_pure hlength

theorem asks_readDirectory (file : File) : (readDirectory file).Asks file.readDirectory
    fun directory ↦ directory.capacity = directorySlots :=
  (asks_fetchDirectory (Nat.le_of_eq List.length_replicate) file).mono fun _ h ↦
    h.trans List.length_replicate

theorem encodeSlots_eq {slots : List Slot} {bytes : Bytes}
    (h : bytes.length = slots.length * slotSize) :
    encodeSlots slots bytes = .ok (slots.flatMap Slot.encode) := by
  induction slots generalizing bytes with
  | nil =>
    rw [List.length_nil, Nat.zero_mul, List.length_eq_zero_iff] at h
    rw [h]
    rfl
  | cons slot rest ih =>
    rw [List.length_cons, Nat.succ_mul] at h
    rw [encodeSlots, if_pos (by omega), encodeSlot_eq slot (by rw [List.length_take]; omega),
      ok_bind, ih (by rw [List.length_drop]; omega), ok_bind, List.flatMap_cons]
    rfl

theorem acts_storeDirectory {directory : Directory} (h : directory.capacity ≤ directorySlots)
    (file : File) : (storeDirectory directory file).Acts (directory.store file) fun _ ↦ True := by
  have hencode : encodeSlots directory.slots (Bytes.zeros (directory.capacity * slotSize)) =
      .ok directory.bytes := encodeSlots_eq (Bytes.length_zeros _)
  have hwrite := acts_writeWhole file directory.bytes .directoryTakes
  rw [directory.length_bytes] at hwrite
  rw [storeDirectory, Program.guarded_bind (mul_capacity h), Program.guarded_bind hencode]
  exact hwrite

theorem asks_openDirectory (sector : UInt32) : (openDirectory sector).Asks (·.openDirectory sector)
    fun (_, directory) ↦ directory.capacity = directorySlots :=
  Program.Asks.bind (asks_openFile sector) fun file _ ↦
    Program.Asks.bind (asks_readDirectory file) fun _ h ↦ Program.asks_pure h

/-! ## Printing -/

theorem asks_mapM {α β : Type} {f : α → Program β} {ask : α → Device → Except Error β}
    (h : ∀ a, (f a).Asks (ask a) fun _ ↦ True) (xs : List α) :
    (xs.mapM f).Asks (fun device ↦ xs.mapM (ask · device)) fun _ ↦ True := by
  induction xs with
  | nil => exact Program.asks_pure trivial
  | cons x rest ih =>
    simp only [List.mapM_cons]
    exact Program.Asks.bind (h x) fun _ _ ↦ Program.Asks.bind ih fun _ _ ↦ Program.asks_pure trivial

theorem asks_printEntry (entry : Entry) : (printEntry entry).Asks entry.render fun _ ↦ True := by
  rw [printEntry, Program.guarded_bind (label_eq entry)]
  unfold Entry.render
  cases entry.kind with
  | directory => exact Program.asks_pure trivial
  | regular =>
    exact Program.Asks.bind (asks_readHeader entry.sector) fun _ hc ↦
      Program.Asks.bind (asks_printHeader hc) fun _ _ ↦ Program.asks_pure trivial

theorem asks_printDirectory (directory : Directory) :
    (printDirectory directory).Asks directory.render fun _ ↦ True :=
  Program.Asks.bind (asks_mapM asks_printEntry directory.entries) fun _ _ ↦ Program.asks_pure trivial

end Guarded

end SectorFS
