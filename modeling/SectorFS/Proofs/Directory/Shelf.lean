import SectorFS.Proofs.Directory.Records

namespace SectorFS

open Layout

/-! ## Names -/

namespace Bytes

theorem toByteArray_ofText (text : String) : (ofText text).toByteArray = text.toByteArray :=
  String.utf8Encode_toList

theorem length_ofText (text : String) : (ofText text).length = text.utf8ByteSize := by
  rw [← List.size_toByteArray, toByteArray_ofText, String.size_toByteArray]

theorem toText?_ofText (text : String) : (ofText text).toText? = some text := by
  have hbytes : (⟨(ofText text).toArray⟩ : ByteArray) = text.toByteArray := by
    rw [← toByteArray_ofText]
    exact ByteArray.ext List.data_toByteArray.symm
  rw [toText?, hbytes, String.fromUTF8?, dif_pos text.isValidUTF8]
  rfl

theorem zero_eq_ofNat_iff {n : Nat} : (0 : UInt8) = UInt8.ofNat n ↔ n % 256 = 0 := by
  rw [← UInt8.toNat_inj, UInt8.toNat_ofNat']
  exact eq_comm

theorem zero_mem_utf8EncodeChar_iff {c : Char} : 0 ∈ String.utf8EncodeChar c ↔ c = '\x00' := by
  constructor
  · intro h
    apply Char.toNat_inj.1
    change c.val.toNat = 0
    simp only [String.utf8EncodeChar] at h
    -- In the longer forms every byte has its highest bit set, in the first a byte is the character.
    split_ifs at h <;>
      simp only [List.mem_cons, List.not_mem_nil, or_false, zero_eq_ofNat_iff] at h <;> omega
  · rintro rfl
    exact List.mem_cons_self

theorem take_append_zeros {bytes : Bytes} {count : Nat} (h : bytes.length ≤ count) :
    (bytes ++ zeros count).take count = bytes ++ zeros (count - bytes.length) := by
  rw [List.take_append, List.take_of_length_le h, zeros, List.take_replicate,
    Nat.min_eq_left (Nat.sub_le _ _), zeros]

theorem zero_mem_ofText_iff {text : String} : 0 ∈ ofText text ↔ '\x00' ∈ text.toList := by
  rw [ofText, List.mem_flatMap]
  simp only [zero_mem_utf8EncodeChar_iff, exists_eq_right]

end Bytes

def FitsSlot (name : String) : Prop := 1 ≤ name.utf8ByteSize ∧ name.utf8ByteSize ≤ maxNameLength

def Reserved (name : String) : Prop := separator ∈ name.toList ∨ '\x00' ∈ name.toList

def ProperName (name : String) : Prop := FitsSlot name ∧ ¬Reserved name

instance (name : String) : Decidable (FitsSlot name) := inferInstanceAs (Decidable (_ ∧ _))

instance (name : String) : Decidable (Reserved name) := inferInstanceAs (Decidable (_ ∨ _))

instance (name : String) : Decidable (ProperName name) := inferInstanceAs (Decidable (_ ∧ ¬_))

namespace Entry

variable {entry : Entry} {name : String} {sector : UInt32} {kind : Kind}

def listed (entry : Entry) : ListedEntry := ⟨entry.label, entry.sector, entry.kind⟩

theorem label_eq_of_name (h : entry.name = Bytes.ofText name) : entry.label = name := by
  rw [label, h, Bytes.toText?_ofText, Option.getD_some]

theorem make_cases (name : String) (sector : UInt32) (kind : Kind) :
    (¬FitsSlot name ∧ make name sector kind = .error (.invalidArgument (.badNameLength name))) ∨
      (FitsSlot name ∧ Reserved name ∧
        make name sector kind = .error (.invalidArgument (.reservedCharacter name))) ∨
      ProperName name ∧ ∃ entry, make name sector kind = .ok entry := by
  have hfits : 1 ≤ (Bytes.ofText name).length ∧ (Bytes.ofText name).length ≤ maxNameLength ↔
      FitsSlot name := by
    rw [Bytes.length_ofText]
    exact Iff.rfl
  have hreserved : separator ∈ name.toList ∨ 0 ∈ Bytes.ofText name ↔ Reserved name :=
    or_congr_right Bytes.zero_mem_ofText_iff
  rw [make]
  by_cases hlen : FitsSlot name
  · by_cases hchars : Reserved name
    · rw [dif_pos (hfits.2 hlen), dif_pos (hreserved.2 hchars)]
      exact .inr (.inl ⟨hlen, hchars, rfl⟩)
    · rw [dif_pos (hfits.2 hlen), dif_neg fun h ↦ hchars (hreserved.1 h)]
      exact .inr (.inr ⟨⟨hlen, hchars⟩, _, rfl⟩)
  · rw [dif_neg fun h ↦ hlen (hfits.1 h)]
    exact .inl ⟨hlen, rfl⟩

theorem exists_make_iff : (∃ entry, make name sector kind = .ok entry) ↔ ProperName name := by
  rcases make_cases name sector kind with
    ⟨hfits, herror⟩ | ⟨-, hreserved, herror⟩ | ⟨hproper, hmake⟩
  · rw [herror]
    exact iff_of_false nofun fun hproper ↦ hfits hproper.1
  · rw [herror]
    exact iff_of_false nofun fun hproper ↦ hproper.2 hreserved
  · exact iff_of_true hmake hproper

theorem listed_of_make (h : make name sector kind = .ok entry) :
    entry.listed = ⟨name, sector, kind⟩ := by
  obtain ⟨hname, rfl, rfl⟩ := of_make h
  rw [listed, label_eq_of_name hname]

end Entry

/-! ## Shelves -/

/-- The places of a table, with what a listing tells of the entries. -/
abbrev Shelf := List (Option ListedEntry)

namespace Record

def ofListed (listed : ListedEntry) : Record where
  inUse := true
  kind := listed.kind
  sector := listed.sector
  name := (Bytes.ofText listed.name ++ .zeros (maxNameLength + 1)).take (maxNameLength + 1)
  length_name := by
    rw [List.length_take, List.length_append, Bytes.length_zeros]
    omega

def ofPlace (place : Option ListedEntry) : Record := place.elim null ofListed

end Record

namespace Directory

variable {table : Directory} {entry : Entry} {listed : ListedEntry} {name : String}
  {sector : UInt32} {kind : Kind}

def shelf (table : Directory) : Shelf := table.slots.map (Option.map Entry.listed)

def Bound (shelf : Shelf) (name : String) (found : Option ListedEntry) : Prop :=
  ∀ listed, found = some listed ↔ some listed ∈ shelf ∧ listed.name = name

/-- How a request is answered, and what it does to the shelf. -/
inductive ShelfRule : Shelf → Request → Except Error Reply → Shelf → Prop
  | addUnfit {shelf : Shelf} {name : String} {sector : UInt32} {kind : Kind}
      (h : ¬FitsSlot name) : ShelfRule shelf (.add name sector kind)
        (.error (.invalidArgument (.badNameLength name))) shelf
  | addReserved {shelf : Shelf} {name : String} {sector : UInt32} {kind : Kind}
      (hlen : FitsSlot name) (h : Reserved name) : ShelfRule shelf (.add name sector kind)
        (.error (.invalidArgument (.reservedCharacter name))) shelf
  | addTaken {shelf : Shelf} {listed : ListedEntry} {sector : UInt32} {kind : Kind}
      (hname : ProperName listed.name) (h : some listed ∈ shelf) :
      ShelfRule shelf (.add listed.name sector kind) (.error (.alreadyExists listed.name)) shelf
  | addFull {shelf : Shelf} {name : String} {sector : UInt32} {kind : Kind}
      (hname : ProperName name) (hnew : Bound shelf name none) (h : none ∉ shelf) :
      ShelfRule shelf (.add name sector kind) (.error (.capacityExceeded .directoryFull)) shelf
  | add {first rest : Shelf} {name : String} {sector : UInt32} {kind : Kind}
      (hname : ProperName name) (hnew : Bound (first ++ none :: rest) name none)
      (h : none ∉ first) : ShelfRule (first ++ none :: rest) (.add name sector kind) (.ok .done)
        (first ++ some ⟨name, sector, kind⟩ :: rest)
  | removeMissing {shelf : Shelf} {name : String} (h : Bound shelf name none) :
      ShelfRule shelf (.remove name) (.error (.notFound name)) shelf
  | remove (first rest : Shelf) (listed : ListedEntry) :
      ShelfRule (first ++ some listed :: rest) (.remove listed.name) (.ok .done)
        (first ++ none :: rest)
  | find {shelf : Shelf} {name : String} {found : Option ListedEntry} (h : Bound shelf name found) :
      ShelfRule shelf (.find name) (.ok (.sector (found.map ListedEntry.sector))) shelf
  | findEntry {shelf : Shelf} {name : String} {found : Option ListedEntry}
      (h : Bound shelf name found) :
      ShelfRule shelf (.findEntry name) (.ok (.entry (found.map Record.ofListed))) shelf
  | entryType {shelf : Shelf} {name : String} {found : Option ListedEntry}
      (h : Bound shelf name found) :
      ShelfRule shelf (.entryType name) (.ok (.kind (found.map ListedEntry.kind))) shelf
  | list (shelf : Shelf) : ShelfRule shelf .list (.ok (.listed (shelf.filterMap id))) shelf
  | isEmpty {shelf : Shelf} {flag : Bool} (h : flag = true ↔ ∀ listed, some listed ∈ shelf →
      listed.name = dot ∨ listed.name = dotDot) :
      ShelfRule shelf .isEmpty (.ok (.flag flag)) shelf

theorem mem_shelf : some listed ∈ table.shelf ↔ ∃ entry ∈ table.entries, entry.listed = listed := by
  rw [shelf, List.mem_map]
  constructor
  · rintro ⟨slot, hslot, hlisted⟩
    obtain ⟨entry, rfl, hentry⟩ := Option.map_eq_some_iff.1 hlisted
    exact ⟨entry, List.mem_filterMap.2 ⟨_, hslot, rfl⟩, hentry⟩
  · rintro ⟨entry, hentry, rfl⟩
    obtain ⟨slot, hslot, rfl⟩ := List.mem_filterMap.1 hentry
    exact ⟨_, hslot, rfl⟩

theorem none_mem_shelf {slots : List Slot} :
    none ∈ slots.map (Option.map Entry.listed) ↔ none ∈ slots := by
  simp only [List.mem_map, Option.map_eq_none_iff, exists_eq_right]

theorem length_shelf (table : Directory) : table.shelf.length = table.capacity := List.length_map _

theorem ShelfRule.length_eq {before after : Shelf} {request : Request}
    {outcome : Except Error Reply} (h : ShelfRule before request outcome after) :
    after.length = before.length := by
  cases h <;> simp only [List.length_append, List.length_cons]

theorem filterMap_shelf (table : Directory) : table.shelf.filterMap id = table.list := by
  rw [shelf, List.filterMap_map, list, entries, List.map_filterMap]
  rfl

structure Orderly (table : Directory) : Prop where
  proper : ∀ entry ∈ table.entries, ProperName entry.label ∧ entry.name = Bytes.ofText entry.label
  nodup : (table.entries.map Entry.name).Nodup

theorem Orderly.bound (h : Orderly table) (name : String) :
    Bound table.shelf name ((table.find? name).map Entry.listed) := by
  intro listed
  rw [mem_shelf, Option.map_eq_some_iff]
  constructor
  · rintro ⟨entry, hfind, rfl⟩
    obtain ⟨hmem, hname⟩ := mem_of_find? hfind
    exact ⟨⟨entry, hmem, rfl⟩, Entry.label_eq_of_name hname⟩
  · rintro ⟨⟨entry, hmem, rfl⟩, rfl⟩
    exact ⟨entry, find?_of_mem h.nodup hmem (h.proper entry hmem).2, rfl⟩

theorem Orderly.isEmpty_iff (h : Orderly table) : table.isEmpty = true ↔
    ∀ listed, some listed ∈ table.shelf → listed.name = dot ∨ listed.name = dotDot := by
  have hnamed : ∀ entry ∈ table.entries, ∀ name,
      entry.isNamed name = true ↔ entry.listed.name = name := fun entry hentry name ↦ by
    rw [Entry.isNamed_iff, (h.proper entry hentry).2]
    exact ⟨Bytes.ofText_inj, congrArg Bytes.ofText⟩
  rw [isEmpty, List.all_eq_true]
  simp only [Bool.or_eq_true, mem_shelf]
  constructor
  · rintro hall _ ⟨entry, hentry, rfl⟩
    exact (hall entry hentry).imp (hnamed entry hentry dot).1 (hnamed entry hentry dotDot).1
  · exact fun hall entry hentry ↦ (hall _ ⟨entry, hentry, rfl⟩).imp (hnamed entry hentry dot).2
      (hnamed entry hentry dotDot).2

theorem ofListed_listed (h : entry.name = Bytes.ofText entry.label) :
    Record.ofListed entry.listed = Slot.record (some entry) := by
  have hname : (Record.ofListed entry.listed).name = Slot.storedName (some entry) := by
    change (Bytes.ofText entry.label ++ _).take _ = entry.name ++ _
    rw [← h]
    exact Bytes.take_append_zeros (Nat.le_succ_of_le entry.length_name)
  rw [Slot.record]
  simp only [← hname]
  rfl

theorem Orderly.records_eq (h : Orderly table) :
    table.records = table.shelf.map Record.ofPlace := by
  rw [records, shelf, List.map_map]
  refine List.map_congr_left fun slot hslot ↦ ?_
  cases slot with
  | none => rfl
  | some entry =>
    exact (ofListed_listed (h.proper entry (List.mem_filterMap.2 ⟨_, hslot, rfl⟩)).2).symm

theorem Orderly.properName (h : Orderly table) (hlisted : some listed ∈ table.shelf) :
    ProperName listed.name := by
  obtain ⟨entry, hentry, rfl⟩ := mem_shelf.1 hlisted
  exact (h.proper entry hentry).1

theorem Orderly.nodup_names (h : Orderly table) :
    ((table.shelf.filterMap id).map ListedEntry.name).Nodup := by
  have hnames : table.entries.map Entry.name =
      ((table.shelf.filterMap id).map ListedEntry.name).map Bytes.ofText := by
    rw [filterMap_shelf, list, List.map_map, List.map_map]
    exact List.map_congr_left fun entry hentry ↦ (h.proper entry hentry).2
  exact (hnames ▸ h.nodup).of_map _

theorem orderly_empty (capacity : Nat) : Orderly (empty capacity) := by
  have hentries : (empty capacity).entries = [] := by
    rw [entries, List.filterMap_eq_nil_iff]
    exact fun slot hslot ↦ List.eq_of_mem_replicate hslot
  constructor
  · intro entry hentry
    rw [hentries] at hentry
    exact absurd hentry List.not_mem_nil
  · rw [hentries]
    exact List.nodup_nil

/-! ## One request -/

variable {left : Directory}

theorem Orderly.add (h : Orderly table) (hadd : table.add name sector kind = .ok left) :
    Orderly left := by
  obtain ⟨entry, hmake, hnone, hreplaces⟩ := of_add hadd
  have hperm := hreplaces.entries_perm
  have hname := (Entry.of_make hmake).1
  have hproper : ProperName name := Entry.exists_make_iff.1 ⟨entry, hmake⟩
  constructor
  · intro other hother
    rcases List.mem_cons.1 (hperm.mem_iff.1 hother) with rfl | hold
    · rw [Entry.label_eq_of_name hname]
      exact ⟨hproper, hname⟩
    · exact h.proper other hold
  · rw [(hperm.map _).nodup_iff, List.map_cons, List.nodup_cons, hname]
    exact ⟨find?_eq_none.1 hnone, h.nodup⟩

theorem Orderly.remove (h : Orderly table) (hremove : table.remove name = .ok left) :
    Orderly left := by
  obtain ⟨entry, -, hreplaces⟩ := of_remove hremove
  have hperm := hreplaces.symm.entries_perm
  constructor
  · exact fun other hother ↦ h.proper other (hperm.mem_iff.2 (List.mem_cons_of_mem _ hother))
  · have hnodup := h.nodup
    rw [(hperm.map _).nodup_iff, List.map_cons, List.nodup_cons] at hnodup
    exact hnodup.2

theorem capacity_of_add (h : table.add name sector kind = .ok left) :
    left.capacity = table.capacity := by
  obtain ⟨entry, -, -, hreplaces⟩ := of_add h
  exact hreplaces.capacity

theorem orderly_start {capacity : Nat}
    (h : table = empty capacity ∨ ∃ self parent, linked capacity self parent = .ok table) :
    Orderly table ∧ table.shelf.length = capacity := by
  have hempty : (empty capacity).capacity = capacity := List.length_replicate
  rw [length_shelf]
  obtain rfl | ⟨self, parent, hlinked⟩ := h
  · exact ⟨orderly_empty capacity, hempty⟩
  · obtain ⟨first, hself, hparent⟩ := bind_eq_ok.1 hlinked
    exact ⟨((orderly_empty capacity).add hself).add hparent,
      (capacity_of_add hparent).trans ((capacity_of_add hself).trans hempty)⟩

theorem add_of_make (h : Entry.make name sector kind = .ok entry) :
    table.add name sector kind = if (table.find? name).isSome then .error (.alreadyExists name)
      else match fillFirst? entry table.slots with
        | none => .error (.capacityExceeded .directoryFull)
        | some slots => .ok ⟨slots⟩ := by
  rw [Directory.add, h]
  rfl

theorem add_of_error {error : Error} (h : Entry.make name sector kind = .error error) :
    table.add name sector kind = .error error := by
  rw [Directory.add, h]
  rfl

theorem serve_add_obeys (h : Orderly table) (name : String) (sector : UInt32) (kind : Kind) :
    ShelfRule table.shelf (.add name sector kind) (serve (.add name sector kind) table).1
      (serve (.add name sector kind) table).2.shelf := by
  have hbound := h.bound name
  rw [serve]
  -- The answers take precedence in this order: the name, what is bound to it, the empty place.
  rcases Entry.make_cases name sector kind with
    ⟨hfits, herror⟩ | ⟨hfits, hreserved, herror⟩ | ⟨hproper, entry, hmake⟩
  · rw [add_of_error herror]
    exact .addUnfit hfits
  · rw [add_of_error herror]
    exact .addReserved hfits hreserved
  · rw [add_of_make hmake]
    cases hfind : table.find? name with
    | some other =>
      obtain ⟨hmem, rfl⟩ := (hbound other.listed).1 (by rw [hfind]; rfl)
      exact .addTaken hproper hmem
    | none =>
      rw [hfind] at hbound
      cases hfill : fillFirst? entry table.slots with
      | none =>
        have hfull : none ∉ table.shelf := fun hmem ↦ by
          obtain ⟨filled, hfilled⟩ := exists_fillFirst? entry (none_mem_shelf.1 hmem)
          exact absurd (hfill.symm.trans hfilled) nofun
        exact .addFull hproper hbound hfull
      | some filled =>
        obtain ⟨first, rest, hfirst, hold, hnew⟩ := gains_of_fillFirst? hfill
        have hshelf : table.shelf = first.map (Option.map Entry.listed) ++
            none :: rest.map (Option.map Entry.listed) := by
          rw [shelf, show table.slots = _ from hold, List.map_append, List.map_cons]
          rfl
        have hleft : shelf ⟨filled⟩ = first.map (Option.map Entry.listed) ++
            some ⟨name, sector, kind⟩ :: rest.map (Option.map Entry.listed) := by
          rw [shelf, hnew, List.map_append, List.map_cons, Option.map_some,
            Entry.listed_of_make hmake]
        rw [hshelf] at hbound ⊢
        change ShelfRule _ _ (.ok .done) (shelf ⟨filled⟩)
        rw [hleft]
        exact .add hproper hbound fun hmem ↦ hfirst (none_mem_shelf.1 hmem)

theorem remove_of_find?_eq_none (h : table.find? name = none) :
    table.remove name = .error (.notFound name) := by
  cases hleft : eraseFirst? name table.slots with
  | none => rw [Directory.remove, hleft]
  | some left =>
    obtain ⟨entry, hentry, -⟩ := replaces_of_eraseFirst? hleft
    cases h.symm.trans hentry

theorem serve_remove_obeys (h : Orderly table) (name : String) :
    ShelfRule table.shelf (.remove name) (serve (.remove name) table).1
      (serve (.remove name) table).2.shelf := by
  have hbound := h.bound name
  rw [serve]
  cases hfind : table.find? name with
  | none =>
    rw [hfind] at hbound
    rw [remove_of_find?_eq_none hfind]
    exact .removeMissing hbound
  | some found =>
    obtain ⟨left, hleft⟩ := remove_of_find? hfind
    obtain ⟨entry, hentry, first, rest, hold, hnew⟩ := of_remove hleft
    cases hfind.symm.trans hentry
    obtain ⟨-, rfl⟩ := (hbound found.listed).1 (by rw [hfind]; rfl)
    rw [hleft]
    change ShelfRule table.shelf _ (.ok .done) left.shelf
    rw [shelf, shelf, hold, hnew, List.map_append, List.map_append]
    exact .remove _ _ _

theorem serve_obeys (request : Request) (h : Orderly table) :
    ShelfRule table.shelf request (serve request table).1 (serve request table).2.shelf ∧
      Orderly (serve request table).2 := by
  cases request with
  | add name sector kind =>
    refine ⟨serve_add_obeys h name sector kind, ?_⟩
    rw [serve]
    cases hadd : table.add name sector kind with
    | error error => exact h
    | ok left => exact h.add hadd
  | remove name =>
    refine ⟨serve_remove_obeys h name, ?_⟩
    rw [serve]
    cases hremove : table.remove name with
    | error error => exact h
    | ok left => exact h.remove hremove
  | find name =>
    have hrule := ShelfRule.find (h.bound name)
    rw [Option.map_map] at hrule
    exact ⟨hrule, h⟩
  | findEntry name =>
    have hentry : ((table.find? name).map Entry.listed).map Record.ofListed =
        (table.find? name).map fun entry ↦ Slot.record (some entry) := by
      rw [Option.map_map]
      exact Option.map_congr fun entry hfind ↦
        ofListed_listed (h.proper entry (mem_of_find? hfind).1).2
    refine ⟨?_, h⟩
    rw [serve, ← hentry]
    exact .findEntry (h.bound name)
  | entryType name =>
    have hrule := ShelfRule.entryType (h.bound name)
    rw [Option.map_map] at hrule
    exact ⟨hrule, h⟩
  | list =>
    refine ⟨?_, h⟩
    rw [serve, ← filterMap_shelf]
    exact .list table.shelf
  | isEmpty =>
    exact ⟨.isEmpty h.isEmpty_iff, h⟩

/-! ## Requests in a row -/

/-- The records of a table that has just been made, without entries or with the two links. -/
inductive Starts (capacity : Nat) : List Record → Prop
  | new : Starts capacity (List.replicate capacity .null)
  | formatted {self parent : UInt32} {records : List Record}
      (h : (InPlace.linkRecords self parent).exec (List.replicate capacity .null) =
        .ok (.ok (), records)) : Starts capacity records

theorem Starts.exists_table {capacity : Nat} {records : List Record} (h : Starts capacity records) :
    ∃ table, (table = empty capacity ∨ ∃ self parent, linked capacity self parent = .ok table) ∧
      table.records = records := by
  cases h with
  | new => exact ⟨empty capacity, .inl rfl, List.map_replicate⟩
  | formatted h =>
    obtain ⟨table, htable, hrecords⟩ := InPlace.linked_of_linkRecords h
    exact ⟨table, .inr ⟨_, _, htable⟩, hrecords⟩

/-- A table of any capacity that has just been made goes through requests as a shelf does, and the
requests on its records are those on its slots. What it comes to is on the shelf under proper names,
no two of them the same, and in memory it is the shelf: where nothing lies, the record is null. -/
theorem shelves_of_requests {capacity : Nat} {records : List Record} (h : Starts capacity records)
    (requests : List Request) : ∃ (table left : Directory) (outcomes : List (Except Error Reply)),
      (table = empty capacity ∨ ∃ self parent, linked capacity self parent = .ok table) ∧
      table.records = records ∧
      InPlace.calls InPlace.onRecords requests records = .ok (outcomes, left.records) ∧
      inTurn serve requests table = (outcomes, left) ∧
      Obeyed ShelfRule table.shelf requests outcomes left.shelf ∧
      left.records = left.shelf.map Record.ofPlace ∧
      left.shelf.length = capacity ∧
      (∀ listed, some listed ∈ left.shelf → ProperName listed.name) ∧
      ((left.shelf.filterMap id).map ListedEntry.name).Nodup := by
  obtain ⟨table, hstart, rfl⟩ := h.exists_table
  obtain ⟨horderly, hlength⟩ := orderly_start hstart
  have hcalls : InPlace.calls InPlace.onRecords requests table.records =
      .ok ((inTurn serve requests table).1, (inTurn serve requests table).2.records) :=
    InPlace.calls_eq InPlace.exec_onRecords requests table
  have hstep : ∀ request left, (Orderly left ∧ left.shelf.length = capacity) →
      ShelfRule left.shelf request (serve request left).1 (serve request left).2.shelf ∧
        Orderly (serve request left).2 ∧ (serve request left).2.shelf.length = capacity := by
    rintro request left ⟨hleft, hlen⟩
    obtain ⟨hrule, hnext⟩ := serve_obeys request hleft
    exact ⟨hrule, hnext, hrule.length_eq.trans hlen⟩
  obtain ⟨hobeyed, hleft, hlen⟩ := obeyed_inTurn hstep requests ⟨horderly, hlength⟩
  exact ⟨table, _, _, hstart, rfl, hcalls, rfl, hobeyed, hleft.records_eq, hlen,
    fun _ ↦ hleft.properName, hleft.nodup_names⟩

def linkedThree : List Record :=
  [.ofListed ⟨".", 1, .directory⟩, .ofListed ⟨"..", 1, .directory⟩, .null]

def errands : List Request :=
  [.add "a" 7 .regular, .add "b" 8 .regular, .add "a" 9 .regular, .find "a", .remove "a", .find "a",
    .isEmpty, .add "a/b" 8 .regular, .add "b" 9 .directory, .findEntry "b\x00", .list]

def answers : List (Except Error Reply) :=
  [.ok .done, .error (.capacityExceeded .directoryFull), .error (.alreadyExists "a"),
    .ok (.sector (some 7)), .ok .done, .ok (.sector none), .ok (.flag true),
    .error (.invalidArgument (.reservedCharacter "a/b")), .ok .done, .ok (.entry none),
    .ok (.listed [⟨".", 1, .directory⟩, ⟨"..", 1, .directory⟩, ⟨"b", 9, .directory⟩])]

theorem shelves_of_requests_linkedThree : Starts 3 linkedThree ∧
    ∃ left : Directory,
      InPlace.calls InPlace.onRecords errands linkedThree = .ok (answers, left.records) ∧
      left.records = [.ofListed ⟨".", 1, .directory⟩, .ofListed ⟨"..", 1, .directory⟩,
        .ofListed ⟨"b", 9, .directory⟩] ∧
      left.shelf.length = 3 ∧ ((left.shelf.filterMap id).map ListedEntry.name).Nodup := by
  have hstart : Starts 3 linkedThree := @Starts.formatted 3 1 1 _ (by decide +kernel)
  obtain ⟨table, left, outcomes, -, -, hcalls, -, -, -, hlength, -, hnodup⟩ :=
    shelves_of_requests hstart errands
  have hrun : InPlace.calls InPlace.onRecords errands linkedThree = .ok (answers,
      [.ofListed ⟨".", 1, .directory⟩, .ofListed ⟨"..", 1, .directory⟩,
        .ofListed ⟨"b", 9, .directory⟩]) := by decide +kernel
  obtain ⟨rfl, hleft⟩ := Prod.mk.inj (Except.ok.inj (hcalls.symm.trans hrun))
  exact ⟨hstart, left, hcalls, hleft, hlength, hnodup⟩

end Directory

end SectorFS
