import SectorFS.Directory.Stored
import SectorFS.Proofs.Directory
import SectorFS.Proofs.File

namespace SectorFS

open Layout

namespace Directory

variable {sector : UInt32} {bytes : Bytes} {slots : List Slot}

/-- Each piece of the bytes decodes to its slot. -/
def Spells (sector : UInt32) (bytes : Bytes) (slots : List Slot) : Prop :=
  ∀ i slot, slots[i]? = some slot →
    Slot.decode sector ((bytes.drop (slotSize * i)).take slotSize) = .ok slot

theorem spells_cons {slot : Slot} : Spells sector bytes (slot :: slots) ↔
    Slot.decode sector (bytes.take slotSize) = .ok slot ∧
      Spells sector (bytes.drop slotSize) slots := by
  have hdrop : ∀ i, (bytes.drop slotSize).drop (slotSize * i) = bytes.drop (slotSize * (i + 1)) :=
    fun i ↦ by rw [List.drop_drop, Nat.mul_succ, Nat.add_comm]
  constructor
  · intro h
    refine ⟨h 0 slot rfl, fun i other hi ↦ ?_⟩
    rw [hdrop]
    exact h (i + 1) other hi
  · rintro ⟨hfirst, hrest⟩ i other hi
    cases i with
    | zero => cases hi; exact hfirst
    | succ i =>
      rw [← hdrop]
      exact hrest i other hi

theorem decodeSlots_eq_ok_iff {old : List Slot} :
    decodeSlots sector old bytes = (slots, .ok ()) ↔
      slots.length = old.length ∧ Spells sector bytes slots := by
  induction old generalizing bytes slots with
  | nil =>
    constructor
    · intro h
      cases h
      exact ⟨rfl, nofun⟩
    · rintro ⟨hlen, -⟩
      rw [List.length_eq_zero_iff.1 hlen, decodeSlots]
  | cons slot rest ih =>
    unfold decodeSlots
    cases hd : Slot.decode sector (bytes.take slotSize) with
    | error error =>
      refine ⟨fun h ↦ absurd (Prod.mk.inj h).2 nofun, fun ⟨hlen, hspells⟩ ↦ ?_⟩
      obtain ⟨first, more, rfl⟩ := List.exists_cons_of_length_eq_add_one hlen
      rw [(spells_cons.1 hspells).1] at hd
      contradiction
    | ok decoded =>
      constructor
      · intro h
        obtain ⟨rfl, hout⟩ := Prod.mk.inj h
        obtain ⟨hlen, hspells⟩ := ih.1 (Prod.ext rfl hout)
        exact ⟨congrArg (· + 1) hlen, spells_cons.2 ⟨hd, hspells⟩⟩
      · rintro ⟨hlen, hspells⟩
        obtain ⟨first, more, rfl⟩ := List.exists_cons_of_length_eq_add_one hlen
        obtain ⟨hfirst, hmore⟩ := spells_cons.1 hspells
        cases hd.symm.trans hfirst
        have hrest := ih.2 ⟨Nat.succ.inj hlen, hmore⟩
        simp only [hrest]

theorem spells_bytes (sector : UInt32) (table : Directory) :
    Spells sector table.bytes table.slots := by
  obtain ⟨slots⟩ := table
  induction slots with
  | nil => exact nofun
  | cons slot rest ih =>
    have hlen := slot.length_encode
    rw [spells_cons]
    refine ⟨?_, ?_⟩
    · rw [bytes, List.flatMap_cons, List.take_left' hlen]
      exact Slot.decode_encode sector slot
    · rw [bytes, List.flatMap_cons, List.drop_left' hlen]
      exact ih

theorem spells_overwrite {old new : Bytes} {before after : List Slot} {n count : Nat}
    (hn : slotSize * n ≤ new.length) (hcount : count = slotSize * before.length)
    (hold : count ≤ old.length) (hlen : after.length = before.length)
    (hbefore : Spells sector (old.take count) before) (hafter : Spells sector new after) :
    Spells sector ((old.overwrite 0 (new.take (slotSize * n))).take count)
      (after.take n ++ before.drop n) := by
  intro i slot hi
  have hlt : i < before.length := by
    have := (List.getElem?_eq_some_iff.1 hi).1
    simp only [List.length_append, List.length_take, List.length_drop] at this
    omega
  rw [List.getElem?_append, List.length_take] at hi
  by_cases hin : i < n
  · rw [if_pos (by omega), List.getElem?_take_of_lt hin] at hi
    rw [← hafter i slot hi]
    congr 1
    apply List.ext_getElem?
    intro j
    simp only [List.getElem?_take, List.getElem?_drop, Bytes.getElem?_overwrite, List.length_take,
      slotSize, maxNameLength] at *
    by_cases hj : j < 16
    · simp only [if_pos hj]
      rw [if_pos (by omega), if_pos (by omega), Nat.sub_zero, if_pos (by omega)]
    · simp only [if_neg hj]
  · rw [if_neg (by omega), List.getElem?_drop] at hi
    have hindex : n + (i - min n after.length) = i := by omega
    rw [hindex] at hi
    rw [← hbefore i slot hi]
    congr 1
    apply List.ext_getElem?
    intro j
    simp only [List.getElem?_take, List.getElem?_drop, Bytes.getElem?_overwrite, List.length_take,
      slotSize, maxNameLength] at *
    by_cases hj : j < 16
    · simp only [if_pos hj]
      rw [if_pos (by omega), if_neg (by omega), if_pos (by omega)]
    · simp only [if_neg hj]

end Directory

namespace File

open Directory

variable {file : File} {device : Device} {table old new : Directory}

theorem readDirectory_eq_ok_iff : file.readDirectory device = .ok table ↔
    ∃ bytes, file.read directoryFileSize 0 device = .ok bytes ∧
      bytes.length = directoryFileSize ∧ table.capacity = directorySlots ∧
      Spells file.sector bytes table.slots := by
  have hread : file.readDirectory device = ((Directory.empty directorySlots).fetch file device).2.map
      fun _ ↦ ((Directory.empty directorySlots).fetch file device).1 := rfl
  have hsize : (Directory.empty directorySlots).size = directoryFileSize := rfl
  rw [hread, fetch, hsize]
  cases hr : file.read directoryFileSize 0 device with
  | error error => exact ⟨nofun, fun ⟨_, h, _⟩ ↦ absurd h nofun⟩
  | ok bytes =>
    by_cases hlen : bytes.length = directoryFileSize
    · simp only [if_pos hlen]
      cases hd : decodeSlots file.sector (Directory.empty directorySlots).slots bytes with
      | mk slots outcome =>
        constructor
        · intro h
          cases outcome with
          | error error => contradiction
          | ok =>
            cases h
            obtain ⟨hcap, hspells⟩ := decodeSlots_eq_ok_iff.1 hd
            exact ⟨bytes, rfl, hlen, hcap, hspells⟩
        · rintro ⟨_, ⟨⟩, -, hcap, hspells⟩
          have hslots := hd.symm.trans (decodeSlots_eq_ok_iff.2 ⟨hcap, hspells⟩)
          cases hslots
          rfl
    · simp only [if_neg hlen]
      exact ⟨nofun, fun ⟨_, h, hlen', _⟩ ↦ absurd (Except.ok.inj h ▸ hlen') hlen⟩

theorem capacity_of_readDirectory (h : file.readDirectory device = .ok table) :
    table.capacity = directorySlots := by
  obtain ⟨_, -, -, hcap, -⟩ := readDirectory_eq_ok_iff.1 h
  exact hcap

theorem le_length_of_readDirectory (h : file.readDirectory device = .ok table) :
    directoryFileSize ≤ file.length := by
  obtain ⟨bytes, hr, hlen, -⟩ := readDirectory_eq_ok_iff.1 h
  have := length_of_read hr
  rw [hlen, extent] at this
  omega

theorem readDirectory_healed (h : file.readDirectory device = .ok table) :
    file.readDirectory device.healed = .ok table := by
  obtain ⟨bytes, hr, hrest⟩ := readDirectory_eq_ok_iff.1 h
  exact readDirectory_eq_ok_iff.2 ⟨bytes, read_healed hr, hrest⟩

theorem readDirectory_congr {after : Device} (hf : device.faults = {}) (hf' : after.faults = {})
    (h : ∀ s ∈ file.header.dataSectors, after.block? s = device.block? s)
    (hread : file.readDirectory device = .ok table) : file.readDirectory after = .ok table := by
  obtain ⟨bytes, hr, hrest⟩ := readDirectory_eq_ok_iff.1 hread
  exact readDirectory_eq_ok_iff.2 ⟨bytes, (read_congr hf hf' h _ _).trans hr, hrest⟩

end File

namespace Directory

variable {file : File} {device : Device} {table old new : Directory}

theorem length_bytes_of_capacity (h : table.capacity = directorySlots) :
    table.bytes.length = directoryFileSize := by
  rw [length_bytes, size, h]
  rfl

theorem carriesOut_store_of_room (hcap : table.capacity = directorySlots)
    (hroom : directoryFileSize ≤ file.length)
    (h : ∀ span ∈ file.spans 0 directoryFileSize, device.Has span.sector) :
    (table.store file).CarriesOut device (file.rewrites device table.bytes 0) () := by
  have hlen := length_bytes_of_capacity hcap
  rw [store, ← table.length_bytes, hlen]
  exact File.carriesOut_record hlen hroom h
    fun took ↦ .corruption file.sector (.directoryTakes took directoryFileSize)

theorem carriesOut_store {before : Device} (h : file.readDirectory before = .ok old)
    (hsize : before.blocks.size ≤ device.blocks.size) (hcap : table.capacity = directorySlots) :
    (table.store file).CarriesOut device (file.rewrites device table.bytes 0) () := by
  obtain ⟨bytes, hr, -⟩ := File.readDirectory_eq_ok_iff.1 h
  exact carriesOut_store_of_room hcap (File.le_length_of_readDirectory h) fun span hspan ↦
    Nat.lt_of_lt_of_le (File.has_of_read hr span hspan) hsize

theorem readDirectory_store (hf : device.faults = {}) (hd : file.header.dataSectors.Nodup)
    (h : file.OnDevice device) (hroom : directoryFileSize ≤ file.length)
    (hcap : table.capacity = directorySlots) :
    file.readDirectory (device.edit (file.rewrites device table.bytes 0)) = .ok table := by
  have hlen := length_bytes_of_capacity hcap
  exact File.readDirectory_eq_ok_iff.2
    ⟨table.bytes, File.read_record hf hd h hlen hroom, hlen, hcap, spells_bytes _ _⟩

theorem readDirectory_take_store {x y : Slot} (hf : device.faults = {})
    (hd : file.header.dataSectors.Nodup) (h : file.OnDevice device)
    (hread : file.readDirectory device = .ok old) (hnew : Replaces old new x y) (k : Nat) :
    file.readDirectory (device.edit ((file.rewrites device new.bytes 0).take k)) = .ok old ∨
      file.readDirectory (device.edit ((file.rewrites device new.bytes 0).take k)) = .ok new := by
  have hroom := File.le_length_of_readDirectory hread
  obtain ⟨bytes, hr, hlen, hcap, hspells⟩ := File.readDirectory_eq_ok_iff.1 hread
  have hnewCap := hnew.capacity.trans hcap
  have hnewLen := length_bytes_of_capacity hnewCap
  obtain ⟨j, hj, hcontents, hend⟩ := File.contents_take_rewrites hd h new.bytes 0 k
  rw [File.extent, hnewLen, Nat.sub_zero, Nat.min_eq_left hroom] at hj hend
  -- A sector holds whole slots, so where a sector ends no slot is half written.
  have hpieces : ∃ n, j = slotSize * n := by
    refine ⟨j / slotSize, ?_⟩
    simp only [directoryFileSize, slotSize, maxNameLength, directorySlots, sectorSize] at *
    omega
  obtain ⟨n, rfl⟩ := hpieces
  rw [File.read_eq hf h, List.drop_zero] at hr
  obtain rfl := Except.ok.inj hr
  have hmixed : file.readDirectory (device.edit ((file.rewrites device new.bytes 0).take k)) =
      .ok ⟨new.slots.take n ++ old.slots.drop n⟩ := by
    refine File.readDirectory_eq_ok_iff.2 ⟨_, File.read_eq (Device.faults_edit hf _) (h.edit _) _ _,
      ?_, ?_, ?_⟩
    · rw [hcontents, List.drop_zero, List.length_take, Bytes.length_overwrite,
        File.length_contents, Nat.min_eq_left hroom]
    · simp only [capacity, List.length_append, List.length_take, List.length_drop] at *
      omega
    · rw [hcontents, List.drop_zero]
      refine spells_overwrite (by omega) ?_ ?_ ?_ hspells (spells_bytes _ new)
      · simp only [capacity] at hcap
        rw [hcap, directoryFileSize]
      · rwa [File.length_contents]
      · exact hnew.capacity
  rcases hnew.mix n with hmix | hmix <;> rw [hmix] at hmixed
  · exact .inl hmixed
  · exact .inr hmixed

end Directory

namespace Device

variable {device after : Device} {s : UInt32} {file : File} {table : Directory}

theorem openDirectory_eq_ok_iff : device.openDirectory s = .ok (file, table) ↔
    device.openFile s = .ok file ∧ file.readDirectory device = .ok table := by
  constructor
  · intro h
    obtain ⟨opened, hopen, h⟩ := bind_eq_ok.1 h
    obtain ⟨read, hread, h⟩ := bind_eq_ok.1 h
    cases h
    exact ⟨hopen, hread⟩
  · rintro ⟨hopen, hread⟩
    exact bind_eq_ok.2 ⟨file, hopen, bind_eq_ok.2 ⟨table, hread, rfl⟩⟩

theorem openDirectory_healed (h : device.openDirectory s = .ok (file, table)) :
    device.healed.openDirectory s = .ok (file, table) := by
  obtain ⟨hopen, hread⟩ := openDirectory_eq_ok_iff.1 h
  exact openDirectory_eq_ok_iff.2 ⟨openFile_healed hopen, File.readDirectory_healed hread⟩

theorem openDirectory_congr (hf : device.faults = {}) (hf' : after.faults = {})
    (hs : after.block? s = device.block? s)
    (hdata : ∀ header, device.readHeader s = .ok header →
      ∀ t ∈ header.dataSectors, after.block? t = device.block? t)
    (h : device.openDirectory s = .ok (file, table)) :
    after.openDirectory s = .ok (file, table) := by
  obtain ⟨hopen, hread⟩ := openDirectory_eq_ok_iff.1 h
  exact openDirectory_eq_ok_iff.2 ⟨(openFile_congr hf hf' hs).trans hopen,
    File.readDirectory_congr hf hf' (hdata _ (openFile_eq_ok_iff.1 hopen).2) hread⟩

end Device

end SectorFS
