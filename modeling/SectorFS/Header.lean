import SectorFS.Device

namespace SectorFS

open Layout

def sectorsFor (numBytes : Nat) : Nat := (numBytes + (sectorSize - 1)) / sectorSize

theorem sectorsFor_le {numBytes : Nat} (h : numBytes ≤ maxFileSize) :
    sectorsFor numBytes ≤ numDirect := by
  simp only [sectorsFor, maxFileSize, numDirect, sectorSize] at *
  omega

structure Header where
  numBytes : UInt32
  numSectors : UInt32
  slots : List UInt32
  length_slots : slots.length = numDirect
  deriving DecidableEq, Repr

namespace Header

def empty : Header := ⟨0, 0, List.replicate numDirect 0, List.length_replicate⟩

def length (header : Header) : Nat := header.numBytes.toNat

def dataSectors (header : Header) : List UInt32 := header.slots.take header.numSectors.toNat

def Consistent (header : Header) : Prop :=
  header.length ≤ maxFileSize ∧ header.numSectors.toNat = sectorsFor header.length

instance (header : Header) : Decidable header.Consistent :=
  inferInstanceAs (Decidable (_ ∧ _))

theorem Consistent.length_dataSectors {header : Header} (h : header.Consistent) :
    header.dataSectors.length = sectorsFor header.length := by
  obtain ⟨hlen, hcount⟩ := h
  rw [dataSectors, List.length_take, header.length_slots, hcount,
    Nat.min_eq_left (sectorsFor_le hlen)]

def sectorAt? (header : Header) (pos : Nat) : Option UInt32 :=
  if pos < header.length then header.slots[pos / sectorSize]? else none

theorem Consistent.sectorAt? {header : Header} (h : header.Consistent) {pos : Nat}
    (hpos : pos < header.length) :
    header.sectorAt? pos = header.dataSectors[pos / sectorSize]? := by
  have hlt : pos / sectorSize < sectorsFor header.length := by
    simp only [sectorsFor, sectorSize]
    omega
  rw [Header.sectorAt?, if_pos hpos, dataSectors, List.getElem?_take_of_lt (h.2 ▸ hlt)]

def encode (header : Header) : Bytes :=
  (header.numBytes :: header.numSectors :: header.slots).flatMap Bytes.ofWord

theorem length_encode (header : Header) : header.encode.length = sectorSize := by
  rw [encode, Bytes.length_flatMap_ofWord, List.length_cons, List.length_cons, header.length_slots]
  rfl

def block (header : Header) : Block := ⟨header.encode, header.length_encode⟩

/-- The header that the words of a sector spell, whatever they claim. -/
def ofWords? : List UInt32 → Option Header
  | numBytes :: numSectors :: slots =>
    if h : slots.length = numDirect then some ⟨numBytes, numSectors, slots, h⟩ else none
  | _ => none

def decode (sector : UInt32) (bytes : Bytes) : Except Error Header :=
  match ofWords? (Bytes.words (bytes.take sectorSize)) with
  | none => .error (.corruption sector (.shortHeader bytes.length))
  | some header =>
    if header.Consistent then .ok header
    else .error (.corruption sector
      (.headerCounts header.numBytes.toNat header.numSectors.toNat))

theorem eq_of_ofWords? {words : List UInt32} {header : Header} (h : ofWords? words = some header) :
    words = header.numBytes :: header.numSectors :: header.slots := by
  unfold ofWords? at h
  split at h
  · split at h
    · simp [← Option.some.inj h]
    · contradiction
  · contradiction

theorem decode_encode (sector : UInt32) {header : Header} (h : header.Consistent) :
    decode sector header.encode = .ok header := by
  have htake : header.encode.take sectorSize = header.encode :=
    List.take_of_length_le (Nat.le_of_eq header.length_encode)
  have hwords : ofWords? (Bytes.words header.encode) = some header := by
    rw [encode, Bytes.words_flatMap_ofWord, ofWords?, dif_pos header.length_slots]
  simp only [decode, htake, hwords, if_pos h]

theorem consistent_of_decode {sector : UInt32} {bytes : Bytes} {header : Header}
    (h : decode sector bytes = .ok header) : header.Consistent := by
  unfold decode at h
  split at h
  · contradiction
  · split at h
    · next hc => exact (Except.ok.inj h) ▸ hc
    · contradiction

theorem encode_of_decode {sector : UInt32} {bytes : Bytes} {header : Header}
    (h : decode sector bytes = .ok header) : header.encode = bytes.take sectorSize := by
  unfold decode at h
  split at h
  · contradiction
  · next decoded hwords =>
    have hw := eq_of_ofWords? hwords
    split at h
    · obtain rfl := Except.ok.inj h
      have hlen := Bytes.length_words (bytes.take sectorSize)
      rw [hw, List.length_cons, List.length_cons, decoded.length_slots] at hlen
      have hle := List.length_take_le sectorSize bytes
      rw [encode, ← hw]
      apply Bytes.flatMap_ofWord_words
      simp only [numDirect, sectorSize] at hlen hle ⊢
      omega
    · contradiction

end Header

namespace Device

def readHeader (device : Device) (sector : UInt32) : Except Error Header := do
  Header.decode sector (← device.read sector).bytes

theorem consistent_of_readHeader {device : Device} {sector : UInt32} {header : Header}
    (h : device.readHeader sector = .ok header) : header.Consistent := by
  unfold readHeader at h
  cases hr : device.read sector with
  | error e => rw [hr] at h; contradiction
  | ok block => rw [hr] at h; exact Header.consistent_of_decode h

end Device

namespace Action

def writeHeader (header : Header) (sector : UInt32) : Action Unit := write sector header.block

end Action

end SectorFS
