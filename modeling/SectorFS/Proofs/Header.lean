import Mathlib.Algebra.Order.Floor.Div
import SectorFS.Proofs.Guarded.Header

namespace SectorFS

open Layout

def Bytes.number (bytes : Bytes) (pos : Nat) : Nat :=
  (bytes.getD pos 0).toNat + 2 ^ 8 * (bytes.getD (pos + 1) 0).toNat +
    2 ^ 16 * (bytes.getD (pos + 2) 0).toNat + 2 ^ 24 * (bytes.getD (pos + 3) 0).toNat

namespace Header

def Fits (numBytes numSectors : Nat) : Prop :=
  numBytes ≤ maxFileSize ∧ numSectors = numBytes ⌈/⌉ sectorSize

instance (numBytes numSectors : Nat) : Decidable (Fits numBytes numSectors) :=
  inferInstanceAs (Decidable (_ ∧ _))

variable {sector : UInt32} {bytes : Bytes} {header : Header} {pos : Nat}

theorem consistent_iff_fits :
    header.Consistent ↔ Fits header.numBytes.toNat header.numSectors.toNat := Iff.rfl

theorem toNat_wordAt (bytes : Bytes) (pos : Nat) :
    (Guarded.wordAt bytes pos).toNat = bytes.number pos := by
  have h₀ := (bytes.getD pos 0).toNat_lt
  have h₁ := (bytes.getD (pos + 1) 0).toNat_lt
  have h₂ := (bytes.getD (pos + 2) 0).toNat_lt
  have h₃ := (bytes.getD (pos + 3) 0).toNat_lt
  rw [Guarded.wordAt, Bytes.toWord, UInt32.toNat_ofNat', Bytes.number]
  omega

theorem decode_of_short (h : bytes.length < sectorSize) :
    decode sector bytes = .error (.corruption sector (.shortHeader bytes.length)) := by
  rw [decode, Guarded.ofWords?_of_short h]

theorem spelled_consistent_iff :
    (Guarded.spelled bytes).Consistent ↔ Fits (bytes.number 0) (bytes.number 4) := by
  rw [consistent_iff_fits, ← toNat_wordAt, ← toNat_wordAt]
  rfl

theorem decode_of_fits (h : sectorSize ≤ bytes.length)
    (hfits : Fits (bytes.number 0) (bytes.number 4)) :
    decode sector bytes = .ok (Guarded.spelled bytes) := by
  rw [decode, Guarded.ofWords?_of_le h]
  exact if_pos (spelled_consistent_iff.2 hfits)

theorem decode_of_not_fits (h : sectorSize ≤ bytes.length)
    (hfits : ¬Fits (bytes.number 0) (bytes.number 4)) : decode sector bytes =
      .error (.corruption sector (.headerCounts (bytes.number 0) (bytes.number 4))) := by
  rw [decode, Guarded.ofWords?_of_le h, ← toNat_wordAt, ← toNat_wordAt]
  exact if_neg fun hc ↦ hfits (spelled_consistent_iff.1 hc)

structure Answered (sector : UInt32) (bytes : Bytes) (answer : Except Error Header) : Prop where
  accepted_iff : (∃ header, answer = .ok header) ↔
    sectorSize ≤ bytes.length ∧ Fits (bytes.number 0) (bytes.number 4)
  short : bytes.length < sectorSize →
    answer = .error (.corruption sector (.shortHeader bytes.length))
  unfit : sectorSize ≤ bytes.length → ¬Fits (bytes.number 0) (bytes.number 4) →
    answer = .error (.corruption sector (.headerCounts (bytes.number 0) (bytes.number 4)))

theorem answered_decode (sector : UInt32) (bytes : Bytes) :
    Answered sector bytes (decode sector bytes) := by
  refine ⟨⟨?_, fun ⟨hlong, hfits⟩ ↦ ⟨_, decode_of_fits hlong hfits⟩⟩, decode_of_short,
    decode_of_not_fits⟩
  rintro ⟨header, hok⟩
  rcases Nat.lt_or_ge bytes.length sectorSize with hshort | hlong
  · cases hok.symm.trans (decode_of_short hshort)
  · by_cases hfits : Fits (bytes.number 0) (bytes.number 4)
    · exact ⟨hlong, hfits⟩
    · cases hok.symm.trans (decode_of_not_fits hlong hfits)

theorem decode_encode_of_not_fits
    (h : ¬Fits header.numBytes.toNat header.numSectors.toNat) : decode sector header.encode =
      .error (.corruption sector
        (.headerCounts header.numBytes.toNat header.numSectors.toNat)) := by
  have htake : header.encode.take sectorSize = header.encode :=
    List.take_of_length_le (Nat.le_of_eq header.length_encode)
  have hwords : ofWords? (Bytes.words header.encode) = some header := by
    rw [encode, Bytes.words_flatMap_ofWord, ofWords?, dif_pos header.length_slots]
  rw [decode, htake, hwords]
  exact if_neg h

/-- There is a sector for the position exactly if it is in the file: the one with this index among
the recorded sectors. -/
structure Places (header : Header) (pos : Nat) : Prop where
  recorded : Guarded.dataSectors header = .ok header.dataSectors ∧
    header.dataSectors.length = header.numSectors.toNat
  none_iff : Guarded.byteToSector header pos = .ok none ↔ header.numBytes.toNat ≤ pos
  inside : pos < header.numBytes.toNat → pos / sectorSize < header.numSectors.toNat ∧
    ∃ s, header.dataSectors[pos / sectorSize]? = some s ∧
      Guarded.byteToSector header pos = .ok (some s)
  sectorAt?_eq : Guarded.byteToSector header pos = .ok (header.sectorAt? pos)

theorem Consistent.places (h : header.Consistent) (pos : Nat) : header.Places pos := by
  have hlen : header.dataSectors.length = header.numSectors.toNat :=
    h.length_dataSectors.trans h.2.symm
  have hrecorded := Guarded.dataSectors_eq h
  rcases Nat.lt_or_ge pos header.length with hlt | hle
  · obtain ⟨s, hs, hbyte⟩ := Guarded.byteToSector_eq h hlt
    have hindex := hlen ▸ (List.getElem?_eq_some_iff.1 hs).1
    refine ⟨⟨hrecorded, hlen⟩, ⟨fun hnone ↦ ?_, fun hle ↦ absurd hlt (Nat.not_lt_of_le hle)⟩,
      fun _ ↦ ⟨hindex, s, hs, hbyte⟩, ?_⟩
    · cases hbyte.symm.trans hnone
    · rw [hbyte, h.sectorAt? hlt, hs]
  · have hbyte := Guarded.byteToSector_of_le hle
    refine ⟨⟨hrecorded, hlen⟩, ⟨fun _ ↦ hle, fun _ ↦ hbyte⟩,
      fun hlt ↦ absurd hlt (Nat.not_lt_of_le hle), ?_⟩
    rw [hbyte, Header.sectorAt?, if_neg (Nat.not_lt_of_le hle)]

/-- Word by word, bytes are read as a header if and only if they are long enough and their counts
fit, and written back as they were. Every header is written, and read again if its counts fit.
-/
theorem given_back (sector : UInt32) :
    (∀ bytes, Guarded.decodeHeader sector bytes = liftM (decode sector bytes) ∧
      Answered sector bytes (decode sector bytes)) ∧
    (∀ bytes header, decode sector bytes = .ok header →
      Guarded.encodeHeader header = .ok header.block ∧
      header.block.bytes = bytes.take sectorSize ∧ ∀ pos, header.Places pos) ∧
    ∀ header : Header, Guarded.encodeHeader header = .ok header.block ∧
      (Fits header.numBytes.toNat header.numSectors.toNat →
        decode sector header.block.bytes = .ok header) ∧
      (¬Fits header.numBytes.toNat header.numSectors.toNat → decode sector header.block.bytes =
        .error (.corruption sector
          (.headerCounts header.numBytes.toNat header.numSectors.toNat))) := by
  refine ⟨fun bytes ↦ ⟨Guarded.decodeHeader_eq sector bytes, answered_decode sector bytes⟩,
    fun bytes header hok ↦ ?_, fun header ↦ ?_⟩
  · exact ⟨Guarded.encodeHeader_eq header, encode_of_decode hok,
      (consistent_of_decode hok).places⟩
  · exact ⟨Guarded.encodeHeader_eq header, decode_encode sector, decode_encode_of_not_fits⟩

def threeHundred (numSectors : UInt32) : Header where
  numBytes := 300
  numSectors := numSectors
  slots := [7, 9, 11] ++ List.replicate 27 0
  length_slots := rfl

/-- Three sectors are accepted and serve up to the last byte; one sector is not. -/
theorem given_back_threeHundred :
    decode 5 ((threeHundred 3).block.bytes ++ [255]) = .ok (threeHundred 3) ∧
      Guarded.byteToSector (threeHundred 3) 299 = .ok (some 11) ∧
      Guarded.byteToSector (threeHundred 3) 300 = .ok none ∧
      decode 5 (threeHundred 3).block.bytes = .ok (threeHundred 3) ∧
      decode 5 (threeHundred 1).block.bytes = .error (.corruption 5 (.headerCounts 300 1)) ∧
      decode 5 [1, 2, 3] = .error (.corruption 5 (.shortHeader 3)) := by
  obtain ⟨hread, hback, hwritten⟩ := given_back 5
  have hok : decode 5 ((threeHundred 3).block.bytes ++ [255]) = .ok (threeHundred 3) := by
    decide +kernel
  obtain ⟨-, -, hplaces⟩ := hback _ _ hok
  obtain ⟨-, s, hs, hlast⟩ := (hplaces 299).inside (by decide)
  have hfits : Fits 300 3 := by decide
  have hunfit : ¬Fits 300 1 := by decide
  cases hs
  exact ⟨hok, hlast, (hplaces 300).none_iff.2 (by decide), (hwritten (threeHundred 3)).2.1 hfits,
    (hwritten (threeHundred 1)).2.2 hunfit, (hread [1, 2, 3]).2.short (by decide)⟩

end Header

end SectorFS
