import SectorFS.Header.Dump
import SectorFS.Proofs.Device.Contents
import SectorFS.Proofs.Guarded.Program

namespace SectorFS

open Layout

namespace Guarded

/-! ## Words -/

def readWord (bytes : Bytes) (pos : Nat) : Guarded UInt32 := do
  return Bytes.toWord (← get bytes pos) (← get bytes (← add pos 1)) (← get bytes (← add pos 2))
    (← get bytes (← add pos 3))

def writeWord (bytes : Bytes) (pos : Nat) (w : UInt32) : Guarded Bytes := do
  copy bytes pos (← add pos 4) (Bytes.ofWord w)

def wordAt (bytes : Bytes) (pos : Nat) : UInt32 :=
  Bytes.toWord (bytes.getD pos 0) (bytes.getD (pos + 1) 0) (bytes.getD (pos + 2) 0)
    (bytes.getD (pos + 3) 0)

theorem readWord_eq {bytes : Bytes} {pos : Nat} (h : pos + 4 ≤ bytes.length)
    (hword : pos + 4 < wordLimit) : readWord bytes pos = .ok (wordAt bytes pos) := by
  have hget : ∀ i < 4, get bytes (pos + i) = .ok (bytes.getD (pos + i) 0) := fun i hi ↦
    get_eq_ok (by rw [List.getD_eq_getElem?_getD, List.getElem?_eq_getElem (by omega)]; rfl)
  rw [readWord, show get bytes pos = _ from hget 0 (by decide), ok_bind, add_eq_ok (by omega),
    ok_bind, hget 1 (by decide), ok_bind, add_eq_ok (by omega), ok_bind, hget 2 (by decide), ok_bind,
    add_eq_ok (by omega), ok_bind, hget 3 (by decide), ok_bind]
  rfl

theorem writeWord_eq {bytes : Bytes} {pos : Nat} (h : pos + 4 ≤ bytes.length)
    (hword : pos + 4 < wordLimit) (w : UInt32) :
    writeWord bytes pos w = .ok (bytes.overwrite pos (Bytes.ofWord w)) := by
  rw [writeWord, add_eq_ok hword, ok_bind]
  exact copy_eq_ok rfl h

theorem getElem?_words : (bytes : Bytes) → (i : Nat) → 4 * i + 4 ≤ bytes.length →
    bytes.words[i]? = some (wordAt bytes (4 * i))
  | _ :: _ :: _ :: _ :: _, 0, _ => rfl
  | a :: b :: c :: d :: rest, i + 1, h => by
    have hrest := getElem?_words rest i (by simp only [List.length_cons] at h; omega)
    rw [Bytes.words, List.getElem?_cons_succ, hrest, Nat.mul_succ]
    rfl
  | [], _, h | [_], _, h | [_, _], _, h | [_, _, _], _, h => by
    simp only [List.length_cons, List.length_nil] at h
    omega

/-! ## Decoding -/

def readSlots (bytes : Bytes) : Guarded (List UInt32) :=
  (List.range numDirect).mapM fun i ↦ do readWord bytes (← add 8 (← mul i 4))

def header (numBytes numSectors : UInt32) (slots : List UInt32) : Guarded Header :=
  if h : slots.length = numDirect then .ok ⟨numBytes, numSectors, slots, h⟩ else .error .range

def decodeHeader (sector : UInt32) (bytes : Bytes) : Program Header := do
  if bytes.length < sectorSize then .fail (.corruption sector (.shortHeader bytes.length))
  else
    let numBytes ← readWord bytes 0
    let numSectors ← readWord bytes 4
    if numBytes.toNat ≤ maxFileSize ∧ numSectors.toNat = sectorsFor numBytes.toNat then
      header numBytes numSectors (← readSlots bytes)
    else .fail (.corruption sector (.headerCounts numBytes.toNat numSectors.toNat))

theorem words_take {bytes : Bytes} (h : sectorSize ≤ bytes.length) :
    Bytes.words (bytes.take sectorSize) = wordAt bytes 0 :: wordAt bytes 4 ::
      (List.range numDirect).map fun i ↦ wordAt bytes (8 + i * 4) := by
  have hlen : (bytes.take sectorSize).length = sectorSize := by
    rw [List.length_take, Nat.min_eq_left h]
  have hword : ∀ pos, pos + 4 ≤ sectorSize → wordAt (bytes.take sectorSize) pos = wordAt bytes pos := by
    intro pos hpos
    have hget : ∀ i < sectorSize, (bytes.take sectorSize).getD i 0 = bytes.getD i 0 := fun i hi ↦ by
      rw [List.getD_eq_getElem?_getD, List.getD_eq_getElem?_getD, List.getElem?_take_of_lt hi]
    rw [wordAt, wordAt, hget _ (by omega), hget _ (by omega), hget _ (by omega), hget _ (by omega)]
  apply List.ext_getElem?
  intro i
  by_cases hi : i < numDirect + 2
  · rw [getElem?_words _ _ (by simp only [numDirect, sectorSize] at *; omega),
      hword _ (by simp only [numDirect, sectorSize] at *; omega)]
    rcases i with - | - | i
    · rfl
    · rfl
    · rw [List.getElem?_cons_succ, List.getElem?_cons_succ, List.getElem?_map,
        List.getElem?_range (by omega), Option.map_some, show 4 * (i + 1 + 1) = 8 + i * 4 by omega]
  · rw [List.getElem?_eq_none, List.getElem?_eq_none]
    · simp only [List.length_cons, List.length_map, List.length_range]
      omega
    · rw [Bytes.length_words, hlen]
      simp only [numDirect, sectorSize] at *
      omega

theorem readSlots_eq {bytes : Bytes} (h : sectorSize ≤ bytes.length) :
    readSlots bytes = .ok ((List.range numDirect).map fun i ↦ wordAt bytes (8 + i * 4)) := by
  refine mapM_eq_ok fun i hi ↦ ?_
  have hlt := List.mem_range.1 hi
  simp only [numDirect, sectorSize] at hlt h
  rw [mul_eq_ok (by simp only [wordLimit]; omega), ok_bind,
    add_eq_ok (by simp only [wordLimit]; omega), ok_bind]
  exact readWord_eq (by omega) (by simp only [wordLimit]; omega)

def spelled (bytes : Bytes) : Header where
  numBytes := wordAt bytes 0
  numSectors := wordAt bytes 4
  slots := (List.range numDirect).map fun i ↦ wordAt bytes (8 + i * 4)
  length_slots := by rw [List.length_map, List.length_range]

theorem ofWords?_of_short {bytes : Bytes} (h : bytes.length < sectorSize) :
    Header.ofWords? (Bytes.words (bytes.take sectorSize)) = none := by
  rw [List.take_of_length_le (Nat.le_of_lt h)]
  have hlen := bytes.length_words
  cases hwords : bytes.words with
  | nil => rfl
  | cons numBytes more =>
    cases more with
    | nil => rfl
    | cons numSectors slots =>
      simp only [hwords, List.length_cons, sectorSize] at hlen h
      exact dif_neg (by simp only [numDirect, sectorSize]; omega)

theorem ofWords?_of_le {bytes : Bytes} (h : sectorSize ≤ bytes.length) :
    Header.ofWords? (Bytes.words (bytes.take sectorSize)) = some (spelled bytes) := by
  have hlen : ((List.range numDirect).map fun i ↦ wordAt bytes (8 + i * 4)).length = numDirect :=
    (spelled bytes).length_slots
  rw [words_take h, Header.ofWords?, dif_pos hlen]
  rfl

theorem decodeHeader_eq (sector : UInt32) (bytes : Bytes) :
    decodeHeader sector bytes = liftM (Header.decode sector bytes) := by
  rw [decodeHeader, Header.decode]
  split
  · next hshort =>
    rw [ofWords?_of_short hshort]
    rfl
  · next hlong =>
    have hle := Nat.le_of_not_lt hlong
    have hheader : header (wordAt bytes 0) (wordAt bytes 4) (spelled bytes).slots =
        .ok (spelled bytes) :=
      dif_pos (spelled bytes).length_slots
    rw [Program.guarded_bind (readWord_eq (by simp only [sectorSize] at hle; omega) (by decide)),
      Program.guarded_bind (readWord_eq (by simp only [sectorSize] at hle; omega) (by decide)),
      Program.guarded_bind (readSlots_eq hle), ofWords?_of_le hle]
    dsimp only
    split
    · next hcounts =>
      rw [if_pos (c := (spelled bytes).Consistent) hcounts]
      exact congrArg Program.ofGuarded hheader
    · next hcounts =>
      rw [if_neg (c := (spelled bytes).Consistent) hcounts]
      rfl

/-! ## Encoding -/

def writeSlots (bytes : Bytes) : List UInt32 → (i : Nat) → Guarded Bytes
  | [], _ => .ok bytes
  | sector :: rest, i => do writeSlots (← writeWord bytes (← add 8 (← mul i 4)) sector) rest (i + 1)

def encodeHeader (header : Header) : Guarded Block := do
  let bytes ← writeWord (Bytes.zeros sectorSize) 0 header.numBytes
  let bytes ← writeWord bytes 4 header.numSectors
  block (← writeSlots bytes header.slots 0)

theorem writeWord_zeros {written : Bytes} {pos count : Nat} (hpos : pos = written.length)
    (hword : pos + 4 < wordLimit) (w : UInt32) :
    writeWord (written ++ Bytes.zeros (count + 4)) pos w =
      .ok (written ++ Bytes.ofWord w ++ Bytes.zeros count) := by
  have hlen : (written ++ Bytes.zeros (count + 4)).length = pos + (count + 4) := by
    rw [List.length_append, Bytes.length_zeros, hpos]
  have hdrop : (Bytes.zeros (count + 4)).drop 4 = Bytes.zeros count := by
    rw [Bytes.zeros, List.drop_replicate, Nat.add_sub_cancel, Bytes.zeros]
  rw [writeWord_eq (by omega) hword, Bytes.overwrite_append_of_ge (Nat.le_of_eq hpos.symm), hpos,
    Nat.sub_self, Bytes.overwrite_zero, Bytes.length_ofWord, hdrop, List.append_assoc]
  rw [Bytes.length_ofWord, Bytes.length_zeros]
  omega

theorem writeSlots_zeros {written : Bytes} {slots : List UInt32} {i : Nat}
    (hwritten : written.length = 8 + i * 4) (h : 8 + (i + slots.length) * 4 < wordLimit) :
    writeSlots (written ++ Bytes.zeros (4 * slots.length)) slots i =
      .ok (written ++ slots.flatMap Bytes.ofWord) := by
  induction slots generalizing written i with
  | nil => rfl
  | cons sector rest ih =>
    rw [List.length_cons] at h
    have hnext : (written ++ Bytes.ofWord sector).length = 8 + (i + 1) * 4 := by
      rw [List.length_append, Bytes.length_ofWord]
      omega
    rw [writeSlots, mul_eq_ok (by omega), ok_bind, add_eq_ok (by omega), ok_bind, List.length_cons,
      Nat.mul_succ, writeWord_zeros hwritten.symm (by omega), ok_bind, ih hnext (by omega),
      List.flatMap_cons, List.append_assoc]

theorem encodeHeader_eq (header : Header) : encodeHeader header = .ok header.block := by
  have hslots : writeSlots (Bytes.ofWord header.numBytes ++ Bytes.ofWord header.numSectors ++
      Bytes.zeros (4 * header.slots.length)) header.slots 0 = .ok (Bytes.ofWord header.numBytes ++
      Bytes.ofWord header.numSectors ++ header.slots.flatMap Bytes.ofWord) :=
    writeSlots_zeros rfl (by rw [header.length_slots]; decide)
  have hlen : 4 * header.slots.length = 120 := by rw [header.length_slots]; rfl
  have hfirst : writeWord (Bytes.zeros sectorSize) 0 header.numBytes =
      .ok (Bytes.ofWord header.numBytes ++ Bytes.zeros 124) :=
    @writeWord_zeros [] 0 124 rfl (by decide) _
  have hsecond : writeWord (Bytes.ofWord header.numBytes ++ Bytes.zeros 124) 4 header.numSectors =
      .ok (Bytes.ofWord header.numBytes ++ Bytes.ofWord header.numSectors ++ Bytes.zeros 120) :=
    writeWord_zeros rfl (by rw [Bytes.length_ofWord]; decide) _
  rw [hlen] at hslots
  rw [encodeHeader, hfirst, ok_bind, hsecond, ok_bind, hslots, ok_bind]
  exact block_eq_ok header.length_encode

/-! ## What a header names -/

def byteToSector (header : Header) (pos : Nat) : Guarded (Option UInt32) := do
  if header.length ≤ pos then return none
  else return some (← get header.slots (pos / sectorSize))

def dataSectors (header : Header) : Guarded (List UInt32) :=
  slice header.slots 0 header.numSectors.toNat

variable {header : Header} {pos : Nat}

theorem byteToSector_of_le (h : header.length ≤ pos) : byteToSector header pos = .ok none :=
  if_pos h

theorem byteToSector_eq (hc : header.Consistent) (h : pos < header.length) :
    ∃ sector, header.dataSectors[pos / sectorSize]? = some sector ∧
      byteToSector header pos = .ok (some sector) := by
  have hlt : pos / sectorSize < header.dataSectors.length := by
    rw [hc.length_dataSectors]
    simp only [sectorsFor, sectorSize]
    omega
  have hsector := List.getElem?_eq_getElem hlt
  refine ⟨_, hsector, ?_⟩
  rw [← hc.sectorAt? h, Header.sectorAt?, if_pos h] at hsector
  rw [byteToSector, if_neg (Nat.not_le_of_lt h), get_eq_ok hsector]
  rfl

theorem dataSectors_of_le (h : header.numSectors.toNat ≤ numDirect) :
    Guarded.dataSectors header = .ok header.dataSectors := by
  apply slice_zero
  rwa [header.length_slots]

theorem dataSectors_eq (h : header.Consistent) :
    Guarded.dataSectors header = .ok header.dataSectors :=
  dataSectors_of_le (h.2 ▸ sectorsFor_le h.1)

/-! ## On the device -/

def readHeader (sector : UInt32) : Program Header := do
  decodeHeader sector (← Program.readSector sector).bytes

def writeHeader (header : Header) (sector : UInt32) : Program Unit := do
  Program.writeSector sector (← encodeHeader header)

theorem asks_readHeader (sector : UInt32) :
    (readHeader sector).Asks (·.readHeader sector) Header.Consistent := by
  refine Program.Asks.bind (Program.follows_readSector sector) fun block _ ↦ ?_
  rw [decodeHeader_eq]
  exact Program.follows_except fun _ ↦ Header.consistent_of_decode

theorem acts_writeHeader (header : Header) (sector : UInt32) :
    (writeHeader header sector).Acts (Action.writeHeader header sector) fun _ ↦ True := by
  rw [writeHeader, Program.guarded_bind (encodeHeader_eq header)]
  exact Program.follows_writeSector sector header.block

/-! ## Printing -/

def printSectors : List UInt32 → (remaining : Nat) → Program String
  | [], _ => return ""
  | sector :: rest, remaining => do
    let block ← Program.readSector sector
    let chunk := min remaining sectorSize
    let line := String.join ((← slice block.bytes 0 chunk).map Header.renderByte)
    let lines ← printSectors rest (← sub remaining chunk)
    return line ++ "\n" ++ lines

def printHeader (header : Header) : Program String := do
  let blocks := String.join ((← Guarded.dataSectors header).map fun s ↦ s!" {s.toNat}")
  let contents ← printSectors (← Guarded.dataSectors header) header.length
  return s!"FileHeader contents. File size: {header.length}. File blocks:{blocks}\n"
    ++ "File contents:\n" ++ contents

theorem asks_printSectors (sectors : List UInt32) (remaining : Nat) :
    (printSectors sectors remaining).Asks (Header.renderSectors · sectors remaining)
      fun _ ↦ True := by
  induction sectors generalizing remaining with
  | nil => exact Program.asks_pure trivial
  | cons sector rest ih =>
    refine Program.Asks.bind (Program.follows_readSector sector) fun block _ ↦ ?_
    have hlen := block.length_bytes
    have htake : block.bytes.take (min remaining sectorSize) = block.bytes.take remaining := by
      rw [← hlen, ← List.take_eq_take_min]
    have hleft : remaining - min remaining sectorSize = remaining - sectorSize := by omega
    rw [Program.guarded_bind (slice_zero (by omega)), Program.guarded_bind (sub_eq_ok (by omega)),
      htake, hleft]
    exact Program.Asks.bind (ih _) fun lines _ ↦ Program.asks_pure trivial

theorem asks_printHeader {header : Header} (h : header.Consistent) :
    (printHeader header).Asks header.render fun _ ↦ True := by
  rw [printHeader, Program.guarded_bind (dataSectors_eq h), Program.guarded_bind (dataSectors_eq h)]
  exact Program.Asks.bind (asks_printSectors _ _) fun contents _ ↦ Program.asks_pure trivial

end Guarded

end SectorFS
