namespace SectorFS

abbrev Bytes := List UInt8

namespace Bytes

def zeros (n : Nat) : Bytes := List.replicate n 0

/-- `data` laid over `bytes` from position `pos` on. The length stays: what would stick out is
dropped. -/
def overwrite (bytes : Bytes) (pos : Nat) (data : Bytes) : Bytes :=
  bytes.take pos ++ data.take (bytes.length - pos) ++ bytes.drop (pos + data.length)

@[simp] theorem length_zeros (n : Nat) : (zeros n).length = n := List.length_replicate

@[simp] theorem length_overwrite (bytes : Bytes) (pos : Nat) (data : Bytes) :
    (bytes.overwrite pos data).length = bytes.length := by
  simp only [overwrite, List.length_append, List.length_take, List.length_drop]
  omega

@[simp] theorem overwrite_nil (bytes : Bytes) (pos : Nat) : bytes.overwrite pos [] = bytes := by
  simp [overwrite]

def trimZeros (bytes : Bytes) : Bytes := (bytes.reverse.dropWhile (· == 0)).reverse

theorem length_trimZeros_le (bytes : Bytes) : bytes.trimZeros.length ≤ bytes.length := by
  simpa [trimZeros] using (List.dropWhile_suffix (· == 0) (l := bytes.reverse)).length_le

theorem getLast?_trimZeros (bytes : Bytes) : bytes.trimZeros.getLast? ≠ some 0 := by
  intro h
  simp only [trimZeros, List.getLast?_reverse] at h
  have := List.head?_dropWhile_not (· == 0) bytes.reverse
  simp [h] at this

theorem dropWhile_zeros_append (n : Nat) (bytes : Bytes) :
    (zeros n ++ bytes).dropWhile (· == 0) = bytes.dropWhile (· == 0) := by
  induction n with
  | zero => rfl
  | succ n ih => exact ih

theorem trimZeros_append_zeros {bytes : Bytes} (h : bytes.getLast? ≠ some 0) (n : Nat) :
    trimZeros (bytes ++ zeros n) = bytes := by
  have hrev : (bytes ++ zeros n).reverse = zeros n ++ bytes.reverse := by
    rw [List.reverse_append, zeros, List.reverse_replicate]
  rw [← List.head?_reverse] at h
  rw [trimZeros, hrev, dropWhile_zeros_append, ← List.reverse_inj, List.reverse_reverse]
  cases hlast : bytes.reverse with
  | nil => rfl
  | cons byte rest =>
    rw [hlast, List.head?_cons] at h
    rw [List.dropWhile_cons_of_neg]
    simpa using h

def ofWord (w : UInt32) : Bytes :=
  [UInt8.ofNat w.toNat, UInt8.ofNat (w.toNat / 256), UInt8.ofNat (w.toNat / 65536),
    UInt8.ofNat (w.toNat / 16777216)]

def toWord (a b c d : UInt8) : UInt32 :=
  UInt32.ofNat (a.toNat + 256 * b.toNat + 65536 * c.toNat + 16777216 * d.toNat)

@[simp] theorem length_ofWord (w : UInt32) : (ofWord w).length = 4 := rfl

theorem ofWord_toWord (a b c d : UInt8) : ofWord (toWord a b c d) = [a, b, c, d] := by
  have ha := a.toNat_lt
  have hb := b.toNat_lt
  have hc := c.toNat_lt
  have hd := d.toNat_lt
  simp only [ofWord, toWord, List.cons.injEq, and_true]
  refine ⟨?_, ?_, ?_, ?_⟩ <;> apply UInt8.toNat_inj.1 <;>
    simp only [UInt8.toNat_ofNat', UInt32.toNat_ofNat'] <;> omega

/-- The words of a byte string, four bytes each; up to three last bytes are left over. -/
def words : Bytes → List UInt32
  | a :: b :: c :: d :: rest => toWord a b c d :: words rest
  | _ => []

theorem length_words : (bytes : Bytes) → bytes.words.length = bytes.length / 4
  | a :: b :: c :: d :: rest => by
    simp only [words, List.length_cons, length_words rest]
    omega
  | [] | [_] | [_, _] | [_, _, _] => by simp [words]

theorem words_ofWord_append (w : UInt32) (rest : Bytes) :
    words (ofWord w ++ rest) = w :: words rest := by
  have hw := w.toNat_lt
  simp only [ofWord, List.cons_append, List.nil_append, words, List.cons.injEq, and_true]
  apply UInt32.toNat_inj.1
  simp only [toWord, UInt32.toNat_ofNat', UInt8.toNat_ofNat']
  omega

@[simp] theorem words_flatMap_ofWord (ws : List UInt32) : words (ws.flatMap ofWord) = ws := by
  induction ws with
  | nil => rfl
  | cons w ws ih => rw [List.flatMap_cons, words_ofWord_append, ih]

@[simp] theorem length_flatMap_ofWord (ws : List UInt32) :
    (ws.flatMap ofWord).length = 4 * ws.length := by
  induction ws with
  | nil => rfl
  | cons w ws ih =>
    rw [List.flatMap_cons, List.length_append, ih, length_ofWord, List.length_cons]
    omega

theorem flatMap_ofWord_words : (bytes : Bytes) → 4 ∣ bytes.length →
    bytes.words.flatMap ofWord = bytes
  | a :: b :: c :: d :: rest, h => by
    have hrest : 4 ∣ rest.length := by
      simp only [List.length_cons] at h
      omega
    rw [words, List.flatMap_cons, ofWord_toWord, flatMap_ofWord_words rest hrest]
    rfl
  | [], _ => rfl
  | [_], h | [_, _], h | [_, _, _], h => by
    simp only [List.length_cons, List.length_nil] at h
    omega

def ofText (text : String) : Bytes := text.toList.flatMap String.utf8EncodeChar

def toText? (bytes : Bytes) : Option String := String.fromUTF8? ⟨bytes.toArray⟩

end Bytes

end SectorFS
