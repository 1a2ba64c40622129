import SectorFS.Device

/-!
Byte ranges across sectors. Sectors in a row hold one sequence of bytes; `Span.cover` cuts a range
of it into spans, each inside one sector. Reading and writing a range is reading and writing its
spans in order, so all arithmetic on positions is in this one function.
-/

namespace SectorFS

open Layout (sectorSize)

structure Span where
  sector : UInt32
  start : Nat
  length : Nat
  fits : start + length ≤ sectorSize
  deriving DecidableEq, Repr

namespace Span

def slice (span : Span) (block : Block) : Bytes := (block.bytes.drop span.start).take span.length

def totalLength : List Span → Nat
  | [] => 0
  | span :: rest => span.length + totalLength rest

/-- The spans that make up bytes `pos` to `pos + count` of the given sectors, as far as the
sectors go. -/
def cover : List UInt32 → (pos count : Nat) → List Span
  | [], _, _ => []
  | sector :: rest, pos, count =>
    if count = 0 then []
    else if h : pos < sectorSize then
      let length := min count (sectorSize - pos)
      ⟨sector, pos, length, by omega⟩ :: cover rest 0 (count - length)
    else cover rest (pos - sectorSize) count

@[simp] theorem length_slice (span : Span) (block : Block) :
    (span.slice block).length = span.length := by
  have h := span.fits
  rw [slice, List.length_take, List.length_drop, block.length_bytes]
  omega

theorem cover_zero (sectors : List UInt32) (pos : Nat) : cover sectors pos 0 = [] := by
  cases sectors <;> simp [cover]

theorem totalLength_cover {sectors : List UInt32} {pos count : Nat}
    (h : pos + count ≤ sectorSize * sectors.length) :
    totalLength (cover sectors pos count) = count := by
  induction sectors generalizing pos count with
  | nil =>
    simp only [List.length_nil, Nat.mul_zero] at h
    simp only [cover, totalLength]
    omega
  | cons sector rest ih =>
    rw [List.length_cons, Nat.mul_succ] at h
    unfold cover
    split
    · next hcount => simp [hcount, totalLength]
    · split
      · rw [totalLength, ih (by omega)]
        exact Nat.add_sub_cancel' (Nat.min_le_left _ _)
      · exact ih (by omega)

theorem sector_mem_of_mem_cover {sectors : List UInt32} {pos count : Nat} {span : Span}
    (h : span ∈ cover sectors pos count) : span.sector ∈ sectors := by
  induction sectors generalizing pos count with
  | nil => simp [cover] at h
  | cons sector rest ih =>
    unfold cover at h
    split at h
    · contradiction
    · split at h
      · rcases List.mem_cons.1 h with rfl | h
        · exact List.mem_cons_self
        · exact List.mem_cons_of_mem _ (ih h)
      · exact List.mem_cons_of_mem _ (ih h)

end Span

/-- The bytes of the spans, as far as they could be read, and what stopped the reading. -/
def Device.gather (device : Device) : List Span → Bytes × Option Error
  | [] => ([], none)
  | span :: rest =>
    match device.read span.sector with
    | .error error => ([], some error)
    | .ok block =>
      let (bytes, stop) := device.gather rest
      (span.slice block ++ bytes, stop)

/-- Writes the bytes of `data` to the spans. A sector that a span does not fill is read first, for
the bytes around the span. -/
def Action.scatter : List Span → (data : Bytes) → Action Unit
  | [], _ => pure ()
  | span :: rest, data => do
    let old ← if span.length < sectorSize then query (·.read span.sector) else pure Block.zero
    write span.sector (old.overwrite span.start (data.take span.length))
    scatter rest (data.drop span.length)

end SectorFS
