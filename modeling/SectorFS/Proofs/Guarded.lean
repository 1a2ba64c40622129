import Mathlib.Algebra.GroupWithZero.Nat
import SectorFS.Device

/-!
Guarded computation. What stops a program without an answer is a trap: an index or a range outside
of a list, a text cut inside a character, arithmetic that leaves the machine words, a loop that
does not get ahead. Each operation here says when it traps; its lemma says when it does not.
-/

namespace SectorFS

open Layout (sectorSize)

inductive Trap
  | index
  | range
  | character
  | underflow
  | overflow
  | stall
  deriving DecidableEq, Repr

abbrev wordLimit : Nat := 2 ^ 64

abbrev Guarded := Except Trap

namespace Guarded

variable {α β : Type} {a b i start stop : Nat}

def add (a b : Nat) : Guarded Nat := if a + b < wordLimit then .ok (a + b) else .error .overflow

def mul (a b : Nat) : Guarded Nat := if a * b < wordLimit then .ok (a * b) else .error .overflow

def sub (a b : Nat) : Guarded Nat := if b ≤ a then .ok (a - b) else .error .underflow

def bit (place : Nat) : Guarded UInt8 :=
  if place < 8 then .ok (1 <<< UInt8.ofNat place) else .error .overflow

def get (xs : List α) (i : Nat) : Guarded α :=
  match xs[i]? with
  | some x => .ok x
  | none => .error .index

def set (xs : List α) (i : Nat) (x : α) : Guarded (List α) :=
  if i < xs.length then .ok (xs.set i x) else .error .index

def slice (xs : List α) (start stop : Nat) : Guarded (List α) :=
  if start ≤ stop ∧ stop ≤ xs.length then .ok ((xs.drop start).take (stop - start))
  else .error .range

def copy (bytes : Bytes) (start stop : Nat) (data : Bytes) : Guarded Bytes :=
  if start ≤ stop ∧ stop ≤ bytes.length ∧ data.length = stop - start then
    .ok (bytes.overwrite start data)
  else .error .range

def copyBlock (block : Block) (start stop : Nat) (data : Bytes) : Guarded Block :=
  if start ≤ stop ∧ stop ≤ sectorSize ∧ data.length = stop - start then
    .ok (block.overwrite start data)
  else .error .range

def block (bytes : Bytes) : Guarded Block :=
  if h : bytes.length = sectorSize then .ok ⟨bytes, h⟩ else .error .range

@[simp] theorem ok_bind (a : α) (f : α → Guarded β) : (.ok a : Guarded α) >>= f = f a := rfl

@[simp] theorem add_eq_ok (h : a + b < wordLimit) : add a b = .ok (a + b) := if_pos h

@[simp] theorem mul_eq_ok (h : a * b < wordLimit) : mul a b = .ok (a * b) := if_pos h

@[simp] theorem sub_eq_ok (h : b ≤ a) : sub a b = .ok (a - b) := if_pos h

theorem get_eq_ok {xs : List α} {x : α} (h : xs[i]? = some x) : get xs i = .ok x := by
  rw [get, h]

@[simp] theorem set_eq_ok {xs : List α} (h : i < xs.length) (x : α) :
    set xs i x = .ok (xs.set i x) :=
  if_pos h

@[simp] theorem slice_eq_ok {xs : List α} (h : start ≤ stop) (h' : stop ≤ xs.length) :
    slice xs start stop = .ok ((xs.drop start).take (stop - start)) :=
  if_pos ⟨h, h'⟩

theorem slice_zero {xs : List α} (h : stop ≤ xs.length) : slice xs 0 stop = .ok (xs.take stop) := by
  rw [slice_eq_ok (Nat.zero_le _) h, List.drop_zero, Nat.sub_zero]

theorem copy_eq_ok {bytes data : Bytes} (hdata : stop = start + data.length)
    (h : stop ≤ bytes.length) : copy bytes start stop data = .ok (bytes.overwrite start data) :=
  if_pos ⟨by omega, h, by omega⟩

theorem copyBlock_eq_ok {block : Block} {data : Bytes} (hdata : stop = start + data.length)
    (h : stop ≤ sectorSize) : copyBlock block start stop data = .ok (block.overwrite start data) :=
  if_pos ⟨by omega, h, by omega⟩

theorem block_eq_ok {bytes : Bytes} (h : bytes.length = sectorSize) :
    block bytes = .ok ⟨bytes, h⟩ :=
  dif_pos h

theorem mapM_eq_ok {f : α → Guarded β} {g : α → β} {xs : List α}
    (h : ∀ x ∈ xs, f x = .ok (g x)) : xs.mapM f = .ok (xs.map g) := by
  induction xs with
  | nil => rfl
  | cons x rest ih =>
    rw [List.mapM_cons, h x List.mem_cons_self, ih fun y hy ↦ h y (List.mem_cons_of_mem _ hy)]
    rfl

end Guarded

end SectorFS
