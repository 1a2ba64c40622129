import SectorFS.Error
import SectorFS.Marks.Bits

namespace SectorFS

structure FreeMap where
  /-- Number of sectors covered. -/
  count : Nat
  /-- Positions of the set bits, those that fill up the last byte included. -/
  marks : List Nat
  pairwise_marks : marks.Pairwise (· < ·)
  lt_of_mem_marks : ∀ i ∈ marks, i < 8 * ((count + 7) / 8)
  deriving DecidableEq, Repr

namespace FreeMap

def empty (count : Nat) : FreeMap := ⟨count, [], .nil, nofun⟩

def used (map : FreeMap) (sector : UInt32) : Bool :=
  decide (sector.toNat < map.count) && map.marks.contains sector.toNat

/-- Sectors out of range change nothing. -/
def insert (map : FreeMap) (sector : UInt32) : FreeMap :=
  if h : sector.toNat < map.count then
    { map with
      marks := Marks.insert sector.toNat map.marks
      pairwise_marks := Marks.pairwise_insert map.pairwise_marks
      lt_of_mem_marks := by
        intro i hi
        rcases Marks.mem_insert.1 hi with rfl | hi
        · omega
        · exact map.lt_of_mem_marks i hi }
  else map

def erase (map : FreeMap) (sector : UInt32) : FreeMap :=
  { map with
    marks := map.marks.filter (· != sector.toNat)
    pairwise_marks := map.pairwise_marks.filter _
    lt_of_mem_marks := fun i hi ↦ map.lt_of_mem_marks i (List.mem_filter.1 hi).1 }

def mark (map : FreeMap) (sector : UInt32) : Except Error FreeMap :=
  if sector.toNat < map.count then .ok (map.insert sector) else .error (.invalidSector sector)

def clear (map : FreeMap) (sector : UInt32) : Except Error FreeMap :=
  if sector.toNat < map.count then .ok (map.erase sector) else .error (.invalidSector sector)

/-- How many sectors a scan of the map visits: the count as a sector number can hold it. -/
def reach (map : FreeMap) : Nat := map.count % UInt32.size

def usedSectors (map : FreeMap) : List UInt32 :=
  (map.marks.filter fun i ↦ i < map.reach).map UInt32.ofNat

def numFree (map : FreeMap) : Nat := map.reach - map.usedSectors.length

def firstFree (map : FreeMap) (count : Nat) : List UInt32 :=
  (Marks.gaps 0 map.reach map.marks count).map UInt32.ofNat

def takeFirst? (map : FreeMap) : Option (UInt32 × FreeMap) :=
  (map.firstFree 1).head?.map fun sector ↦ (sector, map.insert sector)

def render (map : FreeMap) : String :=
  "Bitmap set:" ++ String.join (map.usedSectors.map fun s ↦ s!" {s.toNat}")

def size (map : FreeMap) : Nat := (map.count + 7) / 8

def firstBytes (map : FreeMap) (count : Nat) : Bytes :=
  Marks.toBytes 0 (min count map.size) map.marks

def bytes (map : FreeMap) : Bytes := map.firstBytes map.size

def overlay (map : FreeMap) (bytes : Bytes) : FreeMap :=
  { map with
    marks := Marks.ofBytes 0 (bytes.take map.size) ++
      map.marks.filter fun i ↦ 8 * (bytes.take map.size).length ≤ i
    pairwise_marks := by
      refine List.pairwise_append.2
        ⟨Marks.pairwise_ofBytes _ _, map.pairwise_marks.filter _, fun i hi j hj ↦ ?_⟩
      have hlt := Marks.lt_of_mem_ofBytes hi
      have hle := of_decide_eq_true (List.mem_filter.1 hj).2
      omega
    lt_of_mem_marks := by
      intro i hi
      rcases List.mem_append.1 hi with hi | hi
      · have hlt := Marks.lt_of_mem_ofBytes hi
        have hle := List.length_take_le map.size bytes
        simp only [size] at hle hlt
        omega
      · exact map.lt_of_mem_marks i (List.mem_filter.1 hi).1 }

theorem length_firstFree_le (map : FreeMap) (count : Nat) :
    (map.firstFree count).length ≤ count := by
  rw [firstFree, List.length_map]
  exact Marks.length_gaps_le _ _ _ _

@[simp] theorem length_bytes (map : FreeMap) : map.bytes.length = map.size := by
  rw [bytes, firstBytes, Marks.length_toBytes, Nat.min_self]

theorem firstBytes_eq_take (map : FreeMap) (count : Nat) :
    map.firstBytes count = map.bytes.take count := by
  rw [bytes, firstBytes, firstBytes, Marks.take_toBytes, Nat.min_self]

theorem eq_of_marks {map other : FreeMap} (hcount : map.count = other.count)
    (hmarks : map.marks = other.marks) : map = other := by
  cases map
  cases other
  cases hcount
  cases hmarks
  rfl

theorem marks_overlay (map : FreeMap) {bytes : Bytes} (h : bytes.length = map.size) :
    (map.overlay bytes).marks = Marks.ofBytes 0 bytes := by
  have htake : bytes.take map.size = bytes := List.take_of_length_le (Nat.le_of_eq h)
  have hnone : (map.marks.filter fun i ↦ 8 * (bytes.take map.size).length ≤ i) = [] := by
    rw [List.filter_eq_nil_iff]
    intro i hi hle
    have hlt : i < 8 * map.size := map.lt_of_mem_marks i hi
    rw [htake, h] at hle
    exact absurd (of_decide_eq_true hle) (Nat.not_le_of_lt hlt)
  change Marks.ofBytes 0 (bytes.take map.size) ++ _ = _
  rw [hnone, List.append_nil, htake]

/-- A map is read back from its bytes, over whatever was there. -/
theorem overlay_bytes {map other : FreeMap} (h : map.count = other.count) :
    map.overlay other.bytes = other := by
  have hsize : other.bytes.length = map.size := by rw [length_bytes, size, size, h]
  refine eq_of_marks h ?_
  rw [marks_overlay map hsize, bytes, firstBytes, Nat.min_self]
  apply Marks.ofBytes_toBytes other.pairwise_marks fun _ _ ↦ Nat.zero_le _
  intro i hi
  rw [Nat.zero_add]
  exact other.lt_of_mem_marks i hi

theorem bytes_overlay (map : FreeMap) {bytes : Bytes} (h : bytes.length = map.size) :
    (map.overlay bytes).bytes = bytes := by
  have hsize : (map.overlay bytes).size = bytes.length := h.symm
  rw [FreeMap.bytes, firstBytes, Nat.min_self, hsize, marks_overlay map h]
  exact Marks.toBytes_ofBytes 0 bytes

theorem used_insert (map : FreeMap) {s : UInt32} (hs : s.toNat < map.count) (t : UInt32) :
    (map.insert s).used t = (map.used t || t == s) := by
  rw [Bool.eq_iff_iff]
  simp only [used, insert, dif_pos hs, List.contains_eq_mem, Bool.and_eq_true, Bool.or_eq_true,
    decide_eq_true_eq, Marks.mem_insert, beq_iff_eq, UInt32.toNat_inj]
  constructor
  · rintro ⟨ht, rfl | h⟩
    · exact Or.inr rfl
    · exact Or.inl ⟨ht, h⟩
  · rintro (⟨ht, h⟩ | rfl)
    · exact ⟨ht, Or.inr h⟩
    · exact ⟨hs, Or.inl rfl⟩

theorem used_erase (map : FreeMap) (s t : UInt32) :
    (map.erase s).used t = (map.used t && t != s) := by
  have hused : (map.erase s).used t = (decide (t.toNat < map.count) &&
      (map.marks.filter (· != s.toNat)).contains t.toNat) := rfl
  rw [hused, used, Bool.eq_iff_iff]
  simp only [List.contains_eq_mem, Bool.and_eq_true, decide_eq_true_eq, List.mem_filter,
    bne_iff_ne, ne_eq, UInt32.toNat_inj, and_assoc]

def sectors (map : FreeMap) : List UInt32 := (List.range map.reach).map UInt32.ofNat

def freeSectors (map : FreeMap) : List UInt32 := map.sectors.filter fun s ↦ !map.used s

theorem used_ofNat (map : FreeMap) {i : Nat} (h : i < map.reach) :
    map.used (UInt32.ofNat i) = map.marks.contains i := by
  have hword : (UInt32.ofNat i).toNat = i :=
    UInt32.toNat_ofNat_of_lt (Nat.lt_trans h (Nat.mod_lt _ (by decide)))
  have hcount : i < map.count := Nat.lt_of_lt_of_le h (Nat.mod_le _ _)
  rw [used, hword, decide_eq_true hcount, Bool.true_and]

theorem usedSectors_eq_filter (map : FreeMap) :
    map.usedSectors = map.sectors.filter fun s ↦ map.used s := by
  have hfilter : (List.range map.reach).filter (fun i ↦ map.used (UInt32.ofNat i)) =
      (List.range map.reach).filter fun i ↦ map.marks.contains i :=
    List.filter_congr fun i hi ↦ map.used_ofNat (List.mem_range.1 hi)
  rw [sectors, List.filter_map, usedSectors]
  refine congrArg _ (Eq.trans ?_ hfilter.symm)
  apply Marks.eq_of_mem_iff (map.pairwise_marks.filter _) (List.pairwise_lt_range.filter _)
  intro i
  rw [List.mem_filter, List.mem_filter, List.mem_range, List.contains_eq_mem, decide_eq_true_eq,
    decide_eq_true_eq, and_comm]

theorem freeSectors_eq_map (map : FreeMap) : map.freeSectors =
    ((List.range map.reach).filter fun i ↦ !map.marks.contains i).map UInt32.ofNat := by
  rw [freeSectors, sectors, List.filter_map]
  refine congrArg _ (List.filter_congr fun i hi ↦ ?_)
  rw [Function.comp_apply, map.used_ofNat (List.mem_range.1 hi)]

theorem firstFree_eq_take (map : FreeMap) (count : Nat) :
    map.firstFree count = map.freeSectors.take count := by
  rw [firstFree, Marks.gaps_eq_take map.pairwise_marks fun _ _ ↦ Nat.zero_le _,
    freeSectors_eq_map, List.map_take, List.range_eq_range', Nat.sub_zero]

theorem numFree_eq_length (map : FreeMap) : map.numFree = map.freeSectors.length := by
  have hlength : map.sectors.length = map.reach := by
    rw [sectors, List.length_map, List.length_range]
  have hsum := List.length_eq_countP_add_countP (fun s ↦ map.used s) (l := map.sectors)
  rw [hlength, List.countP_eq_length_filter, List.countP_eq_length_filter,
    ← usedSectors_eq_filter] at hsum
  have hfree : map.freeSectors =
      map.sectors.filter fun s ↦ decide ¬map.used s = true := by
    rw [freeSectors]
    exact List.filter_congr fun s _ ↦ by simp
  rw [numFree, hfree]
  omega

end FreeMap

end SectorFS
