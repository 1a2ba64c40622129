import SectorFS.Proofs.FreeMap.Order
import SectorFS.Proofs.Guarded.Header

namespace SectorFS

open Layout

namespace Guarded

/-- The byte that holds the bit of a sector, and the bit in it. Sectors out of range have none. -/
def locate (map : FreeMap) (sector : UInt32) : Guarded (Option (Nat × UInt8)) := do
  if map.count ≤ sector.toNat then return none
  else return some (sector.toNat / 8, ← bit (sector.toNat % 8))

def test (map : FreeMap) (sector : UInt32) : Guarded Bool := do
  match ← locate map sector with
  | none => return false
  | some (place, mask) => return (← get map.bytes place) &&& mask != 0

def update (map : FreeMap) (place : Nat) (f : UInt8 → UInt8) : Guarded FreeMap := do
  return map.overlay (← set map.bytes place (f (← get map.bytes place)))

def mark (map : FreeMap) (sector : UInt32) : Program FreeMap := do
  match ← locate map sector with
  | none => .fail (.invalidSector sector)
  | some (place, mask) => update map place (· ||| mask)

def clear (map : FreeMap) (sector : UInt32) : Program FreeMap := do
  match ← locate map sector with
  | none => .fail (.invalidSector sector)
  | some (place, mask) => update map place (· &&& ~~~mask)

def scan (map : FreeMap) : Guarded (List (UInt32 × Bool)) :=
  map.sectors.mapM fun sector ↦ do return (sector, ← test map sector)

def numClear (map : FreeMap) : Guarded Nat := do
  return (← scan map).countP fun (_, used) ↦ !used

def firstUnused (map : FreeMap) : List UInt32 → Guarded (Option UInt32)
  | [] => .ok none
  | sector :: rest => do if ← test map sector then firstUnused map rest else return some sector

def find (map : FreeMap) : Guarded (Option (UInt32 × FreeMap)) := do
  match ← firstUnused map map.sectors with
  | none => return none
  | some sector =>
    match ← locate map sector with
    | none => return none
    | some (place, mask) => return some (sector, ← update map place (· ||| mask))

def clearAll (map : FreeMap) : List UInt32 → Program FreeMap
  | [] => return map
  | sector :: rest => do clearAll (← clear map sector) rest

def fill (map : FreeMap) (table : List UInt32) (i : Nat) : (more : Nat) →
    Program (FreeMap × List UInt32)
  | 0 => return (map, table)
  | more + 1 => do
    match ← find map with
    | some (sector, map) => fill map (← set table i sector) (i + 1) more
    | none =>
      let _ ← clearAll map (← slice table 0 i)
      .fail (.capacityExceeded .noFreeSector)

def allocate (map : FreeMap) (numBytes : Nat) : Program (Header × FreeMap) := do
  if maxFileSize < numBytes then .fail (.capacityExceeded .fileTooLarge)
  else if (← numClear map) < sectorsFor numBytes then .fail (.capacityExceeded .noFreeSector)
  else
    let (map, table) ← fill map (List.replicate numDirect 0) 0 (sectorsFor numBytes)
    return (← header (UInt32.ofNat numBytes) (UInt32.ofNat (sectorsFor numBytes)) table, map)

def checkUsed (map : FreeMap) : List UInt32 → Program Unit
  | [] => return ()
  | sector :: rest => do
    if ← test map sector then checkUsed map rest
    else .fail (.corruption sector .sectorAlreadyFree)

def release (map : FreeMap) (header : Header) : Program FreeMap := do
  checkUsed map (← Guarded.dataSectors header)
  clearAll map (← Guarded.dataSectors header)

/-! ## Bits -/

theorem getLsbD_bit {place j : Nat} (hplace : place < 8) (hj : j < 8) :
    ((1 : UInt8) <<< UInt8.ofNat place).toBitVec.getLsbD j = decide (j = place) := by
  have hall : ∀ place < 8, ∀ j < 8,
      ((1 : UInt8) <<< UInt8.ofNat place).toBitVec.getLsbD j = decide (j = place) := by decide
  exact hall place hplace j hj

theorem and_bit_ne_zero {place : Nat} (hplace : place < 8) (byte : UInt8) :
    (byte &&& (1 <<< UInt8.ofNat place) != 0) = byte.toBitVec.getLsbD place := by
  have hbit : ∀ j < 8, (byte &&& (1 <<< UInt8.ofNat place)).toBitVec.getLsbD j =
      (byte.toBitVec.getLsbD j && decide (j = place)) := fun j hj ↦ by
    rw [UInt8.toBitVec_and, BitVec.getLsbD_and, getLsbD_bit hplace hj]
  cases hset : byte.toBitVec.getLsbD place with
  | false =>
    have hzero : byte &&& (1 <<< UInt8.ofNat place) = 0 :=
      UInt8.toBitVec_inj.1 (BitVec.eq_of_getLsbD_eq fun j hj ↦ by
        rw [hbit j hj]
        by_cases heq : j = place
        · simp [heq, hset]
        · simp [heq])
    rw [hzero]
    rfl
  | true =>
    rw [bne_iff_ne]
    intro hzero
    have hnone := hbit place hplace
    rw [hzero, hset, decide_eq_true rfl] at hnone
    exact absurd hnone (by simp)

variable {map : FreeMap} {sector : UInt32}

theorem locate_of_le (h : map.count ≤ sector.toNat) : locate map sector = .ok none := if_pos h

theorem locate_of_lt (h : sector.toNat < map.count) : locate map sector =
    .ok (some (sector.toNat / 8, 1 <<< UInt8.ofNat (sector.toNat % 8))) := by
  rw [locate, if_neg (Nat.not_le_of_lt h), bit, if_pos (Nat.mod_lt _ (by decide))]
  rfl

theorem lt_size (h : sector.toNat < map.count) : sector.toNat / 8 < map.bytes.length := by
  rw [FreeMap.length_bytes, FreeMap.size]
  omega

/-- The bits of the map's bytes are its marks. -/
theorem mem_marks {i : Nat} : i ∈ map.marks ↔
    (map.bytes.getD (i / 8) 0).toBitVec.getLsbD (i % 8) = true := by
  have hmarks : Marks.ofBytes 0 map.bytes = map.marks := by
    rw [FreeMap.bytes, FreeMap.firstBytes, Nat.min_self]
    refine Marks.ofBytes_toBytes map.pairwise_marks (fun _ _ ↦ Nat.zero_le _) fun i hi ↦ ?_
    rw [Nat.zero_add]
    exact map.lt_of_mem_marks i hi
  rw [← hmarks, Marks.mem_ofBytes, Nat.sub_zero]
  exact and_iff_right (Nat.zero_le i)

theorem test_eq (map : FreeMap) (sector : UInt32) : test map sector = .ok (map.used sector) := by
  by_cases h : sector.toNat < map.count
  · have hget : get map.bytes (sector.toNat / 8) = .ok (map.bytes.getD (sector.toNat / 8) 0) :=
      get_eq_ok (by rw [List.getD_eq_getElem?_getD, List.getElem?_eq_getElem (lt_size h)]; rfl)
    rw [test, locate_of_lt h, ok_bind]
    dsimp only
    rw [hget, ok_bind, and_bit_ne_zero (Nat.mod_lt _ (by decide)), FreeMap.used, decide_eq_true h,
      Bool.true_and, List.contains_eq_mem]
    exact congrArg Except.ok (Bool.eq_iff_iff.2 (mem_marks.symm.trans decide_eq_true_iff.symm))
  · rw [test, locate_of_le (Nat.le_of_not_lt h), FreeMap.used, decide_eq_false h, Bool.false_and]
    rfl

theorem getD_set (bytes : Bytes) {place : Nat} (h : place < bytes.length) (byte : UInt8) (i : Nat) :
    (bytes.set place byte).getD i 0 = if i = place then byte else bytes.getD i 0 := by
  rw [List.getD_eq_getElem?_getD, List.getD_eq_getElem?_getD, List.getElem?_set]
  by_cases heq : place = i
  · subst heq
    rw [if_pos rfl, if_pos rfl, if_pos h]
    rfl
  · rw [if_neg heq, if_neg (Ne.symm heq)]

/-- Changing a byte changes the marks in it. -/
theorem update_eq {place : Nat} {f : UInt8 → UInt8} {changed : FreeMap}
    (h : place < map.bytes.length) (hcount : changed.count = map.count)
    (hmem : ∀ i, i ∈ changed.marks ↔ if i / 8 = place then
      (f (map.bytes.getD place 0)).toBitVec.getLsbD (i % 8) = true else i ∈ map.marks) :
    update map place f = .ok changed := by
  have hget : get map.bytes place = .ok (map.bytes.getD place 0) :=
    get_eq_ok (by rw [List.getD_eq_getElem?_getD, List.getElem?_eq_getElem h]; rfl)
  have hlen : (map.bytes.set place (f (map.bytes.getD place 0))).length = map.size := by
    rw [List.length_set, FreeMap.length_bytes]
  rw [update, hget, ok_bind, set_eq_ok h, ok_bind]
  refine congrArg Except.ok (FreeMap.eq_of_marks hcount.symm ?_)
  rw [FreeMap.marks_overlay map hlen]
  refine Marks.eq_of_mem_iff (Marks.pairwise_ofBytes _ _) changed.pairwise_marks fun i ↦ ?_
  rw [Marks.mem_ofBytes, Nat.sub_zero, and_iff_right (Nat.zero_le i), getD_set _ h, hmem]
  by_cases heq : i / 8 = place
  · rw [if_pos heq, if_pos heq]
  · rw [if_neg heq, if_neg heq, mem_marks]

theorem setBit_eq (h : sector.toNat < map.count) :
    update map (sector.toNat / 8) (· ||| 1 <<< UInt8.ofNat (sector.toNat % 8)) =
      .ok (map.insert sector) := by
  refine update_eq (lt_size h) (FreeMap.count_insert map sector) fun i ↦ ?_
  rw [FreeMap.insert, dif_pos h]
  change i ∈ Marks.insert _ _ ↔ _
  rw [Marks.mem_insert, mem_marks]
  split
  · next heq =>
    rw [UInt8.toBitVec_or, BitVec.getLsbD_or, getLsbD_bit (Nat.mod_lt _ (by decide))
      (Nat.mod_lt _ (by decide)), heq, Bool.or_eq_true, decide_eq_true_iff, or_comm]
    exact or_congr_right (by omega)
  · next hne => exact or_iff_right fun heq ↦ hne (by rw [heq])

theorem clearBit_eq (h : sector.toNat < map.count) :
    update map (sector.toNat / 8) (· &&& ~~~(1 <<< UInt8.ofNat (sector.toNat % 8))) =
      .ok (map.erase sector) := by
  refine update_eq (lt_size h) rfl fun i ↦ ?_
  change i ∈ List.filter _ _ ↔ _
  rw [List.mem_filter, bne_iff_ne, mem_marks]
  split
  · next heq =>
    have hlt : i % 8 < 8 := Nat.mod_lt _ (by decide)
    rw [UInt8.toBitVec_and, BitVec.getLsbD_and, UInt8.toBitVec_not, BitVec.getLsbD_not,
      getLsbD_bit (Nat.mod_lt _ (by decide)) hlt, heq, Bool.and_eq_true, decide_eq_true hlt,
      Bool.true_and, Bool.not_eq_true', decide_eq_false_iff_not]
    exact and_congr_right fun _ ↦ not_congr (by omega)
  · next hne => exact and_iff_left fun heq ↦ hne (by rw [heq])

/-! ## Sectors -/

theorem mark_eq (map : FreeMap) (sector : UInt32) :
    mark map sector = liftM (map.mark sector) := by
  by_cases h : sector.toNat < map.count
  · rw [mark, Program.guarded_bind (locate_of_lt h), FreeMap.mark, if_pos h]
    exact congrArg Program.ofGuarded (setBit_eq h)
  · rw [mark, Program.guarded_bind (locate_of_le (Nat.le_of_not_lt h)), FreeMap.mark, if_neg h]
    rfl

theorem clear_eq (map : FreeMap) (sector : UInt32) :
    clear map sector = liftM (map.clear sector) := by
  by_cases h : sector.toNat < map.count
  · rw [clear, Program.guarded_bind (locate_of_lt h), FreeMap.clear, if_pos h]
    exact congrArg Program.ofGuarded (clearBit_eq h)
  · rw [clear, Program.guarded_bind (locate_of_le (Nat.le_of_not_lt h)), FreeMap.clear, if_neg h]
    rfl

theorem scan_eq (map : FreeMap) :
    scan map = .ok (map.sectors.map fun sector ↦ (sector, map.used sector)) :=
  mapM_eq_ok fun sector _ ↦ by rw [test_eq]; rfl

theorem numClear_eq (map : FreeMap) : numClear map = .ok map.numFree := by
  rw [numClear, scan_eq, ok_bind, FreeMap.numFree_eq_length, FreeMap.freeSectors,
    List.countP_map, List.countP_eq_length_filter]
  rfl

theorem firstUnused_eq (map : FreeMap) (sectors : List UInt32) :
    firstUnused map sectors = .ok (sectors.filter fun s ↦ !map.used s).head? := by
  induction sectors with
  | nil => rfl
  | cons sector rest ih =>
    rw [firstUnused, test_eq, ok_bind, List.filter_cons]
    cases map.used sector with
    | false => rfl
    | true => exact ih

theorem find_eq (map : FreeMap) : find map = .ok map.takeFirst? := by
  rw [find, firstUnused_eq, ok_bind, FreeMap.takeFirst?_eq]
  change (match map.freeSectors.head? with | none => _ | some sector => _) = _
  cases hfirst : map.freeSectors.head? with
  | none => rfl
  | some sector =>
    have hlt := (FreeMap.mem_freeSectors (List.mem_of_head? hfirst)).1
    dsimp only
    rw [locate_of_lt hlt, ok_bind]
    dsimp only
    rw [setBit_eq hlt]
    rfl

theorem clearAll_eq {sectors : List UInt32} (h : ∀ s ∈ sectors, s.toNat < map.count) :
    clearAll map sectors = pure (sectors.foldl FreeMap.erase map) := by
  induction sectors generalizing map with
  | nil => rfl
  | cons sector rest ih =>
    have hclear : map.clear sector = .ok (map.erase sector) := if_pos (h _ List.mem_cons_self)
    rw [clearAll, clear_eq, Program.except_bind hclear]
    exact ih fun s hs ↦ h s (List.mem_cons_of_mem _ hs)

theorem set_next (table : List UInt32) (more left : Nat) (sector : UInt32) :
    set (table ++ List.replicate (more + 1 + left) 0) table.length sector =
      .ok (table ++ [sector] ++ List.replicate (more + left) 0) := by
  rw [set_eq_ok (by simp only [List.length_append, List.length_replicate]; omega),
    List.set_append_right _ _ (Nat.le_refl _), Nat.sub_self, Nat.add_right_comm,
    List.replicate_succ, List.set_cons_zero, List.append_assoc]
  rfl

theorem fill_eq {table : List UInt32} {more left : Nat} (h : more ≤ map.freeSectors.length) :
    fill map (table ++ List.replicate (more + left) 0) table.length more =
      pure ((map.freeSectors.take more).foldl FreeMap.insert map,
        table ++ map.freeSectors.take more ++ List.replicate left 0) := by
  induction more generalizing map table with
  | zero => rw [fill, List.take_zero, List.append_nil, Nat.zero_add]; rfl
  | succ more ih =>
    obtain ⟨sector, rest, hfree⟩ := List.exists_cons_of_length_pos (Nat.lt_of_lt_of_le
      (Nat.succ_pos more) h)
    have hrest := FreeMap.freeSectors_insert hfree
    have hfind : find map = .ok (some (sector, map.insert sector)) := by
      rw [find_eq, FreeMap.takeFirst?_eq, hfree]
      rfl
    have hnext := @ih (map.insert sector) (table ++ [sector])
      (by rw [hrest]; rw [hfree] at h; exact Nat.le_of_succ_le_succ h)
    rw [List.length_append, List.length_singleton, hrest] at hnext
    rw [fill, Program.guarded_bind hfind]
    dsimp only
    rw [Program.guarded_bind (set_next table more left sector), hnext, hfree, List.take_succ_cons,
      List.foldl_cons, List.append_assoc table [sector], List.singleton_append]

theorem header_firstFree {numBytes : Nat} (hsize : numBytes ≤ maxFileSize)
    (hroom : sectorsFor numBytes ≤ map.freeSectors.length) :
    header (UInt32.ofNat numBytes) (UInt32.ofNat (sectorsFor numBytes))
      (map.firstFree (sectorsFor numBytes) ++
        List.replicate (numDirect - sectorsFor numBytes) 0) =
      .ok (.ofSectors numBytes (map.firstFree (sectorsFor numBytes))
        (Nat.le_trans (map.length_firstFree_le _) (sectorsFor_le hsize))) := by
  have hcount := sectorsFor_le hsize
  have hlen : (map.firstFree (sectorsFor numBytes)).length = sectorsFor numBytes := by
    rw [FreeMap.firstFree_eq_take, List.length_take, Nat.min_eq_left hroom]
  rw [header, dif_pos (by rw [List.length_append, List.length_replicate, hlen]; omega)]
  simp only [Header.ofSectors, hlen]

theorem allocate_eq (map : FreeMap) (numBytes : Nat) :
    allocate map numBytes = liftM (map.allocate numBytes) := by
  rw [allocate, FreeMap.allocate]
  by_cases hsize : numBytes ≤ maxFileSize
  · rw [if_neg (Nat.not_lt_of_le hsize), dif_pos hsize, Program.guarded_bind (numClear_eq map)]
    by_cases hfree : map.numFree < sectorsFor numBytes
    · rw [if_pos hfree, if_pos hfree]
      rfl
    · have hcount := sectorsFor_le hsize
      have hle : sectorsFor numBytes ≤ map.freeSectors.length := by
        rw [← FreeMap.numFree_eq_length]
        omega
      have hfill : fill map ([] ++ List.replicate (sectorsFor numBytes +
          (numDirect - sectorsFor numBytes)) 0) 0 (sectorsFor numBytes) = _ := fill_eq hle
      rw [Nat.add_sub_cancel' hcount, List.nil_append, List.nil_append,
        ← FreeMap.firstFree_eq_take] at hfill
      rw [if_neg hfree, if_neg hfree, hfill]
      change ((liftM (header _ _ _) : Program Header) >>= _) = _
      rw [Program.guarded_bind (header_firstFree hsize hle)]
      rfl
  · rw [if_pos (Nat.lt_of_not_le hsize), dif_neg hsize]
    rfl

theorem checkUsed_eq (map : FreeMap) (sectors : List UInt32) : checkUsed map sectors =
    match sectors.find? fun s ↦ !map.used s with
    | some sector => .fail (.corruption sector .sectorAlreadyFree)
    | none => pure () := by
  induction sectors with
  | nil => rfl
  | cons sector rest ih =>
    rw [checkUsed, Program.guarded_bind (test_eq map sector), List.find?_cons]
    cases map.used sector with
    | false => rfl
    | true => exact ih

theorem release_eq (map : FreeMap) {header : Header} (h : header.Consistent) :
    release map header = liftM (map.release header) := by
  rw [release, Program.guarded_bind (dataSectors_eq h), Program.guarded_bind (dataSectors_eq h),
    checkUsed_eq, FreeMap.release]
  cases hfind : header.dataSectors.find? fun s ↦ !map.used s with
  | some sector => rfl
  | none =>
    refine clearAll_eq fun s hs ↦ FreeMap.lt_of_used ?_
    simpa using List.find?_eq_none.1 hfind s hs

end Guarded

end SectorFS
