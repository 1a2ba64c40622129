import SectorFS.Proofs.FreeMap.Sets

namespace SectorFS

open Layout

namespace InPlace

def clearAll : List UInt32 → InPlace FreeMap Unit
  | [] => return ()
  | sector :: rest => do
    clear sector
    clearAll rest

/-- Takes `more` sectors and puts their numbers into a table from place `i` on. If none is left,
those taken so far are handed to `undo`. -/
def fill (undo : List UInt32 → InPlace FreeMap Unit) (table : List UInt32) (i : Nat) :
    (more : Nat) → InPlace FreeMap (List UInt32)
  | 0 => return table
  | more + 1 => do
    match ← find with
    | some sector => fill undo (← Guarded.set table i sector) (i + 1) more
    | none =>
      undo (← Guarded.slice table 0 i)
      throw (.capacityExceeded .noFreeSector)

def allocate (undo : List UInt32 → InPlace FreeMap Unit) (numBytes : Nat) :
    InPlace (Header × FreeMap) Unit := do
  if maxFileSize < numBytes then throw (.capacityExceeded .fileTooLarge)
  else if (← Guarded.numClear (← get).2) < sectorsFor numBytes then
    throw (.capacityExceeded .noFreeSector)
  else
    let table ← onSecond (fill undo (List.replicate numDirect 0) 0 (sectorsFor numBytes))
    let header ← Guarded.header (UInt32.ofNat numBytes) (UInt32.ofNat (sectorsFor numBytes)) table
    set (header, (← get).2)

def checkUsed : List UInt32 → InPlace FreeMap Unit
  | [] => return ()
  | sector :: rest => do
    if ← Guarded.test (← get) sector then checkUsed rest
    else throw (.corruption sector .sectorAlreadyFree)

def release (header : Header) : InPlace FreeMap Unit := do
  checkUsed (← Guarded.dataSectors header)
  clearAll (← Guarded.dataSectors header)

variable {undo : List UInt32 → InPlace FreeMap Unit} {map : FreeMap} {header : Header}
  {numBytes : Nat}

theorem exec_fill {table : List UInt32} {more left : Nat} (h : more ≤ map.freeSectors.length) :
    (fill undo (table ++ List.replicate (more + left) 0) table.length more).exec map =
      .ok (.ok (table ++ map.freeSectors.take more ++ List.replicate left 0),
        (map.freeSectors.take more).foldl FreeMap.insert map) := by
  -- What is taken is the first free sector, and those after it are what the map has free then.
  induction more generalizing map table with
  | zero =>
    rw [fill, List.take_zero, List.append_nil, Nat.zero_add]
    rfl
  | succ more ih =>
    obtain ⟨sector, rest, hfree⟩ := List.exists_cons_of_length_pos (Nat.lt_of_lt_of_le
      (Nat.succ_pos more) h)
    have hrest := FreeMap.freeSectors_insert hfree
    have htake : map.takeFirst? = some (sector, map.insert sector) := by
      rw [FreeMap.takeFirst?_eq, hfree]
      rfl
    have hnext := @ih (map.insert sector) (table ++ [sector])
      (by rw [hrest]; rw [hfree] at h; exact Nat.le_of_succ_le_succ h)
    rw [List.length_append, List.length_singleton, hrest] at hnext
    rw [fill, exec_bind_ok (exec_find_of_some htake)]
    dsimp only
    rw [exec_guarded (Guarded.set_next table more left sector), hnext, hfree, List.take_succ_cons,
      List.foldl_cons, List.append_assoc table [sector], List.singleton_append]

/-- Whatever there is to undo with, allocating in place comes to the allocation or leaves the
header and the map. -/
theorem exec_allocate (undo : List UInt32 → InPlace FreeMap Unit) (numBytes : Nat) (header : Header)
    (map : FreeMap) : (allocate undo numBytes).exec (header, map) =
      .ok (changed () (header, map) (map.allocate numBytes)) := by
  rw [allocate, FreeMap.allocate]
  by_cases hsize : numBytes ≤ maxFileSize
  · rw [if_neg (Nat.not_lt_of_le hsize), dif_pos hsize, exec_get_bind,
      exec_guarded (Guarded.numClear_eq map)]
    by_cases hroom : map.numFree < sectorsFor numBytes
    · rw [if_pos hroom, if_pos hroom]
      rfl
    · have hcount := sectorsFor_le hsize
      have hle : sectorsFor numBytes ≤ map.freeSectors.length := by
        rw [← FreeMap.numFree_eq_length]
        omega
      -- The search finds as many as were counted, so nothing is undone.
      have hfill : (fill undo ([] ++ List.replicate (sectorsFor numBytes +
          (numDirect - sectorsFor numBytes)) 0) 0 (sectorsFor numBytes)).exec map = _ :=
        exec_fill hle
      rw [Nat.add_sub_cancel' hcount, List.nil_append, List.nil_append,
        ← FreeMap.firstFree_eq_take] at hfill
      rw [if_neg hroom, if_neg hroom, exec_bind_ok (exec_onSecond hfill header),
        exec_guarded (Guarded.header_firstFree hsize hle)]
      rfl
  · rw [if_pos (Nat.lt_of_not_le hsize), dif_neg hsize]
    rfl

theorem exec_checkUsed (sectors : List UInt32) (map : FreeMap) : (checkUsed sectors).exec map =
    .ok (match sectors.find? fun s ↦ !map.used s with
      | some sector => (.error (.corruption sector .sectorAlreadyFree), map)
      | none => (.ok (), map)) := by
  induction sectors with
  | nil => rfl
  | cons sector rest ih =>
    rw [checkUsed, exec_get_bind, exec_guarded (Guarded.test_eq map sector), List.find?_cons]
    cases map.used sector with
    | false => rfl
    | true => exact ih

theorem exec_clearAll {sectors : List UInt32} (h : ∀ s ∈ sectors, s.toNat < map.count) :
    (clearAll sectors).exec map = .ok (.ok (), sectors.foldl FreeMap.erase map) := by
  induction sectors generalizing map with
  | nil => rfl
  | cons sector rest ih =>
    rw [clearAll, exec_bind_ok (exec_clear_of_lt (h _ List.mem_cons_self))]
    exact ih fun s hs ↦ h s (List.mem_cons_of_mem _ hs)

/-- Releasing in place comes to the release or leaves the map. -/
theorem exec_release (h : header.numSectors.toNat ≤ numDirect) (map : FreeMap) :
    (release header).exec map = .ok (changed () map (map.release header)) := by
  have hsectors := Guarded.dataSectors_of_le h
  have hcheck := exec_checkUsed header.dataSectors map
  rw [release, exec_guarded hsectors, FreeMap.release]
  cases hfind : header.dataSectors.find? fun s ↦ !map.used s with
  | some sector =>
    rw [hfind] at hcheck
    exact exec_bind_error hcheck
  | none =>
    rw [hfind] at hcheck
    rw [exec_bind_ok hcheck, exec_guarded hsectors]
    refine exec_clearAll fun s hs ↦ FreeMap.lt_of_used ?_
    simpa using List.find?_eq_none.1 hfind s hs

end InPlace

namespace FreeMap

variable {map taken : FreeMap} {header : Header} {size i : Nat} {s : UInt32}

def freeSet (map : FreeMap) : Finset Nat := Finset.range map.count \ map.usedSet

theorem card_freeSet (h : map.count < UInt32.size) : map.freeSet.card = map.numFree := by
  have hsubset : map.usedSet ⊆ Finset.range map.count := Finset.filter_subset _ _
  rw [freeSet, Finset.card_sdiff_of_subset hsubset, Finset.card_range, numFree_eq h]

theorem mem_freeSet_iff (h : map.count < UInt32.size) :
    i ∈ map.freeSet ↔ ∃ s ∈ map.freeSectors, s.toNat = i := by
  rw [exists_mem_freeSectors_iff h, freeSet, Finset.mem_sdiff, Finset.mem_range]

theorem bit_eq_used (h : s.toNat < map.count) : map.bit s.toNat = map.used s := by
  rw [Bool.eq_iff_iff, bit_eq_true_iff, used, decide_eq_true h, Bool.true_and,
    List.contains_iff_mem]

theorem bit_foldl_insert {sectors : List UInt32} (h : ∀ s ∈ sectors, s.toNat < map.count) (i : Nat) :
    (sectors.foldl insert map).bit i = (map.bit i || sectors.any fun s ↦ s.toNat == i) := by
  induction sectors generalizing map with
  | nil => exact (Bool.or_false _).symm
  | cons s rest ih =>
    rw [List.foldl_cons, ih fun t ht ↦ by
      rw [count_insert]
      exact h t (List.mem_cons_of_mem _ ht), bit_insert (h s List.mem_cons_self), List.any_cons,
      Bool.or_assoc, BEq.comm]

theorem bit_foldl_erase (map : FreeMap) (sectors : List UInt32) (i : Nat) :
    (sectors.foldl erase map).bit i = (map.bit i && !sectors.any fun s ↦ s.toNat == i) := by
  induction sectors generalizing map with
  | nil => exact (Bool.and_true _).symm
  | cons s rest ih =>
    rw [List.foldl_cons, ih, bit_erase, List.any_cons, Bool.not_or, Bool.and_assoc, bne, BEq.comm]

/-- The header is that of a file of `size` bytes in the least free sectors, and these and no others
have been taken. -/
structure Allots (map : FreeMap) (size : Nat) (header : Header) (taken : FreeMap) : Prop where
  numBytes : header.numBytes.toNat = size
  numSectors : header.numSectors.toNat = sectorsFor size
  length : header.dataSectors.length = sectorsFor size
  slots : header.slots = header.dataSectors ++ List.replicate (numDirect - sectorsFor size) 0
  increasing : header.dataSectors.Pairwise fun s t ↦ s.toNat < t.toNat
  free : ∀ s ∈ header.dataSectors, s.toNat ∈ map.freeSet
  least : ∀ s ∈ header.dataSectors, ∀ i ∈ map.freeSet, i < s.toNat →
    ∃ t ∈ header.dataSectors, t.toNat = i
  count : taken.count = map.count
  bits : ∀ i, taken.bit i = (map.bit i || header.dataSectors.any fun s ↦ s.toNat == i)

theorem slots_of_allocate (h : map.allocate size = .ok (header, taken)) :
    header.slots = header.dataSectors ++
      List.replicate (numDirect - header.dataSectors.length) 0 := by
  obtain ⟨-, -, _, rfl, -⟩ := ofSectors_of_allocate h
  rw [Header.dataSectors_ofSectors]
  rfl

theorem taken_of_allocate (h : map.allocate size = .ok (header, taken)) :
    taken = header.dataSectors.foldl insert map := by
  obtain ⟨-, -, _, rfl, rfl⟩ := ofSectors_of_allocate h
  rw [Header.dataSectors_ofSectors]

theorem allots_of_allocate (hcount : map.count < UInt32.size)
    (h : map.allocate size = .ok (header, taken)) : map.Allots size header taken := by
  obtain ⟨hc, hsize, -, hfree, hkept, -⟩ := of_allocate h
  have hnum : header.numSectors.toNat = sectorsFor size := by rw [hc.2, hsize]
  have hlength : header.dataSectors.length = sectorsFor size := by
    rw [hc.length_dataSectors, hsize]
  have hsectors := dataSectors_of_allocate h
  have hmem : ∀ s ∈ header.dataSectors, s ∈ map.freeSectors := fun s hs ↦
    List.mem_of_mem_take (hsectors ▸ hs)
  exact {
    numBytes := hsize
    numSectors := hnum
    length := hlength
    slots := by rw [← hlength]; exact slots_of_allocate h
    increasing := by rw [hsectors]; exact map.pairwise_freeSectors.sublist (List.take_sublist _ _)
    free := fun s hs ↦ (mem_freeSet_iff hcount).2 ⟨s, hmem s hs, rfl⟩
    least := fun s hs i hi hlt ↦ by
      obtain ⟨t, ht, rfl⟩ := (mem_freeSet_iff hcount).1 hi
      rw [hsectors] at hs ⊢
      exact ⟨t, mem_take_freeSectors hs ht hlt, rfl⟩
    count := hkept
    bits := by rw [taken_of_allocate h]; exact bit_foldl_insert fun s hs ↦ (hfree s hs).1 }

/-- What was just allocated is released again without a trace. -/
theorem release_of_allocate (h : map.allocate size = .ok (header, taken)) :
    taken.release header = .ok map := by
  obtain ⟨-, -, -, hfree, hkept, hused⟩ := of_allocate h
  rw [release_eq_ok fun s hs ↦ (hused s).2 (Or.inr hs)]
  refine congrArg Except.ok (eq_of_bits ((count_foldl_erase _ _).trans hkept) fun i ↦ ?_)
  rw [bit_foldl_erase, taken_of_allocate h, bit_foldl_insert fun s hs ↦ (hfree s hs).1]
  cases hany : header.dataSectors.any fun s ↦ s.toNat == i with
  | false => rw [Bool.or_false, Bool.not_false, Bool.and_true]
  | true =>
    obtain ⟨s, hs, hi⟩ := List.any_eq_true.1 hany
    obtain ⟨hlt, hclear⟩ := hfree s hs
    rw [← beq_iff_eq.1 hi, bit_eq_used hlt, hclear]
    rfl

theorem exists_error_of_release (h : s ∈ header.dataSectors) (hfree : map.used s = false) :
    ∃ t ∈ header.dataSectors, map.used t = false ∧
      map.release header = .error (.corruption t .sectorAlreadyFree) := by
  rw [release]
  cases hfind : header.dataSectors.find? fun s ↦ !map.used s with
  | some t =>
    have hclear := List.find?_some hfind
    exact ⟨t, List.mem_of_find?_eq_some hfind, by simpa using hclear, rfl⟩
  | none => exact absurd (List.find?_eq_none.1 hfind s h) (by simp [hfree])

theorem allocate_of_full (hsize : size ≤ maxFileSize) (h : map.numFree < sectorsFor size) :
    map.allocate size = .error (.capacityExceeded .noFreeSector) := by
  rw [allocate, dif_pos hsize, if_pos h]

theorem exists_allocate (hsize : size ≤ maxFileSize) (h : sectorsFor size ≤ map.numFree) :
    ∃ new taken, map.allocate size = .ok (new, taken) := by
  rw [allocate, dif_pos hsize, if_neg (Nat.not_lt_of_le h)]
  exact ⟨_, _, rfl⟩

/-- In a map of less than 2 ^ 32 sectors, allocation takes the least free sectors, and release frees
the sectors of a header if all of them are used. In place, either leaves everything as it was where
it fails, whatever there was to undo with. Release undoes what was just allocated bit for bit. -/
theorem allocates_and_releases {map : FreeMap} (hcount : map.count < UInt32.size) :
    (∀ (size : Nat) (header : Header) (undo : List UInt32 → InPlace FreeMap Unit),
      (InPlace.allocate undo size).exec (header, map) =
        .ok (changed () (header, map) (map.allocate size)) ∧
      (maxFileSize < size →
        map.allocate size = .error (.capacityExceeded .fileTooLarge)) ∧
      (size ≤ maxFileSize → map.freeSet.card < sectorsFor size →
        map.allocate size = .error (.capacityExceeded .noFreeSector)) ∧
      (size ≤ maxFileSize → sectorsFor size ≤ map.freeSet.card →
        ∃ new taken, map.allocate size = .ok (new, taken) ∧ map.Allots size new taken ∧
          (∀ sector, Header.decode sector new.encode = .ok new) ∧
          (InPlace.release new).exec taken = .ok (.ok (), map))) ∧
    ∀ header : Header, header.numSectors.toNat ≤ numDirect →
      (InPlace.release header).exec map = .ok (changed () map (map.release header)) ∧
      ((∀ s ∈ header.dataSectors, s.toNat ∈ map.usedSet) →
        ∃ left, map.release header = .ok left ∧ left.count = map.count ∧
          ∀ i, left.bit i = (map.bit i && !header.dataSectors.any fun s ↦ s.toNat == i)) ∧
      ∀ s ∈ header.dataSectors, s.toNat ∉ map.usedSet →
        ∃ t ∈ header.dataSectors, t.toNat ∉ map.usedSet ∧
          map.release header = .error (.corruption t .sectorAlreadyFree) := by
  have hnotUsed : ∀ s : UInt32, s.toNat ∉ map.usedSet ↔ map.used s = false := fun s ↦ by
    rw [toNat_mem_usedSet, Bool.not_eq_true]
  constructor
  · intro size header undo
    rw [card_freeSet hcount]
    refine ⟨InPlace.exec_allocate undo size header map,
      fun hlarge ↦ dif_neg (Nat.not_le_of_lt hlarge), allocate_of_full, fun hsize hroom ↦ ?_⟩
    obtain ⟨new, taken, hnew⟩ := exists_allocate hsize hroom
    have hc := (of_allocate hnew).1
    have hback := InPlace.exec_release (hc.2 ▸ sectorsFor_le hc.1) taken
    rw [release_of_allocate hnew] at hback
    exact ⟨new, taken, hnew, allots_of_allocate hcount hnew,
      fun sector ↦ Header.decode_encode sector hc, hback⟩
  · intro header hle
    refine ⟨InPlace.exec_release hle map, fun hused ↦ ?_, fun s hs hfree ↦ ?_⟩
    · have hrelease := release_eq_ok fun s hs ↦ toNat_mem_usedSet.1 (hused s hs)
      exact ⟨_, hrelease, count_foldl_erase _ _, bit_foldl_erase _ _⟩
    · obtain ⟨t, ht, hclear, herror⟩ := exists_error_of_release hs ((hnotUsed s).1 hfree)
      exact ⟨t, ht, (hnotUsed t).2 hclear, herror⟩

/-- One byte more than a sector holds takes the two sectors after the one in use. -/
theorem allocates_and_releases_afterFirst :
    ∃ new taken, (InPlace.allocate InPlace.clearAll 129).exec (.empty, (empty 64).insert 0) =
        .ok (.ok (), (new, taken)) ∧
      new.slots = [1, 2] ++ List.replicate 28 0 ∧ taken.usedSet = {0, 1, 2} ∧
      (InPlace.release new).exec taken = .ok (.ok (), (empty 64).insert 0) := by
  obtain ⟨hexec, -, -, hroom⟩ :=
    (@allocates_and_releases ((empty 64).insert 0) (by decide)).1 129 .empty InPlace.clearAll
  obtain ⟨new, taken, hnew, -, -, hback⟩ := hroom (by decide) (by decide +kernel)
  rw [hnew] at hexec
  have hmap : ((empty 64).insert 0).allocate 129 = .ok (.ofSectors 129 [1, 2] (by decide),
      (((empty 64).insert 0).insert 1).insert 2) := by decide +kernel
  cases hnew.symm.trans hmap
  exact ⟨_, _, hexec, rfl, by decide +kernel, hback⟩

end FreeMap

end SectorFS
