import Mathlib.Data.Finset.Sort
import SectorFS.Proofs.Guarded.InPlace
import SectorFS.Proofs.Guarded.Walk

namespace SectorFS

namespace FreeMap

inductive Request
  | mark (sector : UInt32)
  | clear (sector : UInt32)
  | test (sector : UInt32)
  | find
  | numClear
  | usedSectors
  | render
  deriving DecidableEq, Repr

inductive Reply
  | done
  | flag (used : Bool)
  | found (sector : Option UInt32)
  | number (count : Nat)
  | sectors (used : List UInt32)
  | text (shown : String)
  deriving DecidableEq, Repr

def serve : Request → FreeMap → Except Error Reply × FreeMap
  | .mark sector, map => changed .done map (map.mark sector)
  | .clear sector, map => changed .done map (map.clear sector)
  | .test sector, map => (.ok (.flag (map.used sector)), map)
  | .find, map =>
    match map.takeFirst? with
    | some (sector, after) => (.ok (.found (some sector)), after)
    | none => (.ok (.found none), map)
  | .numClear, map => (.ok (.number map.numFree), map)
  | .usedSectors, map => (.ok (.sectors map.usedSectors), map)
  | .render, map => (.ok (.text map.render), map)

end FreeMap

/-! ## In place -/

namespace InPlace

open Guarded (locate update)

def change (combine : UInt8 → UInt8 → UInt8) (sector : UInt32) : InPlace FreeMap Unit := do
  match ← locate (← get) sector with
  | none => throw (.invalidSector sector)
  | some (place, mask) => set (← update (← get) place (combine · mask))

def mark : UInt32 → InPlace FreeMap Unit := change (· ||| ·)

def clear : UInt32 → InPlace FreeMap Unit := change fun byte mask ↦ byte &&& ~~~mask

def find : InPlace FreeMap (Option UInt32) := do
  match ← Guarded.firstUnused (← get) (← get).sectors with
  | none => return none
  | some sector =>
    match ← locate (← get) sector with
    | none => return none
    | some (place, mask) =>
      set (← update (← get) place (· ||| mask))
      return some sector

def onMap : FreeMap.Request → InPlace FreeMap FreeMap.Reply
  | .mark sector => do mark sector; return .done
  | .clear sector => do clear sector; return .done
  | .test sector => do return .flag (← Guarded.test (← get) sector)
  | .find => do return .found (← find)
  | .numClear => do return .number (← Guarded.numClear (← get))
  | .usedSectors => do return .sectors (((← Guarded.scan (← get)).filter Prod.snd).map Prod.fst)
  | .render => do return .text (← Guarded.printMap (← get))

variable {map : FreeMap} {sector : UInt32} {combine : UInt8 → UInt8 → UInt8}

theorem exec_change_of_le (h : map.count ≤ sector.toNat) :
    (change combine sector).exec map = .ok (.error (.invalidSector sector), map) := by
  rw [change, exec_get_bind, exec_guarded (Guarded.locate_of_le h)]
  rfl

theorem exec_change_of_lt {after : FreeMap} (h : sector.toNat < map.count)
    (hafter : update map (sector.toNat / 8)
      (combine · (1 <<< UInt8.ofNat (sector.toNat % 8))) = .ok after) :
    (change combine sector).exec map = .ok (.ok (), after) := by
  rw [change, exec_get_bind, exec_guarded (Guarded.locate_of_lt h)]
  dsimp only
  rw [exec_get_bind, exec_guarded hafter]
  rfl

theorem exec_mark_of_lt (h : sector.toNat < map.count) :
    (mark sector).exec map = .ok (.ok (), map.insert sector) :=
  exec_change_of_lt h (Guarded.setBit_eq h)

theorem exec_clear_of_lt (h : sector.toNat < map.count) :
    (clear sector).exec map = .ok (.ok (), map.erase sector) :=
  exec_change_of_lt h (Guarded.clearBit_eq h)

theorem exec_find_of_some {after : FreeMap} (h : map.takeFirst? = some (sector, after)) :
    find.exec map = .ok (.ok (some sector), after) := by
  have hfirst : map.freeSectors.head? = some sector := by
    rw [(FreeMap.of_takeFirst?_eq_some h).2]
    rfl
  obtain ⟨hlt, -, rfl⟩ := FreeMap.of_takeFirst? h
  have hunused : Guarded.firstUnused map map.sectors = .ok (some sector) := by
    rw [Guarded.firstUnused_eq]
    exact congrArg Except.ok hfirst
  rw [find, exec_get_bind, exec_get_bind, exec_guarded hunused]
  dsimp only
  rw [exec_get_bind, exec_guarded (Guarded.locate_of_lt hlt)]
  dsimp only
  rw [exec_get_bind, exec_guarded (Guarded.setBit_eq hlt)]
  rfl

theorem exec_find_of_none (h : map.takeFirst? = none) : find.exec map = .ok (.ok none, map) := by
  have hunused : Guarded.firstUnused map map.sectors = .ok none := by
    rw [FreeMap.takeFirst?_eq, Option.map_eq_none_iff] at h
    rw [Guarded.firstUnused_eq]
    exact congrArg Except.ok h
  rw [find, exec_get_bind, exec_get_bind, exec_guarded hunused]
  rfl

/-- On its bytes a map answers each request as on its marks. -/
theorem exec_onMap (request : FreeMap.Request) (map : FreeMap) :
    (onMap request).exec map = .ok (FreeMap.serve request map) := by
  cases request with
  | mark sector =>
    refine exec_changed ?_ _
    rw [FreeMap.mark]
    split
    · next h => exact exec_mark_of_lt h
    · next h => exact exec_change_of_le (Nat.le_of_not_lt h)
  | clear sector =>
    refine exec_changed ?_ _
    rw [FreeMap.clear]
    split
    · next h => exact exec_clear_of_lt h
    · next h => exact exec_change_of_le (Nat.le_of_not_lt h)
  | test sector =>
    rw [onMap, exec_get_bind, exec_guarded (Guarded.test_eq map sector)]
    rfl
  | find =>
    cases h : map.takeFirst? with
    | none =>
      rw [onMap, exec_bind_ok (exec_find_of_none h), FreeMap.serve, h]
      rfl
    | some taken =>
      rw [onMap, exec_bind_ok (exec_find_of_some h), FreeMap.serve, h]
      rfl
  | numClear =>
    rw [onMap, exec_get_bind, exec_guarded (Guarded.numClear_eq map)]
    rfl
  | usedSectors =>
    rw [onMap, exec_get_bind, exec_guarded (Guarded.scan_eq map), FreeMap.serve,
      FreeMap.usedSectors_eq_filter, List.filter_map, List.map_map]
    change Except.ok (Except.ok (FreeMap.Reply.sectors (List.map id _)), map) = _
    rw [List.map_id]
    rfl
  | render =>
    rw [onMap, exec_get_bind, exec_guarded (Guarded.printMap_eq map)]
    rfl

end InPlace

namespace FreeMap

variable {map other left : FreeMap} {s : UInt32} {i count : Nat} {used : Finset Nat}

/-! ## Bits -/

/-- The bit at a position of the stored map, also of those that fill up the last byte. -/
def bit (map : FreeMap) (i : Nat) : Bool := (map.bytes.getD (i / 8) 0).toBitVec.getLsbD (i % 8)

theorem bit_eq_true_iff : map.bit i = true ↔ i ∈ map.marks := Guarded.mem_marks.symm

theorem eq_of_bits (hcount : map.count = other.count) (h : ∀ i, map.bit i = other.bit i) :
    map = other := by
  apply eq_of_marks hcount
  apply Marks.eq_of_mem_iff map.pairwise_marks other.pairwise_marks
  intro i
  rw [← bit_eq_true_iff, h, bit_eq_true_iff]

theorem bit_insert (h : s.toNat < map.count) (i : Nat) :
    (map.insert s).bit i = (map.bit i || i == s.toNat) := by
  rw [Bool.eq_iff_iff, Bool.or_eq_true, beq_iff_eq, bit_eq_true_iff, bit_eq_true_iff, insert,
    dif_pos h]
  exact Marks.mem_insert.trans or_comm

theorem bit_erase (map : FreeMap) (s : UInt32) (i : Nat) :
    (map.erase s).bit i = (map.bit i && i != s.toNat) := by
  rw [Bool.eq_iff_iff, Bool.and_eq_true, bit_eq_true_iff, bit_eq_true_iff]
  exact List.mem_filter

def usedSet (map : FreeMap) : Finset Nat :=
  (Finset.range map.count).filter fun i ↦ map.used (UInt32.ofNat i)

theorem toNat_mem_usedSet : s.toNat ∈ map.usedSet ↔ map.used s = true := by
  rw [usedSet, Finset.mem_filter, Finset.mem_range, UInt32.ofNat_toNat]
  exact and_iff_right_of_imp lt_of_used

theorem mem_usedSet_iff (h : map.count < UInt32.size) :
    i ∈ map.usedSet ↔ i < map.count ∧ map.bit i = true := by
  rw [usedSet, Finset.mem_filter, Finset.mem_range]
  refine and_congr_right fun hi ↦ ?_
  have hreach : i < map.reach := by rwa [reach, Nat.mod_eq_of_lt h]
  rw [used_ofNat map hreach, List.contains_iff_mem, bit_eq_true_iff]

theorem usedSet_insert (hcount : map.count < UInt32.size) (h : s.toNat < map.count) :
    (map.insert s).usedSet = map.usedSet ∪ {s.toNat} := by
  ext i
  rw [mem_usedSet_iff (by rwa [count_insert]), bit_insert h, count_insert, Finset.mem_union,
    Finset.mem_singleton, mem_usedSet_iff hcount, Bool.or_eq_true, beq_iff_eq, and_or_left]
  exact or_congr_right (and_iff_right_of_imp fun heq ↦ heq ▸ h)

theorem usedSet_erase (hcount : map.count < UInt32.size) (s : UInt32) :
    (map.erase s).usedSet = map.usedSet \ {s.toNat} := by
  ext i
  rw [mem_usedSet_iff (by rwa [count_erase]), bit_erase, count_erase, Finset.mem_sdiff,
    Finset.mem_singleton, mem_usedSet_iff hcount, Bool.and_eq_true, bne_iff_ne, and_assoc]

theorem toNat_usedSectors (h : map.count < UInt32.size) :
    map.usedSectors.map UInt32.toNat = Finset.sort map.usedSet := by
  have hreach : map.reach = map.count := Nat.mod_eq_of_lt h
  have hlist : map.usedSectors.map UInt32.toNat = map.marks.filter fun i ↦ i < map.count := by
    rw [usedSectors, List.map_map, hreach]
    refine (List.map_congr_left fun i hi ↦ ?_).trans (List.map_id _)
    have hlt := of_decide_eq_true (List.mem_filter.1 hi).2
    exact UInt32.toNat_ofNat_of_lt' (Nat.lt_trans hlt h)
  have hsorted := map.pairwise_marks.filter fun i ↦ i < map.count
  have hset : (map.marks.filter fun i ↦ i < map.count).toFinset = map.usedSet := by
    ext i
    rw [List.mem_toFinset, List.mem_filter, mem_usedSet_iff h, bit_eq_true_iff, decide_eq_true_iff,
      and_comm]
  rw [hlist, ← hset]
  exact ((List.toFinset_sort _ (hsorted.imp Nat.ne_of_lt)).2 (hsorted.imp Nat.le_of_lt)).symm

theorem numFree_eq (h : map.count < UInt32.size) : map.numFree = map.count - map.usedSet.card := by
  have hcard : map.usedSectors.length = map.usedSet.card := by
    rw [← Finset.length_sort (· ≤ ·), ← toNat_usedSectors h, List.length_map]
  rw [numFree, reach, Nat.mod_eq_of_lt h, hcard]

theorem exists_mem_freeSectors_iff (h : map.count < UInt32.size) :
    (∃ s ∈ map.freeSectors, s.toNat = i) ↔ i < map.count ∧ i ∉ map.usedSet := by
  constructor
  · rintro ⟨s, hs, rfl⟩
    rw [toNat_mem_usedSet, Bool.not_eq_true]
    exact mem_freeSectors hs
  · rintro ⟨hlt, hnot⟩
    have hword : (UInt32.ofNat i).toNat = i := UInt32.toNat_ofNat_of_lt' (Nat.lt_trans hlt h)
    refine ⟨UInt32.ofNat i, ?_, hword⟩
    rw [mem_freeSectors_iff h, ← Bool.not_eq_true, ← toNat_mem_usedSet, hword]
    exact ⟨hlt, hnot⟩

theorem least_of_takeFirst? (hcount : map.count < UInt32.size)
    (h : map.takeFirst? = some (s, left)) : ∀ i < s.toNat, i ∈ map.usedSet := by
  intro i hi
  have hone : map.freeSectors.take 1 = [s] := by
    rw [(of_takeFirst?_eq_some h).2]
    rfl
  have hlt := Nat.lt_trans hi (of_takeFirst? h).1
  by_contra hnot
  obtain ⟨t, ht, rfl⟩ := (exists_mem_freeSectors_iff hcount).2 ⟨hlt, hnot⟩
  have hfirst : t ∈ map.freeSectors.take 1 :=
    mem_take_freeSectors (hone ▸ List.mem_singleton_self s) ht hi
  rw [hone, List.mem_singleton] at hfirst
  exact Nat.lt_irrefl _ (hfirst ▸ hi)

theorem usedSet_of_takeFirst?_eq_none (hcount : map.count < UInt32.size)
    (h : map.takeFirst? = none) : map.usedSet = Finset.range map.count := by
  have hnone : map.freeSectors = [] := by
    rwa [takeFirst?_eq_none_iff, numFree_eq_length, List.length_eq_zero_iff] at h
  refine Finset.Subset.antisymm (Finset.filter_subset _ _) fun i hi ↦ ?_
  by_contra hnot
  obtain ⟨s, hs, -⟩ := (exists_mem_freeSectors_iff hcount).2 ⟨Finset.mem_range.1 hi, hnot⟩
  rw [hnone] at hs
  exact List.not_mem_nil hs

/-! ## Requests -/

/-- What a set of numbers below `count` answers to a request, and what is left of it. -/
inductive SetRule (count : Nat) (used : Finset Nat) :
    Request → Except Error Reply → Finset Nat → Prop
  | mark {s : UInt32} (h : s.toNat < count) :
      SetRule count used (.mark s) (.ok .done) (used ∪ {s.toNat})
  | markBeyond {s : UInt32} (h : count ≤ s.toNat) :
      SetRule count used (.mark s) (.error (.invalidSector s)) used
  | clear {s : UInt32} (h : s.toNat < count) :
      SetRule count used (.clear s) (.ok .done) (used \ {s.toNat})
  | clearBeyond {s : UInt32} (h : count ≤ s.toNat) :
      SetRule count used (.clear s) (.error (.invalidSector s)) used
  | test (s : UInt32) : SetRule count used (.test s) (.ok (.flag (s.toNat ∈ used))) used
  | find {s : UInt32} (h : s.toNat < count) (hfree : s.toNat ∉ used)
      (hleast : ∀ i < s.toNat, i ∈ used) :
      SetRule count used .find (.ok (.found (some s))) (used ∪ {s.toNat})
  | findNone (h : used = Finset.range count) : SetRule count used .find (.ok (.found none)) used
  | numClear : SetRule count used .numClear (.ok (.number (count - used.card))) used
  | usedSectors {sectors : List UInt32} (h : sectors.map UInt32.toNat = Finset.sort used) :
      SetRule count used .usedSectors (.ok (.sectors sectors)) used
  | render : SetRule count used .render (.ok (.text ("Bitmap set:" ++
      String.join ((Finset.sort used).map fun i ↦ s!" {i}")))) used

def SamePadding (map other : FreeMap) : Prop :=
  other.count = map.count ∧ ∀ i, map.count ≤ i → other.bit i = map.bit i

theorem SamePadding.trans (h : SamePadding map other) (h' : SamePadding other left) :
    SamePadding map left :=
  ⟨h'.1.trans h.1, fun i hi ↦ (h'.2 i (h.1.symm ▸ hi)).trans (h.2 i hi)⟩

theorem samePadding_insert (h : s.toNat < map.count) : SamePadding map (map.insert s) := by
  refine ⟨count_insert map s, fun i hi ↦ ?_⟩
  have hne : (i == s.toNat) = false := beq_eq_false_iff_ne.2 (by omega)
  rw [bit_insert h, hne, Bool.or_false]

theorem samePadding_erase (h : s.toNat < map.count) : SamePadding map (map.erase s) := by
  refine ⟨count_erase map s, fun i hi ↦ ?_⟩
  have hne : (i != s.toNat) = true := bne_iff_ne.2 (by omega)
  rw [bit_erase, hne, Bool.and_true]

/-- With the bits beyond the last sector a map is given by its set. -/
theorem SamePadding.eq_of_usedSet (hcount : map.count < UInt32.size) (h : SamePadding map other)
    (hset : other.usedSet = map.usedSet) : other = map := by
  refine eq_of_bits h.1 fun i ↦ ?_
  by_cases hi : i < map.count
  · have hmem : i ∈ other.usedSet ↔ i ∈ map.usedSet := by rw [hset]
    rw [mem_usedSet_iff (h.1.symm ▸ hcount), mem_usedSet_iff hcount, h.1, and_iff_right hi,
      and_iff_right hi] at hmem
    exact Bool.eq_iff_iff.2 hmem
  · exact h.2 i (Nat.le_of_not_lt hi)

theorem serve_obeys (hcount : map.count < UInt32.size) (request : Request) :
    SetRule map.count map.usedSet request (serve request map).1 (serve request map).2.usedSet ∧
      SamePadding map (serve request map).2 := by
  have hsame : SamePadding map map := ⟨rfl, fun _ _ ↦ rfl⟩
  cases request with
  | mark s =>
    by_cases h : s.toNat < map.count
    · rw [serve, FreeMap.mark, if_pos h, changed, usedSet_insert hcount h]
      exact ⟨.mark h, samePadding_insert h⟩
    · rw [serve, FreeMap.mark, if_neg h]
      exact ⟨.markBeyond (Nat.le_of_not_lt h), hsame⟩
  | clear s =>
    by_cases h : s.toNat < map.count
    · rw [serve, FreeMap.clear, if_pos h, changed, usedSet_erase hcount]
      exact ⟨.clear h, samePadding_erase h⟩
    · rw [serve, FreeMap.clear, if_neg h]
      exact ⟨.clearBeyond (Nat.le_of_not_lt h), hsame⟩
  | test s =>
    have hflag : map.used s = decide (s.toNat ∈ map.usedSet) := by
      rw [Bool.eq_iff_iff, decide_eq_true_iff, toNat_mem_usedSet]
    rw [serve, hflag]
    exact ⟨.test s, hsame⟩
  | find =>
    cases htake : map.takeFirst? with
    | none =>
      rw [serve, htake]
      exact ⟨.findNone (usedSet_of_takeFirst?_eq_none hcount htake), hsame⟩
    | some taken =>
      obtain ⟨s, after⟩ := taken
      obtain ⟨hlt, hfree, rfl⟩ := of_takeFirst? htake
      have hnot : s.toNat ∉ map.usedSet := by
        rw [toNat_mem_usedSet, hfree]
        exact Bool.false_ne_true
      rw [serve, htake]
      dsimp only
      rw [usedSet_insert hcount hlt]
      exact ⟨.find hlt hnot (least_of_takeFirst? hcount htake), samePadding_insert hlt⟩
  | numClear =>
    rw [serve, numFree_eq hcount]
    exact ⟨.numClear, hsame⟩
  | usedSectors => exact ⟨.usedSectors (toNat_usedSectors hcount), hsame⟩
  | render =>
    have htext : map.render = "Bitmap set:" ++
        String.join ((Finset.sort map.usedSet).map fun i ↦ s!" {i}") := by
      rw [render, ← toNat_usedSectors hcount, List.map_map]
      rfl
    rw [serve, htext]
    exact ⟨.render, hsame⟩

/-! ## Requests in a row -/

variable {requests : List Request} {outcomes : List (Except Error Reply)} {after : Finset Nat}

theorem exists_clear_of_mem (h : Obeyed (SetRule count) used requests outcomes after)
    (hs : s.toNat ∈ used) {j : Nat} (hj : outcomes[j]? = some (.ok (.found (some s)))) :
    ∃ k < j, requests[k]? = some (.clear s) := by
  -- As long as it is in the set it is not found, and only to clear it takes it out.
  induction h generalizing j with
  | nil => contradiction
  | @cons used next last request rest outcome outcomes hrule hmore ih =>
    cases j with
    | zero =>
      cases hj
      cases hrule with
      | find _ hfree => exact absurd hs hfree
    | succ j =>
      by_cases hclear : request = .clear s
      · exact ⟨0, Nat.succ_pos j, congrArg some hclear⟩
      · have hnext : s.toNat ∈ next := by
          cases hrule with
          | mark | find => exact Finset.mem_union_left _ hs
          | @clear t =>
            refine Finset.mem_sdiff.2 ⟨hs, fun heq ↦ hclear ?_⟩
            rw [UInt32.toNat_inj.1 (Finset.mem_singleton.1 heq)]
          | _ => exact hs
        obtain ⟨k, hk, hclear⟩ := ih hnext hj
        exact ⟨k + 1, Nat.succ_lt_succ hk, hclear⟩

/-- A sector that is found is found again only after it is cleared. -/
theorem exists_clear_of_found (h : Obeyed (SetRule count) used requests outcomes after) {i j : Nat}
    (hlt : i < j) (hi : outcomes[i]? = some (.ok (.found (some s))))
    (hj : outcomes[j]? = some (.ok (.found (some s)))) :
    ∃ k, i < k ∧ k < j ∧ requests[k]? = some (.clear s) := by
  induction h generalizing i j with
  | nil => contradiction
  | @cons used next last request rest outcome outcomes hrule hmore ih =>
    obtain ⟨j, rfl⟩ := Nat.exists_eq_add_one_of_ne_zero (Nat.ne_zero_of_lt hlt)
    cases i with
    | zero =>
      cases hi
      cases hrule with
      | find =>
        have hs := Finset.mem_union_right used (Finset.mem_singleton_self s.toNat)
        obtain ⟨k, hk, hclear⟩ := exists_clear_of_mem hmore hs hj
        exact ⟨k + 1, Nat.succ_pos k, Nat.succ_lt_succ hk, hclear⟩
    | succ i =>
      obtain ⟨k, hik, hkj, hclear⟩ := ih (Nat.lt_of_succ_lt_succ hlt) hi hj
      exact ⟨k + 1, Nat.succ_lt_succ hik, Nat.succ_lt_succ hkj, hclear⟩

/-- A map of less than 2 ^ 32 sectors, whatever bits it holds, goes through requests as the set of
its used sectors does, both on its bytes and on its marks. Its bits beyond the last sector stay, so
that with the set the whole map is what it was. What is found is not found again before it is
cleared. -/
theorem sets_of_requests {count : Nat} {bytes : Bytes} (hcount : count < UInt32.size)
    (hbytes : bytes.length = (count + 7) / 8) (requests : List Request) :
    ∃ (map left : FreeMap) (outcomes : List (Except Error Reply)),
      map.count = count ∧ map.bytes = bytes ∧
      InPlace.calls InPlace.onMap requests map = .ok (outcomes, left) ∧
      inTurn serve requests map = (outcomes, left) ∧
      Obeyed (SetRule count) map.usedSet requests outcomes left.usedSet ∧
      SamePadding map left ∧
      (left.usedSet = map.usedSet → left = map) ∧
      ∀ (i j : Nat) (s : UInt32), i < j → outcomes[i]? = some (.ok (.found (some s))) →
        outcomes[j]? = some (.ok (.found (some s))) →
          ∃ k, i < k ∧ k < j ∧ requests[k]? = some (.clear s) := by
  obtain ⟨map, rfl, rfl⟩ : ∃ map : FreeMap, map.count = count ∧ map.bytes = bytes :=
    ⟨(empty count).overlay bytes, rfl, bytes_overlay (empty count) hbytes⟩
  have hcalls : InPlace.calls InPlace.onMap requests map = .ok (inTurn serve requests map) :=
    InPlace.calls_eq InPlace.exec_onMap requests map
  have hstep : ∀ request left, SamePadding map left →
      SetRule map.count left.usedSet request (serve request left).1 (serve request left).2.usedSet ∧
        SamePadding map (serve request left).2 := by
    intro request left hleft
    obtain ⟨hrule, hkept⟩ := serve_obeys (hleft.1.symm ▸ hcount) request
    exact ⟨hleft.1 ▸ hrule, hleft.trans hkept⟩
  obtain ⟨hobeyed, hpadding⟩ := obeyed_inTurn hstep requests ⟨rfl, fun _ _ ↦ rfl⟩
  exact ⟨map, _, _, rfl, rfl, hcalls, rfl, hobeyed, hpadding, hpadding.eq_of_usedSet hcount,
    fun _ _ _ hlt hi hj ↦ exists_clear_of_found hobeyed hlt hi hj⟩

def nearlyFull : Bytes := [0xff, 0xfa]

def trial : List Request :=
  [.numClear, .find, .find, .find, .clear 3, .mark 11, .test 15, .find]

/-- The bits beyond the last sector are neither counted nor changed. -/
theorem sets_of_requests_nearlyFull :
    11 < UInt32.size ∧ nearlyFull.length = (11 + 7) / 8 ∧
    ∃ (map left : FreeMap) (outcomes : List (Except Error Reply)),
      map.count = 11 ∧ map.bytes = nearlyFull ∧ map.usedSet = {0, 1, 2, 3, 4, 5, 6, 7, 9} ∧
      InPlace.calls InPlace.onMap trial map = .ok (outcomes, left) ∧
      outcomes = [.ok (.number 2), .ok (.found (some 8)), .ok (.found (some 10)), .ok (.found none),
        .ok .done, .error (.invalidSector 11), .ok (.flag false), .ok (.found (some 3))] ∧
      left.bytes = [0xff, 0xff] ∧
      Obeyed (SetRule 11) map.usedSet trial outcomes left.usedSet := by
  have hsmall : 11 < UInt32.size := by decide
  have hlen : nearlyFull.length = (11 + 7) / 8 := rfl
  obtain ⟨map, left, outcomes, hcount, hbytes, hcalls, hserve, hobeyed, -⟩ :=
    sets_of_requests hsmall hlen trial
  obtain rfl : (empty 11).overlay nearlyFull = map := hbytes ▸ overlay_bytes hcount.symm
  have hrun : inTurn serve trial ((empty 11).overlay nearlyFull) =
      ([.ok (.number 2), .ok (.found (some 8)), .ok (.found (some 10)), .ok (.found none),
        .ok .done, .error (.invalidSector 11), .ok (.flag false), .ok (.found (some 3))],
        (empty 11).overlay [0xff, 0xff]) := by decide +kernel
  obtain ⟨rfl, rfl⟩ := Prod.mk.inj (hrun.symm.trans hserve)
  exact ⟨hsmall, hlen, _, _, _, hcount, hbytes, by decide +kernel, hcalls, rfl, by decide +kernel,
    hobeyed⟩

end FreeMap

end SectorFS
