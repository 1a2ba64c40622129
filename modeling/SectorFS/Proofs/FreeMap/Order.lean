import SectorFS.Proofs.FreeMap

namespace SectorFS.FreeMap

open Layout

variable {map taken left : FreeMap} {s : UInt32} {rest : List UInt32} {numBytes : Nat}
  {header : Header}

theorem takeFirst?_eq (map : FreeMap) :
    map.takeFirst? = map.freeSectors.head?.map fun s ↦ (s, map.insert s) := by
  rw [takeFirst?, firstFree_eq_take, List.head?_take]
  rfl

theorem freeSectors_insert (h : map.freeSectors = s :: rest) : (map.insert s).freeSectors = rest := by
  have hmem : s ∈ map.freeSectors := h ▸ List.mem_cons_self
  have hlt := (mem_freeSectors hmem).1
  have hnodup : map.freeSectors.Nodup := map.nodup_sectors.filter _
  have hsectors : (map.insert s).sectors = map.sectors := by
    rw [sectors, sectors, reach, reach, count_insert]
  have hfree : (map.insert s).freeSectors = map.freeSectors.filter (· != s) := by
    rw [freeSectors, hsectors, freeSectors, List.filter_filter]
    refine List.filter_congr fun t _ ↦ ?_
    rw [used_insert map hlt, Bool.not_or, Bool.and_comm]
    rfl
  rw [h, List.nodup_cons] at hnodup
  rw [hfree, h, List.filter_cons_of_neg (by simp), List.filter_eq_self]
  exact fun t ht ↦ bne_iff_ne.2 fun heq ↦ hnodup.1 (heq ▸ ht)

theorem of_takeFirst?_eq_some (h : map.takeFirst? = some (s, taken)) :
    taken = map.insert s ∧ map.freeSectors = s :: taken.freeSectors := by
  rw [takeFirst?_eq] at h
  obtain ⟨first, hfirst, heq⟩ := Option.map_eq_some_iff.1 h
  cases heq
  obtain ⟨rest, hrest⟩ := List.head?_eq_some_iff.1 hfirst
  exact ⟨rfl, by rw [freeSectors_insert hrest, hrest]⟩

theorem takeFirst?_eq_none_iff : map.takeFirst? = none ↔ map.numFree = 0 := by
  rw [takeFirst?_eq, Option.map_eq_none_iff, List.head?_eq_none_iff, numFree_eq_length,
    List.length_eq_zero_iff]

theorem numFree_of_takeFirst? (h : map.takeFirst? = some (s, taken)) :
    map.numFree = taken.numFree + 1 := by
  rw [numFree_eq_length, (of_takeFirst?_eq_some h).2, List.length_cons, ← numFree_eq_length]

theorem dataSectors_of_allocate (h : map.allocate numBytes = .ok (header, taken)) :
    header.dataSectors = map.freeSectors.take (sectorsFor numBytes) := by
  obtain ⟨-, -, _, rfl, -⟩ := ofSectors_of_allocate h
  rw [Header.dataSectors_ofSectors, firstFree_eq_take]

/-- The header and the data of a new file go into the first free sectors. -/
theorem taken_eq_take (hfirst : map.takeFirst? = some (s, taken))
    (hrest : taken.allocate numBytes = .ok (header, left)) :
    s :: header.dataSectors = map.freeSectors.take (1 + sectorsFor numBytes) := by
  rw [dataSectors_of_allocate hrest, (of_takeFirst?_eq_some hfirst).2, Nat.add_comm,
    List.take_succ_cons]

theorem pairwise_freeSectors (map : FreeMap) :
    map.freeSectors.Pairwise fun s t ↦ s.toNat < t.toNat := by
  rw [freeSectors, sectors, List.filter_map, List.pairwise_map]
  refine (List.pairwise_lt_range.filter _).imp_of_mem fun {i j} hi hj hlt ↦ ?_
  have hword : ∀ i ∈ List.range map.reach, (UInt32.ofNat i).toNat = i := fun i hi ↦
    UInt32.toNat_ofNat_of_lt' (Nat.lt_trans (List.mem_range.1 hi) (Nat.mod_lt _ (by decide)))
  rwa [hword i (List.mem_filter.1 hi).1, hword j (List.mem_filter.1 hj).1]

theorem mem_freeSectors_iff (h : map.count < UInt32.size) :
    s ∈ map.freeSectors ↔ s.toNat < map.count ∧ map.used s = false := by
  refine ⟨mem_freeSectors, fun ⟨hlt, hfree⟩ ↦ List.mem_filter.2 ⟨?_, by simp [hfree]⟩⟩
  have hreach : map.reach = map.count := Nat.mod_eq_of_lt h
  exact List.mem_map.2 ⟨s.toNat, List.mem_range.2 (hreach ▸ hlt), UInt32.ofNat_toNat⟩

theorem mem_take_freeSectors {t : UInt32} {count : Nat} (h : s ∈ map.freeSectors.take count)
    (ht : t ∈ map.freeSectors) (hlt : t.toNat < s.toNat) : t ∈ map.freeSectors.take count := by
  rw [← List.take_append_drop count map.freeSectors, List.mem_append] at ht
  refine ht.resolve_right fun hdrop ↦ ?_
  have hpairwise := map.pairwise_freeSectors
  rw [← List.take_append_drop count map.freeSectors, List.pairwise_append] at hpairwise
  exact Nat.lt_asymm hlt (hpairwise.2.2 s h t hdrop)

end SectorFS.FreeMap
