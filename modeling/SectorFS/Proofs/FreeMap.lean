import SectorFS.FreeMap.Allocation
import SectorFS.FreeMap.Stored
import SectorFS.Proofs.File

namespace SectorFS

open Layout

theorem Header.dataSectors_ofSectors {numBytes : Nat} {sectors : List UInt32}
    (h : sectors.length ≤ numDirect) : (ofSectors numBytes sectors h).dataSectors = sectors := by
  have hlen : (UInt32.ofNat sectors.length).toNat = sectors.length := by
    apply UInt32.toNat_ofNat_of_lt'
    simp only [numDirect, sectorSize, UInt32.size] at h ⊢
    omega
  change (sectors ++ _).take (UInt32.ofNat sectors.length).toNat = sectors
  rw [hlen, List.take_left]

namespace FreeMap

variable {map taken : FreeMap} {header : Header} {s t : UInt32}

theorem nodup_sectors (map : FreeMap) : map.sectors.Nodup := by
  rw [sectors, List.Nodup, List.pairwise_map]
  refine List.nodup_range.imp_of_mem fun {i j} hi hj hne heq ↦ hne ?_
  have hlt : ∀ i ∈ List.range map.reach, i < UInt32.size := fun i hi ↦
    Nat.lt_trans (List.mem_range.1 hi) (Nat.mod_lt _ (by decide))
  rw [← UInt32.toNat_ofNat_of_lt' (hlt i hi), heq, UInt32.toNat_ofNat_of_lt' (hlt j hj)]

theorem mem_freeSectors (h : s ∈ map.freeSectors) : s.toNat < map.count ∧ map.used s = false := by
  obtain ⟨hs, hfree⟩ := List.mem_filter.1 h
  obtain ⟨i, hi, rfl⟩ := List.mem_map.1 hs
  have hlt := List.mem_range.1 hi
  refine ⟨?_, by simpa using hfree⟩
  rw [UInt32.toNat_ofNat_of_lt' (Nat.lt_trans hlt (Nat.mod_lt _ (by decide)))]
  exact Nat.lt_of_lt_of_le hlt (Nat.mod_le _ _)

theorem mem_firstFree {count : Nat} (h : s ∈ map.firstFree count) :
    s.toNat < map.count ∧ map.used s = false := by
  rw [firstFree_eq_take] at h
  exact mem_freeSectors (List.mem_of_mem_take h)

theorem nodup_firstFree (map : FreeMap) (count : Nat) : (map.firstFree count).Nodup := by
  rw [firstFree_eq_take]
  exact (map.nodup_sectors.filter _).sublist (List.take_sublist _ _)

theorem lt_of_used (h : map.used s = true) : s.toNat < map.count :=
  of_decide_eq_true (Bool.and_eq_true_iff.1 h).1

@[simp] theorem count_insert (map : FreeMap) (s : UInt32) : (map.insert s).count = map.count := by
  unfold insert
  split <;> rfl

@[simp] theorem count_erase (map : FreeMap) (s : UInt32) : (map.erase s).count = map.count := rfl

theorem count_foldl_insert (map : FreeMap) (sectors : List UInt32) :
    (sectors.foldl insert map).count = map.count := by
  induction sectors generalizing map with
  | nil => rfl
  | cons s rest ih => rw [List.foldl_cons, ih, count_insert]

theorem count_foldl_erase (map : FreeMap) (sectors : List UInt32) :
    (sectors.foldl erase map).count = map.count := by
  induction sectors generalizing map with
  | nil => rfl
  | cons s rest ih => rw [List.foldl_cons, ih, count_erase]

theorem used_foldl_insert {sectors : List UInt32} (h : ∀ s ∈ sectors, s.toNat < map.count)
    (t : UInt32) : (sectors.foldl insert map).used t = true ↔ map.used t = true ∨ t ∈ sectors := by
  induction sectors generalizing map with
  | nil => rw [List.foldl_nil, or_iff_left List.not_mem_nil]
  | cons s rest ih =>
    rw [List.foldl_cons, ih fun u hu ↦ by
      rw [count_insert]
      exact h u (List.mem_cons_of_mem _ hu), used_insert map (h s List.mem_cons_self),
      Bool.or_eq_true, beq_iff_eq, List.mem_cons, or_assoc]

theorem used_foldl_erase (map : FreeMap) (sectors : List UInt32) (t : UInt32) :
    (sectors.foldl erase map).used t = true ↔ map.used t = true ∧ t ∉ sectors := by
  induction sectors generalizing map with
  | nil => rw [List.foldl_nil, and_iff_left List.not_mem_nil]
  | cons s rest ih =>
    rw [List.foldl_cons, ih, used_erase, Bool.and_eq_true, bne_iff_ne, List.mem_cons, not_or,
      and_assoc]

theorem of_takeFirst? (h : map.takeFirst? = some (s, taken)) :
    s.toNat < map.count ∧ map.used s = false ∧ taken = map.insert s := by
  obtain ⟨first, hfirst, heq⟩ := Option.map_eq_some_iff.1 h
  cases heq
  obtain ⟨hlt, hfree⟩ := mem_firstFree (List.mem_of_mem_head? hfirst)
  exact ⟨hlt, hfree, rfl⟩

/-- An allocation that succeeds is one of the first free sectors, and there are enough of them. -/
theorem ofSectors_of_allocate {numBytes : Nat} (h : map.allocate numBytes = .ok (header, taken)) :
    numBytes ≤ maxFileSize ∧ sectorsFor numBytes ≤ map.numFree ∧
      ∃ hle, header = .ofSectors numBytes (map.firstFree (sectorsFor numBytes)) hle ∧
        taken = (map.firstFree (sectorsFor numBytes)).foldl insert map := by
  unfold allocate at h
  split at h
  · next hsize =>
    split at h
    · contradiction
    · next hroom =>
      cases h
      exact ⟨hsize, Nat.le_of_not_lt hroom, _, rfl, rfl⟩
  · contradiction

theorem of_allocate {numBytes : Nat} (h : map.allocate numBytes = .ok (header, taken)) :
    header.Consistent ∧ header.length = numBytes ∧ header.dataSectors.Nodup ∧
      (∀ s ∈ header.dataSectors, s.toNat < map.count ∧ map.used s = false) ∧
      taken.count = map.count ∧
      ∀ t, taken.used t = true ↔ map.used t = true ∨ t ∈ header.dataSectors := by
  obtain ⟨hsize, hroom, _, rfl, rfl⟩ := ofSectors_of_allocate h
  have hlen : (map.firstFree (sectorsFor numBytes)).length = sectorsFor numBytes := by
    rw [firstFree_eq_take, List.length_take, ← numFree_eq_length, Nat.min_eq_left hroom]
  have hbytes : (UInt32.ofNat numBytes).toNat = numBytes := by
    apply UInt32.toNat_ofNat_of_lt'
    simp only [maxFileSize, numDirect, sectorSize, UInt32.size] at hsize ⊢
    omega
  have hsectors := sectorsFor_le hsize
  rw [Header.dataSectors_ofSectors]
  refine ⟨⟨?_, ?_⟩, hbytes, nodup_firstFree _ _, fun s hs ↦ mem_firstFree hs,
    count_foldl_insert _ _, used_foldl_insert fun s hs ↦ (mem_firstFree hs).1⟩
  · change (UInt32.ofNat numBytes).toNat ≤ maxFileSize
    rwa [hbytes]
  · change (UInt32.ofNat (map.firstFree (sectorsFor numBytes)).length).toNat =
      sectorsFor (UInt32.ofNat numBytes).toNat
    rw [hlen, hbytes]
    apply UInt32.toNat_ofNat_of_lt'
    simp only [numDirect, sectorSize, UInt32.size] at hsectors ⊢
    omega

theorem of_release (h : map.release header = .ok taken) :
    (∀ s ∈ header.dataSectors, map.used s = true) ∧ taken.count = map.count ∧
      ∀ t, taken.used t = true ↔ map.used t = true ∧ t ∉ header.dataSectors := by
  unfold release at h
  split at h
  · contradiction
  · next hnone =>
    cases h
    refine ⟨fun s hs ↦ ?_, count_foldl_erase _ _, used_foldl_erase _ _⟩
    simpa using List.find?_eq_none.1 hnone s hs

theorem of_clear (h : map.clear s = .ok taken) :
    s.toNat < map.count ∧ taken.count = map.count ∧
      ∀ t, taken.used t = true ↔ map.used t = true ∧ t ≠ s := by
  unfold clear at h
  split at h
  · next hlt =>
    cases h
    refine ⟨hlt, rfl, fun t ↦ ?_⟩
    rw [used_erase, Bool.and_eq_true, bne_iff_ne]
  · contradiction

theorem release_eq_ok (h : ∀ s ∈ header.dataSectors, map.used s = true) :
    map.release header = .ok (header.dataSectors.foldl erase map) := by
  have hnone : header.dataSectors.find? (fun s ↦ !map.used s) = none :=
    List.find?_eq_none.2 fun s hs ↦ by simp [h s hs]
  rw [release, hnone]

/-- Only a sector that is free already keeps a file from being released. -/
theorem exists_release (h : ∀ s ∈ header.dataSectors, map.used s = true) :
    ∃ left, map.release header = .ok left := ⟨_, release_eq_ok h⟩

theorem exists_clear (h : s.toNat < map.count) : ∃ left, map.clear s = .ok left :=
  ⟨map.erase s, if_pos h⟩

variable {file : File} {device : Device}

theorem load_eq_ok_iff : load file device = .ok map ↔
    ∃ bytes, file.read freeMapFileSize 0 device = .ok bytes ∧ bytes.length = freeMapFileSize ∧
      map = (empty numSectors).overlay bytes := by
  have hload : load file device = ((empty numSectors).fetch file device).2.map
      fun _ ↦ ((empty numSectors).fetch file device).1 := rfl
  have hsize : (empty numSectors).size = freeMapFileSize := rfl
  rw [hload, fetch, hsize]
  simp only [File.read_eq_ok_iff]
  cases hg : device.gather (file.spans 0 freeMapFileSize) with
  | mk bytes stop =>
    cases stop with
    | some error =>
      constructor
      · exact nofun
      · rintro ⟨_, h, -⟩
        exact absurd (Prod.mk.inj h).2 nofun
    | none =>
      by_cases hlen : bytes.length = freeMapFileSize
      · simp only [if_pos hlen]
        constructor
        · intro h
          exact ⟨bytes, rfl, hlen, (Except.ok.inj h).symm⟩
        · rintro ⟨_, h, -, rfl⟩
          rw [(Prod.mk.inj h).1]
          rfl
      · simp only [if_neg hlen]
        constructor
        · exact nofun
        · rintro ⟨_, h, hlen', -⟩
          exact absurd ((Prod.mk.inj h).1 ▸ hlen') hlen

theorem count_of_load (h : load file device = .ok map) : map.count = numSectors := by
  obtain ⟨_, -, -, rfl⟩ := load_eq_ok_iff.1 h
  rfl

theorem load_healed (h : load file device = .ok map) : load file device.healed = .ok map := by
  obtain ⟨bytes, hr, hlen, hm⟩ := load_eq_ok_iff.1 h
  exact load_eq_ok_iff.2 ⟨bytes, File.read_healed hr, hlen, hm⟩

theorem load_congr {after : Device} (hf : device.faults = {}) (hf' : after.faults = {})
    (h : ∀ s ∈ file.header.dataSectors, after.block? s = device.block? s) :
    load file after = load file device := by
  have hg : after.gather (file.spans 0 freeMapFileSize) =
      device.gather (file.spans 0 freeMapFileSize) :=
    Device.gather_congr fun span hspan ↦
      Device.read_congr hf hf' (h _ (File.sector_mem_of_mem_spans hspan))
  have hsize : (empty numSectors).size = freeMapFileSize := rfl
  unfold load fetch
  rw [hsize, hg]

theorem le_length_of_load (h : load file device = .ok map) : freeMapFileSize ≤ file.length := by
  obtain ⟨bytes, hr, hlen, -⟩ := load_eq_ok_iff.1 h
  have := File.length_of_read hr
  rw [hlen, File.extent] at this
  omega

theorem length_bytes_of_count (h : map.count = numSectors) :
    map.bytes.length = freeMapFileSize := by
  rw [length_bytes, size, h]
  rfl

theorem carriesOut_store_of_room (hcount : map.count = numSectors)
    (hroom : freeMapFileSize ≤ file.length)
    (h : ∀ span ∈ file.spans 0 freeMapFileSize, device.Has span.sector) :
    (map.store file).CarriesOut device (file.rewrites device map.bytes 0) () := by
  have hlen := length_bytes_of_count hcount
  have hmap : map.size = freeMapFileSize := (map.length_bytes).symm.trans hlen
  have hbytes : map.firstBytes file.length = map.bytes := by
    rw [firstBytes_eq_take, List.take_of_length_le (hlen ▸ hroom)]
  rw [store, hbytes, hmap]
  exact File.carriesOut_record hlen hroom h
    fun took ↦ .corruption file.sector (.mapTakes took freeMapFileSize)

theorem carriesOut_store {stored : FreeMap} {before : Device} (h : load file before = .ok stored)
    (hsize : before.blocks.size ≤ device.blocks.size) (hcount : map.count = numSectors) :
    (map.store file).CarriesOut device (file.rewrites device map.bytes 0) () := by
  obtain ⟨bytes, hr, -, -⟩ := load_eq_ok_iff.1 h
  exact carriesOut_store_of_room hcount (le_length_of_load h) fun span hspan ↦
    Nat.lt_of_lt_of_le (File.has_of_read hr span hspan) hsize

theorem load_store (hf : device.faults = {}) (hd : file.header.dataSectors.Nodup)
    (h : file.OnDevice device) (hroom : freeMapFileSize ≤ file.length)
    (hcount : map.count = numSectors) :
    load file (device.edit (file.rewrites device map.bytes 0)) = .ok map := by
  have hlen := length_bytes_of_count hcount
  refine load_eq_ok_iff.2 ⟨map.bytes, File.read_record hf hd h hlen hroom, hlen, ?_⟩
  exact (overlay_bytes hcount.symm).symm

end FreeMap

end SectorFS
