import SectorFS.Proofs.Directory.Fetched
import SectorFS.Proofs.Directory.Stored
import SectorFS.Proofs.File.Splice

namespace SectorFS

open Layout

structure Storable (τ : Type) where
  capacity : τ → Nat
  bytes : τ → Bytes
  store : τ → File → Action Unit
  fetch : τ → File → Device → τ × Except Error Unit
  takes : Nat → Nat → Damage
  holds : Nat → Nat → Damage

def Directory.storable : Storable Directory :=
  ⟨capacity, bytes, store, fetch, .directoryTakes, .directoryHolds⟩

def FreeMap.storable : Storable FreeMap := ⟨count, bytes, store, fetch, .mapTakes, .mapHolds⟩

/-- With room in the file the table is written, and nothing else, and comes back over every table
of its capacity. Without, it neither goes to the file nor comes from it. -/
structure Storable.GivesBack {τ : Type} (kind : Storable τ) (table : τ) (file : File)
    (device : Device) : Prop where
  room (h : (kind.bytes table).length ≤ file.length) : ∃ after,
    (kind.store table file).run device = (.ok (), after) ∧
    file.Spliced device after (kind.bytes table) 0 ∧
    ∀ other, kind.capacity other = kind.capacity table →
      kind.fetch other file after = (table, .ok ())
  noRoom (h : file.length < (kind.bytes table).length) :
    (∃ after, (kind.store table file).run device = (.error (.corruption file.sector
      (kind.takes file.length (kind.bytes table).length)), after)) ∧
    ∀ other, kind.capacity other = kind.capacity table →
      (kind.fetch other file device).2 = .error (.corruption file.sector
        (kind.holds file.length (kind.bytes table).length))

variable {file : File} {device : Device}

namespace File

variable {data : Bytes} {n : Nat}

theorem run_record (hf : device.faults = {}) (h : file.OnDevice device) (data : Bytes) (n : Nat)
    (error : Nat → Error) :
    (file.write data 0 >>= fun took ↦
      if took = n then pure () else throw (error took) : Action Unit).run device =
        (if file.extent 0 data.length = n then .ok () else .error (error (file.extent 0 data.length)),
          device.edit (file.rewrites device data 0)) := by
  rw [run_bind_of_ok (run_write hf h data 0)]
  split <;> rfl

theorem run_record_of_room (hf : device.faults = {}) (hd : file.header.dataSectors.Nodup)
    (h : file.OnDevice device) (hn : data.length = n) (hroom : n ≤ file.length)
    (error : Nat → Error) :
    ∃ after, (file.write data 0 >>= fun took ↦
        if took = n then pure () else throw (error took) : Action Unit).run device =
          (.ok (), after) ∧
      file.Spliced device after data 0 ∧ file.read n 0 after = .ok data := by
  have hextent : file.extent 0 data.length = n := by
    rw [hn]
    exact Nat.min_eq_left hroom
  have hspliced := spliced_rewrites hd h data 0
  rw [hextent, ← hn, List.take_length] at hspliced
  refine ⟨_, ?_, hspliced, read_record hf hd h hn hroom⟩
  rw [run_record hf h, if_pos hextent]

theorem run_record_of_short (hf : device.faults = {}) (h : file.OnDevice device)
    (hdata : file.length ≤ data.length) (hn : file.length < n) (error : Nat → Error) :
    ∃ after, (file.write data 0 >>= fun took ↦
      if took = n then pure () else throw (error took) : Action Unit).run device =
        (.error (error file.length), after) := by
  have hextent : file.extent 0 data.length = file.length := Nat.min_eq_right hdata
  refine ⟨device.edit (file.rewrites device data 0), ?_⟩
  rw [run_record hf h, hextent, if_neg (Nat.ne_of_lt hn)]

theorem read_short (hf : device.faults = {}) (h : file.OnDevice device) (hn : file.length < n) :
    ∃ bytes, file.read n 0 device = .ok bytes ∧ bytes.length = file.length := by
  refine ⟨_, read_eq hf h n 0, ?_⟩
  rw [List.drop_zero, List.length_take, length_contents, Nat.min_eq_right (Nat.le_of_lt hn)]

end File

theorem Directory.givesBack (hf : device.faults = {}) (hd : file.header.dataSectors.Nodup)
    (h : file.OnDevice device) (table : Directory) : storable.GivesBack table file device := by
  have hlen : (storable.bytes table).length = table.size := table.length_bytes
  have hsize : ∀ other : Directory, other.capacity = table.capacity → other.size = table.size :=
    fun _ hother ↦ congrArg (· * slotSize) hother
  constructor
  · intro hroom
    rw [hlen] at hroom
    obtain ⟨after, hstore, hspliced, hread⟩ := File.run_record_of_room hf hd h table.length_bytes
      hroom fun took ↦ .corruption file.sector (.directoryTakes took table.size)
    refine ⟨after, hstore, hspliced, fun other hother ↦ ?_⟩
    have hslots : decodeSlots file.sector other.slots table.bytes = (table.slots, .ok ()) :=
      decodeSlots_eq_ok_iff.2 ⟨hother.symm, spells_bytes _ _⟩
    change other.fetch file after = _
    rw [fetch, hsize other hother, hread]
    dsimp only
    rw [if_pos table.length_bytes, hslots]
  · intro hshort
    rw [hlen] at hshort ⊢
    refine ⟨File.run_record_of_short hf h ?_ hshort _, fun other hother ↦ ?_⟩
    · rw [table.length_bytes]
      exact Nat.le_of_lt hshort
    · obtain ⟨bytes, hread, hbytes⟩ := File.read_short hf h hshort
      change (other.fetch file device).2 = _
      rw [fetch, hsize other hother, hread]
      dsimp only
      rw [hbytes, if_neg (Nat.ne_of_lt hshort)]
      rfl

theorem FreeMap.givesBack (hf : device.faults = {}) (hd : file.header.dataSectors.Nodup)
    (h : file.OnDevice device) (map : FreeMap) : storable.GivesBack map file device := by
  have hlen : (storable.bytes map).length = map.size := map.length_bytes
  have hsize : ∀ other : FreeMap, other.count = map.count → other.size = map.size :=
    fun _ hother ↦ congrArg (fun count ↦ (count + 7) / 8) hother
  constructor
  · intro hroom
    rw [hlen] at hroom
    obtain ⟨after, hstore, hspliced, hread⟩ := File.run_record_of_room hf hd h map.length_bytes hroom
      fun took ↦ .corruption file.sector (.mapTakes took map.size)
    -- A file with room takes the map whole, although it is only asked for its first bytes.
    have hfirst : map.firstBytes file.length = map.bytes := by
      rw [firstBytes_eq_take, List.take_of_length_le (map.length_bytes.trans_le hroom)]
    refine ⟨after, ?_, hspliced, fun other hother ↦ ?_⟩
    · change (map.store file).run device = _
      rw [store, hfirst]
      exact hstore
    · change other.fetch file after = _
      rw [fetch, hsize other hother, File.read_eq_ok_iff.1 hread]
      dsimp only
      rw [if_pos map.length_bytes, overlay_bytes hother]
  · intro hshort
    rw [hlen] at hshort ⊢
    refine ⟨File.run_record_of_short hf h ?_ hshort _, fun other hother ↦ ?_⟩
    · rw [firstBytes_eq_take, List.length_take, map.length_bytes,
        Nat.min_eq_left (Nat.le_of_lt hshort)]
    · obtain ⟨bytes, hread, hbytes⟩ := File.read_short hf h hshort
      change (other.fetch file device).2 = _
      rw [fetch, hsize other hother, File.read_eq_ok_iff.1 hread]
      dsimp only
      rw [hbytes, if_neg (Nat.ne_of_lt hshort)]
      rfl

/-- On a device without faults, a table of entries that has been made, changed and fetched in any
way, and a map of any bits, is given back by every file whose data sectors are distinct. -/
theorem tables_given_back (hf : device.faults = {}) (hd : file.header.dataSectors.Nodup)
    (h : file.OnDevice device) :
    (∀ records, Directory.Held records → ∃ table : Directory, table.records = records ∧
      Guarded.encodeRecords records = .ok table.bytes ∧
      table.bytes.length = 16 * records.length ∧
      Directory.storable.GivesBack table file device) ∧
    (∀ (table : Directory) (now : Device), (InPlace.fetchRecords file now).exec table.records =
      .ok ((table.fetch file now).2, (table.fetch file now).1.records)) ∧
    ∀ (count : Nat) (bytes : Bytes), bytes.length = (count + 7) / 8 → ∃ map : FreeMap,
      map.count = count ∧ map.bytes = bytes ∧ FreeMap.storable.GivesBack map file device := by
  refine ⟨fun records hheld ↦ ?_, fun table now ↦ InPlace.exec_fetchRecords table file now,
    fun count bytes hbytes ↦ ?_⟩
  · obtain ⟨table, rfl⟩ := hheld.exists_table
    refine ⟨table, rfl, Guarded.encodeRecords_eq table, ?_, Directory.givesBack hf hd h table⟩
    rw [Directory.length_bytes, length_records]
    exact Nat.mul_comm _ _
  · exact ⟨(FreeMap.empty count).overlay bytes, rfl, FreeMap.bytes_overlay _ hbytes,
      FreeMap.givesBack hf hd h _⟩

theorem tables_given_back_inTwo :
    File.numbered.faults = {} ∧ File.inTwo.header.dataSectors.Nodup ∧
      File.inTwo.OnDevice File.numbered ∧
      (∃ (table : Directory) (after : Device), table.records = Directory.linkedThree ∧
        (table.store File.inTwo).run File.numbered = (.ok (), after) ∧
        (File.inTwo.contents after).drop 48 = List.replicate 80 6 ++ List.replicate 72 3 ∧
        (Directory.empty 3).fetch File.inTwo after = (table, .ok ())) ∧
      ∃ (table : Directory) (after : Device), table.records = List.replicate 13 .null ∧
        (table.store File.inTwo).run File.numbered =
          (.error (.corruption 1 (.directoryTakes 200 208)), after) := by
  have hsectors : File.inTwo.header.dataSectors = [6, 3] := rfl
  have hd : File.inTwo.header.dataSectors.Nodup := by simp [hsectors]
  have hon : File.inTwo.OnDevice File.numbered := by
    simp [File.OnDevice, hsectors, Device.Has, File.numbered]
  obtain ⟨htables, -, -⟩ := tables_given_back rfl hd hon
  refine ⟨rfl, hd, hon, ?_, ?_⟩
  · obtain ⟨table, hrecords, -, hbytes, hback⟩ := htables Directory.linkedThree
      (.made (@Directory.Starts.formatted 3 1 1 _ (by decide +kernel)))
    have hlen : table.bytes.length = 48 := hbytes
    have hcapacity : table.capacity = 3 :=
      (length_records table).symm.trans (congrArg List.length hrecords)
    obtain ⟨after, hstore, hspliced, hfetch⟩ :=
      hback.room (Nat.le_trans (Nat.le_of_eq hlen) (by decide))
    refine ⟨table, after, hrecords, hstore, ?_, hfetch _ hcapacity.symm⟩
    have hle : table.bytes.length ≤ (File.inTwo.contents File.numbered).length := by
      rw [hlen]
      decide +kernel
    have hcontents : File.inTwo.contents after =
        table.bytes ++ (File.inTwo.contents File.numbered).drop table.bytes.length :=
      hspliced.contents.trans (Bytes.overwrite_zero hle)
    rw [hcontents, hlen, List.drop_left' hlen]
    decide +kernel
  · obtain ⟨table, hrecords, -, hlen, hback⟩ := htables (List.replicate 13 .null) (.made .new)
    have hlong : File.inTwo.length < table.bytes.length := by
      rw [hlen]
      decide
    obtain ⟨⟨after, hstore⟩, -⟩ := hback.noRoom hlong
    change (table.store File.inTwo).run File.numbered =
      (.error (.corruption 1 (.directoryTakes 200 table.bytes.length)), after) at hstore
    rw [hlen] at hstore
    exact ⟨table, after, hrecords, hstore⟩

end SectorFS
