import SectorFS.Proofs.Guarded.File

namespace SectorFS

open Layout (sectorSize)

def placeIn (sectors : List UInt32) (pos : Nat) : Option (Nat × Nat) :=
  sectors[pos / sectorSize]?.map fun s ↦ (s.toNat, pos % sectorSize)

namespace Device

variable {device after : Device} {sectors : List UInt32} {n i : Nat}

def byte? (device : Device) (n i : Nat) : Option UInt8 :=
  device.blocks[n]?.bind fun block ↦ block.bytes[i]?

theorem byte?_of_le (h : sectorSize ≤ i) (device : Device) (n : Nat) : device.byte? n i = none := by
  cases hb : device.blocks[n]? with
  | none => simp [byte?, hb]
  | some block =>
    have hlen := block.length_bytes
    simp only [byte?, hb, Option.bind_some, List.getElem?_eq_none_iff]
    omega

theorem blocks_eq_of_byte? (hsize : after.blocks.size = device.blocks.size)
    (h : ∀ n i, after.byte? n i = device.byte? n i) : after.blocks = device.blocks := by
  apply Array.ext hsize
  intro n hafter hbefore
  apply Block.eq_of_bytes
  apply List.ext_getElem?
  intro i
  simpa [byte?, hafter, hbefore] using h n i

theorem getElem?_contents (h : ∀ s ∈ sectors, device.Has s) (pos : Nat) :
    (device.contents sectors)[pos]? =
      (placeIn sectors pos).bind fun place ↦ device.byte? place.1 place.2 := by
  induction sectors generalizing pos with
  | nil => simp [contents, placeIn]
  | cons s rest ih =>
    obtain ⟨block, hb⟩ := has_iff.1 (h s List.mem_cons_self)
    have hlen := block.length_bytes
    rw [contents_cons, hb, Option.getD_some]
    by_cases hpos : pos < sectorSize
    · rw [block?] at hb
      rw [List.getElem?_append_left (by omega), placeIn, Nat.div_eq_of_lt hpos,
        Nat.mod_eq_of_lt hpos]
      simp [byte?, hb]
    · have hdiv : pos / sectorSize = (pos - sectorSize) / sectorSize + 1 :=
        Nat.div_eq_sub_div (by decide) (Nat.le_of_not_lt hpos)
      have hmod : pos % sectorSize = (pos - sectorSize) % sectorSize :=
        Nat.mod_eq_sub_mod (Nat.le_of_not_lt hpos)
      rw [List.getElem?_append_right (by omega), hlen,
        ih fun t ht ↦ h t (List.mem_cons_of_mem _ ht), placeIn, placeIn, hdiv, hmod,
        List.getElem?_cons_succ]

theorem byte?_splice (hd : sectors.Nodup) (h : ∀ s ∈ sectors, device.Has s) {pos count : Nat}
    (data : Bytes) (hout : ∀ j < count, placeIn sectors (pos + j) ≠ some (n, i)) :
    (device.splice sectors pos count data).byte? n i = device.byte? n i := by
  by_cases hi : i < sectorSize
  · by_cases hn : ∃ s ∈ sectors, s.toNat = n
    · obtain ⟨s, hs, rfl⟩ := hn
      obtain ⟨q, hq, rfl⟩ := List.mem_iff_getElem.1 hs
      have hplace : placeIn sectors (q * sectorSize + i) = some (sectors[q].toNat, i) := by
        have hdiv : (q * sectorSize + i) / sectorSize = q := by
          simp only [sectorSize] at hi ⊢
          omega
        have hmod : (q * sectorSize + i) % sectorSize = i := by
          simp only [sectorSize] at hi ⊢
          omega
        simp [placeIn, hdiv, hmod, hq]
      have hbyte : ∀ device : Device, (∀ s ∈ sectors, device.Has s) →
          device.byte? sectors[q].toNat i = (device.contents sectors)[q * sectorSize + i]? := by
        intro device h
        rw [getElem?_contents h, hplace, Option.bind_some]
      rw [hbyte device h, hbyte _ fun t ht ↦ has_splice.2 (h t ht), contents_splice hd h,
        Bytes.getElem?_overwrite, if_neg]
      intro hin
      rw [List.length_take] at hin
      apply hout (q * sectorSize + i - pos) (by omega)
      rw [Nat.add_sub_cancel' hin.1, hplace]
    · rw [byte?, splice, getElem?_blocks_edit, byte?]
      intro edit hedit heq
      obtain ⟨span, hspan, hsector⟩ := mem_sectors_of_mem_rewrites hedit
      apply hn
      exact ⟨edit.1, hsector ▸ Span.sector_mem_of_mem_cover hspan, heq⟩
  · rw [byte?_of_le (Nat.le_of_not_lt hi), byte?_of_le (Nat.le_of_not_lt hi)]

end Device

namespace File

variable {file : File} {device before after other : Device} {data : Bytes} {pos : Nat}
  {place : Nat × Nat}

def place? (file : File) (pos : Nat) : Option (Nat × Nat) :=
  (file.header.sectorAt? pos).map fun s ↦ (s.toNat, pos % sectorSize)

/-- The data was laid over the file from `pos` on, and every byte elsewhere is as it was. -/
structure Spliced (file : File) (before after : Device) (data : Bytes) (pos : Nat) : Prop where
  size : after.blocks.size = before.blocks.size
  contents : file.contents after = (file.contents before).overwrite pos data
  others : ∀ n i, (∀ j < data.length, file.place? (pos + j) ≠ some (n, i)) →
    after.byte? n i = before.byte? n i

theorem place?_of_lt (h : pos < file.length) :
    file.place? pos = placeIn file.header.dataSectors pos := by
  rw [place?, file.consistent.sectorAt? h, placeIn]

theorem lt_length_of_place? (h : file.place? pos = some place) : pos < file.length := by
  obtain ⟨s, hs, -⟩ := Option.map_eq_some_iff.1 h
  exact (Option.ite_none_right_eq_some.1 hs).1

theorem getElem?_contents (hon : file.OnDevice device) (h : file.place? pos = some place) :
    (file.contents device)[pos]? = device.byte? place.1 place.2 := by
  have hlt := lt_length_of_place? h
  rw [place?_of_lt hlt] at h
  rw [contents, List.getElem?_take_of_lt hlt, Device.getElem?_contents hon, h, Option.bind_some]

theorem spliced_splice (hd : file.header.dataSectors.Nodup) (h : file.OnDevice device) {j : Nat}
    (hj : j ≤ file.extent pos data.length) : file.Spliced device
      (device.splice file.header.dataSectors pos j data) (data.take j) pos := by
  have hfile : j ≤ file.length - pos := Nat.le_trans hj (Nat.min_le_right _ _)
  have hdata : j ≤ data.length := Nat.le_trans hj (file.extent_le _ _)
  refine ⟨Device.size_edit _ _, ?_, ?_⟩
  · rw [contents, Device.contents_splice hd h, Bytes.take_overwrite, contents]
  · intro n i hout
    apply Device.byte?_splice hd h
    intro k hk
    rw [← place?_of_lt (by omega)]
    apply hout k
    rw [List.length_take]
    omega

theorem spliced_rewrites (hd : file.header.dataSectors.Nodup) (h : file.OnDevice device)
    (data : Bytes) (pos : Nat) :
    file.Spliced device (device.edit (file.rewrites device data pos))
      (data.take (file.extent pos data.length)) pos :=
  spliced_splice hd h (Nat.le_refl _)

theorem Spliced.onDevice (h : file.Spliced before after data pos) (hon : file.OnDevice before) :
    file.OnDevice after := hon.of_size h.size

/-- Whatever was laid over the file, the blocks are known from it. -/
theorem Spliced.blocks_eq (hon : file.OnDevice before) (h : file.Spliced before after data pos)
    (h' : file.Spliced before other data pos) : other.blocks = after.blocks := by
  apply Device.blocks_eq_of_byte? (h'.size.trans h.size.symm)
  intro n i
  by_cases hplace : ∃ j < data.length, file.place? (pos + j) = some (n, i)
  · obtain ⟨j, -, hj⟩ := hplace
    rw [← getElem?_contents (h'.onDevice hon) hj, ← getElem?_contents (h.onDevice hon) hj,
      h.contents, h'.contents]
  · have hout : ∀ j < data.length, file.place? (pos + j) ≠ some (n, i) :=
      fun j hj heq ↦ hplace ⟨j, hj, heq⟩
    rw [h.others n i hout, h'.others n i hout]

theorem Spliced.of_blocks {left right : Device} (h : file.Spliced before after data pos)
    (hleft : left.blocks = before.blocks) (hright : right.blocks = after.blocks) :
    file.Spliced left right data pos := by
  cases left
  cases right
  cases hleft
  cases hright
  exact ⟨h.size, h.contents, h.others⟩

/-- Data that is laid over the file where a first part of it has been laid before. -/
theorem Spliced.again {part : Bytes} (h : file.Spliced before after part pos)
    (h' : file.Spliced after other data pos) (hle : part.length ≤ data.length) :
    file.Spliced before other data pos := by
  refine ⟨h'.size.trans h.size, ?_, ?_⟩
  · rw [h'.contents, h.contents, Bytes.overwrite_overwrite hle]
  · intro n i hout
    rw [h'.others n i hout, h.others n i fun j hj ↦ hout j (Nat.lt_of_lt_of_le hj hle)]

/-- On a device without faults a file is the sequence of bytes that its data sectors hold, as far as
it is long. Reading takes a slice of it, writing lays the data over it and changes no other byte of
the device, and either moves as many bytes as the file has from the position on. -/
theorem slices_and_splices (hf : device.faults = {}) (h : file.OnDevice device) :
    (∀ pos n, file.extent pos n =
      if n = 0 ∨ file.length ≤ pos then 0 else min n (file.length - pos)) ∧
    (∀ buffer pos log, (Guarded.readAt file buffer pos).run ⟨device, log⟩ =
      .ok (.ok (file.extent pos buffer.length,
        ((file.contents device).drop pos).take (file.extent pos buffer.length) ++
          buffer.drop (file.extent pos buffer.length)), ⟨device, log⟩)) ∧
    (∀ n pos, file.read n pos device =
      .ok (((file.contents device).drop pos).take (file.extent pos n))) ∧
    (∀ log, (Guarded.readAll file).run ⟨device, log⟩ =
      .ok (.ok (file.contents device), ⟨device, log⟩)) ∧
    file.readAll device = .ok (file.contents device) ∧
    (file.header.dataSectors.Nodup → ∀ data pos, ∃ after,
      (∀ log, (Guarded.writeAt file data pos).run ⟨device, log⟩ =
        .ok (.ok (file.extent pos data.length), ⟨after, log⟩)) ∧
      (file.write data pos).run device = (.ok (file.extent pos data.length), after) ∧
      file.Spliced device after (data.take (file.extent pos data.length)) pos) := by
  have hlength := file.length_contents device
  have hread : ∀ n pos, file.read n pos device =
      .ok (((file.contents device).drop pos).take (file.extent pos n)) := by
    intro n pos
    rw [read_eq hf h]
    apply congrArg Except.ok
    rw [List.take_eq_take_iff, List.length_drop, hlength, extent]
    omega
  have hall : file.readAll device = .ok (file.contents device) := by
    rw [readAll, read_eq hf h, List.drop_zero, List.take_of_length_le (Nat.le_of_eq hlength)]
  refine ⟨?_, ?_, hread, ?_, hall, ?_⟩
  · intro pos n
    rw [extent]
    split
    · omega
    · rfl
  · intro buffer pos log
    have hslice := length_of_read (hread buffer.length pos)
    have hfits := file.extent_le pos buffer.length
    rw [(Guarded.asks_readAt file buffer pos).run, Operation.run_query, hread]
    change Except.ok (Except.ok (file.extent pos buffer.length, Bytes.overwrite buffer 0 _), _) = _
    rw [Bytes.overwrite_zero (by omega), hslice]
  · intro log
    rw [(Guarded.asks_readAll file).run, Operation.run_query, hall]
  · intro hd data pos
    refine ⟨_, ?_, run_write hf h data pos, spliced_rewrites hd h data pos⟩
    intro log
    rw [(Guarded.acts_writeAt file data pos).run, Operation.run_act, run_write hf h]

def numbered : Device where
  sectorCount := 8
  bytesPerSector := sectorSize
  blocks := Array.ofFn fun n : Fin 8 ↦ ⟨List.replicate sectorSize n.1.toUInt8, List.length_replicate⟩

def inTwo : File := ⟨1, ⟨200, 2, 6 :: 3 :: List.replicate 28 0, by decide⟩, by decide⟩

theorem slices_and_splices_inTwo :
    (Guarded.readAt inTwo (List.replicate 100 0) 120).run ⟨numbered, []⟩ =
      .ok (.ok (80, List.replicate 8 6 ++ List.replicate 72 3 ++ List.replicate 20 0),
        ⟨numbered, []⟩) ∧
    ∃ after, (Guarded.writeAt inTwo (List.replicate 20 9) 190).run ⟨numbered, []⟩ =
        .ok (.ok 10, ⟨after, []⟩) ∧
      inTwo.Spliced numbered after (List.replicate 10 9) 190 := by
  have hsectors : inTwo.header.dataSectors = [6, 3] := rfl
  have hon : inTwo.OnDevice numbered := by simp [OnDevice, hsectors, Device.Has, numbered]
  have hmoved : inTwo.extent 190 (List.replicate 20 (9 : UInt8)).length = 10 := by decide +kernel
  obtain ⟨-, hread, -, -, -, hwrite⟩ := slices_and_splices rfl hon
  obtain ⟨after, hrun, -, hspliced⟩ := hwrite (by simp [hsectors]) (List.replicate 20 9) 190
  rw [hmoved] at hrun hspliced
  constructor
  · rw [hread (List.replicate 100 0) 120 []]
    apply congrArg fun result ↦ Except.ok (Except.ok result, _)
    decide +kernel
  · exact ⟨after, hrun [], hspliced⟩

end File

end SectorFS
