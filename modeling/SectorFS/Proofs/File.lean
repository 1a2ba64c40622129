import SectorFS.File
import SectorFS.Proofs.Device.Contents

namespace SectorFS

open Layout (sectorSize)

namespace Device

variable {device after : Device} {s : UInt32} {header : Header} {file : File}

theorem readHeader_congr (hf : device.faults = {}) (hf' : after.faults = {})
    (hs : after.block? s = device.block? s) : after.readHeader s = device.readHeader s := by
  rw [readHeader, read_congr hf hf' hs, readHeader]

theorem readHeader_healed (h : device.readHeader s = .ok header) :
    device.healed.readHeader s = .ok header := by
  obtain ⟨block, hr, hd⟩ := bind_eq_ok.1 h
  exact bind_eq_ok.2 ⟨block, read_healed hr, hd⟩

theorem readHeader_of_block? (hf : device.faults = {}) (hb : device.block? s = some header.block)
    (hc : header.Consistent) : device.readHeader s = .ok header :=
  bind_eq_ok.2 ⟨header.block, (read_eq_ok_iff hf).2 hb, Header.decode_encode s hc⟩

theorem openFile_eq_ok_iff :
    device.openFile s = .ok file ↔ file.sector = s ∧ device.readHeader s = .ok file.header := by
  unfold openFile
  split
  · next error h => rw [h]; exact ⟨nofun, fun hn ↦ absurd hn.2 nofun⟩
  · next header h =>
    obtain ⟨sector, header', hc⟩ := file
    constructor
    · rintro ⟨⟩
      exact ⟨rfl, h⟩
    · rintro ⟨rfl, h'⟩
      cases h.symm.trans h'
      rfl

theorem openFile_of_readHeader (h : device.readHeader s = .ok header) :
    device.openFile s = .ok ⟨s, header, consistent_of_readHeader h⟩ :=
  openFile_eq_ok_iff.2 ⟨rfl, h⟩

theorem openFile_eq_of_readHeader (h : after.readHeader s = device.readHeader s) :
    after.openFile s = device.openFile s := by
  cases hd : device.readHeader s with
  | ok header => rw [openFile_of_readHeader hd, openFile_of_readHeader (h.trans hd)]
  | error error =>
    unfold openFile
    split
    · next e he =>
      split
      · next e' he' => exact congrArg _ (Except.error.inj (he.symm.trans (h.trans he')))
      · next header he' => rw [hd] at he'; contradiction
    · next header he => rw [h, hd] at he; contradiction

theorem openFile_congr (hf : device.faults = {}) (hf' : after.faults = {})
    (hs : after.block? s = device.block? s) : after.openFile s = device.openFile s :=
  openFile_eq_of_readHeader (readHeader_congr hf hf' hs)

theorem openFile_healed (h : device.openFile s = .ok file) :
    device.healed.openFile s = .ok file := by
  obtain ⟨hs, hh⟩ := openFile_eq_ok_iff.1 h
  exact openFile_eq_ok_iff.2 ⟨hs, readHeader_healed hh⟩

end Device

namespace File

variable {device after : Device} {file : File}

def contents (file : File) (device : Device) : Bytes :=
  (device.contents file.header.dataSectors).take file.length

def OnDevice (file : File) (device : Device) : Prop :=
  ∀ s ∈ file.header.dataSectors, device.Has s

theorem OnDevice.of_size (h : file.OnDevice device) (hsize : after.blocks.size = device.blocks.size) :
    file.OnDevice after := by
  intro s hs
  rw [Device.Has, hsize]
  exact h s hs

theorem OnDevice.edit (h : file.OnDevice device) (edits : List Edit) :
    file.OnDevice (device.edit edits) := h.of_size (Device.size_edit device edits)

def rewrites (file : File) (device : Device) (data : Bytes) (pos : Nat) : List Edit :=
  device.rewrites (file.spans pos data.length) data

theorem edit_rewrites (file : File) (device : Device) (data : Bytes) (pos : Nat) :
    device.edit (file.rewrites device data pos) =
      device.splice file.header.dataSectors pos (file.extent pos data.length) data := rfl

@[simp] theorem length_contents (file : File) (device : Device) :
    (file.contents device).length = file.length := by
  rw [contents, List.length_take, Device.length_contents, file.consistent.length_dataSectors]
  apply Nat.min_eq_left
  simp only [length, sectorsFor, sectorSize]
  omega

theorem contents_congr (h : ∀ s ∈ file.header.dataSectors, after.block? s = device.block? s) :
    file.contents after = file.contents device := by
  rw [contents, Device.contents_congr h, contents]

theorem sector_mem_of_mem_spans {pos count : Nat} {span : Span} (h : span ∈ file.spans pos count) :
    span.sector ∈ file.header.dataSectors := Span.sector_mem_of_mem_cover h

theorem read_eq_ok_iff {count pos : Nat} {bytes : Bytes} :
    file.read count pos device = .ok bytes ↔
      device.gather (file.spans pos count) = (bytes, none) := by
  unfold read
  cases h : device.gather (file.spans pos count) with
  | mk got stop => cases stop <;> simp

theorem read_congr (hf : device.faults = {}) (hf' : after.faults = {})
    (h : ∀ s ∈ file.header.dataSectors, after.block? s = device.block? s) (count pos : Nat) :
    file.read count pos after = file.read count pos device := by
  have hg : after.gather (file.spans pos count) = device.gather (file.spans pos count) :=
    Device.gather_congr fun span hspan ↦
      Device.read_congr hf hf' (h _ (sector_mem_of_mem_spans hspan))
  rw [read, hg, read]

theorem read_healed {count pos : Nat} {bytes : Bytes} (h : file.read count pos device = .ok bytes) :
    file.read count pos device.healed = .ok bytes :=
  read_eq_ok_iff.2 (Device.gather_healed (read_eq_ok_iff.1 h))

/-- Reading is taking a slice of the file. -/
theorem read_eq (hf : device.faults = {}) (h : file.OnDevice device) (count pos : Nat) :
    file.read count pos device = .ok (((file.contents device).drop pos).take count) := by
  rw [read_eq_ok_iff, spans, Device.gather_cover hf h, contents, List.drop_take, List.take_take]
  rfl

theorem length_of_read {count pos : Nat} {bytes : Bytes} (h : file.read count pos device = .ok bytes) :
    bytes.length = file.extent pos count := by
  rw [← totalLength_spans]
  rw [read_eq_ok_iff] at h
  generalize file.spans pos count = spans at h
  induction spans generalizing bytes with
  | nil => cases h; rfl
  | cons span rest ih =>
    unfold Device.gather at h
    split at h
    · exact absurd (Prod.mk.inj h).2 nofun
    · next block hr =>
      obtain ⟨rfl, hstop⟩ := Prod.mk.inj h
      rw [List.length_append, Span.length_slice, ih (Prod.ext rfl hstop), Span.totalLength]

theorem fst_mem_of_mem_rewrites {data : Bytes} {pos : Nat} {edit : Edit}
    (h : edit ∈ file.rewrites device data pos) : edit.1 ∈ file.header.dataSectors := by
  obtain ⟨span, hspan, hs⟩ := Device.mem_sectors_of_mem_rewrites h
  exact hs ▸ sector_mem_of_mem_spans hspan

theorem map_fst_rewrites (file : File) (device : Device) (data : Bytes) (pos : Nat) :
    (file.rewrites device data pos).map Prod.fst = (file.spans pos data.length).map Span.sector :=
  Device.map_fst_rewrites _ _ _

theorem rewrites_healed (file : File) (device : Device) (data : Bytes) (pos : Nat) :
    file.rewrites device.healed data pos = file.rewrites device data pos :=
  Device.rewrites_healed _ _ _

theorem rewrites_congr (h : ∀ s ∈ file.header.dataSectors, after.block? s = device.block? s)
    (data : Bytes) (pos : Nat) : file.rewrites after data pos = file.rewrites device data pos :=
  Device.rewrites_congr (fun _ hspan ↦ h _ (sector_mem_of_mem_spans hspan)) data

theorem length_rewrites (file : File) (device : Device) (data : Bytes) (pos : Nat) :
    (file.rewrites device data pos).length = (file.spans pos data.length).length := by
  simpa using congrArg List.length (file.map_fst_rewrites device data pos)

theorem length_rewrites_of_length (h : file.length = sectorSize) {data : Bytes}
    (hdata : data.length = sectorSize) (device : Device) :
    (file.rewrites device data 0).length = 1 := by
  have hone : file.header.dataSectors.length = 1 := by
    rw [file.consistent.length_dataSectors]
    exact (congrArg sectorsFor h).trans (by decide)
  obtain ⟨s, hs⟩ := List.length_eq_one_iff.1 hone
  rw [length_rewrites, spans, hs, extent, h, hdata]
  rfl

theorem rewrites_ne_nil {data : Bytes} {pos : Nat} (h : file.extent pos data.length ≠ 0) :
    file.rewrites device data pos ≠ [] := by
  intro hnil
  have hspans := file.map_fst_rewrites device data pos
  rw [hnil, List.map_nil, eq_comm, List.map_eq_nil_iff] at hspans
  rw [← totalLength_spans, hspans] at h
  exact h rfl

theorem extent_le (file : File) (pos count : Nat) : file.extent pos count ≤ count :=
  Nat.min_le_left _ _

theorem carriesOut_write {data : Bytes} {pos : Nat}
    (h : ∀ span ∈ file.spans pos data.length, device.Has span.sector) :
    (file.write data pos).CarriesOut device (file.rewrites device data pos)
      (file.extent pos data.length) := by
  have hlen : Span.totalLength (file.spans pos data.length) ≤ data.length := by
    rw [totalLength_spans]
    exact file.extent_le _ _
  have hdone := Action.carriesOut_pure (device.edit (file.rewrites device data pos))
    (file.extent pos data.length)
  have hboth := (Action.carriesOut_scatter h hlen).bind (f := fun _ ↦ _) hdone
  rwa [List.append_nil] at hboth

theorem run_write (hf : device.faults = {}) (h : file.OnDevice device) (data : Bytes) (pos : Nat) :
    (file.write data pos).run device =
      (.ok (file.extent pos data.length), device.edit (file.rewrites device data pos)) :=
  (carriesOut_write fun _ hspan ↦ h _ (sector_mem_of_mem_spans hspan)).run_of_faultFree hf

/-- The first few writes lay a first part of the data over the file. The part ends with a sector,
unless it is all. -/
theorem contents_take_rewrites (hd : file.header.dataSectors.Nodup) (h : file.OnDevice device)
    (data : Bytes) (pos k : Nat) :
    ∃ j ≤ file.extent pos data.length,
      file.contents (device.edit ((file.rewrites device data pos).take k)) =
        (file.contents device).overwrite pos (data.take j) ∧
      (j = 0 ∨ j = file.extent pos data.length ∨ (pos + j) % sectorSize = 0) := by
  obtain ⟨j, hj, htake, hend⟩ :=
    Span.take_cover file.header.dataSectors pos (file.extent pos data.length) k
  refine ⟨j, hj, ?_, hend⟩
  rw [rewrites, Device.take_rewrites, spans, htake, ← Device.splice, contents,
    Device.contents_splice hd h, Bytes.take_overwrite, contents]

/-- Writing lays the data over the file. What does not fit is dropped. -/
theorem contents_rewrites (hd : file.header.dataSectors.Nodup) (h : file.OnDevice device)
    (data : Bytes) (pos : Nat) :
    file.contents (device.edit (file.rewrites device data pos)) =
      (file.contents device).overwrite pos data := by
  rw [edit_rewrites, contents, Device.contents_splice hd h, Bytes.take_overwrite, ← contents]
  by_cases hfit : data.length ≤ file.length - pos
  · rw [extent, Nat.min_eq_left hfit, List.take_length]
  · rw [extent, Nat.min_eq_right (by omega)]
    apply Bytes.overwrite_take
    rw [length_contents]
    omega

/-! ## Beyond the end -/

/-- What the last sector of the file holds beyond its end. -/
def tail (file : File) (device : Device) : Bytes :=
  (device.contents file.header.dataSectors).drop file.length

theorem tail_congr (h : ∀ s ∈ file.header.dataSectors, after.block? s = device.block? s) :
    file.tail after = file.tail device := by
  rw [tail, Device.contents_congr h, tail]

/-- No write reaches beyond the end of the file. -/
theorem tail_rewrites (hd : file.header.dataSectors.Nodup) (h : file.OnDevice device)
    (data : Bytes) (pos : Nat) :
    file.tail (device.edit (file.rewrites device data pos)) = file.tail device := by
  rw [edit_rewrites, tail, Device.contents_splice hd h, tail]
  apply List.ext_getElem?
  intro i
  simp only [List.getElem?_drop, Bytes.getElem?_overwrite, List.length_take, extent]
  rw [if_neg (by omega)]

theorem block?_eq_of_contents (h : file.OnDevice device) (h' : file.OnDevice after)
    (hcontents : file.contents after = file.contents device)
    (htail : file.tail after = file.tail device) :
    ∀ s ∈ file.header.dataSectors, after.block? s = device.block? s := by
  apply Device.block?_eq_of_contents h h'
  calc after.contents file.header.dataSectors
      = file.contents after ++ file.tail after := (List.take_append_drop _ _).symm
    _ = file.contents device ++ file.tail device := by rw [hcontents, htail]
    _ = device.contents file.header.dataSectors := List.take_append_drop _ _

/-! ## Records that fill a file from its start -/

variable {data : Bytes} {n : Nat}

theorem has_of_read {count pos : Nat} {bytes : Bytes} (h : file.read count pos device = .ok bytes) :
    ∀ span ∈ file.spans pos count, device.Has span.sector :=
  Device.has_of_gather (read_eq_ok_iff.1 h)

theorem carriesOut_record (hn : data.length = n) (hroom : n ≤ file.length)
    (h : ∀ span ∈ file.spans 0 n, device.Has span.sector) (error : Nat → Error) :
    (file.write data 0 >>= fun took ↦
      if took = n then pure () else throw (error took) : Action Unit).CarriesOut device
        (file.rewrites device data 0) () := by
  subst hn
  have hall : file.extent 0 data.length = data.length := Nat.min_eq_left hroom
  have hdone : (if file.extent 0 data.length = data.length then pure ()
      else throw (error (file.extent 0 data.length)) : Action Unit).CarriesOut
        (device.edit (file.rewrites device data 0)) [] () := by
    rw [if_pos hall]
    exact Action.carriesOut_pure _ _
  have hboth := (carriesOut_write h).bind
    (f := fun took ↦ if took = data.length then pure () else throw (error took)) hdone
  rwa [List.append_nil] at hboth

theorem read_record (hf : device.faults = {}) (hd : file.header.dataSectors.Nodup)
    (h : file.OnDevice device) (hn : data.length = n) (hroom : n ≤ file.length) :
    file.read n 0 (device.edit (file.rewrites device data 0)) = .ok data := by
  subst hn
  rw [read_eq (Device.faults_edit hf _) (h.edit _), contents_rewrites hd h,
    Bytes.overwrite_zero (by rwa [length_contents]), List.drop_zero, List.take_left]

theorem contents_store {first more : List Edit} (hd : file.header.dataSectors.Nodup)
    (h : file.OnDevice device) (hn : data.length = file.length)
    (hmore : ∀ edit ∈ more, edit.1 ∉ file.header.dataSectors) :
    file.contents (device.edit (first ++ file.rewrites (device.edit first) data 0 ++ more)) =
      data := by
  have hon : file.OnDevice (device.edit first) := h.edit first
  have hlast : file.contents (device.edit (first ++ file.rewrites (device.edit first) data 0 ++ more)) =
      file.contents ((device.edit first).edit (file.rewrites (device.edit first) data 0)) := by
    rw [Device.edit_append, Device.edit_append]
    refine contents_congr fun s hs ↦ Device.block?_edit_of_ne ?_
    rintro edit hedit rfl
    exact hmore edit hedit hs
  rw [hlast, contents_rewrites hd hon, Bytes.overwrite_zero (by simp [hn]),
    List.drop_of_length_le (by simp [hn]), List.append_nil]

theorem tail_store {first more : List Edit} (hd : file.header.dataSectors.Nodup)
    (h : file.OnDevice device) (hfirst : ∀ edit ∈ first, edit.1 ∉ file.header.dataSectors)
    (hmore : ∀ edit ∈ more, edit.1 ∉ file.header.dataSectors) :
    file.tail (device.edit (first ++ file.rewrites (device.edit first) data 0 ++ more)) =
      file.tail device := by
  have hkept : ∀ (device : Device) (edits : List Edit),
      (∀ edit ∈ edits, edit.1 ∉ file.header.dataSectors) →
        file.tail (device.edit edits) = file.tail device := by
    intro device edits hedits
    refine tail_congr fun s hs ↦ Device.block?_edit_of_ne ?_
    rintro edit hedit rfl
    exact hedits edit hedit hs
  rw [Device.edit_append, Device.edit_append, hkept _ more hmore,
    tail_rewrites hd (h.edit first), hkept device first hfirst]

end File

end SectorFS
