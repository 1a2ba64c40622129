import SectorFS.Proofs.File

namespace SectorFS

open Layout (sectorSize)

theorem Block.overwrite_append (block : Block) (pos : Nat) (first second : Bytes) :
    block.overwrite pos (first ++ second) =
      (block.overwrite pos first).overwrite (pos + first.length) second :=
  Block.eq_of_bytes (Bytes.overwrite_append ..)

namespace Device

variable {device after : Device} {sectors : List UInt32} {s : UInt32} {pos count first second : Nat}
  {data : Bytes}

def lay (device : Device) (s : UInt32) (pos : Nat) (data : Bytes) : Device :=
  device.put s (((device.block? s).getD Block.zero).overwrite pos data)

theorem blocks_lay_append (hs : device.Has s) (pos : Nat) (first second : Bytes) :
    (device.lay s pos (first ++ second)).blocks =
      ((device.lay s pos first).lay s (pos + first.length) second).blocks := by
  obtain ⟨block, hb⟩ := has_iff.1 hs
  simp only [lay, block?_put, hb, if_true, Option.map_some, Option.getD_some,
    Block.overwrite_append]
  exact (Array.setIfInBounds_setIfInBounds ..).symm

theorem splice_zero (device : Device) (sectors : List UInt32) (pos : Nat) (data : Bytes) :
    device.splice sectors pos 0 data = device := by
  rw [splice, Span.cover_zero]
  rfl

theorem splice_cons_of_le (h : sectorSize ≤ pos) (device : Device) (s : UInt32)
    (sectors : List UInt32) (count : Nat) (data : Bytes) :
    device.splice (s :: sectors) pos count data =
      device.splice sectors (pos - sectorSize) count data := by
  by_cases hcount : count = 0
  · rw [hcount, splice_zero, splice_zero]
  · rw [splice, Span.cover, if_neg hcount, dif_neg (Nat.not_lt_of_le h), splice]

theorem splice_cons_of_lt {taken : Nat} (hcount : count ≠ 0) (h : pos < sectorSize)
    (htaken : min count (sectorSize - pos) = taken) (device : Device) (s : UInt32)
    (sectors : List UInt32) (data : Bytes) :
    device.splice (s :: sectors) pos count data =
      (device.lay s pos (data.take taken)).splice sectors 0 (count - taken) (data.drop taken) := by
  subst htaken
  rw [splice, Span.cover, if_neg hcount, dif_pos h]
  rfl

theorem blocks_splice_congr (h : after.blocks = device.blocks) (sectors : List UInt32)
    (pos count : Nat) (data : Bytes) :
    (after.splice sectors pos count data).blocks = (device.splice sectors pos count data).blocks := by
  have hblock : ∀ s, after.block? s = device.block? s := by
    intro s
    rw [block?, h, block?]
  rw [splice, rewrites_congr (fun span _ ↦ hblock span.sector), splice]
  exact blocks_edit_congr h _

/-- A range can be written in two parts, one after the other. The sectors need not be distinct. -/
theorem blocks_splice_add (h : ∀ s ∈ sectors, device.Has s) (hfirst : first ≤ data.length) :
    (device.splice sectors pos (first + second) data).blocks =
      ((device.splice sectors pos first data).splice sectors (pos + first) second
        (data.drop first)).blocks := by
  induction sectors generalizing device pos first data with
  | nil => rfl
  | cons s rest ih =>
    have hrest : ∀ t ∈ rest, device.Has t := fun t ht ↦ h t (List.mem_cons_of_mem _ ht)
    by_cases hzero : first = 0
    · simp [hzero, splice_zero]
    by_cases hnone : second = 0
    · simp [hnone, splice_zero]
    by_cases hpos : sectorSize ≤ pos
    · rw [splice_cons_of_le hpos, splice_cons_of_le hpos,
        splice_cons_of_le (Nat.le_add_right_of_le hpos), ih hrest hfirst, Nat.sub_add_comm hpos]
    have hin : pos < sectorSize := Nat.lt_of_not_le hpos
    by_cases hmeet : pos + first < sectorSize
    · -- The parts meet inside the first sector, which both of them change.
      obtain ⟨more, hmore⟩ : ∃ more, min second (sectorSize - (pos + first)) = more := ⟨_, rfl⟩
      have hlen : (data.take first).length = first := List.length_take_of_le hfirst
      have hparts : (device.lay s pos (data.take (first + more))).blocks =
          ((device.lay s pos (data.take first)).lay s (pos + first)
            ((data.drop first).take more)).blocks := by
        rw [List.take_add, blocks_lay_append (h s List.mem_cons_self), hlen]
      have hboth : min (first + second) (sectorSize - pos) = first + more := by omega
      have hone : min first (sectorSize - pos) = first := by omega
      rw [splice_cons_of_lt (by omega) hin hboth, splice_cons_of_lt hzero hin hone, Nat.sub_self,
        splice_zero, splice_cons_of_lt hnone hmeet hmore, blocks_splice_congr hparts,
        List.drop_drop, Nat.add_sub_add_left]
    · -- The first part reaches the next sector.
      obtain ⟨room, hroom⟩ : ∃ room, sectorSize - pos = room := ⟨_, rfl⟩
      have hboth : min (first + second) (sectorSize - pos) = room := by omega
      have hone : min first (sectorSize - pos) = room := by omega
      rw [splice_cons_of_lt (by omega) hin hboth, splice_cons_of_lt hzero hin hone,
        splice_cons_of_le (Nat.le_of_not_lt hmeet)]
      have hnext := @ih (device.lay s pos (data.take room)) 0 (first - room) (data.drop room)
        (fun t ht ↦ has_put.2 (hrest t ht)) (by rw [List.length_drop]; omega)
      rw [show first + second - room = first - room + second by omega, hnext, List.drop_drop,
        show room + (first - room) = first by omega,
        show pos + first - sectorSize = 0 + (first - room) by omega]

theorem rewrites_append {spans : List Span} (h : Span.totalLength spans ≤ data.length)
    (device : Device) (more : Bytes) :
    device.rewrites spans (data ++ more) = device.rewrites spans data := by
  induction spans generalizing device data with
  | nil => rfl
  | cons span rest ih =>
    rw [Span.totalLength] at h
    rw [rewrites, rewrites, List.take_append_of_le_length (by omega),
      List.drop_append_of_le_length (by omega), ih (by rw [List.length_drop]; omega)]

end Device

namespace File

variable {file : File} {device middle : Device}

theorem extent_add (file : File) (pos first second : Nat) :
    file.extent pos (first + second) =
      file.extent pos first + file.extent (pos + file.extent pos first) second := by
  simp only [extent]
  omega

/-- Data can be written in two parts, the second where the first one stopped. -/
theorem blocks_rewrites_append (h : file.OnDevice device) {first : Bytes} {pos : Nat}
    (hmiddle : device.edit (file.rewrites device first pos) = middle) (second : Bytes) :
    (device.edit (file.rewrites device (first ++ second) pos)).blocks =
      (middle.edit (file.rewrites middle second
        (pos + file.extent pos first.length))).blocks := by
  have hfits := file.extent_le pos first.length
  have hfirst : device.splice file.header.dataSectors pos (file.extent pos first.length)
      (first ++ second) = middle := by
    have hlen : Span.totalLength (Span.cover file.header.dataSectors pos
        (file.extent pos first.length)) ≤ first.length :=
      Nat.le_trans (Nat.le_of_eq (file.totalLength_spans pos first.length)) hfits
    rw [← hmiddle, edit_rewrites, Device.splice, Device.rewrites_append hlen, Device.splice]
  rw [edit_rewrites, List.length_append, extent_add,
    Device.blocks_splice_add h (by rw [List.length_append]; omega), hfirst, edit_rewrites]
  by_cases hall : file.extent pos first.length = first.length
  · rw [hall, List.drop_left]
  · have hnone : file.extent (pos + file.extent pos first.length) second.length = 0 := by
      simp only [extent] at hall ⊢
      omega
    rw [hnone, Device.splice_zero, Device.splice_zero]

theorem take_contents_add (file : File) (device : Device) (pos first second : Nat) :
    ((file.contents device).drop pos).take (first + second) =
      ((file.contents device).drop pos).take first ++
        ((file.contents device).drop (pos + file.extent pos first)).take second := by
  have hrest : (file.contents device).drop (pos + first) =
      (file.contents device).drop (pos + file.extent pos first) := by
    rw [List.drop_eq_drop_iff, length_contents, extent]
    omega
  rw [List.take_add, List.drop_drop, hrest]

end File

end SectorFS
