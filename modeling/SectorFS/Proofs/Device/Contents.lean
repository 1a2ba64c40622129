import SectorFS.Proofs.Device.Edits

namespace SectorFS

open Layout (sectorSize)

namespace Bytes

theorem getElem?_overwrite (bytes : Bytes) (pos : Nat) (data : Bytes) (i : Nat) :
    (bytes.overwrite pos data)[i]? =
      if pos ≤ i ∧ i < pos + data.length ∧ i < bytes.length then data[i - pos]? else bytes[i]? := by
  unfold overwrite
  rw [List.append_assoc, List.getElem?_append, List.getElem?_append, List.getElem?_drop,
    List.length_take, List.length_take]
  split
  · next h => rw [if_neg (by omega), List.getElem?_take_of_lt (by omega)]
  · next h =>
    split
    · next h' => rw [if_pos (by omega), List.getElem?_take_of_lt (by omega)]; congr 1; omega
    · next h' =>
      split
      · next h'' => omega
      · next h'' =>
        by_cases hi : i < bytes.length
        · congr 1
          omega
        · rw [List.getElem?_eq_none (by omega), List.getElem?_eq_none (by omega)]

theorem overwrite_append_of_le {bytes : Bytes} {pos : Nat} (h : pos ≤ bytes.length)
    (rest data : Bytes) : overwrite (bytes ++ rest) pos data =
      bytes.overwrite pos data ++ rest.overwrite 0 (data.drop (bytes.length - pos)) := by
  apply List.ext_getElem?
  intro i
  simp only [getElem?_overwrite, List.getElem?_append, List.length_append, length_overwrite,
    List.length_drop, List.getElem?_drop]
  by_cases hi : i < bytes.length
  · rw [if_pos hi, if_pos hi]
    split
    · next hc => rw [if_pos ⟨hc.1, hc.2.1, hi⟩]
    · next hc => rw [if_neg fun hn ↦ hc ⟨hn.1, hn.2.1, by omega⟩]
  · rw [if_neg hi, if_neg hi]
    split
    · next hc =>
      rw [if_pos (by omega)]
      congr 1
      omega
    · next hc => rw [if_neg (by omega)]

theorem overwrite_append_of_ge {bytes : Bytes} {pos : Nat} (h : bytes.length ≤ pos)
    (rest data : Bytes) : overwrite (bytes ++ rest) pos data =
      bytes ++ rest.overwrite (pos - bytes.length) data := by
  apply List.ext_getElem?
  intro i
  simp only [getElem?_overwrite, List.getElem?_append, List.length_append]
  by_cases hi : i < bytes.length
  · rw [if_neg (by omega), if_pos hi, if_pos hi]
  · rw [if_neg hi, if_neg hi]
    split
    · next hc =>
      rw [if_pos (by omega)]
      congr 1
      omega
    · next hc => rw [if_neg (by omega)]

theorem overwrite_take {bytes : Bytes} {pos n : Nat} (h : bytes.length ≤ pos + n) (data : Bytes) :
    bytes.overwrite pos (data.take n) = bytes.overwrite pos data := by
  apply List.ext_getElem?
  intro i
  rw [getElem?_overwrite, getElem?_overwrite, List.length_take]
  by_cases hc : pos ≤ i ∧ i < pos + data.length ∧ i < bytes.length
  · rw [if_pos hc, if_pos (by omega), List.getElem?_take_of_lt (by omega)]
  · rw [if_neg hc, if_neg (by omega)]

theorem take_overwrite (bytes : Bytes) (pos : Nat) (data : Bytes) (n : Nat) :
    (bytes.overwrite pos data).take n = overwrite (bytes.take n) pos data := by
  apply List.ext_getElem?
  intro i
  rw [getElem?_overwrite, List.getElem?_take, getElem?_overwrite, List.length_take,
    List.getElem?_take]
  by_cases hi : i < n
  · rw [if_pos hi, if_pos hi]
    by_cases hc : pos ≤ i ∧ i < pos + data.length ∧ i < bytes.length
    · rw [if_pos hc, if_pos (by omega)]
    · rw [if_neg hc, if_neg (by omega)]
  · rw [if_neg hi, if_neg hi, if_neg (by omega)]

theorem overwrite_append (bytes : Bytes) (pos : Nat) (first second : Bytes) :
    bytes.overwrite pos (first ++ second) =
      (bytes.overwrite pos first).overwrite (pos + first.length) second := by
  apply List.ext_getElem?
  intro i
  simp only [getElem?_overwrite, length_overwrite, List.length_append, List.getElem?_append]
  by_cases hi : pos ≤ i ∧ i < bytes.length
  · by_cases hfirst : i < pos + first.length
    · rw [if_neg (c := pos + first.length ≤ i ∧ _) (by omega), if_pos (by omega)]
      by_cases hsecond : pos + first.length ≤ i
      · omega
      · rw [if_pos (by omega), if_pos (by omega)]
    · by_cases hsecond : i < pos + first.length + second.length
      · rw [if_pos (by omega), if_neg (by omega), if_pos (by omega)]
        congr 1
        omega
      · rw [if_neg (by omega), if_neg (by omega), if_neg (by omega)]
  · rw [if_neg (by omega), if_neg (by omega), if_neg (by omega)]

/-- Data that is laid over again, and not shorter, leaves nothing of what was there. -/
theorem overwrite_overwrite {short long : Bytes} (h : short.length ≤ long.length) (bytes : Bytes)
    (pos : Nat) : (bytes.overwrite pos short).overwrite pos long = bytes.overwrite pos long := by
  apply List.ext_getElem?
  intro i
  simp only [getElem?_overwrite, length_overwrite]
  by_cases hi : pos ≤ i ∧ i < pos + long.length ∧ i < bytes.length
  · rw [if_pos hi, if_pos hi]
  · rw [if_neg hi, if_neg hi, if_neg (by omega)]

theorem overwrite_zero {bytes data : Bytes} (h : data.length ≤ bytes.length) :
    bytes.overwrite 0 data = data ++ bytes.drop data.length := by
  rw [overwrite, List.take_zero, List.nil_append, Nat.sub_zero, List.take_of_length_le h,
    Nat.zero_add]

end Bytes

theorem Block.eq_of_bytes {block other : Block} (h : block.bytes = other.bytes) : block = other := by
  cases block
  cases other
  cases h
  rfl

theorem Block.overwrite_full {data : Bytes} (h : data.length = sectorSize) (block other : Block) :
    block.overwrite 0 data = other.overwrite 0 data := by
  have hall : ∀ block : Block, (block.overwrite 0 data).bytes = data := by
    intro block
    change Bytes.overwrite block.bytes 0 data = data
    have hlen : block.bytes.length = data.length := block.length_bytes.trans h.symm
    rw [Bytes.overwrite_zero (Nat.le_of_eq hlen.symm), List.drop_of_length_le (Nat.le_of_eq hlen),
      List.append_nil]
  exact eq_of_bytes ((hall block).trans (hall other).symm)

namespace Span

variable {sectors : List UInt32} {pos count : Nat}

/-- The first few spans of a range make up the range cut at a sector's end. -/
theorem take_cover (sectors : List UInt32) (pos count k : Nat) :
    ∃ j ≤ count, (cover sectors pos count).take k = cover sectors pos j ∧
      (j = 0 ∨ j = count ∨ (pos + j) % sectorSize = 0) := by
  induction sectors generalizing pos count k with
  | nil => exact ⟨0, Nat.zero_le _, by simp [cover], .inl rfl⟩
  | cons sector rest ih =>
    by_cases hcount : count = 0
    · exact ⟨0, Nat.zero_le _, by simp [hcount, cover_zero], .inl rfl⟩
    · by_cases hpos : pos < sectorSize
      · cases k with
        | zero => exact ⟨0, Nat.zero_le _, by rw [List.take_zero, cover_zero], .inl rfl⟩
        | succ k =>
          obtain ⟨j, hj, htake, hend⟩ := ih 0 (count - min count (sectorSize - pos)) k
          have hlen : min (min count (sectorSize - pos) + j) (sectorSize - pos) =
              min count (sectorSize - pos) := by omega
          refine ⟨min count (sectorSize - pos) + j, by omega, ?_, ?_⟩
          · rw [cover, if_neg hcount, dif_pos hpos, cover, if_neg (by omega), dif_pos hpos]
            simp only [hlen, Nat.add_sub_cancel_left, List.take_succ_cons, htake]
          · simp only [sectorSize] at *
            omega
      · obtain ⟨j, hj, htake, hend⟩ := ih (pos - sectorSize) count k
        refine ⟨j, hj, ?_, ?_⟩
        · by_cases hj0 : j = 0
          · rw [cover, if_neg hcount, dif_neg hpos, htake, hj0, cover_zero, cover_zero]
          · rw [cover, if_neg hcount, dif_neg hpos, cover, if_neg hj0, dif_neg hpos, htake]
        · simp only [sectorSize] at *
          omega

end Span

namespace Device

variable {device after : Device} {spans : List Span} {sectors : List UInt32}

def contents (device : Device) (sectors : List UInt32) : Bytes :=
  sectors.flatMap fun s ↦ ((device.block? s).getD Block.zero).bytes

/-- The blocks that `Action.scatter` writes. A span keeps what is around it in its sector. -/
def rewrites (device : Device) : List Span → (data : Bytes) → List Edit
  | [], _ => []
  | span :: rest, data =>
    let block := ((device.block? span.sector).getD Block.zero).overwrite span.start
      (data.take span.length)
    (span.sector, block) :: (device.put span.sector block).rewrites rest (data.drop span.length)

def splice (device : Device) (sectors : List UInt32) (pos count : Nat) (data : Bytes) : Device :=
  device.edit (device.rewrites (Span.cover sectors pos count) data)

@[simp] theorem has_splice {s : UInt32} {pos count : Nat} {data : Bytes} :
    (device.splice sectors pos count data).Has s ↔ device.Has s := has_edit

theorem contents_cons (device : Device) (s : UInt32) (rest : List UInt32) :
    device.contents (s :: rest) =
      ((device.block? s).getD Block.zero).bytes ++ device.contents rest := List.flatMap_cons

theorem length_contents (device : Device) (sectors : List UInt32) :
    (device.contents sectors).length = sectorSize * sectors.length := by
  induction sectors with
  | nil => rfl
  | cons s rest ih =>
    rw [contents_cons, List.length_append, Block.length_bytes, ih, List.length_cons, Nat.mul_succ,
      Nat.add_comm]

theorem contents_congr (h : ∀ s ∈ sectors, after.block? s = device.block? s) :
    after.contents sectors = device.contents sectors := by
  induction sectors with
  | nil => rfl
  | cons s rest ih =>
    rw [contents_cons, contents_cons, h s List.mem_cons_self,
      ih fun t ht ↦ h t (List.mem_cons_of_mem _ ht)]

theorem block?_eq_of_contents (h : ∀ s ∈ sectors, device.Has s) (h' : ∀ s ∈ sectors, after.Has s)
    (heq : after.contents sectors = device.contents sectors) :
    ∀ s ∈ sectors, after.block? s = device.block? s := by
  induction sectors with
  | nil => exact nofun
  | cons s rest ih =>
    obtain ⟨block, hb⟩ := has_iff.1 (h s List.mem_cons_self)
    obtain ⟨block', hb'⟩ := has_iff.1 (h' s List.mem_cons_self)
    rw [contents_cons, contents_cons, hb, hb', Option.getD_some, Option.getD_some] at heq
    have hlen : block'.bytes.length = block.bytes.length := by
      rw [Block.length_bytes, Block.length_bytes]
    obtain ⟨hfirst, hrest⟩ := List.append_inj heq hlen
    intro t ht
    rcases List.mem_cons.1 ht with rfl | ht
    · rw [hb, hb', Block.eq_of_bytes hfirst]
    · exact ih (fun u hu ↦ h u (List.mem_cons_of_mem _ hu))
        (fun u hu ↦ h' u (List.mem_cons_of_mem _ hu)) hrest t ht

theorem gather_congr (h : ∀ span ∈ spans, after.read span.sector = device.read span.sector) :
    after.gather spans = device.gather spans := by
  induction spans with
  | nil => rfl
  | cons span rest ih =>
    rw [gather, gather, h span List.mem_cons_self,
      ih fun t ht ↦ h t (List.mem_cons_of_mem _ ht)]

theorem gather_healed {bytes : Bytes} (h : device.gather spans = (bytes, none)) :
    device.healed.gather spans = (bytes, none) := by
  induction spans generalizing bytes with
  | nil => exact h
  | cons span rest ih =>
    unfold gather at h ⊢
    cases hr : device.read span.sector with
    | error e => rw [hr] at h; exact absurd (Prod.mk.inj h).2 nofun
    | ok block =>
      rw [hr] at h
      obtain ⟨rfl, hstop⟩ := Prod.mk.inj h
      rw [read_healed hr]
      dsimp only
      rw [ih (Prod.ext rfl hstop)]

theorem has_of_gather {bytes : Bytes} (h : device.gather spans = (bytes, none)) :
    ∀ span ∈ spans, device.Has span.sector := by
  induction spans generalizing bytes with
  | nil => exact nofun
  | cons span rest ih =>
    unfold gather at h
    cases hr : device.read span.sector with
    | error e => rw [hr] at h; exact absurd (Prod.mk.inj h).2 nofun
    | ok block =>
      rw [hr] at h
      obtain ⟨rfl, hstop⟩ := Prod.mk.inj h
      intro t ht
      rcases List.mem_cons.1 ht with rfl | ht
      · exact has_iff.2 ⟨block, (read_eq_ok_iff device.faults_healed).1 (read_healed hr)⟩
      · exact ih (Prod.ext rfl hstop) t ht

theorem gather_cover (hf : device.faults = {}) (h : ∀ s ∈ sectors, device.Has s) (pos count : Nat) :
    device.gather (Span.cover sectors pos count) =
      (((device.contents sectors).drop pos).take count, none) := by
  induction sectors generalizing pos count with
  | nil => simp [Span.cover, gather, contents]
  | cons s rest ih =>
    have hrest := ih fun t ht ↦ h t (List.mem_cons_of_mem _ ht)
    obtain ⟨block, hb⟩ := has_iff.1 (h s List.mem_cons_self)
    have hlen := block.length_bytes
    rw [contents_cons, hb, Option.getD_some]
    unfold Span.cover
    split
    · next hcount => simp [hcount, gather]
    · split
      · next hpos =>
        have hslice : (block.bytes.drop pos).take (min count (sectorSize - pos)) =
            (block.bytes.drop pos).take count := by
          rw [List.take_eq_take_iff, List.length_drop, hlen]
          omega
        have hleft : count - min count (sectorSize - pos) = count - (sectorSize - pos) := by omega
        rw [gather, (read_eq_ok_iff hf).2 hb]
        dsimp only
        rw [hrest, List.drop_append, List.take_append, Span.slice, List.length_drop, hlen,
          List.drop_zero, Nat.sub_eq_zero_of_le (Nat.le_of_lt hpos), List.drop_zero, hslice, hleft]
      · next hpos =>
        have hdrop : block.bytes.drop pos = [] := List.drop_of_length_le (by omega)
        rw [hrest, List.drop_append, hlen, hdrop, List.nil_append]

theorem mem_sectors_of_mem_rewrites {data : Bytes} {edit : Edit}
    (h : edit ∈ device.rewrites spans data) : ∃ span ∈ spans, span.sector = edit.1 := by
  induction spans generalizing device data with
  | nil => exact absurd h List.not_mem_nil
  | cons span rest ih =>
    rcases List.mem_cons.1 h with rfl | h
    · exact ⟨span, List.mem_cons_self, rfl⟩
    · obtain ⟨other, hother, heq⟩ := ih h
      exact ⟨other, List.mem_cons_of_mem _ hother, heq⟩

theorem map_fst_rewrites (device : Device) (spans : List Span) (data : Bytes) :
    (device.rewrites spans data).map Prod.fst = spans.map Span.sector := by
  induction spans generalizing device data with
  | nil => rfl
  | cons span rest ih => rw [rewrites, List.map_cons, List.map_cons, ih]

theorem rewrites_healed (device : Device) (spans : List Span) (data : Bytes) :
    device.healed.rewrites spans data = device.rewrites spans data := by
  induction spans generalizing device data with
  | nil => rfl
  | cons span rest ih =>
    have hput : ∀ block, device.healed.put span.sector block = (device.put span.sector block).healed :=
      fun _ ↦ rfl
    rw [rewrites, rewrites, block?_healed, hput, ih]

theorem rewrites_congr {spans : List Span}
    (h : ∀ span ∈ spans, after.block? span.sector = device.block? span.sector) (data : Bytes) :
    after.rewrites spans data = device.rewrites spans data := by
  induction spans generalizing device after data with
  | nil => rfl
  | cons span rest ih =>
    simp only [rewrites, h span (by simp)]
    rw [ih]
    intro next hnext
    simp only [block?_put, h next (by simp [hnext])]

theorem take_rewrites (device : Device) (spans : List Span) (data : Bytes) (k : Nat) :
    (device.rewrites spans data).take k = device.rewrites (spans.take k) data := by
  induction spans generalizing device data k with
  | nil => simp [rewrites]
  | cons span rest ih =>
    cases k with
    | zero => rfl
    | succ k => rw [rewrites, List.take_succ_cons, List.take_succ_cons, rewrites, ih]

/-- Writing a range of distinct sectors lays the data over what they hold. -/
theorem contents_splice (hd : sectors.Nodup) (h : ∀ s ∈ sectors, device.Has s) (pos count : Nat)
    (data : Bytes) : (device.splice sectors pos count data).contents sectors =
      (device.contents sectors).overwrite pos (data.take count) := by
  rw [splice]
  induction sectors generalizing device pos count data with
  | nil => simp [Span.cover, rewrites, edit, contents, Bytes.overwrite]
  | cons s rest ih =>
    obtain ⟨hs, hrest⟩ := List.nodup_cons.1 hd
    have hin : ∀ t ∈ rest, device.Has t := fun t ht ↦ h t (List.mem_cons_of_mem _ ht)
    have hout : ∀ (device : Device) (pos count : Nat) (data : Bytes),
        (device.edit (device.rewrites (Span.cover rest pos count) data)).block? s =
          device.block? s := by
      intro device pos count data
      apply block?_edit_of_not_mem
      rw [map_fst_rewrites]
      intro hmem
      obtain ⟨span, hspan, rfl⟩ := List.mem_map.1 hmem
      exact hs (Span.sector_mem_of_mem_cover hspan)
    obtain ⟨block, hb⟩ := has_iff.1 (h s List.mem_cons_self)
    have hlen := block.length_bytes
    rw [contents_cons device, hb, Option.getD_some]
    -- The range starts in this sector and may go on in the next, or it starts in a later one.
    by_cases hcount : count = 0
    · simp [hcount, Span.cover_zero, rewrites, edit, contents_cons, hb]
    · by_cases hpos : pos < sectorSize
      · rw [Span.cover, if_neg hcount, dif_pos hpos, rewrites, edit, contents_cons, hout,
          block?_put, if_pos rfl, hb, Option.map_some, Option.getD_some, Option.getD_some,
          ih hrest (fun t ht ↦ has_put.2 (hin t ht)),
          Bytes.overwrite_append_of_le (by omega), hlen]
        have hsame : ∀ new, (device.put s new).contents rest = device.contents rest :=
          fun new ↦ contents_congr fun t ht ↦ by
            rw [block?_put, if_neg fun hst : s = t ↦ hs (hst ▸ ht)]
        rw [hsame]
        change Bytes.overwrite block.bytes pos (data.take (min count (sectorSize - pos))) ++
          Bytes.overwrite _ 0 (List.take _ (data.drop (min count (sectorSize - pos)))) = _
        by_cases hfit : count ≤ sectorSize - pos
        · rw [Nat.min_eq_left hfit, List.drop_take, Nat.sub_self, Nat.sub_eq_zero_of_le hfit,
            List.take_zero, List.take_zero]
        · have hfirst : ∀ n, sectorSize - pos ≤ n →
              block.bytes.overwrite pos (data.take n) = block.bytes.overwrite pos data :=
            fun n hn ↦ Bytes.overwrite_take (by omega) data
          rw [Nat.min_eq_right (by omega), hfirst _ (Nat.le_refl _), hfirst count (by omega),
            List.drop_take]
      · rw [Span.cover, if_neg hcount, dif_neg hpos, contents_cons, hout, hb, Option.getD_some,
          ih hrest hin, Bytes.overwrite_append_of_ge (by omega), hlen]

end Device

open Device in
theorem Action.carriesOut_scatter {device : Device} {spans : List Span}
    (h : ∀ span ∈ spans, device.Has span.sector) {data : Bytes}
    (hlen : Span.totalLength spans ≤ data.length) :
    (scatter spans data).CarriesOut device (device.rewrites spans data) () := by
  induction spans generalizing device data with
  | nil => exact carriesOut_pure _ _
  | cons span rest ih =>
    obtain ⟨block, hb⟩ := has_iff.1 (h span List.mem_cons_self)
    have hfits := span.fits
    rw [Span.totalLength] at hlen
    -- A span that fills its sector is written without a read, over any block at all.
    have hwrite : ∀ old : Block, old.overwrite span.start (data.take span.length) =
          block.overwrite span.start (data.take span.length) →
        (write span.sector (old.overwrite span.start (data.take span.length)) >>= fun _ ↦
          scatter rest (data.drop span.length)).CarriesOut device
            (device.rewrites (span :: rest) data) () := by
      intro old hold
      have hrest : ∀ new, ∀ t ∈ rest, (device.put span.sector new).Has t.sector :=
        fun new t ht ↦ has_put.2 (h t (List.mem_cons_of_mem _ ht))
      rw [rewrites, hb, Option.getD_some, hold]
      exact (carriesOut_write (h span List.mem_cons_self) _).bind
        (ih (hrest _) (by rw [List.length_drop]; omega))
    unfold scatter
    by_cases hpart : span.length < sectorSize
    · rw [if_pos hpart]
      refine CarriesOut.query_bind (a := block) ?_ (hwrite block rfl)
      cases hr : device.read span.sector with
      | error error =>
        refine .inr ⟨fun hf ↦ ?_, ⟨error, rfl⟩, List.cons_ne_nil _ _⟩
        rw [(read_eq_ok_iff hf).2 hb] at hr
        contradiction
      | ok stored =>
        have hstored := (read_eq_ok_iff device.faults_healed).1 (read_healed hr)
        rw [block?_healed, hb] at hstored
        exact .inl (congrArg Except.ok (Option.some.inj hstored).symm)
    · have hfull : span.length = sectorSize := by omega
      have hstart : span.start = 0 := by omega
      rw [if_neg hpart, pure_bind]
      apply hwrite
      rw [hstart]
      apply Block.overwrite_full
      rw [List.length_take]
      omega

end SectorFS
