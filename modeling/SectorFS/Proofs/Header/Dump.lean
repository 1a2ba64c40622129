import Mathlib.Data.List.Basic
import SectorFS.Proofs.Guarded.File

namespace SectorFS

open Layout (sectorSize)

/-! ## Numbers in base sixteen -/

namespace Text.Quoted

def digits : List Char := "0123456789abcdef".toList

/-- The text is the number in base sixteen, with no zeros before it. -/
structure Spells (text : List Char) (n : Nat) : Prop where
  digit : ∀ c ∈ text, c ∈ digits
  value : text.foldl (fun sum c ↦ 16 * sum + digits.idxOf c) 0 = n
  ne_nil : text ≠ []
  first : text.head? = some '0' → text = ['0']

theorem digitChar_of_lt : ∀ d < 16, d.digitChar ∈ digits ∧ digits.idxOf d.digitChar = d := by
  decide

theorem spells_toDigits (n : Nat) : Spells (Nat.toDigits 16 n) n := by
  induction n using Nat.strongRecOn with
  | _ n ih =>
    rw [Nat.toDigits_eq_if (by decide)]
    split
    · next hlt =>
      obtain ⟨hmem, hvalue⟩ := digitChar_of_lt n hlt
      refine ⟨fun c hc ↦ List.mem_singleton.1 hc ▸ hmem, ?_, List.cons_ne_nil _ _, fun h ↦ ?_⟩
      · rw [List.foldl_cons, List.foldl_nil, hvalue]
        omega
      · rw [Option.some.inj h]
    · next hge =>
      obtain ⟨hmem, hvalue⟩ := digitChar_of_lt (n % 16) (Nat.mod_lt _ (by decide))
      have hhigh := ih (n / 16) (by omega)
      refine ⟨fun c hc ↦ ?_, ?_, List.append_ne_nil_of_right_ne_nil _ (List.cons_ne_nil _ _),
        fun h ↦ ?_⟩
      · rcases List.mem_append.1 hc with hc | hc
        · exact hhigh.digit c hc
        · exact List.mem_singleton.1 hc ▸ hmem
      · rw [List.foldl_append, hhigh.value, List.foldl_cons, List.foldl_nil, hvalue]
        omega
      · -- A zero in front would be all of the higher digits, which are those of a positive number.
        rw [List.head?_append_of_ne_nil _ hhigh.ne_nil] at h
        have hzero := hhigh.value
        rw [hhigh.first h] at hzero
        have : n / 16 = 0 := hzero.symm
        omega

end Text.Quoted

/-! ## Blocks -/

namespace Bytes

variable {bytes front rest : Bytes}

/-- The blocks follow each other in the bytes. Only the last one may be shorter than a sector. -/
structure CutInto (bytes : Bytes) (blocks : List Bytes) : Prop where
  flatten : blocks.flatten = bytes
  full : ∀ block ∈ blocks.dropLast, block.length = sectorSize
  last : ∀ block, blocks.getLast? = some block → 0 < block.length ∧ block.length ≤ sectorSize

def blocks (bytes : Bytes) : List Bytes :=
  if bytes.length = 0 then [] else bytes.take sectorSize :: blocks (bytes.drop sectorSize)
termination_by bytes.length
decreasing_by
  rw [List.length_drop]
  simp only [sectorSize]
  omega

theorem blocks_nil : blocks [] = [] := by
  rw [blocks, if_pos List.length_nil]

theorem blocks_of_ne_nil (h : bytes ≠ []) :
    blocks bytes = bytes.take sectorSize :: blocks (bytes.drop sectorSize) := by
  rw [blocks, if_neg (List.length_eq_zero_iff.not.2 h)]

/-- A first block that fills a sector, or is all there is, is a block of its own. -/
theorem blocks_append (hfront : front ≠ []) (hle : front.length ≤ sectorSize)
    (h : front.length = sectorSize ∨ rest = []) : blocks (front ++ rest) = front :: blocks rest := by
  rw [blocks_of_ne_nil (List.append_ne_nil_of_left_ne_nil hfront _)]
  rcases h with hfull | rfl
  · rw [List.take_left' hfull, List.drop_left' hfull]
  · rw [List.append_nil, List.take_of_length_le hle, List.drop_of_length_le hle]

theorem length_blocks (bytes : Bytes) : (blocks bytes).length = sectorsFor bytes.length := by
  fun_induction blocks bytes with
  | case1 bytes hzero =>
    rw [hzero]
    rfl
  | case2 bytes hpos ih =>
    rw [List.length_cons, ih, List.length_drop]
    simp only [sectorsFor, sectorSize]
    omega

theorem cutInto_blocks (bytes : Bytes) : bytes.CutInto (blocks bytes) := by
  fun_induction blocks bytes with
  | case1 bytes hzero =>
    rw [List.length_eq_zero_iff.1 hzero]
    exact ⟨rfl, nofun, nofun⟩
  | case2 bytes hpos ih =>
    have hlen := length_blocks (bytes.drop sectorSize)
    rw [List.length_drop] at hlen
    refine ⟨?_, ?_, ?_⟩
    · rw [List.flatten_cons, ih.flatten, List.take_append_drop]
    · intro block hblock
      cases hrest : blocks (bytes.drop sectorSize) with
      | nil =>
        rw [hrest] at hblock
        contradiction
      | cons next more =>
        rw [hrest, List.dropLast_cons_cons, ← hrest, List.mem_cons] at hblock
        rcases hblock with rfl | hblock
        · rw [hrest, List.length_cons] at hlen
          rw [List.length_take]
          simp only [sectorsFor, sectorSize] at *
          omega
        · exact ih.full block hblock
    · intro block hblock
      cases hrest : blocks (bytes.drop sectorSize) with
      | nil =>
        rw [hrest] at hblock
        rw [← Option.some.inj hblock, List.getLast_singleton, List.length_take]
        simp only [sectorSize]
        omega
      | cons next more =>
        rw [hrest, List.getLast?_cons_cons, ← hrest] at hblock
        exact ih.last block hblock

end Bytes

/-! ## Sectors one after the other -/

def Device.FailsAt (device : Device) (sectors : List UInt32) (error : Error) : Prop :=
  ∃ before sector after, sectors = before ++ sector :: after ∧
    (∀ s ∈ before, ∃ block, device.read s = .ok block) ∧ device.read sector = .error error

namespace Device

variable {device : Device} {sector : UInt32} {rest : List UInt32} {error : Error} {block : Block}

theorem not_failsAt_nil : ¬device.FailsAt [] error := by
  rintro ⟨before, sector, after, heq, -⟩
  exact List.append_ne_nil_of_right_ne_nil before (List.cons_ne_nil sector after) heq.symm

theorem failsAt_cons_of_ok (h : device.read sector = .ok block) :
    device.FailsAt (sector :: rest) error ↔ device.FailsAt rest error := by
  constructor
  · rintro ⟨before, failing, after, heq, hbefore, hfailing⟩
    cases before with
    | nil =>
      cases heq
      cases h.symm.trans hfailing
    | cons first before =>
      cases heq
      exact ⟨before, failing, after, rfl, fun s hs ↦ hbefore s (List.mem_cons_of_mem _ hs), hfailing⟩
  · rintro ⟨before, failing, after, rfl, hbefore, hfailing⟩
    exact ⟨sector :: before, failing, after, rfl, List.forall_mem_cons.2 ⟨⟨block, h⟩, hbefore⟩,
      hfailing⟩

theorem failsAt_cons_of_error {other : Error} (h : device.read sector = .error other) :
    device.FailsAt (sector :: rest) error ↔ other = error := by
  constructor
  · rintro ⟨before, failing, after, heq, hbefore, hfailing⟩
    cases before with
    | nil =>
      cases heq
      exact Except.error.inj (h.symm.trans hfailing)
    | cons first before =>
      cases heq
      obtain ⟨block, hblock⟩ := hbefore sector List.mem_cons_self
      cases h.symm.trans hblock
  · rintro rfl
    exact ⟨[], sector, rest, rfl, nofun, h⟩

end Device

/-! ## The dump -/

namespace Header

variable {header : Header} {device : Device} {sectors : List UInt32} {remaining : Nat}
  {error : Error}

/-- A byte as a dump shows it: a character that can be printed as such, any other byte as a
backslash and its number. -/
def Shows (byte : UInt8) (text : String) : Prop :=
  if 0x20 ≤ byte ∧ byte ≤ 0x7e then text.toList.map Char.toNat = [byte.toNat]
  else ∃ number, text.toList = '\\' :: number ∧ Text.Quoted.Spells number byte.toNat

def line (block : Bytes) : String := String.join (block.map renderByte) ++ "\n"

def heading (header : Header) : String :=
  let sectors := String.join (header.dataSectors.map fun s ↦ s!" {s.toNat}")
  s!"FileHeader contents. File size: {header.length}. File blocks:{sectors}\n"

theorem shows_renderByte (byte : UInt8) : Shows byte (renderByte byte) := by
  rw [Shows, renderByte]
  split
  · rw [Char.toString_eq_singleton, String.toList_singleton]
    rfl
  · refine ⟨Nat.toDigits 16 byte.toNat, ?_, Text.Quoted.spells_toDigits byte.toNat⟩
    simp [Text.Quoted.hex]

theorem renderSectors_eq_error_iff :
    renderSectors device sectors remaining = .error error ↔ device.FailsAt sectors error := by
  induction sectors generalizing remaining with
  | nil => exact iff_of_false nofun Device.not_failsAt_nil
  | cons sector rest ih =>
    rw [renderSectors]
    cases hread : device.read sector with
    | error other =>
      rw [Device.failsAt_cons_of_error hread]
      exact ⟨Except.error.inj, congrArg _⟩
    | ok block =>
      rw [Device.failsAt_cons_of_ok hread, ← @ih (remaining - sectorSize)]
      change (renderSectors device rest (remaining - sectorSize) >>= _) = _ ↔ _
      cases renderSectors device rest (remaining - sectorSize) with
      | error other => rfl
      | ok lines => exact iff_of_false nofun nofun

theorem collect_cover_cons (hcount : 0 < remaining) (device : Device) (sector : UInt32)
    (rest : List UInt32) : device.collect (Span.cover (sector :: rest) 0 remaining) = do
      let block ← device.read sector
      let bytes ← device.collect (Span.cover rest 0 (remaining - sectorSize))
      return block.bytes.take remaining ++ bytes := by
  have hleft : remaining - min remaining sectorSize = remaining - sectorSize := by omega
  have hslice : ∀ block : Block,
      (block.bytes.drop 0).take (min remaining sectorSize) = block.bytes.take remaining := by
    intro block
    rw [List.drop_zero, ← block.length_bytes, ← List.take_eq_take_min]
  rw [Span.cover, if_neg (Nat.ne_of_gt hcount), dif_pos (by decide)]
  simp only [Nat.sub_zero, hleft, Guarded.collect_cons, Span.slice, hslice]

/-- The lines are those of the bytes that the sectors hold. -/
theorem renderSectors_eq (h : sectors.length = sectorsFor remaining) :
    renderSectors device sectors remaining =
      (device.collect (Span.cover sectors 0 remaining)).map fun bytes ↦
        String.join ((Bytes.blocks bytes).map line) := by
  induction sectors generalizing remaining with
  | nil =>
    change Except.ok "" = Except.ok (String.join ((Bytes.blocks []).map line))
    rw [Bytes.blocks_nil]
    rfl
  | cons sector rest ih =>
    rw [List.length_cons] at h
    have hpos : 0 < remaining := by
      simp only [sectorsFor, sectorSize] at h
      omega
    have hrest : rest.length = sectorsFor (remaining - sectorSize) := by
      simp only [sectorsFor, sectorSize] at h ⊢
      omega
    rw [renderSectors, collect_cover_cons hpos, ih hrest]
    cases device.read sector with
    | error error => rfl
    | ok block =>
      cases hbytes : device.collect (Span.cover rest 0 (remaining - sectorSize)) with
      | error error => rfl
      | ok bytes =>
        have hlen : (block.bytes.take remaining).length = min remaining sectorSize := by
          rw [List.length_take, block.length_bytes]
        -- The bytes of a sector make up a block, because only the last sector holds fewer of them.
        have hend : (block.bytes.take remaining).length = sectorSize ∨ bytes = [] := by
          rcases Nat.lt_or_ge remaining sectorSize with hlt | hge
          · rw [Nat.sub_eq_zero_of_le (Nat.le_of_lt hlt)] at hrest hbytes
            rw [Span.cover_zero] at hbytes
            exact .inr (Except.ok.inj hbytes).symm
          · exact .inl (hlen.trans (Nat.min_eq_right hge))
        have hfront : block.bytes.take remaining ≠ [] :=
          List.ne_nil_of_length_pos (hlen ▸ Nat.lt_min.2 ⟨hpos, by decide⟩)
        have hblocks := Bytes.blocks_append hfront (hlen ▸ Nat.min_le_right _ _) hend
        change Except.ok _ = Except.ok (String.join ((Bytes.blocks (_ ++ bytes)).map line))
        rw [hblocks, List.map_cons, String.join_cons, line]

theorem render_eq (h : header.Consistent) (device : Device) :
    header.render device = (device.collect (Span.cover header.dataSectors 0 header.length)).map
      fun bytes ↦ header.heading ++ "File contents:\n" ++
        String.join ((Bytes.blocks bytes).map line) := by
  rw [render, renderSectors_eq h.length_dataSectors]
  cases device.collect (Span.cover header.dataSectors 0 header.length) with
  | error error => rfl
  | ok bytes => rfl

theorem render_eq_error_iff :
    header.render device = .error error ↔ device.FailsAt header.dataSectors error := by
  rw [← @renderSectors_eq_error_iff _ _ header.length, render]
  cases renderSectors device header.dataSectors header.length with
  | error other => rfl
  | ok contents => exact iff_of_false nofun nofun

end Header

namespace File

variable {file : File} {device : Device} {sector : UInt32} {bytes : Bytes} {header : Header}
  {error : Error}

structure ShownAsRead (file : File) (device : Device) : Prop where
  prints : ∀ log, (Guarded.printHeader file.header).run ⟨device, log⟩ =
    .ok (file.header.render device, ⟨device, log⟩)
  reads : ∀ log, (Guarded.readAll file).run ⟨device, log⟩ =
    .ok (file.readAll device, ⟨device, log⟩)
  succeed_iff : (∃ text, file.header.render device = .ok text) ↔
    ∃ bytes, file.readAll device = .ok bytes
  print_fails_iff : ∀ error, file.header.render device = .error error ↔
    device.FailsAt file.header.dataSectors error
  read_fails_iff : ∀ error, file.readAll device = .error error ↔
    device.FailsAt file.header.dataSectors error
  shows : ∀ bytes, file.readAll device = .ok bytes → ∃ blocks, Bytes.CutInto bytes blocks ∧
    blocks.length = file.header.dataSectors.length ∧
    file.header.render device = .ok (file.header.heading ++ "File contents:\n" ++
      String.join (blocks.map Header.line))

theorem readAll_eq (file : File) (device : Device) :
    file.readAll device = device.collect (Span.cover file.header.dataSectors 0 file.length) := by
  rw [readAll, read, spans, extent, Nat.sub_zero, Nat.min_self]
  rfl

theorem render_header (file : File) (device : Device) : file.header.render device =
    (file.readAll device).map fun bytes ↦ file.header.heading ++ "File contents:\n" ++
      String.join ((Bytes.blocks bytes).map Header.line) := by
  rw [Header.render_eq file.consistent, readAll_eq, length]

theorem readAll_eq_error_iff :
    file.readAll device = .error error ↔ device.FailsAt file.header.dataSectors error := by
  rw [← Header.render_eq_error_iff, render_header]
  cases file.readAll device with
  | error other =>
    change Except.error other = _ ↔ Except.error other = _
    rw [Except.error.injEq, Except.error.injEq]
  | ok bytes => exact iff_of_false nofun nofun

theorem shownAsRead (file : File) (device : Device) : file.ShownAsRead device := by
  have hrender := file.render_header device
  refine ⟨fun log ↦ ?_, fun log ↦ ?_, ?_, fun error ↦ Header.render_eq_error_iff,
    fun error ↦ readAll_eq_error_iff, fun bytes hbytes ↦ ?_⟩
  · rw [(Guarded.asks_printHeader file.consistent).run, Operation.run_query]
  · rw [(Guarded.asks_readAll file).run, Operation.run_query]
  · rw [hrender]
    cases file.readAll device with
    | error error => exact iff_of_false nofun nofun
    | ok bytes => exact iff_of_true ⟨_, rfl⟩ ⟨_, rfl⟩
  · have hlen : bytes.length = file.length :=
      (length_of_read hbytes).trans (Nat.min_self _)
    refine ⟨Bytes.blocks bytes, Bytes.cutInto_blocks bytes, ?_, ?_⟩
    · rw [Bytes.length_blocks, hlen, file.consistent.length_dataSectors, length]
    · rw [hrender, hbytes]
      rfl

/-- For every header that is accepted, whatever sectors it names and whatever the device holds and
refuses to read, the dump shows what reading the file gives, and fails just as the reading does. -/
theorem shown_as_read (h : Header.decode sector bytes = .ok header) (device : Device) :
    (∀ byte, Header.Shows byte (Header.renderByte byte)) ∧
      ShownAsRead ⟨sector, header, Header.consistent_of_decode h⟩ device :=
  ⟨Header.shows_renderByte, shownAsRead _ device⟩

def half : Device where
  sectorCount := 2
  bytesPerSector := sectorSize
  blocks := #[⟨List.replicate sectorSize 0x41, List.length_replicate⟩, Block.zero]
  faults := { badReads := [1] }

def oneMore (second : UInt32) : Header where
  numBytes := 129
  numSectors := 2
  slots := (List.replicate Layout.numDirect 0).set 1 second
  length_slots := List.length_set.trans List.length_replicate

/-- The sector that is named twice is shown twice; the one that cannot be read stops both. -/
theorem shown_as_read_half :
    Header.decode 7 (oneMore 0).block.bytes = .ok (oneMore 0) ∧
      Header.decode 7 (oneMore 1).block.bytes = .ok (oneMore 1) ∧
      (∃ blocks, Bytes.CutInto (List.replicate 129 0x41) blocks ∧ blocks.length = 2 ∧
        (oneMore 0).render half = .ok ("FileHeader contents. File size: 129. File blocks: 0 0\n" ++
          "File contents:\n" ++ String.join (blocks.map Header.line))) ∧
      (oneMore 1).render half = .error (.device .read) := by
  have htwice : Header.decode 7 (oneMore 0).block.bytes = .ok (oneMore 0) := by decide +kernel
  have hbad : Header.decode 7 (oneMore 1).block.bytes = .ok (oneMore 1) := by decide +kernel
  have hread : half.collect (Span.cover (oneMore 0).dataSectors 0 129) =
      .ok (List.replicate 129 0x41) := by
    decide +kernel
  obtain ⟨-, hshown⟩ := shown_as_read htwice half
  obtain ⟨-, hstopped⟩ := shown_as_read hbad half
  refine ⟨htwice, hbad, ?_, (hstopped.print_fails_iff _).2 ?_⟩
  · have hheading : (oneMore 0).heading =
        "FileHeader contents. File size: 129. File blocks: 0 0\n" := by
      decide +kernel
    rw [← hheading]
    exact hshown.shows _ ((readAll_eq _ half).trans hread)
  · exact ⟨[0], 1, [], rfl, fun _ h ↦ ⟨_, (congrArg _ (List.mem_singleton.1 h)).trans rfl⟩, rfl⟩

end File

end SectorFS
