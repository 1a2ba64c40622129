import SectorFS.Proofs.Directory.Fetched

namespace SectorFS

open Layout

/-! ## Targets -/

namespace Guarded

/-- What is done to some bytes is done to them also with more bytes behind. -/
def Frames (change : Bytes → Guarded Bytes) : Prop :=
  ∀ front out more, change front = .ok out → change (front ++ more) = .ok (out ++ more)

theorem Frames.bind {first second : Bytes → Guarded Bytes} (hfirst : Frames first)
    (hsecond : Frames second) : Frames fun bytes ↦ first bytes >>= second := by
  intro front out more h
  obtain ⟨mid, hmid, hout⟩ := bind_eq_ok.1 h
  exact bind_eq_ok.2 ⟨mid ++ more, hfirst front mid more hmid, hsecond mid out more hout⟩

theorem frames_set (i : Nat) (byte : UInt8) : Frames (set · i byte) := by
  intro front out more h
  dsimp only at h ⊢
  by_cases hi : i < front.length
  · cases (set_eq_ok hi byte).symm.trans h
    rw [set_eq_ok (by rw [List.length_append]; omega), List.set_append_left _ _ hi]
  · rw [set, if_neg hi] at h
    contradiction

theorem frames_copy (start stop : Nat) (data : Bytes) : Frames (copy · start stop data) := by
  intro front out more h
  dsimp only at h ⊢
  by_cases hfits : start ≤ stop ∧ stop ≤ front.length ∧ data.length = stop - start
  · obtain ⟨hle, hstop, hdata⟩ := hfits
    have hroom : data.length ≤ front.length - start := by omega
    have hmore : data.length ≤ (front ++ more).length - start := by
      rw [List.length_append]
      omega
    cases (copy_eq_ok (by omega) hstop).symm.trans h
    rw [copy_eq_ok (by omega) (by rw [List.length_append]; omega), Bytes.overwrite,
      Bytes.overwrite, List.take_of_length_le hroom, List.take_of_length_le hmore,
      List.take_append_of_le_length (by omega), List.drop_append_of_le_length (by omega),
      ← List.append_assoc]
  · rw [copy, if_neg hfits] at h
    contradiction

theorem frames_writeWord (pos : Nat) (w : UInt32) : Frames (writeWord · pos w) := by
  intro front out more h
  obtain ⟨stop, hstop, hcopy⟩ := bind_eq_ok.1 h
  exact bind_eq_ok.2 ⟨stop, hstop, frames_copy pos stop _ front out more hcopy⟩

theorem frames_encodeRecord (record : Record) : Frames (encodeRecord record) :=
  (frames_copy 0 slotSize _).bind <| (frames_set 0 _).bind <| (frames_set 1 _).bind <|
    (frames_copy 2 (2 + maxNameLength + 1) _).bind <| frames_writeWord (slotSize - 4) _

/-- Whatever the target holds, the slot is written to its first sixteen bytes and nowhere else. -/
theorem encodeRecord_over (slot : Slot) {raw : Bytes} (h : slotSize ≤ raw.length) :
    encodeRecord slot.record raw = .ok (slot.encode ++ raw.drop slotSize) := by
  have hlen : (raw.take slotSize).length = slotSize := by
    rw [List.length_take, Nat.min_eq_left h]
  have hframed := frames_encodeRecord slot.record (raw.take slotSize) slot.encode
    (raw.drop slotSize) (encodeSlot_eq slot hlen)
  rwa [List.take_append_drop] at hframed

end Guarded

/-! ## Slots -/

theorem Kind.code_of_ofCode? {code : UInt8} {kind : Kind} (h : ofCode? code = some kind) :
    kind.code = code := by
  rw [ofCode?] at h
  split_ifs at h with h₁ h₂
  · cases h
    exact h₁.symm
  · cases h
    exact h₂.symm

theorem Kind.exists_ofCode?_iff {code : UInt8} :
    (∃ kind, ofCode? code = some kind) ↔ code = 1 ∨ code = 2 := by
  constructor
  · rintro ⟨kind, hkind⟩
    rw [← code_of_ofCode? hkind]
    cases kind
    · exact .inl rfl
    · exact .inr rfl
  · rintro (rfl | rfl)
    · exact ⟨.regular, rfl⟩
    · exact ⟨.directory, rfl⟩

namespace Slot

variable {directory : UInt32} {raw : Bytes}

def Readable (raw : Bytes) : Prop := raw.getD 0 0 = 0 ∨ raw.getD 1 0 = 1 ∨ raw.getD 1 0 = 2

instance (raw : Bytes) : Decidable (Readable raw) := inferInstanceAs (Decidable (_ ∨ _))

/-- A slot as it is written: a free one all zero but for a kind, another one with the flag one and
its tenth name byte zero. -/
def normal (raw : Bytes) : Bytes :=
  if raw.getD 0 0 = 0 then 0 :: 1 :: Bytes.zeros (slotSize - 2)
  else 1 :: (raw.drop 1).take (1 + maxNameLength) ++ 0 :: raw.drop (2 + maxNameLength + 1)

theorem readable_cons {flag code : UInt8} {rest : Bytes} :
    Readable (flag :: code :: rest) ↔ flag = 0 ∨ ∃ kind, Kind.ofCode? code = some kind :=
  or_congr_right Kind.exists_ofCode?_iff.symm

theorem decode_of_not_readable (h : raw.length = slotSize) (hraw : ¬Readable raw) :
    decode directory raw = .error (.corruption directory (.entryKind (raw.getD 1 0))) := by
  obtain ⟨flag, code, rest, rfl, -⟩ := Guarded.exists_fields h
  obtain ⟨hflag, hkind⟩ := not_or.1 (mt readable_cons.2 hraw)
  rw [decode, if_neg hflag, Option.eq_none_iff_forall_ne_some.2 (not_exists.1 hkind)]
  rfl

theorem ofWord_headD_words {bytes : Bytes} (h : bytes.length = 4) :
    Bytes.ofWord (bytes.words.headD 0) = bytes := by
  have hwords := Bytes.flatMap_ofWord_words bytes ⟨1, h⟩
  have hlen := bytes.length_words
  rw [h] at hlen
  obtain ⟨w, hw⟩ := List.length_eq_one_iff.1 hlen
  rw [hw, List.flatMap_singleton] at hwords
  rw [hw, List.headD_cons, hwords]

theorem decode_of_readable (directory : UInt32) (h : raw.length = slotSize) (hraw : Readable raw) :
    ∃ slot, decode directory raw = .ok slot ∧ slot.encode = normal raw := by
  obtain ⟨flag, code, rest, rfl, hrest⟩ := Guarded.exists_fields h
  rw [decode, normal, List.getD_cons_zero]
  by_cases hflag : flag = 0
  · exact ⟨none, if_pos hflag, (if_pos hflag).symm⟩
  · obtain ⟨kind, hkind⟩ := (readable_cons.1 hraw).resolve_left hflag
    rw [if_neg hflag, if_neg hflag, hkind]
    refine ⟨_, rfl, ?_⟩
    let sector := (Bytes.words (rest.drop (maxNameLength + 1))).headD 0
    have hname : Slot.storedName (some (Guarded.entryOf rest kind sector)) = _ :=
      Guarded.storedName_entryOf (by omega) kind sector
    have hsector : Bytes.ofWord sector = rest.drop (maxNameLength + 1) :=
      ofWord_headD_words (by rw [List.length_drop, hrest]; rfl)
    change 1 :: kind.code :: (Slot.storedName (some (Guarded.entryOf rest kind sector)) ++
      Bytes.ofWord sector) = _
    rw [hname, hsector, Kind.code_of_ofCode? hkind, List.drop_succ_cons, List.drop_zero,
      Nat.add_comm 1, List.take_succ_cons, List.append_assoc]
    rfl

theorem normal_encode (slot : Slot) : normal slot.encode = slot.encode := by
  have hback := decode_encode 0 slot
  have hreadable : Readable slot.encode := by
    by_contra hnot
    cases hback.symm.trans (decode_of_not_readable slot.length_encode hnot)
  obtain ⟨again, hagain, hnormal⟩ := decode_of_readable 0 slot.length_encode hreadable
  cases hback.symm.trans hagain
  exact hnormal.symm

end Slot

/-! ## Records -/

namespace InPlace

variable {σ α : Type}

def Answers (x : InPlace σ α) (answer : Except Error α) : Prop := ∀ s, x.exec s = .ok (answer, s)

theorem Answers.unique [Inhabited σ] {x : InPlace σ α} {first second : Except Error α}
    (hfirst : x.Answers first) (hsecond : x.Answers second) : first = second :=
  (Prod.mk.inj (Except.ok.inj ((hfirst default).symm.trans (hsecond default)))).1

def rewriteSlot (directory : UInt32) (raw : Bytes) : InPlace (List Record) Bytes := do
  let record ← decodeRecord directory raw
  Guarded.encodeRecord record raw

end InPlace

namespace Record

variable {directory sector : UInt32} {raw bytes : Bytes} {record : Record} {name : String}
  {kind : Kind} {answer : Except Error Record}

def Makes (name : String) (sector : UInt32) (kind : Kind) (answer : Except Error Record) : Prop :=
  (InPlace.newRecord name sector kind).Answers answer

def Reads (directory : UInt32) (raw : Bytes) (answer : Except Error Record) : Prop :=
  (InPlace.decodeRecord directory raw : InPlace (List Record) Record).Answers answer

inductive Produced : Record → Prop
  | made {name : String} {sector : UInt32} {kind : Kind} {record : Record}
      (h : Makes name sector kind (.ok record)) : Produced record
  | read {directory : UInt32} {raw : Bytes} {record : Record} (hlen : raw.length = slotSize)
      (h : Reads directory raw (.ok record)) : Produced record

/-- The record is written as these bytes, whatever they are written over. -/
def Fills (record : Record) (bytes : Bytes) : Prop :=
  ∀ raw : Bytes, slotSize ≤ raw.length →
    Guarded.encodeRecord record raw = .ok (bytes ++ raw.drop slotSize)

structure Bears (record : Record) (name : String) : Prop where
  stored : Guarded.trimStored record.name = .ok (Bytes.ofText name)
  listed_name : record.listed.name = name
  isNamed_iff : ∀ other, record.isNamed other = true ↔ other = name

theorem reads_decode (directory : UInt32) (h : raw.length = slotSize) :
    Reads directory raw ((Slot.decode directory raw).map Slot.record) :=
  InPlace.exec_decodeRecord h

theorem makes_make (name : String) (sector : UInt32) (kind : Kind) :
    Makes name sector kind
      ((Entry.make name sector kind).map fun entry ↦ Slot.record (some entry)) :=
  InPlace.exec_newRecord name sector kind

theorem Fills.eq {first second : Bytes} (hfirst : record.Fills first)
    (hsecond : record.Fills second) : first = second := by
  have hzeros := (hfirst (Bytes.zeros slotSize) (Nat.le_of_eq (Bytes.length_zeros _).symm)).symm
  exact List.append_cancel_right (Except.ok.inj (hzeros.trans (hsecond _ (Nat.le_refl _))))

theorem fills_encode (slot : Slot) : slot.record.Fills slot.encode :=
  fun _ h ↦ Guarded.encodeRecord_over slot h

theorem reads_encode (directory : UInt32) (slot : Slot) :
    Reads directory slot.encode (.ok slot.record) := by
  have hreads := reads_decode directory slot.length_encode
  rwa [Slot.decode_encode] at hreads

theorem exists_slot_of_reads (h : raw.length = slotSize)
    (hreads : Reads directory raw (.ok record)) :
    ∃ slot, Slot.decode directory raw = .ok slot ∧ slot.record = record :=
  map_eq_ok.1 ((reads_decode directory h).unique hreads)

theorem exists_entry_of_makes (h : Makes name sector kind (.ok record)) :
    ∃ entry, Entry.make name sector kind = .ok entry ∧ Slot.record (some entry) = record :=
  map_eq_ok.1 ((makes_make name sector kind).unique h)

/-- What is produced is one of the records of slots, and these are given back. -/
theorem Produced.exists_slot (h : record.Produced) : ∃ slot : Slot, slot.record = record := by
  cases h with
  | made h =>
    obtain ⟨entry, -, hrecord⟩ := exists_entry_of_makes h
    exact ⟨_, hrecord⟩
  | read hlen h =>
    obtain ⟨slot, -, hrecord⟩ := exists_slot_of_reads hlen h
    exact ⟨slot, hrecord⟩

theorem exists_reads_iff (h : raw.length = slotSize) :
    (∃ record, Reads directory raw (.ok record)) ↔ Slot.Readable raw := by
  constructor
  · rintro ⟨record, hreads⟩
    obtain ⟨slot, hslot, -⟩ := exists_slot_of_reads h hreads
    by_contra hnot
    cases hslot.symm.trans (Slot.decode_of_not_readable h hnot)
  · intro hraw
    obtain ⟨slot, hslot, -⟩ := Slot.decode_of_readable directory h hraw
    have hreads := reads_decode directory h
    rw [hslot] at hreads
    exact ⟨_, hreads⟩

theorem exists_makes_iff : (∃ record, Makes name sector kind (.ok record)) ↔ ProperName name := by
  constructor
  · rintro ⟨record, hmakes⟩
    obtain ⟨entry, hentry, -⟩ := exists_entry_of_makes hmakes
    exact Entry.exists_make_iff.1 ⟨entry, hentry⟩
  · intro hproper
    obtain ⟨entry, hentry⟩ := Entry.exists_make_iff.2 hproper
    have hmakes := makes_make name sector kind
    rw [hentry] at hmakes
    exact ⟨_, hmakes⟩

theorem bears_of_makes (h : Makes name sector kind (.ok record)) : record.Bears name := by
  obtain ⟨entry, hentry, rfl⟩ := exists_entry_of_makes h
  obtain ⟨hname, -, -⟩ := Entry.of_make hentry
  refine ⟨?_, ?_, fun other ↦ ?_⟩
  · rw [Guarded.trimStored_eq, Slot.trimZeros_record, hname]
  · rw [Slot.listed_record]
    exact Entry.label_eq_of_name hname
  · rw [Slot.isNamed_record, Entry.isNamed_iff, hname]
    exact ⟨fun heq ↦ (Bytes.ofText_inj heq).symm, fun heq ↦ by rw [heq]⟩

theorem answers_rewriteSlot (directory : UInt32) (h : raw.length = slotSize) (hraw : Slot.Readable raw) :
    (InPlace.rewriteSlot directory raw).Answers (.ok (Slot.normal raw)) := by
  obtain ⟨slot, hslot, hnormal⟩ := Slot.decode_of_readable directory h hraw
  have hreads := reads_decode directory h
  have hwritten := Guarded.encodeRecord_over slot (Nat.le_of_eq h.symm)
  rw [hslot] at hreads
  rw [hnormal, List.drop_of_length_le (Nat.le_of_eq h), List.append_nil] at hwritten
  intro records
  rw [InPlace.rewriteSlot, InPlace.exec_bind_ok (hreads records)]
  exact congrArg (fun written ↦ InPlace.exec (liftM written) records) hwritten

/-! ## Both ways -/

structure SlotLaw (directory : UInt32) (raw : Bytes) : Prop where
  decoded : Reads directory raw ((Slot.decode directory raw).map Slot.record)
  accepted_iff : (∃ record, Reads directory raw (.ok record)) ↔ Slot.Readable raw
  refused : ¬Slot.Readable raw →
    Reads directory raw (.error (.corruption directory (.entryKind (raw.getD 1 0))))
  rewritten : Slot.Readable raw →
    (InPlace.rewriteSlot directory raw).Answers (.ok (Slot.normal raw))
  settled : Slot.Readable raw → (Slot.normal raw).length = slotSize ∧
    (InPlace.rewriteSlot directory (Slot.normal raw)).Answers (.ok (Slot.normal raw))
  unchanged : ∀ record, Reads directory raw (.ok record) →
    Reads directory (Slot.normal raw) (.ok record)

theorem slotLaw (directory : UInt32) (h : raw.length = slotSize) : SlotLaw directory raw := by
  refine ⟨reads_decode directory h, exists_reads_iff h, fun hnot ↦ ?_, answers_rewriteSlot directory h,
    fun hraw ↦ ?_, fun record hreads ↦ ?_⟩
  · have hreads := reads_decode directory h
    rwa [Slot.decode_of_not_readable h hnot] at hreads
  · obtain ⟨slot, -, hslot⟩ := Slot.decode_of_readable directory h hraw
    have hlen : (Slot.normal raw).length = slotSize := hslot ▸ slot.length_encode
    have hreadable : Slot.Readable (Slot.normal raw) :=
      (exists_reads_iff hlen).1 ⟨_, hslot ▸ reads_encode directory slot⟩
    have hagain := answers_rewriteSlot directory hlen hreadable
    rw [← hslot, Slot.normal_encode] at hagain
    rw [← hslot]
    exact ⟨slot.length_encode, hagain⟩
  · obtain ⟨slot, hslot, rfl⟩ := exists_slot_of_reads h hreads
    obtain ⟨again, hagain, hnormal⟩ := Slot.decode_of_readable directory h
      ((exists_reads_iff h).1 ⟨_, hreads⟩)
    cases hslot.symm.trans hagain
    rw [← hnormal]
    exact reads_encode directory slot

structure NameLaw (directory : UInt32) (name : String) (sector : UInt32) (kind : Kind) : Prop where
  made : Makes name sector kind
    ((Entry.make name sector kind).map fun entry ↦ Slot.record (some entry))
  accepted_iff : (∃ record, Makes name sector kind (.ok record)) ↔ ProperName name
  bears : ∀ record, Makes name sector kind (.ok record) → record.Bears name
  stored : ∀ record bytes back, Makes name sector kind (.ok record) → record.Fills bytes →
    Reads directory bytes (.ok back) → back.Bears name ∧ back.listed = ⟨name, sector, kind⟩
  told_apart : ∀ record bytes otherName otherSector otherKind other,
    Makes name sector kind (.ok record) → Makes otherName otherSector otherKind (.ok other) →
    record.Fills bytes → other.Fills bytes → name = otherName

theorem reads_of_fills (directory : UInt32) (h : record.Produced) (hbytes : record.Fills bytes) :
    bytes.length = slotSize ∧ Reads directory bytes (.ok record) := by
  obtain ⟨slot, rfl⟩ := h.exists_slot
  obtain rfl := hbytes.eq (fills_encode slot)
  exact ⟨slot.length_encode, reads_encode directory slot⟩

theorem nameLaw (directory : UInt32) (name : String) (sector : UInt32) (kind : Kind) :
    NameLaw directory name sector kind := by
  refine ⟨makes_make name sector kind, exists_makes_iff, fun record ↦ bears_of_makes,
    fun record bytes back hmakes hbytes hback ↦ ?_,
    fun record bytes otherName otherSector otherKind other hmakes hother hbytes hsame ↦ ?_⟩
  · obtain ⟨-, hreads⟩ := reads_of_fills directory (.made hmakes) hbytes
    cases hreads.unique hback
    obtain ⟨entry, hentry, hrecord⟩ := exists_entry_of_makes hmakes
    refine ⟨bears_of_makes hmakes, ?_⟩
    rw [← hrecord, Slot.listed_record]
    exact Entry.listed_of_make hentry
  · -- Read again, the bytes are both records, and one record has one name.
    obtain ⟨-, hreads⟩ := reads_of_fills directory (.made hmakes) hbytes
    obtain ⟨-, hagain⟩ := reads_of_fills directory (.made hother) hsame
    cases hreads.unique hagain
    exact (bears_of_makes hmakes).listed_name.symm.trans (bears_of_makes hother).listed_name

/-- Every slot is read if it is free or of a known kind, and normalised when it is written back;
every record that is produced is written over anything and read back as it was; a record is made
under every proper name and no other, and goes by this name alone, stored or not. -/
theorem stored_and_named (directory : UInt32) :
    (∀ raw : Bytes, raw.length = slotSize → SlotLaw directory raw) ∧
    (∀ record, Produced record → ∃ bytes : Bytes, bytes.length = slotSize ∧ record.Fills bytes ∧
      Reads directory bytes (.ok record)) ∧
    ∀ name sector kind, NameLaw directory name sector kind := by
  refine ⟨fun raw h ↦ slotLaw directory h, fun record hproduced ↦ ?_, nameLaw directory⟩
  obtain ⟨slot, rfl⟩ := hproduced.exists_slot
  exact ⟨slot.encode, slot.length_encode, fills_encode slot, reads_encode directory slot⟩

/-- A name of nine bytes in five characters, before and behind bytes that are not its own. -/
theorem stored_and_named_nine :
    Slot.Readable [255, 2, 97, 0, 98, 0, 0, 0, 0, 0, 0, 77, 4, 1, 0, 0] ∧
      (InPlace.rewriteSlot 5 [255, 2, 97, 0, 98, 0, 0, 0, 0, 0, 0, 77, 4, 1, 0, 0]).Answers
        (.ok [1, 2, 97, 0, 98, 0, 0, 0, 0, 0, 0, 0, 4, 1, 0, 0]) ∧
      Reads 5 [1, 3, 97, 0, 0, 0, 0, 0, 0, 0, 0, 0, 4, 0, 0, 0]
        (.error (.corruption 5 (.entryKind 3))) ∧
      ∃ record bytes, Makes "äöüäa" 260 .regular (.ok record) ∧ record.Fills bytes ∧
        Reads 5 bytes (.ok record) ∧ record.isNamed "äöüäa" = true ∧
        record.isNamed "äöüäa\x00" = false ∧
        ¬∃ other, Makes "b\x00" 260 .regular (.ok other) := by
  obtain ⟨hslots, hrecords, hnames⟩ := stored_and_named 5
  have hreadable : Slot.Readable [255, 2, 97, 0, 98, 0, 0, 0, 0, 0, 0, 77, 4, 1, 0, 0] := by decide
  have hproper : ProperName "äöüäa" := by decide +kernel
  have hnul : ¬ProperName "b\x00" := by decide +kernel
  obtain ⟨record, hmakes⟩ := (hnames "äöüäa" 260 .regular).accepted_iff.2 hproper
  obtain ⟨bytes, -, hfills, hreads⟩ := hrecords record (.made hmakes)
  have hbears := (hnames "äöüäa" 260 .regular).bears record hmakes
  refine ⟨hreadable, (hslots _ rfl).rewritten hreadable, (hslots _ rfl).refused (by decide), record,
    bytes, hmakes, hfills, hreads, (hbears.isNamed_iff _).2 rfl, ?_,
    mt (hnames "b\x00" 260 .regular).accepted_iff.1 hnul⟩
  rw [Bool.eq_false_iff, Ne, hbears.isNamed_iff]
  decide

end Record

end SectorFS
