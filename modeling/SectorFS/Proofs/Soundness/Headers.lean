import SectorFS.Proofs.Soundness.Runs

namespace SectorFS

open Layout

namespace Device

variable {before middle after : Device} {kept : List UInt32}

def Spares (before after : Device) (kept : List UInt32) : Prop :=
  ∃ edits : List Edit, after.blocks = (before.edit edits).blocks ∧
    after.written = before.written ++ edits.map Prod.fst ∧ ∀ edit ∈ edits, edit.1 ∉ kept

theorem spares_edit {edits : List Edit} (h : ∀ edit ∈ edits, edit.1 ∉ kept) :
    before.Spares (before.edit edits) kept :=
  ⟨edits, rfl, written_edit before edits, h⟩

theorem spares_of_eq (hblocks : after.blocks = before.blocks)
    (hwritten : after.written = before.written) (kept : List UInt32) : before.Spares after kept :=
  ⟨[], hblocks, by rw [hwritten, List.map_nil, List.append_nil], nofun⟩

theorem Spares.trans (h : before.Spares middle kept) (h' : middle.Spares after kept) :
    before.Spares after kept := by
  obtain ⟨first, hblocks, hwritten, hfirst⟩ := h
  obtain ⟨second, hblocks', hwritten', hsecond⟩ := h'
  refine ⟨first ++ second, ?_, ?_, fun edit hedit ↦ ?_⟩
  · rw [hblocks', edit_append, blocks_edit_congr hblocks]
  · rw [hwritten', hwritten, List.map_append, List.append_assoc]
  · exact (List.mem_append.1 hedit).elim (hfirst edit) (hsecond edit)

theorem Spares.mono {more : List UInt32} (h : before.Spares after more)
    (hsub : ∀ s ∈ kept, s ∈ more) : before.Spares after kept := by
  obtain ⟨edits, hblocks, hwritten, hedits⟩ := h
  exact ⟨edits, hblocks, hwritten, fun edit hedit hmem ↦ hedits edit hedit (hsub _ hmem)⟩

end Device

/-- The data of the files of a tree is apart from their headers. -/
theorem Tree.Stored.not_mem_sectors {tree : Tree} {device : Device} (h : tree.Stored device)
    {s t : UInt32} (hs : s ∈ tree.sectors) (ht : t ∈ device.dataSectors s) : t ∉ tree.sectors := by
  intro hmem
  obtain rfl := h.eq_of_mem_footprint hmem hs (Device.mem_footprint_self _ _)
    (List.mem_cons_of_mem _ ht)
  exact (List.nodup_cons.1 (h.nodup_footprint hmem)).1 ht

theorem Tree.Site.not_mem_sectors {tree : Tree} {device : Device} {freeMapFile parentFile : File}
    {here above t : UInt32} {table : Directory} {stored : FreeMap}
    (site : tree.Site device freeMapFile parentFile here above table stored)
    (ht : t ∈ parentFile.header.dataSectors ∨ t ∈ freeMapFile.header.dataSectors) :
    t ∉ tree.sectors := by
  rcases ht with ht | ht
  · rw [← Device.dataSectors_of_openFile site.openFile_parent] at ht
    exact site.sound.not_mem_sectors site.inside.mem_sectors ht
  · rw [← Device.dataSectors_of_openFile site.mapped] at ht
    exact site.sound.not_mem_sectors tree.freeMapSector_mem ht

def Request.keepsBlocks : Request → Bool
  | .format | .createFile .. | .createDirectory .. | .remove .. | .call .. => false
  | _ => true

namespace Machine

namespace Step

variable {α β : Type} {x : Step α} {f : α → Step β} {operation : Operation α}

def Still (x : Step α) : Prop := ∀ machine, (x.run machine).2.host.device = machine.host.device

theorem Quiet.still (h : x.Quiet) : x.Still := fun machine ↦ (h machine).device

theorem still_pure (a : α) : (pure a : Step α).Still := (quiet_pure a).still

theorem still_volume : Step.volume.Still := quiet_volume.still

theorem still_session (index : Nat) : (Step.session index).Still := (quiet_session index).still

theorem still_operate (h : operation.Quiet) : (operate operation).Still := (quiet_operate h).still

theorem still_setVolume (volume : Volume) : (setVolume volume).Still := fun _ ↦ rfl

theorem still_addSession (session : Session) : (Step.addSession session).Still := fun _ ↦ rfl

theorem still_setSession (index : Nat) (session : Session) : (setSession index session).Still :=
  fun _ ↦ rfl

theorem Still.bind (h : x.Still) (h' : ∀ a, (f a).Still) : (x >>= f).Still := by
  intro machine
  have hfirst := h machine
  rw [run_bind]
  cases hr : x.run machine with
  | mk outcome after =>
    rw [hr] at hfirst
    cases outcome with
    | error failure => exact hfirst
    | ok a => exact (h' a after).trans hfirst

theorem still_operateOn {operation : Volume → Operation (α × Volume)}
    (h : ∀ volume, (operation volume).Quiet) : (operateOn operation).Still :=
  still_volume.bind fun volume ↦ (still_operate (h volume)).bind fun _ ↦
    (still_setVolume _).bind fun _ ↦ still_pure _

end Step

open Step

variable {machine : Machine} {volume : Volume} {tree : Tree} {request : Request}
  {requests : List Request} {regular : List Nat} {index handle : Nat} {path : String}
  {call : HandleCall}

theorem Sound.spares_create (h : machine.Sound volume tree) {kind : Kind} {size : Nat}
    (hsized : kind = .directory → size = directoryFileSize) :
    machine.host.device.Spares ((onTree index fun volume session ↦
      volume.createEntry session path kind size).run machine).2.host.device tree.sectors := by
  generalize hrun : (onTree index fun volume session ↦
    volume.createEntry session path kind size).run machine = answered
  obtain ⟨answer, after⟩ := answered
  rcases h.create_cases hsized hrun with
    ⟨hsame, -⟩ | ⟨session, creation, here, above, entry, name, old, stored, -, -, m⟩
  · exact Device.spares_of_eq (congrArg _ hsame.device) (congrArg _ hsame.device) _
  · have p := m.placed
    rw [m.writes.device]
    refine Device.spares_edit fun edit hedit ↦ ?_
    rcases List.mem_append.1 hedit with hedit | hedit
    · rcases List.mem_append.1 hedit with hedit | hedit
      · intro hmem
        exact p.fresh (Creation.mem_footprint_of_mem_freshEdits hedit)
          (Tree.mem_owned.2 ⟨_, hmem, Device.mem_footprint_self _ _⟩)
      · exact p.site.not_mem_sectors (.inl (Creation.mem_of_mem_parentEdits hedit))
    · exact p.site.not_mem_sectors (.inr (Creation.mem_of_mem_mapEdits hedit))

theorem Sound.spares_remove (h : machine.Sound volume tree) :
    machine.host.device.Spares ((onTree index fun volume session ↦
      volume.remove session path).run machine).2.host.device tree.sectors := by
  generalize hrun : (onTree index fun volume session ↦
    volume.remove session path).run machine = answered
  obtain ⟨answer, after⟩ := answered
  rcases h.remove_cases hrun with ⟨hsame, -⟩ |
    ⟨session, removal, here, above, entry, header, stored, map, table, -, -, -, p, hwrites⟩
  · exact Device.spares_of_eq (congrArg _ hsame.device) (congrArg _ hsame.device) _
  · rw [hwrites.device]
    refine Device.spares_edit fun edit hedit ↦ ?_
    rcases List.mem_append.1 hedit with hedit | hedit
    · exact p.site.not_mem_sectors (.inr (Removal.mem_of_mem_mapEdits hedit))
    · exact p.site.not_mem_sectors (.inl (Removal.mem_of_mem_parentEdits hedit))

/-- A call writes at most to the data of the file that its handle is bound to. -/
theorem Sound.spares_call (h : machine.Sound volume tree) (handle : Nat) (call : HandleCall) :
    machine.host.device.Spares (step (.call handle call) machine).2.host.device tree.sectors := by
  rcases h.device_call handle call with ⟨hsame, -⟩ | ⟨opened, data, pos, hget, -, hdevice⟩
  · exact Device.spares_of_eq (congrArg _ hsame) (congrArg _ hsame) _
  · rw [hdevice]
    exact Device.spares_edit fun edit hedit ↦
      h.stored.not_mem_sectors (h.mem_sectors_opened hget) (h.mem_dataSectors_opened hget hedit)

theorem Sound.blocks_step (h : machine.Sound volume tree) (hkeeps : request.keepsBlocks = true) :
    (step request machine).2.host.device.blocks = machine.host.device.blocks ∧
      (step request machine).2.host.device.written = machine.host.device.written := by
  have hstill : (answer request).Still →
      (step request machine).2.host.device.blocks = machine.host.device.blocks ∧
        (step request machine).2.host.device.written = machine.host.device.written := fun hstill ↦
    ⟨congrArg _ (hstill machine), congrArg _ (hstill machine)⟩
  by_cases hquestion : request.isQuestion = true
  · have hsame := sameState_step hquestion machine
    exact ⟨congrArg _ hsame.device, congrArg _ hsame.device⟩
  · cases request with
    | mount =>
      exact hstill ((still_operate ((Operation.quiet_query _).bind fun _ ↦
        (Operation.quiet_notes _).bind fun _ ↦ Operation.quiet_pure _)).bind fun _ ↦
          (still_setVolume _).bind fun _ ↦ still_pure _)
    | newSession =>
      exact hstill (still_volume.bind fun _ ↦ (still_addSession _).bind fun _ ↦ still_pure _)
    | addSession session => exact hstill ((still_addSession session).bind fun _ ↦ still_pure _)
    | setDirectory index sector =>
      exact hstill ((still_session index).bind fun _ ↦ (still_setSession _ _).bind fun _ ↦
        still_pure _)
    | openFile index path =>
      exact hstill (still_volume.bind fun _ ↦ (still_session index).bind fun session ↦
        (still_operateOn fun volume ↦ volume.quiet_openFile session path).bind fun _ ↦ still_pure _)
    | closeAll =>
      exact hstill ((still_operateOn fun volume ↦ Volume.quiet_withTable
        ((Operation.quiet_notes _).bind fun _ ↦ (Operation.quiet_notes _).bind fun _ ↦
          Operation.quiet_pure _)).bind fun _ ↦ still_pure _)
    | enter index path =>
      exact hstill (still_volume.bind fun _ ↦ (still_session index).bind fun session ↦
        (still_operate (Volume.quiet_enter session path)).bind fun _ ↦
          (still_setSession _ _).bind fun _ ↦ still_pure _)
    | sync =>
      have hflush : ((Operation.act Action.flush).run machine.host).2.device =
          { machine.host.device with flushes := machine.host.device.flushes + 1 } :=
        congrArg Prod.snd (Action.run_flush h.faultFree)
      rw [step_sync, h.mounted]
      dsimp only
      rw [hflush]
      exact ⟨rfl, rfl⟩
    | format | createFile | createDirectory | remove | call => contradiction
    | _ => exact absurd rfl hquestion

/-- A request writes to the header of no file in use. -/
theorem Sound.spares_step (h : machine.Sound volume tree)
    (hadmits : machine.admits regular request = true) :
    machine.host.device.Spares (step request machine).2.host.device tree.sectors := by
  by_cases hkeeps : request.keepsBlocks = true
  · exact Device.spares_of_eq (h.blocks_step hkeeps).1 (h.blocks_step hkeeps).2 _
  · cases request with
    | format => contradiction
    | createFile index path size => exact h.spares_create nofun
    | createDirectory index path => exact h.spares_create fun _ ↦ rfl
    | remove index path => exact h.spares_remove
    | call handle call => exact h.spares_call handle call
    | _ => exact absurd rfl hkeeps

abbrev wellKnown : List UInt32 := [freeMapSector, rootSector]

theorem Sound.spares_run (h : machine.Sound volume tree) (hknows : KnowsRegular regular volume tree)
    (hd : disciplined regular machine requests = true) :
    machine.host.device.Spares (Machine.run requests machine).2.host.device wellKnown := by
  induction requests generalizing regular machine volume tree with
  | nil => exact Device.spares_of_eq rfl rfl _
  | cons request rest ih =>
    obtain ⟨hadmits, hrest⟩ := disciplined_cons.1 hd
    obtain ⟨left, grown, hsound, hleft, -⟩ := h.leads_step hknows hadmits
    refine ((h.spares_step hadmits).mono fun s hs ↦ ?_).trans (ih hsound hleft hrest)
    rcases List.mem_cons.1 hs with rfl | hs
    · exact tree.freeMapSector_mem
    · rw [List.mem_singleton.1 hs]
      exact (Tree.hasDirectory_root tree).mem_sectors

end Machine

end SectorFS
