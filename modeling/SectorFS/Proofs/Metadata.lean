import SectorFS.Proofs.Linkage
import SectorFS.Proofs.Tree.Marked
import SectorFS.Proofs.Tree.Walks

namespace SectorFS

open Layout

namespace Device

/-- The stored free map and the tables of the directories found from the root are what they were. -/
structure SameMetadata (before after : Device) : Prop where
  map : SameMap before after
  tables : SameTables before after

structure SameWalks (before after : Device) : Prop where
  reaches : ∀ here, after.Reaches here ↔ before.Reaches here
  links : ∀ here, after.Reaches here →
    ∃ parent table, after.HasTable here table ∧ table.Linked here parent
  resolve : ∀ start path, before.Reaches start →
    Path.resolve start path after = Path.resolve start path before
  lookup : ∀ (session : Session) path, before.Reaches session.directory →
    Volume.lookup session path after = Volume.lookup session path before

theorem hasTable_iff {device : Device} {s : UInt32} {file : File} {table : Directory}
    (hf : device.faults = {}) (hopen : device.openFile s = .ok file) (hon : file.OnDevice device) :
    device.HasTable s table ↔ file.length = directoryFileSize ∧
      table.capacity = directorySlots ∧ Directory.Spells s (file.contents device) table.slots := by
  obtain ⟨rfl, -⟩ := openFile_eq_ok_iff.1 hopen
  have hread : file.length = directoryFileSize →
      file.read directoryFileSize 0 device = .ok (file.contents device) := by
    intro hlen
    rw [File.read_eq hf hon, List.drop_zero, ← hlen, ← file.length_contents device,
      List.take_length]
  constructor
  · rintro ⟨other, hother, hlen⟩
    obtain ⟨hsame, htable⟩ := openDirectory_eq_ok_iff.1 hother
    cases hopen.symm.trans hsame
    obtain ⟨bytes, hbytes, -, hcap, hspells⟩ := File.readDirectory_eq_ok_iff.1 htable
    cases hbytes.symm.trans (hread hlen)
    exact ⟨hlen, hcap, hspells⟩
  · rintro ⟨hlen, hcap, hspells⟩
    refine ⟨file, openDirectory_eq_ok_iff.2 ⟨hopen, File.readDirectory_eq_ok_iff.2
      ⟨_, hread hlen, ?_, hcap, hspells⟩⟩, hlen⟩
    rw [File.length_contents, hlen]

end Device

namespace Tree

variable {tree : Tree} {before after : Device}

theorem Alike.sameMetadata (h : tree.Alike before after) (hstored : tree.Stored before) :
    before.SameMetadata after := by
  refine ⟨h.map, fun here table hreach htable ↦ ?_⟩
  obtain ⟨parent, hdir⟩ := hstored.reaches_iff.1 hreach
  exact h.tables here parent table hdir htable

theorem Frame.alike_of_sameMetadata {touched : UInt32 → Prop}
    (frame : tree.Frame before after touched) (hf : before.faults = {}) (hf' : after.faults = {})
    (h : tree.Stored before) (hsame : before.SameMetadata after) : tree.Alike before after :=
  ⟨fun _ ↦ frame.readHeader_eq hf hf', fun here parent table hdir htable ↦
    hsame.tables here table (h.reaches_iff.2 ⟨parent, hdir⟩) htable, hsame.map⟩

theorem Alike.sameWalks (h : tree.Alike before after) (hstored : tree.Stored before)
    (hroom : numSectors ≤ after.blocks.size) : before.SameWalks after := by
  have hafter := h.stored hstored hroom
  refine ⟨fun here ↦ by rw [hafter.reaches_iff, hstored.reaches_iff], fun here hreach ↦ ?_,
    fun start path hreach ↦ ?_, fun session path hreach ↦ ?_⟩
  · obtain ⟨parent, hdir⟩ := hafter.reaches_iff.1 hreach
    obtain ⟨table, htable, hlinked, -⟩ := hafter.tables here parent hdir
    exact ⟨parent, table, htable, hlinked⟩
  · obtain ⟨parent, hdir⟩ := hstored.reaches_iff.1 hreach
    exact h.resolve_eq hstored hdir path
  · obtain ⟨parent, hdir⟩ := hstored.reaches_iff.1 hreach
    exact h.lookup_eq hstored hdir path

end Tree

/-- If the file is that of a directory found from the root, its bytes with the data laid over them
still spell the table that the directory has. -/
def File.Respells (file : File) (device : Device) (data : Bytes) (pos : Nat) : Prop :=
  ∀ table, device.Reaches file.sector → device.HasTable file.sector table →
    Directory.Spells file.sector ((file.contents device).overwrite pos data) table.slots

structure Device.Rewritten (before after : Device) (file : File) (data : Bytes) (pos : Nat) :
    Prop where
  map : before.SameMap after
  others : ∀ here table, here ≠ file.sector → before.Reaches here → before.HasTable here table →
    after.HasTable here table
  spells : before.SameMetadata after ↔ file.Respells before data pos
  walks : before.SameMetadata after → before.SameWalks after

namespace Machine

variable {machine : Machine} {volume : Volume} {tree : Tree} {request : Request}
  {requests rest : List Request} {regular : List Nat} {handle : Nat} {call : HandleCall}
  {opened : OpenFile} {data : Bytes} {pos : Nat}

/-! ## One write -/

theorem Sound.rewritten (h : machine.Sound volume tree)
    (hget : volume.openTable.get? handle = some opened) (data : Bytes) (pos : Nat) :
    machine.host.device.Rewritten
      (machine.host.device.edit (opened.file.rewrites machine.host.device data pos)) opened.file
      data pos := by
  obtain ⟨hmem, hopen⟩ := h.current.opened handle opened hget
  obtain ⟨hon, hnodup⟩ := h.onDevice_opened hget
  have hsector := (Device.openFile_eq_ok_iff.1 hopen).1
  have hframe := h.frame_write hget data pos
  have hf' := Device.faults_edit h.faultFree (opened.file.rewrites machine.host.device data pos)
  set after := machine.host.device.edit (opened.file.rewrites machine.host.device data pos)
  have hmap : machine.host.device.SameMap after := by
    refine fun map ↦ hframe.hasMap h.faultFree hf' fun heq ↦ ?_
    exact (List.nodup_cons.1 h.stored.nodup_sectors).1 (heq ▸ hmem)
  have hothers : ∀ here table, here ≠ opened.file.sector → machine.host.device.Reaches here →
      machine.host.device.HasTable here table → after.HasTable here table := by
    intro here table hne hreach
    obtain ⟨parent, hdir⟩ := h.stored.reaches_iff.1 hreach
    exact hframe.hasTable h.faultFree hf' hdir fun heq ↦ hne (heq.trans hsector.symm)
  have hopen' : after.openFile opened.sector = .ok opened.file :=
    (hframe.openFile_eq h.faultFree hf' (List.mem_cons_of_mem _ hmem)).trans hopen
  have hcontents : opened.file.contents after =
      (opened.file.contents machine.host.device).overwrite pos data :=
    File.contents_rewrites hnodup hon data pos
  rw [← hsector] at hopen hopen'
  have hnow := fun table ↦ @Device.hasTable_iff _ _ _ table hf' hopen'
    fun s hs ↦ Device.has_edit.2 (hon s hs)
  -- Only the table in the file itself is at stake, and it is read from the new contents.
  refine ⟨hmap, hothers, ⟨fun hsame table hreach htable ↦ ?_, fun hspells ↦ ⟨hmap, ?_⟩⟩, ?_⟩
  · exact hcontents ▸ ((hnow table).1 (hsame.tables _ _ hreach htable)).2.2
  · intro here table hreach htable
    by_cases hhere : here = opened.file.sector
    · subst hhere
      obtain ⟨hlen, hcap, -⟩ := (Device.hasTable_iff h.faultFree hopen hon).1 htable
      exact (hnow table).2 ⟨hlen, hcap, hcontents ▸ hspells table hreach htable⟩
    · exact hothers here table hhere hreach htable
  · intro hsame
    exact (hframe.alike_of_sameMetadata h.faultFree hf' h.stored hsame).sameWalks h.stored
      (hframe.size ▸ h.stored.room)

/-! ## Runs with writes through any handle -/

def permits (machine : Machine) : Request → Bool
  | .call .. => true
  | request => machine.admits [] request

def orderly (machine : Machine) : List Request → Bool
  | [] => true
  | request :: rest => machine.permits request && orderly (step request machine).2 rest

def Harmless (machine : Machine) : List Request → Prop
  | [] => True
  | request :: rest =>
    (∀ handle call, request = .call handle call →
      machine.host.device.SameMetadata (step request machine).2.host.device) ∧
    Harmless (step request machine).2 rest

theorem Sound.of_call (h : machine.Sound volume tree) (hharmless :
      machine.host.device.SameMetadata (step (.call handle call) machine).2.host.device) :
    ∃ left grown, (step (.call handle call) machine).2.Sound left grown := by
  refine ⟨_, tree, h.called ?_⟩
  rcases h.device_call handle call with ⟨hsame, -⟩ | ⟨opened, data, pos, hget, -, hdevice⟩
  · exact hsame ▸ .refl _ _
  · rw [hdevice] at hharmless ⊢
    exact (h.frame_write hget _ _).alike_of_sameMetadata h.faultFree
      (Device.faults_edit h.faultFree _) h.stored hharmless

theorem admits_of_permits (h : ∀ handle call, request ≠ .call handle call)
    (hpermits : machine.permits request = true) : machine.admits [] request = true := by
  cases request with
  | call handle call => exact absurd rfl (h handle call)
  | _ => exact hpermits

theorem Sound.orderly_step (h : machine.Sound volume tree) (hpermits : machine.permits request = true)
    (hharmless : ∀ handle call, request = .call handle call →
      machine.host.device.SameMetadata (step request machine).2.host.device) :
    ∃ left grown, (step request machine).2.Sound left grown := by
  by_cases hcall : ∃ handle call, request = .call handle call
  · obtain ⟨handle, call, rfl⟩ := hcall
    exact h.of_call (hharmless handle call rfl)
  · have hadmits := admits_of_permits (fun handle call heq ↦ hcall ⟨handle, call, heq⟩) hpermits
    obtain ⟨left, grown, hsound, -⟩ := h.leads_step h.knowsRegular_nil hadmits
    exact ⟨left, grown, hsound⟩

theorem Sound.orderly_run (h : machine.Sound volume tree) (hd : orderly machine requests = true)
    (hharmless : Harmless machine requests) :
    ∃ left grown, (Machine.run requests machine).2.Sound left grown := by
  induction requests generalizing machine volume tree with
  | nil => exact ⟨volume, tree, h⟩
  | cons request requests ih =>
    rw [orderly, Bool.and_eq_true] at hd
    obtain ⟨left, grown, hsound⟩ := h.orderly_step hd.1 hharmless.1
    exact ih hsound hd.2 hharmless.2

/-- A disciplined run writes to regular files alone, and harms nothing. -/
theorem Sound.harmless (h : machine.Sound volume tree) (hknows : KnowsRegular regular volume tree)
    (hd : disciplined regular machine requests = true) : Harmless machine requests := by
  induction requests generalizing regular machine volume tree with
  | nil => trivial
  | cons request requests ih =>
    obtain ⟨hadmits, hrest⟩ := disciplined_cons.1 hd
    obtain ⟨left, grown, hsound, hleft, -⟩ := h.leads_step hknows hadmits
    refine ⟨?_, ih hsound hleft hrest⟩
    rintro handle call rfl
    exact (h.alike_call hknows hadmits).sameMetadata h.stored

/-- As long as no call has changed the metadata, a write leaves the free map and all directories but
the one that its handle may be bound to. It leaves that one too just in case the bytes still spell
its table, and then every directory keeps its links and every path leads where it led. -/
theorem sameMetadata_iff_of_orderly {device : Device} (h : device.Ready)
    (hd : orderly (step .format (start device)).2 requests = true)
    (hharmless : Harmless (step .format (start device)).2 requests)
    (hrun : (run (.format :: requests) (start device)).2 = machine)
    (hopened : machine.opened? handle = some opened)
    (hwrites : call.writes? opened.cursor = some (data, pos)) :
    ∃ count after, step (.call handle call) machine = (.ok (.ofHandle (.number count)), after) ∧
      machine.host.device.Rewritten after.host.device opened.file data pos := by
  obtain ⟨-, volume, hstart⟩ := sound_format h
  obtain ⟨left, tree, hsound⟩ := hstart.orderly_run hd hharmless
  rw [show (run requests (step .format (start device)).2).2 = machine from hrun] at hsound
  rw [hsound.opened?_eq] at hopened
  obtain ⟨log, hstep⟩ := hsound.step_call_of_bound hopened call
  rw [OpenFile.replyTo_of_writes hwrites, OpenFile.editsOf, hwrites] at hstep
  exact ⟨_, _, hstep, hsound.rewritten hopened data pos⟩

/-- A file is written, and then the root is opened as if it were one. -/
def scribbles : List Request :=
  [.createFile 0 "a" 200, .openFile 0 "a", .call 0 (.write [1, 2, 3]), .openFile 0 "."]

theorem sameMetadata_iff_of_orderly_scribbles :
    (Device.blank 1024 128).Ready ∧
      orderly (step .format (start (.blank 1024 128))).2 scribbles = true ∧
      Harmless (step .format (start (.blank 1024 128))).2 scribbles ∧
      ∃ machine opened count after,
        (run (.format :: scribbles) (start (.blank 1024 128))).2 = machine ∧
        machine.opened? 1 = some opened ∧
        step (.call 1 (.writeAt [1, 2] 0)) machine = (.ok (.ofHandle (.number count)), after) ∧
        machine.host.device.Rewritten after.host.device opened.file [1, 2] 0 := by
  have hready : (Device.blank 1024 128).Ready := ⟨rfl, rfl, Nat.le_refl _, Array.size_replicate.symm⟩
  have hd : orderly (step .format (start (.blank 1024 128))).2 scribbles = true := by
    decide +kernel
  have hdisciplined : disciplined [] (step .format (start (.blank 1024 128))).2 scribbles = true := by
    decide +kernel
  obtain ⟨-, volume, hsound⟩ := sound_format hready
  have hharmless := hsound.harmless hsound.knowsRegular_nil hdisciplined
  have hopen : ((run (.format :: scribbles) (start (.blank 1024 128))).2.opened? 1).isSome = true := by
    decide +kernel
  obtain ⟨opened, hopened⟩ := Option.isSome_iff_exists.1 hopen
  have hwrites : (HandleCall.writeAt [1, 2] 0).writes? opened.cursor = some ([1, 2], 0) := rfl
  obtain ⟨count, after, hstep⟩ :=
    sameMetadata_iff_of_orderly hready hd hharmless rfl hopened hwrites
  exact ⟨hready, hd, hharmless, _, opened, count, after, rfl, hopened, hstep⟩

/-- A byte written through the handle of the root takes the link to itself out of its table. -/
theorem not_sameMetadata_dotless :
    (Device.blank 1024 128).Ready ∧
      orderly (step .format (start (.blank 1024 128))).2 [.openFile 0 "."] = true ∧
      (run [.format, .openFile 0 ".", .call 0 (.writeAt [0] 0), .listRoot]
        (start (.blank 1024 128))).1 = [.ok .done, .ok (.number 0), .ok (.ofHandle (.number 1)),
          .ok (.entries [⟨"..", 1, .directory⟩])] ∧
      ¬(run [.format, .openFile 0 "."] (start (.blank 1024 128))).2.host.device.SameMetadata
        (run [.format, .openFile 0 ".", .call 0 (.writeAt [0] 0)]
          (start (.blank 1024 128))).2.host.device := by
  refine ⟨⟨rfl, rfl, Nat.le_refl _, Array.size_replicate.symm⟩, by decide +kernel,
    by decide +kernel, ?_⟩
  have hseen : ((run [.format, .openFile 0 "."] (start (.blank 1024 128))).2.host.device.openDirectory
        rootSector).map (fun found ↦ (found.1.length, found.2.list.length)) = .ok (160, 2) ∧
      ((run [.format, .openFile 0 ".", .call 0 (.writeAt [0] 0)]
        (start (.blank 1024 128))).2.host.device.openDirectory rootSector).map
          (fun found ↦ (found.1.length, found.2.list.length)) = .ok (160, 1) := by
    decide +kernel
  generalize (run [.format, .openFile 0 "."] (start (.blank 1024 128))).2.host.device = before at *
  generalize (run [.format, .openFile 0 ".", .call 0 (.writeAt [0] 0)]
    (start (.blank 1024 128))).2.host.device = after at *
  obtain ⟨hbefore, hafter⟩ := hseen
  intro hsame
  cases hopen : before.openDirectory rootSector with
  | error error => rw [hopen] at hbefore; contradiction
  | ok found =>
    obtain ⟨file, table⟩ := found
    rw [hopen] at hbefore
    obtain ⟨hlen, hcount⟩ := Prod.mk.inj (Except.ok.inj hbefore)
    obtain ⟨now, hnow, -⟩ := hsame.tables rootSector table .root ⟨file, hopen, hlen⟩
    rw [hnow] at hafter
    have hless := (Prod.mk.inj (Except.ok.inj hafter)).2
    exact absurd (hcount.symm.trans hless) (by decide)

end Machine

end SectorFS
