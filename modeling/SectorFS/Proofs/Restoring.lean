import SectorFS.Proofs.Disclosure
import SectorFS.Proofs.Removing
import SectorFS.Proofs.Soundness.Spelled
import SectorFS.Proofs.Tree.Undo

namespace SectorFS

open Layout

namespace Machine

/-- The request opens a file, or it is a call on a handle of the file whose header is stored at
`sector` or of none. -/
def concerns (machine : Machine) (sector : UInt32) : Request → Bool
  | .openFile .. => true
  | .call handle _ => (machine.opened? handle).all fun opened ↦ opened.sector == sector
  | _ => false

def attends (sector : UInt32) : List Request → Machine → Bool
  | [], _ => true
  | request :: rest, machine =>
    machine.concerns sector request && attends sector rest (step request machine).2

structure Tended (tree : Tree) (sector : UInt32) (machine after : Machine) : Prop where
  sound : ∃ left, after.Sound left tree
  sessions : after.sessions = machine.sessions
  alike : tree.Alike machine.host.device after.host.device
  same : machine.host.device.SameOutside after.host.device (machine.host.device.dataSectors sector)

variable {machine middle after created later : Machine} {volume left : Volume} {tree : Tree}
  {node : Node} {request : Request} {requests : List Request} {sector : UInt32}

theorem Tended.of_device (hsound : after.Sound left tree)
    (hsessions : after.sessions = machine.sessions)
    (hdevice : after.host.device = machine.host.device) : Tended tree sector machine after :=
  ⟨⟨left, hsound⟩, hsessions, hdevice ▸ .refl _ _, hdevice ▸ .refl _ _⟩

theorem Tended.trans (h : Tended tree sector machine middle) (h' : Tended tree sector middle after)
    (hsector : sector ∈ tree.sectors) : Tended tree sector machine after := by
  have hsame := h'.same
  rw [h.alike.dataSectors_eq hsector] at hsame
  exact ⟨h'.sound, h'.sessions.trans h.sessions, h.alike.trans h'.alike, h.same.trans hsame⟩

/-- Opening files, and calls on one regular file, change nothing but the data of this file. -/
theorem Sound.tended_step (h : machine.Sound volume tree) (hnode : node ∈ tree)
    (hkind : node.entry.kind = .regular) (hconcerns : machine.concerns node.sector request = true) :
    Tended tree node.sector machine (step request machine).2 := by
  cases request with
  | openFile index path =>
    cases hrun : step (.openFile index path) machine with
    | mk answer after =>
      rcases h.openFile_cases hrun with
        ⟨hsame, -⟩ | ⟨_, _, _, _, _, -, -, -, -, hdevice, hsessions, hsound, -⟩
      · exact .of_device (h.sameState hsame) hsame.sessions hsame.device
      · exact .of_device hsound hsessions hdevice
  | call handle call =>
    rw [concerns, h.opened?_eq] at hconcerns
    have hbound : ∀ opened, volume.openTable.get? handle = some opened →
        opened.sector = node.sector := by
      intro opened hget
      rw [hget] at hconcerns
      exact beq_iff_eq.1 hconcerns
    -- As the only handle known to be a regular file's, this one may be used for any call.
    have hknows : KnowsRegular [handle] volume tree := by
      intro other hother opened hget
      obtain rfl := List.mem_singleton.1 hother
      exact ⟨node, hnode, hkind, (hbound opened hget).symm⟩
    have hadmits : machine.admits [handle] (.call handle call) = true := by
      cases call <;> simp [admits]
    have halike := h.alike_call hknows hadmits
    refine ⟨⟨_, h.called halike⟩, (h.table_call handle call).2, halike, ?_⟩
    rcases h.device_call handle call with ⟨hsame, -⟩ | ⟨opened, data, pos, hget, -, hdevice⟩
    · exact hsame ▸ .refl _ _
    · rw [hdevice, ← hbound opened hget]
      refine ⟨Device.size_edit _ _, fun t ht ↦ Device.block?_edit_of_ne ?_⟩
      rintro edit hedit rfl
      exact ht (h.mem_dataSectors_opened hget hedit)
  | _ => contradiction

theorem Sound.tended_run (h : machine.Sound volume tree) (hnode : node ∈ tree)
    (hkind : node.entry.kind = .regular) (hattends : attends node.sector requests machine = true) :
    Tended tree node.sector machine (Machine.run requests machine).2 := by
  induction requests generalizing machine volume with
  | nil => exact .of_device h rfl rfl
  | cons request rest ih =>
    rw [attends, Bool.and_eq_true] at hattends
    have hstep := h.tended_step hnode hkind hattends.1
    obtain ⟨left, hleft⟩ := hstep.sound
    exact hstep.trans (ih hleft hattends.2) (Tree.mem_sectors_of_mem hnode)

section Restores

variable {index : Nat} {path : String} {session : Session} {kind : Kind} {size : Nat}
  {creation : Creation} {here above : UInt32} {entry : Entry} {name : String} {old : Directory}
  {stored : FreeMap}

theorem Makes.found (m : Makes machine created volume tree session path kind size creation here
      above entry name old stored) (hs : machine.sessions[index]? = some session)
    (t : Tended (⟨here, entry⟩ :: tree) entry.sector created later) :
    ∃ left file, later.Sound left (⟨here, entry⟩ :: tree) ∧ left.freeMapFile = volume.freeMapFile ∧
      Removal.find session path later.host.device =
        .ok ⟨name, entry.sector, file, creation.parent⟩ ∧
      Removal.Found ⟨name, entry.sector, file, creation.parent⟩ later.host.device here entry := by
  obtain ⟨left, hleft⟩ := t.sound
  obtain ⟨up, hup⟩ := m.sound.sessions session (m.writes.sessions ▸ Array.mem_of_getElem? hs)
  have hdir : Tree.HasDirectory (⟨here, entry⟩ :: tree) here above := m.placed.inside.cons
  obtain ⟨file, hopen, -⟩ := m.grafted.becomes
  have hmap : left.freeMapFile = volume.freeMapFile := by
    have hopened := t.alike.openFile_eq (Tree.freeMapSector_mem (⟨here, entry⟩ :: tree))
    rw [hleft.current.map, m.sound.current.map] at hopened
    exact Except.ok.inj hopened
  exact ⟨left, file, hleft, hmap, Removal.find_eq_ok
    ((t.alike.locate_eq m.sound.stored hup path).trans m.located)
    ((t.alike.openDirectory_eq m.sound.stored hdir).trans hopen) m.find?_parent m.grafted.unlinked⟩

/-- A removal that finds what was created and tended undoes the creation. -/
theorem Makes.undoing (m : Makes machine created volume tree session path kind size creation here
      above entry name old stored) (h : machine.Sound volume tree)
    (hspelled : machine.host.device.Spelled)
    (t : Tended (⟨here, entry⟩ :: tree) entry.sector created later)
    (hleft : later.Sound left (⟨here, entry⟩ :: tree))
    (hmap : left.freeMapFile = volume.freeMapFile) {removal : Removal}
    (hfound : removal.Found later.host.device here entry) :
    ∃ map parent header middle, removal.prepare left later.host.device = .ok (map, parent) ∧
      Undoing creation removal tree volume.freeMapFile kind size name here above above entry header
        old parent stored middle map machine.host.device created.host.device later.host.device := by
  have hdir : Tree.HasDirectory (⟨here, entry⟩ :: tree) here above := m.placed.inside.cons
  obtain ⟨map, parent, hprepare⟩ := Removal.exists_prepare hleft.settled hdir hfound
  obtain ⟨header, middle, hprepared⟩ := Removal.of_prepare hprepare
  rw [hmap] at hprepared
  have hdata : created.host.device.dataSectors entry.sector = creation.header.dataSectors :=
    Device.dataSectors_of_readHeader m.grafted.headed
  have hreplaces : old.Replaces creation.parent none (some entry) := by
    obtain ⟨other, hname, hsector, hkind, -, hreplaces⟩ := m.placed.replaces
    rwa [Entry.eq_of_fields (hname.trans m.named.symm) (hkind.trans m.kind.symm)
      (hsector.trans m.sector.symm)] at hreplaces
  exact ⟨map, parent, header, middle, hprepare, m.placed, h.tidy, hspelled, m.writes.device,
    m.grafted, hreplaces, m.sector, hdata ▸ t.same, hfound, hprepared, hleft.faultFree, hleft.stored,
    hdir, hmap ▸ hleft.current.map⟩

/-- What was created and tended can be removed, and then everything is as it was. -/
theorem Makes.restores (m : Makes machine created volume tree session path kind size creation here
      above entry name old stored) (h : machine.Sound volume tree)
    (hspelled : machine.host.device.Spelled) (hs : machine.sessions[index]? = some session)
    (t : Tended (⟨here, entry⟩ :: tree) entry.sector created later) :
    (step (.remove index path) later).1 = .ok .done ∧
      machine.host.device.Restored (step (.remove index path) later).2.host.device := by
  have hslater : later.sessions[index]? = some session := by
    rw [t.sessions, m.writes.sessions, hs]
  obtain ⟨left, file, hleft, hmap, hfind, hfound⟩ := m.found hs t
  obtain ⟨map, parent, header, middle, hprepare, u⟩ := m.undoing h hspelled t hleft hmap hfound
  obtain ⟨hok, hdevice, -⟩ := @onTree_of_session _ _ left session hleft.mounted hslater
    (fun volume session ↦ volume.remove session path) _ (left.actsAs_remove session path)
  rw [Volume.run_removing_of_ok hfind hprepare, hmap, u.taken.run_commit] at hok hdevice
  refine ⟨done_of_onTree hok, ?_⟩
  rw [step, answer_remove, hdevice]
  exact u.restored

end Restores

/-- Whatever a disciplined run has led to: if a file or a directory can be created there, it can be
removed again under its path, and then the free map, all tables of directories and all sectors
that were in use are as they were before. In between the new file may be opened, read, written and
closed at will; whether it is left open makes no difference. -/
theorem restores_of_disciplined {device : Device} (h : device.Ready) {before : List Request}
    (hd : disciplined [] (step .format (start device)).2 before = true) {machine : Machine}
    (hm : machine = (run (.format :: before) (start device)).2) (index : Nat) (path : String) :
    (∀ size created, step (.createFile index path size) machine = (.ok .done, created) →
      ∃ entry file, created.Finds index path entry file ∧ entry.kind = .regular ∧
        file.length = size ∧ ∀ calls, attends entry.sector calls created = true →
          (step (.remove index path) (run calls created).2).1 = .ok .done ∧
            machine.host.device.Restored
              (step (.remove index path) (run calls created).2).2.host.device) ∧
    ∀ created, step (.createDirectory index path) machine = (.ok .done, created) →
      (step (.remove index path) created).1 = .ok .done ∧
        machine.host.device.Restored (step (.remove index path) created).2.host.device := by
  obtain ⟨volume, tree, hsound⟩ := sound_of_disciplined h hd
  have hspelled := spelled_of_disciplined h hd
  rw [← hm] at hsound hspelled
  constructor
  · intro size created hcreated
    have hsized : Kind.regular = .directory → size = directoryFileSize := Kind.noConfusion
    rw [step, answer_createFile] at hcreated
    rcases hsound.create_cases hsized hcreated with
      ⟨-, hfailed⟩ | ⟨session, creation, here, above, entry, name, old, stored, hs, -, m⟩
    · contradiction
    · refine ⟨entry, creation.file m.placed.consistent, ⟨session, m.writes.sessions ▸ hs,
        m.entryAt_eq, m.openFile_eq⟩, m.kind, m.placed.length_header, fun calls hattends ↦ ?_⟩
      exact m.restores hsound hspelled hs (m.sound.tended_run List.mem_cons_self m.kind hattends)
  · intro created hcreated
    have hsized : Kind.directory = .directory → directoryFileSize = directoryFileSize := fun _ ↦ rfl
    rw [step, answer_createDirectory] at hcreated
    rcases hsound.create_cases hsized hcreated with
      ⟨-, hfailed⟩ | ⟨session, creation, here, above, entry, name, old, stored, hs, -, m⟩
    · contradiction
    · exact m.restores hsound hspelled hs (.of_device m.sound rfl rfl)

theorem exists_of_done {answered : Except Failure Reply × Machine} (h : answered.1 = .ok .done) :
    ∃ after, answered = (.ok .done, after) :=
  ⟨answered.2, Prod.ext h rfl⟩

/-- A directory is made, and a file is written to and removed, which leaves free sectors between used
ones. -/
def clearing : List Request :=
  [.createFile 0 "a" 300, .createDirectory 0 "d", .openFile 0 "a", .call 0 (.write [1, 2, 3]),
    .call 0 .close, .remove 0 "a"]

def cleared : Machine := (run (.format :: clearing) (start (.blank 1024 128))).2

def tending : List Request :=
  [.openFile 0 "d/f", .call 0 (.write [7, 8, 9]), .call 0 (.seek 1), .call 0 (.read 2),
    .call 0 .close]

theorem restores_of_disciplined_cleared :
    (Device.blank 1024 128).Ready ∧
      disciplined [] (step .format (start (.blank 1024 128))).2 clearing = true ∧
      cleared = (run (.format :: clearing) (start (.blank 1024 128))).2 ∧
      (∃ created entry file, step (.createFile 0 "d/f" 200) cleared = (.ok .done, created) ∧
        created.Finds 0 "d/f" entry file ∧ file.length = 200 ∧
        attends entry.sector tending created = true ∧
        (step (.remove 0 "d/f") (run tending created).2).1 = .ok .done ∧
        cleared.host.device.Restored
          (step (.remove 0 "d/f") (run tending created).2).2.host.device) ∧
      ∃ created, step (.createDirectory 0 "d/g") cleared = (.ok .done, created) ∧
        (step (.remove 0 "d/g") created).1 = .ok .done ∧
        cleared.host.device.Restored (step (.remove 0 "d/g") created).2.host.device := by
  have hready : (Device.blank 1024 128).Ready := Device.ready_blank (Nat.le_refl _)
  have hd : disciplined [] (step .format (start (.blank 1024 128))).2 clearing = true := by
    decide +kernel
  have hm : cleared = (run (.format :: clearing) (start (.blank 1024 128))).2 := rfl
  obtain ⟨hfile, hsession, hsector, hattends, hdirectory⟩ :
      (step (.createFile 0 "d/f" 200) cleared).1 = .ok .done ∧
        (step (.createFile 0 "d/f" 200) cleared).2.sessions[0]? = some ⟨rootSector⟩ ∧
        (Volume.entryAt ⟨rootSector⟩ "d/f" (step (.createFile 0 "d/f" 200)
          cleared).2.host.device).toOption.map Entry.sector = some 5 ∧
        attends 5 tending (step (.createFile 0 "d/f" 200) cleared).2 = true ∧
        (step (.createDirectory 0 "d/g") cleared).1 = .ok .done := by
    decide +kernel
  obtain ⟨created, hcreated⟩ := exists_of_done hfile
  obtain ⟨made, hmade⟩ := exists_of_done hdirectory
  rw [hcreated] at hsector hsession hattends
  obtain ⟨entry, file, hfinds, -, hlength, hremove⟩ :=
    (restores_of_disciplined hready hd hm 0 "d/f").1 200 created hcreated
  have heq : entry.sector = 5 := by
    obtain ⟨session, hs, hentry, -⟩ := hfinds
    cases hsession.symm.trans hs
    rw [hentry] at hsector
    exact Option.some.inj hsector
  rw [← heq] at hattends
  have hremoved := (restores_of_disciplined hready hd hm 0 "d/g").2 made hmade
  exact ⟨hready, hd, hm, ⟨created, entry, file, hcreated, hfinds, hlength, hattends,
    hremove tending hattends⟩, made, hmade, hremoved⟩

end Machine

end SectorFS
