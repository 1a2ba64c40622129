import SectorFS.Proofs.Soundness

namespace SectorFS

open Layout

namespace Machine

variable {machine after : Machine} {volume : Volume} {tree left : Tree} {request : Request}
  {regular : List Nat} {index : Nat} {path : String}

theorem Sound.placed (h : machine.Sound volume tree) {session : Session}
    (hs : machine.sessions[index]? = some session) {kind : Kind} {size : Nat} {creation : Creation}
    (hsized : kind = .directory → size = directoryFileSize)
    (hprepare : Creation.prepare volume session path kind size machine.host.device = .ok creation) :
    ∃ here above name old stored, Volume.locate session path machine.host.device = .ok (here, name) ∧
      creation.Placed tree volume.freeMapFile kind size machine.host.device here above name old
        stored := by
  obtain ⟨here, name, old, stored, hlocate, hprepared⟩ := Creation.of_prepare hprepare
  obtain ⟨up, hup⟩ := h.sessions session (Array.mem_of_getElem? hs)
  obtain ⟨above, hdir⟩ := h.stored.hasDirectory_locate hup hlocate
  exact ⟨here, above, name, old, stored, hlocate,
    ⟨hprepared, h.faultFree, h.stored, hdir, h.current.map, hsized⟩⟩

/-- A change that leaves the headers of the tree keeps the invariant for a tree that has all files
held open. -/
theorem Sound.of_frame (h : machine.Sound volume tree) (hf : after.host.device.faults = {})
    (hstored : left.Stored after.host.device) (htidy : left.Tidy after.host.device)
    (hvolume : after.volume? = machine.volume?)
    (hsessions : ∀ session ∈ after.sessions, ∃ parent, left.HasDirectory session.directory parent)
    {touched : UInt32 → Prop} (frame : tree.Frame machine.host.device after.host.device touched)
    (hopened : ∀ handle opened, volume.openTable.get? handle = some opened →
      ∀ node ∈ tree, node.sector = opened.sector → node ∈ left) : after.Sound volume left := by
  refine ⟨hf, hstored, htidy, hvolume.trans h.mounted, ?_, hsessions⟩
  refine frame.current h.faultFree hf h.current fun handle opened hget ↦ ?_
  rcases List.mem_cons.1 (h.current.opened handle opened hget).1 with hroot | hmem
  · exact hroot ▸ List.mem_cons_self
  · obtain ⟨node, hnode, hsector⟩ := List.mem_map.1 hmem
    have hleft := hopened handle opened hget node hnode hsector
    exact List.mem_cons_of_mem _ (hsector ▸ List.mem_map_of_mem hleft)

/-- A change to one directory and to the map leads to a tree that has all files held open and all
that are not removed. -/
theorem Sound.leads_of_frame (h : machine.Sound volume tree)
    (hknows : KnowsRegular regular volume tree) (hafter : after.Sound volume left)
    {here above : UInt32} (hdir : tree.HasDirectory here above)
    (frame : tree.Frame machine.host.device after.host.device
      fun s ↦ s = here ∨ s = freeMapSector)
    (hopened : ∀ handle opened, volume.openTable.get? handle = some opened →
      ∀ node ∈ tree, node.sector = opened.sector → node ∈ left)
    (hkept : ∀ node ∈ tree, machine.removes node.sector request = false → node ∈ left)
    (heffect : ∀ sector bytes, machine.effect sector request bytes = bytes) :
    Leads machine after regular tree request := by
  refine ⟨volume, left, hafter, ?_, ?_⟩
  · intro handle hhandle opened hget
    obtain ⟨node, hnode, hkind, hsector⟩ := hknows handle hhandle opened hget
    exact ⟨node, hopened handle opened hget node hnode hsector, hkind, hsector⟩
  · intro node hnode hkind hkeep
    refine ⟨hkept node hnode hkeep, fun file hopen ↦
      ⟨frame.openFile_node h.faultFree hafter.faultFree hnode hopen, ?_⟩⟩
    rw [heffect, frame.contents_node hnode (h.regular_apart hnode hkind hdir) hopen]

structure Writes (machine after : Machine) (edits : List Edit) : Prop where
  device : after.host.device = machine.host.device.edit edits
  volume : after.volume? = machine.volume?
  sessions : after.sessions = machine.sessions

theorem Writes.faultFree {edits : List Edit} (w : Writes machine after edits)
    (h : machine.Sound volume tree) : after.host.device.faults = {} :=
  w.device ▸ Device.faults_edit h.faultFree _

/-- A walk through the tree is as before when a file was added. -/
theorem locate_of_grafted {node : Node} {before device : Device} {old new : Directory}
    {header : Header} {map : FreeMap} (g : tree.Grafted node before device old new header map)
    (hf : before.faults = {}) (hf' : device.faults = {}) (h : tree.Stored before)
    (htidy : Tree.Tidy (node :: tree) device) {session : Session} {up here : UInt32} {name : String}
    (hdir : tree.HasDirectory session.directory up)
    (hlocate : Volume.locate session path before = .ok (here, name)) :
    Volume.locate session path device = .ok (here, name) := by
  obtain ⟨directory, hsplit, hresolve⟩ := Volume.locate_eq_ok_iff.1 hlocate
  refine Volume.locate_eq_ok_iff.2 ⟨directory, hsplit, (Path.resolve_of_steps
    (P := fun s ↦ ∃ above, tree.HasDirectory s above) ⟨rootSector, Tree.hasDirectory_root tree⟩
    ⟨up, hdir⟩ (fun here name next hhere henter ↦ ?_) hresolve).1⟩
  obtain ⟨above, habove⟩ := hhere
  obtain ⟨file, table, entry, hopen, hfind, hkind, rfl⟩ := Path.enter_eq_ok_iff.1 henter
  obtain ⟨file', table', hopen', hfind'⟩ := g.find?_eq hf hf' h htidy habove hopen hfind
  exact ⟨Path.enter_eq_ok_iff.2 ⟨file', table', entry, hopen', hfind', hkind, rfl⟩,
    h.hasDirectory_of_entry habove hopen (Directory.mem_of_find? hfind).1 hkind⟩

/-! ## Creating -/

structure Makes (machine after : Machine) (volume : Volume) (tree : Tree) (session : Session)
    (path : String) (kind : Kind) (size : Nat) (creation : Creation) (here above : UInt32)
    (entry : Entry) (name : String) (old : Directory) (stored : FreeMap) : Prop where
  placed : creation.Placed tree volume.freeMapFile kind size machine.host.device here above name old
    stored
  writes : Writes machine after (creation.edits (creation.file placed.consistent)
    volume.freeMapFile machine.host.device)
  named : entry.name = Bytes.ofText name
  sector : entry.sector = creation.sector
  kind : entry.kind = kind
  grafted : tree.Grafted ⟨here, entry⟩ machine.host.device after.host.device old creation.parent
    creation.header creation.map
  sound : after.Sound volume (⟨here, entry⟩ :: tree)
  located : Volume.locate session path after.host.device = .ok (here, name)

/-- A creation is refused and changes nothing, or what was prepared is carried out. -/
theorem Sound.create_cases (h : machine.Sound volume tree) {kind : Kind} {size : Nat}
    (hsized : kind = .directory → size = directoryFileSize) {answer : Except Failure Reply}
    (hrun : (Step.onTree index fun volume session ↦
      volume.createEntry session path kind size).run machine = (answer, after)) :
    SameState machine after ∧ answer.isOk = false ∨
      ∃ session creation here above entry name old stored,
        machine.sessions[index]? = some session ∧ answer.isOk = true ∧
        Makes machine after volume tree session path kind size creation here above entry name old
          stored := by
  have hcases := onTree_cases machine index fun volume session ↦
    Volume.actsAs_createEntry volume session path kind size
  rw [hrun] at hcases
  rcases hcases with hfailed | ⟨used, session, hused, hs, hok, hdevice, hv, hss⟩
  · exact .inl hfailed
  · cases h.mounted.symm.trans hused
    cases hprepare : Creation.prepare volume session path kind size machine.host.device with
    | error error =>
      rw [Volume.run_creating_of_error hprepare] at hok hdevice
      exact .inl ⟨⟨hdevice, hv, hss⟩, hok⟩
    | ok creation =>
      obtain ⟨here, above, name, old, stored, hlocate, p⟩ := h.placed hs hsized hprepare
      rw [Volume.run_creating_of_ok hprepare, p.run_commit] at hok hdevice
      obtain ⟨up, hup⟩ := h.sessions session (Array.mem_of_getElem? hs)
      obtain ⟨entry, hname, hsector, hkind, g, hstored, htidy⟩ := p.grown h.tidy
      have hwrites : Writes machine after _ := ⟨hdevice, hv, hss⟩
      have hf := hwrites.faultFree h
      dsimp only at hdevice
      rw [← hdevice] at g hstored htidy
      have hsub : ∀ node ∈ tree, node ∈ (⟨here, entry⟩ : Node) :: tree := fun _ ↦
        List.mem_cons_of_mem _
      refine .inr ⟨session, creation, here, above, entry, name, old, stored, hs, hok, p, hwrites,
        hname, hsector, hkind, g, ?_, locate_of_grafted g h.faultFree hf h.stored htidy hup hlocate⟩
      refine h.of_frame hf hstored htidy hv (fun other hother ↦ ?_) g.frame
        fun _ _ _ node hnode _ ↦ hsub node hnode
      obtain ⟨parent, hparent⟩ := h.sessions other (hss ▸ hother)
      exact ⟨parent, hparent.mono hsub⟩

namespace Makes

variable {session : Session} {kind : Kind} {size : Nat} {creation : Creation} {here above : UInt32}
  {entry : Entry} {name : String} {old : Directory} {stored : FreeMap}
  (m : Makes machine after volume tree session path kind size creation here above entry name old
    stored)
include m

theorem find?_parent : creation.parent.find? name = some entry := by
  refine Directory.find?_of_mem ?_ (m.grafted.entries.mem_iff.2 List.mem_cons_self) m.named
  exact m.sound.tidy.names here above _ m.placed.inside.cons m.grafted.becomes

theorem entryAt_eq : Volume.entryAt session path after.host.device = .ok entry := by
  obtain ⟨file, hopen, -⟩ := m.grafted.becomes
  exact Volume.entryAt_eq_ok_iff.2 ⟨here, name, file, _, m.located, hopen, m.find?_parent⟩

theorem openFile_eq :
    after.host.device.openFile entry.sector = .ok (creation.file m.placed.consistent) :=
  Device.openFile_eq_ok_iff.2 ⟨m.sector.symm, m.grafted.headed⟩

end Makes

theorem Sound.leads_create (h : machine.Sound volume tree)
    (hknows : KnowsRegular regular volume tree) {kind : Kind} {size : Nat}
    (hsized : kind = .directory → size = directoryFileSize)
    (heffect : ∀ sector bytes, machine.effect sector request bytes = bytes) :
    Leads machine ((Step.onTree index fun volume session ↦
      volume.createEntry session path kind size).run machine).2 regular tree request := by
  generalize hrun : (Step.onTree index fun volume session ↦
    volume.createEntry session path kind size).run machine = answered
  obtain ⟨answer, after⟩ := answered
  rcases h.create_cases hsized hrun with
    ⟨hsame, -⟩ | ⟨session, creation, here, above, entry, name, old, stored, -, -, m⟩
  · exact h.leads_of_sameState hknows hsame heffect
  · have hsub : ∀ node ∈ tree, node ∈ (⟨here, entry⟩ : Node) :: tree := fun _ ↦
      List.mem_cons_of_mem _
    exact h.leads_of_frame hknows m.sound m.placed.inside m.grafted.frame
      (fun _ _ _ node hnode _ ↦ hsub node hnode) (fun node hnode _ ↦ hsub node hnode) heffect

/-- A file that was created is found under its path. It has the size it was to have, and its data
sectors hold what they held before. -/
theorem Sound.created (h : machine.Sound volume tree) {size : Nat}
    (hanswer : (step (.createFile index path size) machine).1 = .ok .done) :
    ∃ session entry file,
      (step (.createFile index path size) machine).2.sessions[index]? = some session ∧
      Volume.entryAt session path (step (.createFile index path size) machine).2.host.device =
        .ok entry ∧ entry.kind = .regular ∧
      (step (.createFile index path size) machine).2.host.device.openFile entry.sector = .ok file ∧
      file.length = size ∧ file.contents (step (.createFile index path size) machine).2.host.device =
        file.contents machine.host.device := by
  have hsized : Kind.regular = .directory → size = directoryFileSize := Kind.noConfusion
  rw [step, answer_createFile] at hanswer ⊢
  generalize hrun : (Step.onTree index fun volume session ↦
    volume.createEntry session path .regular size).run machine = answered at hanswer ⊢
  obtain ⟨answer, after⟩ := answered
  rcases h.create_cases hsized hrun with
    ⟨-, hfailed⟩ | ⟨session, creation, here, above, entry, name, old, stored, hs, -, m⟩
  · exact absurd (hfailed.symm.trans (congrArg Except.isOk hanswer)) Bool.false_ne_true
  · refine ⟨session, entry, creation.file m.placed.consistent, m.writes.sessions ▸ hs,
      m.entryAt_eq, m.kind, m.openFile_eq, m.placed.length_header, ?_⟩
    rw [m.writes.device]
    exact File.contents_congr fun s hs ↦ m.placed.block?_data rfl hs

/-! ## Removing -/

/-- An admitted removal is of a file that nobody holds and that lists nothing. -/
theorem Sound.unused_of_admits (h : machine.Sound volume tree) {session : Session}
    {removal : Removal} {here : UInt32} {entry : Entry}
    (hadmits : machine.admits regular (.remove index path) = true)
    (hs : machine.sessions[index]? = some session)
    (hfind : Removal.find session path machine.host.device = .ok removal)
    (hfound : removal.Found machine.host.device here entry)
    (hmem : (⟨here, entry⟩ : Node) ∈ tree) :
    volume.openTable.handleOf? removal.sector = none ∧
      (entry.kind = .directory → tree.children entry.sector = [] ∧
        ∀ session ∈ machine.sessions, session.directory ≠ removal.sector) := by
  have hremoval : machine.removal? (.remove index path) = some removal := by
    rw [removal?, hs, Option.bind_some, hfind]
    rfl
  rw [admits, hremoval, Option.all_some, mayRemove, Bool.and_eq_true, hfound.named] at hadmits
  obtain ⟨hclosed, hkinds⟩ := hadmits
  refine ⟨?_, fun hkind ↦ ?_⟩
  · simpa [isOpen, h.mounted] using hclosed
  · rw [Option.map_some, hkind, Bool.and_eq_true] at hkinds
    obtain ⟨hempty, hsessions⟩ := hkinds
    have hnode : tree.HasDirectory entry.sector here := .inr ⟨_, hmem, hkind, rfl, rfl⟩
    obtain ⟨table, ⟨file, hopen, -⟩, -, hperm⟩ := h.stored.tables _ _ hnode
    rw [Device.hasEmptyDirectory, ← hfound.sector, hopen] at hempty
    refine ⟨?_, fun session hsession ↦ ?_⟩
    · rw [Directory.isEmpty_iff.1 hempty] at hperm
      exact hperm.symm.eq_nil
    · simpa using Array.all_eq_true'.1 hsessions session hsession

theorem Sound.found (h : machine.Sound volume tree) {session : Session} {removal : Removal}
    (hs : machine.sessions[index]? = some session)
    (hfind : Removal.find session path machine.host.device = .ok removal) :
    ∃ here above entry, tree.HasDirectory here above ∧
      removal.Found machine.host.device here entry ∧ ⟨here, entry⟩ ∈ tree := by
  obtain ⟨here, entry, hlocate, hfound⟩ := Removal.of_find hfind
  obtain ⟨up, hup⟩ := h.sessions session (Array.mem_of_getElem? hs)
  obtain ⟨above, hdir⟩ := h.stored.hasDirectory_locate hup hlocate
  exact ⟨here, above, entry, hdir, hfound, hfound.mem_tree h.stored hdir⟩

theorem Sound.placed_removal (h : machine.Sound volume tree) {session : Session}
    {removal : Removal} {map : FreeMap} {table : Directory}
    (hs : machine.sessions[index]? = some session)
    (hfind : Removal.find session path machine.host.device = .ok removal)
    (hprepare : removal.prepare volume machine.host.device = .ok (map, table)) :
    ∃ here above entry header stored, removal.Placed tree volume.freeMapFile machine.host.device here
      above entry header stored map table := by
  obtain ⟨here, above, entry, hdir, hfound, -⟩ := h.found hs hfind
  obtain ⟨header, stored, hprepared⟩ := Removal.of_prepare hprepare
  exact ⟨here, above, entry, header, stored, hfound, hprepared, h.faultFree, h.stored, hdir,
    h.current.map⟩

theorem Sound.childless (h : machine.Sound volume tree) {here : UInt32} {entry : Entry}
    (hnode : (⟨here, entry⟩ : Node) ∈ tree)
    (hempty : entry.kind = .directory → tree.children entry.sector = []) :
    tree.children entry.sector = [] := by
  cases hkind : entry.kind with
  | directory => exact hempty hkind
  | regular =>
    refine h.stored.rooted.children_eq_nil fun parent hparent ↦ ?_
    rw [h.stored.kind_of_hasDirectory hnode hparent] at hkind
    contradiction

theorem Sound.remove_cases (h : machine.Sound volume tree) {answer : Except Failure Reply}
    (hrun : (Step.onTree index fun volume session ↦ volume.remove session path).run machine =
      (answer, after)) :
    SameState machine after ∧ answer.isOk = false ∨
      ∃ session removal here above entry header stored map table,
        machine.sessions[index]? = some session ∧ answer.isOk = true ∧
        Removal.find session path machine.host.device = .ok removal ∧
        removal.Placed tree volume.freeMapFile machine.host.device here above entry header stored map
          table ∧
        Writes machine after (removal.edits volume.freeMapFile map table machine.host.device) := by
  have hcases := onTree_cases machine index fun volume session ↦
    Volume.actsAs_remove volume session path
  rw [hrun] at hcases
  rcases hcases with hfailed | ⟨used, session, hused, hs, hok, hdevice, hv, hss⟩
  · exact .inl hfailed
  · cases h.mounted.symm.trans hused
    cases hfind : Removal.find session path machine.host.device with
    | error error =>
      rw [Volume.run_removing_of_find_error hfind] at hok hdevice
      exact .inl ⟨⟨hdevice, hv, hss⟩, hok⟩
    | ok removal =>
      cases hprepare : removal.prepare volume machine.host.device with
      | error error =>
        rw [Volume.run_removing_of_prepare_error hfind hprepare] at hok hdevice
        exact .inl ⟨⟨hdevice, hv, hss⟩, hok⟩
      | ok left =>
        obtain ⟨map, table⟩ := left
        obtain ⟨here, above, entry, header, stored, p⟩ := h.placed_removal hs hfind hprepare
        rw [Volume.run_removing_of_ok hfind hprepare, p.run_commit] at hok hdevice
        exact .inr ⟨session, removal, here, above, entry, header, stored, map, table, hs, hok, hfind,
          p, hdevice, hv, hss⟩

theorem Sound.leads_remove (h : machine.Sound volume tree)
    (hknows : KnowsRegular regular volume tree)
    (hadmits : machine.admits regular (.remove index path) = true) :
    Leads machine ((Step.onTree index fun volume session ↦ volume.remove session path).run machine).2
      regular tree (.remove index path) := by
  have heffect : ∀ sector bytes, machine.effect sector (.remove index path) bytes = bytes :=
    fun _ _ ↦ rfl
  generalize hrun : (Step.onTree index fun volume session ↦
    volume.remove session path).run machine = answered
  obtain ⟨answer, after⟩ := answered
  rcases h.remove_cases hrun with ⟨hsame, -⟩ |
    ⟨session, removal, here, above, entry, header, stored, map, table, hs, hok, hfind, p, hwrites⟩
  · exact h.leads_of_sameState hknows hsame heffect
  · obtain ⟨hclosed, hunused⟩ := h.unused_of_admits hadmits hs hfind p.toFound p.mem_tree
    have hf := hwrites.faultFree h
    have g := p.pruned
    rw [← hwrites.device] at g
    obtain ⟨first, rest, rfl⟩ := List.append_of_mem p.mem_tree
    have hsector : Node.sector ⟨here, entry⟩ = removal.sector := p.sector
    have hchildless := h.childless p.mem_tree fun hkind ↦ (hunused hkind).1
    -- Nothing refers to the file that goes: no handle, no session and no file below it.
    have hopened : ∀ handle opened, volume.openTable.get? handle = some opened →
        ∀ node ∈ first ++ ⟨here, entry⟩ :: rest, node.sector = opened.sector →
          node ∈ first ++ rest := by
      intro handle opened hget node hnode hnodeSector
      have hne := OpenTable.sector_ne_of_handleOf? hclosed hget
      exact Tree.mem_append_of_ne hnode fun heq ↦
        hne (hnodeSector.symm.trans (heq ▸ hsector))
    refine h.leads_of_frame hknows (h.of_frame hf (g.stored h.faultFree hf h.stored hchildless)
      (g.tidy h.faultFree hf h.stored h.tidy) hwrites.volume (fun other hother ↦ ?_) g.frame hopened)
      p.inside g.frame hopened (fun node hnode hkeep ↦ ?_) heffect
    · obtain ⟨parent, hparent⟩ := h.sessions other (hwrites.sessions ▸ hother)
      refine ⟨parent, ((Tree.hasDirectory_append first _ rest).1 hparent).resolve_left ?_⟩
      rintro ⟨hkind, heq, -⟩
      exact (hunused hkind).2 other (hwrites.sessions ▸ hother) (heq.symm.trans hsector)
    · refine Tree.mem_append_of_ne hnode ?_
      rintro rfl
      rw [removes, removal?, hs, Option.bind_some, hfind, step, answer_remove, hrun, hok] at hkeep
      simp [Except.toOption, hsector] at hkeep

end Machine

end SectorFS
