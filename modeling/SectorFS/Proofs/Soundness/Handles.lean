import SectorFS.Proofs.Soundness

namespace SectorFS

open Layout

def OpenTable.Within (left table : OpenTable) : Prop :=
  ∀ handle now, left.get? handle = some now →
    ∃ was, table.get? handle = some was ∧ now.sector = was.sector ∧ now.file = was.file

namespace OpenTable

variable {table : OpenTable} {handle : Nat} {opened left : OpenFile} {slot : Option OpenFile}
  {call : HandleCall} {host after : Host} {reply : HandleReply}

theorem Within.refl (table : OpenTable) : table.Within table := fun _ now h ↦ ⟨now, h, rfl, rfl⟩

theorem within_empty (capacity : Nat) (table : OpenTable) : (empty capacity).Within table := by
  intro handle now h
  rw [get?_empty] at h
  contradiction

theorem within_set_of_call (hget : table.get? handle = some opened)
    (h : (opened.call handle call).run host = (.ok (reply, slot), after)) :
    (table.set handle slot).Within table := by
  intro other now hnow
  rw [get?_set] at hnow
  split at hnow
  · next hself =>
    obtain ⟨rfl, -⟩ := hself
    subst hnow
    obtain ⟨cursor, rfl⟩ := OpenFile.slot_of_call h
    exact ⟨opened, hget, rfl, rfl⟩
  · exact ⟨now, hnow, rfl, rfl⟩

theorem within_afterCall (table : OpenTable) (handle : Nat) (call : HandleCall) :
    (table.afterCall handle call).Within table := by
  intro other now hnow
  rw [afterCall] at hnow
  cases hget : table.get? handle with
  | none =>
    rw [hget] at hnow
    exact Within.refl table other now hnow
  | some opened =>
    rw [hget] at hnow
    dsimp only at hnow
    rw [get?_set] at hnow
    split at hnow
    · next hself =>
      obtain ⟨rfl, -⟩ := hself
      refine ⟨opened, hget, ?_⟩
      cases call with
      | close => contradiction
      | _ =>
        cases hnow
        exact ⟨rfl, rfl⟩
    · exact ⟨now, hnow, rfl, rfl⟩

end OpenTable

theorem Volume.openFile_ok {volume left : Volume} {session : Session} {path : String}
    {handle : Nat} {host after : Host}
    (h : (volume.openFile session path).run host = (.ok (handle, left), after)) :
    ∃ s, lookup session path host.device = .ok s ∧
      ((left = volume ∧ ∃ opened, volume.openTable.get? handle = some opened ∧ opened.sector = s) ∨
        ∃ file, host.device.openFile s = .ok file ∧
          volume.openTable.get? handle = none ∧ handle < volume.openTable.capacity ∧
            left = { volume with
              openTable := volume.openTable.set handle
                (some ⟨s, OpenTable.keptName path, 0, file⟩) }) := by
  rw [Volume.openFile, run_bind, Operation.run_noteFailure, Operation.run_query] at h
  cases hlookup : lookup session path host.device with
  | error error =>
    rw [hlookup] at h
    cases congrArg Prod.fst h
  | ok s =>
    rw [hlookup] at h
    refine ⟨s, rfl, ?_⟩
    dsimp only at h
    rw [withTable, run_bind] at h
    cases hrun : (volume.openTable.openFile path s (Operation.query (·.openFile s))).run host with
    | mk outcome middle =>
      rw [hrun] at h
      cases outcome with
      | error error => cases congrArg Prod.fst h
      | ok answer =>
        obtain ⟨bound, table⟩ := answer
        cases h
        rcases OpenTable.openFile_ok hrun with ⟨rfl, hsame⟩ | ⟨-, file, hload, hfree, hlt, rfl⟩
        · exact .inl ⟨rfl, hsame⟩
        · exact .inr ⟨file, hload, hfree, hlt, rfl⟩

theorem Volume.get?_of_openFile {volume left : Volume} {session : Session} {path : String}
    {handle : Nat} {host after : Host}
    (h : (volume.openFile session path).run host = (.ok (handle, left), after)) :
    ∃ s, lookup session path host.device = .ok s ∧
      (left.freeMapFile = volume.freeMapFile ∧ left.rootFile = volume.rootFile) ∧
      ∀ other opened, left.openTable.get? other = some opened →
        (other = handle → opened.sector = s) ∧
          (volume.openTable.get? other = some opened ∨
            other = handle ∧ host.device.openFile s = .ok opened.file) := by
  obtain ⟨s, hlookup, ⟨rfl, bound, hbound, hs⟩ | ⟨file, hopen, hfree, -, rfl⟩⟩ := openFile_ok h
  · refine ⟨s, hlookup, ⟨rfl, rfl⟩, fun other opened hget ↦ ⟨fun heq ↦ ?_, .inl hget⟩⟩
    subst heq
    cases hget.symm.trans hbound
    exact hs
  · refine ⟨s, hlookup, ⟨rfl, rfl⟩, fun other opened hget ↦ ?_⟩
    dsimp only at hget
    rw [OpenTable.get?_set] at hget
    split at hget
    · next hself =>
      cases hget
      exact ⟨fun _ ↦ rfl, .inr ⟨hself.1.symm, hopen⟩⟩
    · refine ⟨fun heq ↦ ?_, .inl hget⟩
      rw [heq, hfree] at hget
      contradiction

namespace Machine

variable {machine after : Machine} {volume left : Volume} {tree : Tree} {request : Request}
  {regular : List Nat} {index : Nat} {path : String}

theorem KnowsRegular.of_within (h : KnowsRegular regular volume tree)
    (hwithin : left.openTable.Within volume.openTable) : KnowsRegular regular left tree := by
  intro handle hhandle now hnow
  obtain ⟨was, hwas, hsector, -⟩ := hwithin handle now hnow
  obtain ⟨node, hnode, hkind, heq⟩ := h handle hhandle was hwas
  exact ⟨node, hnode, hkind, heq.trans hsector.symm⟩

theorem Sound.opened_of_within (h : machine.Sound volume tree)
    (hwithin : left.openTable.Within volume.openTable) (handle : Nat) (opened : OpenFile)
    (hget : left.openTable.get? handle = some opened) :
    opened.sector ∈ rootSector :: tree.map Node.sector ∧
      machine.host.device.openFile opened.sector = .ok opened.file := by
  obtain ⟨was, hwas, hsector, hfile⟩ := hwithin handle opened hget
  obtain ⟨hmem, hopen⟩ := h.current.opened handle was hwas
  rw [hsector, hfile]
  exact ⟨hmem, hopen⟩

section Opened

variable {handle : Nat} {opened : OpenFile} (h : machine.Sound volume tree)
  (hget : volume.openTable.get? handle = some opened)
include h hget

theorem Sound.onDevice_opened : opened.file.OnDevice machine.host.device ∧
    opened.file.header.dataSectors.Nodup := by
  obtain ⟨hmem, hopen⟩ := h.current.opened handle opened hget
  exact h.stored.onDevice hopen (List.mem_cons_of_mem _ hmem)

/-- What is written through a handle goes to the data of the file it is bound to. -/
theorem Sound.mem_dataSectors_opened {data : Bytes} {pos : Nat} {edit : Edit}
    (hedit : edit ∈ opened.file.rewrites machine.host.device data pos) :
    edit.1 ∈ machine.host.device.dataSectors opened.sector := by
  rw [Device.dataSectors_of_openFile (h.current.opened handle opened hget).2]
  exact File.fst_mem_of_mem_rewrites hedit

theorem Sound.mem_sectors_opened : opened.sector ∈ tree.sectors :=
  List.mem_cons_of_mem _ (h.current.opened handle opened hget).1

/-- A file that is known to be regular is none of the directories, nor the file of the free map. -/
theorem Sound.opened_apart (hknows : KnowsRegular regular volume tree) (hhandle : handle ∈ regular) :
    (∀ here parent, tree.HasDirectory here parent → here ≠ opened.sector) ∧
      freeMapSector ≠ opened.sector := by
  obtain ⟨node, hnode, hkind, hsector⟩ := hknows handle hhandle opened hget
  constructor
  · rintro here parent hhere heq
    exact h.regular_apart hnode hkind hhere (.inl (hsector.trans heq.symm))
  · intro heq
    exact (h.stored.sector_ne hnode).1 (hsector.trans heq.symm)

end Opened

theorem Sound.opened?_eq (h : machine.Sound volume tree) (handle : Nat) :
    machine.opened? handle = volume.openTable.get? handle := by
  rw [opened?, h.mounted, Option.bind_some]

/-- Opening a file leaves the device and the sessions. It binds at most the handle it answers, to the
file that the path leads to. -/
theorem Sound.openFile_cases (h : machine.Sound volume tree) {answer : Except Failure Reply}
    (hrun : step (.openFile index path) machine = (answer, after)) :
    SameState machine after ∧ answer.isOk = false ∨
      ∃ session up entry handle left, machine.sessions[index]? = some session ∧
        tree.HasDirectory session.directory up ∧
        Volume.entryAt session path machine.host.device = .ok entry ∧
        answer = .ok (.number handle) ∧ after.host.device = machine.host.device ∧
        after.sessions = machine.sessions ∧ after.Sound left tree ∧
        ∀ other opened, left.openTable.get? other = some opened →
          (other = handle → opened.sector = entry.sector) ∧
            (other ≠ handle → volume.openTable.get? other = some opened) := by
  rw [step_openFile, h.mounted] at hrun
  cases hs : machine.sessions[index]? with
  | none =>
    rw [hs] at hrun
    cases hrun
    exact .inl ⟨.refl machine, rfl⟩
  | some session =>
    rw [hs] at hrun
    dsimp only at hrun
    have hquiet := Volume.quiet_openFile volume session path machine.host
    cases hopen : (volume.openFile session path).run machine.host with
    | mk outcome host =>
      rw [hopen] at hquiet hrun
      cases outcome with
      | error error =>
        cases hrun
        exact .inl ⟨⟨hquiet, h.mounted.symm, rfl⟩, rfl⟩
      | ok bound =>
        obtain ⟨handle, left⟩ := bound
        cases hrun
        obtain ⟨s, hlookup, hfiles, hbound⟩ := Volume.get?_of_openFile hopen
        obtain ⟨entry, hentry, rfl⟩ := Volume.entryAt_of_lookup hlookup
        obtain ⟨up, hup⟩ := h.sessions session (Array.mem_of_getElem? hs)
        refine .inr ⟨session, up, entry, handle, left, rfl, hup, hentry, rfl, hquiet, rfl, ?_,
          fun other opened hget ↦ ?_⟩
        -- A handle of the new table was bound before, or it is the one answered.
        · refine h.of_blocks (hquiet ▸ h.faultFree) (congrArg _ hquiet) rfl
            (fun other opened hget ↦ ?_) hfiles h.sessions
          obtain ⟨hself, hwas | ⟨heq, hfile⟩⟩ := hbound other opened hget
          · exact h.current.opened other opened hwas
          · rw [hself heq]
            exact ⟨h.stored.mem_of_entryAt hup hentry, hfile⟩
        · obtain ⟨hself, hold⟩ := hbound other opened hget
          exact ⟨hself, fun hne ↦ hold.resolve_right fun hnew ↦ hne hnew.1⟩

theorem Sound.leads_openFile (h : machine.Sound volume tree)
    (hknows : KnowsRegular regular volume tree) :
    Leads machine (step (.openFile index path) machine).2
      (machine.track regular (.openFile index path) (step (.openFile index path) machine).1) tree
      (.openFile index path) := by
  have heffect : ∀ sector bytes, machine.effect sector (.openFile index path) bytes = bytes :=
    fun _ _ ↦ rfl
  cases hrun : step (.openFile index path) machine with
  | mk answer after =>
    rcases h.openFile_cases hrun with ⟨hsame, hfailed⟩ |
      ⟨session, up, entry, handle, left, hs, hup, hentry, rfl, hdevice, -, hsound, hbound⟩
    · cases answer with
      | ok => contradiction
      | error => exact h.leads_of_sameState hknows hsame heffect
    · have htrack : machine.track regular (.openFile index path) (.ok (.number handle)) =
          if entry.kind = .regular then handle :: regular else regular.filter (· != handle) := by
        simp only [track, hs, Option.bind_some, hentry]
        simp [Except.toOption]
      refine ⟨left, tree, hsound, fun other hother opened hget ↦ ?_,
        h.retains_of_blocks hsound.faultFree (congrArg _ hdevice) heffect⟩
      dsimp only at hother
      rw [htrack] at hother
      obtain ⟨hself, hold⟩ := hbound other opened hget
      by_cases heq : other = handle
      · have hkind : entry.kind = .regular := by
          by_cases hregular : entry.kind = .regular
          · exact hregular
          · rw [if_neg hregular, List.mem_filter] at hother
            simp [heq] at hother
        obtain ⟨here, hnode⟩ := h.stored.node_of_entryAt hup hentry hkind
        exact ⟨⟨here, entry⟩, hnode, hkind, (hself heq).symm⟩
      · have hmem : other ∈ regular := by
          split at hother
          · exact (List.mem_cons.1 hother).resolve_left heq
          · exact (List.mem_filter.1 hother).1
        exact hknows other hmem opened (hold heq)

theorem Sound.step_call_of_free (h : machine.Sound volume tree) {handle : Nat}
    (hget : volume.openTable.get? handle = none) (call : HandleCall) :
    step (.call handle call) machine = (.error (.refused (.invalidHandle handle)),
      { machine with
        host := { machine.host with log := machine.host.log ++ [.badHandle handle call] } }) := by
  rw [step_call, h.mounted]
  dsimp only
  rw [OpenTable.run_call, hget]

theorem Sound.step_call_of_bound (h : machine.Sound volume tree) {handle : Nat} {opened : OpenFile}
    (hget : volume.openTable.get? handle = some opened) (call : HandleCall) :
    ∃ log, step (.call handle call) machine =
      (.ok (.ofHandle (opened.replyTo machine.host.device call)), { machine with
        host := ⟨machine.host.device.edit (opened.editsOf machine.host.device call), log⟩
        volume? := some { volume with openTable := volume.openTable.afterCall handle call } }) := by
  obtain ⟨log, hrun⟩ :=
    OpenTable.run_call_of_bound hget h.faultFree (h.onDevice_opened hget).1 call
  refine ⟨log, ?_⟩
  rw [step_call, h.mounted]
  dsimp only
  rw [hrun]

/-- A call leaves the device, or it writes to the file that its handle is bound to. -/
theorem Sound.device_call (h : machine.Sound volume tree) (handle : Nat) (call : HandleCall) :
    (step (.call handle call) machine).2.host.device = machine.host.device ∧
        (∀ opened, volume.openTable.get? handle = some opened → call.writes? opened.cursor = none) ∨
      ∃ opened data pos, volume.openTable.get? handle = some opened ∧
        call.writes? opened.cursor = some (data, pos) ∧
        (step (.call handle call) machine).2.host.device =
          machine.host.device.edit (opened.file.rewrites machine.host.device data pos) := by
  cases hget : volume.openTable.get? handle with
  | none =>
    rw [h.step_call_of_free hget]
    exact .inl ⟨rfl, nofun⟩
  | some opened =>
    obtain ⟨log, hstep⟩ := h.step_call_of_bound hget call
    rw [hstep, OpenFile.editsOf]
    cases hwrites : call.writes? opened.cursor with
    | none =>
      refine .inl ⟨rfl, ?_⟩
      rintro _ ⟨⟩
      exact hwrites
    | some written => exact .inr ⟨opened, written.1, written.2, rfl, hwrites, rfl⟩

theorem Sound.frame_write (h : machine.Sound volume tree) {handle : Nat} {opened : OpenFile}
    (hget : volume.openTable.get? handle = some opened) (data : Bytes) (pos : Nat) :
    tree.Frame machine.host.device
      (machine.host.device.edit (opened.file.rewrites machine.host.device data pos))
      fun s ↦ s = opened.sector := by
  exact h.stored.frame_edit fun edit hedit _ ↦
    ⟨_, h.mem_sectors_opened hget, rfl, h.mem_dataSectors_opened hget hedit⟩

theorem Sound.table_call (h : machine.Sound volume tree) (handle : Nat) (call : HandleCall) :
    (step (.call handle call) machine).2.volume? =
        some { volume with openTable := volume.openTable.afterCall handle call } ∧
      (step (.call handle call) machine).2.sessions = machine.sessions := by
  cases hget : volume.openTable.get? handle with
  | none =>
    rw [h.step_call_of_free hget, OpenTable.afterCall, hget]
    exact ⟨h.mounted, rfl⟩
  | some opened =>
    obtain ⟨log, hstep⟩ := h.step_call_of_bound hget call
    rw [hstep]
    exact ⟨rfl, rfl⟩

theorem Sound.faultFree_call (h : machine.Sound volume tree) (handle : Nat) (call : HandleCall) :
    (step (.call handle call) machine).2.host.device.faults = {} ∧
      (step (.call handle call) machine).2.host.device.blocks.size =
        machine.host.device.blocks.size := by
  rcases h.device_call handle call with ⟨hsame, -⟩ | ⟨opened, data, pos, -, -, hdevice⟩
  · rw [hsame]
    exact ⟨h.faultFree, rfl⟩
  · rw [hdevice]
    exact ⟨Device.faults_edit h.faultFree _, Device.size_edit _ _⟩

theorem Sound.called (h : machine.Sound volume tree) {handle : Nat} {call : HandleCall}
    (halike : tree.Alike machine.host.device (step (.call handle call) machine).2.host.device) :
    (step (.call handle call) machine).2.Sound
      { volume with openTable := volume.openTable.afterCall handle call } tree := by
  obtain ⟨hf, hsize⟩ := h.faultFree_call handle call
  obtain ⟨hvolume, hsessions⟩ := h.table_call handle call
  have hwithin := OpenTable.within_afterCall volume.openTable handle call
  exact h.of_alike halike hf (hsize ▸ h.stored.room) hvolume (h.opened_of_within hwithin) ⟨rfl, rfl⟩
    (hsessions ▸ h.sessions)

/-- A write through a handle of a regular file leaves what the tree looks at. -/
theorem Sound.alike_write (h : machine.Sound volume tree)
    (hknows : KnowsRegular regular volume tree) {handle : Nat} {opened : OpenFile}
    (hhandle : handle ∈ regular) (hget : volume.openTable.get? handle = some opened) (data : Bytes)
    (pos : Nat) : tree.Alike machine.host.device
      (machine.host.device.edit (opened.file.rewrites machine.host.device data pos)) := by
  obtain ⟨hdir, hmap⟩ := h.opened_apart hget hknows hhandle
  exact (h.frame_write hget data pos).alike h.faultFree (Device.faults_edit h.faultFree _) hdir hmap

theorem mem_of_admits {handle : Nat} {call : HandleCall} {cursor : Nat} {written : Bytes × Nat}
    (hadmits : machine.admits regular (.call handle call) = true)
    (hwrites : call.writes? cursor = some written) : handle ∈ regular := by
  cases call with
  | write data => simpa [admits] using hadmits
  | writeAt data pos => simpa [admits] using hadmits
  | _ => contradiction

theorem Sound.alike_call (h : machine.Sound volume tree) (hknows : KnowsRegular regular volume tree)
    {handle : Nat} {call : HandleCall}
    (hadmits : machine.admits regular (.call handle call) = true) :
    tree.Alike machine.host.device (step (.call handle call) machine).2.host.device := by
  rcases h.device_call handle call with ⟨hsame, -⟩ | ⟨opened, data, pos, hget, hwrites, hdevice⟩
  · rw [hsame]
    exact .refl _ _
  · rw [hdevice]
    exact h.alike_write hknows (mem_of_admits hadmits hwrites) hget data pos

theorem Sound.leads_call (h : machine.Sound volume tree) (hknows : KnowsRegular regular volume tree)
    {handle : Nat} {call : HandleCall}
    (hadmits : machine.admits regular (.call handle call) = true) :
    Leads machine (step (.call handle call) machine).2 regular tree (.call handle call) := by
  have hsound := h.called (h.alike_call hknows hadmits)
  have hwithin := OpenTable.within_afterCall volume.openTable handle call
  refine ⟨_, tree, hsound, hknows.of_within hwithin, ?_⟩
  rcases h.device_call handle call with
    ⟨hsame, hreads⟩ | ⟨opened, data, pos, hget, hwrites, hdevice⟩
  · refine h.retains_of_blocks hsound.faultFree (congrArg _ hsame) fun sector bytes ↦ ?_
    rw [effect, h.opened?_eq]
    cases hget : volume.openTable.get? handle with
    | none => rfl
    | some opened => simp [hreads opened hget]
  · intro other hother _ _
    refine ⟨hother, fun file hfile ↦ ?_⟩
    obtain ⟨-, hopen⟩ := h.current.opened handle opened hget
    obtain ⟨hon, hnodup⟩ := h.onDevice_opened hget
    have hframe := h.frame_write hget data pos
    rw [hdevice]
    refine ⟨hframe.openFile_node h.faultFree (Device.faults_edit h.faultFree _) hother hfile, ?_⟩
    rw [effect, h.opened?_eq, hget]
    dsimp only
    by_cases hsector : opened.sector = other.sector
    · obtain rfl := Except.ok.inj (hopen.symm.trans (hsector ▸ hfile))
      rw [if_pos hsector, hwrites, File.contents_rewrites hnodup hon]
    · rw [if_neg hsector, hframe.contents_node hother (Ne.symm hsector) hfile]

end Machine

end SectorFS
