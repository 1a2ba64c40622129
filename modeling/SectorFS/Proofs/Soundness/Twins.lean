import SectorFS.Proofs.Soundness.Runs
import SectorFS.Proofs.Tree.Walks

namespace SectorFS

open Layout Operation

inductive Request.Alike : Request → Request → Prop
  | same (request : Request) : Alike request request
  | write (handle : Nat) {data other : Bytes} (h : data.length = other.length) :
    Alike (.call handle (.write data)) (.call handle (.write other))
  | writeAt (handle pos : Nat) {data other : Bytes} (h : data.length = other.length) :
    Alike (.call handle (.writeAt data pos)) (.call handle (.writeAt other pos))

theorem OpenTable.afterCall_of_alike {handle : Nat} {call other : HandleCall}
    (h : Request.Alike (.call handle call) (.call handle other)) (table : OpenTable) :
    table.afterCall handle other = table.afterCall handle call := by
  cases h with
  | same => rfl
  | write _ h | writeAt _ _ h => simp only [afterCall, OpenFile.slotAfter, h]

theorem Tree.Stored.alike_of_blocks {tree : Tree} {before after : Device} (h : tree.Stored before)
    (hf : before.faults = {}) (hf' : after.faults = {}) (hblocks : after.blocks = before.blocks) :
    tree.Alike before after :=
  (h.frame_of_blocks hblocks).alike hf hf' (fun _ _ _ ↦ id) id

/-! ## What is asked on both sides -/

namespace Volume

variable {session : Session} {path : String} (host other : Host)

theorem openFile_congr (volume : Volume)
    (hlookup : lookup session path other.device = lookup session path host.device)
    (hopen : ∀ s, lookup session path host.device = .ok s →
      other.device.openFile s = host.device.openFile s) :
    ((volume.openFile session path).run other).1 = ((volume.openFile session path).run host).1 := by
  rw [openFile, run_bind, run_bind, Operation.run_noteFailure, Operation.run_noteFailure,
    Operation.run_query, Operation.run_query, hlookup]
  cases hs : lookup session path host.device with
  | error error => rfl
  | ok s =>
    dsimp only
    rw [withTable, run_bind, run_bind]
    unfold OpenTable.openFile
    cases volume.openTable.handleOf? s with
    | some handle => rfl
    | none =>
      cases volume.openTable.firstFree? with
      | none => rfl
      | some handle =>
        dsimp only
        rw [run_bind, run_bind, Operation.run_query, Operation.run_query, hopen s hs]
        cases host.device.openFile s <;> rfl

theorem enter_congr (hresolve : Path.resolve session.directory path other.device =
      Path.resolve session.directory path host.device) :
    ((enter session path).run other).1 = ((enter session path).run host).1 := by
  unfold enter
  by_cases hempty : path.isEmpty = true
  · simp only [if_pos hempty]
    rfl
  · simp only [if_neg hempty]
    rw [run_bind, run_bind, Operation.run_noteFailure, Operation.run_noteFailure,
      Operation.run_query, Operation.run_query, hresolve]
    cases Path.resolve session.directory path host.device <;> rfl

end Volume

namespace Machine

/-- The machines have their volume and their sessions in common, and their devices what the tree
looks at. -/
structure Twins (tree : Tree) (first second : Machine) : Prop where
  stored : tree.Stored first.host.device
  faultFree : second.host.device.faults = {}
  room : numSectors ≤ second.host.device.blocks.size
  alike : tree.Alike first.host.device second.host.device
  volume : second.volume? = first.volume?
  sessions : second.sessions = first.sessions

variable {first second after left : Machine} {volume : Volume} {tree grown : Tree}
  {request other : Request} {requests others rest : List Request} {regular : List Nat} {index : Nat}
  {path : String} {session : Session} {kind : Kind} {size : Nat}

namespace Twins

variable (t : Twins tree first second) (h : first.Sound volume tree)
include t h

theorem sound : second.Sound volume tree :=
  h.of_alike t.alike t.faultFree t.room (t.volume.trans h.mounted) h.current.opened ⟨rfl, rfl⟩
    (t.sessions ▸ h.sessions)

theorem of_alike (hstored : tree.Stored after.host.device) (hf : left.host.device.faults = {})
    (hroom : numSectors ≤ left.host.device.blocks.size)
    (hfirst : tree.Alike first.host.device after.host.device)
    (hsecond : tree.Alike second.host.device left.host.device)
    (hvolume : left.volume? = after.volume?) (hsessions : left.sessions = after.sessions) :
    Twins tree after left :=
  ⟨hstored, hf, hroom, ((hfirst.symm h.stored).trans t.alike).trans hsecond, hvolume, hsessions⟩

theorem of_blocks (hf : after.host.device.faults = {})
    (hblocks : after.host.device.blocks = first.host.device.blocks)
    (hf' : left.host.device.faults = {})
    (hblocks' : left.host.device.blocks = second.host.device.blocks)
    (hvolume : left.volume? = after.volume?) (hsessions : left.sessions = after.sessions) :
    Twins tree after left := by
  have halike := h.stored.alike_of_blocks h.faultFree hf hblocks
  exact t.of_alike h (halike.stored h.stored (hblocks ▸ h.stored.room)) hf' (hblocks' ▸ t.room) halike
    ((t.sound h).stored.alike_of_blocks t.faultFree hf' hblocks') hvolume hsessions

theorem of_quiet {host host' : Host} (hquiet : host.device = first.host.device)
    (hquiet' : host'.device = second.host.device) (now : Option Volume)
    (sessions : Array Session) : Twins tree ⟨host, now, sessions⟩ ⟨host', now, sessions⟩ :=
  t.of_blocks h (hquiet ▸ h.faultFree) (congrArg _ hquiet) (hquiet' ▸ t.faultFree)
    (congrArg _ hquiet') rfl rfl

theorem of_sameState (hfirst : SameState first after) (hsecond : SameState second left) :
    Twins tree after left :=
  t.of_blocks h (hfirst.device ▸ h.faultFree) (congrArg _ hfirst.device)
    (hsecond.device ▸ t.faultFree) (congrArg _ hsecond.device)
    ((hsecond.volume.trans t.volume).trans hfirst.volume.symm)
    ((hsecond.sessions.trans t.sessions).trans hfirst.sessions.symm)

omit h in
theorem of_stored (hgrown : grown.Stored first.host.device) : Twins grown first second :=
  { t with stored := hgrown, alike := t.alike.of_stored t.stored hgrown }

end Twins

/-! ## Requests about handles and sessions -/

theorem Sound.twins_openFile (h : first.Sound volume tree) (t : Twins tree first second) :
    (Machine.step (.openFile index path) second).1 = (Machine.step (.openFile index path) first).1 ∧
      Twins tree (Machine.step (.openFile index path) first).2
        (Machine.step (.openFile index path) second).2 := by
  rw [step_openFile, step_openFile, t.volume, t.sessions, h.mounted]
  cases hs : first.sessions[index]? with
  | none => exact ⟨rfl, t⟩
  | some session =>
    obtain ⟨up, hup⟩ := h.sessions session (Array.mem_of_getElem? hs)
    have hcongr := Volume.openFile_congr first.host second.host volume
      (t.alike.lookup_eq h.stored hup path) fun s hlookup ↦ by
        obtain ⟨entry, hentry, rfl⟩ := Volume.entryAt_of_lookup hlookup
        exact t.alike.openFile_eq (List.mem_cons_of_mem _ (h.stored.mem_of_entryAt hup hentry))
    have hquiet := Volume.quiet_openFile volume session path first.host
    have hquiet' := Volume.quiet_openFile volume session path second.host
    dsimp only
    generalize (volume.openFile session path).run first.host = ran at *
    generalize (volume.openFile session path).run second.host = ran' at *
    obtain ⟨outcome, host⟩ := ran
    obtain ⟨outcome', host'⟩ := ran'
    obtain rfl : outcome' = outcome := hcongr
    cases outcome' <;> exact ⟨rfl, t.of_quiet h hquiet hquiet' _ _⟩

theorem Sound.twins_enter (h : first.Sound volume tree) (t : Twins tree first second) :
    Twins tree (Machine.step (.enter index path) first).2
      (Machine.step (.enter index path) second).2 := by
  rw [step_enter, step_enter, t.volume, t.sessions, h.mounted]
  cases hs : first.sessions[index]? with
  | none => exact t
  | some session =>
    obtain ⟨up, hup⟩ := h.sessions session (Array.mem_of_getElem? hs)
    have hcongr := Volume.enter_congr first.host second.host
      (t.alike.resolve_eq h.stored hup path)
    have hquiet := Volume.quiet_enter session path first.host
    have hquiet' := Volume.quiet_enter session path second.host
    dsimp only
    generalize (Volume.enter session path).run first.host = ran at *
    generalize (Volume.enter session path).run second.host = ran' at *
    obtain ⟨outcome, host⟩ := ran
    obtain ⟨outcome', host'⟩ := ran'
    obtain rfl : outcome' = outcome := hcongr
    cases outcome' <;> exact t.of_quiet h hquiet hquiet' _ _

theorem Sound.twins_call (h : first.Sound volume tree) (t : Twins tree first second)
    (hknows : KnowsRegular regular volume tree) {handle : Nat} {call written : HandleCall}
    (hlike : Request.Alike (.call handle call) (.call handle written))
    (hadmits : first.admits regular (.call handle call) = true) :
    Twins tree (Machine.step (.call handle call) first).2
      (Machine.step (.call handle written) second).2 := by
  have hadmits' : second.admits regular (.call handle written) = true := by
    cases hlike with
    | same => cases call <;> exact hadmits
    | write | writeAt => exact hadmits
  obtain ⟨hv, hss⟩ := h.table_call handle call
  obtain ⟨hv', hss'⟩ := (t.sound h).table_call handle written
  rw [OpenTable.afterCall_of_alike hlike] at hv'
  have halike := h.alike_call hknows hadmits
  have halike' := (t.sound h).alike_call hknows hadmits'
  have hafter' := (t.sound h).called halike'
  exact t.of_alike h (h.called halike).stored hafter'.faultFree hafter'.stored.room halike halike'
    (hv'.trans hv.symm) (hss'.trans (t.sessions.trans hss.symm))

/-! ## Requests on the tree -/

def Parallel (action : Action Unit) (first second : Device) : Prop :=
  (action.run second).1.isOk = (action.run first).1.isOk ∧
    ∃ grown : Tree, grown.Stored (action.run first).2 ∧
      grown.Alike (action.run first).2 (action.run second).2 ∧
      (action.run second).2.faults = {} ∧ numSectors ≤ (action.run second).2.blocks.size

theorem Twins.onTree (t : Twins tree first second) (h : first.Sound volume tree)
    {operation : Volume → Session → Operation Unit} {action : Session → Action Unit}
    (hacts : ∀ session, (operation volume session).ActsAs (action session))
    (hdo : ∀ session, first.sessions[index]? = some session →
      Parallel (action session) first.host.device second.host.device) :
    ((Step.onTree index operation).run second).1.isOk =
        ((Step.onTree index operation).run first).1.isOk ∧
      ∃ grown, Twins grown ((Step.onTree index operation).run first).2
        ((Step.onTree index operation).run second).2 := by
  have hv' := t.volume.trans h.mounted
  cases hs : first.sessions[index]? with
  | none =>
    rw [onTree_of_no_session h.mounted hs, onTree_of_no_session hv' (t.sessions ▸ hs)]
    exact ⟨rfl, tree, t⟩
  | some session =>
    obtain ⟨hok, hdevice, hv, hss⟩ := onTree_of_session h.mounted hs (hacts session)
    obtain ⟨hok', hdevice', hvolume', hss'⟩ :=
      onTree_of_session hv' (t.sessions ▸ hs) (hacts session)
    obtain ⟨hsame, grown, hstored, halike, hf, hroom⟩ := hdo session hs
    refine ⟨hok'.trans (hsame.trans hok.symm), grown, hdevice ▸ hstored,
      hdevice' ▸ hf, hdevice' ▸ hroom, hdevice ▸ hdevice' ▸ halike,
      hvolume'.trans (t.volume.trans hv.symm), hss'.trans (t.sessions.trans hss.symm)⟩

theorem Sound.parallel_creating (h : first.Sound volume tree) (t : Twins tree first second)
    (hs : first.sessions[index]? = some session)
    (hsized : kind = .directory → size = directoryFileSize) :
    Parallel (volume.creating session path kind size) first.host.device second.host.device := by
  obtain ⟨up, hup⟩ := h.sessions session (Array.mem_of_getElem? hs)
  have heq := t.alike.prepare_eq h.stored h.current.map hup path kind size
  cases hprepare : Creation.prepare volume session path kind size first.host.device with
  | error error =>
    rw [Parallel, Volume.run_creating_of_error hprepare,
      Volume.run_creating_of_error (heq.trans hprepare)]
    exact ⟨rfl, tree, h.stored, t.alike, t.faultFree, t.room⟩
  | ok creation =>
    -- Both devices prepare the same creation, so the tree grows by the same node in both.
    have h' := t.sound h
    obtain ⟨here, above, name, old, stored, hlocate, p⟩ := h.placed hs hsized hprepare
    obtain ⟨here', above', name', old', stored', hlocate', p'⟩ :=
      h'.placed (t.sessions ▸ hs) hsized (heq.trans hprepare)
    rw [t.alike.locate_eq h.stored hup, hlocate] at hlocate'
    cases hlocate'
    obtain ⟨entry, hname, hsector, hkind, g, hgrown, -⟩ := p.grown h.tidy
    obtain ⟨entry', hname', hsector', hkind', g', -⟩ := p'.grown h'.tidy
    obtain rfl : entry' = entry := Entry.eq_of_fields (hname'.trans hname.symm)
      (hkind'.trans hkind.symm) (hsector'.trans hsector.symm)
    rw [Parallel, Volume.run_creating_of_ok hprepare,
      Volume.run_creating_of_ok (heq.trans hprepare), p.run_commit, p'.run_commit]
    have hf := Device.faults_edit h.faultFree
      (creation.edits (creation.file p.consistent) volume.freeMapFile first.host.device)
    have hf' := Device.faults_edit t.faultFree
      (creation.edits (creation.file p'.consistent) volume.freeMapFile second.host.device)
    refine ⟨rfl, ⟨here, entry'⟩ :: tree, hgrown, g.alike g' h.faultFree hf t.faultFree hf' t.alike
      h.stored h'.stored fun hdirectory ↦ ?_, hf', ?_⟩
    · obtain ⟨made, -, hmade⟩ := p.table (hkind.symm.trans hdirectory)
      have hself : Node.sector ⟨here, entry'⟩ = creation.sector := hsector
      exact ⟨made, hself ▸ p.hasTable_made hmade, hself ▸ p'.hasTable_made hmade⟩
    · rw [Device.size_edit]
      exact t.room

theorem Sound.parallel_removing (h : first.Sound volume tree) (t : Twins tree first second)
    (hs : first.sessions[index]? = some session)
    (hadmits : first.admits regular (.remove index path) = true) :
    Parallel (volume.removing session path) first.host.device second.host.device := by
  obtain ⟨up, hup⟩ := h.sessions session (Array.mem_of_getElem? hs)
  have hfindEq := t.alike.find_eq h.stored hup path
  cases hfind : Removal.find session path first.host.device with
  | error error =>
    rw [Parallel, Volume.run_removing_of_find_error hfind,
      Volume.run_removing_of_find_error (hfindEq.trans hfind)]
    exact ⟨rfl, tree, h.stored, t.alike, t.faultFree, t.room⟩
  | ok removal =>
    obtain ⟨here, above, entry, hdir, hfound, hmem⟩ := h.found hs hfind
    have hsector : removal.sector ∈ tree.sectors := hfound.sector ▸ Tree.mem_sectors_of_mem hmem
    have hprepareEq := t.alike.prepareRemoval_eq h.stored h.current.map hsector
    cases hprepare : removal.prepare volume first.host.device with
    | error error =>
      rw [Parallel, Volume.run_removing_of_prepare_error hfind hprepare,
        Volume.run_removing_of_prepare_error (hfindEq.trans hfind) (hprepareEq.trans hprepare)]
      exact ⟨rfl, tree, h.stored, t.alike, t.faultFree, t.room⟩
    | ok left =>
      have h' := t.sound h
      obtain ⟨map, table⟩ := left
      -- Both devices prepare the same map and table, each from what it has stored itself.
      obtain ⟨header, stored, hprepared⟩ := Removal.of_prepare hprepare
      obtain ⟨header', stored', hprepared'⟩ := Removal.of_prepare (hprepareEq.trans hprepare)
      have p : removal.Placed tree volume.freeMapFile first.host.device here above entry header
          stored map table := ⟨hfound, hprepared, h.faultFree, h.stored, hdir, h.current.map⟩
      have hopened' := (t.alike.openDirectory_eq h.stored hdir).trans hfound.opened
      have p' : removal.Placed tree volume.freeMapFile second.host.device here above entry header'
          stored' map table :=
        ⟨{ hfound with opened := hopened' }, hprepared', t.faultFree, h'.stored, hdir, h'.current.map⟩
      obtain ⟨-, hunused⟩ := h.unused_of_admits hadmits hs hfind hfound hmem
      have hchildless := h.childless hmem fun hkind ↦ (hunused hkind).1
      rw [Parallel, Volume.run_removing_of_ok hfind hprepare, Volume.run_removing_of_ok
        (hfindEq.trans hfind) (hprepareEq.trans hprepare), p.run_commit, p'.run_commit]
      have g := p.pruned
      have g' := p'.pruned
      have hf := Device.faults_edit h.faultFree
        (removal.edits volume.freeMapFile map table first.host.device)
      have hf' := Device.faults_edit t.faultFree
        (removal.edits volume.freeMapFile map table second.host.device)
      have hroom := t.room
      have halike := t.alike
      have hstored := h.stored
      have hstored' := h'.stored
      obtain ⟨ahead, below, rfl⟩ := List.append_of_mem hmem
      refine ⟨rfl, ahead ++ below, g.stored h.faultFree hf hstored hchildless,
        g.alike g' h.faultFree hf t.faultFree hf' halike hstored hstored', hf', ?_⟩
      rw [Device.size_edit]
      exact hroom

/-! ## Steps and runs -/

theorem Sound.twins_create (h : first.Sound volume tree) (t : Twins tree first second)
    (hsized : kind = .directory → size = directoryFileSize) :
    ((Step.onTree index fun volume session ↦
        volume.createEntry session path kind size).run second).1.isOk =
      ((Step.onTree index fun volume session ↦
        volume.createEntry session path kind size).run first).1.isOk ∧
      ∃ grown, Twins grown
        ((Step.onTree index fun volume session ↦
          volume.createEntry session path kind size).run first).2
        ((Step.onTree index fun volume session ↦
          volume.createEntry session path kind size).run second).2 :=
  t.onTree h (fun session ↦ Volume.actsAs_createEntry volume session path kind size)
    fun _ hs ↦ h.parallel_creating t hs hsized

theorem Sound.twins_remove (h : first.Sound volume tree) (t : Twins tree first second)
    (hadmits : first.admits regular (.remove index path) = true) :
    (Machine.step (.remove index path) second).1.isOk =
        (Machine.step (.remove index path) first).1.isOk ∧
      ∃ grown, Twins grown (Machine.step (.remove index path) first).2
        (Machine.step (.remove index path) second).2 :=
  t.onTree h (fun session ↦ Volume.actsAs_remove volume session path)
    fun _ hs ↦ h.parallel_removing t hs hadmits

/-- The step lemma: alike requests keep the machines twins. -/
theorem Sound.twins_step (h : first.Sound volume tree) (t : Twins tree first second)
    (hknows : KnowsRegular regular volume tree) (hlike : request.Alike other)
    (hadmits : first.admits regular request = true) :
    ∃ grown, Twins grown (Machine.step request first).2 (Machine.step other second).2 := by
  cases hlike with
  | write handle hlength => exact ⟨tree, h.twins_call t hknows (.write handle hlength) hadmits⟩
  | writeAt handle pos hlength =>
    exact ⟨tree, h.twins_call t hknows (.writeAt handle pos hlength) hadmits⟩
  | same =>
    by_cases hquestion : request.isQuestion = true
    · exact ⟨tree, t.of_sameState h (sameState_step hquestion first)
        (sameState_step hquestion second)⟩
    · have hv' := t.volume.trans h.mounted
      cases request with
      | format | setDirectory => contradiction
      | mount =>
        rw [h.run_mount, (t.sound h).run_mount, t.sessions]
        exact ⟨tree, t.of_blocks h h.faultFree rfl t.faultFree rfl rfl rfl⟩
      | newSession =>
        rw [step_newSession, step_newSession, h.mounted, hv', t.sessions]
        exact ⟨tree, t.of_quiet h rfl rfl _ _⟩
      | addSession session =>
        have hpush : ∀ machine, (Machine.step (.addSession session) machine).2 =
            { machine with sessions := machine.sessions.push session } := fun _ ↦ rfl
        rw [hpush, hpush, h.mounted, hv', t.sessions]
        exact ⟨tree, t.of_quiet h rfl rfl _ _⟩
      | createFile index path size => exact (h.twins_create t Kind.noConfusion).2
      | createDirectory index path => exact (h.twins_create t fun _ ↦ rfl).2
      | remove index path => exact (h.twins_remove t hadmits).2
      | openFile index path => exact ⟨tree, (h.twins_openFile t).2⟩
      | call handle call => exact ⟨tree, h.twins_call t hknows (.same _) hadmits⟩
      | closeAll =>
        rw [step_closeAll, step_closeAll, h.mounted, hv', t.sessions]
        exact ⟨tree, t.of_blocks h h.faultFree rfl t.faultFree rfl rfl rfl⟩
      | enter index path => exact ⟨tree, h.twins_enter t⟩
      | sync =>
        have hflush : ((Operation.act Action.flush).run first.host).2.device = { first.host.device with
            flushes := first.host.device.flushes + 1 } :=
          congrArg Prod.snd (Action.run_flush h.faultFree)
        have hflush' : ((Operation.act Action.flush).run second.host).2.device =
            { second.host.device with flushes := second.host.device.flushes + 1 } :=
          congrArg Prod.snd (Action.run_flush t.faultFree)
        rw [step_sync, step_sync, h.mounted, hv']
        refine ⟨tree, t.of_blocks h ?_ (congrArg Device.blocks hflush :) ?_
          (congrArg Device.blocks hflush' :) rfl t.sessions⟩
        · exact (congrArg Device.faults hflush).trans h.faultFree
        · exact (congrArg Device.faults hflush').trans t.faultFree
      | _ => exact absurd rfl hquestion

end Machine

end SectorFS
