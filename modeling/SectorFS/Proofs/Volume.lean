import SectorFS.Proofs.Directory.Stored
import SectorFS.Proofs.Operation
import SectorFS.Volume

namespace SectorFS

open Layout

namespace Path

variable {device : Device} {start here s : UInt32} {path name : String}

theorem enter_eq_ok_iff : enter device here name = .ok s ↔
    ∃ file table entry, device.openDirectory here = .ok (file, table) ∧
      table.find? name = some entry ∧ entry.kind = .directory ∧ entry.sector = s := by
  constructor
  · intro h
    obtain ⟨⟨file, table⟩, hopen, h⟩ := bind_eq_ok.1 h
    cases hfind : table.find? name with
    | none => simp only [hfind] at h; contradiction
    | some entry =>
      cases hkind : entry.kind with
      | regular => simp only [hfind, hkind] at h; contradiction
      | directory =>
        simp only [hfind, hkind] at h
        exact ⟨file, table, entry, hopen, hfind, hkind, Except.ok.inj h⟩
  · rintro ⟨file, table, entry, hopen, hfind, hkind, rfl⟩
    refine bind_eq_ok.2 ⟨(file, table), hopen, ?_⟩
    simp only [hfind, hkind]
    rfl

theorem enter_healed (h : enter device here name = .ok s) :
    enter device.healed here name = .ok s := by
  obtain ⟨file, table, entry, hopen, hentry⟩ := enter_eq_ok_iff.1 h
  exact enter_eq_ok_iff.2 ⟨file, table, entry, Device.openDirectory_healed hopen, hentry⟩

/-- A walk whose every step can be made on another device as well can be made there as a whole, and
what its steps keep holds where it ends. -/
theorem resolve_of_steps {after : Device} {P : UInt32 → Prop} (hroot : P rootSector) (hstart : P start)
    (hstep : ∀ here name next, P here → enter device here name = .ok next →
      enter after here name = .ok next ∧ P next)
    (h : resolve start path device = .ok s) : resolve start path after = .ok s ∧ P s := by
  have hfirst : P (if isAbsolute path = true then rootSector else start) := by
    split
    · exact hroot
    · exact hstart
  unfold resolve at h ⊢
  generalize components path = names at h ⊢
  generalize (if isAbsolute path = true then rootSector else start) = here at h hfirst ⊢
  induction names generalizing here with
  | nil => exact ⟨h, Except.ok.inj h ▸ hfirst⟩
  | cons name rest ih =>
    obtain ⟨next, hnext, hrest⟩ := bind_eq_ok.1 h
    obtain ⟨henter, hkept⟩ := hstep _ _ _ hfirst hnext
    obtain ⟨hresolve, hend⟩ := ih _ hrest hkept
    exact ⟨bind_eq_ok.2 ⟨next, henter, hresolve⟩, hend⟩

theorem resolve_healed (h : resolve start path device = .ok s) :
    resolve start path device.healed = .ok s :=
  (resolve_of_steps (P := fun _ ↦ True) trivial trivial
    (fun _ _ _ _ hstep ↦ ⟨enter_healed hstep, trivial⟩) h).1

/-- What holds where a walk starts and is kept by each of its steps holds where it ends. -/
theorem resolve_induction {P : UInt32 → Prop} (hroot : P rootSector) (hstart : P start)
    (hstep : ∀ here name next, P here → enter device here name = .ok next → P next)
    (h : resolve start path device = .ok s) : P s :=
  (resolve_of_steps hroot hstart
    (fun here name next hhere henter ↦ ⟨henter, hstep here name next hhere henter⟩) h).2

end Path

namespace Volume

open Operation

variable {device : Device} {session : Session} {path name : String} {parent s : UInt32}

theorem locate_eq_ok_iff : locate session path device = .ok (parent, name) ↔
    ∃ directory, Path.splitParent path = .ok (directory, name) ∧
      Path.resolve session.directory directory device = .ok parent := by
  constructor
  · intro h
    obtain ⟨⟨directory, leaf⟩, hsplit, h⟩ := bind_eq_ok.1 h
    obtain ⟨found, hresolve, h⟩ := bind_eq_ok.1 h
    cases h
    exact ⟨directory, hsplit, hresolve⟩
  · rintro ⟨directory, hsplit, hresolve⟩
    exact bind_eq_ok.2 ⟨(directory, name), hsplit, bind_eq_ok.2 ⟨parent, hresolve, rfl⟩⟩

theorem locate_healed (h : locate session path device = .ok (parent, name)) :
    locate session path device.healed = .ok (parent, name) := by
  obtain ⟨directory, hsplit, hresolve⟩ := locate_eq_ok_iff.1 h
  exact locate_eq_ok_iff.2 ⟨directory, hsplit, Path.resolve_healed hresolve⟩

theorem lookup_eq_ok_iff : lookup session path device = .ok s ↔
    ∃ parent name file table entry, locate session path device = .ok (parent, name) ∧
      device.openDirectory parent = .ok (file, table) ∧ table.find? name = some entry ∧
      entry.sector = s := by
  constructor
  · intro h
    obtain ⟨⟨parent, name⟩, hlocate, h⟩ := bind_eq_ok.1 h
    obtain ⟨⟨file, table⟩, hopen, h⟩ := bind_eq_ok.1 h
    cases hfind : table.find? name with
    | none => simp only [hfind] at h; contradiction
    | some entry =>
      simp only [hfind] at h
      exact ⟨parent, name, file, table, entry, hlocate, hopen, hfind, Except.ok.inj h⟩
  · rintro ⟨parent, name, file, table, entry, hlocate, hopen, hfind, rfl⟩
    refine bind_eq_ok.2 ⟨(parent, name), hlocate, bind_eq_ok.2 ⟨(file, table), hopen, ?_⟩⟩
    simp only [hfind]
    rfl

theorem quiet_withTable {α : Type} {volume : Volume}
    {operation : OpenTable → Operation (α × OpenTable)} (h : (operation volume.openTable).Quiet) :
    (volume.withTable operation).Quiet :=
  h.bind fun _ ↦ quiet_pure _

theorem quiet_openTable_openFile (table : OpenTable) (name : String) (sector : UInt32)
    {load : Operation File} (h : load.Quiet) : (table.openFile name sector load).Quiet := by
  unfold OpenTable.openFile
  cases table.handleOf? sector with
  | some handle => exact (quiet_notes _).bind fun _ ↦ quiet_pure _
  | none =>
    cases table.firstFree? with
    | none => exact (quiet_notes _).bind fun _ ↦ quiet_throw _
    | some handle => exact h.bind fun _ ↦ (quiet_notes _).bind fun _ ↦ quiet_pure _

theorem quiet_openFile (volume : Volume) (session : Session) (path : String) :
    (volume.openFile session path).Quiet :=
  (quiet_query _).noteFailure.bind fun _ ↦
    quiet_withTable (quiet_openTable_openFile _ _ _ (quiet_query _))

theorem quiet_enter (session : Session) (path : String) : (enter session path).Quiet := by
  have hwalk : ((noteFailure (.enterFailed path)
      (query (Path.resolve session.directory path)) >>= fun sector ↦
        note (.entered path sector) >>= fun _ ↦ pure ⟨sector⟩ : Operation Session)).Quiet :=
    (quiet_query _).noteFailure.bind fun _ ↦ (quiet_notes _).bind fun _ ↦ quiet_pure _
  unfold enter
  by_cases h : path.isEmpty = true
  · simp only [if_pos h]
    exact (quiet_throw _).bind fun _ ↦ hwalk
  · simp only [if_neg h]
    exact hwalk

end Volume

end SectorFS
