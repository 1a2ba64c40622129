import SectorFS.Proofs.Machine
import SectorFS.Proofs.Volume.Create
import SectorFS.Proofs.Volume.Remove

namespace SectorFS

open Layout

namespace Volume

variable {volume : Volume} {session : Session} {path : String} {kind : Kind} {size : Nat}
  {device after : Device} {error : Error}

theorem eq_of_creating_error (hf : device.faults = {}) (hroom : numSectors ≤ device.blocks.size)
    (hkind : kind = .directory → size = directoryFileSize)
    (h : (volume.creating session path kind size).run device = (.error error, after)) :
    after = device := by
  cases hprepare : Creation.prepare volume session path kind size device with
  | error other =>
    rw [run_creating_of_error hprepare] at h
    exact (Prod.mk.inj h).2.symm
  | ok creation =>
    obtain ⟨here, name, old, stored, -, hprepared⟩ := Creation.of_prepare hprepare
    have hdone := (hprepared.carriesOut_commit hkind hroom).run_of_faultFree hf
    rw [run_creating_of_ok hprepare, hdone] at h
    exact absurd (Prod.mk.inj h).1 nofun

theorem eq_of_removing_error (hf : device.faults = {})
    (h : (volume.removing session path).run device = (.error error, after)) : after = device := by
  cases hfind : Removal.find session path device with
  | error other =>
    rw [run_removing_of_find_error hfind] at h
    exact (Prod.mk.inj h).2.symm
  | ok removal =>
    cases hprepare : removal.prepare volume device with
    | error other =>
      rw [run_removing_of_prepare_error hfind hprepare] at h
      exact (Prod.mk.inj h).2.symm
    | ok left =>
      obtain ⟨map, parent⟩ := left
      obtain ⟨here, entry, -, hfound⟩ := Removal.of_find hfind
      obtain ⟨header, stored, hprepared⟩ := Removal.of_prepare hprepare
      have hdone := (hprepared.carriesOut_commit hfound).run_of_faultFree hf
      rw [run_removing_of_ok hfind hprepare, hdone] at h
      exact absurd (Prod.mk.inj h).1 nofun

end Volume

namespace Machine

open Step

variable {machine : Machine} {index : Nat} {failure : Failure}

theorem sameState_onTree {operation : Volume → Session → Operation Unit}
    {action : Volume → Session → Action Unit}
    (hacts : ∀ volume session, (operation volume session).ActsAs (action volume session))
    (haction : ∀ volume session error after,
      (action volume session).run machine.host.device = (.error error, after) →
        after = machine.host.device)
    (h : ((onTree index operation).run machine).1 = .error failure) :
    SameState machine ((onTree index operation).run machine).2 := by
  rcases onTree_cases machine index hacts with
    ⟨hsame, -⟩ | ⟨volume, session, -, -, hok, hdevice, hv, hss⟩
  · exact hsame
  · cases haction' : (action volume session).run machine.host.device with
    | mk outcome after =>
      rw [h, haction'] at hok
      rw [haction'] at hdevice
      cases outcome with
      | ok _ => contradiction
      | error error => exact ⟨hdevice.trans (haction volume session error after haction'), hv, hss⟩

theorem sameState_openFile {path : String}
    (h : (step (.openFile index path) machine).1 = .error failure) :
    SameState machine (step (.openFile index path) machine).2 := by
  rw [step_openFile] at h ⊢
  cases hv : machine.volume? with
  | none => exact .refl machine
  | some volume =>
    rw [hv] at h
    cases hs : machine.sessions[index]? with
    | none => exact .refl machine
    | some session =>
      rw [hs] at h
      have hquiet := Volume.quiet_openFile volume session path machine.host
      cases ho : (volume.openFile session path).run machine.host with
      | mk outcome host =>
        rw [ho] at hquiet
        cases outcome with
        | error error =>
          simp only [ho]
          exact ⟨hquiet, hv.symm, rfl⟩
        | ok opened =>
          simp only [ho] at h
          contradiction

theorem sameState_enter {path : String}
    (h : (step (.enter index path) machine).1 = .error failure) :
    SameState machine (step (.enter index path) machine).2 := by
  rw [step_enter] at h ⊢
  cases hv : machine.volume? with
  | none => exact .refl machine
  | some volume =>
    rw [hv] at h
    cases hs : machine.sessions[index]? with
    | none => exact .refl machine
    | some session =>
      rw [hs] at h
      have hquiet := Volume.quiet_enter session path machine.host
      cases ho : (Volume.enter session path).run machine.host with
      | mk outcome host =>
        rw [ho] at hquiet
        cases outcome with
        | error error =>
          simp only [ho]
          exact ⟨hquiet, hv.symm, rfl⟩
        | ok moved =>
          simp only [ho] at h
          contradiction

/-- A request on the tree that is refused leaves the device, the open files and the sessions as
they were, whatever the device and the headers held open contain. -/
theorem sameState_of_refused (hf : machine.host.device.faults = {})
    (hroom : numSectors ≤ machine.host.device.blocks.size) (index : Nat) (path : String)
    (size : Nat) {request : Request}
    (hrequest : request ∈ [.createFile index path size, .createDirectory index path,
      .remove index path, .openFile index path, .enter index path])
    (h : (step request machine).1 = .error failure) :
    SameState machine (step request machine).2 := by
  have hcreate : ∀ kind size, (kind = .directory → size = directoryFileSize) →
      ∀ volume session error after, (Volume.creating volume session path kind size).run
        machine.host.device = (.error error, after) → after = machine.host.device :=
    fun kind size hkind volume session error after ↦ Volume.eq_of_creating_error hf hroom hkind
  simp only [List.mem_cons, List.not_mem_nil, or_false] at hrequest
  rcases hrequest with rfl | rfl | rfl | rfl | rfl
  · unfold step at h ⊢
    rw [answer_createFile] at h ⊢
    exact sameState_onTree (fun volume session ↦ volume.actsAs_createEntry session path _ _)
      (hcreate .regular size nofun) h
  · unfold step at h ⊢
    rw [answer_createDirectory] at h ⊢
    exact sameState_onTree (fun volume session ↦ volume.actsAs_createEntry session path _ _)
      (hcreate .directory directoryFileSize fun _ ↦ rfl) h
  · unfold step at h ⊢
    rw [answer_remove] at h ⊢
    exact sameState_onTree (fun volume session ↦ volume.actsAs_remove session path)
      (fun _ _ _ _ ↦ Volume.eq_of_removing_error hf) h
  · exact sameState_openFile h
  · exact sameState_enter h

def garbled : Machine :=
  (run [.format, .openFile 0 ".", .call 0 (.writeAt [1, 7] 32)] (start (.blank 1024 128))).2

theorem sameState_of_refused_garbled :
    (step (.createDirectory 0 "a") garbled).1 =
        .error (.refused (.corruption rootSector (.entryKind 7))) ∧
      SameState garbled (step (.createDirectory 0 "a") garbled).2 := by
  have hfailed : (step (.createDirectory 0 "a") garbled).1 =
      .error (.refused (.corruption rootSector (.entryKind 7))) := by decide +kernel
  have hfaults : garbled.host.device.faults = {} := by decide +kernel
  have hroom : numSectors ≤ garbled.host.device.blocks.size := by decide +kernel
  exact ⟨hfailed, sameState_of_refused hfaults hroom 0 "a" 0 (by simp) hfailed⟩

end Machine

end SectorFS
