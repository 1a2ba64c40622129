import SectorFS.Proofs.Soundness.Runs
import SectorFS.Proofs.Tree.Interruption

/-!
Changes of the tree that a failing device cuts short. A file found from the root may be left with
sectors that count as free, so that they are given away once more: a creation writes the entry
before the map, and a removal the map before the entry. `Machine.marked_iff_of_failed` says exactly
when this does not happen.
-/

namespace SectorFS

open Layout

namespace Volume

variable {volume : Volume} {session : Session} {path : String} {kind : Kind} {size : Nat}
  {device after : Device} {error : Error} {tree : Tree} {up : UInt32}
  (hstored : tree.Stored device.healed)
  (hmap : device.healed.openFile freeMapSector = .ok volume.freeMapFile)
  (hup : tree.HasDirectory session.directory up)
include hstored hmap hup

/-- A creation that failed left the device as it was, or it was cut short before its write to the
map. -/
theorem creating_failed_cases (hsized : kind = .directory → size = directoryFileSize)
    (h : (volume.creating session path kind size).run device = (.error error, after)) :
    after.healed = device.healed ∨ ∃ creation here above name old stored,
      locate session path device.healed = .ok (here, name) ∧
        ∃ p : Creation.Placed creation tree volume.freeMapFile kind size device.healed here above
          name old stored, ∃ k, after.healed = device.healed.edit (p.unmapped.take k) := by
  cases hprepare : Creation.prepare volume session path kind size device with
  | error other =>
    rw [run_creating_of_error hprepare] at h
    obtain ⟨-, rfl⟩ := Prod.mk.inj h
    exact .inl rfl
  | ok creation =>
    obtain ⟨here, name, old, stored, hlocate, hprepared⟩ := Creation.of_prepare hprepare
    obtain ⟨above, hdir⟩ := hstored.hasDirectory_locate hup (locate_healed hlocate)
    have p : creation.Placed tree volume.freeMapFile kind size device.healed here above name old
        stored := ⟨hprepared.healed, device.faults_healed, hstored, hdir, hmap, hsized⟩
    rw [run_creating_of_ok hprepare] at h
    rcases hprepared.carriesOut_commit hsized hstored.room with hdone | ⟨-, other, k, hk, hcut⟩
    · rw [hdone] at h
      exact absurd (Prod.mk.inj h).1 nofun
    · rw [hcut] at h
      obtain ⟨-, rfl⟩ := Prod.mk.inj h
      refine .inr ⟨creation, here, above, name, old, stored, locate_healed hlocate, p, k, ?_⟩
      rw [← Creation.edits_healed] at hk
      rw [Device.healed_edit, ← Creation.edits_healed, p.take_edits hk]

/-- A removal that failed left the device as it was, or it was cut short among its writes. -/
theorem removing_failed_cases
    (h : (volume.removing session path).run device = (.error error, after)) :
    after.healed = device.healed ∨ ∃ removal : Removal, ∃ here above entry header stored map parent,
      locate session path device.healed = .ok (here, removal.name) ∧
        removal.Placed tree volume.freeMapFile device.healed here above entry header stored map
          parent ∧
        ∃ k, after.healed = device.healed.edit
          ((removal.edits volume.freeMapFile map parent device.healed).take k) := by
  cases hfind : Removal.find session path device with
  | error other =>
    rw [run_removing_of_find_error hfind] at h
    obtain ⟨-, rfl⟩ := Prod.mk.inj h
    exact .inl rfl
  | ok removal =>
    cases hprepare : removal.prepare volume device with
    | error other =>
      rw [run_removing_of_prepare_error hfind hprepare] at h
      obtain ⟨-, rfl⟩ := Prod.mk.inj h
      exact .inl rfl
    | ok left =>
      obtain ⟨map, parent⟩ := left
      obtain ⟨here, entry, hlocate, hfound⟩ := Removal.of_find hfind
      obtain ⟨header, stored, hprepared⟩ := Removal.of_prepare hprepare
      obtain ⟨above, hdir⟩ := hstored.hasDirectory_locate hup (locate_healed hlocate)
      have p : removal.Placed tree volume.freeMapFile device.healed here above entry header stored
          map parent := ⟨hfound.healed, hprepared.healed, device.faults_healed, hstored, hdir, hmap⟩
      rw [run_removing_of_ok hfind hprepare] at h
      rcases hprepared.carriesOut_commit hfound with hdone | ⟨-, other, k, -, hcut⟩
      · rw [hdone] at h
        exact absurd (Prod.mk.inj h).1 nofun
      · rw [hcut] at h
        obtain ⟨-, rfl⟩ := Prod.mk.inj h
        refine .inr ⟨removal, here, above, entry, header, stored, map, parent,
          locate_healed hlocate, p, k, ?_⟩
        rw [Device.healed_edit, Removal.edits_healed]

theorem marked_iff_of_creating_failed (hsized : kind = .directory → size = directoryFileSize)
    (h : (volume.creating session path kind size).run device = (.error error, after)) :
    after.healed.Marked ↔ Device.SameTables device.healed after.healed := by
  rcases creating_failed_cases hstored hmap hup hsized h with
    heq | ⟨creation, here, above, name, old, stored, -, p, k, heq⟩
  · rw [heq]
    exact iff_of_true (hstored.marked_self device.faults_healed) (Device.SameTables.refl _)
  · rw [heq]
    exact p.marked_take_iff k

theorem marked_iff_of_removing_failed
    (h : (volume.removing session path).run device = (.error error, after)) :
    after.healed.Marked ↔ Device.SameMap device.healed after.healed ∨
      ¬Device.SameTables device.healed after.healed := by
  rcases removing_failed_cases hstored hmap hup h with
    heq | ⟨removal, here, above, entry, header, stored, map, parent, -, p, k, heq⟩
  · rw [heq]
    exact iff_of_true (hstored.marked_self device.faults_healed) (.inl (Device.SameMap.refl _))
  · rw [heq]
    exact p.marked_take_iff k

end Volume

namespace Machine

variable {machine : Machine} {tree : Tree} {index : Nat} {failure : Failure} {request : Request}

structure Upholds (machine : Machine) (tree : Tree) : Prop where
  stored : tree.Stored machine.host.device.healed
  mapped : ∀ volume, machine.volume? = some volume →
    machine.host.device.healed.openFile freeMapSector = .ok volume.freeMapFile
  sessions : ∀ session ∈ machine.sessions, ∃ parent, tree.HasDirectory session.directory parent

/-- From the one device to the other, the changes of the request that matter for the marks were
made in a safe order: no entry was added, or no map was written before its entry was taken out. -/
def SafelyBrokenOff (request : Request) (before after : Device) : Prop :=
  match request with
  | .remove .. => Device.SameMap before after ∨ ¬Device.SameTables before after
  | _ => Device.SameTables before after

/-- What a failed request on the tree leaves of the device is what its action leaves, from the
session's directory in the tree. -/
theorem Upholds.failed_inSession (h : machine.Upholds tree)
    {operation : Volume → Session → Operation Unit} {action : Volume → Session → Action Unit}
    (hacts : ∀ volume session, (operation volume session).ActsAs (action volume session))
    {P : Device → Prop} (hsame : P machine.host.device)
    (haction : ∀ volume session up error after, machine.volume? = some volume →
      machine.sessions[index]? = some session → tree.HasDirectory session.directory up →
        (action volume session).run machine.host.device = (.error error, after) → P after)
    (hfailed : ((Step.onTree index operation).run machine).1 = .error failure) :
    P ((Step.onTree index operation).run machine).2.host.device := by
  rcases onTree_cases machine index hacts with
    ⟨hstay, -⟩ | ⟨volume, session, hv, hs, hok, hdevice, -, -⟩
  · exact hstay.device ▸ hsame
  · obtain ⟨up, hup⟩ := h.sessions session (Array.mem_of_getElem? hs)
    cases hrun : (action volume session).run machine.host.device with
    | mk outcome after =>
      rw [hfailed, hrun] at hok
      rw [hdevice, hrun]
      cases outcome with
      | ok _ => contradiction
      | error error => exact haction volume session up error after hv hs hup hrun

theorem Upholds.failed_onTree (h : machine.Upholds tree)
    {operation : Volume → Session → Operation Unit} {action : Volume → Session → Action Unit}
    (hacts : ∀ volume session, (operation volume session).ActsAs (action volume session))
    {P : Device → Prop} (hsame : P machine.host.device)
    (haction : ∀ volume session up error after, machine.volume? = some volume →
      tree.HasDirectory session.directory up →
        (action volume session).run machine.host.device = (.error error, after) → P after)
    (hfailed : ((Step.onTree index operation).run machine).1 = .error failure) :
    P ((Step.onTree index operation).run machine).2.host.device :=
  h.failed_inSession hacts hsame (fun volume session up error after hv _ ↦
    haction volume session up error after hv) hfailed

/-- When a creation or a removal fails, the sectors of all files found from the root still count as
used in the stored free map just in case it was broken off safely. -/
theorem marked_iff_of_failed (h : machine.Upholds tree) (index : Nat) (path : String) (size : Nat)
    (hrequest : request ∈ [.createFile index path size, .createDirectory index path,
      .remove index path])
    (hfailed : (step request machine).1 = .error failure) :
    (step request machine).2.host.device.healed.Marked ↔
      SafelyBrokenOff request machine.host.device.healed
        (step request machine).2.host.device.healed := by
  have hmarked := h.stored.marked_self machine.host.device.faults_healed
  have hcreate : ∀ kind size, (kind = .directory → size = directoryFileSize) →
      ∀ volume session up error after, machine.volume? = some volume →
        tree.HasDirectory session.directory up →
        (volume.creating session path kind size).run machine.host.device = (.error error, after) →
          (after.healed.Marked ↔
            Device.SameTables machine.host.device.healed after.healed) := by
    intro kind size hsized volume session up error after hv hup hrun
    exact Volume.marked_iff_of_creating_failed h.stored (h.mapped volume hv) hup hsized hrun
  have hremove : ∀ volume session up error after, machine.volume? = some volume →
      tree.HasDirectory session.directory up →
      (volume.removing session path).run machine.host.device = (.error error, after) →
        (after.healed.Marked ↔
          SafelyBrokenOff (.remove index path) machine.host.device.healed after.healed) := by
    intro volume session up error after hv hup hrun
    exact Volume.marked_iff_of_removing_failed h.stored (h.mapped volume hv) hup hrun
  simp only [List.mem_cons, List.not_mem_nil, or_false] at hrequest
  rcases hrequest with rfl | rfl | rfl
  · rw [step, answer_createFile] at hfailed ⊢
    refine h.failed_onTree (fun volume session ↦ volume.actsAs_createEntry session path _ _) ?_
      (hcreate .regular size Kind.noConfusion) hfailed
    exact iff_of_true hmarked (Device.SameTables.refl _)
  · rw [step, answer_createDirectory] at hfailed ⊢
    refine h.failed_onTree (fun volume session ↦ volume.actsAs_createEntry session path _ _) ?_
      (hcreate .directory directoryFileSize fun _ ↦ rfl) hfailed
    exact iff_of_true hmarked (Device.SameTables.refl _)
  · rw [step, answer_remove] at hfailed ⊢
    refine h.failed_onTree (fun volume session ↦ volume.actsAs_remove session path) ?_ hremove hfailed
    exact iff_of_true hmarked (.inl (Device.SameMap.refl _))

def afflict (machine : Machine) (faults : Faults) : Machine :=
  { machine with host.device.faults := faults }

theorem Sound.upholds {volume : Volume} (h : machine.Sound volume tree) (faults : Faults) :
    (machine.afflict faults).Upholds tree := by
  have hheal : (machine.afflict faults).host.device.healed = machine.host.device :=
    Device.healed_of_faultFree h.faultFree
  refine ⟨hheal ▸ h.stored, fun volume hv ↦ ?_, h.sessions⟩
  cases h.mounted.symm.trans hv
  exact hheal ▸ h.current.map

/-- A machine with one file, on a device that refuses to write the table of the root. -/
def jammed : Machine :=
  (run [.createFile 0 "a" 0] (step .format (start (.blank 1024 128))).2).2.afflict
    { badWrites := [3] }

theorem upholds_jammed : ∃ tree, jammed.Upholds tree := by
  have hready : (Device.blank 1024 128).Ready := ⟨rfl, rfl, Nat.le_refl _, Array.size_replicate.symm⟩
  have hd : disciplined [] (step .format (start (.blank 1024 128))).2
      ([.createFile 0 "a" 0] ++ []) = true := by
    decide +kernel
  obtain ⟨-, volume, hsound⟩ := sound_format hready
  have hknows : KnowsRegular [] volume [] := nofun
  obtain ⟨-, left, tree, hrun, -, -⟩ := hsound.run hknows hd
  exact ⟨tree, hrun.upholds _⟩

theorem marked_iff_of_failed_jammed : (∃ tree, jammed.Upholds tree) ∧
    (step (.remove 0 "a") jammed).1 = .error (.refused (.device .write)) ∧
      ((step (.remove 0 "a") jammed).2.host.device.healed.Marked ↔
        SafelyBrokenOff (.remove 0 "a") jammed.host.device.healed
          (step (.remove 0 "a") jammed).2.host.device.healed) := by
  obtain ⟨tree, h⟩ := upholds_jammed
  have hfailed : (step (.remove 0 "a") jammed).1 = .error (.refused (.device .write)) := by
    decide +kernel
  exact ⟨⟨tree, h⟩, hfailed, marked_iff_of_failed h 0 "a" 0 (by simp) hfailed⟩

/-- The map was written and the table was not: the file is there, and its sector counts as free. -/
theorem not_marked_of_failed : (∃ tree, jammed.Upholds tree) ∧
    (step (.remove 0 "a") jammed).1 = .error (.refused (.device .write)) ∧
      ¬(step (.remove 0 "a") jammed).2.host.device.healed.Marked := by
  refine ⟨upholds_jammed, by decide +kernel, ?_⟩
  have hlocate : Volume.locate {} "a" (step (.remove 0 "a") jammed).2.host.device.healed =
      .ok (rootSector, "a") := by
    decide +kernel
  have hentry : (Volume.entryAt {} "a" (step (.remove 0 "a") jammed).2.host.device.healed).map
      Entry.sector = .ok 5 := by
    decide +kernel
  have hfree : ((step (.remove 0 "a") jammed).2.host.device.healed.openFile freeMapSector >>=
      fun file ↦ FreeMap.load file (step (.remove 0 "a") jammed).2.host.device.healed).map
        (fun map ↦ map.used 5) = .ok false := by
    decide +kernel
  -- The rest is true of any device that answers these three questions so.
  generalize (step (.remove 0 "a") jammed).2.host.device.healed = device at hlocate hentry hfree
  intro hmarked
  obtain ⟨map, ⟨mapFile, hopen, -, hload⟩, hused⟩ := hmarked
  cases hfound : Volume.entryAt {} "a" device with
  | error error =>
    rw [hfound] at hentry
    contradiction
  | ok entry =>
    rw [hfound] at hentry
    obtain ⟨here, name, file, table, hlocate', hopen', hfind⟩ := Volume.entryAt_eq_ok_iff.1 hfound
    cases hlocate.symm.trans hlocate'
    have hin := hused rootSector file table entry .root hopen' (Directory.mem_of_find? hfind).1 _
      List.mem_cons_self
    simp only [hopen, bind, Except.bind, hload, Except.map, Except.ok.injEq] at hfree hentry
    rw [hentry, hfree] at hin
    contradiction

end Machine

end SectorFS
