import SectorFS.Proofs.Demands
import SectorFS.Proofs.Soundness.Runs
import SectorFS.Proofs.Tree.Walks

namespace SectorFS

open Layout

/-- The device stores the tree without two entries of one name in a directory, and the headers that
the volume keeps of the free map and of the root are those on the device. -/
structure Volume.Settled (volume : Volume) (tree : Tree) (device : Device) : Prop where
  faultFree : device.faults = {}
  stored : tree.Stored device
  distinct : tree.DistinctNames device
  map : device.openFile freeMapSector = .ok volume.freeMapFile
  root : device.openFile rootSector = .ok volume.rootFile

theorem Machine.Sound.settled {machine : Machine} {volume : Volume} {tree : Tree}
    (h : machine.Sound volume tree) : volume.Settled tree machine.host.device :=
  ⟨h.faultFree, h.stored, h.tidy.names, h.current.map, h.current.root⟩

/-- The walk gets along the first names, and not along the next one: there is no entry of that name,
or it is that of a regular file. -/
def Path.Stops (device : Device) (start : UInt32) (names : List String) (error : Error) : Prop :=
  ∃ first name rest here table, names = first ++ name :: rest ∧
    walk device start first = .ok here ∧ device.HasTable here table ∧
      (table.find? name = none ∧ error = .notFound name ∨
        ∃ entry, table.find? name = some entry ∧ entry.kind = .regular ∧
          error = .notDirectory name)

namespace Tree

variable {tree : Tree} {device : Device} {start up : UInt32}

theorem Stored.walk_cases (h : tree.Stored device) (hdir : tree.HasDirectory start up)
    (names : List String) :
    (∃ here above, Path.walk device start names = .ok here ∧ tree.HasDirectory here above) ∨
      ∃ error, Path.walk device start names = .error error ∧
        Path.Stops device start names error := by
  induction names generalizing start up with
  | nil => exact .inl ⟨start, up, rfl, hdir⟩
  | cons name rest ih =>
    obtain ⟨table, htable, -⟩ := h.tables start up hdir
    obtain ⟨file, hopen, -⟩ := id htable
    rw [Path.walk_cons]
    cases hfind : table.find? name with
    | none =>
      rw [Path.enter_of_find?_eq_none hopen hfind]
      exact .inr ⟨_, rfl, [], name, rest, start, table, rfl, rfl, htable, .inl ⟨hfind, rfl⟩⟩
    | some entry =>
      cases hkind : entry.kind with
      | regular =>
        rw [Path.enter_of_regular hopen hfind hkind]
        exact .inr ⟨_, rfl, [], name, rest, start, table, rfl, rfl, htable,
          .inr ⟨entry, hfind, hkind, rfl⟩⟩
      | directory =>
        have henter := Path.enter_eq_ok_iff.2 ⟨file, table, entry, hopen, hfind, hkind, rfl⟩
        obtain ⟨above, hnext⟩ :=
          h.hasDirectory_of_entry hdir hopen (Directory.mem_of_find? hfind).1 hkind
        rw [henter]
        refine (ih hnext).imp_right ?_
        rintro ⟨error, hwalk, first, next, last, here, other, rfl, hfirst, hother⟩
        refine ⟨error, hwalk, name :: first, next, last, here, other, rfl, ?_, hother⟩
        rw [Path.walk_cons, henter]
        exact hfirst

end Tree

namespace Volume

variable {volume : Volume} {tree : Tree} {session : Session} {path : String} {device : Device}
  {demands : Directory → FreeMap → String → List Demand} {answer : Except Error Unit}

/-- A change of the tree is answered by the first thing that is amiss: the path has no final
component, the walk to its directory stops, or a demand is not met there. -/
structure Answers (demands : Directory → FreeMap → String → List Demand) (session : Session)
    (path : String) (device : Device) (answer : Except Error Unit) : Prop where
  nameless : Path.components path = [] →
    answer = .error (.invalidArgument (.noFinalComponent path))
  lost : ∀ names name error, Path.components path = names ++ [name] →
    Path.walk device (Path.origin session.directory path) names = .error error →
      answer = .error error ∧
        Path.Stops device (Path.origin session.directory path) names error
  decided : ∀ names name here, Path.components path = names ++ [name] →
    Path.walk device (Path.origin session.directory path) names = .ok here →
      ∃ table map, device.HasTable here table ∧ device.HasMap map ∧
        answer = Demand.check (demands table map name)

theorem Answers.eq_ok_iff (h : Answers demands session path device answer) : answer = .ok () ↔
    ∃ names name here table map, Path.components path = names ++ [name] ∧
      Path.walk device (Path.origin session.directory path) names = .ok here ∧
      device.HasTable here table ∧ device.HasMap map ∧
      ∀ demand ∈ demands table map name, demand.met = true := by
  constructor
  · intro hanswer
    rcases List.eq_nil_or_concat (Path.components path) with hnone | ⟨names, name, hcomponents⟩
    · exact absurd (hanswer.symm.trans (h.nameless hnone)) nofun
    · rw [List.concat_eq_append] at hcomponents
      cases hwalk : Path.walk device (Path.origin session.directory path) names with
      | error error =>
        exact absurd (hanswer.symm.trans (h.lost names name error hcomponents hwalk).1) nofun
      | ok here =>
        obtain ⟨table, map, htable, hmap, hcheck⟩ := h.decided names name here hcomponents hwalk
        exact ⟨names, name, here, table, map, hcomponents, hwalk, htable, hmap,
          Demand.check_eq_ok_iff.1 (hcheck.symm.trans hanswer)⟩
  · rintro ⟨names, name, here, table, map, hcomponents, hwalk, htable, hmap, hmet⟩
    obtain ⟨table', map', htable', hmap', hcheck⟩ := h.decided names name here hcomponents hwalk
    rw [hcheck, htable'.eq htable, hmap'.eq hmap]
    exact Demand.check_eq_ok_iff.2 hmet

theorem Settled.answers {α : Type} {ask : Except Error α} (h : volume.Settled tree device)
    (hsession : device.Reaches session.directory)
    (hlost : ∀ error, locate session path device = .error error → ask = .error error)
    (hdecided : ∀ here name file table map, locate session path device = .ok (here, name) →
      separator ∉ name.toList → device.openDirectory here = .ok (file, table) →
        volume.freeMap device = .ok map → Demand.Governs (demands table map name) ask) :
    Answers demands session path device (ask.map fun _ ↦ ()) := by
  obtain ⟨up, hup⟩ := h.stored.reaches_iff.1 hsession
  obtain ⟨above, hdir⟩ := Tree.hasDirectory_origin hup path
  refine ⟨fun hnone ↦ ?_, fun names name error hcomponents hwalk ↦ ?_,
    fun names name here hcomponents hwalk ↦ ?_⟩
  · rw [hlost _ (locate_of_nameless hnone)]
    rfl
  · rcases h.stored.walk_cases hdir names with ⟨here, above, hok, -⟩ | ⟨error', herror, hstops⟩
    · exact absurd (hwalk.symm.trans hok) nofun
    · cases hwalk.symm.trans herror
      refine ⟨?_, hstops⟩
      rw [hlost error (by rw [locate_of_components hcomponents, hwalk]; rfl)]
      rfl
  · rcases h.stored.walk_cases hdir names with ⟨here', above, hok, hhere⟩ | ⟨error, herror, -⟩
    · cases hwalk.symm.trans hok
      obtain ⟨table, htable, -⟩ := h.stored.tables here above hhere
      obtain ⟨file, hopen, -⟩ := id htable
      obtain ⟨map, hmap, -⟩ := h.stored.marked
      obtain ⟨mapFile, hmapFile, -, hload⟩ := id hmap
      cases h.map.symm.trans hmapFile
      have hname : name ∈ Path.components path := hcomponents ▸ List.mem_append_right _ (by simp)
      refine ⟨table, map, htable, hmap, hdecided here name file table map ?_
        (Path.of_mem_components hname).1 hopen hload⟩
      rw [locate_of_components hcomponents, hwalk]
      rfl
    · exact absurd (hwalk.symm.trans herror) nofun

def furnished : Machine :=
  (Machine.run [.format, .createDirectory 0 "d", .createFile 0 "a" 10]
    (Machine.start (.blank 1024 128))).2

theorem settled_furnished : ∃ volume tree, furnished.volume? = some volume ∧
    volume.Settled tree furnished.host.device := by
  have hready : (Device.blank 1024 128).Ready := Device.ready_blank (Nat.le_refl _)
  have hd : Machine.disciplined [] (Machine.step .format (Machine.start (.blank 1024 128))).2
      [.createDirectory 0 "d", .createFile 0 "a" 10] = true := by
    decide +kernel
  have hm : furnished = (Machine.run (.format :: [.createDirectory 0 "d", .createFile 0 "a" 10])
      (Machine.start (.blank 1024 128))).2 := rfl
  obtain ⟨volume, tree, hsound⟩ := Machine.sound_of_disciplined hready hd
  rw [← hm] at hsound
  exact ⟨volume, tree, hsound.mounted, hsound.settled⟩

end Volume

end SectorFS
