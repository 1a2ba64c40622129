import SectorFS.Proofs.Binding
import SectorFS.Proofs.Soundness.Runs

namespace SectorFS

open Layout

/-- The device now holds a file at `s` of which it reads the same as of `file`. -/
def Device.ReadsLike (device : Device) (s : UInt32) (file : File) : Prop :=
  ∃ now, device.openFile s = .ok now ∧ now.length = file.length ∧
    ∀ count pos, now.read count pos device = file.read count pos device

theorem Device.readsLike_of_openFile {device : Device} {s : UInt32} {file : File}
    (h : device.openFile s = .ok file) : device.ReadsLike s file :=
  ⟨file, h, rfl, fun _ _ ↦ rfl⟩

namespace Machine

variable {machine : Machine} {device : Device} {requests : List Request} {index handle : Nat}
  {path : String} {opened : OpenFile}

theorem step_openFiles (machine : Machine) :
    (step .openFiles machine).1 = match machine.volume? with
      | none => .error .noVolume
      | some volume => .ok (.files volume.openTable.list) := by
  rw [step, answer, run_bind, Step.run_volume]
  cases machine.volume? <;> rfl

def shownLength? (machine : Machine) (handle : Nat) : Option Nat :=
  match (step .openFiles machine).1 with
  | .ok (.files files) =>
    (files.find? fun listed ↦ listed.handle == handle).map ListedFile.length
  | _ => none

theorem shownLength?_eq (machine : Machine) (handle : Nat) :
    machine.shownLength? handle = (machine.opened? handle).map fun opened ↦ opened.file.length := by
  rw [shownLength?, step_openFiles, opened?]
  cases machine.volume? with
  | none => rfl
  | some volume =>
    dsimp only
    rw [OpenTable.find?_list, Option.map_map]
    rfl

def answerRead : Except Error Bytes → Except Failure Reply
  | .ok bytes => .ok (.ofHandle (.bytes bytes))
  | .error error => .error (.refused error)

theorem answerRead_injective : Function.Injective answerRead := by
  intro first second h
  cases first <;> cases second <;> cases h <;> rfl

theorem step_readAt (h : machine.opened? handle = some opened) (count pos : Nat) :
    (step (.call handle (.readAt count pos)) machine).1 =
      answerRead (opened.file.read count pos machine.host.device) := by
  obtain ⟨volume, hv, hget⟩ := Option.bind_eq_some_iff.1 h
  rw [step_call, hv]
  dsimp only
  rw [OpenTable.run_call, hget]
  dsimp only
  rw [OpenFile.call, run_bind, Operation.run_query]
  cases opened.file.read count pos machine.host.device <;> rfl

/-- The handle stands for the file whose header is stored at `s`: the length shown for it is the one
in that header, and reading through it gives what the file reads. -/
def Serves (machine : Machine) (handle : Nat) (s : UInt32) : Prop :=
  ∃ file, machine.host.device.openFile s = .ok file ∧
    machine.shownLength? handle = some file.length ∧
    ∀ count pos, (step (.call handle (.readAt count pos)) machine).1 =
      answerRead (file.read count pos machine.host.device)

theorem serves_iff (h : machine.opened? handle = some opened) (s : UInt32) :
    machine.Serves handle s ↔ machine.host.device.ReadsLike s opened.file := by
  have hshown : machine.shownLength? handle = some opened.file.length := by
    rw [shownLength?_eq, h]
    rfl
  constructor
  · rintro ⟨now, hopen, hlength, hread⟩
    refine ⟨now, hopen, Option.some.inj (hlength.symm.trans hshown), fun count pos ↦ ?_⟩
    exact answerRead_injective ((hread count pos).symm.trans (step_readAt h count pos))
  · rintro ⟨now, hopen, hlength, hread⟩
    refine ⟨now, hopen, hshown.trans (congrArg some hlength.symm), fun count pos ↦ ?_⟩
    rw [step_readAt h, hread]

theorem Sound.serves {volume : Volume} {tree : Tree} (h : machine.Sound volume tree)
    (hopened : machine.opened? handle = some opened) : machine.Serves handle opened.sector := by
  refine (serves_iff hopened _).2 (Device.readsLike_of_openFile ?_)
  exact (h.current.opened handle opened (h.opened?_eq handle ▸ hopened)).2

/-- While nobody removes a file in use, all handles stand for the files that they are bound to. -/
theorem serves_of_disciplined (h : device.Ready)
    (hd : disciplined [] (step .format (start device)).2 requests = true)
    (hopened : (run (.format :: requests) (start device)).2.opened? handle = some opened) :
    (run (.format :: requests) (start device)).2.Serves handle opened.sector := by
  obtain ⟨volume, tree, hsound⟩ := sound_of_disciplined h hd
  exact hsound.serves hopened

/-- Whoever opens a path in the course of any run gets a handle of the sector that the path leads
to. It stands for the file there just in case this file reads like the one that was there when the
sector was bound to the handle. -/
theorem serves_iff_of_opened
    (h : (step (.openFile index path) (run requests (start device)).2).1 = .ok (.number handle)) :
    ∃ session s file, (run requests (start device)).2.sessions[index]? = some session ∧
      Volume.lookup session path (run requests (start device)).2.host.device = .ok s ∧
      BoundAlong (start device) (requests ++ [.openFile index path]) handle s file ∧
      ((run (requests ++ [.openFile index path]) (start device)).2.Serves handle s ↔
        (run (requests ++ [.openFile index path]) (start device)).2.host.device.ReadsLike s
          file) := by
  obtain ⟨session, s, opened, hsession, hlookup, hopened, rfl⟩ := of_openFile h
  rw [← run_concat] at hopened
  exact ⟨session, opened.sector, opened.file, hsession, hlookup, bound_of_run rfl hopened,
    serves_iff hopened _⟩

/-- The sector of a file in use was given to another file by the time the path is opened again. -/
def reusing : List Request :=
  [.format, .createFile 0 "a" 10, .openFile 0 "a", .remove 0 "a", .createFile 0 "a" 500]

theorem opens_reusing :
    (step (.openFile 0 "a") (run reusing (start (.blank 1024 128))).2).1 = .ok (.number 0) := by
  decide +kernel

theorem serves_iff_of_opened_reusing :
    (step (.openFile 0 "a") (run reusing (start (.blank 1024 128))).2).1 = .ok (.number 0) ∧
      ∃ session s file, (run reusing (start (.blank 1024 128))).2.sessions[0]? = some session ∧
        Volume.lookup session "a" (run reusing (start (.blank 1024 128))).2.host.device = .ok s ∧
        BoundAlong (start (.blank 1024 128)) (reusing ++ [.openFile 0 "a"]) 0 s file ∧
        ((run (reusing ++ [.openFile 0 "a"]) (start (.blank 1024 128))).2.Serves 0 s ↔
          (run (reusing ++ [.openFile 0 "a"]) (start (.blank 1024 128))).2.host.device.ReadsLike s
            file) := by
  exact ⟨opens_reusing, serves_iff_of_opened opens_reusing⟩

/-- The handle that is given out still shows the length of the file that was removed. -/
theorem not_serves_reusing :
    (step (.openFile 0 "a") (run reusing (start (.blank 1024 128))).2).1 = .ok (.number 0) ∧
      Volume.lookup {} "a" (run reusing (start (.blank 1024 128))).2.host.device = .ok 5 ∧
      ¬(run (reusing ++ [.openFile 0 "a"]) (start (.blank 1024 128))).2.Serves 0 5 := by
  refine ⟨opens_reusing, by decide +kernel, ?_⟩
  have hseen : (run (reusing ++ [.openFile 0 "a"]) (start (.blank 1024 128))).2.shownLength? 0 =
        some 10 ∧
      ((run (reusing ++ [.openFile 0 "a"]) (start (.blank 1024 128))).2.host.device.openFile 5).map
        File.length = .ok 500 := by
    decide +kernel
  generalize (run (reusing ++ [.openFile 0 "a"]) (start (.blank 1024 128))).2 = machine at *
  obtain ⟨hshown, hstored⟩ := hseen
  rintro ⟨file, hopen, hlength, -⟩
  rw [hopen] at hstored
  rw [hshown, Except.ok.inj hstored] at hlength
  contradiction

end Machine

end SectorFS
