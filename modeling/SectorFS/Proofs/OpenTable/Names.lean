import SectorFS.Proofs.Binding
import SectorFS.Proofs.Guarded.Boundary
import SectorFS.Proofs.OpenTable.Runs

namespace SectorFS

open Layout Operation

/-- The text starts with these characters, and with no more that fit into so many bytes. -/
structure LongestStart (room : Nat) (text start : String) : Prop where
  starts : start.toList <+: text.toList
  fits : start.utf8ByteSize ≤ room
  longest : ∀ other : String, other.toList <+: text.toList → other.utf8ByteSize ≤ room →
    other.toList <+: start.toList

theorem LongestStart.eq {room : Nat} {text start other : String} (h : LongestStart room text start)
    (h' : LongestStart room text other) : start = other := by
  have hle := (h.longest other h'.starts h'.fits).length_le
  exact String.toList_inj.1 ((h'.longest start h.starts h.fits).eq_of_length_le hle)

namespace OpenTable

variable {table : OpenTable} {call : TableCall} {host : Host} {handle room : Nat}
  {text other : List Char} {now : OpenFile} {name start : String}

/-! ## Shortened names -/

theorem prefix_fitting (hstarts : other <+: text) (hfits : byteLength other ≤ room) :
    other <+: fitting room text := by
  induction text generalizing room other with
  | nil =>
    rw [List.prefix_nil.1 hstarts]
    exact List.nil_prefix
  | cons c rest ih =>
    cases other with
    | nil => exact List.nil_prefix
    | cons d more =>
      obtain ⟨rfl, hmore⟩ := List.cons_prefix_cons.1 hstarts
      rw [Guarded.byteLength_cons] at hfits
      have hrest : byteLength more ≤ room - d.utf8Size := by omega
      rw [fitting, if_pos (by omega)]
      exact List.cons_prefix_cons.2 ⟨rfl, ih hmore hrest⟩

theorem longestStart_keptName (name : String) :
    LongestStart openNameLength name (keptName name) := by
  obtain ⟨rest, hrest⟩ := Guarded.fitting_prefix openNameLength name.toList
  refine ⟨?_, ?_, fun other hstarts hfits ↦ ?_⟩
  · rw [keptName, String.toList_ofList]
    exact ⟨rest, hrest.symm⟩
  · rw [← Guarded.byteLength_toList, keptName, String.toList_ofList]
    exact Guarded.byteLength_fitting_le openNameLength name.toList
  · rw [← Guarded.byteLength_toList] at hfits
    rw [keptName, String.toList_ofList]
    exact prefix_fitting hstarts hfits

theorem longestStart_iff : LongestStart openNameLength name start ↔ start = keptName name := by
  constructor
  · exact fun h ↦ h.eq (longestStart_keptName name)
  · rintro rfl
    exact longestStart_keptName name

structure Shortened (name : String) : Prop where
  stops : Guarded.shortName name = .ok (keptName name)
  boundary : ∀ place,
    (Bytes.ofText name).mayCut place = Guarded.isBoundary name.toList place
  bytes : Guarded.shortBytes (Bytes.ofText name) = .ok (Bytes.ofText (keptName name))
  longest : ∀ start, LongestStart openNameLength name start ↔ start = keptName name

theorem shortened (name : String) : Shortened name :=
  ⟨Guarded.shortName_eq name, Guarded.mayCut_eq name.toList, Guarded.shortBytes_eq name,
    fun _ ↦ longestStart_iff⟩

/-! ## One call -/

def Opens (table : OpenTable) (host : Host) (handle : Nat) (call : TableCall) (name : String) :
    Prop :=
  (∃ sector load, call = .openFile name sector load) ∧
    (step call table host).1 = .ok (.handle handle)

theorem named_of_onHandle {other : Nat} {call : HandleCall}
    (h : (step (.onHandle other call) table host).2.1.get? handle = some now) :
    ∃ was, table.get? handle = some was ∧ now.name = was.name := by
  have hmoves : table.Moves _ (step (.onHandle other call) table host).2.1 :=
    moves_onHandle other call host
  generalize (step (.onHandle other call) table host).2.1 = after at h hmoves
  cases hmoves with
  | stay => exact ⟨now, h, rfl⟩
  | move _ cursor hget =>
    rw [get?_set] at h
    split at h
    · next hself =>
      obtain ⟨rfl, -⟩ := hself
      cases h
      exact ⟨_, hget, rfl⟩
    · exact ⟨now, h, rfl⟩
  | free =>
    rw [get?_set] at h
    split at h
    · contradiction
    · exact ⟨now, h, rfl⟩

theorem named_of_set {bound : Nat} {sector : UInt32} {file : File} (hfree : table.get? bound = none)
    (h : (table.set bound (some ⟨sector, keptName name, 0, file⟩)).get? handle = some now) :
    (∃ was, table.get? handle = some was ∧ now.name = was.name) ∨
      table.get? handle = none ∧ bound = handle ∧ now.name = keptName name := by
  rw [get?_set] at h
  split at h
  · next hself =>
    obtain ⟨rfl, -⟩ := hself
    cases h
    exact .inr ⟨hfree, rfl, rfl⟩
  · exact .inl ⟨now, h, rfl⟩

theorem named_of_openFile {sector : UInt32} {load : Operation File}
    (h : (step (.openFile name sector load) table host).2.1.get? handle = some now) :
    (∃ was, table.get? handle = some was ∧ now.name = was.name) ∨
      table.get? handle = none ∧
        (step (.openFile name sector load) table host).1 = .ok (.handle handle) ∧
          now.name = keptName name := by
  rw [step, serve_openFile, run_bind] at h ⊢
  cases hrun : (table.openFile name sector load).run host with
  | mk outcome loaded =>
    rw [hrun] at h
    cases outcome with
    | error error => exact .inl ⟨now, h, rfl⟩
    | ok answer =>
      obtain ⟨bound, after⟩ := answer
      rcases openFile_ok hrun with ⟨rfl, -⟩ | ⟨-, file, -, hfree, -, rfl⟩
      · exact .inl ⟨now, h, rfl⟩
      · rcases named_of_set hfree h with hwas | ⟨hnone, rfl, hname⟩
        · exact .inl hwas
        · exact .inr ⟨hnone, rfl, hname⟩

/-- What is open after a call had its name before, or the call opened it at a free handle. -/
theorem named_of_step (h : (step call table host).2.1.get? handle = some now) :
    (∃ was, table.get? handle = some was ∧ now.name = was.name) ∨
      table.get? handle = none ∧
        ∃ name, table.Opens host handle call name ∧ now.name = keptName name := by
  cases call with
  | onHandle other call => exact .inl (named_of_onHandle h)
  | closeAll =>
    rw [step_closeAll, get?_empty] at h
    contradiction
  | openFile name sector load =>
    rcases named_of_openFile h with hwas | ⟨hnone, hanswer, hname⟩
    · exact .inl hwas
    · exact .inr ⟨hnone, name, ⟨⟨sector, load, rfl⟩, hanswer⟩, hname⟩

end OpenTable

namespace Machine

variable {machine : Machine} {request : Request} {handle other : Nat} {volume : Volume}
  {now : OpenFile} {path : String}

def Opens (machine : Machine) (handle : Nat) (request : Request) (path : String) : Prop :=
  (∃ index, request = .openFile index path) ∧ (step request machine).1 = .ok (.number handle)

theorem opened?_call (hv : machine.volume? = some volume) (other : Nat) (call : HandleCall)
    (handle : Nat) : (step (.call other call) machine).2.opened? handle =
      (OpenTable.step (.onHandle other call) volume.openTable machine.host).2.1.get? handle := by
  rw [step_call, hv]
  simp only [OpenTable.step, OpenTable.serve, run_bind]
  cases (volume.openTable.call other call).run machine.host with
  | mk outcome after => cases outcome <;> rfl

theorem named_of_volume? {after : Machine} (hv : after.volume? = machine.volume?)
    (h : after.opened? handle = some now) :
    ∃ was, machine.opened? handle = some was ∧ now.name = was.name := by
  rw [opened?, hv] at h
  exact ⟨now, h, rfl⟩

theorem named_of_call {call : HandleCall}
    (h : (step (.call other call) machine).2.opened? handle = some now) :
    ∃ was, machine.opened? handle = some was ∧ now.name = was.name := by
  cases hv : machine.volume? with
  | none =>
    rw [step_call, hv] at h
    exact named_of_volume? rfl h
  | some volume =>
    rw [opened?_call hv] at h
    rw [opened?_eq hv]
    exact OpenTable.named_of_onHandle h

theorem named_of_openFile {index : Nat}
    (h : (step (.openFile index path) machine).2.opened? handle = some now) :
    (∃ was, machine.opened? handle = some was ∧ now.name = was.name) ∨
      machine.opened? handle = none ∧
        (step (.openFile index path) machine).1 = .ok (.number handle) ∧
          now.name = OpenTable.keptName path := by
  rcases openFile_cases machine index path with ⟨-, hv⟩ |
    ⟨volume, session, bound, left, after, hv, -, hrun, hstep⟩
  · exact .inl (named_of_volume? hv h)
  · rw [hstep, opened?, Option.bind_some] at h
    rw [opened?_eq hv, hstep]
    obtain ⟨s, -, ⟨rfl, -⟩ | ⟨file, -, hfree, -, rfl⟩⟩ := Volume.openFile_ok hrun
    · exact .inl ⟨now, h, rfl⟩
    · rcases OpenTable.named_of_set hfree h with hwas | ⟨hnone, rfl, hname⟩
      · exact .inl hwas
      · exact .inr ⟨hnone, rfl, hname⟩

theorem named_of_step (h : (step request machine).2.opened? handle = some now) :
    (∃ was, machine.opened? handle = some was ∧ now.name = was.name) ∨
      machine.opened? handle = none ∧
        ∃ path, machine.Opens handle request path ∧ now.name = OpenTable.keptName path := by
  by_cases hcall : ∀ other call, request ≠ .call other call
  · by_cases hopening : ∀ index path, request ≠ .openFile index path
    · rcases volume?_step_or_cleared hopening hcall machine with hv | hnone
      · exact .inl (named_of_volume? hv h)
      · rw [hnone handle] at h
        contradiction
    · simp only [not_forall, not_not] at hopening
      obtain ⟨index, path, rfl⟩ := hopening
      rcases named_of_openFile h with hwas | ⟨hnone, hanswer, hname⟩
      · exact .inl hwas
      · exact .inr ⟨hnone, path, ⟨⟨index, rfl⟩, hanswer⟩, hname⟩
  · simp only [not_forall, not_not] at hcall
    obtain ⟨other, call, rfl⟩ := hcall
    exact .inl (named_of_call h)

end Machine

/-! ## Runs -/

/-- One of the inputs opened a file under this name where none was open, and one has been open there
ever since. -/
def OpenedAs {ι : Type} (opened? : List ι → Option OpenFile) (Opens : List ι → ι → String → Prop)
    (inputs : List ι) (name : String) : Prop :=
  ∃ earlier input later, inputs = earlier ++ input :: later ∧ opened? earlier = none ∧
    Opens earlier input name ∧
    ∀ middle, middle <+: later → ∃ opened, opened? (earlier ++ input :: middle) = some opened

/-- What is open at the end has its name from the input that opened it. -/
theorem openedAs_of_steps {ι : Type} {opened? : List ι → Option OpenFile}
    {Opens : List ι → ι → String → Prop} (hstart : opened? [] = none)
    (hstep : ∀ earlier input now, opened? (earlier ++ [input]) = some now →
      (∃ was, opened? earlier = some was ∧ now.name = was.name) ∨ opened? earlier = none ∧
        ∃ name, Opens earlier input name ∧ now.name = OpenTable.keptName name)
    {inputs : List ι} {opened : OpenFile} (h : opened? inputs = some opened) :
    ∃ name, OpenedAs opened? Opens inputs name ∧ opened.name = OpenTable.keptName name := by
  let Held (inputs : List ι) : Prop := ∃ now, opened? inputs = some now ∧ now.name = opened.name
  let Names (earlier : List ι) (input : ι) : Prop := opened? earlier = none ∧
    ∃ name, Opens earlier input name ∧ opened.name = OpenTable.keptName name
  have hfirst : ¬Held [] := fun ⟨now, hnow, _⟩ ↦ nomatch hstart.symm.trans hnow
  have hheld : ∀ earlier input, Held (earlier ++ [input]) →
      Held earlier ∨ Names earlier input := by
    rintro earlier input ⟨now, hnow, hname⟩
    rcases hstep earlier input now hnow with ⟨was, hwas, heq⟩ | ⟨hfree, name, hopens, heq⟩
    · exact .inl ⟨was, hwas, heq ▸ hname⟩
    · exact .inr ⟨hfree, name, hopens, hname.symm.trans heq⟩
  obtain ⟨earlier, input, later, rfl, ⟨hfree, name, hopens, hname⟩, hsince⟩ :=
    exists_since hfirst hheld ⟨opened, h, rfl⟩
  refine ⟨name, ⟨earlier, input, later, rfl, hfree, hopens, fun middle hmiddle ↦ ?_⟩, hname⟩
  obtain ⟨now, hnow, -⟩ := hsince middle hmiddle
  exact ⟨now, hnow⟩

namespace Machine

variable {machine : Machine} {requests : List Request} {handle : Nat} {opened : OpenFile}

/-- What was opened under the path and is open at the handle since. -/
def OpenedAs (machine : Machine) (requests : List Request) (handle : Nat) (path : String) : Prop :=
  SectorFS.OpenedAs (fun requests ↦ (run requests machine).2.opened? handle)
    (fun earlier ↦ (run earlier machine).2.Opens handle) requests path

theorem openedAs_of_run (hstart : machine.opened? handle = none)
    (h : (run requests machine).2.opened? handle = some opened) :
    ∃ path, machine.OpenedAs requests handle path ∧ opened.name = OpenTable.keptName path := by
  refine openedAs_of_steps hstart (fun earlier request now hnow ↦ ?_) h
  rw [run_concat] at hnow
  exact named_of_step hnow

end Machine

namespace OpenTable

variable {table : OpenTable} {calls : List TableCall} {host : Host} {handle : Nat}
  {opened : OpenFile}

theorem run_concat (calls : List TableCall) (call : TableCall) (table : OpenTable) (host : Host) :
    (run (calls ++ [call]) table host).2 =
      (step call (run calls table host).2.1 (run calls table host).2.2).2 := by
  induction calls generalizing table host with
  | nil => rfl
  | cons first rest ih => exact ih (step first table host).2.1 (step first table host).2.2

def OpenedAs (table : OpenTable) (host : Host) (calls : List TableCall) (handle : Nat)
    (name : String) : Prop :=
  SectorFS.OpenedAs (fun calls ↦ (run calls table host).2.1.get? handle)
    (fun earlier ↦ (run earlier table host).2.1.Opens (run earlier table host).2.2 handle) calls name

theorem openedAs_of_run (hstart : table.get? handle = none)
    (h : (run calls table host).2.1.get? handle = some opened) :
    ∃ name, table.OpenedAs host calls handle name ∧ opened.name = keptName name := by
  refine openedAs_of_steps hstart (fun earlier call now hnow ↦ ?_) h
  rw [run_concat] at hnow
  exact named_of_step hnow

/-- For every text, and for every run of a table or of a machine, whatever the device holds. -/
theorem keeps_longest_start :
    (∀ name, Shortened name) ∧
    (∀ (table : OpenTable) (host : Host) (calls : List TableCall) (handle : Nat)
      (opened : OpenFile), table.get? handle = none →
      (run calls table host).2.1.get? handle = some opened →
      ∃ name, table.OpenedAs host calls handle name ∧
        LongestStart openNameLength name opened.name) ∧
    ∀ (machine : Machine) (requests : List Request) (handle : Nat) (opened : OpenFile),
      machine.opened? handle = none →
      (Machine.run requests machine).2.opened? handle = some opened →
      ∃ path, machine.OpenedAs requests handle path ∧
        LongestStart openNameLength path opened.name := by
  refine ⟨shortened, fun table host calls handle opened hstart h ↦ ?_,
    fun machine requests handle opened hstart h ↦ ?_⟩
  · obtain ⟨name, hopened, hname⟩ := openedAs_of_run hstart h
    exact ⟨name, hopened, longestStart_iff.2 hname⟩
  · obtain ⟨path, hopened, hname⟩ := Machine.openedAs_of_run hstart h
    exact ⟨path, hopened, longestStart_iff.2 hname⟩

def crossing : String := "./././././././././././././././é"

/-- The file is open under the thirty bytes before that character. -/
theorem keeps_longest_start_crossing :
    Guarded.shortBytes (Bytes.ofText crossing) =
        .ok (Bytes.ofText "./././././././././././././././") ∧
      (Machine.start (.blank 1024 128)).opened? 0 = none ∧
      ∃ opened : OpenFile, (Machine.run [.format, .createFile 0 "é" 5, .openFile 0 crossing]
          (Machine.start (.blank 1024 128))).2.opened? 0 = some opened ∧
        opened.name = "./././././././././././././././" ∧
        ∃ path, (Machine.start (.blank 1024 128)).OpenedAs
            [.format, .createFile 0 "é" 5, .openFile 0 crossing] 0 path ∧
          LongestStart openNameLength path opened.name := by
  have hname : ((Machine.run [.format, .createFile 0 "é" 5, .openFile 0 crossing]
      (Machine.start (.blank 1024 128))).2.opened? 0).map OpenFile.name =
        some "./././././././././././././././" := by
    decide +kernel
  obtain ⟨opened, hopened, hname⟩ := Option.map_eq_some_iff.1 hname
  obtain ⟨hshort, -, hmachine⟩ := keeps_longest_start
  have hkept : keptName crossing = "./././././././././././././././" := by decide +kernel
  exact ⟨hkept ▸ (hshort crossing).bytes, rfl, opened, hopened, hname,
    hmachine _ _ 0 opened rfl hopened⟩

end OpenTable

end SectorFS
