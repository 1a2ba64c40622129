import SectorFS.Proofs.OpenTable.Runs

namespace SectorFS

open Operation

namespace Device

variable {device after : Device} {first second : List Edit}

theorem blocks_put_edit {s : UInt32} {block : Block} (h : ∀ edit ∈ second, edit.1 ≠ s) :
    ((device.put s block).edit second).blocks = ((device.edit second).put s block).blocks := by
  induction second generalizing device with
  | nil => rfl
  | cons edit rest ih =>
    have hswap : ((device.put s block).put edit.1 edit.2).blocks =
        ((device.put edit.1 edit.2).put s block).blocks := by
      apply Array.setIfInBounds_comm
      intro heq
      exact h edit (by simp) (UInt32.toNat_inj.1 heq).symm
    calc ((device.put s block).edit (edit :: rest)).blocks
      _ = (((device.put edit.1 edit.2).put s block).edit rest).blocks := blocks_edit_congr hswap rest
      _ = _ := ih fun next hnext ↦ h next (by simp [hnext])

theorem blocks_edit_comm (h : ∀ left ∈ first, ∀ right ∈ second, left.1 ≠ right.1) :
    ((device.edit first).edit second).blocks = ((device.edit second).edit first).blocks := by
  induction first generalizing device with
  | nil => rfl
  | cons edit rest ih =>
    have hhead : ∀ right ∈ second, right.1 ≠ edit.1 :=
      fun right hright ↦ (h edit (by simp) right hright).symm
    calc ((device.edit (edit :: rest)).edit second).blocks
      _ = (((device.put edit.1 edit.2).edit second).edit rest).blocks :=
        ih fun left hleft ↦ h left (by simp [hleft])
      _ = _ := blocks_edit_congr (blocks_put_edit hhead) rest

end Device

namespace OpenFile

variable {opened : OpenFile} {device after : Device}

theorem replyTo_congr (h : ∀ s ∈ opened.file.header.dataSectors, after.block? s = device.block? s)
    (call : HandleCall) : opened.replyTo after call = opened.replyTo device call := by
  cases call with
  | read | readAt => simp [replyTo, File.contents_congr h]
  | close | write | writeAt | seek | tell => rfl

theorem editsOf_congr (h : ∀ s ∈ opened.file.header.dataSectors, after.block? s = device.block? s)
    (call : HandleCall) : opened.editsOf after call = opened.editsOf device call := by
  simp only [editsOf, File.rewrites_congr h]

end OpenFile

namespace OpenTable

variable {table : OpenTable} {host : Host} {device : Device} {first second : Nat}
  {left right : OpenFile}

/-- Two handles are bound to files on the device that have no sector in common. -/
structure Apart (table : OpenTable) (device : Device) (first second : Nat)
    (left right : OpenFile) : Prop where
  ne : first ≠ second
  first : table.get? first = some left
  second : table.get? second = some right
  onDevice_first : left.file.OnDevice device
  onDevice_second : right.file.OnDevice device
  disjoint : ∀ s ∈ left.file.header.dataSectors, s ∉ right.file.header.dataSectors

theorem Apart.symm (h : table.Apart device first second left right) :
    table.Apart device second first right left :=
  ⟨h.ne.symm, h.second, h.first, h.onDevice_second, h.onDevice_first,
    fun s hright hleft ↦ h.disjoint s hleft hright⟩

/-- The second of two calls finds its file as it was before the first. -/
theorem Apart.run_pair (h : table.Apart host.device first second left right)
    (hf : host.device.faults = {}) (call other : HandleCall) :
    ∃ log, run [.onHandle first call, .onHandle second other] table host =
      ([.ok (.ofHandle (left.replyTo host.device call)),
          .ok (.ofHandle (right.replyTo host.device other))],
        (table.set first (left.slotAfter call)).set second (right.slotAfter other),
        ⟨(host.device.edit (left.editsOf host.device call)).edit
          (right.editsOf host.device other), log⟩) := by
  obtain ⟨noted, hfirst⟩ := step_onHandle_eq h.first hf h.onDevice_first call
  have hsame : ∀ s ∈ right.file.header.dataSectors,
      (host.device.edit (left.editsOf host.device call)).block? s = host.device.block? s := by
    intro s hs
    apply Device.block?_edit_of_ne
    rintro edit hedit rfl
    exact h.disjoint _ (OpenFile.fst_mem_of_mem_editsOf hedit) hs
  have hget : (table.set first (left.slotAfter call)).get? second = some right := by
    simp [get?_set, h.ne, h.second]
  have hon : right.file.OnDevice (host.device.edit (left.editsOf host.device call)) :=
    h.onDevice_second.edit _
  obtain ⟨log, hsecond⟩ := step_onHandle_eq hget
    (show (Host.mk _ noted).device.faults = {} from Device.faults_edit hf _) hon other
  refine ⟨log, ?_⟩
  simp only [run, hfirst, hsecond]
  rw [OpenFile.replyTo_congr hsame, OpenFile.editsOf_congr hsame]

theorem set_comm (h : first ≠ second) (slot other : Option OpenFile) :
    (table.set first slot).set second other = (table.set second other).set first slot := by
  simp only [set, List.set_comm _ _ h]

/-- Two calls on files that are apart give the same answers, the same blocks and the same table in
either order. -/
theorem Apart.run_comm (h : table.Apart host.device first second left right)
    (hf : host.device.faults = {}) (call other : HandleCall) :
    ∃ reply answer after here there,
      run [.onHandle first call, .onHandle second other] table host =
        ([.ok reply, .ok answer], after, here) ∧
      run [.onHandle second other, .onHandle first call] table host =
        ([.ok answer, .ok reply], after, there) ∧
      here.device.blocks = there.device.blocks := by
  obtain ⟨log, hforth⟩ := h.run_pair hf call other
  obtain ⟨noted, hback⟩ := h.symm.run_pair hf other call
  rw [set_comm h.ne.symm] at hback
  refine ⟨_, _, _, _, _, hforth, hback, ?_⟩
  apply Device.blocks_edit_comm
  intro edit hedit next hnext heq
  exact h.disjoint _ (OpenFile.fst_mem_of_mem_editsOf hedit)
    (heq ▸ OpenFile.fst_mem_of_mem_editsOf hnext)

def onEven : OpenFile :=
  ⟨1, "a", 0, 1, ⟨200, 2, 2 :: 4 :: List.replicate 28 0, by decide⟩, by decide⟩

def onOdd : OpenFile :=
  ⟨6, "b", 100, 6, ⟨256, 2, 5 :: 3 :: List.replicate 28 0, by decide⟩, by decide⟩

def interleaved : OpenTable := ⟨[some onEven, none, some onOdd]⟩

theorem Apart.run_comm_interleaved :
    interleaved.Apart (.blank 8 128) 0 2 onEven onOdd ∧
    ∃ reply answer after here there,
      run [.onHandle 0 (.writeAt [1, 2, 3] 126), .onHandle 2 (.read 60)] interleaved
        ⟨.blank 8 128, []⟩ = ([.ok reply, .ok answer], after, here) ∧
      run [.onHandle 2 (.read 60), .onHandle 0 (.writeAt [1, 2, 3] 126)] interleaved
        ⟨.blank 8 128, []⟩ = ([.ok answer, .ok reply], after, there) ∧
      here.device.blocks = there.device.blocks := by
  have h : interleaved.Apart (.blank 8 128) 0 2 onEven onOdd := by
    have heven : onEven.file.header.dataSectors = [2, 4] := rfl
    have hodd : onOdd.file.header.dataSectors = [5, 3] := rfl
    refine ⟨by simp, rfl, rfl, ?_, ?_, ?_⟩
    · simp [File.OnDevice, heven, Device.blank, Device.Has]
    · simp [File.OnDevice, hodd, Device.blank, Device.Has]
    · simp [heven, hodd]
  exact ⟨h, h.run_comm rfl (.writeAt [1, 2, 3] 126) (.read 60)⟩

end OpenTable

end SectorFS
