import Mathlib.Algebra.GroupWithZero.Nat
import SectorFS.Proofs.File.Pieces
import SectorFS.Proofs.OpenTable.Runs

namespace SectorFS

def HandleCall.isPositional : HandleCall → Bool
  | readAt .. | writeAt .. => true
  | _ => false

namespace OpenFile

variable {call : HandleCall}

theorem slotAfter_of_isPositional (h : call.isPositional = true) (opened : OpenFile) :
    opened.slotAfter call = some opened := by
  cases call with
  | readAt | writeAt => rfl
  | close | read | write | seek | tell => contradiction

end OpenFile

namespace OpenTable

variable {table : OpenTable} {handle : Nat} {opened left : OpenFile} {host : Host} {call : HandleCall}

structure Works (table : OpenTable) (handle : Nat) (opened : OpenFile) (host : Host) : Prop where
  bound : table.get? handle = some opened
  faultFree : host.device.faults = {}
  onDevice : opened.file.OnDevice host.device

theorem Works.step (h : table.Works handle opened host) (call : HandleCall)
    (hleft : opened.slotAfter call = some left) :
    ∃ log, step (.onHandle handle call) table host =
        (.ok (.ofHandle (opened.replyTo host.device call)), table.set handle (some left),
          ⟨host.device.edit (opened.editsOf host.device call), log⟩) ∧
      (table.set handle (some left)).Works handle left
        ⟨host.device.edit (opened.editsOf host.device call), log⟩ := by
  obtain ⟨log, hstep⟩ := step_onHandle_eq h.bound h.faultFree h.onDevice call
  rw [hleft] at hstep
  refine ⟨log, hstep, ?_, Device.faults_edit h.faultFree _, ?_⟩
  · rw [get?_set, if_pos ⟨rfl, lt_capacity_of_get? h.bound⟩]
  · rw [OpenFile.file_of_slotAfter hleft]
    exact h.onDevice.edit _

/-- Writes at the cursor, one after the other, write the data in a row and count it all. -/
theorem Works.run_writes (h : table.Works handle opened host) (datas : List Bytes) :
    ∃ (counts : List Nat) (after : Host),
      run (datas.map fun data ↦ .onHandle handle (.write data)) table host =
        (counts.map fun count ↦ .ok (.ofHandle (.number count)),
          table.set handle (some { opened with cursor := opened.cursor + counts.sum }), after) ∧
      counts.sum = opened.file.extent opened.cursor datas.flatten.length ∧
      after.device.blocks =
        (host.device.edit (opened.file.rewrites host.device datas.flatten opened.cursor)).blocks := by
  induction datas generalizing table opened host with
  | nil =>
    have hnone : opened.file.extent opened.cursor 0 = 0 := Nat.zero_min _
    refine ⟨[], host, ?_, hnone.symm, ?_⟩
    · exact congrArg (([], ·, host)) (set_of_get? h.bound).symm
    · rw [File.edit_rewrites, List.flatten_nil, List.length_nil, hnone, Device.splice_zero]
  | cons data rest ih =>
    obtain ⟨log, hstep, hnext⟩ := h.step (.write data) rfl
    obtain ⟨counts, after, hrun, hsum, hblocks⟩ := ih hnext
    refine ⟨opened.file.extent opened.cursor data.length :: counts, after, ?_, ?_, ?_⟩
    · simp only [List.map_cons, run, hstep, hrun, set_set, List.sum_cons, Nat.add_assoc]
      rfl
    · rw [List.sum_cons, hsum, List.flatten_cons, List.length_append, File.extent_add]
    · rw [hblocks, List.flatten_cons, File.blocks_rewrites_append h.onDevice rfl]
      rfl

/-- Reads at the cursor, one after the other, read a slice in pieces. -/
theorem Works.run_reads (h : table.Works handle opened host) (sizes : List Nat) :
    ∃ (pieces : List Bytes) (log : List Event),
      run (sizes.map fun size ↦ .onHandle handle (.read size)) table host =
        (pieces.map fun bytes ↦ .ok (.ofHandle (.bytes bytes)),
          table.set handle (some { opened with cursor := opened.cursor + pieces.flatten.length }),
          ⟨host.device, log⟩) ∧
      pieces.flatten = ((opened.file.contents host.device).drop opened.cursor).take sizes.sum := by
  induction sizes generalizing table opened host with
  | nil => exact ⟨[], host.log, congrArg (([], ·, host)) (set_of_get? h.bound).symm, by simp⟩
  | cons size rest ih =>
    obtain ⟨log, hstep, hnext⟩ := h.step (.read size) rfl
    obtain ⟨pieces, after, hrun, hpieces⟩ := ih hnext
    have hlen : (((opened.file.contents host.device).drop opened.cursor).take size).length =
        opened.file.extent opened.cursor size := by
      simp [File.extent]
    refine ⟨((opened.file.contents host.device).drop opened.cursor).take size :: pieces, after,
      ?_, ?_⟩
    · simp only [List.map_cons, run, hstep, hrun, set_set, List.flatten_cons, List.length_append,
        hlen, Nat.add_assoc]
      rfl
    · rw [List.flatten_cons, hpieces, List.sum_cons, File.take_contents_add]
      rfl

theorem afterCall_of_isPositional (h : call.isPositional = true) (table : OpenTable)
    (handle : Nat) : table.afterCall handle call = table := by
  rw [afterCall]
  cases hget : table.get? handle with
  | none => rfl
  | some opened =>
    dsimp only
    rw [OpenFile.slotAfter_of_isPositional h, set_of_get? hget]

theorem table_run (hf : host.device.faults = {})
    (hon : ∀ opened, table.get? handle = some opened → opened.file.OnDevice host.device)
    (calls : List HandleCall) : (run (calls.map (.onHandle handle)) table host).2.1 =
      calls.foldl (fun table call ↦ table.afterCall handle call) table := by
  induction calls generalizing table host with
  | nil => rfl
  | cons call rest ih =>
    simp only [List.map_cons, run, List.foldl_cons]
    cases hget : table.get? handle with
    | none =>
      rw [step_onHandle_of_free hget, afterCall, hget]
      exact ih hf hon
    | some opened =>
      obtain ⟨log, hstep⟩ := step_onHandle_eq hget hf (hon opened hget) call
      rw [hstep, afterCall, hget]
      apply ih (Device.faults_edit hf _)
      intro left hleft
      rw [get?_set, if_pos ⟨rfl, lt_capacity_of_get? hget⟩] at hleft
      rw [OpenFile.file_of_slotAfter hleft]
      exact (hon opened hget).edit _

/-- Transfers at a position leave no trace in the table. -/
theorem Works.table_run_filter (h : table.Works handle opened host) (calls : List HandleCall) :
    (run (calls.map (.onHandle handle)) table host).2.1 =
      (run ((calls.filter fun call ↦ !call.isPositional).map (.onHandle handle)) table host).2.1 := by
  have hon : ∀ bound, table.get? handle = some bound → bound.file.OnDevice host.device := by
    intro bound hbound
    obtain rfl := Option.some.inj (h.bound.symm.trans hbound)
    exact h.onDevice
  rw [table_run h.faultFree hon, table_run h.faultFree hon, List.foldl_filter]
  congr 1
  funext table call
  cases hpositional : call.isPositional with
  | false => rfl
  | true => exact afterCall_of_isPositional hpositional table handle

theorem Works.run_then_seek (h : table.Works handle opened host) (call : HandleCall)
    (hcall : call.isPositional = true) (pos : Nat) : ∃ log,
    run [.onHandle handle call, .onHandle handle (.seek pos)] table host =
      ([.ok (.ofHandle (opened.replyTo host.device call)), .ok (.ofHandle .done)],
        table.set handle (some { opened with cursor := pos }),
        ⟨host.device.edit (opened.editsOf host.device call), log⟩) := by
  obtain ⟨log, hstep, hnext⟩ := h.step call (OpenFile.slotAfter_of_isPositional hcall opened)
  obtain ⟨noted, hseek, -⟩ := hnext.step (.seek pos) rfl
  refine ⟨noted, ?_⟩
  simp only [run, hstep, hseek, set_set]
  rfl

/-- Transfers at the cursor are one transfer in pieces. Writes in a row count together what one
write of all the data at the cursor's position counts, and leave the same blocks; reads in a row
give together what one read gives there; and the cursor ends behind what was transferred. Transfers
at a position in between make no difference to the table. -/
theorem pieces_of_works (h : table.Works handle opened host) :
    (∀ datas : List Bytes, ∃ (counts : List Nat) (after : OpenTable) (here there : Host),
      run (datas.map fun data ↦ .onHandle handle (.write data)) table host =
        (counts.map fun count ↦ .ok (.ofHandle (.number count)), after, here) ∧
      run [.onHandle handle (.writeAt datas.flatten opened.cursor),
          .onHandle handle (.seek (opened.cursor + counts.sum))] table host =
        ([.ok (.ofHandle (.number counts.sum)), .ok (.ofHandle .done)], after, there) ∧
      here.device.blocks = there.device.blocks) ∧
    (∀ sizes : List Nat, ∃ (pieces : List Bytes) (after : OpenTable) (here there : Host),
      run (sizes.map fun size ↦ .onHandle handle (.read size)) table host =
        (pieces.map fun bytes ↦ .ok (.ofHandle (.bytes bytes)), after, here) ∧
      run [.onHandle handle (.readAt sizes.sum opened.cursor),
          .onHandle handle (.seek (opened.cursor + pieces.flatten.length))] table host =
        ([.ok (.ofHandle (.bytes pieces.flatten)), .ok (.ofHandle .done)], after, there) ∧
      here.device = host.device ∧ there.device = host.device) ∧
    ∀ calls : List HandleCall, (run (calls.map (.onHandle handle)) table host).2.1 =
      (run ((calls.filter fun call ↦ !call.isPositional).map (.onHandle handle)) table host).2.1 := by
  refine ⟨?_, ?_, h.table_run_filter⟩
  · intro datas
    obtain ⟨counts, here, hrun, hsum, hblocks⟩ := h.run_writes datas
    obtain ⟨log, honce⟩ := h.run_then_seek (.writeAt datas.flatten opened.cursor) rfl
      (opened.cursor + counts.sum)
    rw [OpenFile.replyTo, ← hsum] at honce
    exact ⟨counts, _, here, _, hrun, honce, hblocks⟩
  · intro sizes
    obtain ⟨pieces, log, hrun, hpieces⟩ := h.run_reads sizes
    obtain ⟨noted, honce⟩ := h.run_then_seek (.readAt sizes.sum opened.cursor) rfl
      (opened.cursor + pieces.flatten.length)
    rw [OpenFile.replyTo, ← hpieces] at honce
    exact ⟨pieces, _, _, _, hrun, honce, rfl, rfl⟩

/-- A file that has one sector twice, open before the end of the sector. -/
def twice : OpenFile :=
  ⟨1, "a", 100, 1, ⟨200, 2, 5 :: 5 :: List.replicate 28 0, by decide⟩, by decide⟩

theorem pieces_of_works_twice :
    Works ⟨[some twice]⟩ 0 twice ⟨.blank 8 128, []⟩ ∧
    (∃ (counts : List Nat) (after : OpenTable) (here there : Host),
      run [.onHandle 0 (.write (List.replicate 60 1)), .onHandle 0 (.write (List.replicate 70 2))]
          ⟨[some twice]⟩ ⟨.blank 8 128, []⟩ =
        (counts.map fun count ↦ .ok (.ofHandle (.number count)), after, here) ∧
      run [.onHandle 0 (.writeAt [List.replicate 60 1, List.replicate 70 2].flatten 100),
          .onHandle 0 (.seek (100 + counts.sum))] ⟨[some twice]⟩ ⟨.blank 8 128, []⟩ =
        ([.ok (.ofHandle (.number counts.sum)), .ok (.ofHandle .done)], after, there) ∧
      here.device.blocks = there.device.blocks) ∧
    ∃ (pieces : List Bytes) (after : OpenTable) (here there : Host),
      run [.onHandle 0 (.read 60), .onHandle 0 (.read 70)] ⟨[some twice]⟩ ⟨.blank 8 128, []⟩ =
        (pieces.map fun bytes ↦ .ok (.ofHandle (.bytes bytes)), after, here) ∧
      run [.onHandle 0 (.readAt 130 100), .onHandle 0 (.seek (100 + pieces.flatten.length))]
          ⟨[some twice]⟩ ⟨.blank 8 128, []⟩ =
        ([.ok (.ofHandle (.bytes pieces.flatten)), .ok (.ofHandle .done)], after, there) ∧
      here.device = .blank 8 128 ∧ there.device = .blank 8 128 := by
  have hsectors : twice.file.header.dataSectors = [5, 5] := rfl
  have h : Works ⟨[some twice]⟩ 0 twice ⟨.blank 8 128, []⟩ := by
    refine ⟨rfl, rfl, ?_⟩
    simp [File.OnDevice, hsectors, Device.Has, Device.blank]
  obtain ⟨hwrites, hreads, -⟩ := pieces_of_works h
  exact ⟨h, hwrites [List.replicate 60 1, List.replicate 70 2], hreads [60, 70]⟩

end OpenTable

end SectorFS
