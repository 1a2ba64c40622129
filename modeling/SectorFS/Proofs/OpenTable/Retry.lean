import SectorFS.Proofs.File.Splice
import SectorFS.Proofs.OpenTable.Runs

namespace SectorFS

open Layout (sectorSize)

namespace File

variable {file : File} {device after left right : Device} {data : Bytes} {pos k : Nat} {error : Error}

/-- What an unfinished write has laid over the file is less than all, and ends with a sector. -/
theorem spliced_take_rewrites (hd : file.header.dataSectors.Nodup) (h : file.OnDevice device)
    (hk : k < (file.rewrites device data pos).length) :
    ∃ j < file.extent pos data.length, (j = 0 ∨ (pos + j) % sectorSize = 0) ∧
      file.Spliced device (device.edit ((file.rewrites device data pos).take k))
        (data.take j) pos := by
  obtain ⟨j, hj, htake, hend⟩ :=
    Span.take_cover file.header.dataSectors pos (file.extent pos data.length) k
  have hne : j ≠ file.extent pos data.length := by
    intro hall
    rw [hall, List.take_eq_self_iff] at htake
    rw [length_rewrites] at hk
    exact Nat.not_lt_of_le htake hk
  refine ⟨j, Nat.lt_of_le_of_ne hj hne, by simpa [hne] using hend, ?_⟩
  rw [rewrites, Device.take_rewrites, spans, htake]
  exact spliced_splice hd h hj

/-- Where a part of the data has been laid before, writing all of it leaves the same blocks as where
nothing has. -/
theorem resume {j : Nat} (hd : file.header.dataSectors.Nodup) (h : file.OnDevice device)
    (hj : j ≤ file.extent pos data.length) (hpart : file.Spliced device after (data.take j) pos)
    (hleft : left.blocks = after.blocks) (hright : right.blocks = device.blocks) :
    file.OnDevice left ∧ file.OnDevice right ∧
      (left.edit (file.rewrites left data pos)).blocks =
        (right.edit (file.rewrites right data pos)).blocks := by
  have hagain := hpart.of_blocks hright hleft
  have honRight := h.of_size (congrArg Array.size hright)
  have honLeft := hagain.onDevice honRight
  refine ⟨honLeft, honRight, (spliced_rewrites hd honRight data pos).blocks_eq honRight ?_⟩
  apply hagain.again (spliced_rewrites hd honLeft data pos)
  simp only [List.length_take]
  omega

/-- A write came to a stop: a first part of the data is in the file, up to the end of a sector, and
writing it all again comes to the same as writing it in the first place. -/
structure CutShort (file : File) (before : Device) (data : Bytes) (pos : Nat) (after : Device) :
    Prop where
  part : ∃ j < file.extent pos data.length, (j = 0 ∨ (pos + j) % sectorSize = 0) ∧
    file.Spliced before after (data.take j) pos
  again : ∀ left right : Device, left.blocks = after.blocks → right.blocks = before.blocks →
    left.faults = {} → right.faults = {} → ∃ left' right',
      (file.write data pos).run left = (.ok (file.extent pos data.length), left') ∧
      (file.write data pos).run right = (.ok (file.extent pos data.length), right') ∧
      left'.blocks = right'.blocks

theorem cutShort_of_error (hd : file.header.dataSectors.Nodup) (h : file.OnDevice device)
    (hrun : (file.write data pos).run device = (.error error, after)) :
    file.CutShort device data pos after := by
  have hwrite : (file.write data pos).CarriesOut device (file.rewrites device data pos)
      (file.extent pos data.length) :=
    carriesOut_write fun span hspan ↦ h _ (sector_mem_of_mem_spans hspan)
  rcases hwrite with hdone | ⟨-, stop, k, hk, hstop⟩
  · rw [hrun] at hdone
    exact absurd (congrArg Prod.fst hdone) nofun
  · obtain rfl : after = device.edit ((file.rewrites device data pos).take k) :=
      congrArg Prod.snd (hrun.symm.trans hstop)
    obtain ⟨j, hj, hend, hpart⟩ := spliced_take_rewrites hd h hk
    refine ⟨⟨j, hj, hend, hpart⟩, ?_⟩
    intro left right hleft hright hf hf'
    obtain ⟨honLeft, honRight, hblocks⟩ := resume hd h hj.le hpart hleft hright
    exact ⟨_, _, run_write hf honLeft data pos, run_write hf' honRight data pos, hblocks⟩

end File

namespace OpenFile

open Operation

variable {opened : OpenFile} {handle : Nat} {call : HandleCall} {host after : Host} {data : Bytes}
  {pos : Nat} {error : Error}

theorem quiet_call (h : call.writes? opened.cursor = none) (handle : Nat) :
    (opened.call handle call).Quiet := by
  have hnoted {α : Type} (ask : Device → Except Error α) (event : α → Event)
      (answer : α → HandleReply × Option OpenFile) :
      (query ask >>= fun a ↦ note (event a) >>= fun _ ↦ pure (answer a)).Quiet :=
    (quiet_query ask).bind fun _ ↦ (quiet_notes _).bind fun _ ↦ quiet_pure _
  cases call with
  | close => exact (quiet_notes _).bind fun _ ↦ quiet_pure _
  | read count => exact hnoted _ _ _
  | readAt count pos => exact hnoted _ _ _
  | seek pos => exact quiet_pure _
  | tell => exact quiet_pure _
  | write | writeAt => contradiction

theorem write_of_error (h : call.writes? opened.cursor = some (data, pos))
    (hrun : (opened.call handle call).run host = (.error error, after)) :
    (opened.file.write data pos).run host.device = (.error error, after.device) := by
  have hnoted {α β : Type} {action : Action α} {event : α → Event} {answer : α → β}
      (h : (act action >>= fun a ↦ note (event a) >>= fun _ ↦ pure (answer a)).run host =
        (.error error, after)) : action.run host.device = (.error error, after.device) := by
    rw [run_bind, run_act] at h
    cases hrun : action.run host.device with
    | mk outcome device =>
      rw [hrun] at h
      cases outcome with
      | ok a => exact absurd (congrArg Prod.fst h) nofun
      | error stop =>
        cases h
        rfl
  cases call with
  | write | writeAt =>
    cases h
    exact hnoted hrun
  | _ => contradiction

end OpenFile

namespace OpenTable

variable {file : File} {device : Device}

/-- A call that fails leaves the table, and a read the device too. A write that fails has written a
first part of the data, up to the end of a sector. The same call once more, when the device has
come to work, answers and leaves the same as if it had worked from the start. -/
theorem cutShort_of_step (hd : file.header.dataSectors.Nodup) (hon : file.OnDevice device) :
    (∀ data pos error after, (file.write data pos).run device = (.error error, after) →
      file.CutShort device data pos after) ∧
    ∀ table handle opened log, get? table handle = some opened → opened.file = file →
      ∀ call error left after,
        step (.onHandle handle call) table ⟨device, log⟩ = (.error error, left, after) →
        left = table ∧
        (call.writes? opened.cursor = none → after.device = device) ∧
        ∀ data pos, call.writes? opened.cursor = some (data, pos) →
          file.CutShort device data pos after.device ∧
          ∀ here there : Host, here.device.blocks = after.device.blocks →
            there.device.blocks = device.blocks → here.device.faults = {} →
            there.device.faults = {} → ∃ here' there',
              step (.onHandle handle call) left here =
                (.ok (.ofHandle (.number (file.extent pos data.length))),
                  table.set handle (opened.slotAfter call), here') ∧
              step (.onHandle handle call) table there =
                (.ok (.ofHandle (.number (file.extent pos data.length))),
                  table.set handle (opened.slotAfter call), there') ∧
              here'.device.blocks = there'.device.blocks := by
  refine ⟨fun data pos error after hrun ↦ File.cutShort_of_error hd hon hrun, ?_⟩
  rintro table handle opened log hget rfl call error left after hstep
  rw [step_onHandle_of_bound hget] at hstep
  cases hcall : (opened.call handle call).run ⟨device, log⟩ with
  | mk outcome stopped =>
    rw [hcall] at hstep
    cases outcome with
    | ok done => exact absurd (congrArg Prod.fst hstep) nofun
    | error stop =>
      cases hstep
      refine ⟨rfl, ?_, ?_⟩
      · intro hwrites
        have hquiet := OpenFile.quiet_call hwrites handle ⟨device, log⟩
        rwa [hcall] at hquiet
      · intro data pos hwrites
        have hcut := File.cutShort_of_error hd hon (OpenFile.write_of_error hwrites hcall)
        refine ⟨hcut, ?_⟩
        intro here there hhere hthere hf hf'
        -- The first `j` bytes are in the file; the second try writes them over once more.
        obtain ⟨j, hj, -, hpart⟩ := hcut.part
        obtain ⟨honHere, honThere, hblocks⟩ := File.resume hd hon hj.le hpart hhere hthere
        obtain ⟨noted, hagain⟩ := step_onHandle_eq hget hf honHere call
        obtain ⟨noted', hfirst⟩ := step_onHandle_eq hget hf' honThere call
        rw [OpenFile.replyTo_of_writes hwrites, OpenFile.editsOf, hwrites] at hagain hfirst
        exact ⟨_, _, hagain, hfirst, hblocks⟩

def stuck : Device := { File.numbered with faults := { badReads := [3] } }

def nearEdge : OpenTable := ⟨[some ⟨1, "a", 120, File.inTwo⟩]⟩

/-- Reading and writing fail at the second sector, and the first one is written by then. With the
device mended, the write comes to the same from there as from the start. -/
theorem cutShort_of_step_stuck :
    ∃ error after stop written,
      step (.onHandle 0 (.read 20)) nearEdge ⟨stuck, []⟩ = (.error error, nearEdge, after) ∧
      after.device = stuck ∧
      step (.onHandle 0 (.write (List.replicate 20 9))) nearEdge ⟨stuck, []⟩ =
        (.error stop, nearEdge, written) ∧
      File.inTwo.CutShort stuck (List.replicate 20 9) 120 written.device ∧
      ∃ reply table here there,
        step (.onHandle 0 (.write (List.replicate 20 9))) nearEdge ⟨written.device.healed, []⟩ =
          (.ok reply, table, here) ∧
        step (.onHandle 0 (.write (List.replicate 20 9))) nearEdge ⟨stuck.healed, []⟩ =
          (.ok reply, table, there) ∧ here.device.blocks = there.device.blocks := by
  have hsectors : File.inTwo.header.dataSectors = [6, 3] := rfl
  have hon : File.inTwo.OnDevice stuck := by
    simp [File.OnDevice, hsectors, Device.Has, stuck, File.numbered]
  have hfails : ∀ call, (step (.onHandle 0 call) nearEdge ⟨stuck, []⟩).1.isOk = false →
      ∃ error left after,
        step (.onHandle 0 call) nearEdge ⟨stuck, []⟩ = (.error error, left, after) := by
    intro call h
    cases hstep : step (.onHandle 0 call) nearEdge ⟨stuck, []⟩ with
    | mk outcome rest =>
      rw [hstep] at h
      cases outcome with
      | ok reply => contradiction
      | error error => exact ⟨error, rest.1, rest.2, rfl⟩
  obtain ⟨error, left, after, hread⟩ := hfails (.read 20) (by decide +kernel)
  obtain ⟨stop, unmoved, written, hwrite⟩ :=
    hfails (.write (List.replicate 20 9)) (by decide +kernel)
  have hcut := (cutShort_of_step (by simp [hsectors]) hon).2 nearEdge 0 _ [] rfl rfl
  obtain ⟨rfl, hkept, -⟩ := hcut _ _ _ _ hread
  obtain ⟨rfl, -, hlaid⟩ := hcut _ _ _ _ hwrite
  obtain ⟨hpart, hagain⟩ := hlaid _ _ rfl
  obtain ⟨here, there, hleft, hright, hblocks⟩ :=
    hagain ⟨written.device.healed, []⟩ ⟨stuck.healed, []⟩ rfl rfl rfl rfl
  exact ⟨error, after, stop, written, hread, hkept rfl, hwrite, hpart, _, _, here, there, hleft,
    hright, hblocks⟩

end OpenTable

end SectorFS
