import SectorFS.Proofs.Soundness.Runs

namespace SectorFS

open Layout

def HandleCall.reads? (cursor : Nat) : HandleCall → Option (Nat × Nat)
  | read count => some (count, cursor)
  | readAt count pos => some (count, pos)
  | _ => none

theorem OpenFile.replyTo_of_reads {opened : OpenFile} {call : HandleCall} {count pos : Nat}
    (h : call.reads? opened.cursor = some (count, pos)) (device : Device) :
    opened.replyTo device call = .bytes (((opened.file.contents device).drop pos).take count) := by
  cases call with
  | read | readAt => cases h; rfl
  | _ => contradiction

namespace Machine

variable {machine : Machine} {volume : Volume} {tree : Tree} {request : Request}
  {requests rest : List Request} {regular : List Nat} {handle : Nat} {opened : OpenFile}
  {call : HandleCall}

/-- The file whose header is stored at `sector` contains `bytes`. Its handles read from them, and
write as much as fits. -/
structure Holds (machine : Machine) (sector : UInt32) (bytes : Bytes) : Prop where
  stored : ∃ file, machine.host.device.openFile sector = .ok file ∧
    file.contents machine.host.device = bytes
  reads : ∀ handle opened call count pos, machine.opened? handle = some opened →
    opened.sector = sector → call.reads? opened.cursor = some (count, pos) →
      (step (.call handle call) machine).1 = .ok (.ofHandle (.bytes ((bytes.drop pos).take count)))
  writes : ∀ handle opened call data pos, machine.opened? handle = some opened →
    opened.sector = sector → call.writes? opened.cursor = some (data, pos) →
      (step (.call handle call) machine).1 =
        .ok (.ofHandle (.number (min data.length (bytes.length - pos))))

theorem Sound.holds (h : machine.Sound volume tree) {sector : UInt32} {file : File}
    (hopen : machine.host.device.openFile sector = .ok file) :
    machine.Holds sector (file.contents machine.host.device) := by
  refine ⟨⟨file, hopen, rfl⟩, fun handle opened call count pos hget hs hreads ↦ ?_,
    fun handle opened call data pos hget hs hwrites ↦ ?_⟩
  · rw [h.opened?_eq] at hget
    obtain ⟨-, hfile⟩ := h.current.opened handle opened hget
    rw [hs] at hfile
    cases hopen.symm.trans hfile
    obtain ⟨log, hstep⟩ := h.step_call_of_bound hget call
    rw [hstep, OpenFile.replyTo_of_reads hreads]
  · rw [h.opened?_eq] at hget
    obtain ⟨-, hfile⟩ := h.current.opened handle opened hget
    rw [hs] at hfile
    cases hopen.symm.trans hfile
    obtain ⟨log, hstep⟩ := h.step_call_of_bound hget call
    rw [hstep, OpenFile.replyTo_of_writes hwrites, File.length_contents]
    rfl

def evolve (sector : UInt32) : List Request → Machine → Bytes → Bytes
  | [], _, bytes => bytes
  | request :: rest, machine, bytes =>
    evolve sector rest (step request machine).2 (machine.effect sector request bytes)

def keeps (sector : UInt32) : List Request → Machine → Bool
  | [], _ => true
  | request :: rest, machine =>
    !machine.removes sector request && keeps sector rest (step request machine).2

theorem Sound.evolves (h : machine.Sound volume tree) (hknows : KnowsRegular regular volume tree)
    (hd : disciplined regular machine (requests ++ rest) = true) {node : Node} {file : File}
    (hnode : node ∈ tree) (hkind : node.entry.kind = .regular)
    (hkeeps : keeps node.sector requests machine = true)
    (hopen : machine.host.device.openFile node.sector = .ok file) :
    ∃ left grown, (Machine.run requests machine).2.Sound left grown ∧
      (Machine.run requests machine).2.host.device.openFile node.sector = .ok file ∧
      file.contents (Machine.run requests machine).2.host.device =
        evolve node.sector requests machine (file.contents machine.host.device) := by
  induction requests generalizing regular machine volume tree with
  | nil => exact ⟨volume, tree, h, hopen, rfl⟩
  | cons request requests ih =>
    obtain ⟨hadmits, hrest⟩ := disciplined_cons.1 hd
    obtain ⟨left, grown, hsound, hleft, hretains⟩ := h.leads_step hknows hadmits
    rw [keeps, Bool.and_eq_true, Bool.not_eq_true'] at hkeeps
    obtain ⟨hstays, hfile⟩ := hretains node hnode hkind hkeeps.1
    obtain ⟨hopen', hcontents⟩ := hfile file hopen
    rw [evolve, ← hcontents]
    exact ih hsound hleft hrest hstays hkeeps.2 hopen'

/-- From the creation of a regular file on, found under its path then, and as long as it is not
removed, it holds as many bytes as it was created with, and no request changes them but a write
through one of its handles. -/
theorem holds_of_disciplined {device : Device} (h : device.Ready) {before after : List Request}
    {index size : Nat} {path : String} {created : Machine}
    (hd : disciplined [] (step .format (start device)).2
      (before ++ .createFile index path size :: after) = true)
    (hcreated : step (.createFile index path size) (run (.format :: before) (start device)).2 =
      (.ok .done, created)) :
    ∃ session entry bytes, created.sessions[index]? = some session ∧
      Volume.entryAt session path created.host.device = .ok entry ∧ bytes.length = size ∧
      ∀ k, keeps entry.sector (after.take k) created = true →
        (run (after.take k) created).2.Holds entry.sector
          (evolve entry.sector (after.take k) created bytes) := by
  obtain ⟨-, volume, hsound⟩ := sound_format h
  have hknows : KnowsRegular [] volume [] := nofun
  obtain ⟨regular, left, tree, hbefore, hleft, hrest⟩ := hsound.run hknows hd
  have hstep : step (.createFile index path size) (run before (step .format (start device)).2).2 =
      (.ok .done, created) := hcreated
  obtain ⟨session, entry, file, hs, hentry, hkind, hopen, hlength, -⟩ :=
    hbefore.created (congrArg Prod.fst hstep)
  obtain ⟨hadmits, hafter⟩ := disciplined_cons.1 hrest
  obtain ⟨grown, trunk, hnow, hgrown, -⟩ := hbefore.leads_step hleft hadmits
  rw [hstep] at hs hentry hopen hafter hnow hgrown
  obtain ⟨up, hup⟩ := hnow.sessions session (Array.mem_of_getElem? hs)
  obtain ⟨here, hnode⟩ := hnow.stored.node_of_entryAt hup hentry hkind
  refine ⟨session, entry, file.contents created.host.device, hs, hentry,
    (file.length_contents _).trans hlength, fun k hkeeps ↦ ?_⟩
  rw [← List.take_append_drop k after] at hafter
  obtain ⟨last, whole, hend, hsame, hcontents⟩ :=
    hnow.evolves hgrown hafter hnode hkind hkeeps hopen
  exact hcontents ▸ hend.holds hsame

def filed : Machine :=
  (step (.createFile 0 "a/f" 200)
    (run [.format, .createDirectory 0 "a"] (start (.blank 1024 128))).2).2

def rewritings : List Request :=
  [.openFile 0 "a/f", .call 0 (.writeAt [1, 2, 3] 126), .createFile 0 "g" 130, .openFile 0 "g",
    .call 1 (.write [9, 9]), .call 0 (.writeAt [7, 7] 199), .call 0 .close, .mount, .remove 0 "g"]

theorem holds_of_disciplined_rewritings :
    (Device.blank 1024 128).Ready ∧
      disciplined [] (step .format (start (.blank 1024 128))).2
        ([.createDirectory 0 "a"] ++ .createFile 0 "a/f" 200 :: rewritings) = true ∧
      step (.createFile 0 "a/f" 200) (run [.format, .createDirectory 0 "a"]
        (start (.blank 1024 128))).2 = (.ok .done, filed) ∧
      ∃ session entry bytes, filed.sessions[0]? = some session ∧
        Volume.entryAt session "a/f" filed.host.device = .ok entry ∧ bytes.length = 200 ∧
        ∀ k, keeps entry.sector (rewritings.take k) filed = true →
          (run (rewritings.take k) filed).2.Holds entry.sector
            (evolve entry.sector (rewritings.take k) filed bytes) := by
  have hready : (Device.blank 1024 128).Ready := ⟨rfl, rfl, Nat.le_refl _, Array.size_replicate.symm⟩
  have hd : disciplined [] (step .format (start (.blank 1024 128))).2
      ([.createDirectory 0 "a"] ++ .createFile 0 "a/f" 200 :: rewritings) = true := by
    decide +kernel
  have hcreated : step (.createFile 0 "a/f" 200) (run [.format, .createDirectory 0 "a"]
      (start (.blank 1024 128))).2 = (.ok .done, filed) := by
    refine Prod.ext ?_ ?_
    · decide +kernel
    · rw [filed]
  exact ⟨hready, hd, hcreated, holds_of_disciplined hready hd hcreated⟩

end Machine

end SectorFS
