import SectorFS.Proofs.Soundness.TwinRuns

namespace SectorFS

open Layout

namespace Machine

def Finds (machine : Machine) (index : Nat) (path : String) (entry : Entry) (file : File) : Prop :=
  ∃ session, machine.sessions[index]? = some session ∧
    Volume.entryAt session path machine.host.device = .ok entry ∧
    machine.host.device.openFile entry.sector = .ok file

variable {first second created created' : Machine} {volume : Volume} {tree : Tree}
  {requests others : List Request} {regular : List Nat} {entry : Entry} {file : File}
  {index size : Nat} {path : String} {bytes : Bytes}

theorem Finds.eq {entry' : Entry} {file' : File} (h : first.Finds index path entry file)
    (h' : first.Finds index path entry' file') : entry' = entry ∧ file' = file := by
  obtain ⟨session, hs, hentry, hopen⟩ := h
  obtain ⟨session', hs', hentry', hopen'⟩ := h'
  cases hs.symm.trans hs'
  cases hentry.symm.trans hentry'
  exact ⟨rfl, (Except.ok.inj (hopen.symm.trans hopen')).symm⟩

theorem Twins.finds (t : Twins tree first second) (h : first.Sound volume tree)
    (hfinds : first.Finds index path entry file) : second.Finds index path entry file := by
  obtain ⟨session, hs, hentry, hopen⟩ := hfinds
  obtain ⟨up, hup⟩ := h.sessions session (Array.mem_of_getElem? hs)
  refine ⟨session, t.sessions ▸ hs, (t.alike.entryAt_eq h.stored hup path).trans hentry, ?_⟩
  exact (t.alike.openFile_eq (List.mem_cons_of_mem _ (h.stored.mem_of_entryAt hup hentry))).trans hopen

/-- A regular file that nobody writes to or removes holds what it held. -/
theorem Sound.holds_of_leaves (h : first.Sound volume tree) (hknows : KnowsRegular regular volume tree)
    (hd : disciplined regular first requests = true) (hfinds : first.Finds index path entry file)
    (hkind : entry.kind = .regular) (hleaves : leaves entry.sector requests first = true) :
    (Machine.run requests first).2.Holds entry.sector (file.contents first.host.device) := by
  obtain ⟨session, hs, hentry, hopen⟩ := hfinds
  obtain ⟨up, hup⟩ := h.sessions session (Array.mem_of_getElem? hs)
  obtain ⟨here, hnode⟩ := h.stored.node_of_entryAt hup hentry hkind
  obtain ⟨hkeeps, hsame⟩ := keeps_of_leaves hleaves
  rw [← List.append_nil requests] at hd
  obtain ⟨left, grown, hend, hopen', hcontents⟩ := h.evolves hknows hd hnode hkind hkeeps hopen
  exact hcontents.trans (hsame _) ▸ hend.holds hopen'

/-- Creating a regular file does not change the bytes that it then has. -/
theorem Sound.finds_created (h : first.Sound volume tree)
    (hcreated : step (.createFile index path size) first = (.ok .done, created)) :
    ∃ entry file, created.Finds index path entry file ∧ entry.kind = .regular ∧
      file.length = size ∧ file.contents created.host.device = file.contents first.host.device := by
  obtain ⟨session, entry, file, hs, hentry, hkind, hopen, hlength, hcontents⟩ :=
    h.created (congrArg Prod.fst hcreated)
  rw [hcreated] at hs hentry hopen hcontents
  exact ⟨entry, file, ⟨session, hs, hentry, hopen⟩, hkind, hlength, hcontents⟩

/-- Two runs make the same requests of any two devices, up to the bytes that are written. If one keeps
the discipline and creates a regular file, the other creates it too, under the same header and with
the same data sectors. As long as nobody writes to it or removes it, the file holds in each run
what these sectors held before it was created. -/
theorem discloses_of_disciplined {device device' : Device} (h : device.Ready) (h' : device'.Ready)
    {before before' after after' : List Request}
    (hbefore : List.Forall₂ Request.Alike before before')
    (hafter : List.Forall₂ Request.Alike after after')
    (hd : disciplined [] (step .format (start device)).2
      (before ++ .createFile index path size :: after) = true)
    (hcreated : step (.createFile index path size) (run (.format :: before) (start device)).2 =
      (.ok .done, created)) :
    ∃ entry file created',
      step (.createFile index path size) (run (.format :: before') (start device')).2 =
        (.ok .done, created') ∧
      created.Finds index path entry file ∧ created'.Finds index path entry file ∧
      file.length = size ∧
      ∀ k, leaves entry.sector (after.take k) created = true →
        (run (after.take k) created).2.Holds entry.sector
            (file.contents (run (.format :: before) (start device)).2.host.device) ∧
          (run (after'.take k) created').2.Holds entry.sector
            (file.contents (run (.format :: before') (start device')).2.host.device) := by
  obtain ⟨-, volume, hsound⟩ := sound_format h
  obtain ⟨regular, left, tree, hfirst, hknown, htwins, hrest⟩ :=
    hsound.twins_run (twins_format h h') hsound.knowsRegular_nil hbefore hd
  generalize hm : (run before (step .format (start device)).2).2 = machine at hfirst htwins hrest
  generalize hm' : (run before' (step .format (start device')).2).2 = machine' at htwins
  rw [show (run (.format :: before) (start device)).2 = machine from hm] at hcreated ⊢
  rw [show (run (.format :: before') (start device')).2 = machine' from hm']
  -- The machines are twins when the file is created, so it goes to the same sectors in both.
  obtain ⟨hadmits, hlater⟩ := disciplined_cons.1 hrest
  obtain ⟨last, grown, hnow, hleft, hagree⟩ :=
    hfirst.twins_leads htwins hknown (.same _) hadmits
  have hdone : (step (.createFile index path size) machine').1 = .ok .done := by
    refine done_of_onTree ((hfirst.twins_create htwins Kind.noConfusion).1.trans ?_)
    exact (congrArg (Except.isOk ∘ Prod.fst) hcreated : _)
  have hcreated' : step (.createFile index path size) machine' =
      (.ok .done, (step (.createFile index path size) machine').2) := Prod.ext hdone rfl
  generalize (step (.createFile index path size) machine').2 = created' at hcreated' hagree
  obtain ⟨entry, file, hfinds, hkind, hlength, hsame⟩ := hfirst.finds_created hcreated
  obtain ⟨entry', file', hfinds', -, -, hsame'⟩ := (htwins.sound hfirst).finds_created hcreated'
  rw [hcreated] at hnow hagree hleft hlater
  obtain ⟨rfl, rfl⟩ := (hagree.finds hnow hfinds).eq hfinds'
  refine ⟨entry', file', created', hcreated', hfinds, hfinds', hlength, fun k hleaves ↦ ?_⟩
  rw [← hsame, ← hsame']
  have hlike := List.forall₂_take k hafter
  have htaken := disciplined_of_append ((List.take_append_drop k after).symm ▸ hlater)
  exact ⟨hnow.holds_of_leaves hleft htaken hfinds hkind hleaves,
    (hagree.sound hnow).holds_of_leaves hleft (hnow.twins_disciplined hagree hleft hlike htaken)
      hfinds' hkind (hnow.twins_leaves hagree hleft hlike htaken hleaves)⟩

def stained : Device where
  sectorCount := 1024
  bytesPerSector := 128
  blocks := Array.replicate 1024 ⟨List.replicate 128 170, List.length_replicate⟩

def discarding (data : Bytes) : List Request :=
  [.createFile 0 "a" 4, .openFile 0 "a", .call 0 (.write data), .call 0 .close, .remove 0 "a"]

def reading : List Request := [.openFile 0 "b", .call 0 (.readAt 4 0)]

theorem ready_stained : stained.Ready := ⟨rfl, rfl, Nat.le_refl _, Array.size_replicate.symm⟩

theorem alike_discarding : List.Forall₂ Request.Alike (discarding [1, 2, 3, 4])
    (discarding [5, 6, 7, 8]) :=
  .cons (.same _) (.cons (.same _) (.cons (.write 0 rfl) (.cons (.same _) (.cons (.same _) .nil))))

theorem alike_reading : List.Forall₂ Request.Alike reading reading :=
  .cons (.same _) (.cons (.same _) .nil)

theorem discloses_of_disciplined_discarding :
    (Device.blank 1024 128).Ready ∧ stained.Ready ∧
      List.Forall₂ Request.Alike (discarding [1, 2, 3, 4]) (discarding [5, 6, 7, 8]) ∧
      List.Forall₂ Request.Alike reading reading ∧
      disciplined [] (step .format (start (.blank 1024 128))).2
        (discarding [1, 2, 3, 4] ++ .createFile 0 "b" 4 :: reading) = true ∧
      ∃ created entry file created',
        step (.createFile 0 "b" 4)
            (run (.format :: discarding [1, 2, 3, 4]) (start (.blank 1024 128))).2 =
          (.ok .done, created) ∧
        step (.createFile 0 "b" 4) (run (.format :: discarding [5, 6, 7, 8]) (start stained)).2 =
          (.ok .done, created') ∧
        created.Finds 0 "b" entry file ∧ created'.Finds 0 "b" entry file ∧ file.length = 4 ∧
        ∀ k, leaves entry.sector (reading.take k) created = true →
          (run (reading.take k) created).2.Holds entry.sector (file.contents
              (run (.format :: discarding [1, 2, 3, 4]) (start (.blank 1024 128))).2.host.device) ∧
            (run (reading.take k) created').2.Holds entry.sector (file.contents
              (run (.format :: discarding [5, 6, 7, 8]) (start stained)).2.host.device) := by
  have hready : (Device.blank 1024 128).Ready := ⟨rfl, rfl, Nat.le_refl _, Array.size_replicate.symm⟩
  have hd : disciplined [] (step .format (start (.blank 1024 128))).2
      (discarding [1, 2, 3, 4] ++ .createFile 0 "b" 4 :: reading) = true := by
    decide +kernel
  have hdone : (step (.createFile 0 "b" 4)
      (run (.format :: discarding [1, 2, 3, 4]) (start (.blank 1024 128))).2).1 = .ok .done := by
    decide +kernel
  obtain ⟨created, hcreated⟩ : ∃ created, step (.createFile 0 "b" 4)
      (run (.format :: discarding [1, 2, 3, 4]) (start (.blank 1024 128))).2 =
        (.ok .done, created) := by
    generalize step (.createFile 0 "b" 4) _ = answered at hdone ⊢
    exact ⟨answered.2, Prod.ext hdone rfl⟩
  obtain ⟨entry, file, created', h⟩ := discloses_of_disciplined hready ready_stained
    alike_discarding alike_reading hd hcreated
  exact ⟨hready, ready_stained, alike_discarding, alike_reading, hd, created, entry, file, created',
    hcreated, h⟩

def contentsAt (machine : Machine) (sector : UInt32) : Except Error Bytes :=
  (machine.host.device.openFile sector).map fun file ↦ file.contents machine.host.device

/-- After `before` a regular file is created, with its header at `sector`, and `after` changes its
contents although it neither removes the file nor writes through a handle of it. -/
def disturbs (before : List Request) (size : Nat) (sector : UInt32) (after : List Request) : Bool :=
  let created := (run (.format :: before ++ [.createFile 0 "b" size]) (start (.blank 1024 128))).2
  (Volume.entryAt {} "b" created.host.device).toOption.map Entry.sector == some sector &&
    leaves sector after created &&
    !decide ((run after created).2.contentsAt sector = created.contentsAt sector)

/-- A handle outlives its file, whose data sector 7 goes to the file created at 6. -/
def lingering : List Request :=
  [.createFile 0 "a" 300, .openFile 0 "a", .remove 0 "a", .createFile 0 "z" 0]

/-- The data of the file created at 5 are a header that claims sector 8. -/
def forging : List Request :=
  [.createFile 0 "a" 128, .openFile 0 "a", .call 0 (.write [4, 0, 0, 0, 1, 0, 0, 0, 8]),
    .call 0 .close]

/-- A session is left in a directory whose header was stored at 5 and whose table at 6 and 7. -/
def deserting : List Request :=
  [.createDirectory 0 "d", .newSession, .enter 1 "d", .remove 0 "d"]

/-- The bytes of a file that was removed are read back from a new one, and so are those that were on
the device before; both runs keep the discipline. Without it a new file need not even keep what
it has: a stale handle, an entry rewritten through the handle of the root and a session in a
directory that was removed each change it without a write to it. -/
theorem not_read_alike_discarding :
    (Device.blank 1024 128).Ready ∧ stained.Ready ∧
      List.Forall₂ Request.Alike (discarding [1, 2, 3, 4] ++ .createFile 0 "b" 4 :: reading)
        (discarding [5, 6, 7, 8] ++ .createFile 0 "b" 4 :: reading) ∧
      (∀ data ∈ [[1, 2, 3, 4], [5, 6, 7, 8]],
        disciplined [] (step .format (start (.blank 1024 128))).2
            (discarding data ++ .createFile 0 "b" 4 :: reading) = true ∧
          (run (.format :: discarding data ++ .createFile 0 "b" 4 :: reading)
            (start (.blank 1024 128))).1.getLast? = some (.ok (.ofHandle (.bytes data)))) ∧
      (∀ device ∈ [(.blank 1024 128, 0), (stained, 170)],
        disciplined [] (step .format (start device.1)).2 (.createFile 0 "b" 4 :: reading) = true ∧
          (run (.format :: .createFile 0 "b" 4 :: reading) (start device.1)).1.getLast? =
            some (.ok (.ofHandle (.bytes (List.replicate 4 device.2))))) ∧
      disturbs lingering 4 6 [.call 0 (.writeAt [9] 128)] = true ∧
      disturbs forging 4 7 [.openFile 0 ".", .call 0 (.writeAt [6] 44), .openFile 0 "a",
        .call 1 (.writeAt [9] 0)] = true ∧
      disturbs deserting 160 5 [.createDirectory 1 "e"] = true := by
  refine ⟨⟨rfl, rfl, Nat.le_refl _, Array.size_replicate.symm⟩, ready_stained,
    List.rel_append alike_discarding (.cons (.same _) alike_reading), ?_, ?_, ?_, ?_, ?_⟩
  all_goals decide +kernel

end Machine

end SectorFS
