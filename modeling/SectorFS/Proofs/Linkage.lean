import SectorFS.Proofs.Soundness.Runs

namespace SectorFS

open Layout

/-- The device stores the tree and nothing besides: a walk from the root meets its directories
alone, their names are distinct, and exactly the sectors of its files are used, each by one file. -/
structure Tree.Linked (tree : Tree) (device : Device) : Prop where
  stored : tree.Stored device
  tidy : tree.Tidy device
  reached : ∀ here, device.Reaches here ↔ ∃ parent, tree.HasDirectory here parent
  used : ∃ map, device.HasMap map ∧ ∀ s, map.used s = true ↔ s ∈ tree.owned device
  inRange : ∀ s ∈ tree.owned device, s.toNat < numSectors

theorem Tree.Stored.linked {tree : Tree} {device : Device} (h : tree.Stored device)
    (htidy : tree.Tidy device) : tree.Linked device := by
  obtain ⟨map, hmap, hused⟩ := h.marked
  refine ⟨h, htidy, fun here ↦ h.reaches_iff, ⟨map, hmap, fun s ↦ ?_⟩, fun s hs ↦ ?_⟩
  · exact ⟨htidy.exact map s hmap, hused s⟩
  · obtain ⟨file, -, -, hload⟩ := hmap
    exact FreeMap.count_of_load hload ▸ FreeMap.lt_of_used (hused s hs)

/-- The machine has a volume in use on a device that stores a linked tree; the headers that the
volume holds open are those on the device, and every session is in a directory of the tree. -/
def Machine.Intact (machine : Machine) : Prop :=
  ∃ volume tree, machine.volume? = some volume ∧ tree.Linked machine.host.device ∧
    volume.Current tree machine.host.device ∧
    ∀ session ∈ machine.sessions, ∃ parent, tree.HasDirectory session.directory parent

namespace Machine

/-- Laying out a volume succeeds, and the machine is intact after every step of a disciplined run
on it. -/
theorem intact_of_disciplined {device : Device} (h : device.Ready) {requests : List Request}
    (hd : disciplined [] (step .format (start device)).2 requests = true) :
    (step .format (start device)).1 = .ok .done ∧
      ∀ k, (run (.format :: requests.take k) (start device)).2.Intact := by
  obtain ⟨hanswer, volume, hsound⟩ := sound_format h
  have hknows : KnowsRegular [] volume [] := nofun
  refine ⟨hanswer, fun k ↦ ?_⟩
  rw [← List.take_append_drop k requests] at hd
  obtain ⟨-, left, tree, hrun, -, -⟩ := hsound.run hknows hd
  exact ⟨left, tree, hrun.mounted, hrun.stored.linked hrun.tidy, hrun.current, hrun.sessions⟩

def errands : List Request :=
  [.createDirectory 0 "a", .createFile 0 "a/f" 200, .enter 0 "a", .openFile 0 "f",
    .call 0 (.write [1, 2, 3]), .createFile 0 "f" 9, .newSession, .call 0 .close, .remove 1 "a/f",
    .enter 0 "..", .createDirectory 1 "b", .remove 0 "a", .sync, .mount, .remove 0 "a"]

theorem intact_of_disciplined_errands :
    (Device.blank 1024 128).Ready ∧
      disciplined [] (step .format (start (.blank 1024 128))).2 errands = true ∧
      (run (.format :: errands.take 5) (start (.blank 1024 128))).2.Intact ∧
      (run (.format :: errands.take 15) (start (.blank 1024 128))).2.Intact := by
  have hready : (Device.blank 1024 128).Ready := ⟨rfl, rfl, Nat.le_refl _, Array.size_replicate.symm⟩
  have hd : disciplined [] (step .format (start (.blank 1024 128))).2 errands = true := by
    decide +kernel
  exact ⟨hready, hd, (intact_of_disciplined hready hd).2 5, (intact_of_disciplined hready hd).2 15⟩

end Machine

end SectorFS
