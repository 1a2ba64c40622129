import SectorFS.Proofs.Tree

namespace SectorFS

open Layout

namespace Device

/-- Every file that a walk from the root finds has all its sectors used in the stored free map. -/
def Marked (device : Device) : Prop :=
  ∃ map, device.HasMap map ∧ ∀ here file table entry, device.Reaches here →
    device.openDirectory here = .ok (file, table) → entry ∈ table.entries →
      ∀ t ∈ device.footprint entry.sector, map.used t = true

def SameTables (before after : Device) : Prop :=
  ∀ here table, before.Reaches here → before.HasTable here table → after.HasTable here table

def SameMap (before after : Device) : Prop := ∀ map, before.HasMap map → after.HasMap map

theorem SameTables.refl (device : Device) : SameTables device device := fun _ _ _ h ↦ h

theorem SameMap.refl (device : Device) : SameMap device device := fun _ h ↦ h

end Device

namespace Tree.Stored

variable {tree : Tree} {before after : Device} {here parent : UInt32} {map : FreeMap}
  {touched : UInt32 → Prop} (h : tree.Stored before)
include h

/-- Where no directory lost an entry, the directories of the tree are still found. -/
theorem reaches_after (after : Device) (hmore : ∀ here parent table, tree.HasDirectory here parent →
      before.HasTable here table →
        ∃ left, after.HasTable here left ∧ ∀ entry ∈ table.entries, entry ∈ left.entries)
    (hdir : tree.HasDirectory here parent) : after.Reaches here := by
  have hreach := h.reaches_iff.2 ⟨parent, hdir⟩
  clear hdir
  induction hreach with
  | root => exact .root
  | @child here file table entry hreach hopen hentry hkind ih =>
    obtain ⟨parent, hdir⟩ := h.reaches_iff.1 hreach
    obtain ⟨stored, hstored, -⟩ := h.tables here parent hdir
    obtain ⟨file', hopen', -⟩ := id hstored
    obtain ⟨-, rfl⟩ := Prod.mk.inj (Except.ok.inj (hopen.symm.trans hopen'))
    obtain ⟨left, ⟨now, hnow, -⟩, hsub⟩ := hmore here parent table hdir hstored
    obtain ⟨hmem, hlink⟩ := Directory.mem_children.1 hentry
    exact .child ih hnow (Directory.mem_children.2 ⟨hsub entry hmem, hlink⟩) hkind

/-- Where no directory gained an entry and none has a lost file, what is found is marked if what is
not lost is. -/
theorem marked_after (lost : UInt32 → Prop) (frame : tree.Frame before after touched)
    (hf : before.faults = {}) (hf' : after.faults = {}) (hroot : ¬lost rootSector)
    (hless : ∀ here parent table, tree.HasDirectory here parent → before.HasTable here table →
      ∃ left, after.HasTable here left ∧ (∀ entry ∈ left.entries, entry ∈ table.entries) ∧
        ∀ entry ∈ left.children, ¬lost entry.sector)
    (hmap : after.HasMap map)
    (hused : ∀ s ∈ tree.sectors, ¬lost s → ∀ t ∈ before.footprint s, map.used t = true) :
    after.Marked := by
  have htables : ∀ here parent file table, tree.HasDirectory here parent →
      after.openDirectory here = .ok (file, table) → ∃ was, before.HasTable here was ∧
        (∀ entry ∈ table.entries, entry ∈ was.entries) ∧
          ∀ entry ∈ table.children, ¬lost entry.sector := by
    intro here parent file table hdir hopen
    obtain ⟨was, hwas, -⟩ := h.tables here parent hdir
    obtain ⟨left, ⟨now, hnow, -⟩, hsub, hkept⟩ := hless here parent was hdir hwas
    obtain ⟨-, rfl⟩ := Prod.mk.inj (Except.ok.inj (hopen.symm.trans hnow))
    exact ⟨was, hwas, hsub, hkept⟩
  -- A lost directory is not found, so nothing below it is, and no link leads up to it.
  have hfound : ∀ here, after.Reaches here →
      ∃ parent, tree.HasDirectory here parent ∧ ¬lost here ∧ ¬lost parent := by
    intro here hreach
    induction hreach with
    | root => exact ⟨rootSector, hasDirectory_root tree, hroot, hroot⟩
    | @child here file table entry _ hopen hentry hkind ih =>
      obtain ⟨parent, hdir, hhere, -⟩ := ih
      obtain ⟨was, ⟨wasFile, hwas, -⟩, hsub, hkept⟩ := htables here parent file table hdir hopen
      obtain ⟨hmem, hlink⟩ := Directory.mem_children.1 hentry
      obtain ⟨hlink', -⟩ | ⟨-, hnode⟩ := h.entry_cases hdir hwas (hsub entry hmem)
      · rw [hlink] at hlink'
        contradiction
      · exact ⟨here, .inr ⟨_, hnode, hkind, rfl, rfl⟩, hkept entry hentry, hhere⟩
  refine ⟨map, hmap, fun here file table entry hreach hopen hentry t ht ↦ ?_⟩
  obtain ⟨parent, hdir, hhere, hparent⟩ := hfound here hreach
  obtain ⟨was, ⟨wasFile, hwas, -⟩, hsub, hkept⟩ := htables here parent file table hdir hopen
  obtain ⟨above, habove⟩ := h.rooted.above hdir
  have hentryKept : entry.sector ∈ tree.sectors ∧ ¬lost entry.sector := by
    rcases h.entry_cases hdir hwas (hsub entry hentry) with ⟨-, -, hs | hs⟩ | ⟨hlink, hnode⟩
    · exact hs ▸ ⟨hdir.mem_sectors, hhere⟩
    · exact hs ▸ ⟨habove.mem_sectors, hparent⟩
    · exact ⟨mem_sectors_of_mem hnode, hkept entry (Directory.mem_children.2 ⟨hentry, hlink⟩)⟩
  rw [frame.footprint_eq hf hf' hentryKept.1] at ht
  exact hused _ hentryKept.1 hentryKept.2 t ht

/-- Where no directory lost an entry, one with a sector that is not used is found. -/
theorem not_marked_after {table : Directory} {entry : Entry} (hmore : ∀ here parent table,
      tree.HasDirectory here parent → before.HasTable here table →
        ∃ left, after.HasTable here left ∧ ∀ entry ∈ table.entries, entry ∈ left.entries)
    (hdir : tree.HasDirectory here parent) (htable : after.HasTable here table)
    (hentry : entry ∈ table.entries) (hmap : after.HasMap map)
    (hfree : map.used entry.sector = false) : ¬after.Marked := by
  rintro ⟨other, hother, hused⟩
  obtain rfl := hother.eq hmap
  obtain ⟨file, hopen, -⟩ := htable
  have hreach := h.reaches_after after hmore hdir
  have htrue := hused here file table entry hreach hopen hentry _ List.mem_cons_self
  rw [hfree] at htrue
  contradiction

theorem marked_self (hf : before.faults = {}) : before.Marked := by
  obtain ⟨map, hmap, hused⟩ := h.marked
  have hframe : tree.Frame before before fun _ ↦ False := h.frame rfl fun _ _ _ ↦ rfl
  exact h.marked_after (fun _ ↦ False) hframe hf hf id
    (fun here parent table _ htable ↦ ⟨table, htable, fun _ ↦ id, fun _ _ ↦ id⟩) hmap
    fun s hs _ t ht ↦ hused t (mem_owned.2 ⟨s, hs, ht⟩)

end Tree.Stored

end SectorFS
