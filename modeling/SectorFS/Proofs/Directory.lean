import Mathlib.Data.List.Nodup
import SectorFS.Directory
import SectorFS.Proofs.Device.Edits

namespace SectorFS

open Layout

theorem Bytes.ofText_inj {a b : String} (h : ofText a = ofText b) : a = b := by
  have hencode : a.toList.utf8Encode = b.toList.utf8Encode := congrArg List.toByteArray h
  rwa [String.utf8Encode_toList, String.utf8Encode_toList, String.toByteArray_inj] at hencode

namespace Entry

variable {entry : Entry} {name : String} {sector : UInt32} {kind : Kind}

def isLink (entry : Entry) : Bool := entry.isNamed dot || entry.isNamed dotDot

theorem isNamed_iff : entry.isNamed name = true ↔ entry.name = Bytes.ofText name := beq_iff_eq

theorem of_make (h : make name sector kind = .ok entry) :
    entry.name = Bytes.ofText name ∧ entry.sector = sector ∧ entry.kind = kind := by
  unfold make at h
  dsimp only at h
  split at h
  · split at h
    · contradiction
    · cases h
      exact ⟨rfl, rfl, rfl⟩
  · contradiction

theorem eq_of_fields {a b : Entry} (hname : a.name = b.name) (hkind : a.kind = b.kind)
    (hsector : a.sector = b.sector) : a = b := by
  cases a
  cases b
  cases hname
  cases hkind
  cases hsector
  rfl

end Entry

namespace Directory

variable {old new table : Directory} {entry : Entry} {name : String} {here parent : UInt32}
  {x y : Slot}

def Replaces (old new : Directory) (x y : Slot) : Prop :=
  ∃ first rest, old.slots = first ++ x :: rest ∧ new.slots = first ++ y :: rest

theorem Replaces.capacity (h : Replaces old new x y) : new.capacity = old.capacity := by
  obtain ⟨first, rest, hold, hnew⟩ := h
  simp [Directory.capacity, hold, hnew]

theorem Replaces.symm (h : Replaces old new x y) : Replaces new old y x := by
  obtain ⟨first, rest, hold, hnew⟩ := h
  exact ⟨first, rest, hnew, hold⟩

theorem Replaces.entries_perm (h : Replaces old new none (some entry)) :
    new.entries.Perm (entry :: old.entries) := by
  obtain ⟨first, rest, hold, hnew⟩ := h
  simp only [entries, hold, hnew, List.filterMap_append, List.filterMap_cons, id]
  exact List.perm_middle

/-- Of two tables that differ in one slot, one half each makes up one of the two. -/
theorem Replaces.mix (h : Replaces old new x y) (n : Nat) :
    new.slots.take n ++ old.slots.drop n = old.slots ∨
      new.slots.take n ++ old.slots.drop n = new.slots := by
  obtain ⟨first, rest, hold, hnew⟩ := h
  rw [hold, hnew]
  by_cases hn : n ≤ first.length
  · left
    have htake : (first ++ x :: rest).take n = first.take n := List.take_append_of_le_length hn
    rw [List.take_append_of_le_length hn, ← htake, List.take_append_drop]
  · right
    obtain ⟨m, rfl⟩ : ∃ m, n = first.length + (m + 1) := ⟨n - first.length - 1, by omega⟩
    rw [List.take_length_add_append, List.drop_length_add_append, List.append_assoc,
      List.take_succ_cons, List.drop_succ_cons, List.cons_append, List.take_append_drop]

theorem replaces_of_fillFirst? {slots filled : List Slot}
    (h : fillFirst? entry slots = some filled) : Replaces ⟨slots⟩ ⟨filled⟩ none (some entry) := by
  induction slots generalizing filled with
  | nil => contradiction
  | cons slot slots ih =>
    cases slot with
    | none => exact ⟨[], slots, rfl, (Option.some.inj h).symm⟩
    | some other =>
      obtain ⟨more, hmore, rfl⟩ := Option.map_eq_some_iff.1 h
      obtain ⟨first, rest, hold, hnew⟩ := ih hmore
      exact ⟨some other :: first, rest, congrArg (_ :: ·) hold, congrArg (_ :: ·) hnew⟩

theorem find?_cons_some (other : Entry) (slots : List Slot) (name : String) :
    find? ⟨some other :: slots⟩ name =
      if other.isNamed name then some other else find? ⟨slots⟩ name := by
  change List.find? _ (other :: _) = _
  rw [List.find?_cons]
  cases other.isNamed name <;> rfl

theorem replaces_of_eraseFirst? {slots left : List Slot} (h : eraseFirst? name slots = some left) :
    ∃ entry, find? ⟨slots⟩ name = some entry ∧ Replaces ⟨slots⟩ ⟨left⟩ (some entry) none := by
  induction slots generalizing left with
  | nil => contradiction
  | cons slot slots ih =>
    cases slot with
    | none =>
      obtain ⟨more, hmore, rfl⟩ := Option.map_eq_some_iff.1 h
      obtain ⟨entry, hfind, first, rest, hold, hnew⟩ := ih hmore
      exact ⟨entry, hfind, none :: first, rest, congrArg (_ :: ·) hold, congrArg (_ :: ·) hnew⟩
    | some other =>
      unfold eraseFirst? at h
      rw [find?_cons_some]
      by_cases hname : other.isNamed name = true
      · rw [if_pos hname] at h ⊢
        exact ⟨other, rfl, [], slots, rfl, (Option.some.inj h).symm⟩
      · rw [if_neg hname] at h ⊢
        obtain ⟨more, hmore, rfl⟩ := Option.map_eq_some_iff.1 h
        obtain ⟨entry, hfind, first, rest, hold, hnew⟩ := ih hmore
        exact ⟨entry, hfind, some other :: first, rest, congrArg (_ :: ·) hold,
          congrArg (_ :: ·) hnew⟩

theorem mem_of_find? (h : table.find? name = some entry) :
    entry ∈ table.entries ∧ entry.name = Bytes.ofText name := by
  have hnamed := List.find?_some (p := fun other : Entry ↦ other.isNamed name) h
  exact ⟨List.mem_of_find?_eq_some h, Entry.isNamed_iff.1 hnamed⟩

theorem find?_eq_none : table.find? name = none ↔ Bytes.ofText name ∉ table.entries.map Entry.name := by
  simp only [find?, List.find?_eq_none, List.mem_map, Entry.isNamed_iff, not_exists, not_and]

theorem find?_of_mem (hnodup : (table.entries.map Entry.name).Nodup) (h : entry ∈ table.entries)
    (hname : entry.name = Bytes.ofText name) : table.find? name = some entry := by
  cases hfind : table.find? name with
  | none => exact absurd (hname ▸ List.mem_map_of_mem h) (find?_eq_none.1 hfind)
  | some other =>
    obtain ⟨hmem, hother⟩ := mem_of_find? hfind
    rw [List.inj_on_of_nodup_map hnodup hmem h (hother.trans hname.symm)]

/-- Adding fills one free slot, under a name that was not there. -/
theorem of_add {kind : Kind} (h : old.add name here kind = .ok new) :
    ∃ entry, Entry.make name here kind = .ok entry ∧ old.find? name = none ∧
      Replaces old new none (some entry) := by
  obtain ⟨entry, hmake, h⟩ := bind_eq_ok.1 h
  refine ⟨entry, hmake, ?_⟩
  by_cases hsome : (old.find? name).isSome = true
  · rw [if_pos hsome] at h
    contradiction
  · rw [if_neg hsome] at h
    refine ⟨by simpa using hsome, ?_⟩
    cases hfill : fillFirst? entry old.slots with
    | none => simp only [hfill] at h; contradiction
    | some filled =>
      simp only [hfill] at h
      cases h
      exact replaces_of_fillFirst? hfill

/-- Removing frees the slot of the entry that a look-up finds. -/
theorem of_remove (h : old.remove name = .ok new) :
    ∃ entry, old.find? name = some entry ∧ Replaces old new (some entry) none := by
  unfold remove at h
  split at h
  · contradiction
  · next left hleft =>
    cases h
    exact replaces_of_eraseFirst? hleft

theorem remove_of_find? (h : old.find? name = some entry) : ∃ new, old.remove name = .ok new := by
  obtain ⟨slots⟩ := old
  suffices ∃ left, eraseFirst? name slots = some left by
    obtain ⟨left, hleft⟩ := this
    exact ⟨⟨left⟩, by rw [remove, hleft]⟩
  induction slots with
  | nil => contradiction
  | cons slot slots ih =>
    cases slot with
    | none =>
      obtain ⟨left, hleft⟩ := ih h
      exact ⟨none :: left, by rw [eraseFirst?, hleft]; rfl⟩
    | some other =>
      by_cases hname : other.isNamed name = true
      · exact ⟨none :: slots, by rw [eraseFirst?, if_pos hname]⟩
      · rw [find?_cons_some, if_neg hname] at h
        obtain ⟨left, hleft⟩ := ih h
        exact ⟨some other :: left, by rw [eraseFirst?, if_neg hname, hleft]; rfl⟩

/-- The only entry of that name leads to the directory at `target`. -/
def LinksTo (table : Directory) (name : String) (target : UInt32) : Prop :=
  ∃ entry, table.entries.filter (fun entry ↦ entry.isNamed name) = [entry] ∧
    entry.sector = target ∧ entry.kind = .directory

def children (table : Directory) : List Entry := table.entries.filter fun entry ↦ !entry.isLink

structure Linked (table : Directory) (here parent : UInt32) : Prop where
  toSelf : table.LinksTo dot here
  toParent : table.LinksTo dotDot parent

theorem mem_children : entry ∈ table.children ↔ entry ∈ table.entries ∧ entry.isLink = false := by
  simp [children]

theorem LinksTo.find? (h : table.LinksTo name here) :
    ∃ entry, table.find? name = some entry ∧ entry.sector = here ∧ entry.kind = .directory := by
  obtain ⟨entry, hfilter, hentry⟩ := h
  refine ⟨entry, ?_, hentry⟩
  rw [Directory.find?, ← List.head?_filter, hfilter, List.head?_cons]

theorem LinksTo.cons_iff (hperm : new.entries.Perm (entry :: old.entries))
    (hname : entry.isNamed name = false) : new.LinksTo name here ↔ old.LinksTo name here := by
  have hfilter : (new.entries.filter fun entry ↦ entry.isNamed name).Perm
      (old.entries.filter fun entry ↦ entry.isNamed name) := by
    refine (hperm.filter _).trans ?_
    rw [List.filter_cons_of_neg (by simp [hname])]
  constructor
  · rintro ⟨link, hlink, htarget⟩
    exact ⟨link, List.perm_singleton.1 (hlink ▸ hfilter.symm), htarget⟩
  · rintro ⟨link, hlink, htarget⟩
    exact ⟨link, List.perm_singleton.1 (hlink ▸ hfilter), htarget⟩

/-- An entry that is no link comes and goes without the links noticing. -/
theorem linked_cons_iff (hperm : new.entries.Perm (entry :: old.entries))
    (hlink : entry.isLink = false) : new.Linked here parent ↔ old.Linked here parent := by
  obtain ⟨hdot, hdotDot⟩ := Bool.or_eq_false_iff.1 hlink
  have hself : new.LinksTo dot here ↔ old.LinksTo dot here := LinksTo.cons_iff hperm hdot
  have hparent : new.LinksTo dotDot parent ↔ old.LinksTo dotDot parent :=
    LinksTo.cons_iff hperm hdotDot
  exact ⟨fun h ↦ ⟨hself.1 h.toSelf, hparent.1 h.toParent⟩,
    fun h ↦ ⟨hself.2 h.toSelf, hparent.2 h.toParent⟩⟩

theorem children_perm (hperm : new.entries.Perm (entry :: old.entries))
    (hlink : entry.isLink = false) : new.children.Perm (entry :: old.children) := by
  refine (hperm.filter _).trans ?_
  rw [List.filter_cons_of_pos (by simp [hlink])]
  rfl

theorem Linked.isLink_of_find?_eq_none (h : table.Linked here parent)
    (hnone : table.find? name = none) (hname : entry.name = Bytes.ofText name) :
    entry.isLink = false := by
  have hne : ∀ link target, table.LinksTo link target → entry.isNamed link = false := by
    intro link target hlink
    rw [Bool.eq_false_iff]
    intro hn
    obtain ⟨other, hfind, -⟩ := hlink.find?
    rw [Bytes.ofText_inj (hname.symm.trans (Entry.isNamed_iff.1 hn)), hfind] at hnone
    contradiction
  exact Bool.or_eq_false_iff.2 ⟨hne _ _ h.toSelf, hne _ _ h.toParent⟩

theorem isLink_of_ne (hname : entry.name = Bytes.ofText name) (hdot : name ≠ dot)
    (hdotDot : name ≠ dotDot) : entry.isLink = false := by
  have hne : ∀ link, name ≠ link → entry.isNamed link = false := by
    intro link hlink
    rw [Bool.eq_false_iff]
    exact fun hn ↦ hlink (Bytes.ofText_inj (hname.symm.trans (Entry.isNamed_iff.1 hn)))
  exact Bool.or_eq_false_iff.2 ⟨hne _ hdot, hne _ hdotDot⟩

theorem isEmpty_iff : table.isEmpty = true ↔ table.children = [] := by
  simp only [isEmpty, children, List.all_eq_true, List.filter_eq_nil_iff, Entry.isLink,
    Bool.not_eq_true', Bool.not_eq_false]

theorem exists_linked (here parent : UInt32) : ∃ table, linked directorySlots here parent = .ok table ∧
    table.capacity = directorySlots ∧ table.Linked here parent ∧ table.children = [] ∧
    (table.entries.map Entry.name).Nodup := by
  refine ⟨_, rfl, rfl, ⟨⟨_, rfl, rfl, rfl⟩, ⟨_, rfl, rfl, rfl⟩⟩, rfl, ?_⟩
  change [Bytes.ofText dot, Bytes.ofText dotDot].Nodup
  decide

end Directory

end SectorFS
