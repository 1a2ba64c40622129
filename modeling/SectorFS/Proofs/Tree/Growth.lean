import SectorFS.Proofs.Tree

namespace SectorFS

open Layout

namespace Tree

variable {tree first rest : Tree} {node : Node} {before after device : Device}
  {s t here parent above : UInt32} {old new : Directory} {map : FreeMap}

def DistinctNames (tree : Tree) (device : Device) : Prop :=
  ∀ here parent table, tree.HasDirectory here parent → device.HasTable here table →
    (table.entries.map Entry.name).Nodup

/-- No directory has two entries of one name, and no sector is used without belonging to a file. -/
structure Tidy (tree : Tree) (device : Device) : Prop where
  names : tree.DistinctNames device
  exact : ∀ map s, device.HasMap map → map.used s = true → s ∈ tree.owned device

theorem Alike.tidy (h : tree.Alike before after) (hstored : tree.Stored before)
    (htidy : tree.Tidy before) : tree.Tidy after := by
  refine ⟨fun here parent table hhere htable ↦ ?_, fun map s hhas hused ↦ ?_⟩
  · obtain ⟨stored, hwas, -⟩ := hstored.tables here parent hhere
    have hsame := h.tables here parent stored hhere hwas
    exact htable.eq hsame ▸ htidy.names here parent stored hhere hwas
  · obtain ⟨stored, hwas, -⟩ := hstored.marked
    obtain rfl := hhas.eq (h.map stored hwas)
    rw [owned_congr h.headers]
    exact htidy.exact _ s hwas hused

theorem sectors_perm (first : Tree) (node : Node) (rest : Tree) :
    (sectors (first ++ node :: rest)).Perm (node.sector :: sectors (first ++ rest)) := by
  have hmid : ((first ++ node :: rest).map Node.sector).Perm
      (node.sector :: (first ++ rest).map Node.sector) := by
    rw [List.map_append, List.map_append, List.map_cons]
    exact List.perm_middle
  refine ((hmid.cons rootSector).cons freeMapSector).trans ?_
  refine ((List.Perm.swap _ _ _).cons _).trans (List.Perm.swap _ _ _)

theorem mem_owned_append (first : Tree) (node : Node) (rest : Tree) :
    t ∈ owned (first ++ node :: rest) device ↔
    t ∈ device.footprint node.sector ∨ t ∈ owned (first ++ rest) device := by
  have hperm := (sectors_perm first node rest).flatMap_right device.footprint
  rw [owned, hperm.mem_iff, List.flatMap_cons, List.mem_append, owned]

theorem nodup_owned_append (first : Tree) (node : Node) (rest : Tree) :
    (owned (first ++ node :: rest) device).Nodup ↔
    (device.footprint node.sector).Nodup ∧ (owned (first ++ rest) device).Nodup ∧
      ∀ t ∈ device.footprint node.sector, t ∉ owned (first ++ rest) device := by
  have hperm := (sectors_perm first node rest).flatMap_right device.footprint
  rw [owned, hperm.nodup_iff, List.flatMap_cons, List.nodup_append, ← owned]
  refine and_congr_right fun _ ↦ and_congr_right fun _ ↦ ?_
  exact ⟨fun hne t ht ht' ↦ hne t ht t ht' rfl, fun hnot t ht u hu htu ↦ hnot t ht (htu ▸ hu)⟩

theorem children_append_self (first : Tree) (node : Node) (rest : Tree) :
    (children (first ++ node :: rest) node.parent).Perm
      (node.entry :: children (first ++ rest) node.parent) := by
  have hself : (node.parent == node.parent) = true := beq_self_eq_true _
  simp only [children, List.filter_append, List.map_append, List.filter_cons, hself, if_true,
    List.map_cons]
  exact List.perm_middle

theorem children_append_of_ne (first rest : Tree) (h : node.parent ≠ here) :
    children (first ++ node :: rest) here = children (first ++ rest) here := by
  have hne : (node.parent == here) = false := beq_eq_false_iff_ne.2 h
  simp [children, List.filter_append, hne]

theorem hasDirectory_append (first : Tree) (node : Node) (rest : Tree) :
    HasDirectory (first ++ node :: rest) here parent ↔
    (node.entry.kind = .directory ∧ node.sector = here ∧ node.parent = parent) ∨
      HasDirectory (first ++ rest) here parent := by
  simp only [HasDirectory, List.mem_append, List.mem_cons]
  constructor
  · rintro (hroot | ⟨other, hfirst | rfl | hrest, hother⟩)
    · exact .inr (.inl hroot)
    · exact .inr (.inr ⟨other, .inl hfirst, hother⟩)
    · exact .inl hother
    · exact .inr (.inr ⟨other, .inr hrest, hother⟩)
  · rintro (hnode | hroot | ⟨other, hfirst | hrest, hother⟩)
    · exact .inr ⟨node, .inr (.inl rfl), hnode⟩
    · exact .inl hroot
    · exact .inr ⟨other, .inl hfirst, hother⟩
    · exact .inr ⟨other, .inr (.inr hrest), hother⟩

theorem Rooted.prune (h : Rooted (first ++ node :: rest))
    (hchildless : ∀ other ∈ first, other.parent ≠ node.sector) : Rooted (first ++ rest) := by
  induction first with
  | nil => exact h.2
  | cons other first ih =>
    obtain ⟨⟨above, hdir⟩, hrest⟩ := h
    refine ⟨⟨above, ?_⟩, ih hrest fun next hnext ↦ hchildless next (List.mem_cons_of_mem _ hnext)⟩
    refine ((hasDirectory_append first node rest).1 hdir).resolve_left fun hnode ↦ ?_
    exact hchildless other List.mem_cons_self hnode.2.1.symm

/-! ## One file more -/

structure Grafted (tree : Tree) (node : Node) (before after : Device) (old new : Directory)
    (header : Header) (map : FreeMap) : Prop where
  frame : tree.Frame before after fun s ↦ s = node.parent ∨ s = freeMapSector
  was : before.HasTable node.parent old
  becomes : after.HasTable node.parent new
  entries : new.entries.Perm (node.entry :: old.entries)
  unlinked : node.entry.isLink = false
  headed : after.readHeader node.sector = .ok header
  /-- A new directory is empty. -/
  made : node.entry.kind = .directory → ∃ table, after.HasTable node.sector table ∧
    table.Linked node.sector node.parent ∧ table.children = [] ∧ (table.entries.map Entry.name).Nodup
  nodup : (node.sector :: header.dataSectors).Nodup
  fresh : ∀ t ∈ node.sector :: header.dataSectors, t ∉ tree.owned before
  mapped : after.HasMap map

namespace Grafted

variable {header : Header} (g : tree.Grafted node before after old new header map)
  (hf : before.faults = {}) (hf' : after.faults = {})
include g

theorem footprint_eq : after.footprint node.sector = node.sector :: header.dataSectors := by
  rw [Device.footprint, Device.dataSectors_of_readHeader g.headed]

include hf hf'

theorem mem_owned : t ∈ owned (node :: tree) after ↔
    t ∈ node.sector :: header.dataSectors ∨ t ∈ tree.owned before := by
  refine (mem_owned_append [] node tree).trans ?_
  rw [g.footprint_eq, List.nil_append, g.frame.owned_eq hf hf']

theorem stored (h : tree.Stored before) (hparent : tree.HasDirectory node.parent above)
    (hold : ∀ t ∈ tree.owned before, map.used t = true)
    (hnew : ∀ t ∈ node.sector :: header.dataSectors, map.used t = true) :
    Stored (node :: tree) after := by
  have hself : ∀ t ∈ tree.sectors, t ≠ node.sector := by
    intro t ht heq
    exact g.fresh _ List.mem_cons_self (heq ▸ Tree.mem_owned.2 ⟨t, ht, List.mem_cons_self⟩)
  refine ⟨g.frame.size ▸ h.room, ⟨⟨above, hparent⟩, h.rooted⟩, ?_, ?_, ⟨map, g.mapped, ?_⟩, ?_⟩
  · intro here parent hdir
    -- The new directory itself, then its parent, then the directories that stay as they were.
    rcases (hasDirectory_append [] node tree).1 hdir with ⟨hkind, rfl, rfl⟩ | hdir
    · obtain ⟨table, htable, hlinked, hchildren, -⟩ := g.made hkind
      have hnone : tree.children node.sector = [] :=
        h.rooted.children_eq_nil fun up hup ↦ hself _ hup.mem_sectors rfl
      have hother := children_append_of_ne [] tree (hself _ hparent.mem_sectors)
      refine ⟨table, htable, hlinked, ?_⟩
      rw [List.nil_append, List.nil_append, hnone] at hother
      rw [hother, hchildren]
    · by_cases hhere : here = node.parent
      · subst hhere
        obtain ⟨table, htable, hlinked, hperm⟩ := h.tables _ _ hdir
        obtain rfl := htable.eq g.was
        refine ⟨new, g.becomes, (Directory.linked_cons_iff g.entries g.unlinked).2 hlinked, ?_⟩
        have hmore := children_append_self [] node tree
        exact (Directory.children_perm g.entries g.unlinked).trans ((hperm.cons _).trans hmore.symm)
      · obtain ⟨table, htable, hrest⟩ := h.tables _ _ hdir
        have hother := children_append_of_ne [] tree (Ne.symm hhere)
        refine ⟨table, g.frame.hasTable_of_ne hf hf' h hdir hhere htable, ?_⟩
        rw [List.nil_append, List.nil_append] at hother
        rwa [hother]
  · intro other hother
    rcases List.mem_cons.1 hother with rfl | hother
    · exact ⟨header, g.headed⟩
    · rw [g.frame.readHeader_eq hf hf' (mem_sectors_of_mem hother)]
      exact h.headers other hother
  · intro t ht
    rcases (g.mem_owned hf hf').1 ht with ht | ht
    · exact hnew t ht
    · exact hold t ht
  · refine (nodup_owned_append [] node tree).2 ?_
    rw [g.footprint_eq, List.nil_append, g.frame.owned_eq hf hf']
    exact ⟨g.nodup, h.nodup, g.fresh⟩

theorem distinctNames (h : tree.Stored before) (hparent : tree.HasDirectory node.parent above)
    (hdistinct : tree.DistinctNames before) (hname : node.entry.name ∉ old.entries.map Entry.name) :
    DistinctNames (node :: tree) after := by
  intro here parent table hdir htable
  rcases (hasDirectory_append [] node tree).1 hdir with ⟨hkind, rfl, rfl⟩ | hdir
  · obtain ⟨made, hmade, -, -, hnames⟩ := g.made hkind
    exact hmade.eq htable ▸ hnames
  · by_cases hhere : here = node.parent
    · subst hhere
      obtain rfl := g.becomes.eq htable
      have hnames := hdistinct _ _ _ hparent g.was
      rw [(g.entries.map Entry.name).nodup_iff, List.map_cons]
      exact List.nodup_cons.2 ⟨hname, hnames⟩
    · obtain ⟨stored, hstored, -⟩ := h.tables _ _ hdir
      have hsame := g.frame.hasTable_of_ne hf hf' h hdir hhere hstored
      exact htable.eq hsame ▸ hdistinct _ _ _ hdir hstored

theorem tidy (h : tree.Stored before) (hparent : tree.HasDirectory node.parent above)
    (htidy : tree.Tidy before) (hname : node.entry.name ∉ old.entries.map Entry.name)
    (hused : ∀ t, map.used t = true → t ∈ tree.owned before ∨ t ∈ node.sector :: header.dataSectors) :
    Tidy (node :: tree) after := by
  refine ⟨g.distinctNames hf hf' h hparent htidy.names hname, fun other t hother ht ↦ ?_⟩
  obtain rfl := hother.eq g.mapped
  exact (g.mem_owned hf hf').2 (hused t ht).symm

/-- What a directory had under a name it still has under it. -/
theorem find?_eq (h : tree.Stored before) (htidy : Tidy (node :: tree) after)
    (hdir : tree.HasDirectory here parent) {file : File} {table : Directory} {name : String}
    {entry : Entry} (hopen : before.openDirectory here = .ok (file, table))
    (hfind : table.find? name = some entry) :
    ∃ file table, after.openDirectory here = .ok (file, table) ∧ table.find? name = some entry := by
  obtain ⟨stored, hstored, -⟩ := h.tables here parent hdir
  obtain ⟨file', hopen', -⟩ := id hstored
  obtain ⟨-, rfl⟩ := Prod.mk.inj (Except.ok.inj (hopen.symm.trans hopen'))
  by_cases hhere : here = node.parent
  · subst hhere
    obtain rfl := hstored.eq g.was
    obtain ⟨left, hleft, -⟩ := g.becomes
    obtain ⟨hmem, hname⟩ := Directory.mem_of_find? hfind
    have hnames := htidy.names _ _ _ hdir.cons g.becomes
    exact ⟨left, new, hleft, Directory.find?_of_mem hnames
      (g.entries.mem_iff.2 (List.mem_cons_of_mem _ hmem)) hname⟩
  · obtain ⟨left, hleft, -⟩ := g.frame.hasTable_of_ne hf hf' h hdir hhere hstored
    exact ⟨left, table, hleft, hfind⟩

end Grafted

theorem Grafted.alike {other left : Device} {was : Directory} {header : Header}
    (g : tree.Grafted node before after old new header map)
    (g' : tree.Grafted node other left was new header map) (hf : before.faults = {})
    (hf' : after.faults = {}) (ho : other.faults = {}) (ho' : left.faults = {})
    (h : tree.Alike before other) (hstored : tree.Stored before) (hother : tree.Stored other)
    (hmade : node.entry.kind = .directory →
      ∃ table, after.HasTable node.sector table ∧ left.HasTable node.sector table) :
    Alike (node :: tree) after left := by
  refine ⟨fun s hs ↦ ?_, fun here parent table hdir htable ↦ ?_, fun stored hhas ↦ ?_⟩
  · rcases List.mem_cons.1 ((sectors_perm [] node tree).mem_iff.1 hs) with rfl | hs
    · rw [g'.headed, g.headed]
    · rw [g'.frame.readHeader_eq ho ho' hs, h.headers s hs, g.frame.readHeader_eq hf hf' hs]
  · rcases (hasDirectory_append [] node tree).1 hdir with ⟨hkind, rfl, rfl⟩ | hdir
    · obtain ⟨made, hmade, hmade'⟩ := hmade hkind
      exact htable.eq hmade ▸ hmade'
    · by_cases hhere : here = node.parent
      · subst hhere
        exact htable.eq g.becomes ▸ g'.becomes
      · obtain ⟨kept, hkept, -⟩ := hstored.tables here parent hdir
        rw [htable.eq (g.frame.hasTable_of_ne hf hf' hstored hdir hhere hkept)]
        exact g'.frame.hasTable_of_ne ho ho' hother hdir hhere (h.tables _ _ _ hdir hkept)
  · exact hhas.eq g.mapped ▸ g'.mapped

/-! ## One file less -/

structure Pruned (tree : Tree) (node : Node) (before after : Device) (old new : Directory)
    (map : FreeMap) : Prop where
  frame : tree.Frame before after fun s ↦ s = node.parent ∨ s = freeMapSector
  was : before.HasTable node.parent old
  becomes : after.HasTable node.parent new
  entries : old.entries.Perm (node.entry :: new.entries)
  unlinked : node.entry.isLink = false
  mapped : after.HasMap map
  used : ∀ t, map.used t = true ↔
    (∃ stored, before.HasMap stored ∧ stored.used t = true) ∧ t ∉ before.footprint node.sector

theorem Frame.mono {touched : UInt32 → Prop} (frame : tree.Frame before after touched) (rest : Tree)
    (hsub : ∀ s ∈ sectors rest, s ∈ tree.sectors) : Frame rest before after touched :=
  ⟨frame.size, fun s hs ↦ frame.header s (hsub s hs), fun s hs ↦ frame.footprint s (hsub s hs)⟩

theorem mem_sectors_append (h : s ∈ sectors (first ++ rest)) : s ∈ sectors (first ++ node :: rest) :=
  (sectors_perm first node rest).mem_iff.2 (List.mem_cons_of_mem _ h)

theorem mem_append_of_ne {other : Node} (h : other ∈ first ++ node :: rest) (hne : other ≠ node) :
    other ∈ first ++ rest := by
  rw [List.mem_append, List.mem_cons] at h
  exact List.mem_append.2 (h.imp_right fun h ↦ h.resolve_left hne)

namespace Pruned

variable (p : Pruned (first ++ node :: rest) node before after old new map)
  (hf : before.faults = {}) (hf' : after.faults = {})
include p hf hf'

theorem stored (h : Stored (first ++ node :: rest) before)
    (hchildless : children (first ++ node :: rest) node.sector = []) :
    Stored (first ++ rest) after := by
  have hframe := p.frame.mono (first ++ rest) fun s ↦ mem_sectors_append
  obtain ⟨-, hnodup, hapart⟩ := (nodup_owned_append first node rest).1 h.nodup
  have hmono : ∀ {here parent}, HasDirectory (first ++ rest) here parent →
      HasDirectory (first ++ node :: rest) here parent := fun hdir ↦
    (hasDirectory_append first node rest).2 (.inr hdir)
  refine ⟨hframe.size ▸ h.room, h.rooted.prune ?_, ?_, ?_, ⟨map, p.mapped, ?_⟩, ?_⟩
  · intro other hother heq
    -- What goes is no directory with files in it, so all the others keep their places.
    have hentry := mem_children.2 (heq ▸ List.mem_append_left _ hother :
      (⟨node.sector, other.entry⟩ : Node) ∈ first ++ node :: rest)
    rw [hchildless] at hentry
    contradiction
  · intro here parent hdir
    obtain ⟨table, htable, hlinked, hperm⟩ := h.tables _ _ (hmono hdir)
    by_cases hhere : here = node.parent
    · subst hhere
      obtain rfl := htable.eq p.was
      refine ⟨new, p.becomes, (Directory.linked_cons_iff p.entries p.unlinked).1 hlinked, ?_⟩
      have hless := (Directory.children_perm p.entries p.unlinked).symm
      exact List.Perm.cons_inv (hless.trans (hperm.trans (children_append_self first node rest)))
    · refine ⟨table, p.frame.hasTable_of_ne hf hf' h (hmono hdir) hhere htable, hlinked, ?_⟩
      rwa [children_append_of_ne first rest (Ne.symm hhere)] at hperm
  · intro other hother
    have hmem : other ∈ first ++ node :: rest := by
      rcases List.mem_append.1 hother with hother | hother
      · exact List.mem_append_left _ hother
      · exact List.mem_append_right _ (List.mem_cons_of_mem _ hother)
    rw [hframe.readHeader_eq hf hf' (mem_sectors_of_mem hother)]
    exact h.headers other hmem
  · intro t ht
    rw [hframe.owned_eq hf hf'] at ht
    obtain ⟨stored, hstored, hused⟩ := h.marked
    exact (p.used t).2 ⟨⟨stored, hstored, hused t ((mem_owned_append first node rest).2 (.inr ht))⟩,
      fun hmem ↦ hapart t hmem ht⟩
  · rw [hframe.owned_eq hf hf']
    exact hnodup

theorem tidy (h : Stored (first ++ node :: rest) before) (htidy : Tidy (first ++ node :: rest) before) :
    Tidy (first ++ rest) after := by
  have hframe := p.frame.mono (first ++ rest) fun s ↦ mem_sectors_append
  refine ⟨fun here parent table hdir htable ↦ ?_, fun other t hother ht ↦ ?_⟩
  · have hdir' : HasDirectory (first ++ node :: rest) here parent :=
      (hasDirectory_append first node rest).2 (.inr hdir)
    by_cases hhere : here = node.parent
    · subst hhere
      obtain rfl := p.becomes.eq htable
      have hnames := htidy.names _ _ _ hdir' p.was
      rw [(p.entries.map Entry.name).nodup_iff, List.map_cons] at hnames
      exact (List.nodup_cons.1 hnames).2
    · obtain ⟨stored, hstored, -⟩ := h.tables _ _ hdir'
      have hsame := p.frame.hasTable_of_ne hf hf' h hdir' hhere hstored
      exact htable.eq hsame ▸ htidy.names _ _ _ hdir' hstored
  · obtain rfl := hother.eq p.mapped
    obtain ⟨⟨stored, hstored, hused⟩, hnot⟩ := (p.used t).1 ht
    rw [hframe.owned_eq hf hf']
    exact ((mem_owned_append first node rest).1 (htidy.exact _ _ hstored hused)).resolve_left hnot

end Pruned

theorem Pruned.alike {other left : Device} {was : Directory}
    (p : Pruned (first ++ node :: rest) node before after old new map)
    (p' : Pruned (first ++ node :: rest) node other left was new map) (hf : before.faults = {})
    (hf' : after.faults = {}) (ho : other.faults = {}) (ho' : left.faults = {})
    (h : Alike (first ++ node :: rest) before other) (hstored : Stored (first ++ node :: rest) before)
    (hother : Stored (first ++ node :: rest) other) : Alike (first ++ rest) after left := by
  refine ⟨fun s hs ↦ ?_, fun here parent table hdir htable ↦ ?_, fun stored hhas ↦ ?_⟩
  · have hmem : s ∈ sectors (first ++ node :: rest) := mem_sectors_append hs
    rw [p'.frame.readHeader_eq ho ho' hmem, h.headers s hmem, p.frame.readHeader_eq hf hf' hmem]
  · have hdir' := (hasDirectory_append first node rest).2 (.inr hdir)
    by_cases hhere : here = node.parent
    · subst hhere
      exact htable.eq p.becomes ▸ p'.becomes
    · obtain ⟨kept, hkept, -⟩ := hstored.tables here parent hdir'
      rw [htable.eq (p.frame.hasTable_of_ne hf hf' hstored hdir' hhere hkept)]
      exact p'.frame.hasTable_of_ne ho ho' hother hdir' hhere (h.tables _ _ _ hdir' hkept)
  · exact hhas.eq p.mapped ▸ p'.mapped

end Tree

end SectorFS
