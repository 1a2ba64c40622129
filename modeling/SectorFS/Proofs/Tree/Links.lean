import Mathlib.Data.List.Induction
import SectorFS.Proofs.Settled

namespace SectorFS

open Layout

def Path.Ordinary (names : List String) : Prop := ∀ name ∈ names, name ≠ dot ∧ name ≠ dotDot

instance (names : List String) : Decidable (Path.Ordinary names) :=
  inferInstanceAs (Decidable (∀ name ∈ names, name ≠ dot ∧ name ≠ dotDot))

theorem Path.enter_of_linksTo {device : Device} {here target : UInt32} {name : String}
    {table : Directory} (htable : device.HasTable here table) (hlink : table.LinksTo name target) :
    enter device here name = .ok target := by
  obtain ⟨file, hopen, -⟩ := htable
  obtain ⟨entry, hfind, hsector, hkind⟩ := hlink.find?
  exact enter_eq_ok_iff.2 ⟨file, table, entry, hopen, hfind, hkind, hsector⟩

namespace Tree

variable {tree : Tree} {device : Device} {start up here parent next there : UInt32}
  {name : String} {first second names : List String}

namespace Stored

variable (h : tree.Stored device)
include h

theorem enter_dot (hdir : tree.HasDirectory here parent) :
    Path.enter device here dot = .ok here := by
  obtain ⟨table, htable, hlinked, -⟩ := h.tables here parent hdir
  exact Path.enter_of_linksTo htable hlinked.toSelf

theorem enter_dotDot (hdir : tree.HasDirectory here parent) :
    Path.enter device here dotDot = .ok parent := by
  obtain ⟨table, htable, hlinked, -⟩ := h.tables here parent hdir
  exact Path.enter_of_linksTo htable hlinked.toParent

/-- Under the name of no link one enters a directory that is listed here. -/
theorem node_of_enter (hdir : tree.HasDirectory here parent) (hname : name ≠ dot ∧ name ≠ dotDot)
    (henter : Path.enter device here name = .ok next) : ∃ entry, ⟨here, entry⟩ ∈ tree ∧
      entry.name = Bytes.ofText name ∧ entry.kind = .directory ∧ entry.sector = next := by
  obtain ⟨file, table, entry, hopen, hfind, hkind, hsector⟩ := Path.enter_eq_ok_iff.1 henter
  obtain ⟨hmem, hnamed⟩ := Directory.mem_of_find? hfind
  rcases h.entry_cases hdir hopen hmem with ⟨hlink, -⟩ | ⟨-, hnode⟩
  · rw [Directory.isLink_of_ne hnamed hname.1 hname.2] at hlink
    contradiction
  · exact ⟨entry, hnode, hnamed, hkind, hsector⟩

theorem hasDirectory_enter (hdir : tree.HasDirectory here parent)
    (hname : name ≠ dot ∧ name ≠ dotDot) (henter : Path.enter device here name = .ok next) :
    tree.HasDirectory next here := by
  obtain ⟨entry, hnode, -, hkind, hsector⟩ := h.node_of_enter hdir hname henter
  exact .inr ⟨_, hnode, hkind, hsector, rfl⟩

theorem hasDirectory_walk (hdir : tree.HasDirectory start up)
    (hwalk : Path.walk device start names = .ok here) : ∃ above, tree.HasDirectory here above := by
  rcases h.walk_cases hdir names with ⟨other, above, hok, hother⟩ | ⟨error, herror, -⟩
  · cases hwalk.symm.trans hok
    exact ⟨above, hother⟩
  · cases hwalk.symm.trans herror

/-- As many steps up as names down lead back. -/
theorem walk_back (hdir : tree.HasDirectory start up) (hnames : Path.Ordinary names)
    (hwalk : Path.walk device start names = .ok here) :
    Path.walk device here (List.replicate names.length dotDot) = .ok start := by
  induction names generalizing start up with
  | nil => rw [← Except.ok.inj hwalk]; rfl
  | cons name rest ih =>
    obtain ⟨hname, hrest⟩ := List.forall_mem_cons.1 hnames
    obtain ⟨next, henter, hmore⟩ := bind_eq_ok.1 hwalk
    have hnext := h.hasDirectory_enter hdir hname henter
    rw [List.length_cons, List.replicate_succ', Path.walk_append, ih hnext hrest hmore]
    exact (Path.walk_singleton device next dotDot).trans (h.enter_dotDot hnext)

theorem walk_dot (hdir : tree.HasDirectory start up) (first second : List String) :
    Path.walk device start (first ++ dot :: second) =
      Path.walk device start (first ++ second) := by
  rw [Path.walk_append, Path.walk_append]
  cases hfirst : Path.walk device start first with
  | error error => rfl
  | ok here =>
    obtain ⟨above, hhere⟩ := h.hasDirectory_walk hdir hfirst
    change Path.walk device here (dot :: second) = Path.walk device here second
    rw [Path.walk_cons, h.enter_dot hhere]
    rfl

theorem walk_detour (hdir : tree.HasDirectory start up) (hname : name ≠ dot ∧ name ≠ dotDot)
    (hfirst : Path.walk device start first = .ok here)
    (henter : Path.enter device here name = .ok next) (second : List String) :
    Path.walk device start (first ++ name :: dotDot :: second) =
      Path.walk device start (first ++ second) := by
  obtain ⟨above, hhere⟩ := h.hasDirectory_walk hdir hfirst
  have hnext := h.hasDirectory_enter hhere hname henter
  rw [Path.walk_append, Path.walk_append, hfirst]
  change Path.walk device here (name :: dotDot :: second) = Path.walk device here second
  rw [Path.walk_cons, henter]
  change Path.walk device next (dotDot :: second) = Path.walk device here second
  rw [Path.walk_cons, h.enter_dotDot hnext]
  rfl

/-- From the root, no step up leads anywhere else. -/
theorem walk_above_root (count : Nat) :
    Path.walk device rootSector (List.replicate count dotDot) = .ok rootSector := by
  induction count with
  | zero => rfl
  | succ count ih =>
    rw [List.replicate_succ, Path.walk_cons, h.enter_dotDot (hasDirectory_root tree)]
    exact ih

/-- The last name of a walk from the root is that of a directory other than the root. -/
theorem node_of_walk (hnames : Path.Ordinary (names ++ [name]))
    (hwalk : Path.walk device rootSector (names ++ [name]) = .ok there) :
    ∃ here entry, Path.walk device rootSector names = .ok here ∧ ⟨here, entry⟩ ∈ tree ∧
      entry.name = Bytes.ofText name ∧ entry.sector = there := by
  rw [Path.walk_append] at hwalk
  obtain ⟨here, hhere, hlast⟩ := bind_eq_ok.1 hwalk
  obtain ⟨above, hdir⟩ := h.hasDirectory_walk (hasDirectory_root tree) hhere
  rw [Path.walk_singleton] at hlast
  obtain ⟨entry, hnode, hnamed, -, hsector⟩ :=
    h.node_of_enter hdir (hnames name (List.mem_append_right _ List.mem_cons_self)) hlast
  exact ⟨here, entry, hhere, hnode, hnamed, hsector⟩

theorem not_walk_root (hnames : Path.Ordinary (names ++ [name])) :
    Path.walk device rootSector (names ++ [name]) ≠ .ok rootSector := by
  intro hwalk
  obtain ⟨here, entry, -, hnode, -, hsector⟩ := h.node_of_walk hnames hwalk
  exact (h.sector_ne hnode).2 hsector

/-- Names that lead from the root to the same directory are the same names. -/
theorem names_unique (hfirst : Path.Ordinary first) (hsecond : Path.Ordinary second)
    (hwalk : Path.walk device rootSector first = .ok there)
    (hwalk' : Path.walk device rootSector second = .ok there) : first = second := by
  -- From the end: the directory tells its last name, and the directory that lists it.
  induction first using List.reverseRecOn generalizing second there with
  | nil =>
    cases hwalk
    rcases List.eq_nil_or_concat second with rfl | ⟨names, name, rfl⟩
    · rfl
    · rw [List.concat_eq_append] at hsecond hwalk'
      exact absurd hwalk' (h.not_walk_root hsecond)
  | append_singleton names name ih =>
    obtain ⟨here, entry, hhere, hnode, hnamed, hsector⟩ := h.node_of_walk hfirst hwalk
    rcases List.eq_nil_or_concat second with rfl | ⟨others, other, rfl⟩
    · cases hwalk'
      exact absurd hwalk (h.not_walk_root hfirst)
    · rw [List.concat_eq_append] at hsecond hwalk' ⊢
      obtain ⟨here', entry', hhere', hnode', hnamed', hsector'⟩ := h.node_of_walk hsecond hwalk'
      cases h.eq_of_sector hnode hnode' (hsector.trans hsector'.symm)
      have hnames : names = others := ih (fun n hn ↦ hfirst n (List.mem_append_left _ hn))
        (fun n hn ↦ hsecond n (List.mem_append_left _ hn)) hhere hhere'
      rw [hnames, Bytes.ofText_inj (hnamed.symm.trans hnamed')]

end Stored

end Tree

end SectorFS
