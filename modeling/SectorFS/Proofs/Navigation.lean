import SectorFS.Proofs.Errands
import SectorFS.Proofs.Healthy
import SectorFS.Proofs.Tree.Links

namespace SectorFS

open Layout

namespace Path

variable {device : Device} {start : UInt32} {path : String} {paths : List String}

def resolveAll (device : Device) (start : UInt32) (paths : List String) : Except Error UInt32 :=
  paths.foldlM (fun here path ↦ resolve here path device) start

/-- Relative paths that together are so many steps up. -/
structure Climbs (count : Nat) (ups : List String) : Prop where
  relative : ∀ up ∈ ups, isAbsolute up = false
  components_eq : ups.flatMap components = List.replicate count dotDot

theorem resolveAll_eq_walk (h : ∀ path ∈ paths, isAbsolute path = false) :
    resolveAll device start paths = walk device start (paths.flatMap components) := by
  induction paths generalizing start with
  | nil => rfl
  | cons path rest ih =>
    obtain ⟨hpath, hrest⟩ := List.forall_mem_cons.1 h
    rw [List.flatMap_cons, walk_append, resolveAll, List.foldlM_cons, resolve_of_relative hpath]
    exact congrArg (walk device start (components path) >>= ·) (funext fun here ↦ ih hrest)

theorem Climbs.resolveAll_eq {count : Nat} {ups : List String} (h : Climbs count ups) :
    resolveAll device start ups = walk device start (List.replicate count dotDot) := by
  rw [resolveAll_eq_walk h.relative, h.components_eq]

end Path

namespace Tree.Stored

variable {tree : Tree} {device : Device} {start up : UInt32} {path longer : String}
  {first second : List String} (h : tree.Stored device) (hdir : tree.HasDirectory start up)
  (hlonger : Path.isAbsolute longer = Path.isAbsolute path)
  (hpath : Path.components path = first ++ second)
include h hdir hlonger hpath

theorem resolve_dot (hdot : Path.components longer = first ++ dot :: second) :
    Path.resolve start longer device = Path.resolve start path device := by
  obtain ⟨above, horigin⟩ := hasDirectory_origin hdir path
  rw [Path.resolve_eq, Path.resolve_eq, Path.origin_congr hlonger, hdot, hpath,
    h.walk_dot horigin]

theorem resolve_detour {here next : UInt32} {name : String}
    (hdetour : Path.components longer = first ++ name :: dotDot :: second)
    (hname : name ≠ dot ∧ name ≠ dotDot)
    (hfirst : Path.walk device (Path.origin start path) first = .ok here)
    (henter : Path.enter device here name = .ok next) :
    Path.resolve start longer device = Path.resolve start path device := by
  obtain ⟨above, horigin⟩ := hasDirectory_origin hdir path
  rw [Path.resolve_eq, Path.resolve_eq, Path.origin_congr hlonger, hdetour, hpath,
    h.walk_detour horigin hname hfirst henter]

end Tree.Stored

namespace Machine

variable {machine : Machine} {volume : Volume} {tree : Tree} {index : Nat} {session : Session}
  {path : String} {here : UInt32}

def placed (machine : Machine) (index : Nat) (here : UInt32) : Machine :=
  { machine with sessions := machine.sessions.setIfInBounds index ⟨here⟩ }

theorem placed_self (hs : machine.sessions[index]? = some session) :
    machine.placed index session.directory = machine := by
  have hsame : machine.sessions.setIfInBounds index session = machine.sessions := by
    apply Array.ext_getElem?
    intro i
    by_cases hi : index = i
    · obtain ⟨hlt, -⟩ := Array.getElem?_eq_some_iff.1 hs
      rw [← hi, Array.getElem?_setIfInBounds_self_of_lt hlt, hs]
    · rw [Array.getElem?_setIfInBounds_ne hi]
  exact congrArg (fun sessions ↦ { machine with sessions }) hsame

theorem step_enter_of_resolve (hv : machine.volume? = some volume)
    (hs : machine.sessions[index]? = some session)
    (hresolve : Path.resolve session.directory path machine.host.device = .ok here) :
    SameState (machine.placed index here) (step (.enter index path) machine).2 ∧
      (path ≠ "" → (step (.enter index path) machine).1 = .ok (.sector here)) := by
  cases hempty : path.isEmpty with
  | true =>
    obtain rfl := String.isEmpty_iff.1 hempty
    have hstays : Path.resolve session.directory "" machine.host.device = .ok session.directory :=
      rfl
    cases hstays.symm.trans hresolve
    rw [placed_self hs, step_enter, hv, hs]
    exact ⟨⟨rfl, hv.symm, rfl⟩, fun hne ↦ absurd rfl hne⟩
  | false =>
    rw [step_enter, hv, hs]
    dsimp only
    rw [Volume.run_enter session hempty, hresolve]
    exact ⟨⟨rfl, hv.symm, rfl⟩, fun _ ↦ rfl⟩

/-- Entering along paths, one after the other, leads a session where the paths lead. -/
theorem run_enter_of_resolveAll (paths : List String) {machine : Machine} {session : Session}
    (hv : machine.volume? = some volume) (hs : machine.sessions[index]? = some session)
    (hresolve : Path.resolveAll machine.host.device session.directory paths = .ok here) :
    SameState (machine.placed index here) (run (paths.map (.enter index)) machine).2 ∧
      ((∀ path ∈ paths, path ≠ "") →
        ∀ answer ∈ (run (paths.map (.enter index)) machine).1, ∃ s, answer = .ok (.sector s)) := by
  induction paths generalizing machine session with
  | nil =>
    cases hresolve
    rw [placed_self hs]
    exact ⟨.refl machine, fun _ answer hanswer ↦ absurd hanswer List.not_mem_nil⟩
  | cons path rest ih =>
    obtain ⟨next, hnext, hrest⟩ := bind_eq_ok.1 hresolve
    obtain ⟨hsame, hanswer⟩ := step_enter_of_resolve hv hs hnext
    -- The step has put the session where the first path leads, and changed nothing else.
    have hs' : (step (.enter index path) machine).2.sessions[index]? = some ⟨next⟩ := by
      obtain ⟨hlt, -⟩ := Array.getElem?_eq_some_iff.1 hs
      rw [hsame.sessions]
      exact Array.getElem?_setIfInBounds_self_of_lt hlt
    obtain ⟨hrun, hanswers⟩ := ih (hsame.volume.trans hv) hs' (by rw [hsame.device]; exact hrest)
    have hplaced : SameState (machine.placed index here)
        ((step (.enter index path) machine).2.placed index here) := by
      refine ⟨hsame.device, hsame.volume, ?_⟩
      change (step (.enter index path) machine).2.sessions.setIfInBounds index ⟨here⟩ = _
      rw [hsame.sessions]
      exact Array.setIfInBounds_setIfInBounds (⟨next⟩ : Session)
    refine ⟨hplaced.trans hrun, fun hne ↦ ?_⟩
    obtain ⟨hpath, hrest⟩ := List.forall_mem_cons.1 hne
    exact List.forall_mem_cons.2 ⟨⟨next, hanswer hpath⟩, hanswers hrest⟩

structure Navigable (machine : Machine) : Prop where
  back : ∀ here path there ups, machine.host.device.Reaches here → Path.isAbsolute path = false →
    Path.Ordinary (Path.components path) →
    Path.resolve here path machine.host.device = .ok there →
    Path.Climbs (Path.components path).length ups →
    Path.resolveAll machine.host.device there ups = .ok here
  dot_skipped : ∀ start path longer first second, machine.host.device.Reaches start →
    Path.isAbsolute longer = Path.isAbsolute path → Path.components path = first ++ second →
    Path.components longer = first ++ dot :: second →
    Path.resolve start longer machine.host.device = Path.resolve start path machine.host.device
  detour_skipped : ∀ start path longer first second name here next,
    machine.host.device.Reaches start → Path.isAbsolute longer = Path.isAbsolute path →
    Path.components path = first ++ second →
    Path.components longer = first ++ name :: dotDot :: second → name ≠ dot ∧ name ≠ dotDot →
    Path.walk machine.host.device (Path.origin start path) first = .ok here →
    Path.enter machine.host.device here name = .ok next →
    Path.resolve start longer machine.host.device = Path.resolve start path machine.host.device
  root_above : ∀ count ups, Path.Climbs count ups →
    Path.resolveAll machine.host.device rootSector ups = .ok rootSector
  one_way : ∀ first second there, Path.Ordinary (Path.components first) →
    Path.Ordinary (Path.components second) →
    Path.resolve rootSector first machine.host.device = .ok there →
    Path.resolve rootSector second machine.host.device = .ok there →
    Path.components first = Path.components second
  returns : ∀ index session path there ups, machine.sessions[index]? = some session →
    Path.isAbsolute path = false → Path.Ordinary (Path.components path) →
    Path.resolve session.directory path machine.host.device = .ok there →
    Path.Climbs (Path.components path).length ups →
    SameState machine (run ((path :: ups).map (.enter index)) machine).2 ∧
      ((∀ step ∈ path :: ups, step ≠ "") →
        ∀ answer ∈ (run ((path :: ups).map (.enter index)) machine).1,
          ∃ s, answer = .ok (.sector s))

theorem Sound.navigable (h : machine.Sound volume tree) : machine.Navigable := by
  have hback : ∀ here path there ups, machine.host.device.Reaches here →
      Path.isAbsolute path = false → Path.Ordinary (Path.components path) →
      Path.resolve here path machine.host.device = .ok there →
      Path.Climbs (Path.components path).length ups →
      Path.resolveAll machine.host.device there ups = .ok here := by
    intro here path there ups hreach hrelative hordinary hresolve hups
    obtain ⟨up, hdir⟩ := h.stored.reaches_iff.1 hreach
    rw [Path.resolve_of_relative hrelative] at hresolve
    rw [hups.resolveAll_eq]
    exact h.stored.walk_back hdir hordinary hresolve
  refine ⟨hback, ?_, ?_, ?_, ?_, ?_⟩
  · intro start path longer first second hreach hlonger hpath hdot
    obtain ⟨up, hdir⟩ := h.stored.reaches_iff.1 hreach
    exact h.stored.resolve_dot hdir hlonger hpath hdot
  · intro start path longer first second name here next hreach hlonger hpath hdetour hname hfirst
      henter
    obtain ⟨up, hdir⟩ := h.stored.reaches_iff.1 hreach
    exact h.stored.resolve_detour hdir hlonger hpath hdetour hname hfirst henter
  · intro count ups hups
    rw [hups.resolveAll_eq]
    exact h.stored.walk_above_root count
  · intro first second there hfirst hsecond hresolve hresolve'
    have horigin : ∀ path, Path.origin rootSector path = rootSector := fun path ↦ ite_self _
    rw [Path.resolve_eq, horigin] at hresolve hresolve'
    exact h.stored.names_unique hfirst hsecond hresolve hresolve'
  · intro index session path there ups hs hrelative hordinary hresolve hups
    have hreturn : Path.resolveAll machine.host.device session.directory (path :: ups) =
        .ok session.directory :=
      bind_eq_ok.2 ⟨there, hresolve,
        hback _ _ _ _ (h.reaches hs) hrelative hordinary hresolve hups⟩
    have hrun := run_enter_of_resolveAll (path :: ups) h.mounted hs hreturn
    rwa [placed_self hs] at hrun

/-- Along every disciplined run on a volume just laid out, dots lead where the tree says. -/
theorem navigable_of_disciplined {device : Device} (h : device.Ready) {requests : List Request}
    (hd : disciplined [] (step .format (start device)).2 requests = true) (k : Nat) :
    (run (.format :: requests.take k) (start device)).2.Navigable := by
  rw [← List.take_append_drop k requests] at hd
  obtain ⟨volume, tree, hsound⟩ := sound_of_disciplined h (disciplined_of_append hd)
  exact hsound.navigable

def moves : List Request :=
  [.createDirectory 0 "a", .createDirectory 0 "a/b", .remove 0 "a/b", .createDirectory 0 "c",
    .createDirectory 0 "c/d", .enter 0 "c"]

theorem navigable_of_disciplined_moves :
    (Device.blank 1024 128).Ready ∧
      disciplined [] (step .format (start (.blank 1024 128))).2 moves = true ∧
      ∃ machine, (run (.format :: moves.take 6) (start (.blank 1024 128))).2 = machine ∧
        SameState machine (run [.enter 0 "d", .enter 0 "..//"] machine).2 ∧
        Path.resolve rootSector "c/d/..//d" machine.host.device = .ok 11 := by
  have hready : (Device.blank 1024 128).Ready := Device.ready_blank (Nat.le_refl _)
  have hd : disciplined [] (step .format (start (.blank 1024 128))).2 moves = true := by
    decide +kernel
  have hnavigable := navigable_of_disciplined hready hd 6
  have hplaces : ∃ machine, (run (.format :: moves.take 6) (start (.blank 1024 128))).2 = machine ∧
      machine.sessions[0]? = some ⟨8⟩ ∧
      Path.enter machine.host.device 8 "d" = .ok 11 ∧
      Path.walk machine.host.device rootSector ["c"] = .ok 8 :=
    ⟨_, rfl, by decide +kernel⟩
  obtain ⟨machine, hmachine, hs, henter, hwalk⟩ := hplaces
  rw [hmachine] at hnavigable
  have hnames : Path.components "d" = ["d"] ∧ Path.components "c/d" = ["c", "d"] ∧
      Path.components "c/d/..//d" = ["c", "d", dotDot, "d"] := by decide +kernel
  have hdown : Path.resolve 8 "d" machine.host.device = .ok 11 := by
    rw [Path.resolve_of_relative (by decide +kernel), hnames.1, Path.walk_singleton, henter]
  have hboth : Path.resolve rootSector "c/d" machine.host.device = .ok 11 := by
    rw [Path.resolve_of_relative (by decide +kernel), hnames.2.1,
      show ["c", "d"] = ["c"] ++ ["d"] from rfl, Path.walk_append, hwalk]
    exact (Path.walk_singleton _ 8 "d").trans henter
  have hups : Path.Climbs (Path.components "d").length ["..//"] :=
    ⟨by decide +kernel, by decide +kernel⟩
  refine ⟨hready, hd, machine, hmachine, ?_, ?_⟩
  · exact (hnavigable.returns 0 ⟨8⟩ "d" 11 ["..//"] hs (by decide +kernel) (by decide +kernel) hdown
      hups).1
  · rw [hnavigable.detour_skipped rootSector "c/d" "c/d/..//d" ["c"] ["d"] "d" 8 11 .root
      (by decide +kernel) hnames.2.1 hnames.2.2 (by decide) hwalk henter, hboth]

end Machine

end SectorFS
