import SectorFS.Machine
import SectorFS.Proofs.Guarded.Walk

namespace SectorFS

open Layout

/-! ## Sectors that a program reads -/

namespace Program

variable {α β : Type} {post : α → Prop} {program : Program α}

def reads : Program α → Device → List UInt32
  | done _, _ | fail _, _ | trap _, _ => []
  | note _ next, device => next.reads device
  | read sector next, device => sector :: (next (device.read sector)).reads device
  | write sector block next, device =>
    let (answer, after) := (Action.write sector block).run device
    (next answer).reads after
  | flush next, device =>
    let (answer, after) := Action.flush.run device
    (next answer).reads after
  | geometry next, device => (next device.sectorCount device.bytesPerSector).reads device

theorem reads_handle (program : Program α) (onDone : α → Program β) (onFail : Error → Program β)
    (host : Host) : (program.handle onDone onFail).reads host.device =
      program.reads host.device ++ match program.run host with
        | .ok (.ok a, after) => (onDone a).reads after.device
        | .ok (.error error, after) => (onFail error).reads after.device
        | .error _ => [] := by
  induction program generalizing host with
  | done a | fail error | trap cause => rfl
  | note events next ih => exact ih { host with log := host.log ++ events }
  | read sector next ih => exact congrArg (sector :: ·) (ih _ host)
  | write sector block next ih | flush next ih => exact ih _ { host with device := _ }
  | geometry next ih => exact ih _ _ host

theorem Asks.reads_bind {ask : Device → Except Error α} (h : program.Asks ask post)
    (f : α → Program β) (device : Device) : (program >>= f).reads device =
      program.reads device ++ match ask device with
        | .ok a => (f a).reads device
        | .error _ => [] := by
  have hreads := reads_handle program f fail ⟨device, []⟩
  rw [h.run, Operation.run_query] at hreads
  refine hreads.trans (congrArg _ ?_)
  cases ask device <;> rfl

end Program

namespace Path

variable {device : Device} {start here next : UInt32} {name later path : String}
  {names : List String} {error : Error} {i : Nat}

/-! ## Splitting -/

structure Split (path : String) : Prop where
  guarded : Guarded.Countable path → Guarded.splitPath path = liftM (splitParent path)
  fails_iff : (∃ error, splitParent path = .error error) ↔ components path = []
  refused : components path = [] →
    splitParent path = .error (.invalidArgument (.noFinalComponent path))
  parts : ∀ parent leaf, splitParent path = .ok (parent, leaf) →
    components path = components parent ++ [leaf] ∧ leaf ≠ "" ∧ separator ∉ leaf.toList ∧
      isAbsolute parent = isAbsolute path

theorem split (path : String) : Split path := by
  rcases splitParent_cases path with
    ⟨hnone, hsplit⟩ | ⟨parent, leaf, hsplit, hcomponents, habsolute⟩
  · refine ⟨Guarded.splitPath_eq path, iff_of_true ⟨_, hsplit⟩ hnone, fun _ ↦ hsplit, ?_⟩
    intro parent leaf hok
    cases hok.symm.trans hsplit
  · have hsome : components path ≠ [] := by
      rw [hcomponents]
      exact List.append_ne_nil_of_right_ne_nil _ (List.cons_ne_nil _ _)
    refine ⟨Guarded.splitPath_eq path, iff_of_false ?_ hsome, fun hnone ↦ absurd hnone hsome, ?_⟩
    · rintro ⟨error, herror⟩
      cases herror.symm.trans hsplit
    · intro parent' leaf' hok
      cases hok.symm.trans hsplit
      have hleaf : leaf ∈ components path := by
        rw [hcomponents]
        exact List.mem_append_right _ List.mem_cons_self
      obtain ⟨hseparator, hne⟩ := of_mem_components hleaf
      exact ⟨hcomponents, fun hempty ↦ hne (by rw [hempty]; rfl), hseparator, habsolute⟩

/-! ## Walking in parts -/

theorem resolve_append {first second : String} (hfirst : first ≠ "")
    (hsecond : isAbsolute second = false) (start : UInt32) (device : Device) :
    resolve start (first ++ separator.toString ++ second) device =
      resolve start first device >>= fun here ↦ resolve here second device := by
  simp only [resolve_of_relative hsecond]
  rw [resolve_eq, origin_congr (isAbsolute_append_of_ne hfirst second), components_append,
    walk_append, resolve_eq]

/-! ## Looking up -/

/-- Why a name is not looked up with success: its directory is not read, or lists no such name, or
lists a regular file under it. -/
inductive StopsAt (device : Device) (here : UInt32) (name : String) : Error → Prop
  | unread {error : Error} (h : device.openDirectory here = .error error) :
      StopsAt device here name error
  | missing {file : File} {table : Directory}
      (hopen : device.openDirectory here = .ok (file, table)) (h : table.find? name = none) :
      StopsAt device here name (.notFound name)
  | regular {file : File} {table : Directory} {entry : Entry}
      (hopen : device.openDirectory here = .ok (file, table))
      (hfind : table.find? name = some entry) (h : entry.kind = .regular) :
      StopsAt device here name (.notDirectory name)

theorem enter_eq_error_iff :
    enter device here name = .error error ↔ StopsAt device here name error := by
  constructor
  · intro h
    cases hopen : device.openDirectory here with
    | error cause =>
      have hcause : enter device here name = .error cause := by rw [enter, hopen]; rfl
      cases h.symm.trans hcause
      exact .unread hopen
    | ok opened =>
      obtain ⟨file, table⟩ := opened
      cases hfind : table.find? name with
      | none =>
        cases h.symm.trans (enter_of_find?_eq_none hopen hfind)
        exact .missing hopen hfind
      | some entry =>
        cases hkind : entry.kind with
        | regular =>
          cases h.symm.trans (enter_of_regular hopen hfind hkind)
          exact .regular hopen hfind hkind
        | directory =>
          cases h.symm.trans (enter_eq_ok_iff.2 ⟨file, table, entry, hopen, hfind, hkind, rfl⟩)
  · rintro (hopen | ⟨hopen, hfind⟩ | ⟨hopen, hfind, hkind⟩)
    · rw [enter, hopen]
      rfl
    · exact enter_of_find?_eq_none hopen hfind
    · exact enter_of_regular hopen hfind hkind

def lookups (device : Device) : UInt32 → List String → List (UInt32 × String)
  | _, [] => []
  | here, name :: names => (here, name) :: match enter device here name with
    | .ok next => lookups device next names
    | .error _ => []

theorem lookups_of_ok (h : enter device here name = .ok next) (names : List String) :
    lookups device here (name :: names) = (here, name) :: lookups device next names := by
  rw [lookups, h]

theorem lookups_of_error (h : enter device here name = .error error) (names : List String) :
    lookups device here (name :: names) = [(here, name)] := by
  rw [lookups, h]

/-- A name is looked up where the names before it lead. -/
theorem getElem?_lookups : (lookups device start names)[i]? = some (here, name) ↔
    names[i]? = some name ∧ walk device start (names.take i) = .ok here := by
  induction names generalizing start i with
  | nil => simp only [lookups, List.getElem?_nil, reduceCtorEq, false_and]
  | cons first rest ih =>
    cases i with
    | zero =>
      rw [lookups, List.getElem?_cons_zero, List.getElem?_cons_zero, List.take_zero,
        Option.some_inj, Option.some_inj, Prod.mk.injEq, and_comm]
      exact and_congr_right' ⟨congrArg Except.ok, Except.ok.inj⟩
    | succ i =>
      rw [List.getElem?_cons_succ, List.take_succ_cons, walk_cons]
      cases henter : enter device start first with
      | error error =>
        rw [lookups_of_error henter, List.getElem?_cons_succ, List.getElem?_nil]
        exact iff_of_false nofun fun h ↦ nomatch h.2
      | ok next =>
        rw [lookups_of_ok henter, List.getElem?_cons_succ]
        exact ih

/-- Each directory where something is looked up is listed, as a directory, in the one before. -/
theorem entered_of_lookups (hhere : (lookups device start names)[i]? = some (here, name))
    (hnext : (lookups device start names)[i + 1]? = some (next, later)) :
    ∃ file table entry, device.openDirectory here = .ok (file, table) ∧
      table.find? name = some entry ∧ entry.kind = .directory ∧ entry.sector = next := by
  obtain ⟨hname, hwalk⟩ := getElem?_lookups.1 hhere
  obtain ⟨-, hlater⟩ := getElem?_lookups.1 hnext
  rw [List.take_add_one, hname, Option.toList_some, walk_append, hwalk] at hlater
  exact enter_eq_ok_iff.1 ((walk_singleton device here name).symm.trans hlater)

theorem map_lookups_of_ok {s : UInt32} (h : walk device start names = .ok s) :
    (lookups device start names).map Prod.snd = names := by
  induction names generalizing start with
  | nil => rfl
  | cons name rest ih =>
    obtain ⟨next, henter, hrest⟩ := bind_eq_ok.1 h
    rw [lookups_of_ok henter, List.map_cons, ih hrest]

/-- A walk stops where something is looked up without success, and nowhere else. -/
theorem walk_eq_error_iff : walk device start names = .error error ↔
    ∃ here name, (here, name) ∈ lookups device start names ∧ StopsAt device here name error := by
  induction names generalizing start with
  | nil =>
    refine iff_of_false nofun ?_
    rintro ⟨here, name, hmem, -⟩
    exact List.not_mem_nil hmem
  | cons first rest ih =>
    rw [walk_cons]
    cases henter : enter device start first with
    | error cause =>
      rw [lookups_of_error henter]
      simp only [List.mem_singleton, Prod.mk.injEq, ← enter_eq_error_iff]
      constructor
      · exact fun h ↦ ⟨start, first, ⟨rfl, rfl⟩, henter.trans h⟩
      · rintro ⟨_, _, ⟨rfl, rfl⟩, h⟩
        exact henter.symm.trans h
    | ok next =>
      rw [lookups_of_ok henter]
      refine ih.trans ⟨fun ⟨here, name, hmem, hstops⟩ ↦
        ⟨here, name, List.mem_cons_of_mem _ hmem, hstops⟩, ?_⟩
      rintro ⟨here, name, hmem, hstops⟩
      rcases List.mem_cons.1 hmem with heq | hrest
      · cases heq
        cases henter.symm.trans (enter_eq_error_iff.2 hstops)
      · exact ⟨here, name, hrest, hstops⟩

theorem reads_step (here : UInt32) (name : String) (device : Device) :
    (Guarded.step here name).reads device = (Guarded.openDirectory here).reads device := by
  rw [Guarded.step, (Guarded.asks_openDirectory here).reads_bind]
  cases device.openDirectory here with
  | error error => exact List.append_nil _
  | ok opened =>
    obtain ⟨file, table⟩ := opened
    dsimp only
    rw [Program.guarded_bind (Guarded.findEntry_eq table name)]
    cases table.find? name with
    | none => exact List.append_nil _
    | some entry =>
      dsimp only
      cases entry.kind <;> exact List.append_nil _

/-- A walk reads the directories where it looks something up, and nothing else. -/
theorem reads_walk (start : UInt32) (names : List String) (device : Device) :
    (names.foldlM Guarded.step start).reads device = (lookups device start names).flatMap
      fun looked ↦ (Guarded.openDirectory looked.1).reads device := by
  induction names generalizing start with
  | nil => rfl
  | cons name rest ih =>
    rw [List.foldlM_cons, (Guarded.asks_step start name).reads_bind, reads_step]
    cases henter : enter device start name with
    | error error => rw [lookups_of_error henter, List.flatMap_singleton, List.append_nil]
    | ok next =>
      rw [lookups_of_ok henter, List.flatMap_cons]
      exact congrArg (_ ++ ·) (ih next)

structure Walked (start : UInt32) (path : String) (device : Device) : Prop where
  answers : ∀ log, (Guarded.resolve start path).run ⟨device, log⟩ =
    .ok (resolve start path device, ⟨device, log⟩)
  reads_eq : (Guarded.resolve start path).reads device =
    (lookups device (origin start path) (components path)).flatMap
      fun looked ↦ (Guarded.openDirectory looked.1).reads device
  lookup_iff : ∀ (i : Nat) here name,
    (lookups device (origin start path) (components path))[i]? = some (here, name) ↔
      (components path)[i]? = some name ∧
        walk device (origin start path) ((components path).take i) = .ok here
  entered : ∀ (i : Nat) here name next later,
    (lookups device (origin start path) (components path))[i]? = some (here, name) →
    (lookups device (origin start path) (components path))[i + 1]? = some (next, later) →
    ∃ file table entry, device.openDirectory here = .ok (file, table) ∧
      table.find? name = some entry ∧ entry.kind = .directory ∧ entry.sector = next
  all_of_ok : ∀ s, resolve start path device = .ok s →
    (lookups device (origin start path) (components path)).map Prod.snd = components path
  fails_iff : ∀ error, resolve start path device = .error error ↔ ∃ here name,
    (here, name) ∈ lookups device (origin start path) (components path) ∧
      StopsAt device here name error

theorem walked (start : UInt32) (path : String) (device : Device) : Walked start path device where
  answers log := (Guarded.asks_resolve start path).run ⟨device, log⟩
  reads_eq := reads_walk _ _ _
  lookup_iff _ _ _ := getElem?_lookups
  entered _ _ _ _ _ := entered_of_lookups
  all_of_ok _ := map_lookups_of_ok
  fails_iff _ := walk_eq_error_iff

/-- Every path is split at its last component or has none. Every walk looks each name up where the
names before it lead and nowhere else, up to the first one where it stops, and a relative path after
another one is walked from where the other one leads. -/
theorem splits_and_resolves :
    (∀ path, Split path) ∧
    (∀ start path device, Walked start path device) ∧
    ∀ (start : UInt32) (first second : String) (device : Device), first ≠ "" →
      isAbsolute second = false → resolve start (first ++ separator.toString ++ second) device =
        resolve start first device >>= fun here ↦ resolve here second device :=
  ⟨split, walked, fun start _ _ device hfirst hsecond ↦ resolve_append hfirst hsecond start device⟩

def nested : Device :=
  (Machine.run [.format, .createDirectory 0 "ä", .createDirectory 0 "ä/b", .createFile 0 "ä/b/f" 9]
    (Machine.start (.blank 1024 128))).2.host.device

theorem splits_and_resolves_nested :
    components "//ä//b//" = components "//ä/" ++ ["b"] ∧
      resolve rootSector ("ä//" ++ separator.toString ++ "b/f/g") nested =
        .error (.notDirectory "f") ∧
      (lookups nested (origin 5 "b/f/g") (components "b/f/g"))[1]? = some (8, "f") ∧
      ∃ here name, (here, name) ∈ lookups nested (origin 5 "b/f/g") (components "b/f/g") ∧
        StopsAt nested here name (.notDirectory "f") := by
  obtain ⟨hsplit, hwalked, hparts⟩ := splits_and_resolves
  have hcut : splitParent "//ä//b//" = .ok ("//ä/", "b") := by decide +kernel
  have hnames : (components "b/f/g")[1]? = some "f" := by decide +kernel
  obtain ⟨hfirst, hsecond, hwalk⟩ : resolve rootSector "ä//" nested = .ok 5 ∧
      resolve 5 "b/f/g" nested = .error (.notDirectory "f") ∧
      walk nested (origin 5 "b/f/g") ((components "b/f/g").take 1) = .ok 8 := by
    decide +kernel
  have hboth := hparts rootSector "ä//" "b/f/g" nested (by decide +kernel) (by decide +kernel)
  simp only [hfirst, bind, Except.bind, hsecond] at hboth
  exact ⟨((hsplit "//ä//b//").parts _ _ hcut).1, hboth,
    ((hwalked 5 "b/f/g" nested).lookup_iff 1 8 "f").2 ⟨hnames, hwalk⟩,
    ((hwalked 5 "b/f/g" nested).fails_iff _).1 hsecond⟩

end Path

end SectorFS
