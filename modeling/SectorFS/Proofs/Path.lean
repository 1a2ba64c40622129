import Mathlib.Data.List.TakeWhile
import SectorFS.Proofs.Volume

namespace SectorFS

open Layout

namespace Path

/-! ## Cutting at the separators -/

theorem pieces_ne_nil (text : List Char) : pieces text ≠ [] := by
  cases text with
  | nil => exact List.cons_ne_nil _ _
  | cons c rest =>
    unfold pieces
    split
    · exact List.cons_ne_nil _ _
    · split <;> exact List.cons_ne_nil _ _

theorem pieces_cons_of_ne {c : Char} (h : c ≠ separator) {rest piece : List Char}
    {more : List (List Char)} (hrest : pieces rest = piece :: more) :
    pieces (c :: rest) = (c :: piece) :: more := by
  rw [pieces, if_neg h, hrest]

theorem pieces_append (first second : List Char) :
    pieces (first ++ separator :: second) = pieces first ++ pieces second := by
  induction first with
  | nil => exact if_pos rfl
  | cons c rest ih =>
    by_cases h : c = separator
    · rw [List.cons_append, pieces, if_pos h, ih, pieces, if_pos h, List.cons_append]
    · cases hrest : pieces rest with
      | nil => exact absurd hrest (pieces_ne_nil rest)
      | cons piece more =>
        rw [hrest] at ih
        rw [List.cons_append, pieces_cons_of_ne h ih, pieces_cons_of_ne h hrest]
        rfl

theorem pieces_of_not_mem {text : List Char} (h : separator ∉ text) : pieces text = [text] := by
  induction text with
  | nil => rfl
  | cons c rest ih =>
    rw [List.mem_cons, not_or] at h
    exact pieces_cons_of_ne (Ne.symm h.1) (ih h.2)

theorem separator_not_mem_of_mem_pieces {text piece : List Char} (h : piece ∈ pieces text) :
    separator ∉ piece := by
  induction text generalizing piece with
  | nil =>
    rw [pieces, List.mem_singleton] at h
    exact h ▸ List.not_mem_nil
  | cons c rest ih =>
    by_cases hc : c = separator
    · rw [pieces, if_pos hc, List.mem_cons] at h
      rcases h with rfl | h
      · exact List.not_mem_nil
      · exact ih h
    · cases hrest : pieces rest with
      | nil => exact absurd hrest (pieces_ne_nil rest)
      | cons first more =>
        rw [pieces_cons_of_ne hc hrest, List.mem_cons] at h
        rw [hrest] at ih
        rcases h with rfl | h
        · exact List.not_mem_cons_of_ne_of_not_mem (Ne.symm hc) (ih List.mem_cons_self)
        · exact ih (List.mem_cons_of_mem _ h)

/-! ## Components -/

def parts (text : List Char) : List (List Char) :=
  (pieces text).filter fun piece ↦ !piece.isEmpty

theorem components_eq (path : String) : components path = (parts path.toList).map String.ofList := rfl

theorem parts_append (first second : List Char) :
    parts (first ++ separator :: second) = parts first ++ parts second := by
  rw [parts, pieces_append, List.filter_append, parts, parts]

theorem parts_of_not_mem {text : List Char} (h : separator ∉ text) (hne : text ≠ []) :
    parts text = [text] := by
  rw [parts, pieces_of_not_mem h]
  exact List.filter_cons_of_pos (by simpa using hne)

theorem parts_of_separators {text : List Char} (h : ∀ c ∈ text, c = separator) : parts text = [] := by
  induction text with
  | nil => rfl
  | cons c rest ih =>
    obtain rfl := h c List.mem_cons_self
    exact (parts_append [] rest).trans (ih fun c hc ↦ h c (List.mem_cons_of_mem _ hc))

theorem parts_append_separators (text : List Char) {last : List Char}
    (h : ∀ c ∈ last, c = separator) : parts (text ++ last) = parts text := by
  cases last with
  | nil => rw [List.append_nil]
  | cons c rest =>
    obtain rfl := h c List.mem_cons_self
    rw [parts_append, parts_of_separators fun c hc ↦ h c (List.mem_cons_of_mem _ hc),
      List.append_nil]

theorem of_mem_components {path name : String} (h : name ∈ components path) :
    separator ∉ name.toList ∧ name.toList ≠ [] := by
  obtain ⟨piece, hpiece, rfl⟩ := List.mem_map.1 h
  obtain ⟨hmem, hne⟩ := List.mem_filter.1 hpiece
  rw [String.toList_ofList]
  exact ⟨separator_not_mem_of_mem_pieces hmem, by simpa using hne⟩

theorem isAbsolute_ofList (text : List Char) :
    isAbsolute (String.ofList text) = (text.head? == some separator) := by
  rw [isAbsolute, String.toList_ofList]

theorem isEmpty_of_components {path : String} (h : components path ≠ []) : path.isEmpty = false := by
  rw [String.isEmpty_eq_false_iff]
  intro hempty
  apply h
  rw [hempty]
  decide +kernel

/-! ## Continuing a path -/

theorem toList_append_separator (top path : String) :
    (top ++ separator.toString ++ path).toList = top.toList ++ separator :: path.toList := by
  simp [String.toList_append]

theorem components_append (top path : String) :
    components (top ++ separator.toString ++ path) = components top ++ components path := by
  rw [components_eq, toList_append_separator, parts_append, List.map_append, ← components_eq,
    ← components_eq]

theorem isAbsolute_append_of_ne {top : String} (h : top ≠ "") (path : String) :
    isAbsolute (top ++ separator.toString ++ path) = isAbsolute top := by
  rw [isAbsolute, isAbsolute, toList_append_separator]
  cases htop : top.toList with
  | nil => exact absurd (String.toList_inj.1 htop) h
  | cons c rest => rfl

theorem isAbsolute_append {top : String} (h : isAbsolute top = true) (path : String) :
    isAbsolute (top ++ separator.toString ++ path) = true := by
  rw [isAbsolute_append_of_ne _ path, h]
  rintro rfl
  contradiction

/-! ## The last component -/

/-- A text cut around its last component: `above` stands before it, end first, and only separators
stand after it. -/
structure Cut (text above leaf last : List Char) : Prop where
  text_eq : text = above.reverse ++ leaf ++ last
  leaf_ne_nil : leaf ≠ []
  not_mem_leaf : separator ∉ leaf
  head_above : ∀ c, above.head? = some c → c = separator
  mem_last : ∀ c ∈ last, c = separator

/-- The path to a component, given what stands before it, end first. -/
def pathAbove : List Char → String
  | [] => ""
  | [_] => separator.toString
  | _ :: c :: rest => String.ofList (c :: rest).reverse

theorem components_pathAbove (above : List Char) :
    components (pathAbove above) = (parts above.tail.reverse).map String.ofList := by
  cases above with
  | nil => rfl
  | cons c rest =>
    cases rest with
    | nil => exact (by decide +kernel : components separator.toString = [])
    | cons d more => rw [pathAbove, components_eq, String.toList_ofList, List.tail_cons]

variable {text above leaf last : List Char}

theorem Cut.parts_eq (h : Cut text above leaf last) :
    parts text = parts above.tail.reverse ++ [leaf] := by
  rw [h.text_eq, parts_append_separators _ h.mem_last]
  cases above with
  | nil => exact parts_of_not_mem h.not_mem_leaf h.leaf_ne_nil
  | cons c more =>
    obtain rfl := h.head_above c rfl
    rw [List.reverse_cons, List.append_assoc, List.singleton_append, parts_append,
      parts_of_not_mem h.not_mem_leaf h.leaf_ne_nil, List.tail_cons]

theorem Cut.isAbsolute_eq (h : Cut text above leaf last) :
    isAbsolute (pathAbove above) = (text.head? == some separator) := by
  rw [h.text_eq]
  cases above with
  | nil =>
    obtain ⟨d, more, rfl⟩ := List.exists_cons_of_ne_nil h.leaf_ne_nil
    have hd : d ≠ separator := (List.ne_of_not_mem_cons h.not_mem_leaf).symm
    exact (beq_eq_false_iff_ne.2 fun heq ↦ hd (Option.some.inj heq)).symm
  | cons c more =>
    obtain rfl := h.head_above c rfl
    cases more with
    | nil => rfl
    | cons d more =>
      rw [pathAbove, isAbsolute_ofList, List.reverse_cons (a := separator), List.append_assoc,
        List.append_assoc, List.head?_append_of_ne_nil]
      simp

/-- Whoever splits a path cuts it, unless it has nothing but separators. -/
theorem splitParent_cut (path : String) :
    (∀ c ∈ path.toList, c = separator) ∧
        splitParent path = .error (.invalidArgument (.noFinalComponent path)) ∨
      ∃ above leaf last, Cut path.toList above leaf last ∧
        splitParent path = .ok (pathAbove above, String.ofList leaf) := by
  -- Seen from its end, a path is separators, then its last component, then the rest of it.
  have hpath := List.takeWhile_append_dropWhile (p := (· == separator)) (l := path.toList.reverse)
  have hlast : ∀ c ∈ path.toList.reverse.takeWhile (· == separator), c = separator :=
    fun c hc ↦ by simpa using List.mem_takeWhile_imp hc
  have hhead := List.head?_dropWhile_not (· == separator) path.toList.reverse
  rw [splitParent]
  generalize path.toList.reverse.dropWhile (· == separator) = trimmed at hpath hhead ⊢
  generalize path.toList.reverse.takeWhile (· == separator) = last at hpath hlast
  cases trimmed with
  | nil =>
    rw [List.append_nil] at hpath
    exact .inl ⟨fun c hc ↦ hlast c (hpath ▸ List.mem_reverse.2 hc), rfl⟩
  | cons c rest =>
    right
    have hc : c ≠ separator := beq_eq_false_iff_ne.1 hhead
    have htrimmed := List.takeWhile_append_dropWhile (p := (· != separator)) (l := c :: rest)
    refine ⟨(c :: rest).dropWhile (· != separator), ((c :: rest).takeWhile (· != separator)).reverse,
      last.reverse, ⟨?_, ?_, ?_, ?_, ?_⟩, ?_⟩
    · rw [← List.reverse_append, htrimmed, ← List.reverse_append, hpath, List.reverse_reverse]
    · rw [List.takeWhile_cons, if_pos (bne_iff_ne.2 hc), List.reverse_cons]
      exact List.append_ne_nil_of_right_ne_nil _ (List.cons_ne_nil _ _)
    · intro hmem
      have hno := List.mem_takeWhile_imp (List.mem_reverse.1 hmem)
      simp at hno
    · intro d hd
      have hstop := List.head?_dropWhile_not (· != separator) (c :: rest)
      rw [hd] at hstop
      simpa using hstop
    · exact fun d hd ↦ hlast d (List.mem_reverse.1 hd)
    · generalize (c :: rest).dropWhile (· != separator) = above
      rcases above with - | ⟨d, - | ⟨e, more⟩⟩ <;> rfl

/-- A path has no component at all, or it is split into the part with all its components but the
last, and that one. -/
theorem splitParent_cases (path : String) :
    components path = [] ∧
        splitParent path = .error (.invalidArgument (.noFinalComponent path)) ∨
      ∃ parent name, splitParent path = .ok (parent, name) ∧
        components path = components parent ++ [name] ∧ isAbsolute parent = isAbsolute path := by
  rcases splitParent_cut path with ⟨hnone, hsplit⟩ | ⟨above, leaf, last, hcut, hsplit⟩
  · refine .inl ⟨?_, hsplit⟩
    rw [components_eq, parts_of_separators hnone, List.map_nil]
  · refine .inr ⟨pathAbove above, String.ofList leaf, hsplit, ?_, hcut.isAbsolute_eq⟩
    rw [components_eq, hcut.parts_eq, List.map_append, components_pathAbove]
    rfl

/-! ## Walks -/

variable {device : Device} {here : UInt32} {name : String}

def walk (device : Device) (start : UInt32) (names : List String) : Except Error UInt32 :=
  names.foldlM (enter device) start

def origin (start : UInt32) (path : String) : UInt32 := if isAbsolute path then rootSector else start

theorem origin_congr {path route : String} (h : isAbsolute path = isAbsolute route)
    (start : UInt32) : origin start path = origin start route := by
  rw [origin, h, origin]

theorem origin_of_relative {path : String} (h : isAbsolute path = false) (start : UInt32) :
    origin start path = start := by
  rw [origin, h, if_neg Bool.false_ne_true]

theorem resolve_eq (start : UInt32) (path : String) (device : Device) :
    resolve start path device = walk device (origin start path) (components path) := rfl

theorem resolve_of_relative {path : String} (h : isAbsolute path = false) (start : UInt32)
    (device : Device) : resolve start path device = walk device start (components path) := by
  rw [resolve_eq, origin_of_relative h]

variable {file : File} {table : Directory}

theorem enter_of_find?_eq_none (hopen : device.openDirectory here = .ok (file, table))
    (hfind : table.find? name = none) : enter device here name = .error (.notFound name) := by
  simp only [enter, hopen, bind, Except.bind, hfind]
  rfl

theorem enter_of_regular {entry : Entry} (hopen : device.openDirectory here = .ok (file, table))
    (hfind : table.find? name = some entry) (hkind : entry.kind = .regular) :
    enter device here name = .error (.notDirectory name) := by
  simp only [enter, hopen, bind, Except.bind, hfind, hkind]
  rfl

theorem walk_cons (device : Device) (start : UInt32) (name : String) (names : List String) :
    walk device start (name :: names) = enter device start name >>= fun next ↦
      walk device next names := rfl

theorem walk_singleton (device : Device) (start : UInt32) (name : String) :
    walk device start [name] = enter device start name := bind_pure _

theorem walk_append (device : Device) (start : UInt32) (first second : List String) :
    walk device start (first ++ second) =
      walk device start first >>= fun here ↦ walk device here second := List.foldlM_append

end Path

namespace Volume

variable {device : Device} {session : Session} {path name : String} {names : List String}

theorem locate_of_nameless (h : Path.components path = []) :
    locate session path device = .error (.invalidArgument (.noFinalComponent path)) := by
  rcases Path.splitParent_cases path with ⟨-, hsplit⟩ | ⟨parent, name, -, hcomponents, -⟩
  · rw [locate, hsplit]
    rfl
  · rw [h] at hcomponents
    exact absurd hcomponents.symm (List.append_ne_nil_of_right_ne_nil _ (List.cons_ne_nil _ _))

/-- The directory of the final component is found by a walk along the components before it. -/
theorem locate_of_components (h : Path.components path = names ++ [name]) :
    locate session path device =
      (Path.walk device (Path.origin session.directory path) names).map fun here ↦ (here, name) := by
  rcases Path.splitParent_cases path with ⟨hnone, -⟩ | ⟨parent, leaf, hsplit, hcomponents, habsolute⟩
  · rw [h] at hnone
    exact absurd hnone (List.append_ne_nil_of_right_ne_nil _ (List.cons_ne_nil _ _))
  · obtain ⟨rfl, hleaf⟩ := List.append_inj' (hcomponents.symm.trans h) rfl
    cases hleaf
    rw [locate, hsplit, ← Path.origin_congr habsolute]
    change (Path.resolve session.directory parent device >>= fun here ↦ pure (here, name)) = _
    rw [Path.resolve_eq]
    cases Path.walk device (Path.origin session.directory parent) (Path.components parent) <;> rfl

end Volume

end SectorFS
