namespace SectorFS.Marks

theorem eq_of_mem_iff {xs ys : List Nat} (hx : xs.Pairwise (· < ·)) (hy : ys.Pairwise (· < ·))
    (h : ∀ i, i ∈ xs ↔ i ∈ ys) : xs = ys := by
  induction xs generalizing ys with
  | nil =>
    cases ys with
    | nil => rfl
    | cons y ys => exact absurd ((h y).2 List.mem_cons_self) List.not_mem_nil
  | cons x xs ih =>
    cases ys with
    | nil => exact absurd ((h x).1 List.mem_cons_self) List.not_mem_nil
    | cons y ys =>
      obtain ⟨hx, hxs⟩ := List.pairwise_cons.1 hx
      obtain ⟨hy, hys⟩ := List.pairwise_cons.1 hy
      have heq : x = y := by
        rcases List.mem_cons.1 ((h x).1 List.mem_cons_self) with hxy | hxy
        · exact hxy
        · rcases List.mem_cons.1 ((h y).2 List.mem_cons_self) with hyx | hyx
          · exact hyx.symm
          · exact absurd (hx y hyx) (Nat.lt_asymm (hy x hxy))
      subst heq
      rw [ih hxs hys]
      intro i
      constructor
      · intro hi
        rcases List.mem_cons.1 ((h i).1 (List.mem_cons_of_mem _ hi)) with rfl | hi'
        · exact absurd (hx i hi) (Nat.lt_irrefl i)
        · exact hi'
      · intro hi
        rcases List.mem_cons.1 ((h i).2 (List.mem_cons_of_mem _ hi)) with rfl | hi'
        · exact absurd (hy i hi) (Nat.lt_irrefl i)
        · exact hi'

def insert (i : Nat) : List Nat → List Nat
  | [] => [i]
  | j :: rest =>
    if i < j then i :: j :: rest else if i = j then j :: rest else j :: insert i rest

theorem mem_insert {i j : Nat} {marks : List Nat} :
    j ∈ insert i marks ↔ j = i ∨ j ∈ marks := by
  induction marks with
  | nil => rw [insert, List.mem_singleton, or_iff_left List.not_mem_nil]
  | cons k rest ih =>
    unfold insert
    split
    · exact List.mem_cons
    · split
      · next h => rw [h, List.mem_cons, or_self_left]
      · rw [List.mem_cons, List.mem_cons, ih, or_left_comm]

theorem pairwise_insert {i : Nat} {marks : List Nat} (h : marks.Pairwise (· < ·)) :
    (insert i marks).Pairwise (· < ·) := by
  induction marks with
  | nil => exact List.pairwise_singleton _ _
  | cons k rest ih =>
    obtain ⟨hk, hrest⟩ := List.pairwise_cons.1 h
    unfold insert
    split
    · next hik =>
      refine List.pairwise_cons.2 ⟨fun j hj ↦ ?_, h⟩
      rcases List.mem_cons.1 hj with rfl | hj
      · exact hik
      · exact Nat.lt_trans hik (hk j hj)
    · split
      · exact h
      · refine List.pairwise_cons.2 ⟨fun j hj ↦ ?_, ih hrest⟩
        rcases mem_insert.1 hj with rfl | hj
        · omega
        · exact hk j hj

/-- The first `count` numbers from `start` on that are below `stop` and not in the list. -/
def gaps (start stop : Nat) : (marks : List Nat) → (count : Nat) → List Nat
  | [], count => List.range' start (min count (stop - start))
  | mark :: rest, count =>
    let run := min count (min mark stop - start)
    List.range' start run ++ gaps (mark + 1) stop rest (count - run)

theorem length_gaps_le (start stop : Nat) (marks : List Nat) (count : Nat) :
    (gaps start stop marks count).length ≤ count := by
  induction marks generalizing start count with
  | nil =>
    rw [gaps, List.length_range']
    exact Nat.min_le_left _ _
  | cons mark rest ih =>
    rw [gaps, List.length_append, List.length_range']
    have := ih (mark + 1) (count - min count (min mark stop - start))
    omega

theorem take_range' (start length count : Nat) :
    (List.range' start length).take count = List.range' start (min count length) := by
  induction count generalizing start length with
  | zero => rw [List.take_zero, Nat.zero_min, List.range'_zero]
  | succ count ih =>
    cases length with
    | zero => rfl
    | succ length =>
      rw [List.range'_succ, List.take_succ_cons, ih, Nat.succ_min_succ, List.range'_succ]

theorem contains_eq_false_of_lt {marks : List Nat} {i : Nat} (h : ∀ j ∈ marks, i < j) :
    marks.contains i = false := by
  rw [List.contains_eq_mem, decide_eq_false_iff_not]
  exact fun hi ↦ Nat.lt_irrefl i (h i hi)

theorem filter_range'_of_le {marks : List Nat} {start length : Nat}
    (h : ∀ i ∈ marks, start + length ≤ i) :
    (List.range' start length).filter (fun i ↦ !marks.contains i) = List.range' start length := by
  rw [List.filter_eq_self]
  intro i hi
  rw [contains_eq_false_of_lt]
  · rfl
  · intro j hj
    have := (List.mem_range'_1.1 hi).2
    have := h j hj
    omega

/-- The gaps are what a scan of all numbers finds. -/
theorem gaps_eq_take {start stop : Nat} {marks : List Nat} (h : marks.Pairwise (· < ·))
    (hstart : ∀ i ∈ marks, start ≤ i) (count : Nat) :
    gaps start stop marks count =
      ((List.range' start (stop - start)).filter fun i ↦ !marks.contains i).take count := by
  induction marks generalizing start count with
  | nil =>
    rw [filter_range'_of_le fun _ hi ↦ absurd hi List.not_mem_nil, take_range']
    rfl
  | cons mark rest ih =>
    obtain ⟨hmark, hrest⟩ := List.pairwise_cons.1 h
    have hle := hstart mark List.mem_cons_self
    rw [gaps, ih hrest hmark]
    -- Below the first mark every number is a gap; a mark past the stop takes none away.
    by_cases hstop : mark < stop
    · have hsplit : List.range' start (stop - start) =
          List.range' start (mark - start) ++
            mark :: List.range' (mark + 1) (stop - (mark + 1)) := by
        have hlength : stop - start = (mark - start) + ((stop - (mark + 1)) + 1) := by omega
        have hmid : start + (mark - start) = mark := by omega
        rw [hlength, ← List.range'_append_1, hmid, List.range'_succ]
      have hfirst : (List.range' start (mark - start)).filter
          (fun i ↦ !(mark :: rest).contains i) = List.range' start (mark - start) := by
        apply filter_range'_of_le
        intro i hi
        rcases List.mem_cons.1 hi with rfl | hi
        · omega
        · have := hmark i hi
          omega
      have hlast : (List.range' (mark + 1) (stop - (mark + 1))).filter
          (fun i ↦ !(mark :: rest).contains i) =
          (List.range' (mark + 1) (stop - (mark + 1))).filter (fun i ↦ !rest.contains i) := by
        apply List.filter_congr
        intro i hi
        have hne : (i == mark) = false := by
          have := (List.mem_range'_1.1 hi).1
          exact beq_eq_false_iff_ne.2 (by omega)
        rw [List.contains_cons, hne, Bool.false_or]
      have hmin : min mark stop = mark := Nat.min_eq_left (Nat.le_of_lt hstop)
      have hcount : count - min count (mark - start) = count - (mark - start) := by omega
      rw [hsplit, List.filter_append, hfirst, List.filter_cons_of_neg (by simp), hlast,
        List.take_append, take_range', List.length_range', hmin, hcount]
    · have hmin : min mark stop = stop := Nat.min_eq_right (by omega)
      have hzero : stop - (mark + 1) = 0 := by omega
      rw [hmin, hzero, List.range'_zero, List.filter_nil, List.take_nil, List.append_nil,
        filter_range'_of_le, take_range']
      intro i hi
      rcases List.mem_cons.1 hi with rfl | hi
      · omega
      · have := hmark i hi
        omega

end SectorFS.Marks
