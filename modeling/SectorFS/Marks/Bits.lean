import SectorFS.Bytes
import SectorFS.Marks

namespace SectorFS.Marks

/-- The positions of the bits in `bytes`, of which the first has position `start`. -/
def ofBytes (start : Nat) : Bytes → List Nat
  | [] => []
  | byte :: rest =>
    ((List.range' start 8).filter fun i ↦ byte.toBitVec.getLsbD (i - start)) ++
      ofBytes (start + 8) rest

theorem mem_ofBytes {start i : Nat} {bytes : Bytes} :
    i ∈ ofBytes start bytes ↔ start ≤ i ∧
      (bytes.getD ((i - start) / 8) 0).toBitVec.getLsbD ((i - start) % 8) = true := by
  induction bytes generalizing start with
  | nil => simp [ofBytes]
  | cons byte rest ih =>
    rw [ofBytes, List.mem_append, List.mem_filter, List.mem_range'_1, ih]
    by_cases hlow : start ≤ i
    · by_cases hhigh : i < start + 8
      · have hdiv : (i - start) / 8 = 0 := by omega
        have hmod : (i - start) % 8 = i - start := by omega
        have hnot : ¬ start + 8 ≤ i := by omega
        simp [hdiv, hmod, hlow, hhigh, hnot]
      · have hdiv : (i - start) / 8 = (i - (start + 8)) / 8 + 1 := by omega
        have hmod : (i - start) % 8 = (i - (start + 8)) % 8 := by omega
        have hle : start + 8 ≤ i := by omega
        simp [hdiv, hmod, hlow, hhigh, hle]
    · have hnot : ¬ start + 8 ≤ i := by omega
      simp [hlow, hnot]

theorem lt_of_mem_ofBytes {start i : Nat} {bytes : Bytes} (h : i ∈ ofBytes start bytes) :
    i < start + 8 * bytes.length := by
  induction bytes generalizing start with
  | nil => exact absurd h List.not_mem_nil
  | cons byte rest ih =>
    rw [List.length_cons]
    rcases List.mem_append.1 h with h | h
    · have := (List.mem_range'_1.1 (List.mem_filter.1 h).1).2
      omega
    · have := ih h
      omega

theorem pairwise_ofBytes (start : Nat) (bytes : Bytes) :
    (ofBytes start bytes).Pairwise (· < ·) := by
  induction bytes generalizing start with
  | nil => exact List.Pairwise.nil
  | cons byte rest ih =>
    refine List.pairwise_append.2 ⟨(List.pairwise_lt_range' 1).filter _, ih _, ?_⟩
    intro i hi j hj
    have := (List.mem_range'_1.1 (List.mem_filter.1 hi).1).2
    have := (mem_ofBytes.1 hj).1
    omega

def byte (start : Nat) (marks : List Nat) : UInt8 :=
  ⟨marks.foldl (fun bits i ↦ bits ||| BitVec.twoPow 8 (i - start)) 0⟩

theorem getLsbD_foldl {start : Nat} {marks : List Nat} (h : ∀ i ∈ marks, start ≤ i) {j : Nat}
    (hj : j < 8) (bits : BitVec 8) :
    (marks.foldl (fun bits i ↦ bits ||| BitVec.twoPow 8 (i - start)) bits).getLsbD j =
      (bits.getLsbD j || marks.contains (start + j)) := by
  induction marks generalizing bits with
  | nil => rw [List.foldl_nil, List.contains_nil, Bool.or_false]
  | cons i rest ih =>
    have hi := h i List.mem_cons_self
    have hbit : (BitVec.twoPow 8 (i - start)).getLsbD j = (start + j == i) := by
      rw [BitVec.getLsbD_twoPow, ← Bool.decide_and, Bool.beq_eq_decide_eq]
      exact decide_eq_decide.2 (by omega)
    rw [List.foldl_cons, ih (fun k hk ↦ h k (List.mem_cons_of_mem _ hk)), BitVec.getLsbD_or, hbit,
      List.contains_cons, Bool.or_assoc]

theorem getLsbD_byte {start : Nat} {marks : List Nat} (h : ∀ i ∈ marks, start ≤ i) {j : Nat}
    (hj : j < 8) : (byte start marks).toBitVec.getLsbD j = marks.contains (start + j) := by
  rw [byte, getLsbD_foldl h hj]
  simp

def toBytes (start : Nat) : (length : Nat) → (marks : List Nat) → Bytes
  | 0, _ => []
  | length + 1, marks =>
    byte start (marks.takeWhile (· < start + 8)) ::
      toBytes (start + 8) length (marks.dropWhile (· < start + 8))

@[simp] theorem length_toBytes (start length : Nat) (marks : List Nat) :
    (toBytes start length marks).length = length := by
  induction length generalizing start marks with
  | zero => rfl
  | succ length ih => rw [toBytes, List.length_cons, ih]

theorem take_toBytes (start : Nat) (marks : List Nat) (count length : Nat) :
    (toBytes start length marks).take count = toBytes start (min count length) marks := by
  induction length generalizing start marks count with
  | zero => rw [Nat.min_zero, toBytes, List.take_nil]
  | succ length ih =>
    cases count with
    | zero => rw [Nat.zero_min, toBytes, List.take_zero]
    | succ count => rw [Nat.succ_min_succ, toBytes, toBytes, List.take_succ_cons, ih]

theorem le_of_mem_dropWhile {marks : List Nat} (h : marks.Pairwise (· < ·)) {bound i : Nat}
    (hi : i ∈ marks.dropWhile (· < bound)) : bound ≤ i := by
  induction marks with
  | nil => exact absurd hi List.not_mem_nil
  | cons mark rest ih =>
    obtain ⟨hmark, hrest⟩ := List.pairwise_cons.1 h
    rw [List.dropWhile_cons] at hi
    split at hi
    · exact ih hrest hi
    · next hge =>
      have hbound : bound ≤ mark := Nat.le_of_not_lt fun hlt ↦ hge (decide_eq_true hlt)
      rcases List.mem_cons.1 hi with rfl | hi
      · exact hbound
      · exact Nat.le_trans hbound (Nat.le_of_lt (hmark i hi))

theorem ofBytes_toBytes {start length : Nat} {marks : List Nat} (h : marks.Pairwise (· < ·))
    (hstart : ∀ i ∈ marks, start ≤ i) (hstop : ∀ i ∈ marks, i < start + 8 * length) :
    ofBytes start (toBytes start length marks) = marks := by
  induction length generalizing start marks with
  | zero =>
    cases marks with
    | nil => rfl
    | cons mark rest =>
      have := hstart mark List.mem_cons_self
      have := hstop mark List.mem_cons_self
      omega
  | succ length ih =>
    -- The marks below `start + 8` make up the first byte, and the others are those of the rest.
    have hdrop : ∀ i ∈ marks.dropWhile (· < start + 8), i ∈ marks :=
      fun _ hi ↦ (List.dropWhile_suffix _).subset hi
    have htake : ∀ i ∈ marks.takeWhile (· < start + 8), start ≤ i ∧ i < start + 8 := by
      intro i hi
      have hlt := List.all_eq_true.1 List.all_takeWhile i hi
      exact ⟨hstart i ((List.takeWhile_prefix _).subset hi), of_decide_eq_true hlt⟩
    have hbyte : (List.range' start 8).filter (fun i ↦
        (byte start (marks.takeWhile (· < start + 8))).toBitVec.getLsbD (i - start)) =
        marks.takeWhile (· < start + 8) := by
      apply eq_of_mem_iff ((List.pairwise_lt_range' 1).filter _)
        (h.sublist (List.takeWhile_prefix _).sublist)
      intro i
      rw [List.mem_filter, List.mem_range'_1]
      constructor
      · rintro ⟨⟨hlow, hhigh⟩, hbit⟩
        rw [getLsbD_byte (fun j hj ↦ (htake j hj).1) (by omega), List.contains_eq_mem,
          Nat.add_sub_cancel' hlow] at hbit
        exact of_decide_eq_true hbit
      · intro hi
        obtain ⟨hlow, hhigh⟩ := htake i hi
        refine ⟨⟨hlow, hhigh⟩, ?_⟩
        rw [getLsbD_byte (fun j hj ↦ (htake j hj).1) (by omega), List.contains_eq_mem,
          Nat.add_sub_cancel' hlow]
        exact decide_eq_true hi
    rw [toBytes, ofBytes, hbyte, ih (h.sublist (List.dropWhile_sublist _))
      (fun i hi ↦ le_of_mem_dropWhile h hi) ?_, List.takeWhile_append_dropWhile]
    intro i hi
    have := hstop i (hdrop i hi)
    omega

theorem toBytes_ofBytes (start : Nat) (bytes : Bytes) :
    toBytes start bytes.length (ofBytes start bytes) = bytes := by
  induction bytes generalizing start with
  | nil => rfl
  | cons b rest ih =>
    have hlow : ∀ i ∈ (List.range' start 8).filter (fun i ↦ b.toBitVec.getLsbD (i - start)),
        decide (i < start + 8) = true := by
      intro i hi
      exact decide_eq_true (List.mem_range'_1.1 (List.mem_filter.1 hi).1).2
    have hhigh : (ofBytes (start + 8) rest).takeWhile (· < start + 8) = [] ∧
        (ofBytes (start + 8) rest).dropWhile (· < start + 8) = ofBytes (start + 8) rest := by
      cases hrest : ofBytes (start + 8) rest with
      | nil => exact ⟨rfl, rfl⟩
      | cons i more =>
        have hle := (mem_ofBytes.1 (hrest ▸ List.mem_cons_self : i ∈ _)).1
        have hnot : ¬ decide (i < start + 8) = true := by
          rw [decide_eq_true_eq]
          omega
        exact ⟨List.takeWhile_cons_of_neg hnot, List.dropWhile_cons_of_neg hnot⟩
    have hbyte : byte start ((List.range' start 8).filter
        (fun i ↦ b.toBitVec.getLsbD (i - start))) = b := by
      apply UInt8.toBitVec_inj.1
      apply BitVec.eq_of_getLsbD_eq
      intro j hj
      rw [getLsbD_byte _ hj, List.contains_eq_mem, Bool.eq_iff_iff, decide_eq_true_iff,
        List.mem_filter, List.mem_range'_1, Nat.add_sub_cancel_left]
      · exact and_iff_right ⟨Nat.le_add_right _ _, Nat.add_lt_add_left hj _⟩
      · exact fun i hi ↦ (List.mem_range'_1.1 (List.mem_filter.1 hi).1).1
    rw [ofBytes, List.length_cons, toBytes, List.takeWhile_append_of_pos hlow,
      List.dropWhile_append_of_pos hlow, hhigh.1, hhigh.2, List.append_nil, hbyte, ih]

end SectorFS.Marks
