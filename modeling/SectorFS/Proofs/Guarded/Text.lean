import SectorFS.OpenTable
import SectorFS.Proofs.Guarded.Program
import SectorFS.Proofs.Path

namespace SectorFS

open Layout

def byteLength (text : List Char) : Nat := (text.map Char.utf8Size).sum

namespace Guarded

def cut : List Char → Nat → Guarded (List Char × List Char)
  | text, 0 => .ok ([], text)
  | [], _ + 1 => .error .range
  | c :: rest, place + 1 =>
    if c.utf8Size ≤ place + 1 then
      (cut rest (place + 1 - c.utf8Size)).map fun (before, after) ↦ (c :: before, after)
    else .error .character

def isBoundary (text : List Char) (place : Nat) : Bool := (cut text place).isOk

def lastSeparator? : List Char → Option Nat
  | [] => none
  | c :: rest =>
    match lastSeparator? rest with
    | some place => some (c.utf8Size + place)
    | none => if c = separator then some 0 else none

def splitPath (path : String) : Program (String × String) := do
  let trimmed := (path.toList.reverse.dropWhile (· == separator)).reverse
  if trimmed.isEmpty then .fail (.invalidArgument (.noFinalComponent path))
  else match lastSeparator? trimmed with
    | some place =>
      if place = 0 then
        return (String.ofList (← cut trimmed 1).1, String.ofList (← cut trimmed 1).2)
      else
        return (String.ofList (← cut trimmed place).1,
          String.ofList (← cut trimmed (← add place 1)).2)
    | none => return ("", String.ofList trimmed)

def settle (text : List Char) : (place : Nat) → Guarded Nat
  | 0 => if isBoundary text 0 then .ok 0 else .error .underflow
  | place + 1 => if isBoundary text (place + 1) then .ok (place + 1) else settle text place

def shortName (name : String) : Guarded String := do
  let place ← settle name.toList (min (byteLength name.toList) openNameLength)
  return String.ofList (← cut name.toList place).1

def endOfName (bytes : Bytes) : (stop : Nat) → Guarded Nat
  | 0 => .ok 0
  | stop + 1 => do if (← get bytes stop) = 0 then endOfName bytes stop else return stop + 1

def trimStored (bytes : Bytes) : Guarded Bytes := do
  slice bytes 0 (← endOfName bytes bytes.length)

/-! ## Cutting -/

theorem byteLength_append (first second : List Char) :
    byteLength (first ++ second) = byteLength first + byteLength second := by
  rw [byteLength, List.map_append, List.sum_append]
  rfl

theorem byteLength_cons (c : Char) (rest : List Char) :
    byteLength (c :: rest) = c.utf8Size + byteLength rest := rfl

theorem cut_append (first second : List Char) :
    cut (first ++ second) (byteLength first) = .ok (first, second) := by
  induction first with
  | nil =>
    cases second <;> rfl
  | cons c rest ih =>
    have hpos := c.utf8Size_pos
    rw [byteLength_cons, List.cons_append]
    obtain ⟨place, hplace⟩ : ∃ place, c.utf8Size + byteLength rest = place + 1 :=
      ⟨c.utf8Size + byteLength rest - 1, by omega⟩
    have hrest : place + 1 - c.utf8Size = byteLength rest := by omega
    rw [hplace, cut, if_pos (by omega), hrest, ih]
    rfl

theorem isBoundary_of_lt {c : Char} {rest : List Char} {place : Nat} (hpos : 0 < place) (hlt : place < c.utf8Size) :
    isBoundary (c :: rest) place = false := by
  obtain ⟨place, rfl⟩ := Nat.exists_eq_add_one.2 hpos
  rw [isBoundary, cut, if_neg (Nat.not_le.2 hlt)]
  rfl

theorem isBoundary_cons_add (c : Char) (rest : List Char) (place : Nat) :
    isBoundary (c :: rest) (c.utf8Size + place) = isBoundary rest place := by
  obtain ⟨total, htotal⟩ := Nat.exists_eq_add_one.2 (Nat.add_pos_left c.utf8Size_pos place)
  have hplace : total + 1 - c.utf8Size = place := by omega
  rw [htotal, isBoundary, cut, if_pos (by omega), hplace, isBoundary]
  cases cut rest place <;> rfl

theorem lastSeparator?_of_not_mem {text : List Char} (h : separator ∉ text) :
    lastSeparator? text = none := by
  induction text with
  | nil => rfl
  | cons c rest ih =>
    rw [List.mem_cons, not_or] at h
    rw [lastSeparator?, ih h.2]
    exact if_neg (Ne.symm h.1)

theorem lastSeparator?_append {leaf : List Char} (h : separator ∉ leaf) (before : List Char) :
    lastSeparator? (before ++ separator :: leaf) = some (byteLength before) := by
  induction before with
  | nil =>
    rw [List.nil_append, lastSeparator?, lastSeparator?_of_not_mem h]
    rfl
  | cons c rest ih => rw [List.cons_append, lastSeparator?, ih, byteLength_cons]

theorem trimmed_of_cut {text above leaf last : List Char} (h : Path.Cut text above leaf last) :
    (text.reverse.dropWhile (· == separator)).reverse = above.reverse ++ leaf := by
  have hlast : ∀ c ∈ last.reverse, (c == separator) = true := fun c hc ↦
    beq_iff_eq.2 (h.mem_last c (List.mem_reverse.1 hc))
  obtain ⟨c, more, hleaf⟩ := List.exists_cons_of_ne_nil (List.reverse_ne_nil_iff.2 h.leaf_ne_nil)
  have hc : ¬(c == separator) = true := by
    rw [beq_iff_eq]
    rintro rfl
    exact h.not_mem_leaf (List.mem_reverse.1 (hleaf ▸ List.mem_cons_self))
  rw [h.text_eq, List.reverse_append, List.reverse_append, List.reverse_reverse,
    List.dropWhile_append_of_pos hlast, hleaf, List.cons_append,
    List.dropWhile_cons_of_neg (p := (· == separator)) hc, ← List.cons_append, ← hleaf,
    List.reverse_append, List.reverse_reverse]

theorem splitPath_eq (path : String) (h : byteLength path.toList < wordLimit) :
    splitPath path = liftM (Path.splitParent path) := by
  rcases Path.splitParent_cut path with ⟨hnone, hsplit⟩ | ⟨above, leaf, last, hcut, hsplit⟩
  · have hall : path.toList.reverse.dropWhile (· == separator) = [] :=
      List.dropWhile_eq_nil_iff.2 fun c hc ↦ beq_iff_eq.2 (hnone c (List.mem_reverse.1 hc))
    rw [splitPath, hall, hsplit]
    rfl
  · have hleaf := lastSeparator?_append hcut.not_mem_leaf
    rw [splitPath, trimmed_of_cut hcut, hsplit, if_neg]
    · -- No separator, one at the start, or one further on; the first two are cut at fixed places.
      rcases above with - | ⟨c, - | ⟨d, more⟩⟩
      · rw [List.reverse_nil, List.nil_append, lastSeparator?_of_not_mem hcut.not_mem_leaf]
        rfl
      · obtain rfl := hcut.head_above c rfl
        have hafter : cut (separator :: leaf) 1 = .ok ([separator], leaf) :=
          cut_append [separator] leaf
        rw [List.reverse_singleton, List.singleton_append,
          show lastSeparator? (separator :: leaf) = some 0 from hleaf []]
        dsimp only
        rw [if_pos rfl, Program.guarded_bind hafter, Program.guarded_bind hafter]
        rfl
      · obtain rfl := hcut.head_above c rfl
        have htext := congrArg byteLength hcut.text_eq
        rw [List.reverse_cons] at htext ⊢
        rw [List.append_assoc, List.singleton_append]
        generalize hbefore : (d :: more).reverse = before at htext ⊢
        have hpos : 0 < byteLength before := by
          rw [← hbefore, List.reverse_cons, byteLength_append]
          exact Nat.add_pos_right _ (Nat.add_pos_left d.utf8Size_pos _)
        obtain ⟨place, hplace⟩ := Nat.exists_eq_add_one.2 hpos
        have hup : cut (before ++ separator :: leaf) (place + 1) = .ok (before, separator :: leaf) :=
          hplace ▸ cut_append before (separator :: leaf)
        have hdown : cut (before ++ separator :: leaf) (place + 1 + 1) =
            .ok (before ++ [separator], leaf) := by
          have hcut := cut_append (before ++ [separator]) leaf
          rw [byteLength_append, hplace, List.append_assoc] at hcut
          exact hcut
        have hadd : add (place + 1) 1 = .ok (place + 1 + 1) := by
          refine add_eq_ok (Nat.lt_of_le_of_lt ?_ h)
          have hone : byteLength [separator] = 1 := rfl
          simp only [byteLength_append, hplace, hone] at htext
          omega
        rw [hleaf, hplace]
        dsimp only
        rw [if_neg (Nat.succ_ne_zero _), Program.guarded_bind hup, Program.guarded_bind hadd,
          Program.guarded_bind hdown, ← hbefore]
        rfl
    · simp [hcut.leaf_ne_nil]

/-! ## Shortened names -/

theorem byteLength_fitting_le (room : Nat) (text : List Char) :
    byteLength (OpenTable.fitting room text) ≤ room := by
  induction text generalizing room with
  | nil => exact Nat.zero_le _
  | cons c rest ih =>
    rw [OpenTable.fitting]
    split
    · next hle =>
      have hrest := ih (room - c.utf8Size)
      rw [byteLength_cons]
      omega
    · exact Nat.zero_le _

theorem fitting_prefix (room : Nat) (text : List Char) :
    ∃ rest, text = OpenTable.fitting room text ++ rest := by
  induction text generalizing room with
  | nil => exact ⟨[], rfl⟩
  | cons c rest ih =>
    rw [OpenTable.fitting]
    split
    · obtain ⟨more, hmore⟩ := ih (room - c.utf8Size)
      exact ⟨more, by rw [List.cons_append, ← hmore]⟩
    · exact ⟨c :: rest, rfl⟩

theorem le_of_isBoundary {text : List Char} {room place : Nat} (hroom : place ≤ room)
    (h : isBoundary text place = true) : place ≤ byteLength (OpenTable.fitting room text) := by
  induction text generalizing room place with
  | nil =>
    cases place with
    | zero => exact Nat.zero_le _
    | succ place => contradiction
  | cons c rest ih =>
    rcases Nat.lt_or_ge place c.utf8Size with hlt | hge
    · rcases Nat.eq_zero_or_pos place with rfl | hpos
      · exact Nat.zero_le _
      · rw [isBoundary_of_lt hpos hlt] at h
        contradiction
    · obtain ⟨later, rfl⟩ := Nat.exists_eq_add_of_le hge
      rw [isBoundary_cons_add] at h
      have hleft : later ≤ room - c.utf8Size := Nat.le_sub_of_add_le' hroom
      rw [OpenTable.fitting, if_pos (Nat.le_trans hge hroom), byteLength_cons]
      exact Nat.add_le_add_left (ih hleft h) c.utf8Size

theorem settle_eq_ok {text : List Char} {place last : Nat} (hlast : isBoundary text last = true)
    (hle : last ≤ place) (h : ∀ later ≤ place, isBoundary text later = true → later ≤ last) :
    settle text place = .ok last := by
  induction place with
  | zero =>
    obtain rfl := Nat.le_zero.1 hle
    rw [settle, if_pos hlast]
  | succ place ih =>
    rw [settle]
    split
    · next hhere => rw [Nat.le_antisymm hle (h _ (Nat.le_refl _) hhere)]
    · next hhere =>
      have hne : last ≠ place + 1 := fun heq ↦ hhere (heq ▸ hlast)
      exact ih (by omega) fun later hlater ↦ h later (Nat.le_succ_of_le hlater)

theorem isBoundary_fitting (room : Nat) (text : List Char) :
    isBoundary text (byteLength (OpenTable.fitting room text)) = true := by
  obtain ⟨rest, hrest⟩ := fitting_prefix room text
  have hcut := cut_append (OpenTable.fitting room text) rest
  rw [← hrest] at hcut
  rw [isBoundary, hcut]
  rfl

theorem settle_fitting (room : Nat) (text : List Char) :
    settle text (min (byteLength text) room) = .ok (byteLength (OpenTable.fitting room text)) := by
  refine settle_eq_ok (isBoundary_fitting room text) ?_ fun later hlater ↦
    le_of_isBoundary (Nat.le_trans hlater (Nat.min_le_right _ _))
  obtain ⟨rest, hrest⟩ := fitting_prefix room text
  have hlen := congrArg byteLength hrest
  rw [byteLength_append] at hlen
  have hle := byteLength_fitting_le room text
  omega

theorem shortName_eq (name : String) : shortName name = .ok (OpenTable.keptName name) := by
  obtain ⟨rest, hrest⟩ := fitting_prefix openNameLength name.toList
  have hcut := cut_append (OpenTable.fitting openNameLength name.toList) rest
  rw [← hrest] at hcut
  rw [shortName, settle_fitting]
  change (cut name.toList _).bind _ = _
  rw [hcut]
  rfl

/-! ## Stored names -/

theorem trimZeros_concat (bytes : Bytes) (byte : UInt8) :
    Bytes.trimZeros (bytes ++ [byte]) =
      if byte = 0 then Bytes.trimZeros bytes else bytes ++ [byte] := by
  rw [Bytes.trimZeros, List.reverse_append, List.reverse_singleton, List.singleton_append,
    List.dropWhile_cons]
  by_cases hzero : byte = 0
  · rw [if_pos (beq_iff_eq.2 hzero), if_pos hzero]
    rfl
  · rw [if_neg fun h ↦ hzero (beq_iff_eq.1 h), if_neg hzero, List.reverse_cons, List.reverse_reverse]

theorem take_length_trimZeros (bytes : Bytes) :
    bytes.take bytes.trimZeros.length = bytes.trimZeros := by
  have hsuffix := List.dropWhile_suffix (· == 0) (l := bytes.reverse)
  have hprefix : bytes.trimZeros <+: bytes := by
    rw [← bytes.reverse_reverse, Bytes.trimZeros, List.reverse_reverse]
    exact List.reverse_prefix.2 hsuffix
  exact (List.prefix_iff_eq_take.1 hprefix).symm

theorem endOfName_eq {bytes : Bytes} {stop : Nat} (h : stop ≤ bytes.length) :
    endOfName bytes stop = .ok (Bytes.trimZeros (bytes.take stop)).length := by
  induction stop with
  | zero => rfl
  | succ stop ih =>
    have hlt : stop < bytes.length := h
    rw [endOfName, get_eq_ok (List.getElem?_eq_getElem hlt), List.take_succ_eq_append_getElem hlt,
      trimZeros_concat]
    change (if bytes[stop] = 0 then endOfName bytes stop else pure (stop + 1) : Guarded Nat) = _
    split
    · exact ih (Nat.le_of_lt hlt)
    · rw [List.length_append, List.length_take, Nat.min_eq_left (Nat.le_of_lt hlt)]
      rfl

theorem trimStored_eq (bytes : Bytes) : trimStored bytes = .ok bytes.trimZeros := by
  have hend := endOfName_eq (Nat.le_refl bytes.length)
  rw [List.take_length] at hend
  rw [trimStored, hend]
  change slice bytes 0 bytes.trimZeros.length = _
  rw [slice_zero bytes.length_trimZeros_le, take_length_trimZeros]

end Guarded

end SectorFS
