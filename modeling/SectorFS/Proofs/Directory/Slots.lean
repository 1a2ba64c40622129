import SectorFS.Proofs.Directory

namespace SectorFS

open Layout

namespace Directory

variable {old new table : Directory} {entry : Entry} {name : String} {sector : UInt32} {kind : Kind}
  {slots : List Slot}

/-- The new table is the old one with the entry in the first slot that was free. -/
def Gains (old new : Directory) (entry : Entry) : Prop :=
  ∃ first rest, none ∉ first ∧ old.slots = first ++ none :: rest ∧
    new.slots = first ++ some entry :: rest

theorem gains_of_fillFirst? {filled : List Slot} (h : fillFirst? entry slots = some filled) :
    Gains ⟨slots⟩ ⟨filled⟩ entry := by
  induction slots generalizing filled with
  | nil => contradiction
  | cons slot slots ih =>
    cases slot with
    | none => exact ⟨[], slots, List.not_mem_nil, rfl, (Option.some.inj h).symm⟩
    | some other =>
      obtain ⟨more, hmore, rfl⟩ := Option.map_eq_some_iff.1 h
      obtain ⟨first, rest, hfull, hold, hnew⟩ := ih hmore
      refine ⟨some other :: first, rest, ?_, congrArg (_ :: ·) hold, congrArg (_ :: ·) hnew⟩
      exact List.not_mem_cons_of_ne_of_not_mem nofun hfull

theorem fillFirst?_eq_map (entry : Entry) (slots : List Slot) : fillFirst? entry slots =
    (slots.findIdx? Option.isNone).map fun i ↦ slots.set i (some entry) := by
  induction slots with
  | nil => rfl
  | cons slot rest ih =>
    rw [List.findIdx?_cons]
    cases slot with
    | none => rfl
    | some other =>
      rw [fillFirst?, ih, Option.isNone_some, if_neg Bool.false_ne_true, Option.map_map,
        Option.map_map]
      rfl

theorem exists_fillFirst? (entry : Entry) (h : none ∈ slots) :
    ∃ filled, fillFirst? entry slots = some filled := by
  induction slots with
  | nil => contradiction
  | cons slot slots ih =>
    cases slot with
    | none => exact ⟨some entry :: slots, rfl⟩
    | some other =>
      obtain ⟨filled, hfilled⟩ := ih ((List.mem_cons.1 h).resolve_left nofun)
      exact ⟨some other :: filled, by rw [fillFirst?, hfilled, Option.map_some]⟩

theorem fillFirst?_eq_none (h : none ∉ slots) : fillFirst? entry slots = none := by
  cases hfill : fillFirst? entry slots with
  | none => rfl
  | some filled =>
    obtain ⟨first, rest, -, hold, -⟩ := gains_of_fillFirst? hfill
    have hslots : slots = first ++ none :: rest := hold
    exact absurd (hslots ▸ List.mem_append_right _ List.mem_cons_self) h

theorem gains_of_add (h : old.add name sector kind = .ok new) :
    ∃ entry, Entry.make name sector kind = .ok entry ∧ old.Gains new entry := by
  obtain ⟨entry, hmake, h⟩ := bind_eq_ok.1 h
  refine ⟨entry, hmake, ?_⟩
  by_cases hsome : (old.find? name).isSome = true
  · rw [if_pos hsome] at h
    contradiction
  · rw [if_neg hsome] at h
    cases hfill : fillFirst? entry old.slots with
    | none => simp only [hfill] at h; contradiction
    | some filled =>
      simp only [hfill] at h
      cases h
      exact gains_of_fillFirst? hfill

end Directory

end SectorFS
