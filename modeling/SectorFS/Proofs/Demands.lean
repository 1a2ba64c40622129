import SectorFS.Proofs.Directory.Slots
import SectorFS.Proofs.FreeMap.Order
import SectorFS.Proofs.Path
import SectorFS.Proofs.Volume.Create
import SectorFS.Proofs.Volume.Remove

/-!
What a change of the tree demands, in the order in which it is looked at: the first demand that is
not met decides the error. The demands are on the table of the directory found and on the free map;
where both can be read nothing else can make the preparation of a change fail.
-/

namespace SectorFS

open Layout

structure Demand where
  met : Bool
  error : Error

namespace Demand

variable {α β : Type} {demands more : List Demand} {x : Except Error α} {f : α → Except Error β}
  {error : Error}

def check : List Demand → Except Error Unit
  | [] => .ok ()
  | demand :: rest => if demand.met then check rest else .error demand.error

theorem check_append (demands more : List Demand) :
    check (demands ++ more) = check demands >>= fun _ ↦ check more := by
  induction demands with
  | nil => rfl
  | cons demand rest ih =>
    rw [List.cons_append, check, check, ih]
    split <;> rfl

theorem check_eq_ok_iff : check demands = .ok () ↔ ∀ demand ∈ demands, demand.met = true := by
  induction demands with
  | nil => exact iff_of_true rfl nofun
  | cons demand rest ih =>
    rw [check, List.forall_mem_cons, ← ih]
    by_cases h : demand.met = true
    · rw [if_pos h, and_iff_right h]
    · rw [if_neg h]
      exact iff_of_false nofun fun h' ↦ h h'.1

theorem check_eq_error_iff : check demands = .error error ↔
    ∃ before rest, demands = before ++ ⟨false, error⟩ :: rest ∧
      ∀ demand ∈ before, demand.met = true := by
  constructor
  · intro h
    induction demands with
    | nil => contradiction
    | cons demand rest ih =>
      obtain ⟨met, cause⟩ := demand
      cases met with
      | true =>
        obtain ⟨before, after, rfl, hbefore⟩ := ih h
        exact ⟨⟨true, cause⟩ :: before, after, rfl, List.forall_mem_cons.2 ⟨rfl, hbefore⟩⟩
      | false =>
        cases h
        exact ⟨[], rest, rfl, nofun⟩
  · rintro ⟨before, rest, rfl, hbefore⟩
    rw [check_append, check_eq_ok_iff.2 hbefore]
    rfl

/-- The computation fails when a demand is not met, with its error, and only then. -/
def Governs (demands : List Demand) (x : Except Error α) : Prop := (x.map fun _ ↦ ()) = check demands

theorem governs_nil (a : α) : Governs [] (.ok a : Except Error α) := rfl

theorem Governs.bind (h : Governs demands x) (h' : ∀ a, x = .ok a → Governs more (f a)) :
    Governs (demands ++ more) (x >>= f) := by
  rw [Governs, check_append, ← h]
  cases x with
  | error error => rfl
  | ok a => exact h' a rfl

end Demand

open Demand (Governs)

variable {name : String} {sector : UInt32} {kind : Kind} {size : Nat} {table : Directory}
  {map : FreeMap} {device : Device} {volume : Volume} {session : Session} {path : String}
  {here : UInt32} {file : File}

def Entry.demands (name : String) : List Demand :=
  [⟨1 ≤ (Bytes.ofText name).length ∧ (Bytes.ofText name).length ≤ maxNameLength,
      .invalidArgument (.badNameLength name)⟩,
    ⟨0 ∉ Bytes.ofText name, .invalidArgument (.reservedCharacter name)⟩]

def Directory.demands (table : Directory) (name : String) : List Demand :=
  Entry.demands name ++ [⟨none ∈ table.slots, .capacityExceeded .directoryFull⟩]

def FreeMap.demands (map : FreeMap) (size : Nat) : List Demand :=
  [⟨size ≤ maxFileSize, .capacityExceeded .fileTooLarge⟩,
    ⟨sectorsFor size ≤ map.numFree, .capacityExceeded .noFreeSector⟩]

def Creation.demands (table : Directory) (map : FreeMap) (name : String) (size : Nat) :
    List Demand :=
  [⟨(table.find? name).isNone, .alreadyExists name⟩,
    ⟨1 ≤ map.numFree, .capacityExceeded .noFreeSector⟩,
    ⟨1 ≤ (Bytes.ofText name).length ∧ (Bytes.ofText name).length ≤ maxNameLength,
      .invalidArgument (.badNameLength name)⟩,
    ⟨0 ∉ Bytes.ofText name, .invalidArgument (.reservedCharacter name)⟩,
    ⟨none ∈ table.slots, .capacityExceeded .directoryFull⟩,
    ⟨size ≤ maxFileSize, .capacityExceeded .fileTooLarge⟩,
    ⟨1 + sectorsFor size ≤ map.numFree, .capacityExceeded .noFreeSector⟩]

theorem Entry.governs_make (h : separator ∉ name.toList) (sector : UInt32) (kind : Kind) :
    Governs (Entry.demands name) (Entry.make name sector kind) := by
  unfold Entry.make Entry.demands
  simp only [Governs, Demand.check]
  by_cases hlen : 1 ≤ (Bytes.ofText name).length ∧ (Bytes.ofText name).length ≤ maxNameLength
  · by_cases hzero : 0 ∈ Bytes.ofText name
    · simp [hlen, hzero, Except.map]
    · simp [hlen, hzero, h, Except.map]
  · simp [hlen, Except.map]

theorem Directory.governs_add (h : separator ∉ name.toList) (hnone : table.find? name = none)
    (sector : UInt32) (kind : Kind) :
    Governs (table.demands name) (table.add name sector kind) := by
  refine (Entry.governs_make h sector kind).bind fun entry _ ↦ ?_
  have hfree : (table.find? name).isSome = false := by rw [hnone]; rfl
  simp only [hfree]
  by_cases hslot : none ∈ table.slots
  · obtain ⟨filled, hfilled⟩ := exists_fillFirst? entry hslot
    simp [Governs, Demand.check, hslot, hfilled]
    rfl
  · simp [Governs, Demand.check, hslot, fillFirst?_eq_none hslot]
    rfl

theorem FreeMap.governs_allocate (map : FreeMap) (size : Nat) :
    Governs (map.demands size) (map.allocate size) := by
  unfold FreeMap.allocate FreeMap.demands
  by_cases hsize : size ≤ maxFileSize
  · by_cases hroom : sectorsFor size ≤ map.numFree
    · simp [Governs, Demand.check, hsize, hroom, Nat.not_lt.2 hroom, Except.map]
    · simp [Governs, Demand.check, hsize, hroom, Nat.lt_of_not_le hroom, Except.map]
  · simp [Governs, Demand.check, hsize, Except.map]

theorem Creation.governs_rest (hname : separator ∉ name.toList) (hnone : table.find? name = none)
    (taken : FreeMap) (sector here : UInt32) (kind : Kind) (size : Nat) (file : File) :
    Governs (table.demands name ++ (taken.demands size ++ []))
      (table.add name sector kind >>= fun parent ↦ taken.allocate size >>= fun left ↦
        (match kind with
          | .regular => pure none
          | .directory => some <$> Directory.linked directorySlots sector here) >>= fun table? ↦
            pure (⟨sector, left.1, table?, file, parent, left.2⟩ : Creation)) := by
  refine (Directory.governs_add hname hnone sector kind).bind fun parent _ ↦
    (FreeMap.governs_allocate taken size).bind fun left _ ↦ ?_
  cases kind with
  | regular => exact Demand.governs_nil _
  | directory =>
    obtain ⟨made, hmade, -⟩ := Directory.exists_linked sector here
    rw [hmade]
    exact Demand.governs_nil _

theorem Creation.governs_prepare (hlocate : Volume.locate session path device = .ok (here, name))
    (hname : separator ∉ name.toList) (hopen : device.openDirectory here = .ok (file, table))
    (hload : volume.freeMap device = .ok map) (kind : Kind) (size : Nat) :
    Governs (Creation.demands table map name size)
      (Creation.prepare volume session path kind size device) := by
  unfold Creation.prepare
  simp only [hlocate, hopen, hload, bind, Except.bind]
  cases hfind : table.find? name with
  | some entry =>
    rw [Governs, Creation.demands, Demand.check, hfind]
    rfl
  | none =>
    cases hfirst : map.takeFirst? with
    | none =>
      have hnone := FreeMap.takeFirst?_eq_none_iff.1 hfirst
      simp [Governs, Creation.demands, Demand.check, hfind, hnone]
      rfl
    | some first =>
      obtain ⟨sector, taken⟩ := first
      have hfree := FreeMap.numFree_of_takeFirst? hfirst
      have hsome : decide (1 ≤ map.numFree) = true := by
        rw [hfree]
        exact decide_eq_true (Nat.le_add_left _ _)
      -- The header takes the first sector, and the data must fit in what the map has left.
      have hroom : decide (1 + sectorsFor size ≤ map.numFree) =
          decide (sectorsFor size ≤ taken.numFree) := by
        rw [hfree, Nat.add_comm]
        exact decide_eq_decide.2 Nat.add_le_add_iff_right
      have hdemands : Demand.check (Creation.demands table map name size) =
          Demand.check (table.demands name ++ (taken.demands size ++ [])) := by
        simp only [Creation.demands, hroom, hsome, hfind]
        rfl
      rw [Governs, hdemands, ← Creation.governs_rest hname hfind taken sector here kind size file]
      cases kind <;> rfl

theorem Creation.demands_met_iff : (∀ demand ∈ Creation.demands table map name size, demand.met = true) ↔
    table.find? name = none ∧ 1 ≤ (Bytes.ofText name).length ∧
      (Bytes.ofText name).length ≤ maxNameLength ∧ 0 ∉ Bytes.ofText name ∧ none ∈ table.slots ∧
      size ≤ maxFileSize ∧ 1 + sectorsFor size ≤ map.numFree := by
  simp only [Creation.demands, List.forall_mem_cons, List.not_mem_nil, false_imp_iff, implies_true,
    and_true, decide_eq_true_eq, Option.isNone_iff_eq_none, and_assoc]
  refine and_congr_right fun _ ↦ and_iff_right_of_imp fun h ↦ ?_
  exact Nat.le_trans (Nat.le_add_right 1 _) h.2.2.2.2.2

def Removal.demands (table : Directory) (name : String) : List Demand :=
  [⟨name ≠ dot ∧ name ≠ dotDot, .invalidArgument (.cannotRemove name)⟩,
    ⟨(table.find? name).isSome, .notFound name⟩]

theorem Removal.demands_met_iff : (∀ demand ∈ Removal.demands table name, demand.met = true) ↔
    name ≠ dot ∧ name ≠ dotDot ∧ ∃ entry, table.find? name = some entry := by
  simp only [Removal.demands, List.forall_mem_cons, List.not_mem_nil, false_imp_iff, implies_true,
    and_true, decide_eq_true_eq, Option.isSome_iff_exists, and_assoc]

theorem Removal.governs_find (hlocate : Volume.locate session path device = .ok (here, name))
    (hopen : device.openDirectory here = .ok (file, table)) :
    Governs (Removal.demands table name) (Removal.find session path device) := by
  unfold Removal.find
  simp only [hlocate, hopen, bind, Except.bind]
  by_cases hname : name = dot ∨ name = dotDot
  · have hbad : decide (name ≠ dot ∧ name ≠ dotDot) = false := by simpa [or_iff_not_imp_left] using hname
    simp only [Governs, Removal.demands, Demand.check, hbad, if_pos hname]
    rfl
  · have hgood : decide (name ≠ dot ∧ name ≠ dotDot) = true := by simpa using hname
    simp only [Governs, Removal.demands, Demand.check, hgood, if_neg hname]
    cases table.find? name <;> rfl

end SectorFS
