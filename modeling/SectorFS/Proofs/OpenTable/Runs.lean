import SectorFS.Proofs.OpenTable
import Mathlib.Data.Finset.Card
import Mathlib.Data.List.Sigma

namespace SectorFS

open Operation

inductive TableCall
  | openFile (name : String) (sector : UInt32) (load : Operation File)
  | onHandle (handle : Nat) (call : HandleCall)
  | closeAll

inductive TableReply
  | handle (handle : Nat)
  | ofHandle (reply : HandleReply)
  | number (n : Nat)

def TableCall.Frees (handle : Nat) : TableCall → Prop
  | openFile .. => False
  | onHandle other call => other = handle ∧ call = .close
  | closeAll => True

/-! Reading and writing fail only where the device does. -/

section Failures

variable {σ α β : Type}

def FailsByDevice (x : ExceptT Error (StateM σ) α) : Prop :=
  ∀ s error, (x.run s).1 = .error error → error.isDeviceFailure = true

theorem failsByDevice_pure (a : α) : FailsByDevice (pure a : ExceptT Error (StateM σ) α) :=
  fun _ _ h ↦ nomatch h

theorem FailsByDevice.bind {x : ExceptT Error (StateM σ) α} {f : α → ExceptT Error (StateM σ) β}
    (h : FailsByDevice x) (h' : ∀ a, FailsByDevice (f a)) : FailsByDevice (x >>= f) := by
  intro s error hrun
  rw [run_bind] at hrun
  cases hx : x.run s with
  | mk outcome t =>
    rw [hx] at hrun
    cases outcome with
    | error other =>
      obtain rfl := Except.error.inj hrun
      exact h s other (by rw [hx])
    | ok a => exact h' a t error hrun

theorem failsByDevice_notes (events : List Event) : FailsByDevice (notes events) :=
  fun _ _ h ↦ nomatch h

theorem Device.isDeviceFailure_of_read {device : Device} {sector : UInt32} {error : Error}
    (h : device.read sector = .error error) : error.isDeviceFailure = true := by
  unfold Device.read at h
  split at h
  · cases h
    rfl
  · split at h
    · cases h
      rfl
    · contradiction

theorem Device.isDeviceFailure_of_gather {device : Device} {spans : List Span} {error : Error}
    (h : (device.gather spans).2 = some error) : error.isDeviceFailure = true := by
  induction spans with
  | nil => contradiction
  | cons span rest ih =>
    unfold gather at h
    cases hread : device.read span.sector with
    | error other =>
      rw [hread] at h
      cases h
      exact isDeviceFailure_of_read hread
    | ok block =>
      rw [hread] at h
      exact ih h

theorem File.isDeviceFailure_of_read {file : File} {count pos : Nat} {device : Device}
    {error : Error} (h : file.read count pos device = .error error) :
    error.isDeviceFailure = true := by
  unfold File.read at h
  split at h
  · contradiction
  · next hgather =>
    cases h
    exact Device.isDeviceFailure_of_gather (congrArg Prod.snd hgather)

theorem Action.failsByDevice_write (sector : UInt32) (block : Block) :
    FailsByDevice (Action.write sector block) := by
  intro device error hrun
  rw [run_write] at hrun
  unfold Device.refusal? at hrun
  split at hrun
  · next hrefused =>
    cases hrun
    split at hrefused
    · cases hrefused
      rfl
    · split at hrefused
      · cases hrefused
        rfl
      · contradiction
  · contradiction

theorem Action.failsByDevice_scatter (spans : List Span) (data : Bytes) :
    FailsByDevice (Action.scatter spans data) := by
  induction spans generalizing data with
  | nil => exact failsByDevice_pure ()
  | cons span rest ih =>
    have hwhole (old : Block) : FailsByDevice
        (Action.write span.sector (old.overwrite span.start (data.take span.length)) >>= fun _ ↦
          Action.scatter rest (data.drop span.length)) :=
      (failsByDevice_write _ _).bind fun _ ↦ ih _
    unfold Action.scatter
    split
    · refine FailsByDevice.bind ?_ hwhole
      intro device error hrun
      exact Device.isDeviceFailure_of_read hrun
    · exact hwhole _

theorem File.failsByDevice_write (file : File) (data : Bytes) (pos : Nat) :
    FailsByDevice (file.write data pos) :=
  (Action.failsByDevice_scatter _ _).bind fun _ ↦ failsByDevice_pure _

theorem OpenFile.failsByDevice_call (opened : OpenFile) (handle : Nat) (call : HandleCall) :
    FailsByDevice (opened.call handle call) := by
  have hread (count pos : Nat) : FailsByDevice (query (opened.file.read count pos)) :=
    fun _ _ hrun ↦ File.isDeviceFailure_of_read hrun
  have hwrite (data : Bytes) (pos : Nat) : FailsByDevice (act (opened.file.write data pos)) :=
    fun host error hrun ↦ File.failsByDevice_write _ _ _ host.device error hrun
  have hnoted {α : Type} {x : Operation α} (h : FailsByDevice x) (event : α → Event)
      (answer : α → HandleReply × Option OpenFile) :
      FailsByDevice (x >>= fun a ↦ note (event a) >>= fun _ ↦ pure (answer a)) :=
    h.bind fun _ ↦ (failsByDevice_notes _).bind fun _ ↦ failsByDevice_pure _
  cases call with
  | close => exact (failsByDevice_notes _).bind fun _ ↦ failsByDevice_pure _
  | read count => exact hnoted (hread count _) _ _
  | write data => exact hnoted (hwrite data _) _ _
  | readAt count pos => exact hnoted (hread count pos) _ _
  | writeAt data pos => exact hnoted (hwrite data pos) _ _
  | seek pos => exact failsByDevice_pure _
  | tell => exact failsByDevice_pure _

end Failures

namespace OpenTable

def serve (table : OpenTable) : TableCall → Operation (TableReply × OpenTable)
  | .openFile name sector load => do
    let (handle, after) ← table.openFile name sector load
    return (.handle handle, after)
  | .onHandle handle call => do
    let (reply, after) ← table.call handle call
    return (.ofHandle reply, after)
  | .closeAll => do
    let (count, after) ← table.closeAll
    return (.number count, after)

def step (call : TableCall) (table : OpenTable) (host : Host) :
    Except Error TableReply × OpenTable × Host :=
  match (table.serve call).run host with
  | (.ok (reply, after), host) => (.ok reply, after, host)
  | (.error error, host) => (.error error, table, host)

def run : List TableCall → OpenTable → Host → List (Except Error TableReply) × OpenTable × Host
  | [], table, host => ([], table, host)
  | call :: rest, table, host =>
    let (answer, table, host) := step call table host
    let (answers, table, host) := run rest table host
    (answer :: answers, table, host)

def Distinct (table : OpenTable) : Prop :=
  ∀ ⦃handle other opened bound⦄, table.get? handle = some opened → table.get? other = some bound →
    opened.sector = bound.sector → handle = other

def Unbound (table : OpenTable) (sector : UInt32) : Prop :=
  ∀ ⦃handle opened⦄, table.get? handle = some opened → opened.sector ≠ sector

structure LowestFree (table : OpenTable) (handle : Nat) : Prop where
  lt : handle < table.capacity
  free : table.get? handle = none
  below : ∀ other < handle, table.isValid other = true

/-- What a call can do to a table. -/
inductive Moves (table : OpenTable) : TableCall → OpenTable → Prop
  | stay (call : TableCall) : Moves table call table
  | bind {sector : UInt32} {handle : Nat} (name kept : String) (load : Operation File) (file : File)
      (hsector : table.Unbound sector) (hfree : table.LowestFree handle) :
      Moves table (.openFile name sector load) (table.set handle (some ⟨sector, kept, 0, file⟩))
  | move {handle : Nat} {opened : OpenFile} (call : HandleCall) (cursor : Nat)
      (hget : table.get? handle = some opened) :
      Moves table (.onHandle handle call) (table.set handle (some { opened with cursor }))
  | free {handle : Nat} {opened : OpenFile} (hget : table.get? handle = some opened) :
      Moves table (.onHandle handle .close) (table.set handle none)
  | clear : Moves table .closeAll (empty table.capacity)

variable {table after : OpenTable} {handle other : Nat} {opened bound : OpenFile} {sector : UInt32}
  {name : String} {load : Operation File} {host : Host}

/-! One call. -/

theorem handleOf?_eq_none_iff : table.handleOf? sector = none ↔ table.Unbound sector := by
  constructor
  · intro h handle opened hget
    exact sector_ne_of_handleOf? h hget
  · intro h
    cases hbound : table.handleOf? sector with
    | none => rfl
    | some handle =>
      obtain ⟨opened, hget, hsector⟩ := get?_of_handleOf? hbound
      exact absurd hsector (h hget)

theorem handleOf?_of_distinct (hd : table.Distinct) (h : table.get? handle = some opened) :
    table.handleOf? opened.sector = some handle := by
  cases hbound : table.handleOf? opened.sector with
  | none => exact absurd rfl (sector_ne_of_handleOf? hbound h)
  | some other =>
    obtain ⟨bound, hget, hsector⟩ := get?_of_handleOf? hbound
    rw [hd hget h hsector]

theorem get?_of_lt (h : handle < table.slots.length) : table.get? handle = table.slots[handle] := by
  simp [get?, List.getElem?_eq_getElem h]

theorem firstFree?_eq_some_iff : table.firstFree? = some handle ↔ table.LowestFree handle := by
  simp only [firstFree?, List.findIdx?_eq_some_iff_getElem, Option.isNone_iff_eq_none]
  constructor
  · rintro ⟨hlt, hfree, hbelow⟩
    refine ⟨hlt, by rw [get?_of_lt hlt, hfree], ?_⟩
    intro other hother
    rw [isValid, get?_of_lt (hother.trans hlt)]
    simpa [Option.isSome_iff_ne_none] using hbelow other hother
  · rintro ⟨hlt, hfree, hbelow⟩
    refine ⟨hlt, (get?_of_lt hlt).symm.trans hfree, ?_⟩
    intro other hother
    have hvalid := hbelow other hother
    rw [isValid, get?_of_lt (hother.trans hlt)] at hvalid
    simpa [Option.isSome_iff_ne_none] using hvalid

theorem firstFree?_eq_none (h : ∀ handle < table.capacity, table.isValid handle = true) :
    table.firstFree? = none := by
  cases hfree : table.firstFree? with
  | none => rfl
  | some handle =>
    have hvalid := h handle (lt_capacity_of_firstFree? hfree)
    simp [isValid, get?_of_firstFree? hfree] at hvalid

theorem serve_openFile (table : OpenTable) (name : String) (sector : UInt32) (load : Operation File) :
    table.serve (.openFile name sector load) =
      table.openFile name sector load >>= fun bound ↦ pure (.handle bound.1, bound.2) := rfl

theorem step_openFile_of_bound (h : table.handleOf? sector = some handle) (name : String)
    (load : Operation File) (host : Host) :
    step (.openFile name sector load) table host = (.ok (.handle handle), table,
      { host with log := host.log ++ [.alreadyOpen name handle] }) := by
  simp only [step, serve_openFile, OpenTable.openFile, h]
  rfl

theorem step_openFile_of_full (h : table.handleOf? sector = none) (hfree : table.firstFree? = none)
    (name : String) (load : Operation File) (host : Host) :
    step (.openFile name sector load) table host = (.error (.capacityExceeded .openTableFull), table,
      { host with log := host.log ++ [.tableFull table.capacity] }) := by
  simp only [step, serve_openFile, OpenTable.openFile, h, hfree]
  rfl

theorem step_openFile_of_free (h : table.handleOf? sector = none)
    (hfree : table.firstFree? = some handle) (name : String) (load : Operation File) (host : Host) :
    step (.openFile name sector load) table host = match load.run host with
      | (.error error, loaded) => (.error error, table, loaded)
      | (.ok file, loaded) =>
        (.ok (.handle handle), table.set handle (some ⟨sector, keptName name, 0, file⟩),
          { loaded with log := loaded.log ++ [.opened name handle sector] }) := by
  simp only [step, serve_openFile, OpenTable.openFile, h, hfree, run_bind]
  cases load.run host with
  | mk outcome loaded => cases outcome <;> rfl

theorem step_onHandle_of_free (h : table.get? handle = none) (call : HandleCall) (host : Host) :
    step (.onHandle handle call) table host = (.error (.invalidHandle handle), table,
      { host with log := host.log ++ [.badHandle handle call] }) := by
  simp only [step, serve, run_bind, run_call, h]

theorem step_onHandle_of_bound (h : table.get? handle = some opened) (call : HandleCall)
    (host : Host) : step (.onHandle handle call) table host =
      match (opened.call handle call).run host with
      | (.error error, after) => (.error error, table, after)
      | (.ok (reply, slot), after) => (.ok (.ofHandle reply), table.set handle slot, after) := by
  simp only [step, serve, run_bind, run_call, h]
  cases (opened.call handle call).run host with
  | mk outcome after => cases outcome <;> rfl

theorem step_onHandle_cases (h : table.get? handle = some opened) (call : HandleCall) (host : Host) :
    (∃ error, (step (.onHandle handle call) table host).1 = .error error ∧
        error.isDeviceFailure = true ∧
        (step (.onHandle handle call) table host).2.1 = table) ∨
      ∃ reply slot, (step (.onHandle handle call) table host).1 = .ok (.ofHandle reply) ∧
        opened.Leaves call reply slot ∧
        (step (.onHandle handle call) table host).2.1 = table.set handle slot := by
  rw [step_onHandle_of_bound h]
  cases hrun : (opened.call handle call).run host with
  | mk outcome after =>
    cases outcome with
    | error error =>
      have hdevice := opened.failsByDevice_call handle call host error (congrArg Prod.fst hrun)
      exact .inl ⟨error, rfl, hdevice, rfl⟩
    | ok answer =>
      obtain ⟨reply, slot⟩ := answer
      exact .inr ⟨reply, slot, rfl, OpenFile.leaves_of_call hrun, rfl⟩

theorem step_onHandle_eq (hget : table.get? handle = some opened) (hf : host.device.faults = {})
    (hon : opened.file.OnDevice host.device) (call : HandleCall) :
    ∃ log, step (.onHandle handle call) table host =
      (.ok (.ofHandle (opened.replyTo host.device call)), table.set handle (opened.slotAfter call),
        ⟨host.device.edit (opened.editsOf host.device call), log⟩) := by
  obtain ⟨log, hrun⟩ := OpenFile.run_call_eq handle hf hon call
  refine ⟨log, ?_⟩
  rw [step_onHandle_of_bound hget, hrun]

theorem step_closeAll (table : OpenTable) (host : Host) : step .closeAll table host =
    (.ok (.number table.size), empty table.capacity,
      { host with log := host.log ++ (table.bindings.map fun (handle, opened) ↦
          .closing opened.name handle) ++ [.closedAll table.size] }) := rfl

theorem moves_openFile (name : String) (sector : UInt32) (load : Operation File) (host : Host) :
    table.Moves (.openFile name sector load) (step (.openFile name sector load) table host).2.1 := by
  cases hbound : table.handleOf? sector with
  | some handle =>
    rw [step_openFile_of_bound hbound]
    exact .stay _
  | none =>
    cases hfree : table.firstFree? with
    | none =>
      rw [step_openFile_of_full hbound hfree]
      exact .stay _
    | some handle =>
      rw [step_openFile_of_free hbound hfree]
      cases load.run host with
      | mk outcome loaded =>
        cases outcome with
        | error error => exact .stay _
        | ok file =>
          exact .bind _ _ _ _ (handleOf?_eq_none_iff.1 hbound) (firstFree?_eq_some_iff.1 hfree)

theorem moves_onHandle (handle : Nat) (call : HandleCall) (host : Host) :
    table.Moves (.onHandle handle call) (step (.onHandle handle call) table host).2.1 := by
  cases hget : table.get? handle with
  | none =>
    rw [step_onHandle_of_free hget]
    exact .stay _
  | some opened =>
    rcases step_onHandle_cases hget call host with ⟨error, -, -, hleft⟩ |
      ⟨reply, slot, -, hleaves, hleft⟩
    · rw [hleft]
      exact .stay _
    · rw [hleft]
      cases hleaves with
      | close => exact .free hget
      | read | write | seek => exact .move _ _ hget
      | readAt | writeAt | tell => exact .move _ opened.cursor hget

theorem moves_step (call : TableCall) (table : OpenTable) (host : Host) :
    table.Moves call (step call table host).2.1 := by
  cases call with
  | openFile name sector load => exact moves_openFile name sector load host
  | onHandle handle call => exact moves_onHandle handle call host
  | closeAll => exact .clear

theorem Moves.capacity_eq {call : TableCall} (h : table.Moves call after) :
    after.capacity = table.capacity := by
  cases h with
  | stay => rfl
  | bind => simp [capacity, set]
  | move => simp [capacity, set]
  | free => simp [capacity, set]
  | clear => simp [capacity, empty]

theorem Distinct.set (hd : table.Distinct) (h : ∀ ⦃other bound⦄, table.get? other = some bound →
    bound.sector = opened.sector → other = handle) : (table.set handle (some opened)).Distinct := by
  intro first second left right hleft hright hsector
  rw [get?_set] at hleft hright
  split at hleft
  · case isTrue hfirst =>
    split at hright
    · case isTrue hsecond => exact hfirst.1.symm.trans hsecond.1
    · cases hleft
      exact hfirst.1.symm.trans (h hright hsector.symm).symm
  · split at hright
    · case isTrue hsecond =>
      cases hright
      exact (h hleft hsector).trans hsecond.1
    · exact hd hleft hright hsector

theorem Distinct.set_none (hd : table.Distinct) (handle : Nat) : (table.set handle none).Distinct := by
  intro first second left right hleft hright hsector
  rw [get?_set] at hleft hright
  split at hleft
  · contradiction
  · split at hright
    · contradiction
    · exact hd hleft hright hsector

theorem distinct_empty (capacity : Nat) : (empty capacity).Distinct := by
  intro first second left right hleft
  simp [get?_empty] at hleft

theorem Moves.distinct {call : TableCall} (h : table.Moves call after) (hd : table.Distinct) :
    after.Distinct := by
  cases h with
  | stay => exact hd
  | bind _ _ _ _ hsector hfree =>
    apply hd.set
    intro other bound hother heq
    exact absurd heq (hsector hother)
  | move _ cursor hget =>
    apply hd.set
    intro other bound hother heq
    exact hd hother hget heq
  | free => exact hd.set_none _
  | clear => exact distinct_empty _

/-- A binding outlives every call that does not end it, with its sector, name and file. -/
theorem Moves.retains {call : TableCall} (h : table.Moves call after) (hcall : ¬ call.Frees handle)
    (hget : table.get? handle = some opened) :
    ∃ cursor, after.get? handle = some { opened with cursor } := by
  cases h with
  | stay => exact ⟨_, hget⟩
  | bind _ _ _ _ hsector hfree =>
    refine ⟨opened.cursor, ?_⟩
    rw [get?_set, if_neg ?_, hget]
    rintro ⟨rfl, -⟩
    simp [hfree.free] at hget
  | move _ cursor hmoved =>
    rw [get?_set]
    split
    · case isTrue hself =>
      rw [hself.1, hget] at hmoved
      cases hmoved
      exact ⟨cursor, rfl⟩
    · exact ⟨_, hget⟩
  | free =>
    rw [get?_set, if_neg ?_]
    · exact ⟨_, hget⟩
    · rintro ⟨rfl, -⟩
      exact hcall ⟨rfl, rfl⟩
  | clear => exact absurd trivial hcall

theorem get?_step_onHandle_of_ne (h : other ≠ handle) (call : HandleCall) (table : OpenTable)
    (host : Host) : (step (.onHandle handle call) table host).2.1.get? other = table.get? other := by
  cases hget : table.get? handle with
  | none => rw [step_onHandle_of_free hget]
  | some opened =>
    rcases step_onHandle_cases hget call host with ⟨error, -, -, hleft⟩ | ⟨reply, slot, -, -, hleft⟩
    · rw [hleft]
    · rw [hleft, get?_set, if_neg fun hself ↦ h hself.1.symm]

theorem step_onHandle_ne_invalidHandle (h : table.get? handle = some opened) (call : HandleCall)
    (host : Host) (other : Nat) :
    (step (.onHandle handle call) table host).1 ≠ .error (.invalidHandle other) := by
  rcases step_onHandle_cases h call host with ⟨error, hanswer, hdevice, -⟩ |
    ⟨reply, slot, hanswer, -, -⟩
  · rw [hanswer]
    rintro ⟨⟩
    simp [Error.isDeviceFailure] at hdevice
  · rw [hanswer]
    exact nofun

/-! Runs. -/

theorem run_cons (call : TableCall) (rest : List TableCall) (table : OpenTable) (host : Host) :
    (run (call :: rest) table host).2 =
      (run rest (step call table host).2.1 (step call table host).2.2).2 := rfl

theorem capacity_run (calls : List TableCall) (table : OpenTable) (host : Host) :
    (run calls table host).2.1.capacity = table.capacity := by
  induction calls generalizing table host with
  | nil => rfl
  | cons call rest ih =>
    rw [run_cons, ih]
    exact (moves_step call table host).capacity_eq

theorem distinct_run (calls : List TableCall) (hd : table.Distinct) (host : Host) :
    (run calls table host).2.1.Distinct := by
  induction calls generalizing table host with
  | nil => exact hd
  | cons call rest ih =>
    rw [run_cons]
    apply ih
    exact (moves_step call table host).distinct hd

theorem retains_run {calls : List TableCall} (hcalls : ∀ call ∈ calls, ¬ call.Frees handle)
    (hget : table.get? handle = some opened) (host : Host) :
    ∃ cursor, (run calls table host).2.1.get? handle = some { opened with cursor } := by
  induction calls generalizing table opened host with
  | nil => exact ⟨opened.cursor, hget⟩
  | cons call rest ih =>
    obtain ⟨cursor, hnext⟩ := (moves_step call table host).retains (hcalls call (by simp)) hget
    rw [run_cons]
    exact ih (fun call hcall ↦ hcalls call (by simp [hcall])) hnext _

/-! The number of open files. -/

theorem size_eq_length_bindings (table : OpenTable) : table.size = table.bindings.length := by
  rw [bindings, List.length_filterMap_eq_countP, size]
  conv_lhs => rw [← List.zipIdx_map_fst 0 table.slots, List.countP_map]
  apply List.countP_congr
  simp

theorem nodup_bindings (table : OpenTable) : table.bindings.Nodup := by
  apply List.Nodup.filterMap
  · rintro ⟨left, first⟩ ⟨right, second⟩ binding hleft hright
    simp only [Option.mem_def, Option.map_eq_some_iff] at hleft hright
    obtain ⟨opened, rfl, rfl⟩ := hleft
    obtain ⟨bound, rfl, heq⟩ := hright
    cases heq
    rfl
  · exact .of_map Prod.snd (List.nodup_zipIdx_map_snd _)

theorem Distinct.nodup_sectors (hd : table.Distinct) :
    (table.list.map ListedFile.sector).Nodup := by
  rw [list, List.map_map]
  apply table.nodup_bindings.map_on
  rintro ⟨handle, opened⟩ hopened ⟨other, bound⟩ hbound hsector
  have hget := mem_bindings.1 hopened
  have hother := mem_bindings.1 hbound
  obtain rfl := hd hget hother hsector
  rw [hget] at hother
  cases hother
  rfl

theorem Distinct.size_eq_card (hd : table.Distinct) :
    table.size = (table.list.map ListedFile.sector).toFinset.card := by
  rw [List.toFinset_card_of_nodup hd.nodup_sectors, size_eq_length_bindings]
  simp [list]

/-- What holds of a table of `capacity` slots between two calls, and of the calls that may follow. -/
structure Lawful (capacity : Nat) (table : OpenTable) : Prop where
  capacity_eq : table.capacity = capacity
  distinct : table.Distinct
  size_eq : table.size = (table.list.map ListedFile.sector).toFinset.card
  /-- Opening a sector that is bound answers its handle and does not load. -/
  reopens {handle : Nat} {opened : OpenFile} (_ : table.get? handle = some opened) (name : String)
    (load : Operation File) (host : Host) :
    step (.openFile name opened.sector load) table host = (.ok (.handle handle), table,
      { host with log := host.log ++ [.alreadyOpen name handle] })
  /-- With every slot in use, no other sector is opened or loaded. -/
  full {sector : UInt32} (_ : table.Unbound sector)
    (_ : ∀ handle < capacity, table.isValid handle = true) (name : String)
    (load : Operation File) (host : Host) :
    step (.openFile name sector load) table host =
      (.error (.capacityExceeded .openTableFull), table,
        { host with log := host.log ++ [.tableFull capacity] })
  /-- A sector that is not bound gets the lowest free handle, unless its file fails to load. -/
  binds {sector : UInt32} {handle : Nat} (_ : table.Unbound sector) (_ : table.LowestFree handle)
    (name : String) (load : Operation File) (host : Host) :
    step (.openFile name sector load) table host = match load.run host with
      | (.error error, loaded) => (.error error, table, loaded)
      | (.ok file, loaded) =>
        (.ok (.handle handle), table.set handle (some ⟨sector, keptName name, 0, file⟩),
          { loaded with log := loaded.log ++ [.opened name handle sector] })
  rejects {handle : Nat} (_ : table.get? handle = none) (call : HandleCall) (host : Host) :
    step (.onHandle handle call) table host = (.error (.invalidHandle handle), table,
      { host with log := host.log ++ [.badHandle handle call] })
  accepts {handle : Nat} {opened : OpenFile} (_ : table.get? handle = some opened)
    (call : HandleCall) (host : Host) (other : Nat) :
    (step (.onHandle handle call) table host).1 ≠ .error (.invalidHandle other)
  /-- A call on an open file fails where the device does and changes nothing, or its answer tells
  what is in its slot. -/
  serves {handle : Nat} {opened : OpenFile} (_ : table.get? handle = some opened)
    (call : HandleCall) (host : Host) :
    (∃ error, (step (.onHandle handle call) table host).1 = .error error ∧
        error.isDeviceFailure = true ∧
        (step (.onHandle handle call) table host).2.1 = table) ∨
      ∃ reply slot, (step (.onHandle handle call) table host).1 = .ok (.ofHandle reply) ∧
        opened.Leaves call reply slot ∧
        (step (.onHandle handle call) table host).2.1 = table.set handle slot
  /-- On a device that works it is answered. -/
  works {handle : Nat} {opened : OpenFile} {host : Host} (_ : table.get? handle = some opened)
    (_ : host.device.faults = {}) (_ : opened.file.OnDevice host.device) (call : HandleCall) :
    ∃ log, step (.onHandle handle call) table host =
      (.ok (.ofHandle (opened.replyTo host.device call)), table.set handle (opened.slotAfter call),
        ⟨host.device.edit (opened.editsOf host.device call), log⟩)
  /-- A call on a handle concerns no other slot. -/
  others {handle other : Nat} (_ : other ≠ handle) (call : HandleCall) (host : Host) :
    (step (.onHandle handle call) table host).2.1.get? other = table.get? other
  closesAll (host : Host) : ∃ log, step .closeAll table host =
    (.ok (.number table.size), empty capacity, { host with log })
  /-- A handle stays bound to its sector and file until it is closed. -/
  retains {handle : Nat} {opened : OpenFile} (_ : table.get? handle = some opened)
    {calls : List TableCall} (_ : ∀ call ∈ calls, ¬ call.Frees handle) (host : Host) :
    ∃ cursor, (run calls table host).2.1.get? handle = some { opened with cursor }

/-- A table that comes from any calls on an empty one obeys all these laws. -/
theorem lawful_run (capacity : Nat) (calls : List TableCall) (host : Host) :
    (run calls (empty capacity) host).2.1.Lawful capacity := by
  have hd := distinct_run calls (distinct_empty capacity) host
  have hcapacity : (run calls (empty capacity) host).2.1.capacity = capacity := by
    rw [capacity_run]
    simp [OpenTable.capacity, empty]
  refine ⟨hcapacity, hd, hd.size_eq_card, ?_, ?_, ?_, ?_, ?_, ?_, ?_, ?_, ?_, ?_⟩
  · intro handle opened hget name load
    exact step_openFile_of_bound (handleOf?_of_distinct hd hget) name load
  · intro sector hsector hvalid name load host
    have hfree := firstFree?_eq_none fun handle hlt ↦ hvalid handle (hcapacity ▸ hlt)
    rw [step_openFile_of_full (handleOf?_eq_none_iff.2 hsector) hfree, hcapacity]
  · intro sector handle hsector hfree
    exact step_openFile_of_free (handleOf?_eq_none_iff.2 hsector) (firstFree?_eq_some_iff.2 hfree)
  · exact step_onHandle_of_free
  · intro handle opened hget call host other
    exact step_onHandle_ne_invalidHandle hget call host other
  · exact step_onHandle_cases
  · intro handle opened host hget hf hon call
    exact step_onHandle_eq hget hf hon call
  · intro handle other hne call
    exact get?_step_onHandle_of_ne hne call _
  · intro host
    exact ⟨_, hcapacity ▸ step_closeAll _ host⟩
  · intro handle opened hget calls hcalls
    exact retains_run hcalls hget

end OpenTable

end SectorFS
