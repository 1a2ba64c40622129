import SectorFS.Span

/-!
What an action leaves on a device, however the device fails. Each action of this library writes a
list of blocks in order; a failing device cuts that list short, and nothing else can happen to the
blocks (`Action.CarriesOut`).
-/

namespace SectorFS

section Runs

variable {ε σ α β : Type} {x : ExceptT ε (StateM σ) α} {f : α → ExceptT ε (StateM σ) β}

theorem run_bind (x : ExceptT ε (StateM σ) α) (f : α → ExceptT ε (StateM σ) β) (s : σ) :
    (x >>= f).run s = match x.run s with
      | (.ok a, t) => (f a).run t
      | (.error e, t) => (.error e, t) := by
  change (ExceptT.bindCont f (x.run s).1).run (x.run s).2 = _
  cases h : x.run s with
  | mk outcome t => cases outcome <;> rfl

theorem run_bind_of_ok {s t : σ} {a : α} (h : x.run s = (.ok a, t)) :
    (x >>= f).run s = (f a).run t := by
  rw [run_bind, h]

theorem run_bind_of_error {s t : σ} {e : ε} (h : x.run s = (.error e, t)) :
    (x >>= f).run s = (.error e, t) := by
  rw [run_bind, h]

theorem bind_eq_ok {x : Except ε α} {f : α → Except ε β} {b : β} :
    (x >>= f) = .ok b ↔ ∃ a, x = .ok a ∧ f a = .ok b := by
  cases x with
  | error e => exact ⟨nofun, nofun⟩
  | ok a => exact ⟨fun h ↦ ⟨a, rfl, h⟩, fun ⟨_, ha, h⟩ ↦ Except.ok.inj ha ▸ h⟩

theorem map_eq_ok {x : Except ε α} {f : α → β} {b : β} :
    x.map f = .ok b ↔ ∃ a, x = .ok a ∧ f a = b := by
  cases x with
  | error e => exact ⟨nofun, nofun⟩
  | ok a => exact ⟨fun h ↦ ⟨a, rfl, Except.ok.inj h⟩, fun ⟨_, ha, h⟩ ↦ by cases ha; rw [← h]; rfl⟩

end Runs

abbrev Edit := UInt32 × Block

namespace Device

variable {device after : Device} {s t : UInt32}

/-- The device without its faults: what it stores, apart from how well it is reached. -/
def healed (device : Device) : Device := { device with faults := {} }

def block? (device : Device) (sector : UInt32) : Option Block := device.blocks[sector.toNat]?

def Has (device : Device) (sector : UInt32) : Prop := sector.toNat < device.blocks.size

def edit (device : Device) : List Edit → Device
  | [] => device
  | (sector, block) :: rest => (device.put sector block).edit rest

@[simp] theorem faults_healed (device : Device) : device.healed.faults = {} := rfl

@[simp] theorem block?_healed (device : Device) : device.healed.block? = device.block? := rfl

@[simp] theorem has_healed : device.healed.Has s ↔ device.Has s := Iff.rfl

theorem healed_of_faultFree (h : device.faults = {}) : device.healed = device := by
  cases device
  cases h
  rfl

theorem has_iff : device.Has s ↔ ∃ block, device.block? s = some block :=
  ⟨fun h ↦ ⟨_, Array.getElem?_eq_getElem h⟩, fun ⟨_, h⟩ ↦ (Array.getElem?_eq_some_iff.1 h).1⟩

theorem read_of_faultFree (h : device.faults = {}) (s : UInt32) :
    device.read s = (device.block? s).elim (.error (.invalidSector s)) .ok := by
  unfold read block?
  rw [h]
  cases device.blocks[s.toNat]? <;> rfl

theorem read_eq_ok_iff (h : device.faults = {}) {block : Block} :
    device.read s = .ok block ↔ device.block? s = some block := by
  rw [read_of_faultFree h]
  cases device.block? s <;> simp

theorem read_congr (h : device.faults = {}) (h' : after.faults = {})
    (hs : after.block? s = device.block? s) : after.read s = device.read s := by
  rw [read_of_faultFree h, read_of_faultFree h', hs]

theorem read_healed {block : Block} (h : device.read s = .ok block) :
    device.healed.read s = .ok block := by
  rw [read_eq_ok_iff device.faults_healed, block?_healed]
  unfold read at h
  unfold block?
  cases hb : device.blocks[s.toNat]? with
  | none => rw [hb] at h; contradiction
  | some stored =>
    rw [hb] at h
    dsimp only at h
    split at h
    · contradiction
    · rw [Except.ok.inj h]

theorem block?_put (device : Device) (s t : UInt32) (block : Block) :
    (device.put s block).block? t =
      if s = t then (device.block? t).map fun _ ↦ block else device.block? t := by
  change (device.blocks.setIfInBounds s.toNat block)[t.toNat]? = _
  rw [Array.getElem?_setIfInBounds]
  by_cases h : s = t
  · subst h
    by_cases hlt : s.toNat < device.blocks.size
    · simp [block?, hlt]
    · simp [block?, hlt]
  · rw [if_neg fun hn ↦ h (UInt32.toNat_inj.1 hn), if_neg h]
    rfl

@[simp] theorem size_put (device : Device) (s : UInt32) (block : Block) :
    (device.put s block).blocks.size = device.blocks.size := Array.size_setIfInBounds ..

@[simp] theorem has_put {block : Block} : (device.put s block).Has t ↔ device.Has t := by
  rw [Has, size_put, Has]

theorem faults_put (h : device.faults = {}) (s : UInt32) (block : Block) :
    (device.put s block).faults = {} := by
  change { device.faults with writesLeft := device.faults.writesLeft.map (· - 1) } = _
  rw [h]
  rfl

theorem edit_append (device : Device) (first second : List Edit) :
    device.edit (first ++ second) = (device.edit first).edit second := by
  induction first generalizing device with
  | nil => rfl
  | cons edit rest ih => exact ih _

theorem healed_edit (device : Device) (edits : List Edit) :
    (device.edit edits).healed = device.healed.edit edits := by
  induction edits generalizing device with
  | nil => rfl
  | cons edit rest ih => exact ih _

@[simp] theorem size_edit (device : Device) (edits : List Edit) :
    (device.edit edits).blocks.size = device.blocks.size := by
  induction edits generalizing device with
  | nil => rfl
  | cons edit rest ih => rw [Device.edit, ih, size_put]

@[simp] theorem has_edit {edits : List Edit} : (device.edit edits).Has t ↔ device.Has t := by
  rw [Has, size_edit, Has]

theorem faults_edit (h : device.faults = {}) (edits : List Edit) :
    (device.edit edits).faults = {} := by
  induction edits generalizing device with
  | nil => exact h
  | cons edit rest ih => exact ih (faults_put h _ _)

theorem written_edit (device : Device) (edits : List Edit) :
    (device.edit edits).written = device.written ++ edits.map Prod.fst := by
  induction edits generalizing device with
  | nil => exact (List.append_nil _).symm
  | cons edit rest ih =>
    rw [Device.edit, ih, List.map_cons]
    exact List.append_assoc device.written [edit.1] (rest.map Prod.fst)

theorem blocks_edit_congr (h : after.blocks = device.blocks) (edits : List Edit) :
    (after.edit edits).blocks = (device.edit edits).blocks := by
  induction edits generalizing device after with
  | nil => exact h
  | cons edit rest ih => exact ih (congrArg (·.setIfInBounds edit.1.toNat edit.2) h)

theorem getElem?_blocks_edit {edits : List Edit} {n : Nat} (h : ∀ edit ∈ edits, edit.1.toNat ≠ n) :
    (device.edit edits).blocks[n]? = device.blocks[n]? := by
  induction edits generalizing device with
  | nil => rfl
  | cons edit rest ih =>
    rw [Device.edit, ih fun next hnext ↦ h next (List.mem_cons_of_mem _ hnext)]
    exact Array.getElem?_setIfInBounds_ne (h edit List.mem_cons_self)

theorem block?_edit_of_not_mem {edits : List Edit} (h : t ∉ edits.map Prod.fst) :
    (device.edit edits).block? t = device.block? t := by
  induction edits generalizing device with
  | nil => rfl
  | cons edit rest ih =>
    rw [List.map_cons, List.mem_cons, not_or] at h
    rw [Device.edit, ih h.2, block?_put, if_neg fun hs ↦ h.1 hs.symm]

theorem block?_edit_of_ne {edits : List Edit} (h : ∀ edit ∈ edits, edit.1 ≠ t) :
    (device.edit edits).block? t = device.block? t := by
  apply block?_edit_of_not_mem
  intro hmem
  obtain ⟨edit, hedit, heq⟩ := List.mem_map.1 hmem
  exact h edit hedit heq

end Device

namespace Action

variable {α β : Type} {device : Device} {first second edits : List Edit} {a : α} {b : β}

/-- The action writes the blocks in order and answers `a`. If it fails, the device has failed, and
only the first few blocks are written. -/
def CarriesOut (action : Action α) (device : Device) (edits : List Edit) (a : α) : Prop :=
  action.run device = (.ok a, device.edit edits) ∨
    device.faults ≠ {} ∧ ∃ error, ∃ k < edits.length,
      action.run device = (.error error, device.edit (edits.take k))

theorem CarriesOut.run_of_faultFree {action : Action α} (h : action.CarriesOut device edits a)
    (hf : device.faults = {}) : action.run device = (.ok a, device.edit edits) :=
  h.resolve_right fun hn ↦ hn.1 hf

theorem run_query {ask : Device → Except Error α} {outcome : Except Error α}
    (h : ask device = outcome) : (query ask).run device = (outcome, device) :=
  congrArg (·, device) h

theorem run_flush (hf : device.faults = {}) :
    flush.run device = (.ok (), { device with flushes := device.flushes + 1 }) := by
  have hflush : ¬device.faults.badFlush = true := by
    rw [hf]
    decide
  exact if_neg hflush

theorem carriesOut_pure (device : Device) (a : α) : (pure a : Action α).CarriesOut device [] a :=
  .inl rfl

theorem run_write (s : UInt32) (block : Block) (device : Device) :
    (write s block).run device = match device.refusal? s with
      | some error => (.error error, device)
      | none => (.ok (), device.put s block) := rfl

theorem carriesOut_write {s : UInt32} (h : device.Has s) (block : Block) :
    (write s block).CarriesOut device [(s, block)] () := by
  unfold CarriesOut
  rw [run_write, Device.refusal?, if_neg (Nat.not_le_of_lt h)]
  split
  · next error hr =>
    refine .inr ⟨fun hf ↦ ?_, error, 0, Nat.zero_lt_one, rfl⟩
    rw [hf] at hr
    contradiction
  · exact .inl rfl

theorem CarriesOut.bind {action : Action α} {f : α → Action β}
    (h : action.CarriesOut device first a) (h' : (f a).CarriesOut (device.edit first) second b) :
    (action >>= f).CarriesOut device (first ++ second) b := by
  rcases h with h | ⟨hf, error, k, hk, h⟩
  · rcases h' with h' | ⟨hf, error, k, hk, h'⟩
    · exact .inl (by rw [run_bind_of_ok h, h', Device.edit_append])
    · refine .inr ⟨fun hn ↦ hf (Device.faults_edit hn _), error, first.length + k, ?_, ?_⟩
      · rw [List.length_append]
        omega
      · rw [run_bind_of_ok h, h', List.take_length_add_append, Device.edit_append]
  · refine .inr ⟨hf, error, k, ?_, ?_⟩
    · rw [List.length_append]
      omega
    · rw [run_bind_of_error h, List.take_append_of_le_length (Nat.le_of_lt hk)]

theorem CarriesOut.next {action : Action Unit} {more : Action β}
    (h : action.CarriesOut device first ())
    (h' : more.CarriesOut (device.edit first) second b) :
    (action >>= fun _ ↦ more).CarriesOut device (first ++ second) b :=
  h.bind h'

/-- A question before the first write can only keep the action from writing anything. -/
theorem CarriesOut.query_bind {ask : Device → Except Error α} {f : α → Action β}
    (hask : ask device = .ok a ∨ device.faults ≠ {} ∧ (∃ error, ask device = .error error) ∧ edits ≠ [])
    (h : (f a).CarriesOut device edits b) : (query ask >>= f).CarriesOut device edits b := by
  rcases hask with hask | ⟨hf, ⟨error, hask⟩, hne⟩
  · unfold CarriesOut
    rw [run_bind_of_ok (run_query hask)]
    exact h
  · refine .inr ⟨hf, error, 0, List.length_pos_iff.2 hne, ?_⟩
    rw [run_bind_of_error (run_query hask)]
    rfl

end Action

end SectorFS
