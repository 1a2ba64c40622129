import SectorFS.Proofs.Guarded

namespace SectorFS

variable {ρ σ τ α β : Type}

/-- A computation that changes a state in place, and may fail or trap on the way. -/
abbrev InPlace (σ : Type) := ExceptT Error (StateT σ Guarded)

/-- How a change is answered, and what it leaves: the changed state or, if it fails, the old one. -/
def changed (reply : α) (s : σ) : Except Error σ → Except Error α × σ
  | .ok next => (.ok reply, next)
  | .error error => (.error error, s)

theorem changed_map (reply : α) (view : σ → τ) (s : σ) (result : Except Error σ) :
    changed reply (view s) (result.map view) =
      ((changed reply s result).1, view (changed reply s result).2) := by
  cases result <;> rfl

def inTurn (step : ρ → σ → Except Error α × σ) : List ρ → σ → List (Except Error α) × σ
  | [], s => ([], s)
  | request :: rest, s =>
    let (outcome, next) := step request s
    let (outcomes, last) := inTurn step rest next
    (outcome :: outcomes, last)

inductive Obeyed (rule : σ → ρ → Except Error α → σ → Prop) :
    σ → List ρ → List (Except Error α) → σ → Prop
  | nil (s : σ) : Obeyed rule s [] [] s
  | cons {s next last : σ} {request : ρ} {rest : List ρ} {outcome : Except Error α}
      {outcomes : List (Except Error α)} (first : rule s request outcome next)
      (more : Obeyed rule next rest outcomes last) :
      Obeyed rule s (request :: rest) (outcome :: outcomes) last

namespace InPlace

def exec (x : InPlace σ α) (s : σ) : Guarded (Except Error α × σ) := (ExceptT.run x).run s

def onSecond (x : InPlace τ α) : InPlace (σ × τ) α :=
  ExceptT.mk fun (s, t) ↦ do
    let (outcome, next) ← x.exec t
    return (outcome, (s, next))

def calls (call : ρ → InPlace σ α) : List ρ → σ → Guarded (List (Except Error α) × σ)
  | [], s => .ok ([], s)
  | request :: rest, s => do
    let (outcome, next) ← (call request).exec s
    let (outcomes, last) ← calls call rest next
    return (outcome :: outcomes, last)

variable {x : InPlace σ α} {f : α → InPlace σ β} {s next : σ} {a : α} {error : Error}

theorem exec_bind_ok (h : x.exec s = .ok (.ok a, next)) : (x >>= f).exec s = (f a).exec next := by
  change (x.exec s >>= _) = _
  rw [h]
  rfl

theorem exec_bind_error (h : x.exec s = .ok (.error error, next)) :
    (x >>= f).exec s = .ok (.error error, next) := by
  change (x.exec s >>= _) = _
  rw [h]
  rfl

theorem exec_changed {change : InPlace σ Unit} {result : Except Error σ}
    (h : change.exec s = .ok (changed () s result)) (reply : α) :
    (do change; return reply : InPlace σ α).exec s = .ok (changed reply s result) := by
  cases result with
  | error error => exact exec_bind_error h
  | ok next => exact exec_bind_ok h

theorem exec_get_bind (f : σ → InPlace σ β) (s : σ) : (get >>= f).exec s = (f s).exec s := rfl

theorem exec_guarded {g : Guarded α} (h : g = .ok a) :
    (liftM g >>= f : InPlace σ β).exec s = (f a).exec s := by
  rw [h]
  rfl

theorem exec_onSecond {y : InPlace τ α} {t next : τ} {outcome : Except Error α}
    (h : y.exec t = .ok (outcome, next)) (s : σ) :
    (onSecond y).exec (s, t) = .ok (outcome, (s, next)) := by
  change (y.exec t >>= _) = _
  rw [h]
  rfl

end InPlace

variable {step : ρ → σ → Except Error α × σ}

/-- Calls in place that each do what a step does are steps in a row. -/
theorem InPlace.calls_eq {call : ρ → InPlace τ α} {view : σ → τ}
    (h : ∀ request s, (call request).exec (view s) =
      .ok ((step request s).1, view (step request s).2)) (requests : List ρ) (s : σ) :
    calls call requests (view s) =
      .ok ((inTurn step requests s).1, view (inTurn step requests s).2) := by
  induction requests generalizing s with
  | nil => rfl
  | cons request rest ih =>
    rw [calls, h, Guarded.ok_bind]
    dsimp only
    rw [ih, Guarded.ok_bind]
    rfl

/-- A rule that every step obeys is obeyed by steps in a row. -/
theorem obeyed_inTurn {inv : σ → Prop} {view : σ → τ} {rule : τ → ρ → Except Error α → τ → Prop}
    (h : ∀ request s, inv s →
      rule (view s) request (step request s).1 (view (step request s).2) ∧ inv (step request s).2)
    (requests : List ρ) {s : σ} (hs : inv s) :
    Obeyed rule (view s) requests (inTurn step requests s).1 (view (inTurn step requests s).2) ∧
      inv (inTurn step requests s).2 := by
  induction requests generalizing s with
  | nil => exact ⟨.nil _, hs⟩
  | cons request rest ih =>
    obtain ⟨hrule, hnext⟩ := h request s hs
    obtain ⟨hmore, hlast⟩ := ih hnext
    exact ⟨.cons hrule hmore, hlast⟩

end SectorFS
