import SectorFS.Proofs.Guarded
import SectorFS.Proofs.Operation

namespace SectorFS

inductive Program (α : Type)
  | done (a : α)
  | fail (error : Error)
  | trap (cause : Trap)
  | note (events : List Event) (next : Program α)
  | read (sector : UInt32) (next : Except Error Block → Program α)
  | write (sector : UInt32) (block : Block) (next : Except Error Unit → Program α)
  | flush (next : Except Error Unit → Program α)
  | geometry (next : Nat → Nat → Program α)

namespace Program

variable {α β : Type}

def handle (onDone : α → Program β) (onFail : Error → Program β) : Program α → Program β
  | done a => onDone a
  | fail error => onFail error
  | trap cause => trap cause
  | note events next => note events (next.handle onDone onFail)
  | read sector next => read sector fun answer ↦ (next answer).handle onDone onFail
  | write sector block next => write sector block fun answer ↦ (next answer).handle onDone onFail
  | flush next => flush fun answer ↦ (next answer).handle onDone onFail
  | geometry next => geometry fun count size ↦ (next count size).handle onDone onFail

instance : Monad Program where
  pure := done
  bind program f := program.handle f fail

theorem handle_done (program : Program α) : program.handle done fail = program := by
  induction program with
  | done a => rfl
  | fail error => rfl
  | trap cause => rfl
  | note events next ih => exact congrArg _ ih
  | read sector next ih | write sector block next ih | flush next ih => exact congrArg _ (funext ih)
  | geometry next ih => exact congrArg _ (funext fun count ↦ funext (ih count))

theorem bind_assoc' {γ : Type} (program : Program α) (f : α → Program β) (g : β → Program γ) :
    program >>= f >>= g = program >>= fun a ↦ f a >>= g := by
  induction program with
  | done a => rfl
  | fail error => rfl
  | trap cause => rfl
  | note events next ih => exact congrArg _ ih
  | read sector next ih | write sector block next ih | flush next ih => exact congrArg _ (funext ih)
  | geometry next ih => exact congrArg _ (funext fun count ↦ funext (ih count))

instance : LawfulMonad Program :=
  LawfulMonad.mk' Program handle_done (fun _ _ ↦ rfl) bind_assoc'

def noteFailure (event : Error → Event) (program : Program α) : Program α :=
  program.handle done fun error ↦ note [event error] (fail error)

def attempt (program : Program α) : Program (Except Error α) :=
  program.handle (fun a ↦ done (.ok a)) fun error ↦ done (.error error)

def ofGuarded : Guarded α → Program α
  | .ok a => done a
  | .error cause => trap cause

def ofExcept : Except Error α → Program α
  | .ok a => done a
  | .error error => fail error

instance : MonadLift Guarded Program := ⟨ofGuarded⟩

instance : MonadLift (Except Error) Program := ⟨ofExcept⟩

def readSector (sector : UInt32) : Program Block := read sector ofExcept

def writeSector (sector : UInt32) (block : Block) : Program Unit := write sector block ofExcept

def flushDevice : Program Unit := flush ofExcept

def say (events : List Event) : Program Unit := note events (done ())

/-- Whatever the device answers, the program runs into no trap, and a value that it ends with is as
it should be. -/
def Safe (post : α → Prop) : Program α → Prop
  | done a => post a
  | fail _ => True
  | trap _ => False
  | note _ next => next.Safe post
  | read _ next => ∀ answer, (next answer).Safe post
  | write _ _ next => ∀ answer, (next answer).Safe post
  | flush next => ∀ answer, (next answer).Safe post
  | geometry next => ∀ count size, (next count size).Safe post

def run : Program α → Host → Guarded (Except Error α × Host)
  | done a, host => .ok (.ok a, host)
  | fail error, host => .ok (.error error, host)
  | trap cause, _ => .error cause
  | note events next, host => next.run { host with log := host.log ++ events }
  | read sector next, host => (next (host.device.read sector)).run host
  | write sector block next, host =>
    let (answer, device) := (Action.write sector block).run host.device
    (next answer).run { host with device }
  | flush next, host =>
    let (answer, device) := Action.flush.run host.device
    (next answer).run { host with device }
  | geometry next, host =>
    (next host.device.sectorCount host.device.bytesPerSector).run host

variable {post : α → Prop} {post' : β → Prop} {program : Program α} {f : α → Program β}

theorem Safe.handle {onDone : α → Program β} {onFail : Error → Program β} (h : program.Safe post)
    (hdone : ∀ a, post a → (onDone a).Safe post') (hfail : ∀ error, (onFail error).Safe post') :
    (program.handle onDone onFail).Safe post' := by
  induction program with
  | done a => exact hdone a h
  | fail error => exact hfail error
  | trap cause => exact h.elim
  | note events next ih => exact ih h
  | read sector next ih | write sector block next ih | flush next ih =>
    exact fun answer ↦ ih answer (h answer)
  | geometry next ih => exact fun count size ↦ ih count size (h count size)

theorem Safe.bind (h : program.Safe post) (h' : ∀ a, post a → (f a).Safe post') :
    (program >>= f).Safe post' :=
  h.handle h' fun _ ↦ trivial

theorem Safe.mono {weaker : α → Prop} (h : program.Safe post) (h' : ∀ a, post a → weaker a) :
    program.Safe weaker := by
  rw [← program.handle_done]
  exact h.handle h' fun _ ↦ trivial

theorem run_handle (program : Program α) (onDone : α → Program β) (onFail : Error → Program β)
    (host : Host) : (program.handle onDone onFail).run host = match program.run host with
      | .ok (.ok a, after) => (onDone a).run after
      | .ok (.error error, after) => (onFail error).run after
      | .error cause => .error cause := by
  induction program generalizing host with
  | done a => rfl
  | fail error => rfl
  | trap cause => rfl
  | note events next ih => exact ih _
  | read sector next ih | write sector block next ih | flush next ih => exact ih _ _
  | geometry next ih => exact ih _ _ _

theorem Safe.of_run {host after : Host} {a : α} (h : program.Safe post)
    (hrun : program.run host = .ok (.ok a, after)) : post a := by
  induction program generalizing host with
  | done b =>
    cases hrun
    exact h
  | fail error | trap cause => cases hrun
  | note events next ih => exact ih h hrun
  | read sector next ih | write sector block next ih | flush next ih => exact ih _ (h _) hrun
  | geometry next ih => exact ih _ _ (h _ _) hrun

theorem guarded_bind {g : Guarded α} {a : α} (h : g = .ok a) (f : α → Program β) :
    ((liftM g : Program α) >>= f) = f a := by
  rw [h]
  rfl

theorem except_bind {e : Except Error α} {a : α} (h : e = .ok a) (f : α → Program β) :
    ((liftM e : Program α) >>= f) = f a := by
  rw [h]
  rfl

theorem safe_ofExcept {e : Except Error α} (h : ∀ a, e = .ok a → post a) :
    (ofExcept e).Safe post := by
  cases e with
  | error error => trivial
  | ok a => exact h a rfl

theorem run_ofExcept (e : Except Error α) (host : Host) : (ofExcept e).run host = .ok (e, host) := by
  cases e <;> rfl

structure Follows (program : Program α) (operation : Operation α) (post : α → Prop) : Prop where
  safe : program.Safe post
  run : ∀ host, program.run host = .ok (operation.run host)

open Operation

theorem follows_pure {a : α} (h : post a) : (pure a : Program α).Follows (pure a) post :=
  ⟨h, fun _ ↦ rfl⟩

theorem follows_fail (error : Error) : (fail error : Program α).Follows (throw error) post :=
  ⟨trivial, fun _ ↦ rfl⟩

theorem follows_say (events : List Event) : (say events).Follows (notes events) fun _ ↦ True :=
  ⟨trivial, fun _ ↦ rfl⟩

theorem follows_except {e : Except Error α} (h : ∀ a, e = .ok a → post a) :
    (liftM e : Program α).Follows (query fun _ ↦ e) post :=
  ⟨safe_ofExcept h, run_ofExcept e⟩

theorem follows_readSector (sector : UInt32) :
    (readSector sector).Follows (query (·.read sector)) fun _ ↦ True :=
  ⟨fun _ ↦ safe_ofExcept fun _ _ ↦ trivial, fun _ ↦ run_ofExcept _ _⟩

theorem follows_writeSector (sector : UInt32) (block : Block) :
    (writeSector sector block).Follows (act (Action.write sector block)) fun _ ↦ True :=
  ⟨fun _ ↦ safe_ofExcept fun _ _ ↦ trivial, fun _ ↦ run_ofExcept _ _⟩

theorem follows_flush : flushDevice.Follows (act Action.flush) fun _ ↦ True :=
  ⟨fun _ ↦ safe_ofExcept fun _ _ ↦ trivial, fun _ ↦ run_ofExcept _ _⟩

namespace Follows

variable {operation : Operation α} {g : α → Operation β}

theorem mono {weaker : α → Prop} (h : program.Follows operation post)
    (h' : ∀ a, post a → weaker a) : program.Follows operation weaker :=
  ⟨h.safe.mono h', h.run⟩

theorem bind (h : program.Follows operation post)
    (h' : ∀ a, post a → (f a).Follows (g a) post') :
    (program >>= f).Follows (operation >>= g) post' := by
  refine ⟨h.safe.bind fun a ha ↦ (h' a ha).safe, fun host ↦ ?_⟩
  have hrun := h.run host
  rw [show (program >>= f) = program.handle f fail from rfl, run_handle, hrun, SectorFS.run_bind]
  cases hoperation : operation.run host with
  | mk outcome after =>
    cases outcome with
    | error error => rfl
    | ok a => exact (h' a (h.safe.of_run (hrun.trans (congrArg _ hoperation)))).run after

theorem noteFailure (h : program.Follows operation post) (event : Error → Event) :
    (program.noteFailure event).Follows (operation.noteFailure event) post := by
  refine ⟨h.safe.handle (fun _ ↦ id) fun _ ↦ trivial, fun host ↦ ?_⟩
  rw [Program.noteFailure, run_handle, h.run, Operation.run_noteFailure]
  cases operation.run host with
  | mk outcome after => cases outcome <;> rfl

end Follows

/-- The program answers a question as the device does, and leaves it alone. -/
abbrev Asks (program : Program α) (ask : Device → Except Error α) (post : α → Prop) : Prop :=
  program.Follows (query ask) post

theorem asks_pure {a : α} (h : post a) : (pure a : Program α).Asks (fun _ ↦ .ok a) post :=
  ⟨h, fun _ ↦ rfl⟩

theorem asks_fail (error : Error) : (fail error : Program α).Asks (fun _ ↦ .error error) post :=
  ⟨trivial, fun _ ↦ rfl⟩

theorem Asks.bind {ask : Device → Except Error α} {ask' : α → Device → Except Error β}
    (h : program.Asks ask post) (h' : ∀ a, post a → (f a).Asks (ask' a) post') :
    (program >>= f).Asks (fun device ↦ ask device >>= fun a ↦ ask' a device) post' := by
  refine ⟨h.safe.bind fun a ha ↦ (h' a ha).safe, fun host ↦ ?_⟩
  have hrun := h.run host
  rw [Operation.run_query] at hrun ⊢
  rw [show (program >>= f) = program.handle f fail from rfl, run_handle, hrun]
  cases hask : ask host.device with
  | error error => rfl
  | ok a => exact (h' a (h.safe.of_run (hask ▸ hrun))).run host

abbrev Acts (program : Program α) (action : Action α) (post : α → Prop) : Prop :=
  program.Follows (act action) post

theorem Follows.acts {ask : Device → Except Error α} (h : program.Asks ask post) :
    program.Acts (Action.query ask) post :=
  ⟨h.safe, h.run⟩

theorem acts_pure {a : α} (h : post a) : (pure a : Program α).Acts (pure a) post :=
  ⟨h, fun _ ↦ rfl⟩

theorem acts_fail (error : Error) : (fail error : Program α).Acts (throw error) post :=
  ⟨trivial, fun _ ↦ rfl⟩

theorem Acts.bind {action : Action α} {next : α → Action β} (h : program.Acts action post)
    (h' : ∀ a, post a → (f a).Acts (next a) post') :
    (program >>= f).Acts (action >>= next) post' := by
  refine ⟨h.safe.bind fun a ha ↦ (h' a ha).safe, fun host ↦ ?_⟩
  have hrun := h.run host
  rw [Operation.run_act] at hrun ⊢
  rw [show (program >>= f) = program.handle f fail from rfl, run_handle, hrun, SectorFS.run_bind]
  cases haction : action.run host.device with
  | mk outcome device =>
    cases outcome with
    | error error => rfl
    | ok a =>
      rw [haction] at hrun
      exact (h' a (h.safe.of_run hrun)).run _

end Program

end SectorFS
