import ClockControl.Event

/-! Actions: computations that change a state, leave a trace and may fail. A failed action
keeps the state and the trace that it had reached. The trace holds, for each event, the
state in which it happened, so that orderings and conditions at an event can be stated. -/
namespace ClockControl

/-- An event and the state just before it. -/
structure Moment (σ : Type) where
  before : σ
  event : Event

structure Run (σ α : Type) where
  outcome : Attempt α
  after : σ
  trace : List (Moment σ)

structure Action (σ α : Type) where
  run : σ → Run σ α

namespace Run

def events (r : Run σ α) : List Event := r.trace.map Moment.event

/-- The run seen as one over a larger or smaller state. -/
def mapState (f : σ → τ) (r : Run σ α) : Run τ α :=
  ⟨r.outcome, f r.after, r.trace.map fun m => ⟨f m.before, m.event⟩⟩

end Run

namespace Action

@[ext] theorem ext {a b : Action σ α} (h : ∀ s, a.run s = b.run s) : a = b := by
  cases a
  cases b
  congr
  exact funext h

protected def pure (x : α) : Action σ α := ⟨fun s => ⟨.ok x, s, []⟩⟩

protected def bind (a : Action σ α) (f : α → Action σ β) : Action σ β := ⟨fun s =>
  match a.run s with
  | ⟨.ok x, s', trace⟩ =>
    let r := (f x).run s'
    ⟨r.outcome, r.after, trace ++ r.trace⟩
  | ⟨.error e, s', trace⟩ => ⟨.error e, s', trace⟩⟩

instance : Monad (Action σ) where
  pure := Action.pure
  bind := Action.bind

/-- Answer with the state. -/
def state : Action σ σ := ⟨fun s => ⟨.ok s, s, []⟩⟩

/-- Change the state, which no one sees. -/
def update (f : σ → σ) : Action σ Unit := ⟨fun s => ⟨.ok (), f s, []⟩⟩

def emit (e : Event) : Action σ Unit := ⟨fun s => ⟨.ok (), s, [⟨s, e⟩]⟩⟩

def note (n : Note) : Action σ Unit := emit (.note n)

def ofAttempt (x : Attempt α) : Action σ α := ⟨fun s => ⟨x, s, []⟩⟩

def fail (f : Failure) : Action σ α := ofAttempt (.error f)

def refuse (reason : Reason) : Action σ α := ofAttempt (.refuse reason)

instance : MonadLift Attempt (Action σ) := ⟨ofAttempt⟩

/-- Go on with the outcome, whatever it is. -/
def attempt (a : Action σ α) : Action σ (Attempt α) := ⟨fun s =>
  let r := a.run s
  ⟨.ok r.outcome, r.after, r.trace⟩⟩

/-- An action on a part of the state: `view` finds the part and `update` puts it back. -/
def zoom (view : σ → τ) (update : σ → τ → σ) (a : Action τ α) : Action σ α := ⟨fun s =>
  (a.run (view s)).mapState (update s)⟩

/-- The action so many times over. -/
def repeated (a : Action σ Unit) : Nat → Action σ Unit
  | 0 => Action.pure ()
  | n + 1 => Action.bind a fun _ => a.repeated n

@[simp] theorem run_pure (x : α) (s : σ) : (pure x : Action σ α).run s = ⟨.ok x, s, []⟩ := rfl

theorem run_bind (a : Action σ α) (f : α → Action σ β) (s : σ) :
    (a >>= f).run s =
      match a.run s with
      | ⟨.ok x, s', trace⟩ =>
        ⟨((f x).run s').outcome, ((f x).run s').after, trace ++ ((f x).run s').trace⟩
      | ⟨.error e, s', trace⟩ => ⟨.error e, s', trace⟩ := rfl

theorem run_bind_ok {a : Action σ α} {f : α → Action σ β} {s s' : σ} {x : α}
    {trace : List (Moment σ)} (h : a.run s = ⟨.ok x, s', trace⟩) :
    (a >>= f).run s =
      ⟨((f x).run s').outcome, ((f x).run s').after, trace ++ ((f x).run s').trace⟩ := by
  rw [run_bind, h]

/-- A step that shows nothing leaves no mark on the run. -/
theorem run_bind_quiet {a : Action σ α} {f : α → Action σ β} {s s' : σ} {x : α}
    (h : a.run s = ⟨.ok x, s', []⟩) : (a >>= f).run s = (f x).run s' := by
  rw [run_bind_ok h, List.nil_append]

theorem run_bind_error {a : Action σ α} {f : α → Action σ β} {s s' : σ} {e : Failure}
    {trace : List (Moment σ)} (h : a.run s = ⟨.error e, s', trace⟩) :
    (a >>= f).run s = ⟨.error e, s', trace⟩ := by
  rw [run_bind, h]

theorem outcome_bind_error {a : Action σ α} {f : α → Action σ β} {s : σ} {e : Failure}
    (h : (a.run s).outcome = .error e) : ((a >>= f).run s).outcome = .error e := by
  rw [run_bind]
  rcases hr : a.run s with ⟨_ | x, s', trace⟩ <;> rw [hr] at h <;> cases h
  rfl

instance : LawfulMonad (Action σ) := .mk' _
  (fun a => by
    ext s
    show ((a >>= fun x => pure x) : Action σ _).run s = _
    rw [run_bind]
    rcases a.run s with ⟨_ | _, _, _⟩ <;> simp)
  (fun x f => by
    ext s
    simp [run_bind])
  (fun a f g => by
    ext s
    simp only [run_bind]
    rcases a.run s with ⟨_ | x, s', _⟩
    · rfl
    · simp only
      rcases (f x).run s' with ⟨_ | _, _, _⟩
      · rfl
      · simp only [List.append_assoc])

theorem run_map (f : α → β) (a : Action σ α) (s : σ) :
    (f <$> a).run s = ⟨(a.run s).outcome.map f, (a.run s).after, (a.run s).trace⟩ := by
  rw [← bind_pure_comp, run_bind]
  rcases a.run s with ⟨_ | _, _, _⟩
  · rfl
  · simp [Except.map]

@[simp] theorem run_state (s : σ) : (state : Action σ σ).run s = ⟨.ok s, s, []⟩ := rfl

@[simp] theorem run_update (f : σ → σ) (s : σ) : (update f).run s = ⟨.ok (), f s, []⟩ := rfl

@[simp] theorem run_emit (e : Event) (s : σ) : (emit e).run s = ⟨.ok (), s, [⟨s, e⟩]⟩ := rfl

@[simp] theorem run_ofAttempt (x : Attempt α) (s : σ) :
    (ofAttempt x : Action σ α).run s = ⟨x, s, []⟩ := rfl

@[simp] theorem run_liftM (x : Attempt α) (s : σ) :
    (liftM x : Action σ α).run s = ⟨x, s, []⟩ := rfl

@[simp] theorem run_attempt (a : Action σ α) (s : σ) :
    a.attempt.run s = ⟨.ok (a.run s).outcome, (a.run s).after, (a.run s).trace⟩ := rfl

@[simp] theorem run_zoom (view : σ → τ) (update : σ → τ → σ) (a : Action τ α) (s : σ) :
    (zoom view update a).run s = (a.run (view s)).mapState (update s) := rfl

end Action
end ClockControl
