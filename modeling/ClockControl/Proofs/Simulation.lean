import ClockControl.Action

/-! Actions that go the same way on different states. `Parallel` relates two runs that have the same
outcome, end in related states and show the same, as far as it does not matter how the PMU is
reached. The rules say how parallel actions are put together. -/
namespace ClockControl

/-- A store outside the bridge, or a wait. Cycles of the PMU and notes do not count. -/
def Event.Plain : Event → Bool
  | .store r _ => r ≠ .bridgeControl
  | .wait _ | .spin _ _ => true
  | .cycle _ _ _ | .note _ => false

theorem Event.not_plain_of_note {e : Event} (h : ∃ n, e = .note n) : e.Plain = false := by
  obtain ⟨n, rfl⟩ := h
  rfl

theorem plain_eq_nil {trace : List (Moment σ)} (h : ∀ m ∈ trace, m.event.Plain = false) :
    (trace.map Moment.event).filter Event.Plain = [] := by
  rw [List.filter_eq_nil_iff]
  intro event he
  obtain ⟨m, hm, rfl⟩ := List.mem_map.1 he
  rw [h m hm]
  exact Bool.false_ne_true

/-- Two runs that differ in nothing but states which `R` relates, and events that are not plain. -/
structure Run.Parallel (R : σ → τ → Prop) (r : Run σ α) (r' : Run τ α) : Prop where
  outcome : r'.outcome = r.outcome
  after : R r.after r'.after
  events : r'.events.filter Event.Plain = r.events.filter Event.Plain

/-- Begun in related states, the two actions have parallel runs. -/
def Action.Parallel (R : σ → τ → Prop) (a : Action σ α) (a' : Action τ α) : Prop :=
  ∀ s s', R s s' → (a.run s).Parallel R (a'.run s')

variable {R : σ → τ → Prop}

theorem Run.Parallel.bind {a : Action σ α} {a' : Action τ α} {f : α → Action σ β}
    {f' : α → Action τ β} {s : σ} {s' : τ} (first : (a.run s).Parallel R (a'.run s'))
    (rest : ∀ x, (f x).Parallel R (f' x)) : ((a >>= f).run s).Parallel R ((a' >>= f').run s') := by
  rcases h : a.run s with ⟨e | x, t, trace⟩ <;> rcases h' : a'.run s' with ⟨e' | x', t', trace'⟩
  all_goals
    rw [h, h'] at first
    obtain ⟨outcome, after, events⟩ := first
    cases outcome
  · rw [Action.run_bind_error h, Action.run_bind_error h']
    exact ⟨rfl, after, events⟩
  · obtain ⟨outcome, after, later⟩ := rest x t t' after
    rw [Action.run_bind_ok h, Action.run_bind_ok h']
    refine ⟨outcome, after, ?_⟩
    simp only [Run.events, List.map_append, List.filter_append] at events later ⊢
    rw [events, later]

/-- Runs seen from larger states are as parallel as before. -/
theorem Run.Parallel.mapState {S : σ' → τ' → Prop} {r : Run σ α} {r' : Run τ α} {f : σ → σ'}
    {f' : τ → τ'} (h : r.Parallel R r') (after : ∀ s s', R s s' → S (f s) (f' s')) :
    (r.mapState f).Parallel S (r'.mapState f') := by
  have events {σ σ' : Type} (f : σ → σ') (r : Run σ α) : (r.mapState f).events = r.events := by
    simp only [Run.mapState, Run.events, List.map_map, Function.comp_def]
  refine ⟨h.outcome, after _ _ h.after, ?_⟩
  rw [events, events]
  exact h.events

namespace Action.Parallel

theorem pure (x : α) : (pure x : Action σ α).Parallel R (Pure.pure x : Action τ α) :=
  fun _ _ h => ⟨rfl, h, rfl⟩

theorem ofAttempt (x : Attempt α) :
    (ofAttempt x : Action σ α).Parallel R (Action.ofAttempt x : Action τ α) :=
  fun _ _ h => ⟨rfl, h, rfl⟩

theorem lift (x : Attempt α) : (liftM x : Action σ α).Parallel R (liftM x : Action τ α) :=
  ofAttempt x

theorem note (n n' : Note) : (note n : Action σ Unit).Parallel R (Action.note n' : Action τ Unit) :=
  fun _ _ h => ⟨rfl, h, rfl⟩

theorem update {f : σ → σ} {f' : τ → τ} (h : ∀ s s', R s s' → R (f s) (f' s')) :
    (update f).Parallel R (Action.update f') :=
  fun s s' hs => ⟨rfl, h s s' hs, rfl⟩

theorem bind {a : Action σ α} {a' : Action τ α} {f : α → Action σ β} {f' : α → Action τ β}
    (ha : a.Parallel R a') (hf : ∀ x, (f x).Parallel R (f' x)) :
    (a >>= f).Parallel R (a' >>= f') :=
  fun s s' h => (ha s s' h).bind hf

/-- What is done with the states may differ as they do. -/
theorem state {f : σ → Action σ α} {f' : τ → Action τ α}
    (h : ∀ s s', R s s' → ((f s).run s).Parallel R ((f' s').run s')) :
    (state >>= f).Parallel R (Action.state >>= f') := by
  intro s s' hs
  rw [run_bind_quiet (run_state s), run_bind_quiet (run_state s')]
  exact h s s' hs

theorem ite {c : Prop} [Decidable c] {a b : Action σ α} {a' b' : Action τ α}
    (ha : a.Parallel R a') (hb : b.Parallel R b') :
    (if c then a else b).Parallel R (if c then a' else b') := by
  split
  · exact ha
  · exact hb

theorem mapM {f : α → Action σ β} {f' : α → Action τ β} (h : ∀ x, (f x).Parallel R (f' x))
    (xs : List α) : (xs.mapM f).Parallel R (xs.mapM f') := by
  induction xs with
  | nil => exact pure []
  | cons x xs ih =>
    rw [List.mapM_cons, List.mapM_cons]
    exact bind (h x) fun y => bind ih fun ys => pure (y :: ys)

theorem repeated {a : Action σ Unit} {a' : Action τ Unit} (h : a.Parallel R a') (n : Nat) :
    (a.repeated n).Parallel R (a'.repeated n) := by
  induction n with
  | zero => exact pure ()
  | succ n ih => exact bind h fun _ => ih

/-- An action on a part, where related states have related parts. -/
theorem zoom {S : σ' → τ' → Prop} {a : Action σ α} {a' : Action τ α} {view : σ' → σ}
    {view' : τ' → τ} {put : σ' → σ → σ'} {put' : τ' → τ → τ'} (h : a.Parallel R a')
    (viewed : ∀ t t', S t t' → R (view t) (view' t'))
    (replaced : ∀ t t', S t t' → ∀ s s', R s s' → S (put t s) (put' t' s')) :
    (a.zoom view put).Parallel S (a'.zoom view' put') :=
  fun t t' ht => (h _ _ (viewed t t' ht)).mapState (replaced t t' ht)

end Action.Parallel
end ClockControl
