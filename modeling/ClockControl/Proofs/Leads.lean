import ClockControl.Action

/-! Where an action leads. `Leads` takes a statement about what has happened and the state that
it has led to through an action: to one statement for the answer, to another for the failure.
The rules say what it means for each way to build an action. `Preserves` is the special case of a
part of the state that stays as it was. -/
namespace ClockControl

/-- A statement about the moments so far and the state now. -/
abbrev Assertion (σ : Type) := List (Moment σ) → σ → Prop

namespace Action

/-- Begun in `s` after the moments `past`, the action ends in `Q` of its answer or in `E` of
its failure. -/
def Leads (a : Action σ α) (Q : α → Assertion σ) (E : Failure → Assertion σ) : Assertion σ :=
  fun past s =>
    match a.run s with
    | ⟨.ok x, s', trace⟩ => Q x (past ++ trace) s'
    | ⟨.error e, s', trace⟩ => E e (past ++ trace) s'

section Rules
variable {Q : α → Assertion σ} {E : Failure → Assertion σ} {past : List (Moment σ)} {s : σ}

theorem leads_of_run {a : Action σ α} {x : α} {s' : σ} {trace : List (Moment σ)}
    (h : a.run s = ⟨.ok x, s', trace⟩) : a.Leads Q E past s ↔ Q x (past ++ trace) s' := by
  rw [Leads, h]

theorem leads_of_run_error {a : Action σ α} {e : Failure} {s' : σ} {trace : List (Moment σ)}
    (h : a.run s = ⟨.error e, s', trace⟩) : a.Leads Q E past s ↔ E e (past ++ trace) s' := by
  rw [Leads, h]

@[simp] theorem leads_pure (x : α) : (pure x : Action σ α).Leads Q E = Q x := by
  funext past s
  simp only [Leads, run_pure, List.append_nil]

theorem leads_bind (a : Action σ β) (f : β → Action σ α) :
    (a >>= f).Leads Q E = a.Leads (fun x => (f x).Leads Q E) E := by
  funext past s
  rcases h : a.run s with ⟨e | x, s', trace⟩
  · simp only [Leads, run_bind_error h, h]
  · simp only [Leads, run_bind_ok h, h]
    rcases (f x).run s' with ⟨e | y, s'', trace'⟩ <;> simp only [List.append_assoc]

@[simp] theorem leads_state {Q : σ → Assertion σ} :
    (state : Action σ σ).Leads Q E past s ↔ Q s past s := by
  rw [leads_of_run (run_state s), List.append_nil]

@[simp] theorem leads_update {Q : Unit → Assertion σ} (f : σ → σ) :
    (update f).Leads Q E past s ↔ Q () past (f s) := by
  rw [leads_of_run (run_update f s), List.append_nil]

@[simp] theorem leads_emit {Q : Unit → Assertion σ} (e : Event) :
    (emit e).Leads Q E past s ↔ Q () (past ++ [⟨s, e⟩]) s :=
  leads_of_run (run_emit e s)

@[simp] theorem leads_note {Q : Unit → Assertion σ} (n : Note) :
    (note n).Leads Q E past s ↔ Q () (past ++ [⟨s, .note n⟩]) s :=
  leads_emit _

theorem leads_ofAttempt (x : Attempt α) :
    (ofAttempt x : Action σ α).Leads Q E past s ↔
      match x with
      | .ok y => Q y past s
      | .error e => E e past s := by
  cases x <;> simp only [Leads, run_ofAttempt, List.append_nil]

theorem leads_liftAttempt (x : Attempt α) :
    (liftM x : Action σ α).Leads Q E past s ↔
      match x with
      | .ok y => Q y past s
      | .error e => E e past s :=
  leads_ofAttempt x

theorem leads_attempt (a : Action σ α) {Q : Attempt α → Assertion σ} :
    a.attempt.Leads Q E past s ↔ a.Leads (fun x => Q (.ok x)) (fun e => Q (.error e)) past s := by
  rcases h : a.run s with ⟨e | x, s', trace⟩ <;> simp only [Leads, run_attempt, h]

theorem Leads.mono {a : Action σ α} {Q' : α → Assertion σ} {E' : Failure → Assertion σ}
    (h : a.Leads Q E past s) (ok : ∀ x past' s', Q x past' s' → Q' x past' s')
    (error : ∀ e past' s', E e past' s' → E' e past' s') : a.Leads Q' E' past s := by
  rcases hr : a.run s with ⟨e | x, s', trace⟩
  · exact (leads_of_run_error hr).2 (error _ _ _ ((leads_of_run_error hr).1 h))
  · exact (leads_of_run hr).2 (ok _ _ _ ((leads_of_run hr).1 h))

theorem Leads.answer {a : Action σ α} {Q' : α → Assertion σ} (h : a.Leads Q E past s)
    (ok : ∀ x past' s', Q x past' s' → Q' x past' s') : a.Leads Q' E past s :=
  h.mono ok fun _ _ _ => id

theorem Leads.failure {a : Action σ α} {E' : Failure → Assertion σ} (h : a.Leads Q E past s)
    (error : ∀ e past' s', E e past' s' → E' e past' s') : a.Leads Q E' past s :=
  h.mono (fun _ _ _ => id) error

/-- Two statements about where an action leads are one. -/
theorem Leads.and {a : Action σ α} {Q' : α → Assertion σ} {E' : Failure → Assertion σ}
    (h : a.Leads Q E past s) (h' : a.Leads Q' E' past s) :
    a.Leads (fun x past' s' => Q x past' s' ∧ Q' x past' s')
      (fun e past' s' => E e past' s' ∧ E' e past' s') past s := by
  rcases hr : a.run s with ⟨e | x, s', trace⟩
  · exact (leads_of_run_error hr).2 ⟨(leads_of_run_error hr).1 h, (leads_of_run_error hr).1 h'⟩
  · exact (leads_of_run hr).2 ⟨(leads_of_run hr).1 h, (leads_of_run hr).1 h'⟩

/-- The moments that an action adds to those before it. -/
theorem leads_adds {a : Action σ α} {P : Moment σ → Prop} (h : ∀ m ∈ (a.run s).trace, P m) :
    a.Leads (fun _ past' _ => ∃ trace, past' = past ++ trace ∧ ∀ m ∈ trace, P m)
      (fun _ past' _ => ∃ trace, past' = past ++ trace ∧ ∀ m ∈ trace, P m) past s := by
  rcases hr : a.run s with ⟨e | x, s', trace⟩
  · rw [hr] at h
    exact (leads_of_run_error hr).2 ⟨trace, rfl, h⟩
  · rw [hr] at h
    exact (leads_of_run hr).2 ⟨trace, rfl, h⟩

/-- Where an action leads is a matter of its run. -/
theorem leads_congr {a b : Action σ α} (h : a.run s = b.run s) :
    a.Leads Q E past s ↔ b.Leads Q E past s := by
  rw [Leads, Leads, h]

/-- One action after another, with a statement in between. -/
theorem Leads.next {a : Action σ Unit} {b : Action σ α} {P : Assertion σ}
    (first : a.Leads (fun _ => P) E past s) (second : ∀ past s, P past s → b.Leads Q E past s) :
    (a >>= fun _ => b).Leads Q E past s := by
  rw [leads_bind]
  exact first.answer fun _ => second

theorem Leads.of_ok {a : Action σ α} (h : a.Leads Q E [] s) {x : α}
    (ok : (a.run s).outcome = .ok x) : Q x (a.run s).trace (a.run s).after := by
  rcases hr : a.run s with ⟨e | y, s', trace⟩ <;> rw [hr] at ok <;> cases ok
  exact (leads_of_run hr).1 h

theorem Leads.of_error {a : Action σ α} (h : a.Leads Q E [] s) {e : Failure}
    (error : (a.run s).outcome = .error e) : E e (a.run s).trace (a.run s).after := by
  rcases hr : a.run s with ⟨e | y, s', trace⟩ <;> rw [hr] at error <;> cases error
  exact (leads_of_run_error hr).1 h

/-- An action that cannot have failed has come to its end. -/
theorem Leads.ok {a : Action σ Unit} {Q : Unit → Assertion σ} (h : a.Leads Q E [] s)
    (never : ∀ e, ¬E e (a.run s).trace (a.run s).after) : (a.run s).outcome = .ok () := by
  cases outcome : (a.run s).outcome with
  | error e => exact absurd (h.of_error outcome) (never e)
  | ok => rfl

/-- A statement that holds wherever an action leads holds of its run. -/
theorem Leads.run {a : Action σ α} {I : Assertion σ} (h : a.Leads (fun _ => I) (fun _ => I) [] s) :
    I (a.run s).trace (a.run s).after := by
  unfold Leads at h
  rcases hr : a.run s with ⟨e | x, s', trace⟩ <;> simpa only [hr, List.nil_append] using h

end Rules

/-- However the action ends, it leaves `f` of the state as it was. -/
def Preserves (a : Action σ α) (f : σ → β) : Prop := ∀ s, f (a.run s).after = f s

namespace Preserves
variable {f : σ → γ}

theorem pure (x : α) : (pure x : Action σ α).Preserves f := fun _ => rfl

theorem state : (state : Action σ σ).Preserves f := fun _ => rfl

theorem emit (e : Event) : (emit e).Preserves f := fun _ => rfl

theorem ofAttempt (x : Attempt α) : (ofAttempt x : Action σ α).Preserves f := fun _ => rfl

theorem lift (x : Attempt α) : (liftM x : Action σ α).Preserves f := fun _ => rfl

theorem update {g : σ → σ} (h : ∀ s, f (g s) = f s) : (update g).Preserves f := h

/-- What the second action preserves is as the first one has left it. -/
theorem after_bind (a : Action σ α) {b : α → Action σ β} (hb : ∀ x, (b x).Preserves f) (s : σ) :
    f ((a >>= b).run s).after = f (a.run s).after := by
  rcases h : a.run s with ⟨e | x, s', trace⟩
  · rw [run_bind_error h]
  · rw [run_bind_ok h]
    exact hb x s'

theorem bind {a : Action σ α} {b : α → Action σ β} (ha : a.Preserves f)
    (hb : ∀ x, (b x).Preserves f) : (a >>= b).Preserves f :=
  fun s => (after_bind a hb s).trans (ha s)

theorem ite {c : Prop} [Decidable c] {a b : Action σ α} (ha : a.Preserves f)
    (hb : b.Preserves f) : (if c then a else b).Preserves f := by
  split
  · exact ha
  · exact hb

theorem mapM {g : α → Action σ β} (h : ∀ x, (g x).Preserves f) (xs : List α) :
    (xs.mapM g).Preserves f := by
  induction xs with
  | nil => exact pure []
  | cons x xs ih =>
    rw [List.mapM_cons]
    exact bind (h x) fun y => bind ih fun ys => pure (y :: ys)

theorem repeated {a : Action σ Unit} (ha : a.Preserves f) (n : Nat) :
    (a.repeated n).Preserves f := by
  induction n with
  | zero => exact pure ()
  | succ n ih => exact bind ha fun _ => ih

end Preserves

end Action
end ClockControl
