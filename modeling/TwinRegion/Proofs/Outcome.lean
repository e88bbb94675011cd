/-
TwinRegion.Proofs.Outcome — how a computation ends.

A step leaves two things behind: what it answers (`StepM.answer`) and the
state it has reached (`StepM.reached`). Reasoning about a whole run needs
the second of every step and the first of some, so they are kept apart
here; `run_eq_ok_iff` and `run_eq_error_iff` join them again.

`StepM.Ends` is the triple of this monad: one condition for a step that ends
with a value and one for a step that fails, because a failed step has
changed the state too. Each building block of a step has a rule, and a
step's triple is put together from the rules by `Ends.bind`.
-/
import TwinRegion.Step

namespace TwinRegion

variable {σ α β : Type}

/-! ## Checks -/

/-- A sequence of checks passes when each of them does. -/
theorem bind_eq_ok_iff {x : Except Failure α} {f : α → Except Failure β} {b : β} :
    (x >>= f) = .ok b ↔ ∃ a, x = .ok a ∧ f a = .ok b := by
  cases x with
  | error e => simp [bind, Except.bind]
  | ok a => simp [bind, Except.bind]

@[simp] theorem ok_bind (a : α) (f : α → Except Failure β) : (Except.ok a >>= f) = f a := rfl

@[simp] theorem error_bind (e : Failure) (f : α → Except Failure β) :
    (Except.error e >>= f) = .error e := rfl

/-- A guard passes exactly when its condition does not hold. -/
theorem refuse_if_eq_ok_iff {p : Prop} [Decidable p] {error : Error} :
    (if p then refuse error else pure () : Except Failure Unit) = .ok () ↔ ¬ p := by
  by_cases h : p <;> simp [h, refuse, pure, Except.pure]

/-! ## Steps -/

namespace StepM

/-- The state that a step reaches, whether it ends with a value or a failure. -/
@[irreducible] def reached (step : StepM σ α) (s : σ) : σ :=
  match step.run s with
  | .ok _ s => s
  | .error _ s => s

/-- What a step answers. -/
@[irreducible] def answer (step : StepM σ α) (s : σ) : Except Failure α :=
  match step.run s with
  | .ok value _ => .ok value
  | .error failure _ => .error failure

theorem run_eq_ok_iff {step : StepM σ α} {s s' : σ} {a : α} :
    step.run s = .ok a s' ↔ step.answer s = .ok a ∧ step.reached s = s' := by
  unfold answer reached
  cases step.run s <;> simp

theorem run_eq_error_iff {step : StepM σ α} {s s' : σ} {e : Failure} :
    step.run s = .error e s' ↔ step.answer s = .error e ∧ step.reached s = s' := by
  unfold answer reached
  cases step.run s <;> simp

theorem reached_pure (a : α) (s : σ) : (Pure.pure a : StepM σ α).reached s = s := by
  unfold reached
  rfl

theorem reached_modify (f : σ → σ) (s : σ) : (modify f : StepM σ PUnit).reached s = f s := by
  unfold reached
  rfl

theorem reached_focus {τ : Type} (get : τ → σ) (put : σ → τ → τ) (step : StepM σ α) (t : τ) :
    (focus get put step).reached t = put (step.reached (get t)) t := by
  simp only [reached, run_focus]
  cases step.run (get t) <;> rfl

theorem answer_focus {τ : Type} (get : τ → σ) (put : σ → τ → τ) (step : StepM σ α) (t : τ) :
    (focus get put step).answer t = step.answer (get t) := by
  simp only [answer, run_focus]
  cases step.run (get t) <;> rfl

theorem reached_of_run_eq {step step' : StepM σ α} {s s' : σ} (h : step.run s = step'.run s') :
    step.reached s = step'.reached s' := by
  simp only [reached, h]

theorem answer_bind (step : StepM σ α) (next : α → StepM σ β) (s : σ) :
    (step >>= next).answer s =
      match step.answer s with
      | .ok a => (next a).answer (step.reached s)
      | .error e => .error e := by
  simp only [answer, reached, EStateM.run_bind]
  cases step.run s <;> rfl

/-- The second step starts where the first stopped, if the first ended with a value. -/
theorem reached_bind (step : StepM σ α) (next : α → StepM σ β) (s : σ) :
    (step >>= next).reached s =
      match step.answer s with
      | .ok a => (next a).reached (step.reached s)
      | .error _ => step.reached s := by
  simp only [answer, reached, EStateM.run_bind]
  cases step.run s <;> rfl

/-- An answer that is thought up afterwards changes nothing. -/
@[simp] theorem reached_bind_pure (step : StepM σ α) (answer : α → β) (s : σ) :
    (step >>= fun a => Pure.pure (answer a)).reached s = step.reached s := by
  rw [reached_bind]
  cases step.answer s with
  | ok a => exact reached_pure (answer a) (step.reached s)
  | error e => rfl

@[simp] theorem reached_map (f : α → β) (step : StepM σ α) (s : σ) :
    (f <$> step).reached s = step.reached s := by
  rw [map_eq_pure_bind, reached_bind_pure]

@[simp] theorem answer_map (f : α → β) (step : StepM σ α) (s : σ) :
    (f <$> step).answer s = (step.answer s).map f := by
  rw [map_eq_pure_bind]
  simp only [answer, EStateM.run_bind]
  cases step.run s <;> rfl

@[simp] theorem reached_discard (step : StepM σ α) (s : σ) :
    (discard step : StepM σ PUnit).reached s = step.reached s := by
  have hbind : (discard step : StepM σ PUnit) = step >>= fun _ => Pure.pure ⟨⟩ := by
    simp [discard, LawfulFunctor.map_const]
  rw [hbind, reached_bind_pure]

theorem run_bind_of_ok {step : StepM σ α} {next : α → StepM σ β} {s s' : σ} {a : α}
    (h : step.run s = .ok a s') : (step >>= next).run s = (next a).run s' := by
  rw [EStateM.run_bind, h]

theorem run_map (f : α → β) (step : StepM σ α) (s : σ) :
    (f <$> step).run s =
      match step.run s with
      | .ok a s' => .ok (f a) s'
      | .error e s' => .error e s' := by
  rw [map_eq_pure_bind, EStateM.run_bind]
  cases step.run s <;> rfl

theorem run_map_of_ok {step : StepM σ α} {f : α → β} {s s' : σ} {a : α} (h : step.run s = .ok a s') :
    (f <$> step).run s = .ok (f a) s' := by
  rw [run_map, h]

/-- Two steps in a row succeed if each does when its turn comes. -/
theorem answer_then_iff {first second : StepM σ Unit} {s : σ} :
    (first >>= fun _ => second).answer s = .ok () ↔
      first.answer s = .ok () ∧ second.answer (first.reached s) = .ok () := by
  rw [answer_bind]
  cases first.answer s <;> simp

theorem reached_then {first second : StepM σ Unit} {s : σ} (h : first.answer s = .ok ()) :
    (first >>= fun _ => second).reached s = second.reached (first.reached s) := by
  rw [reached_bind, h]

theorem run_check_bind {check : Except Failure α} {next : α → StepM σ β} {s : σ} {a : α}
    (h : check = .ok a) : (liftM check >>= next : StepM σ β).run s = (next a).run s := by
  rw [h]
  rfl

theorem answer_check_bind (check : Except Failure β) (next : β → StepM σ α) (s : σ) :
    (liftM check >>= next : StepM σ α).answer s = check.bind fun b => (next b).answer s := by
  unfold answer
  cases check <;> rfl

/-! ## Triples -/

/-- However the step ends from `s`, the condition for that end holds. -/
structure Ends (step : StepM σ α) (s : σ) (onValue : α → σ → Prop) (onFailure : Failure → σ → Prop) :
    Prop where
  value : ∀ a, step.answer s = .ok a → onValue a (step.reached s)
  failure : ∀ e, step.answer s = .error e → onFailure e (step.reached s)

section rules

variable {s : σ} {onValue onValue' : α → σ → Prop} {onFailure onFailure' : Failure → σ → Prop}

theorem Ends.mono {step : StepM σ α} (h : step.Ends s onValue onFailure)
    (hvalue : ∀ a s, onValue a s → onValue' a s)
    (hfailure : ∀ e s, onFailure e s → onFailure' e s) : step.Ends s onValue' onFailure' :=
  ⟨fun a ha => hvalue a _ (h.value a ha), fun e he => hfailure e _ (h.failure e he)⟩

/-- Of a step that cannot fail there is only its value to tell. -/
theorem Ends.of_no_failure {step : StepM σ α} (h : step.Ends s onValue onFailure)
    (hno : step.Ends s (fun _ _ => True) fun _ _ => False) :
    step.Ends s onValue fun _ _ => False := ⟨h.value, hno.failure⟩

/-- Of every step something holds that holds always. -/
theorem Ends.any {step : StepM σ α} : step.Ends s (fun _ _ => True) (fun _ _ => True) :=
  ⟨fun _ _ => trivial, fun _ _ => trivial⟩

/-- A condition may speak of the very end that the step came to. -/
theorem Ends.traced {step : StepM σ α} (h : step.Ends s onValue onFailure) :
    step.Ends s
      (fun a s' => step.answer s = .ok a ∧ step.reached s = s' ∧ onValue a s')
      (fun e s' => step.answer s = .error e ∧ step.reached s = s' ∧ onFailure e s') :=
  ⟨fun a ha => ⟨ha, rfl, h.value a ha⟩, fun e he => ⟨he, rfl, h.failure e he⟩⟩

/-- A step that cannot fail has a value. -/
theorem Ends.exists_value {step : StepM σ α} (h : step.Ends s onValue fun _ _ => False) :
    ∃ a, step.run s = .ok a (step.reached s) ∧ onValue a (step.reached s) := by
  cases hanswer : step.answer s with
  | ok a => exact ⟨a, run_eq_ok_iff.mpr ⟨hanswer, rfl⟩, h.value a hanswer⟩
  | error e => exact (h.failure e hanswer).elim

/-- A triple speaks of the run only. -/
theorem Ends.of_run_eq {step step' : StepM σ α} {s' : σ} (h : step'.Ends s' onValue onFailure)
    (hrun : step.run s = step'.run s') : step.Ends s onValue onFailure := by
  have hanswer : step.answer s = step'.answer s' := by simp only [answer, hrun]
  have hreached : step.reached s = step'.reached s' := by simp only [reached, hrun]
  constructor <;> rw [hanswer, hreached]
  · exact h.value
  · exact h.failure

theorem Ends.of_run_ok {step : StepM σ α} {a : α} {s' : σ} (hrun : step.run s = .ok a s')
    (h : onValue a s') : step.Ends s onValue onFailure := by
  obtain ⟨hanswer, rfl⟩ := run_eq_ok_iff.mp hrun
  constructor
  · intro b hb
    cases hanswer.symm.trans hb
    exact h
  · intro e he
    cases hanswer.symm.trans he

theorem Ends.of_run_error {step : StepM σ α} {e : Failure} {s' : σ}
    (hrun : step.run s = .error e s') (h : onFailure e s') : step.Ends s onValue onFailure := by
  obtain ⟨hanswer, rfl⟩ := run_eq_error_iff.mp hrun
  constructor
  · intro a ha
    cases hanswer.symm.trans ha
  · intro e' he'
    cases hanswer.symm.trans he'
    exact h

theorem Ends.pure {a : α} (h : onValue a s) :
    (Pure.pure a : StepM σ α).Ends s onValue onFailure := .of_run_ok rfl h

theorem Ends.set {onValue : PUnit → σ → Prop} {s' : σ} (h : onValue ⟨⟩ s') :
    (MonadStateOf.set s' : StepM σ PUnit).Ends s onValue onFailure := .of_run_ok rfl h

theorem Ends.modifies {f : σ → σ} {onValue : PUnit → σ → Prop} (h : onValue ⟨⟩ (f s)) :
    (modify f : StepM σ PUnit).Ends s onValue onFailure := .of_run_ok rfl h

theorem Ends.refuse {error : Error} (h : onFailure (.refused error) s) :
    (liftM (TwinRegion.refuse error : Except Failure α) : StepM σ α).Ends s onValue onFailure :=
  .of_run_error rfl h

/-- The second step starts in a state that the first may end in with a value. -/
theorem Ends.bind {step : StepM σ β} {next : β → StepM σ α} {between : β → σ → Prop}
    {failed : Failure → σ → Prop} (h : step.Ends s between failed)
    (hfailed : ∀ e s, failed e s → onFailure e s)
    (hnext : ∀ b s, between b s → (next b).Ends s onValue onFailure) :
    (step >>= next).Ends s onValue onFailure := by
  cases hanswer : step.answer s with
  | ok b =>
    have hlast := hnext b _ (h.value b hanswer)
    constructor <;> simp only [answer_bind, reached_bind, hanswer]
    · exact hlast.value
    · exact hlast.failure
  | error e =>
    have hlast := hfailed e _ (h.failure e hanswer)
    constructor <;> simp only [answer_bind, reached_bind, hanswer]
    · intro a ha
      cases ha
    · intro e' he'
      cases he'
      exact hlast

/-- What follows a refusal is not run. -/
theorem Ends.refuse_bind {error : Error} {next : β → StepM σ α} (h : onFailure (.refused error) s) :
    ((liftM (TwinRegion.refuse error : Except Failure β) : StepM σ β) >>= next).Ends s
      onValue onFailure := .of_run_error rfl h

theorem Ends.throw_bind {e : Failure} {next : β → StepM σ α} (h : onFailure e s) :
    (throw e >>= next).Ends s onValue onFailure := .of_run_error rfl h

theorem Ends.pure_bind {b : β} {next : β → StepM σ α} (h : (next b).Ends s onValue onFailure) :
    (Pure.pure b >>= next).Ends s onValue onFailure := h.of_run_eq rfl

theorem Ends.get_bind {next : σ → StepM σ α} (h : (next s).Ends s onValue onFailure) :
    (MonadState.get >>= next).Ends s onValue onFailure := h.of_run_eq rfl

theorem Ends.modify_bind {f : σ → σ} {next : PUnit → StepM σ α}
    (h : (next ⟨⟩).Ends (f s) onValue onFailure) :
    (modify f >>= next).Ends s onValue onFailure := h.of_run_eq rfl

theorem Ends.check_ok_bind {check : Except Failure β} {b : β} {next : β → StepM σ α}
    (hcheck : check = .ok b) (hnext : (next b).Ends s onValue onFailure) :
    (liftM check >>= next).Ends s onValue onFailure := by
  subst hcheck
  exact hnext.of_run_eq rfl

/-- A check leaves the state alone. -/
theorem Ends.check_bind {check : Except Failure β} {next : β → StepM σ α}
    (hfailed : ∀ e, check = .error e → onFailure e s)
    (hnext : ∀ b, check = .ok b → (next b).Ends s onValue onFailure) :
    (liftM check >>= next).Ends s onValue onFailure := by
  cases check with
  | ok b => exact (hnext b rfl).of_run_eq rfl
  | error e => exact .of_run_error rfl (hfailed e rfl)

theorem Ends.check {check : Except Failure α} (hvalue : ∀ a, check = .ok a → onValue a s)
    (hfailure : ∀ e, check = .error e → onFailure e s) :
    (liftM check : StepM σ α).Ends s onValue onFailure := by
  cases check with
  | ok a => exact .of_run_ok rfl (hvalue a rfl)
  | error e => exact .of_run_error rfl (hfailure e rfl)

theorem Ends.map {step : StepM σ β} {f : β → α} {onResult : β → σ → Prop}
    (h : step.Ends s onResult onFailure) (hvalue : ∀ b s, onResult b s → onValue (f b) s) :
    (f <$> step).Ends s onValue onFailure := by
  rw [map_eq_pure_bind]
  exact h.bind (fun _ _ h => h) fun b s hb => .pure (hvalue b s hb)

theorem Ends.discard {step : StepM σ β} {kept : σ → Prop} (h : step.Ends s (fun _ => kept) onFailure) :
    (discard step : StepM σ PUnit).Ends s (fun _ => kept) onFailure := by
  have hbind : (Functor.discard step : StepM σ PUnit) = step >>= fun _ => Pure.pure ⟨⟩ := by
    simp [Functor.discard, LawfulFunctor.map_const]
  rw [hbind]
  exact h.bind (fun _ _ h => h) fun _ _ hkept => .pure hkept

theorem Ends.ite {p : Prop} [Decidable p] {yes no : StepM σ α}
    (hyes : p → yes.Ends s onValue onFailure) (hno : ¬ p → no.Ends s onValue onFailure) :
    (if p then yes else no).Ends s onValue onFailure := by
  split
  · exact hyes ‹p›
  · exact hno ‹¬ p›

/-- Under `attempt` a refusal is a value, and only a fault still fails. -/
theorem Ends.attempt {step : StepM σ α} (h : step.Ends s onValue onFailure) :
    step.attempt.Ends s
      (fun result s' => match result with
        | .ok a => onValue a s'
        | .error error => onFailure (.refused error) s')
      onFailure := by
  cases hrun : step.run s with
  | ok a s' =>
    obtain ⟨hanswer, rfl⟩ := run_eq_ok_iff.mp hrun
    exact .of_run_ok (by rw [run_attempt, hrun]) (h.value a hanswer)
  | error e s' =>
    obtain ⟨hanswer, rfl⟩ := run_eq_error_iff.mp hrun
    cases e with
    | refused error => exact .of_run_ok (by rw [run_attempt, hrun]) (h.failure _ hanswer)
    | fault fault => exact .of_run_error (by rw [run_attempt, hrun]) (h.failure _ hanswer)

/-- Under `attempt` a step that can only be refused cannot fail. -/
theorem Ends.attempt_of_refused {step : StepM σ α} (h : step.Ends s onValue onFailure)
    (hrefused : ∀ e s, onFailure e s → ∃ error, e = .refused error) :
    step.attempt.Ends s
      (fun result s' => match result with
        | .ok a => onValue a s'
        | .error error => onFailure (.refused error) s')
      (fun _ _ => False) := by
  cases hrun : step.run s with
  | ok a s' =>
    obtain ⟨hanswer, rfl⟩ := run_eq_ok_iff.mp hrun
    exact .of_run_ok (by rw [run_attempt, hrun]) (h.value a hanswer)
  | error e s' =>
    obtain ⟨hanswer, rfl⟩ := run_eq_error_iff.mp hrun
    obtain ⟨error, rfl⟩ := hrefused _ _ (h.failure e hanswer)
    exact .of_run_ok (by rw [run_attempt, hrun]) (h.failure _ hanswer)

/-- A step on a part of the state leaves the rest alone. -/
theorem Ends.focus {τ : Type} {get : τ → σ} {put : σ → τ → τ} {step : StepM σ α} {t : τ}
    (h : step.Ends (get t) onValue onFailure) :
    (StepM.focus get put step).Ends t
      (fun a t' => ∃ s, t' = put s t ∧ onValue a s)
      (fun e t' => ∃ s, t' = put s t ∧ onFailure e s) := by
  cases hrun : step.run (get t) with
  | ok a s =>
    obtain ⟨hanswer, rfl⟩ := run_eq_ok_iff.mp hrun
    exact .of_run_ok (by rw [run_focus, hrun]) ⟨_, rfl, h.value a hanswer⟩
  | error e s =>
    obtain ⟨hanswer, rfl⟩ := run_eq_error_iff.mp hrun
    exact .of_run_error (by rw [run_focus, hrun]) ⟨_, rfl, h.failure e hanswer⟩

end rules

/-! ## Preserving -/

variable {P : σ → Prop}

/-- Whether the step ends with a value or a failure, `P` still holds. -/
def Preserves (P : σ → Prop) (step : StepM σ α) : Prop := ∀ s, P s → P (step.reached s)

theorem Ends.reached {step : StepM σ α} {s : σ} (h : step.Ends s (fun _ => P) (fun _ => P)) :
    P (step.reached s) := by
  cases hanswer : step.answer s with
  | ok a => exact h.value a hanswer
  | error e => exact h.failure e hanswer

theorem Ends.of_reached {step : StepM σ α} {s : σ} (h : P (step.reached s)) :
    step.Ends s (fun _ => P) (fun _ => P) := ⟨fun _ _ => h, fun _ _ => h⟩

theorem preserves_pure (a : α) : Preserves P (Pure.pure a : StepM σ α) := by
  intro s hs
  rwa [reached_pure]

theorem Preserves.bind {step : StepM σ α} {next : α → StepM σ β} (h : Preserves P step)
    (hnext : ∀ a, Preserves P (next a)) : Preserves P (step >>= next) := by
  intro s hs
  rw [reached_bind]
  cases step.answer s with
  | ok a => exact hnext a _ (h s hs)
  | error e => exact h s hs

theorem preserves_check (check : Except Failure α) : Preserves P (liftM check : StepM σ α) :=
  fun _ hs => (Ends.check (fun _ _ => hs) fun _ _ => hs).reached

/-- What follows a check may rely on it. -/
theorem preserves_check_bind {check : Except Failure α} {next : α → StepM σ β}
    (hnext : ∀ a, check = .ok a → Preserves P (next a)) : Preserves P (liftM check >>= next) := by
  cases check with
  | ok a => exact hnext a rfl
  | error e => exact preserves_check (.error e)

theorem Preserves.discard {step : StepM σ α} (h : Preserves P step) :
    Preserves P (discard step : StepM σ PUnit) := by
  intro s hs
  rw [reached_discard]
  exact h s hs

end StepM

/-! ## Runs -/

/-- What a step keeps exactly on some condition, a run keeps throughout exactly if the condition
is met at every turn. The steps may need `sound` for that, which they keep on the condition. -/
theorem throughout_iff {after : σ → α → σ} {sound P : σ → Prop} {met : σ → α → Prop}
    (hsound : ∀ s a, sound s → P s → met s a → sound (after s a))
    (hstep : ∀ s a, sound s → P s → (P (after s a) ↔ met s a)) {s : σ} (hs : sound s) (hP : P s)
    (run : List α) :
    (∀ before, before <+: run → P (before.foldl after s)) ↔
      ∀ before a rest, run = before ++ a :: rest → met (before.foldl after s) a := by
  induction run generalizing s with
  | nil =>
    constructor
    · intro _ before a rest hrun
      simp at hrun
    · intro _ before hbefore
      rwa [List.prefix_nil.mp hbefore]
  | cons first rest ih =>
    by_cases hmet : met s first
    · have hrest := ih (hsound s first hs hP hmet) ((hstep s first hs hP).mpr hmet)
      constructor
      · intro hall before a more hrun
        cases before with
        | nil =>
          obtain ⟨rfl, -⟩ := List.cons.inj hrun
          exact hmet
        | cons b before =>
          obtain ⟨rfl, hmore⟩ := List.cons.inj hrun
          refine hrest.mp (fun early hearly => ?_) before a more hmore
          exact hall (first :: early) (List.cons_prefix_cons.mpr ⟨rfl, hearly⟩)
      · intro hmets before hbefore
        cases before with
        | nil => exact hP
        | cons b before =>
          obtain ⟨rfl, hlater⟩ := List.cons_prefix_cons.mp hbefore
          refine hrest.mpr (fun early a more hmore => ?_) before hlater
          exact hmets (b :: early) a more (by rw [hmore, List.cons_append])
    · -- the first turn settles both sides
      constructor
      · intro hall
        exact absurd ((hstep s first hs hP).mp (hall [first] ⟨rest, rfl⟩)) hmet
      · intro hmets
        exact absurd (hmets [] first rest rfl) hmet

end TwinRegion
