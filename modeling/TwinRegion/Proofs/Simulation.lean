/-
TwinRegion.Proofs.Simulation — steps on two kinds of state that go alike.

`Alike R` relates a step on one state to a step on another: they answer the
same, and they leave states that `R` relates. Steps that are built the same
way from alike parts are alike, so a blob's operation on a device in the
world is alike to the same operation on the medium behind that device.
-/
import TwinRegion.Proofs.Outcome

namespace TwinRegion.StepM

variable {σ τ α β : Type} {R : σ → τ → Prop}

/-- From these two states the steps answer the same and leave related states. -/
inductive Alike (R : σ → τ → Prop) (far : StepM σ α) (s : σ) (near : StepM τ α) (t : τ) : Prop where
  | ok {a : α} {s' : σ} {t' : τ} (hfar : far.run s = .ok a s') (hnear : near.run t = .ok a t')
      (h : R s' t')
  | error {e : Failure} {s' : σ} {t' : τ} (hfar : far.run s = .error e s')
      (hnear : near.run t = .error e t') (h : R s' t')

variable {far : StepM σ α} {near : StepM τ α} {s : σ} {t : τ}

theorem Alike.answer_eq (h : Alike R far s near t) : far.answer s = near.answer t := by
  cases h with
  | ok hfar hnear _ => rw [(run_eq_ok_iff.mp hfar).1, (run_eq_ok_iff.mp hnear).1]
  | error hfar hnear _ => rw [(run_eq_error_iff.mp hfar).1, (run_eq_error_iff.mp hnear).1]

theorem Alike.reached_rel (h : Alike R far s near t) : R (far.reached s) (near.reached t) := by
  cases h with
  | ok hfar hnear h => rwa [(run_eq_ok_iff.mp hfar).2, (run_eq_ok_iff.mp hnear).2]
  | error hfar hnear h => rwa [(run_eq_error_iff.mp hfar).2, (run_eq_error_iff.mp hnear).2]

/-- What is known of the end of a step is known of the end of a step that is alike to it, up to
the relation of their states. -/
theorem Alike.ends {onValue : α → τ → Prop} {onFailure : Failure → τ → Prop}
    (h : Alike R far s near t) (hnear : near.Ends t onValue onFailure) :
    far.Ends s (fun a s' => ∃ t', R s' t' ∧ onValue a t') (fun e s' => ∃ t', R s' t' ∧ onFailure e t') where
  value a ha := ⟨_, h.reached_rel, hnear.value a (h.answer_eq ▸ ha)⟩
  failure e he := ⟨_, h.reached_rel, hnear.failure e (h.answer_eq ▸ he)⟩

/-- Steps are alike when their runs are those of alike steps. -/
theorem Alike.of_run_eq {far' : StepM σ α} {near' : StepM τ α} {s' : σ} {t' : τ}
    (h : Alike R far' s' near' t') (hfar : far.run s = far'.run s')
    (hnear : near.run t = near'.run t') :
    Alike R far s near t := by
  cases h with
  | ok hfar' hnear' h => exact .ok (hfar.trans hfar') (hnear.trans hnear') h
  | error hfar' hnear' h => exact .error (hfar.trans hfar') (hnear.trans hnear') h

theorem Alike.pure {a : α} (h : R s t) : Alike R (Pure.pure a) s (Pure.pure a) t :=
  .ok rfl rfl h

theorem Alike.throw {e : Failure} (h : R s t) :
    Alike R (throw e : StepM σ α) s (throw e : StepM τ α) t :=
  .error rfl rfl h

theorem Alike.check {check : Except Failure α} (h : R s t) :
    Alike R (liftM check) s (liftM check) t := by
  cases check with
  | ok a => exact .ok rfl rfl h
  | error e => exact .error rfl rfl h

/-- What follows alike steps need only be alike from related states. -/
theorem Alike.bind {farNext : α → StepM σ β} {nearNext : α → StepM τ β}
    (h : Alike R far s near t)
    (hnext : ∀ a s t, R s t → Alike R (farNext a) s (nearNext a) t) :
    Alike R (far >>= farNext) s (near >>= nearNext) t := by
  cases h with
  | @ok a s' t' hfar hnear h =>
    refine (hnext a s' t' h).of_run_eq ?_ ?_
    · rw [EStateM.run_bind, hfar]
    · rw [EStateM.run_bind, hnear]
  | @error e s' t' hfar hnear h =>
    have hfar' : (far >>= farNext).run s = .error e s' := by rw [EStateM.run_bind, hfar]
    have hnear' : (near >>= nearNext).run t = .error e t' := by rw [EStateM.run_bind, hnear]
    exact .error hfar' hnear' h

theorem Alike.check_bind {check : Except Failure α} {farNext : α → StepM σ β}
    {nearNext : α → StepM τ β} (h : R s t)
    (hnext : ∀ a, Alike R (farNext a) s (nearNext a) t) :
    Alike R (liftM check >>= farNext) s (liftM check >>= nearNext) t := by
  cases check with
  | ok a => exact (hnext a).of_run_eq rfl rfl
  | error e => exact .error rfl rfl h

/-- Related states may be looked at differently. -/
theorem Alike.get_bind {farNext : σ → StepM σ α} {nearNext : τ → StepM τ α}
    (h : Alike R (farNext s) s (nearNext t) t) :
    Alike R (MonadState.get >>= farNext) s (MonadState.get >>= nearNext) t :=
  h.of_run_eq rfl rfl

theorem Alike.ite {p : Prop} [Decidable p] {farNo : StepM σ α} {nearNo : StepM τ α}
    (hyes : p → Alike R far s near t) (hno : ¬ p → Alike R farNo s nearNo t) :
    Alike R (if p then far else farNo) s (if p then near else nearNo) t := by
  split
  · exact hyes ‹p›
  · exact hno ‹¬ p›

theorem Alike.map {f : α → β} (h : Alike R far s near t) :
    Alike R (f <$> far) s (f <$> near) t := by
  rw [map_eq_pure_bind, map_eq_pure_bind]
  exact h.bind fun _ _ _ h => .pure h

theorem Alike.attempt (h : Alike R far s near t) : Alike R far.attempt s near.attempt t := by
  cases h with
  | ok hfar hnear h => exact .ok (by rw [run_attempt, hfar]) (by rw [run_attempt, hnear]) h
  | @error e _ _ hfar hnear h =>
    cases e with
    | refused error => exact .ok (by rw [run_attempt, hfar]) (by rw [run_attempt, hnear]) h
    | fault fault => exact .error (by rw [run_attempt, hfar]) (by rw [run_attempt, hnear]) h

/-- Alike steps on parts of two states are alike if putting the parts back relates them. -/
theorem Alike.focus {σ' τ' : Type} {S : σ' → τ' → Prop} {get : σ' → σ} {put : σ → σ' → σ'}
    {get' : τ' → τ} {put' : τ → τ' → τ'} {s : σ'} {t : τ'}
    (h : Alike R far (get s) near (get' t)) (hput : ∀ u v, R u v → S (put u s) (put' v t)) :
    Alike S (StepM.focus get put far) s (StepM.focus get' put' near) t := by
  cases h with
  | ok hfar hnear h => exact .ok (by rw [run_focus, hfar]) (by rw [run_focus, hnear]) (hput _ _ h)
  | error hfar hnear h =>
    exact .error (by rw [run_focus, hfar]) (by rw [run_focus, hnear]) (hput _ _ h)

/-- A step on a part is alike to the step itself, if putting the part back relates the two. -/
theorem Alike.of_focus {σ' : Type} {S : σ' → τ → Prop} {get : σ' → τ} {put : τ → σ' → σ'} {s : σ'}
    (h : near.Ends (get s) (fun _ t => S (put t s) t) (fun _ t => S (put t s) t)) :
    Alike S (StepM.focus get put near) s near (get s) := by
  cases hrun : near.run (get s) with
  | ok a t =>
    obtain ⟨hanswer, rfl⟩ := run_eq_ok_iff.mp hrun
    exact .ok (by rw [run_focus, hrun]) hrun (h.value a hanswer)
  | error e t =>
    obtain ⟨hanswer, rfl⟩ := run_eq_error_iff.mp hrun
    exact .error (by rw [run_focus, hrun]) hrun (h.failure e hanswer)

end TwinRegion.StepM
