import Mathlib.Logic.Basic

/-!
# Runs of a step function

A component that takes one event at a time is a partial step function
`step : σ → ε → Option σ`; `none` means that the event cannot happen in that
state.  `Reach step ok init` is the set of states its runs reach when every step
taken meets the side condition `ok`, a condition on the state before the step and
on the event.  `Reach.invariant` is the induction every safety proof goes
through, `exec` evaluates a concrete list of events, and `Reach.of_exec` turns
such an evaluation into a reachability fact.  `exec_iff` is for damage that lasts: a
property of the last state that holds exactly if every step of the run was allowed.
-/

namespace VQuasar.Runs

open List Option

variable {σ ε : Type}
  {s t : σ} {es : List ε} {init : σ → Prop} {ok : σ → ε → Prop} {step : σ → ε → Option σ}

/-- The states reached from `init` by steps that all meet `ok`. -/
inductive Reach (step : σ → ε → Option σ) (ok : σ → ε → Prop) (init : σ → Prop) : σ → Prop
  | start (s : σ) (h : init s) : Reach step ok init s
  | next (s s' : σ) (e : ε) (hr : Reach step ok init s) (hok : ok s e)
      (hs : step s e = some s') : Reach step ok init s'

/-- The side condition that allows every step. -/
def anyStep : σ → ε → Prop := fun _ _ => True

/-- What holds initially and is kept by every allowed step holds in every reached state. -/
theorem Reach.invariant {inv : σ → Prop} (hinit : ∀ s, init s → inv s)
    (hstep : ∀ s s' e, inv s → ok s e → step s e = some s' → inv s')
    {s : σ} (hr : Reach step ok init s) : inv s := by
  induction hr with
  | start s h => exact hinit s h
  | next s s' e _ hok hs ih => exact hstep s s' e ih hok hs

/-- Run a list of events; `none` as soon as one of them cannot happen. -/
def exec (step : σ → ε → Option σ) : σ → List ε → Option σ
  | s, [] => some s
  | s, e :: es => (step s e).bind fun s' => exec step s' es

/-- Whether every step of a run meets a decidable side condition. -/
def execOk (step : σ → ε → Option σ) (ok : σ → ε → Bool) : σ → List ε → Bool
  | _, [] => true
  | s, e :: es =>
    ok s e && match step s e with
      | some s' => execOk step ok s' es
      | none => true

section

variable {step : σ → ε → Option σ} {okb : σ → ε → Bool} {inv spoilt : σ → Prop}

theorem exec_kept (hstep : ∀ s s' e, inv s → okb s e → step s e = some s' → inv s') (es : List ε) :
    ∀ {s t : σ}, inv s → execOk step okb s es → exec step s es = some t → inv t := by
  induction es with
  | nil =>
    intro s t hs _ h
    simp only [exec, some.injEq] at h
    exact h ▸ hs
  | cons e es ih =>
    intro s t hs hok h
    simp only [exec, bind_eq_some_iff] at h
    obtain ⟨s', hs', hrest⟩ := h
    simp only [execOk, hs', Bool.and_eq_true] at hok
    exact ih (hstep s s' e hs hok.1 hs') hok.2 hrest

theorem exec_closed (hstep : ∀ s s' e, inv s → step s e = some s' → inv s') (es : List ε) :
    ∀ {s t : σ}, inv s → exec step s es = some t → inv t := by
  induction es with
  | nil =>
    intro s t hs h
    simp only [exec, some.injEq] at h
    exact h ▸ hs
  | cons e es ih =>
    intro s t hs h
    simp only [exec, bind_eq_some_iff] at h
    obtain ⟨s', hs', hrest⟩ := h
    exact ih (hstep s s' e hs hs') hrest

/-- A step that is not allowed spoils a run, and nothing mends it. -/
theorem exec_spoilt (hstep : ∀ s s' e, inv s → okb s e → step s e = some s' → inv s')
    (hspoil : ∀ s s' e, inv s → okb s e = false → step s e = some s' → spoilt s')
    (hkeep : ∀ s s' e, spoilt s → step s e = some s' → spoilt s') (es : List ε) :
    ∀ {s t : σ}, inv s → execOk step okb s es = false → exec step s es = some t → spoilt t := by
  induction es with
  | nil =>
    intro s t _ hok _
    cases hok
  | cons e es ih =>
    intro s t hs hok h
    simp only [exec, bind_eq_some_iff] at h
    obtain ⟨s', hs', hrest⟩ := h
    cases he : okb s e with
    | false => exact exec_closed hkeep es (hspoil s s' e hs he hs') hrest
    | true =>
      simp only [execOk, hs', he, Bool.true_and] at hok
      exact ih (hstep s s' e hs he hs') hok hrest

/-- A property of the last state that holds exactly if no step of the run was spoilt. -/
theorem exec_iff (inv spoilt : σ → Prop) {P : σ → Prop} (hstep : ∀ s s' e, inv s → okb s e →
    step s e = some s' → inv s') (hspoil : ∀ s s' e, inv s → okb s e = false → step s e = some s' →
    spoilt s') (hkeep : ∀ s s' e, spoilt s → step s e = some s' → spoilt s') (hs : inv s) (h : exec
    step s es = some t) (hgood : inv t → P t) (hbad : spoilt t → ¬ P t) : P t ↔ execOk step okb s es := by
  cases hok : execOk step okb s es with
  | true => exact ⟨fun _ => rfl, fun _ => hgood (exec_kept hstep es hs hok h)⟩
  | false =>
    have hspoilt := exec_spoilt hstep hspoil hkeep es hs hok h
    exact ⟨fun hp => absurd hp (hbad hspoilt), fun hc => by cases hc⟩

end

theorem Reach.exec_append {okb : σ → ε → Bool} (hokb : ∀ s e, okb s e → ok s e) (es : List ε)
    : ∀ {s s' : σ}, Reach step ok init s → execOk step okb s es → exec step s es = some s' →
    Reach step ok init s' := by
  induction es with
  | nil =>
    intro s s' hr _ h
    simp only [exec, some.injEq] at h
    exact h ▸ hr
  | cons e es ih =>
    intro s s' hr hc h
    simp only [exec, bind_eq_some_iff] at h
    obtain ⟨t, ht, hrest⟩ := h
    simp only [execOk, ht, Bool.and_eq_true] at hc
    exact ih (.next s t e hr (hokb s e hc.1) ht) hc.2 hrest

theorem Reach.of_exec {okb : σ → ε → Bool} (hokb : ∀ s e, okb s e → ok s e) {s' : σ} (hi :
    init s) (hc : execOk step okb s es) (h : exec step s es = some s') : Reach step ok init s' :=
  Reach.exec_append hokb es (.start s hi) hc h

/-- The last state of a concrete run. -/
def final (step : σ → ε → Option σ) (s : σ) (es : List ε) : σ := (exec step s es).getD s

theorem exec_eq_final (h : (exec step s es).isSome) : exec step s es = some (final step s es) := by
  obtain ⟨t, ht⟩ := isSome_iff_exists.mp h
  rw [final, ht]
  rfl

theorem Reach.final {okb : σ → ε → Bool} (hokb : ∀ s e, okb s e → ok s e) (hi : init s) (hc :
    execOk step okb s es) (h : (exec step s es).isSome) : Reach step ok init (final step s es) :=
  Reach.of_exec hokb hi hc (exec_eq_final h)

theorem execOk_true (es : List ε) : ∀ s, execOk step (fun _ _ => true) s es = true := by
  induction es with
  | nil => exact fun _ => rfl
  | cons e es ih =>
    intro s
    simp only [execOk, Bool.true_and]
    cases step s e with
    | none => rfl
    | some => exact ih _

theorem Reach.final_anyStep (hi : init s) (h : (exec step s es).isSome) : Reach step anyStep
    init (Runs.final step s es) :=
  Reach.final (fun _ _ _ => trivial) hi (execOk_true es s) h

end VQuasar.Runs
