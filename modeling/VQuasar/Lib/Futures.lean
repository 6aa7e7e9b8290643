import Mathlib.Logic.Basic

/-!
# Futures that fail and are dropped

A handler is a future over a state.  It makes calls, one after another; a call has an effect on the
state and gets a reply, and the two need not agree (`Fate`).  A failure ends the future unless it is
handled (`attempt`).  A future may also be dropped while it waits for a call: then nothing more of it
runs, and nothing in it can tell.

`Triple P m Q` says where a future that starts in `P` can end: with a result, failed, or dropped.
-/

namespace VQuasar.Futures

inductive Reply
  | ok | err | dropped
deriving DecidableEq, Repr

/-- What becomes of a call: whether it takes effect, and what the future hears of it. -/
structure Fate where
  reply : Reply
  effect : Bool
deriving DecidableEq, Repr

/-- The call does what it says. -/
def Fate.good : Fate := ⟨.ok, true⟩

/-- Nobody is there to answer the call. -/
def Fate.refused (f : Fate) : Fate := ⟨if f.reply = .ok then .err else f.reply, false⟩

/-- A future that runs in a task of its own is not dropped: what it waits for happens. -/
def Fate.detached (f : Fate) : Fate := if f.reply = .dropped then .good else f

/-- How a future ends. -/
inductive Res (α : Type)
  | ok (a : α)
  | err
  | dropped
deriving DecidableEq, Repr

def Future (σ α : Type) : Type := σ → σ × Res α

variable {σ α β : Type}

instance : Monad (Future σ) where
  pure a := fun s => (s, .ok a)
  bind m k := fun s =>
    match m s with
    | (t, .ok a) => k a t
    | (t, .err) => (t, .err)
    | (t, .dropped) => (t, .dropped)

def Fate.apply (f : Fate) (effect : σ → σ) (s : σ) : σ := if f.effect then effect s else s

def call (f : Fate) (effect : σ → σ) : Future σ Unit := fun s =>
  (f.apply effect s,
    match f.reply with
    | .ok => .ok ()
    | .err => .err
    | .dropped => .dropped)

def act (f : σ → σ) : Future σ Unit := fun s => (f s, .ok ())

def read (f : σ → α) : Future σ α := fun s => (s, .ok (f s))

def fail : Future σ α := fun s => (s, .err)

/-- Go on whether or not the future fails. -/
def attempt (m : Future σ α) : Future σ (Option α) := fun s =>
  match m s with
  | (t, .ok a) => (t, .ok (some a))
  | (t, .err) => (t, .ok none)
  | (t, .dropped) => (t, .dropped)

/-! ## Pre- and postconditions -/

structure Post (σ α : Type) where
  ok : α → σ → Prop
  err : σ → Prop
  dropped : σ → Prop

def Post.Holds (Q : Post σ α) : σ × Res α → Prop
  | (t, .ok a) => Q.ok a t
  | (t, .err) => Q.err t
  | (t, .dropped) => Q.dropped t

/-- From `P` the future ends in `Q`. -/
def Triple (P : σ → Prop) (m : Future σ α) (Q : Post σ α) : Prop := ∀ s, P s → Q.Holds (m s)

/-- `Q` of the result; otherwise `I` still holds. -/
def orElse (Q : α → σ → Prop) (I : σ → Prop) : Post σ α := ⟨Q, I, I⟩

/-- However it ends, `I` holds. -/
def always (I : σ → Prop) : Post σ α := orElse (fun _ => I) I

section

variable {P P' : σ → Prop} {Q Q' : Post σ α}
  {m : Future σ β} {a : α} {f : Fate} {k : β → Future σ α} {effect : σ → σ} {J : σ → Prop}

theorem triple_conseq {m : Future σ α} (h : Triple P m Q) (hP : ∀ s, P' s → P s)
    (hok : ∀ a s, Q.ok a s → Q'.ok a s) (herr : ∀ s, Q.err s → Q'.err s)
    (hdropped : ∀ s, Q.dropped s → Q'.dropped s) : Triple P' m Q' := by
  intro s hs
  have hm := h s (hP s hs)
  cases hr : m s with
  | mk t r =>
    rw [hr] at hm
    cases r with
    | ok => exact hok _ t hm
    | err => exact herr t hm
    | dropped => exact hdropped t hm

theorem triple_pure (h : ∀ s, P s → Q.ok a s) : Triple P (pure a) Q := h

theorem triple_read {f : σ → α} (h : ∀ s, P s → Q.ok (f s) s) : Triple P (read f) Q := h

theorem triple_fail (h : ∀ s, P s → Q.err s) : Triple P (fail : Future σ α) Q := h

theorem triple_act {f : σ → σ} {Q : Post σ Unit} (h : ∀ s, P s → Q.ok () (f s)) :
    Triple P (act f) Q := h

theorem triple_bind {R : β → σ → Prop}
    (hm : Triple P m ⟨R, Q.err, Q.dropped⟩) (hk : ∀ b, Triple (R b) (k b) Q) :
    Triple P (m >>= k) Q := by
  intro s hs
  have h := hm s hs
  show Q.Holds (match m s with
    | (t, .ok a) => k a t
    | (t, .err) => (t, .err)
    | (t, .dropped) => (t, .dropped))
  cases hr : m s with
  | mk t r =>
    rw [hr] at h
    cases r with
    | ok => exact hk _ t h
    | err | dropped => exact h

theorem triple_call {Q : Post σ Unit} (hok : f.reply = .ok → ∀ s, P s → Q.ok () (f.apply effect s))
    (herr : f.reply = .err → ∀ s, P s → Q.err (f.apply effect s))
    (hdropped : f.reply = .dropped → ∀ s, P s → Q.dropped (f.apply effect s)) :
    Triple P (call f effect) Q := by
  intro s hs
  unfold call
  cases hr : f.reply with
  | ok => exact hok hr s hs
  | err => exact herr hr s hs
  | dropped => exact hdropped hr s hs

theorem triple_answered {Q : Post σ Unit} (h : f.reply = .ok)
    (hok : ∀ s, P s → Q.ok () (f.apply effect s)) : Triple P (call f effect) Q := by
  refine triple_call (fun _ => hok) (fun hr => ?_) (fun hr => ?_)
  · rw [h] at hr; cases hr
  · rw [h] at hr; cases hr

theorem triple_attempt {Q : Post σ (Option β)}
    (h : Triple P m ⟨fun b => Q.ok (some b), Q.ok none, Q.dropped⟩) : Triple P (attempt m) Q := by
  intro s hs
  have hm := h s hs
  unfold attempt
  cases hr : m s with
  | mk t r =>
    rw [hr] at hm
    cases r with
    | ok | err | dropped => exact hm

/-- What follows a read knows what was read. -/
theorem triple_read_bind {f : σ → β}
    (h : ∀ b, Triple (fun s => P s ∧ f s = b) (k b) Q) : Triple P (read f >>= k) Q :=
  triple_bind (triple_read fun _ hs => ⟨hs, rfl⟩) h

theorem triple_act_bind {f : σ → σ} {k : Unit → Future σ α} {R : σ → Prop}
    (h : ∀ s, P s → R (f s)) (hk : Triple R (k ()) Q) : Triple P (act f >>= k) Q :=
  triple_bind (triple_act h) fun _ => hk

/-! ## What a future keeps -/

variable {I : σ → Prop}

theorem always_imp {m : Future σ α} (h : Triple P m (always I)) (hP : ∀ s, P' s → P s)
    (hI : ∀ s, I s → J s) : Triple P' m (always J) :=
  triple_conseq h hP (fun _ => hI) hI hI

theorem always_bind
    (hm : Triple I m (always I)) (hI : ∀ s, I s → J s) (hk : ∀ b, Triple I (k b) (always J)) :
    Triple I (m >>= k) (always J) :=
  triple_bind (R := fun _ => I)
    (triple_conseq hm (fun _ hs => hs) (fun _ _ hs => hs) hI hI) hk

theorem keeps_bind (hm : Triple I m (always I))
    (hk : ∀ b, Triple I (k b) (always I)) : Triple I (m >>= k) (always I) :=
  triple_bind hm hk

theorem keeps_attempt {m : Future σ α} (h : Triple I m (always I)) :
    Triple I (attempt m) (always I) :=
  triple_attempt h

theorem keeps_act {f : σ → σ} (h : ∀ s, I s → I (f s)) : Triple I (act f) (always I) :=
  triple_act h

theorem keeps_read {f : σ → α} : Triple I (read f) (always I) :=
  triple_read fun _ hs => hs

theorem keeps_pure : Triple I (pure a) (always I) :=
  triple_pure fun _ hs => hs

theorem keeps_fail : Triple I (fail : Future σ α) (always I) :=
  triple_fail fun _ hs => hs

theorem apply_keeps (h : ∀ s, I s → I (effect s)) {s : σ} (hs : I s) : I (f.apply effect s) := by
  unfold Fate.apply
  split
  · exact h s hs
  · exact hs

theorem keeps_call (h : ∀ s, I s → I (effect s)) : Triple I (call f effect) (always I) :=
  triple_call (fun _ _ => apply_keeps h) (fun _ _ => apply_keeps h) (fun _ _ => apply_keeps h)

end

end VQuasar.Futures
