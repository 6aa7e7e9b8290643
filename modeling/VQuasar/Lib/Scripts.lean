import Mathlib.Data.List.Basic

/-!
# Scripts of fallible commands

A script drives a system by commands, one after another.  A command has an effect on the state of the
system and reports success or failure, and the two need not agree.  A script stops at a failure that
it does not handle and goes on past one that it does (`attempt`).

`Done.visited` are the states after each command, so a property of every intermediate point of a
script, whatever fails, is a property of that list (`Always`).  The rules below compute it along the
script: `always_bind` for what a part does before the rest, `Keeps` for a part that cannot break it.
`Leads` is for what a script leaves at its end, whether it got through or not, `Passes` for one that
gets through.
-/

namespace VQuasar.Scripts

open List

/-- What a script leaves: the states it went through, the last one, and a result unless it failed. -/
structure Done (σ α : Type) where
  visited : List σ
  state : σ
  result : Option α

def Script (σ α : Type) : Type := σ → Done σ α

variable {σ α β : Type}
  {d : Done σ α} {a : α} {m : Script σ α} {k : α → Script σ β} {s : σ} {answer : σ → Option α}

/-- Go on with the result, if there is one. -/
def Done.andThen (d : Done σ α) (k : α → Script σ β) : Done σ β :=
  match d.result with
  | some a => ⟨d.visited ++ (k a d.state).visited, (k a d.state).state, (k a d.state).result⟩
  | none => ⟨d.visited, d.state, none⟩

instance : Monad (Script σ) where
  pure a := fun s => ⟨[], s, some a⟩
  bind m k := fun s => (m s).andThen k

/-- A command with its effect and whether it reports success. -/
def command (ok : σ → Bool) (effect : σ → σ) : Script σ Unit := fun s =>
  ⟨[effect s], effect s, if ok s then some () else none⟩

/-- A command that only reads. -/
def query (answer : σ → Option α) : Script σ α := fun s => ⟨[], s, answer s⟩

/-- Go on whether or not the script fails. -/
def attempt (m : Script σ α) : Script σ (Option α) := fun s =>
  ⟨(m s).visited, (m s).state, some (m s).result⟩

/-- `P` holds at every intermediate point. -/
def Always (P : σ → Prop) (m : Script σ α) (s : σ) : Prop := ∀ t ∈ (m s).visited, P t

/-- Every run of the script from a state with `P` stays in `P`. -/
def Keeps (P : σ → Prop) (m : Script σ α) : Prop := ∀ s, P s → Always P m s ∧ P (m s).state

theorem Done.andThen_none (h : d.result = none) (k : α → Script σ β) :
    d.andThen k = ⟨d.visited, d.state, none⟩ := by
  unfold Done.andThen
  rw [h]

theorem Done.andThen_some (h : d.result = some a) (k : α → Script σ β) :
    d.andThen k =
      ⟨d.visited ++ (k a d.state).visited, (k a d.state).state, (k a d.state).result⟩ := by
  unfold Done.andThen
  rw [h]

theorem bind_apply (m : Script σ α) (k : α → Script σ β) (s : σ) : (m >>= k) s = (m s).andThen k :=
  rfl

theorem bind_state_of_result
    (h : (m s).result = some a) : ((m >>= k) s).state = (k a (m s).state).state := by
  rw [bind_apply, Done.andThen_some h]

theorem bind_result_none (h : (m s).result = none) : ((m >>= k) s).result = none := by
  rw [bind_apply, Done.andThen_none h]

theorem bind_eq_some {b : β} (h : ((m >>= k) s).result = some b) : ∃ a, (m s).result = some a ∧
      (k a (m s).state).result = some b ∧ ((m >>= k) s).state = (k a (m s).state).state := by
  cases hm : (m s).result with
  | none => exact absurd ((bind_result_none hm).symm.trans h) (by simp)
  | some a =>
    refine ⟨a, rfl, ?_, bind_state_of_result hm⟩
    rwa [bind_apply, Done.andThen_some hm] at h

theorem bind_result_ite {m : Script σ Unit} {k : Unit → Script σ β} {ok : Bool}
    (h : (m s).result = if ok then some () else none) :
    ((m >>= k) s).result = if ok then (k () (m s).state).result else none := by
  rw [bind_apply]
  cases ok with
  | false =>
    rw [Done.andThen_none h]
    rfl
  | true =>
    rw [Done.andThen_some h]
    rfl

section

variable {P : σ → Prop} {s : σ} {a : α} {m : Script σ α} {k : α → Script σ β}
  {Q : α → σ → Prop} {I : σ → Prop} {f : β → Script σ PUnit}

/-! ## Intermediate points -/

theorem always_pure (a : α) : Always P (pure a) s := by
  intro t ht
  cases ht

theorem always_query (answer : σ → Option α) : Always P (query answer) s := by
  intro t ht
  cases ht

theorem always_command (ok : σ → Bool) (effect : σ → σ) :
    Always P (command ok effect) s ↔ P (effect s) := by
  simp [Always, command]

/-- A script and what follows it: the rest starts in the state that the first part leaves, if that
part has a result. -/
theorem always_bind (m : Script σ α) (k : α → Script σ β) : Always P (m >>= k) s ↔
      Always P m s ∧ ∀ a, (m s).result = some a → Always P (k a) (m s).state := by
  unfold Always
  rw [bind_apply]
  cases h : (m s).result with
  | none =>
    rw [Done.andThen_none h]
    constructor
    · intro hp
      refine ⟨hp, ?_⟩
      intro a ha
      cases ha
    · exact And.left
  | some a =>
    rw [Done.andThen_some h]
    simp only [mem_append]
    constructor
    · intro hp
      refine ⟨fun t ht => hp t (.inl ht), ?_⟩
      intro b hb t ht
      cases hb
      exact hp t (.inr ht)
    · rintro ⟨hm, hk⟩ t (ht | ht)
      · exact hm t ht
      · exact hk a rfl t ht

/-- What follows an attempt always runs, with the result the attempt had. -/
theorem always_attempt_bind (m : Script σ α) (k : Option α → Script σ β) :
    Always P (attempt m >>= k) s ↔ Always P m s ∧ Always P (k (m s).result) (m s).state := by
  rw [always_bind]
  refine and_congr_right fun _ => ?_
  constructor
  · intro h
    exact h _ rfl
  · intro h a ha
    cases ha
    exact h

theorem attempt_bind_result (m : Script σ α) (k : Option α → Script σ β) :
    ((attempt m >>= k) s).result = (k (m s).result (m s).state).result := rfl

theorem attempt_bind_state (m : Script σ α) (k : Option α → Script σ β) :
    ((attempt m >>= k) s).state = (k (m s).result (m s).state).state := rfl

/-! ## Parts that keep a property -/

theorem keeps_pure (a : α) : Keeps P (pure a) := fun _ hs => ⟨always_pure a, hs⟩

theorem keeps_command {ok : σ → Bool} {effect : σ → σ} (h : ∀ s, P s → P (effect s)) :
    Keeps P (command ok effect) :=
  fun s hs => ⟨(always_command ok effect).mpr (h s hs), h s hs⟩

theorem Keeps.and {Q : σ → Prop} (hP : Keeps P m) (hQ : Keeps Q m) : Keeps (fun s => P s ∧ Q s) m :=
  fun s hs => ⟨fun t ht => ⟨(hP s hs.1).1 t ht, (hQ s hs.2).1 t ht⟩, (hP s hs.1).2, (hQ s hs.2).2⟩

theorem keeps_query (answer : σ → Option α) : Keeps P (query answer) :=
  fun _ hs => ⟨always_query answer, hs⟩

theorem keeps_attempt (h : Keeps P m) : Keeps P (attempt m) := h

theorem keeps_bind (hm : Keeps P m) (hk : ∀ a, Keeps P (k a)) : Keeps P (m >>= k) := by
  intro s hs
  obtain ⟨halw, hend⟩ := hm s hs
  refine ⟨(always_bind m k).mpr ⟨halw, fun a _ => (hk a _ hend).1⟩, ?_⟩
  rw [bind_apply]
  cases h : (m s).result with
  | none => rwa [Done.andThen_none h]
  | some a =>
    rw [Done.andThen_some h]
    exact (hk a _ hend).2

/-- What follows a question, given the answer in the state in which it is asked. -/
theorem keeps_attempt_query_bind {answer : σ → Option α} {k : Option α → Script σ β}
    (h : ∀ o s, answer s = o → P s → Always P (k o) s ∧ P (k o s).state) :
    Keeps P (attempt (query answer) >>= k) := by
  intro s hs
  obtain ⟨halw, hend⟩ := h _ s rfl hs
  exact ⟨(always_attempt_bind _ _).mpr ⟨always_query _, halw⟩, hend⟩

theorem keeps_forM (xs : List β) (h : ∀ x ∈ xs, Keeps P (f x)) : Keeps P (xs.forM f) := by
  induction xs with
  | nil => exact keeps_pure _
  | cons x xs ih =>
    show Keeps P (f x >>= fun _ => xs.forM f)
    refine keeps_bind (h x (mem_cons_self ..)) ?_
    intro _
    exact ih fun y hy => h y (mem_cons_of_mem _ hy)

/-! ## Parts that lead somewhere -/

/-- From `P` the script leaves `I`, and `Q` of its result if it has one. -/
def Leads (P I : σ → Prop) (m : Script σ α) (Q : α → σ → Prop) : Prop :=
  ∀ s, P s → I (m s).state ∧ ∀ a, (m s).result = some a → Q a (m s).state

theorem Keeps.leads (h : Keeps P m) : Leads P P m fun _ => P :=
  fun s hs => ⟨(h s hs).2, fun _ _ => (h s hs).2⟩

theorem leads_pure (hI : ∀ s, P s → I s) (hQ : ∀ s, P s → Q a s) : Leads P I (pure a) Q := by
  intro s hs
  refine ⟨hI s hs, ?_⟩
  intro b hb
  cases hb
  exact hQ s hs

theorem leads_bind {R : β → σ → Prop} (hm : Leads P I m Q) (hk : ∀ a, Leads (Q a) I (k a) R) : Leads
    P I (m >>= k) R := by
  intro s hs
  obtain ⟨hI, hQ⟩ := hm s hs
  rw [bind_apply]
  cases h : (m s).result with
  | none =>
    rw [Done.andThen_none h]
    refine ⟨hI, ?_⟩
    intro b hb
    cases hb
  | some a =>
    rw [Done.andThen_some h]
    exact hk a _ (hQ a h)

theorem leads_fact {p : Prop} (h : p → Leads P I m Q) : Leads (fun s => P s ∧ p) I m Q :=
  fun s hs => h hs.2 s hs.1

theorem Leads.mono {P' I' : σ → Prop} {Q' : α → σ → Prop} (h : Leads P I m Q) (hP : ∀ s, P' s → P s)
    (hI : ∀ s, I s → I' s) (hQ : ∀ a s, Q a s → Q' a s) : Leads P' I' m Q' :=
  fun s hs => ⟨hI _ (h s (hP s hs)).1, fun a ha => hQ a _ ((h s (hP s hs)).2 a ha)⟩

/-! ## Scripts that get through -/

/-- The script gets through, and leaves `Q` of its result. -/
def Passes (m : Script σ α) (s : σ) (Q : α → σ → Prop) : Prop :=
  ∃ a, (m s).result = some a ∧ Q a (m s).state

theorem passes_bind {Q : β → σ → Prop} : Passes (m >>= k) s Q ↔ Passes m s fun a t => Passes (k a) t
    Q := by
  unfold Passes
  rw [bind_apply]
  cases h : (m s).result with
  | none =>
    rw [Done.andThen_none h]
    simp
  | some a =>
    rw [Done.andThen_some h]
    simp

theorem passes_attempt_bind {k : Option α → Script σ β} {Q : β → σ → Prop} : Passes (attempt m >>=
    k) s Q ↔ Passes (k (m s).result) (m s).state Q := Iff.rfl

theorem passes_pure : Passes (pure a) s Q ↔ Q a s := by
  show (∃ b, some a = some b ∧ Q b s) ↔ Q a s
  simp

theorem passes_iff (h : (m s).result = some a) : Passes m s Q ↔ Q a (m s).state := by
  unfold Passes
  rw [h]
  simp

theorem result_state_of_passes {t : σ} (h : ∀ Q : α → σ → Prop, Passes m s Q ↔ Q a t) : (m s).result
    = some a ∧ (m s).state = t := by
  obtain ⟨b, hb, rfl, ht⟩ := (h fun b u => b = a ∧ u = t).mpr ⟨rfl, rfl⟩
  exact ⟨hb, ht⟩

theorem forM_result {ok : β → Bool}
    (hf : ∀ x s, (f x s).result = if ok x then some () else none) (xs : List β) :
    ∀ s, (xs.forM f s).result = if xs.all ok then some () else none := by
  induction xs with
  | nil => exact fun _ => rfl
  | cons x xs ih =>
    intro s
    show ((f x >>= fun _ => xs.forM f) s).result = _
    rw [bind_result_ite (hf x s), ih, all_cons]
    cases ok x <;> rfl

end

end VQuasar.Scripts
