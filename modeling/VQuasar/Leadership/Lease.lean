import Mathlib.Logic.Basic

/-!
# The controller lease

The one row of `controller_lease` and the three statements that instances issue against it
(`services/control/src/lease.rs`).  Each is atomic and judges expiry by the clock of the database,
which never goes back; in between, time passes.  Times are in microseconds.

`lease_safety` is what a run of any length keeps, with any number of instances: the epoch counts the
changes of holder, an epoch belongs to one holder, and a lease that `confirm` has found good stays
with its holder for half its lifetime unless it is released.
-/

namespace VQuasar.Leadership

abbrev Identity := String

/-- `TTL`, 15 seconds -/
def ttl : Int := 15000000

structure LeaseRow where
  holder : Identity
  epoch : Int
  acquiredAt : Int
  expiresAt : Int
deriving DecidableEq, Repr

structure Held where
  epoch : Int
  tookOver : Bool
deriving DecidableEq, Repr

/-! ## Statements -/

variable (row : LeaseRow) (now : Int) (me : Identity)

def LeaseRow.taken : LeaseRow :=
  { holder := me
    epoch := if row.holder = me then row.epoch else row.epoch + 1
    acquiredAt := if row.holder = me then row.acquiredAt else now
    expiresAt := now + ttl }

/-- `acquire_or_renew`.  `RETURNING` reads the row as it was written, so `took_over` compares the
new holder with itself. -/
def LeaseRow.acquireOrRenew : LeaseRow × Option Held :=
  if row.expiresAt < now ∨ row.holder = me then
    let row' := row.taken now me
    (row', some ⟨row'.epoch, row'.holder != me⟩)
  else (row, none)

/-- `confirm`: held by `me`, with more than half the lifetime left. -/
def LeaseRow.confirm : Bool :=
  row.holder == me && decide (row.expiresAt > now + ttl / 2)

def LeaseRow.release : LeaseRow :=
  if row.holder = me then { row with expiresAt := now - 1000000 } else row

/-! ## Runs -/

structure LeaseState where
  row : LeaseRow
  now : Int
deriving DecidableEq, Repr

inductive LeaseEvent
  | acquireOrRenew (me : Identity)
  | confirm (me : Identity)
  | release (me : Identity)
  | pass (time : Nat)
deriving DecidableEq, Repr

def LeaseState.step (s : LeaseState) : LeaseEvent → LeaseState
  | .acquireOrRenew me => { s with row := (s.row.acquireOrRenew s.now me).1 }
  | .confirm _ => s
  | .release me => { s with row := s.row.release s.now me }
  | .pass time => { s with now := s.now + time }

def LeaseState.run (s : LeaseState) : List LeaseEvent → LeaseState
  | [] => s
  | e :: es => (s.step e).run es

section

variable {s : LeaseState} {e : LeaseEvent}

/-! ## One step -/

theorem acquireOrRenew_cases :
    ((row.expiresAt < now ∨ row.holder = me) ∧ (row.acquireOrRenew now me).1 = row.taken now me) ∨
      (row.holder ≠ me ∧ (row.acquireOrRenew now me).1 = row) := by
  unfold LeaseRow.acquireOrRenew
  by_cases h : row.expiresAt < now ∨ row.holder = me
  · rw [if_pos h]
    exact .inl ⟨h, rfl⟩
  · rw [if_neg h]
    exact .inr ⟨fun hme => h (.inr hme), rfl⟩

theorem acquireOrRenew_epoch : ((row.acquireOrRenew now me).1.holder = row.holder ∧
        (row.acquireOrRenew now me).1.epoch = row.epoch) ∨
      ((row.acquireOrRenew now me).1.holder ≠ row.holder ∧
        (row.acquireOrRenew now me).1.epoch = row.epoch + 1) := by
  rcases acquireOrRenew_cases row now me with ⟨-, hrow⟩ | ⟨-, hrow⟩
  · rw [hrow]
    by_cases hme : row.holder = me
    · exact .inl ⟨hme.symm, if_pos hme⟩
    · exact .inr ⟨fun hc => hme hc.symm, if_neg hme⟩
  · rw [hrow]
    exact .inl ⟨rfl, rfl⟩

theorem step_epoch (s : LeaseState) (e : LeaseEvent) :
    ((s.step e).row.holder = s.row.holder ∧ (s.step e).row.epoch = s.row.epoch) ∨
      ((s.step e).row.holder ≠ s.row.holder ∧ (s.step e).row.epoch = s.row.epoch + 1) := by
  cases e with
  | acquireOrRenew me => exact acquireOrRenew_epoch s.row s.now me
  | confirm | pass => exact .inl ⟨rfl, rfl⟩
  | release me =>
  left
  show (s.row.release s.now me).holder = _ ∧ (s.row.release s.now me).epoch = _
  unfold LeaseRow.release
  split <;> exact ⟨rfl, rfl⟩

theorem step_epoch_le (s : LeaseState) (e : LeaseEvent) : s.row.epoch ≤ (s.step e).row.epoch := by
  rcases step_epoch s e with ⟨-, h⟩ | ⟨-, h⟩ <;> omega

theorem step_now_le (s : LeaseState) (e : LeaseEvent) : s.now ≤ (s.step e).now := by
  cases e with
  | pass time =>
    show s.now ≤ s.now + time
    omega
  | _ => exact Int.le_refl _

/-- The lease is `i`'s until after `t`. -/
structure HeldUntil (s : LeaseState) (i : Identity) (t : Int) : Prop where
  holder : s.row.holder = i
  expires : t < s.row.expiresAt

variable {i : Identity} {t : Int}

theorem HeldUntil.of_row {s' : LeaseState} (h : HeldUntil s i t)
    (hrow : s'.row = s.row) : HeldUntil s' i t :=
  ⟨hrow ▸ h.holder, hrow ▸ h.expires⟩

theorem HeldUntil.step (h : HeldUntil s i t) (ht : s.now ≤ t)
    (hbound : t < s.now + ttl) (he : e ≠ .release i) : HeldUntil (s.step e) i t := by
  have hi := h.holder
  have hexp := h.expires
  cases e with
  | acquireOrRenew me =>
    rcases acquireOrRenew_cases s.row s.now me with ⟨hok, hrow⟩ | ⟨-, hrow⟩
    · rcases hok with hexpired | hme
      · omega
      · constructor
        · show (s.row.acquireOrRenew s.now me).1.holder = i
          rw [hrow]
          exact hme.symm.trans hi
        · show t < (s.row.acquireOrRenew s.now me).1.expiresAt
          rwa [hrow]
    · exact h.of_row hrow
  | confirm me => exact h
  | release me =>
    have hne : s.row.holder ≠ me := by
      intro hme
      apply he
      rw [← hme, hi]
    have hrow : s.row.release s.now me = s.row := if_neg hne
    exact h.of_row hrow
  | pass time => exact h.of_row rfl

theorem HeldUntil.refused {j : Identity} (h : HeldUntil s i t) (ht : s.now ≤ t)
    (hj : j ≠ i) : (s.row.acquireOrRenew s.now j).2 = none := by
  obtain ⟨hi, hexp⟩ := h
  unfold LeaseRow.acquireOrRenew
  rw [if_neg]
  rintro (hexpired | hholder)
  · omega
  · exact hj (hholder.symm.trans hi)

/-! ## Whole runs -/

section

variable (es : List LeaseEvent)
include es

theorem run_epoch_le : ∀ s : LeaseState, s.row.epoch ≤ (s.run es).row.epoch := by
  induction es with
  | nil => exact fun s => Int.le_refl _
  | cons e es ih => exact fun s => Int.le_trans (step_epoch_le s e) (ih (s.step e))

theorem run_now_le : ∀ s : LeaseState, s.now ≤ (s.run es).now := by
  induction es with
  | nil => exact fun s => Int.le_refl _
  | cons e es ih => exact fun s => Int.le_trans (step_now_le s e) (ih (s.step e))

theorem run_holder_eq :
    ∀ s : LeaseState, (s.run es).row.epoch = s.row.epoch → (s.run es).row.holder = s.row.holder := by
  induction es with
  | nil => exact fun s _ => rfl
  | cons e es ih =>
    intro s heq
    have heq : ((s.step e).run es).row.epoch = s.row.epoch := heq
    have hle := run_epoch_le es (s.step e)
    rcases step_epoch s e with ⟨hholder, hepoch⟩ | ⟨-, hepoch⟩
    · exact (ih (s.step e) (heq.trans hepoch.symm)).trans hholder
    · omega

theorem HeldUntil.run :
    ∀ s : LeaseState, HeldUntil s i t → (s.run es).now ≤ t → t < s.now + ttl →
      .release i ∉ es → HeldUntil (s.run es) i t := by
  induction es with
  | nil => exact fun s h _ _ _ => h
  | cons e es ih =>
    intro s h ht hbound hes
    have ht : ((s.step e).run es).now ≤ t := ht
    -- the clock has not reached `t` before the step either
    have h₁ := step_now_le s e
    have h₂ := run_now_le es (s.step e)
    refine ih (s.step e) (h.step (by omega) hbound ?_) ht (by omega) ?_
    · intro heq
      exact hes (heq ▸ List.mem_cons_self)
    · exact fun hmem => hes (List.mem_cons_of_mem e hmem)

end

theorem heldUntil_of_confirm (h : s.row.confirm s.now i) : HeldUntil s i (s.now + ttl / 2) := by
  simp only [LeaseRow.confirm, Bool.and_eq_true, beq_iff_eq, decide_eq_true_eq] at h
  exact ⟨h.1, h.2⟩

end

/-- **Lease safety.**  Over any run: the epoch does not decrease, it names its holder, a step raises
it exactly if it changes the holder, and while `i` is confirmed and does not release, nobody else
gets the lease before half its lifetime is over. -/
theorem lease_safety (s : LeaseState) (es : List LeaseEvent) : s.row.epoch ≤ (s.run es).row.epoch ∧
      ((s.run es).row.epoch = s.row.epoch → (s.run es).row.holder = s.row.holder) ∧
      (∀ e, (s.run es).row.epoch < ((s.run es).step e).row.epoch ↔
        ((s.run es).step e).row.holder ≠ (s.run es).row.holder) ∧
      ∀ i j, s.row.confirm s.now i → .release i ∉ es → j ≠ i → (s.run es).now < s.now + ttl / 2 →
        ((s.run es).row.acquireOrRenew (s.run es).now j).2 = none := by
  refine ⟨run_epoch_le es s, run_holder_eq es s, ?_, ?_⟩
  · intro e
    rcases step_epoch (s.run es) e with ⟨hholder, hepoch⟩ | ⟨hholder, hepoch⟩
    · constructor
      · intro hlt
        omega
      · exact fun hne => absurd hholder hne
    · constructor
      · exact fun _ => hholder
      · intro _
        omega
  · intro i j hconfirm hes hj hnow
    have hheld := heldUntil_of_confirm hconfirm
    have hbound : s.now + ttl / 2 < s.now + ttl := by
      unfold ttl
      omega
    exact (HeldUntil.run es s hheld (by omega) hbound hes).refused (by omega) hj

end VQuasar.Leadership
