import VQuasar.Lifecycle.Location

/-!
# One migration at a time

`migrate` and `drain` ask `active_migration_for_vm` and insert the row later, as two statements
with no constraint behind them: two requests that both ask before either inserts leave two active
migrations (`two_active_reachable`).  `active_unique` shows that nothing else is wrong.  In every
run in which no row is inserted while another is active there is at most one, whatever else
fails: the controller moves a row on only while it is active, and never makes one active again.
`ExclusiveReach.of_serial` says how requests get there: one of them at a time between its check
and its insert.
-/

namespace VQuasar.Lifecycle

open Runs List Option

/-- No migration is inserted while one is active. -/
def exclusive (s : State) : Event → Bool
  | .migrateInsert _ => !s.activeMigration
  | _ => true

def ExclusiveReach : State → Prop := Reach step (fun s e => exclusive s e = true) Init

/-- At most one migration is active, and a pass that has one in hand has that one. -/
structure OneActive (s : State) : Prop where
  ids : Numbered s.migrations
  one : ∀ m ∈ s.migrations, ∀ m' ∈ s.migrations, m.state.active → m'.state.active →
    m = m'
  hand : ∀ m, s.pc.migration = some m → m ∈ s.migrations ∧ m.state.active

/-! ## One step -/

section

variable {s s' : State} {e : Event}

theorem OneActive.inHand (h : OneActive s) : InHand s := ⟨h.ids, h.hand⟩

theorem OneActive.step (h : OneActive s) (hok : exclusive s e) (hs : step s e = some s') :
    OneActive s' := by
  obtain ⟨hids, hhand⟩ := h.inHand.step hs
  refine ⟨hids, ?_, hhand⟩
  rcases step_migrations hs with hmig | ⟨m, st, url, hm, -, hmig⟩ | ⟨i, q, rfl, -, hmig⟩ <;> rw [hmig]
  · exact h.one
  · intro x hx x' hx' hxa hxa'
    obtain ⟨y, hy, hact, rfl⟩ := h.inHand.of_update hm hx
    obtain ⟨y', hy', hact', rfl⟩ := h.inHand.of_update hm hx'
    rw [h.one y hy y' hy' (hact hxa) (hact' hxa')]
  · -- an old row is not active, so both are the new one
    have hidle : ∀ m ∈ s.migrations, m.state.active = false := by
      simpa [exclusive, State.activeMigration] using hok
    have hnew : ∀ m ∈ (s.insertMigration q.source q.target).migrations, m.state.active →
        m = ⟨s.migrations.length, some q.source, q.target, .pending, none⟩ := by
      intro m hm hact
      rcases mem_append.mp hm with hm | hm
      · rw [hidle m hm] at hact
        cases hact
      · exact mem_singleton.mp hm
    intro m hm m' hm' hact hact'
    exact (hnew m hm hact).trans (hnew m' hm' hact').symm

end

variable {s : State}

theorem oneActive_init (h : Init s) : OneActive s := by
  obtain ⟨-, -, hmig, hpc, -⟩ := h
  refine ⟨?_, ?_, ?_⟩
  · intro i m hi
    rw [hmig] at hi
    cases hi
  · intro m hm
    rw [hmig] at hm
    cases hm
  · intro m hm
    rw [hpc] at hm
    cases hm

theorem ExclusiveReach.oneActive (h : ExclusiveReach s) : OneActive s :=
  Reach.invariant (fun _ => oneActive_init) (fun _ _ _ hi hok hs => hi.step hok hs) h

/-! ## Concrete runs -/

/-- A migration to host 1 whose receiver cannot be prepared; the VM stays on host 0. -/
def refusedByOne : List Event :=
  [.migrateRead 1, .migrateCheck 0, .migrateInsert 0, .migratePhase 0,
   .beginMigration ⟨0, some 0, 1, .pending, none⟩, .db, .call deadCall, .call plainCall, .db, .db]

def againToOne : List Event :=
  [.migrateRead 1, .migrateCheck 0, .migrateInsert 0, .migratePhase 0]

/-! ## The table -/

/-- How many requests have made their check and not yet inserted. -/
def State.checked (s : State) : Nat := s.requests.countP fun q => q.stage == .checked

/-- No request makes its check while another one stands between its check and its insert. -/
def serial (s : State) : Event → Bool
  | .migrateCheck _ => s.checked == 0
  | _ => true

/-- What one request at a time gives: a check still stands when its request inserts. -/
structure Serial (s : State) : Prop where
  one : s.checked ≤ 1
  stands : 0 < s.checked → s.activeMigration = false

section

variable {s s' : State} {e : Event}

theorem checked_split {i : Nat} {q : MigrateRequest} (hi : s.requests[i]? = some q)
    (r : Option MigrateRequest) :
    (setRequest s i r).checked + (if q.stage = .checked then 1 else 0) =
      s.checked + (r.toList.countP fun q => q.stage == .checked) := by
  have hsplit : s.requests = s.requests.take i ++ q :: s.requests.drop (i + 1) := by
    obtain ⟨hlt, hget⟩ := List.getElem?_eq_some_iff.mp hi
    rw [← hget, getElem_cons_drop, take_append_drop]
  have hcount : s.checked = (s.requests.take i).countP (fun q => q.stage == .checked) +
      ((s.requests.drop (i + 1)).countP (fun q => q.stage == .checked) +
        if q.stage = .checked then 1 else 0) := by
    have h := congrArg (List.countP fun q => q.stage == .checked) hsplit
    rw [countP_append, countP_cons] at h
    simp only [beq_iff_eq] at h
    exact h
  rw [hcount]
  simp only [setRequest, State.checked, countP_append]
  omega

theorem activeMigration_congr (h : s'.migrations = s.migrations) :
    s'.activeMigration = s.activeMigration := by
  unfold State.activeMigration
  rw [h]

theorem Serial.same (h : Serial s) (hcheck : s'.checked ≤ s.checked)
    (hmig : s'.migrations = s.migrations) : Serial s' := by
  refine ⟨Nat.le_trans hcheck h.one, ?_⟩
  intro hpos
  rw [activeMigration_congr hmig]
  exact h.stands (Nat.lt_of_lt_of_le hpos hcheck)

theorem Serial.apiStep (h : Serial s) (hok : serial s e) (hs : apiStep s e = some s') :
    Serial s' := by
  cases apiStep_goes hs with
  | @migrateInsert i q hq hst =>
    -- the request was the only one past its check
    have hsplit := checked_split (s := s.insertMigration q.source q.target) hq
      (some { q with stage := .inserted })
    have hone := h.one
    rw [if_pos hst] at hsplit
    have hzero : (setRequest (s.insertMigration q.source q.target) i
        (some { q with stage := .inserted })).checked = 0 := by
      have hsame : (s.insertMigration q.source q.target).checked = s.checked := rfl
      simp only [toList_some, countP_singleton] at hsplit
      simp at hsplit
      omega
    exact ⟨by omega, fun hpos => by omega⟩
  | @migrateCheck i q hq hnone =>
    have hzero : s.checked = 0 := by simpa [serial] using hok
    have hsplit := checked_split hq (some { q with stage := .checked })
    refine ⟨?_, fun _ => hnone⟩
    simp at hsplit
    omega
  | migratePhase hq =>
    have hsplit := checked_split (s := s.setVmPhase .migrating) hq none
    have hsame : (s.setVmPhase .migrating).checked = s.checked := rfl
    refine h.same ?_ rfl
    simp at hsplit
    omega
  | migrateRead =>
    refine h.same ?_ rfl
    simp [State.checked]
  | apiCrash => exact h.same (Nat.zero_le _) rfl
  | create | createRollback | createDone | setPower | delete => exact h.same (Nat.le_refl _) rfl

theorem Serial.step (h : Serial s) (ha : OneActive s) (hok : serial s e)
    (hs : step s e = some s') : Serial s' := by
  cases step_kind hs with
  | db he hdb =>
    have hreq : s'.checked = s.checked := by
      unfold State.checked
      rw [(dbStep_frame hdb).2.2.2]
    rcases dbStep_migrations hdb with hmig | ⟨m, st, url, hmoves, -⟩
    · exact h.same (Nat.le_of_eq hreq) hmig
    obtain ⟨hm, hact⟩ := ha.hand m hmoves.migration
    have hany : s.activeMigration := any_eq_true.mpr ⟨m, hm, hact⟩
    refine ⟨hreq ▸ h.one, ?_⟩
    intro hpos
    simp [h.stands (hreq ▸ hpos)] at hany
  | call c he hcall =>
    have heff := callStep_effect hcall
    have hreq : s'.checked = s.checked := by
      unfold State.checked
      rw [heff.requests]
    exact h.same (Nat.le_of_eq hreq) heff.migrations
  | crash he hs' | exits x v he hs' | host x st he hs' =>
    subst hs'
    exact h.same (Nat.le_refl _) rfl
  | api hapi => exact h.apiStep hok hapi
  | begins hbegin =>
    obtain ⟨pc, rfl, -⟩ := beginStep_effect hbegin
    exact h.same (Nat.le_refl _) rfl

theorem Serial.exclusive (h : Serial s) (hs : Lifecycle.step s e = some s') : exclusive s e := by
  cases e with
  | migrateInsert i =>
    simp only [Lifecycle.step, Lifecycle.apiStep] at hs
    split at hs
    · next q hq =>
      split at hs
      · next hst =>
        have hpos : 0 < s.checked :=
          countP_pos_iff.mpr ⟨q, mem_of_getElem? hq, beq_iff_eq.mpr hst⟩
        show (!s.activeMigration) = true
        rw [h.stands hpos]
        rfl
      · cases hs
    · cases hs
  | _ => rfl

end

theorem serial_init (h : Init s) : Serial s := by
  have hzero : s.checked = 0 := by
    unfold State.checked
    rw [h.2.2.2.2.2.1]
    rfl
  exact ⟨by omega, fun hpos => by omega⟩

/-- Requests that are one at a time between their check and their insert never insert a migration
while one is active. -/
theorem ExclusiveReach.of_serial
    (hr : Reach step (fun s e => serial s e = true) Init s) : ExclusiveReach s := by
  suffices h : ExclusiveReach s ∧ Serial s from h.1
  induction hr with
  | start s hi => exact ⟨.start s hi, serial_init hi⟩
  | next s s' e _ hok hs ih =>
    exact ⟨.next s s' e ih.1 (ih.2.exclusive hs) hs, ih.2.step ih.1.oneActive hok hs⟩

/-- **One request at a time** leaves at most one active migration, whatever else fails. -/
theorem serial_one_active (hr : Reach step (fun s e => serial s e = true) Init s) : OneActive s :=
  (ExclusiveReach.of_serial hr).oneActive

theorem serial_one_active_retried :
    OneActive (final step start (bootOnZero ++ refusedByOne ++ againToOne)) :=
  serial_one_active (Reach.final (fun _ _ h => h) start_init (by decide) (by decide))

end VQuasar.Lifecycle
