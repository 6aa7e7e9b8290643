import VQuasar.Leadership.Fencing

/-!
# The term that a request carries

`Lease::run` raises `fresh` before it publishes the epoch; a pass reads the first when it begins, and
`StampEpoch` the second at every request.  The epoch counts the changes of holder, so an instance that
held the lease at epoch `p` when the pass began has held it without interruption exactly if it holds it
at epoch `p` now, and then the requests of the pass should carry `p`.  They do if the pass has not begun
between an answer of the database and the stores it leads to, and no renewal fails meanwhile
(`stamped_with_term`); otherwise the first request of a term may carry no epoch (`first_unstamped`).
-/

namespace VQuasar.Leadership

open Runs Fleet

/-- What the last answer of the database asks for is in the cells already. -/
def Instance.upToDate (a : Instance) : Bool :=
  match a.loop with
  | .renew => true
  | .store epoch => epoch == some a.published
  | .publish epoch => epoch == a.published

/-- A pass of `i` begins when the cells are up to date, and no renewal fails during a pass. -/
def prompt (i : Identity) (t : Fleet) : FleetEvent → Bool
  | .startPass j => j != i || (t.instances i).upToDate
  | .acquire j answer => j != i || answer == .ok || (t.instances i).pass.isNone
  | _ => true

/-- No instance has started; `i` may have the lease from before. -/
def StampingInit (i : Identity) (t : Fleet) : Prop :=
  FleetInit t ∧ 0 ≤ t.lease.row.epoch ∧ (t.lease.row.holder = i → 0 < t.lease.row.epoch)

/-! ## The invariant -/

/-- What an instance knows of the lease while it holds it. -/
structure InTerm (i : Identity) (row : LeaseRow) (a : Instance) : Prop where
  nonneg : 0 ≤ row.epoch
  positive : row.holder = i → 0 < row.epoch
  term_le : a.term ≤ row.epoch
  pass_le : ∀ p, a.pass = some p → p ≤ row.epoch
  term : row.holder = i → a.fresh → a.loop ≠ .store none → a.term = row.epoch
  loop : row.holder = i → ∀ e, a.loop = .store (some e) ∨ a.loop = .publish e ∧ a.fresh →
    e = row.epoch ∧ a.term = row.epoch
  published : row.holder = i → a.fresh → a.loop = .renew → a.published = row.epoch
  held : ∀ p, a.pass = some p → row.holder = i → row.epoch = p →
    a.published = p ∧ a.loop ≠ .store none ∧ ∀ e, a.loop = .publish e → e = p

section

variable {i : Identity} {row row' : LeaseRow} {a : Instance} {t t' : Fleet} {j : Identity}

/-- A statement that leaves the lease with its holder, or to another instance than `i`. -/
theorem InTerm.lease (h : InTerm i row a)
    (hrow : (row'.holder = row.holder ∧ row'.epoch = row.epoch) ∨
      (row'.holder ≠ i ∧ row.epoch ≤ row'.epoch)) : InTerm i row' a := by
  cases h
  constructor <;> grind

theorem lease_other (hne : i ≠ j) (now : Int) :
    ((row.acquireOrRenew now j).1.holder = row.holder ∧
        (row.acquireOrRenew now j).1.epoch = row.epoch) ∨
      ((row.acquireOrRenew now j).1.holder ≠ i ∧ row.epoch ≤ (row.acquireOrRenew now j).1.epoch) := by
  rcases acquireOrRenew_cases row now j with ⟨-, hrow⟩ | ⟨-, hrow⟩
  · rw [hrow]
    refine .inr ⟨Ne.symm hne, ?_⟩
    unfold LeaseRow.taken
    grind
  · rw [hrow]
    exact .inl ⟨rfl, rfl⟩

section

variable (h : InTerm i row a)
include h

/-- The lease is taken or renewed, in the next term or in the same one. -/
theorem InTerm.taken (now : Int) :
    InTerm i (row.taken now i) { a with loop := .store (some (row.taken now i).epoch)
                                        term := (row.taken now i).epoch } := by
  cases h
  unfold LeaseRow.taken
  constructor <;> grind

/-- The loop stands down while no pass is under way, or while another instance has the lease. -/
theorem InTerm.lost (hfree : a.pass = none ∨ row'.holder ≠ i)
    (hrow : (row'.holder = row.holder ∧ row'.epoch = row.epoch) ∨
      (row'.holder ≠ row.holder ∧ row'.epoch = row.epoch + 1)) :
    InTerm i row' { a with loop := .store none } := by
  cases h
  constructor <;> grind

theorem InTerm.store {epoch : Option Int} (hloop : a.loop = .store epoch) :
    InTerm i row { a with fresh := epoch.isSome, loop := .publish (epoch.getD 0) } := by
  cases h
  cases epoch <;> constructor <;> grind

theorem InTerm.publish {epoch : Int} (hloop : a.loop = .publish epoch) :
    InTerm i row { a with published := epoch, loop := .renew } := by
  cases h
  constructor <;> grind

theorem InTerm.startPass (hf : a.fresh) (hu : a.upToDate) :
    InTerm i row { a with pass := some a.term } := by
  cases h
  unfold Instance.upToDate at hu
  constructor <;> grind

theorem InTerm.endPass : InTerm i row { a with pass := none } := by
  cases h
  constructor <;> grind

end

theorem instances_update (t : Fleet) (i j : Identity) (f : Instance → Instance) :
    (t.update j f).instances i = if i = j then f (t.instances i) else t.instances i := by
  unfold update
  by_cases h : i = j
  · subst h
    simp
  · simp [h]

theorem InTerm.acquire (h : InTerm i t.lease.row (t.instances i)) {answer : Answer}
    (hok : prompt i t (.acquire j answer)) :
    InTerm i (t.acquire j answer).lease.row ((t.acquire j answer).instances i) := by
  by_cases hij : i = j
  · subst hij
    have hfree : answer ≠ .ok → (t.instances i).pass = none := by
      intro hne
      simpa [prompt, hne] using hok
    unfold Fleet.acquire
    split
    · next held hans =>
      rw [instances_update, if_pos rfl]
      show InTerm i (t.lease.row.acquireOrRenew t.lease.now i).1 _
      unfold LeaseRow.acquireOrRenew at hans ⊢
      split at hans
      · next hc =>
        cases hans
        rw [if_pos hc]
        exact h.taken t.lease.now
      · cases hans
    · next hans =>
      rw [instances_update, if_pos rfl]
      refine h.lost (.inr ?_) (.inl ⟨rfl, rfl⟩)
      unfold LeaseRow.acquireOrRenew at hans
      split at hans
      · cases hans
      · next hc => exact fun hme => hc (.inr hme)
    · rw [instances_update, if_pos rfl]
      exact h.lost (.inl (hfree nofun)) (.inl ⟨rfl, rfl⟩)
    · rw [instances_update, if_pos rfl]
      exact h.lost (.inl (hfree nofun)) (acquireOrRenew_epoch t.lease.row t.lease.now i)
  · unfold Fleet.acquire
    split
    all_goals
      rw [instances_update, if_neg hij]
      first
        | exact h.lease (lease_other hij t.lease.now)
        | exact h

theorem InTerm.step {ev : FleetEvent} (h : InTerm i t.lease.row (t.instances i))
    (hok : prompt i t ev) (hs : t.step ev = some t') : InTerm i t'.lease.row (t'.instances i) := by
  cases ev with
  | acquire j answer =>
    simp only [Fleet.step] at hs
    split at hs
    · cases hs
      exact h.acquire hok
    · cases hs
  | store j | publish j =>
    simp only [Fleet.step] at hs
    split at hs
    · next epoch hloop =>
      cases hs
      rw [instances_update]
      split
      · next hij =>
        subst hij
        first
          | exact h.store hloop
          | exact h.publish hloop
      · exact h
    · cases hs
  | release j =>
    cases hs
    refine h.lease (.inl ?_)
    show (t.lease.row.release t.lease.now j).holder = _ ∧ (t.lease.row.release t.lease.now j).epoch = _
    unfold LeaseRow.release
    split <;> exact ⟨rfl, rfl⟩
  | startPass j =>
    simp only [Fleet.step] at hs
    split at hs
    · next hc =>
      cases hs
      rw [instances_update]
      split
      · next hij =>
        subst hij
        exact h.startPass hc.1 (by simpa [prompt] using hok)
      · exact h
    · cases hs
  | endPass j =>
    cases hs
    rw [instances_update]
    split
    · exact h.endPass
    · exact h
  | send j | deliver k =>
    simp only [Fleet.step] at hs
    split at hs
    · cases hs
      try unfold receive
      first
        | exact h
        | split <;> exact h
    · cases hs
  | time passed | lose k | restart loaded =>
    cases hs
    exact h

theorem StampingInit.inTerm (h : StampingInit i t) : InTerm i t.lease.row (t.instances i) := by
  obtain ⟨⟨hidle, -, -⟩, hn, hp⟩ := h
  rw [hidle]
  unfold Instance.idle
  constructor <;> grind

end

/-- **Every request of a term carries it**, in every run in which the passes of `i` begin when the
cells are up to date and no renewal fails during one. -/
theorem stamped_with_term {i : Identity} {t : Fleet}
    (hr : Reach step (fun t ev => prompt i t ev = true) (StampingInit i) t) :
    (∀ t', prompt i t (.startPass i) → t.step (.startPass i) = some t' →
      t.lease.row.holder = i → (t'.instances i).pass = some t.lease.row.epoch) ∧
    ∀ p, (t.instances i).pass = some p → t.lease.row.holder = i → t.lease.row.epoch = p →
      stampOf (t.instances i).published = .epoch p := by
  have h : InTerm i t.lease.row (t.instances i) :=
    hr.invariant (fun _ hi => hi.inTerm) fun _ _ _ hi hok hs => hi.step hok hs
  refine ⟨fun t' hok hs hme => ?_, fun p hpass hme he => ?_⟩
  · simp only [step] at hs
    split at hs
    · next hc =>
      cases hs
      have hu : (t.instances i).upToDate := by simpa [prompt] using hok
      rw [instances_update, if_pos rfl, h.term hme hc.1 fun hnone => ?_]
      simp [Instance.upToDate, hnone] at hu
    · cases hs
  · rw [(h.held p hpass hme he).1]
    exact if_pos (he ▸ h.positive hme)

/-- A pass that begins when the loop is asleep. -/
theorem stamped_with_term_asleep :
    stampOf ((final step newFleet (round "a" ++ [.startPass "a"])).instances "a").published =
      .epoch 1 :=
  (stamped_with_term (i := "a") (Reach.final (fun _ _ h => h) ⟨newFleet_init, by decide, by decide⟩
    (by decide) (by decide))).2 1 (by decide) (by decide) (by decide)

/-- **The first request of a term may carry no epoch.**  The lease is won and `fresh` raised, and a pass
begins before the epoch is published. -/
theorem first_unstamped : ∃ t, Reach step anyStep (StampingInit "a") t ∧
      exec step newFleet [.acquire "a" .ok, .store "a", .startPass "a", .send "a"] = some t ∧
      (t.instances "a").pass = some 1 ∧ t.lease.row.holder = "a" ∧ t.lease.row.epoch = 1 ∧
      t.lease.now < t.lease.row.expiresAt ∧ t.net = [⟨.absent, 1⟩] := by
  refine ⟨final step newFleet [.acquire "a" .ok, .store "a", .startPass "a", .send "a"], ?_, rfl,
    by decide, by decide, by decide, by decide, by decide⟩
  exact Reach.final_anyStep ⟨newFleet_init, by decide, by decide⟩ (by decide)

end VQuasar.Leadership
