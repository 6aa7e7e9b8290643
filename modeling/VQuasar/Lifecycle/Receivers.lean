import VQuasar.Lifecycle.Exclusion

/-!
# Receivers that outlive their migration

`prepare_receive` is idempotent by VM id, so a receiver that a failed migration leaves behind is handed
to the next migration of the VM to that host.  `release_receiver` discards it, but only from `Pending`:
a migration that fails from `Sending` or `Finalizing` leaves its receiver (`stale_receiver_reused`).

`Receivers` is the system with, beside it, the migration that the last receiver of a host was launched
for, which is not in the source, and with the background receive failing while its process lives on.
`releases` is the condition on steps under which a receiver belongs to the one active migration; then
every URL that `prepare_receive` returns is one on which a receiver of that migration waits.
-/

namespace VQuasar.Lifecycle

open Runs List Option AgentVm Function

variable {m : Migration} {x : HostId} {c : Call} {a : AgentVm}

/-! ## The system with its receivers -/

structure Receivers where
  state : State
  launchedFor : HostId → Option Nat

inductive Happening
  | event (e : Event)
  | receiveFails (h : HostId)
deriving DecidableEq, Repr

/-- The background receive fails; a `finalize_receive` that waits for it reports that. -/
def AgentVm.receiveFails (a : AgentVm) : AgentVm :=
  { a with pending := a.pending.map fun p =>
      if p.recv = .waiting then { p with recv := .failed, finalizing := false } else p }

/-- The migration whose `prepare_receive` call reaches its target in this step. -/
def preparing (s : State) : Event → Option (Migration × Call)
  | .call c =>
    match s.pc with
    | .migrationCall m => if m.state = .pending ∧ c.outcome ≠ .fail then some (m, c) else none
    | _ => none
  | _ => none

/-- What `prepare_receive` answers in this step, and for which migration. -/
def prepareAnswer (s : State) (e : Event) : Option (Migration × Url) :=
  (preparing s e).bind fun (m, c) =>
    match (s.agents m.targetHost).prepareReceive c.receive m.targetHost c.serial with
    | some (_, .ok url) => some (m, url)
    | _ => none

/-- A call that finds no receiver launches one. -/
def launchedBy (s : State) (e : Event) (launchedFor : HostId → Option Nat) : HostId → Option Nat :=
  match preparing s e with
  | some (m, _) =>
    if (s.agents m.targetHost).pending = none then
      update launchedFor m.targetHost (some m.id)
    else launchedFor
  | none => launchedFor

namespace Receivers

def step (w : Receivers) : Happening → Option Receivers
  | .event e => (Lifecycle.step w.state e).map fun s => ⟨s, launchedBy w.state e w.launchedFor⟩
  | .receiveFails h => some { w with state := w.state.setAgent h (w.state.agents h).receiveFails }

def Init (w : Receivers) : Prop := Lifecycle.Init w.state ∧ ∀ h, w.launchedFor h = none

/-- On `url` a receiver that was launched for `m` waits: its process holds nothing yet. -/
def Waits (w : Receivers) (m : Migration) (url : Url) : Prop :=
  ∃ p, (w.state.agents m.targetHost).pending = some p ∧ p.returnUrl = url ∧ p.recv = .waiting ∧
    p.vmm = .noVm ∧ w.launchedFor m.targetHost = some m.id

end Receivers

/-! ## The condition on steps -/

/-- No migration to `h` is still `Pending`. -/
def noneForming (s : State) (h : HostId) : Bool :=
  !s.migrations.any fun m => m.state == .pending && m.targetHost == h

/-- The steps under which a receiver goes with its migration:
* a migration is marked `Failed` only from `Pending`, and the call that releases its receiver gets
  through;
* `finalize_receive` does not find a receiver beside a VM under management;
* a receiver does not fail while its migration is `Pending`;
* a migration is inserted only while none is active. -/
def releases (s : State) : Event → Bool
  | .db =>
    match s.pc with
    | .fail m => m.state == .pending
    | _ => true
  | .call c =>
    match s.pc with
    | .release _ => c.outcome != .fail
    | .migrationCall m =>
      !(m.state == .finalizing) || (s.agents m.targetHost).managed.isNone ||
        (s.agents m.targetHost).pending.isNone
    | _ => true
  | .vmmExit h .pending => noneForming s h
  | .migrateInsert _ => !s.activeMigration
  | _ => true

def Receivers.releases (w : Receivers) : Happening → Bool
  | .event e => Lifecycle.releases w.state e
  | .receiveFails h => noneForming w.state h

theorem exclusive_of_releases {s : State} {e : Event} (h : releases s e) : exclusive s e := by
  cases e with
  | migrateInsert i => exact h
  | _ => rfl

/-! ## Targets are registered -/

/-- The targets of the migrations, and of the requests for one, are registered hosts. -/
structure TargetsKnown (s : State) : Prop where
  migrations : ∀ m ∈ s.migrations, s.hosts m.targetHost ≠ .absent
  requests : ∀ q ∈ s.requests, s.hosts q.target ≠ .absent

section

variable {s s' : State} {e : Event} {y : HostId} {husk : VmmState}

theorem callStep_hosts (hs : callStep s c = some s') : s'.hosts = s.hosts := by
  cases callStep_leaves hs <;> rfl

theorem hostState_known {st : HostState} (hs : step s (.hostState x st) = some s')
    (hy : s.hosts y ≠ .absent) : s'.hosts y ≠ .absent := by
  simp only [step] at hs
  split at hs
  · cases hs
  · next hnot =>
    cases hs
    show update s.hosts x st y ≠ .absent
    by_cases hxy : y = x
    · subst hxy
      rw [update_self]
      exact fun hst => hnot ⟨hy, hst⟩
    · rwa [update_of_ne hxy]

theorem step_known (hs : step s e = some s') (hy : s.hosts y ≠ .absent) : s'.hosts y ≠ .absent := by
  cases step_kind hs with
  | db he hdb => exact (dbStep_frame hdb).2.1 ▸ hy
  | call c he hcall => exact callStep_hosts hcall ▸ hy
  | crash he hs' | exits _ _ he hs' => exact hs' ▸ hy
  | host x st he _ =>
    subst he
    exact hostState_known hs hy
  | api hapi => exact (apiStep_effect hapi).hosts ▸ hy
  | begins hbeg =>
    obtain ⟨pc, rfl, -⟩ := beginStep_effect hbeg
    exact hy

theorem TargetsKnown.step (h : TargetsKnown s) (hi : InHand s) (hs : step s e = some s') :
    TargetsKnown s' := by
  refine ⟨fun m hm => step_known hs ?_, fun q hq => step_known hs ?_⟩
  · rcases target_of_step hi hs hm with ⟨y, hy, htarget, -⟩ | ⟨q, hq, htarget⟩
    · exact htarget ▸ h.migrations y hy
    · exact htarget ▸ h.requests q hq
  · rcases request_of_step hs hq with ⟨p, hp, -, htarget⟩ | ⟨-, hready, -⟩
    · exact htarget ▸ h.requests p hp
    · rw [hready]
      nofun

/-! ## Whose receiver it is -/

/-- A host whose receiver is gone before the migration in hand is ended. -/
def Pc.cleared : Pc → Option HostId
  | .finalized m | .discarded m | .moved m => some m.targetHost
  | .fail m => if m.state = .pending then some m.targetHost else none
  | _ => none

/-- The receiver of `x` was launched for the active migration to `x`, and while that is `Pending` it
waits. -/
def Owner (s : State) (f : HostId → Option Nat) (x : HostId) (p : PendingReceive) : Prop :=
  ∃ m ∈ s.migrations, m.state.active = true ∧ m.targetHost = x ∧ f x = some m.id ∧
    (m.state = .pending → p.recv = .waiting ∧ p.vmm = .noVm)

structure Owned (s : State) (f : HostId → Option Nat) : Prop where
  owner : ∀ x p, (s.agents x).pending = some p → Owner s f x p
  cleared : ∀ x, s.pc.cleared = some x → (s.agents x).pending = none

variable {f : HostId → Option Nat}

theorem Owner.past {p p' : PendingReceive} (h : Owner s f x p) (hone : OneActive s) (hm : m ∈
    s.migrations) (hact : m.state.active) (hpast : m.state ≠ .pending) : Owner s f x p' := by
  obtain ⟨m', hm', hact', htarget, hid, -⟩ := h
  obtain rfl := hone.one m hm m' hm' hact hact'
  exact ⟨m, hm, hact, htarget, hid, fun hp => absurd hp hpast⟩

theorem Owned.none_pending (h : Owned s f) (hone : OneActive s) (hm : m ∈ s.migrations) (hact :
    m.state.active) (hgone : (s.agents m.targetHost).pending = none) (x : HostId) : (s.agents
    x).pending = none := by
  cases hp : (s.agents x).pending with
  | none => rfl
  | some p =>
    obtain ⟨m', hm', hact', htarget, -⟩ := h.owner x p hp
    obtain rfl := hone.one m hm m' hm' hact hact'
    simp [htarget, hp] at hgone

theorem Owned.same (h : Owned s f) (hagents : s'.agents = s.agents)
    (hmig : ∀ m ∈ s.migrations, m ∈ s'.migrations)
    (hcleared : ∀ x, s'.pc.cleared = some x → (s.agents x).pending = none) : Owned s' f := by
  refine ⟨?_, hagents ▸ hcleared⟩
  intro x p hp
  rw [hagents] at hp
  obtain ⟨m, hm, hrest⟩ := h.owner x p hp
  exact ⟨m, hmig m hm, hrest⟩

/-! ## Database statements -/

theorem migrationFailed_cleared (hhost : s.hosts m.targetHost ≠ .absent) : (migrationFailed s
    m).cleared = none := by
  unfold migrationFailed
  split
  · rfl
  · next hnot =>
    have hpast : m.state ≠ .pending := fun hp => hnot ⟨hp, hhost⟩
    simp [Pc.cleared, hpast]

theorem advanceMigration_cleared (hhost : s.hosts m.targetHost ≠ .absent) : (advanceMigration s
    m).cleared = none := by
  have hfailed := migrationFailed_cleared hhost
  unfold advanceMigration
  split
  · exact hfailed
  split
  · split
    · exact hfailed
    · rfl
  · exact hfailed
  · rfl
  · rfl
  · rfl

theorem dbStep_cleared (hknown : TargetsKnown s) (hone : OneActive s) (hs : dbStep s = some s') :
    s'.pc.cleared = none ∨ s'.pc.cleared = s.pc.cleared := by
  have hhand := hone.hand
  have hgoes := dbStep_goes hs
  generalize s.pc = pc, s'.pc = pc' at hgoes hhand
  cases hgoes with
  | assigned | placed => exact .inl rfl
  | advanced m => exact .inl (advanceMigration_cleared (hknown.migrations m (hhand m rfl).1))
  | moved => exact .inr rfl
  | ends _ _ h => rcases h with rfl | rfl | rfl | rfl <;> exact .inl rfl

theorem Owned.advance (h : Owned s f) (hone : OneActive s) {st : MigrationState} {url : Option Url}
    (hm : m ∈ s.migrations) (hact : m.state.active) (hagents : s'.agents = s.agents) (hmig :
    s'.migrations = (s.updateMigration m.id st url).migrations) (hst : st.active) (hpast : st
    ≠ .pending) (hcleared : ∀ x, s'.pc.cleared = some x → (s.agents x).pending = none) : Owned s' f
    := by
  refine ⟨?_, hagents ▸ hcleared⟩
  intro x p hp
  rw [hagents] at hp
  obtain ⟨m', hm', hact', htarget, hid, -⟩ := h.owner x p hp
  obtain rfl := hone.one m hm m' hm' hact hact'
  refine ⟨{ m with state := st, migrationUrl := url <|> m.migrationUrl }, ?_, hst, htarget, hid,
    fun hp => absurd hp hpast⟩
  rw [hmig]
  exact mem_map.mpr ⟨m, hm, if_pos rfl⟩

theorem Owned.of_none (hnone : ∀ x, (s'.agents x).pending = none) : Owned s' f :=
  ⟨fun x p hp => absurd (hp.symm.trans (hnone x)) nofun, fun x _ => hnone x⟩

theorem Owned.dbStep (h : Owned s f) (hone : OneActive s) (hknown : TargetsKnown s)
    (hok : releases s .db) (hs : dbStep s = some s') : Owned s' f := by
  obtain ⟨hagents, -⟩ := dbStep_frame hs
  have hcleared : ∀ x, s'.pc.cleared = some x → (s.agents x).pending = none := by
    intro x hx
    rcases dbStep_cleared hknown hone hs with hc | hc
    · simp [hc] at hx
    · exact h.cleared x (hc ▸ hx)
  rcases dbStep_migrations hs with hmig | ⟨m, st, url, hmoves, hmig⟩
  · exact h.same hagents (fun m hm => hmig ▸ hm) hcleared
  obtain ⟨hm, hact⟩ := hone.hand m hmoves.migration
  -- a migration ends only after its receiver is gone
  have hends : s.pc.cleared = some m.targetHost → Owned s' f := by
    intro hc
    refine .of_none fun x => ?_
    rw [hagents]
    exact h.none_pending hone hm hact (h.cleared _ hc) x
  generalize hpc : s.pc = pc at hmoves
  cases hmoves with
  | sending | finalizing => exact h.advance hone hm hact hagents hmig rfl nofun hcleared
  | completed => exact hends (by rw [hpc]; rfl)
  | failed =>
    have hpending : m.state = .pending := by simpa [releases, hpc] using hok
    exact hends (by rw [hpc]; exact if_pos hpending)

/-! ## Agent calls -/

variable {pc : Pc} {a' : AgentVm} {r : Except AgentError Url} {u : Url} {agents : HostId → AgentVm}
  {o : Outcome}

theorem Owned.goto (h : Owned s f) (hpc : pc.cleared = none) : Owned (s.goto pc) f :=
  h.same rfl (fun _ hm => hm) fun x hx => absurd (hx.symm.trans hpc) nofun

theorem Owned.setAgent (h : Owned s f) (hpend : ∀ p, a.pending = some p → Owner s f x p)
    (hcleared : ∀ y, pc.cleared = some y → (if y = x then a else s.agents y).pending = none) : Owned
    ((s.setAgent x a).goto pc) f := by
  have hagents : ∀ y, ((s.setAgent x a).goto pc).agents y = if y = x then a else s.agents y :=
    fun y => agents_setAgent s x a y
  refine ⟨?_, ?_⟩
  · intro y p hp
    rw [hagents] at hp
    split at hp
    · next hy =>
      subst hy
      exact hpend p hp
    · exact h.owner y p hp
  · intro y hy
    rw [hagents]
    exact hcleared y hy

/-- The table of receivers stays, or loses its entry, and no migration is about to end. -/
theorem Owned.setAgent_of_none (h : Owned s f) (hpend : ∀ p, a.pending = some p →
    (s.agents x).pending = some p) (hpc : pc.cleared = none) : Owned ((s.setAgent x a).goto pc) f :=
  h.setAgent (fun p hp => h.owner x p (hpend p hp)) fun _ hy => absurd (hy.symm.trans hpc) nofun

theorem AgentVm.delete_pending {r : Except AgentError Unit}
    (h : a.delete = some (a', r)) : a'.pending = none := by
  rw [delete_eq h]
  exact a.dropPending_pending

theorem AgentVm.discard_pending {r : Except AgentError Unit}
    (h : a.discard = some (a', r)) : a'.pending = none := by
  rw [discard_eq h]
  exact a.dropPending_pending

theorem AgentVm.prepareReceive_pending {g : ReceiveFaults} {n : Nat} (h : a.prepareReceive g x n = some (a', r)) : a'.pending = a.pending ∨ a.pending
    = none ∧ ∃ url, a'.pending = some ⟨.noVm, .waiting, url, false⟩ := by
  unfold prepareReceive at h
  split at h
  · split at h
    · cases h
    · cases h
      exact .inl rfl
  · next hnone =>
    split at h
    · cases h
      exact .inl rfl
    · cases h
      exact .inl rfl
    · cases h
      exact .inl rfl
    · cases h
      exact .inl rfl
    all_goals
      split at h
      · cases h
      · cases h
        exact .inr ⟨hnone, _, rfl⟩

theorem AgentVm.receive_pending (h : a.receive u = some a')
    (hp : a'.pending.isSome) : a.pending.isSome := by
  unfold receive at h
  split at h
  · next p hfilter =>
    rw [(filter_eq_some_iff.mp hfilter).1]
    rfl
  · split at h
    · cases h
      exact hp
    · cases h

theorem sendMigration_pending {agents' : HostId → AgentVm} (h :
    sendMigration agents x u husk = some agents') (y : HostId) (hp : (agents' y).pending.isSome) : (agents y).pending.isSome := by
  obtain ⟨-, -, a, hreceive, rfl⟩ := sendMigration_spec h
  have hsent : ∀ z, (update agents x ((agents x).sent husk) z).pending =
      (agents z).pending := by
    intro z
    by_cases hz : z = x
    · subst hz
      rw [update_self]
      rfl
    · rw [update_of_ne hz]
  by_cases hy : y = u.host
  · subst hy
    rw [update_self] at hp
    rw [← hsent]
    exact receive_pending hreceive hp
  · rwa [update_of_ne hy, hsent] at hp

theorem Owned.relabel {f' : HostId → Option Nat} (h : Owned s f)
    (hf : ∀ y p, (s.agents y).pending = some p → f' y = f y) : Owned s f' := by
  refine ⟨?_, h.cleared⟩
  intro y p hp
  obtain ⟨m, hm, hact, htarget, hid, hwaits⟩ := h.owner y p hp
  exact ⟨m, hm, hact, htarget, (hf y p hp).trans hid, hwaits⟩

theorem launchedBy_prepare (hpc : s.pc = .migrationCall m) (hpending : m.state = .pending) (hout :
    c.outcome ≠ .fail) : launchedBy s (.call c) f = if (s.agents m.targetHost).pending = none then
    update f m.targetHost (some m.id) else f := by
  simp only [launchedBy, preparing, hpc, hpending, hout, ne_eq, not_false_eq_true, and_self,
    if_true]

theorem Owned.launchedBy (h : Owned s f) (hpc : s.pc = .migrationCall m) (hpending : m.state =
    .pending) (hout : c.outcome ≠ .fail) : Owned s (launchedBy s (.call c) f) := by
  refine h.relabel ?_
  intro y p hp
  rw [launchedBy_prepare hpc hpending hout]
  split
  · next hnone =>
    refine update_of_ne ?_ _ _
    rintro rfl
    simp [hnone] at hp
  · rfl

theorem prepareNext_cleared (hhost : s.hosts m.targetHost
    ≠ .absent) : (prepareNext s m o r).cleared = none := by
  unfold prepareNext
  split
  · rfl
  · exact migrationFailed_cleared hhost

theorem Owned.prepareReceive (h : Owned s f) (hone : OneActive s) (hknown : TargetsKnown s) (hpc :
    s.pc = .migrationCall m) (hpending : m.state = .pending) (hout : c.outcome ≠ .fail) (hprep : (s.agents m.targetHost).prepareReceive c.receive m.targetHost c.serial
    = some (a, r)) : Owned ((s.setAgent m.targetHost a).goto (prepareNext s m c.outcome r))
    (Lifecycle.launchedBy s (.call c) f) := by
  obtain ⟨hm, hact⟩ := hone.hand m (by rw [hpc]; rfl)
  have hnext : (prepareNext s m c.outcome r).cleared = none :=
    prepareNext_cleared (hknown.migrations m hm)
  have hlabel := h.launchedBy hpc hpending hout
  rcases prepareReceive_pending hprep with hsame | ⟨hnone, url, hnew⟩
  · exact hlabel.setAgent_of_none (fun p hp => hsame ▸ hp) hnext
  refine hlabel.setAgent ?_ fun y hy => absurd (hy.symm.trans hnext) nofun
  intro p hp
  obtain rfl := mem_unique hnew hp
  refine ⟨m, hm, hact, rfl, ?_, fun _ => ⟨rfl, rfl⟩⟩
  rw [launchedBy_prepare hpc hpending hout, if_pos hnone, update_self]

theorem Owned.sendMigration (h : Owned s f) (hone : OneActive s)
    (hpc : s.pc = .migrationCall m) (hsending : m.state = .sending)
    (hsend : sendMigration s.agents x u husk = some agents) (hnext : pc.cleared = none) : Owned (({ s with agents := agents } : State).goto pc) f := by
  obtain ⟨hm, hact⟩ := hone.hand m (by rw [hpc]; rfl)
  refine ⟨?_, fun y hy => absurd (hy.symm.trans hnext) nofun⟩
  intro y p hp
  have hsome : (s.agents y).pending.isSome :=
    sendMigration_pending hsend y (by rw [show (agents y).pending = some p from hp]; rfl)
  obtain ⟨q, hq⟩ := isSome_iff_exists.mp hsome
  exact (h.owner y q hq).past hone hm hact (by rw [hsending]; nofun)

theorem finalizeNext_cleared {r : Except AgentError Phase} (hhost : s.hosts
    m.targetHost ≠ .absent) : (finalizeNext s m o r).cleared = none ∨ (∃ p, r = .ok p) ∧
    (finalizeNext s m o r).cleared = some m.targetHost := by
  unfold finalizeNext
  split
  · refine .inr ⟨⟨_, rfl⟩, ?_⟩
    unfold afterFinalize
    split
    · split <;> rfl
    · rfl
  · exact .inl (migrationFailed_cleared hhost)

theorem Owned.finalizeReceive (h : Owned s f) (hone : OneActive s) (hknown : TargetsKnown s) (hpc :
    s.pc = .migrationCall m) (hfin : m.state = .finalizing) (hok : releases s (.call c)) {r :
    Except AgentError Phase} (hcall : (s.agents m.targetHost).finalizeReceive = some (a, r)) : Owned
    ((s.setAgent m.targetHost a).goto (finalizeNext s m c.outcome r)) f := by
  obtain ⟨hm, hact⟩ := hone.hand m (by rw [hpc]; rfl)
  have hhost := hknown.migrations m hm
  have hfree : (s.agents m.targetHost).managed = none ∨ (s.agents m.targetHost).pending = none := by
    simpa [releases, hpc, hfin] using hok
  -- an answer means that the receiver was adopted, now or before
  have hgone : (∃ p, r = .ok p) → a.pending = none := by
    intro hr
    rcases finalizeReceive_spec hcall with ⟨rfl, hmanaged⟩ | ⟨p, -, -, rfl⟩ | ⟨p, e, -, -, -, rfl, -⟩
    · rcases hfree with hnone | hnone
      · have := hmanaged hr
        simp [hnone] at this
      · exact hnone
    · rfl
    · obtain ⟨_, hr⟩ := hr
      cases hr
  have hpend : ∀ p, a.pending = some p → Owner s f m.targetHost p := by
    intro p hp
    have hpast : m.state ≠ .pending := by rw [hfin]; nofun
    rcases finalizeReceive_spec hcall with ⟨rfl, -⟩ | ⟨q, -, -, rfl⟩ | ⟨q, e, -, hq, -, -, rfl⟩
    · exact h.owner _ p hp
    · cases hp
    · exact (h.owner _ q hq).past hone hm hact hpast
  refine h.setAgent hpend ?_
  intro y hy
  rcases finalizeNext_cleared (o := c.outcome) (r := r) hhost with hc | ⟨hr, hc⟩
  · simp [hc] at hy
  · obtain rfl := mem_unique hc hy
    rw [if_pos rfl]
    exact hgone hr

theorem Owned.callStep (h : Owned s f) (hone : OneActive s) (hknown : TargetsKnown s) (hok :
    releases s (.call c)) (hs : callStep s c = some s') : Owned s' (Lifecycle.launchedBy s
    (.call c) f) := by
  have hfailed : ∀ {m}, s.pc = .migrationCall m → (migrationFailed s m).cleared = none := by
    intro m hpc
    exact migrationFailed_cleared (hknown.migrations m (hone.hand m (by rw [hpc]; rfl)).1)
  -- a receiver is launched only by the call of a pending migration
  have hf : (∀ m, s.pc = .migrationCall m → ¬ (m.state = .pending ∧ c.outcome ≠ .fail)) →
      Lifecycle.launchedBy s (.call c) f = f := by
    intro hnot
    simp only [Lifecycle.launchedBy, preparing]
    cases hpc : s.pc with
    | migrationCall m => simp only [if_neg (hnot m hpc)]
    | _ => rfl
  have hother : (∀ m, s.pc ≠ .migrationCall m) → Lifecycle.launchedBy s (.call c) f = f :=
    fun hne => hf fun m hpc => absurd hpc (hne m)
  cases callStep_leaves hs with
  | ensureFailed hpc | deleteFailed hpc | lost hpc | reported hpc =>
    rw [hother (by rw [hpc]; nofun)]
    exact h.goto rfl
  | @ensured vm x hpc a r ha =>
    rw [hother (by rw [hpc]; nofun)]
    have hframe := ((s.agents x).ensure_frame c.ensure vm.desired).1
    rw [ha] at hframe
    refine h.setAgent_of_none (fun p hp => hframe ▸ hp) ?_
    unfold ensureNext
    split <;> rfl
  | deleted hpc ha =>
    rw [hother (by rw [hpc]; nofun)]
    have hnone := delete_pending ha
    exact h.setAgent_of_none (fun p hp => absurd (hp.symm.trans hnone) nofun) rfl
  | @migrationFailed m hpc ho =>
    rw [hf fun m' hpc' hm => ?_]
    · exact h.goto (hfailed hpc)
    · cases hpc.symm.trans hpc'
      rcases ho with ho | ho
      · exact hm.2 ho
      · rw [ho] at hm
        cases hm.1
  | prepared hpc hm ho ha => exact h.prepareReceive hone hknown hpc hm ho ha
  | sent hpc hm _ _ _ ha pc hnext =>
    rw [hf fun m' hpc' hp => ?_]
    · refine h.sendMigration hone hpc hm ha ?_
      rcases hnext with rfl | rfl
      · rfl
      · exact hfailed hpc
    · cases hpc.symm.trans hpc'
      cases hm.symm.trans hp.1
  | finalized hpc hm ha =>
    rw [hf fun m' hpc' hp => ?_]
    · exact h.finalizeReceive hone hknown hpc hm hok ha
    · cases hpc.symm.trans hpc'
      cases hm.symm.trans hp.1
  | @discardFailed m hpc =>
    rw [hother (by rw [hpc]; nofun)]
    refine h.same rfl (fun _ hm => hm) ?_
    intro y hy
    cases hy
    exact h.cleared _ (by rw [hpc]; rfl)
  | @discarded m hpc x hx a r ha =>
    rw [hother (by rw [hpc]; nofun)]
    have hnone := discard_pending ha
    refine h.setAgent (fun p hp => absurd (hp.symm.trans hnone) nofun) ?_
    intro y hy
    cases hy
    split
    · exact hnone
    · exact h.cleared _ (by rw [hpc]; rfl)
  | releaseFailed hpc ho =>
    -- the condition: the release gets through
    simp [releases, hpc, ho] at hok
  | @released m hpc a r ha =>
    rw [hother (by rw [hpc]; nofun)]
    have hnone := discard_pending ha
    refine h.setAgent (fun p hp => absurd (hp.symm.trans hnone) nofun) ?_
    intro y hy
    have hy' : (if m.state = .pending then some m.targetHost else none) = some y := hy
    split at hy'
    · cases hy'
      rwa [if_pos rfl]
    · cases hy'

theorem prepareAnswer_eq_some {url : Url} (h : prepareAnswer s e = some (m, url)) : ∃ c a, e = .call
    c ∧ s.pc = .migrationCall m ∧ m.state = .pending ∧ c.outcome ≠ .fail ∧ (s.agents
    m.targetHost).prepareReceive c.receive m.targetHost c.serial = some (a, .ok url) := by
  obtain ⟨⟨m', c⟩, hprep, hans⟩ := bind_eq_some_iff.mp h
  simp only at hans
  cases e with
  | call c' =>
    simp only [preparing] at hprep
    split at hprep
    · next m'' hpc =>
      split at hprep
      · next hc =>
        cases hprep
        split at hans
        · next a u hres =>
          cases hans
          exact ⟨c, a, rfl, hpc, hc.1, hc.2, hres⟩
        · cases hans
      · cases hprep
    · cases hprep
  | _ => cases hprep

/-! ## The other steps -/

theorem Owned.touch (h : Owned s f) (hok : noneForming s x) (hpend : a.pending.isSome
    → (s.agents x).pending.isSome) : Owned (s.setAgent x a) f := by
  suffices hset : Owned ((s.setAgent x a).goto s.pc) f from hset
  refine h.setAgent ?_ ?_
  · intro p hp
    obtain ⟨q, hq⟩ := isSome_iff_exists.mp (hpend (by rw [hp]; rfl))
    obtain ⟨m, hm, hact, htarget, hid, -⟩ := h.owner x q hq
    refine ⟨m, hm, hact, htarget, hid, fun hpending => ?_⟩
    simp only [noneForming, Bool.not_eq_true', List.any_eq_false, Bool.and_eq_true, beq_iff_eq,
      not_and] at hok
    exact absurd htarget (hok m hm hpending)
  · intro y hy
    split
    · next hxy =>
      subst hxy
      cases hp : a.pending with
      | none => rfl
      | some p =>
        have hsome := hpend (by rw [hp]; rfl)
        simp [h.cleared y hy] at hsome
    · exact h.cleared y hy

theorem Owned.setAgent_same (h : Owned s f) (hpend : a.pending = (s.agents x).pending) : Owned
    (s.setAgent x a) f := by
  suffices hset : Owned ((s.setAgent x a).goto s.pc) f from hset
  refine h.setAgent (fun p hp => h.owner x p (hpend ▸ hp)) ?_
  intro y hy
  split
  · next hxy =>
    subst hxy
    rw [hpend]
    exact h.cleared y hy
  · exact h.cleared y hy

theorem Owned.vmmExit (h : Owned s f) {v : Victim} (hok : releases s (.vmmExit x v)) : Owned
    (s.setAgent x ((s.agents x).vmmExit v)) f := by
  cases v with
  | pending =>
    refine h.touch hok ?_
    intro hp
    simpa [AgentVm.vmmExit] using hp
  | guest | managed | stray => exact h.setAgent_same rfl

theorem BeginGoes.cleared {pc' : Pc} (h : BeginGoes s e pc pc') : pc'.cleared = none := by
  cases h with
  | deletes hr hp pc hpc => rcases hpc with rfl | ⟨x, -, rfl⟩ <;> rfl
  | defers vm pc pc' hpc hpc' => rcases hpc' with rfl | rfl <;> rfl
  | advances | places | schedules | recovers | scheduled => rfl

theorem launchedBy_of_ne (he : ∀ c, e ≠ .call c) : launchedBy s e f = f := by
  cases e with
  | call c => exact absurd rfl (he c)
  | _ => rfl

theorem Owned.step (h : Owned s f) (hone : OneActive s) (hknown : TargetsKnown s)
    (hok : releases s e) (hs : step s e = some s') : Owned s' (Lifecycle.launchedBy s e f) := by
  cases step_kind hs with
  | db he hdb =>
    subst he
    exact h.dbStep hone hknown hok hdb
  | call c he hcall =>
    subst he
    exact h.callStep hone hknown hok hcall
  | crash he hs' =>
    subst he hs'
    have hidle : Pc.idle.cleared = none := rfl
    exact h.goto hidle
  | exits x v he hs' =>
    subst he hs'
    exact h.vmmExit hok
  | host x st he hs' =>
    subst he hs'
    exact h.same rfl (fun _ hm => hm) h.cleared
  | api hapi =>
    have heff := apiStep_effect hapi
    have hcall : ∀ c, e ≠ .call c := by
      rintro c rfl
      cases hapi
    rw [launchedBy_of_ne hcall]
    refine h.same heff.agents ?_ (by rw [heff.pc]; exact h.cleared)
    intro m hm
    rcases heff.migrations with hmig | ⟨x, y, hmig⟩
    · rwa [hmig]
    · rw [hmig]
      exact mem_append_left _ hm
  | begins hbegin =>
    obtain ⟨pc, rfl, hgoes⟩ := beginStep_effect hbegin
    have hcall : ∀ c, e ≠ .call c := by
      rintro c rfl
      cases hbegin
    rw [launchedBy_of_ne hcall]
    exact h.goto hgoes.cleared

end

/-! ## Runs -/

namespace Receivers

def ReleasedReach : Receivers → Prop := Reach step (fun w e => w.releases e = true) Init

structure Inv (w : Receivers) : Prop where
  one : OneActive w.state
  known : TargetsKnown w.state
  owned : Owned w.state w.launchedFor

variable {w w' : Receivers}

theorem Inv.step {e : Happening} (h : Inv w) (hok : w.releases e)
    (hs : w.step e = some w') : Inv w' := by
  cases e with
  | event e =>
    obtain ⟨s, hstep, rfl⟩ := map_eq_some_iff.mp hs
    exact ⟨h.one.step (exclusive_of_releases hok) hstep, h.known.step h.one.inHand hstep,
      h.owned.step h.one h.known hok hstep⟩
  | receiveFails x =>
    cases hs
    refine ⟨⟨h.one.ids, h.one.one, h.one.hand⟩, ⟨h.known.migrations, h.known.requests⟩, h.owned.touch hok ?_⟩
    intro hp
    simpa [receiveFails] using hp

theorem inv_init (h : Init w) : Inv w := by
  refine ⟨oneActive_init h.1, ?_, ?_⟩
  · obtain ⟨-, -, hmig, -, -, hreq, -⟩ := h.1
    refine ⟨?_, ?_⟩
    · rw [hmig]
      nofun
    · rw [hreq]
      nofun
  · refine .of_none fun x => ?_
    rw [h.1.2.2.2.2.2.2 x]
    rfl

theorem ReleasedReach.inv (h : ReleasedReach w) : Inv w :=
  Reach.invariant (fun _ => inv_init) (fun _ _ _ hi hok hs => hi.step hok hs) h

theorem Inv.waits {e : Event} (h : Inv w) (hs : w.step (.event e) = some w') {url
    : Url} (hans : prepareAnswer w.state e = some (m, url)) : w'.Waits m url := by
  obtain ⟨c, a, rfl, hpc, hpending, hout, hprep⟩ := prepareAnswer_eq_some hans
  obtain ⟨hm, hact⟩ := h.one.hand m (by rw [hpc]; rfl)
  obtain ⟨s', hstep, rfl⟩ := map_eq_some_iff.mp hs
  have hs' : s' = (w.state.setAgent m.targetHost a).goto (prepareNext w.state m c.outcome (.ok url)) := by
    have hcall : migrationCallStep w.state m c = some s' := by
      simpa [Lifecycle.step, callStep, hpc] using hstep
    cases ho : c.outcome with
    | fail => exact absurd ho hout
    | ok | lost => simpa [migrationCallStep, ho, hpending, hprep] using hcall.symm
  subst hs'
  have howned := h.owned.prepareReceive h.one h.known hpc hpending hout hprep
  have hagent : ((w.state.setAgent m.targetHost a).goto
      (prepareNext w.state m c.outcome (.ok url))).agents m.targetHost = a :=
    (agents_setAgent w.state m.targetHost a m.targetHost).trans (if_pos rfl)
  obtain ⟨-, -, -, -, -, hok⟩ := prepareReceive_spec hprep
  obtain ⟨p, hp, hurl⟩ := hok url rfl
  obtain ⟨m', hm', hact', htarget, hid, hwaits⟩ := howned.owner m.targetHost p (by rw [hagent]; exact hp)
  obtain rfl := h.one.one m hm m' hm' hact hact'
  obtain ⟨hrecv, hvmm⟩ := hwaits hpending
  exact ⟨p, by rw [hagent]; exact hp, hurl, hrecv, hvmm, hid⟩

end Receivers

/-- **A receiver of its own.**  In every run whose steps meet the condition, on a URL that
`prepare_receive` returns to a migration waits a receiver that was launched for it. -/
theorem prepared_receiver_waits (w w' : Receivers) (e : Event) (m : Migration) (url : Url)
    (hr : w.ReleasedReach) (hs : w.step (.event e) = some w')
    (hans : prepareAnswer w.state e = some (m, url)) : w'.Waits m url :=
  hr.inv.waits hs hans

def emptyReceivers : Receivers := ⟨start, fun _ => none⟩

theorem emptyReceivers_init : emptyReceivers.Init := ⟨start_init, fun _ => rfl⟩

/-- A migration to host 1 is prepared, but the answer is lost: its receiver is released. -/
def lostByOne : List Event :=
  [.migrateRead 1, .migrateCheck 0, .migrateInsert 0, .migratePhase 0,
   .beginMigration ⟨0, some 0, 1, .pending, none⟩, .db, .call { plainCall with outcome := .lost },
   .call plainCall, .db, .db]

/-- A migration to host 1 is prepared, but its source cannot be reached. -/
def unsentToOne : List Event :=
  [.migrateRead 1, .migrateCheck 0, .migrateInsert 0, .migratePhase 0,
   .beginMigration ⟨0, some 0, 1, .pending, none⟩, .db, .call plainCall, .db,
   .beginMigration ⟨0, some 0, 1, .sending, some ⟨1, 0⟩⟩, .db, .call deadCall, .db, .db]

def secondToOne : List Event :=
  againToOne ++ [.beginMigration ⟨1, some 0, 1, .pending, none⟩, .db]

def secondMigration : Migration := ⟨1, some 0, 1, .pending, none⟩

def secondPrepare : Event := .call { plainCall with serial := 1 }

/-- The first migration fails from `Pending`. -/
def afterLost : Receivers :=
  final Receivers.step emptyReceivers ((bootOnZero ++ lostByOne ++ secondToOne).map .event)

theorem prepared_receiver_waits_retried :
    afterLost.state.migrations.map (·.state) = [.failed, .pending] ∧
      ∃ w', afterLost.step (.event secondPrepare) = some w' ∧ w'.Waits secondMigration ⟨1, 1⟩ := by
  have hr : afterLost.ReleasedReach :=
    Reach.final (fun _ _ h => h) emptyReceivers_init (by decide) (by decide)
  have hsome : (afterLost.step (.event secondPrepare)).isSome := by decide
  obtain ⟨w', hs⟩ := isSome_iff_exists.mp hsome
  exact ⟨by decide, w', hs, prepared_receiver_waits afterLost w' secondPrepare _ _ hr hs (by decide)⟩

/-- The first migration fails from `Sending`, and with the connection its receive. -/
def afterUnsent : Receivers :=
  final Receivers.step emptyReceivers ((bootOnZero ++ unsentToOne).map .event ++
    [.receiveFails 1] ++ secondToOne.map .event)

/-- **A stale receiver is handed out.**  The first migration ended `Failed` from `Sending`; the
second one gets the URL of its receiver, where nothing waits. -/
theorem stale_receiver_reused : Reach Receivers.step anyStep Receivers.Init afterUnsent ∧
      afterUnsent.state.migrations.map (·.state) = [.failed, .pending] ∧
      prepareAnswer afterUnsent.state secondPrepare = some (secondMigration, ⟨1, 0⟩) ∧
      ∃ w', afterUnsent.step (.event secondPrepare) = some w' ∧
        (w'.state.agents 1).pending.map (·.recv) = some .failed ∧ w'.launchedFor 1 = some 0 ∧
        ¬ w'.Waits secondMigration ⟨1, 0⟩ := by
  refine ⟨?_, by decide, by decide, ?_⟩
  · exact Reach.final_anyStep emptyReceivers_init (by decide)
  · refine ⟨final Receivers.step afterUnsent [.event secondPrepare], rfl, by decide, by decide, ?_⟩
    rintro ⟨p, -, -, -, -, hid⟩
    revert hid
    decide

end VQuasar.Lifecycle
