import VQuasar.Lifecycle.Effects

/-!
# The location invariant

A guest is started in two places: `ensure` boots it on the host the row names, and
`send_migration` moves it to the receiver a migration prepared.  `Inv` is the invariant
that keeps the two apart: while a host other than `host_id` executes the guest, that host
is the target of the VM's one active migration, the receiver is its only process there,
and the phase is one the other loops do not act on.

The failure branch of `reconcile_migrations` puts the phase back to `Running` with the
comment that the VM never left its source host; it is taken in states where it did.
`orderly` is the condition on steps under which that, and the other ways to break the
invariant, do not occur.  This module shows that the steps which leave the agents alone,
the API requests among them, keep `Inv`; `Passes` does the rest.
-/

namespace VQuasar.Lifecycle

open List Option

variable {s s' : State} {e : Event} {i : Nat} {q : MigrateRequest} {r : VmRow} {m : Migration}

/-! ## The condition on steps -/

/-- The phases in which neither `reconcile_ensure` nor `recover_running_vms` acts on a row. -/
def parked (p : Phase) : Bool := p == .migrating || p == .deleting

/-- Whether the `send_migration` call of `m` would move the guest. -/
def sends (s : State) (m : Migration) (c : Call) : Bool :=
  match m.sourceHost, m.migrationUrl with
  | some h, some u => (sendMigration s.agents h u c.husk).isSome
  | _, _ => false

/-- The steps under which the location of the guest stays known:
* a migration is marked `Failed` only while its target does not execute the guest, or is
  already the row's host;
* the guest is sent only while its row is `Migrating` or `Deleting` and the target's `vms`
  table has no entry left from an earlier stay;
* a migration is inserted only while none is active. -/
def orderly (s : State) : Event → Bool
  | .db =>
    match s.pc with
    | .fail m =>
      s.row.all fun r => !s.executing m.targetHost || r.hostId == some m.targetHost
    | _ => true
  | .call c =>
    match s.pc with
    | .migrationCall m =>
      !(m.state == .sending && c.outcome != .fail && sends s m c) ||
        (s.row.any (fun r => parked r.phase) && (s.agents m.targetHost).managed.isNone)
    | _ => true
  | .migrateInsert _ => !s.activeMigration
  | _ => true

/-! ## The invariant -/

/-- `h` is the target of an active migration that has been told to send. -/
def Away (s : State) (r : VmRow) (h : HostId) : Prop :=
  parked r.phase = true ∧
    ∃ m ∈ s.migrations, m.state.active = true ∧ m.state ≠ .pending ∧ m.targetHost = h

/-- What holds of the agents while the row is `r`. -/
structure RowInv (s : State) (r : VmRow) : Prop where
  home : ∀ h, s.executing h → r.hostId = some h ∨ Away s r h
  /-- A guest outside a `vms` table is on its way, on a host the row does not name yet. -/
  loose : ∀ h, (s.agents h).loose →
    Away s r h ∧ r.hostId ≠ some h ∧ (s.agents h).managed = none
  strays : ∀ h, (s.agents h).strayRuns = false
  /-- No dropped receiver still listens on the URL of an active migration. -/
  waits : ∀ m ∈ s.migrations, m.state.active → ∀ u, m.migrationUrl = some u →
    (s.agents u.host).strayWaits u → r.hostId = some m.targetHost
  finalizing : ∀ m ∈ s.migrations, m.state = .finalizing →
    (∀ h, s.executing h → h = m.targetHost) ∧
      (parked r.phase ∨ r.hostId = some m.targetHost)

/-- The guest executes nowhere and its row, if any, has no host. -/
def Unplaced (s : State) : Prop :=
  (∀ h, s.executing h = false) ∧
    ∀ r, s.row = some r → r.hostId = none ∧ ∀ m ∈ s.migrations, m.state ≠ .finalizing

/-- The guest executes at most on `h`, the row's host. -/
def PlacedOn (s : State) (h : HostId) : Prop :=
  (∀ h', s.executing h' → h' = h) ∧
    ∀ r, s.row = some r → r.hostId = some h ∧ (∀ h', (s.agents h').loose = false) ∧
      ∀ m ∈ s.migrations, m.state = .finalizing → m.targetHost = h

/-- The guest executes at most where its row, if any, says. -/
def Quiet (s : State) : Prop :=
  ∀ r, s.row = some r → (∀ h, s.executing h → r.hostId = some h) ∧
    (∀ h, (s.agents h).loose = false) ∧
    ∀ m ∈ s.migrations, m.state = .finalizing → r.hostId = some m.targetHost

/-- What a pass knows at each of its program points. -/
def PcInv (s : State) : Pc → Prop
  | .idle | .clearFailures | .deleteRow => True
  | .schedule _ | .assign _ _ => Unplaced s
  | .place _ h | .ensureCall _ h => PlacedOn s h
  | .observed _ _ | .noteFailure | .giveUp | .recoverList _ | .recoverMark | .restore => Quiet s
  | .deleteCall h => ∀ r, s.row = some r → r.hostId = some h
  | .advance m | .migrationCall m | .fail m => m ∈ s.migrations ∧ m.state.active = true
  | .release m => m ∈ s.migrations ∧ m.state = .pending
  | .prepared m url => (m ∈ s.migrations ∧ m.state = .pending) ∧ url.host = m.targetHost ∧
      (s.agents url.host).strayWaits url = false
  | .sent m => (m ∈ s.migrations ∧ m.state = .sending) ∧
      (∀ h, s.executing h → h = m.targetHost) ∧
      ∀ r, s.row = some r → parked r.phase = true
  | .finalized m | .discarded m => (m ∈ s.migrations ∧ m.state = .finalizing) ∧
      (s.agents m.targetHost).managed.isSome = true
  | .moved m => (m ∈ s.migrations ∧ m.state = .finalizing) ∧
      ∀ r, s.row = some r → r.hostId = some m.targetHost

/-- The rows of `migrations` and the requests that write them. -/
structure MigrationsInv (s : State) : Prop where
  ids : ∀ (i : Nat) (m : Migration), s.migrations[i]? = some m → m.id = i
  oneActive : ∀ m ∈ s.migrations, ∀ m' ∈ s.migrations,
    m.state.active → m'.state.active → m = m'
  ends : ∀ m ∈ s.migrations, m.sourceHost ≠ some m.targetHost
  requests : ∀ q ∈ s.requests, q.source ≠ q.target
  urlHost : ∀ m ∈ s.migrations, ∀ u, m.migrationUrl = some u → u.host = m.targetHost
  urlNone : ∀ m ∈ s.migrations, m.state = .pending → m.migrationUrl = none

structure Inv (s : State) : Prop where
  one : ∀ h h', s.executing h → s.executing h' → h = h'
  migrations : MigrationsInv s
  pending : ∀ h p, (s.agents h).pending = some p →
    p.returnUrl.host = h ∧ (s.agents h).strayWaits p.returnUrl = false
  row : ∀ r, s.row = some r → RowInv s r
  pc : PcInv s s.pc
  unborn : s.born = false → s.row = none ∧ s.migrations = [] ∧ s.requests = [] ∧ s.pc = .idle ∧
    ∀ h, s.agents h = AgentVm.empty

theorem Inv.born (h : Inv s) (hpc : s.pc ≠ .idle) : s.born := by
  cases hb : s.born with
  | true => rfl
  | false => exact absurd (h.unborn hb).2.2.2.1 hpc

theorem Inv.born_of_row (h : Inv s) (hr : s.row = some r) : s.born := by
  cases hb : s.born with
  | true => rfl
  | false =>
    rw [(h.unborn hb).1] at hr
    cases hr

theorem Inv.pc_at (h : Inv s) {pc : Pc} (hpc : s.pc = pc) : PcInv s pc := by
  rw [← hpc]
  exact h.pc

theorem active_of {st : MigrationState} (h : m.state = st) (hst : st.active) : m.state.active := by
  rw [h]
  exact hst

theorem Away.target (h : Inv s) {x : HostId} (ha : Away s r x) (hm : m ∈
    s.migrations) (hact : m.state.active) : m.state ≠ .pending ∧ m.targetHost = x := by
  obtain ⟨-, m', hm', hact', hne, rfl⟩ := ha
  rw [h.migrations.oneActive m hm m' hm' hact hact']
  exact ⟨hne, rfl⟩

/-! ## Steps that leave the agents alone -/

/-- `s'` has the agents of `s`, at most new `Pending` migrations, and at most a row with the same
host whose phase is still parked if it was. -/
structure RowStep (s s' : State) : Prop where
  agents : s'.agents = s.agents
  keeps : ∀ m ∈ s.migrations, m ∈ s'.migrations
  fresh : ∀ m ∈ s'.migrations, m ∈ s.migrations ∨ (m.state = .pending ∧ m.migrationUrl = none)
  row : ∀ r', s'.row = some r' → ∃ r, s.row = some r ∧ r'.hostId = r.hostId ∧
    (parked r.phase → parked r'.phase)

theorem RowStep.of_eq (ha : s'.agents = s.agents) (hm : s'.migrations = s.migrations) (hr : s'.row =
    s.row) : RowStep s s' := by
  refine ⟨ha, fun _ h => hm ▸ h, fun _ h => .inl (hm ▸ h), ?_⟩
  intro r' hr'
  exact ⟨r', hr ▸ hr', rfl, id⟩

section

variable (hs : RowStep s s')
include hs

theorem RowStep.executing (x : HostId) : s'.executing x = s.executing x := by
  unfold State.executing
  rw [hs.agents]

theorem RowStep.mem_finalizing {m : Migration} (hm : m ∈ s'.migrations) (hfin :
    m.state = .finalizing) : m ∈ s.migrations := by
  rcases hs.fresh m hm with h | ⟨h, -⟩
  · exact h
  · rw [hfin] at h
    cases h

theorem RowStep.rowInv {r r' : VmRow} (hr : RowInv s r) (hhost : r'.hostId =
    r.hostId) (hpark : parked r.phase → parked r'.phase) : RowInv s' r' := by
  have haway : ∀ h, Away s r h → Away s' r' h := by
    rintro h ⟨hp, m, hm, hrest⟩
    exact ⟨hpark hp, m, hs.keeps m hm, hrest⟩
  refine ⟨?_, ?_, ?_, ?_, ?_⟩
  · intro h he
    rw [hs.executing] at he
    rw [hhost]
    exact (hr.home h he).imp id (haway h)
  · intro h hl
    rw [hs.agents] at hl ⊢
    obtain ⟨ha, hne, hm⟩ := hr.loose h hl
    exact ⟨haway h ha, hhost ▸ hne, hm⟩
  · intro h
    rw [hs.agents]
    exact hr.strays h
  · intro m hm hact u hu hw
    rw [hs.agents] at hw
    rw [hhost]
    rcases hs.fresh m hm with h | ⟨-, h⟩
    · exact hr.waits m h hact u hu hw
    · rw [h] at hu
      cases hu
  · intro m hm hfin
    obtain ⟨h1, h2⟩ := hr.finalizing m (hs.mem_finalizing hm hfin) hfin
    refine ⟨fun h he => h1 h ((hs.executing h).symm.trans he), ?_⟩
    rw [hhost]
    exact h2.imp hpark id

theorem RowStep.quiet (h : Quiet s) : Quiet s' := by
  intro r' hr'
  obtain ⟨r, hr, hhost, -⟩ := hs.row r' hr'
  obtain ⟨h1, h2, h3⟩ := h r hr
  rw [hhost, hs.agents]
  refine ⟨fun x hx => h1 x ((hs.executing x).symm.trans hx), h2, ?_⟩
  intro m hm hfin
  exact h3 m (hs.mem_finalizing hm hfin) hfin

theorem RowStep.placedOn {x : HostId} (h : PlacedOn s x) : PlacedOn s' x := by
  refine ⟨fun y hy => h.1 y ((hs.executing y).symm.trans hy), ?_⟩
  intro r' hr'
  obtain ⟨r, hr, hhost, -⟩ := hs.row r' hr'
  obtain ⟨h1, h2, h3⟩ := h.2 r hr
  rw [hhost, hs.agents]
  exact ⟨h1, h2, fun m hm hfin => h3 m (hs.mem_finalizing hm hfin) hfin⟩

theorem RowStep.unplaced (h : Unplaced s) : Unplaced s' := by
  refine ⟨fun x => (hs.executing x).trans (h.1 x), ?_⟩
  intro r' hr'
  obtain ⟨r, hr, hhost, -⟩ := hs.row r' hr'
  obtain ⟨h1, h2⟩ := h.2 r hr
  exact ⟨hhost.trans h1, fun m hm hfin => h2 m (hs.mem_finalizing hm hfin) hfin⟩

theorem RowStep.pcInv {pc : Pc} (h : PcInv s pc) : PcInv s' pc := by
  cases pc with
  | idle | clearFailures | deleteRow => trivial
  | schedule | assign => exact hs.unplaced h
  | place | ensureCall => exact hs.placedOn h
  | observed | noteFailure | giveUp | recoverList | recoverMark | restore => exact hs.quiet h
  | deleteCall x =>
    intro r' hr'
    obtain ⟨r, hr, hhost, -⟩ := hs.row r' hr'
    exact hhost.trans (h r hr)
  | advance | migrationCall | fail | release => exact ⟨hs.keeps _ h.1, h.2⟩
  | prepared m url => exact ⟨⟨hs.keeps _ h.1.1, h.1.2⟩, h.2.1, hs.agents ▸ h.2.2⟩
  | sent m =>
    refine ⟨⟨hs.keeps _ h.1.1, h.1.2⟩, fun x hx => h.2.1 x ((hs.executing x).symm.trans hx), ?_⟩
    intro r' hr'
    obtain ⟨r, hr, -, hpark⟩ := hs.row r' hr'
    exact hpark (h.2.2 r hr)
  | finalized | discarded => exact ⟨⟨hs.keeps _ h.1.1, h.1.2⟩, hs.agents ▸ h.2⟩
  | moved m =>
    refine ⟨⟨hs.keeps _ h.1.1, h.1.2⟩, ?_⟩
    intro r' hr'
    obtain ⟨r, hr, hhost, -⟩ := hs.row r' hr'
    exact hhost.trans (h.2 r hr)

end

theorem MigrationsInv.congr (h : MigrationsInv s) (hm : s'.migrations = s.migrations) (hq : ∀ q ∈
    s'.requests, q.source ≠ q.target) : MigrationsInv s' := by
  obtain ⟨h1, h2, h3, -, h5, h6⟩ := h
  rw [← hm] at h1 h2 h3 h5 h6
  exact ⟨h1, h2, h3, hq, h5, h6⟩

section

variable (h : Inv s) (hag : s'.agents = s.agents) (hmig : MigrationsInv s') (hrow : ∀ r', s'.row =
  some r' → RowInv s' r') (hpc : PcInv s' s'.pc)
include h hag hmig hrow hpc

theorem Inv.sameAgents (hborn : s'.born = false → s.born =
    false ∧ s'.row = none ∧ s'.migrations = [] ∧ s'.requests = [] ∧ s'.pc = .idle) : Inv s' := by
  have hex : ∀ x, s'.executing x = s.executing x := by
    intro x
    unfold State.executing
    rw [hag]
  refine ⟨?_, hmig, hag ▸ h.pending, hrow, hpc, ?_⟩
  · intro x y hx hy
    rw [hex] at hx hy
    exact h.one x y hx hy
  · intro hb
    obtain ⟨h0, h1, h2, h3, h4⟩ := hborn hb
    exact ⟨h1, h2, h3, h4, hag ▸ (h.unborn h0).2.2.2.2⟩

theorem Inv.sameAgents_born (hb : s'.born) : Inv s' := by
  refine h.sameAgents hag hmig hrow hpc fun hf => ?_
  rw [hb] at hf
  cases hf

end

theorem RowStep.inv (hs : RowStep s s') (h : Inv s) (hpc : s'.pc = s.pc) (hmig : MigrationsInv s')
    (hborn : s'.born = s.born) (hempty : s.requests = [] → s.migrations = [] → s'.requests = [] ∧
    s'.migrations = []) : Inv s' := by
  refine h.sameAgents hs.agents hmig ?_ (hpc ▸ hs.pcInv h.pc) ?_
  · intro r' hr'
    obtain ⟨r, hr, hhost, hpark⟩ := hs.row r' hr'
    exact hs.rowInv (h.row r hr) hhost hpark
  · intro hb
    rw [hborn] at hb
    obtain ⟨h1, h2, h3, h4, -⟩ := h.unborn hb
    obtain ⟨hq, hm⟩ := hempty h3 h2
    refine ⟨hb, ?_, hm, hq, hpc.trans h4⟩
    cases hr' : s'.row with
    | none => rfl
    | some r' =>
      obtain ⟨r, hr, -⟩ := hs.row r' hr'
      rw [h1] at hr
      cases hr

theorem rowStep_updateRow (s : State) (f : VmRow → VmRow) (hhost : ∀ r, (f r).hostId = r.hostId)
    (hpark : ∀ r, parked r.phase → parked (f r).phase) : RowStep s (s.updateRow f) := by
  refine ⟨rfl, fun _ hm => hm, fun _ hm => .inl hm, ?_⟩
  intro r' hr'
  obtain ⟨r, hr, rfl⟩ := map_eq_some_iff.mp hr'
  exact ⟨r, hr, hhost r, hpark r⟩

theorem inv_updateRow (h : Inv s) (f : VmRow → VmRow) (hhost : ∀ r, (f r).hostId = r.hostId) (hpark
    : ∀ r, parked r.phase → parked (f r).phase) : Inv (s.updateRow f) :=
  (rowStep_updateRow s f hhost hpark).inv h rfl (h.migrations.congr rfl h.migrations.requests) rfl
    fun hq hm => ⟨hq, hm⟩

/-! ## API requests -/

theorem inv_setRequest (h : Inv s) (hq : s.requests[i]? = some q) (o : Option MigrateRequest) (ho :
    ∀ q', o = some q' → q'.source = q.source ∧ q'.target = q.target) : Inv (setRequest s i o) := by
  have hmem : q ∈ s.requests := mem_of_getElem? hq
  have hrs : RowStep s (setRequest s i o) := .of_eq rfl rfl rfl
  refine hrs.inv h rfl (h.migrations.congr rfl ?_) rfl ?_
  · intro q' hq'
    rcases mem_setRequest hq' with hin | hnew
    · exact h.migrations.requests q' hin
    · obtain ⟨h1, h2⟩ := ho q' hnew
      rw [h1, h2]
      exact h.migrations.requests q hmem
  · intro h0
    rw [h0] at hmem
    cases hmem

theorem MigrationsInv.insert (h : MigrationsInv s) {source target : HostId} (hne : source ≠ target)
    (hnone : s.activeMigration = false) : MigrationsInv (s.insertMigration source target) := by
  have hinactive : ∀ m ∈ s.migrations, m.state.active ≠ true := by
    intro m hm hact
    have : s.activeMigration = true := any_eq_true.mpr ⟨m, hm, hact⟩
    rw [hnone] at this
    cases this
  obtain ⟨h1, h2, h3, h4, h5, h6⟩ := h
  refine ⟨Numbered.append h1 rfl, ?_, ?_, h4, ?_, ?_⟩
  · intro m hm m' hm' ha ha'
    rcases mem_append.mp hm with hm | hm
    · exact absurd ha (hinactive m hm)
    · rcases mem_append.mp hm' with hm' | hm'
      · exact absurd ha' (hinactive m' hm')
      · rw [mem_singleton.mp hm, mem_singleton.mp hm']
  · intro m hm
    rcases mem_append.mp hm with hm | hm
    · exact h3 m hm
    · obtain rfl := mem_singleton.mp hm
      simpa using hne
  · intro m hm u hu
    rcases mem_append.mp hm with hm | hm
    · exact h5 m hm u hu
    · obtain rfl := mem_singleton.mp hm
      cases hu
  · intro m hm hp
    rcases mem_append.mp hm with hm | hm
    · exact h6 m hm hp
    · obtain rfl := mem_singleton.mp hm
      rfl

theorem rowStep_insertMigration (s : State) (source target : HostId) :
    RowStep s (s.insertMigration source target) := by
  refine ⟨rfl, fun m hm => mem_append_left _ hm, ?_, fun r' hr' => ⟨r', hr', rfl, id⟩⟩
  intro m hm
  rcases mem_append.mp hm with hm | hm
  · exact .inl hm
  · obtain rfl := mem_singleton.mp hm
    exact .inr ⟨rfl, rfl⟩

section

variable (h : Inv s)
include h

theorem inv_insertMigration {source target : HostId} (hne : source ≠ target) (hnone :
    s.activeMigration = false) (hborn : s.born) : Inv (s.insertMigration source target) := by
  have hrs := rowStep_insertMigration s source target
  refine h.sameAgents_born rfl (h.migrations.insert hne hnone) ?_ (hrs.pcInv h.pc) hborn
  intro r hr
  exact hrs.rowInv (h.row r hr) rfl id

theorem Inv.born_of_request (hq : s.requests[i]? = some q) : s.born := by
  cases hb : s.born with
  | true => rfl
  | false =>
    rw [(h.unborn hb).2.2.1] at hq
    simp at hq

theorem inv_create (hb : s.born = false) (d : Power) :
    Inv { s with row := some ⟨.pending, none, d, 1, 0, 0⟩, born := true, creating := true } := by
  obtain ⟨-, hm, hq, hpc, hag⟩ := h.unborn hb
  have hno : ∀ x, s.executing x = false := by
    intro x
    unfold State.executing
    rw [hag]
    rfl
  refine h.sameAgents_born rfl (h.migrations.congr rfl h.migrations.requests) ?_ ?_ rfl
  · intro r' hr'
    refine ⟨?_, ?_, ?_, ?_, ?_⟩
    · intro x hx
      exact absurd hx (by show ¬s.executing x = true; simp [hno])
    · intro x hl
      have hl' : (s.agents x).loose := hl
      rw [hag] at hl'
      cases hl'
    · intro x
      show (s.agents x).strayRuns = false
      rw [hag]
      rfl
    · intro m hm'
      have : m ∈ s.migrations := hm'
      rw [hm] at this
      cases this
    · intro m hm'
      have : m ∈ s.migrations := hm'
      rw [hm] at this
      cases this
  · show PcInv _ s.pc
    rw [hpc]
    trivial

theorem inv_deleteVmRow : Inv s.deleteVmRow := by
  have hrs : RowStep s s.deleteVmRow :=
    ⟨rfl, fun _ hm => hm, fun _ hm => .inl hm, fun r' hr' => by cases hr'⟩
  exact hrs.inv h rfl (h.migrations.congr rfl h.migrations.requests) rfl fun hq hm => ⟨hq, hm⟩

theorem inv_creating (b : Bool) : Inv { s with creating := b } := by
  have hrs : RowStep s { s with creating := b } := .of_eq rfl rfl rfl
  exact hrs.inv h rfl (h.migrations.congr rfl h.migrations.requests) rfl fun hq hm => ⟨hq, hm⟩

/-- Every API event keeps the invariant; `migrateInsert` needs the condition on steps. -/
theorem inv_apiStep (hok : orderly s e) (hs : apiStep s e = some s') : Inv s' :=
    by
  cases apiStep_goes hs with
  | create d hb => exact inv_create h hb d
  | createDone => exact inv_creating h false
  | createRollback => exact inv_creating (inv_deleteVmRow h) false
  | setPower d => exact inv_updateRow h _ (fun _ => rfl) (fun _ hp => hp)
  | delete => exact inv_updateRow h _ (fun _ => rfl) (fun _ _ => rfl)
  | @migrateRead r x t hr hx hp hne =>
    have hrs : RowStep s { s with requests := s.requests ++ [⟨x, t, .read⟩] } := .of_eq rfl rfl rfl
    refine h.sameAgents_born rfl (h.migrations.congr rfl ?_) ?_ (hrs.pcInv h.pc) (h.born_of_row hr)
    · intro q hq
      rcases mem_append.mp hq with hq | hq
      · exact h.migrations.requests q hq
      · obtain rfl := mem_singleton.mp hq
        exact hne
    · intro r' hr'
      exact hrs.rowInv (h.row r' hr') rfl id
  | migrateCheck hq => exact inv_setRequest h hq _ (by rintro q' ⟨⟩; exact ⟨rfl, rfl⟩)
  | @migrateInsert i q hq =>
    have hne := h.migrations.requests q (mem_of_getElem? hq)
    have hnone : s.activeMigration = false := by simpa [orderly] using hok
    have hins := inv_insertMigration h hne hnone (h.born_of_request hq)
    exact inv_setRequest hins hq _ (by rintro q' ⟨⟩; exact ⟨rfl, rfl⟩)
  | migratePhase hq =>
    have hph := inv_updateRow h (fun r => { r with phase := .migrating }) (fun _ => rfl)
      (fun _ _ => rfl)
    exact inv_setRequest hph hq none (by rintro q' ⟨⟩)
  | apiCrash =>
    have hrs : RowStep s { s with requests := [], creating := false } := .of_eq rfl rfl rfl
    exact hrs.inv h rfl (h.migrations.congr rfl (by intro q hq; cases hq)) rfl
      fun _ hm => ⟨rfl, hm⟩

end

end VQuasar.Lifecycle
