import VQuasar.Lifecycle.Control

/-!
# What one step does

Inversions of the step function: what a statement of a pass and an agent call leave (`DbLeaves`,
`CallLeaves`), what a step may write to the row (`Writes`), where statements and calls take the pass
(`DbGoes`, `CallGoes`) and where it starts (`BeginGoes`).
-/

namespace VQuasar.Lifecycle

open List Option

/-! ## Statements of a pass -/

/-- What a statement of the pass leaves, one case for each way it can go. -/
inductive DbLeaves (s : State) : State → Prop
  | assigned {vm : VmRow} {h : HostId} (hpc : s.pc = .assign vm h) :
      DbLeaves s ((s.assignVmHost h).goto (.place vm h))
  | placed {vm : VmRow} {h : HostId} (hpc : s.pc = .place vm h) :
      DbLeaves s (s.goto (.ensureCall vm h))
  | deferred {vm : VmRow} {h : HostId} (hpc : s.pc = .place vm h) :
      DbLeaves s (s.goto (reconciled vm))
  | observed {vm : VmRow} {p : Phase} (hpc : s.pc = .observed vm p) :
      DbLeaves s ((s.updateVmObserved p vm.generation).goto (reconciled vm))
  | cleared (hpc : s.pc = .clearFailures) :
      DbLeaves s ((s.updateRow fun r => { r with reconcileFailures := 0 }).goto .idle)
  | rowGone (hpc : s.pc = .noteFailure) : DbLeaves s (s.goto .idle)
  | noted (hpc : s.pc = .noteFailure) (pc : Pc) (hnext : pc = .idle ∨ pc = .giveUp) :
      DbLeaves s
        ((s.updateRow fun r => { r with reconcileFailures := r.reconcileFailures + 1 }).goto pc)
  | gaveUp (hpc : s.pc = .giveUp) : DbLeaves s ((s.setVmPhase .failed).goto .idle)
  | deleted (hpc : s.pc = .deleteRow) : DbLeaves s (s.deleteVmRow.goto .idle)
  | marked (hpc : s.pc = .recoverMark) : DbLeaves s ((s.setVmPhase .scheduling).goto .idle)
  | advanced {m : Migration} (hpc : s.pc = .advance m) : DbLeaves s (s.goto (advanceMigration s m))
  | sending {m : Migration} {url : Url} (hpc : s.pc = .prepared m url) :
      DbLeaves s ((s.updateMigration m.id .sending (some url)).goto .idle)
  | finalizing {m : Migration} (hpc : s.pc = .sent m) :
      DbLeaves s ((s.updateMigration m.id .finalizing none).goto .idle)
  | moved {m : Migration} (hpc : s.pc = .discarded m) :
      DbLeaves s ((s.setVmHostRunning m.targetHost).goto (.moved m))
  | completed {m : Migration} (hpc : s.pc = .moved m) :
      DbLeaves s ((s.updateMigration m.id .completed none).goto .idle)
  | failed {m : Migration} (hpc : s.pc = .fail m) :
      DbLeaves s ((s.updateMigration m.id .failed none).goto .restore)
  | restored (hpc : s.pc = .restore) : DbLeaves s ((s.setVmPhase .running).goto .idle)

variable {s s' : State} {e : Event} {m : Migration} {c : Call} {ms : List Migration}

theorem dbStep_leaves (hs : dbStep s = some s') : DbLeaves s s' := by
  unfold dbStep at hs
  cases hpc : s.pc with
  | place vm h =>
    rw [hpc] at hs
    cases hs
    split
    · exact .placed hpc
    · exact .deferred hpc
  | noteFailure =>
    simp only [hpc] at hs
    split at hs
    · cases hs
      exact .rowGone hpc
    cases hs
    refine .noted hpc _ ?_
    split
    · exact .inl rfl
    · exact .inr rfl
  | idle | schedule | ensureCall | deleteCall | recoverList | migrationCall | finalized | release =>
    simp [hpc] at hs
  | _ =>
    rw [hpc] at hs
    cases hs
    constructor
    exact hpc

/-! ## The row -/

/-- The events that bump the generation of the row. -/
def Event.bumps : Event → Bool
  | .setPower _ => true
  | _ => false

/-- What a step may write to a row, as far as the generations, the host, the power state and the
phase `Stopped` go. -/
inductive Writes (s : State) : Event → VmRow → VmRow → Prop
  | same {e : Event} {r r' : VmRow} (he : e.bumps = false) (hg : r'.generation = r.generation)
      (ho : r'.observedGeneration = r.observedGeneration) (hh : r'.hostId = r.hostId)
      (hd : r'.desired = r.desired) (hp : r'.phase = r.phase ∨ r'.phase ≠ .stopped) : Writes s e r r'
  | power {r : VmRow} (d : Power) :
      Writes s (.setPower d) r { r with desired := d, generation := r.generation + 1 }
  | assigned {r : VmRow} {vm : VmRow} {h : HostId} (hpc : s.pc = .assign vm h) :
      Writes s .db r { r with hostId := some h, phase := .scheduling }
  | observed {r : VmRow} {vm : VmRow} {p : Phase} (hpc : s.pc = .observed vm p) :
      Writes s .db r { r with phase := p, observedGeneration := vm.generation }
  | moved {r : VmRow} {m : Migration} (hpc : s.pc = .discarded m) :
      Writes s .db r { r with hostId := some m.targetHost, phase := .running }

section

variable {s s' : State} {r r' : VmRow} {e : Event}

theorem Writes.refl (he : e.bumps = false) : Writes s e r r := .same he rfl rfl rfl rfl (.inl rfl)

theorem writes_updateRow {f : VmRow → VmRow} (hr' : (s.updateRow f).row = some r')
    (hf : ∀ r, Writes s e r (f r)) : ∃ r, s.row = some r ∧ Writes s e r r' := by
  obtain ⟨r, hr, rfl⟩ := map_eq_some_iff.mp hr'
  exact ⟨r, hr, hf r⟩

theorem writes_same (he : e.bumps = false) (hrow : s'.row = s.row) (hr' : s'.row = some r') :
    ∃ r, s.row = some r ∧ Writes s e r r' :=
  ⟨r', hrow ▸ hr', .refl he⟩

theorem writes_dbStep (hs : dbStep s = some s') (hr' : s'.row = some r') :
    ∃ r, s.row = some r ∧ Writes s .db r r' := by
  cases dbStep_leaves hs with
  | assigned hpc => exact writes_updateRow (s := s) hr' fun _ => .assigned hpc
  | observed hpc => exact writes_updateRow (s := s) hr' fun _ => .observed hpc
  | moved hpc => exact writes_updateRow (s := s) hr' fun _ => .moved hpc
  | cleared | noted =>
    exact writes_updateRow (s := s) hr' fun _ => .same rfl rfl rfl rfl rfl (.inl rfl)
  | gaveUp | marked | restored =>
    exact writes_updateRow (s := s) hr' fun _ => .same rfl rfl rfl rfl rfl (.inr nofun)
  | deleted => cases hr'
  | _ => exact writes_same (s := s) rfl rfl hr'

theorem dbStep_frame (hs : dbStep s = some s') :
    s'.agents = s.agents ∧ s'.hosts = s.hosts ∧ s'.born = s.born ∧ s'.requests = s.requests := by
  cases dbStep_leaves hs <;> exact ⟨rfl, rfl, rfl, rfl⟩

inductive Moves : Pc → Migration → MigrationState → Prop
  | sending (m : Migration) (url : Url) : Moves (.prepared m url) m .sending
  | finalizing (m : Migration) : Moves (.sent m) m .finalizing
  | completed (m : Migration) : Moves (.moved m) m .completed
  | failed (m : Migration) : Moves (.fail m) m .failed

theorem dbStep_migrations (hs : dbStep s = some s') :
    s'.migrations = s.migrations ∨ ∃ m st url, Moves s.pc m st ∧
      s'.migrations = (s.updateMigration m.id st url).migrations := by
  cases dbStep_leaves hs with
  | @sending m url hpc => exact .inr ⟨m, _, _, hpc ▸ .sending m url, rfl⟩
  | @finalizing m hpc => exact .inr ⟨m, _, _, hpc ▸ .finalizing m, rfl⟩
  | @completed m hpc => exact .inr ⟨m, _, _, hpc ▸ .completed m, rfl⟩
  | @failed m hpc => exact .inr ⟨m, _, _, hpc ▸ .failed m, rfl⟩
  | _ => exact .inl rfl

end

/-! ## The pass -/

theorem reconciled_cases (vm : VmRow) : reconciled vm = .idle ∨ reconciled vm = .clearFailures := by
  unfold reconciled
  split
  · exact .inr rfl
  · exact .inl rfl

theorem migrationFailed_cases (s : State) (m : Migration) :
    migrationFailed s m = .release m ∨ migrationFailed s m = .fail m := by
  unfold migrationFailed
  split
  · exact .inl rfl
  · exact .inr rfl

theorem advanceMigration_cases (s : State) (m : Migration) :
    advanceMigration s m = .idle ∨ advanceMigration s m = .migrationCall m ∨
      advanceMigration s m = .release m ∨ advanceMigration s m = .fail m := by
  have hfailed := migrationFailed_cases s m
  unfold advanceMigration
  split
  · exact .inr (.inr hfailed)
  split
  · split
    · exact .inr (.inr hfailed)
    · exact .inr (.inl rfl)
  · exact .inr (.inr hfailed)
  · exact .inr (.inl rfl)
  · exact .inr (.inl rfl)
  · exact .inl rfl

inductive DbGoes (s : State) : Pc → Pc → Prop
  | assigned (vm : VmRow) (h : HostId) : DbGoes s (.assign vm h) (.place vm h)
  | placed (vm : VmRow) (h : HostId) : DbGoes s (.place vm h) (.ensureCall vm h)
  | advanced (m : Migration) : DbGoes s (.advance m) (advanceMigration s m)
  | moved (m : Migration) : DbGoes s (.discarded m) (.moved m)
  | ends (pc pc' : Pc)
      (h : pc' = .idle ∨ pc' = .clearFailures ∨ pc' = .giveUp ∨ pc' = .restore) : DbGoes s pc pc'

theorem dbStep_goes (hs : dbStep s = some s') : DbGoes s s.pc s'.pc := by
  cases dbStep_leaves hs with
  | assigned hpc => exact hpc ▸ .assigned _ _
  | placed hpc => exact hpc ▸ .placed _ _
  | advanced hpc => exact hpc ▸ .advanced _
  | moved hpc => exact hpc ▸ .moved _
  | @deferred vm | @observed vm => exact .ends _ _ ((reconciled_cases vm).imp_right .inl)
  | noted _ _ hnext => exact .ends _ _ (hnext.imp_right fun h => .inr (.inl h))
  | failed => exact .ends _ _ (.inr (.inr (.inr rfl)))
  | _ => exact .ends _ _ (.inl rfl)

/-! ## Requests of the API -/

/-- The requests of the API, with what they find. -/
inductive ApiGoes (s : State) : Event → State → Prop
  | create (d : Power) (hb : s.born = false) : ApiGoes s (.create d)
      { s with row := some ⟨.pending, none, d, 1, 0, 0⟩, born := true, creating := true }
  | createDone : ApiGoes s .createDone { s with creating := false }
  | createRollback : ApiGoes s .createRollback { s.deleteVmRow with creating := false }
  | setPower (d : Power) : ApiGoes s (.setPower d) (s.setVmSpec d)
  | delete : ApiGoes s .delete (s.setVmPhase .deleting)
  | migrateRead {r : VmRow} {x y : HostId} (hr : s.row = some r) (hx : r.hostId = some x)
      (hp : r.phase = .running) (hne : x ≠ y) (hy : s.hosts y = .ready) :
      ApiGoes s (.migrateRead y) { s with requests := s.requests ++ [⟨x, y, .read⟩] }
  | migrateCheck {i : Nat} {q : MigrateRequest} (hq : s.requests[i]? = some q)
      (hnone : s.activeMigration = false) :
      ApiGoes s (.migrateCheck i) (setRequest s i (some { q with stage := .checked }))
  | migrateInsert {i : Nat} {q : MigrateRequest} (hq : s.requests[i]? = some q)
      (hst : q.stage = .checked) : ApiGoes s (.migrateInsert i)
        (setRequest (s.insertMigration q.source q.target) i (some { q with stage := .inserted }))
  | migratePhase {i : Nat} {q : MigrateRequest} (hq : s.requests[i]? = some q) :
      ApiGoes s (.migratePhase i) (setRequest (s.setVmPhase .migrating) i none)
  | apiCrash : ApiGoes s .apiCrash { s with requests := [], creating := false }

theorem apiStep_goes (hs : apiStep s e = some s') : ApiGoes s e s' := by
  cases e with
  | create d =>
    simp only [apiStep] at hs
    split at hs
    · cases hs
    · next hb =>
      cases hs
      exact .create d (by simpa using hb)
  | createRollback =>
    simp only [apiStep] at hs
    split at hs
    · cases hs
      exact .createRollback
    · cases hs
  | migrateRead y =>
    simp only [apiStep] at hs
    split at hs
    · next r hr =>
      split at hs
      · next x hx =>
        split at hs
        · next hc =>
          cases hs
          exact .migrateRead hr hx hc.1 hc.2.1 hc.2.2
        · cases hs
      · cases hs
    · cases hs
  | migrateCheck i | migrateInsert i | migratePhase i =>
    simp only [apiStep] at hs
    split at hs
    · next q hq =>
      split at hs
      · next hc =>
        cases hs
        first
          | exact .migrateCheck hq hc.2
          | exact .migrateInsert hq hc
          | exact .migratePhase hq
      · cases hs
    · cases hs
  | createDone | setPower | delete | apiCrash =>
    cases hs
    constructor
  | _ => cases hs

/-- What a request of the API leaves: the pass and the agents as they were, at most one migration
added, which is `Pending`, and a row that is new or written by `Writes`. -/
structure ApiEffect (s : State) (e : Event) (s' : State) : Prop where
  pc : s'.pc = s.pc
  agents : s'.agents = s.agents
  hosts : s'.hosts = s.hosts
  born : s.born → s'.born
  migrations : s'.migrations = s.migrations ∨
    ∃ x y, s'.migrations = s.migrations ++ [⟨s.migrations.length, some x, y, .pending, none⟩]
  row : ∀ r', s'.row = some r' →
    (s.born = false ∧ ∃ d, e = .create d ∧ r' = ⟨.pending, none, d, 1, 0, 0⟩) ∨
      ∃ r, s.row = some r ∧ Writes s e r r'

section

variable {s s' : State} {e : Event}

theorem ApiEffect.of_requests (he : e.bumps = false) (reqs : List MigrateRequest) (creating : Bool) :
    ApiEffect s e { s with requests := reqs, creating := creating } :=
  ⟨rfl, rfl, rfl, id, .inl rfl, fun r' hr' => .inr ⟨r', hr', .refl he⟩⟩

theorem ApiEffect.of_updateRow {f : VmRow → VmRow} (reqs : List MigrateRequest)
    (hf : ∀ r, Writes s e r (f r)) : ApiEffect s e { s.updateRow f with requests := reqs } :=
  ⟨rfl, rfl, rfl, id, .inl rfl, fun _ hr' => .inr (writes_updateRow (s := s) hr' hf)⟩

theorem apiStep_effect (hs : apiStep s e = some s') : ApiEffect s e s' := by
  cases apiStep_goes hs with
  | create d hb =>
    refine ⟨rfl, rfl, rfl, fun _ => rfl, .inl rfl, fun r' hr' => .inl ⟨hb, d, rfl, ?_⟩⟩
    exact (some.inj hr').symm
  | createDone => exact .of_requests rfl s.requests false
  | createRollback => exact ⟨rfl, rfl, rfl, id, .inl rfl, fun _ hr' => nomatch hr'⟩
  | setPower d => exact .of_updateRow s.requests fun _ => .power d
  | delete => exact .of_updateRow s.requests fun _ => .same rfl rfl rfl rfl rfl (.inr nofun)
  | migrateRead | migrateCheck => exact .of_requests rfl _ s.creating
  | @migrateInsert i q =>
    exact ⟨rfl, rfl, rfl, id, .inr ⟨q.source, q.target, rfl⟩, fun r' hr' => .inr ⟨r', hr', .refl rfl⟩⟩
  | migratePhase => exact .of_updateRow _ fun _ => .same rfl rfl rfl rfl rfl (.inr nofun)
  | apiCrash => exact .of_requests rfl [] false

end

/-! ## Agent calls -/

/-- What an agent call leaves, one case for each way it can go. -/
inductive CallLeaves (s : State) (c : Call) : State → Prop
  | ensureFailed {vm : VmRow} {x : HostId} (hpc : s.pc = .ensureCall vm x) :
      CallLeaves s c (s.goto .noteFailure)
  | ensured {vm : VmRow} {x : HostId} (hpc : s.pc = .ensureCall vm x) {a : AgentVm}
      {r : Except AgentError Phase} (ha : (s.agents x).ensure c.ensure vm.desired = (a, r)) :
      CallLeaves s c ((s.setAgent x a).goto (ensureNext vm c.outcome r))
  | deleteFailed {x : HostId} (hpc : s.pc = .deleteCall x) (ho : c.outcome = .fail) :
      CallLeaves s c (s.goto .deleteRow)
  | deleted {x : HostId} (hpc : s.pc = .deleteCall x) {a : AgentVm} {r : Except AgentError Unit}
      (ha : (s.agents x).delete = some (a, r)) : CallLeaves s c ((s.setAgent x a).goto .deleteRow)
  | lost {x : HostId} (hpc : s.pc = .recoverList x) : CallLeaves s c (s.goto .recoverMark)
  | reported {x : HostId} (hpc : s.pc = .recoverList x) : CallLeaves s c (s.goto .idle)
  -- the agent is not reached, or there is no transfer to start
  | migrationFailed {m : Migration} (hpc : s.pc = .migrationCall m)
      (ho : c.outcome = .fail ∨ m.state = .sending) : CallLeaves s c (s.goto (migrationFailed s m))
  | prepared {m : Migration} (hpc : s.pc = .migrationCall m) (hm : m.state = .pending)
      (ho : c.outcome ≠ .fail) {a : AgentVm} {r : Except AgentError Url}
      (ha : (s.agents m.targetHost).prepareReceive c.receive m.targetHost c.serial = some (a, r)) :
      CallLeaves s c ((s.setAgent m.targetHost a).goto (prepareNext s m c.outcome r))
  | sent {m : Migration} (hpc : s.pc = .migrationCall m) (hm : m.state = .sending)
      (ho : c.outcome ≠ .fail) {x : HostId} (hx : m.sourceHost = some x) {u : Url}
      (hu : m.migrationUrl = some u) {agents : HostId → AgentVm}
      (ha : sendMigration s.agents x u c.husk = some agents) (pc : Pc)
      (hnext : pc = .sent m ∨ pc = Lifecycle.migrationFailed s m) :
      CallLeaves s c (({ s with agents := agents } : State).goto pc)
  | finalized {m : Migration} (hpc : s.pc = .migrationCall m) (hm : m.state = .finalizing)
      {a : AgentVm} {r : Except AgentError Phase}
      (ha : (s.agents m.targetHost).finalizeReceive = some (a, r)) :
      CallLeaves s c ((s.setAgent m.targetHost a).goto (finalizeNext s m c.outcome r))
  | discardFailed {m : Migration} (hpc : s.pc = .finalized m) (ho : c.outcome = .fail) :
      CallLeaves s c (s.goto (.discarded m))
  | discarded {m : Migration} (hpc : s.pc = .finalized m) {x : HostId} (hx : m.sourceHost = some x)
      {a : AgentVm} {r : Except AgentError Unit} (ha : (s.agents x).discard = some (a, r)) :
      CallLeaves s c ((s.setAgent x a).goto (.discarded m))
  | releaseFailed {m : Migration} (hpc : s.pc = .release m) (ho : c.outcome = .fail) :
      CallLeaves s c (s.goto (.fail m))
  | released {m : Migration} (hpc : s.pc = .release m) {a : AgentVm} {r : Except AgentError Unit}
      (ha : (s.agents m.targetHost).discard = some (a, r)) :
      CallLeaves s c ((s.setAgent m.targetHost a).goto (.fail m))

theorem migrationCallStep_leaves
    (hpc : s.pc = .migrationCall m) (hs : migrationCallStep s m c = some s') : CallLeaves s c s' := by
  unfold migrationCallStep at hs
  split at hs
  · next ho =>
    cases hs
    exact .migrationFailed hpc (.inl ho)
  · next hm ho =>
    obtain ⟨⟨a, r⟩, ha, rfl⟩ := map_eq_some_iff.mp hs
    exact .prepared hpc hm ho ha
  · next hm ho =>
    split at hs
    · next x u hx hu =>
      split at hs
      · next agents ha =>
        cases hs
        refine .sent hpc hm ho hx hu ha _ ?_
        split
        · exact .inl rfl
        · exact .inr rfl
      · cases hs
        exact .migrationFailed hpc (.inr hm)
    · cases hs
      exact .migrationFailed hpc (.inr hm)
  · next hm _ =>
    obtain ⟨⟨a, r⟩, ha, rfl⟩ := map_eq_some_iff.mp hs
    exact .finalized hpc hm ha
  · cases hs

theorem callStep_leaves (hs : callStep s c = some s') : CallLeaves s c s' := by
  unfold callStep at hs
  split at hs
  · next vm x hpc =>
    split at hs
    · cases hs
      exact .ensureFailed hpc
    · cases hs
      exact .ensured hpc rfl
  · next x hpc =>
    split at hs
    · next ho =>
      cases hs
      exact .deleteFailed hpc ho
    · obtain ⟨⟨a, r⟩, ha, rfl⟩ := map_eq_some_iff.mp hs
      exact .deleted hpc ha
  · next x hpc =>
    split at hs
    · cases hs
      exact .lost hpc
    · cases hs
      exact .reported hpc
  · next m hpc => exact migrationCallStep_leaves hpc hs
  · next m hpc =>
    split at hs
    · next x hx =>
      split at hs
      · next ho =>
        cases hs
        exact .discardFailed hpc ho
      · obtain ⟨⟨a, r⟩, ha, rfl⟩ := map_eq_some_iff.mp hs
        exact .discarded hpc hx ha
    · cases hs
  · next m hpc =>
    split at hs
    · next ho =>
      cases hs
      exact .releaseFailed hpc ho
    · obtain ⟨⟨a, r⟩, ha, rfl⟩ := map_eq_some_iff.mp hs
      exact .released hpc ha
  · cases hs

inductive CallGoes : Pc → Pc → Prop
  | ensured (vm : VmRow) (h : HostId) (p : Phase) : CallGoes (.ensureCall vm h) (.observed vm p)
  | ensureFailed (vm : VmRow) (h : HostId) : CallGoes (.ensureCall vm h) .noteFailure
  | deleted (h : HostId) : CallGoes (.deleteCall h) .deleteRow
  | lost (h : HostId) : CallGoes (.recoverList h) .recoverMark
  | reported (h : HostId) : CallGoes (.recoverList h) .idle
  | prepared {m : Migration} (hm : m.state = .pending) (url : Url) :
      CallGoes (.migrationCall m) (.prepared m url)
  | sent {m : Migration} (hm : m.state = .sending) : CallGoes (.migrationCall m) (.sent m)
  | finalized {m : Migration} (hm : m.state = .finalizing) :
      CallGoes (.migrationCall m) (.finalized m)
  | unsourced {m : Migration} (hm : m.state = .finalizing) :
      CallGoes (.migrationCall m) (.discarded m)
  | failed (m : Migration) (pc : Pc) (hpc : pc = .release m ∨ pc = .fail m) :
      CallGoes (.migrationCall m) pc
  | discarded (m : Migration) : CallGoes (.finalized m) (.discarded m)
  | released (m : Migration) : CallGoes (.release m) (.fail m)

/-- An agent call changes the agents and moves the pass. -/
structure CallEffect (s s' : State) : Prop where
  row : s'.row = s.row
  born : s'.born = s.born
  migrations : s'.migrations = s.migrations
  requests : s'.requests = s.requests
  goes : CallGoes s.pc s'.pc

section

variable {s s' : State} {c : Call}

theorem callGoes_failed (s : State) (m : Migration) :
    CallGoes (.migrationCall m) (migrationFailed s m) :=
  .failed m _ (migrationFailed_cases s m)

theorem callStep_effect (hs : callStep s c = some s') : CallEffect s s' := by
  cases callStep_leaves hs with
  | @ensureFailed vm x hpc => exact ⟨rfl, rfl, rfl, rfl, hpc ▸ .ensureFailed vm x⟩
  | @ensured vm x hpc a r =>
    refine ⟨rfl, rfl, rfl, rfl, hpc ▸ ?_⟩
    show CallGoes _ (ensureNext vm c.outcome r)
    unfold ensureNext
    split
    · exact .ensured vm x _
    · exact .ensureFailed vm x
  | @deleteFailed x hpc | @deleted x hpc => exact ⟨rfl, rfl, rfl, rfl, hpc ▸ .deleted x⟩
  | @lost x hpc => exact ⟨rfl, rfl, rfl, rfl, hpc ▸ .lost x⟩
  | @reported x hpc => exact ⟨rfl, rfl, rfl, rfl, hpc ▸ .reported x⟩
  | @migrationFailed m hpc => exact ⟨rfl, rfl, rfl, rfl, hpc ▸ callGoes_failed s m⟩
  | @prepared m hpc hm _ a r =>
    refine ⟨rfl, rfl, rfl, rfl, hpc ▸ ?_⟩
    show CallGoes _ (prepareNext s m c.outcome r)
    unfold prepareNext
    split
    · exact .prepared hm _
    · exact callGoes_failed s m
  | @sent m hpc hm _ _ _ _ _ _ _ pc hnext =>
    refine ⟨rfl, rfl, rfl, rfl, hpc ▸ ?_⟩
    rcases hnext with rfl | rfl
    · exact .sent hm
    · exact callGoes_failed s m
  | @finalized m hpc hm a r =>
    refine ⟨rfl, rfl, rfl, rfl, hpc ▸ ?_⟩
    show CallGoes _ (finalizeNext s m c.outcome r)
    unfold finalizeNext afterFinalize
    split
    · split
      · split
        · exact .unsourced hm
        · exact .finalized hm
      · exact .unsourced hm
    · exact callGoes_failed s m
  | @discardFailed m hpc | @discarded m hpc => exact ⟨rfl, rfl, rfl, rfl, hpc ▸ .discarded m⟩
  | @releaseFailed m hpc | @released m hpc => exact ⟨rfl, rfl, rfl, rfl, hpc ▸ .released m⟩

end

/-! ## The start of a pass -/

/-- Where a pass starts or goes on without a statement or a call. -/
inductive BeginGoes (s : State) : Event → Pc → Pc → Prop
  | deletes {r : VmRow} (hr : s.row = some r) (hp : r.phase = .deleting) (pc : Pc)
      (hpc : pc = .deleteRow ∨ ∃ h, r.hostId = some h ∧ pc = .deleteCall h) :
      BeginGoes s .beginReconcile .idle pc
  | places {r : VmRow} (hr : s.row = some r) (hp : r.phase ≠ .deleting ∧ r.phase ≠ .migrating)
      {h : HostId} (hh : r.hostId = some h) (hrec : r.toReconcile) :
      BeginGoes s .beginReconcile .idle (.place r h)
  | schedules {r : VmRow} (hr : s.row = some r) (hp : r.phase ≠ .deleting ∧ r.phase ≠ .migrating)
      (hh : r.hostId = none) (hrec : r.toReconcile) :
      BeginGoes s .beginReconcile .idle (.schedule r)
  | recovers {r : VmRow} (hr : s.row = some r) (hp : r.phase = .running) {h : HostId}
      (hh : r.hostId = some h) : BeginGoes s .beginRecover .idle (.recoverList h)
  | advances {m : Migration} (hm : m ∈ s.migrations) (hact : m.state.active) :
      BeginGoes s (.beginMigration m) .idle (.advance m)
  | scheduled (vm : VmRow) {h : HostId} (hh : s.hosts h = .ready) :
      BeginGoes s (.scheduled h) (.schedule vm) (.assign vm h)
  | defers (vm : VmRow) (pc pc' : Pc) (hpc : pc = .schedule vm ∨ ∃ h, pc = .place vm h)
      (hpc' : pc' = .idle ∨ pc' = .clearFailures) : BeginGoes s .defer pc pc'

theorem beginStep_effect (hs : beginStep s e = some s') :
    ∃ pc, s' = s.goto pc ∧ BeginGoes s e s.pc pc := by
  cases e with
  | beginReconcile =>
    simp only [beginStep] at hs
    split at hs
    · next r hpc hr =>
      split at hs
      · next hc =>
        cases hs
        refine ⟨_, rfl, hpc ▸ ?_⟩
        unfold reconcileVm
        split
        · next h hp hh =>
          refine .deletes hr hp _ ?_
          split
          · exact .inl rfl
          · exact .inr ⟨h, hh, rfl⟩
        · next hp hh => exact .deletes hr hp _ (.inl rfl)
        · next h hh hp => exact .places hr ⟨hp, hc.2⟩ hh hc.1
        · next hh hp => exact .schedules hr ⟨hp, hc.2⟩ hh hc.1
      · cases hs
    · cases hs
  | beginRecover =>
    simp only [beginStep] at hs
    split at hs
    · next r hpc hr =>
      split at hs
      · next h hh =>
        split at hs
        · next hc =>
          cases hs
          exact ⟨_, rfl, hpc ▸ .recovers hr hc.1 hh⟩
        · cases hs
      · cases hs
    · cases hs
  | beginMigration m =>
    simp only [beginStep] at hs
    split at hs
    · next hc =>
      cases hs
      exact ⟨_, rfl, hc.1 ▸ .advances hc.2.1 hc.2.2⟩
    · cases hs
  | scheduled h =>
    simp only [beginStep] at hs
    split at hs
    · next vm hpc =>
      split at hs
      · next hh =>
        cases hs
        exact ⟨_, rfl, hpc ▸ .scheduled vm hh⟩
      · cases hs
    · cases hs
  | defer =>
    simp only [beginStep] at hs
    split at hs
    · next vm hpc =>
      cases hs
      exact ⟨_, rfl, .defers vm _ _ (.inl hpc) (reconciled_cases vm)⟩
    · next vm h hpc =>
      cases hs
      exact ⟨_, rfl, .defers vm _ _ (.inr ⟨h, hpc⟩) (reconciled_cases vm)⟩
    · cases hs
  | _ => cases hs

/-! ## One step -/

inductive Kind (s : State) (e : Event) (s' : State) : Prop
  | db (he : e = .db) (hs : dbStep s = some s')
  | call (c : Call) (he : e = .call c) (hs : callStep s c = some s')
  | crash (he : e = .crash) (hs : s' = s.goto .idle)
  | exits (h : HostId) (v : Victim) (he : e = .vmmExit h v)
      (hs : s' = s.setAgent h ((s.agents h).vmmExit v))
  | host (h : HostId) (st : HostState) (he : e = .hostState h st)
      (hs : s' = { s with hosts := Function.update s.hosts h st })
  | api (hs : apiStep s e = some s')
  | begins (hs : beginStep s e = some s')

theorem step_kind (hs : step s e = some s') : Kind s e s' := by
  cases e with
  | db => exact .db rfl hs
  | call => exact .call _ rfl hs
  | crash => exact .crash rfl (some.inj hs).symm
  | vmmExit h v => exact .exits h v rfl (some.inj hs).symm
  | hostState h st =>
    simp only [step] at hs
    split at hs
    · cases hs
    · exact .host h st rfl (some.inj hs).symm
  | create | createDone | createRollback | setPower | delete | migrateRead | migrateCheck
  | migrateInsert | migratePhase | apiCrash => exact .api hs
  | beginReconcile | beginRecover | beginMigration | scheduled | defer => exact .begins hs

theorem step_writes (hs : step s e = some s') {r' : VmRow} (hr' : s'.row = some r') :
    (s.born = false ∧ ∃ d, e = .create d ∧ r' = ⟨.pending, none, d, 1, 0, 0⟩) ∨
      ∃ r, s.row = some r ∧ Writes s e r r' := by
  cases step_kind hs with
  | db he hs =>
    subst he
    exact .inr (writes_dbStep hs hr')
  | call c he hcall =>
    subst he
    exact .inr (writes_same rfl (callStep_effect hcall).row hr')
  | crash he hs' | exits h v he hs' | host h st he hs' =>
    subst he hs'
    exact .inr (writes_same (s := s) rfl rfl hr')
  | api hs => exact (apiStep_effect hs).row r' hr'
  | begins hs =>
    obtain ⟨pc, rfl, hgoes⟩ := beginStep_effect hs
    refine .inr (writes_same (s := s) ?_ rfl hr')
    generalize s.pc = pc₀ at hgoes
    cases hgoes <;> rfl

theorem step_born (hs : step s e = some s') (hb : s.born) : s'.born := by
  cases step_kind hs with
  | db he hs => exact (dbStep_frame hs).2.2.1.trans hb
  | call c he hs => exact (callStep_effect hs).born.trans hb
  | crash he hs | exits h v he hs | host h st he hs => exact hs ▸ hb
  | api hs => exact (apiStep_effect hs).born hb
  | begins hs =>
    obtain ⟨pc, rfl, -⟩ := beginStep_effect hs
    exact hb

/-! ## Before the VM is created -/

/-- No row, no migration, no request to migrate and no pass. -/
structure Blank (s : State) : Prop where
  row : s.row = none
  migrations : s.migrations = []
  requests : s.requests = []
  pc : s.pc = .idle

theorem Blank.apiStep (h : Blank s) (hs : apiStep s e = some s')
    (hborn : s'.born = s.born) : Blank s' := by
  have hnone : ∀ {i : Nat} {q}, s.requests[i]? ≠ some q := by simp [h.requests]
  cases apiStep_goes hs with
  | create d hb => exact absurd (hb.symm.trans hborn.symm) nofun
  | createDone => exact ⟨h.row, h.migrations, h.requests, h.pc⟩
  | createRollback => exact ⟨rfl, h.migrations, h.requests, h.pc⟩
  | setPower | delete => exact ⟨congrArg (Option.map _) h.row, h.migrations, h.requests, h.pc⟩
  | migrateRead hr => cases h.row.symm.trans hr
  | migrateCheck hq | migrateInsert hq | migratePhase hq => exact absurd hq hnone
  | apiCrash => exact ⟨h.row, h.migrations, rfl, h.pc⟩

theorem Blank.step (h : Blank s) (hs : step s e = some s') :
    s'.pc = .idle ∧ (s'.born = s.born → Blank s') := by
  cases step_kind hs with
  | db he hs =>
    simp only [dbStep, h.pc] at hs
    cases hs
  | call c he hs =>
    simp only [callStep, h.pc] at hs
    cases hs
  | crash he hs =>
    subst hs
    exact ⟨rfl, fun _ => ⟨h.row, h.migrations, h.requests, rfl⟩⟩
  | exits x v he hs | host x st he hs =>
    subst hs
    exact ⟨h.pc, fun _ => ⟨h.row, h.migrations, h.requests, h.pc⟩⟩
  | api hs => exact ⟨(apiStep_effect hs).pc.trans h.pc, h.apiStep hs⟩
  | begins hs =>
    obtain ⟨pc, rfl, hgoes⟩ := beginStep_effect hs
    have hrow := h.row
    have hmig := h.migrations
    rw [h.pc] at hgoes
    -- every pass starts from a row or a migration
    cases hgoes with
    | deletes hr | places hr | schedules hr | recovers hr => cases hrow.symm.trans hr
    | advances hm => simp [hmig] at hm
    | defers vm _ _ hpc => rcases hpc with hpc | ⟨x, hpc⟩ <;> cases hpc

/-! ## The ids of migrations -/

/-- A migration's id is its place in the table: rows are added at the end and never removed. -/
def Numbered (ms : List Migration) : Prop := ∀ (i : Nat) (m : Migration), ms[i]? = some m → m.id = i

theorem Numbered.eq_of_id (h : Numbered ms) {m' : Migration} (hm : m ∈ ms)
    (hm' : m' ∈ ms) (hid : m.id = m'.id) : m = m' := by
  obtain ⟨i, hi⟩ := mem_iff_getElem?.mp hm
  obtain ⟨j, hj⟩ := mem_iff_getElem?.mp hm'
  have hij : i = j := (h i m hi).symm.trans (hid.trans (h j m' hj))
  subst hij
  exact mem_unique hi hj

theorem Numbered.append (h : Numbered ms) (hid : m.id = ms.length) : Numbered (ms ++ [m]) := by
  intro i m' hi
  rcases Nat.lt_trichotomy i ms.length with hlt | rfl | hgt
  · rw [List.getElem?_append_left hlt] at hi
    exact h i m' hi
  · rw [List.getElem?_concat_length] at hi
    rwa [← some.inj hi]
  · rw [List.getElem?_eq_none (by simp; omega)] at hi
    cases hi

theorem Numbered.update (h : Numbered s.migrations) (id : Nat) (st : MigrationState)
    (url : Option Url) : Numbered (s.updateMigration id st url).migrations := by
  intro i m hi
  simp only [State.updateMigration, List.getElem?_map, map_eq_some_iff] at hi
  obtain ⟨m₀, hm₀, rfl⟩ := hi
  have hid := h i m₀ hm₀
  split <;> exact hid

/-- The migration a pass has in hand. -/
def Pc.migration : Pc → Option Migration
  | .advance m | .migrationCall m | .prepared m _ | .sent m | .finalized m | .discarded m
  | .moved m | .release m | .fail m => some m
  | _ => none

section

variable {s s' : State} {e : Event}

theorem advanceMigration_migration (s : State) (m : Migration) :
    (advanceMigration s m).migration = none ∨ (advanceMigration s m).migration = some m := by
  rcases advanceMigration_cases s m with h | h | h | h <;> rw [h]
  · exact .inl rfl
  · exact .inr rfl
  · exact .inr rfl
  · exact .inr rfl

variable {pc pc' : Pc} {m : Migration} {st : MigrationState} {q : MigrateRequest}

theorem DbGoes.migration (h : DbGoes s pc pc') :
    pc'.migration = none ∨ pc'.migration = pc.migration := by
  cases h with
  | assigned | placed => exact .inl rfl
  | advanced => exact advanceMigration_migration s _
  | moved => exact .inr rfl
  | ends _ _ h => rcases h with rfl | rfl | rfl | rfl <;> exact .inl rfl

/-- The statement that moves a migration on is the last one of a pass with it in hand. -/
theorem dbStep_moves (hs : dbStep s = some s') (hm : Moves s.pc m st) : s'.pc.migration = none := by
  unfold dbStep at hs
  generalize s.pc = pc at hs hm
  cases hm <;> obtain rfl := some.inj hs <;> rfl

theorem CallGoes.migration (h : CallGoes pc pc') :
    pc'.migration = none ∨ pc'.migration = pc.migration := by
  cases h with
  | failed m pc hpc => rcases hpc with rfl | rfl <;> exact .inr rfl
  | prepared | sent | finalized | unsourced | discarded | released => exact .inr rfl
  | ensured | ensureFailed | deleted | lost | reported => exact .inl rfl

theorem BeginGoes.migration (h : BeginGoes s e pc pc') : pc'.migration = none ∨
      ∃ m, pc'.migration = some m ∧ m ∈ s.migrations ∧ m.state.active := by
  cases h with
  | deletes hr hp pc hpc => rcases hpc with rfl | ⟨x, -, rfl⟩ <;> exact .inl rfl
  | defers vm pc pc' hpc hpc' => rcases hpc' with rfl | rfl <;> exact .inl rfl
  | advances hm hact => exact .inr ⟨_, rfl, hm, hact⟩
  | places | schedules | recovers | scheduled => exact .inl rfl

theorem Moves.migration (h : Moves pc m st) : pc.migration = some m := by
  cases h <;> rfl

/-- `update_migration` and `insert_migration` are all that writes migrations. -/
theorem step_migrations (hs : step s e = some s') : s'.migrations = s.migrations ∨
      (∃ m st url, s.pc.migration = some m ∧ s'.pc.migration = none ∧
        s'.migrations = (s.updateMigration m.id st url).migrations) ∨
      ∃ i q, e = .migrateInsert i ∧ s.requests[i]? = some q ∧
        s'.migrations = (s.insertMigration q.source q.target).migrations := by
  cases step_kind hs with
  | db he hdb =>
    rcases dbStep_migrations hdb with hmig | ⟨m, st, url, hmoves, hmig⟩
    · exact .inl hmig
    · exact .inr (.inl ⟨m, st, url, hmoves.migration, dbStep_moves hdb hmoves, hmig⟩)
  | call c he hcall => exact .inl (callStep_effect hcall).migrations
  | crash he hs' | exits _ _ he hs' | host _ _ he hs' => exact .inl (hs' ▸ rfl)
  | api hapi =>
    cases apiStep_goes hapi with
    | @migrateInsert i q hq => exact .inr (.inr ⟨i, q, rfl, hq, rfl⟩)
    | _ => exact .inl rfl
  | begins hbeg =>
    obtain ⟨pc, rfl, -⟩ := beginStep_effect hbeg
    exact .inl rfl

theorem Numbered.step (h : Numbered s.migrations) (hs : step s e = some s') :
    Numbered s'.migrations := by
  rcases step_migrations hs with hmig | ⟨m, st, url, -, -, hmig⟩ | ⟨i, q, -, -, hmig⟩ <;> rw [hmig]
  · exact h
  · exact h.update m.id st url
  · exact h.append rfl

/-- The migration that a pass has in hand it had before, or it has taken up an active one. -/
theorem step_hand (hs : step s e = some s') (hm : s'.pc.migration = some m) :
    s.pc.migration = some m ∨ (m ∈ s.migrations ∧ m.state.active) := by
  have hkept : s'.pc.migration = none ∨ s'.pc.migration = s.pc.migration →
      s.pc.migration = some m := by
    rintro (hnone | hsame)
    · cases hnone.symm.trans hm
    · exact hsame ▸ hm
  cases step_kind hs with
  | db he hdb => exact .inl (hkept (dbStep_goes hdb).migration)
  | call c he hcall => exact .inl (hkept (callStep_effect hcall).goes.migration)
  | crash he hs' =>
    subst hs'
    cases hm
  | exits _ _ he hs' | host _ _ he hs' =>
    subst hs'
    exact .inl hm
  | api hapi => exact .inl ((apiStep_effect hapi).pc ▸ hm)
  | begins hbeg =>
    obtain ⟨pc, rfl, hgoes⟩ := beginStep_effect hbeg
    rcases hgoes.migration with hnone | ⟨m', hm', hmem⟩
    · cases hnone.symm.trans hm
    · obtain rfl := mem_unique hm' hm
      exact .inr hmem

/-- What a pass has in hand is an active row of the table. -/
structure InHand (s : State) : Prop where
  ids : Numbered s.migrations
  hand : ∀ m, s.pc.migration = some m → m ∈ s.migrations ∧ m.state.active

theorem InHand.step (h : InHand s) (hs : step s e = some s') : InHand s' := by
  refine ⟨h.ids.step hs, fun m hm => ?_⟩
  have hold := (step_hand hs hm).elim (h.hand m) id
  rcases step_migrations hs with hmig | ⟨_, _, _, -, hnone, -⟩ | ⟨i, q, -, -, hmig⟩
  · exact hmig ▸ hold
  · cases hnone.symm.trans hm
  · rw [hmig]
    exact ⟨mem_append_left _ hold.1, hold.2⟩

theorem InHand.of_update (h : InHand s) {x : Migration} {url : Option Url}
    (hm : s.pc.migration = some m) (hx : x ∈ (s.updateMigration m.id st url).migrations) :
    ∃ y ∈ s.migrations, (x.state.active → y.state.active) ∧
      x = if y.id = m.id then { y with state := st, migrationUrl := url <|> y.migrationUrl }
        else y := by
  obtain ⟨hmem, hact⟩ := h.hand m hm
  obtain ⟨y, hy, rfl⟩ := mem_map.mp hx
  refine ⟨y, hy, fun hxa => ?_, rfl⟩
  by_cases hid : y.id = m.id
  · rwa [h.ids.eq_of_id hy hmem hid]
  · rwa [if_neg hid] at hxa

/-- The target of a migration is that of the request that inserted it. -/
theorem target_of_step (h : InHand s) (hs : step s e = some s') (hm : m ∈ s'.migrations) :
    (∃ y ∈ s.migrations, y.targetHost = m.targetHost ∧
      (m.state.active → y.state.active)) ∨ ∃ q ∈ s.requests, q.target = m.targetHost := by
  rcases step_migrations hs with hmig | ⟨m', st, url, hm', -, hmig⟩ | ⟨i, q, -, hq, hmig⟩ <;>
    rw [hmig] at hm
  · exact .inl ⟨m, hm, rfl, id⟩
  · obtain ⟨y, hy, hact, rfl⟩ := h.of_update hm' hm
    refine .inl ⟨y, hy, ?_, hact⟩
    split <;> rfl
  · rcases mem_append.mp hm with hm | hm
    · exact .inl ⟨m, hm, rfl, id⟩
    · obtain rfl := mem_singleton.mp hm
      exact .inr ⟨q, mem_of_getElem? hq, rfl⟩

theorem mem_setRequest {i : Nat} {o : Option MigrateRequest}
    (h : q ∈ (setRequest s i o).requests) : q ∈ s.requests ∨ o = some q := by
  simp only [setRequest, mem_append, mem_toList] at h
  rcases h with (h | h) | h
  · exact .inl (mem_of_mem_take h)
  · exact .inr h
  · exact .inl (mem_of_mem_drop h)

/-- A request goes on between the hosts that it was made for: the VM's, and one that was ready. -/
theorem request_of_step (hs : step s e = some s') (hq : q ∈ s'.requests) :
    (∃ p ∈ s.requests, p.source = q.source ∧ p.target = q.target) ∨
      (e = .migrateRead q.target ∧ s.hosts q.target = .ready ∧
        ∃ r, s.row = some r ∧ r.hostId = some q.source) := by
  cases step_kind hs with
  | db he hdb => exact .inl ⟨q, (dbStep_frame hdb).2.2.2 ▸ hq, rfl, rfl⟩
  | call c he hcall => exact .inl ⟨q, (callStep_effect hcall).requests ▸ hq, rfl, rfl⟩
  | crash he hs' | exits _ _ he hs' | host _ _ he hs' =>
    subst hs'
    exact .inl ⟨q, hq, rfl, rfl⟩
  | api hapi =>
    cases apiStep_goes hapi with
    | migrateRead hr hx _ _ hy =>
      rcases mem_append.mp hq with hq | hq
      · exact .inl ⟨q, hq, rfl, rfl⟩
      · obtain rfl := mem_singleton.mp hq
        exact .inr ⟨rfl, hy, _, hr, hx⟩
    | migrateCheck hp | migrateInsert hp =>
      rcases mem_setRequest hq with hq | hnew
      · exact .inl ⟨q, hq, rfl, rfl⟩
      · cases hnew
        exact .inl ⟨_, mem_of_getElem? hp, rfl, rfl⟩
    | migratePhase => exact .inl ⟨q, (mem_setRequest hq).resolve_right nofun, rfl, rfl⟩
    | apiCrash => cases hq
    | _ => exact .inl ⟨q, hq, rfl, rfl⟩
  | begins hbeg =>
    obtain ⟨pc, rfl, -⟩ := beginStep_effect hbeg
    exact .inl ⟨q, hq, rfl, rfl⟩

end

end VQuasar.Lifecycle
