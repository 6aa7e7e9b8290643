import VQuasar.Lifecycle.Passes

/-!
# Why an agent holds an entry

The invariant `Clean` says why each table entry of an agent is there: a `vms` entry belongs to
the row's host or to the target of the `Finalizing` migration, a `pending` entry to the target
of the active one, and nothing runs outside the tables.  Where no row is left, no entry is
(`Clean.anyAlive`).

`tidy` is the condition on steps that keeps it.  It leaves out calls the agent does not carry
out, failing and overlapping migrations, deletion in the middle of a migration, a late rollback
of `create`, and launches that fail after the process was spawned.  This module shows that the
steps which leave the agents alone keep `Clean`; `Deletion` does the rest.
-/

namespace VQuasar.Lifecycle

open List Option

variable {s s' : State} {r : VmRow} {pc : Pc} {c : Bool} {q : MigrateRequest}

/-! ## The condition on steps -/

def State.home (s : State) : Option (Option HostId) := s.row.map (·.hostId)

/-- Whether a launch fails after it spawned its process. -/
def Call.leavesProcess (c : Call) : Bool :=
  c.ensure.launch == .notReady || c.receive == .launch .notReady || c.receive == .noPort

/-- The steps under which deletion is complete:
* the agent carries out the `delete_vm` of `reconcile_delete` and the `discard_vm` a completed
  migration sends to its source;
* no migration fails, none is inserted while one is active, and `reconcile_delete` does not run
  while one is active;
* `create` rolls its row back only before a pass has taken the row up;
* no launch fails after it spawned its process. -/
def tidy (s : State) : Event → Bool
  | .db =>
    match s.pc with
    | .deleteRow => !s.activeMigration
    | .fail _ => false
    | _ => true
  | .call c =>
    !c.leavesProcess &&
      match s.pc with
      | .deleteCall _ => c.outcome != .fail && !s.activeMigration
      | .finalized _ => c.outcome != .fail
      | .release _ => false
      | _ => true
  | .createRollback => s.pc == .idle && s.home.all Option.isNone
  | .migrateInsert _ => !s.activeMigration
  | _ => true

/-! ## The invariant -/

/-- Every host a row, a migration or a request names is registered. -/
structure Registered (s : State) : Prop where
  home : ∀ h, s.home = some (some h) → s.hosts h ≠ .absent
  migrations : ∀ m ∈ s.migrations, s.hosts m.targetHost ≠ .absent ∧
    ∀ h, m.sourceHost = some h → s.hosts h ≠ .absent
  requests : ∀ q ∈ s.requests, s.hosts q.source ≠ .absent ∧ s.hosts q.target ≠ .absent

/-- What a pass knows at each of its program points. -/
def PcClean (s : State) : Pc → Prop
  | .idle | .clearFailures | .observed _ _ | .noteFailure | .giveUp | .recoverList _
  | .recoverMark => True
  | .schedule _ => s.home = some none
  | .assign _ h => s.home = some none ∧ s.hosts h ≠ .absent
  | .place _ h | .ensureCall _ h | .deleteCall h => s.home = some (some h)
  | .deleteRow => ∀ h, s.home = some (some h) → (s.agents h).managed = none
  | .advance m | .release m | .fail m => m ∈ s.migrations ∧ m.state.active = true
  | .migrationCall m => (m ∈ s.migrations ∧ m.state.active) ∧ s.home ≠ none
  | .prepared m url => (m ∈ s.migrations ∧ m.state = .pending) ∧ url.host = m.targetHost
  | .sent m => (m ∈ s.migrations ∧ m.state = .sending) ∧ s.home = some m.sourceHost ∧
      ∀ p, (s.agents m.targetHost).pending = some p →
        p.recv ≠ .waiting ∧ (s.agents m.targetHost).managed = none
  | .finalized m => (m ∈ s.migrations ∧ m.state = .finalizing) ∧
      (s.agents m.targetHost).pending = none
  | .discarded m => (m ∈ s.migrations ∧ m.state = .finalizing) ∧
      (s.agents m.targetHost).pending = none ∧
      ∀ h, m.sourceHost = some h → (s.agents h).managed = none
  | .moved m => (m ∈ s.migrations ∧ m.state = .finalizing) ∧
      (s.agents m.targetHost).pending = none ∧ (s.home = none ∨ s.home = some (some m.targetHost))
  | .restore => False

structure Clean (s : State) : Prop where
  migrations : MigrationsInv s
  registered : Registered s
  /-- A VM without a host was never migrated. -/
  unplaced : s.home = some none → s.migrations = [] ∧ s.requests = []
  strays : ∀ h, (s.agents h).strays = []
  pending : ∀ h p, (s.agents h).pending = some p →
    (p.returnUrl.host = h ∧ p.finalizing = false ∧ s.home ≠ none) ∧
      ∃ m ∈ s.migrations, m.state.active ∧ m.targetHost = h ∧
        (m.state = .finalizing → p.recv ≠ .waiting ∧ (s.agents h).managed = none ∧
          s.home ≠ some (some h))
  managed : ∀ h v, (s.agents h).managed = some v → s.home = some (some h) ∨
    (s.home ≠ none ∧ ∃ m ∈ s.migrations, m.state = .finalizing ∧ m.targetHost = h)
  /-- The row of a guest on its way names one of the two ends. -/
  moving : ∀ m ∈ s.migrations, m.state = .finalizing →
    s.home = none ∨ s.home = some m.sourceHost ∨ s.home = some (some m.targetHost)
  pc : PcClean s s.pc
  unborn : s.born = false → s.home = none ∧ s.migrations = [] ∧ s.requests = [] ∧ s.pc = .idle

theorem home_eq_none : s.home = none ↔ s.row = none := by
  simp [State.home]

theorem home_of_row (hr : s.row = some r) : s.home = some r.hostId := by
  simp [State.home, hr]

section

variable (h : Clean s)
include h

theorem Clean.busy : s.born ∨ s.pc = .idle := by
  cases hb : s.born with
  | false => exact .inr (h.unborn hb).2.2.2
  | true => exact .inl rfl

theorem Clean.born_at (hpc : s.pc = pc) (hne : pc ≠ .idle) : s.born := by
  rcases h.busy with hb | hidle
  · exact hb
  · exact absurd (hpc.symm.trans hidle) hne

theorem Clean.born_of_home (hne : s.home ≠ none) : s.born := by
  by_contra hb
  exact hne (h.unborn (by simpa using hb)).1

theorem Clean.born_of_row (hr : s.row = some r) : s.born :=
  h.born_of_home (by simp [home_of_row hr])

theorem Clean.pc_at (hpc : s.pc = pc) : PcClean s pc := by
  rw [← hpc]
  exact h.pc

end

theorem Clean.no_active (hn : s.activeMigration = false) {m : Migration} (hm : m ∈ s.migrations) :
    m.state.active ≠ true := by
  intro hact
  have : s.activeMigration = true := any_eq_true.mpr ⟨m, hm, hact⟩
  simp [hn] at this

/-- Nothing is in a table when the row's host holds no VMM and no migration of an existing row is
active. -/
theorem Clean.tables_empty (h : Clean s)
    (hhome : ∀ x, s.home = some (some x) → (s.agents x).managed = none)
    (hact : s.home ≠ none → ∀ m ∈ s.migrations, m.state.active ≠ true) (x : HostId) :
    (s.agents x).managed = none ∧ (s.agents x).pending = none := by
  constructor
  · refine eq_none_iff_forall_ne_some.mpr fun v hv => ?_
    rcases h.managed x v hv with hh | ⟨hne, m, hm, hfin, -⟩
    · simp [hhome x hh] at hv
    · exact hact hne m hm (active_of hfin rfl)
  · refine eq_none_iff_forall_ne_some.mpr fun p hp => ?_
    obtain ⟨⟨-, -, hne⟩, m, hm, ha, -⟩ := h.pending x p hp
    exact hact hne m hm ha

theorem Clean.tables_empty_of_home (h : Clean s) (hhome : s.home = none) :
    ∀ x, (s.agents x).managed = none ∧ (s.agents x).pending = none :=
  h.tables_empty (fun y hy => by rw [hhome] at hy; cases hy) fun hne => absurd hhome hne

theorem Clean.anyAlive (h : Clean s) (hrow : s.row = none) (x : HostId) :
    (s.agents x).anyAlive = false := by
  obtain ⟨hman, hpend⟩ := h.tables_empty_of_home (home_eq_none.mpr hrow) x
  simp [AgentVm.anyAlive, hman, hpend, h.strays x]

/-! ## Steps that leave the agents alone -/

/-- `s'` has the agents of `s`, at most new `Pending` migrations, and a row on the same host. -/
structure SameHome (s s' : State) : Prop where
  agents : s'.agents = s.agents
  hosts : ∀ h, s.hosts h ≠ .absent → s'.hosts h ≠ .absent
  keeps : ∀ m ∈ s.migrations, m ∈ s'.migrations
  fresh : ∀ m ∈ s'.migrations, m ∈ s.migrations ∨ m.state = .pending
  home : s'.home = s.home

theorem SameHome.of_eq (ha : s'.agents = s.agents) (hh : s'.hosts = s.hosts) (hm : s'.migrations =
    s.migrations) (hr : s'.home = s.home) : SameHome s s' :=
  ⟨ha, fun _ h => hh ▸ h, fun _ h => hm ▸ h, fun _ h => .inl (hm ▸ h), hr⟩

/-- What a pass knows survives a step that keeps the row's host, the hosts and the migrations,
fills no `vms` entry and opens no receiver. -/
theorem PcClean.mono (hhome : s'.home = s.home) (hhosts : ∀ x, s.hosts x ≠ .absent → s'.hosts x ≠ .absent)
    (hkeeps : ∀ m ∈ s.migrations, m ∈ s'.migrations)
    (hman : ∀ x, (s.agents x).managed = none → (s'.agents x).managed = none)
    (hpend : ∀ x p', (s'.agents x).pending = some p' → ∃ p, (s.agents x).pending = some p ∧
      (p.recv ≠ .waiting → p'.recv ≠ .waiting)) (h : PcClean s pc) : PcClean s' pc := by
  have hnone : ∀ x, (s.agents x).pending = none → (s'.agents x).pending = none := by
    intro x hx
    refine eq_none_iff_forall_ne_some.mpr fun p' hp' => ?_
    obtain ⟨p, hp, -⟩ := hpend x p' hp'
    simp [hx] at hp
  cases pc with
  | idle | clearFailures | observed | noteFailure | giveUp | recoverList | recoverMark => trivial
  | schedule | place | ensureCall | deleteCall => exact hhome.trans h
  | assign vm x => exact ⟨hhome.trans h.1, hhosts x h.2⟩
  | deleteRow => exact fun x hx => hman x (h x (hhome.symm.trans hx))
  | advance | release | fail => exact ⟨hkeeps _ h.1, h.2⟩
  | migrationCall m => exact ⟨⟨hkeeps _ h.1.1, h.1.2⟩, hhome ▸ h.2⟩
  | prepared m url => exact ⟨⟨hkeeps _ h.1.1, h.1.2⟩, h.2⟩
  | sent m =>
    refine ⟨⟨hkeeps _ h.1.1, h.1.2⟩, hhome.trans h.2.1, ?_⟩
    intro p' hp'
    obtain ⟨p, hp, hrecv⟩ := hpend _ p' hp'
    exact (h.2.2 p hp).imp hrecv (hman _)
  | finalized m => exact ⟨⟨hkeeps _ h.1.1, h.1.2⟩, hnone _ h.2⟩
  | discarded m =>
    exact ⟨⟨hkeeps _ h.1.1, h.1.2⟩, hnone _ h.2.1, fun x hx => hman x (h.2.2 x hx)⟩
  | moved m => exact ⟨⟨hkeeps _ h.1.1, h.1.2⟩, hnone _ h.2.1, hhome ▸ h.2.2⟩
  | restore => exact h

theorem SameHome.pcClean (hs : SameHome s s') (h : PcClean s pc) : PcClean s' pc :=
  h.mono hs.home hs.hosts hs.keeps (fun _ hx => hs.agents ▸ hx)
    fun _ p hp => ⟨p, hs.agents ▸ hp, id⟩

theorem SameHome.clean (hs : SameHome s s') (h : Clean s) (hmig : MigrationsInv s') (hreg :
    Registered s') (hun : s.home = some none → s'.migrations = [] ∧ s'.requests = []) (hpc : PcClean
    s' s'.pc) (hborn : s'.born = false → s.born = false ∧ s'.migrations = [] ∧ s'.requests = [] ∧
    s'.pc = .idle) : Clean s' := by
  have hfin : ∀ m ∈ s'.migrations, m.state = .finalizing → m ∈ s.migrations := by
    intro m hm hf
    rcases hs.fresh m hm with hin | hp
    · exact hin
    · simp [hf] at hp
  refine ⟨hmig, hreg, fun hn => hun (hs.home.symm.trans hn), ?_, ?_, ?_, ?_, hpc, ?_⟩
  · intro x
    rw [hs.agents]
    exact h.strays x
  · intro x p hp
    rw [hs.agents] at hp
    obtain ⟨h1, m, hm, hrest⟩ := h.pending x p hp
    rw [hs.home, hs.agents]
    exact ⟨h1, m, hs.keeps m hm, hrest⟩
  · intro x v hv
    rw [hs.agents] at hv
    rw [hs.home]
    rcases h.managed x v hv with hh | ⟨hne, m, hm, hrest⟩
    · exact .inl hh
    · exact .inr ⟨hne, m, hs.keeps m hm, hrest⟩
  · intro m hm hf
    rw [hs.home]
    exact h.moving m (hfin m hm hf) hf
  · intro hb
    obtain ⟨h0, h1⟩ := hborn hb
    exact ⟨hs.home.trans (h.unborn h0).1, h1⟩

/-- A step that keeps the agents, the migrations and the row's host, and no request but those
there were. -/
theorem Clean.rewrite (h : Clean s) (hag : s'.agents = s.agents)
    (hho : ∀ x, s.hosts x ≠ .absent → s'.hosts x ≠ .absent) (hm : s'.migrations = s.migrations)
    (hhome : s'.home = s.home)
    (hq : ∀ q ∈ s'.requests, ∃ q' ∈ s.requests, q.source = q'.source ∧ q.target = q'.target)
    (hb : s'.born = s.born) (hpc : PcClean s s'.pc) (hidle : s.born ∨ s'.pc = .idle) :
    Clean s' := by
  have hs : SameHome s s' :=
    ⟨hag, hho, fun _ hin => hm ▸ hin, fun _ hin => .inl (hm ▸ hin), hhome⟩
  have hnil : s.requests = [] → s'.requests = [] := by
    intro h0
    refine eq_nil_iff_forall_not_mem.mpr ?_
    intro q hin
    obtain ⟨q', hin', -⟩ := hq q hin
    simp [h0] at hin'
  refine hs.clean h (h.migrations.congr hm ?_) ⟨?_, ?_, ?_⟩ ?_ (hs.pcClean hpc) ?_
  · intro q hin
    obtain ⟨q', hin', h1, h2⟩ := hq q hin
    rw [h1, h2]
    exact h.migrations.requests q' hin'
  · intro x hx
    exact hho x (h.registered.home x (hhome.symm.trans hx))
  · intro m hin
    rw [hm] at hin
    obtain ⟨h1, h2⟩ := h.registered.migrations m hin
    exact ⟨hho _ h1, fun x hx => hho x (h2 x hx)⟩
  · intro q hin
    obtain ⟨q', hin', h1, h2⟩ := hq q hin
    rw [h1, h2]
    exact (h.registered.requests q' hin').imp (hho _) (hho _)
  · intro hn
    rw [hm]
    exact (h.unplaced hn).imp id hnil
  · intro hbf
    rw [hb] at hbf
    obtain ⟨-, h2, h3, -⟩ := h.unborn hbf
    exact ⟨hbf, hm.trans h2, hnil h3, hidle.resolve_left (by simp [hbf])⟩

theorem same_requests (s : State) :
    ∀ q ∈ s.requests, ∃ q' ∈ s.requests, q.source = q'.source ∧ q.target = q'.target :=
  fun q hq => ⟨q, hq, rfl, rfl⟩

theorem Clean.edit (h : Clean s) {row : Option VmRow}
    (hhome : row.map (·.hostId) = s.home) (hpc : PcClean s pc) (hb : s.born ∨ pc = .idle) :
    Clean { s with row := row, creating := c, pc := pc } :=
  h.rewrite rfl (fun _ hx => hx) rfl hhome (same_requests s) rfl hpc hb

theorem Clean.goto (h : Clean s) (hpc : PcClean s pc) (hb : s.born ∨ pc = .idle) :
    Clean (s.goto pc) :=
  h.edit rfl hpc hb

theorem home_updateRow (s : State) (f : VmRow → VmRow) (hf : ∀ r, (f r).hostId = r.hostId) :
    (s.updateRow f).home = s.home := by
  simp [State.home, State.updateRow, Function.comp_def, hf]

theorem Clean.updateRow (h : Clean s) (f : VmRow → VmRow) (hf : ∀ r, (f r).hostId = r.hostId)
    (hpc : PcClean s pc) (hb : s.born ∨ pc = .idle) : Clean ((s.updateRow f).goto pc) :=
  h.edit (home_updateRow s f hf) hpc hb

theorem Clean.phase (h : Clean s) (p : Phase) : Clean ((s.setVmPhase p).goto .idle) := by
  have hidle : PcClean s .idle := trivial
  exact h.updateRow (fun r => { r with phase := p }) (fun _ => rfl) hidle (.inr rfl)

theorem Clean.of_empty (hmig : MigrationsInv s) (hreg : Registered s) (hhome : s.home = none)
    (hstr : ∀ x, (s.agents x).strays = [])
    (hempty : ∀ x, (s.agents x).managed = none ∧ (s.agents x).pending = none) (hpc : s.pc = .idle)
    (hun : s.born = false → s.migrations = [] ∧ s.requests = []) : Clean s := by
  refine ⟨hmig, hreg, ?_, hstr, ?_, ?_, fun _ _ _ => .inl hhome, ?_, ?_⟩
  · intro hn
    simp [hhome] at hn
  · intro x p hp
    simp [(hempty x).2] at hp
  · intro x v hv
    simp [(hempty x).1] at hv
  · rw [hpc]
    trivial
  · intro hb
    exact ⟨hhome, (hun hb).1, (hun hb).2, hpc⟩

section

variable (h : Clean s)
include h

theorem Clean.removed (hempty : ∀ x, (s.agents x).managed = none ∧ (s.agents x).pending = none) :
    Clean { s with row := none, creating := c, pc := .idle } := by
  refine .of_empty (h.migrations.congr rfl h.migrations.requests)
    ⟨?_, h.registered.migrations, h.registered.requests⟩ rfl h.strays hempty rfl ?_
  · intro x hx
    cases hx
  · intro hb
    exact ⟨(h.unborn hb).2.1, (h.unborn hb).2.2.1⟩

/-! ## API requests -/

theorem clean_create (hb : s.born = false) (d : Power) :
    Clean { s with row := some ⟨.pending, none, d, 1, 0, 0⟩, born := true, creating := true } := by
  obtain ⟨hhome, hm, hq, hpc⟩ := h.unborn hb
  have hempty := h.tables_empty_of_home hhome
  refine ⟨h.migrations.congr rfl h.migrations.requests, ⟨?_, h.registered.migrations,
    h.registered.requests⟩, fun _ => ⟨hm, hq⟩, h.strays, ?_, ?_, ?_, ?_, ?_⟩
  · intro x hx
    cases hx
  · intro x p hp
    have hp' : (s.agents x).pending = some p := hp
    simp [(hempty x).2] at hp'
  · intro x v hv
    have hv' : (s.agents x).managed = some v := hv
    simp [(hempty x).1] at hv'
  · intro m hm'
    have hin : m ∈ s.migrations := hm'
    simp [hm] at hin
  · show PcClean _ s.pc
    rw [hpc]
    trivial
  · intro hf
    cases hf

theorem clean_request {x t : HostId} (hr : s.row = some r)
    (hx : r.hostId = some x) (hne : x ≠ t) (ht : s.hosts t = .ready) :
    Clean { s with requests := s.requests ++ [⟨x, t, .read⟩] } := by
  have hhome : s.home = some (some x) := hx ▸ home_of_row hr
  have hs : SameHome s { s with requests := s.requests ++ [⟨x, t, .read⟩] } :=
    .of_eq rfl rfl rfl rfl
  refine hs.clean h (h.migrations.congr rfl ?_) ⟨h.registered.home, h.registered.migrations, ?_⟩ ?_
    (hs.pcClean h.pc) ?_
  · intro q hq
    rcases mem_append.mp hq with hq | hq
    · exact h.migrations.requests q hq
    · obtain rfl := mem_singleton.mp hq
      exact hne
  · intro q hq
    rcases mem_append.mp hq with hq | hq
    · exact h.registered.requests q hq
    · obtain rfl := mem_singleton.mp hq
      exact ⟨h.registered.home x hhome, by show s.hosts t ≠ _; rw [ht]; simp⟩
  · intro hn
    simp [hhome] at hn
  · intro hb
    have hb' : s.born = false := hb
    simp [h.born_of_row hr] at hb'

theorem clean_setRequest {i : Nat} (hq : s.requests[i]? = some q) (o : Option MigrateRequest)
    (ho : ∀ q', o = some q' → q'.source = q.source ∧ q'.target = q.target) :
    Clean (setRequest s i o) := by
  refine h.rewrite rfl (fun _ hx => hx) rfl rfl ?_ rfl h.pc h.busy
  intro q' hq'
  rcases mem_setRequest hq' with hin | hnew
  · exact ⟨q', hin, rfl, rfl⟩
  · exact ⟨q, mem_of_getElem? hq, ho q' hnew⟩

theorem clean_insertMigration (hq : q ∈ s.requests) (hnone :
    s.activeMigration = false) : Clean (s.insertMigration q.source q.target) := by
  have hreq : s.requests ≠ [] := ne_nil_of_mem hq
  have hs : SameHome s (s.insertMigration q.source q.target) := by
    refine ⟨rfl, fun _ hx => hx, fun m hm => mem_append_left _ hm, ?_, rfl⟩
    intro m hm
    rcases mem_append.mp hm with hm | hm
    · exact .inl hm
    · obtain rfl := mem_singleton.mp hm
      exact .inr rfl
  refine hs.clean h (h.migrations.insert (h.migrations.requests q hq) hnone)
    ⟨h.registered.home, ?_, h.registered.requests⟩ ?_ (hs.pcClean h.pc) ?_
  · intro m hm
    rcases mem_append.mp hm with hm | hm
    · exact h.registered.migrations m hm
    obtain rfl := mem_singleton.mp hm
    obtain ⟨h1, h2⟩ := h.registered.requests q hq
    refine ⟨h2, ?_⟩
    rintro x ⟨⟩
    exact h1
  · intro hn
    exact absurd (h.unplaced hn).2 hreq
  · intro hb
    exact absurd (h.unborn hb).2.2.1 hreq

theorem clean_createRollback (hok : tidy s .createRollback) :
    Clean { s.deleteVmRow with creating := false } := by
  simp only [tidy, Bool.and_eq_true, beq_iff_eq, Option.all_eq_true] at hok
  obtain ⟨hpc, hnone⟩ := hok
  have hempty := h.tables_empty
    (fun x hx => by cases hnone _ hx) (by
      intro hne m hm
      obtain ⟨o, ho⟩ := Option.ne_none_iff_exists'.mp hne
      have hon : o = none := by simpa using hnone o ho
      rw [(h.unplaced (hon ▸ ho)).1] at hm
      cases hm)
  have hrem : Clean { s with row := none, creating := false, pc := .idle } := h.removed hempty
  rwa [← hpc] at hrem

theorem clean_apiStep {e : Event} (hok : tidy s e) (hs : apiStep s e = some s') : Clean s' := by
  cases apiStep_goes hs with
  | create d hb => exact clean_create h hb d
  | createDone => exact h.edit rfl h.pc h.busy
  | createRollback => exact clean_createRollback h hok
  | setPower | delete => exact h.edit (home_updateRow s _ fun _ => rfl) h.pc h.busy
  | migrateRead hr hx hp hne hy => exact clean_request h hr hx hne hy
  | migrateCheck hq => exact clean_setRequest h hq _ (by rintro q' ⟨⟩; exact ⟨rfl, rfl⟩)
  | migrateInsert hq =>
    have hnone : s.activeMigration = false := by simpa [tidy] using hok
    have hins := clean_insertMigration h (mem_of_getElem? hq) hnone
    exact clean_setRequest hins hq _ (by rintro q' ⟨⟩; exact ⟨rfl, rfl⟩)
  | migratePhase hq =>
    have hph : Clean (s.setVmPhase .migrating) :=
      h.edit (home_updateRow s _ fun _ => rfl) h.pc h.busy
    exact clean_setRequest hph hq none (by rintro q' ⟨⟩)
  | apiCrash =>
    exact h.rewrite rfl (fun _ hx => hx) rfl rfl (by intro q hq; cases hq) rfl h.pc h.busy

end

end VQuasar.Lifecycle
