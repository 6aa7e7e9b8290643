import VQuasar.Lifecycle.Invariant

/-!
# The passes keep the location invariant

One lemma for each database statement and each agent call of `reconcile_vms`,
`recover_running_vms` and `reconcile_migrations`, assembled by program point into
`inv_dbStep` and `inv_callStep`, and with the API requests and the accidents of the hosts
into `inv_step`.
-/

namespace VQuasar.Lifecycle

open List Option AgentVm

variable {s s' : State} {m : Migration} {pc : Pc} {x : HostId} {a : AgentVm} {r : VmRow}
  {e : Event} {husk : VmmState} {u : Url}

/-! ## The start of a pass -/

theorem rowStep_goto (s : State) (pc : Pc) : RowStep s (s.goto pc) := .of_eq rfl rfl rfl

theorem Inv.goto (h : Inv s) (hpc : PcInv s pc) (hb : s.born ∨ pc = .idle) : Inv (s.goto pc) := by
  refine h.sameAgents rfl (h.migrations.congr rfl h.migrations.requests) ?_
    ((rowStep_goto s pc).pcInv hpc) ?_
  · intro r' hr'
    exact (rowStep_goto s pc).rowInv (h.row r' hr') rfl id
  · intro hf
    have hf' : s.born = false := hf
    obtain ⟨h1, h2, h3, -, -⟩ := h.unborn hf'
    rcases hb with hb | hb
    · rw [hb] at hf'
      cases hf'
    · exact ⟨hf', h1, h2, h3, hb⟩

/-- While the phase is one the other loops act on, the guest is where its row says. -/
theorem Inv.quiet (h : Inv s) (hr : s.row = some r) (hp : parked r.phase = false) : Quiet s := by
  intro r' hr'
  obtain rfl : r = r' := mem_unique hr hr'
  have hri := h.row r hr
  refine ⟨?_, ?_, ?_⟩
  · intro x hx
    rcases hri.home x hx with hh | ha
    · exact hh
    · exact absurd ha.1 (by simp [hp])
  · intro x
    cases hl : (s.agents x).loose with
    | false => rfl
    | true => exact absurd (hri.loose x hl).1.1 (by simp [hp])
  · intro m hm hfin
    rcases (hri.finalizing m hm hfin).2 with hpk | hh
    · exact absurd hpk (by simp [hp])
    · exact hh

theorem Quiet.placedOn (h : Quiet s) (hr : s.row = some r) (hx : r.hostId = some x) : PlacedOn s x
    := by
  obtain ⟨h1, h2, h3⟩ := h r hr
  refine ⟨?_, ?_⟩
  · intro y hy
    exact (some.inj (hx.symm.trans (h1 y hy))).symm
  · intro r' hr'
    obtain rfl : r = r' := mem_unique hr hr'
    refine ⟨hx, h2, ?_⟩
    intro m hm hfin
    exact (some.inj (hx.symm.trans (h3 m hm hfin))).symm

theorem Quiet.unplaced (h : Quiet s) (hr : s.row = some r) (hx : r.hostId = none) : Unplaced s := by
  obtain ⟨h1, -, h3⟩ := h r hr
  refine ⟨?_, ?_⟩
  · intro y
    cases hy : s.executing y with
    | false => rfl
    | true => exact absurd (hx.symm.trans (h1 y hy)) (by simp)
  · intro r' hr'
    obtain rfl : r = r' := mem_unique hr hr'
    refine ⟨hx, ?_⟩
    intro m hm hfin
    exact absurd (hx.symm.trans (h3 m hm hfin)) (by simp)

theorem pcInv_reconciled (s : State) (vm : VmRow) : PcInv s (reconciled vm) := by
  unfold reconciled
  split <;> trivial

theorem inv_beginStep (h : Inv s) (hs : beginStep s e = some s') : Inv s' := by
  obtain ⟨pc, rfl, hgoes⟩ := beginStep_effect hs
  have hu := h.pc
  have hborn := h.born
  generalize s.pc = pc₀ at hgoes hu hborn
  cases hgoes with
  | deletes hr _ pc hpc =>
    refine h.goto ?_ (.inl (h.born_of_row hr))
    rcases hpc with rfl | ⟨x, hx, rfl⟩
    · trivial
    · intro r' hr'
      exact mem_unique hr hr' ▸ hx
  | places hr hp hx _ =>
    have hq := h.quiet hr (by simp [parked, hp])
    exact h.goto (hq.placedOn hr hx) (.inl (h.born_of_row hr))
  | schedules hr hp hx _ =>
    have hq := h.quiet hr (by simp [parked, hp])
    exact h.goto (hq.unplaced hr hx) (.inl (h.born_of_row hr))
  | recovers hr hp _ => exact h.goto (h.quiet hr (by rw [hp]; rfl)) (.inl (h.born_of_row hr))
  | advances hm hact =>
    refine h.goto ⟨hm, hact⟩ ?_
    cases hb : s.born with
    | true => exact .inl rfl
    | false =>
      rw [(h.unborn hb).2.1] at hm
      cases hm
  | scheduled vm _ => exact h.goto hu (.inl (hborn (by simp)))
  | defers vm pc pc' hpc hpc' =>
    refine h.goto ?_ (.inl (hborn ?_))
    · rcases hpc' with rfl | rfl <;> trivial
    · rcases hpc with rfl | ⟨x, rfl⟩ <;> simp

/-! ## Database statements of a pass -/

theorem Quiet.inv_updateRow (hq : Quiet s) (h : Inv s) (f : VmRow → VmRow) (hhost : ∀ r, (f
    r).hostId = r.hostId) (hpc : PcInv (s.updateRow f) pc) (hb : s.born) : Inv ((s.updateRow
    f).goto pc) := by
  refine h.sameAgents_born rfl (h.migrations.congr rfl h.migrations.requests) ?_
    ((rowStep_goto _ pc).pcInv hpc) hb
  intro r' hr'
  obtain ⟨r, hr, rfl⟩ := map_eq_some_iff.mp hr'
  obtain ⟨h1, h2, h3⟩ := hq r hr
  have hri := h.row r hr
  refine ⟨?_, ?_, hri.strays, ?_, ?_⟩
  · intro x hx
    exact .inl ((hhost r).trans (h1 x hx))
  · intro x hl
    exact absurd hl (by show ¬(s.agents x).loose = true; simp [h2])
  · intro m hm hact u hu hw
    exact (hhost r).trans (hri.waits m hm hact u hu hw)
  · intro m hm hfin
    exact ⟨(hri.finalizing m hm hfin).1, .inr ((hhost r).trans (h3 m hm hfin))⟩

variable {vm : VmRow} {st : MigrationState} {url : Option Url}

theorem inv_assignVmHost (h : Inv s) (hpc : s.pc = .assign vm x) : Inv ((s.assignVmHost
    x).goto (.place vm x)) := by
  have hu : Unplaced s := h.pc_at hpc
  have hno : ∀ y, ¬s.executing y := by
    intro y
    simp [hu.1 y]
  have hl : ∀ y, (s.agents y).loose = false := by
    intro y
    cases hl : (s.agents y).loose with
    | false => rfl
    | true => exact absurd (executing_of_loose hl) (hno y)
  refine h.sameAgents_born rfl (h.migrations.congr rfl h.migrations.requests) ?_ ⟨?_, ?_⟩
    (h.born (by rw [hpc]; simp))
  · intro r' hr'
    obtain ⟨r, hr, rfl⟩ := map_eq_some_iff.mp hr'
    obtain ⟨hnone, hnofin⟩ := hu.2 r hr
    refine ⟨?_, ?_, (h.row r hr).strays, ?_, ?_⟩
    · intro y hy
      exact absurd hy (hno y)
    · intro y hy
      exact absurd hy (by show ¬(s.agents y).loose = true; simp [hl])
    · intro m hm hact u hu' hw
      have := (h.row r hr).waits m hm hact u hu' hw
      rw [hnone] at this
      cases this
    · intro m hm hfin
      exact absurd hfin (hnofin m hm)
  · intro y hy
    exact absurd hy (hno y)
  · intro r' hr'
    obtain ⟨r, hr, rfl⟩ := map_eq_some_iff.mp hr'
    exact ⟨rfl, hl, fun m hm hfin => absurd hfin ((hu.2 r hr).2 m hm)⟩

theorem inv_setVmHostRunning (h : Inv s) (hpc : s.pc = .discarded m) : Inv ((s.setVmHostRunning
    m.targetHost).goto (.moved m)) := by
  obtain ⟨⟨hm, hfin⟩, hman⟩ := h.pc_at hpc
  have hact := active_of hfin rfl
  refine h.sameAgents_born rfl (h.migrations.congr rfl h.migrations.requests) ?_ ⟨⟨hm, hfin⟩, ?_⟩
    (h.born (by rw [hpc]; simp))
  · intro r' hr'
    obtain ⟨r, hr, rfl⟩ := map_eq_some_iff.mp hr'
    have hri := h.row r hr
    have hat := (hri.finalizing m hm hfin).1
    refine ⟨?_, ?_, hri.strays, ?_, ?_⟩
    · intro x hx
      exact .inl (by rw [hat x hx])
    · intro x hl
      -- the guest would sit beside the managed entry `finalize_receive` reported
      have hx := hat x (executing_of_loose hl)
      have hnone := (hri.loose x hl).2.2
      rw [hx] at hnone
      rw [hnone] at hman
      cases hman
    · intro m' hm' hact' u hu hw
      rw [h.migrations.oneActive m' hm' m hm hact' hact]
    · intro m' hm' hfin'
      have hact' := active_of hfin' rfl
      obtain rfl := h.migrations.oneActive m' hm' m hm hact' hact
      exact ⟨hat, .inr rfl⟩
  · intro r' hr'
    obtain ⟨r, hr, rfl⟩ := map_eq_some_iff.mp hr'
    rfl

/-! ## Moves of the migration state machine -/

def Migration.moved (m : Migration) (st : MigrationState) (url : Option Url) : Migration :=
  { m with state := st, migrationUrl := url <|> m.migrationUrl }

section

variable (h : MigrationsInv s) (hm : m ∈ s.migrations)
include h hm

theorem mem_updateMigration (st : MigrationState) (url
    : Option Url) (m' : Migration) : m' ∈ (s.updateMigration m.id st url).migrations ↔ (m' ∈
    s.migrations ∧ m' ≠ m) ∨ m' = m.moved st url := by
  simp only [State.updateMigration, List.mem_map]
  constructor
  · rintro ⟨m0, hm0, rfl⟩
    by_cases hid : m0.id = m.id
    · obtain rfl := Numbered.eq_of_id h.ids hm0 hm hid
      right
      rw [if_pos rfl]
      rfl
    · left
      rw [if_neg hid]
      exact ⟨hm0, fun hc => hid (by rw [hc])⟩
  · rintro (⟨hin, hne⟩ | rfl)
    · exact ⟨m', hin, if_neg fun hid => hne (Numbered.eq_of_id h.ids hin hm hid)⟩
    · exact ⟨m, hm, if_pos rfl⟩

theorem MigrationsInv.active_updated (hact : m.state.active) {m' : Migration}
    (hm' : m' ∈ (s.updateMigration m.id st url).migrations) (hact' : m'.state.active) :
    m' = m.moved st url := by
  rcases (mem_updateMigration h hm st url m').mp hm' with ⟨hin, hne⟩ | heq
  · exact absurd (h.oneActive m' hin m hm hact' hact) hne
  · exact heq

theorem MigrationsInv.update (hact : m.state.active) (hst : st ≠ .pending) (hurl : ∀ u, url = some u →
    u.host = m.targetHost) : MigrationsInv (s.updateMigration m.id st url) := by
  have hmem := mem_updateMigration h hm st url
  refine ⟨Numbered.update h.ids m.id st url, ?_, ?_, h.requests, ?_, ?_⟩
  · intro m1 h1 m2 h2 ha1 ha2
    rw [h.active_updated hm hact h1 ha1, h.active_updated hm hact h2 ha2]
  · intro m' hm'
    rcases (hmem m').mp hm' with ⟨hin, -⟩ | rfl
    · exact h.ends m' hin
    · exact h.ends m hm
  · intro m' hm' u hu
    rcases (hmem m').mp hm' with ⟨hin, -⟩ | rfl
    · exact h.urlHost m' hin u hu
    · cases url with
      | some v => exact hurl u hu
      | none => exact h.urlHost m hm u hu
  · intro m' hm' hp
    rcases (hmem m').mp hm' with ⟨hin, -⟩ | rfl
    · exact h.urlNone m' hin hp
    · exact absurd hp hst

end

theorem inv_updateMigration (h : Inv s) (hm : m ∈ s.migrations) (hact : m.state.active) (hst : st ≠ .pending) (hurl : ∀ u, url = some u → u.host =
    m.targetHost) (hrow : ∀ r, s.row = some r → RowInv (s.updateMigration m.id st url) r) (hpc :
    PcInv (s.updateMigration m.id st url) pc) (hb : s.born) : Inv ((s.updateMigration m.id st
    url).goto pc) := by
  refine h.sameAgents_born rfl
    ((h.migrations.update hm hact hst hurl).congr rfl h.migrations.requests) ?_
    ((rowStep_goto _ pc).pcInv hpc) hb
  intro r hr
  exact (rowStep_goto _ pc).rowInv (hrow r hr) rfl id

/-- `Pending` to `Sending`: the guest is still at home, and nothing but the receiver of the
target listens on the URL. -/
theorem inv_sending (h : Inv s) {url : Url} (hpc : s.pc = .prepared m url) : Inv ((s.updateMigration
    m.id .sending (some url)).goto .idle) := by
  obtain ⟨⟨hm, hst⟩, hhost, hfree⟩ := h.pc_at hpc
  have hact := active_of hst rfl
  have hnot : ∀ r x, ¬Away s r x := fun r x ha => (ha.target h hm hact).1 hst
  refine inv_updateMigration h hm hact (by simp) (by rintro u ⟨⟩; exact hhost) ?_ trivial
    (h.born (by rw [hpc]; simp))
  intro r hr
  have hri := h.row r hr
  refine ⟨?_, ?_, hri.strays, ?_, ?_⟩
  · intro x hx
    exact .inl ((hri.home x hx).resolve_right (hnot r x))
  · intro x hl
    exact absurd (hri.loose x hl).1 (hnot r x)
  · intro m' hm' hact' u hu hw
    obtain rfl := h.migrations.active_updated hm hact hm' hact'
    obtain rfl : url = u := some.inj hu
    have hw' : (s.agents url.host).strayWaits url := hw
    rw [hfree] at hw'
    cases hw'
  · intro m' hm' hfin
    obtain rfl := h.migrations.active_updated hm hact hm' (active_of hfin rfl)
    cases hfin

theorem inv_finalizing (h : Inv s) (hpc : s.pc = .sent m) : Inv ((s.updateMigration m.id .finalizing
    none).goto .idle) := by
  obtain ⟨⟨hm, hst⟩, hat, hpark⟩ := h.pc_at hpc
  have hact := active_of hst rfl
  have hnew : m.moved .finalizing none ∈ (s.updateMigration m.id .finalizing none).migrations :=
    (mem_updateMigration h.migrations hm _ _ _).mpr (.inr rfl)
  refine inv_updateMigration h hm hact (by simp) (by rintro u ⟨⟩) ?_ trivial
    (h.born (by rw [hpc]; simp))
  intro r hr
  have hri := h.row r hr
  have haway : ∀ x, Away s r x → Away (s.updateMigration m.id .finalizing none) r x := by
    intro x ha
    exact ⟨ha.1, _, hnew, rfl, by simp [Migration.moved], (ha.target h hm hact).2⟩
  refine ⟨?_, ?_, hri.strays, ?_, ?_⟩
  · intro x hx
    exact (hri.home x hx).imp id (haway x)
  · intro x hl
    obtain ⟨ha, hrest⟩ := hri.loose x hl
    exact ⟨haway x ha, hrest⟩
  · intro m' hm' hact' u hu hw
    obtain rfl := h.migrations.active_updated hm hact hm' hact'
    exact hri.waits m hm hact u hu hw
  · intro m' hm' hfin
    obtain rfl := h.migrations.active_updated hm hact hm' (active_of hfin rfl)
    exact ⟨hat, .inl (hpark r hr)⟩

theorem inv_endMigration (h : Inv s) (hm : m ∈ s.migrations) (hact : m.state.active) (hst : st.active = false) (hhome : ∀ r, s.row = some r → ∀ x, s.executing x → r.hostId = some x) (hpc : Quiet (s.updateMigration m.id st none) → PcInv
    (s.updateMigration m.id st none) pc) (hb : s.born) : Inv ((s.updateMigration m.id st
    none).goto pc) := by
  have hnone : ∀ m' ∈ (s.updateMigration m.id st none).migrations, m'.state.active ≠ true := by
    intro m' hm' ha
    obtain rfl := h.migrations.active_updated hm hact hm' ha
    have : st.active = true := ha
    rw [hst] at this
    cases this
  have hfin : ∀ m' ∈ (s.updateMigration m.id st none).migrations, m'.state ≠ .finalizing := by
    intro m' hm' hc
    exact hnone m' hm' (active_of hc rfl)
  have hloose : ∀ r, s.row = some r → ∀ x, (s.agents x).loose = false := by
    intro r hr x
    cases hl : (s.agents x).loose with
    | false => rfl
    | true =>
      have := hhome r hr x (executing_of_loose hl)
      exact absurd this ((h.row r hr).loose x hl).2.1
  have hstp : st ≠ .pending := by
    rintro rfl
    cases hst
  refine inv_updateMigration h hm hact hstp (by rintro u ⟨⟩) ?_ (hpc ?_) hb
  · intro r hr
    refine ⟨?_, ?_, (h.row r hr).strays, ?_, ?_⟩
    · intro x hx
      exact .inl (hhome r hr x hx)
    · intro x hl
      have hl' : (s.agents x).loose := hl
      rw [hloose r hr x] at hl'
      cases hl'
    · intro m' hm' ha
      exact absurd ha (hnone m' hm')
    · intro m' hm' hc
      exact absurd hc (hfin m' hm')
  · intro r hr
    exact ⟨hhome r hr, hloose r hr, fun m' hm' hc => absurd hc (hfin m' hm')⟩

theorem pcInv_migrationFailed (hm : m ∈ s.migrations) (hact : m.state.active) : PcInv s
    (migrationFailed s m) := by
  unfold migrationFailed
  split
  · next hc => exact ⟨hm, hc.1⟩
  · exact ⟨hm, hact⟩

theorem pcInv_advanceMigration (hm : m ∈ s.migrations) (hact : m.state.active) : PcInv s
    (advanceMigration s m) := by
  have hfail := pcInv_migrationFailed hm hact
  unfold advanceMigration
  split
  · exact hfail
  split
  · split
    · exact hfail
    · exact ⟨hm, hact⟩
  · exact hfail
  · exact ⟨hm, hact⟩
  · exact ⟨hm, hact⟩
  · trivial

theorem inv_fail (h : Inv s) (hpc : s.pc = .fail m) (hok : orderly s .db) : Inv
    ((s.updateMigration m.id .failed none).goto .restore) := by
  obtain ⟨hm, hact⟩ := h.pc_at hpc
  refine inv_endMigration h hm hact rfl ?_ id (h.born (by rw [hpc]; simp))
  intro r hr x hx
  simp only [orderly, hpc, hr, all_some, Bool.or_eq_true, Bool.not_eq_true',
    beq_iff_eq] at hok
  rcases (h.row r hr).home x hx with hh | ha
  · exact hh
  obtain rfl := (ha.target h hm hact).2
  rcases hok with hno | hh
  · rw [hx] at hno
    cases hno
  · exact hh

theorem inv_dbStep (h : Inv s) (hok : orderly s .db) (hs : dbStep s = some s') : Inv s' := by
  have hpi := h.pc
  have hb : s.pc ≠ .idle → s.born := h.born
  cases dbStep_leaves hs with
  | assigned hpc => exact inv_assignVmHost h hpc
  | placed hpc =>
    rw [hpc] at hpi hb
    exact h.goto hpi (.inl (hb (by simp)))
  | @deferred vm x hpc =>
    rw [hpc] at hb
    exact h.goto (pcInv_reconciled s vm) (.inl (hb (by simp)))
  | @observed vm p hpc =>
    rw [hpc] at hpi hb
    exact Quiet.inv_updateRow hpi h
      (fun r => { r with phase := p, observedGeneration := vm.generation }) (fun _ => rfl)
      (pcInv_reconciled _ vm) (hb (by simp))
  | cleared hpc =>
    exact (inv_updateRow h (fun r => { r with reconcileFailures := 0 }) (fun _ => rfl)
      (fun _ hp => hp)).goto trivial (.inr rfl)
  | rowGone => exact h.goto trivial (.inr rfl)
  | noted hpc pc hnext =>
    rw [hpc] at hpi hb
    refine (inv_updateRow h
      (fun r => { r with reconcileFailures := r.reconcileFailures + 1 }) (fun _ => rfl)
      (fun _ hp => hp)).goto ?_ (.inl (hb (by simp)))
    rcases hnext with rfl | rfl
    · trivial
    · exact (rowStep_updateRow s
        (fun r => { r with reconcileFailures := r.reconcileFailures + 1 }) (fun _ => rfl)
        (fun _ hp => hp)).quiet hpi
  | gaveUp hpc =>
    rw [hpc] at hpi hb
    exact Quiet.inv_updateRow hpi h (fun r => { r with phase := .failed }) (fun _ => rfl) trivial
      (hb (by simp))
  | deleted => exact (inv_deleteVmRow h).goto trivial (.inr rfl)
  | marked hpc =>
    rw [hpc] at hpi hb
    exact Quiet.inv_updateRow hpi h (fun r => { r with phase := .scheduling }) (fun _ => rfl) trivial
      (hb (by simp))
  | advanced hpc =>
    rw [hpc] at hpi hb
    exact h.goto (pcInv_advanceMigration hpi.1 hpi.2) (.inl (hb (by simp)))
  | sending hpc => exact inv_sending h hpc
  | finalizing hpc => exact inv_finalizing h hpc
  | moved hpc => exact inv_setVmHostRunning h hpc
  | @completed m hpc =>
    rw [hpc] at hpi hb
    obtain ⟨⟨hm, hfin⟩, hhost⟩ := hpi
    refine inv_endMigration h hm (by rw [hfin]; rfl) rfl ?_ (fun _ => trivial) (hb (by simp))
    intro r hr x hx
    rw [hhost r hr, ((h.row r hr).finalizing m hm hfin).1 x hx]
  | failed hpc => exact inv_fail h hpc hok
  | restored hpc =>
    rw [hpc] at hpi hb
    exact Quiet.inv_updateRow hpi h (fun r => { r with phase := .running }) (fun _ => rfl) trivial
      (hb (by simp))

/-! ## Agent calls -/

theorem executing_setAgent (s : State) (x : HostId) (a : AgentVm) (y : HostId) :
    (s.setAgent x a).executing y = if y = x then a.executing else s.executing y := by
  unfold State.executing State.setAgent
  by_cases hy : y = x
  · subst hy
    simp
  · simp [hy]

theorem agents_setAgent (s : State) (x : HostId) (a : AgentVm) (y : HostId) :
    (s.setAgent x a).agents y = if y = x then a else s.agents y := by
  unfold State.setAgent
  by_cases hy : y = x
  · subst hy
    simp
  · simp [hy]

section

variable (h : Inv s)
include h

theorem inv_setAgent (hone : a.executing → ∀ y, s.executing y → y = x)
    (hpend : ∀ p, a.pending = some p → p.returnUrl.host = x ∧ a.strayWaits p.returnUrl = false)
    (hhome : ∀ r, s.row = some r → a.executing → r.hostId = some x ∨ Away s r x) (hloose : ∀
    r, s.row = some r → a.loose → Away s r x ∧ r.hostId ≠ some x ∧ a.managed = none) (hstray
    : ∀ r, s.row = some r → a.strayRuns = false) (hwaits : ∀ r, s.row = some r → ∀ m ∈ s.migrations,
    m.state.active → ∀ u, m.migrationUrl = some u → u.host = x → a.strayWaits u →
    r.hostId = some m.targetHost) (hfin : ∀ r, s.row = some r → a.executing → ∀ m ∈
    s.migrations, m.state = .finalizing → x = m.targetHost) (hpc : PcInv (s.setAgent x a) pc) (hb :
    s.born) : Inv ((s.setAgent x a).goto pc) := by
  have hag := agents_setAgent s x a
  have hex := executing_setAgent s x a
  refine ⟨?_, h.migrations.congr rfl h.migrations.requests, ?_, ?_,
    (rowStep_goto _ pc).pcInv hpc, ?_⟩
  · intro y z hy hz
    have hy' : (s.setAgent x a).executing y := hy
    have hz' : (s.setAgent x a).executing z := hz
    rw [hex] at hy' hz'
    split at hy'
    · next hyx =>
      split at hz'
      · next hzx => rw [hyx, hzx]
      · rw [hyx, hone hy' z hz']
    · split at hz'
      · next hzx => rw [hzx, hone hz' y hy']
      · exact h.one y z hy' hz'
  · intro y p hp
    have hp' : ((s.setAgent x a).agents y).pending = some p := hp
    show p.returnUrl.host = y ∧ ((s.setAgent x a).agents y).strayWaits p.returnUrl = false
    rw [hag] at hp' ⊢
    split at hp'
    · next hyx =>
      rw [if_pos hyx, hyx]
      exact hpend p hp'
    · next hyx =>
      rw [if_neg hyx]
      exact h.pending y p hp'
  · intro r hr
    have hr' : s.row = some r := hr
    have hri := h.row r hr'
    refine (rowStep_goto (s.setAgent x a) pc).rowInv ⟨?_, ?_, ?_, ?_, ?_⟩ rfl id
    · intro y hy
      rw [hex] at hy
      split at hy
      · next hyx => exact hyx ▸ hhome r hr' hy
      · exact hri.home y hy
    · intro y hl
      rw [hag] at hl ⊢
      split at hl
      · next hyx =>
        rw [if_pos hyx, hyx]
        exact hloose r hr' hl
      · next hyx =>
        rw [if_neg hyx]
        exact hri.loose y hl
    · intro y
      rw [hag]
      split
      · exact hstray r hr'
      · exact hri.strays y
    · intro m hm hact u hu hw
      rw [hag] at hw
      split at hw
      · next hux => exact hwaits r hr' m hm hact u hu hux hw
      · exact hri.waits m hm hact u hu hw
    · intro m hm hfin'
      refine ⟨?_, (hri.finalizing m hm hfin').2⟩
      intro y hy
      rw [hex] at hy
      split at hy
      · next hyx => exact hyx ▸ hfin r hr' hy m hm hfin'
      · exact (hri.finalizing m hm hfin').1 y hy
  · intro hf
    have hf' : s.born = false := hf
    rw [hb] at hf'
    cases hf'

theorem inv_ensure (hpc : s.pc = .ensureCall vm x) (f : EnsureFaults) (d :
    Power) (hq : Quiet (s.setAgent x ((s.agents x).ensure f d).1) → PcInv (s.setAgent x ((s.agents
    x).ensure f d).1) pc) : Inv ((s.setAgent x ((s.agents x).ensure f d).1).goto pc) := by
  obtain ⟨hat, hrow⟩ := h.pc_at hpc
  obtain ⟨hfp, hfl, hfr, hfw⟩ := (s.agents x).ensure_frame f d
  refine inv_setAgent h (fun _ => hat) ?_ ?_ ?_ ?_ ?_ ?_ (hq ?_) (h.born (by rw [hpc]; simp))
  · intro p hp
    rw [hfp] at hp
    rw [hfw]
    exact h.pending x p hp
  · intro r hr _
    exact .inl (hrow r hr).1
  · intro r hr hl
    rw [hfl, (hrow r hr).2.1 x] at hl
    cases hl
  · intro r hr
    rw [hfr]
    exact (h.row r hr).strays x
  · intro r hr m hm hact u hu hux hw
    rw [hfw] at hw
    exact (h.row r hr).waits m hm hact u hu (by rw [hux]; exact hw)
  · intro r hr _ m hm hfin
    exact ((hrow r hr).2.2 m hm hfin).symm
  · intro r hr
    have hr' : s.row = some r := hr
    obtain ⟨hhost, hl, hfin⟩ := hrow r hr'
    refine ⟨?_, ?_, ?_⟩
    · intro y hy
      rw [executing_setAgent] at hy
      split at hy
      · next hyx => rw [hhost, hyx]
      · rw [hhost, hat y hy]
    · intro y
      rw [agents_setAgent]
      split
      · rw [hfl]
        exact hl x
      · exact hl y
    · intro m hm hc
      rw [hhost, hfin m hm hc]

/-- `delete_vm` or `discard_vm` on a host that holds no guest outside its `vms` table, and whose
receiver no active migration still names, unless it is the row's host. -/
theorem inv_drop (hloose : ∀ r, s.row = some r → (s.agents x).loose = false)
    (hurl : ∀ r, s.row = some r → ∀ m ∈ s.migrations, m.state.active →
    ∀ u, m.migrationUrl = some u → u.host = x → r.hostId = some m.targetHost)
    (hpc : PcInv (s.setAgent x { (s.agents x).dropPending with managed := none }) pc)
    (hb : s.born) :
    Inv ((s.setAgent x { (s.agents x).dropPending with managed := none }).goto pc) := by
  have hl : ({ (s.agents x).dropPending with managed := none } : AgentVm).loose =
      (s.agents x).loose := (s.agents x).dropPending_loose
  have hex : ({ (s.agents x).dropPending with managed := none } : AgentVm).executing = true →
      s.executing x = true := by
    intro he
    rcases (executing_iff _).mp he with hm | hm
    · cases hm
    · rw [hl] at hm
      exact executing_of_loose hm
  refine inv_setAgent h ?_ ?_ ?_ ?_ ?_ ?_ ?_ hpc hb
  · intro he y hy
    exact h.one y x hy (hex he)
  · intro p hp
    have hp' : (s.agents x).dropPending.pending = some p := hp
    rw [dropPending_pending] at hp'
    cases hp'
  · intro r hr he
    exact (h.row r hr).home x (hex he)
  · intro r hr hc
    rw [hl, hloose r hr] at hc
    cases hc
  · intro r hr
    cases hs : ({ (s.agents x).dropPending with managed := none } : AgentVm).strayRuns with
    | false => rfl
    | true =>
      have hc := (loose_iff _).mpr (.inr hs)
      rw [hl, hloose r hr] at hc
      cases hc
  · intro r hr m hm hact u hu hux _
    exact hurl r hr m hm hact u hu hux
  · intro r hr he m hm hfin
    exact ((h.row r hr).finalizing m hm hfin).1 x (hex he)

theorem inv_delete (hpc : s.pc = .deleteCall x) :
    Inv ((s.setAgent x { (s.agents x).dropPending with managed := none }).goto .deleteRow) := by
  have hp := h.pc_at hpc
  refine inv_drop h ?_ ?_ trivial (h.born (by rw [hpc]; simp))
  · intro r hr
    cases hl : (s.agents x).loose with
    | false => rfl
    | true => exact absurd (hp r hr) ((h.row r hr).loose x hl).2.1
  · intro r hr m hm _ u hu hux
    rw [hp r hr, ← hux, h.migrations.urlHost m hm u hu]

theorem inv_release (hpc : s.pc = .release m) :
    Inv ((s.setAgent m.targetHost
      { (s.agents m.targetHost).dropPending with managed := none }).goto (.fail m)) := by
  obtain ⟨hm, hst⟩ := h.pc_at hpc
  have hact := active_of hst rfl
  refine inv_drop h ?_ ?_ ⟨hm, hact⟩ (h.born (by rw [hpc]; simp))
  · intro r hr
    cases hl : (s.agents m.targetHost).loose with
    | false => rfl
    | true => exact absurd hst (((h.row r hr).loose _ hl).1.target h hm hact).1
  · intro r hr m' hm' hact' u hu _
    obtain rfl := h.migrations.oneActive m' hm' m hm hact' hact
    rw [h.migrations.urlNone m' hm hst] at hu
    cases hu

theorem inv_discardSource (hpc : s.pc = .finalized m) (hx : m.sourceHost = some x) :
    Inv ((s.setAgent x { (s.agents x).dropPending with managed := none }).goto (.discarded m)) := by
  obtain ⟨⟨hm, hfin⟩, hman⟩ := h.pc_at hpc
  have hact := active_of hfin rfl
  have hne : m.targetHost ≠ x := by
    rintro rfl
    exact h.migrations.ends m hm hx
  refine inv_drop h ?_ ?_ ⟨⟨hm, hfin⟩, ?_⟩ (h.born (by rw [hpc]; simp))
  · intro r hr
    cases hl : (s.agents x).loose with
    | false => rfl
    | true =>
      have := ((h.row r hr).finalizing m hm hfin).1 x (executing_of_loose hl)
      exact absurd this.symm hne
  · intro r hr m' hm' hact' u hu hux
    obtain rfl := h.migrations.oneActive m' hm' m hm hact' hact
    rw [h.migrations.urlHost m' hm u hu] at hux
    exact absurd hux hne
  · rw [agents_setAgent, if_neg hne]
    exact hman

/-- A call or an accident after which host `x` executes and receives no more than before. -/
theorem inv_fade (hex : a.executing → s.executing x) (hpend : ∀ p,
    a.pending = some p → p.returnUrl.host = x ∧ a.strayWaits p.returnUrl = false) (hloose : ∀ r,
    s.row = some r → a.loose → (s.agents x).loose ∧ ((s.agents x).managed = none →
    a.managed = none)) (hstray : a.strayRuns → (s.agents x).strayRuns) (hwaits : ∀ u,
    a.strayWaits u → (s.agents x).strayWaits u) (hpc : PcInv (s.setAgent x a) pc) (hb
    : s.born) : Inv ((s.setAgent x a).goto pc) := by
  refine inv_setAgent h ?_ hpend ?_ ?_ ?_ ?_ ?_ hpc hb
  · intro he y hy
    exact h.one y x hy (hex he)
  · intro r hr he
    exact (h.row r hr).home x (hex he)
  · intro r hr hl
    obtain ⟨hl', hm⟩ := hloose r hr hl
    obtain ⟨h1, h2, h3⟩ := (h.row r hr).loose x hl'
    exact ⟨h1, h2, hm h3⟩
  · intro r hr
    cases hs : a.strayRuns with
    | false => rfl
    | true =>
      have := hstray hs
      rw [(h.row r hr).strays x] at this
      cases this
  · intro r hr m hm hact u hu hux hw
    exact (h.row r hr).waits m hm hact u hu (by rw [hux]; exact hwaits u hw)
  · intro r hr he m hm hfin
    exact ((h.row r hr).finalizing m hm hfin).1 x (hex he)

section

variable (hpc : s.pc = .migrationCall m)
include hpc

theorem inv_prepareReceive (hst : m.state = .pending) {f
    : ReceiveFaults} {n : Nat} {res : Except AgentError Url} (hp : (s.agents
    m.targetHost).prepareReceive f m.targetHost n = some (a, res)) (o : Outcome) : Inv ((s.setAgent
    m.targetHost a).goto (prepareNext s m o res)) := by
  obtain ⟨hm, hact⟩ := h.pc_at hpc
  obtain ⟨h1, h2, h3, h4, h5, h6⟩ := prepareReceive_spec hp
  have hpend : ∀ p, a.pending = some p →
      p.returnUrl.host = m.targetHost ∧ a.strayWaits p.returnUrl = false := by
    intro p hp'
    rw [h4]
    rcases h5 with h5 | ⟨q, hq, hqu, hfree⟩
    · rw [h5] at hp'
      exact h.pending _ p hp'
    · obtain rfl : q = p := mem_unique hq hp'
      rw [hqu]
      exact ⟨rfl, hfree⟩
  refine inv_fade h ?_ hpend ?_ ?_ ?_ ?_ (h.born (by rw [hpc]; simp))
  · intro he
    unfold State.executing
    rw [executing_iff, h1, h2] at he
    exact (executing_iff _).mpr he
  · intro r _ hl
    rw [h2] at hl
    exact ⟨hl, fun hn => h1.trans hn⟩
  · intro hs
    rwa [h3] at hs
  · intro u hu
    rwa [h4] at hu
  · unfold prepareNext
    split
    · next url =>
      obtain ⟨p, hp', rfl⟩ := h6 url rfl
      obtain ⟨hhost, hfree⟩ := hpend p hp'
      refine ⟨⟨hm, hst⟩, hhost, ?_⟩
      rw [agents_setAgent, if_pos hhost]
      exact hfree
    · exact pcInv_migrationFailed (s := s.setAgent m.targetHost a) hm hact

theorem inv_finalizeReceive (hst : m.state =
    .finalizing) {res : Except AgentError Phase} (hf : (s.agents m.targetHost).finalizeReceive =
    some (a, res)) (o : Outcome) : Inv ((s.setAgent m.targetHost a).goto (finalizeNext s m o res))
    := by
  obtain ⟨hm, hact⟩ := h.pc_at hpc
  have hgoal : (∀ p, res = .ok p → a.managed.isSome) →
      PcInv (s.setAgent m.targetHost a) (finalizeNext s m o res) := by
    intro hman
    unfold finalizeNext
    split
    · next p =>
      have hsome : ((s.setAgent m.targetHost a).agents m.targetHost).managed.isSome := by
        rw [agents_setAgent, if_pos rfl]
        exact hman p rfl
      unfold afterFinalize
      split
      · split <;> exact ⟨⟨hm, hst⟩, hsome⟩
      · exact ⟨⟨hm, hst⟩, hsome⟩
    · exact pcInv_migrationFailed (s := s.setAgent m.targetHost a) hm hact
  have hb := h.born (by rw [hpc]; simp)
  rcases finalizeReceive_spec hf with ⟨rfl, hman⟩ | ⟨p, hnone, hp, rfl⟩ |
    ⟨p, e, hnone, hp, -, rfl, rfl⟩
  · exact inv_fade h id (h.pending m.targetHost) (fun _ _ hl => ⟨hl, id⟩) id (fun _ => id)
      (hgoal fun q hq => hman ⟨q, hq⟩) hb
  · refine inv_fade h ?_ (fun q hq => by cases hq) ?_ id (fun _ => id) (hgoal fun _ _ => rfl) hb
    · intro he
      refine (executing_iff _).mpr (.inr ((loose_iff _).mpr ?_))
      rcases (executing_iff _).mp he with hr | hl
      · exact .inl ⟨p, hp, some.inj hr⟩
      · rcases (loose_iff _).mp hl with ⟨q, hq, -⟩ | hsr
        · cases hq
        · exact .inr hsr
    · intro r hr hl
      rcases (loose_iff _).mp hl with ⟨q, hq, -⟩ | hsr
      · cases hq
      · have hsr' : (s.agents m.targetHost).strayRuns := hsr
        rw [(h.row r hr).strays] at hsr'
        cases hsr'
  · have hl : ({ s.agents m.targetHost with pending := some { p with finalizing := true } } :
        AgentVm).loose = (s.agents m.targetHost).loose := by
      simp [loose, hp]
    refine inv_fade h ?_ ?_ ?_ id (fun _ => id) (hgoal fun q hq => by cases hq) hb
    · intro he
      rw [executing_iff, hl] at he
      exact (executing_iff _).mpr he
    · rintro q ⟨⟩
      exact h.pending m.targetHost p hp
    · intro r _ hc
      rw [hl] at hc
      exact ⟨hc, id⟩

/-- The source side of a transfer: the source is the row's host, and after it nothing executes. -/
theorem inv_leaveSource (hx : m.sourceHost = some x) (hr
    : s.row = some r) (hrun : (s.agents x).managed = some .running) (hhusk : husk
    ≠ .running) : r.hostId = some x ∧ Inv ((s.setAgent x ((s.agents x).sent husk)).goto
    (.migrationCall m)) ∧ ∀ y, (s.setAgent x ((s.agents x).sent husk)).executing y = false := by
  obtain ⟨hm, hact⟩ := h.pc_at hpc
  have hri := h.row r hr
  have hexec : s.executing x := (executing_iff _).mpr (.inl hrun)
  have hhome : r.hostId = some x := by
    rcases hri.home x hexec with hh | ha
    · exact hh
    · have hc := h.migrations.ends m hm
      rw [(ha.target h hm hact).2] at hc
      exact absurd hx hc
  have hquiet : ((s.agents x).sent husk).loose = false := by
    cases hl : ((s.agents x).sent husk).loose with
    | false => rfl
    | true => exact absurd hhome (hri.loose x hl).2.1
  have hstop : ((s.agents x).sent husk).executing = false := by
    cases he : ((s.agents x).sent husk).executing with
    | false => rfl
    | true =>
    rcases (executing_iff _).mp he with hr' | hl
    · exact absurd (some.inj hr') hhusk
    · rw [hquiet] at hl
      cases hl
  refine ⟨hhome, ?_, ?_⟩
  · refine inv_fade h ?_ (h.pending x) ?_ id (fun _ => id) ⟨hm, hact⟩
      (h.born (by rw [hpc]; simp))
    · intro he
      rw [hstop] at he
      cases he
    · intro r' _ hl
      rw [hquiet] at hl
      cases hl
  · intro y
    rw [executing_setAgent]
    split
    · exact hstop
    · next hyx =>
      cases hy : s.executing y with
      | false => rfl
      | true => exact absurd (h.one y x hy hexec) hyx

/-- The target side of a transfer, from a state in which nothing executes. -/
theorem inv_arrive (hst : m.state = .sending) (hr :
    s.row = some r) (hpark : parked r.phase) (hhost : r.hostId ≠ some m.targetHost) (hnone :
    ∀ y, s.executing y = false) (hu : m.migrationUrl = some u) (hfree : (s.agents
    m.targetHost).managed = none) (ha : (s.agents m.targetHost).receive u = some a) (hnext : pc =
    .sent m ∨ pc = migrationFailed s m) : Inv ((s.setAgent m.targetHost a).goto pc) := by
  obtain ⟨hm, hact⟩ := h.pc_at hpc
  have hri := h.row r hr
  have hw : (s.agents m.targetHost).strayWaits u = false := by
    cases hw : (s.agents m.targetHost).strayWaits u with
    | false => rfl
    | true =>
      rw [← h.migrations.urlHost m hm u hu] at hw
      exact absurd (hri.waits m hm hact u hu hw) hhost
  obtain ⟨hstr, hpend, hman⟩ := receive_free ha hfree (hri.strays _) hw
  have hwaits : ∀ v, a.strayWaits v = (s.agents m.targetHost).strayWaits v := by
    intro v
    unfold strayWaits
    rw [hstr]
  have hway : Away s r m.targetHost := ⟨hpark, m, hm, hact, by rw [hst]; simp, rfl⟩
  refine inv_setAgent h ?_ ?_ ?_ ?_ ?_ ?_ ?_ ?_ (h.born (by rw [hpc]; simp))
  · intro _ y hy
    rw [hnone] at hy
    cases hy
  · intro p hp
    obtain ⟨q, hq, hqu⟩ := hpend p hp
    rw [← hqu, hwaits]
    exact h.pending _ q hq
  · intro r' hr' _
    obtain rfl : r = r' := mem_unique hr hr'
    exact .inr hway
  · intro r' hr' hl
    obtain rfl : r = r' := mem_unique hr hr'
    exact ⟨hway, hhost, hman hl⟩
  · intro _ _
    have := hri.strays m.targetHost
    unfold strayRuns at this ⊢
    rwa [hstr]
  · intro r' hr' m' hm' hact' u' hu' hux hw'
    rw [hwaits] at hw'
    exact (h.row r' hr').waits m' hm' hact' u' hu' (by rw [hux]; exact hw')
  · intro _ _ _ m' hm' hfin
    have hact' := active_of hfin rfl
    rw [h.migrations.oneActive m' hm' m hm hact' hact, hst] at hfin
    cases hfin
  · rcases hnext with rfl | rfl
    · refine ⟨⟨hm, hst⟩, ?_, ?_⟩
      · intro y hy
        rw [executing_setAgent] at hy
        split at hy
        · next hyx => exact hyx
        · rw [hnone] at hy
          cases hy
      · intro r' hr'
        obtain rfl : r = r' := mem_unique hr hr'
        exact hpark
    · exact pcInv_migrationFailed (s := s.setAgent m.targetHost a) hm hact

theorem inv_send (hst : m.state = .sending) (hx : m.sourceHost = some x)
    (hu : m.migrationUrl = some u) (hr : s.row = some r)
    (hpark : parked r.phase) (hfree : (s.agents m.targetHost).managed = none)
    {agents : HostId → AgentVm} (hs : sendMigration s.agents x u husk = some agents)
    (hnext : pc = .sent m ∨ pc = migrationFailed s m) :
    Inv (({ s with agents := agents } : State).goto pc) := by
  have hm : m ∈ s.migrations := by
    have hpi := h.pc
    rw [hpc] at hpi
    exact hpi.1
  obtain ⟨hrun, hhusk, a, ha, rfl⟩ := sendMigration_spec hs
  have hhost : u.host = m.targetHost := h.migrations.urlHost m hm u hu
  have hne : m.targetHost ≠ x := by
    rintro rfl
    exact h.migrations.ends m hm hx
  obtain ⟨hhome, h1, hnone⟩ := inv_leaveSource h hpc hx hr hrun hhusk
  have hag : ((s.setAgent x ((s.agents x).sent husk)).goto (.migrationCall m)).agents
      m.targetHost = s.agents m.targetHost := by
    show (s.setAgent x ((s.agents x).sent husk)).agents m.targetHost = _
    rw [agents_setAgent, if_neg hne]
  rw [hhost, Function.update_of_ne hne, ← hag] at ha
  rw [← hag] at hfree
  rw [hhost]
  exact inv_arrive h1 rfl hst hr hpark (by rw [hhome]; simpa using hne.symm) hnone hu hfree ha hnext

end

/-- Every agent call of a pass keeps the invariant; `send_migration` needs the condition. -/
theorem inv_callStep {c : Call} (hok : orderly s (.call c)) (hs : callStep s c =
    some s') : Inv s' := by
  have hpi := h.pc
  have hb : s.pc ≠ .idle → s.born := h.born
  cases callStep_leaves hs with
  | ensureFailed hpc =>
    rw [hpc] at hpi hb
    refine h.goto ?_ (.inl (hb (by simp)))
    intro r hr
    obtain ⟨hhost, hl, hfin⟩ := hpi.2 r hr
    refine ⟨?_, hl, ?_⟩
    · intro y hy
      rw [hhost, hpi.1 y hy]
    · intro m hm hc
      rw [hhost, hfin m hm hc]
  | @ensured vm x hpc a r ha =>
    obtain rfl : ((s.agents x).ensure c.ensure vm.desired).1 = a := congrArg Prod.fst ha
    refine inv_ensure h hpc c.ensure vm.desired ?_
    intro hq
    unfold ensureNext
    split <;> exact hq
  | deleteFailed hpc => exact h.goto trivial (.inl (hb (by rw [hpc]; simp)))
  | deleted hpc ha =>
    obtain rfl := delete_eq ha
    exact inv_delete h hpc
  | lost hpc | discardFailed hpc =>
    rw [hpc] at hpi hb
    exact h.goto hpi (.inl (hb (by simp)))
  | reported => exact h.goto trivial (.inr rfl)
  | migrationFailed hpc =>
    rw [hpc] at hpi hb
    exact h.goto (pcInv_migrationFailed hpi.1 hpi.2) (.inl (hb (by simp)))
  | prepared hpc hm _ ha => exact inv_prepareReceive h hpc hm ha c.outcome
  | @sent m hpc hm ho x hx u hu agents ha pc hnext =>
    have hsends : sends s m c := by
      simp only [sends, hx, hu]
      rw [ha]
      rfl
    have hout : (c.outcome != .fail) := by simpa using ho
    simp only [orderly, hpc, hm, hout, hsends, beq_self_eq_true, Bool.and_self, Bool.not_true,
      Bool.false_or, Bool.and_eq_true, Option.any_eq_true, Option.isNone_iff_eq_none] at hok
    obtain ⟨⟨r, hr, hpark⟩, hfree⟩ := hok
    exact inv_send h hpc hm hx hu hr hpark hfree ha hnext
  | finalized hpc hm ha => exact inv_finalizeReceive h hpc hm ha c.outcome
  | discarded hpc hx ha =>
    obtain rfl := discard_eq ha
    exact inv_discardSource h hpc hx
  | releaseFailed hpc =>
    rw [hpc] at hpi hb
    exact h.goto ⟨hpi.1, by rw [hpi.2]; rfl⟩ (.inl (hb (by simp)))
  | released hpc ha =>
    obtain rfl := discard_eq ha
    exact inv_release h hpc

end

/-! ## The system -/

theorem pcInv_vmmExit {v : Victim} (h : PcInv s pc) : PcInv (s.setAgent x ((s.agents x).vmmExit v))
    pc := by
  obtain ⟨hf, hman, hw, -, -⟩ := (s.agents x).vmmExit_spec v
  have hex : ∀ y, (s.setAgent x ((s.agents x).vmmExit v)).executing y →
      s.executing y := by
    intro y hy
    rw [executing_setAgent] at hy
    split at hy
    · next hyx => exact hyx ▸ hf.executing hy
    · exact hy
  have hl : ∀ y, (s.agents y).loose = false →
      ((s.setAgent x ((s.agents x).vmmExit v)).agents y).loose = false := by
    intro y hy
    rw [agents_setAgent]
    split
    · next hyx =>
      subst hyx
      cases hc : ((s.agents y).vmmExit v).loose with
      | false => rfl
      | true =>
        have := hf.loose hc
        rw [hy] at this
        cases this
    · exact hy
  have hquiet : Quiet s → Quiet (s.setAgent x ((s.agents x).vmmExit v)) := by
    intro hq r hr
    obtain ⟨h1, h2, h3⟩ := hq r hr
    exact ⟨fun y hy => h1 y (hex y hy), fun y => hl y (h2 y), h3⟩
  have hsome : ∀ y, (s.agents y).managed.isSome →
      ((s.setAgent x ((s.agents x).vmmExit v)).agents y).managed.isSome := by
    intro y hy
    rw [agents_setAgent]
    split
    · next hyx =>
      subst hyx
      rw [hman]
      exact hy
    · exact hy
  cases pc with
  | idle | clearFailures | deleteRow => trivial
  | schedule | assign =>
    refine ⟨?_, h.2⟩
    intro y
    cases hy : (s.setAgent x ((s.agents x).vmmExit v)).executing y with
    | false => rfl
    | true =>
      have := hex y hy
      rw [h.1 y] at this
      cases this
  | place | ensureCall =>
    refine ⟨fun y hy => h.1 y (hex y hy), ?_⟩
    intro r hr
    obtain ⟨h1, h2, h3⟩ := h.2 r hr
    exact ⟨h1, fun y => hl y (h2 y), h3⟩
  | observed | noteFailure | giveUp | recoverList | recoverMark | restore => exact hquiet h
  | deleteCall | advance | migrationCall | fail | release | moved => exact h
  | prepared m url =>
    refine ⟨h.1, h.2.1, ?_⟩
    rw [agents_setAgent]
    split
    · next hyx =>
      subst hyx
      cases hc : ((s.agents url.host).vmmExit v).strayWaits url with
      | false => rfl
      | true =>
        have := hw url hc
        rw [h.2.2] at this
        cases this
    · exact h.2.2
  | sent m => exact ⟨h.1, fun y hy => h.2.1 y (hex y hy), h.2.2⟩
  | finalized | discarded => exact ⟨h.1, hsome _ h.2⟩

theorem vmmExit_empty (v : Victim) : empty.vmmExit v = empty := by
  cases v <;> rfl

theorem inv_vmmExit (h : Inv s) (x : HostId) (v : Victim) : Inv (s.setAgent x ((s.agents x).vmmExit
    v)) := by
  cases hb : s.born with
  | true =>
    obtain ⟨hf, hman, hw, hs, hp⟩ := (s.agents x).vmmExit_spec v
    show Inv ((s.setAgent x ((s.agents x).vmmExit v)).goto s.pc)
    refine inv_fade h hf.executing ?_ ?_ hs hw (pcInv_vmmExit h.pc) hb
    · intro p' hp'
      obtain ⟨p, hpend, hpu⟩ := hp p' hp'
      obtain ⟨h1, h2⟩ := h.pending x p hpend
      rw [← hpu]
      refine ⟨h1, ?_⟩
      cases hc : ((s.agents x).vmmExit v).strayWaits p.returnUrl with
      | false => rfl
      | true =>
        have := hw _ hc
        rw [h2] at this
        cases this
    · intro r _ hl
      refine ⟨hf.loose hl, ?_⟩
      intro hn
      rw [hn] at hman
      simpa using hman
  | false =>
    have hsame : s.setAgent x ((s.agents x).vmmExit v) = s := by
      unfold State.setAgent
      rw [(h.unborn hb).2.2.2.2 x, vmmExit_empty, ← (h.unborn hb).2.2.2.2 x,
        Function.update_eq_self]
    rw [hsame]
    exact h

theorem inv_step (h : Inv s) (hok : orderly s e) (hs : step s e = some s') : Inv
    s' := by
  cases step_kind hs with
  | db he hs => exact inv_dbStep h (he ▸ hok) hs
  | call c he hs => exact inv_callStep h (he ▸ hok) hs
  | crash _ hs' =>
    subst hs'
    exact h.goto trivial (.inr rfl)
  | exits x v _ hs' =>
    subst hs'
    exact inv_vmmExit h x v
  | host x st _ hs' =>
    subst hs'
    have hrs : RowStep s { s with hosts := Function.update s.hosts x st } := .of_eq rfl rfl rfl
    exact hrs.inv h rfl (h.migrations.congr rfl h.migrations.requests) rfl
      fun hq hm => ⟨hq, hm⟩
  | api hs => exact inv_apiStep h hok hs
  | begins hs => exact inv_beginStep h hs

theorem inv_init (h : Init s) : Inv s := by
  obtain ⟨hrow, hborn, hmig, hpc, -, hreq, hag⟩ := h
  have hmem : ∀ m, m ∉ s.migrations := by
    intro m hm
    rw [hmig] at hm
    cases hm
  refine ⟨?_, ⟨?_, ?_, ?_, ?_, ?_, ?_⟩, ?_, ?_, ?_, ?_⟩
  · intro x y hx
    unfold State.executing at hx
    rw [hag] at hx
    cases hx
  · intro i m hi
    exact absurd (mem_of_getElem? hi) (hmem m)
  · intro m hm
    exact absurd hm (hmem m)
  · intro m hm
    exact absurd hm (hmem m)
  · intro q hq
    rw [hreq] at hq
    cases hq
  · intro m hm
    exact absurd hm (hmem m)
  · intro m hm
    exact absurd hm (hmem m)
  · intro x p hp
    rw [hag] at hp
    cases hp
  · intro r hr
    rw [hrow] at hr
    cases hr
  · rw [hpc]
    trivial
  · intro _
    exact ⟨hrow, hmig, hreq, hpc, hag⟩

end VQuasar.Lifecycle
