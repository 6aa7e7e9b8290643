import VQuasar.Lifecycle.Cleanup
import VQuasar.Lifecycle.Location

/-!
# What a deleted VM leaves behind

`reconcile_delete` removes the row whether or not the agent answered, so a VM deleted on an
unreachable host stays alive without a row (`unreachable_delete_leaves_vmm`).
`deleted_leaves_nothing` shows that in every run whose steps are `tidy` a removed row leaves no
VMM and no receiver on any host: every pass keeps the invariant `Clean`, one lemma for each
database statement and each agent call.
-/

namespace VQuasar.Lifecycle

open Runs List Option Bool AgentVm

variable {s s' : State} {m : Migration} {pc : Pc} {x : HostId} {a : AgentVm} {r : VmRow}
  {f : EnsureFaults} {c : Call}

/-! ## Database statements of a pass -/

theorem pcClean_reconcileVm (h : Clean s) (hr : s.row = some r) : PcClean s (reconcileVm s r) := by
  have hhome := home_of_row hr
  unfold reconcileVm
  split
  · next x _ hx =>
    rw [hx] at hhome
    rwa [if_neg (h.registered.home x hhome)]
  · next _ hx =>
    intro y hy
    simp [hhome, hx] at hy
  · next x hx _ => rwa [hx] at hhome
  · next hx _ => rwa [hx] at hhome

theorem pcClean_reconciled (s : State) (vm : VmRow) : PcClean s (reconciled vm) := by
  unfold reconciled
  split <;> trivial

theorem pcClean_migrationFailed (s' : State) (hm : m ∈ s.migrations) (hact : m.state.active)
    : PcClean s (migrationFailed s' m) := by
  unfold migrationFailed
  split <;> exact ⟨hm, hact⟩

theorem pcClean_advanceMigration (hm : m ∈ s.migrations) (hact : m.state.active) : PcClean s
    (advanceMigration s m) := by
  have hfail : PcClean s (migrationFailed s m) := pcClean_migrationFailed s hm hact
  unfold advanceMigration
  split
  · exact hfail
  · next hc =>
    have hhome : s.home ≠ none := by
      intro hn
      exact hc (.inl (by simp [home_eq_none.mp hn]))
    split
    · split
      · exact hfail
      · exact ⟨⟨hm, hact⟩, hhome⟩
    · exact hfail
    · exact ⟨⟨hm, hact⟩, hhome⟩
    · exact ⟨⟨hm, hact⟩, hhome⟩
    · trivial

section

variable (h : Clean s)
include h

theorem clean_beginStep {e : Event} (hs : beginStep s e = some s') : Clean s' := by
  by_cases he : e = .beginReconcile
  · subst he
    simp only [beginStep] at hs
    split at hs
    · next r _ hr =>
      split at hs
      · cases hs
        exact h.goto (pcClean_reconcileVm h hr) (.inl (h.born_of_row hr))
      · cases hs
    · cases hs
  obtain ⟨pc, rfl, hgoes⟩ := beginStep_effect hs
  have hp := h.pc
  have hborn := h.born_at rfl
  generalize s.pc = pc₀ at hgoes hp hborn
  cases hgoes with
  | deletes | places | schedules => exact absurd rfl he
  | recovers hr _ _ => exact h.goto trivial (.inl (h.born_of_row hr))
  | advances hm hact =>
    refine h.goto ⟨hm, hact⟩ (.inl ?_)
    by_contra hb
    simp [(h.unborn (by simpa using hb)).2.1] at hm
  | scheduled vm hready => exact h.goto ⟨hp, by rw [hready]; simp⟩ (.inl (hborn (by simp)))
  | defers vm pc pc' hpc hpc' =>
    refine h.goto ?_ (.inl (hborn ?_))
    · rcases hpc' with rfl | rfl <;> trivial
    · rcases hpc with rfl | ⟨x, rfl⟩ <;> simp

theorem Clean.rehome (f : VmRow → VmRow) (hf : ∀ r, (f r).hostId = some x) (hx :
    s.hosts x ≠ .absent) (hman : ∀ y v, (s.agents y).managed = some v → s.home = some (some y) → y =
    x) (hpend : ∀ m ∈ s.migrations, m.state = .finalizing → (s.agents x).pending = none) (hmov : ∀ m
    ∈ s.migrations, m.state = .finalizing → m.targetHost = x) (hpc : PcClean (s.updateRow f) pc) (hb
    : s.born) : Clean ((s.updateRow f).goto pc) := by
  have hhome : ((s.updateRow f).goto pc).home = s.home.map fun _ => some x := by
    simp [State.home, State.updateRow, State.goto, Function.comp_def, hf]
  have hnone : ((s.updateRow f).goto pc).home = none ↔ s.home = none := by
    rw [hhome, map_eq_none_iff]
  have hsome : s.home ≠ none → ((s.updateRow f).goto pc).home = some (some x) := by
    intro hne
    obtain ⟨o, ho⟩ := ne_none_iff_exists'.mp hne
    rw [hhome, ho]
    rfl
  refine ⟨h.migrations.congr rfl h.migrations.requests,
    ⟨?_, h.registered.migrations, h.registered.requests⟩, ?_, h.strays, ?_, ?_, ?_, ?_, ?_⟩
  · intro y hy
    rw [hhome, map_eq_some_iff] at hy
    obtain ⟨-, -, hxy⟩ := hy
    rwa [← some.inj hxy]
  · intro hn
    rw [hhome, map_eq_some_iff] at hn
    obtain ⟨-, -, hc⟩ := hn
    cases hc
  · intro y p hp
    obtain ⟨⟨h1, h2, h3⟩, m, hm, hact, htgt, hfin⟩ := h.pending y p hp
    refine ⟨⟨h1, h2, fun hn => h3 (hnone.mp hn)⟩, m, hm, hact, htgt, ?_⟩
    intro hst
    refine ⟨(hfin hst).1, (hfin hst).2.1, ?_⟩
    intro hc
    rw [hsome h3] at hc
    have hyx : x = y := some.inj (some.inj hc)
    have hpn := hpend m hm hst
    rw [hyx] at hpn
    simp [show (s.agents y).pending = some p from hp] at hpn
  · intro y v hv
    rcases h.managed y v hv with hh | ⟨hne, hfin⟩
    · left
      rw [hman y v hv hh]
      exact hsome (by rw [hh]; simp)
    · exact .inr ⟨fun hn => hne (hnone.mp hn), hfin⟩
  · intro m hm hst
    by_cases hn : s.home = none
    · exact .inl (hnone.mpr hn)
    · exact .inr (.inr (by rw [hmov m hm hst]; exact hsome hn))
  · exact SameHome.pcClean (.of_eq rfl rfl rfl rfl) hpc
  · intro hf'
    have hf'' : s.born = false := hf'
    simp [hb] at hf''

theorem clean_assignVmHost {vm : VmRow} (hpc : s.pc = .assign vm x) : Clean
    ((s.assignVmHost x).goto (.place vm x)) := by
  obtain ⟨hhome, hx⟩ := h.pc_at hpc
  have hnil := (h.unplaced hhome).1
  refine h.rehome _ (fun _ => rfl) hx ?_ ?_ ?_ ?_ (h.born_at hpc nofun)
  · intro y v _ hy
    simp [hhome] at hy
  · intro m hm
    simp [hnil] at hm
  · intro m hm
    simp [hnil] at hm
  · obtain ⟨r, hr, -⟩ := map_eq_some_iff.mp hhome
    simp [PcClean, State.home, State.updateRow, hr]

theorem clean_setVmHostRunning (hpc : s.pc = .discarded m) : Clean
    ((s.setVmHostRunning m.targetHost).goto (.moved m)) := by
  obtain ⟨⟨hm, hst⟩, hpend, hsrc⟩ := h.pc_at hpc
  have hone : ∀ m' ∈ s.migrations, m'.state = .finalizing → m' = m := fun m' hm' hst' =>
    h.migrations.oneActive m' hm' m hm (active_of hst' rfl) (active_of hst rfl)
  refine h.rehome _ (fun _ => rfl) (h.registered.migrations m hm).1 ?_ (fun _ _ _ => hpend) ?_ ?_
    (h.born_at hpc nofun)
  · intro y v hv hy
    rcases h.moving m hm hst with hn | hn | hn
    · simp [hy] at hn
    · rw [hy] at hn
      have hnone := hsrc y (some.inj hn).symm
      simp [hv] at hnone
    · rw [hy] at hn
      exact some.inj (some.inj hn)
  · intro m' hm' hst'
    rw [hone m' hm' hst']
  · refine ⟨⟨hm, hst⟩, hpend, ?_⟩
    cases hr : s.row with
    | none => exact .inl (by simp [State.home, State.updateRow, hr])
    | some r => exact .inr (by simp [State.home, State.updateRow, hr])

/-- A move of the one active migration, from what it makes of the entries on its target. -/
theorem Clean.updateMigration (hm : m ∈ s.migrations) (hact : m.state.active)
    {st : MigrationState} (hst : st ≠ .pending) {url : Option Url} (hurl : ∀ u, url = some u →
    u.host = m.targetHost) (hpend : ∀ p, (s.agents m.targetHost).pending = some p → st.active
    ∧ (st = .finalizing → p.recv ≠ .waiting ∧ (s.agents m.targetHost).managed = none ∧ s.home ≠ some
    (some m.targetHost))) (hman : m.state = .finalizing → s.home = none ∨ s.home = some (some
    m.targetHost)) (hmov : st = .finalizing → s.home = some m.sourceHost) (hb : s.born) :
    Clean ((s.updateMigration m.id st url).goto .idle) := by
  have hmem := mem_updateMigration h.migrations hm st url
  have hself : ∀ m' ∈ s.migrations, m'.state.active → m' = m :=
    fun m' hm' ha => h.migrations.oneActive m' hm' m hm ha hact
  have hnil : s.migrations ≠ [] := ne_nil_of_mem hm
  refine ⟨(h.migrations.update hm hact hst hurl).congr rfl h.migrations.requests,
    ⟨h.registered.home, ?_, h.registered.requests⟩, ?_, h.strays, ?_, ?_, ?_, trivial, ?_⟩
  · intro m' hm'
    rcases (hmem m').mp hm' with ⟨hin, -⟩ | rfl
    · exact h.registered.migrations m' hin
    · exact h.registered.migrations m hm
  · intro hn
    exact absurd (h.unplaced hn).1 hnil
  · intro y p hp
    obtain ⟨h1, m', hm', ha', htgt, -⟩ := h.pending y p hp
    rw [hself m' hm' ha'] at htgt
    subst htgt
    obtain ⟨hsta, hfin⟩ := hpend p hp
    exact ⟨h1, m.moved st url, (hmem _).mpr (.inr rfl), hsta, rfl, hfin⟩
  · intro y v hv
    rcases h.managed y v hv with hh | ⟨hne, m', hm', hst', htgt⟩
    · exact .inl hh
    left
    obtain rfl := hself m' hm' (active_of hst' rfl)
    rcases hman hst' with hn | hn
    · exact absurd hn hne
    · rwa [← htgt]
  · intro m' hm' hst'
    rcases (hmem m').mp hm' with ⟨hin, hne⟩ | rfl
    · exact absurd (hself m' hin (active_of hst' rfl)) hne
    · exact .inr (.inl (hmov hst'))
  · intro hf
    have hf' : s.born = false := hf
    simp [hb] at hf'

theorem clean_deleteRow (hpc : s.pc = .deleteRow) (hok : tidy s .db) :
    Clean (s.deleteVmRow.goto .idle) := by
  have hnone : s.activeMigration = false := by simpa [tidy, hpc] using hok
  exact h.removed (h.tables_empty (h.pc_at hpc) fun _ m hm => Clean.no_active hnone hm)

theorem clean_dbStep (hok : tidy s .db) (hs : dbStep s = some s') : Clean s' := by
  have hpi := h.pc
  cases dbStep_leaves hs with
  | assigned hpc => exact clean_assignVmHost h hpc
  | placed hpc =>
    have hb := h.born_at hpc nofun
    rw [hpc] at hpi
    exact h.goto hpi (.inl hb)
  | @deferred vm x hpc => exact h.goto (pcClean_reconciled s vm) (.inl (h.born_at hpc nofun))
  | @observed vm p hpc =>
    exact h.updateRow (fun r => { r with phase := p, observedGeneration := vm.generation })
      (fun _ => rfl) (pcClean_reconciled s vm) (.inl (h.born_at hpc nofun))
  | cleared =>
    have hidle : PcClean s .idle := trivial
    exact h.updateRow (fun r => { r with reconcileFailures := 0 }) (fun _ => rfl) hidle (.inr rfl)
  | rowGone => exact h.goto trivial (.inr rfl)
  | noted hpc pc hnext =>
    refine h.updateRow (fun r => { r with reconcileFailures := r.reconcileFailures + 1 })
      (fun _ => rfl) ?_ (.inl (h.born_at hpc nofun))
    rcases hnext with rfl | rfl <;> trivial
  | gaveUp => exact h.phase .failed
  | deleted hpc => exact clean_deleteRow h hpc hok
  | marked => exact h.phase .scheduling
  | advanced hpc =>
    have hb := h.born_at hpc nofun
    rw [hpc] at hpi
    exact h.goto (pcClean_advanceMigration hpi.1 hpi.2) (.inl hb)
  | sending hpc =>
    have hb := h.born_at hpc nofun
    rw [hpc] at hpi
    obtain ⟨⟨hm, hst⟩, hurl⟩ := hpi
    refine h.updateMigration hm (by rw [hst]; rfl) (by simp) ?_ ?_ ?_ (by simp) hb
    · rintro u ⟨⟩
      exact hurl
    · exact fun p _ => ⟨rfl, by simp⟩
    · intro hc
      simp [hst] at hc
  | @finalizing m hpc =>
    have hb := h.born_at hpc nofun
    rw [hpc] at hpi
    obtain ⟨⟨hm, hst⟩, hhome, hpend⟩ := hpi
    refine h.updateMigration hm (by rw [hst]; rfl) (by simp) (by rintro u ⟨⟩) ?_ ?_
      (fun _ => hhome) hb
    · intro p hp
      refine ⟨rfl, fun _ => ⟨(hpend p hp).1, (hpend p hp).2, ?_⟩⟩
      intro hc
      rw [hhome] at hc
      exact h.migrations.ends m hm (some.inj hc)
    · intro hc
      simp [hst] at hc
  | moved hpc => exact clean_setVmHostRunning h hpc
  | completed hpc =>
    have hb := h.born_at hpc nofun
    rw [hpc] at hpi
    obtain ⟨⟨hm, hst⟩, hpend, hhome⟩ := hpi
    refine h.updateMigration hm (active_of hst rfl) (by simp) (by rintro u ⟨⟩) ?_
      (fun _ => hhome) (by simp) hb
    intro p hp
    simp [hpend] at hp
  | failed hpc => simp [tidy, hpc] at hok
  | restored hpc =>
    rw [hpc] at hpi
    exact hpi.elim

end

/-! ## Agent calls -/

theorem AgentVm.ensure_strays (hf : f.launch ≠ .notReady) (d : Power)
    (a : AgentVm) : (a.ensure f d).1.strays = a.strays := by
  unfold ensure
  split
  · rfl
  split
  · rfl
  split
  · rfl
  split
  · exact (a.createAndBoot_frame f false _).2
  · split
    · exact (a.createAndBoot_frame f true .noVm).2
    · rfl
    · next hl => exact absurd hl hf

theorem AgentVm.prepareReceive_tables {f : ReceiveFaults} {n : Nat} {a' : AgentVm} {r : Except
    AgentError Url} (hl : f ≠ .launch .notReady) (hn : f ≠ .noPort) (h : a.prepareReceive f x n =
    some (a', r)) : a'.managed = a.managed ∧ a'.strays = a.strays ∧ (a'.pending = a.pending ∨ ∃ p,
    a'.pending = some p ∧ p.returnUrl.host = x ∧ p.finalizing = false) := by
  unfold prepareReceive at h
  split at h
  · split at h
    · cases h
    · cases h
      exact ⟨rfl, rfl, .inl rfl⟩
  · split at h
    · cases h
      exact ⟨rfl, rfl, .inl rfl⟩
    · cases h
      exact ⟨rfl, rfl, .inl rfl⟩
    · exact absurd rfl hl
    · exact absurd rfl hn
    all_goals
      split at h
      · cases h
      · cases h
        exact ⟨rfl, rfl, .inr ⟨_, rfl, rfl, rfl⟩⟩

section

variable (h : Clean s)
include h

theorem Clean.setAgent (hstray : a.strays = []) (hpend : ∀ p, a.pending = some p →
    (p.returnUrl.host = x ∧ p.finalizing = false ∧ s.home ≠ none) ∧ ∃ m ∈ s.migrations,
    m.state.active ∧ m.targetHost = x ∧ (m.state = .finalizing → p.recv ≠ .waiting ∧
    a.managed = none ∧ s.home ≠ some (some x))) (hman : ∀ v, a.managed = some v → s.home = some
    (some x) ∨ (s.home ≠ none ∧ ∃ m ∈ s.migrations, m.state = .finalizing ∧ m.targetHost = x))
    (hpc : PcClean (s.setAgent x a) pc) (hb : s.born ∨ pc = .idle) :
    Clean ((s.setAgent x a).goto pc) := by
  have hag : ∀ y, ((s.setAgent x a).goto pc).agents y = if y = x then a else s.agents y :=
    agents_setAgent s x a
  refine ⟨h.migrations.congr rfl h.migrations.requests,
    ⟨h.registered.home, h.registered.migrations, h.registered.requests⟩, h.unplaced, ?_, ?_, ?_,
    h.moving, SameHome.pcClean (.of_eq rfl rfl rfl rfl) hpc, ?_⟩
  · intro y
    rw [hag]
    split
    · exact hstray
    · exact h.strays y
  · intro y p hp
    rw [hag] at hp ⊢
    by_cases hyx : y = x
    · subst hyx
      rw [if_pos rfl] at hp ⊢
      exact hpend p hp
    · rw [if_neg hyx] at hp ⊢
      exact h.pending y p hp
  · intro y v hv
    rw [hag] at hv
    by_cases hyx : y = x
    · subst hyx
      rw [if_pos rfl] at hv
      exact hman v hv
    · rw [if_neg hyx] at hv
      exact h.managed y v hv
  · intro hbf
    obtain ⟨h1, h2, h3, -⟩ := h.unborn hbf
    exact ⟨h1, h2, h3, hb.resolve_left (by rw [show s.born = false from hbf]; simp)⟩

theorem clean_ensure {vm : VmRow} (hpc : s.pc = .ensureCall vm x)
    (hf : f.launch ≠ .notReady) (d : Power) (hnext : PcClean (s.setAgent x ((s.agents x).ensure f
    d).1) pc) : Clean ((s.setAgent x ((s.agents x).ensure f d).1).goto pc) := by
  have hhome := h.pc_at hpc
  have hb := h.born_at hpc nofun
  refine h.setAgent ?_ ?_ (fun _ _ => .inl hhome) hnext (.inl hb)
  · rw [ensure_strays hf]
    exact h.strays x
  · intro p hp
    rw [((s.agents x).ensure_frame f d).1] at hp
    obtain ⟨h1, m, hm, hact, htgt, hfin⟩ := h.pending x p hp
    exact ⟨h1, m, hm, hact, htgt, fun hst => absurd hhome (hfin hst).2.2⟩

theorem clean_drop (hnone : (s.agents x).pending = none)
    (hpc : PcClean (s.setAgent x { (s.agents x).dropPending with managed := none }) pc)
    (hb : s.born) :
    Clean ((s.setAgent x { (s.agents x).dropPending with managed := none }).goto pc) := by
  have hsame : (s.agents x).dropPending = s.agents x := by
    unfold dropPending
    rw [hnone]
  refine h.setAgent ?_ ?_ ?_ hpc (.inl hb)
  · rw [hsame]
    exact h.strays x
  · intro p hp
    rw [hsame] at hp
    simp [show (s.agents x).pending = some p from hp] at hnone
  · intro v hv
    cases hv

theorem clean_delete (hpc : s.pc = .deleteCall x) (hact : s.activeMigration = false) :
    Clean ((s.setAgent x { (s.agents x).dropPending with managed := none }).goto .deleteRow) := by
  have hhome := h.pc_at hpc
  refine clean_drop h ?_ ?_ (h.born_at hpc nofun)
  · refine eq_none_iff_forall_ne_some.mpr fun p hp => ?_
    obtain ⟨-, m, hm, ha, -⟩ := h.pending x p hp
    exact Clean.no_active hact hm ha
  · intro y hy
    have hyx : x = y := some.inj (mem_unique hhome hy)
    rw [agents_setAgent, if_pos hyx.symm]

theorem clean_discardSource (hpc : s.pc = .finalized m) (hx : m.sourceHost = some x) :
    Clean ((s.setAgent x { (s.agents x).dropPending with managed := none }).goto
      (.discarded m)) := by
  obtain ⟨⟨hm, hst⟩, hpend⟩ := h.pc_at hpc
  have hne : m.targetHost ≠ x := by
    intro hc
    exact h.migrations.ends m hm (hx.trans (congrArg some hc.symm))
  refine clean_drop h ?_ ⟨⟨hm, hst⟩, ?_, ?_⟩ (h.born_at hpc nofun)
  · refine eq_none_iff_forall_ne_some.mpr fun p hp => ?_
    obtain ⟨-, m', hm', ha, htgt, -⟩ := h.pending x p hp
    rw [h.migrations.oneActive m' hm' m hm ha (active_of hst rfl)] at htgt
    exact hne htgt
  · rwa [agents_setAgent, if_neg hne]
  · intro y hy
    have hyx : y = x := mem_unique hy hx
    rw [agents_setAgent, if_pos hyx]

theorem clean_prepareReceive (hpc : s.pc = .migrationCall m) (hst : m.state =
    .pending) (hc : c.leavesProcess = false) {res : Except AgentError Url} (hp :
    (s.agents m.targetHost).prepareReceive c.receive m.targetHost c.serial = some (a, res)) (o :
    Outcome) : Clean ((s.setAgent m.targetHost a).goto (prepareNext s m o res)) := by
  obtain ⟨⟨hm, hact⟩, hhome⟩ := h.pc_at hpc
  simp only [Call.leavesProcess, or_eq_false_iff, beq_eq_false_iff_ne] at hc
  obtain ⟨hman, hstr, hpend⟩ := prepareReceive_tables hc.1.2 hc.2 hp
  have hpend' : ∀ p, a.pending = some p → p.returnUrl.host = m.targetHost ∧ p.finalizing = false := by
    intro p hq
    rcases hpend with hsame | ⟨q, hq', hrest⟩
    · rw [hsame] at hq
      exact ⟨(h.pending _ p hq).1.1, (h.pending _ p hq).1.2.1⟩
    · obtain rfl : q = p := mem_unique hq' hq
      exact hrest
  refine h.setAgent ?_ ?_ ?_ ?_ (.inl (h.born_of_home hhome))
  · rw [hstr]
    exact h.strays _
  · intro p hq
    refine ⟨⟨(hpend' p hq).1, (hpend' p hq).2, hhome⟩, m, hm, hact, rfl, ?_⟩
    intro hfin
    simp [hst] at hfin
  · intro v hv
    rw [hman] at hv
    exact h.managed _ v hv
  · unfold prepareNext
    split
    · next url =>
      obtain ⟨p, hq, hu⟩ := (prepareReceive_spec hp).2.2.2.2.2 url rfl
      exact ⟨⟨hm, hst⟩, hu ▸ (hpend' p hq).1⟩
    · exact pcClean_migrationFailed s hm hact

theorem pcClean_afterFinalize (hm : m ∈ s.migrations) (hst : m.state = .finalizing)
    (hnone : a.pending = none) : PcClean (s.setAgent m.targetHost a) (afterFinalize s m) := by
  have hpend : ((s.setAgent m.targetHost a).agents m.targetHost).pending = none := by
    rwa [agents_setAgent, if_pos rfl]
  unfold afterFinalize
  split
  · next x hx =>
    rw [if_neg ((h.registered.migrations m hm).2 x hx)]
    exact ⟨⟨hm, hst⟩, hpend⟩
  · next hx =>
    refine ⟨⟨hm, hst⟩, hpend, ?_⟩
    intro y hy
    simp [hx] at hy

theorem clean_finalizeReceive (hpc : s.pc = .migrationCall m) (hst : m.state =
    .finalizing) {res : Except AgentError Phase} (hf : (s.agents m.targetHost).finalizeReceive =
    some (a, res)) (o : Outcome) : Clean ((s.setAgent m.targetHost a).goto (finalizeNext s m o res))
    := by
  obtain ⟨⟨hm, hact⟩, hhome⟩ := h.pc_at hpc
  -- an active migration to this target is `m`, which is past `send_migration`
  have hrecv : ∀ p, (s.agents m.targetHost).pending = some p →
      p.recv ≠ .waiting ∧ (s.agents m.targetHost).managed = none := by
    intro p hp
    obtain ⟨-, m', hm', ha, -, hfin⟩ := h.pending _ p hp
    have hmm := h.migrations.oneActive m' hm' m hm ha hact
    exact ⟨(hfin (hmm ▸ hst)).1, (hfin (hmm ▸ hst)).2.1⟩
  have hnext : (∀ q, res = .ok q → a.pending = none) →
      PcClean (s.setAgent m.targetHost a) (finalizeNext s m o res) := by
    intro hnone
    unfold finalizeNext
    split
    · next q => exact pcClean_afterFinalize h hm hst (hnone q rfl)
    · exact pcClean_migrationFailed s hm hact
  have hb := h.born_of_home hhome
  rcases finalizeReceive_spec hf with ⟨rfl, hman⟩ | ⟨p, hnone, hp, rfl⟩ |
    ⟨p, e, hnone, hp, hw, rfl, rfl⟩
  · refine h.setAgent (h.strays _) (h.pending _) (h.managed _) (hnext ?_) (.inl hb)
    intro q hq
    refine eq_none_iff_forall_ne_some.mpr fun p hp => ?_
    have hsome := hman ⟨q, hq⟩
    simp [(hrecv p hp).2] at hsome
  · refine h.setAgent (h.strays m.targetHost) ?_ ?_ (hnext fun _ _ => rfl) (.inl hb)
    · intro q hq
      cases hq
    · intro v _
      exact .inr ⟨hhome, m, hm, hst, rfl⟩
  · exact absurd hw (hrecv p hp).1

theorem clean_send (hpc : s.pc = .migrationCall m)
    (hst : m.state = .sending) {u : Url} {husk : VmmState}
    {agents' : HostId → AgentVm} (hx : m.sourceHost = some x) (hu : m.migrationUrl = some u)
    (hs : sendMigration s.agents x u husk = some agents')
    (hnext : pc = .sent m ∨ pc = migrationFailed s m) :
    Clean (({ s with agents := agents' } : State).goto pc) := by
  obtain ⟨⟨hm, hact⟩, hne0⟩ := h.pc_at hpc
  obtain ⟨hrun, -, a, ha, rfl⟩ := sendMigration_spec hs
  have hhost : u.host = m.targetHost := h.migrations.urlHost m hm u hu
  have hne : m.targetHost ≠ x := by
    intro hc
    exact h.migrations.ends m hm (hx.trans (congrArg some hc.symm))
  have hnofin : ∀ m' ∈ s.migrations, m'.state ≠ .finalizing := by
    intro m' hm' hc
    simp [h.migrations.oneActive m' hm' m hm (active_of hc rfl) hact, hst] at hc
  have hhome : s.home = some (some x) := by
    rcases h.managed x _ hrun with hh | ⟨-, m', hm', hc, -⟩
    · exact hh
    · exact absurd hc (hnofin m' hm')
  have hfree : (s.agents m.targetHost).managed = none := by
    refine eq_none_iff_forall_ne_some.mpr fun v hv => ?_
    rcases h.managed _ v hv with hh | ⟨-, m', hm', hc', -⟩
    · exact hne (some.inj (mem_unique hh hhome))
    · exact hnofin m' hm' hc'
  have hsent : Clean ((s.setAgent x ((s.agents x).sent husk)).goto (.migrationCall m)) := by
    refine h.setAgent (h.strays x) ?_ (fun _ _ => .inl hhome) ⟨⟨hm, hact⟩, hne0⟩
      (.inl (h.born_of_home hne0))
    intro p hp
    obtain ⟨h1, m', hm', ha', htgt, -⟩ := h.pending x p hp
    exact ⟨h1, m', hm', ha', htgt, fun hc => absurd hc (hnofin m' hm')⟩
  rw [hhost, Function.update_of_ne hne] at ha
  rw [hhost]
  have hpendT : ∀ q, a.pending = some q →
      (q.returnUrl.host = m.targetHost ∧ q.finalizing = false) ∧ q.recv ≠ .waiting := by
    intro q hq
    rcases receive_spec ha with ⟨p, hp, -, rfl⟩ | ⟨p, hp, -, hfin, rfl⟩ | hw
    · obtain ⟨⟨h1, h2, -⟩, -⟩ := h.pending _ p hp
      cases hq
      exact ⟨⟨h1, h2⟩, by simp⟩
    · cases hq
    · simp [strayWaits, h.strays m.targetHost] at hw
  have htables : a.strays = [] ∧ a.managed = none := by
    rcases receive_spec ha with ⟨p, hp, -, rfl⟩ | ⟨p, hp, -, hfin, rfl⟩ | hw
    · exact ⟨h.strays _, hfree⟩
    · simp [(h.pending _ p hp).1.2.1] at hfin
    · simp [strayWaits, h.strays m.targetHost] at hw
  refine hsent.setAgent htables.1 ?_ ?_ ?_ (.inl (h.born_of_home hne0))
  · intro q hq
    obtain ⟨hurl, -⟩ := hpendT q hq
    exact ⟨⟨hurl.1, hurl.2, hne0⟩, m, hm, hact, rfl, fun hc => absurd hc (hnofin m hm)⟩
  · intro v hv
    simp [htables.2] at hv
  · rcases hnext with rfl | rfl
    · refine ⟨⟨hm, hst⟩, hhome.trans (congrArg some hx.symm), ?_⟩
      intro q hq
      rw [agents_setAgent, if_pos rfl] at hq ⊢
      exact ⟨(hpendT q hq).2, htables.2⟩
    · exact pcClean_migrationFailed s hm hact

theorem clean_callStep (hok : tidy s (.call c)) (hs : callStep s c = some s') : Clean s' := by
  have hpi := h.pc
  have hc : c.leavesProcess = false := by
    simp only [tidy, and_eq_true, not_eq_true'] at hok
    exact hok.1
  cases callStep_leaves hs with
  | ensureFailed hpc | lost hpc => exact h.goto trivial (.inl (h.born_at hpc (by simp)))
  | @ensured vm x hpc a r ha =>
    simp only [Call.leavesProcess, or_eq_false_iff, beq_eq_false_iff_ne] at hc
    obtain rfl : ((s.agents x).ensure c.ensure vm.desired).1 = a := congrArg Prod.fst ha
    refine clean_ensure h hpc hc.1.1 vm.desired ?_
    unfold ensureNext
    split <;> trivial
  | deleteFailed hpc ho | discardFailed hpc ho => simp [tidy, hpc, ho] at hok
  | deleted hpc ha =>
    simp only [tidy, hpc, and_eq_true] at hok
    obtain rfl := delete_eq ha
    exact clean_delete h hpc (by simpa using hok.2.2)
  | reported => exact h.goto trivial (.inr rfl)
  | migrationFailed hpc =>
    rw [hpc] at hpi
    exact h.goto (pcClean_migrationFailed s hpi.1.1 hpi.1.2) (.inl (h.born_at hpc (by simp)))
  | prepared hpc hm _ ha => exact clean_prepareReceive h hpc hm hc ha c.outcome
  | sent hpc hm _ hx hu ha pc hnext => exact clean_send h hpc hm hx hu ha hnext
  | finalized hpc hm ha => exact clean_finalizeReceive h hpc hm ha c.outcome
  | discarded hpc hx ha =>
    obtain rfl := discard_eq ha
    exact clean_discardSource h hpc hx
  | releaseFailed hpc | released hpc => simp [tidy, hpc] at hok

end

/-! ## The system -/

theorem AgentVm.vmmExit_tables (a : AgentVm) (v : Victim) :
    (a.managed = none ↔ (a.vmmExit v).managed = none) ∧
      (a.strays = [] → (a.vmmExit v).strays = []) ∧
      ∀ p', (a.vmmExit v).pending = some p' → ∃ p, a.pending = some p ∧
        p'.returnUrl = p.returnUrl ∧ (p.finalizing = false → p'.finalizing = false) ∧
        (p.recv ≠ .waiting → p'.recv ≠ .waiting) := by
  cases v with
  | guest | managed =>
    refine ⟨?_, id, fun p' hp' => ⟨p', hp', rfl, id, id⟩⟩
    simp [vmmExit]
  | pending =>
    refine ⟨Iff.rfl, id, ?_⟩
    intro p' hp'
    obtain ⟨p, hp, rfl⟩ := map_eq_some_iff.mp hp'
    refine ⟨p, hp, rfl, fun _ => rfl, ?_⟩
    intro hw
    simp only [if_neg hw]
    exact hw
  | stray i =>
    refine ⟨Iff.rfl, ?_, fun p' hp' => ⟨p', hp', rfl, id, id⟩⟩
    intro hs
    simp [vmmExit, hs]

theorem pcClean_vmmExit {v : Victim} (h : PcClean s pc) :
    PcClean (s.setAgent x ((s.agents x).vmmExit v)) pc := by
  obtain ⟨hman, -, hpend⟩ := (s.agents x).vmmExit_tables v
  refine PcClean.mono (s := s) rfl (fun _ hy => hy) (fun _ hm => hm) ?_ ?_ h
  · intro y hy
    rw [agents_setAgent]
    split
    · next hyx => exact hman.mp (hyx ▸ hy)
    · exact hy
  · intro y p' hp'
    rw [agents_setAgent] at hp'
    split at hp'
    · next hyx =>
      obtain ⟨p, hp, -, -, hrecv⟩ := hpend p' hp'
      exact ⟨p, by rw [hyx]; exact hp, hrecv⟩
    · exact ⟨p', hp', id⟩

theorem clean_vmmExit (h : Clean s) (x : HostId) (v : Victim) :
    Clean (s.setAgent x ((s.agents x).vmmExit v)) := by
  obtain ⟨hman, hstr, hpend⟩ := (s.agents x).vmmExit_tables v
  show Clean ((s.setAgent x ((s.agents x).vmmExit v)).goto s.pc)
  refine h.setAgent (hstr (h.strays x)) ?_ ?_ (pcClean_vmmExit h.pc) h.busy
  · intro p' hp'
    obtain ⟨p, hp, hurl, hfin, hrecv⟩ := hpend p' hp'
    obtain ⟨⟨h1, h2, h3⟩, m, hm, hact, htgt, hst⟩ := h.pending x p hp
    refine ⟨⟨hurl ▸ h1, hfin h2, h3⟩, m, hm, hact, htgt, ?_⟩
    intro hc
    obtain ⟨h4, h5, h6⟩ := hst hc
    exact ⟨hrecv h4, hman.mp h5, h6⟩
  · intro w hw
    have hsome : (s.agents x).managed ≠ none := by
      intro hc
      simp [hman.mp hc] at hw
    obtain ⟨w', hw'⟩ := ne_none_iff_exists'.mp hsome
    exact h.managed x w' hw'

theorem clean_step {e : Event} (h : Clean s) (hok : tidy s e) (hs : step s e = some s') :
    Clean s' := by
  cases step_kind hs with
  | db he hs => exact clean_dbStep h (he ▸ hok) hs
  | call c he hs => exact clean_callStep h (he ▸ hok) hs
  | crash _ hs' =>
    subst hs'
    exact h.goto trivial (.inr rfl)
  | exits x v _ hs' =>
    subst hs'
    exact clean_vmmExit h x v
  | host x st he _ =>
    subst he
    simp only [step] at hs
    split at hs
    · cases hs
    · next hc =>
      cases hs
      refine h.rewrite rfl ?_ rfl rfl (same_requests s) rfl h.pc h.busy
      intro y hy
      by_cases hyx : y = x
      · subst hyx
        simpa using fun hst => hc ⟨hy, hst⟩
      · simpa [hyx] using hy
  | api hs => exact clean_apiStep h hok hs
  | begins hs => exact clean_beginStep h hs

theorem clean_init (hi : Init s) : Clean s := by
  have hmi := (inv_init hi).migrations
  obtain ⟨hrow, hborn, hmig, hpc, -, hreq, hag⟩ := hi
  have hhome : s.home = none := home_eq_none.mpr hrow
  refine .of_empty hmi ⟨?_, ?_, ?_⟩ hhome ?_ ?_ hpc fun _ => ⟨hmig, hreq⟩
  · intro x hx
    simp [hhome] at hx
  · intro m hm
    simp [hmig] at hm
  · intro q hq
    simp [hreq] at hq
  all_goals
    intro x
    rw [hag]
  · rfl
  · exact ⟨rfl, rfl⟩

def TidyReach : State → Prop := Reach step (fun s e => tidy s e = true) Init

theorem TidyReach.clean (h : TidyReach s) : Clean s :=
  Reach.invariant (fun _ => clean_init) (fun _ _ _ hi hok hs => clean_step hi hok hs) h

/-! ## Deletion -/

def deleteVm (c : Call) : List Event := [.delete, .beginReconcile, .call c, .db]

end VQuasar.Lifecycle
