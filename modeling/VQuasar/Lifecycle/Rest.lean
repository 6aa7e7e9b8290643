import VQuasar.Lifecycle.Deletion

/-!
# A VM at rest

A row that is `Stopped` with its generation observed is the one that says that the VM is off: the
agent has answered a power-off for the spec the row still has, and no pass that would start the
guest is under way.  The phase alone does not say so: it is `Stopped` for the whole of the pass
that boots the guest again.

`Rest` is the invariant behind it.  Together with `Clean` it follows that nothing of a VM at rest
is alive on any host (`rest_anyAlive`), in every run whose steps are `tidy`.
-/

namespace VQuasar.Lifecycle

open List Option VmRow AgentVm

/-! ## The invariant -/

/-- `Stopped`, and nothing newer to apply. -/
def VmRow.atRest (r : VmRow) : Bool :=
  r.phase == .stopped && r.generation == r.observedGeneration

variable {r : VmRow}

theorem VmRow.atRest_iff : r.atRest ↔ r.phase = .stopped ∧ r.generation = r.observedGeneration := by
  simp [atRest]

theorem VmRow.not_atRest (h : r.phase ≠ .stopped) : r.atRest = false := by
  simp [atRest, h]

theorem VmRow.not_atRest_of_toReconcile (h : r.toReconcile) : r.atRest = false := by
  by_contra hc
  obtain ⟨hp, hg⟩ := atRest_iff.mp (by simpa using hc)
  simp [toReconcile, hp, hg] at h

/-- A pass that has taken up the row `vm`, which was not at rest and is not now. -/
def Ensuring (s : State) (vm : VmRow) : Prop :=
  ∀ r, s.row = some r → vm.generation ≤ r.generation ∧ r.atRest = false

def RestPc (s : State) : Pc → Prop
  | .schedule vm | .assign vm _ | .place vm _ | .ensureCall vm _ => Ensuring s vm
  -- an agent that answers `Stopped` has no VMM left
  | .observed vm p => ∀ r, s.row = some r → vm.generation ≤ r.generation ∧
      (p = .stopped → ∀ h, r.hostId = some h → (s.agents h).managed = none)
  | .moved _ => ∀ r, s.row = some r → r.phase ≠ .stopped
  | _ => True

structure Rest (s : State) : Prop where
  observed : ∀ r, s.row = some r → r.observedGeneration ≤ r.generation
  off : ∀ r, s.row = some r → r.atRest → s.activeMigration = false →
    ∀ h, r.hostId = some h → (s.agents h).managed = none
  pc : RestPc s s.pc

/-! ## Rows -/

section

variable {s s' : State} {r r' : VmRow} {e : Event} {c : Call}

section

variable (hw : Writes s e r r') (hobs : r.observedGeneration ≤ r.generation)
include hw hobs

/-- A row that was written is at rest only if it was, or a pass has just stopped it. -/
theorem Writes.atRest (hrest : r'.atRest) :
    r'.hostId = r.hostId ∧ (r.atRest ∨ ∃ vm, s.pc = .observed vm .stopped) := by
  obtain ⟨hphase, hgen⟩ := atRest_iff.mp hrest
  cases hw with
  | same he hg ho hh hd hp =>
    rcases hp with hp | hp
    · exact ⟨hh, .inl (atRest_iff.mpr ⟨hp ▸ hphase, by omega⟩)⟩
    · exact absurd hphase hp
  | power d =>
    have hgen : r.generation + 1 = r.observedGeneration := hgen
    omega
  | assigned | moved => cases hphase
  | @observed _ vm p hpc =>
    have hp : p = .stopped := hphase
    exact ⟨rfl, .inr ⟨vm, hp ▸ hpc⟩⟩

/-- The generation that is recorded is one that a pass has read. -/
theorem Writes.observed_le
    (hpc : RestPc s s.pc) (hr : s.row = some r) : r'.observedGeneration ≤ r'.generation := by
  cases hw with
  | same he hg ho => omega
  | power d => exact Nat.le_succ_of_le hobs
  | assigned | moved => exact hobs
  | @observed _ vm p hpc' =>
    rw [hpc'] at hpc
    exact (hpc r hr).1

end

/-- What holds at a program point still does when the row was written by somebody else and no
agent got a VMM. -/
theorem RestPc.mono {pc : Pc} (h : RestPc s pc)
    (hrow : ∀ r', s'.row = some r' → ∃ r, s.row = some r ∧ r.generation ≤ r'.generation ∧
      r'.hostId = r.hostId ∧ (r'.atRest → r.atRest) ∧ (r'.phase = .stopped → r.phase = .stopped))
    (hag : ∀ x, (s.agents x).managed = none → (s'.agents x).managed = none) : RestPc s' pc := by
  have hens : ∀ vm, Ensuring s vm → Ensuring s' vm := by
    intro vm hvm r' hr'
    obtain ⟨r, hr, hg, -, hrest, -⟩ := hrow r' hr'
    obtain ⟨hgen, hno⟩ := hvm r hr
    refine ⟨Nat.le_trans hgen hg, ?_⟩
    by_contra hc
    have hyes := hrest (by simpa using hc)
    simp [hno] at hyes
  cases pc with
  | schedule vm | assign vm | place vm | ensureCall vm => exact hens vm h
  | observed vm p =>
    intro r' hr'
    obtain ⟨r, hr, hg, hh, -⟩ := hrow r' hr'
    obtain ⟨hgen, hoff⟩ := h r hr
    refine ⟨Nat.le_trans hgen hg, ?_⟩
    intro hp x hx
    exact hag x (hoff hp x (hh ▸ hx))
  | moved m =>
    intro r' hr' hp
    obtain ⟨r, hr, -, -, -, hphase⟩ := hrow r' hr'
    exact h r hr (hphase hp)
  | _ => trivial

theorem same_row (hrow : s'.row = s.row) :
    ∀ r', s'.row = some r' → ∃ r, s.row = some r ∧ r.generation ≤ r'.generation ∧
      r'.hostId = r.hostId ∧ (r'.atRest → r.atRest) ∧ (r'.phase = .stopped → r.phase = .stopped) :=
  fun r' hr' => ⟨r', hrow ▸ hr', Nat.le_refl _, rfl, id, id⟩

/-! ## Requests of the API -/

theorem Rest.apiStep (h : Rest s) (hc : Clean s) (hs : apiStep s e = some s') : Rest s' := by
  have heff := apiStep_effect hs
  have hactive : s'.activeMigration = false → s.activeMigration = false := by
    intro hno
    unfold State.activeMigration at hno ⊢
    rcases heff.migrations with hm | ⟨x, y, hm⟩
    · rwa [hm] at hno
    · rw [hm, any_append, Bool.or_eq_false_iff] at hno
      exact hno.1
  -- the statements of a pass are not requests
  have hne : e ≠ .db := by
    rintro rfl
    cases hs
  have hwrites : ∀ {r r'}, Writes s e r r' → s.row = some r →
      r.generation ≤ r'.generation ∧ r'.hostId = r.hostId ∧
        (r'.atRest → r.atRest) ∧ (r'.phase = .stopped → r.phase = .stopped) := by
    intro r r' hw hr
    cases hw with
    | same he hg ho hh hd hp =>
      have hstop : r'.phase = .stopped → r.phase = .stopped := by
        intro hphase
        rcases hp with hp | hp
        · exact hp ▸ hphase
        · exact absurd hphase hp
      refine ⟨Nat.le_of_eq hg.symm, hh, ?_, hstop⟩
      intro hrest
      obtain ⟨hphase, hgen⟩ := atRest_iff.mp hrest
      exact atRest_iff.mpr ⟨hstop hphase, by omega⟩
    | power d =>
      refine ⟨Nat.le_succ _, rfl, ?_, id⟩
      intro hrest
      have hgen : r.generation + 1 = r.observedGeneration := (atRest_iff.mp hrest).2
      have hobs := h.observed r hr
      omega
    | assigned | observed | moved => exact absurd rfl hne
  refine ⟨?_, ?_, ?_⟩
  · intro r' hr'
    rcases heff.row r' hr' with ⟨-, d, -, rfl⟩ | ⟨r, hr, hw⟩
    · exact Nat.zero_le _
    · exact hw.observed_le (h.observed r hr) h.pc hr
  · intro r' hr' hrest hno x hx
    rw [heff.agents]
    rcases heff.row r' hr' with ⟨-, d, -, rfl⟩ | ⟨r, hr, hw⟩
    · cases hx
    · obtain ⟨-, hh, hrest', -⟩ := hwrites hw hr
      exact h.off r hr (hrest' hrest) (hactive hno) x (hh ▸ hx)
  · rw [heff.pc]
    by_cases hb : s.born
    · refine h.pc.mono ?_ (fun x hx => heff.agents ▸ hx)
      intro r' hr'
      rcases heff.row r' hr' with ⟨hborn, -⟩ | ⟨r, hr, hw⟩
      · simp [hb] at hborn
      · exact ⟨r, hr, hwrites hw hr⟩
    · rw [(hc.unborn (by simpa using hb)).2.2.2]
      trivial

/-! ## Agent calls -/

theorem AgentVm.bootManaged_not_stopped (f : EnsureFaults) (a : AgentVm) (v : VmmState) :
    (a.bootManaged f v).2 ≠ .ok .stopped := by
  unfold bootManaged
  split
  · next hv =>
    subst hv
    simp [VmmState.observe]
  · split
    · next v' hb => cases v <;> cases hb <;> simp [VmmState.observe]
    · simp
    · split <;> simp

theorem AgentVm.createAndBoot_not_stopped (f : EnsureFaults) (n : Bool) (a : AgentVm)
    (v : VmmState) : (a.createAndBoot f n v).2 ≠ .ok .stopped := by
  unfold createAndBoot
  split
  · simp
  · split
    · simp
    · exact a.bootManaged_not_stopped f _

theorem AgentVm.ensure_stopped {f : EnsureFaults} {d : Power} {a : AgentVm}
    (h : (a.ensure f d).2 = .ok .stopped) : (a.ensure f d).1.managed = none := by
  unfold ensure at h ⊢
  split at h
  · cases h
  · next hprep =>
    rw [if_neg hprep]
    split at h
    · rfl
    split at h
    · cases h
    split at h
    · exact absurd h (a.createAndBoot_not_stopped f false _)
    · split at h
      · exact absurd h (a.createAndBoot_not_stopped f true .noVm)
      · cases h
      · cases h

theorem Clean.active_of_pc (hc : Clean s) {m : Migration}
    (hpc : s.pc = .migrationCall m ∨ s.pc = .finalized m ∨ s.pc = .release m) :
    s.activeMigration := by
  have hp := hc.pc
  rcases hpc with hpc | hpc | hpc
  · rw [hpc] at hp
    exact any_eq_true.mpr ⟨m, hp.1.1, hp.1.2⟩
  · rw [hpc] at hp
    exact any_eq_true.mpr ⟨m, hp.1.1, active_of hp.1.2 rfl⟩
  · rw [hpc] at hp
    exact any_eq_true.mpr ⟨m, hp.1, hp.2⟩

/-- What a call outside a migration does to the agents: `ensure` on the row's host, or less. -/
theorem callStep_managed (hs : callStep s c = some s') :
    (∃ vm x, s.pc = .ensureCall vm x) ∨
      (∃ m, s.pc = .migrationCall m ∨ s.pc = .finalized m ∨ s.pc = .release m) ∨
      ∀ x, (s.agents x).managed = none → (s'.agents x).managed = none := by
  cases callStep_leaves hs with
  | ensureFailed hpc | ensured hpc => exact .inl ⟨_, _, hpc⟩
  | deleteFailed | lost | reported => exact .inr (.inr fun _ hx => hx)
  | @deleted y _ a r ha =>
    refine .inr (.inr fun x hx => ?_)
    obtain rfl := delete_eq ha
    show ((s.setAgent y _).agents x).managed = none
    rw [agents_setAgent]
    split
    · rfl
    · exact hx
  | migrationFailed hpc | prepared hpc | sent hpc | finalized hpc => exact .inr (.inl ⟨_, .inl hpc⟩)
  | discardFailed hpc | discarded hpc => exact .inr (.inl ⟨_, .inr (.inl hpc)⟩)
  | releaseFailed hpc | released hpc => exact .inr (.inl ⟨_, .inr (.inr hpc)⟩)

theorem restPc_ensured (h : Rest s) (hc : Clean s) {vm : VmRow} {x : HostId}
    {p : Phase} (hpc : s.pc = .ensureCall vm x) (hs : callStep s c = some s')
    (hnext : s'.pc = .observed vm p) : RestPc s' (.observed vm p) := by
  have hens := h.pc
  have hhome := hc.pc
  rw [hpc] at hens hhome
  simp only [callStep, hpc] at hs
  split at hs
  · cases hs
    cases hnext
  cases hs
  intro r hr
  refine ⟨(hens r hr).1, ?_⟩
  intro hp y hy
  subst hp
  have hyx : y = x := by
    have hrow := home_of_row (show s.row = some r from hr)
    rw [hhome, hy] at hrow
    exact (some.inj (some.inj hrow)).symm
  show ((s.setAgent x _).agents y).managed = none
  rw [agents_setAgent, if_pos hyx]
  refine ensure_stopped ?_
  have hnext : ensureNext vm c.outcome ((s.agents x).ensure c.ensure vm.desired).2 =
    .observed vm .stopped := hnext
  unfold ensureNext at hnext
  split at hnext
  · next q hq =>
    rw [hq]
    cases hnext
    rfl
  · cases hnext

theorem Rest.callStep (h : Rest s) (hc : Clean s) (hs : callStep s c = some s') : Rest s' := by
  have heff := callStep_effect hs
  refine ⟨fun r hr => h.observed r (heff.row ▸ hr), ?_, ?_⟩
  · intro r hr hrest hno x hx
    rw [heff.row] at hr
    have hno : s.activeMigration = false := by
      unfold State.activeMigration at hno ⊢
      rwa [heff.migrations] at hno
    rcases callStep_managed hs with ⟨vm, y, hpc⟩ | ⟨m, hpc⟩ | hman
    · have hens := h.pc
      rw [hpc] at hens
      simp [(hens r hr).2] at hrest
    · simp [hc.active_of_pc hpc] at hno
    · exact hman x (h.off r hr hrest hno x hx)
  · have hgoes := heff.goes
    generalize hpc : s.pc = pc₀ at hgoes
    generalize hpc' : s'.pc = pc' at hgoes
    cases hgoes with
    | ensured vm x p => exact restPc_ensured h hc hpc hs hpc'
    | failed m pc hp => rcases hp with rfl | rfl <;> trivial
    | _ => trivial

/-! ## Statements of a pass -/

theorem dbStep_active (hc : Clean s) (hok : tidy s .db) (hs : dbStep s = some s')
    (hno : s'.activeMigration = false) : s.activeMigration = false ∨ ∃ m, s.pc = .moved m := by
  have hpi := hc.pc
  -- a migration that goes on is active afterwards
  have hgoesOn : ∀ {m st url}, s'.migrations = (s.updateMigration m.id st url).migrations →
      m ∈ s.migrations → st.active = false := by
    intro m st url heq hm
    have hmem : m.moved st url ∈ s'.migrations := by
      rw [heq]
      exact (mem_updateMigration hc.migrations hm st url _).mpr (.inr rfl)
    exact Bool.eq_false_iff.mpr (Clean.no_active hno hmem)
  rcases dbStep_migrations hs with hm | ⟨m, st, url, hmoves, hm⟩
  · left
    unfold State.activeMigration at hno ⊢
    rwa [hm] at hno
  · generalize hpc : s.pc = pc₀ at hmoves hpi
    cases hmoves with
    | sending | finalizing => exact absurd (hgoesOn hm hpi.1.1) nofun
    | completed => exact .inr ⟨m, rfl⟩
    | failed => simp [tidy, hpc] at hok

theorem restPc_dbStep (h : RestPc s s.pc) (hs : dbStep s = some s') : RestPc s' s'.pc := by
  have hdone : ∀ vm s'', RestPc s'' (reconciled vm) := by
    intro vm s''
    rcases reconciled_cases vm with hp | hp <;> rw [hp] <;> trivial
  cases dbStep_leaves hs with
  | assigned hpc =>
    rw [hpc] at h
    intro r' hr'
    obtain ⟨r, hr, rfl⟩ := map_eq_some_iff.mp hr'
    exact ⟨(h r hr).1, not_atRest nofun⟩
  | placed hpc => rwa [hpc] at h
  | @deferred vm | @observed vm => exact hdone vm _
  | noted _ _ hnext => rcases hnext with rfl | rfl <;> trivial
  | @advanced m =>
    show RestPc _ (advanceMigration s m)
    rcases advanceMigration_cases s m with hp | hp | hp | hp <;> rw [hp] <;> trivial
  | moved =>
    intro r' hr'
    obtain ⟨r, -, rfl⟩ := map_eq_some_iff.mp hr'
    exact nofun
  | _ => trivial

theorem Rest.dbStep (h : Rest s) (hc : Clean s) (hok : tidy s .db)
    (hs : dbStep s = some s') : Rest s' := by
  refine ⟨?_, ?_, restPc_dbStep h.pc hs⟩
  · intro r' hr'
    obtain ⟨r, hr, hw⟩ := writes_dbStep hs hr'
    exact hw.observed_le (h.observed r hr) h.pc hr
  · intro r' hr' hrest hno x hx
    obtain ⟨r, hr, hw⟩ := writes_dbStep hs hr'
    obtain ⟨hh, hcase⟩ := hw.atRest (h.observed r hr) hrest
    rw [(dbStep_frame hs).1]
    have hp := h.pc
    rcases hcase with hrest | ⟨vm, hpc⟩
    · rcases dbStep_active hc hok hs hno with hno | ⟨m, hpc⟩
      · exact h.off r hr hrest hno x (hh ▸ hx)
      · rw [hpc] at hp
        exact absurd (atRest_iff.mp hrest).1 (hp r hr)
    · rw [hpc] at hp
      exact (hp r hr).2 rfl x (hh ▸ hx)

/-! ## The system -/

theorem Rest.beginStep (h : Rest s) (hs : beginStep s e = some s') : Rest s' := by
  obtain ⟨pc, rfl, hgoes⟩ := beginStep_effect hs
  refine ⟨h.observed, h.off, ?_⟩
  have hp := h.pc
  have htakes : ∀ {r}, s.row = some r → r.toReconcile → Ensuring s r := by
    intro r hr hrec r' hr'
    obtain rfl : r = r' := mem_unique hr hr'
    exact ⟨Nat.le_refl _, not_atRest_of_toReconcile hrec⟩
  show RestPc s pc
  generalize s.pc = pc₀ at hgoes hp
  cases hgoes with
  | deletes hr hp pc hpc => rcases hpc with rfl | ⟨x, -, rfl⟩ <;> trivial
  | places hr hp hh hrec | schedules hr hp hh hrec => exact htakes hr hrec
  | scheduled vm hh => exact hp
  | defers vm pc pc' hpc hpc' => rcases hpc' with rfl | rfl <;> trivial
  | _ => trivial

theorem rest_step (h : Rest s) (hc : Clean s) (hok : tidy s e) (hs : step s e = some s') :
    Rest s' := by
  cases step_kind hs with
  | db he hs =>
    subst he
    exact h.dbStep hc hok hs
  | call c he hs => exact h.callStep hc hs
  | crash he hs' =>
    subst hs'
    exact ⟨h.observed, h.off, trivial⟩
  | exits x v he hs' =>
    subst hs'
    have hman : ∀ y, (s.agents y).managed = none →
        ((s.setAgent x ((s.agents x).vmmExit v)).agents y).managed = none := by
      intro y hy
      rw [agents_setAgent]
      split
      · next hyx => exact ((s.agents x).vmmExit_tables v).1.mp (hyx ▸ hy)
      · exact hy
    exact ⟨h.observed, fun r hr hrest hno y hy => hman y (h.off r hr hrest hno y hy),
      h.pc.mono (same_row rfl) hman⟩
  | host x st he hs' =>
    subst hs'
    exact ⟨h.observed, h.off, h.pc.mono (same_row rfl) fun _ hy => hy⟩
  | api hs => exact h.apiStep hc hs
  | begins hs => exact h.beginStep hs

theorem rest_init (hi : Init s) : Rest s := by
  obtain ⟨hrow, -, -, hpc, -⟩ := hi
  refine ⟨?_, ?_, ?_⟩
  · intro r hr
    cases hrow.symm.trans hr
  · intro r hr
    cases hrow.symm.trans hr
  · rw [hpc]
    trivial

/-- **Nothing of a VM at rest is alive.** -/
theorem rest_anyAlive (h : Rest s) (hc : Clean s) (hr : s.row = some r) (hrest : r.atRest)
    (hno : s.activeMigration = false) (x : HostId) : (s.agents x).anyAlive = false := by
  have hhome : ∀ y, s.home = some (some y) → (s.agents y).managed = none := by
    intro y hy
    rw [home_of_row hr] at hy
    exact h.off r hr hrest hno y (some.inj hy)
  obtain ⟨hman, hpend⟩ := hc.tables_empty hhome (fun _ m hm => Clean.no_active hno hm) x
  simp [anyAlive, hman, hpend, hc.strays x]

end

end VQuasar.Lifecycle
