import VQuasar.Lifecycle.Location

/-!
# Settled means applied

A spec edit bumps `generation`, and `update_vm_observed` records the generation of the row the pass
has read, not the one the row has by then.  So a VM with `observed_generation = generation` should
have its current spec on its host.  `Tracked` adds to the lifecycle what that is about: the rest of
the spec, the row a pass reads and sends on, and what each agent last answered for.

* An edit that is committed while a pass is under way leaves the row in `list_vms_to_reconcile`, in
  every run (`Fresh`).
* A settled row is applied on its host in the runs that meet `calm`.  Outside of them `reconcile_vms`
  takes up a VM that is being sent: it applies the edit on the source and records it as observed, and
  `set_vm_host_running` then moves the row to a host that was prepared before the edit
  (`settled_not_applied`).
-/

namespace VQuasar.Lifecycle

open Runs List Option Function

/-! ## The tracked state -/

/-- A row's generation and spec as a pass has read them; `rest` is the spec but for
`desired_power_state`. -/
structure Carried (σ : Type) where
  generation : Nat
  desired : Power
  rest : σ
deriving DecidableEq, Repr

/-- The lifecycle with the spec, the row the pass works from, whether the generation was bumped
since that was read, and what each host's agent last answered successfully. -/
structure Tracked (σ : Type) where
  base : State
  rest : σ
  held : Carried σ
  bumped : Bool
  applied : HostId → Option (Carried σ)

/-- An event of the lifecycle, a write of the spec (`write_spec`) or a bare bump of the generation
(`touch_vms_using_security_group`). -/
inductive Move (σ : Type)
  | event (e : Event)
  | edit (desired : Power) (rest : σ)
  | touch

variable {σ : Type}

variable (t : Tracked σ)

namespace Tracked

def current : Carried σ :=
  match t.base.row with
  | some r => ⟨r.generation, r.desired, t.rest⟩
  | none => t.held

/-- What a pass reads: `list_vms_to_reconcile` once, and `get_vm` at the top of
`advance_migration`. -/
def read : Event → Option (Carried σ)
  | .beginReconcile => some t.current
  | .db =>
    match t.base.pc with
    | .advance _ => some t.current
    | _ => none
  | _ => none

end Tracked

/-- The host whose agent has answered when the pass goes from one point to the next: `EnsureVm`
returned a phase, `PrepareReceive` a URL. -/
def answeredBy : Pc → Pc → Option HostId
  | .ensureCall _ h, .observed _ _ => some h
  | .migrationCall m, .prepared _ _ => some m.targetHost
  | _, _ => none

/-- The tracked state after an event that takes the lifecycle to `s'`. -/
def Tracked.after (e : Event) (s' : State) : Tracked σ where
  base := s'
  rest := t.rest
  held := (t.read e).getD t.held
  bumped := (t.read e).isNone && (t.bumped || e.bumps)
  applied :=
    match answeredBy t.base.pc s'.pc with
    | some h => update t.applied h (some t.held)
    | none => t.applied

def trackedStep : Move σ → Option (Tracked σ)
  | .event e => (step t.base e).map (t.after e)
  | .edit desired rest =>
    some { t with base := t.base.setVmSpec desired, rest := rest, bumped := true }
  | .touch =>
    let base := t.base.updateRow fun r => { r with generation := r.generation + 1 }
    some { t with base := base, bumped := true }

def TrackedInit : Prop :=
  Init t.base ∧ t.held.generation = 0 ∧ ∀ h, t.applied h = none

/-! ## The condition -/

/-- The receiver is prepared and the VM is not on it yet. -/
def Migration.underWay (m : Migration) : Bool := m.state == .sending || m.state == .finalizing

/-- `reconcile_vms` takes the VM up only while none of its migrations is under way. -/
def calm : Move σ → Bool
  | .event .beginReconcile => t.base.migrations.all fun m => !m.underWay
  | _ => true

/-! ## What a pass holds -/

/-- What was read is not ahead of the row, and is the row's spec unless that was bumped since. -/
def Carried.Current (c : Carried σ) (rest : σ) (r : VmRow) : Prop :=
  c.generation ≤ r.generation ∧
    (c.generation = r.generation → c.desired = r.desired ∧ c.rest = rest)

/-- The row a pass of `reconcile_ensure` works from. -/
def Pc.vm? : Pc → Option VmRow
  | .schedule vm | .assign vm _ | .place vm _ | .ensureCall vm _ | .observed vm _ => some vm
  | _ => none

structure FreshRow (t : Tracked σ) (r : VmRow) : Prop where
  observed : r.observedGeneration ≤ t.held.generation
  held : t.held.Current t.rest r
  bumped : t.bumped → t.held.generation < r.generation
  applied : ∀ h c, t.applied h = some c → c.Current t.rest r

/-- What holds in every run: what a pass holds, and what it has sent, is the spec at the generation
it was read at, and nothing newer is recorded as observed. -/
structure Fresh (t : Tracked σ) : Prop where
  blank : t.base.born = false →
    Blank t.base ∧ t.held.generation = 0 ∧ ∀ h, t.applied h = none
  row : ∀ r, t.base.row = some r → FreshRow t r
  pass : ∀ vm, t.base.pc.vm? = some vm → t.held.generation = vm.generation

section

variable {t t' : Tracked σ} {s' : State} {e : Event} {r r' : VmRow} {c : Carried σ} {rest : σ}

theorem Carried.Current.of_lt (h : c.generation < r.generation) : c.Current rest r :=
  ⟨Nat.le_of_lt h, fun heq => absurd heq (Nat.ne_of_lt h)⟩

theorem Carried.Current.congr (h : c.Current rest r)
    (hg : r'.generation = r.generation) (hd : r'.desired = r.desired) : c.Current rest r' := by
  unfold Carried.Current
  rw [hg, hd]
  exact h

theorem Carried.Current.bump {rest' : σ} (h : c.Current rest r)
    (hg : r'.generation = r.generation + 1) : c.Current rest' r' := by
  refine .of_lt ?_
  have := h.1
  omega

open Tracked

theorem Tracked.read_eq (hr : t.base.row = some r) :
    t.read e = none ∨ t.read e = some ⟨r.generation, r.desired, t.rest⟩ := by
  have hcur : t.current = ⟨r.generation, r.desired, t.rest⟩ := by
    unfold current
    rw [hr]
  cases e with
  | beginReconcile => exact .inr (congrArg some hcur)
  | db =>
    simp only [read]
    split
    · exact .inr (congrArg some hcur)
    · exact .inl rfl
  | _ => exact .inl rfl

theorem Tracked.after_applied {h : HostId}
    (hc : (t.after e s').applied h = some c) : t.applied h = some c ∨ c = t.held := by
  simp only [after] at hc
  cases hans : answeredBy t.base.pc s'.pc with
  | some x =>
    simp only [hans] at hc
    by_cases hx : h = x
    · subst hx
      rw [update_self] at hc
      exact .inr (some.inj hc).symm
    · rw [update_of_ne hx] at hc
      exact .inl hc
  | none =>
    simp only [hans] at hc
    exact .inl hc

theorem Tracked.after_held (hread : t.read e = none) : (t.after e s').held = t.held := by
  simp [after, hread]

theorem Tracked.after_held_of_none (hr : t.base.row = none) : (t.after e s').held = t.held := by
  have hcur : t.current = t.held := by
    unfold current
    rw [hr]
  cases e with
  | beginReconcile => exact hcur
  | db =>
    simp only [after, read]
    split
    · exact hcur
    · rfl
  | _ => rfl

theorem Tracked.after_unanswered (hans : answeredBy t.base.pc s'.pc = none) :
    (t.after e s').applied = t.applied := by
  simp [after, hans]

theorem Tracked.after_answered {x : HostId} (hans : answeredBy t.base.pc s'.pc = some x) :
    (t.after e s').applied x = some t.held := by
  simp [after, hans]

theorem answeredBy_idle {pc pc' : Pc} (h : pc' = .idle) : answeredBy pc pc' = none := by
  subst h
  cases pc <;> rfl

theorem answeredBy_self (pc : Pc) : answeredBy pc pc = none := by
  cases pc <;> rfl

theorem FreshRow.after (h : FreshRow t r) (hr : t.base.row = some r) (he : e.bumps = false)
    (hg : r'.generation = r.generation) (hd : r'.desired = r.desired)
    (ho : r'.observedGeneration ≤ t.held.generation) : FreshRow (t.after e s') r' := by
  have hle := h.held.1
  refine ⟨?_, ?_, ?_, ?_⟩
  · rcases read_eq (e := e) hr with hread | hread
    · rw [after_held hread]
      exact ho
    · simp only [Tracked.after, hread, getD_some]
      omega
  · rcases read_eq (e := e) hr with hread | hread
    · rw [after_held hread]
      exact h.held.congr hg hd
    · simp only [Tracked.after, hread, getD_some]
      exact ⟨Nat.le_of_eq hg.symm, fun _ => ⟨hd.symm, rfl⟩⟩
  · intro hb
    simp only [Tracked.after, he, Bool.or_false, Bool.and_eq_true, isNone_iff_eq_none] at hb
    rw [Tracked.after_held hb.1, hg]
    exact h.bumped hb.2
  · intro x c hc
    rcases after_applied hc with hc | rfl
    · exact (h.applied x c hc).congr hg hd
    · exact h.held.congr hg hd

theorem FreshRow.bump (h : FreshRow t r) (hheld : t'.held = t.held) (happ : t'.applied = t.applied)
    (hg : r'.generation = r.generation + 1) (ho : r'.observedGeneration = r.observedGeneration) :
    FreshRow t' r' := by
  refine ⟨?_, ?_, ?_, ?_⟩
  · rw [hheld, ho]
    exact h.observed
  · rw [hheld]
    exact h.held.bump hg
  · intro _
    have := h.held.1
    rw [hheld, hg]
    omega
  · intro x c hc
    rw [happ] at hc
    exact (h.applied x c hc).bump hg

theorem DbGoes.vm {s : State} {pc pc' : Pc} {vm : VmRow} (h : DbGoes s pc pc')
    (hv : pc'.vm? = some vm) : pc.vm? = some vm := by
  cases h with
  | assigned | placed => exact hv
  | advanced m => rcases advanceMigration_cases s m with h | h | h | h <;> rw [h] at hv <;> cases hv
  | moved => cases hv
  | ends _ _ h => rcases h with rfl | rfl | rfl | rfl <;> cases hv

theorem step_vm {s : State} {vm : VmRow} (hs : step s e = some s') (hv : s'.pc.vm? = some vm) :
    (e = .beginReconcile ∧ s.row = some vm) ∨ (s.pc.vm? = some vm ∧ e ≠ .beginReconcile) := by
  cases step_kind hs with
  | db he hdb =>
    subst he
    exact .inr ⟨(dbStep_goes hdb).vm hv, by simp⟩
  | call c he hcall =>
    subst he
    have hgoes := (callStep_effect hcall).goes
    refine .inr ⟨?_, by simp⟩
    generalize s.pc = pc, s'.pc = pc' at hgoes hv
    cases hgoes with
    | ensured vm' h p => exact hv
    | failed m pc' hpc => rcases hpc with rfl | rfl <;> cases hv
    | _ => cases hv
  | crash he hs' =>
    subst hs'
    cases hv
  | exits x v he hs' | host x st he hs' =>
    subst he hs'
    exact .inr ⟨hv, by simp⟩
  | api hapi =>
    refine .inr ⟨(apiStep_effect hapi).pc ▸ hv, ?_⟩
    rintro rfl
    cases hapi
  | begins hbeg =>
    obtain ⟨pc, rfl, hgoes⟩ := beginStep_effect hbeg
    simp only [State.goto] at hv
    generalize s.pc = pc₀ at hgoes
    cases hgoes with
    | deletes hr hp pc hpc => rcases hpc with rfl | ⟨x, -, rfl⟩ <;> cases hv
    | places hr | schedules hr =>
      cases hv
      exact .inl ⟨rfl, hr⟩
    | scheduled vm' hh => exact .inr ⟨hv, by simp⟩
    | defers vm' _ _ _ hpc' => rcases hpc' with rfl | rfl <;> cases hv
    | _ => cases hv

theorem Tracked.read_none {vm : VmRow} (hv : t.base.pc.vm? = some vm) (he : e ≠ .beginReconcile) :
    t.read e = none := by
  cases e with
  | beginReconcile => exact absurd rfl he
  | db =>
    simp only [read]
    split
    · next m hpc =>
      rw [hpc] at hv
      cases hv
    · rfl
  | _ => rfl

theorem Fresh.event (h : Fresh t) (hs : step t.base e = some s') : Fresh (t.after e s') := by
  refine ⟨?_, ?_, ?_⟩
  · intro hb
    have hborn : t.base.born = false := by
      cases hold : t.base.born with
      | false => rfl
      | true => exact (step_born hs hold).symm.trans hb
    obtain ⟨hblank, hheld, happ⟩ := h.blank hborn
    obtain ⟨hpc, hstays⟩ := hblank.step hs
    refine ⟨hstays (hb.trans hborn.symm), ?_, ?_⟩
    · rw [after_held_of_none hblank.row]
      exact hheld
    · intro x
      rw [after_unanswered (answeredBy_idle hpc)]
      exact happ x
  · intro r' hr'
    rcases step_writes hs hr' with ⟨hborn, d, rfl, rfl⟩ | ⟨r, hr, hw⟩
    · obtain ⟨-, hheld, happ⟩ := h.blank hborn
      have hheld' : (t.after (.create d) s').held = t.held := rfl
      refine ⟨Nat.zero_le _, .of_lt ?_, fun _ => ?_, fun x c hc => .of_lt ?_⟩
      · rw [hheld', hheld]
        exact Nat.zero_lt_one
      · rw [hheld', hheld]
        exact Nat.zero_lt_one
      · rcases after_applied hc with hc | rfl
        · rw [happ] at hc
          cases hc
        · rw [hheld]
          exact Nat.zero_lt_one
    · have hrow := h.row r hr
      cases hw with
      | same he hg ho hh hd => exact hrow.after hr he hg hd (ho ▸ hrow.observed)
      | power d =>
        refine hrow.bump rfl (after_unanswered ?_) rfl rfl
        rw [(apiStep_effect (e := .setPower d) hs).pc]
        exact answeredBy_self _
      | assigned | moved => exact hrow.after hr rfl rfl rfl hrow.observed
      | observed hpc =>
        have hpass := h.pass _ (congrArg Pc.vm? hpc)
        exact hrow.after hr rfl rfl rfl (hpass ▸ Nat.le_refl _)
  · intro vm hv
    rcases step_vm hs hv with ⟨rfl, hr⟩ | ⟨hv, he⟩
    · simp [Tracked.after, Tracked.read, Tracked.current, hr]
    · rw [Tracked.after_held (Tracked.read_none hv he)]
      exact h.pass vm hv

theorem Fresh.bump (h : Fresh t) {f : VmRow → VmRow} (hg : ∀ r, (f r).generation = r.generation + 1)
    (ho : ∀ r, (f r).observedGeneration = r.observedGeneration) :
    Fresh { t with base := t.base.updateRow f, rest := rest, bumped := true } := by
  refine ⟨?_, ?_, h.pass⟩
  · intro hb
    obtain ⟨hblank, hheld, happ⟩ := h.blank hb
    refine ⟨⟨?_, hblank.migrations, hblank.requests, hblank.pc⟩, hheld, happ⟩
    simp [State.updateRow, hblank.row]
  · intro r' hr'
    obtain ⟨r, hr, rfl⟩ := map_eq_some_iff.mp hr'
    exact (h.row r hr).bump rfl rfl (hg r) (ho r)

theorem Fresh.step {mv : Move σ} (h : Fresh t) (hs : trackedStep t mv = some t') : Fresh t' := by
  cases mv with
  | event e =>
    obtain ⟨s', hs', rfl⟩ := map_eq_some_iff.mp hs
    exact h.event hs'
  | edit | touch =>
    cases hs
    exact h.bump (fun _ => rfl) fun _ => rfl

theorem fresh_init (h : TrackedInit t) : Fresh t := by
  obtain ⟨⟨hrow, hborn, hmig, hpc, -, hreq, -⟩, hheld, happ⟩ := h
  refine ⟨fun _ => ⟨⟨hrow, hmig, hreq, hpc⟩, hheld, happ⟩, ?_, ?_⟩
  · intro r hr
    rw [hrow] at hr
    cases hr
  · intro vm hv
    rw [hpc] at hv
    cases hv

theorem FreshRow.toReconcile (h : FreshRow t r) (hb : t.bumped) : r.toReconcile := by
  have hlt := h.bumped hb
  have hle := h.observed
  have hne : r.generation ≠ r.observedGeneration := by omega
  simp [VmRow.toReconcile, hne]

end

/-! ## Where a spec is applied -/

/-- The agent of `h` last answered for generation `g`. -/
def Tracked.appliedAt (h : HostId) (g : Nat) : Prop :=
  ∃ c, t.applied h = some c ∧ c.generation = g

def Tracked.noneUnderWay : Prop :=
  ∀ m ∈ t.base.migrations, m.underWay = false

/-- What a pass knows at each of its program points while the row is `r`. -/
def AtPc (r : VmRow) : Pc → Prop
  | .schedule _ | .assign _ _ => t.noneUnderWay ∧ r.hostId = none
  | .place _ h | .ensureCall _ h => t.noneUnderWay ∧ r.hostId = some h
  | .observed vm _ => t.noneUnderWay ∧ ∃ h, r.hostId = some h ∧ t.appliedAt h vm.generation
  | .advance m | .migrationCall m => m ∈ t.base.migrations
  | .prepared m _ => m ∈ t.base.migrations ∧
      ∃ c, t.applied m.targetHost = some c ∧ r.observedGeneration ≤ c.generation
  | .sent m => m ∈ t.base.migrations ∧ m.state = .sending
  | .finalized m | .discarded m => m ∈ t.base.migrations ∧ m.state = .finalizing
  | _ => True

structure AppliedRow (t : Tracked σ) (r : VmRow) : Prop where
  settled : r.observedGeneration = r.generation →
    ∃ h, r.hostId = some h ∧ t.appliedAt h r.generation
  moving : r.observedGeneration = r.generation →
    ∀ m ∈ t.base.migrations, m.underWay → t.appliedAt m.targetHost r.generation
  pc : AtPc t r t.base.pc

/-- A settled row is applied on its host, and on the host it is about to move to. -/
structure Applied (t : Tracked σ) : Prop where
  ids : ∀ (i : Nat) (m : Migration), t.base.migrations[i]? = some m → m.id = i
  row : ∀ r, t.base.row = some r → AppliedRow t r

section

variable {t t' : Tracked σ} {s' : State} {e : Event} {r r' : VmRow}

variable {pc : Pc} {f : VmRow → VmRow}

theorem AtPc.congr (h : AtPc t r pc) (happ : t'.applied = t.applied)
    (ho : r'.observedGeneration = r.observedGeneration) (hh : r'.hostId = r.hostId)
    (hsub : ∀ m ∈ t.base.migrations, m ∈ t'.base.migrations)
    (hnew : ∀ m ∈ t'.base.migrations, m.underWay → m ∈ t.base.migrations) : AtPc t' r' pc := by
  have hnone : t.noneUnderWay → t'.noneUnderWay := by
    intro hnone m hm
    cases hu : m.underWay with
    | false => rfl
    | true => exact hu.symm.trans (hnone m (hnew m hm hu))
  cases pc with
  | schedule | assign | place | ensureCall => exact ⟨hnone h.1, hh.trans h.2⟩
  | observed vm p =>
    obtain ⟨hn, x, hx, c, hc, hcg⟩ := h
    exact ⟨hnone hn, x, hh.trans hx, c, happ ▸ hc, hcg⟩
  | advance m | migrationCall m => exact hsub m h
  | prepared m url =>
    obtain ⟨hm, c, hc, hle⟩ := h
    exact ⟨hsub m hm, c, happ ▸ hc, ho ▸ hle⟩
  | sent m | finalized m | discarded m => exact ⟨hsub m h.1, h.2⟩
  | _ => trivial

theorem AppliedRow.kept (h : AppliedRow t r) (happ : t'.applied = t.applied)
    (hg : r'.generation = r.generation) (ho : r'.observedGeneration = r.observedGeneration)
    (hh : r'.hostId = r.hostId)
    (hnew : ∀ m ∈ t'.base.migrations, m.underWay → m ∈ t.base.migrations)
    (hpc : AtPc t' r' t'.base.pc) : AppliedRow t' r' := by
  refine ⟨?_, ?_, hpc⟩
  · intro hset
    obtain ⟨x, hx, c, hc, hcg⟩ := h.settled (by omega)
    exact ⟨x, hh.trans hx, c, happ ▸ hc, hcg.trans hg.symm⟩
  · intro hset m hm hu
    obtain ⟨c, hc, hcg⟩ := h.moving (by omega) m (hnew m hm hu) hu
    exact ⟨c, happ ▸ hc, hcg.trans hg.symm⟩

theorem AppliedRow.bump (h : AppliedRow t r) (hf : FreshRow t r) (happ : t'.applied = t.applied)
    (hmig : t'.base.migrations = t.base.migrations) (hpc : t'.base.pc = t.base.pc)
    (hg : r'.generation = r.generation + 1) (ho : r'.observedGeneration = r.observedGeneration)
    (hh : r'.hostId = r.hostId) : AppliedRow t' r' := by
  have hlt : r'.observedGeneration < r'.generation := by
    have h1 := hf.observed
    have h2 := hf.held.1
    omega
  refine ⟨fun hset => ?_, fun hset => ?_, ?_⟩
  · omega
  · omega
  · rw [hpc]
    exact h.pc.congr happ ho hh (fun _ hm => hmig ▸ hm) fun _ hm _ => hmig ▸ hm

/-- Whatever agent answers for what the pass holds: a settled row is held as it is. -/
theorem Tracked.appliedAt_after {y : HostId} (hf : FreshRow t r)
    (hset : r.observedGeneration = r.generation) (hy : t.appliedAt y r.generation) :
    (t.after e s').appliedAt y r.generation := by
  obtain ⟨c, hc, hcg⟩ := hy
  have hheld : t.held.generation = r.generation := by
    have h1 := hf.observed
    have h2 := hf.held.1
    omega
  unfold appliedAt
  simp only [after]
  cases hans : answeredBy t.base.pc s'.pc with
  | none => exact ⟨c, hc, hcg⟩
  | some z =>
  by_cases hyz : y = z
  · subst hyz
    exact ⟨t.held, update_self .., hheld⟩
  · exact ⟨c, (update_of_ne hyz ..).trans hc, hcg⟩

/-- An agent call leaves the rows; what it answers for is what the pass holds. -/
theorem AppliedRow.call {c : Call} (h : AppliedRow t r) (hf : Fresh t) (hr : t.base.row = some r)
    (hs : callStep t.base c = some s') : AppliedRow (t.after (.call c) s') r := by
  have heff := callStep_effect hs
  have hfr := hf.row r hr
  refine ⟨?_, ?_, ?_⟩
  · intro hset
    obtain ⟨x, hx, happ⟩ := h.settled hset
    exact ⟨x, hx, Tracked.appliedAt_after hfr hset happ⟩
  · intro hset m hm hu
    have hm' : m ∈ t.base.migrations := heff.migrations ▸ hm
    exact Tracked.appliedAt_after hfr hset (h.moving hset m hm' hu)
  · have hpc := h.pc
    have hgoes := heff.goes
    have hmig : (t.after (.call c) s').base.migrations = t.base.migrations := heff.migrations
    show AtPc _ r s'.pc
    generalize hpc₀ : t.base.pc = pc₀ at hgoes hpc
    generalize hpc₁ : s'.pc = pc₁ at hgoes
    cases hgoes with
    | ensured vm x p =>
      have hans : answeredBy t.base.pc s'.pc = some x := by
        rw [hpc₀, hpc₁]
        rfl
      have hgen := hf.pass vm (congrArg Pc.vm? hpc₀)
      refine ⟨fun m hm => hpc.1 m (hmig ▸ hm), x, hpc.2, t.held, ?_, hgen⟩
      exact Tracked.after_answered hans
    | @prepared m hm url =>
      have hans : answeredBy t.base.pc s'.pc = some m.targetHost := by
        rw [hpc₀, hpc₁]
        rfl
      exact ⟨hmig ▸ hpc, t.held, Tracked.after_answered hans, hfr.observed⟩
    | sent hm | finalized hm | unsourced hm => exact ⟨hmig ▸ hpc, hm⟩
    | failed m pc hfailed => rcases hfailed with rfl | rfl <;> trivial
    | discarded m => exact ⟨hmig ▸ hpc.1, hpc.2⟩
    | _ => trivial

/-- A pass of `reconcile_ensure` starts only while no migration is under way. -/
theorem AppliedRow.begins (h : AppliedRow t r) (hr : t.base.row = some r)
    (hok : calm t (.event e)) (hs : beginStep t.base e = some s') :
    AppliedRow (t.after e s') r := by
  obtain ⟨pc, rfl, hgoes⟩ := beginStep_effect hs
  have hpc := h.pc
  have happ : (t.after e (t.base.goto pc)).applied = t.applied := by
    refine Tracked.after_unanswered ?_
    show answeredBy t.base.pc pc = none
    generalize t.base.pc = pc₀ at hgoes
    cases hgoes with
    | defers vm _ _ hpc hpc' =>
      rcases hpc with rfl | ⟨x, rfl⟩ <;> rcases hpc' with rfl | rfl <;> rfl
    | _ => rfl
  refine h.kept happ rfl rfl rfl (fun m hm _ => hm) ?_
  show AtPc _ r pc
  generalize t.base.pc = pc₀ at hgoes hpc
  cases hgoes with
  | deletes _ _ _ hpc' => rcases hpc' with rfl | ⟨x, -, rfl⟩ <;> trivial
  | places hr' _ hh | schedules hr' _ hh =>
    obtain rfl : r = _ := mem_unique hr hr'
    refine ⟨fun m hm => ?_, hh⟩
    simpa using all_eq_true.mp hok m hm
  | advances hm _ => exact hm
  | scheduled vm _ => exact hpc
  | defers vm _ _ _ hpc' => rcases hpc' with rfl | rfl <;> trivial
  | _ => trivial

theorem Applied.migration_eq (h : Applied t) {m m' : Migration} (hm : m ∈ t.base.migrations)
    (hm' : m' ∈ t.base.migrations) (hid : m'.id = m.id) : m' = m := by
  obtain ⟨i, hi⟩ := mem_iff_getElem?.mp hm
  obtain ⟨j, hj⟩ := mem_iff_getElem?.mp hm'
  obtain rfl : j = i := by rw [← h.ids i m hi, ← h.ids j m' hj, hid]
  exact mem_unique hj hi

/-- A statement of the pass that writes the row but for its generations and its host. -/
theorem AppliedRow.statement (h : AppliedRow t r)
    (hr : t.base.row = some r) (hr' : (t.base.updateRow f).row = some r')
    (hg : ∀ r, (f r).generation = r.generation)
    (ho : ∀ r, (f r).observedGeneration = r.observedGeneration)
    (hh : ∀ r, (f r).hostId = r.hostId) (hans : answeredBy t.base.pc pc = none)
    (hpc : AtPc (t.after .db ((t.base.updateRow f).goto pc)) r' pc) :
    AppliedRow (t.after .db ((t.base.updateRow f).goto pc)) r' := by
  obtain ⟨r₀, hr₀, rfl⟩ := map_eq_some_iff.mp hr'
  obtain rfl : r = r₀ := mem_unique hr hr₀
  exact h.kept (Tracked.after_unanswered hans) (hg r) (ho r) (hh r) (fun m hm _ => hm) hpc

/-- `update_migration`: the migrations with the id go to the state `st`, which is one under way only
if their target has the spec. -/
theorem AppliedRow.migration {id : Nat} {st : MigrationState} {url : Option Url}
    (h : AppliedRow t r) (hans : answeredBy t.base.pc pc = none)
    (hst : r.observedGeneration = r.generation → st = .sending ∨ st = .finalizing →
      ∀ m ∈ t.base.migrations, m.id = id → t.appliedAt m.targetHost r.generation)
    (hpc : AtPc (t.after .db ((t.base.updateMigration id st url).goto pc)) r pc) :
    AppliedRow (t.after .db ((t.base.updateMigration id st url).goto pc)) r := by
  have happ : (t.after .db ((t.base.updateMigration id st url).goto pc)).applied = t.applied :=
    Tracked.after_unanswered hans
  refine ⟨?_, ?_, hpc⟩
  · intro hset
    obtain ⟨x, hx, c, hc, hcg⟩ := h.settled hset
    exact ⟨x, hx, c, happ ▸ hc, hcg⟩
  · intro hset m hm hu
    suffices hat : t.appliedAt m.targetHost r.generation by
      obtain ⟨c, hc, hcg⟩ := hat
      exact ⟨c, happ ▸ hc, hcg⟩
    obtain ⟨m₀, hm₀, rfl⟩ := mem_map.mp hm
    by_cases hid : m₀.id = id
    · rw [if_pos hid] at hu ⊢
      exact hst hset (by simpa [Migration.underWay] using hu) m₀ hm₀ hid
    · rw [if_neg hid] at hu ⊢
      exact h.moving hset m₀ hm₀ hu

theorem Applied.db (h : Applied t) (hf : Fresh t) (hr : t.base.row = some r)
    (hs : dbStep t.base = some s') (hr' : s'.row = some r') : AppliedRow (t.after .db s') r' := by
  have hrow := h.row r hr
  have hfr := hf.row r hr
  have hat := hrow.pc
  have hsame : ∀ pc, (t.base.goto pc).row = some r' → r' = r := by
    intro pc hpc
    exact mem_unique hpc hr
  -- the row of a statement that only writes it
  have hold : ∀ {f : VmRow → VmRow}, (t.base.updateRow f).row = some r' → r' = f r := by
    intro f hf
    obtain ⟨r₀, hr₀, rfl⟩ := map_eq_some_iff.mp hf
    rw [mem_unique hr hr₀]
  cases dbStep_leaves hs with
  | @assigned vm x hpc =>
    rw [hpc] at hat
    obtain rfl := hold hr'
    have happ : (t.after .db ((t.base.assignVmHost x).goto (.place vm x))).applied = t.applied :=
      Tracked.after_unanswered (by rw [hpc]; rfl)
    refine ⟨?_, ?_, hat.1, rfl⟩
    · -- a settled row has a host
      intro hset
      obtain ⟨y, hy, -⟩ := hrow.settled hset
      simp [hat.2] at hy
    · intro hset m hm hu
      obtain ⟨c, hc, hcg⟩ := hrow.moving hset m hm hu
      exact ⟨c, happ ▸ hc, hcg⟩
  | placed hpc =>
    rw [hpc] at hat
    obtain rfl := hsame _ hr'
    exact hrow.kept (Tracked.after_unanswered (by rw [hpc]; rfl)) rfl rfl rfl (fun m hm _ => hm) hat
  | @deferred vm x hpc =>
    obtain rfl := hsame _ hr'
    refine hrow.kept (Tracked.after_unanswered (by rw [hpc]; rfl)) rfl rfl rfl (fun m hm _ => hm) ?_
    show AtPc _ r' (reconciled vm)
    rcases reconciled_cases vm with hq | hq <;> rw [hq] <;> trivial
  | @observed vm p hpc =>
    rw [hpc] at hat
    obtain rfl := hold hr'
    have happ : (t.after .db ((t.base.updateVmObserved p vm.generation).goto
        (reconciled vm))).applied = t.applied :=
      Tracked.after_unanswered (by rw [hpc]; rfl)
    obtain ⟨hnone, y, hy, c, hc, hcg⟩ := hat
    refine ⟨?_, ?_, ?_⟩
    · intro hset
      exact ⟨y, hy, c, happ ▸ hc, hcg.trans hset⟩
    · intro _ m hm hu
      exact absurd ((hnone m hm).symm.trans hu) (by simp)
    · show AtPc _ _ (reconciled vm)
      rcases reconciled_cases vm with hq | hq <;> rw [hq] <;> trivial
  | cleared hpc | gaveUp hpc | marked hpc | restored hpc =>
    exact hrow.statement hr hr' (fun _ => rfl) (fun _ => rfl) (fun _ => rfl) (by rw [hpc]; rfl) trivial
  | rowGone hpc =>
    obtain rfl := hsame _ hr'
    exact hrow.kept (Tracked.after_unanswered (by rw [hpc]; rfl)) rfl rfl rfl (fun m hm _ => hm) trivial
  | noted hpc pc hnext =>
    refine hrow.statement hr hr' (fun _ => rfl) (fun _ => rfl) (fun _ => rfl) (by rw [hpc]; rfl) ?_
    rcases hnext with rfl | rfl <;> trivial
  | deleted => cases hr'
  | @advanced m hpc =>
    rw [hpc] at hat
    obtain rfl := hsame _ hr'
    refine hrow.kept (Tracked.after_unanswered (by rw [hpc]; rfl)) rfl rfl rfl (fun m hm _ => hm) ?_
    show AtPc _ r' (advanceMigration t.base m)
    rcases advanceMigration_cases t.base m with hq | hq | hq | hq <;> rw [hq]
    · trivial
    · exact hat
    · trivial
    · trivial
  | sending hpc =>
    rw [hpc] at hat
    obtain rfl : r' = r := mem_unique hr' hr
    obtain ⟨hm, c, hc, hle⟩ := hat
    refine hrow.migration (by rw [hpc]; rfl) ?_ trivial
    intro hset _ m₀ hm₀ hid
    obtain rfl := h.migration_eq hm hm₀ hid
    have hcle := (hfr.applied _ c hc).1
    exact ⟨c, hc, by omega⟩
  | finalizing hpc =>
    rw [hpc] at hat
    obtain rfl : r' = r := mem_unique hr' hr
    refine hrow.migration (by rw [hpc]; rfl) ?_ trivial
    intro hset _ m₀ hm₀ hid
    obtain rfl := h.migration_eq hat.1 hm₀ hid
    exact hrow.moving hset m₀ hm₀ (by simp [Migration.underWay, hat.2])
  | @moved m hpc =>
    rw [hpc] at hat
    obtain rfl := hold hr'
    have happ : (t.after .db ((t.base.setVmHostRunning m.targetHost).goto (.moved m))).applied =
        t.applied :=
      Tracked.after_unanswered (by rw [hpc]; rfl)
    refine ⟨?_, ?_, trivial⟩
    · intro hset
      obtain ⟨c, hc, hcg⟩ := hrow.moving hset m hat.1 (by simp [Migration.underWay, hat.2])
      exact ⟨m.targetHost, rfl, c, happ ▸ hc, hcg⟩
    · intro hset m' hm' hu
      obtain ⟨c, hc, hcg⟩ := hrow.moving hset m' hm' hu
      exact ⟨c, happ ▸ hc, hcg⟩
  | completed hpc | failed hpc =>
    obtain rfl : r' = r := mem_unique hr' hr
    exact hrow.migration (by rw [hpc]; rfl) (fun _ hst => nomatch hst) trivial

theorem ApiEffect.underWay {s : State} (h : ApiEffect s e s') :
    (∀ m ∈ s.migrations, m ∈ s'.migrations) ∧
      ∀ m ∈ s'.migrations, m.underWay → m ∈ s.migrations := by
  rcases h.migrations with hmig | ⟨x, y, hmig⟩
  · exact ⟨fun m hm => hmig ▸ hm, fun m hm _ => hmig ▸ hm⟩
  refine ⟨fun m hm => ?_, fun m hm hu => ?_⟩
  · rw [hmig]
    exact mem_append_left _ hm
  · rw [hmig] at hm
    rcases mem_append.mp hm with hm | hm
    · exact hm
    · obtain rfl := mem_singleton.mp hm
      cases hu

section

variable (h : Applied t) (hf : Fresh t)
include h hf

theorem Applied.api (hs : apiStep t.base e = some s')
    (hr' : s'.row = some r') : AppliedRow (t.after e s') r' := by
  have heff := apiStep_effect hs
  have happ : (t.after e s').applied = t.applied := by
    refine Tracked.after_unanswered ?_
    rw [heff.pc]
    exact answeredBy_self _
  rcases heff.row r' hr' with ⟨hborn, d, rfl, rfl⟩ | ⟨r, hr, hw⟩
  · -- a new row is not settled, and no pass has seen it
    refine ⟨fun hset => (nomatch hset), fun hset => (nomatch hset), ?_⟩
    show AtPc _ _ s'.pc
    rw [heff.pc, (hf.blank hborn).1.pc]
    trivial
  · have hrow := h.row r hr
    have hpc : ∀ r'', r''.observedGeneration = r.observedGeneration → r''.hostId = r.hostId →
        AtPc (t.after e s') r'' s'.pc := by
      intro r'' ho hh
      rw [heff.pc]
      exact hrow.pc.congr happ ho hh heff.underWay.1 heff.underWay.2
    cases hw with
    | same he hg ho hh hd => exact hrow.kept happ hg ho hh heff.underWay.2 (hpc _ ho hh)
    | power d =>
      cases hs
      exact hrow.bump (hf.row r hr) happ rfl rfl rfl rfl rfl
    | assigned | observed | moved => cases hs

theorem Applied.event (hok : calm t (.event e))
    (hs : step t.base e = some s') : Applied (t.after e s') := by
  refine ⟨Numbered.step h.ids hs, ?_⟩
  intro r' hr'
  cases step_kind hs with
  | db he hdb =>
    subst he
    obtain ⟨r, hr, -⟩ := writes_dbStep hdb hr'
    exact h.db hf hr hdb hr'
  | call c he hcall =>
    subst he
    have hr : t.base.row = some r' := (callStep_effect hcall).row ▸ hr'
    exact (h.row r' hr).call hf hr hcall
  | crash he hs' =>
    subst he hs'
    exact (h.row r' hr').kept (Tracked.after_unanswered (answeredBy_idle rfl)) rfl rfl rfl
      (fun m hm _ => hm) trivial
  | exits x v he hs' =>
    subst he hs'
    have hrow := h.row r' hr'
    have happ : (t.after (.vmmExit x v) (t.base.setAgent x ((t.base.agents x).vmmExit v))).applied =
        t.applied := Tracked.after_unanswered (answeredBy_self t.base.pc)
    exact hrow.kept happ rfl rfl rfl (fun m hm _ => hm)
      (hrow.pc.congr happ rfl rfl (fun _ hm => hm) fun _ hm _ => hm)
  | host x st he hs' =>
    subst he hs'
    have hrow := h.row r' hr'
    have happ : (t.after (.hostState x st)
        { t.base with hosts := update t.base.hosts x st }).applied = t.applied :=
      Tracked.after_unanswered (answeredBy_self t.base.pc)
    exact hrow.kept happ rfl rfl rfl (fun m hm _ => hm)
      (hrow.pc.congr happ rfl rfl (fun _ hm => hm) fun _ hm _ => hm)
  | api hapi => exact h.api hf hapi hr'
  | begins hbeg =>
    have hr : t.base.row = some r' := by
      obtain ⟨pc, rfl, -⟩ := beginStep_effect hbeg
      exact hr'
    exact (h.row r' hr).begins hr hok hbeg

theorem Applied.bump {rest : σ} (hg : ∀ r, (f r).generation = r.generation + 1)
    (ho : ∀ r, (f r).observedGeneration = r.observedGeneration)
    (hh : ∀ r, (f r).hostId = r.hostId) :
    Applied { t with base := t.base.updateRow f, rest := rest, bumped := true } := by
  refine ⟨h.ids, ?_⟩
  intro r' hr'
  obtain ⟨r, hr, rfl⟩ := map_eq_some_iff.mp hr'
  exact (h.row r hr).bump (hf.row r hr) rfl rfl rfl (hg r) (ho r) (hh r)

theorem Applied.step {mv : Move σ} (hok : calm t mv)
    (hs : trackedStep t mv = some t') : Applied t' := by
  cases mv with
  | event e =>
    obtain ⟨s', hs', rfl⟩ := map_eq_some_iff.mp hs
    exact h.event hf hok hs'
  | edit | touch =>
    cases hs
    exact h.bump hf (fun _ => rfl) (fun _ => rfl) fun _ => rfl

end

theorem applied_init (h : TrackedInit t) : Applied t := by
  obtain ⟨⟨hrow, -, hmig, -⟩, -⟩ := h
  refine ⟨?_, ?_⟩
  · intro i m hm
    simp [hmig] at hm
  · intro r hr
    simp [hrow] at hr

end

theorem Applied.of_reach {t : Tracked σ}
    (h : Reach trackedStep (fun t mv => calm t mv = true) TrackedInit t) : Fresh t ∧ Applied t := by
  induction h with
  | start t h => exact ⟨fresh_init h, applied_init h⟩
  | next t t' mv _ hok hs ih => exact ⟨ih.1.step hs, ih.2.step ih.1 hok hs⟩

/-! ## In every run -/

/-- **Settled means applied.**  In every run that meets the condition, a row with
`observed_generation = generation` has its current spec applied on its host; and in every run, a
bump after a pass had read the row keeps it listed until a pass reads it again. -/
theorem settled_applied {t : Tracked σ} :
    (Reach trackedStep (fun t mv => calm t mv = true) TrackedInit t → ∀ r, t.base.row = some r →
      r.observedGeneration = r.generation → r.phase = .running ∨ r.phase = .stopped →
      ∃ h c, r.hostId = some h ∧ t.applied h = some c ∧ c.desired = r.desired ∧ c.rest = t.rest) ∧
    (Reach trackedStep anyStep TrackedInit t → t.bumped → ∀ r, t.base.row = some r →
      r.toReconcile) := by
  refine ⟨?_, ?_⟩
  · intro hrun r hr hset _
    obtain ⟨hfresh, happ⟩ := Applied.of_reach hrun
    obtain ⟨h, hh, c, hc, hcg⟩ := (happ.row r hr).settled hset
    exact ⟨h, c, hh, hc, ((hfresh.row r hr).applied h c hc).2 hcg⟩
  · intro hrun hb r hr
    have hinv : Fresh t :=
      Reach.invariant (fun _ => fresh_init) (fun _ _ _ hi _ hs => hi.step hs) hrun
    exact (hinv.row r hr).toReconcile hb

def trackedStart : Tracked Nat := ⟨start, 0, ⟨0, .running, 0⟩, false, fun _ => none⟩

theorem trackedStart_init : TrackedInit trackedStart := ⟨start_init, rfl, fun _ => rfl⟩

/-- The VM boots on host 0, is edited, and the next pass applies the edit. -/
def edited : Tracked Nat :=
  final trackedStep trackedStart (bootOnZero.map .event ++ [.edit .running 7] ++
    [Event.beginReconcile, .db, .call plainCall, .db].map .event)

/-- After the pass the row is settled and host 0 has the edited spec; the edit before it had left the
row listed. -/
theorem settled_applied_edited : (∃ h c, h = 0 ∧ edited.applied h = some c ∧ c.rest = 7) ∧
      (final trackedStep trackedStart (bootOnZero.map .event ++ [.edit .running 7])).base.row.all
        (·.toReconcile) := by
  have hrun : Reach trackedStep (fun t mv => calm t mv = true) TrackedInit edited :=
    Reach.final (fun _ _ h => h) trackedStart_init (by decide) (by decide)
  have hrow : edited.base.row = some ⟨.running, some 0, .running, 2, 2, 0⟩ := by decide
  obtain ⟨h, c, hh, hc, -, hrest⟩ := settled_applied.1 hrun _ hrow rfl (.inl rfl)
  have hrun' : Reach trackedStep anyStep TrackedInit
      (final trackedStep trackedStart (bootOnZero.map .event ++ [.edit .running 7])) :=
    Reach.final_anyStep trackedStart_init (by decide)
  refine ⟨⟨h, c, (some.inj hh).symm, hc, hrest.trans (by decide)⟩, ?_⟩
  have hrow' : (final trackedStep trackedStart
      (bootOnZero.map .event ++ [.edit .running 7])).base.row =
      some ⟨.running, some 0, .running, 2, 1, 0⟩ := by decide
  rw [hrow']
  exact settled_applied.2 hrun' (by decide) _ hrow'

/-- The receiver on host 1 is prepared while the request that inserted the migration has not set the
phase yet; the VM is edited, reconciled on host 0, and then sent. -/
def editedWhileSent : List (Move Nat) :=
  bootOnZero.map .event ++
    [Event.migrateRead 1, .migrateCheck 0, .migrateInsert 0,
      .beginMigration ⟨0, some 0, 1, .pending, none⟩, .db, .call plainCall, .db].map .event ++
    [.edit .running 7] ++
    [Event.beginReconcile, .db, .call plainCall, .db,
      .beginMigration ⟨0, some 0, 1, .sending, some ⟨1, 0⟩⟩, .db, .call plainCall, .db].map .event ++
    completeToOne.map .event

/-- **Settled, not applied.**  `reconcile_vms` takes up a VM whose receiver is already prepared: the
row ends up settled on host 1, whose agent was last asked with the spec before the edit. -/
theorem settled_not_applied :
    ∃ t : Tracked Nat, Reach trackedStep anyStep TrackedInit t ∧ t.rest = 7 ∧
      t.base.row = some ⟨.running, some 1, .running, 2, 2, 0⟩ ∧
      t.applied 1 = some ⟨1, .running, 0⟩ := by
  refine ⟨final trackedStep trackedStart editedWhileSent, ?_, by decide, by decide, by decide⟩
  exact Reach.final_anyStep trackedStart_init (by decide)

end VQuasar.Lifecycle
