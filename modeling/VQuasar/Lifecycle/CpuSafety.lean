import VQuasar.Lifecycle.Location
import VQuasar.Tenancy.Vms

/-!
# The CPU that a migrated guest finds

`migrate` and `drain` compare the CPUs of two hosts when they take a request.  A guest that has come
along a chain of migrations was booted on the first of its hosts, which most of the checks do not
name.  `Guests` keeps with a state the hosts on which what is on a host may have been booted.
-/

namespace VQuasar.Lifecycle

open Runs List Option AgentVm
open Tenancy (Host cpuCompat CpuCompat)

structure Guests where
  state : State
  bootedOn : HostId → List HostId

/-- What a step adds for host `y`: an `ensure` boots the guest where it is called, unless it runs
there, and a transfer takes it to the host of the URL. -/
def Guests.arrivals (g : Guests) (y : HostId) : Event → List HostId
  | .call _ =>
    match g.state.pc with
    | .ensureCall _ x => if y = x ∧ (g.state.agents x).managed ≠ some .running then [x] else []
    | .migrationCall m =>
      match m.state, m.sourceHost, m.migrationUrl with
      | .sending, some x, some u => if y = u.host then g.bootedOn x else []
      | _, _, _ => []
    | _ => []
  | _ => []

def guestStep (g : Guests) (e : Event) : Option Guests :=
  (step g.state e).map fun s => ⟨s, fun y => g.arrivals y e ++ g.bootedOn y⟩

def GuestInit (g : Guests) : Prop := Init g.state ∧ ∀ x, g.bootedOn x = []

/-- A request to migrate passes the check of `migrate` without `force`, and that of `drain`. -/
def unforced (cpu : HostId → Host) (s : State) : Event → Bool
  | .migrateRead t => s.row.all fun r => r.hostId.all fun x => (cpuCompat (cpu x) (cpu t)).permitted
  | _ => true

/-- The target has the vendor of the source, and all its features. -/
def Covers (source target : Host) : Prop :=
  source.cpuVendor = target.cpuVendor ∧ source.cpuFeatures ⊆ target.cpuFeatures

/-- The ends of the migration have been compared, and its URL is one of the host it goes to. -/
def Paired (cpu : HostId → Host) (m : Migration) : Prop :=
  (∀ x, m.sourceHost = some x → Covers (cpu x) (cpu m.targetHost)) ∧
    ∀ u, m.migrationUrl = some u → u.host = m.targetHost

structure Screened (cpu : HostId → Host) (g : Guests) : Prop where
  hand : InHand g.state
  requests : ∀ q ∈ g.state.requests, Covers (cpu q.source) (cpu q.target)
  migrations : ∀ m ∈ g.state.migrations, Paired cpu m
  prepared : ∀ m u, g.state.pc = .prepared m u → u.host = m.targetHost
  pending : ∀ x p, (g.state.agents x).pending = some p → p.returnUrl.host = x
  origins : ∀ x, ∀ b ∈ g.bootedOn x, Covers (cpu b) (cpu x)
  booted : ∀ x, g.state.executing x → g.bootedOn x ≠ []

variable {cpu : HostId → Host} {s s' : State} {b : HostId → List HostId} {e : Event} {c : Call}
  {x : HostId} {a a' : AgentVm} {m : Migration} {u : Url}

theorem Covers.trans {h₁ h₂ h₃ : Host} (h : Covers h₁ h₂) (h' : Covers h₂ h₃) : Covers h₁ h₃ :=
  ⟨h.1.trans h'.1, List.Subset.trans h.2 h'.2⟩

theorem covers_of_permitted {source target : Host}
    (hs : source.cpuVendor ≠ none ∧ source.cpuFeatures ≠ [])
    (ht : target.cpuVendor ≠ none ∧ target.cpuFeatures ≠ [])
    (h : (cpuCompat source target).permitted) : Covers source target := by
  obtain ⟨v, hv⟩ := ne_none_iff_exists'.mp hs.1
  obtain ⟨v', hv'⟩ := ne_none_iff_exists'.mp ht.1
  unfold cpuCompat at h
  rw [hv, hv'] at h
  by_cases hvv : v = v'
  · by_cases hsub : ∀ f ∈ source.cpuFeatures, f ∈ target.cpuFeatures
    · exact ⟨by rw [hv, hv', hvv], hsub⟩
    · simp [hvv, hs.2, ht.2, hsub, CpuCompat.permitted] at h
  · simp [hvv, CpuCompat.permitted] at h

/-! ## The guests of a host -/

/-- What a step leaves on host `y`: a guest that was there or whose origin is known, and receivers
of this host. -/
structure Traced (g : Guests) (e : Event) (y : HostId) (a' : AgentVm) : Prop where
  executing : a'.executing → g.state.executing y ∨ g.arrivals y e ≠ []
  pending : ∀ p', a'.pending = some p' →
    p'.returnUrl.host = y ∨ ∃ p, (g.state.agents y).pending = some p ∧ p.returnUrl = p'.returnUrl

theorem traced_same : Traced ⟨s, b⟩ e x (s.agents x) := ⟨.inl, fun p hp => .inr ⟨p, hp, rfl⟩⟩

theorem traced_setAgent (h : Traced ⟨s, b⟩ e x a) (y : HostId) :
    Traced ⟨s, b⟩ e y ((s.setAgent x a).agents y) := by
  rw [agents_setAgent]
  split
  · next hy => exact hy ▸ h
  · exact traced_same

theorem traced_dropped : Traced ⟨s, b⟩ e x { (s.agents x).dropPending with managed := none } where
  executing h := by
    have hl : (s.agents x).dropPending.loose := by
      simpa [executing, loose] using h
    exact .inl (executing_of_loose ((s.agents x).dropPending_loose ▸ hl))
  pending p' hp' := by simp [dropPending_pending] at hp'

theorem traced_prepareReceive {f : ReceiveFaults} {n : Nat} {r : Except AgentError Url}
    (h : (s.agents x).prepareReceive f x n = some (a, r)) : Traced ⟨s, b⟩ e x a := by
  obtain ⟨hman, hloose, -, -, hpend, -⟩ := prepareReceive_spec h
  refine ⟨fun he => .inl ?_, fun p' hp' => ?_⟩
  · rwa [executing_iff, hman, hloose, ← executing_iff] at he
  · rcases hpend with hsame | ⟨p, hp, hu, -⟩
    · exact .inr ⟨p', hsame ▸ hp', rfl⟩
    · rw [mem_unique hp' hp, hu]
      exact .inl rfl

theorem traced_finalizeReceive {r : Except AgentError Phase}
    (h : (s.agents x).finalizeReceive = some (a, r)) : Traced ⟨s, b⟩ e x a := by
  rcases finalizeReceive_spec h with ⟨rfl, -⟩ | ⟨p, -, hp, rfl⟩ | ⟨p, -, -, hp, -, -, rfl⟩
  · exact traced_same
  · refine ⟨fun he => .inl ?_, fun p' hp' => (nomatch hp')⟩
    simp only [State.executing, executing, loose, hp] at he ⊢
    simp_all
  · refine ⟨fun he => .inl ?_, ?_⟩
    · simp only [State.executing, executing, loose, hp] at he ⊢
      simpa using he
    · rintro p' ⟨⟩
      exact .inr ⟨p, hp, rfl⟩

theorem receive_pending (h : a.receive u = some a') {p' : PendingReceive}
    (hp' : a'.pending = some p') : ∃ p, a.pending = some p ∧ p.returnUrl = p'.returnUrl := by
  unfold receive at h
  split at h
  · next p hp =>
    split at h
    · cases h
      cases hp'
    · cases h
      cases hp'
      exact ⟨p, (filter_eq_some_iff.mp hp).1, rfl⟩
  · split at h
    · cases h
      exact ⟨p', hp', rfl⟩
    · cases h

section

variable (h : Screened cpu ⟨s, b⟩)
include h

theorem traced_send {agents : HostId → AgentVm}
    (hpc : s.pc = .migrationCall m) (hst : m.state = .sending) (hx : m.sourceHost = some x)
    (hu : m.migrationUrl = some u) (ha : sendMigration s.agents x u c.husk = some agents)
    (y : HostId) : Traced ⟨s, b⟩ (.call c) y (agents y) := by
  obtain ⟨hrun, hhusk, a, hrecv, rfl⟩ := sendMigration_spec ha
  have hsent : Traced ⟨s, b⟩ (.call c) x ((s.agents x).sent c.husk) := by
    refine ⟨fun he => .inl ?_, fun p hp => .inr ⟨p, hp, rfl⟩⟩
    exact (executing_iff _).mpr (.inl hrun)
  have hy := traced_setAgent hsent y
  by_cases hyu : y = u.host
  · subst hyu
    rw [Function.update_self]
    refine ⟨fun _ => .inr ?_, fun p' hp' => ?_⟩
    · have hbx : b x ≠ [] := h.booted x ((executing_iff _).mpr (.inl hrun))
      simp [Guests.arrivals, hpc, hst, hx, hu, hbx]
    · obtain ⟨p, hp, hpu⟩ := receive_pending hrecv hp'
      exact hpu ▸ hy.pending p hp
  · rwa [Function.update_of_ne hyu]

theorem traced_callStep (hs : callStep s c = some s')
    (y : HostId) : Traced ⟨s, b⟩ (.call c) y (s'.agents y) := by
  cases callStep_leaves hs with
  | @ensured vm x hpc a r ha =>
    obtain rfl : ((s.agents x).ensure c.ensure vm.desired).1 = a := congrArg Prod.fst ha
    obtain ⟨hpend, -⟩ := (s.agents x).ensure_frame c.ensure vm.desired
    refine traced_setAgent ⟨fun _ => ?_, fun p hp => .inr ⟨p, hpend ▸ hp, rfl⟩⟩ y
    by_cases hrun : (s.agents x).managed = some .running
    · exact .inl ((executing_iff _).mpr (.inl hrun))
    · simp [Guests.arrivals, hpc, hrun]
  | deleted _ ha => exact delete_eq ha ▸ traced_setAgent traced_dropped y
  | discarded _ _ ha | released _ ha =>
    exact discard_eq ha ▸ traced_setAgent traced_dropped y
  | prepared _ _ _ ha => exact traced_setAgent (traced_prepareReceive ha) y
  | finalized _ _ ha => exact traced_setAgent (traced_finalizeReceive ha) y
  | sent hpc hst _ hx hu ha => exact traced_send h hpc hst hx hu ha y
  | _ => exact traced_same

theorem traced_step (hs : step s e = some s') (y : HostId) : Traced ⟨s, b⟩ e y (s'.agents y) := by
  cases step_kind hs with
  | db he hdb => exact (dbStep_frame hdb).1 ▸ traced_same
  | call c he hcall => exact he ▸ traced_callStep h hcall y
  | crash he hs' | host _ _ he hs' => exact hs' ▸ traced_same
  | exits x v he hs' =>
    have hexit := (s.agents x).vmmExit_spec v
    exact hs' ▸ traced_setAgent
      ⟨fun hr => .inl (hexit.1.executing hr), fun p' hp' => .inr (hexit.2.2.2.2 p' hp')⟩ y
  | api hapi => exact (apiStep_effect hapi).agents ▸ traced_same
  | begins hbeg =>
    obtain ⟨pc, rfl, -⟩ := beginStep_effect hbeg
    exact traced_same

end

/-! ## Steps -/

theorem prepared_of_step (hs : step s e = some s') (hpc : s'.pc = .prepared m u) :
    s.pc = .prepared m u ∨ ∃ c, e = .call c := by
  cases step_kind hs with
  | db he hdb =>
    have hgoes := dbStep_goes hdb
    generalize s'.pc = pc' at hpc hgoes
    generalize s.pc = pc₀ at hgoes
    cases hgoes with
    | advanced m' =>
      rcases advanceMigration_cases s m' with h | h | h | h <;> rw [h] at hpc <;> cases hpc
    | ends _ _ h => rcases h with rfl | rfl | rfl | rfl <;> cases hpc
    | _ => cases hpc
  | call c he => exact .inr ⟨c, he⟩
  | crash he hs' =>
    subst hs'
    cases hpc
  | exits _ _ he hs' | host _ _ he hs' =>
    subst hs'
    exact .inl hpc
  | api hapi => exact .inl ((apiStep_effect hapi).pc ▸ hpc)
  | begins hbeg =>
    obtain ⟨pc, rfl, hgoes⟩ := beginStep_effect hbeg
    obtain rfl : pc = _ := hpc
    generalize s.pc = pc₀ at hgoes
    cases hgoes <;> simp_all

/-- The URL that `update_migration` writes is the one that was prepared. -/
theorem paired_of_step (h : Screened cpu ⟨s, b⟩) (hs : step s e = some s')
    (hm : m ∈ s'.migrations) : Paired cpu m := by
  have hupdate : ∀ {m₀ st url}, s.pc.migration = some m₀ →
      (∀ u, url = some u → u.host = m₀.targetHost) →
      m ∈ (s.updateMigration m₀.id st url).migrations → Paired cpu m := by
    intro m₀ st url hm₀ hurl hin
    obtain ⟨y, hy, -, rfl⟩ := h.hand.of_update hm₀ hin
    have hold := h.migrations y hy
    split
    · next hid =>
      obtain rfl := h.hand.ids.eq_of_id hy (h.hand.hand m₀ hm₀).1 hid
      refine ⟨hold.1, fun u hu => ?_⟩
      cases url with
      | none => exact hold.2 u (by simpa using hu)
      | some v => exact hurl u (by simpa using hu)
    · exact hold
  cases step_kind hs with
  | db he hdb =>
    cases dbStep_leaves hdb with
    | @sending m₀ url hpc =>
      exact hupdate (hpc ▸ rfl) (fun u hu => some.inj hu ▸ h.prepared _ _ hpc) hm
    | finalizing hpc | completed hpc | failed hpc => exact hupdate (hpc ▸ rfl) (by simp) hm
    | _ => exact h.migrations m hm
  | call c he hcall => exact h.migrations m ((callStep_effect hcall).migrations ▸ hm)
  | crash he hs' | exits _ _ he hs' | host _ _ he hs' =>
    subst hs'
    exact h.migrations m hm
  | api hapi =>
    cases apiStep_goes hapi with
    | @migrateInsert i q hq =>
      rcases mem_append.mp hm with hm | hm
      · exact h.migrations m hm
      · obtain rfl := mem_singleton.mp hm
        refine ⟨?_, nofun⟩
        rintro x ⟨⟩
        exact h.requests q (mem_of_getElem? hq)
    | _ => exact h.migrations m hm
  | begins hbeg =>
    obtain ⟨pc, rfl, -⟩ := beginStep_effect hbeg
    exact h.migrations m hm

theorem covers_of_step (hcpu : ∀ x, (cpu x).cpuVendor ≠ none ∧ (cpu x).cpuFeatures ≠ [])
    {q : MigrateRequest} (h : Screened cpu ⟨s, b⟩) (hok : unforced cpu s e)
    (hs : step s e = some s') (hq : q ∈ s'.requests) : Covers (cpu q.source) (cpu q.target) := by
  rcases request_of_step hs hq with ⟨p, hp, hsource, htarget⟩ | ⟨rfl, -, r, hr, hx⟩
  · rw [← hsource, ← htarget]
    exact h.requests p hp
  · refine covers_of_permitted (hcpu _) (hcpu _) ?_
    simpa [unforced, hr, hx] using hok

theorem prepared_of_call (h : Screened cpu ⟨s, b⟩) (hs : callStep s c = some s')
    (hpc : s'.pc = .prepared m u) : u.host = m.targetHost := by
  cases callStep_leaves hs with
  | @prepared m' _ _ _ a r ha =>
    have hnext : prepareNext s m' c.outcome r = .prepared m u := hpc
    unfold prepareNext at hnext
    split at hnext
    · cases hnext
      obtain ⟨p, hp, rfl⟩ := (prepareReceive_spec ha).2.2.2.2.2 _ rfl
      have htraced : Traced ⟨s, b⟩ .crash m.targetHost a := traced_prepareReceive ha
      rcases htraced.pending p hp with hx | ⟨q, hq, hqu⟩
      · exact hx
      · exact hqu ▸ h.pending _ q hq
    · rcases migrationFailed_cases s m' with hf | hf <;> rw [hf] at hnext <;> cases hnext
  | @migrationFailed m' | @sent m' =>
    rcases migrationFailed_cases s m' with hf | hf <;> simp_all [State.goto]
  | @ensured vm _ _ _ r =>
    have hnext : ensureNext vm c.outcome r = .prepared m u := hpc
    unfold ensureNext at hnext
    split at hnext <;> cases hnext
  | @finalized m' =>
    have hgoes := (callStep_effect hs).goes
    rw [hpc] at hgoes
    generalize s.pc = pc₀ at *
    cases hgoes <;> simp_all
  | _ => simp_all [State.goto]

theorem Screened.arrivals (h : Screened cpu ⟨s, b⟩) (e : Event) (y z : HostId)
    (hz : z ∈ Guests.arrivals ⟨s, b⟩ y e) : Covers (cpu z) (cpu y) := by
  unfold Guests.arrivals at hz
  split at hz
  · split at hz
    · obtain ⟨⟨hy, -⟩, hzx⟩ := mem_ite_nil_right.mp hz
      rw [hy, mem_singleton.mp hzx]
      exact ⟨rfl, List.Subset.refl _⟩
    · next m hpc =>
      split at hz
      · next x u _ hx hu =>
        obtain ⟨hy, hzx⟩ := mem_ite_nil_right.mp hz
        obtain ⟨hends, hurl⟩ := h.migrations m (h.hand.hand m (congrArg Pc.migration hpc)).1
        rw [hy, hurl u hu]
        exact (h.origins x z hzx).trans (hends x hx)
      · cases hz
    · cases hz
  · cases hz

theorem Screened.step (hcpu : ∀ x, (cpu x).cpuVendor ≠ none ∧ (cpu x).cpuFeatures ≠ [])
    {g g' : Guests} (h : Screened cpu g) (hok : unforced cpu g.state e)
    (hs : guestStep g e = some g') : Screened cpu g' := by
  obtain ⟨s, b⟩ := g
  obtain ⟨s', hs', rfl⟩ := map_eq_some_iff.mp hs
  refine ⟨h.hand.step hs', fun q hq => covers_of_step hcpu h hok hs' hq,
    fun m hm => paired_of_step h hs' hm, fun m u hpc => ?_, fun y p hp => ?_, fun y z hz => ?_,
    fun y hy => ?_⟩
  · rcases prepared_of_step hs' hpc with hold | ⟨c, rfl⟩
    · exact h.prepared m u hold
    · exact prepared_of_call h hs' hpc
  · rcases (traced_step h hs' y).pending p hp with hy | ⟨q, hq, hqu⟩
    · exact hy
    · exact hqu ▸ h.pending y q hq
  · exact (mem_append.mp hz).elim (h.arrivals e y z) (h.origins y z)
  · rcases (traced_step h hs' y).executing hy with hold | hnew
    · exact append_ne_nil_of_right_ne_nil _ (h.booted y hold)
    · exact append_ne_nil_of_left_ne_nil hnew _

/-- **CPU safety of migration chains.**  If all hosts report a vendor and features, which do not
change, and every request to migrate passes the check, a host that executes the guest has the vendor
and all the features of the hosts on which the guest may have been booted. -/
theorem cpu_safe {cpu : HostId → Host}
    (hcpu : ∀ x, (cpu x).cpuVendor ≠ none ∧ (cpu x).cpuFeatures ≠ []) {g : Guests}
    (hr : Reach guestStep (fun g e => unforced cpu g.state e = true) GuestInit g) {x : HostId}
    (hx : g.state.executing x) :
    g.bootedOn x ≠ [] ∧ ∀ b ∈ g.bootedOn x, (cpu b).cpuVendor = (cpu x).cpuVendor ∧
      (cpu b).cpuFeatures ⊆ (cpu x).cpuFeatures := by
  have h : Screened cpu g := by
    refine Reach.invariant ?_ (fun _ _ _ hi hok hs => hi.step hcpu hok hs) hr
    rintro ⟨s, b⟩ ⟨⟨-, -, hmig, hpc, -, hreq, hag⟩, hb⟩
    constructor <;> simp_all [empty, State.executing, executing, loose]
    exact ⟨fun i m hm => by simp [hmig] at hm, fun m hm => by simp [hpc, Pc.migration] at hm⟩
  exact ⟨h.booted x hx, h.origins x⟩

/-- Host 0 has one feature, all others have two. -/
def growing (x : HostId) : Host :=
  ⟨x, "", "", true, true, some "GenuineIntel", if x = 0 then ["avx"] else ["avx", "avx2"], none⟩

theorem cpu_safe_migrated :
    let g := final guestStep ⟨start, fun _ => []⟩ (bootOnZero ++ sendToOne ++ completeToOne)
    g.bootedOn 1 = [0] ∧ (growing 0).cpuFeatures ⊆ (growing 1).cpuFeatures := by
  have hr : Reach guestStep (fun g e => unforced growing g.state e = true) GuestInit
      (final guestStep ⟨start, fun _ => []⟩ (bootOnZero ++ sendToOne ++ completeToOne)) :=
    Reach.final (fun _ _ h => h) ⟨start_init, fun _ => rfl⟩ (by decide) (by decide)
  have hcpu : ∀ x, (growing x).cpuVendor ≠ none ∧ (growing x).cpuFeatures ≠ [] := by
    intro x
    refine ⟨nofun, ?_⟩
    unfold growing
    split <;> simp
  refine ⟨by decide, ((cpu_safe hcpu hr (x := 1) (by decide)).2 0 (by decide)).2⟩

end VQuasar.Lifecycle
