import VQuasar.Dataplane.Backend

/-!
# A NIC that is rehomed

A filtered NIC is closed when its TAP is on no bridge, or on one with the flows that send what is new to
conntrack, drop it there, and drop what the guest sends under another MAC (`guardFlows`).

`apply` deletes the flows of a NIC before it adds them anew, and a move puts the TAP on the other bridge
before any flow is there.  So a call of `rehome` keeps a running guest closed only if it does not come
to that: `rehome_closed_iff` says exactly when, for every way in which its commands can go.
-/

namespace VQuasar.Dataplane

open Tenancy FlowTable Scripts List Option
open Command (delFlows effect leaves addFlows addBr refused addPort)

/-! ## Closed NICs -/

/-- The default-deny and port-security flows of a filtered NIC: new connections to it go to conntrack
and are dropped there unless a rule lets them in, and so is what it sends under another MAC. -/
def guardFlows (tap : String) (mac : MacAddr) : List OvsFlow :=
  [⟨cookieFor tap, 0, 1080, [.dlDst mac, .ip], .ct (zoneFor tap)⟩,
   ⟨cookieFor tap, 0, 1080, [.dlDst mac, .ipv6], .ct (zoneFor tap)⟩,
   ⟨cookieFor tap, resultTable, 10, newIn (zoneFor tap) ++ [.dlDst mac], .drop⟩,
   ⟨cookieFor tap, 0, spoofDropPriority, [.inPort tap], .drop⟩]

def Guarded (s : Ovs) (br tap : String) (mac : MacAddr) : Prop :=
  ∃ flows, s.bridges br = some flows ∧ ∀ g ∈ guardFlows tap mac, g ∈ flows

/-- The TAP is on no bridge, or on one with its guard flows. -/
def Closed (tap : String) (mac : MacAddr) (s : Ovs) : Prop :=
  ∀ br, s.portToBr tap = some br → Guarded s br tap mac

variable {s : Ovs} {tap : String} {mac : MacAddr} {policy : Policy} {f : OvsFlow}

theorem closed_iff {br : String} (h : s.portToBr tap = some br) :
    Closed tap mac s ↔ Guarded s br tap mac := by
  constructor
  · intro hc
    exact hc br h
  · intro hg br' h'
    obtain rfl := mem_unique h h'
    exact hg

theorem closed_of_none (h : s.portToBr tap = none) : Closed tap mac s := by
  intro br hbr
  rw [h] at hbr
  cases hbr

theorem guardFlows_subset (tap : String) (mac : MacAddr) (policy : Policy) :
    ∀ g ∈ guardFlows tap mac, g ∈ buildFlows tap mac policy := by
  intro g hg
  simp only [guardFlows, mem_cons, not_mem_nil, or_false] at hg
  rcases hg with rfl | rfl | rfl | rfl <;>
    simp [buildFlows, classifyFlows, ingressFlows]

theorem mem_buildFlows_priority (hf : f ∈ buildFlows tap mac policy)
    (hp : f.priority = 1080 ∨ f.priority = 10 ∨ f.priority = spoofDropPriority) :
    f ∈ guardFlows tap mac ∨ .inPort tap :: .dlSrc mac :: [.ip] = f.fields ∨
      .inPort tap :: .dlSrc mac :: [.ipv6] = f.fields := by
  simp only [buildFlows, mem_append] at hf
  rcases hf with ((((hf | hf) | hf) | hf) | hf) | hf
  · simp only [classifyFlows, mem_cons, not_mem_nil, or_false] at hf
    rcases hf with rfl | rfl | rfl | rfl
    · simp [spoofDropPriority] at hp
    · simp [spoofDropPriority] at hp
    · exact .inr (.inl rfl)
    · exact .inr (.inr rfl)
  · simp only [classifyFlows, mem_cons, not_mem_nil, or_false] at hf
    rcases hf with rfl | rfl | rfl | rfl
    · simp [spoofDropPriority] at hp
    · simp [spoofDropPriority] at hp
    · exact .inl (by simp [guardFlows])
    · exact .inl (by simp [guardFlows])
  · simp only [mem_cons, not_mem_nil, or_false] at hf
    rcases hf with rfl | rfl | rfl | rfl | rfl <;> simp [spoofDropPriority] at hp
  · cases mem_egressFlows hf <;> simp [spoofDropPriority] at hp
  · cases mem_ingressFlows hf with
    | rule => simp [spoofDropPriority] at hp
    | deny => exact .inl (by simp [guardFlows])
    | all hopen => cases hopen
  · rw [mem_singleton.mp hf]
    exact .inl (by simp [guardFlows])

/-- No other flow of the NIC takes the place of a guard flow. -/
theorem guardFlows_key {g : OvsFlow}
    (hg : g ∈ guardFlows tap mac) (hf : f ∈ buildFlows tap mac policy)
    (hp : g.priority = f.priority) (hm : g.fields = f.fields) : f = g := by
  simp only [guardFlows, mem_cons, not_mem_nil, or_false] at hg
  have hprio : f.priority = 1080 ∨ f.priority = 10 ∨ f.priority = spoofDropPriority := by
    rw [← hp]
    rcases hg with rfl | rfl | rfl | rfl <;> simp
  -- what else has one of these priorities matches on the sender
  rcases mem_buildFlows_priority hf hprio with hf | hf | hf
  · simp only [guardFlows, mem_cons, not_mem_nil, or_false] at hf
    rcases hg with rfl | rfl | rfl | rfl <;> rcases hf with rfl | rfl | rfl | rfl <;>
      simp_all [newIn]
  · rw [← hm] at hf
    rcases hg with rfl | rfl | rfl | rfl <;> simp [newIn] at hf
  · rw [← hm] at hf
    rcases hg with rfl | rfl | rfl | rfl <;> simp [newIn] at hf

section

variable {env : Command → Outcome} {o : Outcome} {P : Ovs → Prop} {s : Ovs} {c : Command}
  {br tap : String} {mac : MacAddr} {g : OvsFlow} {table : Nat} {policy : Policy}

/-! ## Clearing and applying -/

/-- Neither `del-flows` of `clear` takes effect. -/
def clearFails (env : Command → Outcome) (br tap : String) : Prop :=
  (env (.delFlows br (cookieFor tap) 0)).effective = false ∧
    (env (.delFlows br (cookieFor tap) resultTable)).effective = false

theorem guardFlows_cookie (hg : g ∈ guardFlows tap mac) : g.cookie = cookieFor tap := by
  simp only [guardFlows, mem_cons, not_mem_nil, or_false] at hg
  rcases hg with rfl | rfl | rfl | rfl <;> rfl

theorem delFlows_opens (hbr : s.portToBr tap = some br)
    (htable : ∃ g ∈ guardFlows tap mac, g.table = table) :
    ¬ Closed tap mac ((delFlows br (cookieFor tap) table).effect s) := by
  intro hc
  obtain ⟨g, hg, ht⟩ := htable
  obtain ⟨flows, hflows, hall⟩ := hc br hbr
  simp only [effect, Ovs.setFlows, if_true, map_eq_some_iff] at hflows
  obtain ⟨old, -, rfl⟩ := hflows
  have hkept := (mem_filter.mp (hall g hg)).2
  simp [guardFlows_cookie hg, ht] at hkept

theorem guard_in_zero (tap : String) (mac : MacAddr) : ∃ g ∈ guardFlows tap mac, g.table = 0 :=
  ⟨_, mem_cons_self .., rfl⟩

theorem guard_in_result (tap : String) (mac : MacAddr) :
    ∃ g ∈ guardFlows tap mac, g.table = resultTable := by
  refine ⟨⟨cookieFor tap, resultTable, 10, newIn (zoneFor tap) ++ [.dlDst mac], .drop⟩, ?_, rfl⟩
  simp [guardFlows]

theorem Guarded.present (h : Guarded s br tap mac) : (s.bridges br).isNone = false := by
  obtain ⟨flows, hflows, -⟩ := h
  rw [hflows]
  rfl

theorem closed_delFlows_iff (hbr : s.portToBr tap = some br)
    (hg : Guarded s br tap mac) (htable : ∃ g ∈ guardFlows tap mac, g.table = table) :
    Closed tap mac ((delFlows br (cookieFor tap) table).leaves o s) ↔ o.effective = false := by
  cases ho : o.effective with
  | true =>
    rw [leaves_of_effective (c := .delFlows br (cookieFor tap) table) hg.present ho]
    simp [delFlows_opens hbr htable]
  | false =>
    rw [leaves_of_failed rfl ho]
    simp [(closed_iff hbr).mpr hg]

theorem clear_state_of_fails (h : clearFails env br tap) : (clear env br tap s).state = s := by
  show (leaves _ _ (leaves _ _ s)) = s
  rw [leaves_of_failed rfl h.1, leaves_of_failed rfl h.2]

/-- `clear` on the bridge of a guarded NIC opens it, unless it does nothing at all. -/
theorem always_clear_iff (hbr : s.portToBr tap = some br) (hg : Guarded s br tap mac) :
    Always (Closed tap mac) (clear env br tap) s ↔ clearFails env br tap := by
  unfold clear clearFails
  rw [always_attempt_bind, always_attempt_bind, always_run,
    closed_delFlows_iff hbr hg (guard_in_zero tap mac)]
  refine and_congr_right fun h0 => ?_
  have hs : (run env (.delFlows br (cookieFor tap) 0) s).state = s :=
    leaves_of_failed rfl h0
  rw [hs, always_run, closed_delFlows_iff hbr hg (guard_in_result tap mac)]
  exact and_iff_left (always_pure _)

theorem mem_installFlows (hg : g ∈ guardFlows tap mac)
    (new : List OvsFlow) (hnew : ∀ f ∈ new, f ∈ buildFlows tap mac policy) :
    ∀ flows : List OvsFlow, g ∈ flows → g ∈ installFlows flows new := by
  induction new with
  | nil => exact fun _ h => h
  | cons f new ih =>
    intro flows hmem
    refine ih (fun f' hf' => hnew f' (mem_cons_of_mem _ hf')) (installFlow flows f) ?_
    unfold installFlow
    rw [mem_append, mem_filter, mem_singleton]
    by_cases hkey : g.table = f.table ∧ g.priority = f.priority ∧ g.fields = f.fields
    · exact .inr (guardFlows_key hg (hnew f (mem_cons_self ..)) hkey.2.1 hkey.2.2).symm
    · refine .inl ⟨hmem, ?_⟩
      rw [Bool.not_eq_true', ← Bool.not_eq_true]
      simpa only [Bool.and_eq_true, beq_iff_eq, and_assoc] using hkey

theorem closed_addFlows {new : List OvsFlow} (hbr : s.portToBr tap = some br)
    (hg : Guarded s br tap mac) (hnew : ∀ f ∈ new, f ∈ buildFlows tap mac policy) :
    Closed tap mac ((addFlows br new).effect s) := by
  have hbr' : ((addFlows br new).effect s).portToBr tap = some br := hbr
  obtain ⟨flows, hflows, hall⟩ := hg
  refine (closed_iff hbr').mpr ⟨installFlows flows new, ?_, ?_⟩
  · simp [effect, Ovs.setFlows, hflows]
  · exact fun g hg => mem_installFlows hg new hnew flows (hall g hg)

theorem always_apply_iff (env : Command → Outcome) (policy : Policy) (hbr : s.portToBr tap = some br)
    (hg : Guarded s br tap mac) :
    Always (Closed tap mac) (apply env br tap mac policy) s ↔ clearFails env br tap := by
  unfold apply
  rw [always_bind, always_clear_iff hbr hg]
  refine and_iff_left_of_imp ?_
  intro hf _ _
  rw [clear_state_of_fails hf, always_run]
  rcases leaves_addFlows (env (.addFlows br (buildFlows tap mac policy))) br
      (buildFlows tap mac policy) s with h | ⟨n, h⟩
  · rw [h]
    exact (closed_iff hbr).mpr hg
  · rw [h]
    exact closed_addFlows hbr hg fun f hf => mem_of_mem_take hf

end

/-! ## The bridge of the network -/

/-- `s'` has the TAP where `s` has it, and the bridges of `s` with their flows. -/
structure Extends (tap : String) (s s' : Ovs) : Prop where
  port : s'.portToBr tap = s.portToBr tap
  bridges : ∀ br, s'.bridges br = s.bridges br ∨
    s.bridges br = none ∧ s'.bridges br = some newBridge

def desiredName (net : Backend) (b : NicBinding) : String :=
  if b.vni ≠ 0 then overlayBridge b.vni else net.bridge

/-- The peers of the tunnels with the numbers of their ports. -/
def tunnelPeers (b : NicBinding) : List (String × Nat) :=
  ((b.overlayPeers.mergeSort fun x y => x ≤ y).dedup).zipIdx

/-- Every command that `desired_bridge` depends on succeeds. -/
def overlayReady (env : Command → Outcome) (net : Backend) (b : NicBinding) : Bool :=
  b.vni == 0 ||
    (!(b.encryptUnderlay && net.ipsecCredentials) || env .ipsec == .ok) &&
    env (.addBr (overlayBridge b.vni)) == .ok &&
    (tunnelPeers b).all fun x => env (.addTunnel (overlayBridge b.vni) (tunnelPort b.vni x.2) x.1) == .ok

section

variable {env : Command → Outcome} {net : Backend} {b : NicBinding} {s s' s'' : Ovs} {vm : String}
  {index : Nat} {tap br current desired : String} {mac : MacAddr}

theorem Extends.refl (tap : String) (s : Ovs) : Extends tap s s := ⟨rfl, fun _ => .inl rfl⟩

theorem guarded_newBridge (tap : String) (mac : MacAddr) :
    ¬ ∀ g ∈ guardFlows tap mac, g ∈ newBridge := by
  intro h
  have hmem := h _ (mem_cons_self ..)
  simp [newBridge] at hmem

theorem Extends.guarded_iff (h : Extends tap s s') (br : String) (mac : MacAddr) :
    Guarded s' br tap mac ↔ Guarded s br tap mac := by
  unfold Guarded
  rcases h.bridges br with hbr | ⟨hbr, hbr'⟩
  · rw [hbr]
  rw [hbr, hbr']
  constructor
  · rintro ⟨flows, hflows, hall⟩
    obtain rfl := some.inj hflows
    exact absurd hall (guarded_newBridge tap mac)
  · rintro ⟨flows, hflows, -⟩
    cases hflows

theorem Extends.closed (h : Extends tap s s') (hc : Closed tap mac s) : Closed tap mac s' := by
  intro br hbr
  exact (h.guarded_iff br mac).mpr (hc br (h.port ▸ hbr))

theorem Extends.addBr (h : Extends tap s s') (br : String) :
    Extends tap s ((addBr br).effect s') := by
  simp only [effect]
  split
  · exact h
  · next hnew =>
    refine ⟨h.port, ?_⟩
    intro br'
    simp only [Ovs.setFlows]
    split
    · next heq =>
      subst heq
      have hnone : s'.bridges br' = none := by simpa using hnew
      refine .inr ⟨?_, rfl⟩
      rcases h.bridges br' with hb | ⟨hb, -⟩
      · exact hb.symm.trans hnone
      · exact hb
    · exact h.bridges br'

theorem Extends.addTunnel (h : Extends (tapName vm index) s s') (br : String) (vni i : Nat) :
    Extends (tapName vm index) s (s'.attach br (tunnelPort vni i)) := by
  refine ⟨?_, ?_⟩
  · exact (portToBr_attach_other (tapName_ne_tunnelPort vm index vni i)).trans h.port
  · intro br'
    rw [bridges_attach]
    exact h.bridges br'

theorem keeps_desiredBridge (env : Command → Outcome) (net : Backend) (vm : String) (index : Nat)
    (b : NicBinding) (s : Ovs) : Keeps (Extends (tapName vm index) s) (desiredBridge env net b) :=
  keeps_desiredBridge_of (fun _ h => h.addBr _) fun _ _ h => h.addTunnel _ _ _

theorem applyUnderlayIpsec_result : (applyUnderlayIpsec env net b s).result =
      if !(b.encryptUnderlay && net.ipsecCredentials) || env .ipsec == .ok then some ()
      else none := by
  unfold applyUnderlayIpsec
  split
  · next h =>
    rw [run_result rfl, h]
    rfl
  · next h =>
    simp only [h]
    rfl

theorem desiredBridge_result : (desiredBridge env net b s).result =
      if overlayReady env net b then some (desiredName net b) else none := by
  unfold desiredBridge overlayReady desiredName
  by_cases hvni : b.vni = 0
  · have hnot : ¬ b.vni ≠ 0 := by simpa using hvni
    have hz : (b.vni == 0) := by simpa using hvni
    simp only [if_neg hnot, hz, Bool.true_or, if_true]
    rfl
  · have hz : (b.vni == 0) = false := by simpa using hvni
    simp only [if_pos hvni, hz, Bool.false_or]
    rw [bind_result_ite applyUnderlayIpsec_result]
    unfold ensureOverlay
    rw [bind_result_ite (run_result rfl),
      bind_result_ite (forM_result (fun _ _ => run_result rfl) _ _)]
    cases !(b.encryptUnderlay && net.ipsecCredentials) || env .ipsec == .ok with
    | false => rfl
    | true =>
      cases env (.addBr (overlayBridge b.vni)) == .ok with
      | false | true => rfl

theorem desiredBridge_present (hvni : b.vni ≠ 0) (hready : overlayReady env net b) :
    ((desiredBridge env net b s).state.bridges (desiredName net b)).isSome := by
  have hz : (b.vni == 0) = false := by simpa using hvni
  simp only [overlayReady, hz, Bool.false_or, Bool.and_eq_true] at hready
  obtain ⟨⟨hipsec, hbr⟩, htunnels⟩ := hready
  have hname : desiredName net b = overlayBridge b.vni := if_pos hvni
  rw [hname]
  unfold desiredBridge
  rw [if_pos hvni, bind_state_of_result (a := ()) (by rw [applyUnderlayIpsec_result, hipsec]; rfl)]
  unfold ensureOverlay
  rw [bind_state_of_result (a := ()) (by rw [run_result rfl, hbr]; rfl)]
  generalize (applyUnderlayIpsec env net b s).state = s₁
  -- `add-br` leaves the bridge, and the tunnels do not take it away
  have hadded : ((run env (.addBr (overlayBridge b.vni)) s₁).state.bridges
      (overlayBridge b.vni)).isSome := by
    have hok : (env (.addBr (overlayBridge b.vni))).effective := by
      rw [eq_of_beq hbr]
      rfl
    show (((addBr (overlayBridge b.vni)).leaves _ s₁).bridges _).isSome = true
    rw [leaves_of_effective rfl hok]
    simp only [effect]
    split
    · assumption
    · simp [Ovs.setFlows]
  have hkeep : Keeps (fun t : Ovs => (t.bridges (overlayBridge b.vni)).isSome = true)
      ((tunnelPeers b).forM fun x =>
        run env (.addTunnel (overlayBridge b.vni) (tunnelPort b.vni x.2) x.1)) := by
    refine keeps_forM _ ?_
    intro x _
    refine keeps_run rfl ?_
    intro t ht
    show ((t.attach _ _).bridges _).isSome = true
    rw [bridges_attach]
    exact ht
  have hend := (hkeep _ hadded).2
  rw [bind_state_of_result (a := ()) (by
    rw [forM_result (fun _ _ => run_result rfl)]
    exact if_pos htunnels)]
  exact hend

/-- The bridge that `desired_bridge` names is there afterwards, unless it is the integration bridge
and was missing. -/
theorem desiredBridge_isNone (hready : overlayReady env net b) :
    ((desiredBridge env net b s).state.bridges (desiredName net b)).isNone = false ↔
      (b.vni = 0 → (s.bridges net.bridge).isNone = false) := by
  by_cases hvni : b.vni = 0
  · have hnot : ¬ b.vni ≠ 0 := by simpa using hvni
    unfold desiredBridge desiredName
    rw [if_neg hnot, if_neg hnot, imp_iff_right hvni]
    rfl
  · have hpresent := desiredBridge_present (s := s) hvni hready
    simp [hvni, hpresent]

/-! ## Tags and moves -/

def vlanFails (env : Command → Outcome) (tap : String) (b : NicBinding) : Prop :=
  b.vni = 0 ∧ b.vlan ≠ 0 ∧ env (.setTag tap b.vlan) ≠ .ok

def SameNet (s t : Ovs) : Prop := t.ports = s.ports ∧ t.bridges = s.bridges

theorem SameNet.portToBr (h : SameNet s s') (tap : String) : s'.portToBr tap = s.portToBr tap := by
  unfold Ovs.portToBr
  rw [h.1]

theorem SameNet.guarded_iff (h : SameNet s s') : Guarded s' br tap mac ↔ Guarded s br tap mac := by
  unfold Guarded
  rw [h.2]

theorem SameNet.closed (h : SameNet s s') (hc : Closed tap mac s) : Closed tap mac s' := by
  intro br hbr
  exact h.guarded_iff.mpr (hc br (h.portToBr tap ▸ hbr))

theorem keeps_setPlacement (env : Command → Outcome) (tap : String) (b : NicBinding) :
    Keeps (SameNet s) (setPlacement env tap b) := by
  unfold setPlacement setVlan
  split
  · split
    · exact keeps_run rfl fun _ ht => ht
    · exact keeps_bind (keeps_attempt (keeps_run rfl fun _ ht => ht)) fun _ => keeps_pure _
  · exact keeps_pure _

theorem setPlacement_result (hbr : s.portToBr tap = some br) :
    (setPlacement env tap b s).result = none ↔ vlanFails env tap b := by
  unfold setPlacement setVlan vlanFails
  by_cases hvni : b.vni = 0
  · rw [if_pos hvni]
    by_cases hvlan : b.vlan = 0
    · rw [if_neg (by simpa using hvlan)]
      simp only [hvlan]
      show (some () : Option Unit) = none ↔ _
      simp
    · rw [if_pos hvlan, run_result (by simp [refused, hbr])]
      simp [hvni, hvlan]
  · rw [if_neg hvni]
    show (some () : Option Unit) = none ↔ _
    simp [hvni]

/-- The move takes the TAP off its bridge and puts it on the other one. -/
def lands (env : Command → Outcome) (s : Ovs) (tap current desired : String) : Prop :=
  (env (.delPort current tap)).effective = true ∧ (env (.addPort desired tap)).effective = true ∧
    (s.bridges desired).isNone = false

/-- The TAP is on `desired`, which has the flows it has in `s`. -/
def MovedTo (s : Ovs) (tap desired : String) (t : Ovs) : Prop :=
  t.portToBr tap = some desired ∧ t.bridges desired = s.bridges desired

theorem MovedTo.guarded_iff (h : MovedTo s tap desired s') :
    Guarded s' desired tap mac ↔ Guarded s desired tap mac := by
  unfold Guarded
  rw [h.2]

theorem MovedTo.closed_iff (h : MovedTo s tap desired s') :
    Closed tap mac s' ↔ Guarded s desired tap mac :=
  (Dataplane.closed_iff h.1).trans h.guarded_iff

theorem keeps_gcOverlayIfEmpty (env : Command → Outcome) (hne : current ≠ desired) :
    Keeps (MovedTo s tap desired) (gcOverlayIfEmpty env current) := by
  refine keeps_gcOverlay fun t _ _ ht => ⟨portToBr_delBr ht.1 hne.symm, ?_⟩
  show (if desired = current then none else t.bridges desired) = _
  rw [if_neg hne.symm]
  exact ht.2

theorem delPort_leaves (env : Command → Outcome) (hcur : s.portToBr tap = some current)
    (hpresent : (s.bridges current).isNone = false) :
    if (env (.delPort current tap)).effective then
      (run env (.delPort current tap) s).state.portToBr tap = none ∧
        (run env (.delPort current tap) s).state.bridges = s.bridges
    else (run env (.delPort current tap) s).state = s := by
  split
  · next heff =>
    have hr : (Command.delPort current tap).refused s = false := by
      simp [refused, hpresent, hcur]
    rw [run_state, leaves_of_effective hr heff]
    exact ⟨portToBr_delPort, rfl⟩
  · next heff => exact leaves_of_failed rfl (by simpa using heff)

section

variable (hcur : s.portToBr tap = some current)
include hcur

theorem closed_delPort (hg : Guarded s current tap mac) :
    Closed tap mac (run env (.delPort current tap) s).state := by
  have hdel := delPort_leaves env hcur hg.present
  split at hdel
  · exact closed_of_none hdel.1
  · rw [hdel]
    exact (closed_iff hcur).mpr hg

theorem addPort_stays (hpresent : (s.bridges current).isNone = false) (hne : current ≠ desired)
    (h : ¬ lands env s tap current desired) :
    (run env (.addPort desired tap) (run env (.delPort current tap) s).state).state =
      (run env (.delPort current tap) s).state ∧
    (run env (.addPort desired tap) (run env (.delPort current tap) s).state).result = none := by
  have hdel := delPort_leaves env hcur hpresent
  generalize (run env (.delPort current tap) s).state = t at hdel
  have hrefused : ∀ t : Ovs, (addPort desired tap).refused t →
      (run env (.addPort desired tap) t).state = t ∧
        (run env (.addPort desired tap) t).result = none := by
    intro t ht
    refine ⟨if_pos ht, ?_⟩
    show (if !(addPort desired tap).refused t && _ then some () else none) = none
    rw [ht]
    rfl
  cases hadd : (env (.addPort desired tap)).effective with
  | false =>
    refine ⟨leaves_of_failed rfl hadd, ?_⟩
    have hno : env (.addPort desired tap) ≠ .ok := by
      intro hok
      rw [hok] at hadd
      cases hadd
    show (if _ && env (.addPort desired tap) == .ok then some () else none) = none
    rw [beq_eq_false_iff_ne.mpr hno, Bool.and_false]
    rfl
  | true =>
    refine hrefused t ?_
    split at hdel
    · next heff =>
      -- the TAP is off its bridge, so it is the bridge that is missing
      have hmiss : (s.bridges desired).isNone := by
        cases hb : (s.bridges desired).isNone with
        | true => rfl
        | false => exact absurd ⟨heff, hadd, hb⟩ h
      simp only [refused, hdel.2, hmiss, Bool.true_or]
    · -- the TAP is still on its bridge
      rw [hdel]
      simp [refused, hcur, hne]

theorem addPort_lands
    (hpresent : (s.bridges current).isNone = false) (h : lands env s tap current desired) :
    MovedTo s tap desired
      (run env (.addPort desired tap) (run env (.delPort current tap) s).state).state ∧
    (run env (.addPort desired tap) (run env (.delPort current tap) s).state).result =
        if env (.addPort desired tap) == .ok then some () else none := by
  obtain ⟨hdeleff, hadd, hthere⟩ := h
  have hdel := delPort_leaves env hcur hpresent
  rw [if_pos hdeleff] at hdel
  generalize (run env (.delPort current tap) s).state = t at hdel
  have hr : (addPort desired tap).refused t = false := by
    simp [refused, hdel.1, hdel.2, hthere]
  refine ⟨?_, run_result hr⟩
  rw [run_state, leaves_of_effective hr hadd]
  refine ⟨portToBr_attach hdel.1, ?_⟩
  show (t.attach desired tap).bridges desired = _
  rw [bridges_attach, hdel.2]

/-- A move keeps the NIC closed exactly if it clears nothing and lands, if at all, on a bridge that
has the guard flows already. -/
theorem always_moveTap_iff (hg : Guarded s current tap mac) (hne : current ≠ desired) :
    Always (Closed tap mac) (moveTap env tap current desired) s ↔ clearFails env current tap ∧
        (lands env s tap current desired → Guarded s desired tap mac) := by
  unfold moveTap
  rw [always_attempt_bind, always_clear_iff hcur hg]
  refine and_congr_right fun hf => ?_
  rw [clear_state_of_fails hf, always_attempt_bind, always_run, ← run_state]
  rw [and_iff_right (closed_delPort hcur hg), always_bind, always_run, ← run_state]
  by_cases hl : lands env s tap current desired
  · obtain ⟨hmoved, -⟩ := addPort_lands hcur hg.present hl
    rw [hmoved.closed_iff, and_iff_left_of_imp, imp_iff_right hl]
    intro hgd a _ t ht
    have hvisited := (keeps_gcOverlayIfEmpty env hne _ hmoved).1 t ht
    exact hvisited.closed_iff.mpr hgd
  · obtain ⟨hstay, hnone⟩ := addPort_stays hcur hg.present hne hl
    rw [hstay, hnone, and_iff_right (closed_delPort hcur hg)]
    refine iff_of_true ?_ fun h => absurd h hl
    intro a ha
    cases ha

end

theorem gcOverlayIfEmpty_result (br : String) (s : Ovs) :
    (gcOverlayIfEmpty env br s).result = some () := by
  unfold gcOverlayIfEmpty
  split
  · rw [attempt_bind_result]
    generalize (runStdout env (.listPorts br) _ s).result = ports
    cases ports with
    | none => rfl
    | some ports =>
    cases h : ports.any (fun p => p.startsWith "tap") with
    | true =>
      simp only [h, if_true]
      rfl
    | false =>
      simp only [h]
      rfl
  · rfl

section

variable (hf : clearFails env current tap) (hcur : s.portToBr tap = some current) (hpresent :
  (s.bridges current).isNone = false) (hne : current ≠ desired)
include hf hcur hpresent hne

theorem moveTap_result :
    (moveTap env tap current desired s).result = some () ↔
      lands env s tap current desired ∧ env (.addPort desired tap) = .ok := by
  unfold moveTap
  rw [attempt_bind_result, clear_state_of_fails hf, attempt_bind_result]
  by_cases hl : lands env s tap current desired
  · obtain ⟨-, hres⟩ := addPort_lands hcur hpresent hl
    rw [bind_result_ite hres, gcOverlayIfEmpty_result]
    simp [hl]
  · obtain ⟨-, hnone⟩ := addPort_stays hcur hpresent hne hl
    rw [bind_result_none hnone]
    simp [hl]

theorem moveTap_movedTo
    (hl : lands env s tap current desired) (hok : env (.addPort desired tap) = .ok) :
    MovedTo s tap desired (moveTap env tap current desired s).state := by
  obtain ⟨hmoved, hres⟩ := addPort_lands hcur hpresent hl
  rw [hok] at hres
  unfold moveTap
  rw [attempt_bind_state, clear_state_of_fails hf, attempt_bind_state]
  rw [bind_state_of_result hres]
  exact (keeps_gcOverlayIfEmpty env hne _ hmoved).2

end

/-! ## Rehoming -/

theorem always_place_iff (hfiltered : b.filtered) (hbr : s.portToBr tap = some br)
    (hg : Guarded s br tap b.mac) :
    Always (Closed tap b.mac)
        (do setPlacement env tap b
            applyFirewall env net br tap b) s ↔
      vlanFails env tap b ∨ clearFails env br tap := by
  have hkeep := keeps_setPlacement env tap b s ⟨rfl, rfl⟩
  have hplaced : Always (Closed tap b.mac) (setPlacement env tap b) s :=
    fun t ht => (hkeep.1 t ht).closed ((closed_iff hbr).mpr hg)
  have happly : applyFirewall env net br tap b =
      apply env br tap b.mac ⟨b.ingressRules, b.egressRules, b.egressDefaultDeny⟩ := by
    unfold applyFirewall
    rw [hfiltered]
  rw [always_bind, and_iff_right hplaced]
  cases hres : (setPlacement env tap b s).result with
  | none =>
    refine iff_of_true ?_ (.inl ((setPlacement_result hbr).mp hres))
    intro a ha
    cases ha
  | some u =>
    have hvlan : ¬ vlanFails env tap b := by
      intro h
      simp [(setPlacement_result hbr).mpr h] at hres
    have hbr' := (hkeep.2.portToBr tap).trans hbr
    have hclear := always_apply_iff env ⟨b.ingressRules, b.egressRules, b.egressDefaultDeny⟩ hbr'
      (hkeep.2.guarded_iff.mpr hg)
    rw [or_iff_right hvlan, ← hclear, happly]
    constructor
    · intro h
      exact h u rfl
    · intro h a _
      exact h

/-- The condition under which a call of `rehome` for a NIC on `current` keeps it closed: it does not
get as far as the firewall, or clears nothing and puts the TAP on no bridge without guard flows. -/
def staysClosed (env : Command → Outcome) (net : Backend) (tap current : String) (b : NicBinding)
    (s : Ovs) : Prop :=
  env (.portToBr tap) = .ok → overlayReady env net b = true →
    if current = desiredName net b then vlanFails env tap b ∨ clearFails env current tap
    else clearFails env current tap ∧
      ((env (.delPort current tap)).effective →
        (env (.addPort (desiredName net b) tap)).effective →
        (b.vni = 0 → (s.bridges net.bridge).isNone = false) →
        Guarded s (desiredName net b) tap b.mac ∧
          (env (.addPort (desiredName net b) tap) = .ok →
            vlanFails env tap b ∨ clearFails env (desiredName net b) tap))

theorem always_move_place_iff (hfiltered : b.filtered) (hcur : s.portToBr tap = some current)
    (hg : Guarded s current tap b.mac) (hne : current ≠ desired) :
    Always (Closed tap b.mac)
        (do moveTap env tap current desired
            setPlacement env tap b
            applyFirewall env net desired tap b) s ↔
      clearFails env current tap ∧
        (lands env s tap current desired → Guarded s desired tap b.mac ∧
          (env (.addPort desired tap) = .ok → vlanFails env tap b ∨ clearFails env desired tap)) := by
  rw [always_bind, always_moveTap_iff hcur hg hne, and_assoc]
  refine and_congr_right fun hf => ?_
  have hplace : ∀ hl : lands env s tap current desired, Guarded s desired tap b.mac →
      env (.addPort desired tap) = .ok →
      (Always (Closed tap b.mac)
        (do setPlacement env tap b
            applyFirewall env net desired tap b) (moveTap env tap current desired s).state ↔
        vlanFails env tap b ∨ clearFails env desired tap) := by
    intro hl hgd hok
    have hmoved := moveTap_movedTo hf hcur hg.present hne hl hok
    exact always_place_iff hfiltered hmoved.1 (hmoved.guarded_iff.mpr hgd)
  constructor
  · rintro ⟨hgd, hrest⟩ hl
    refine ⟨hgd hl, ?_⟩
    intro hok
    have hres := (moveTap_result hf hcur hg.present hne).mpr ⟨hl, hok⟩
    exact (hplace hl (hgd hl) hok).mp (hrest () hres)
  · intro h
    refine ⟨fun hl => (h hl).1, ?_⟩
    intro _ hres
    obtain ⟨hl, hok⟩ := (moveTap_result hf hcur hg.present hne).mp hres
    exact (hplace hl (h hl).1 hok).mpr ((h hl).2 hok)

theorem always_rehomeFrom_iff (hfiltered : b.filtered)
    (hcur : s.portToBr (tapName vm index) = some current)
    (hg : Guarded s current (tapName vm index) b.mac)
    (hport : env (.portToBr (tapName vm index)) = .ok) :
    Always (Closed (tapName vm index) b.mac) (rehomeFrom env net (tapName vm index) current b) s ↔
      staysClosed env net (tapName vm index) current b s := by
  have hkeep := keeps_desiredBridge env net vm index b s s (Extends.refl _ _)
  have halways : Always (Closed (tapName vm index) b.mac) (desiredBridge env net b) s :=
    fun t ht => (hkeep.1 t ht).closed ((closed_iff hcur).mpr hg)
  unfold rehomeFrom staysClosed
  rw [always_bind, and_iff_right halways, imp_iff_right hport, desiredBridge_result]
  cases hready : overlayReady env net b with
  | false =>
    refine iff_of_true ?_ ?_
    · intro a ha
      cases ha
    · intro h
      cases h
  | true =>
    have hext := hkeep.2
    have hcur' := hext.port.trans hcur
    have hg' := (hext.guarded_iff current b.mac).mpr hg
    have hone : ∀ Q : String → Prop, (∀ a, (if true then some (desiredName net b) else none) = some a →
        Q a) ↔ Q (desiredName net b) := by
      intro Q
      simp
    rw [hone, imp_iff_right rfl]
    by_cases heq : current = desiredName net b
    · rw [if_neg (by simpa using heq), if_pos heq]
      subst heq
      exact always_place_iff hfiltered hcur' hg'
    · rw [if_pos heq, if_neg heq, always_move_place_iff hfiltered hcur' hg' heq]
      unfold lands
      rw [desiredBridge_isNone hready, hext.guarded_iff]
      refine and_congr_right fun _ => ?_
      constructor
      · intro h h1 h2 h3
        exact h ⟨h1, h2, h3⟩
      · rintro h ⟨h1, h2, h3⟩
        exact h h1 h2 h3

/-- **A filtered NIC stays closed** through a call of `rehome`, at every intermediate point and
whatever fails, exactly under the condition. -/
theorem rehome_closed_iff (hfiltered : b.filtered)
    (hcur : s.portToBr (tapName vm index) = some current)
    (hg : Guarded s current (tapName vm index) b.mac) :
    Always (Closed (tapName vm index) b.mac) (rehome env net vm index b) s ↔
      staysClosed env net (tapName vm index) current b s := by
  have hres : (runStdout env (.portToBr (tapName vm index)) (fun s => s.portToBr (tapName vm index))
      s).result = if env (.portToBr (tapName vm index)) = .ok then some current else none := by
    show (if (Command.portToBr (tapName vm index)).refused s || _ then none else _) = _
    simp [refused, hcur]
  unfold rehome
  rw [always_attempt_bind, hres]
  by_cases hport : env (.portToBr (tapName vm index)) = .ok
  · rw [if_pos hport]
    exact (and_iff_right (always_query _)).trans (always_rehomeFrom_iff hfiltered hcur hg hport)
  · rw [if_neg hport]
    exact iff_of_true ⟨always_query _, always_pure _⟩ fun h => absurd h hport

end

/-- A running guest on the integration bridge, with its flows. -/
def webTap : String := tapName "0a1b2c3d" 0

def webBinding : NicBinding where
  mac := "02:00:00:00:00:01"
  vlan := 0
  vni := 0
  overlayPeers := []
  filtered := true
  ingressRules := []
  egressRules := []
  egressDefaultDeny := false
  encryptUnderlay := false

def intBackend : Backend := ⟨"br-int", false, true⟩

def webOnInt : Ovs where
  ports := [(webTap, "br-int")]
  bridges := fun br => if br = "br-int" then
    some (newBridge ++ buildFlows webTap webBinding.mac ⟨[], [], false⟩) else none
  tags := fun _ => 0

theorem webOnInt_guarded : Guarded webOnInt "br-int" webTap webBinding.mac := by
  refine ⟨newBridge ++ buildFlows webTap webBinding.mac ⟨[], [], false⟩, rfl, ?_⟩
  intro g hg
  exact mem_append_right _ (guardFlows_subset webTap webBinding.mac _ g hg)

/-- A move to an overlay whose bridge cannot be made: the NIC stays closed. -/
theorem rehome_closed_unready : webOnInt.portToBr webTap = some "br-int" ∧
      Always (Closed webTap webBinding.mac)
        (rehome (fun c => if c = .addBr (overlayBridge 7) then .failed 0 else .ok) intBackend
          "0a1b2c3d" 0 { webBinding with vni := 7 }) webOnInt := by
  refine ⟨by decide, ?_⟩
  refine (rehome_closed_iff (b := { webBinding with vni := 7 }) rfl (by decide)
    webOnInt_guarded).mpr ?_
  intro _ hready
  exact absurd hready (by decide)

/-- **A refresh opens the NIC.**  Every command succeeds, and at one point the bridge has none of
its flows; if `add-flows` is rejected, that is the state the call leaves. -/
theorem refresh_opens :
    Guarded webOnInt "br-int" webTap webBinding.mac ∧ webOnInt.portToBr webTap = some "br-int" ∧
      (∃ t ∈ (rehome (fun _ => .ok) intBackend "0a1b2c3d" 0 webBinding webOnInt).visited,
        t.portToBr webTap = some "br-int" ∧ t.bridges "br-int" = some newBridge) ∧
      (rehome (fun c => if c.batch then .failed 0 else .ok) intBackend "0a1b2c3d" 0 webBinding
        webOnInt).state.portToBr webTap = some "br-int" ∧
      (rehome (fun c => if c.batch then .failed 0 else .ok) intBackend "0a1b2c3d" 0 webBinding
        webOnInt).state.bridges "br-int" = some newBridge := by
  refine ⟨webOnInt_guarded, by decide, ?_, by decide, by decide⟩
  have hany : ((rehome (fun _ => .ok) intBackend "0a1b2c3d" 0 webBinding webOnInt).visited.any fun t =>
      t.portToBr webTap == some "br-int" && t.bridges "br-int" == some newBridge) = true := by decide
  obtain ⟨t, ht, hopen⟩ := any_eq_true.mp hany
  simp only [Bool.and_eq_true, beq_iff_eq] at hopen
  exact ⟨t, ht, hopen⟩

end VQuasar.Dataplane
