import VQuasar.Dataplane.Rehome

/-!
# Where a NIC is placed

`prepare`, `rehome` and `release` are called for a TAP again and again, each with a binding of its own
and each cut short by any command that fails.  What an earlier call left (a port on another bridge, a
tag, flows on a bridge the TAP has left) is what the next one finds.

`Traced` is what all of them keep.  `prepare_places_iff` and `rehome_places_iff` say from which of the
states they leave the next call, none of whose commands fails by itself, puts the TAP where its
binding says: `prepare` does not take a TAP off another bridge, `rehome` does nothing for a TAP that is
on none, and neither looks for flows on bridges the TAP has left.
-/

namespace VQuasar.Dataplane

open Tenancy FlowTable Scripts Runs List
open Command (addBr effect delFlows delPort delBr setTag clearTag addPort leaves refused)

/-! ## Calls -/

inductive NicCall
  | prepare (b : NicBinding)
  | rehome (b : NicBinding)
  | release

/-- A call for one NIC, with the way its commands go. -/
structure NicEvent where
  vm : String
  index : Nat
  env : Command → Outcome
  call : NicCall

def NicEvent.perform (net : Backend) (e : NicEvent) (s : Ovs) : Ovs :=
  match e.call with
  | .prepare b => (prepare e.env net e.vm e.index b s).state
  | .rehome b => (rehome e.env net e.vm e.index b s).state
  | .release => (release e.env net e.vm e.index s).state

def nicStep (net : Backend) (s : Ovs) (e : NicEvent) : Option Ovs := some (e.perform net s)

/-- Every command that is not refused goes through. -/
def allOk : Command → Outcome := fun _ => .ok

/-- A flow with the cookie of the TAP is on the bridge. -/
def Stray (s : Ovs) (tap br : String) : Prop :=
  ∃ flows, s.bridges br = some flows ∧ ∃ f ∈ flows, f.cookie = cookieFor tap

/-- The TAP is on the bridge of its binding only, with its tag, and its flows are on no other. -/
structure Placed (net : Backend) (tap : String) (b : NicBinding) (s : Ovs) : Prop where
  port : ∀ br, (tap, br) ∈ s.ports ↔ br = desiredName net b
  tag : s.tags tap = b.vlan
  flows : ∀ br, br ≠ desiredName net b → ¬ Stray s tap br

/-- The TAP is on the bridge of its binding only, with its tag, and exactly its flows are there. -/
structure Wired (net : Backend) (tap : String) (b : NicBinding) (s : Ovs) : Prop where
  port : ∀ br, (tap, br) ∈ s.ports ↔ br = desiredName net b
  tag : s.tags tap = b.vlan
  flows : ∃ flows, s.bridges (desiredName net b) = some flows ∧
    ∀ f, f ∈ flows ∧ f.cookie = cookieFor tap ↔ f ∈ nicFlows net tap b

/-- A TAP that no call has been made for, on a host with the integration bridge. -/
structure Untouched (net : Backend) (tap : String) (s : Ovs) : Prop where
  port : ∀ br, (tap, br) ∉ s.ports
  tag : s.tags tap = 0
  flows : ∀ br, ¬ Stray s tap br
  home : (s.bridges net.bridge).isSome

/-! ## What every call keeps -/

structure Traced (net : Backend) (tap : String) (s : Ovs) : Prop where
  single : ∀ br br', (tap, br) ∈ s.ports → (tap, br') ∈ s.ports → br = br'
  present : ∀ br, (tap, br) ∈ s.ports → (s.bridges br).isSome
  /-- only a TAP on the integration bridge has a tag -/
  tag : s.tags tap ≠ 0 → (tap, net.bridge) ∈ s.ports
  /-- its flows are in the tables that `clear` empties -/
  tables : ∀ br flows, s.bridges br = some flows → ∀ f ∈ flows, f.cookie = cookieFor tap →
    f.table = 0 ∨ f.table = resultTable
  home : (s.bridges net.bridge).isSome

section

variable {net : Backend} {s t : Ovs} {tap port br br' : String} {b : NicBinding}
  {mac : MacAddr} {f g : OvsFlow}

theorem Untouched.traced (h : Untouched net tap s) : Traced net tap s where
  single br _ hbr := absurd hbr (h.port br)
  present br hbr := absurd hbr (h.port br)
  tag hne := absurd h.tag hne
  tables br flows hflows f hf hc := absurd ⟨flows, hflows, f, hf, hc⟩ (h.flows br)
  home := h.home

theorem mem_of_portToBr (h : s.portToBr port = some br) : (port, br) ∈ s.ports := by
  obtain ⟨⟨p, br'⟩, hq, rfl⟩ := Option.map_eq_some_iff.mp h
  have hp : p = port := by simpa using List.find?_some hq
  exact hp ▸ mem_of_find?_eq_some hq

theorem portToBr_eq_none_iff : s.portToBr port = none ↔ ∀ br, (port, br) ∉ s.ports := by
  unfold Ovs.portToBr
  rw [Option.map_eq_none_iff, List.find?_eq_none]
  constructor
  · intro h br hbr
    exact h _ hbr (by simp)
  · rintro h ⟨p, br⟩ hq hp
    have hp' : p = port := by simpa using hp
    exact h br (hp' ▸ hq)

theorem portToBr_eq_some_iff (h : ∀ br br', (port, br) ∈ s.ports → (port, br') ∈ s.ports → br = br') :
    s.portToBr port = some br ↔ (port, br) ∈ s.ports := by
  refine ⟨mem_of_portToBr, fun hbr => ?_⟩
  cases hp : s.portToBr port with
  | none => exact absurd hbr (portToBr_eq_none_iff.mp hp br)
  | some br' => rw [h br br' hbr (mem_of_portToBr hp)]

theorem mem_attach_iff {q : String × String} :
    q ∈ (s.attach br port).ports ↔ q ∈ s.ports ∨ s.portToBr port = none ∧ q = (port, br) := by
  unfold Ovs.attach
  cases hp : s.portToBr port with
  | none | some => simp

theorem tags_attach : (s.attach br port).tags = s.tags := by
  unfold Ovs.attach
  split <;> rfl

/-! ### Flows of a NIC -/

/-- The action of a flow of a NIC, from its priority and its match. -/
def nicAction (z priority : Nat) (fields : List Field) : Action :=
  if priority = 1080 then .ct z
  else if priority = 90 ∨ priority = 80 then .commit z
  else if priority = spoofDropPriority ∨ priority = 20 ∨ priority = 10 ∨
      priority = 100 ∧ fields = [.ctZone z, .ctState .inv] then .drop
  else .normal

/-- What the flows that `apply_firewall` installs have in common. -/
structure FlowOfNic (tap : String) (mac : MacAddr) (f : OvsFlow) : Prop where
  cookie : f.cookie = cookieFor tap
  table : f.table = 0 ∨ f.table = resultTable
  action : f.action = nicAction (zoneFor tap) f.priority f.fields
  head : f.fields.head? = some (.inPort tap) ∨ f.fields.head? = some (.dlDst mac) ∨
    f.fields.head? = some (.ctZone (zoneFor tap))

theorem ofNic_buildFlows (tap : String) (mac : MacAddr) (policy : Policy) :
    ∀ f ∈ buildFlows tap mac policy, FlowOfNic tap mac f := by
  have hnew : ∀ {own : List Field} {dir rules closed high low f}, high = 90 ∨ high = 80 →
      low = 20 ∨ low = 10 →
      NewFlow (cookieFor tap) (zoneFor tap) own dir rules closed high low f → FlowOfNic tap mac f := by
    intro own dir rules closed high low f hhigh hlow hflow
    refine ⟨by cases hflow <;> rfl, by cases hflow <;> exact .inr rfl, ?_,
      by cases hflow <;> exact .inr (.inr rfl)⟩
    rcases hhigh with rfl | rfl <;> rcases hlow with rfl | rfl <;> cases hflow <;> rfl
  unfold buildFlows
  simp only [forall_mem_append]
  refine ⟨⟨⟨⟨⟨?_, ?_⟩, ?_⟩, fun f hf => hnew (.inl rfl) (.inl rfl) (mem_egressFlows hf)⟩,
    fun f hf => hnew (.inr rfl) (.inr rfl) (mem_ingressFlows hf)⟩, ?_⟩
  · intro f hf
    simp only [classifyFlows, mem_cons, not_mem_nil, or_false] at hf
    rcases hf with rfl | rfl | rfl | rfl <;> exact ⟨rfl, .inl rfl, rfl, .inl rfl⟩
  · intro f hf
    simp only [classifyFlows, mem_cons, not_mem_nil, or_false] at hf
    rcases hf with rfl | rfl | rfl | rfl <;> exact ⟨rfl, .inl rfl, rfl, .inr (.inl rfl)⟩
  · intro f hf
    simp only [mem_cons, not_mem_nil, or_false] at hf
    rcases hf with rfl | rfl | rfl | rfl | rfl
    · exact ⟨rfl, .inl rfl, rfl, .inl rfl⟩
    · exact ⟨rfl, .inl rfl, rfl, .inr (.inl rfl)⟩
    · exact ⟨rfl, .inr rfl, by simp [nicAction, spoofDropPriority], .inr (.inr rfl)⟩
    · exact ⟨rfl, .inr rfl, by simp [nicAction, spoofDropPriority], .inr (.inr rfl)⟩
    · exact ⟨rfl, .inr rfl, by simp [nicAction, spoofDropPriority], .inr (.inr rfl)⟩
  · intro f hf
    obtain rfl := mem_singleton.mp hf
    exact ⟨rfl, .inl rfl, rfl, .inl rfl⟩

theorem ofNic_portSecurity (tap : String) (mac : MacAddr) :
    ∀ f ∈ buildPortSecurityFlows tap mac, FlowOfNic tap mac f := by
  intro f hf
  simp only [buildPortSecurityFlows, mem_cons, not_mem_nil, or_false] at hf
  rcases hf with rfl | rfl | rfl <;> exact ⟨rfl, .inl rfl, rfl, .inl rfl⟩

theorem flowOfNic_nicFlows (net : Backend) (tap : String) (b : NicBinding) :
    ∀ f ∈ nicFlows net tap b, FlowOfNic tap b.mac f := by
  unfold nicFlows firewallFlows
  split
  · exact ofNic_buildFlows _ _ _
  · split
    · exact ofNic_portSecurity _ _
    · exact fun f hf => absurd hf not_mem_nil

theorem FlowOfNic.eq (hf : FlowOfNic tap mac f) (hg : FlowOfNic tap mac g)
    (htable : f.table = g.table) (hpriority : f.priority = g.priority)
    (hfields : f.fields = g.fields) : f = g := by
  have haction : f.action = g.action := by rw [hf.action, hg.action, hpriority, hfields]
  have hcookie : f.cookie = g.cookie := hf.cookie.trans hg.cookie.symm
  cases f
  cases g
  simp_all

theorem mem_installFlow_iff {flows : List OvsFlow} :
    g ∈ installFlow flows f ↔ g ∈ flows ∧
      ¬ (g.table = f.table ∧ g.priority = f.priority ∧ g.fields = f.fields) ∨ g = f := by
  unfold installFlow
  rw [mem_append, mem_filter, mem_singleton, Bool.not_eq_true', ← Bool.not_eq_true]
  simp only [Bool.and_eq_true, beq_iff_eq, and_assoc]

theorem own_installFlows (new : List OvsFlow) (hnew : ∀ f ∈ new, FlowOfNic tap mac f) :
    ∀ flows : List OvsFlow, (∀ f ∈ flows, f.cookie = cookieFor tap → FlowOfNic tap mac f) →
      ∀ f, f ∈ installFlows flows new ∧ f.cookie = cookieFor tap ↔
        f ∈ flows ∧ f.cookie = cookieFor tap ∨ f ∈ new := by
  induction new with
  | nil =>
    intro flows _ f
    simp [installFlows]
  | cons g new ih =>
    intro flows hflows f
    have hg := hnew g (mem_cons_self ..)
    have hstep : ∀ f, f ∈ installFlow flows g ∧ f.cookie = cookieFor tap ↔
        f ∈ flows ∧ f.cookie = cookieFor tap ∨ f = g := by
      intro f
      rw [mem_installFlow_iff]
      constructor
      · rintro ⟨⟨hf, -⟩ | rfl, hc⟩
        · exact .inl ⟨hf, hc⟩
        · exact .inr rfl
      · rintro (⟨hf, hc⟩ | rfl)
        · by_cases hkey : f.table = g.table ∧ f.priority = g.priority ∧ f.fields = g.fields
          · exact ⟨.inr ((hflows f hf hc).eq hg hkey.1 hkey.2.1 hkey.2.2), hc⟩
          · exact ⟨.inl ⟨hf, hkey⟩, hc⟩
        · exact ⟨.inr rfl, hg.cookie⟩
    have hflows' : ∀ f ∈ installFlow flows g, f.cookie = cookieFor tap → FlowOfNic tap mac f := by
      intro f hf hc
      rcases (hstep f).mp ⟨hf, hc⟩ with ⟨hold, -⟩ | rfl
      · exact hflows f hold hc
      · exact hg
    refine (ih (fun f hf => hnew f (mem_cons_of_mem _ hf)) _ hflows' f).trans ?_
    rw [hstep f, mem_cons, or_assoc]

/-! ### Command by command -/

section

variable (h : Traced net tap s)
include h

theorem Traced.addBr (br : String) : Traced net tap ((addBr br).effect s) := by
  simp only [effect]
  split
  · exact h
  have hsome : ∀ x, (s.bridges x).isSome →
      ((s.setFlows br (some newBridge)).bridges x).isSome := by
    intro x hx
    simp only [Ovs.setFlows]
    split
    · rfl
    · exact hx
  refine ⟨h.single, fun x hx => hsome x (h.present x hx), h.tag, ?_, hsome _ h.home⟩
  intro x flows hflows
  simp only [Ovs.setFlows] at hflows
  split at hflows
  · cases hflows
    intro f hf _
    obtain rfl := mem_singleton.mp hf
    exact .inl rfl
  · exact h.tables x flows hflows

theorem Traced.attach
    (hbr : port = tap → (s.bridges br).isSome) : Traced net tap (s.attach br port) := by
  have hmem : ∀ {x}, (tap, x) ∈ (s.attach br port).ports → (tap, x) ∈ s.ports ∨
      (∀ y, (tap, y) ∉ s.ports) ∧ port = tap ∧ x = br := by
    intro x hx
    rcases mem_attach_iff.mp hx with hold | ⟨hnone, hq⟩
    · exact .inl hold
    · obtain ⟨rfl, rfl⟩ := Prod.mk.inj hq
      exact .inr ⟨portToBr_eq_none_iff.mp hnone, rfl, rfl⟩
  constructor
  · intro x y hx hy
    rcases hmem hx with hx | ⟨hnone, -, rfl⟩
    · rcases hmem hy with hy | ⟨hnone, -⟩
      · exact h.single x y hx hy
      · exact absurd hx (hnone x)
    · rcases hmem hy with hy | ⟨-, -, rfl⟩
      · exact absurd hy (hnone y)
      · rfl
  · intro x hx
    rw [bridges_attach]
    rcases hmem hx with hx | ⟨-, hp, rfl⟩
    · exact h.present x hx
    · exact hbr hp
  · rw [tags_attach]
    exact fun hne => mem_attach_iff.mpr (.inl (h.tag hne))
  · rw [bridges_attach]
    exact h.tables
  · rw [bridges_attach]
    exact h.home

theorem Traced.setFlows {f : List OvsFlow → List OvsFlow}
    (hf : ∀ flows, (∀ g ∈ flows, g.cookie = cookieFor tap → g.table = 0 ∨ g.table = resultTable) →
      ∀ g ∈ f flows, g.cookie = cookieFor tap → g.table = 0 ∨ g.table = resultTable) :
    Traced net tap (s.setFlows br ((s.bridges br).map f)) := by
  have hsome : ∀ x, ((s.setFlows br ((s.bridges br).map f)).bridges x).isSome =
      (s.bridges x).isSome := by
    intro x
    simp only [Ovs.setFlows]
    split
    · next hx => rw [hx, Option.isSome_map]
    · rfl
  refine ⟨h.single, fun x hx => (hsome x).trans (h.present x hx), h.tag, ?_, (hsome _).trans h.home⟩
  intro x flows hflows
  simp only [Ovs.setFlows] at hflows
  split at hflows
  · obtain ⟨old, hold, rfl⟩ := Option.map_eq_some_iff.mp hflows
    exact hf old (h.tables br old hold)
  · exact h.tables x flows hflows

theorem Traced.delFlows (br : String) (cookie table : Nat) :
    Traced net tap ((delFlows br cookie table).effect s) :=
  h.setFlows fun _ hflows g hg => hflows g (mem_of_mem_filter hg)

end

theorem mem_installFlows_or (new : List OvsFlow) :
    ∀ {flows : List OvsFlow} {g : OvsFlow}, g ∈ installFlows flows new → g ∈ flows ∨ g ∈ new := by
  induction new with
  | nil => exact fun h => .inl h
  | cons f new ih =>
    intro flows g h
    rcases ih h with hold | hnew
    · rcases mem_installFlow_iff.mp hold with ⟨hold, -⟩ | rfl
      · exact .inl hold
      · exact .inr (mem_cons_self ..)
    · exact .inr (mem_cons_of_mem _ hnew)

section

variable (h : Traced net tap s)
include h

theorem Traced.addFlows (br : String) {new : List OvsFlow}
    (hnew : ∀ f ∈ new, f ∈ nicFlows net port b) :
    Traced net tap ((Command.addFlows br new).effect s) := by
  refine h.setFlows fun flows hflows g hg hc => ?_
  rcases mem_installFlows_or new hg with hold | hin
  · exact hflows g hold hc
  · exact (flowOfNic_nicFlows net port b g (hnew g hin)).table

theorem Traced.delPort (br port : String) : Traced net tap ((delPort br port).effect s) := by
  have hmem : ∀ {x}, (tap, x) ∈ ((Command.delPort br port).effect s).ports ↔
      (tap, x) ∈ s.ports ∧ tap ≠ port := by
    intro x
    simp [effect]
  refine ⟨?_, fun x hx => h.present x (hmem.mp hx).1, ?_, h.tables, h.home⟩
  · exact fun x y hx hy => h.single x y (hmem.mp hx).1 (hmem.mp hy).1
  · intro hne
    simp only [effect] at hne
    split at hne
    · exact absurd rfl hne
    · next hp => exact hmem.mpr ⟨h.tag hne, hp⟩

theorem Traced.delBr (hbr : br ≠ net.bridge) : Traced net tap ((delBr br).effect s) := by
  have hmem : ∀ {x}, (tap, x) ∈ ((Command.delBr br).effect s).ports ↔
      (tap, x) ∈ s.ports ∧ x ≠ br := by
    intro x
    simp [effect]
  have hother : ∀ {x}, x ≠ br → ((Command.delBr br).effect s).bridges x = s.bridges x :=
    fun hx => if_neg hx
  constructor
  · exact fun x y hx hy => h.single x y (hmem.mp hx).1 (hmem.mp hy).1
  · intro x hx
    rw [hother (hmem.mp hx).2]
    exact h.present x (hmem.mp hx).1
  · intro hne
    simp only [effect] at hne
    split at hne
    · exact absurd rfl hne
    · exact hmem.mpr ⟨h.tag hne, hbr.symm⟩
  · intro x flows hflows
    by_cases hx : x = br
    · subst hx
      simp [effect, Ovs.setFlows] at hflows
    · rw [hother hx] at hflows
      exact h.tables x flows hflows
  · rw [hother hbr.symm]
    exact h.home

theorem Traced.setTag (tag : Nat) (hport : port = tap → (tap, net.bridge) ∈ s.ports) :
    Traced net tap ((setTag port tag).effect s) := by
  refine ⟨h.single, h.present, ?_, h.tables, h.home⟩
  intro hne
  simp only [effect] at hne
  split at hne
  · next hp => exact hport hp.symm
  · exact h.tag hne

theorem Traced.clearTag (port : String) : Traced net tap ((clearTag port).effect s) := by
  refine ⟨h.single, h.present, ?_, h.tables, h.home⟩
  intro hne
  simp only [effect] at hne
  split at hne
  · exact absurd rfl hne
  · exact h.tag hne

end

end

/-! ### Call by call -/

section

variable {env : Command → Outcome} {net : Backend} {s t : Ovs}
  {tap port br current desired vm : String}
  {index : Nat} {b : NicBinding}

/-- If the port is the TAP, it is on the bridge. -/
def At (tap port br : String) (s : Ovs) : Prop := port = tap → (tap, br) ∈ s.ports

theorem keeps_traced_clear (br port : String) : Keeps (Traced net tap) (clear env br port) :=
  keeps_clear fun _ _ h => h.delFlows _ _ _

theorem keeps_traced_applyFirewall (br port : String) (b : NicBinding) :
    Keeps (Traced net tap) (applyFirewall env net br port b) :=
  keeps_applyFirewall (fun _ _ h => h.delFlows _ _ _) fun _ _ hnew h => h.addFlows _ hnew

theorem keeps_traced_desiredBridge (vm : String) (index : Nat) (b : NicBinding) :
    Keeps (Traced net (tapName vm index)) (desiredBridge env net b) :=
  keeps_desiredBridge_of (fun _ h => h.addBr _) fun _ _ h =>
    h.attach fun heq => absurd heq.symm (tapName_ne_tunnelPort vm index _ _)

theorem ports_addBr (br : String) (s : Ovs) : ((addBr br).effect s).ports = s.ports := by
  simp only [effect]
  split <;> rfl

theorem tags_addBr (br : String) (s : Ovs) : ((addBr br).effect s).tags = s.tags := by
  simp only [effect]
  split <;> rfl

theorem keeps_at_desiredBridge (tap port br : String) (b : NicBinding) :
    Keeps (At tap port br) (desiredBridge env net b) := by
  refine keeps_desiredBridge_of (fun s h heq => ?_) fun s _ h heq => ?_
  · rw [ports_addBr]
    exact h heq
  · exact mem_attach_iff.mpr (.inl (h heq))

theorem leads_desiredBridge {P : Ovs → Prop} (h : Keeps P (desiredBridge env net b)) :
    Leads P P (desiredBridge env net b) (fun name t => P t ∧ name = desiredName net b) := by
  intro s hs
  refine ⟨(h s hs).2, fun name hname => ⟨(h s hs).2, ?_⟩⟩
  rw [desiredBridge_result] at hname
  split at hname
  · exact (Option.some.inj hname).symm
  · cases hname

theorem leads_traced_addPort (br port : String) :
    Leads (Traced net tap) (Traced net tap) (run env (.addPort br port))
      (fun _ t => Traced net tap t ∧ At tap port br t) := by
  intro s hs
  have hkept : Traced net tap (run env (.addPort br port) s).state := by
    show Traced net tap ((addPort br port).leaves (env (.addPort br port)) s)
    cases hr : (addPort br port).refused s with
    | true =>
      unfold leaves
      rwa [if_pos hr]
    | false =>
      rcases leaves_single (c := .addPort br port) rfl (env (.addPort br port)) s with h | h
      · rwa [h]
      rw [h]
      have hpresent : (s.bridges br).isSome := by
        simp only [refused, Bool.or_eq_false_iff] at hr
        simpa using hr.1
      exact hs.attach fun _ => hpresent
  refine ⟨hkept, fun _ hres => ⟨hkept, ?_⟩⟩
  rintro rfl
  -- it was not refused, so the TAP was on this bridge or on none
  obtain ⟨hr, hok⟩ : (addPort br port).refused s = false ∧ env (.addPort br port) = .ok := by
    have hres' : (if !(addPort br port).refused s && env (.addPort br port) == .ok
        then some () else none) = some () := hres
    simpa using hres'
  show (port, br) ∈ ((addPort br port).leaves (env (.addPort br port)) s).ports
  rw [hok, leaves_of_effective hr rfl]
  simp only [refused, Bool.or_eq_false_iff] at hr
  refine mem_attach_iff.mpr ?_
  cases hp : s.portToBr port with
  | none => exact .inr ⟨rfl, rfl⟩
  | some x =>
    rw [hp] at hr
    have hx : x = br := by simpa using hr.2
    exact .inl (mem_of_portToBr (hx ▸ hp))

theorem keeps_traced_gcOverlay (hnet : net.bridge.startsWith "vxbr" = false) (br : String) :
    Keeps (Traced net tap) (gcOverlayIfEmpty env br) := by
  refine keeps_gcOverlay fun s hbr _ h => h.delBr ?_
  rintro rfl
  simp [hnet] at hbr

theorem keeps_at_gcOverlay (hne : current ≠ desired) :
    Keeps (At tap port desired) (gcOverlayIfEmpty env current) :=
  keeps_gcOverlay fun _ _ _ h heq => mem_filter.mpr ⟨h heq, by simpa using hne.symm⟩

/-- A tag goes to the TAP only on the integration bridge. -/
theorem leads_traced_setPlacement (port : String) (b : NicBinding) :
    Leads (fun t => Traced net tap t ∧ At tap port (desiredName net b) t) (Traced net tap)
      (setPlacement env port b) (fun _ => Traced net tap) := by
  unfold setPlacement setVlan
  split
  · next hvni =>
    have hname : desiredName net b = net.bridge := if_neg (by simpa using hvni)
    rw [hname]
    have hkeep : ∀ m : Script Ovs Unit, Keeps (fun t => Traced net tap t ∧ At tap port net.bridge t) m →
        Leads (fun t => Traced net tap t ∧ At tap port net.bridge t) (Traced net tap) m
          (fun _ => Traced net tap) :=
      fun m hm => hm.leads.mono (fun _ h => h) (fun _ h => h.1) (fun _ _ h => h.1)
    split
    · exact hkeep _ (keeps_run rfl fun _ h => ⟨h.1.setTag _ h.2, h.2⟩)
    · refine hkeep _ (keeps_bind (keeps_attempt (keeps_run rfl fun _ h => ?_)) fun _ => keeps_pure _)
      exact ⟨h.1.clearTag _, h.2⟩
  · exact leads_pure (fun _ h => h.1) fun _ h => h.1

theorem leads_traced_moveTap (hnet : net.bridge.startsWith "vxbr" = false) (port : String)
    (hne : current ≠ desired) :
    Leads (Traced net tap) (Traced net tap) (moveTap env port current desired)
      (fun _ t => Traced net tap t ∧ At tap port desired t) := by
  unfold moveTap
  refine leads_bind (keeps_attempt (keeps_traced_clear current port)).leads fun _ => ?_
  refine leads_bind (keeps_attempt (keeps_run rfl fun _ h => h.delPort _ _)).leads fun _ => ?_
  refine leads_bind (leads_traced_addPort desired port) fun _ => ?_
  exact ((keeps_traced_gcOverlay hnet current).and (keeps_at_gcOverlay hne)).leads.mono
    (fun _ h => h) (fun _ h => h.1) (fun _ _ h => h)

theorem portToBr_of_query (h : (runStdout env (.portToBr port) (fun s => s.portToBr port) s).result =
    some br) : s.portToBr port = some br := by
  have h' : (if _ then none else s.portToBr port) = some br := h
  exact (Option.ite_none_left_eq_some.mp h').2

theorem leads_traced_place (port : String) (b : NicBinding) :
    Leads (fun t => Traced net tap t ∧ At tap port (desiredName net b) t) (Traced net tap)
      (do setPlacement env port b
          applyFirewall env net (desiredName net b) port b) (fun _ => Traced net tap) :=
  leads_bind (leads_traced_setPlacement port b) fun _ =>
    (keeps_traced_applyFirewall (desiredName net b) port b).leads

theorem traced_rehome (hnet : net.bridge.startsWith "vxbr" = false) (vm' : String) (index' : Nat)
    (b : NicBinding) (h : Traced net (tapName vm index) s) :
    Traced net (tapName vm index) (rehome env net vm' index' b s).state := by
  unfold rehome
  rw [attempt_bind_state]
  cases hq : (runStdout env (.portToBr (tapName vm' index'))
      (fun s => s.portToBr (tapName vm' index')) s).result with
  | none => exact h
  | some current =>
    have hat : At (tapName vm index) (tapName vm' index') current s :=
      fun heq => heq ▸ mem_of_portToBr (portToBr_of_query hq)
    have hleads : Leads (fun t => Traced net (tapName vm index) t ∧
        At (tapName vm index) (tapName vm' index') current t) (Traced net (tapName vm index))
        (rehomeFrom env net (tapName vm' index') current b)
        (fun _ => Traced net (tapName vm index)) := by
      unfold rehomeFrom
      have hkeep : Keeps (fun t => Traced net (tapName vm index) t ∧
          At (tapName vm index) (tapName vm' index') current t) (desiredBridge env net b) :=
        (keeps_traced_desiredBridge vm index b).and (keeps_at_desiredBridge _ _ current b)
      refine leads_bind ((leads_desiredBridge hkeep).mono (fun _ ht => ht) (fun _ ht => ht.1)
        fun _ _ ht => ht) fun name => leads_fact fun hname => ?_
      subst hname
      refine leads_bind ?_ fun _ => leads_traced_place _ b
      split
      · next hne =>
        exact (leads_traced_moveTap hnet _ hne).mono (fun _ ht => ht.1) (fun _ ht => ht) fun _ _ ht => ht
      · next heq =>
        rw [← not_ne_iff.mp heq]
        exact leads_pure (fun _ ht => ht.1) fun _ ht => ht
    exact (hleads s ⟨h, hat⟩).1

theorem traced_prepare (vm' : String) (index' : Nat) (b : NicBinding)
    (h : Traced net (tapName vm index) s) :
    Traced net (tapName vm index) (prepare env net vm' index' b s).state := by
  have hsame : ∀ c : Command, c.batch = false → (∀ t, c.effect t = t) →
      Keeps (Traced net (tapName vm index)) (run env c) :=
    fun c hc heff => keeps_run hc fun t ht => (heff t).symm ▸ ht
  have hleads : Leads (Traced net (tapName vm index)) (Traced net (tapName vm index))
      (prepare env net vm' index' b) (fun _ => Traced net (tapName vm index)) := by
    unfold prepare
    refine leads_bind (keeps_attempt (hsame _ rfl fun _ => rfl)).leads fun _ => ?_
    refine leads_bind (hsame _ rfl fun _ => rfl).leads fun _ => ?_
    refine leads_bind (hsame _ rfl fun _ => rfl).leads fun _ => ?_
    refine leads_bind (leads_desiredBridge (keeps_traced_desiredBridge vm index b)) fun name =>
      leads_fact fun hname => ?_
    subst hname
    refine leads_bind (leads_traced_addPort _ _) fun _ => ?_
    refine leads_bind (leads_traced_setPlacement _ b) fun _ => ?_
    refine leads_bind (keeps_traced_applyFirewall _ _ b).leads fun _ => ?_
    exact leads_pure (fun _ ht => ht) fun _ ht => ht
  exact (hleads s h).1

section

variable (hnet : net.bridge.startsWith "vxbr" = false)
include hnet

theorem traced_release (vm' : String) (index' : Nat) (h : Traced net (tapName vm index) s) :
    Traced net (tapName vm index) (release env net vm' index' s).state := by
  have hfrom : ∀ found, Keeps (Traced net (tapName vm index))
      (releaseFrom env net (tapName vm' index') found) := by
    intro found
    cases found with
    | none =>
      exact keeps_bind (keeps_attempt (keeps_run rfl fun _ ht => ht.delPort _ _)) fun _ => keeps_pure _
    | some br =>
      refine keeps_bind (keeps_attempt (keeps_traced_clear br _)) fun _ => ?_
      refine keeps_bind (keeps_attempt (keeps_run rfl fun _ ht => ht.delPort _ _)) fun _ => ?_
      exact keeps_traced_gcOverlay hnet br
  have hkeeps : Keeps (Traced net (tapName vm index)) (release env net vm' index') := by
    refine keeps_bind (keeps_attempt (keeps_query _)) fun found => ?_
    refine keeps_bind (hfrom found) fun _ => ?_
    exact keeps_bind (keeps_attempt (keeps_run rfl fun _ ht => ht)) fun _ => keeps_pure _
  exact (hkeeps s h).2

theorem traced_perform (e : NicEvent)
    (h : Traced net (tapName vm index) s) : Traced net (tapName vm index) (e.perform net s) := by
  unfold NicEvent.perform
  split
  · exact traced_prepare _ _ _ h
  · exact traced_rehome hnet _ _ _ h
  · exact traced_release hnet _ _ h

theorem traced_reach (hr : Reach (nicStep net) anyStep (Untouched net (tapName vm index)) s) :
    Traced net (tapName vm index) s := by
  refine hr.invariant (fun _ hs => hs.traced) ?_
  intro s s' e hs _ hstep
  exact Option.some.inj hstep ▸ traced_perform hnet e hs

end

end

/-! ## The next call -/

section

variable {net : Backend} {s t : Ovs} {tap br current vm : String} {index : Nat} {b : NicBinding}
  {c : Command}

theorem run_allOk_state (hr : c.refused s = false) : (run allOk c s).state = c.effect s := by
  show c.leaves (allOk c) s = c.effect s
  exact leaves_of_effective hr rfl

theorem run_allOk_result (hr : c.refused s = false) : (run allOk c s).result = some () :=
  run_result hr

theorem passes_run_allOk {Q : Unit → Ovs → Prop} :
    Passes (run allOk c) s Q ↔ c.refused s = false ∧ Q () (c.effect s) := by
  cases hr : c.refused s with
  | false =>
    rw [passes_iff (run_allOk_result hr), run_allOk_state hr]
    simp
  | true =>
    refine iff_of_false ?_ (by simp)
    rintro ⟨u, hu, -⟩
    have hu' : (if !c.refused s && allOk c == .ok then some () else none) = some u := hu
    simp [hr] at hu'

theorem overlayReady_allOk (net : Backend) (b : NicBinding) : overlayReady allOk net b := by
  simp [overlayReady, allOk]

theorem cookieFor_ne_zero (tap : String) : cookieFor tap ≠ 0 := by
  intro h
  have hbit := congrArg (fun n => n.testBit 0) h
  simp [cookieFor] at hbit

theorem not_stray_newBridge (hbr : s.bridges br = some newBridge) : ¬ Stray s tap br := by
  rintro ⟨flows, hflows, f, hf, hc⟩
  obtain rfl := Option.mem_unique hbr hflows
  obtain rfl := mem_singleton.mp hf
  exact cookieFor_ne_zero tap hc.symm

theorem stray_congr (h : t.bridges br = s.bridges br) : Stray t tap br ↔ Stray s tap br := by
  unfold Stray
  rw [h]

/-- `t` has the TAP where `s` has it, with its tag, and at most a new bridge. -/
structure Grown (tap : String) (s t : Ovs) : Prop where
  ports : ∀ br, (tap, br) ∈ t.ports ↔ (tap, br) ∈ s.ports
  tag : t.tags tap = s.tags tap
  bridges : ∀ br, t.bridges br = s.bridges br ∨ s.bridges br = none ∧ t.bridges br = some newBridge

theorem Grown.stray_iff (h : Grown tap s t) (br : String) : Stray t tap br ↔ Stray s tap br := by
  rcases h.bridges br with hb | ⟨hnone, hnew⟩
  · exact stray_congr hb
  · refine iff_of_false (not_stray_newBridge hnew) ?_
    rintro ⟨flows, hflows, -⟩
    cases hnone.symm.trans hflows

theorem desiredBridge_allOk (b : NicBinding) (h : Traced net (tapName vm index) s) :
    (desiredBridge allOk net b s).result = some (desiredName net b) ∧
      Grown (tapName vm index) s (desiredBridge allOk net b s).state ∧
      ((desiredBridge allOk net b s).state.bridges (desiredName net b)).isSome ∧
      Traced net (tapName vm index) (desiredBridge allOk net b s).state := by
  have hready := overlayReady_allOk net b
  refine ⟨by rw [desiredBridge_result, hready]; rfl, ?_, ?_,
    (keeps_traced_desiredBridge vm index b s h).2⟩
  · have hext := (keeps_desiredBridge allOk net vm index b s s (.refl _ s)).2
    have hkeep : Keeps (fun t => (∀ br, (tapName vm index, br) ∈ t.ports ↔
        (tapName vm index, br) ∈ s.ports) ∧ t.tags = s.tags) (desiredBridge allOk net b) := by
      refine keeps_desiredBridge_of (fun t ht => ?_) fun t i ht => ⟨fun br => ?_, ?_⟩
      · rwa [ports_addBr, tags_addBr]
      · rw [mem_attach_iff, ht.1 br]
        refine or_iff_left ?_
        rintro ⟨-, heq⟩
        exact tapName_ne_tunnelPort vm index _ _ (Prod.mk.inj heq).1
      · rw [tags_attach]
        exact ht.2
    obtain ⟨hports, htags⟩ := (hkeep s ⟨fun _ => Iff.rfl, rfl⟩).2
    exact ⟨hports, congrFun htags _, hext.bridges⟩
  · have hnone := (desiredBridge_isNone (s := s) hready).mpr fun _ => by simpa using h.home
    simpa using hnone

def SameBut (br : String) (s t : Ovs) : Prop :=
  t.ports = s.ports ∧ t.tags = s.tags ∧ ∀ x, x ≠ br → t.bridges x = s.bridges x

theorem SameBut.setFlows (h : SameBut br s t) (flows : Option (List OvsFlow)) :
    SameBut br s (t.setFlows br flows) :=
  ⟨h.1, h.2.1, fun x hx => (if_neg hx).trans (h.2.2 x hx)⟩

section

variable (env : Command → Outcome)
include env

theorem keeps_sameBut_clear (br tap : String) : Keeps (SameBut br s) (clear env br tap) :=
  keeps_clear fun _ _ h => h.setFlows _

theorem keeps_sameBut_applyFirewall (br tap : String) (b : NicBinding) :
    Keeps (SameBut br s) (applyFirewall env net br tap b) :=
  keeps_applyFirewall (fun _ _ h => h.setFlows _) fun _ _ _ h => h.setFlows _

theorem keeps_present_clear (br tap : String) :
    Keeps (fun t => (t.bridges br).isSome = true) (clear env br tap) := by
  refine keeps_clear fun t table ht => ?_
  show ((if br = br then _ else _ : Option (List OvsFlow))).isSome = true
  rwa [if_pos rfl, Option.isSome_map]

end

theorem applyFirewall_allOk (hbr : (s.bridges br).isSome) :
    (applyFirewall allOk net br tap b s).result = some () := by
  have hpresent := (keeps_present_clear allOk br tap s hbr).2
  have hadd : ∀ new, ((clear allOk br tap >>= fun _ => run allOk (.addFlows br new)) s).result =
      some () := by
    intro new
    have hclear : (clear allOk br tap s).result = if true then some () else none := rfl
    rw [bind_result_ite hclear]
    exact run_allOk_result (by simpa [refused] using hpresent)
  unfold applyFirewall
  cases b.filtered with
  | true => exact hadd _
  | false =>
    cases net.portSecurity with
    | true => exact hadd _
    | false => rfl

theorem portToBr_of_ports (h : ∀ x, (tap, x) ∈ s.ports ↔ x = br) : s.portToBr tap = some br := by
  refine (portToBr_eq_some_iff fun x y hx hy => ?_).mpr ((h br).mpr rfl)
  rw [(h x).mp hx, (h y).mp hy]

theorem setPlacement_allOk (hport : s.portToBr tap = some br) :
    (setPlacement allOk tap b s).result = some () ∧
      SameNet s (setPlacement allOk tap b s).state ∧
      (setPlacement allOk tap b s).state.tags tap = if b.vni = 0 then b.vlan else s.tags tap := by
  refine ⟨?_, (keeps_setPlacement allOk tap b s ⟨rfl, rfl⟩).2, ?_⟩
  · cases hres : (setPlacement allOk tap b s).result with
    | some u => rfl
    | none => exact absurd rfl ((setPlacement_result hport).mp hres).2.2
  · have hset : (setTag tap b.vlan).refused s = false := by simp [refused, hport]
    have hclear : (clearTag tap).refused s = false := by simp [refused, hport]
    unfold setPlacement setVlan
    split
    · split
      · rw [run_allOk_state hset]
        exact if_pos rfl
      · next hvlan =>
        rw [attempt_bind_state]
        show (run allOk (.clearTag tap) s).state.tags tap = _
        rw [run_allOk_state hclear, not_ne_iff.mp hvlan]
        exact if_pos rfl
    · rfl

section

variable (hbr : (s.bridges br).isSome) (htables : ∀ flows, s.bridges br = some flows → ∀ f ∈ flows,
  f.cookie = cookieFor tap → f.table = 0 ∨ f.table = resultTable)
include hbr htables

theorem clear_allOk : ¬ Stray (clear allOk br tap s).state tap br := by
  obtain ⟨flows, hflows⟩ := Option.isSome_iff_exists.mp hbr
  have hfirst : (run allOk (.delFlows br (cookieFor tap) 0) s).state =
      (delFlows br (cookieFor tap) 0).effect s :=
    run_allOk_state (by simp [refused, hflows])
  have hstate : (clear allOk br tap s).state = (delFlows br (cookieFor tap) resultTable).effect
      ((delFlows br (cookieFor tap) 0).effect s) := by
    show (run allOk _ (run allOk _ s).state).state = _
    rw [hfirst, run_allOk_state (by simp [refused, effect, Ovs.setFlows, hflows])]
  rw [hstate]
  rintro ⟨left, hleft, f, hf, hc⟩
  simp only [effect, Ovs.setFlows, if_true, hflows, Option.map_some, Option.some.injEq]
    at hleft
  subst hleft
  simp only [mem_filter] at hf
  obtain ⟨⟨hin, h0⟩, hresult⟩ := hf
  rcases htables flows hflows f hin hc with ht | ht
  · simp [hc, ht] at h0
  · simp [hc, ht] at hresult

theorem applyFirewall_installs :
    ∃ flows, (applyFirewall allOk net br tap b s).state.bridges br = some flows ∧
      ∀ f, f ∈ flows ∧ f.cookie = cookieFor tap ↔ f ∈ nicFlows net tap b := by
  have hpresent := (keeps_present_clear allOk br tap s hbr).2
  have hgone := clear_allOk hbr htables
  obtain ⟨left, hleft⟩ := Option.isSome_iff_exists.mp hpresent
  have hnone : ∀ f ∈ left, f.cookie ≠ cookieFor tap :=
    fun f hf hc => hgone ⟨left, hleft, f, hf, hc⟩
  have hadd : ∀ new, (∀ f ∈ new, FlowOfNic tap b.mac f) →
      ∃ flows, ((clear allOk br tap >>= fun _ => run allOk (.addFlows br new)) s).state.bridges br =
          some flows ∧ ∀ f, f ∈ flows ∧ f.cookie = cookieFor tap ↔ f ∈ new := by
    intro new hnew
    refine ⟨installFlows left new, ?_, fun f => ?_⟩
    · rw [bind_state_of_result (a := ()) rfl, run_allOk_state (by simp [refused, hleft])]
      simp [effect, Ovs.setFlows, hleft]
    · rw [own_installFlows new hnew left fun g hg hc => absurd hc (hnone g hg)]
      exact or_iff_right fun h => hnone f h.1 h.2
  have hnic := flowOfNic_nicFlows net tap b
  unfold nicFlows NicBinding.policy at hnic ⊢
  unfold applyFirewall
  cases hf : b.filtered with
  | true =>
    rw [hf] at hnic
    exact hadd _ hnic
  | false =>
    rw [hf] at hnic
    cases hp : net.portSecurity with
    | true =>
      rw [hp] at hnic
      exact hadd _ hnic
    | false => exact ⟨left, hleft, fun f => iff_of_false (fun h => hnone f h.1 h.2) not_mem_nil⟩

end

theorem place_allOk (hport : ∀ x, (tap, x) ∈ s.ports ↔ x = desiredName net b)
    (hpresent : (s.bridges (desiredName net b)).isSome)
    (htables : ∀ flows, s.bridges (desiredName net b) = some flows → ∀ f ∈ flows,
      f.cookie = cookieFor tap → f.table = 0 ∨ f.table = resultTable)
    (htag : b.vni ≠ 0 → s.tags tap = b.vlan) :
    ∃ t : Ovs, Wired net tap b t ∧ (∀ x, x ≠ desiredName net b → t.bridges x = s.bridges x) ∧
      ∀ Q : Unit → Ovs → Prop, Passes (setPlacement allOk tap b) s (fun _ t =>
        Passes (applyFirewall allOk net (desiredName net b) tap b) t Q) ↔ Q () t := by
  obtain ⟨hres, hsame, htag'⟩ := setPlacement_allOk (b := b) (portToBr_of_ports hport)
  rw [← hsame.2] at hpresent htables
  have hfirewall : SameBut (desiredName net b) (setPlacement allOk tap b s).state
      (applyFirewall allOk net (desiredName net b) tap b (setPlacement allOk tap b s).state).state :=
    (keeps_sameBut_applyFirewall allOk _ tap b _ ⟨rfl, rfl, fun _ _ => rfl⟩).2
  obtain ⟨hports, htags, hbridges⟩ := hfirewall
  refine ⟨_, ⟨?_, ?_, applyFirewall_installs hpresent htables⟩, fun x hx => ?_, fun Q => ?_⟩
  · rwa [hports, hsame.1]
  · rw [congrFun htags tap, htag']
    split
    · rfl
    · next hvni => exact htag hvni
  · exact (hbridges x hx).trans (congrFun hsame.2 x)
  · rw [passes_iff hres, passes_iff (applyFirewall_allOk hpresent)]

theorem moveTap_allOk {desired : String} (h : Traced net tap s)
    (hcur : (tap, current) ∈ s.ports) (hne : current ≠ desired)
    (hpresent : (s.bridges desired).isSome) :
    ∃ t : Ovs, ((∀ x, (tap, x) ∈ t.ports ↔ x = desired) ∧ t.tags tap = 0 ∧
        (∀ x, x ≠ current → t.bridges x = s.bridges x) ∧ ¬ Stray t tap current) ∧
      ∀ Q : Unit → Ovs → Prop, Passes (moveTap allOk tap current desired) s Q ↔ Q () t := by
  have hclear := (keeps_sameBut_clear allOk current tap s ⟨rfl, rfl, fun _ _ => rfl⟩).2
  have hthere := (keeps_present_clear allOk current tap s (h.present current hcur)).2
  have hgone : ¬ Stray (clear allOk current tap s).state tap current :=
    clear_allOk (h.present current hcur) (h.tables current)
  unfold moveTap
  simp only [passes_attempt_bind]
  generalize (clear allOk current tap s).state = t₁ at hclear hthere hgone ⊢
  -- off the old bridge
  have hport : t₁.portToBr tap = some current :=
    (portToBr_eq_some_iff (hclear.1 ▸ h.single)).mpr (hclear.1 ▸ hcur)
  rw [run_allOk_state (by simpa [refused, hport] using hthere)]
  have hoff : ∀ x, (tap, x) ∉ ((delPort current tap).effect t₁).ports :=
    portToBr_eq_none_iff.mp portToBr_delPort
  have htag : ((delPort current tap).effect t₁).tags tap = 0 := if_pos rfl
  have hbridges : ((delPort current tap).effect t₁).bridges = t₁.bridges := rfl
  generalize (delPort current tap).effect t₁ = t₂ at hoff htag hbridges ⊢
  -- on the new one
  have hadd : (addPort desired tap).refused t₂ = false := by
    simp only [refused, hbridges, portToBr_eq_none_iff.mpr hoff, hclear.2.2 desired hne.symm]
    simpa using hpresent
  simp only [passes_bind, passes_run_allOk, and_iff_right hadd]
  have hgc : Keeps (fun t : Ovs => (∀ x, (tap, x) ∈ t.ports ↔ x = desired) ∧ t.tags tap = 0 ∧
      (∀ x, x ≠ current → t.bridges x = s.bridges x) ∧ ¬ Stray t tap current)
      (gcOverlayIfEmpty allOk current) := by
    refine keeps_gcOverlay fun t _ _ ht => ⟨fun x => ?_, ?_, fun x hx => ?_, ?_⟩
    · show (tap, x) ∈ t.ports.filter (fun q => q.2 != current) ↔ _
      rw [mem_filter, ht.1 x]
      refine and_iff_left_of_imp ?_
      rintro rfl
      simpa using hne.symm
    · show (if _ then 0 else t.tags tap) = 0
      rw [ht.2.1, ite_self]
    · exact (if_neg hx).trans (ht.2.2.1 x hx)
    · rintro ⟨flows, hflows, -⟩
      simp [effect, Ovs.setFlows] at hflows
  refine ⟨(gcOverlayIfEmpty allOk current ((addPort desired tap).effect t₂)).state,
    (hgc _ ⟨fun x => ?_, ?_, fun x hx => ?_, ?_⟩).2,
    fun Q => passes_iff (gcOverlayIfEmpty_result current _)⟩
  · refine mem_attach_iff.trans ⟨?_, ?_⟩
    · rintro (hold | ⟨-, hq⟩)
      · exact absurd hold (hoff x)
      · exact (Prod.mk.inj hq).2
    · rintro rfl
      exact .inr ⟨portToBr_eq_none_iff.mpr hoff, rfl⟩
  · exact (congrFun tags_attach tap).trans htag
  · show (t₂.attach desired tap).bridges x = _
    rw [bridges_attach, hbridges]
    exact hclear.2.2 x hx
  · refine (stray_congr ?_).not.mpr hgone
    show (t₂.attach desired tap).bridges current = _
    rw [bridges_attach, hbridges]

theorem overlayBridge_ne (hnet : net.bridge.startsWith "vxbr" = false) (vni : Nat) :
    overlayBridge vni ≠ net.bridge := by
  intro h
  rw [← h] at hnet
  simp [overlayBridge] at hnet

theorem Traced.untagged (h : Traced net tap s) (hnet : net.bridge.startsWith "vxbr" = false)
    (hport : ∀ x, (tap, x) ∈ s.ports → x = desiredName net b) (hvni : b.vni ≠ 0) :
    s.tags tap = 0 := by
  by_contra hne
  have hname := hport _ (h.tag hne)
  rw [desiredName, if_pos hvni] at hname
  exact overlayBridge_ne hnet b.vni hname.symm

theorem addPort_refused_iff (h : Traced net tap s) (hbr : (s.bridges br).isSome) :
    (addPort br tap).refused s = false ↔ ∀ x, (tap, x) ∈ s.ports → x = br := by
  have hnone : (s.bridges br).isNone = false := by simpa using hbr
  simp only [refused, hnone, Bool.false_or, Option.any_eq_false]
  constructor
  · intro hall x hx
    simpa using hall x ((portToBr_eq_some_iff h.single).mpr hx)
  · intro hall x hx
    simpa using hall x (mem_of_portToBr hx)

theorem attach_ports (h : ∀ x, (tap, x) ∈ s.ports → x = br) (x : String) :
    (tap, x) ∈ (s.attach br tap).ports ↔ x = br := by
  refine mem_attach_iff.trans ⟨?_, ?_⟩
  · rintro (hold | ⟨-, hq⟩)
    · exact h x hold
    · exact (Prod.mk.inj hq).2
  · rintro rfl
    cases hp : s.portToBr tap with
    | none => exact .inr ⟨rfl, rfl⟩
    | some y => exact .inl (h y (mem_of_portToBr hp) ▸ mem_of_portToBr hp)

theorem passes_prepare (b : NicBinding) (h : Traced net (tapName vm index) s)
    (Q : PreparedNic → Ovs → Prop) :
    Passes (prepare allOk net vm index b) s Q ↔
      Passes (run allOk (.addPort (desiredName net b) (tapName vm index)))
        (desiredBridge allOk net b s).state fun _ t =>
          Passes (setPlacement allOk (tapName vm index) b) t fun _ t =>
            Passes (applyFirewall allOk net (desiredName net b) (tapName vm index) b) t fun _ =>
              Q ⟨tapName vm index, b.mac⟩ := by
  have hsame : (run allOk (.linkUp (tapName vm index)) (run allOk (.tuntapAdd (tapName vm index))
      (run allOk (.linkDel (tapName vm index)) s).state).state).state = s := rfl
  unfold prepare
  rw [passes_attempt_bind, passes_bind, passes_iff (run_allOk_result rfl), passes_bind,
    passes_iff (run_allOk_result rfl), hsame, passes_bind,
    passes_iff (desiredBridge_allOk b h).1]
  simp only [passes_bind, passes_pure]

theorem prepare_allOk (hnet : net.bridge.startsWith "vxbr" = false) (hb : b.vni ≠ 0 → b.vlan = 0)
    (h : Traced net (tapName vm index) s)
    (hport : ∀ br, (tapName vm index, br) ∈ s.ports → br = desiredName net b) :
    ∃ t, Wired net (tapName vm index) b t ∧ (∀ x, x ≠ desiredName net b →
        (Stray t (tapName vm index) x ↔ Stray s (tapName vm index) x)) ∧
      ∀ Q, Passes (prepare allOk net vm index b) s Q ↔ Q ⟨tapName vm index, b.mac⟩ t := by
  obtain ⟨-, hgrown, hpresent, hkept⟩ := desiredBridge_allOk b h
  have hstart := passes_prepare b h
  generalize (desiredBridge allOk net b s).state = t₁ at hgrown hpresent hkept hstart
  have hport' : ∀ x, (tapName vm index, x) ∈ t₁.ports → x = desiredName net b :=
    fun x hx => hport x ((hgrown.ports x).mp hx)
  obtain ⟨t, hwired, hbridges, hplace⟩ := place_allOk (s := t₁.attach (desiredName net b)
      (tapName vm index)) (attach_ports hport') (by rwa [bridges_attach])
    (by rw [bridges_attach]; exact hkept.tables _)
    fun hvni => by rw [tags_attach, hkept.untagged hnet hport' hvni, hb hvni]
  refine ⟨t, hwired, fun x hx => ?_, fun Q => ?_⟩
  · rw [stray_congr (hbridges x hx), stray_congr (congrFun bridges_attach x), hgrown.stray_iff]
  · rw [hstart, passes_run_allOk, and_iff_right ((addPort_refused_iff hkept hpresent).mpr hport')]
    exact hplace _

theorem prepare_refused (h : Traced net (tapName vm index) s)
    {Q : PreparedNic → Ovs → Prop} (hpasses : Passes (prepare allOk net vm index b) s Q) :
    ∀ br, (tapName vm index, br) ∈ s.ports → br = desiredName net b := by
  obtain ⟨-, hgrown, hpresent, hkept⟩ := desiredBridge_allOk b h
  rw [passes_prepare b h, passes_run_allOk, addPort_refused_iff hkept hpresent] at hpasses
  exact fun br hbr => hpasses.1 br ((hgrown.ports br).mpr hbr)

theorem rehome_allOk (hnet : net.bridge.startsWith "vxbr" = false) (hb : b.vni ≠ 0 → b.vlan = 0)
    (h : Traced net (tapName vm index) s) (hcur : (tapName vm index, current) ∈ s.ports) :
    ∃ t, Wired net (tapName vm index) b t ∧ (∀ x, x ≠ desiredName net b →
        (Stray t (tapName vm index) x ↔ x ≠ current ∧ Stray s (tapName vm index) x)) ∧
      ∀ Q, Passes (rehome allOk net vm index b) s Q ↔ Q () t := by
  have hans : (runStdout allOk (.portToBr (tapName vm index)) (fun s => s.portToBr (tapName vm index))
      s).result = some current := by
    have hq := (portToBr_eq_some_iff h.single).mpr hcur
    show (if (s.portToBr (tapName vm index)).isNone || false then none else _) = _
    rw [hq]
    rfl
  obtain ⟨hres, hgrown, hpresent, hkept⟩ := desiredBridge_allOk b h
  have hstart : ∀ Q, Passes (rehome allOk net vm index b) s Q ↔
      Passes (if current ≠ desiredName net b then
          moveTap allOk (tapName vm index) current (desiredName net b) else pure ())
        (desiredBridge allOk net b s).state fun _ t =>
          Passes (setPlacement allOk (tapName vm index) b) t fun _ t =>
            Passes (applyFirewall allOk net (desiredName net b) (tapName vm index) b) t Q := by
    intro Q
    unfold rehome
    rw [passes_attempt_bind, hans]
    show Passes (rehomeFrom allOk net (tapName vm index) current b) s Q ↔ _
    unfold rehomeFrom
    rw [passes_bind, passes_iff hres]
    simp only [passes_bind]
  generalize (desiredBridge allOk net b s).state = t₁ at hgrown hpresent hkept hstart
  have hcur' := (hgrown.ports current).mpr hcur
  by_cases hne : current ≠ desiredName net b
  · obtain ⟨u, ⟨hports, htag, hbridges, hgone⟩, hmove⟩ :=
      moveTap_allOk hkept hcur' hne hpresent
    have hdesired := hbridges _ (Ne.symm hne)
    obtain ⟨t, hwired, hrest, hplace⟩ := place_allOk hports (by rwa [hdesired])
      (by rw [hdesired]; exact hkept.tables _) fun hvni => htag.trans (hb hvni).symm
    refine ⟨t, hwired, fun x hx => ?_, fun Q => ?_⟩
    · rw [stray_congr (hrest x hx)]
      by_cases hxc : x = current
      · exact iff_of_false (hxc ▸ hgone) fun hs => hs.1 hxc
      · rw [stray_congr (hbridges x hxc), hgrown.stray_iff, and_iff_right hxc]
    · rw [hstart, if_pos hne, hmove, hplace]
  · have heq := not_ne_iff.mp hne
    have hports : ∀ x, (tapName vm index, x) ∈ t₁.ports ↔ x = desiredName net b := by
      intro x
      rw [← heq]
      exact ⟨fun hx => hkept.single x current hx hcur', fun hx => hx ▸ hcur'⟩
    obtain ⟨t, hwired, hrest, hplace⟩ := place_allOk hports hpresent (hkept.tables _) fun hvni =>
      (hkept.untagged hnet (fun x => (hports x).mp) hvni).trans (hb hvni).symm
    refine ⟨t, hwired, fun x hx => ?_, fun Q => ?_⟩
    · rw [stray_congr (hrest x hx), hgrown.stray_iff, and_iff_right (heq ▸ hx)]
    · rw [hstart, if_neg hne, passes_pure, hplace]

theorem rehome_allOk_none (hnone : ∀ br, (tapName vm index, br) ∉ s.ports)
    (Q : Unit → Ovs → Prop) : Passes (rehome allOk net vm index b) s Q ↔ Q () s := by
  have hans : (runStdout allOk (.portToBr (tapName vm index)) (fun s => s.portToBr (tapName vm index))
      s).result = none := by
    show (if (s.portToBr (tapName vm index)).isNone || false then none else _) = _
    rw [portToBr_eq_none_iff.mpr hnone]
    rfl
  unfold rehome
  rw [passes_attempt_bind, hans]
  exact passes_pure

theorem Wired.placed_iff (h : Wired net tap b s) :
    Placed net tap b s ↔ ∀ br, br ≠ desiredName net b → ¬ Stray s tap br :=
  ⟨Placed.flows, fun hflows => ⟨h.port, h.tag, hflows⟩⟩

section

variable (hnet : net.bridge.startsWith "vxbr" = false) (hb : b.vni ≠ 0 → b.vlan = 0) (h : Traced net
  (tapName vm index) s)
include hnet hb h

theorem passes_prepare_iff :
    Passes (prepare allOk net vm index b) s (fun _ => Placed net (tapName vm index) b) ↔
      (∀ br, (tapName vm index, br) ∈ s.ports → br = desiredName net b) ∧
        ∀ br, br ≠ desiredName net b → ¬ Stray s (tapName vm index) br := by
  refine ⟨fun hpasses => ⟨prepare_refused h hpasses, ?_⟩, ?_⟩
  · obtain ⟨t, hwired, hstray, hall⟩ := prepare_allOk hnet hb h (prepare_refused h hpasses)
    intro br hbr
    rw [← hstray br hbr]
    exact ((hall _).mp hpasses).flows br hbr
  · rintro ⟨hport, hflows⟩
    obtain ⟨t, hwired, hstray, hall⟩ := prepare_allOk hnet hb h hport
    rw [hall, hwired.placed_iff]
    intro br hbr
    rw [hstray br hbr]
    exact hflows br hbr

theorem passes_rehome_iff :
    Passes (rehome allOk net vm index b) s (fun _ => Placed net (tapName vm index) b) ↔
      ∃ current, (tapName vm index, current) ∈ s.ports ∧
        ∀ br, br ≠ current → br ≠ desiredName net b → ¬ Stray s (tapName vm index) br := by
  by_cases hon : ∃ current, (tapName vm index, current) ∈ s.ports
  · obtain ⟨current, hcur⟩ := hon
    obtain ⟨t, hwired, hstray, hall⟩ := rehome_allOk hnet hb h hcur
    rw [hall, hwired.placed_iff]
    constructor
    · intro hflows
      refine ⟨current, hcur, fun br hbr hdes hs => ?_⟩
      exact hflows br hdes ((hstray br hdes).mpr ⟨hbr, hs⟩)
    · rintro ⟨c, hc, hflows⟩ br hdes hs
      obtain ⟨hbr, hs'⟩ := (hstray br hdes).mp hs
      exact hflows br (h.single c current hc hcur ▸ hbr) hdes hs'
  · have hnone : ∀ br, (tapName vm index, br) ∉ s.ports := fun br hbr => hon ⟨br, hbr⟩
    rw [rehome_allOk_none hnone]
    refine iff_of_false (fun hplaced => ?_) fun ⟨c, hc, _⟩ => hnone c hc
    exact hnone _ ((hplaced.port _).mpr rfl)

end

/-- **The next call for a TAP**, after any calls: `prepare` puts the TAP where its binding says
exactly if the TAP is on no other bridge and has no flows on another one, and `rehome` exactly if it
is on some bridge and has no flows on a third one. -/
theorem placement_converges_iff (hnet : net.bridge.startsWith "vxbr" = false)
    (hr : Reach (nicStep net) anyStep (Untouched net (tapName vm index)) s)
    (hb : b.vni ≠ 0 → b.vlan = 0) :
    (Passes (prepare allOk net vm index b) s (fun _ => Placed net (tapName vm index) b) ↔
      (∀ br, (tapName vm index, br) ∈ s.ports → br = desiredName net b) ∧
        ∀ br, br ≠ desiredName net b → ¬ Stray s (tapName vm index) br) ∧
    (Passes (rehome allOk net vm index b) s (fun _ => Placed net (tapName vm index) b) ↔
      ∃ current, (tapName vm index, current) ∈ s.ports ∧
        ∀ br, br ≠ current → br ≠ desiredName net b → ¬ Stray s (tapName vm index) br) :=
  ⟨passes_prepare_iff hnet hb (traced_reach hnet hr), passes_rehome_iff hnet hb (traced_reach hnet hr)⟩

end

def bareHost : Ovs := ⟨[], fun br => if br = "br-int" then some newBridge else none, fun _ => 0⟩

theorem bareHost_untouched (tap : String) : Untouched intBackend tap bareHost := by
  refine ⟨fun br hbr => absurd hbr not_mem_nil, rfl, fun br hstray => ?_, rfl⟩
  by_cases hbr : br = "br-int"
  · exact not_stray_newBridge (if_pos hbr) hstray
  · obtain ⟨flows, hflows, -⟩ := hstray
    cases (if_neg hbr).symm.trans hflows

def onVlan : NicEvent := ⟨"0a1b2c3d", 0, allOk, .prepare { webBinding with vlan := 100 }⟩

theorem intBackend_bridge : intBackend.bridge.startsWith "vxbr" = false := by
  simp [intBackend]

theorem onVlan_placed :
    Placed intBackend webTap { webBinding with vlan := 100 } (onVlan.perform intBackend bareHost) := by
  have hpasses : Passes (prepare allOk intBackend "0a1b2c3d" 0 { webBinding with vlan := 100 }) bareHost
      fun _ => Placed intBackend webTap { webBinding with vlan := 100 } :=
    (passes_prepare_iff intBackend_bridge (fun h => absurd rfl h) (bareHost_untouched _).traced).mpr
      ⟨fun br hbr => absurd hbr not_mem_nil, fun br _ => (bareHost_untouched _).flows br⟩
  obtain ⟨-, -, hplaced⟩ := hpasses
  exact hplaced

theorem onVlan_reached : Reach (nicStep intBackend) anyStep (Untouched intBackend webTap)
    (onVlan.perform intBackend bareHost) :=
  .next _ _ onVlan (.start _ (bareHost_untouched _)) trivial rfl

/-- It is moved to an overlay. -/
theorem placement_converges_moved :
    Passes (rehome allOk intBackend "0a1b2c3d" 0 { webBinding with vni := 7 })
      (onVlan.perform intBackend bareHost) fun _ => Placed intBackend webTap { webBinding with vni := 7 } :=
  (placement_converges_iff intBackend_bridge onVlan_reached fun _ => rfl).2.mpr
    ⟨"br-int", (onVlan_placed.port _).mpr rfl, fun br hbr _ => onVlan_placed.flows br hbr⟩

/-- **A TAP that is on another bridge is not prepared**, though no command fails by itself, while
`rehome` would move it. -/
theorem prepare_stuck : Reach (nicStep intBackend) anyStep (Untouched intBackend webTap)
      (onVlan.perform intBackend bareHost) ∧
    ¬ Passes (prepare allOk intBackend "0a1b2c3d" 0 { webBinding with vni := 7 })
      (onVlan.perform intBackend bareHost) (fun _ => Placed intBackend webTap { webBinding with vni := 7 }) ∧
    Passes (rehome allOk intBackend "0a1b2c3d" 0 { webBinding with vni := 7 })
      (onVlan.perform intBackend bareHost) (fun _ => Placed intBackend webTap { webBinding with vni := 7 }) := by
  have htraced := traced_reach intBackend_bridge onVlan_reached
  have hint : (webTap, "br-int") ∈ (onVlan.perform intBackend bareHost).ports :=
    (onVlan_placed.port _).mpr rfl
  refine ⟨onVlan_reached, fun hpasses => ?_, ?_⟩
  · have hplaced := (passes_prepare_iff intBackend_bridge (fun _ => rfl) htraced).mp hpasses
    exact absurd (hplaced.1 "br-int" hint) (by decide)
  · exact (passes_rehome_iff intBackend_bridge (fun _ => rfl) htraced).mpr
      ⟨"br-int", hint, fun br hbr _ => onVlan_placed.flows br hbr⟩

end VQuasar.Dataplane
