import VQuasar.Dataplane.Rules

/-!
# What a NIC offers a frame

The flows of a NIC, read as what they offer to a frame: an action at a priority.  In table 0 a NIC
offers something to what it sends under its own MAC (`SendOffer`), to what is addressed to it if it is
filtered (`ReceiveOffer`), and the drop to the rest of what comes from its TAP (`offers_zero_iff`).  In
the result table it offers something to frames of its own conntrack zone only (`offers_result_iff`).
-/

namespace VQuasar.Dataplane

open Tenancy FlowTable List Option Field

variable {p : Packet} {st : CtState} {mac : MacAddr} {c z : Nat}

/-! ## NICs -/

/-- A NIC on the bridge; without a policy it is not filtered. -/
structure Nic where
  tap : String
  mac : MacAddr
  policy : Option Policy
deriving DecidableEq, Repr

def Nic.zone (n : Nic) : Nat := zoneFor n.tap

def Nic.flows (n : Nic) : List OvsFlow := firewallFlows true n.tap n.mac n.policy

/-! ## What a NIC offers -/

def Frame.isIp (f : Frame) : Prop := ∃ v6 src dst t, f.payload = .ip v6 src dst t

def Frame.isIcmp6 (f : Frame) : Bool := f.payload.isIp true Transport.isIcmp

def Frame.isUdp (f : Frame) (src dst : PortNumber) : Bool :=
  f.payload.isIp false fun t => t == .udp src dst

def Nic.Sends (n : Nic) (f : Frame) : Prop := f.inPort = n.tap ∧ f.dlSrc = n.mac

/-- What table 0 offers a frame that a NIC sends under its own MAC. -/
inductive SendOffer (n : Nic) (f : Frame) : Nat → Action → Prop
  | secureArp (hp : n.policy = none) (hf : f.payload = .arp n.mac) : SendOffer n f 1200 .normal
  | secure (hp : n.policy = none) : SendOffer n f 1180 .normal
  | arp (hp : n.policy.isSome) (hf : f.payload = .arp n.mac) : SendOffer n f 1100 .normal
  | dhcp (hp : n.policy.isSome) (hf : f.isUdp 68 67) : SendOffer n f 1090 .normal
  | icmp6 (hp : n.policy.isSome) (hf : f.isIcmp6) : SendOffer n f 1085 .normal
  | ip (hp : n.policy.isSome) (hf : f.isIp) : SendOffer n f 1080 (.ct n.zone)

/-- What table 0 offers a frame that is addressed to a filtered NIC. -/
inductive ReceiveOffer (n : Nic) (f : Frame) : Nat → Action → Prop
  | arp (hf : f.payload.isArp) : ReceiveOffer n f 1100 .normal
  | dhcp (hf : f.isUdp 67 68) : ReceiveOffer n f 1090 .normal
  | icmp6 (hf : f.isIcmp6) : ReceiveOffer n f 1085 .normal
  | ip (hf : f.isIp) : ReceiveOffer n f 1080 (.ct n.zone)

section

variable {n : Nic} {f : Frame} {prio : Nat} {a : Action} {policy : Policy}
  {xs : List Field} {z' : Nat}

theorem offers_nil {t : Nat} : ¬ Offers fieldsHit ([] : List OvsFlow) t p prio a := by
  simp [Offers]

theorem fieldsHit_append {ys : List Field} : fieldsHit (xs ++ ys) p ↔ fieldsHit xs p ∧ fieldsHit ys p := by
  simp [fieldsHit, all_append]

theorem fieldsHit_cons {x : Field} : fieldsHit (x :: xs) p ↔ x.hits p ∧ fieldsHit xs p := by
  simp [fieldsHit]

theorem fieldsHit_nil : fieldsHit [] p := rfl

theorem hits_ip_or {ct : Option (Nat × CtState)} :
    ip.hits ⟨f, ct⟩ ∨ ipv6.hits ⟨f, ct⟩ ↔ f.isIp := by
  unfold Frame.isIp
  cases hf : f.payload with
  | arp | other => simp [hits, hf, Payload.isIp]
  | ip v6 src dst t => cases v6 <;> simp [hits, hf, Payload.isIp]

theorem maskHits_full {p : PortNumber} {value : Nat} (hv : value < 2 ^ 16) :
    maskHits p.val (value, 0xFFFF) ↔ p.val = value := by
  have hp := p.isLt
  have hmask : ∀ x < 2 ^ 16, x &&& 0xFFFF = x := by
    intro x hx
    rw [Nat.and_two_pow_sub_one_eq_mod x 16, Nat.mod_eq_of_lt hx]
  simp only [maskHits, hmask p.val hp, hmask value hv, beq_iff_eq]

theorem fieldsHit_udp {src dst : PortNumber} :
    fieldsHit [.udp, .tpSrc src.val, .tpDst dst.val 0xFFFF] ⟨f, none⟩ ↔ f.isUdp src dst := by
  simp only [fieldsHit_cons, fieldsHit_nil, and_true, Frame.isUdp]
  cases hf : f.payload with
  | arp | other => simp [hits, hf, Payload.isIp]
  | ip v6 s d t =>
  cases t with
  | udp sp dp =>
    simp [hits, hf, Payload.isIp, Transport.isUdp, Payload.ports, Transport.ports,
      maskHits_full dst.isLt, Fin.ext_iff]
  | _ => simp [hits, hf, Payload.isIp, Transport.isUdp]

theorem offers_classify {dirMatch arpExtra : List Field} : Offers fieldsHit (classifyFlows c z
    dirMatch arpExtra) 0 ⟨f, none⟩ prio a ↔ fieldsHit dirMatch ⟨f, none⟩ ∧ ((f.payload.isArp ∧ fieldsHit arpExtra ⟨f, none⟩ ∧ prio = 1100 ∧ a = .normal) ∨ (f.isIcmp6 ∧
    prio = 1085 ∧ a = .normal) ∨ (f.isIp ∧ prio = 1080 ∧ a = .ct z)) := by
  have harp : arp.hits ⟨f, none⟩ = f.payload.isArp := rfl
  have hicmp6 : icmp6.hits ⟨f, none⟩ = f.isIcmp6 := rfl
  have hip : ip.hits ⟨f, none⟩ ∨ ipv6.hits ⟨f, none⟩ ↔ f.isIp := hits_ip_or
  simp only [classifyFlows, offers_cons, offers_nil, fieldsHit_append, fieldsHit_cons, fieldsHit_nil,
    true_and, and_true, or_false, harp, hicmp6]
  constructor
  · rintro (⟨⟨hd, ha, hx⟩, rfl, rfl⟩ | ⟨⟨hd, hi⟩, rfl, rfl⟩ | ⟨⟨hd, h4⟩, rfl, rfl⟩ | ⟨⟨hd, h6⟩, rfl, rfl⟩)
    · exact ⟨hd, .inl ⟨ha, hx, rfl, rfl⟩⟩
    · exact ⟨hd, .inr (.inl ⟨hi, rfl, rfl⟩)⟩
    · exact ⟨hd, .inr (.inr ⟨hip.mp (.inl h4), rfl, rfl⟩)⟩
    · exact ⟨hd, .inr (.inr ⟨hip.mp (.inr h6), rfl, rfl⟩)⟩
  · rintro ⟨hd, ⟨ha, hx, rfl, rfl⟩ | ⟨hi, rfl, rfl⟩ | ⟨hf, rfl, rfl⟩⟩
    · exact .inl ⟨⟨hd, ha, hx⟩, rfl, rfl⟩
    · exact .inr (.inl ⟨⟨hd, hi⟩, rfl, rfl⟩)
    · rcases hip.mpr hf with h4 | h6
      · exact .inr (.inr (.inl ⟨⟨hd, h4⟩, rfl, rfl⟩))
      · exact .inr (.inr (.inr ⟨⟨hd, h6⟩, rfl, rfl⟩))

theorem not_offers_zero {flows : List OvsFlow} (h : ∀ fl ∈ flows, fl.table = resultTable) : ¬ Offers
    fieldsHit flows 0 p prio a := by
  rintro ⟨fl, hfl, htable, -⟩
  rw [h fl hfl] at htable
  cases htable

variable {tap : String} {rest : List Field} {r : SecRule} {dir : Direction} {fl : OvsFlow}

theorem egressFlows_table : ∀ fl ∈ egressFlows c z tap mac policy, fl.table = resultTable := by
  intro fl hfl
  cases mem_egressFlows hfl <;> rfl

theorem ingressFlows_table : ∀ fl ∈ ingressFlows c z mac policy, fl.table = resultTable := by
  intro fl hfl
  cases mem_ingressFlows hfl <;> rfl

theorem fieldsHit_sends : fieldsHit (.inPort tap :: .dlSrc mac ::
    rest) p ↔ (p.frame.inPort = tap ∧ p.frame.dlSrc = mac) ∧ fieldsHit rest p := by
  simp only [fieldsHit_cons, hits, beq_iff_eq, and_assoc]

theorem fieldsHit_addressed : fieldsHit (.dlDst mac :: rest) p ↔
    p.frame.dlDst = mac ∧ fieldsHit rest p := by
  simp only [fieldsHit_cons, hits, beq_iff_eq]

theorem offers_portSecurity (hp : n.policy = none) : Offers fieldsHit n.flows 0 ⟨f, none⟩ prio a ↔
      (n.Sends f ∧ SendOffer n f prio a) ∨ (f.inPort = n.tap ∧ prio = spoofDropPriority ∧ a = .drop) := by
  simp only [Nic.flows, hp, firewallFlows, if_true, buildPortSecurityFlows, offers_cons, offers_nil,
    fieldsHit_cons, fieldsHit_nil, hits, beq_iff_eq, true_and, and_true, or_false]
  constructor
  · rintro (⟨⟨hin, hsrc, -, hsha⟩, rfl, rfl⟩ | ⟨hs, rfl, rfl⟩ | ⟨hin, rfl, rfl⟩)
    · exact .inl ⟨⟨hin, hsrc⟩, .secureArp hp hsha⟩
    · exact .inl ⟨hs, .secure hp⟩
    · exact .inr ⟨hin, rfl, rfl⟩
  · rintro (⟨hs, hoffer⟩ | ⟨hin, rfl, rfl⟩)
    · cases hoffer with
      | secureArp _ hf => exact .inl ⟨⟨hs.1, hs.2, by rw [hf]; rfl, hf⟩, rfl, rfl⟩
      | secure => exact .inr (.inl ⟨hs, rfl, rfl⟩)
      | arp hsome | dhcp hsome | icmp6 hsome | ip hsome => simp [hp] at hsome
    · exact .inr (.inr ⟨hin, rfl, rfl⟩)

theorem offers_firewall (hp : n.policy = some policy) :
    Offers fieldsHit n.flows 0 ⟨f, none⟩ prio a ↔
      (n.Sends f ∧ SendOffer n f prio a) ∨ (f.dlDst = n.mac ∧ ReceiveOffer n f prio a) ∨
      (f.inPort = n.tap ∧ prio = spoofDropPriority ∧ a = .drop) := by
  have hsome : n.policy.isSome := by rw [hp]; rfl
  have hrequest : fieldsHit [.udp, .tpSrc 68, .tpDst 67 0xFFFF] ⟨f, none⟩ ↔
      f.isUdp 68 67 := @fieldsHit_udp f 68 67
  have hreply : fieldsHit [.udp, .tpSrc 67, .tpDst 68 0xFFFF] ⟨f, none⟩ ↔
      f.isUdp 67 68 := @fieldsHit_udp f 67 68
  have hsha : f.payload.isArp ∧ fieldsHit [.arpSha n.mac] ⟨f, none⟩ ↔
      f.payload = .arp n.mac := by
    simp only [fieldsHit_cons, fieldsHit_nil, hits, beq_iff_eq, and_true]
    exact ⟨And.right, fun hf => ⟨by rw [hf]; rfl, hf⟩⟩
  have hin : fieldsHit [.inPort n.tap] ⟨f, none⟩ ↔ f.inPort = n.tap := by
    simp [fieldsHit, hits]
  have hnot : resultTable ≠ 0 := by decide
  simp only [Nic.flows, hp, firewallFlows, buildFlows, offers_append, offers_classify, offers_cons,
    offers_nil, not_offers_zero egressFlows_table, not_offers_zero ingressFlows_table, fieldsHit_sends,
    fieldsHit_addressed, fieldsHit_nil, hnot, false_and, or_false, true_and, and_true]
  rw [hrequest, hreply, hin]
  constructor
  · rintro (((⟨hs, hoffer⟩ | ⟨hd, hoffer⟩) | ⟨⟨hs, hf⟩, rfl, rfl⟩ | ⟨⟨hd, hf⟩, rfl, rfl⟩) |
      ⟨hport, rfl, rfl⟩)
    · refine .inl ⟨hs, ?_⟩
      rcases hoffer with ⟨harp, hx, rfl, rfl⟩ | ⟨hf, rfl, rfl⟩ | ⟨hf, rfl, rfl⟩
      · exact .arp hsome (hsha.mp ⟨harp, hx⟩)
      · exact .icmp6 hsome hf
      · exact .ip hsome hf
    · refine .inr (.inl ⟨hd, ?_⟩)
      rcases hoffer with ⟨hf, rfl, rfl⟩ | ⟨hf, rfl, rfl⟩ | ⟨hf, rfl, rfl⟩
      · exact .arp hf
      · exact .icmp6 hf
      · exact .ip hf
    · exact .inl ⟨hs, .dhcp hsome hf⟩
    · exact .inr (.inl ⟨hd, .dhcp hf⟩)
    · exact .inr (.inr ⟨hport, rfl, rfl⟩)
  · rintro (⟨hs, hoffer⟩ | ⟨hd, hoffer⟩ | ⟨hport, rfl, rfl⟩)
    · cases hoffer with
      | secureArp hnone | secure hnone => simp [hp] at hnone
      | arp _ hf =>
        obtain ⟨harp, hx⟩ := hsha.mpr hf
        exact .inl (.inl (.inl ⟨hs, .inl ⟨harp, hx, rfl, rfl⟩⟩))
      | dhcp _ hf => exact .inl (.inr (.inl ⟨⟨hs, hf⟩, rfl, rfl⟩))
      | icmp6 _ hf => exact .inl (.inl (.inl ⟨hs, .inr (.inl ⟨hf, rfl, rfl⟩)⟩))
      | ip _ hf => exact .inl (.inl (.inl ⟨hs, .inr (.inr ⟨hf, rfl, rfl⟩)⟩))
    · cases hoffer with
      | arp hf => exact .inl (.inl (.inr ⟨hd, .inl ⟨hf, rfl, rfl⟩⟩))
      | dhcp hf => exact .inl (.inr (.inr ⟨⟨hd, hf⟩, rfl, rfl⟩))
      | icmp6 hf => exact .inl (.inl (.inr ⟨hd, .inr (.inl ⟨hf, rfl, rfl⟩)⟩))
      | ip hf => exact .inl (.inl (.inr ⟨hd, .inr (.inr ⟨hf, rfl, rfl⟩)⟩))
    · exact .inr ⟨hport, rfl, rfl⟩

/-- **What a NIC offers in table 0**: to what it sends under its own MAC, to what is addressed to it if
it is filtered, and the drop to the rest of what comes from its TAP. -/
theorem offers_zero_iff : Offers fieldsHit n.flows 0 ⟨f, none⟩ prio a ↔
      (n.Sends f ∧ SendOffer n f prio a) ∨
      (f.dlDst = n.mac ∧ n.policy.isSome ∧ ReceiveOffer n f prio a) ∨
      (f.inPort = n.tap ∧ prio = spoofDropPriority ∧ a = .drop) := by
  cases hp : n.policy with
  | none =>
    rw [offers_portSecurity hp]
    simp
  | some policy =>
    rw [offers_firewall hp]
    simp

def rulesAdmit (rules : List SecRule) (dir : Direction) (f : Frame) : Bool :=
  rules.any fun r => admitted (ruleMatches r dir) f

/-- What the result table offers a frame that conntrack has called `st` in the NIC's zone. -/
inductive ResultOffer (n : Nic) (policy : Policy) (f : Frame) (st : CtState) : Nat → Action → Prop
  | established (hst : st.est ∨ st.rel) : ResultOffer n policy f st 100 .normal
  | invalid (hst : st.inv) : ResultOffer n policy f st 100 .drop
  | opens (hst : st.new) (hs : n.Sends f)
      (hrule : policy.egressDefaultDeny = false ∨ rulesAdmit policy.egress .egress f) :
      ResultOffer n policy f st 90 (.commit n.zone)
  | denied (hst : st.new) (hs : n.Sends f) : ResultOffer n policy f st 20 .drop
  | admits (hst : st.new) (hd : f.dlDst = n.mac)
      (hrule : rulesAdmit policy.ingress .ingress f) :
      ResultOffer n policy f st 80 (.commit n.zone)
  | refused (hst : st.new) (hd : f.dlDst = n.mac) : ResultOffer n policy f st 10 .drop

theorem hits_remote_ct (ct : Option (Nat × CtState)) :
    ∀ x ∈ r.remote dir, hits ⟨f, ct⟩ x = hits ⟨f, none⟩ x := by
  intro x hx
  unfold SecRule.remote at hx
  split at hx
  · cases hx
  all_goals
    obtain rfl := mem_singleton.mp hx
    rfl

theorem fieldsHit_ruleMatches {m : List Field}
    (hm : m ∈ ruleMatches r dir) (ct : Option (Nat × CtState)) :
    fieldsHit m ⟨f, ct⟩ = fieldsHit m ⟨f, none⟩ := by
  have hproto : hits ⟨f, ct⟩ r.proto = hits ⟨f, none⟩ r.proto := by
    rw [hits_proto, hits_proto]
  have hremote : (r.remote dir).all (hits ⟨f, ct⟩) = (r.remote dir).all (hits ⟨f, none⟩) := by
    rw [Bool.eq_iff_iff, List.all_eq_true, List.all_eq_true]
    constructor
    · intro hall x hx
      rw [← hits_remote_ct ct x hx]
      exact hall x hx
    · intro hall x hx
      rw [hits_remote_ct ct x hx]
      exact hall x hx
  rw [ruleMatches_eq] at hm
  split at hm
  · obtain ⟨vm, -, rfl⟩ := mem_map.mp hm
    simp only [fieldsHit, all_cons, hproto, hremote]
    rfl
  · obtain rfl := mem_singleton.mp hm
    simp only [fieldsHit, all_cons, hproto, hremote]

theorem fieldsHit_newIn : fieldsHit (newIn z ++ rest) ⟨f, some (z',
    st)⟩ ↔ z' = z ∧ st.new ∧ fieldsHit rest ⟨f, some (z', st)⟩ := by
  simp only [newIn, fieldsHit_append, fieldsHit_cons, fieldsHit_nil, hits, any_some,
    beq_iff_eq, CtState.has, and_true, and_assoc]

theorem offers_rules {rules : List SecRule} {high : Nat} {own : List Field} :
    Offers fieldsHit (rules.flatMap fun r => (ruleMatches r dir).map fun m =>
        (⟨c, resultTable, high, newIn z ++ own ++ m, .commit z⟩ : OvsFlow)) resultTable
        ⟨f, some (z', st)⟩ prio a ↔
      z' = z ∧ st.new = true ∧ fieldsHit own ⟨f, some (z', st)⟩ = true ∧
        rulesAdmit rules dir f = true ∧ prio = high ∧ a = .commit z := by
  rw [offers_flatMap]
  constructor
  · rintro ⟨r, hr, fl, hfl, -, hhit, rfl, rfl⟩
    obtain ⟨m, hm, rfl⟩ := mem_map.mp hfl
    rw [append_assoc, fieldsHit_newIn, fieldsHit_append, fieldsHit_ruleMatches hm] at hhit
    obtain ⟨hz, hnew, hown, hm'⟩ := hhit
    exact ⟨hz, hnew, hown, any_eq_true.mpr ⟨r, hr, any_eq_true.mpr ⟨m, hm, hm'⟩⟩, rfl, rfl⟩
  · rintro ⟨hz, hnew, hown, hrule, rfl, rfl⟩
    obtain ⟨r, hr, hrule⟩ := any_eq_true.mp hrule
    obtain ⟨m, hm, hhit⟩ := any_eq_true.mp hrule
    refine ⟨r, hr, _, mem_map.mpr ⟨m, hm, rfl⟩, rfl, ?_, rfl, rfl⟩
    rw [append_assoc, fieldsHit_newIn, fieldsHit_append, fieldsHit_ruleMatches hm]
    exact ⟨hz, hnew, hown, hhit⟩

theorem offers_egress :
    Offers fieldsHit (egressFlows c z tap mac policy) resultTable ⟨f, some (z', st)⟩ prio a ↔
      z' = z ∧ st.new ∧ (f.inPort = tap ∧ f.dlSrc = mac) ∧
        (if policy.egressDefaultDeny then
          (rulesAdmit policy.egress .egress f ∧ prio = 90 ∧ a = .commit z) ∨ (prio = 20 ∧ a = .drop)
        else f.isIp ∧ prio = 90 ∧ a = .commit z) := by
  have hip : fieldsHit [.ip] ⟨f, some (z', st)⟩ ∨ fieldsHit [.ipv6] ⟨f, some (z', st)⟩ ↔
      f.isIp := by
    simpa only [fieldsHit, all_cons, all_nil, Bool.and_true] using hits_ip_or
  unfold egressFlows
  cases policy.egressDefaultDeny with
  | true =>
    simp only [if_true, offers_append, offers_rules, offers_cons, offers_nil, fieldsHit_newIn, fieldsHit_sends,
      fieldsHit_nil]
    grind
  | false =>
    simp only [Bool.false_eq_true, if_false, offers_cons, offers_nil, fieldsHit_newIn, fieldsHit_sends]
    grind

/-- **What a NIC offers in the result table**, to frames of its own zone only: an open NIC has no drop
for what it sends, and opens connections for IP packets only. -/
theorem offers_result_iff : Offers fieldsHit n.flows resultTable ⟨f, some (z, st)⟩ prio a ↔
      ∃ policy, n.policy = some policy ∧ z = n.zone ∧ ResultOffer n policy f st prio a ∧
        (policy.egressDefaultDeny = false → prio ≠ 20 ∧ (prio = 90 → f.isIp)) := by
  have hnot : 0 ≠ resultTable := by decide
  cases hp : n.policy with
  | none =>
    simp [Nic.flows, hp, firewallFlows, buildPortSecurityFlows, offers_cons, offers_nil, hnot]
  | some policy =>
    have hown : fieldsHit [.dlDst n.mac] ⟨f, some (z, st)⟩ ↔ f.dlDst = n.mac := by
      rw [fieldsHit_addressed, fieldsHit_nil]
      exact and_iff_left rfl
    simp only [Nic.flows, hp, firewallFlows, buildFlows, classifyFlows, ingressFlows, offers_append,
      offers_cons, offers_nil, hnot, false_and, or_false, false_or, offers_egress, offers_rules, hown,
      fieldsHit_newIn, fieldsHit_cons, fieldsHit_nil, hits, any_some, beq_iff_eq, CtState.has,
      and_true, true_and, some.injEq, exists_eq_left']
    constructor
    · rintro (((⟨⟨hz, h⟩, rfl, rfl⟩ | ⟨⟨hz, h⟩, rfl, rfl⟩ | ⟨⟨hz, h⟩, rfl, rfl⟩) | ⟨hz, h, hs, hrest⟩) |
        ⟨hz, h, hd, hr, rfl, rfl⟩ | ⟨⟨hz, h, hd⟩, rfl, rfl⟩)
      · exact ⟨hz, .established (.inl h), by simp⟩
      · exact ⟨hz, .established (.inr h), by simp⟩
      · exact ⟨hz, .invalid h, by simp⟩
      · split at hrest
        · next hdeny =>
          rcases hrest with ⟨hr, rfl, rfl⟩ | ⟨rfl, rfl⟩
          · exact ⟨hz, .opens h hs (.inr hr), by simp [hdeny]⟩
          · exact ⟨hz, .denied h hs, by simp [hdeny]⟩
        · next hopen =>
          obtain ⟨hip, rfl, rfl⟩ := hrest
          exact ⟨hz, .opens h hs (.inl (by simpa using hopen)), by simp [hip]⟩
      · exact ⟨hz, .admits h hd hr, by simp⟩
      · exact ⟨hz, .refused h hd, by simp⟩
    · rintro ⟨rfl, h, hopen⟩
      cases h <;> grind [Nic.zone, Nic.Sends]

theorem offers_result (h : Offers fieldsHit n.flows resultTable ⟨f, some (z, st)⟩ prio a) : ∃
    policy, n.policy = some policy ∧ z = n.zone ∧ ResultOffer n policy f st prio a := by
  obtain ⟨policy, hp, hz, hoffer, -⟩ := offers_result_iff.mp h
  exact ⟨policy, hp, hz, hoffer⟩

theorem offers_established (hp : n.policy.isSome) (hst : st.est) : Offers fieldsHit
    n.flows resultTable ⟨f, some (n.zone, st)⟩ 100 .normal := by
  obtain ⟨policy, hp⟩ := isSome_iff_exists.mp hp
  exact offers_result_iff.mpr ⟨policy, hp, rfl, .established (.inl hst), by simp⟩

theorem ResultOffer.le (h : ResultOffer n policy f st prio a) : prio ≤ 100 := by
  cases h <;> omega

end

end VQuasar.Dataplane
