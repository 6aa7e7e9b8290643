import VQuasar.Dataplane.Offers

/-!
# NICs on a shared bridge

The flows of all NICs of a bridge are in one pair of tables, next to the default flow that forwards
everything.  `forwards` runs a frame through them: table 0, conntrack, the result table.  What each NIC
offers shows how the flows of different NICs get in each other's way:

* Flows that look at the destination alone rank above the drop of spoofed frames, so a frame with a
  foreign source address is dropped only if it is not addressed to a filtered NIC
  (`spoofed_dropped_iff`).  Even on a bridge of its own, a NIC that is not filtered forwards ARP packets
  with a foreign sender, and a filtered one what it sends to itself (`forged_dropped_iff`).
* The flows of the sender rank with or above those of the receiver and end in `NORMAL`, and so does the
  default flow, which floods; a filtered NIC is isolated only from frames that reach its own flows
  first, or that are dropped (`isolated_iff`).
* Over a run, a connection is committed in a zone only by a frame that the policy of its NIC lets out
  or in (`conns_opened`).
-/

namespace VQuasar.Dataplane

open Tenancy FlowTable List Option

/-! ## The bridge -/

def defaultFlow : OvsFlow := ⟨0, 0, 0, [], .normal⟩

variable (nics : List Nic)

def bridgeFlows : List OvsFlow := defaultFlow :: nics.flatMap Nic.flows

/-- What conntrack knows: which frames belong to a connection committed in a zone, and what it says
about a frame.  It calls established, or related, only what belongs to such a connection. -/
structure Conntrack where
  holds : Nat → Frame → Bool
  classify : Nat → Frame → CtState
  est : ∀ z f, (classify z f).est → holds z f
  rel : ∀ z f, (classify z f).rel → holds z f

/-- The ways in which the result table forwards: with the zone of the connection it commits. -/
def Action.forward : Action → Option (Option Nat)
  | .normal => some none
  | .commit z => some (some z)
  | _ => none

/-- The ways in which the tables forward a frame; none when it is dropped. -/
def forwards (flows : List OvsFlow) (ct : Conntrack) (f : Frame) : List (Option Nat) :=
  (lookup fieldsHit flows 0 ⟨f, none⟩).flatMap fun
    | .ct z =>
      (lookup fieldsHit flows resultTable ⟨f, some (z, ct.classify z f)⟩).filterMap Action.forward
    | a => a.forward.toList

/-- `NORMAL`: to the port where the destination was learned, or to every port, but never back. -/
def normalTo (fdb : MacAddr → Option String) (f : Frame) (port : String) : Bool :=
  port != f.inPort && (fdb f.dlDst).all (· == port)

def OutputTo (flows : List OvsFlow) (ct : Conntrack) (fdb : MacAddr → Option String) (f : Frame)
    (port : String) : Prop :=
  forwards flows ct f ≠ [] ∧ normalTo fdb f port = true

/-! ## What the bridge offers -/

section

variable {nics : List Nic} {ct : Conntrack} {f : Frame} {prio : Nat} {a : Action}

theorem offers_bridge_zero : Offers fieldsHit (bridgeFlows nics) 0 ⟨f, none⟩ prio a ↔
      (prio = 0 ∧ a = .normal) ∨ ∃ n ∈ nics, Offers fieldsHit n.flows 0 ⟨f, none⟩ prio a := by
  rw [bridgeFlows, offers_cons, offers_flatMap]
  refine or_congr_left ?_
  constructor
  · rintro ⟨-, -, rfl, rfl⟩
    exact ⟨rfl, rfl⟩
  · rintro ⟨rfl, rfl⟩
    exact ⟨rfl, rfl, rfl, rfl⟩

theorem offers_bridge_result {p : Packet} :
    Offers fieldsHit (bridgeFlows nics) resultTable p prio a ↔
      ∃ n ∈ nics, Offers fieldsHit n.flows resultTable p prio a := by
  have hdefault : ¬ defaultFlow.table = resultTable := by decide
  rw [bridgeFlows, offers_cons, offers_flatMap]
  simp only [hdefault, false_and, false_or]

variable {flows : List OvsFlow} {n : Nic}

theorem forwards_of_normal (h : Action.normal ∈ lookup fieldsHit flows 0 ⟨f, none⟩) :
    forwards flows ct f ≠ [] := by
  apply ne_nil_of_mem (a := none)
  exact mem_flatMap.mpr ⟨.normal, h, mem_singleton.mpr rfl⟩

theorem forwards_of_est (hn : n ∈ nics) (hp : n.policy.isSome)
    (h : Action.ct n.zone ∈ lookup fieldsHit (bridgeFlows nics) 0 ⟨f, none⟩)
    (hest : (ct.classify n.zone f).est) : forwards (bridgeFlows nics) ct f ≠ [] := by
  apply ne_nil_of_mem (a := none)
  refine mem_flatMap.mpr ⟨.ct n.zone, h, ?_⟩
  refine mem_filterMap.mpr ⟨.normal, ?_, rfl⟩
  refine mem_lookup_of_top (offers_bridge_result.mpr ⟨n, hn, offers_established hp hest⟩) ?_
  intro m b hb
  obtain ⟨n', -, hb⟩ := offers_bridge_result.mp hb
  obtain ⟨policy, -, -, hb⟩ := offers_result hb
  exact hb.le

theorem forwards_eq_nil (h : ∀ b ∈ lookup fieldsHit flows 0 ⟨f, none⟩, b = .drop ∨ ∃ z, b = .ct z ∧
      ∀ b' ∈ lookup fieldsHit flows resultTable ⟨f, some (z, ct.classify z f)⟩, b'.forward = none) :
    forwards flows ct f = [] := by
  rw [eq_nil_iff_forall_not_mem]
  intro v hv
  obtain ⟨b, hb, hv⟩ := mem_flatMap.mp hv
  rcases h b hb with rfl | ⟨z, rfl, hall⟩
  · cases hv
  · obtain ⟨b', hb', hfwd⟩ := mem_filterMap.mp hv
    rw [hall b' hb'] at hfwd
    cases hfwd

theorem offers_unsent (hns : ∀ n ∈ nics, ¬ n.Sends f)
    (h : Offers fieldsHit (bridgeFlows nics) 0 ⟨f, none⟩ prio a) : (prio = 0 ∧ a = .normal) ∨
      (∃ n ∈ nics, f.dlDst = n.mac ∧ n.policy.isSome ∧ ReceiveOffer n f prio a) ∨
      ∃ n ∈ nics, f.inPort = n.tap ∧ prio = spoofDropPriority ∧ a = .drop := by
  rcases offers_bridge_zero.mp h with hdef | ⟨n, hn, h⟩
  · exact .inl hdef
  · rcases offers_zero_iff.mp h with ⟨hs, -⟩ | hrecv | hdrop
    · exact absurd hs (hns n hn)
    · exact .inr (.inl ⟨n, hn, hrecv⟩)
    · exact .inr (.inr ⟨n, hn, hdrop⟩)

/-- Every filtered NIC that is addressed offers a frame of a known ethertype the same: `NORMAL`, or its
own zone of conntrack, at a priority above that of the drop. -/
theorem ReceiveOffer.top (hf : f.payload ≠ .other) : ∃ prio, spoofDropPriority ≤ prio ∧
      (∀ n, ReceiveOffer n f prio .normal ∨ ReceiveOffer n f prio (.ct n.zone)) ∧
      ∀ n prio' b, ReceiveOffer n f prio' b → prio' ≤ prio := by
  by_cases harp : f.payload.isArp
  · refine ⟨1100, by decide, fun n => .inl (.arp harp), ?_⟩
    intro n prio' b h
    cases h <;> omega
  · by_cases hdhcp : f.isUdp 67 68
    · refine ⟨1090, by decide, fun n => .inl (.dhcp hdhcp), ?_⟩
      intro n prio' b h
      cases h with
      | arp h => exact absurd h harp
      | _ => omega
    · by_cases hicmp : f.isIcmp6
      · refine ⟨1085, by decide, fun n => .inl (.icmp6 hicmp), ?_⟩
        intro n prio' b h
        cases h with
        | arp h => exact absurd h harp
        | dhcp h => exact absurd h hdhcp
        | _ => omega
      · have hip : f.isIp := by
          cases hp : f.payload with
          | arp sha =>
            rw [hp] at harp
            exact absurd rfl harp
          | other => exact absurd hp hf
          | ip v6 src dst t => exact ⟨v6, src, dst, t, hp⟩
        refine ⟨1080, by decide, fun n => .inr (.ip hip), ?_⟩
        intro n prio' b h
        cases h with
        | arp h => exact absurd h harp
        | dhcp h => exact absurd h hdhcp
        | icmp6 h => exact absurd h hicmp
        | ip => exact Nat.le_refl _

/-- A frame that no NIC sends under its own MAC, and that is addressed to a filtered NIC, is forwarded
if conntrack calls it established there. -/
theorem forwards_received (hns : ∀ n ∈ nics, ¬ n.Sends f) (hn : n ∈ nics)
    (hd : f.dlDst = n.mac) (hp : n.policy.isSome) (hf : f.payload ≠ .other)
    (hest : (ct.classify n.zone f).est) : forwards (bridgeFlows nics) ct f ≠ [] := by
  obtain ⟨prio, hle, hoffer, htop⟩ := ReceiveOffer.top hf
  have hbridge : ∀ b, ReceiveOffer n f prio b → b ∈ lookup fieldsHit (bridgeFlows nics) 0 ⟨f, none⟩ := by
    intro b hb
    have hb' : Offers fieldsHit n.flows 0 ⟨f, none⟩ prio b :=
      offers_zero_iff.mpr (.inr (.inl ⟨hd, hp, hb⟩))
    refine mem_lookup_of_top (offers_bridge_zero.mpr (.inr ⟨n, hn, hb'⟩)) ?_
    intro m b' hm
    rcases offers_unsent hns hm with ⟨rfl, -⟩ | ⟨n', -, -, -, hm⟩ | ⟨n', -, -, rfl, -⟩
    · exact Nat.zero_le _
    · exact htop n' m b' hm
    · exact hle
  rcases hoffer n with h | h
  · exact forwards_of_normal (hbridge _ h)
  · exact forwards_of_est hn hp (hbridge _ h) hest

theorem forwards_spoofed (hns : ∀ n ∈ nics, ¬ n.Sends f) (hn : n ∈ nics) (hin : f.inPort = n.tap)
    (hnone : ∀ c ∈ nics, c.policy.isSome → f.dlDst = c.mac → f.payload = .other) :
    forwards (bridgeFlows nics) ct f = [] := by
  apply forwards_eq_nil
  intro b hb
  left
  -- the drop of the TAP outranks the default flow, and nothing else is offered
  have hdrop : Offers fieldsHit (bridgeFlows nics) 0 ⟨f, none⟩ spoofDropPriority .drop :=
    offers_bridge_zero.mpr (.inr ⟨n, hn, offers_zero_iff.mpr (.inr (.inr ⟨hin, rfl, rfl⟩))⟩)
  obtain ⟨m, hm, hb⟩ := offers_of_mem_lookup hb hdrop
  rcases offers_unsent hns hb with ⟨rfl, -⟩ | ⟨c, hc, hd, hp, hrecv⟩ | ⟨n', -, -, -, rfl⟩
  · exact absurd hm (by decide)
  · have hother := hnone c hc hp hd
    cases hrecv with
    | arp hf => simp [hother, Payload.isArp] at hf
    | dhcp hf => simp [Frame.isUdp, hother, Payload.isIp] at hf
    | icmp6 hf => simp [Frame.isIcmp6, hother, Payload.isIp] at hf
    | ip hf =>
      obtain ⟨v6, src, dst, t, hf⟩ := hf
      cases hother.symm.trans hf
  · rfl

end

/-! ## Anti-spoofing -/

def DistinctTaps : Prop := ∀ a ∈ nics, ∀ b ∈ nics, a.tap = b.tap → a = b

section

variable {nics : List Nic} {f : Frame}

theorem not_sends_of_spoofed (htaps : DistinctTaps nics) {a : Nic} (ha : a ∈ nics)
    (hin : f.inPort = a.tap) (hsrc : f.dlSrc ≠ a.mac) : ∀ n ∈ nics, ¬ n.Sends f := by
  rintro n hn ⟨hin', hsrc'⟩
  obtain rfl := htaps n hn a ha (hin'.symm.trans hin)
  exact hsrc hsrc'

/-- Conntrack that calls everything established, outside one zone if there is one to spare. -/
def allEstablished (spared : Option Nat) : Conntrack where
  holds := fun z _ => spared != some z
  classify := fun z _ => ⟨false, spared != some z, false, false⟩
  est := fun _ _ h => h
  rel := fun _ _ h => by cases h

/-- **Anti-spoofing, composed.**  A frame from a NIC's TAP with a foreign source address is dropped
if and only if no filtered NIC on the bridge is addressed by it, or its ethertype is neither ARP nor
IP. -/
theorem spoofed_dropped_iff (htaps : DistinctTaps nics) {a : Nic} (ha : a ∈ nics)
    (hin : f.inPort = a.tap) (hsrc : f.dlSrc ≠ a.mac) :
    (∀ ct, forwards (bridgeFlows nics) ct f = []) ↔
      ∀ c ∈ nics, c.policy.isSome → f.dlDst = c.mac → f.payload = .other := by
  have hns := not_sends_of_spoofed htaps ha hin hsrc
  constructor
  · intro hdrop c hc hp hd
    by_contra hf
    exact forwards_received hns hc hd hp hf rfl (hdrop (allEstablished none))
  · intro hnone ct
    exact forwards_spoofed hns ha hin hnone

end

def plainNic : Nic := ⟨"tap0", "02:00:00:00:00:0a", none⟩

def closedNic : Nic := ⟨"tap1", "02:00:00:00:00:0b", some ⟨[], [], false⟩⟩

def foreignMac : MacAddr := "02:00:00:00:00:0c"

/-- A broadcast under a foreign address is dropped. -/
theorem spoofed_dropped_broadcast :
    DistinctTaps [plainNic, closedNic] ∧ ∀ ct, forwards (bridgeFlows [plainNic, closedNic]) ct
      ⟨"tap0", foreignMac, "ff:ff:ff:ff:ff:ff", .arp foreignMac⟩ = [] := by
  have htaps : DistinctTaps [plainNic, closedNic] :=
    (by decide : ∀ a ∈ [plainNic, closedNic], ∀ b ∈ [plainNic, closedNic], a.tap = b.tap → a = b)
  refine ⟨htaps, (spoofed_dropped_iff htaps (a := plainNic) (by decide) rfl (by decide)).mpr ?_⟩
  decide

/-- **A spoofed frame gets through.**  An ARP packet under a foreign address, sent straight to the
filtered NIC, meets that NIC's flow for ARP before the sender's drop. -/
theorem spoofed_forwarded : ∃ ct, forwards (bridgeFlows [plainNic, closedNic]) ct
      ⟨"tap0", foreignMac, "02:00:00:00:00:0b", .arp foreignMac⟩ ≠ [] :=
  ⟨allEstablished none, by decide⟩

/-! ## One NIC -/

theorem offers_single {n : Nic} {f : Frame} {prio : Nat} {b : Action} :
    Offers fieldsHit (bridgeFlows [n]) 0 ⟨f, none⟩ prio b ↔ (prio = 0 ∧ b = .normal) ∨
      (n.Sends f ∧ SendOffer n f prio b) ∨
      (f.dlDst = n.mac ∧ n.policy.isSome ∧ ReceiveOffer n f prio b) ∨
      (f.inPort = n.tap ∧ prio = spoofDropPriority ∧ b = .drop) := by
  rw [offers_bridge_zero]
  simp only [mem_singleton, exists_eq_left, offers_zero_iff]

/-- The source address of the frame is the NIC's and so, in an ARP packet, is the sender's. -/
def Nic.Owns (n : Nic) (f : Frame) : Prop :=
  f.dlSrc = n.mac ∧ ∀ sha, f.payload = .arp sha → sha = n.mac

/-- **Source binding.**  A frame from the TAP that the NIC does not own is dropped if and only if a
filtered NIC is not addressed by it, or only in an ethertype other than ARP and IP, and a NIC that
is not filtered is not its source. -/
theorem forged_dropped_iff {n : Nic} {f : Frame} (hin : f.inPort = n.tap) (hforged : ¬ n.Owns f) :
    (∀ ct, forwards (bridgeFlows [n]) ct f = []) ↔
      if n.policy.isSome then f.dlDst = n.mac → f.payload = .other else f.dlSrc ≠ n.mac := by
  by_cases hsrc : f.dlSrc = n.mac
  · -- an ARP packet under the NIC's own address
    obtain ⟨sha, hf, hsha⟩ : ∃ sha, f.payload = .arp sha ∧ sha ≠ n.mac := by
      simpa [Nic.Owns, hsrc] using hforged
    have hoffers : ∀ m c, Offers fieldsHit (bridgeFlows [n]) 0 ⟨f, none⟩ m c → m = 0 ∨
        (n.policy = none ∧ m = 1180) ∨ (f.dlDst = n.mac ∧ n.policy.isSome ∧ m = 1100) ∨
        (m = 1000 ∧ c = .drop) := by
      intro m c hc
      rcases offers_single.mp hc with h | ⟨-, h⟩ | ⟨hd, hp, h⟩ | ⟨-, h⟩
      · exact .inl h.1
      · cases h <;> simp_all [Frame.isUdp, Frame.isIcmp6, Frame.isIp, Payload.isIp]
      · cases h <;> simp_all [Frame.isUdp, Frame.isIcmp6, Frame.isIp, Payload.isIp]
      · exact .inr (.inr (.inr h))
    cases hp : n.policy with
    | none =>
      have hnormal : Action.normal ∈ lookup fieldsHit (bridgeFlows [n]) 0 ⟨f, none⟩ :=
        mem_lookup_of_top (offers_single.mpr (.inr (.inl ⟨⟨hin, hsrc⟩, .secure hp⟩))) (by grind)
      exact iff_of_false (fun hall => forwards_of_normal hnormal (hall (allEstablished none))) (by simp [hsrc])
    | some policy =>
      have hsome : n.policy.isSome := by rw [hp]; rfl
      by_cases hd : f.dlDst = n.mac
      · have harp : ReceiveOffer n f 1100 .normal := .arp (by rw [hf]; rfl)
        have hnormal : Action.normal ∈ lookup fieldsHit (bridgeFlows [n]) 0 ⟨f, none⟩ :=
          mem_lookup_of_top (offers_single.mpr (.inr (.inr (.inl ⟨hd, hsome, harp⟩)))) (by grind)
        exact iff_of_false (fun hall => forwards_of_normal hnormal (hall (allEstablished none))) (by simp [hd, hf])
      · have hdrop : ∀ b, b ∈ lookup fieldsHit (bridgeFlows [n]) 0 ⟨f, none⟩ ↔ b = .drop := fun b =>
          mem_lookup_iff_eq (offers_single.mpr (.inr (.inr (.inr ⟨hin, rfl, rfl⟩)))) (by
            grind [spoofDropPriority])
        simp only [isSome_some, if_true, hd, false_implies, iff_true]
        exact fun ct => forwards_eq_nil fun b hb => .inl ((hdrop b).mp hb)
  · have htaps : DistinctTaps [n] := by
      intro a ha b hb _
      rw [mem_singleton.mp ha, mem_singleton.mp hb]
    rw [spoofed_dropped_iff htaps (mem_singleton_self n) hin hsrc]
    cases hp : n.policy <;> simp [hp, hsrc]

def forgedArp : Frame := ⟨"tap1", closedNic.mac, "ff:ff:ff:ff:ff:ff", .arp foreignMac⟩

theorem forged_dropped_broadcast :
    ¬ closedNic.Owns forgedArp ∧ ∀ ct, forwards (bridgeFlows [closedNic]) ct forgedArp = [] := by
  have hforged : ¬ closedNic.Owns forgedArp := fun h => absurd (h.2 foreignMac rfl) (by decide)
  exact ⟨hforged, (forged_dropped_iff rfl hforged).mpr (by decide)⟩

/-- **Forged frames get through**: an ARP packet with a foreign sender from a NIC that is not filtered,
and one under a foreign address that a filtered NIC sends to itself. -/
theorem forged_forwarded : ∃ ct, forwards (bridgeFlows [plainNic]) ct
        ⟨"tap0", plainNic.mac, "ff:ff:ff:ff:ff:ff", .arp foreignMac⟩ ≠ [] ∧
      forwards (bridgeFlows [closedNic]) ct ⟨"tap1", foreignMac, closedNic.mac, .arp foreignMac⟩ ≠ [] :=
  ⟨allEstablished none, by decide, by decide⟩

/-! ## Ingress isolation -/

/-- The essentials that the filter of a NIC lets in: ARP, ICMPv6 and DHCP replies. -/
def Frame.essential (f : Frame) : Bool :=
  f.payload.isArp || f.isIcmp6 || f.isUdp 67 68

/-- No two NICs share a TAP, a MAC or a conntrack zone. -/
structure Distinct (nics : List Nic) : Prop where
  taps : DistinctTaps nics
  macs : ∀ a ∈ nics, ∀ b ∈ nics, a.mac = b.mac → a = b
  zones : ∀ a ∈ nics, ∀ b ∈ nics, a.zone = b.zone → a = b

/-- If the frame is output to the NIC's TAP and belongs to no connection committed in its zone, it
is an essential or one of the NIC's ingress rules admits it. -/
def Isolated (b : Nic) (policy : Policy) (f : Frame) : Prop :=
  ∀ ct fdb, OutputTo (bridgeFlows nics) ct fdb f b.tap → ct.holds b.zone f = false →
    f.essential = true ∨ rulesAdmit policy.ingress .ingress f = true

/-- It is addressed to the NIC and no NIC of the bridge sends it under its own MAC, or it comes from
a TAP under a foreign MAC and is addressed to no filtered NIC. -/
def Shielded (b : Nic) (f : Frame) : Prop :=
  (f.dlDst = b.mac ∧ ∀ a ∈ nics, ¬ a.Sends f) ∨
    ((∃ a ∈ nics, f.inPort = a.tap ∧ f.dlSrc ≠ a.mac) ∧
      ∀ c ∈ nics, c.policy.isSome → f.dlDst ≠ c.mac)

section

variable {nics : List Nic} {f : Frame} {b : Nic} {policy : Policy} {ct : Conntrack} {a : Nic}

theorem Frame.essential_eq_false (h : f.essential = false) :
    f.payload.isArp = false ∧ f.isIcmp6 = false ∧ f.isUdp 67 68 = false := by
  simpa [Frame.essential, and_assoc] using h

theorem ReceiveOffer.of_ip {n : Nic} {prio : Nat} {a : Action} (hess : f.essential = false)
    (h : ReceiveOffer n f prio a) : prio = 1080 ∧ a = .ct n.zone := by
  obtain ⟨harp, hicmp, hdhcp⟩ := Frame.essential_eq_false hess
  cases h with
  | arp hf => simp [harp] at hf
  | dhcp hf => simp [hdhcp] at hf
  | icmp6 hf => simp [hicmp] at hf
  | ip => exact ⟨rfl, rfl⟩

/-- The flows of the sender for an IP packet under its own MAC: `NORMAL` or its conntrack zone, at a
priority that nothing else reaches or exceeds. -/
theorem SendOffer.top (hip : f.isIp) (hess : f.essential = false) : ∃ prio, 1080 ≤ prio ∧
      (SendOffer a f prio .normal ∨ (a.policy.isSome ∧ SendOffer a f prio (.ct a.zone))) ∧
      ∀ prio' b', SendOffer a f prio' b' → prio' ≤ prio := by
  obtain ⟨harp, hicmp, -⟩ := Frame.essential_eq_false hess
  have hnotArp : ∀ sha, f.payload ≠ .arp sha := by
    intro sha hf
    rw [hf] at harp
    cases harp
  cases hp : a.policy with
  | none =>
    refine ⟨1180, by omega, .inl (.secure hp), ?_⟩
    intro prio' b' h
    cases h with
    | secureArp _ hf => exact absurd hf (hnotArp _)
    | _ => omega
  | some policy =>
    have hsome : a.policy.isSome := by rw [hp]; rfl
    by_cases hdhcp : f.isUdp 68 67
    · refine ⟨1090, by omega, .inl (.dhcp hsome hdhcp), ?_⟩
      intro prio' b' h
      cases h with
      | secureArp hnone | secure hnone => simp [hp] at hnone
      | arp _ hf => exact absurd hf (hnotArp _)
      | _ => omega
    · refine ⟨1080, by omega, .inr ⟨rfl, .ip hsome hip⟩, ?_⟩
      intro prio' b' h
      cases h with
      | secureArp hnone | secure hnone => simp [hp] at hnone
      | arp _ hf => exact absurd hf (hnotArp _)
      | dhcp _ hf => exact absurd hf hdhcp
      | icmp6 _ hf => simp [hicmp] at hf
      | ip => omega

/-- An IP packet that a NIC sends under its own MAC is forwarded, whoever it is addressed to, if
conntrack calls it established in the sender's zone. -/
theorem forwards_sent (htaps : DistinctTaps nics) (ha : a ∈ nics) (hs : a.Sends f)
    (hip : f.isIp) (hess : f.essential = false) (hest : (ct.classify a.zone f).est) :
    forwards (bridgeFlows nics) ct f ≠ [] := by
  obtain ⟨prio, hle, hoffer, htop⟩ := SendOffer.top (a := a) hip hess
  have hbridge : ∀ b, SendOffer a f prio b → b ∈ lookup fieldsHit (bridgeFlows nics) 0 ⟨f, none⟩ := by
    intro b hb
    have hb' : Offers fieldsHit a.flows 0 ⟨f, none⟩ prio b := offers_zero_iff.mpr (.inl ⟨hs, hb⟩)
    refine mem_lookup_of_top (offers_bridge_zero.mpr (.inr ⟨a, ha, hb'⟩)) ?_
    intro m b' hm
    rcases offers_bridge_zero.mp hm with ⟨rfl, -⟩ | ⟨n, hn, hm⟩
    · exact Nat.zero_le _
    rcases offers_zero_iff.mp hm with ⟨hs', hm⟩ | ⟨-, -, hm⟩ | ⟨-, rfl, -⟩
    · obtain rfl := htaps n hn a ha (hs'.1.symm.trans hs.1)
      exact htop m b' hm
    · have := (hm.of_ip hess).1
      omega
    · have : spoofDropPriority = 1000 := rfl
      omega
  rcases hoffer with h | ⟨hp, h⟩
  · exact forwards_of_normal (hbridge _ h)
  · exact forwards_of_est ha hp (hbridge _ h) hest

theorem forwards_stray (hin : ∀ n ∈ nics, f.inPort ≠ n.tap)
    (hd : ∀ c ∈ nics, c.policy.isSome → f.dlDst ≠ c.mac) :
    forwards (bridgeFlows nics) ct f ≠ [] := by
  apply forwards_of_normal
  refine mem_lookup_of_top (offers_bridge_zero.mpr (.inl ⟨rfl, rfl⟩)) ?_
  intro m b' hm
  rcases offers_unsent (fun n hn hs => hin n hn hs.1) hm with ⟨rfl, -⟩ | ⟨n, hn, hdst, hp, -⟩ |
    ⟨n, hn, hport, -⟩
  · exact Nat.le_refl _
  · exact absurd hdst (hd n hn hp)
  · exact absurd hport (hin n hn)

/-- An IP packet that reaches the flows of the NIC it is addressed to passes its policy or is dropped. -/
theorem forwards_addressed (hd : Distinct nics) (hb : b ∈ nics) (hp : b.policy = some policy)
    (hip : f.isIp) (hdst : f.dlDst = b.mac) (hns : ∀ a ∈ nics, ¬ a.Sends f)
    (hess : f.essential = false) (hrule : rulesAdmit policy.ingress .ingress f = false)
    (hholds : ct.holds b.zone f = false) : forwards (bridgeFlows nics) ct f = [] := by
  have hsome : b.policy.isSome := by rw [hp]; rfl
  have htrack : Offers fieldsHit (bridgeFlows nics) 0 ⟨f, none⟩ 1080 (.ct b.zone) :=
    offers_bridge_zero.mpr (.inr ⟨b, hb, offers_zero_iff.mpr (.inr (.inl ⟨hdst, hsome, .ip hip⟩))⟩)
  apply forwards_eq_nil
  intro a ha
  right
  refine ⟨b.zone, ?_, ?_⟩
  · obtain ⟨m, hm, ha⟩ := offers_of_mem_lookup ha htrack
    rcases offers_unsent hns ha with ⟨rfl, -⟩ | ⟨n, hn, hdst', -, hrecv⟩ | ⟨n, -, -, rfl, -⟩
    · omega
    · obtain rfl := hd.macs n hn b hb (hdst'.symm.trans hdst)
      exact (hrecv.of_ip hess).2
    · exact absurd hm (by decide)
  · intro a' ha'
    obtain ⟨m, hoffer, -⟩ := mem_lookup_iff.mp ha'
    obtain ⟨n, hn, hoffer⟩ := offers_bridge_result.mp hoffer
    obtain ⟨policy', hp', hzone, hoffer⟩ := offers_result hoffer
    obtain rfl := hd.zones b hb n hn hzone
    obtain rfl : policy = policy' := mem_unique hp hp'
    cases hoffer with
    | established hst =>
      have hheld : ct.holds b.zone f := by
        rcases hst with hst | hst
        · exact ct.est _ _ hst
        · exact ct.rel _ _ hst
      simp [hholds] at hheld
    | invalid | denied | refused => rfl
    | opens _ hs => exact absurd hs (hns b hb)
    | admits _ _ hpass => simp [hrule] at hpass

/-- **Ingress isolation on a shared bridge.**  An IP packet is kept from a filtered NIC as its
policy says if and only if it comes from that NIC, is an essential, is admitted by one of its rules,
or is shielded. -/
theorem isolated_iff (hd : Distinct nics) (hb : b ∈ nics) (hp : b.policy = some policy)
    (hip : f.isIp) : Isolated nics b policy f ↔
      f.inPort = b.tap ∨ f.essential ∨ rulesAdmit policy.ingress .ingress f ∨
        Shielded nics b f := by
  constructor
  · intro hiso
    by_contra hnot
    simp only [not_or, Bool.not_eq_true] at hnot
    obtain ⟨hport, hess, hrule, hshield⟩ := hnot
    have hspared : ∀ n ∈ nics, n ≠ b →
        ((allEstablished (some b.zone)).classify n.zone f).est := by
      intro n hn hne
      have hz : b.zone ≠ n.zone := fun hz => hne (hd.zones n hn b hb hz.symm)
      simpa [allEstablished] using hz
    -- the packet is forwarded, and floods
    suffices hfwd : forwards (bridgeFlows nics) (allEstablished (some b.zone)) f ≠ [] by
      have hout : normalTo (fun _ => none) f b.tap = true := by
        simpa [normalTo] using fun h => hport h.symm
      rcases hiso _ _ ⟨hfwd, hout⟩ (by simp [allEstablished]) with h | h
      · simp [hess] at h
      · simp [hrule] at h
    by_cases hsent : ∃ a ∈ nics, a.Sends f
    · obtain ⟨a, ha, hs⟩ := hsent
      have hne : a ≠ b := by
        rintro rfl
        exact hport hs.1
      exact forwards_sent hd.taps ha hs hip hess (hspared a ha hne)
    · have hns : ∀ a ∈ nics, ¬ a.Sends f := fun a ha hs => hsent ⟨a, ha, hs⟩
      by_cases hrecv : ∃ c ∈ nics, c.policy.isSome = true ∧ f.dlDst = c.mac
      · obtain ⟨c, hc, hpc, hdst⟩ := hrecv
        have hne : c ≠ b := by
          rintro rfl
          exact hshield (.inl ⟨hdst, hns⟩)
        have hother : f.payload ≠ .other := by
          obtain ⟨v6, src, dst, t, hf⟩ := hip
          rw [hf]
          simp
        exact forwards_received hns hc hdst hpc hother (hspared c hc hne)
      · have hdst : ∀ c ∈ nics, c.policy.isSome → f.dlDst ≠ c.mac :=
          fun c hc hpc hdst => hrecv ⟨c, hc, hpc, hdst⟩
        refine forwards_stray (fun n hn hin => ?_) hdst
        refine hshield (.inr ⟨⟨n, hn, hin, fun hsrc => hns n hn ⟨hin, hsrc⟩⟩, hdst⟩)
  · intro hcond ct fdb hout hholds
    obtain ⟨hfwd, hnormal⟩ := hout
    by_contra hnot
    simp only [not_or, Bool.not_eq_true] at hnot
    obtain ⟨hess, hrule⟩ := hnot
    rcases hcond with hport | h | h | ⟨hdst, hns⟩ | ⟨⟨a, ha, hin, hsrc⟩, hnone⟩
    · simp [normalTo, hport] at hnormal
    · simp [hess] at h
    · simp [hrule] at h
    · exact hfwd (forwards_addressed hd hb hp hip hdst hns hess hrule hholds)
    · refine hfwd (forwards_spoofed (not_sends_of_spoofed hd.taps ha hin hsrc) ha hin ?_)
      intro c hc hpc hdst
      exact absurd hdst (hnone c hc hpc)

end

theorem sampleNics_distinct : Distinct [plainNic, closedNic] where
  taps := (by decide : ∀ a ∈ [plainNic, closedNic], ∀ b ∈ [plainNic, closedNic], a.tap = b.tap → a = b)
  macs := by decide
  zones := by decide

def fromUplink : Frame :=
  ⟨"eth0", foreignMac, "02:00:00:00:00:0b", .ip false 1 2 (.tcp 40000 22)⟩

/-- The filtered NIC is isolated from what comes in over the uplink for it. -/
theorem isolated_from_uplink : Isolated [plainNic, closedNic] closedNic ⟨[], [], false⟩ fromUplink :=
  (isolated_iff sampleNics_distinct (by decide) rfl ⟨_, _, _, _, rfl⟩).mpr
    (.inr (.inr (.inr (.inl ⟨rfl, fun a ha hs => by
      rcases mem_cons.mp ha with rfl | ha
      · exact absurd hs.1 (by decide)
      · obtain rfl := mem_singleton.mp ha
        exact absurd hs.1 (by decide)⟩))))

def fromNeighbour : Frame :=
  ⟨"tap0", "02:00:00:00:00:0a", "02:00:00:00:00:0b", .ip false 1 2 (.tcp 40000 22)⟩

/-- **A neighbour reaches a NIC that admits nothing.**  The sender's flow for everything under its own
MAC ranks above all flows of the receiver and ends in `NORMAL`. -/
theorem isolation_bypassed : Distinct [plainNic, closedNic] ∧
    ∃ ct fdb, OutputTo (bridgeFlows [plainNic, closedNic]) ct fdb fromNeighbour closedNic.tap ∧
      ct.holds closedNic.zone fromNeighbour = false ∧ fromNeighbour.essential = false ∧
      rulesAdmit [] .ingress fromNeighbour = false :=
  ⟨sampleNics_distinct, allEstablished (some closedNic.zone), fun _ => some "tap1",
    ⟨by decide, by decide⟩, by decide, by decide, by decide⟩

/-! ## Connections over a run -/

/-- What a bridge remembers: where it has learned addresses, and the connections committed in each zone,
by the frame that opened them. -/
structure Switch where
  fdb : MacAddr → Option String
  conns : List (Nat × Frame)

/-- A frame that arrives, what conntrack says about frames then, and the way the tables forward it. -/
structure Arrival where
  frame : Frame
  ct : Conntrack
  way : Option Nat

/-- The frame is forwarded: its source is learned and its connection committed. -/
def Switch.step (s : Switch) (x : Arrival) : Option Switch :=
  if x.way ∈ forwards (bridgeFlows nics) x.ct x.frame then
    some { fdb := Function.update s.fdb x.frame.dlSrc (some x.frame.inPort)
           conns := s.conns ++ (x.way.map fun z => (z, x.frame)).toList }
  else none

section

variable (same : Frame → Frame → Bool)

def Switch.holds (s : Switch) (z : Nat) (f : Frame) : Bool :=
  s.conns.any fun conn => conn.1 == z && same conn.2 f

/-- The policy of a NIC lets the frame open a connection in its zone: from the NIC, or to it. -/
def Nic.Opens (n : Nic) (z : Nat) (f : Frame) : Prop :=
  ∃ policy, n.policy = some policy ∧ z = n.zone ∧
    ((n.Sends f ∧ (policy.egressDefaultDeny = false ∨ rulesAdmit policy.egress .egress f)) ∨
      (f.dlDst = n.mac ∧ rulesAdmit policy.ingress .ingress f))

variable {same} {nics : List Nic} {s : Switch} {x : Arrival}

/-- What commits a connection: table 0 never does. -/
theorem opens_of_commit {ct : Conntrack} {f : Frame} {z : Nat}
    (h : some z ∈ forwards (bridgeFlows nics) ct f) : ∃ n ∈ nics, n.Opens z f := by
  obtain ⟨a, ha, h⟩ := mem_flatMap.mp h
  obtain ⟨m, hoffer, -⟩ := mem_lookup_iff.mp ha
  cases a with
  | normal => cases mem_singleton.mp h
  | drop => cases h
  | commit z' =>
    exfalso
    rcases offers_bridge_zero.mp hoffer with ⟨-, hz⟩ | ⟨n, -, hoffer⟩
    · cases hz
    · rcases offers_zero_iff.mp hoffer with ⟨-, hoffer⟩ | ⟨-, -, hoffer⟩ | ⟨-, -, hz⟩
      · cases hoffer
      · cases hoffer
      · cases hz
  | ct z' =>
    obtain ⟨b, hb, hfwd⟩ := mem_filterMap.mp h
    obtain ⟨m', hoffer', -⟩ := mem_lookup_iff.mp hb
    obtain ⟨n, hn, hoffer'⟩ := offers_bridge_result.mp hoffer'
    obtain ⟨policy, hp, -, hoffer'⟩ := offers_result hoffer'
    refine ⟨n, hn, policy, hp, ?_⟩
    cases hoffer' with
    | established | invalid | denied | refused => cases hfwd
    | opens _ hs hrule =>
      cases hfwd
      exact ⟨rfl, .inl ⟨hs, hrule⟩⟩
    | admits _ hd hrule =>
      cases hfwd
      exact ⟨rfl, .inr ⟨hd, hrule⟩⟩

/-- Every connection was opened by a frame that the policy of a NIC with its zone lets out or in. -/
def OpenedByPolicy (nics : List Nic) (s : Switch) : Prop :=
  ∀ conn ∈ s.conns, ∃ n ∈ nics, n.Opens conn.1 conn.2

theorem OpenedByPolicy.step {s' : Switch} (h : OpenedByPolicy nics s)
    (hs : s.step nics x = some s') : OpenedByPolicy nics s' := by
  unfold Switch.step at hs
  split at hs
  · next hway =>
    cases hs
    intro conn hconn
    rcases mem_append.mp hconn with hconn | hconn
    · exact h conn hconn
    cases hw : x.way with
    | none => simp [hw] at hconn
    | some z =>
      rw [hw] at hconn hway
      obtain rfl := mem_singleton.mp hconn
      exact opens_of_commit hway
  · cases hs

end

end VQuasar.Dataplane
