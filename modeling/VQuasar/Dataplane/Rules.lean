import VQuasar.Dataplane.Flows

/-!
# What a security-group rule admits

A rule goes from the request (`CreateRule`) to the row that `add_rule` stores, from there to the wire
(`expand_rule`), to the agent (`sec_rule`) and into matches (`rule_matches`).  `SecRule.means` says
what the matches of the last form come to (`any_ruleMatches`); `Asks` says what the
request asks for.

The two agree, and Open vSwitch takes the matches, exactly when neither bound of the port range gets
lost on the way and the remote network is of the rule's family (`rule_exact_iff`): on the wire an
absent bound is 0, and the agent reads two zeros as any port and a maximum below the minimum as the
two in the wrong order.
-/

namespace VQuasar.Dataplane

open Tenancy FlowTable List Option SecRule Transport

/-! ## The matches of a rule -/

def protocolHits : Protocol → Transport → Bool
  | .tcp, t => t.isTcp
  | .udp, t => t.isUdp
  | .icmp, t => t.isIcmp
  | .any, _ => true

def remoteEnd (dir : Direction) (src dst : Nat) : Nat :=
  match dir with
  | .ingress => src
  | .egress => dst

variable (r : SecRule) (row : SecurityGroupRule) {α : Type} {a : α} {db : Db}

/-- The destination ports that the agent's rule leaves. -/
def SecRule.portHits (dst : Nat) : Bool :=
  !r.hasPorts || (decide (min r.portMin r.portMax ≤ dst) && decide (dst ≤ max r.portMin r.portMax))

/-- The packets that the agent's rule is about. -/
def SecRule.means (dir : Direction) : Payload → Bool
  | .ip v6 src dst t =>
    v6 == r.ipv6 && protocolHits r.protocol t &&
      r.remoteCidr.all (fun net => netContains net v6 (remoteEnd dir src dst)) &&
      t.ports.all fun (_, dst) => r.portHits dst.val
  | _ => false

theorem SecRule.means_ip (dir : Direction) (v6 : Bool) (src dst : Nat) (t : Transport) :
    r.means dir (.ip v6 src dst t) =
      (v6 == r.ipv6 && protocolHits r.protocol t &&
        r.remoteCidr.all (fun net => netContains net v6 (remoteEnd dir src dst)) &&
        t.ports.all fun ports => r.portHits ports.2.val) := rfl

section

variable {r : SecRule} {dir : Direction} {f : Frame} {ct : Option (Nat × CtState)}

theorem hits_proto : Field.hits ⟨f, ct⟩ r.proto = f.payload.isIp r.ipv6 (protocolHits r.protocol) := by
  unfold proto
  cases hp : r.protocol <;> cases hv : r.ipv6 <;> rfl

theorem hits_remote {v6 : Bool} {src dst : Nat} {t : Transport}
    (hf : f.payload = .ip v6 src dst t) (hv : v6 = r.ipv6) :
    (r.remote dir).all (Field.hits ⟨f, ct⟩) =
      r.remoteCidr.all fun net => netContains net v6 (remoteEnd dir src dst) := by
  unfold remote
  cases hc : r.remoteCidr with
  | none => rfl
  | some net =>
    cases dir <;> cases h6 : r.ipv6 <;>
      simp [Field.hits, hf, hv, h6, Payload.addresses, remoteEnd]

theorem SecRule.hasPorts_protocol (h : r.hasPorts) : r.protocol = .tcp ∨ r.protocol = .udp := by
  simp only [hasPorts, Bool.and_eq_true, Bool.or_eq_true, beq_iff_eq] at h
  exact h.1.1

theorem any_portMasks_rule (hmin : r.portMin < 2 ^ 16) (hmax : r.portMax < 2 ^ 16)
    (dst : PortNumber) :
    (portMasks (min r.portMin r.portMax) (max r.portMin r.portMax)).any (maskHits dst.val) =
      (decide (min r.portMin r.portMax ≤ dst.val) && decide (dst.val ≤ max r.portMin r.portMax)) := by
  rw [Bool.eq_iff_iff, any_portMasks_iff (by omega) dst.isLt]
  simp

theorem ruleMatches_eq : ruleMatches r dir =
      if r.hasPorts then
        (portMasks (min r.portMin r.portMax) (max r.portMin r.portMax)).map fun vm =>
          r.proto :: .tpDst vm.1 vm.2 :: r.remote dir
      else [r.proto :: r.remote dir] := by
  unfold ruleMatches
  by_cases hle : r.portMin ≤ r.portMax
  · simp [hle]
  · have hge : r.portMax ≤ r.portMin := by omega
    simp [hle, hge]

theorem any_ruleMatches_of_not (h : f.payload.isIp r.ipv6 (protocolHits r.protocol) = false) :
    ((ruleMatches r dir).any fun m => fieldsHit m ⟨f, ct⟩) = false := by
  have hmiss : ∀ rest, fieldsHit (r.proto :: rest) ⟨f, ct⟩ = false := by
    intro rest
    simp [fieldsHit, hits_proto, h]
  rw [ruleMatches_eq]
  split
  · rw [List.any_map, List.any_eq_false]
    intro vm _
    simp [hmiss]
  · simp [hmiss]

/-- **What the matches of a rule come to**, whatever conntrack said before. -/
theorem any_ruleMatches (hmin : r.portMin < 2 ^ 16) (hmax : r.portMax < 2 ^ 16) :
    ((ruleMatches r dir).any fun m => fieldsHit m ⟨f, ct⟩) = r.means dir f.payload := by
  cases hf : f.payload with
  | arp | other => exact any_ruleMatches_of_not (by rw [hf]; rfl)
  | ip v6 src dst t =>
  by_cases hproto : (v6 == r.ipv6 && protocolHits r.protocol t) = true
  · have hv : v6 = r.ipv6 := by
      simp only [Bool.and_eq_true, beq_iff_eq] at hproto
      exact hproto.1
    have hhit : Field.hits ⟨f, ct⟩ r.proto := by
      rwa [hits_proto, hf]
    have hremote : (r.remote dir).all (Field.hits ⟨f, ct⟩) =
        r.remoteCidr.all fun net => netContains net v6 (remoteEnd dir src dst) := hits_remote hf hv
    rw [means_ip, ruleMatches_eq, hproto, Bool.true_and, ← hremote]
    by_cases hports : r.hasPorts
    · -- TCP and UDP packets have ports
      obtain ⟨sp, dp, htp⟩ : ∃ sp dp, t.ports = some (sp, dp) := by
        simp only [Bool.and_eq_true] at hproto
        rcases hasPorts_protocol hports with hp | hp <;> rw [hp] at hproto <;>
          cases t <;> simp [protocolHits, isTcp, isUdp, ports]
            at hproto ⊢
      have hblocks := any_portMasks_rule hmin hmax dp
      have htpDst : ∀ vm : Nat × Nat,
          Field.hits ⟨f, ct⟩ (.tpDst vm.1 vm.2) = maskHits dp.val vm := by
        intro vm
        simp [Field.hits, hf, Payload.ports, htp]
      rw [if_pos hports, List.any_map, htp]
      simp only [Function.comp_def, fieldsHit, List.all_cons, hhit, htpDst, Bool.true_and,
        all_some, portHits, hports, Bool.not_true, Bool.false_or, ← hblocks]
      cases (r.remote dir).all (Field.hits ⟨f, ct⟩) <;> simp
    · have hany : ∀ n, r.portHits n := by
        intro n
        simp [portHits, hports]
      rw [if_neg hports]
      simp [fieldsHit, hhit, hany]
  · rw [Bool.not_eq_true] at hproto
    have hmiss : f.payload.isIp r.ipv6 (protocolHits r.protocol) = false := by
      rwa [hf]
    rw [any_ruleMatches_of_not hmiss, means_ip, hproto]
    rfl

end

/-! ## From the request to the row -/

/-- What `add_rule` stores for a request that `validate_rule` lets through. -/
structure Stores (body : CreateRule) (row : SecurityGroupRule) : Prop where
  direction : body.direction = .ok row.direction
  ethertype : body.ethertype = .ok row.ethertype
  protocol : body.protocol = .ok row.protocol
  portMin : row.portMin = body.portMin
  portMax : row.portMax = body.portMax
  /-- ports are those of TCP and UDP, and in range -/
  ports : ∀ p, body.portMin = some p ∨ body.portMax = some p →
    (row.protocol = .tcp ∨ row.protocol = .udp) ∧ 0 ≤ p ∧ p ≤ 65535
  ordered : ∀ lo hi, body.portMin = some lo → body.portMax = some hi → lo ≤ hi
  remoteCidr : body.remoteCidr = row.remoteCidr.map Except.ok
  remoteGroup : row.remoteGroup = body.remoteGroup

theorem checkPort_ok {protocol : Protocol} {o : Option Int} {x : Unit}
    (h : checkPort protocol o = .ok x) {p : Int} (hp : o = some p) :
    (protocol = .tcp ∨ protocol = .udp) ∧ 0 ≤ p ∧ p ≤ 65535 := by
  subst hp
  simp only [checkPort] at h
  obtain ⟨hproto, h⟩ := ensure_bind.mp h
  have hrange := ensure_eq_ok.mp h
  simp only [Bool.or_eq_true, beq_iff_eq] at hproto
  simp only [Bool.and_eq_true, decide_eq_true_eq] at hrange
  exact ⟨hproto, hrange⟩

theorem toOption_eq_some {ε : Type} {r : Except ε α} (h : r.toOption = some a) : r = .ok a := by
  cases r with
  | ok b => exact congrArg Except.ok (some.inj h)
  | error e => cases h

theorem parseOptional_ok {what : String} {o : Option (Text α)} {a : Option α}
    (h : parseOptional what o = .ok a) : o = a.map Except.ok := by
  cases o with
  | none =>
    cases h
    rfl
  | some t =>
    obtain ⟨b, hb, ⟨⟩⟩ := of_bind_pure h
    cases t with
    | ok c =>
      cases hb
      rfl
    | error e => cases hb

theorem settle_ok {r : Except ApiError (Db × α)}
    (h : (settle db r).2 = .ok a) : ∃ db', r = .ok (db', a) := by
  cases r with
  | error e => cases h
  | ok x =>
    cases h
    exact ⟨x.1, rfl⟩

theorem addRule_stores {cfg : Config} {s : Scope} {u : AuthUser} {id : Id}
    {body : CreateRule} {row : SecurityGroupRule}
    (h : (addRule cfg db s u id body).2 = .ok row) : Stores body row := by
  obtain ⟨db', h⟩ := settle_ok h
  replace h := of_ensure h
  replace h := of_ensure h
  obtain ⟨⟨direction, ethertype, protocol, cidr⟩, hvalid, h⟩ := bind_eq_ok.mp h
  replace h := of_ensure h
  cases of_ensure_pure h
  -- what `validate_rule` has checked
  replace hvalid := of_ensure hvalid
  obtain ⟨d, hdir, hvalid⟩ := orElse_bind.mp hvalid
  obtain ⟨e, heth, hvalid⟩ := orElse_bind.mp hvalid
  obtain ⟨p, hproto, hvalid⟩ := orElse_bind.mp hvalid
  obtain ⟨_, hmin, hvalid⟩ := bind_eq_ok.mp hvalid
  obtain ⟨_, hmax, hvalid⟩ := bind_eq_ok.mp hvalid
  obtain ⟨hordered, hvalid⟩ := ensure_bind.mp hvalid
  obtain ⟨c, hcidr, ⟨⟩⟩ := of_bind_pure hvalid
  refine ⟨toOption_eq_some hdir, toOption_eq_some heth, toOption_eq_some hproto, rfl, rfl, ?_, ?_,
    parseOptional_ok hcidr, rfl⟩
  · rintro q (hq | hq)
    · exact checkPort_ok hmin hq
    · exact checkPort_ok hmax hq
  · intro lo hi hlo hhi
    rw [hlo, hhi] at hordered
    simpa [portsOrdered] using hordered

/-! ## What the request asks for -/

def familyOf (v6 : Bool) : Ethertype := if v6 then .ipv6 else .ipv4

/-- The packets that a request asks to admit: of its ethertype and protocol, with the remote end
inside `remote_cidr`, and with the destination port in the range, each as far as it is given. -/
def Asks (body : CreateRule) (dir : Direction) (f : Frame) : Prop :=
  ∃ v6 src dst t, f.payload = .ip v6 src dst t ∧ body.ethertype = .ok (familyOf v6) ∧
    (∃ p, body.protocol = .ok p ∧ protocolHits p t) ∧
    (∀ net, body.remoteCidr = some (.ok net) → netContains net v6 (remoteEnd dir src dst)) ∧
    ∀ sp dp, t.ports = some (sp, dp) →
      (∀ lo, body.portMin = some lo → lo ≤ (dp.val : Int)) ∧
        ∀ hi, body.portMax = some hi → (dp.val : Int) ≤ hi

/-- The matches that a stored rule ends up as. -/
def ruleFlows (members : Id → List IpAddr) : List (List Field) :=
  (expandRule row members).flatMap fun w => ruleMatches (secRule w) row.direction

def admitted (ms : List (List Field)) (f : Frame) : Bool := ms.any fun m => fieldsHit m ⟨f, none⟩

/-- Open vSwitch takes an address in a field of its family. -/
def Field.accepted : Field → Bool
  | .nwSrc net | .nwDst net => !net.v6
  | .ipv6Src net | .ipv6Dst net => net.v6
  | _ => true

/-- The port range survives the wire: there is a maximum other than 0, or no bound but 0. -/
def portsKept (body : CreateRule) : Prop :=
  body.portMax ≠ some 0 ∧ (body.portMax = none → body.portMin.getD 0 = 0)

/-- The remote network is of the rule's family. -/
def familyFits (body : CreateRule) : Prop :=
  ∀ net, body.remoteCidr = some (.ok net) → body.ethertype = .ok (familyOf net.v6)

section

variable {body : CreateRule} {row : SecurityGroupRule} {members : Id → List IpAddr} {f : Frame}
  {dir : Direction}

/-- The rule of the agent for a row without a remote group. -/
def agentRule (row : SecurityGroupRule) : SecRule := secRule row.base

theorem ruleFlows_eq (h : row.remoteGroup = none) :
    ruleFlows row members = ruleMatches (agentRule row) row.direction := by
  simp [ruleFlows, expandRule, h, agentRule]

theorem admitted_ruleFlows (h : row.remoteGroup = none) :
    admitted (ruleFlows row members) f = (agentRule row).means row.direction f.payload := by
  rw [ruleFlows_eq h]
  exact any_ruleMatches (Nat.mod_lt _ (by decide)) (Nat.mod_lt _ (by decide))

theorem sec_port {o : Option Int} (h : ∀ p, o = some p → 0 ≤ p ∧ p ≤ 65535) :
    (((max (o.getD 0) 0).toNat % 2 ^ 16 : Nat) : Int) = o.getD 0 := by
  cases o with
  | none => rfl
  | some p =>
    have hp := h p rfl
    simp only [getD_some]
    omega

theorem Stores.agentRule_portMin (h : Stores body row) : ((agentRule row).portMin : Int) = body.portMin.getD 0 := by
  have hport := sec_port (o := row.portMin) fun p hp => (h.ports p (.inl (h.portMin ▸ hp))).2
  rwa [← h.portMin]

theorem Stores.agentRule_portMax (h : Stores body row) : ((agentRule row).portMax : Int) = body.portMax.getD 0 := by
  have hport := sec_port (o := row.portMax) fun p hp => (h.ports p (.inr (h.portMax ▸ hp))).2
  rwa [← h.portMax]

theorem agentRule_ipv6 {v6 : Bool} : (v6 == (agentRule row).ipv6) ↔ row.ethertype = familyOf v6 := by
  cases v6 <;> cases h : row.ethertype <;>
    simp [agentRule, secRule, SecurityGroupRule.base, familyOf, h]

theorem SecRule.portHits_iff {r : SecRule} (hproto : r.protocol = .tcp ∨ r.protocol = .udp) (dst : Nat) :
    r.portHits dst ↔ (r.portMin = 0 ∧ (r.portMax = 0 ∨ r.portMax = 65535)) ∨
        min r.portMin r.portMax ≤ dst ∧ dst ≤ max r.portMin r.portMax := by
  have hp : (r.protocol == .tcp || r.protocol == .udp) := by
    rcases hproto with h | h <;> rw [h] <;> rfl
  simp only [portHits, hasPorts, hp, Bool.true_and, Bool.or_eq_true,
    Bool.not_eq_true', Bool.and_eq_false_iff, Bool.not_eq_false', Bool.and_eq_true, beq_iff_eq,
    decide_eq_true_eq]
  omega

section

variable (h : Stores body row)
include h

/-- The agent's ports are those of the request exactly when the range survives the wire. -/
theorem Stores.portHits_iff (hkept : portsKept body)
    (hproto : row.protocol = .tcp ∨ row.protocol = .udp) (dst : PortNumber) :
    (agentRule row).portHits dst.val ↔ (∀ lo, body.portMin = some lo → lo ≤ (dst.val : Int)) ∧
        ∀ hi, body.portMax = some hi → (dst.val : Int) ≤ hi := by
  have hmin := h.agentRule_portMin
  have hmax := h.agentRule_portMax
  have hdst := dst.isLt
  have hord := h.ordered
  have hrange := h.ports
  obtain ⟨hne, hnone⟩ := hkept
  rw [SecRule.portHits_iff hproto]
  cases hhi : body.portMax with
  | none =>
    -- no maximum: the minimum is absent or 0, and both are 0 on the wire
    have hzero := hnone hhi
    rw [hhi] at hmax
    simp only [getD_none] at hmax
    constructor
    · intro _
      refine ⟨fun lo hlo => ?_, fun hi h => (nomatch h)⟩
      rw [hlo] at hzero
      simp only [getD_some] at hzero
      omega
    · intro _
      omega
  | some hi =>
    rw [hhi] at hmax hne
    simp only [getD_some] at hmax
    have hhi0 : hi ≠ 0 := fun h0 => hne (congrArg some h0)
    have hhir := hrange hi (.inr hhi)
    cases hlo : body.portMin with
    | none =>
      rw [hlo] at hmin
      simp only [getD_none] at hmin
      constructor
      · intro hhit
        refine ⟨fun lo h => (nomatch h), fun hi' h => ?_⟩
        cases h
        omega
      · rintro ⟨-, hle⟩
        have := hle hi rfl
        omega
    | some lo =>
      rw [hlo] at hmin
      simp only [getD_some] at hmin
      have hle := hord lo hi hlo hhi
      constructor
      · intro hhit
        refine ⟨fun lo' h => ?_, fun hi' h => ?_⟩
        · cases h
          omega
        · cases h
          omega
      · rintro ⟨h1, h2⟩
        have := h1 lo rfl
        have := h2 hi rfl
        omega

theorem Stores.portHits_any (hproto : ¬(row.protocol = .tcp ∨ row.protocol = .udp))
    (dst : Nat) : (agentRule row).portHits dst ∧ body.portMin = none ∧ body.portMax = none := by
  have hnone : ∀ o : Option Int, (∀ p, o = some p → body.portMin = some p ∨ body.portMax = some p) →
      o = none := by
    intro o ho
    cases o with
    | none => rfl
    | some p => exact absurd (h.ports p (ho p rfl)).1 hproto
  refine ⟨?_, hnone _ fun p hp => .inl hp, hnone _ fun p hp => .inr hp⟩
  have hp : (agentRule row).hasPorts = false := by
    cases hports : (agentRule row).hasPorts with
    | false => rfl
    | true => exact absurd (hasPorts_protocol hports) hproto
  simp [portHits, hp]

theorem Stores.asks_iff {v6 : Bool} {src dst : Nat} {t : Transport}
    (hf : f.payload = .ip v6 src dst t) : Asks body row.direction f ↔
      row.ethertype = familyOf v6 ∧ protocolHits row.protocol t ∧
      row.remoteCidr.all (fun net => netContains net v6 (remoteEnd row.direction src dst)) = true ∧
      ∀ sp dp, t.ports = some (sp, dp) → (∀ lo, body.portMin = some lo → lo ≤ (dp.val : Int)) ∧
          ∀ hi, body.portMax = some hi → (dp.val : Int) ≤ hi := by
  have hcidr : (∀ net, body.remoteCidr = some (.ok net) →
        netContains net v6 (remoteEnd row.direction src dst)) ↔
      row.remoteCidr.all (fun net => netContains net v6 (remoteEnd row.direction src dst)) = true := by
    rw [h.remoteCidr]
    cases row.remoteCidr with
    | none => simp
    | some net =>
    constructor
    · intro hall
      exact hall net rfl
    · intro hall net' hnet
      cases hnet
      exact hall
  constructor
  · rintro ⟨v6', src', dst', t', hf', heth, ⟨p, hp, hhit⟩, hnet, hports⟩
    cases hf.symm.trans hf'
    rw [h.ethertype] at heth
    rw [h.protocol] at hp
    cases hp
    exact ⟨Except.ok.inj heth, hhit, hcidr.mp hnet, hports⟩
  · rintro ⟨heth, hhit, hnet, hports⟩
    exact ⟨v6, src, dst, t, hf, heth ▸ h.ethertype, ⟨_, h.protocol, hhit⟩, hcidr.mpr hnet, hports⟩

/-- What becomes of the matches of a row is what was asked for, if the port range survives. -/
theorem Stores.admitted_iff (hgroup : row.remoteGroup = none) (hkept : portsKept body) :
    admitted (ruleFlows row members) f ↔ Asks body row.direction f := by
  rw [admitted_ruleFlows hgroup]
  cases hf : f.payload with
  | arp | other =>
    refine ⟨fun hm => (nomatch hm), ?_⟩
    rintro ⟨v6, src, dst, t, hf', -⟩
    cases hf.symm.trans hf'
  | ip v6 src dst t =>
    rw [h.asks_iff hf, means_ip, Bool.and_eq_true, Bool.and_eq_true, Bool.and_eq_true,
      agentRule_ipv6, and_assoc, and_assoc]
    refine and_congr_right fun _ => and_congr_right fun _ => and_congr_right fun _ => ?_
    cases htp : t.ports with
    | none => simp
    | some ports =>
    obtain ⟨sp, dp⟩ := ports
    simp only [all_some, some.injEq, Prod.mk.injEq]
    constructor
    · rintro hhit sp' dp' ⟨-, rfl⟩
      by_cases hproto : row.protocol = .tcp ∨ row.protocol = .udp
      · exact (h.portHits_iff hkept hproto dp).mp hhit
      · obtain ⟨-, hmin, hmax⟩ := h.portHits_any hproto 0
        rw [hmin, hmax]
        exact ⟨fun lo hlo => (nomatch hlo), fun hi hhi => (nomatch hhi)⟩
    · intro hbounds
      by_cases hproto : row.protocol = .tcp ∨ row.protocol = .udp
      · exact (h.portHits_iff hkept hproto dp).mpr (hbounds sp dp ⟨rfl, rfl⟩)
      · exact (h.portHits_any hproto dp.val).1

end

/-- A packet of TCP or UDP to a port, with its remote end in the row's network. -/
def probe (row : SecurityGroupRule) (port : PortNumber) : Frame :=
  let a := (row.remoteCidr.map IpNet.network).getD 0
  let t := if row.protocol = .tcp then tcp 0 port else .udp 0 port
  ⟨"", "", "", .ip (row.ethertype == .ipv6) a a t⟩

theorem Stores.portHits_of_exact (h : Stores body row) (hgroup : row.remoteGroup = none)
    (hproto : row.protocol = .tcp ∨ row.protocol = .udp)
    (hfits : ∀ net, row.remoteCidr = some net → row.ethertype = familyOf net.v6)
    (hnet : ∀ net, row.remoteCidr = some net → net.network ≤ net.broadcast)
    (hexact : ∀ f, admitted (ruleFlows row members) f ↔ Asks body row.direction f)
    (port : PortNumber) : (agentRule row).portHits port.val ↔
      (∀ lo, body.portMin = some lo → lo ≤ (port.val : Int)) ∧
        ∀ hi, body.portMax = some hi → (port.val : Int) ≤ hi := by
  have hfamily : row.ethertype = familyOf (row.ethertype == .ipv6) := by
    cases row.ethertype <;> rfl
  have htransport : protocolHits row.protocol
        (if row.protocol = .tcp then tcp 0 port else .udp 0 port) = true ∧
      (if row.protocol = .tcp then tcp 0 port else .udp 0 port).ports =
        some (0, port) := by
    rcases hproto with hp | hp <;> rw [hp] <;> exact ⟨rfl, rfl⟩
  have hremote : ∀ dir, row.remoteCidr.all (fun net => netContains net (row.ethertype == .ipv6)
      (remoteEnd dir ((row.remoteCidr.map IpNet.network).getD 0)
        ((row.remoteCidr.map IpNet.network).getD 0))) = true := by
    intro dir
    cases hc : row.remoteCidr with
    | none => rfl
    | some net =>
    have hv : net.v6 = (row.ethertype == .ipv6) := by
      rw [hfits net hc]
      cases net.v6 <;> rfl
    have hle := hnet net hc
    cases dir <;> simp [netContains, remoteEnd, hv, hle]
  have hboth := hexact (probe row port)
  rw [admitted_ruleFlows hgroup, h.asks_iff (f := probe row port) rfl] at hboth
  have hmeans : (agentRule row).means row.direction (probe row port).payload =
      (agentRule row).portHits port.val := by
    have hv6 : ((row.ethertype == .ipv6) == (agentRule row).ipv6) :=
      agentRule_ipv6.mpr hfamily
    have hp : protocolHits (agentRule row).protocol
        (if row.protocol = .tcp then tcp 0 port else .udp 0 port) = true := htransport.1
    have hr : (agentRule row).remoteCidr.all (fun net => netContains net (row.ethertype == .ipv6)
        (remoteEnd row.direction ((row.remoteCidr.map IpNet.network).getD 0)
          ((row.remoteCidr.map IpNet.network).getD 0))) = true := hremote row.direction
    show (agentRule row).means row.direction (.ip _ _ _ _) = _
    rw [means_ip, hv6, hp, hr, htransport.2]
    rfl
  rw [hmeans] at hboth
  rw [hboth]
  constructor
  · rintro ⟨-, -, -, hports⟩
    exact hports 0 port htransport.2
  · intro hbounds
    refine ⟨hfamily, htransport.1, hremote _, ?_⟩
    intro sp dp hdp
    rw [htransport.2] at hdp
    cases hdp
    exact hbounds

theorem SecRule.accepted_proto (r : SecRule) : r.proto.accepted := by
  unfold proto
  cases r.protocol <;> cases r.ipv6 <;> rfl

theorem SecRule.accepted_remote {r : SecRule} :
    (∀ x ∈ r.remote dir, x.accepted) ↔ ∀ net, r.remoteCidr = some net → net.v6 = r.ipv6 := by
  unfold remote
  cases hc : r.remoteCidr with
  | none => simp
  | some net => cases dir <;> cases h6 : r.ipv6 <;> simp [Field.accepted]

/-- Every rule has a match, and the remote end is the only part of it that may be refused. -/
theorem SecRule.accepted_matches {r : SecRule} (hmin : r.portMin < 2 ^ 16)
    (hmax : r.portMax < 2 ^ 16) :
    (∀ m ∈ ruleMatches r dir, ∀ x ∈ m, x.accepted) ↔ ∀ x ∈ r.remote dir, x.accepted := by
  rw [ruleMatches_eq]
  by_cases hports : r.hasPorts
  · -- the blocks of a range are not empty: one of them has its first port
    obtain ⟨vm, hvm, -⟩ : ∃ vm ∈ portMasks (min r.portMin r.portMax) (max r.portMin r.portMax),
        maskHits (min r.portMin r.portMax) vm := by
      apply any_eq_true.mp
      exact (any_portMasks_iff (by omega) (by omega)).mpr ⟨Nat.le_refl _, by omega⟩
    rw [if_pos hports]
    constructor
    · intro hall x hx
      have hm := mem_map_of_mem (f := fun vm : Nat × Nat =>
        r.proto :: Field.tpDst vm.1 vm.2 :: r.remote dir) hvm
      exact hall _ hm x (mem_cons_of_mem _ (mem_cons_of_mem _ hx))
    · intro hall m hm x hx
      obtain ⟨vm, -, rfl⟩ := mem_map.mp hm
      rcases mem_cons.mp hx with rfl | hx
      · exact r.accepted_proto
      · rcases mem_cons.mp hx with rfl | hx
        · rfl
        · exact hall x hx
  · rw [if_neg hports]
    constructor
    · intro hall x hx
      exact hall _ (mem_singleton.mpr rfl) x (mem_cons_of_mem _ hx)
    · intro hall m hm x hx
      obtain rfl := mem_singleton.mp hm
      rcases mem_cons.mp hx with rfl | hx
      · exact r.accepted_proto
      · exact hall x hx

theorem accepted_iff (hgroup : row.remoteGroup = none) :
    (∀ m ∈ ruleFlows row members, ∀ x ∈ m, x.accepted) ↔
      ∀ net, row.remoteCidr = some net → row.ethertype = familyOf net.v6 := by
  rw [ruleFlows_eq hgroup, accepted_matches (Nat.mod_lt _ (by decide))
    (Nat.mod_lt _ (by decide)), accepted_remote]
  have hfamily : ∀ net : IpNet, net.v6 = (agentRule row).ipv6 ↔ row.ethertype = familyOf net.v6 := by
    intro net
    rw [← agentRule_ipv6, beq_iff_eq]
  constructor
  · intro hall net hnet
    exact (hfamily net).mp (hall net hnet)
  · intro hall net hnet
    exact (hfamily net).mpr (hall net hnet)

/-- **A rule means what was asked for exactly when nothing of it gets lost**: for a request without
a remote group, if and only if its port range survives the wire and its remote network is of its
family. -/
theorem rule_exact_iff {cfg : Config} {db : Db} {s : Scope} {u : AuthUser} {id : Id}
    (hadd : (addRule cfg db s u id body).2 = .ok row) (hgroup : body.remoteGroup = none)
    (hnet : ∀ net, body.remoteCidr = some (.ok net) → net.network ≤ net.broadcast) :
    ((∀ f, admitted (ruleFlows row members) f ↔ Asks body row.direction f) ∧
        ∀ m ∈ ruleFlows row members, ∀ x ∈ m, x.accepted) ↔ portsKept body ∧ familyFits body := by
  have h := addRule_stores hadd
  have hrow : row.remoteGroup = none := h.remoteGroup.trans hgroup
  have hcidr : ∀ net, row.remoteCidr = some net ↔ body.remoteCidr = some (.ok net) := by
    intro net
    rw [h.remoteCidr]
    cases row.remoteCidr <;> simp
  have hfits : (∀ net, row.remoteCidr = some net → row.ethertype = familyOf net.v6) ↔
      familyFits body := by
    unfold familyFits
    simp only [hcidr, h.ethertype, Except.ok.injEq]
  rw [accepted_iff hrow, hfits]
  refine ⟨fun ⟨hexact, hfam⟩ => ⟨?_, hfam⟩, fun ⟨hkept, hfam⟩ => ⟨?_, hfam⟩⟩
  · by_cases hproto : row.protocol = .tcp ∨ row.protocol = .udp
    · have hports := h.portHits_of_exact hrow hproto (hfits.mpr hfam)
        (fun net hn => hnet net ((hcidr net).mp hn)) hexact
      have hmin := h.agentRule_portMin
      have hmax := h.agentRule_portMax
      refine ⟨fun hzero => ?_, fun hnone => ?_⟩
      · -- a maximum of 0 is no maximum on the wire: port 1 gets through
        have hlo : body.portMin.getD 0 = 0 := by
          cases hl : body.portMin with
          | none => rfl
          | some lo =>
          have h1 := (h.ports lo (.inl hl)).2
          have h2 := h.ordered lo 0 hl hzero
          simp only [getD_some]
          omega
        rw [hzero] at hmax
        simp only [getD_some] at hmax
        have hhit : (agentRule row).portHits (1 : PortNumber).val := by
          rw [portHits_iff hproto]
          omega
        have hle := ((hports 1).mp hhit).2 0 hzero
        simp at hle
      · -- a minimum alone becomes the maximum: port 0 gets through
        cases hl : body.portMin with
        | none => rfl
        | some lo =>
        rw [hnone] at hmax
        simp only [getD_none] at hmax
        have hhit : (agentRule row).portHits (0 : PortNumber).val := by
          rw [portHits_iff hproto]
          simp only [Fin.val_zero]
          omega
        have hle := ((hports 0).mp hhit).1 lo hl
        have h0 := (h.ports lo (.inl hl)).2
        simp only [Fin.val_zero] at hle
        simp only [getD_some]
        omega
    · obtain ⟨-, hmin, hmax⟩ := h.portHits_any hproto 0
      refine ⟨fun hz => ?_, fun _ => ?_⟩
      · simp [hmax] at hz
      · rw [hmin]
        rfl
  · intro f
    exact h.admitted_iff hrow hkept

end

/-! ## Rules that lose something -/

def groupDb : Db :=
  { sampleDb with securityGroups := ⟨[⟨0, "web", none, false, 2⟩], 1, by decide, by decide⟩ }

def editor : AuthUser := ⟨some 0, [.networkUpdate], [], false⟩

def stored (body : CreateRule) : Option SecurityGroupRule :=
  (addRule sampleCfg groupDb (.project 2) editor 0 body).2.toOption

def lanNet : IpNet := ⟨false, 167772160, 167772415⟩

def webRule : CreateRule :=
  ⟨.ok .ingress, .ok .ipv4, .ok .tcp, some 80, some 443, some (.ok lanNet), none⟩

/-- The web rule admits what it asks for. -/
theorem rule_exact_iff_web : ∃ row, stored webRule = some row ∧
      (∀ f, admitted (ruleFlows row fun _ => []) f = true ↔ Asks webRule row.direction f) ∧
        ∀ m ∈ ruleFlows row fun _ => [], ∀ x ∈ m, x.accepted = true := by
  obtain ⟨row, hrow⟩ := isSome_iff_exists.mp (by decide : (stored webRule).isSome = true)
  have hadd := toOption_eq_some hrow
  refine ⟨row, hrow, (rule_exact_iff hadd rfl ?_).mpr ⟨⟨by decide, by decide⟩, ?_⟩⟩
  · intro net hnet
    cases hnet
    decide
  · intro net hnet
    cases hnet
    rfl

def tcpTo (port : PortNumber) : Frame := ⟨"", "", "", .ip false 0 0 (.tcp 40000 port)⟩

def fromSsh : CreateRule := ⟨.ok .ingress, .ok .ipv4, .ok .tcp, some 22, none, none, none⟩

def portZero : CreateRule := ⟨.ok .ingress, .ok .ipv4, .ok .tcp, some 0, some 0, none, none⟩

def wrongFamily : CreateRule :=
  ⟨.ok .ingress, .ok .ipv6, .ok .any, none, none, some (.ok lanNet), none⟩

/-- **Rules that mean something else.**  "From port 22 up" lets port 5 in, "port 0 only" lets port
80 in, and an IPv6 rule with an IPv4 network becomes a match that Open vSwitch refuses. -/
theorem rule_not_exact : (∃ row, stored fromSsh = some row ∧
      admitted (ruleFlows row fun _ => []) (tcpTo 5) = true ∧ ¬ Asks fromSsh row.direction (tcpTo 5) ∧
      admitted (ruleFlows row fun _ => []) (tcpTo 80) = false ∧
        Asks fromSsh row.direction (tcpTo 80)) ∧ (∃ row, stored portZero = some row ∧
      admitted (ruleFlows row fun _ => []) (tcpTo 80) = true ∧
        ¬ Asks portZero row.direction (tcpTo 80)) ∧ ∃ row, stored wrongFamily = some row ∧
      ∃ m ∈ ruleFlows row fun _ => [], ∃ x ∈ m, x.accepted = false := by
  refine ⟨⟨⟨0, 0, .ingress, .ipv4, .tcp, some 22, none, none, none⟩, by decide, by decide, ?_,
    by decide, ?_⟩, ⟨⟨0, 0, .ingress, .ipv4, .tcp, some 0, some 0, none, none⟩, by decide, by decide,
    ?_⟩, ⟨⟨0, 0, .ingress, .ipv6, .any, none, none, some lanNet, none⟩, by decide, by decide⟩⟩
  · rintro ⟨v6, src, dst, t, hf, -, -, -, hports⟩
    cases hf
    exact absurd ((hports _ _ rfl).1 22 rfl) (by decide)
  · refine ⟨false, 0, 0, _, rfl, rfl, ⟨.tcp, rfl, rfl⟩, fun net hnet => (nomatch hnet), ?_⟩
    rintro sp dp hdp
    cases hdp
    refine ⟨fun lo hlo => ?_, fun hi hhi => (nomatch hhi)⟩
    cases hlo
    decide
  · rintro ⟨v6, src, dst, t, hf, -, -, -, hports⟩
    cases hf
    exact absurd ((hports _ _ rfl).2 0 rfl) (by decide)

/-! ## Rules that name a group -/

def Frame.remote (f : Frame) (dir : Direction) : Option IpAddr :=
  match f.payload with
  | .ip v6 src dst _ => some ⟨v6, remoteEnd dir src dst⟩
  | _ => none

def anyRemote : SecurityGroupRule :=
  { row with remoteCidr := none, remoteGroup := none }

/-- What `expand_rule` writes into `remote_cidr`, from the texts of the members' addresses. -/
def expandCidrs (members : List String) : List String :=
  (members.filter fun ip => ip.toList.contains ':' == row.base.ipv6).map fun ip =>
    ip ++ "/" ++ if row.base.ipv6 then "128" else "32"

/-- The text of a network of one address; `spell` is how an address is displayed. -/
def hostCidr (spell : IpAddr → String) (net : IpNet) : String :=
  spell ⟨net.v6, net.network⟩ ++ "/" ++ if net.v6 then "128" else "32"

theorem admitted_eq_any (members : Id → List IpAddr) (f : Frame) :
    admitted (ruleFlows row members) f =
      (expandRule row members).any fun w => (secRule w).means row.direction f.payload := by
  unfold admitted ruleFlows
  rw [any_flatMap]
  congr 1
  funext w
  exact any_ruleMatches (Nat.mod_lt _ (by decide)) (Nat.mod_lt _ (by decide))

theorem netContains_host {ip : IpAddr} {v6 : Bool} {a : Nat} :
    netContains ip.net v6 a ↔ (⟨v6, a⟩ : IpAddr) = ip := by
  unfold netContains IpAddr.net
  rw [Bool.and_eq_true, Bool.and_eq_true, beq_iff_eq, decide_eq_true_eq, decide_eq_true_eq]
  constructor
  · rintro ⟨⟨rfl, hle⟩, hge⟩
    rw [Nat.le_antisymm hge hle]
  · rintro rfl
    exact ⟨⟨rfl, Nat.le_refl _⟩, Nat.le_refl _⟩

/-- A rule for one address is the rule with no remote, for packets from or to the address. -/
theorem means_host (ip : IpAddr) (dir : Direction) (f : Frame) :
    (secRule { row.base with remoteCidr := some ip.net }).means dir f.payload = true ↔
      (secRule (anyRemote row).base).means dir f.payload = true ∧ f.remote dir = some ip := by
  unfold Frame.remote
  cases f.payload with
  | ip v6 src dst t =>
    have hsame : ∀ n, (secRule { row.base with remoteCidr := some ip.net }).portHits n =
        (secRule (anyRemote row).base).portHits n := fun _ => rfl
    simp only [means_ip, hsame, Bool.and_eq_true, some.injEq]
    simp only [secRule, anyRemote, SecurityGroupRule.base, all_some, all_none,
      netContains_host]
    tauto
  | _ => simp [means]

/-- **A rule that names a group never widens.**  It admits what the rule without a remote does from
the members of its family; without a member there are no flows; and no `remote_cidr` that is sent is
empty. -/
theorem remote_group_exact {row : SecurityGroupRule} {g : Id} (hgroup : row.remoteGroup = some g)
    (members : Id → List IpAddr) {spell : IpAddr → String}
    (hspell : ∀ ip, (spell ip).toList.contains ':' = ip.v6) :
    (∀ f, admitted (ruleFlows row members) f ↔ admitted (ruleFlows (anyRemote row) members) f ∧
        ∃ ip ∈ members g, ip.v6 = row.base.ipv6 ∧ f.remote row.direction = some ip) ∧
    ((∀ ip ∈ members g, ip.v6 ≠ row.base.ipv6) → ruleFlows row members = []) ∧
    expandCidrs row ((members g).map spell) =
      (expandRule row members).map (fun w => (w.remoteCidr.map (hostCidr spell)).getD "") ∧
    ∀ cidr ∈ expandCidrs row ((members g).map spell), cidr ≠ "" := by
  have hexpand : expandRule row members = ((members g).filter fun ip => ip.v6 == row.base.ipv6).map
      fun ip => { row.base with remoteCidr := some ip.net } := by
    unfold expandRule
    rw [hgroup]
  refine ⟨fun f => ?_, fun hnone => ?_, ?_, ?_⟩
  · rw [admitted_eq_any, admitted_eq_any, hexpand]
    have hany : expandRule (anyRemote row) members = [(anyRemote row).base] := rfl
    simp only [hany, List.any_map, List.any_filter, List.any_eq_true, Function.comp_apply,
      Bool.and_eq_true, beq_iff_eq, means_host, List.any_cons, List.any_nil, Bool.or_false]
    exact ⟨fun ⟨ip, hm, hv, ha, hr⟩ => ⟨ha, ip, hm, hv, hr⟩,
      fun ⟨ha, ip, hm, hv, hr⟩ => ⟨ip, hm, hv, ha, hr⟩⟩
  · have hnil : ((members g).filter fun ip => ip.v6 == row.base.ipv6) = [] := by
      simpa [filter_eq_nil_iff] using hnone
    unfold ruleFlows
    rw [hexpand, hnil]
    rfl
  · rw [hexpand, expandCidrs, List.filter_map, List.map_map, List.map_map]
    simp only [Function.comp_def, hspell]
    refine map_congr_left fun ip hip => ?_
    have hv : ip.v6 = row.base.ipv6 := by simpa using (mem_filter.mp hip).2
    simp [hostCidr, IpAddr.net, ← hv]
  · intro cidr hc hempty
    obtain ⟨ip, -, rfl⟩ := mem_map.mp hc
    have hlen := congrArg String.length hempty
    simp [String.length_append] at hlen

def fromGroup : SecurityGroupRule := ⟨0, 0, .ingress, .ipv4, .tcp, none, none, none, some 7⟩

/-- One of two members is of the rule's family. -/
theorem remote_group_exact_tcp :
    admitted (ruleFlows fromGroup fun _ => [⟨false, 9⟩, ⟨true, 8⟩]) (tcpTo 80) = true ↔
      admitted (ruleFlows (anyRemote fromGroup) fun _ => [⟨false, 9⟩, ⟨true, 8⟩]) (tcpTo 80) = true ∧
        ∃ ip ∈ ([⟨false, 9⟩, ⟨true, 8⟩] : List IpAddr), ip.v6 = fromGroup.base.ipv6 ∧
          (tcpTo 80).remote fromGroup.direction = some ip :=
  (remote_group_exact (rfl : fromGroup.remoteGroup = some 7) (fun _ => [⟨false, 9⟩, ⟨true, 8⟩])
    (fun ip => by cases ip.v6 <;> rfl :
      ∀ ip : IpAddr, (if ip.v6 then ":" else "").toList.contains ':' = ip.v6)).1 (tcpTo 80)

end VQuasar.Dataplane
