import VQuasar.Dataplane.Ports
import VQuasar.Lib.FlowTable
import VQuasar.Tenancy.Bindings

/-!
# The flows of a NIC

What the agent installs on a bridge for one NIC: the conntrack firewall of a NIC with security groups
(`build_flows`), or port security alone (`build_port_security_flows`).  A match is a list of fields
and a flow carries an action; `Field.hits` is the meaning Open vSwitch gives the fields on the frames
that this model distinguishes.

Table 0 sorts the frames of a NIC into conntrack, and the result table applies the policy to what
conntrack says about them.  The cookie and the conntrack zone of a NIC are hashes of the name of its
TAP.
-/

namespace VQuasar.Dataplane

open Tenancy FlowTable List Option

/-! ## Frames -/

/-- A MAC address, by its text. -/
abbrev MacAddr := String

abbrev PortNumber := Fin (2 ^ 16)

instance portNumber_neZero : NeZero (2 ^ 16) := ⟨by decide⟩

/-- What an IP packet carries; `icmp` is ICMPv6 in an IPv6 packet. -/
inductive Transport
  | tcp (src dst : PortNumber)
  | udp (src dst : PortNumber)
  | icmp
  | other
deriving DecidableEq, Repr

inductive Payload
  | arp (sha : MacAddr)
  | ip (v6 : Bool) (src dst : Nat) (transport : Transport)
  | other
deriving DecidableEq, Repr

structure Frame where
  inPort : String
  dlSrc : MacAddr
  dlDst : MacAddr
  payload : Payload
deriving DecidableEq, Repr

/-- The flags of `ct_state` next to `trk`. -/
structure CtState where
  new : Bool
  est : Bool
  rel : Bool
  inv : Bool
deriving DecidableEq, Repr

/-- A frame in the pipeline: once it went through conntrack, the zone and what that said. -/
structure Packet where
  frame : Frame
  ct : Option (Nat × CtState)
deriving DecidableEq, Repr

/-! ## Matches -/

inductive CtFlag
  | new | est | rel | inv
deriving DecidableEq, Repr

/-- The tokens of a match. -/
inductive Field
  | inPort (tap : String)
  | dlSrc (mac : MacAddr)
  | dlDst (mac : MacAddr)
  | arp
  | arpSha (mac : MacAddr)
  | ip | ipv6 | tcp | tcp6 | udp | udp6 | icmp | icmp6
  | tpSrc (port : Nat)
  | tpDst (value mask : Nat)
  | nwSrc (net : IpNet)
  | nwDst (net : IpNet)
  | ipv6Src (net : IpNet)
  | ipv6Dst (net : IpNet)
  | ctZone (zone : Nat)
  | ctState (flag : CtFlag)
deriving DecidableEq, Repr

def netContains (net : IpNet) (v6 : Bool) (a : Nat) : Bool :=
  net.v6 == v6 && decide (net.network ≤ a) && decide (a ≤ net.broadcast)

def Transport.isTcp : Transport → Bool
  | .tcp _ _ => true
  | _ => false

def Transport.isUdp : Transport → Bool
  | .udp _ _ => true
  | _ => false

def Transport.isIcmp : Transport → Bool
  | .icmp => true
  | _ => false

def Transport.ports : Transport → Option (PortNumber × PortNumber)
  | .tcp src dst | .udp src dst => some (src, dst)
  | _ => none

/-- Whether the payload is an IP packet of the family whose transport passes `test`. -/
def Payload.isIp (v6 : Bool) (test : Transport → Bool) : Payload → Bool
  | .ip v _ _ t => v == v6 && test t
  | _ => false

def Payload.isArp : Payload → Bool
  | .arp _ => true
  | _ => false

def Payload.ports : Payload → Option (PortNumber × PortNumber)
  | .ip _ _ _ t => t.ports
  | _ => none

def Payload.addresses (v6 : Bool) : Payload → Option (Nat × Nat)
  | .ip v src dst _ => if v = v6 then some (src, dst) else none
  | _ => none

def CtState.has (s : CtState) : CtFlag → Bool
  | .new => s.new
  | .est => s.est
  | .rel => s.rel
  | .inv => s.inv

open Transport

def Field.hits (p : Packet) : Field → Bool
  | .inPort tap => p.frame.inPort == tap
  | .dlSrc mac => p.frame.dlSrc == mac
  | .dlDst mac => p.frame.dlDst == mac
  | .arp => p.frame.payload.isArp
  | .arpSha mac => p.frame.payload == .arp mac
  | .ip => p.frame.payload.isIp false fun _ => true
  | .ipv6 => p.frame.payload.isIp true fun _ => true
  | .tcp => p.frame.payload.isIp false isTcp
  | .tcp6 => p.frame.payload.isIp true isTcp
  | .udp => p.frame.payload.isIp false isUdp
  | .udp6 => p.frame.payload.isIp true isUdp
  | .icmp => p.frame.payload.isIp false isIcmp
  | .icmp6 => p.frame.payload.isIp true isIcmp
  | .tpSrc port => p.frame.payload.ports.any fun (src, _) => src.val == port
  | .tpDst value mask => p.frame.payload.ports.any fun (_, dst) => maskHits dst.val (value, mask)
  | .nwSrc net => (p.frame.payload.addresses false).any fun (src, _) => netContains net false src
  | .nwDst net => (p.frame.payload.addresses false).any fun (_, dst) => netContains net false dst
  | .ipv6Src net => (p.frame.payload.addresses true).any fun (src, _) => netContains net true src
  | .ipv6Dst net => (p.frame.payload.addresses true).any fun (_, dst) => netContains net true dst
  | .ctZone zone => p.ct.any fun (z, _) => z == zone
  | .ctState flag => p.ct.any fun (_, s) => s.has flag

def fieldsHit (fields : List Field) (p : Packet) : Bool := fields.all (Field.hits p)

/-- `ct z` is `ct(table=60,zone=z)`, `commit z` is `ct(commit,zone=z),NORMAL`. -/
inductive Action
  | normal
  | drop
  | ct (zone : Nat)
  | commit (zone : Nat)
deriving DecidableEq, Repr

abbrev OvsFlow := Flow (List Field) Action

/-! ## Rules -/

/-- `SecRule` of the agent -/
structure SecRule where
  ipv6 : Bool
  protocol : Protocol
  portMin : Nat
  portMax : Nat
  remoteCidr : Option IpNet
deriving DecidableEq, Repr

/-- `sec_rule`: the ports are cut to `u16` -/
def secRule (r : SecurityRule) : SecRule :=
  ⟨r.ipv6, r.protocol, r.portMin % 2 ^ 16, r.portMax % 2 ^ 16, r.remoteCidr⟩

variable (r : SecRule) (tap : String) (mac : MacAddr)

def SecRule.proto : Field :=
  match r.protocol, r.ipv6 with
  | .tcp, false => .tcp
  | .tcp, true => .tcp6
  | .udp, false => .udp
  | .udp, true => .udp6
  | .icmp, false => .icmp
  | .icmp, true => .icmp6
  | .any, false => .ip
  | .any, true => .ipv6

/-- The remote end: the source of an inbound packet, the destination of an outbound one. -/
def SecRule.remote (dir : Direction) : List Field :=
  match r.remoteCidr, dir, r.ipv6 with
  | none, _, _ => []
  | some net, .ingress, false => [.nwSrc net]
  | some net, .ingress, true => [.ipv6Src net]
  | some net, .egress, false => [.nwDst net]
  | some net, .egress, true => [.ipv6Dst net]

def SecRule.hasPorts : Bool :=
  (r.protocol == .tcp || r.protocol == .udp) && !(r.portMin == 0 && r.portMax == 0) &&
    !(r.portMin == 0 && r.portMax == 0xFFFF)

def ruleMatches (dir : Direction) : List (List Field) :=
  if r.hasPorts then
    let (lo, hi) := if r.portMin ≤ r.portMax then (r.portMin, r.portMax) else (r.portMax, r.portMin)
    (portMasks lo hi).map fun (v, m) => r.proto :: .tpDst v m :: r.remote dir
  else [r.proto :: r.remote dir]

/-! ## The flows of one NIC -/

def fnv1a (s : String) : Nat :=
  s.toUTF8.data.toList.foldl (fun h b => (h ^^^ b.toNat) * 0x100000001b3 % 2 ^ 64)
    0xcbf29ce484222325

def cookieFor : Nat := fnv1a tap ||| 1

def zoneFor : Nat := fnv1a tap % 65535 + 1

def resultTable : Nat := 60

def spoofDropPriority : Nat := 1000

structure Policy where
  ingress : List SecRule
  egress : List SecRule
  egressDefaultDeny : Bool
deriving DecidableEq, Repr

def buildPortSecurityFlows : List OvsFlow :=
  let c := cookieFor tap
  [⟨c, 0, 1200, [.inPort tap, .dlSrc mac, .arp, .arpSha mac], .normal⟩,
   ⟨c, 0, 1180, [.inPort tap, .dlSrc mac], .normal⟩,
   ⟨c, 0, spoofDropPriority, [.inPort tap], .drop⟩]

/-- The round of the first loop of `build_flows` for one direction. -/
def classifyFlows (c z : Nat) (dirMatch arpExtra : List Field) : List OvsFlow :=
  [⟨c, 0, 1100, dirMatch ++ .arp :: arpExtra, .normal⟩,
   ⟨c, 0, 1085, dirMatch ++ [.icmp6], .normal⟩,
   ⟨c, 0, 1080, dirMatch ++ [.ip], .ct z⟩,
   ⟨c, 0, 1080, dirMatch ++ [.ipv6], .ct z⟩]

def newIn (z : Nat) : List Field := [.ctZone z, .ctState .new]

/-- New connections from the NIC in the result table. -/
def egressFlows (c z : Nat) (tap : String) (mac : MacAddr) (policy : Policy) : List OvsFlow :=
  if policy.egressDefaultDeny then
    (policy.egress.flatMap fun r => (ruleMatches r .egress).map fun m =>
      (⟨c, resultTable, 90, newIn z ++ [.inPort tap, .dlSrc mac] ++ m, .commit z⟩ : OvsFlow)) ++
    [⟨c, resultTable, 20, newIn z ++ [.inPort tap, .dlSrc mac], .drop⟩]
  else
    [⟨c, resultTable, 90, newIn z ++ [.inPort tap, .dlSrc mac, .ip], .commit z⟩,
     ⟨c, resultTable, 90, newIn z ++ [.inPort tap, .dlSrc mac, .ipv6], .commit z⟩]

/-- New connections to the NIC in the result table. -/
def ingressFlows (c z : Nat) (mac : MacAddr) (policy : Policy) : List OvsFlow :=
  (policy.ingress.flatMap fun r => (ruleMatches r .ingress).map fun m =>
    (⟨c, resultTable, 80, newIn z ++ [.dlDst mac] ++ m, .commit z⟩ : OvsFlow)) ++
  [⟨c, resultTable, 10, newIn z ++ [.dlDst mac], .drop⟩]

/-- The flows for new connections of one direction, `own` being the match of the NIC: those of the
rules, the one behind them and, where nothing is denied, those of all IP traffic. -/
inductive NewFlow (c z : Nat) (own : List Field) (dir : Direction) (rules : List SecRule)
    (closed : Bool) (high low : Nat) : OvsFlow → Prop
  | rule {r : SecRule} {m : List Field} (hr : r ∈ rules) (hm : m ∈ ruleMatches r dir) :
      NewFlow c z own dir rules closed high low
        ⟨c, resultTable, high, newIn z ++ own ++ m, .commit z⟩
  | deny : NewFlow c z own dir rules closed high low
      ⟨c, resultTable, low, newIn z ++ own ++ [], .drop⟩
  | all {m : List Field} (hopen : closed = false) (hm : m = [.ip] ∨ m = [.ipv6]) :
      NewFlow c z own dir rules closed high low
        ⟨c, resultTable, high, newIn z ++ own ++ m, .commit z⟩

section

variable {c z : Nat} {tap : String} {mac : MacAddr} {policy : Policy} {f : OvsFlow}

theorem mem_egressFlows (h : f ∈ egressFlows c z tap mac policy) :
    NewFlow c z [.inPort tap, .dlSrc mac] .egress policy.egress policy.egressDefaultDeny 90 20 f := by
  unfold egressFlows at h
  split at h
  · rcases mem_append.mp h with h | h
    · obtain ⟨r, hr, h⟩ := mem_flatMap.mp h
      obtain ⟨m, hm, rfl⟩ := mem_map.mp h
      exact .rule hr hm
    · obtain rfl := mem_singleton.mp h
      exact .deny
  · next hallow =>
    have hopen : policy.egressDefaultDeny = false := by simpa using hallow
    rcases mem_cons.mp h with rfl | h
    · exact .all hopen (.inl rfl)
    · obtain rfl := mem_singleton.mp h
      exact .all hopen (.inr rfl)

theorem mem_ingressFlows (h : f ∈ ingressFlows c z mac policy) :
    NewFlow c z [.dlDst mac] .ingress policy.ingress true 80 10 f := by
  rcases mem_append.mp h with h | h
  · obtain ⟨r, hr, h⟩ := mem_flatMap.mp h
    obtain ⟨m, hm, rfl⟩ := mem_map.mp h
    exact .rule hr hm
  · obtain rfl := mem_singleton.mp h
    exact .deny

end

def buildFlows (policy : Policy) : List OvsFlow :=
  let c := cookieFor tap
  let z := zoneFor tap
  classifyFlows c z [.inPort tap, .dlSrc mac] [.arpSha mac] ++
  classifyFlows c z [.dlDst mac] [] ++
  [⟨c, 0, 1090, [.inPort tap, .dlSrc mac, .udp, .tpSrc 68, .tpDst 67 0xFFFF], .normal⟩,
   ⟨c, 0, 1090, [.dlDst mac, .udp, .tpSrc 67, .tpDst 68 0xFFFF], .normal⟩,
   ⟨c, resultTable, 100, [.ctZone z, .ctState .est], .normal⟩,
   ⟨c, resultTable, 100, [.ctZone z, .ctState .rel], .normal⟩,
   ⟨c, resultTable, 100, [.ctZone z, .ctState .inv], .drop⟩] ++
  egressFlows c z tap mac policy ++
  ingressFlows c z mac policy ++
  [⟨c, 0, spoofDropPriority, [.inPort tap], .drop⟩]

/-- What `apply_firewall` installs for a TAP; `none` is a NIC that is not filtered. -/
def firewallFlows (portSecurity : Bool) (tap : String) (mac : MacAddr) : Option Policy → List OvsFlow
  | some policy => buildFlows tap mac policy
  | none => if portSecurity then buildPortSecurityFlows tap mac else []

end VQuasar.Dataplane
