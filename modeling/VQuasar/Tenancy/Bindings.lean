import VQuasar.Tenancy.System

/-!
# The dataplane bindings of a VM

What the reconcile loop sends to the agent for each NIC (`resolve_bindings`): where the NIC is
attached, and the rules of its effective policy.  The policy is that of the NIC's own groups, with the
default groups of its network and of the VM's project when policies are enforced
(`effectiveGroups`); a rule that names a group becomes one rule for each address of a member
(`expandRule`).

The rules of a NIC are a function of its groups, of the rows in them, and of the addresses of the
groups that those rows name (`groupsPolicy_congr`).
-/

namespace VQuasar.Tenancy

open List

/-! ## What goes on the wire -/

/-- The MAC of a NIC: the one its spec asks for, or the one derived from the VM and the index
(`allocate_mac`). -/
inductive Mac
  | given (text : String)
  | allocated (vm : Id) (index : Nat)
deriving DecidableEq, Repr

/-- `SecurityRule`: a port of 0 is absent, and so is an empty `remote_cidr`. -/
structure SecurityRule where
  ipv6 : Bool
  protocol : Protocol
  portMin : Nat
  portMax : Nat
  remoteCidr : Option IpNet
deriving DecidableEq, Repr

structure OverlayPeer where
  underlayIp : String
  certCn : String
deriving DecidableEq, Repr

/-- The part of a binding that the firewall enforces. -/
structure NicPolicy where
  filtered : Bool
  ingressRules : List SecurityRule
  egressRules : List SecurityRule
deriving DecidableEq, Repr

/-- `NetworkBinding`; `overlay_peers` are the addresses of the identities. -/
structure NetworkBinding where
  mac : Mac
  vlan : Nat
  vni : Nat
  overlayPeers : List OverlayPeer
  encryptUnderlay : Bool
  policy : NicPolicy
  egressDefaultDeny : Bool
deriving DecidableEq, Repr

/-- The underlay: what `resolve_underlay` answers for an endpoint, and whether tunnels are
encrypted. -/
structure Underlay where
  resolve : String → Option String
  encrypted : Bool

/-! ## Rules -/

/-- A stored rule without its remote group. -/
def SecurityGroupRule.base (r : SecurityGroupRule) : SecurityRule where
  ipv6 := r.ethertype == .ipv6
  protocol := r.protocol
  portMin := (max (r.portMin.getD 0) 0).toNat
  portMax := (max (r.portMax.getD 0) 0).toNat
  remoteCidr := r.remoteCidr

/-- The network of one address, `/32` or `/128`. -/
def IpAddr.net (ip : IpAddr) : IpNet := ⟨ip.v6, ip.value, ip.value⟩

def expandRule (r : SecurityGroupRule) (members : Id → List IpAddr) : List SecurityRule :=
  match r.remoteGroup with
  | none => [r.base]
  | some group =>
    ((members group).filter fun ip => ip.v6 == r.base.ipv6).map fun ip =>
      { r.base with remoteCidr := some ip.net }

variable (cfg : Config) (db : Db) {g : Id}

/-- The groups that the spec lists for the NIC an address was given to. -/
def Db.nicGroups (a : IpAllocation) : List Id :=
  match a.vm.bind db.vms.get with
  | some v => (v.spec.networkInterfaces[a.nicIndex]?).elim [] NetworkInterfaceSpec.securityGroups
  | none => []

/-- `addresses_in_groups`, for one group: an address once for each time its NIC lists the group. -/
def Db.addressesInGroup (group : Id) : List IpAddr :=
  db.allocations.rows.flatMap fun a => ((db.nicGroups a).filter (· == group)).map fun _ => a.ip

def Db.rulesForGroups (groups : List Id) : List SecurityGroupRule :=
  db.rules.rows.filter fun r => groups.contains r.group

/-! ## Bindings -/

def Db.projectDefaultGroup (vm : Id) : Option Id :=
  (db.vms.get vm).bind fun v => (db.projects.get v.project).bind Project.defaultGroup

/-- A default joins the groups unless it is there. -/
def joinDefault (groups : List Id) (default : Option Id) : List Id :=
  match default with
  | none => groups
  | some g => if groups.contains g then groups else groups ++ [g]

def effectiveGroups (vm : Id) (network : Network) (nic : NetworkInterfaceSpec) : List Id :=
  if cfg.policyEnforced then
    joinDefault (joinDefault nic.securityGroups network.defaultGroup) (db.projectDefaultGroup vm)
  else nic.securityGroups

def groupsPolicy (groups : List Id) : NicPolicy :=
  if groups.isEmpty then ⟨false, [], []⟩
  else
    let rules := db.rulesForGroups groups
    { filtered := true
      ingressRules := (rules.filter fun r => r.direction == .ingress).flatMap fun r =>
        expandRule r db.addressesInGroup
      egressRules :=
        if cfg.egressEnforced then
          (rules.filter fun r => r.direction == .egress).flatMap fun r =>
            expandRule r db.addressesInGroup
        else [] }

/-- The other hosts that answer to an underlay address. -/
def Db.overlayPeers (underlay : Underlay) (thisHost : Id) : List OverlayPeer :=
  (db.hosts.rows.filter fun h => h.id != thisHost).filterMap fun h =>
    (underlay.resolve h.endpoint).map fun ip => ⟨ip, h.certCn.getD ""⟩

def nicBinding (underlay : Underlay) (db : Db) (vm : Vm) (thisHost : Id)
    (network : Network) (nic : NetworkInterfaceSpec) (index : Nat) : NetworkBinding :=
  let policy := groupsPolicy cfg db (effectiveGroups cfg db vm.id network nic)
  { mac := (nic.mac.map Mac.given).getD (.allocated vm.id index)
    vlan := asU32 (network.vlan.getD 0)
    vni := network.vni.getD 0
    overlayPeers := if network.vni.isSome then db.overlayPeers underlay thisHost else []
    encryptUnderlay := underlay.encrypted && network.vni.getD 0 != 0
    policy := policy
    egressDefaultDeny := policy.filtered && cfg.egressEnforced }

/-- The loop of `resolve_bindings`, from NIC `index` on. -/
def resolveNics (cfg : Config) (underlay : Underlay) (db : Db) (vm : Vm) (thisHost : Id) :
    List NetworkInterfaceSpec → Nat → Option (List NetworkBinding)
  | [], _ => some []
  | nic :: nics, index =>
    (db.networks.get nic.networkId).bind fun network =>
      (resolveNics cfg underlay db vm thisHost nics (index + 1)).map fun rest =>
        nicBinding cfg underlay db vm thisHost network nic index :: rest

/-- `resolve_bindings`; `none` when a network is missing. -/
def resolveBindings (cfg : Config) (underlay : Underlay) (db : Db) (vm : Vm) (thisHost : Id) :
    Option (List NetworkBinding) :=
  resolveNics cfg underlay db vm thisHost vm.spec.networkInterfaces 0

/-! ## What the policy depends on -/

section

variable {cfg : Config} {db d : Db}

theorem expandRule_congr {r : SecurityGroupRule} {members members' : Id → List IpAddr}
    (h : ∀ g, r.remoteGroup = some g → members' g = members g) :
    expandRule r members' = expandRule r members := by
  unfold expandRule
  cases hr : r.remoteGroup with
  | none => rfl
  | some g => simp only [h g hr]

theorem groupsPolicy_congr {groups : List Id}
    (hrules : d.rulesForGroups groups = db.rulesForGroups groups)
    (hmembers : ∀ r ∈ db.rulesForGroups groups, ∀ g, r.remoteGroup = some g →
      d.addressesInGroup g = db.addressesInGroup g) :
    groupsPolicy cfg d groups = groupsPolicy cfg db groups := by
  have hexpand : ∀ p : SecurityGroupRule → Bool,
      ((db.rulesForGroups groups).filter p).flatMap (fun r => expandRule r d.addressesInGroup) =
        ((db.rulesForGroups groups).filter p).flatMap fun r => expandRule r db.addressesInGroup := by
    intro p
    refine flatMap_congr fun r hr => ?_
    exact expandRule_congr (hmembers r (mem_filter.mp hr).1)
  simp only [groupsPolicy, hrules, hexpand]

end

/-! ## Who is in a group -/

end VQuasar.Tenancy
