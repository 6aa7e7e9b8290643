import VQuasar.Tenancy.Catalogue

/-!
# Networks and security groups

`api/networks.rs` and `api/security_groups.rs`.  Only a tenant network belongs to a project;
provider and VLAN networks are platform-shared.  Every network gets a default group when it is
made, and `insertDefaultGroup` leaves the owner of that group to the column's default.
-/

namespace VQuasar.Tenancy

/-! ## Creating a network -/

structure CreateNetwork where
  name : String
  kind : Option (Text NetworkKind)
  physicalNetwork : Option String
  vlan : Option Int
  overlay : Bool
  vni : Option Int
  ipam : NetworkIpam

namespace NetworkKind

/-- `as_str` -/
def text : NetworkKind → String
  | provider => "provider"
  | vlan => "vlan"
  | tenant => "tenant"

/-- `is_physical`, which is also `is_platform_only` -/
def isPhysical : NetworkKind → Bool
  | tenant => false
  | _ => true

end NetworkKind

def CreateNetwork.resolveKind (body : CreateNetwork) : Except ApiError NetworkKind :=
  match body.kind with
  | some (.ok k) => .ok k
  | some (.error k) =>
    .error (.invalid ("unknown network kind " ++ quoted k ++ " — expected provider, vlan or tenant"))
  | none => if body.overlay then .ok .tenant else .ok .provider

variable (cfg : Config) (db : Db) (s : Scope) (u : AuthUser) (id : Id)

/-- The refusal of a VLAN tag that is not allow-listed. -/
def Config.vlanRefused (tag : Int) : ApiError :=
  .invalid ("vlan " ++ toString tag ++ " is not in the permitted range (" ++ cfg.describeVlans ++ ")")

def validateRequest (kind : NetworkKind) (body : CreateNetwork) : Except ApiError Unit := do
  ensure body.vni.isNone (.invalid "vni is allocated by the control plane and cannot be requested")
  match kind with
  | .vlan => do
    let tag ← orElse body.vlan (.invalid "a vlan network requires a vlan tag")
    ensure (cfg.permitsVlan tag) (cfg.vlanRefused tag)
  | _ =>
    ensure body.vlan.isNone (.invalid ("a " ++ kind.text ++ " network must not carry a vlan tag"))

/-- The refusal of an uplink that is not configured. -/
def uplinkRefused (uplink : String) : ApiError :=
  .invalid ("unknown physical_network " ++ quoted uplink ++
    " — configure it in [network] physical_networks")

/-- Attaching to physical infrastructure is a platform decision. -/
def NetworkKind.require (kind : NetworkKind) (u : AuthUser) (tenant : Permission) :
    Except ApiError Unit :=
  if kind.isPhysical then u.require .networkCreateProvider else u.require tenant

def CreateNetwork.uplink (body : CreateNetwork) : String := body.physicalNetwork.getD "default"

/-- The checks of `create`, with the kind. -/
def networkChecks (body : CreateNetwork) : Except ApiError NetworkKind := do
  ensure (!body.name.isEmpty) (.invalid "name is required")
  let kind ← body.resolveKind
  kind.require u .networkCreate
  validateRequest cfg kind body
  body.ipam.validate
  ensure (!kind.isPhysical || cfg.permitsUplink body.uplink) (uplinkRefused body.uplink)
  return kind

def asU16 (v : Int) : Int := v % 2 ^ 16

/-- The segment of the new network; a tenant's is allocated, in a transaction of its own. -/
def Db.networkSegment (cfg : Config) (kind : NetworkKind) (body : CreateNetwork) :
    Except ApiError (SegmentKey × Option Nat × Db) :=
  match kind with
  | .tenant => do
    let (vni, db) ← db.allocateVxlan cfg.vniStart cfg.vniEnd
    return (.vxlan vni, some vni, db)
  | _ => .ok (.physical body.uplink (body.vlan.map asU16), none, db)

/-- The default group of a network that has just been made, and the segment it is bound to. -/
def Db.finishNetwork (name : String) (kind : NetworkKind) (vni : Option Nat) : Db :=
  let group := db.securityGroups.next
  let db := (db.insertDefaultGroup name (kind == .tenant)).setNetworkDefaultGroup id group
  match vni with
  | some vni => db.bindSegment vni id
  | none => db

def createNetwork (body : CreateNetwork) : Outcome Network :=
  attempt db (networkChecks cfg u body) fun kind =>
    attempt db (db.networkSegment cfg kind body) fun (key, vni, db) =>
      let id := db.networks.next
      let uplink := if kind.isPhysical then some body.uplink else none
      -- only a tenant network belongs to a project
      let project := if kind = .tenant then s.shareableOwner else none
      attempt db (db.insertNetwork body.name kind uplink (some key) body.vlan vni body.ipam project)
        fun db =>
          let db := db.finishNetwork id body.name kind vni
          (db, orElse (db.networks.get id) .database)

/-! ## Editing and deleting a network -/

def updateNetwork (body : CreateNetwork) : Outcome Network :=
  settle db do
    u.require .networkUpdate
    ensure (!body.name.isEmpty) (.invalid "name is required")
    body.ipam.validate
    ensure (db.networkWritable s id) (.resourceNotFound "network")
    let existing ← orElse (db.networks.get id) (.resourceNotFound "network")
    ensure (body.vni.isNone && (body.vlan.isNone || body.vlan == existing.vlan))
      (.invalid "a network's segment cannot be changed after creation")
    let db := db.updateNetwork id body.name body.ipam
    let net ← orElse (db.networks.get id) (.resourceNotFound "network")
    return (db, net)

structure AdoptSegment where
  physicalNetwork : Option String
  vlan : Option Int
  retagOk : Bool

def adoptSegment (body : AdoptSegment) : Outcome Network :=
  settle db do
    ensure (db.networkWritable s id) (.resourceNotFound "network")
    let net ← orElse (db.networks.get id) (.resourceNotFound "network")
    net.kind.require u .networkUpdate
    ensure net.segmentKey.isNone
      (.invalid ("this network already has a segment, and a segment cannot be changed: " ++
        "every attached VM would move to a different broadcast domain. Retarget " ++
        "the NICs instead (PUT /vms/:id/nics/:index)"))
    let uplink := (body.physicalNetwork.orElse fun _ => net.physicalNetwork).getD "default"
    ensure (cfg.permitsUplink uplink) (uplinkRefused uplink)
    ensure (body.vlan.all cfg.permitsVlan) (cfg.vlanRefused (body.vlan.getD 0))
    ensure (body.vlan == net.vlan || body.retagOk)
      (.invalid ("adopting a different vlan re-tags every NIC on this network and changes " ++
        "what they can reach; pass retag_ok=true to confirm"))
    let db ← db.adoptNetworkSegment id uplink body.vlan (.physical uplink (body.vlan.map asU16))
    let net ← orElse (db.networks.get id) (.invalid "network already has a segment")
    return (db, net)

/-- Quarantining the segment of a deleted network; only an overlay has a row for it. -/
def Db.quarantine : Option SegmentKey → Db
  | some (.vxlan vni) => db.releaseSegment vni
  | _ => db

def deleteNetwork : Outcome Unit :=
  settle db do
    u.require .networkDelete
    let segment := (db.networks.get id).bind Network.segmentKey
    ensure (db.networkWritable s id) (.resourceNotFound "network")
    let db := db.deleteNetworks fun n => n.id == id && s.ownsShareable n.project
    return (db.quarantine segment, ())

/-! ## Reading networks -/

def listNetworks : Except ApiError (List Network) := do
  u.require .networkRead
  return (db.networks.rows.filter fun r => s.sees r.project).insertionSort
    fun a b => a.name ≤ b.name

def readNetwork : Except ApiError Network := do
  u.require .networkRead
  orElse (db.getNetwork s id) (.resourceNotFound "network")

/-- `allocations`: every address given out on a network that is in sight. -/
def networkAllocations : Except ApiError (List IpAllocation) := do
  u.require .networkRead
  ensure (db.networkVisible s id) (.resourceNotFound "network")
  return db.allocationsForNetwork id

/-! ## Security groups -/

structure SecurityGroupView where
  group : SecurityGroup
  rules : List SecurityGroupRule
deriving DecidableEq, Repr

def Db.groupView (g : SecurityGroup) : SecurityGroupView :=
  ⟨g, db.rules.rows.filter fun r => r.group == g.id⟩

def listGroups : Except ApiError (List SecurityGroupView) := do
  u.require .networkRead
  return ((db.securityGroups.rows.filter fun r => s.owns r.project).insertionSort
    fun a b => a.name ≤ b.name).map db.groupView

def readGroup : Except ApiError SecurityGroupView := do
  u.require .networkRead
  let g ← orElse (db.getSecurityGroup s id) (.resourceNotFound "security group")
  return db.groupView g

structure CreateGroup where
  name : String
  description : Option String

def createGroup (body : CreateGroup) : Outcome SecurityGroup :=
  settle db do
    u.require .networkCreate
    ensure (!(trim body.name).isEmpty) (.invalid "name is required")
    return (db.createSecurityGroup (trim body.name) body.description s.owningProject,
      ⟨db.securityGroups.next, trim body.name, body.description, false, s.owningProject⟩)

def updateGroup (body : CreateGroup) : Outcome SecurityGroup :=
  settle db do
    u.require .networkUpdate
    ensure (!(trim body.name).isEmpty) (.invalid "name is required")
    ensure (db.securityGroupsInScope s [id]) (.resourceNotFound "security group")
    let db := db.updateSecurityGroup id (trim body.name) body.description
    let g ← orElse (db.securityGroups.get id) (.resourceNotFound "security group")
    return (db, g)

def deleteGroup : Outcome Unit :=
  settle db do
    u.require .networkDelete
    ensure (db.securityGroupsInScope s [id]) (.resourceNotFound "security group")
    ensure (!(db.securityGroups.get id).any SecurityGroup.managed)
      (.invalid ("this is a network's default policy group and cannot be deleted on its own; " ++
        "delete the network, or point it at a different default"))
    let db ← db.deleteGroups fun g => g.id == id && s.owns g.project
    return (db, ())

/-! ## Rules -/

/-- A blank `remote_cidr` counts as absent. -/
structure CreateRule where
  direction : Text Direction
  ethertype : Text Ethertype
  protocol : Text Protocol
  portMin : Option Int
  portMax : Option Int
  remoteCidr : Option (Text IpNet)
  remoteGroup : Option Id

def checkPort (protocol : Protocol) : Option Int → Except ApiError Unit
  | none => .ok ()
  | some p => do
    ensure (protocol == .tcp || protocol == .udp) (.invalid "ports only apply to tcp/udp")
    ensure (0 ≤ p && p ≤ 65535) (.invalid "port must be 0..65535")

/-- `port_min <= port_max`, when both are given -/
def portsOrdered : Option Int → Option Int → Bool
  | some lo, some hi => lo ≤ hi
  | _, _ => true

/-- `validate_rule`, with what the texts parse to -/
def CreateRule.validate (r : CreateRule) :
    Except ApiError (Direction × Ethertype × Protocol × Option IpNet) := do
  ensure (r.remoteGroup.isNone || r.remoteCidr.isNone)
    (.invalid "a rule names either a remote_cidr or a remote_group_id, not both")
  let direction ← orElse r.direction.toOption (.invalid "direction must be ingress or egress")
  let ethertype ← orElse r.ethertype.toOption (.invalid "ethertype must be IPv4 or IPv6")
  let protocol ← orElse r.protocol.toOption (.invalid "protocol must be tcp, udp, icmp or any")
  checkPort protocol r.portMin
  checkPort protocol r.portMax
  ensure (portsOrdered r.portMin r.portMax) (.invalid "port_min must be ≤ port_max")
  let cidr ← parseOptional "remote_cidr" r.remoteCidr
  return (direction, ethertype, protocol, cidr)

def addRule (body : CreateRule) : Outcome SecurityGroupRule :=
  settle db do
    u.require .networkUpdate
    ensure (db.securityGroupsInScope s [id]) (.resourceNotFound "security group")
    let (direction, ethertype, protocol, cidr) ← body.validate
    ensure (direction != .egress || cfg.egressEnforced)
      (.invalid ("egress rules are not enforced on this cluster: egress is default-allow, " ++
        "so this rule would do nothing. Set [network] egress_mode = \"enforced\" first."))
    ensure (body.remoteGroup.all fun g => db.securityGroupsInScope s [g])
      (.resourceNotFound "security group")
    let row : SecurityGroupRule := ⟨db.rules.next, id, direction, ethertype, protocol, body.portMin,
      body.portMax, cidr, body.remoteGroup⟩
    let db := db.addSgRule id direction ethertype protocol body.portMin body.portMax
      body.remoteGroup cidr
    return (db.touchVmsUsingSecurityGroup id, row)

def deleteRule (id rule : Id) : Outcome Unit :=
  settle db do
    u.require .networkUpdate
    ensure (db.securityGroupsInScope s [id]) (.resourceNotFound "security group")
    ensure ((db.rules.get rule).any fun r => r.group == id) (.invalid "rule not found")
    return ((db.deleteSgRule id rule).touchVmsUsingSecurityGroup id, ())

end VQuasar.Tenancy
