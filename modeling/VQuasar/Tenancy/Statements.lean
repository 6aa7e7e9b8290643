import VQuasar.Tenancy.Api
import Mathlib.Logic.Relation

/-!
# What a request does to the database

Every write request is a sequence of store statements, each made under what its handler has checked
(`Step`); `perform_steps` says so of all of them.  The isolation results are about single
statements and need not look at a handler again.

What a handler has checked is part of the step, as a fact about the database that the request has
found: a row it looked up in the scope of the request is one that the scope owns, a new row gets the
project of the scope, and where the handler does not ask, the step only says which request it
belongs to.
-/

namespace VQuasar.Tenancy

/-! ## Where a spec comes from -/

/-- The spec a request stores for a new VM. -/
inductive Launches (cfg : Config) (db : Db) (s : Scope) (u : AuthUser) :
    Write → VirtualMachineSpec → Prop
  | create {body : CreateVm} {spec : VirtualMachineSpec}
      (h : createSpec cfg db s u body = .ok spec) : Launches cfg db s u (.createVm body) spec
  | fromTemplate {body : CreateVmFromTemplate} {spec : VirtualMachineSpec}
      (h : templateSpec db s u body = .ok spec) :
      Launches cfg db s u (.createFromTemplate body) spec
  | fromVolume {body : CreateVmFromVolume} {v : Volume} {spec : VirtualMachineSpec}
      (h : volumeSpec cfg db s u body = .ok (v, spec)) :
      Launches cfg db s u (.createFromVolume body) spec

/-- The spec a request stores for a VM that exists. -/
inductive Respecs (cfg : Config) (db : Db) (s : Scope) : Write → Vm → VirtualMachineSpec → Prop
  | update {vm : Vm} {body : UpdateVm} {spec : VirtualMachineSpec}
      (hvm : s.owns vm.project) (h : updateSpec db vm body = .ok spec) :
      Respecs cfg db s (.updateVm vm.id body) vm spec
  | nic {vm : Vm} {index : Nat} {body : ChangeNic} {nic : NetworkInterfaceSpec}
      (hvm : s.owns vm.project) (hnet : db.networkVisible s body.network)
      (hgroups : body.securityGroups.all (db.securityGroupsInScope s))
      (hnic : vm.spec.networkInterfaces[index]? = some nic) :
      Respecs cfg db s (.changeNic vm.id index body) vm
        { vm.spec with
          networkInterfaces := vm.spec.networkInterfaces.set index (retarget body nic) }
  | start {vm : Vm} (hvm : s.owns vm.project) :
      Respecs cfg db s (.startVm vm.id) vm { vm.spec with desiredPowerState := .running }
  | stop {vm : Vm} (hvm : s.owns vm.project) :
      Respecs cfg db s (.stopVm vm.id) vm { vm.spec with desiredPowerState := .stopped }
  | attach {vm : Vm} {v : Volume} (hvm : s.owns vm.project) (hv : v ∈ db.volumes)
      (hown : s.owns v.project) :
      Respecs cfg db s (.attachVolume v.id vm.id) vm
        { vm.spec with disks := vm.spec.disks ++ [db.volumeDisk cfg v] }
  /-- the VM is the one the volume is attached to, whoever owns it -/
  | detach {vm : Vm} {v : Volume} (hv : v ∈ db.volumes) (hown : s.owns v.project)
      (hatt : v.attachedVm = some vm.id) :
      Respecs cfg db s (.detachVolume v.id) vm
        { vm.spec with disks := vm.spec.disks.filter fun d => d.path != db.fileOf cfg v }

/-! ## Statements -/

variable (s : Scope) (db : Db) (id : Id)

/-- The rows with this id are the scope's; a row that is not there yet is nobody else's. -/
def Scope.OwnsVm : Prop :=
  ∀ r ∈ db.vms, r.id = id → s.owns r.project = true

def Scope.OwnsVolume : Prop :=
  ∀ r ∈ db.volumes, r.id = id → s.owns r.project = true

def Scope.OwnsTemplate : Prop :=
  ∀ r ∈ db.templates, r.id = id → s.owns r.project = true

def Scope.OwnsGroup : Prop :=
  ∀ r ∈ db.securityGroups, r.id = id → s.owns r.project = true

def Scope.OwnsNetwork : Prop :=
  ∀ r ∈ db.networks, r.id = id → s.ownsShareable r.project = true

def Scope.OwnsImage : Prop :=
  ∀ r ∈ db.images, r.id = id → s.ownsShareable r.project = true

/-- The file of a volume of the scope, or of the one the request makes. -/
inductive OwnFile (cfg : Config) (db : Db) (s : Scope) : HostPath → Prop
  | old {v : Volume} (hv : v ∈ db.volumes) (hown : s.owns v.project) :
      OwnFile cfg db s (db.fileOf cfg v)
  | new (dir : HostPath) (format : Format) :
      OwnFile cfg db s (volumePath dir db.volumes.next format)

/-- The file operations of a request. -/
inductive Touches (cfg : Config) (db : Db) (s : Scope) : FileOp → Prop
  | clone {path : HostPath} {img : Image} (hpath : OwnFile cfg db s path) (himg : img ∈ db.images)
      (hsees : s.sees img.project) : Touches cfg db s (.clone img.sourcePath path)
  | write {path : HostPath} (hpath : OwnFile cfg db s path) : Touches cfg db s (.write path)
  | unlink {path : HostPath} (hpath : OwnFile cfg db s path) : Touches cfg db s (.unlink path)
  /-- the file of a deleted image, when the platform made it -/
  | unlinkImage {img : Image} (himg : img ∈ db.images) (hown : s.ownsShareable img.project) :
      Touches cfg db s (.unlink img.sourcePath)

/-- One statement of the request `w`, from `d` to the database it leaves, with what the handler has
checked in the database `db` that the request has found. -/
inductive Step (cfg : Config) (s : Scope) (u : AuthUser) (w : Write) (db d : Db) : Db → Prop
  -- virtual machines
  | insertVm {name : String} {spec : VirtualMachineSpec} {token : Nat}
      (hl : Launches cfg db s u w spec) (hfirst : d.vms.next = db.vms.next) :
      Step cfg s u w db d { d with
        vms := d.vms.insert (fun id =>
          ⟨id, name, spec, .pending, none, 1, 0, none, none, some token, s.owningProject⟩)
          fun _ => rfl }
  | allocate {vm : Id} {t : IdTable IpAllocation} (hvm : s.OwnsVm db vm)
      (hkept : IdTable.Kept (fun _ => True) d.allocations t)
      (hsame : IdTable.Same (fun a => a.vm != some vm) d.allocations t)
      (hw : (∃ spec, Launches cfg db s u w spec) ∨ ∃ i body, w = .changeNic vm i body) :
      Step cfg s u w db d { d with allocations := t }
  | releaseNic {vm : Id} {i : Nat} (hvm : s.OwnsVm db vm) (hw : ∃ body, w = .changeNic vm i body) :
      Step cfg s u w db d (d.releaseNicAllocations vm i)
  /-- only a row of this request is taken back -/
  | removeVm {vm : Id} (hvm : db.vms.next ≤ vm) (hw : ∃ spec, Launches cfg db s u w spec) :
      Step cfg s u w db d (d.deleteVmRow vm)
  | respec {vm : Vm} {name : Option String} {spec : VirtualMachineSpec}
      (hvm : vm ∈ db.vms) (hr : Respecs cfg db s w vm spec) :
      Step cfg s u w db d (d.setVm vm.id (Db.respec name spec) fun _ => rfl)
  | phase {vm : Id} {phase : VmPhase} (hvm : s.OwnsVm db vm)
      (hw : w = .deleteVm vm ∨ ∃ body, w = .migrateVm vm body) :
      Step cfg s u w db d (d.setVmPhase vm phase)
  | drainPhase {vm : Vm} {host : Id} (hw : w = .drainHost host) (hvm : vm ∈ db.vms)
      (hhost : vm.host = some host) : Step cfg s u w db d (d.setVmPhase vm.id .migrating)
  | touch {g : Id} (hw : (∃ body, w = .addRule g body) ∨ ∃ rule, w = .deleteRule g rule)
      (hg : s.OwnsGroup db g) : Step cfg s u w db d (d.touchVmsUsingSecurityGroup g)
  | log {t : IdTable Task} {e : List Event} {m : IdTable Migration} :
      Step cfg s u w db d { d with tasks := t, events := e, migrations := m }
  -- volumes
  | createVolume {name : String} {size : Int} {format : Format} {image : Option Id}
      {pool : Id} {policy : Option StoragePolicy} {host : Option Id} :
      Step cfg s u w db d { d with
        volumes := d.volumes.insert (fun id =>
          ⟨id, name, size, format, none, none, image, .provisioning, some pool, policy, host,
            s.owningProject⟩)
          fun _ => rfl }
  | finalizeVolume {id : Id} {size : Int} (hv : s.OwnsVolume db id) :
      Step cfg s u w db d (d.setVolume (fun r => r.id == id)
        (fun r => { r with status := .ready, sizeBytes := size }) fun _ => rfl)
  /-- the volume that is to be deleted, or the reservation of this request -/
  | deleteVolumes {p : Volume → Bool} (hp : ∀ r, p r → s.OwnsVolume db r.id)
      (hw : ∀ r, p r → w = .deleteVolume r.id ∨ db.volumes.next ≤ r.id) :
      Step cfg s u w db d (d.deleteVolumes p)
  | attachment {id : Id} {vm : Option Id} {serial : Option Nat} (hv : s.OwnsVolume db id)
      (hvm : ∀ i, vm = some i → i < d.vms.next) :
      Step cfg s u w db d (d.setVolumeAttachment id vm serial)
  | createSnapshot {v : Volume} {name : String} (hv : v ∈ db.volumes)
      (hown : s.owns v.project) : Step cfg s u w db d (d.createVolumeSnapshot v.id name)
  | deleteSnapshot {id snap : Id} {tool : ToolRun} (hw : w = .deleteSnapshot id snap tool) :
      Step cfg s u w db d (d.deleteVolumeSnapshot snap)
  | file {op : FileOp} (h : Touches cfg db s op) : Step cfg s u w db d (d.fileOp op)
  -- images and templates
  | insertImage {body : CreateImage} {format : Format} (hw : w = .createImage body)
      (hcheck : body.check cfg = .ok format) :
      Step cfg s u w db d { d with
        images := d.images.insert (fun id =>
          ⟨id, body.name, body.sourcePath, format, body.boot, body.defaultSizeBytes,
            body.cloudInit, body.os, .ready, false, s.shareableOwner⟩)
          fun _ => rfl }
  | updateImage {id : Id} {body : CreateImage} {format : Format} (hw : w = .updateImage id body)
      (hown : s.OwnsImage db id) (hcheck : body.check cfg = .ok format) :
      Step cfg s u w db d { d with
        images := d.images.update (fun r => r.id == id)
          (fun r => { r with
            name := body.name, sourcePath := body.sourcePath, format := format, boot := body.boot,
            defaultSizeBytes := body.defaultSizeBytes, cloudInit := body.cloudInit, os := body.os })
          fun _ => rfl }
  | deleteImage {id : Id} (hown : s.OwnsImage db id) :
      Step cfg s u w db d { d with
        images := d.images.delete fun r => r.id == id && s.ownsShareable r.project }
  | insertTemplate {body : CreateTemplate} {f : Db.TemplateFields} (hw : w = .createTemplate body)
      (hf : f.network = body.network) (hnet : body.network.all (db.networkVisible s))
      (himage : db.imageVisible s f.image) :
      Step cfg s u w db d { d with
        templates := d.templates.insert (fun id => f.row id s.owningProject) fun _ => rfl }
  | updateTemplate {t : Template} {body : CreateTemplate} {f : Db.TemplateFields}
      (hw : w = .updateTemplate t.id body) (hf : f.network = body.network)
      (hnet : body.network.all (db.networkVisible s)) (ht : t ∈ db.templates)
      (hown : s.owns t.project) (himage : db.imageVisible s f.image) :
      Step cfg s u w db d { d with
        templates := d.templates.update (fun r => r.id == t.id) (fun r => f.row r.id r.project)
          fun _ => rfl }
  | deleteTemplate {id : Id} (hown : s.OwnsTemplate db id) :
      Step cfg s u w db d (d.deleteTemplates fun t => t.id == id && s.owns t.project)
  -- networks
  | segments {t : List Segment} : Step cfg s u w db d { d with segments := t }
  /-- a network comes with its default group -/
  | createNetwork {body : CreateNetwork} {kind : NetworkKind} {uplink : Option String}
      {key : Option SegmentKey} {vni : Option Nat} {project : Option Id}
      (hw : w = .createNetwork body)
      (hp : project = if kind = .tenant then s.shareableOwner else none) :
      Step cfg s u w db d ((Db.insertDefaultGroup { d with
        networks := d.networks.insert (fun id =>
          ⟨id, body.name, kind, uplink, key, body.vlan, vni, body.ipam, none, project⟩)
          fun _ => rfl } body.name (kind == .tenant)).setNetworkDefaultGroup
            d.networks.next d.securityGroups.next)
  | updateNetwork {id : Id} {body : CreateNetwork} (hown : s.OwnsNetwork db id)
      (hw : w = .updateNetwork id body) :
      Step cfg s u w db d (d.updateNetwork id body.name body.ipam)
  | adoptSegment {id : Id} {uplink : String} {vlan : Option Int} {key : SegmentKey}
      (hown : s.OwnsNetwork db id) (hw : ∃ body, w = .adoptSegment id body) :
      Step cfg s u w db d { d with
        networks := d.networks.update (fun r => r.id == id && r.segmentKey.isNone)
          (fun r => { r with physicalNetwork := some uplink, vlan := vlan, segmentKey := some key })
          fun _ => rfl }
  | deleteNetwork {id : Id} (hw : w = .deleteNetwork id) (hown : s.OwnsNetwork db id) :
      Step cfg s u w db d (d.deleteNetworks fun n => n.id == id && s.ownsShareable n.project)
  -- security groups
  | createGroup {name : String} {description : Option String} :
      Step cfg s u w db d (d.createSecurityGroup name description s.owningProject)
  | updateGroup {id : Id} {name : String} {description : Option String}
      (hg : s.OwnsGroup db id) : Step cfg s u w db d (d.updateSecurityGroup id name description)
  | deleteGroup {id : Id} (hw : w = .deleteGroup id) (hg : s.OwnsGroup db id) :
      Step cfg s u w db d (d.dropGroups fun g => g.id == id && s.owns g.project)
  | addRule {g : Id} {body : CreateRule} {direction : Direction} {ethertype : Ethertype}
      {protocol : Protocol} {cidr : Option IpNet} (hw : w = .addRule g body)
      (hg : db.securityGroupsInScope s [g]) :
      Step cfg s u w db d (d.addSgRule g direction ethertype protocol body.portMin body.portMax
        body.remoteGroup cidr)
  | deleteRule {g rule : Id} (hw : w = .deleteRule g rule) (hg : s.OwnsGroup db g) :
      Step cfg s u w db d (d.deleteSgRule g rule)
  -- projects and quotas
  | createProject {body : CreateProject} (hw : w = .createProject body) :
      Step cfg s u w db d ((Db.insertProjectDefaultGroup { d with
        projects := d.projects.insert (fun id => ⟨id, body.name, body.description, false, none⟩)
          fun _ => rfl } d.projects.next body.name).setProjectDefaultGroup
            d.projects.next (some d.securityGroups.next))
  | updateProject {id : Id} {body : CreateProject} (hw : w = .updateProject id body) :
      Step cfg s u w db d { d with
        projects := d.projects.update (fun r => r.id == id)
          (fun r => { r with name := body.name, description := body.description }) fun _ => rfl }
  | deleteProject {id : Id} (hw : w = .deleteProject id) : Step cfg s u w db d (d.dropProject id)
  | setQuota {id : Id} {body : Quota.Limits} {t : List ProjectQuota} (hw : w = .setQuota id body)
      (ht : ∀ q, q.project ≠ id → (q ∈ t ↔ q ∈ d.quotas)) :
      Step cfg s u w db d { d with quotas := t }
  | clearQuota {id : Id} (hw : w = .clearQuota id) : Step cfg s u w db d (d.clearQuota id)
  -- roles and bindings
  | setUserRoles {user : User} {t : List UserRole} (huser : user ∈ db.users)
      (hnew : ∀ r ∈ t, r ∈ d.userRoles ∨ (r.user = user.id ∧ r.project = s.projectFilter ∧
        (d.roles.get r.role).isSome))
      (hold : ∀ r ∈ d.userRoles, r.project ≠ s.projectFilter → r ∈ t) :
      Step cfg s u w db d { d with userRoles := t }
  | createRole {name : String} {description : Option String} {permissions : List Permission} :
      Step cfg s u w db d { d with
        roles := d.roles.insert (fun id => ⟨id, name, description, false⟩) fun _ => rfl
        rolePermissions := d.rolePermissions ++ permissions.map fun p => ⟨d.roles.next, p⟩ }
  | updateRole {role : Role} {body : UpdateRole} {permissions : List Permission}
      (hw : w = .updateRole role.id body) (hrole : role ∈ db.roles)
      (hp : validatePerms body.permissions = .ok permissions) :
      Step cfg s u w db d { d with
        roles := d.roles.update (fun r => r.id == role.id)
          (fun r => { r with description := body.description }) fun _ => rfl
        rolePermissions := Table.deleteWhere (fun rp => rp.role == role.id) d.rolePermissions ++
          permissions.map fun p => ⟨role.id, p⟩ }
  | deleteRole {id : Id} (hw : w = .deleteRole id) : Step cfg s u w db d (d.deleteRole id)
  | addGroupRole {group : String} {role : Id} (hrole : (d.roles.get role).isSome) :
      Step cfg s u w db d { d with
        groupRoles := Db.insertNew d.groupRoles ⟨group, role, s.projectFilter⟩ }
  | removeGroupRole {group : String} {role : Id} :
      Step cfg s u w db d (d.removeGroupRole group role s.projectFilter)
  -- hosts and pools
  | registerHost {name endpoint : String}
      (hw : w = .registerHost name endpoint ∨ ∃ ca, w = .enroll name endpoint ca) :
      Step cfg s u w db d (d.registerHost name endpoint)
  | schedulable {id : Id} {b : Bool}
      (hw : w = .updateHost id b ∨ (w = .drainHost id ∧ b = false)) :
      Step cfg s u w db d (d.setHostSchedulable id b)
  | enrollmentTokens {t : List EnrollmentToken} :
      Step cfg s u w db d { d with enrollmentTokens := t }
  | createPool {name : String} {description : Option String} {params : PoolParams}
      (hpath : ensureWithin params.hostPath cfg.allowedPaths "path" = .ok ()) :
      Step cfg s u w db d { d with
        pools := d.pools.insert (fun id => ⟨id, name, description, params⟩) fun _ => rfl }
  | updatePool {id : Id} {name : String} {description : Option String}
      (hw : w = .updatePool id name description) :
      Step cfg s u w db d { d with
        pools := d.pools.update (fun r => r.id == id)
          (fun r => { r with name := name, description := description }) fun _ => rfl }
  | deletePool {id : Id} (hw : w = .deletePool id) (hpool : ∀ v ∈ db.volumes, v.pool ≠ some id) :
      Step cfg s u w db d (d.deleteStoragePool id)

/-- The statements of one request, in order. -/
def Steps (cfg : Config) (s : Scope) (u : AuthUser) (w : Write) (db : Db) : Db → Db → Prop :=
  Relation.ReflTransGen (Step cfg s u w db)

end VQuasar.Tenancy
