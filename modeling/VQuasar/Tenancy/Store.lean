import VQuasar.Tenancy.Schema
import VQuasar.Quota.Transactions
import Mathlib.Data.List.Sort

/-!
# The statements of the store

One definition for each method of `store.rs` that the handlers call, with the foreign keys of the
schema: `ON DELETE CASCADE` and `ON DELETE SET NULL` are carried out with the delete they follow,
and a statement that a constraint refuses is a database error.  None of these takes a scope; the
queries that do are in `Access`.
-/

namespace VQuasar.Tenancy

open Table List

variable (db : Db) (id : Id) (project : Id)

namespace Db

/-! ## Admission -/

def usageIn : Except ApiError Quota.Amounts :=
  let vms := db.vms.rows.filter fun r => r.project == project
  let volumes := db.volumes.rows.filter fun r => r.project == project
  let ofVms : Quota.Amounts :=
    { vms := vms.length
      vcpus := total (fun r => (r.spec.cpu.maxVcpus : Int)) vms
      memoryMib :=
        total (fun r => ((r.spec.memory.maxSizeMib.getD r.spec.memory.sizeMib : Nat) : Int)) vms
      volumes := 0
      storageBytes :=
        total (fun r => total (fun b : Nat => (b : Int)) (r.spec.disks.filterMap (·.sizeBytes)))
          vms }
  let ofVolumes : Quota.Amounts :=
    ⟨0, 0, 0, volumes.length, total (fun r => r.sizeBytes) volumes⟩
  if ofVms.decodes && ofVolumes.decodes then .ok (ofVms.combine ofVolumes) else .error .database

def getQuota : Option Quota.Limits :=
  (db.quotas.find? fun q => q.project == project).map ProjectQuota.limits

/-- `Exceeded::fmt` -/
def exceededMessage (x : Quota.Exceeded) : String :=
  "project quota exceeded: " ++ x.dimension ++ " — limit " ++ toString x.limit ++ ", " ++
    toString x.inUse ++ " in use, this request asks for " ++ toString x.requested

/-- `quota::admit` -/
def admission (demand : Quota.Amounts) : Except ApiError Unit :=
  match db.getQuota project with
  | none => .ok ()
  | some limits =>
    if limits.unlimited then .ok ()
    else do
      let usage ← db.usageIn project
      match Quota.check limits usage demand with
      | .ok () => .ok ()
      | .error x => .error (.quotaExceeded (exceededMessage x))

/-! ## Virtual machines -/

/-- `insert_vm_with_id`; `token` is the phone-home secret issued with the row. -/
def insertVmWithId (name : String) (spec : VirtualMachineSpec) (project : Id)
    (token : Nat) : Except ApiError Db := do
  db.admission project spec.amounts
  return { db with
    vms := db.vms.insert
      (fun id => ⟨id, name, spec, .pending, none, 1, 0, none, none, some token, project⟩)
      fun _ => rfl }

def setVm (f : Vm → Vm) (hf : ∀ r, (f r).id = r.id) : Db :=
  { db with vms := db.vms.update (fun r => r.id == id) f hf }

/-- What `write_spec` sets. -/
def respec (name : Option String) (spec : VirtualMachineSpec) (r : Vm) : Vm :=
  { r with name := name.getD r.name, spec := spec, generation := r.generation + 1 }

/-- `write_spec`; `none` when there is no such VM. -/
def writeSpec (name : Option String) (spec : VirtualMachineSpec) :
    Except ApiError (Option (Vm × Db)) :=
  match db.vms.get id with
  | none => .ok none
  | some vm => do
    db.admission vm.project (vm.spec.amounts.delta spec.amounts)
    return some (respec name spec vm, db.setVm id (respec name spec) fun _ => rfl)

def setVmSpec (spec : VirtualMachineSpec) : Except ApiError (Option (Vm × Db)) :=
  db.writeSpec id none spec

def setVmPhase (phase : VmPhase) : Db :=
  db.setVm id (fun r => { r with phase := phase }) fun _ => rfl

def setVmIp (ip : String) : Db :=
  db.setVm id (fun r => { r with ipAddress := some ip }) fun _ => rfl

def releaseVmAllocations : Db :=
  { db with allocations := db.allocations.delete fun a => a.vm == some id }

def deleteVmRow : Db :=
  { db.releaseVmAllocations id with
    volumes := db.volumes.update (fun v => v.attachedVm == some id)
      (fun v => { v with attachedVm := none, attachedSerial := none }) fun _ => rfl
    vms := db.vms.delete fun r => r.id == id }

/-- Whether one of the VM's NICs lists the group. -/
def Vm.usesGroup (r : Vm) (group : Id) : Bool :=
  r.spec.networkInterfaces.any fun n => n.securityGroups.contains group

def touchVmsUsingSecurityGroup (group : Id) : Db :=
  { db with
    vms := db.vms.update (fun r => r.phase != .deleting && Vm.usesGroup r group)
      (fun r => { r with generation := r.generation + 1 }) fun _ => rfl }

/-! ## Tasks, events, migrations -/

/-- `insert_task`: the task of a VM belongs to the VM's project. -/
def insertTask (taskType : String) (vm : Option Id) : Db :=
  { db with
    tasks := db.tasks.insert
      (fun id => ⟨id, taskType, vm, (vm.bind db.vms.get).map Vm.project⟩) fun _ => rfl }

/-- `insert_event`: an event about a VM belongs to the VM's project, one about a host to none. -/
def insertEvent (resourceType : ResourceType) (resource : Option Id)
    (eventType severity message : String) : Db :=
  let project := match resourceType with
    | .vm => (resource.bind db.vms.get).map Vm.project
    | .host => none
  { db with events := db.events ++ [⟨resourceType, resource, eventType, severity, message, project⟩] }

def insertMigration (vm : Id) (sourceHost : Option Id) (targetHost task : Id) : Db :=
  { db with
    migrations := db.migrations.insert (fun id => ⟨id, vm, sourceHost, targetHost, task, true⟩)
      fun _ => rfl }

def activeMigrationForVm (vm : Id) : Option Migration :=
  db.migrations.rows.find? fun m => m.vm == vm && m.active

/-! ## Networks and segments -/

/-- The gap `allocate_vxlan` looks for, over the recorded values in order. -/
def nextVni : List Nat → Nat → Nat
  | [], next => next
  | v :: vs, next =>
    if v < next then nextVni vs next else if v = next then nextVni vs (next + 1) else next

def allocateVxlan (vniStart vniEnd : Nat) : Except ApiError (Nat × Db) :=
  let next := nextVni ((db.segments.map Segment.value).insertionSort (· ≤ ·)) vniStart
  if next > vniEnd then
    .error (.invalid ("no free VNI in range " ++ toString vniStart ++ "..=" ++ toString vniEnd ++
      " — every value is allocated or quarantined"))
  else .ok (next, { db with segments := db.segments ++ [⟨next, .allocated, none⟩] })

/-- Whether another network has the segment. -/
def segmentTaken (key : Option SegmentKey) : Bool :=
  db.networks.rows.any fun n => key.isSome && n.segmentKey == key

/-- `insert_network`; a segment another network has is refused (`duplicate_segment`). -/
def insertNetwork (name : String) (kind : NetworkKind) (physicalNetwork : Option String)
    (segmentKey : Option SegmentKey) (vlan : Option Int) (vni : Option Nat) (ipam : NetworkIpam)
    (project : Option Id) : Except ApiError Db := do
  ensure (!db.segmentTaken segmentKey)
    (.invalid ("that segment is already in use by another network " ++
      "(one network = one L2 domain)"))
  return { db with
    networks := db.networks.insert
      (fun id => ⟨id, name, kind, physicalNetwork, segmentKey, vlan, vni, ipam, none, project⟩)
      fun _ => rfl }

def setNetwork (f : Network → Network) (hf : ∀ r, (f r).id = r.id) : Db :=
  { db with networks := db.networks.update (fun r => r.id == id) f hf }

def setNetworkDefaultGroup (id group : Id) : Db :=
  db.setNetwork id (fun r => { r with defaultGroup := some group }) fun _ => rfl

/-- `update_network`, with the VLAN and the VNI the network has -/
def updateNetwork (name : String) (ipam : NetworkIpam) : Db :=
  db.setNetwork id (fun r => { r with name := name, ipam := ipam }) fun _ => rfl

def adoptNetworkSegment (uplink : String) (vlan : Option Int)
    (key : SegmentKey) : Except ApiError Db := do
  ensure (!db.segmentTaken (some key))
    (.invalid ("segment " ++ key.canonical ++ " is already taken by another network — they are the same " ++
      "broadcast domain, so only one of them can describe it. Consolidate them " ++
      "(retarget the NICs and delete the spare), or adopt a distinct vlan"))
  return { db with
    networks := db.networks.update (fun r => r.id == id && r.segmentKey.isNone)
      (fun r => { r with physicalNetwork := some uplink, vlan := vlan, segmentKey := some key })
      fun _ => rfl }

/-- `segments::bind` -/
def bindSegment (vni network : Id) : Db :=
  { db with
    segments := updateWhere (fun s => s.value == vni) (fun s => { s with network := some network })
      db.segments }

/-- `segments::release` -/
def releaseSegment (vni : Nat) : Db :=
  { db with
    segments := updateWhere (fun s => s.value == vni)
      (fun s => { s with state := .quarantined, network := none }) db.segments }

/-- `DELETE FROM networks`: its allocations go with it, and templates and segments forget it. -/
def deleteNetworks (p : Network → Bool) : Db :=
  let gone (id : Id) : Bool := (db.networks.get id).any p
  { db with
    networks := db.networks.delete p
    allocations := db.allocations.delete fun a => gone a.network
    templates := db.templates.update (fun t => t.network.any gone)
      (fun t => { t with network := none }) fun _ => rfl
    segments := updateWhere (fun s => s.network.any gone) (fun s => { s with network := none })
      db.segments }

/-! ## Addresses -/

def allocationsForNetwork (network : Id) : List IpAllocation :=
  db.allocations.rows.filter fun a => a.network == network

/-- `insert_allocation`; an address of the network is given out once. -/
def insertAllocation (network : Id) (ip : IpAddr) (v6 : Bool) (vm : Option Id)
    (nicIndex : Nat) (mac : Option String) : Except ApiError Db := do
  ensure ((db.allocationsForNetwork network).all fun a => a.ip != ip)
    (.invalid ("address " ++ ip.text ++ " is already allocated"))
  return { db with
    allocations := db.allocations.insert (fun id => ⟨id, network, ip, v6, vm, nicIndex, mac⟩)
      fun _ => rfl }

def releaseNicAllocations (vm : Id) (nicIndex : Nat) : Db :=
  { db with
    allocations := db.allocations.delete fun a => a.vm == some vm && a.nicIndex == nicIndex }

/-! ## Security groups -/

def insertGroup (name : String) (description : Option String) (managed : Bool)
    (project : Id) : Db :=
  { db with
    securityGroups := db.securityGroups.insert (fun id => ⟨id, name, description, managed, project⟩)
      fun _ => rfl }

def createSecurityGroup (name : String) (description : Option String) (project : Id) : Db :=
  db.insertGroup name description false project

/-- `insert_default_group`: the default group of a network.  The statement names no project, so
the column takes its default. -/
def insertDefaultGroup (networkName : String) (tenant : Bool) : Db :=
  db.insertGroup ("default-" ++ networkName)
    (some ("Default policy for the " ++ (if tenant then "tenant" else "provider") ++ " network " ++
      networkName ++ ": default-deny ingress. " ++
      "Applies to every NIC on this network, unioned with the NIC's own groups."))
    true defaultProjectId

def insertProjectDefaultGroup (name : String) : Db :=
  db.insertGroup ("default-project-" ++ name)
    (some ("Default policy for every VM in the " ++ name ++ " project. " ++
      "Applies to each NIC              alongside its network's default and the NIC's own groups."))
    true project

def updateSecurityGroup (name : String) (description : Option String) : Db :=
  { db with
    securityGroups := db.securityGroups.update (fun r => r.id == id)
      (fun r => { r with name := name, description := description }) fun _ => rfl }

/-- The rows a `DELETE FROM security_groups` takes: the groups, the rules in them and the rules
that name them. -/
def dropGroups (p : SecurityGroup → Bool) : Db :=
  let gone (id : Id) : Bool := (db.securityGroups.get id).any p
  { db with
    securityGroups := db.securityGroups.delete p
    rules := db.rules.delete fun r => gone r.group || r.remoteGroup.any gone }

/-- `DELETE FROM security_groups`; a group that is still the default of a network or a project is
refused. -/
def deleteGroups (p : SecurityGroup → Bool) : Except ApiError Db := do
  let gone (id : Id) : Bool := (db.securityGroups.get id).any p
  ensure (!((db.networks.rows.any fun n => n.defaultGroup.any gone) ||
      db.projects.rows.any fun q => q.defaultGroup.any gone)) .database
  return db.dropGroups p

def addSgRule (group : Id) (direction : Direction) (ethertype : Ethertype)
    (protocol : Protocol) (portMin portMax : Option Int) (remoteGroup : Option Id)
    (remoteCidr : Option IpNet) : Db :=
  { db with
    rules := db.rules.insert
      (fun id => ⟨id, group, direction, ethertype, protocol, portMin, portMax, remoteCidr,
        remoteGroup⟩)
      fun _ => rfl }

def deleteSgRule (group rule : Id) : Db :=
  { db with rules := db.rules.delete fun r => r.id == rule && r.group == group }

/-! ## Volumes and snapshots -/

def createVolume (name : String) (sizeBytes : Int) (format : Format)
    (sourceImage : Option Id) (project pool : Id) (policy : Option StoragePolicy)
    (host : Option Id) : Except ApiError Db := do
  db.admission project ⟨0, 0, 0, 1, sizeBytes⟩
  return { db with
    volumes := db.volumes.insert
      (fun id => ⟨id, name, sizeBytes, format, none, none, sourceImage, .provisioning, some pool,
        policy, host, project⟩)
      fun _ => rfl }

def setVolume (p : Volume → Bool) (f : Volume → Volume) (hf : ∀ r, (f r).id = r.id) : Db :=
  { db with volumes := db.volumes.update p f hf }

/-- `finalize_volume`; `none` when the reservation is gone. -/
def finalizeVolume (sizeBytes : Int) : Except ApiError (Option Db) :=
  match db.volumes.get id with
  | none => .ok none
  | some v =>
    if v.status = .provisioning then do
      db.admission v.project ⟨0, 0, 0, 0, sizeBytes - v.sizeBytes⟩
      return some (db.setVolume (fun r => r.id == id)
        (fun r => { r with status := .ready, sizeBytes := sizeBytes }) fun _ => rfl)
    else .ok none

/-- `DELETE FROM volumes`: the snapshots go too. -/
def deleteVolumes (p : Volume → Bool) : Db :=
  let gone (id : Id) : Bool := (db.volumes.get id).any p
  { db with
    volumes := db.volumes.delete p
    snapshots := db.snapshots.delete fun s => gone s.volume }

def dropVolumeReservation : Db :=
  db.deleteVolumes fun v => v.id == id && v.status == .provisioning

def setVolumeAttachment (vm : Option Id) (serial : Option Nat) : Db :=
  db.setVolume (fun r => r.id == id)
    (fun r => { r with attachedVm := vm, attachedSerial := serial }) fun _ => rfl

def createVolumeSnapshot (volume : Id) (name : String) : Db :=
  { db with snapshots := db.snapshots.insert (fun id => ⟨id, volume, name⟩) fun _ => rfl }

def deleteVolumeSnapshot : Db :=
  { db with snapshots := db.snapshots.delete fun s => s.id == id }

/-! ## Images and templates -/

/-- `insert_image`; a name is given out once. -/
def insertImage (name : String) (sourcePath : HostPath) (format : Format)
    (boot : BootSpec) (defaultSizeBytes : Option Int) (cloudInit : Bool) (os : Option String)
    (project : Option Id) : Except ApiError Db := do
  ensure (db.images.rows.all fun r => r.name != name) .database
  return { db with
    images := db.images.insert
      (fun id => ⟨id, name, sourcePath, format, boot, defaultSizeBytes, cloudInit, os, .ready,
        false, project⟩)
      fun _ => rfl }

def updateImage (name : String) (sourcePath : HostPath) (format : Format)
    (boot : BootSpec) (defaultSizeBytes : Option Int) (cloudInit : Bool) (os : Option String) :
    Except ApiError Db := do
  ensure (db.images.rows.all fun r => r.id == id || r.name != name) .database
  return { db with
    images := db.images.update (fun r => r.id == id)
      (fun r => { r with
        name := name, sourcePath := sourcePath, format := format, boot := boot,
        defaultSizeBytes := defaultSizeBytes, cloudInit := cloudInit, os := os })
      fun _ => rfl }

/-- `DELETE FROM images`, refused while a template or a volume names one. -/
def deleteImages (p : Image → Bool) : Except ApiError Db :=
  let gone (id : Id) : Bool := (db.images.get id).any p
  if (db.templates.rows.any fun t => gone t.image) ||
      (db.volumes.rows.any fun v => v.sourceImage.any gone) then .error .database
  else .ok { db with images := db.images.delete p }

/-- What a template carries besides its id and project. -/
structure TemplateFields where
  name : String
  image : Id
  bootVcpus : Int
  maxVcpus : Int
  memoryMib : Int
  diskSizeBytes : Option Int
  diskFormat : Format
  network : Option Id
  cloudInit : Option CloudInitSpec
  machineType : MachineType

def TemplateFields.row (f : TemplateFields) (id project : Id) : Template :=
  ⟨id, f.name, f.image, f.bootVcpus, f.maxVcpus, f.memoryMib, f.diskSizeBytes, f.diskFormat,
    f.network, f.cloudInit, f.machineType, project⟩

def insertTemplate (f : TemplateFields) (project : Id) : Except ApiError Db := do
  ensure (db.templates.rows.all fun r => r.name != f.name) .database
  return { db with templates := db.templates.insert (fun id => f.row id project) fun _ => rfl }

def updateTemplate (f : TemplateFields) : Except ApiError Db := do
  ensure (db.templates.rows.all fun r => r.id == id || r.name != f.name) .database
  return { db with
    templates := db.templates.update (fun r => r.id == id) (fun r => f.row r.id r.project)
      fun _ => rfl }

def deleteTemplates (p : Template → Bool) : Db :=
  { db with templates := db.templates.delete p }

/-! ## Projects and quotas -/

def insertProject (name : String) (description : Option String) : Except ApiError Db := do
  ensure (db.projects.rows.all fun r => r.name != name)
    (.invalid "a project with that name already exists")
  return { db with
    projects := db.projects.insert (fun id => ⟨id, name, description, false, none⟩) fun _ => rfl }

def setProjectDefaultGroup (group : Option Id) : Db :=
  { db with
    projects := db.projects.update (fun r => r.id == project)
      (fun r => { r with defaultGroup := group }) fun _ => rfl }

def updateProject (name : String) (description : Option String) : Except ApiError Db := do
  ensure (db.projects.rows.all fun r => r.id == id || r.name != name)
    (.invalid "a project with that name already exists")
  return { db with
    projects := db.projects.update (fun r => r.id == id)
      (fun r => { r with name := name, description := description }) fun _ => rfl }

/-- `project_contents` is empty. -/
def projectEmpty : Bool :=
  (db.vms.rows.all fun r => r.project != id) &&
  (db.volumes.rows.all fun r => r.project != id) &&
  (db.templates.rows.all fun r => r.project != id) &&
  (db.securityGroups.rows.all fun r => r.project != id || r.managed) &&
  (db.networks.rows.all fun r => r.project != some id)

/-- Whether a row that restricts the delete of a project still names it. -/
def projectReferenced : Bool :=
  (db.vms.rows.any fun r => r.project == id) ||
  (db.volumes.rows.any fun r => r.project == id) ||
  (db.templates.rows.any fun r => r.project == id) ||
  (db.securityGroups.rows.any fun r => r.project == id) ||
  (db.networks.rows.any fun r => r.project == some id) ||
  (db.images.rows.any fun r => r.project == some id) ||
  (db.tasks.rows.any fun r => r.project == some id)

/-- The project lets go of its default group, and its managed groups go. -/
def dropProjectGroups : Db :=
  (db.setProjectDefaultGroup id none).dropGroups fun g => g.project == id && g.managed

/-- The rows that go with a project: its managed groups, its quota and its bindings.  Events
forget it. -/
def dropProject : Db :=
  { db.dropProjectGroups id with
    projects := (db.dropProjectGroups id).projects.delete fun r => r.id == id && !r.isDefault
    quotas := deleteWhere (fun q => q.project == id) db.quotas
    userRoles := deleteWhere (fun r => r.project == some id) db.userRoles
    groupRoles := deleteWhere (fun r => r.project == some id) db.groupRoles
    events := updateWhere (fun e => e.project == some id) (fun e => { e with project := none })
      db.events }

/-- `delete_project`, one transaction. -/
def deleteProject : Except ApiError Db := do
  let cleared ← (db.setProjectDefaultGroup id none).deleteGroups fun g =>
    g.project == id && g.managed
  ensure (!cleared.projectReferenced id) .database
  return db.dropProject id

def i32 (v : Int) : Int := Int.bmod v (2 ^ 32)

/-- The row `set_quota` writes: three of the limits are stored in 32 bits. -/
def storedLimits (l : Quota.Limits) : Quota.Limits :=
  { l with
    maxVms := l.maxVms.map i32, maxVcpus := l.maxVcpus.map i32, maxVolumes := l.maxVolumes.map i32 }

/-- `set_quota`; a limit that is negative as stored is refused. -/
def setQuota (limits : Quota.Limits) : Except ApiError Db := do
  let row := storedLimits limits
  ensure (row.dimensions.all fun d => d.2.all (0 ≤ ·)) .database
  if db.quotas.any fun q => q.project == project then
    return { db with
      quotas := updateWhere (fun q => q.project == project) (fun q => { q with limits := row })
        db.quotas }
  else return { db with quotas := db.quotas ++ [⟨project, row⟩] }

def clearQuota : Db :=
  { db with quotas := deleteWhere (fun q => q.project == project) db.quotas }

/-! ## Hosts and pools -/

def registerHost (name endpoint : String) : Db :=
  { db with
    hosts := db.hosts.insert (fun id => ⟨id, name, endpoint, false, true, none, [], none⟩)
      fun _ => rfl }

def setHost (f : Host → Host) (hf : ∀ r, (f r).id = r.id) : Db :=
  { db with hosts := db.hosts.update (fun r => r.id == id) f hf }

def setHostSchedulable (schedulable : Bool) : Db :=
  db.setHost id (fun r => { r with schedulable := schedulable }) fun _ => rfl

def setHostCertCn (cn : String) : Db :=
  db.setHost id (fun r => { r with certCn := some cn }) fun _ => rfl

def getStoragePoolByName (name : String) : Option StoragePool :=
  db.pools.rows.find? fun r => r.name == name

def duplicatePool : ApiError :=
  .invalid "a storage pool with that name, or over that directory, already exists"

def insertStoragePool (name : String) (description : Option String)
    (params : PoolParams) : Except ApiError Db := do
  ensure (db.pools.rows.all fun r => r.name != name && r.params.hostPath != params.hostPath)
    duplicatePool
  return { db with
    pools := db.pools.insert (fun id => ⟨id, name, description, params⟩) fun _ => rfl }

def updateStoragePool (name : String) (description : Option String) : Except ApiError Db := do
  ensure (db.pools.rows.all fun r => r.id == id || r.name != name) duplicatePool
  return { db with
    pools := db.pools.update (fun r => r.id == id)
      (fun r => { r with name := name, description := description }) fun _ => rfl }

def deleteStoragePool : Db :=
  { db with
    pools := db.pools.delete fun r => r.id == id
    poolReports := deleteWhere (fun r => r.pool == id) db.poolReports }

/-- `volume_dir` and `dir_in`: the root of the volume's pool, or the shared directory. -/
def volumeDir (shared : HostPath) (v : Volume) : HostPath :=
  match v.pool.bind db.pools.get with
  | some pool => pool.params.hostPath
  | none => shared

/-! ## Users, roles, bindings -/

def upsertUser (subject username : String) (email displayName : Option String) : Db :=
  if db.users.rows.any fun u => u.subject == subject then
    { db with
      users := db.users.update (fun u => u.subject == subject)
        (fun u => { u with username := username, email := email, displayName := displayName })
        fun _ => rfl }
  else
    { db with
      users := db.users.insert (fun id => ⟨id, subject, username, email, displayName⟩)
        fun _ => rfl }

/-- `INSERT ... ON CONFLICT DO NOTHING` -/
def insertNew {α : Type} [DecidableEq α] (rows : List α) (r : α) : List α :=
  if r ∈ rows then rows else rows ++ [r]

/-- `grant_role_by_name`: a platform-wide binding -/
def grantRoleByName (user : Id) (role : String) : Db :=
  match db.roles.rows.find? fun r => r.name == role with
  | some r => { db with userRoles := insertNew db.userRoles ⟨user, r.id, none⟩ }
  | none => db

/-- `set_user_roles`: the bindings of the user in one scope are replaced. -/
def setUserRoles (user : Id) (roles : List Id) (project : Option Id) : Except ApiError Db := do
  ensure (roles.all fun r => (db.roles.get r).isSome) .database
  let kept := deleteWhere (fun r => r.user == user && r.project == project) db.userRoles
  return { db with userRoles := roles.foldl (fun rows r => insertNew rows ⟨user, r, project⟩) kept }

def createRole (name : String) (description : Option String)
    (permissions : List Permission) : Except ApiError Db := do
  ensure (db.roles.rows.all fun r => r.name != name) .database
  ensure (decide permissions.Nodup) .database
  return { db with
    roles := db.roles.insert (fun id => ⟨id, name, description, false⟩) fun _ => rfl
    rolePermissions := db.rolePermissions ++ permissions.map fun p => ⟨db.roles.next, p⟩ }

def updateRolePermissions (description : Option String)
    (permissions : List Permission) : Except ApiError Db := do
  ensure (decide permissions.Nodup) .database
  return { db with
    roles := db.roles.update (fun r => r.id == id) (fun r => { r with description := description })
      fun _ => rfl
    rolePermissions := deleteWhere (fun rp => rp.role == id) db.rolePermissions ++
      permissions.map fun p => ⟨id, p⟩ }

/-- `delete_role`: a role that is not built in, with its permissions and its bindings. -/
def deleteRole : Db :=
  let gone (i : Id) : Bool := (db.roles.get i).any fun r => r.id == id && !r.builtin
  { db with
    roles := db.roles.delete fun r => r.id == id && !r.builtin
    rolePermissions := deleteWhere (fun rp => gone rp.role) db.rolePermissions
    userRoles := deleteWhere (fun r => gone r.role) db.userRoles
    groupRoles := deleteWhere (fun r => gone r.role) db.groupRoles }

def addGroupRole (group : String) (role : Id) (project : Option Id) : Except ApiError Db := do
  ensure (db.roles.get role).isSome .database
  return { db with groupRoles := insertNew db.groupRoles ⟨group, role, project⟩ }

def removeGroupRole (group : String) (role : Id) (project : Option Id) : Db :=
  { db with
    groupRoles :=
      deleteWhere (fun r => r.group == group && r.role == role && r.project == project)
        db.groupRoles }

/-- A file operation is carried out, or ordered from an agent. -/
def fileOp (op : FileOp) : Db := { db with files := op :: db.files }

/-! ## What the fallible statements write -/

section Written

variable {db db' : Db}

variable {name : String} {id : Id} {format : Format} {project : Option Id}
  {description : Option String}
  {spec : VirtualMachineSpec} {size : Int} {sourcePath : HostPath} {boot : BootSpec} {cloudInit : Bool} {os : Option String} {f : TemplateFields} {vlan : Option Int} {user : Id} {permissions : List Permission}

theorem insertVmWithId_ok {project : Id} {token : Nat}
    (h : db.insertVmWithId name spec project token = .ok db') :
    db' = { db with
      vms := db.vms.insert
        (fun id => ⟨id, name, spec, .pending, none, 1, 0, none, none, some token, project⟩)
        fun _ => rfl } := by
  obtain ⟨-, -, h⟩ := of_bind_pure h
  exact h.symm

theorem writeSpec_ok {name : Option String} {vm' : Vm}
    (h : db.writeSpec id name spec = .ok (some (vm', db'))) :
    db' = db.setVm id (respec name spec) fun _ => rfl := by
  unfold writeSpec at h
  cases hvm : db.vms.get id with
  | none => simp [hvm] at h
  | some vm =>
    rw [hvm] at h
    obtain ⟨-, -, ⟨⟩⟩ := of_bind_pure h
    rfl

theorem createVolume_ok {image : Option Id}
    {project pool : Id} {policy : Option StoragePolicy} {host : Option Id}
    (h : db.createVolume name size format image project pool policy host = .ok db') :
    db' = { db with
      volumes := db.volumes.insert
        (fun id => ⟨id, name, size, format, none, none, image, .provisioning, some pool, policy,
          host, project⟩)
        fun _ => rfl } := by
  obtain ⟨-, -, h⟩ := of_bind_pure h
  exact h.symm

theorem finalizeVolume_ok (h : db.finalizeVolume id size = .ok (some db')) :
    db' = db.setVolume (fun r => r.id == id)
      (fun r => { r with status := .ready, sizeBytes := size }) fun _ => rfl := by
  unfold finalizeVolume at h
  cases hv : db.volumes.get id with
  | none => simp [hv] at h
  | some v =>
  rw [hv] at h
  simp only at h
  split at h
  · obtain ⟨-, -, ⟨⟩⟩ := of_bind_pure h
    rfl
  · cases h

theorem insertImage_ok {size : Option Int}
    (h : db.insertImage name sourcePath format boot size cloudInit os project = .ok db') :
    db' = { db with
      images := db.images.insert
        (fun id => ⟨id, name, sourcePath, format, boot, size, cloudInit, os, .ready, false,
          project⟩)
        fun _ => rfl } :=
  (of_ensure_pure h).symm

theorem updateImage_ok {size : Option Int}
    (h : db.updateImage id name sourcePath format boot size cloudInit os = .ok db') :
    db' = { db with
      images := db.images.update (fun r => r.id == id)
        (fun r => { r with
          name := name, sourcePath := sourcePath, format := format, boot := boot,
          defaultSizeBytes := size, cloudInit := cloudInit, os := os })
        fun _ => rfl } :=
  (of_ensure_pure h).symm

theorem deleteImages_ok {p : Image → Bool} (h : db.deleteImages p = .ok db') :
    db' = { db with images := db.images.delete p } := by
  simp only [deleteImages] at h
  split at h
  · cases h
  · cases h
    rfl

theorem insertTemplate_ok {project : Id} (h : db.insertTemplate f project = .ok db') :
    db' = { db with
      templates := db.templates.insert (fun id => f.row id project) fun _ => rfl } :=
  (of_ensure_pure h).symm

theorem updateTemplate_ok (h : db.updateTemplate id f = .ok db') :
    db' = { db with
      templates := db.templates.update (fun r => r.id == id) (fun r => f.row r.id r.project)
        fun _ => rfl } :=
  (of_ensure_pure h).symm

theorem insertNetwork_ok {kind : NetworkKind} {uplink : Option String}
    {key : Option SegmentKey} {vni : Option Nat} {ipam : NetworkIpam}
    (h : db.insertNetwork name kind uplink key vlan vni ipam project = .ok db') :
    db' = { db with
      networks := db.networks.insert
        (fun id => ⟨id, name, kind, uplink, key, vlan, vni, ipam, none, project⟩)
        fun _ => rfl } :=
  (of_ensure_pure h).symm

theorem adoptNetworkSegment_ok {uplink : String} {key : SegmentKey}
    (h : db.adoptNetworkSegment id uplink vlan key = .ok db') :
    db' = { db with
      networks := db.networks.update (fun r => r.id == id && r.segmentKey.isNone)
        (fun r => { r with physicalNetwork := some uplink, vlan := vlan, segmentKey := some key })
        fun _ => rfl } :=
  (of_ensure_pure h).symm

theorem deleteGroups_ok {p : SecurityGroup → Bool} (h : db.deleteGroups p = .ok db') :
    db' = db.dropGroups p :=
  (of_ensure_pure h).symm

theorem insertProject_ok (h : db.insertProject name description = .ok db') : db' = { db with
      projects := db.projects.insert (fun id => ⟨id, name, description, false, none⟩)
        fun _ => rfl } :=
  (of_ensure_pure h).symm

theorem updateProject_ok (h : db.updateProject id name description = .ok db') : db' = { db with
      projects := db.projects.update (fun r => r.id == id)
        (fun r => { r with name := name, description := description }) fun _ => rfl } :=
  (of_ensure_pure h).symm

theorem deleteProject_ok (h : db.deleteProject id = .ok db') : db' = db.dropProject id := by
  obtain ⟨cleared, -, h⟩ := bind_eq_ok.mp h
  exact (of_ensure_pure h).symm

theorem setQuota_ok {limits : Quota.Limits} (h : db.setQuota id limits = .ok db') :
    ∃ t, db' = { db with quotas := t } ∧ ∀ q : ProjectQuota, q.project ≠ id →
      (q ∈ t ↔ q ∈ db.quotas) := by
  replace h := of_ensure h
  split at h
  · cases pure_eq_ok.mp h
    refine ⟨_, rfl, fun q hq => ?_⟩
    rw [mem_updateWhere]
    constructor
    · rintro ⟨r, hr, rfl⟩
      by_cases hp : (r.project == id) = true
      · rw [if_pos hp] at hq
        exact absurd (eq_of_beq hp) hq
      · rwa [if_neg hp]
    · intro hmem
      exact ⟨q, hmem, if_neg (by simpa using hq)⟩
  · cases pure_eq_ok.mp h
    refine ⟨_, rfl, fun q hq => ?_⟩
    rw [mem_append, mem_singleton]
    constructor
    · rintro (hmem | rfl)
      · exact hmem
      · exact absurd rfl hq
    · exact Or.inl

theorem mem_insertNew {α : Type} [DecidableEq α] {rows : List α} {r x : α} :
    x ∈ insertNew rows r ↔ x ∈ rows ∨ x = r := by
  unfold insertNew
  split
  · rename_i hmem
    constructor
    · exact Or.inl
    · rintro (h | rfl)
      · exact h
      · exact hmem
  · rw [mem_append, mem_singleton]

theorem mem_foldl_insertNew {x : UserRole} (roles : List Id) : ∀ rows : List UserRole,
      x ∈ roles.foldl (fun rows r => insertNew rows ⟨user, r, project⟩) rows ↔
        x ∈ rows ∨ ∃ r ∈ roles, x = ⟨user, r, project⟩ := by
  induction roles with
  | nil => simp
  | cons r roles ih =>
    intro rows
    rw [foldl_cons, ih, mem_insertNew, or_assoc]
    simp only [mem_cons, exists_eq_or_imp]

theorem setUserRoles_ok {roles : List Id}
    (h : db.setUserRoles user roles project = .ok db') : ∃ t, db' = { db with userRoles := t } ∧
      (∀ r ∈ t, r ∈ db.userRoles ∨ (r.user = user ∧ r.project = project ∧
        (db.roles.get r.role).isSome)) ∧ ∀ r ∈ db.userRoles, r.project ≠ project → r ∈ t := by
  obtain ⟨hroles, h⟩ := ensure_bind.mp h
  cases pure_eq_ok.mp h
  refine ⟨_, rfl, ?_, ?_⟩
  · intro r hr
    rcases (mem_foldl_insertNew roles _).mp hr with hold | ⟨role, hrole, rfl⟩
    · exact Or.inl (mem_deleteWhere.mp hold).1
    · exact Or.inr ⟨rfl, rfl, all_eq_true.mp hroles role hrole⟩
  · intro r hr hp
    refine (mem_foldl_insertNew roles _).mpr (Or.inl (mem_deleteWhere.mpr ⟨hr, ?_⟩))
    simp [hp]

theorem createRole_ok (h : db.createRole name description permissions = .ok db') :
    db' = { db with
      roles := db.roles.insert (fun id => ⟨id, name, description, false⟩) fun _ => rfl
      rolePermissions := db.rolePermissions ++ permissions.map fun p => ⟨db.roles.next, p⟩ } :=
  (of_ensure_pure (of_ensure h)).symm

theorem updateRolePermissions_ok
    (h : db.updateRolePermissions id description permissions = .ok db') :
    db' = { db with
      roles := db.roles.update (fun r => r.id == id) (fun r => { r with description := description })
        fun _ => rfl
      rolePermissions := deleteWhere (fun rp => rp.role == id) db.rolePermissions ++
        permissions.map fun p => ⟨id, p⟩ } :=
  (of_ensure_pure h).symm

theorem addGroupRole_ok {group : String} {role : Id}
    (h : db.addGroupRole group role project = .ok db') :
    db' = { db with groupRoles := insertNew db.groupRoles ⟨group, role, project⟩ } ∧
      (db.roles.get role).isSome = true :=
  ⟨(of_ensure_pure h).symm, (ensure_bind.mp h).1⟩

theorem insertStoragePool_ok {params : PoolParams}
    (h : db.insertStoragePool name description params = .ok db') :
    db' = { db with
      pools := db.pools.insert (fun id => ⟨id, name, description, params⟩) fun _ => rfl } :=
  (of_ensure_pure h).symm

theorem updateStoragePool_ok (h : db.updateStoragePool id name description = .ok db') :
    db' = { db with
      pools := db.pools.update (fun r => r.id == id)
        (fun r => { r with name := name, description := description }) fun _ => rfl } :=
  (of_ensure_pure h).symm

end Written

end Db

end VQuasar.Tenancy
