import VQuasar.Tenancy.Ipam

/-!
# The VM endpoints

`api/vms.rs`: the three ways to create a VM, editing one, moving a NIC, power, deletion and
migration.  `create` and `changeNic` check the networks and security groups the caller names;
`createFromTemplate`, `createFromVolume` and `update` put theirs into the spec unchecked.
-/

namespace VQuasar.Tenancy

/-! ## `pathsafe.rs` -/

def ensureWithin (path : HostPath) (roots : List HostPath) (what : String) :
    Except ApiError Unit := do
  ensure path.absolute (.invalid (what ++ " must be an absolute path"))
  ensure (path.components.all fun c => c != .curDir && c != .parentDir)
    (.invalid (what ++ " must not contain '.' or '..'"))
  ensure (roots.any path.startsWith)
    (.invalid (what ++ " must be under one of the permitted storage roots: " ++
      ", ".intercalate (roots.map HostPath.text)))

/-- The boot paths of `ensure_spec_within`. -/
def ensureBootWithin (boot : BootSpec) (roots : List HostPath) : Except ApiError Unit :=
  match boot with
  | .directKernel kernel initramfs _ => do
    ensureWithin kernel roots "boot.kernel"
    match initramfs with
    | some initramfs => ensureWithin initramfs roots "boot.initramfs"
    | none => .ok ()
  | .firmware firmware => ensureWithin firmware roots "boot.firmware"

/-- The loop of `ensure_spec_within`, from disk `i` on. -/
def ensureDisksWithin (roots : List HostPath) : List DiskSpec → Nat → Except ApiError Unit
  | [], _ => .ok ()
  | d :: ds, i => do
    ensureWithin d.path roots ("disks[" ++ toString i ++ "].path")
    ensureDisksWithin roots ds (i + 1)

variable (cfg : Config) (db : Db) (spec : VirtualMachineSpec) (vm : Id) (s : Scope) (u : AuthUser)
  (id : Id)

def ensureSpecWithin (roots : List HostPath) : Except ApiError Unit := do
  ensureBootWithin spec.boot roots
  ensureDisksWithin roots spec.disks 0

/-! ## `redact.rs` -/

def redacted : String := "__redacted__"

/-- `redact_cloud_init` -/
def CloudInitSpec.redact (ci : CloudInitSpec) : CloudInitSpec :=
  { ci with
    password := ci.password.map fun _ => redacted
    userData := ci.userData.map fun _ => redacted
    sshAuthorizedKeys := ci.sshAuthorizedKeys.map fun _ => redacted }

/-- `redact::vm` -/
def Vm.redact (vm : Vm) : Vm :=
  { vm with spec := { vm.spec with cloudInit := vm.spec.cloudInit.map CloudInitSpec.redact } }

/-- `redact::template` -/
def Template.redact (t : Template) : Template :=
  { t with cloudInit := t.cloudInit.map CloudInitSpec.redact }

/-- A submitted secret: the marker stands for what is stored. -/
def mergeSecret (submitted stored : Option String) : Option String :=
  if submitted = some redacted then stored else submitted

def mergeCloudInit (submitted stored : Option CloudInitSpec) : Option CloudInitSpec :=
  match submitted, stored with
  | none, _ => none
  | some s, none => some s
  | some s, some t =>
    some { s with
      password := mergeSecret s.password t.password
      userData := mergeSecret s.userData t.userData
      sshAuthorizedKeys :=
        if !s.sshAuthorizedKeys.isEmpty && s.sshAuthorizedKeys.all (· == redacted) then
          t.sshAuthorizedKeys
        else s.sshAuthorizedKeys }

/-! ## Requests and answers -/

structure Accepted where
  vm : Id
  task : Id
deriving DecidableEq, Repr

structure CreateVm where
  name : String
  spec : VirtualMachineSpec

structure TemplateOverrides where
  bootVcpus : Option Nat
  maxVcpus : Option Nat
  memoryMib : Option Nat
  memoryMaxMib : Option Nat
  diskSizeBytes : Option Nat
  network : Option Id
  securityGroups : List Id
  cloudInit : Option CloudInitSpec
  host : Option Id
  desiredPowerState : Option DesiredPowerState

structure CreateVmFromTemplate where
  name : String
  template : Id
  overrides : TemplateOverrides

structure CreateVmFromVolume where
  name : String
  volume : Id
  bootVcpus : Nat
  maxVcpus : Nat
  memoryMib : Nat
  network : Option Id
  securityGroups : List Id
  cloudInit : Option CloudInitSpec

structure GrowDisk where
  index : Nat
  sizeBytes : Nat

/-- Any `image_type` other than `raw` is `qcow2`. -/
structure AddDisk where
  sizeBytes : Nat
  imageType : Option Format

structure UpdateVm where
  name : Option String
  bootVcpus : Option Nat
  maxVcpus : Option Nat
  memoryMib : Option Nat
  memoryMaxMib : Option Nat
  growDisk : Option GrowDisk
  addDisk : Option AddDisk
  /-- the network of a new NIC -/
  addNic : Option Id

structure ChangeNic where
  network : Id
  securityGroups : Option (List Id)

structure MigrateRequest where
  targetHost : Id
  force : Bool

/-! ## Creating -/

def Db.defaultPool : Except ApiError (Id × HostPath) := do
  let pool ← orElse (db.getStoragePoolByName "default")
    (.internal "the default storage pool is missing")
  return (pool.id, pool.params.hostPath)

/-- A provisioned disk without a path is placed in the default pool; from disk `i` on. -/
def placeDisks (vm pool : Id) (dir : HostPath) : List DiskSpec → Nat → List DiskSpec
  | [], _ => []
  | d :: ds, i =>
    (if d.needsProvisioning && d.path.isEmpty then
      { d with path := dir.join (.vmDisk vm i d.imageType), pool := some pool }
    else d) :: placeDisks vm pool dir ds (i + 1)

/-- `StoragePolicyError::ZeroLimit`, after the field it names -/
def zeroLimit : String :=
  " must be greater than zero — omit it for no limit, rather than setting 0, " ++
    "which would stop the disk entirely"

/-- The policies of the disks, from disk `i` on. -/
def checkPolicies : List DiskSpec → Nat → Except ApiError Unit
  | [], _ => .ok ()
  | d :: ds, i => do
    match d.policy with
    | none => pure ()
    | some p =>
      match p.validate with
      | .ok () => pure ()
      | .error field =>
        .error (.invalid ("disks[" ++ toString i ++ "].policy: " ++ field ++ zeroLimit))
    checkPolicies ds (i + 1)

/-- The pools the disks name, from disk `i` on. -/
def checkPools (db : Db) : List DiskSpec → Nat → Except ApiError Unit
  | [], _ => .ok ()
  | d :: ds, i => do
    ensure (d.pool.all fun p => (db.pools.get p).isSome)
      (.invalid ("disks[" ++ toString i ++ "].pool names a storage pool that does not exist"))
    checkPools db ds (i + 1)

/-- The networks and security groups the NICs name are in scope. -/
def checkNics (db : Db) (s : Scope) : List NetworkInterfaceSpec → Except ApiError Unit
  | [] => .ok ()
  | nic :: nics => do
    ensure (db.networkVisible s nic.networkId) (.resourceNotFound "network")
    ensure (db.securityGroupsInScope s nic.securityGroups) (.resourceNotFound "security group")
    checkNics db s nics

/-- `insert_vm_with_id` and `allocate_nic_ips`; the row goes again when an address cannot be
allocated. -/
def launch (name : String) (spec : VirtualMachineSpec) (project : Id) : Outcome Id :=
  let id := db.vms.next
  attempt db (db.insertVmWithId name spec project (cfg.phoneHomeToken id)) fun db =>
    match allocateNicIps db id spec.networkInterfaces 0 with
    | (db, .error e) => (db.deleteVmRow id, .error e)
    | (db, .ok ()) => (db, .ok id)

/-- The task and the event every accepted request about a VM leaves. -/
def accept (name taskType eventType : String) : Outcome Accepted :=
  ((db.insertTask taskType (some vm)).insertEvent .vm (some vm) eventType "info" name,
    .ok ⟨vm, db.tasks.next⟩)

/-- The task of a request that leaves no event. -/
def acceptTask (taskType : String) : Outcome Accepted :=
  (db.insertTask taskType (some vm), .ok ⟨vm, db.tasks.next⟩)

/-- The checks of `create`, with the spec that is stored. -/
def createSpec (body : CreateVm) : Except ApiError VirtualMachineSpec := do
  u.require .vmCreate
  let (pool, dir) ← db.defaultPool
  let spec := { body.spec with disks := placeDisks db.vms.next pool dir body.spec.disks 0 }
  checkPolicies spec.disks 0
  checkPools db spec.disks 0
  spec.validate
  checkNics db s spec.networkInterfaces
  ensureSpecWithin spec cfg.allowedPaths
  return spec

theorem createSpec_ok {cfg : Config} {db : Db} {s : Scope} {u : AuthUser} {body : CreateVm}
    {spec : VirtualMachineSpec} (h : createSpec cfg db s u body = .ok spec) :
    ∃ pool dir, db.defaultPool = .ok (pool, dir) ∧
      spec = { body.spec with disks := placeDisks db.vms.next pool dir body.spec.disks 0 } ∧
      spec.validate = .ok () ∧ checkNics db s spec.networkInterfaces = .ok () ∧
      ensureSpecWithin spec cfg.allowedPaths = .ok () := by
  replace h := of_ensure h
  obtain ⟨⟨pool, dir⟩, hpool, h⟩ := bind_eq_ok.mp h
  obtain ⟨-, -, h⟩ := bind_eq_ok.mp h
  obtain ⟨-, -, h⟩ := bind_eq_ok.mp h
  obtain ⟨⟨⟩, hvalid, h⟩ := bind_eq_ok.mp h
  obtain ⟨⟨⟩, hnics, h⟩ := bind_eq_ok.mp h
  obtain ⟨⟨⟩, hwithin, ⟨⟩⟩ := of_bind_pure h
  exact ⟨pool, dir, hpool, rfl, hvalid, hnics, hwithin⟩

def createVm (body : CreateVm) : Outcome Accepted :=
  attempt db (createSpec cfg db s u body) fun spec =>
    match launch cfg db body.name spec s.owningProject with
    | (db, .error e) => (db, .error e)
    | (db, .ok id) => accept db id body.name "vm.create" "vm.created"

/-- The one NIC of a VM created on a network, or none. -/
def oneNic (network : Option Id) (groups : List Id) : List NetworkInterfaceSpec :=
  match network with
  | some n => [⟨n, none, [], groups⟩]
  | none => []

/-- The cloud-init block of a VM created from a template. -/
def templateCloudInit (name : String) (t : Template) (image : Image) (ov : TemplateOverrides) :
    Option CloudInitSpec :=
  if image.cloudInit || ov.cloudInit.isSome then
    let ci := (ov.cloudInit.orElse fun _ => t.cloudInit).getD ⟨none, [], none, none⟩
    some { ci with hostname := some (ci.hostname.getD name) }
  else none

def buildSpecFromTemplate (name : String) (t : Template) (image : Image)
    (ov : TemplateOverrides) (dir : HostPath) (pool : Id) : VirtualMachineSpec where
  desiredPowerState := ov.desiredPowerState.getD .running
  cpu := ⟨ov.bootVcpus.getD (asU32 t.bootVcpus), ov.maxVcpus.getD (asU32 t.maxVcpus)⟩
  memory := ⟨ov.memoryMib.getD (asU64 t.memoryMib), ov.memoryMaxMib⟩
  boot := image.boot
  disks := [{
    path := dir.join (.vmRoot vm t.diskFormat)
    readonly := false
    imageType := t.diskFormat
    source := some image.sourcePath
    sizeBytes := ov.diskSizeBytes.orElse fun _ => (t.diskSizeBytes.map asU64).orElse fun _ =>
      image.defaultSizeBytes.map asU64
    pool := some pool
    policy := none
    pinnedHost := none }]
  networkInterfaces := oneNic (ov.network.orElse fun _ => t.network) ov.securityGroups
  placement := ov.host
  cloudInit := templateCloudInit name t image ov
  machineType := t.machineType

/-- The checks of `create_from_template`, with the spec that is stored. -/
def templateSpec (body : CreateVmFromTemplate) : Except ApiError VirtualMachineSpec := do
  u.require .vmCreate
  ensure (!body.name.isEmpty) (.invalid "name is required")
  ensure (db.templateInScope s body.template) (.resourceNotFound "template")
  let t ← orElse (db.templates.get body.template)
    (.invalid ("template not found: " ++ toString body.template))
  let image ← orElse (db.images.get t.image) (.invalid ("image not found: " ++ toString t.image))
  ensure (image.status == .ready)
    (.invalid ("image is not ready (status: " ++ image.status.text ++ ")"))
  let (pool, dir) ← db.defaultPool
  let spec := buildSpecFromTemplate db.vms.next body.name t image body.overrides dir pool
  spec.validate
  return spec

theorem templateSpec_ok {db : Db} {s : Scope} {u : AuthUser} {spec : VirtualMachineSpec}
    {body : CreateVmFromTemplate} (h : templateSpec db s u body = .ok spec) : ∃
    t image pool dir, db.templateInScope s body.template ∧ db.templates.get body.template =
    some t ∧ db.images.get t.image = some image ∧ db.defaultPool = .ok (pool, dir) ∧ spec =
    buildSpecFromTemplate db.vms.next body.name t image body.overrides dir pool := by
  replace h := of_ensure h
  replace h := of_ensure h
  obtain ⟨hscope, h⟩ := ensure_bind.mp h
  obtain ⟨t, ht, h⟩ := orElse_bind.mp h
  obtain ⟨image, himage, h⟩ := orElse_bind.mp h
  replace h := of_ensure h
  obtain ⟨⟨pool, dir⟩, hpool, h⟩ := bind_eq_ok.mp h
  obtain ⟨-, -, h⟩ := bind_eq_ok.mp h
  exact ⟨t, image, pool, dir, hscope, ht, himage, hpool, (pure_eq_ok.mp h).symm⟩

def createFromTemplate (body : CreateVmFromTemplate) : Outcome Accepted :=
  attempt db (templateSpec db s u body) fun spec =>
    match launch cfg db body.name spec s.owningProject with
    | (db, .error e) => (db, .error e)
    | (db, .ok id) => accept db id body.name "vm.create" "vm.created"

def volumePath (dir : HostPath) (id : Id) (format : Format) : HostPath := dir.join (.volume id format)

def Db.fileOf (cfg : Config) (v : Volume) : HostPath :=
  volumePath (db.volumeDir cfg.sharedVolumesDir v) v.id v.format

/-- The disk that attaches a volume; its file is used as it is. -/
def Db.volumeDisk (cfg : Config) (v : Volume) : DiskSpec where
  path := db.fileOf cfg v
  readonly := false
  imageType := v.format
  source := none
  sizeBytes := none
  pool := v.pool
  policy := v.policy
  pinnedHost := v.host

/-- The checks of `create_from_volume`, with the volume and the spec that is stored. -/
def volumeSpec (body : CreateVmFromVolume) : Except ApiError (Volume × VirtualMachineSpec) := do
  u.require .vmCreate
  ensure (!body.name.isEmpty) (.invalid "name is required")
  let vol ← orElse (db.getVolume s body.volume)
    (.invalid ("volume not found: " ++ toString body.volume))
  let imageId ← orElse vol.sourceImage
    (.invalid "volume is not bootable (not cloned from an image)")
  ensure vol.attachedVm.isNone (.invalid "volume is already attached")
  let image ← orElse (db.visibleImage s imageId) (.resourceNotFound "image")
  let spec : VirtualMachineSpec :=
    { desiredPowerState := .running
      cpu := ⟨body.bootVcpus, max body.maxVcpus body.bootVcpus⟩
      memory := ⟨body.memoryMib, none⟩
      boot := image.boot
      disks := [db.volumeDisk cfg vol]
      networkInterfaces := oneNic body.network body.securityGroups
      placement := none
      cloudInit := body.cloudInit
      machineType := .standard }
  spec.validate
  return (vol, spec)

theorem volumeSpec_ok {cfg : Config} {db : Db} {s : Scope} {u : AuthUser}
    {spec : VirtualMachineSpec} {v : Volume} {body : CreateVmFromVolume} (h : volumeSpec cfg db s u body = .ok
    (v, spec)) : ∃ imageId image, db.getVolume s body.volume = some v ∧ db.visibleImage s imageId =
    some image ∧ spec.boot = image.boot ∧ spec.disks = [db.volumeDisk cfg v] ∧
    spec.networkInterfaces = oneNic body.network body.securityGroups := by
  replace h := of_ensure h
  replace h := of_ensure h
  obtain ⟨v', hv, h⟩ := orElse_bind.mp h
  obtain ⟨imageId, -, h⟩ := orElse_bind.mp h
  replace h := of_ensure h
  obtain ⟨image, himage, h⟩ := orElse_bind.mp h
  obtain ⟨-, -, ⟨⟩⟩ := of_bind_pure h
  exact ⟨imageId, image, hv, himage, rfl, rfl, rfl⟩

def createFromVolume (body : CreateVmFromVolume) : Outcome Accepted :=
  attempt db (volumeSpec cfg db s u body) fun r =>
    match launch cfg db body.name r.2 s.owningProject with
    | (db, .error e) => (db, .error e)
    | (db, .ok id) =>
      accept (db.setVolumeAttachment r.1.id (some id) (some 0)) id body.name "vm.create" "vm.created"

/-! ## Editing -/

def growDisk (disks : List DiskSpec) (g : GrowDisk) : Except ApiError (List DiskSpec) := do
  let d ← orElse disks[g.index]? (.invalid "disk index out of range")
  ensure (d.sizeBytes.getD 0 ≤ g.sizeBytes) (.invalid "disks can only grow")
  return disks.set g.index { d with sizeBytes := some g.sizeBytes }

/-- The disk `add_disk` appends. -/
def addedDisk (n : Nat) (a : AddDisk) (pool : Id) (dir : HostPath) : DiskSpec :=
  let imageType := if a.imageType = some .raw then .raw else .qcow2
  { path := dir.join (.vmAdded vm n imageType)
    readonly := false
    imageType := imageType
    source := none
    sizeBytes := some a.sizeBytes
    pool := some pool
    policy := none
    pinnedHost := none }

/-- The disks of the edited spec. -/
def updateDisks (disks : List DiskSpec) (body : UpdateVm) : Except ApiError (List DiskSpec) := do
  let disks ← match body.growDisk with
    | some g => growDisk disks g
    | none => pure disks
  match body.addDisk with
  | none => return disks
  | some a => do
    let (pool, dir) ← db.defaultPool
    return disks ++ [addedDisk vm disks.length a pool dir]

/-- The NICs of the edited spec: a new one is on the network the caller names. -/
def updateNics (nics : List NetworkInterfaceSpec) (body : UpdateVm) : List NetworkInterfaceSpec :=
  nics ++ oneNic body.addNic []

/-- The spec `update` stores. -/
def updateSpec (vm : Vm) (body : UpdateVm) : Except ApiError VirtualMachineSpec := do
  let disks ← updateDisks db vm.id vm.spec.disks body
  let spec := { vm.spec with
    cpu := ⟨body.bootVcpus.getD vm.spec.cpu.bootVcpus, body.maxVcpus.getD vm.spec.cpu.maxVcpus⟩
    memory := ⟨body.memoryMib.getD vm.spec.memory.sizeMib,
      body.memoryMaxMib.orElse fun _ => vm.spec.memory.maxSizeMib⟩
    disks := disks
    networkInterfaces := updateNics vm.spec.networkInterfaces body }
  spec.validate
  return spec

def updateVm (body : UpdateVm) : Outcome Accepted :=
  let r : Except ApiError (Vm × Db) := do
    u.require .vmUpdate
    let vm ← orElse (db.getVm s id) (.vmNotFound id)
    let spec ← updateSpec db vm body
    let written ← db.writeSpec id body.name spec
    orElse written (.invalid ("vm not found: " ++ toString id))
  attempt db r fun w => accept w.2 w.1.id w.1.name "vm.update" "vm.updated"

/-- The NIC after `change_nic`: its static addresses belonged to the old network. -/
def retarget (body : ChangeNic) (nic : NetworkInterfaceSpec) : NetworkInterfaceSpec :=
  { nic with
    networkId := body.network
    addresses := []
    securityGroups := body.securityGroups.getD nic.securityGroups }

/-- The checks of `change_nic`, with the spec it will store and the NIC it moves. -/
def changeNicSpec (index : Nat) (body : ChangeNic) :
    Except ApiError (VirtualMachineSpec × NetworkInterfaceSpec) := do
  u.require .vmUpdate
  ensure (db.networkVisible s body.network) (.resourceNotFound "network")
  ensure (body.securityGroups.all (db.securityGroupsInScope s)) (.resourceNotFound "security group")
  let vm ← orElse (db.getVm s id) (.vmNotFound id)
  let nic ← orElse vm.spec.networkInterfaces[index]?
    (.invalid ("nic index " ++ toString index ++ " out of range"))
  -- the network is visible, so it is there
  let _ ← orElse (db.networks.get body.network)
    (.invalid ("network not found: " ++ toString body.network))
  let spec := { vm.spec with
    networkInterfaces := vm.spec.networkInterfaces.set index (retarget body nic) }
  spec.validate
  return (spec, retarget body nic)

theorem changeNicSpec_ok {db : Db} {s : Scope} {u : AuthUser} {id : Id} {index : Nat}
    {body : ChangeNic} {spec : VirtualMachineSpec} {moved : NetworkInterfaceSpec}
    (h : changeNicSpec db s u id index body = .ok (spec, moved)) :
    ∃ vm nic, db.getVm s id = some vm ∧ db.networkVisible s body.network ∧
      body.securityGroups.all (db.securityGroupsInScope s) ∧
      vm.spec.networkInterfaces[index]? = some nic ∧ (db.networks.get body.network).isSome ∧
      spec = { vm.spec with
        networkInterfaces := vm.spec.networkInterfaces.set index (retarget body nic) } ∧
      spec.validate = .ok () ∧ moved = retarget body nic := by
  replace h := of_ensure h
  obtain ⟨hnet, h⟩ := ensure_bind.mp h
  obtain ⟨hgroups, h⟩ := ensure_bind.mp h
  obtain ⟨vm, hvm, h⟩ := orElse_bind.mp h
  obtain ⟨nic, hnic, h⟩ := orElse_bind.mp h
  obtain ⟨n, hn, h⟩ := orElse_bind.mp h
  obtain ⟨⟨⟩, hvalid, ⟨⟩⟩ := of_bind_pure h
  exact ⟨vm, nic, hvm, hnet, hgroups, hnic, Option.isSome_of_eq_some hn, rfl, hvalid, rfl⟩

/-- `change_nic`: the old addresses are released before the new ones are allocated, and only then
is the spec written. -/
def changeNic (index : Nat) (body : ChangeNic) : Outcome Accepted :=
  attempt db (changeNicSpec db s u id index body) fun r =>
    match allocateOneNic (db.releaseNicAllocations id index) id r.2 index with
    | (db, .error e) => (db, .error e)
    | (db, .ok ()) =>
      let written : Except ApiError (Vm × Db) := do
        let w ← db.setVmSpec id r.1
        orElse w (.invalid ("vm not found: " ++ toString id))
      attempt db written fun w => accept w.2 w.1.id w.1.name "vm.nic.change" "vm.nic.changed"

def setPower (power : DesiredPowerState) (taskType : String) : Outcome Accepted :=
  let r : Except ApiError Db := do
    u.require .vmPower
    let vm ← orElse (db.getVm s id) (.vmNotFound id)
    let written ← db.setVmSpec id { vm.spec with desiredPowerState := power }
    return (written.map Prod.snd).getD db
  attempt db r fun db => acceptTask db id taskType

def startVm : Outcome Accepted :=
  setPower db s u id .running "vm.start"

def stopVm : Outcome Accepted :=
  setPower db s u id .stopped "vm.stop"

/-- `delete`: the row goes when the reconcile loop has torn the VM down. -/
def deleteVm : Outcome Accepted :=
  let r : Except ApiError Vm := do
    u.require .vmDelete
    orElse (db.getVm s id) (.vmNotFound id)
  attempt db r fun vm => acceptTask (db.setVmPhase id .deleting) vm.id "vm.delete"

/-! ## Migrating -/

inductive CpuCompat
  | compatible
  | vendorMismatch (source target : String)
  | missingFeatures (features : List String)
  | unknown
deriving DecidableEq, Repr

def CpuCompat.reason : CpuCompat → String
  | .compatible => "CPU-compatible"
  | .vendorMismatch source target =>
    "CPU vendor mismatch: source is " ++ source ++ ", target is " ++ target
  | .missingFeatures f => "target CPU is missing features the guest may use: " ++ ", ".intercalate f
  | .unknown => "CPU features for the source or target host are not known yet"

/-- Whether `migrate` goes on without `force`. -/
def CpuCompat.permitted (c : CpuCompat) : Bool := c == .compatible || c == .unknown

/-- `cpucompat::check` -/
def cpuCompat (source target : Host) : CpuCompat :=
  match source.cpuVendor, target.cpuVendor with
  | some sv, some tv =>
    if sv ≠ tv then .vendorMismatch sv tv
    else if source.cpuFeatures.isEmpty || target.cpuFeatures.isEmpty then .unknown
    else
      let missing := source.cpuFeatures.filter fun f => !target.cpuFeatures.contains f
      if missing.isEmpty then .compatible
      else .missingFeatures (missing.insertionSort (· ≤ ·))
  | _, _ => .unknown

def requiredPools : List Id := spec.disks.filterMap DiskSpec.pool

/-- The first pool the spec needs that is local to a host (`local_pool_ids`). -/
def Db.localPool : Option StoragePool :=
  ((requiredPools spec).filterMap db.pools.get).find? fun p => !p.params.isShared

/-- A disk on local storage cannot arrive anywhere. -/
def checkLocalPool : Option StoragePool → Except ApiError Unit
  | none => .ok ()
  | some pool => .error (.invalid ("this VM has a disk in storage pool " ++ quoted pool.name ++
      ", which is local to its host. " ++
      "Another host cannot see those bytes, so a live migration would start the " ++
      "guest on an empty disk."))

/-- `pools_by_host` -/
def Db.reports (host pool : Id) : Bool :=
  db.poolReports.any fun r => r.host == host && r.pool == pool

/-- The checks of `migrate`, with the VM, its host and the verdict on the CPUs. -/
def migrateChecks (body : MigrateRequest) : Except ApiError (Vm × Id × CpuCompat) := do
  u.require .vmMigrate
  let vm ← orElse (db.getVm s id) (.vmNotFound id)
  ensure (vm.phase == .running) (.invalid "only a running VM can be migrated")
  let sourceId ← orElse vm.host (.invalid "VM is not placed on a host")
  ensure (sourceId != body.targetHost) (.invalid "target host is the VM's current host")
  let target ← orElse (db.hosts.get body.targetHost) (.hostNotFound body.targetHost)
  ensure (target.ready && target.schedulable) (.invalid "target host is not Ready/schedulable")
  ensure (db.activeMigrationForVm id).isNone
    (.invalid "a migration is already in progress for this VM")
  ensure (vm.spec.placement.all (· == body.targetHost))
    (.invalid ("this VM is pinned to a host by its placement; change the placement before " ++
      "migrating it"))
  checkLocalPool (db.localPool vm.spec)
  ensure ((requiredPools vm.spec).all (db.reports target.id))
    (.invalid "target host does not report the storage pool this VM's disks are in")
  let source ← orElse (db.hosts.get sourceId) (.invalid "VM's source host is not registered")
  let compat := cpuCompat source target
  ensure (compat.permitted || body.force)
    (.invalid ("target host " ++ target.name ++ " is not CPU-compatible with source host " ++
      source.name ++ ": " ++ compat.reason ++ ". " ++
      "Migrating anyway may crash the guest; retry with force=true to override."))
  return (vm, sourceId, compat)

/-- The event `migrate` leaves when the CPUs are not known to be compatible. -/
def compatEvent (c : CpuCompat) : Db :=
  match c with
  | .compatible => db
  | .unknown => db.insertEvent .vm (some vm) "migration.cpu_unverified" "warning" c.reason
  | _ =>
    db.insertEvent .vm (some vm) "migration.cpu_override" "warning"
      ("forced despite incompatibility: " ++ c.reason)

/-- Recording a migration: task, migration, phase and event. -/
def requestMigration (vm : Vm) (source target : Id) : Db :=
  let task := db.tasks.next
  let db := db.insertTask "vm.migrate" (some vm.id)
  let db := db.insertMigration vm.id (some source) target task
  let db := db.setVmPhase vm.id .migrating
  db.insertEvent .vm (some vm.id) "migration.requested" "info" vm.name

def migrateVm (body : MigrateRequest) : Outcome Accepted :=
  attempt db (migrateChecks db s u id body) fun r =>
    (requestMigration (compatEvent db r.1.id r.2.2) r.1 r.2.1 body.targetHost,
      .ok ⟨id, db.tasks.next⟩)

/-! ## Reading -/

def listVms : Except ApiError (List Vm) := do
  u.require .vmRead
  return (db.vms.rows.filter fun r => s.owns r.project).map Vm.redact

def readVm : Except ApiError Vm := do
  u.require .vmRead
  let vm ← orElse (db.getVm s id) (.vmNotFound id)
  return vm.redact

/-- `metrics`: the host whose agent is asked; without one the sample is the default. -/
def metricsHost : Except ApiError (Option Host) := do
  u.require .vmRead
  let vm ← orElse (db.getVm s id) (.vmNotFound id)
  return vm.host.bind db.hosts.get

structure MigrationTarget where
  host : Id
  hostName : String
  eligible : Bool
  reason : Option String
  forceable : Bool
  cpu : String
deriving DecidableEq, Repr

/-- The verdict on the CPUs when the source host may be unknown. -/
def cpuCompatFrom (source : Option Host) (target : Host) : CpuCompat :=
  match source with
  | some source => cpuCompat source target
  | none => .unknown

/-- What keeps the VM from a host whatever its CPU, the most fundamental obstacle first. -/
def Db.hardObstacle (vm : Vm) (host : Host) : Option String :=
  if !host.ready || !host.schedulable then some "host is not Ready and schedulable"
  else
    match db.localPool vm.spec with
    | some pool =>
      some ("this VM has a disk in storage pool " ++ quoted pool.name ++
        ", which is local to its host")
    | none =>
      if vm.spec.placement.any (· != host.id) then
        some "this VM is pinned to another host by its placement"
      else if !(requiredPools vm.spec).all (db.reports host.id) then
        some "does not report the storage pool this VM's disks are in"
      else none

/-- One row of `migration_targets`. -/
def Db.migrationTarget (vm : Vm) (host : Host) : MigrationTarget :=
  let cpu := cpuCompatFrom (vm.host.bind db.hosts.get) host
  let hard := db.hardObstacle vm host
  { host := host.id
    hostName := host.name
    eligible := hard.isNone && cpu.permitted
    reason := hard.orElse fun _ => if cpu.permitted then none else some cpu.reason
    forceable := hard.isNone && !cpu.permitted
    cpu := cpu.reason }

def migrationTargets : Except ApiError (List MigrationTarget) := do
  u.require .vmMigrate
  let vm ← orElse (db.getVm s id) (.vmNotFound id)
  return (db.hosts.rows.filter fun h => vm.host != some h.id).map (db.migrationTarget vm)

/-- `tasks::list`, the last one first -/
def listTasks : Except ApiError (List Task) := do
  u.require .vmRead
  return (db.tasks.rows.filter fun r => s.ownsShareable r.project).reverse

/-- `tasks::get` -/
def readTask : Except ApiError Task := do
  u.require .vmRead
  orElse (db.getTask s id) (.taskNotFound id)

/-- `events::list`, the last one first -/
def listEvents (limit : Int) : Except ApiError (List Event) := do
  u.require .vmRead
  return (db.events.filter fun r => s.ownsShareable r.project).reverse.take
    (min (max limit 1) 1000).toNat

/-! ## Guests -/

/-- `phone_home`: whoever knows the secret of a VM may report its address. -/
def phoneHome (token : Option Nat) (ip : String) : Db :=
  match db.vms.get id with
  | some vm =>
    if vm.phoneHomeToken.isSome && vm.phoneHomeToken == token then
      (db.setVmIp id ip).insertEvent .vm (some id) "vm.phone_home" "info" ip
    else db
  | none => db

end VQuasar.Tenancy
