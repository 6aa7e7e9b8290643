import VQuasar.Lib.IdTable
import VQuasar.Quota.Admission

/-!
# The tables of the control plane

Specs, rows and the database the API handlers work on (`crates/model`, `migrations/`,
`store.rs`).  Every row that belongs to a project names it; `none` in the shareable catalogues
(images, networks) means platform-shared.  Columns that only record a time are left out, and a
list of rows is in the order of creation.

A text field of a request is modelled by what it parses to (`Text`), and the name of a file by
what the platform reads in it (`FileName`).
-/

namespace VQuasar.Tenancy

/-- A UUID; tables hand them out in order. -/
abbrev Id := Nat

def defaultProjectId : Id := 1

/-- A text field: the value it parses to, or the text when it does not parse. -/
abbrev Text (α : Type) := Except String α

def asU32 (v : Int) : Nat := (v % 2 ^ 32).toNat

def asU64 (v : Int) : Nat := (v % 2 ^ 64).toNat

def trim (s : String) : String :=
  String.ofList
    ((s.toList.dropWhile Char.isWhitespace).reverse.dropWhile Char.isWhitespace).reverse

/-- `{:?}` of a text -/
def quoted (s : String) : String := "\"" ++ s ++ "\""

/-! ## Errors -/

/-- `ApiError`: the status it is rendered with, and its message. -/
inductive ApiError
  | unauthorized (message : String)
  | forbidden (permission : String)
  | notFound (message : String)
  | invalid (message : String)
  | quotaExceeded (message : String)
  | internal (message : String)
deriving DecidableEq, Repr

namespace ApiError

def resourceNotFound (kind : String) : ApiError := .notFound (kind ++ " not found")

def vmNotFound (id : Id) : ApiError := .notFound ("virtual machine not found: " ++ toString id)

def hostNotFound (id : Id) : ApiError := .notFound ("host not found: " ++ toString id)

def taskNotFound (id : Id) : ApiError := .notFound ("task not found: " ++ toString id)

/-- `From<sqlx::Error>` -/
def database : ApiError := .internal "database error"

end ApiError

/-- A check that refuses with an error. -/
def ensure (ok : Bool) (e : ApiError) : Except ApiError Unit := if ok then .ok () else .error e

/-- `Option::ok_or` -/
def orElse {α : Type} (o : Option α) (e : ApiError) : Except ApiError α :=
  match o with
  | some a => .ok a
  | none => .error e

variable {α β : Type} {e : ApiError}
  {f : α → Except ApiError β} {b : β} {ok : Bool} {o : Option α} {a : α} {db : Db} {motive : Db → Prop}

theorem error_bind (e : ApiError) (f : α → Except ApiError β) :
    ((.error e : Except ApiError α) >>= f) = .error e := rfl

theorem ok_bind (a : α) (f : α → Except ApiError β) :
    ((.ok a : Except ApiError α) >>= f) = f a := rfl

/-- Peeling one step off a handler that has succeeded. -/
theorem bind_eq_ok {x : Except ApiError α} : x >>= f = .ok b ↔ ∃ a, x = .ok a ∧ f a = .ok b := by
  cases x with
  | error e => exact ⟨fun h => (by cases h), fun ⟨_, h, _⟩ => (by cases h)⟩
  | ok a =>
  constructor
  · intro h
    exact ⟨a, rfl, h⟩
  · rintro ⟨a', ha, h⟩
    cases ha
    exact h

theorem ensure_eq_ok {u : Unit} : ensure ok e = .ok u ↔ ok := by
  cases ok <;> simp [ensure]

theorem orElse_eq_ok : orElse o e = .ok a ↔ o = some a := by
  cases o <;> simp [orElse]

/-- A check that was passed, and the rest of the handler. -/
theorem ensure_bind {f : Unit → Except ApiError β} :
    (ensure ok e >>= f) = .ok b ↔ ok ∧ f () = .ok b := by
  rw [bind_eq_ok]
  constructor
  · rintro ⟨_, hok, h⟩
    exact ⟨ensure_eq_ok.mp hok, h⟩
  · rintro ⟨hok, h⟩
    exact ⟨(), ensure_eq_ok.mpr hok, h⟩

theorem of_ensure {f : Unit → Except ApiError β} (h : (ensure ok e >>= f) = .ok b) : f () = .ok b :=
  (ensure_bind.mp h).2

/-- A row that was found, and the rest of the handler. -/
theorem orElse_bind : (orElse o e >>= f) = .ok b ↔ ∃ a, o = some a ∧ f a = .ok b := by
  simp only [bind_eq_ok, orElse_eq_ok]

theorem pure_eq_ok {b : α} : (pure a : Except ApiError α) = .ok b ↔ a = b :=
  ⟨fun h => by cases h; rfl, fun h => by rw [h]; rfl⟩

section

variable {f : α → β} {b c : β}

theorem of_bind_pure {x : Except ApiError α} (h : (x >>= fun a => pure (f a)) = .ok b) :
    ∃ a, x = .ok a ∧ f a = b := by
  obtain ⟨a, ha, h⟩ := bind_eq_ok.mp h
  exact ⟨a, ha, pure_eq_ok.mp h⟩

theorem of_orElse_pure {o : Option α} (h : (orElse o e >>= fun a => pure (f a)) = .ok b) :
    ∃ a, o = some a ∧ f a = b := by
  obtain ⟨a, ha, h⟩ := orElse_bind.mp h
  exact ⟨a, ha, pure_eq_ok.mp h⟩

theorem of_ensure_pure {ok : Bool} (h : (ensure ok e >>= fun _ => pure c) = .ok b) : c = b :=
  pure_eq_ok.mp (of_ensure h)

end

/-! ## Paths -/

/-- `DiskImageType`, and the format of an image or a volume. -/
inductive Format
  | raw | qcow2
deriving DecidableEq, Repr

/-- A file name: one of those the platform generates, or any other. -/
inductive FileName
  /-- `vol-{id}.{ext}` -/
  | volume (id : Id) (ext : Format)
  /-- `{vm}-disk{i}.{ext}` -/
  | vmDisk (vm : Id) (i : Nat) (ext : Format)
  /-- `{vm}.{ext}` -/
  | vmRoot (vm : Id) (ext : Format)
  /-- `{vm}-d{n}.{ext}` -/
  | vmAdded (vm : Id) (n : Nat) (ext : Format)
  /-- `img-{id}.{ext}` -/
  | image (id : Id) (ext : Format)
  | named (name : String)
deriving DecidableEq, Repr

def Format.ext : Format → String
  | .raw => "raw"
  | .qcow2 => "qcow2"

def FileName.text : FileName → String
  | .volume id ext => "vol-" ++ toString id ++ "." ++ ext.ext
  | .vmDisk vm i ext => toString vm ++ "-disk" ++ toString i ++ "." ++ ext.ext
  | .vmRoot vm ext => toString vm ++ "." ++ ext.ext
  | .vmAdded vm n ext => toString vm ++ "-d" ++ toString n ++ "." ++ ext.ext
  | .image id ext => "img-" ++ toString id ++ "." ++ ext.ext
  | .named name => name

inductive Component
  | normal (name : FileName) | curDir | parentDir
deriving DecidableEq, Repr

/-- A path, as `components` reads it. -/
structure HostPath where
  absolute : Bool
  components : List Component
deriving DecidableEq, Repr

def Component.text : Component → String
  | .normal name => name.text
  | .curDir => "."
  | .parentDir => ".."

def HostPath.text (p : HostPath) : String :=
  (if p.absolute then "/" else "") ++ "/".intercalate (p.components.map Component.text)

def HostPath.isEmpty (p : HostPath) : Bool := !p.absolute && p.components.isEmpty

def HostPath.join (dir : HostPath) (name : FileName) : HostPath :=
  { dir with components := dir.components ++ [.normal name] }

/-- `Path::starts_with`: whole components. -/
def HostPath.startsWith (p root : HostPath) : Bool :=
  p.absolute == root.absolute && root.components.isPrefixOf p.components

/-! ## Addresses -/

structure IpAddr where
  v6 : Bool
  value : Nat
deriving DecidableEq, Repr

/-- Addresses are shown by their value. -/
def IpAddr.text (a : IpAddr) : String := toString a.value

/-- `IpNet`, by its first and last address. -/
structure IpNet where
  v6 : Bool
  network : Nat
  broadcast : Nat
deriving DecidableEq, Repr

/-! ## VM specs -/

inductive DesiredPowerState
  | running | stopped
deriving DecidableEq, Repr

inductive MachineType
  | standard | microVm
deriving DecidableEq, Repr

structure CpuSpec where
  bootVcpus : Nat
  maxVcpus : Nat
deriving DecidableEq, Repr

structure MemorySpec where
  sizeMib : Nat
  maxSizeMib : Option Nat
deriving DecidableEq, Repr

inductive BootSpec
  | directKernel (kernel : HostPath) (initramfs : Option HostPath) (cmdline : Option String)
  | firmware (firmware : HostPath)
deriving DecidableEq, Repr

inductive DiskCache
  | writeback | direct
deriving DecidableEq, Repr

inductive Allocation
  | thin | thick
deriving DecidableEq, Repr

structure StoragePolicy where
  cache : DiskCache
  allocation : Allocation
  bandwidthBytesPerSec : Option Nat
  iops : Option Nat
deriving DecidableEq, Repr

structure DiskSpec where
  path : HostPath
  readonly : Bool
  imageType : Format
  source : Option HostPath
  sizeBytes : Option Nat
  pool : Option Id
  policy : Option StoragePolicy
  pinnedHost : Option Id
deriving DecidableEq, Repr

def DiskSpec.needsProvisioning (d : DiskSpec) : Bool := d.source.isSome || d.sizeBytes.isSome

structure NetworkInterfaceSpec where
  networkId : Id
  mac : Option String
  addresses : List (Text IpAddr)
  securityGroups : List Id
deriving DecidableEq, Repr

structure CloudInitSpec where
  hostname : Option String
  sshAuthorizedKeys : List String
  password : Option String
  userData : Option String
deriving DecidableEq, Repr

structure VirtualMachineSpec where
  desiredPowerState : DesiredPowerState
  cpu : CpuSpec
  memory : MemorySpec
  boot : BootSpec
  disks : List DiskSpec
  networkInterfaces : List NetworkInterfaceSpec
  /-- `placement.host` -/
  placement : Option Id
  cloudInit : Option CloudInitSpec
  machineType : MachineType
deriving DecidableEq, Repr

/-! ### `validate` -/

/-- `StoragePolicy::validate`, with the field it refuses -/
def StoragePolicy.validate (p : StoragePolicy) : Except String Unit :=
  if p.bandwidthBytesPerSec = some 0 then .error "bandwidth_bytes_per_sec"
  else if p.iops = some 0 then .error "iops"
  else .ok ()

/-- The first disk over `MAX_DISK_BYTES`, from index `i` on. -/
def tooLarge : List DiskSpec → Nat → Option (Nat × Nat)
  | [], _ => none
  | d :: ds, i =>
    match d.sizeBytes with
    | none => tooLarge ds (i + 1)
    | some size => if size > Quota.maxDiskBytes then some (i, size) else tooLarge ds (i + 1)

def BootSpec.validate : BootSpec → Except ApiError Unit
  | .directKernel kernel _ _ =>
    ensure (!kernel.isEmpty) (.invalid "boot kernel path must not be empty")
  | .firmware path => ensure (!path.isEmpty) (.invalid "boot firmware path must not be empty")

def BootSpec.isDirectKernel : BootSpec → Bool
  | .directKernel .. => true
  | .firmware _ => false

/-- `VirtualMachineSpec::validate`: the first violation found. -/
def VirtualMachineSpec.validate (s : VirtualMachineSpec) : Except ApiError Unit := do
  ensure (1 ≤ s.cpu.bootVcpus) (.invalid "boot_vcpus must be at least 1")
  ensure (s.cpu.bootVcpus ≤ s.cpu.maxVcpus)
    (.invalid ("max_vcpus (" ++ toString s.cpu.maxVcpus ++ ") must be >= boot_vcpus (" ++
      toString s.cpu.bootVcpus ++ ")"))
  ensure (s.cpu.maxVcpus ≤ 512)
    (.invalid ("max_vcpus (" ++ toString s.cpu.maxVcpus ++ ") exceeds the limit of 512"))
  ensure (64 ≤ s.memory.sizeMib)
    (.invalid ("memory size must be at least 64 MiB, got " ++ toString s.memory.sizeMib))
  -- the hot-plug ceiling counts too
  let peak := s.memory.maxSizeMib.getD s.memory.sizeMib
  ensure (peak ≤ 4 * 1024 * 1024)
    (.invalid ("memory size " ++ toString peak ++ " MiB exceeds the limit of 4194304 MiB"))
  ensure (s.disks.length ≤ 64)
    (.invalid (toString s.disks.length ++ " disks exceeds the limit of 64"))
  ensure (s.networkInterfaces.length ≤ 16)
    (.invalid (toString s.networkInterfaces.length ++
      " network interfaces exceeds the limit of 16"))
  match tooLarge s.disks 0 with
  | some (i, size) =>
    .error (.invalid ("disk " ++ toString i ++ " is " ++ toString size ++
      " bytes, which exceeds the limit of " ++ toString Quota.maxDiskBytes))
  | none =>
    s.boot.validate
    ensure (s.disks.all fun d => !d.path.isEmpty) (.invalid "disk path must not be empty")
    if s.machineType = .microVm then
      ensure s.boot.isDirectKernel
        (.invalid "a microVM must use direct-kernel boot (firmware boot is not supported)")
      ensure s.cloudInit.isNone
        (.invalid ("a microVM cannot use a cloud-init seed disk; configure it via the kernel " ++
          "cmdline or initramfs instead"))
    else .ok ()

/-- `Amounts::of_vm` -/
def VirtualMachineSpec.amounts (s : VirtualMachineSpec) : Quota.Amounts where
  vms := 1
  vcpus := s.cpu.maxVcpus
  memoryMib := (min (s.memory.maxSizeMib.getD s.memory.sizeMib) Quota.i64Max : Nat)
  volumes := 0
  storageBytes := Quota.sumSizes (s.disks.filterMap (·.sizeBytes)) 0

/-! ## Rows -/

inductive VmPhase
  | pending | scheduling | creating | stopped | starting | running | stopping | migrating
  | failed | deleting
deriving DecidableEq, Repr

structure Vm where
  id : Id
  name : String
  spec : VirtualMachineSpec
  phase : VmPhase
  host : Option Id
  generation : Nat
  observedGeneration : Nat
  message : Option String
  ipAddress : Option String
  phoneHomeToken : Option Nat
  project : Id
deriving DecidableEq, Repr

inductive VolumeStatus
  | provisioning | ready
deriving DecidableEq, Repr

structure Volume where
  id : Id
  name : String
  sizeBytes : Int
  format : Format
  attachedVm : Option Id
  attachedSerial : Option Nat
  sourceImage : Option Id
  status : VolumeStatus
  pool : Option Id
  policy : Option StoragePolicy
  host : Option Id
  project : Id
deriving DecidableEq, Repr

structure VolumeSnapshot where
  id : Id
  volume : Id
  name : String
deriving DecidableEq, Repr

structure Template where
  id : Id
  name : String
  image : Id
  bootVcpus : Int
  maxVcpus : Int
  memoryMib : Int
  diskSizeBytes : Option Int
  diskFormat : Format
  network : Option Id
  cloudInit : Option CloudInitSpec
  machineType : MachineType
  project : Id
deriving DecidableEq, Repr

inductive ImageStatus
  | ready | importing | failed
deriving DecidableEq, Repr

def ImageStatus.text : ImageStatus → String
  | .ready => "ready"
  | .importing => "importing"
  | .failed => "failed"

structure Image where
  id : Id
  name : String
  sourcePath : HostPath
  format : Format
  boot : BootSpec
  defaultSizeBytes : Option Int
  cloudInit : Bool
  os : Option String
  status : ImageStatus
  /-- whether the platform owns the file -/
  managed : Bool
  project : Option Id
deriving DecidableEq, Repr

structure SecurityGroup where
  id : Id
  name : String
  description : Option String
  /-- the default group of a network or a project -/
  managed : Bool
  project : Id
deriving DecidableEq, Repr

inductive Direction
  | ingress | egress
deriving DecidableEq, Repr

inductive Ethertype
  | ipv4 | ipv6
deriving DecidableEq, Repr

inductive Protocol
  | tcp | udp | icmp | any
deriving DecidableEq, Repr

structure SecurityGroupRule where
  id : Id
  group : Id
  direction : Direction
  ethertype : Ethertype
  protocol : Protocol
  portMin : Option Int
  portMax : Option Int
  remoteCidr : Option IpNet
  remoteGroup : Option Id
deriving DecidableEq, Repr

inductive NetworkKind
  | provider | vlan | tenant
deriving DecidableEq, Repr

inductive SegmentKey
  | physical (physicalNetwork : String) (vlan : Option Int)
  | vxlan (vni : Nat)
deriving DecidableEq, Repr

def SegmentKey.canonical : SegmentKey → String
  | .physical physicalNetwork (some v) => physicalNetwork ++ ":" ++ toString v
  | .physical physicalNetwork none => physicalNetwork ++ ":untagged"
  | .vxlan vni => "vxlan:" ++ toString vni

/-- A family is managed when its `cidr` is set; a blank field counts as absent. -/
structure NetworkIpam where
  cidrV4 : Option (Text IpNet)
  gatewayV4 : Option (Text IpAddr)
  cidrV6 : Option (Text IpNet)
  gatewayV6 : Option (Text IpAddr)
  dns : List (Text IpAddr)
  poolV4Start : Option (Text IpAddr)
  poolV4End : Option (Text IpAddr)
  poolV6Start : Option (Text IpAddr)
  poolV6End : Option (Text IpAddr)
deriving DecidableEq, Repr

structure Network where
  id : Id
  name : String
  kind : NetworkKind
  physicalNetwork : Option String
  segmentKey : Option SegmentKey
  vlan : Option Int
  vni : Option Nat
  ipam : NetworkIpam
  defaultGroup : Option Id
  project : Option Id
deriving DecidableEq, Repr

def Network.isManaged (n : Network) : Bool := n.ipam.cidrV4.isSome || n.ipam.cidrV6.isSome

inductive SegmentState
  | allocated | quarantined
deriving DecidableEq, Repr

/-- A row of `network_segments`, of kind vxlan. -/
structure Segment where
  value : Nat
  state : SegmentState
  network : Option Id
deriving DecidableEq, Repr

structure IpAllocation where
  id : Id
  network : Id
  ip : IpAddr
  /-- the column `family`: 6 rather than 4 -/
  v6 : Bool
  vm : Option Id
  nicIndex : Nat
  /-- the MAC the NIC asks for; without one it is derived from the VM and the index -/
  mac : Option String
deriving DecidableEq, Repr

structure Project where
  id : Id
  name : String
  description : Option String
  isDefault : Bool
  defaultGroup : Option Id
deriving DecidableEq, Repr

structure ProjectQuota where
  project : Id
  limits : Quota.Limits

structure Host where
  id : Id
  name : String
  endpoint : String
  ready : Bool
  schedulable : Bool
  cpuVendor : Option String
  cpuFeatures : List String
  certCn : Option String
deriving DecidableEq, Repr

inductive PoolParams
  | sharedDir (path : HostPath)
  | localDir (path : HostPath)
  | nfs (server exportPath : String) (mountPoint : HostPath) (options : Option String)
deriving DecidableEq, Repr

/-- `host_path`; every kind there is has one. -/
def PoolParams.hostPath : PoolParams → HostPath
  | .sharedDir path => path
  | .localDir path => path
  | .nfs _ _ mountPoint _ => mountPoint

/-- `sharing().is_shared()` -/
def PoolParams.isShared : PoolParams → Bool
  | .localDir _ => false
  | _ => true

structure StoragePool where
  id : Id
  name : String
  description : Option String
  params : PoolParams
deriving DecidableEq, Repr

/-- A pool a host reports it can use. -/
structure PoolReport where
  pool : Id
  host : Id
deriving DecidableEq, Repr

structure User where
  id : Id
  subject : String
  username : String
  email : Option String
  displayName : Option String
deriving DecidableEq, Repr

structure Role where
  id : Id
  name : String
  description : Option String
  builtin : Bool
deriving DecidableEq, Repr

/-- The catalogue of permissions. -/
inductive Permission
  | vmCreate | vmRead | vmUpdate | vmDelete | vmPower | vmMigrate | vmConsole
  | hostRead | hostManage
  | networkCreate | networkCreateProvider | networkRead | networkUpdate | networkDelete
  | storagepoolRead | storagepoolManage
  | volumeCreate | volumeRead | volumeUpdate | volumeDelete
  | imageCreate | imageRead | imageUpdate | imageDelete
  | templateCreate | templateRead | templateUpdate | templateDelete
  | iamRead | iamManage
  | projectRead | projectCreate | projectUpdate | projectDelete
deriving DecidableEq, Repr

structure RolePermission where
  role : Id
  permission : Permission
deriving DecidableEq, Repr

/-- A binding; `none` is platform-wide. -/
structure UserRole where
  user : Id
  role : Id
  project : Option Id
deriving DecidableEq, Repr

structure GroupRole where
  group : String
  role : Id
  project : Option Id
deriving DecidableEq, Repr

structure Task where
  id : Id
  taskType : String
  vm : Option Id
  project : Option Id
deriving DecidableEq, Repr

inductive ResourceType
  | vm | host
deriving DecidableEq, Repr

structure Event where
  resourceType : ResourceType
  resource : Option Id
  eventType : String
  severity : String
  message : String
  project : Option Id
deriving DecidableEq, Repr

structure Migration where
  id : Id
  vm : Id
  sourceHost : Option Id
  targetHost : Id
  task : Id
  /-- not `Completed` or `Failed` -/
  active : Bool
deriving DecidableEq, Repr

structure EnrollmentToken where
  host : Id
  token : Nat
  used : Bool
deriving DecidableEq, Repr

instance : HasId Vm := ⟨Vm.id⟩
instance : HasId Volume := ⟨Volume.id⟩
instance : HasId VolumeSnapshot := ⟨VolumeSnapshot.id⟩
instance : HasId Template := ⟨Template.id⟩
instance : HasId Image := ⟨Image.id⟩
instance : HasId SecurityGroup := ⟨SecurityGroup.id⟩
instance : HasId SecurityGroupRule := ⟨SecurityGroupRule.id⟩
instance : HasId Network := ⟨Network.id⟩
instance : HasId IpAllocation := ⟨IpAllocation.id⟩
instance : HasId Project := ⟨Project.id⟩
instance : HasId Host := ⟨Host.id⟩
instance : HasId StoragePool := ⟨StoragePool.id⟩
instance : HasId User := ⟨User.id⟩
instance : HasId Role := ⟨Role.id⟩
instance : HasId Task := ⟨Task.id⟩
instance : HasId Migration := ⟨Migration.id⟩

/-! ## File operations -/

/-- What the control plane, or an agent on its order, does to a file. -/
inductive FileOp
  /-- a disk of VM `vm` is opened at `path` -/
  | attach (vm : Id) (path : HostPath)
  /-- `path` is built as a copy of `source`, or with it as backing file -/
  | clone (source path : HostPath)
  /-- `path` is created, grown, or its snapshots are changed -/
  | write (path : HostPath)
  | unlink (path : HostPath)
deriving DecidableEq, Repr

/-! ## The database -/

structure Db where
  vms : IdTable Vm
  volumes : IdTable Volume
  snapshots : IdTable VolumeSnapshot
  templates : IdTable Template
  images : IdTable Image
  securityGroups : IdTable SecurityGroup
  rules : IdTable SecurityGroupRule
  networks : IdTable Network
  segments : List Segment
  allocations : IdTable IpAllocation
  projects : IdTable Project
  quotas : List ProjectQuota
  hosts : IdTable Host
  pools : IdTable StoragePool
  poolReports : List PoolReport
  users : IdTable User
  roles : IdTable Role
  rolePermissions : List RolePermission
  userRoles : List UserRole
  groupRoles : List GroupRole
  tasks : IdTable Task
  events : List Event
  migrations : IdTable Migration
  enrollmentTokens : List EnrollmentToken
  /-- every file operation so far, the last one first -/
  files : List FileOp

/-- What a handler leaves behind: the database, and the answer. -/
abbrev Outcome (α : Type) := Db × Except ApiError α

/-- A handler that fails before its first write. -/
def settle {α : Type} (db : Db) (r : Except ApiError (Db × α)) : Outcome α :=
  match r with
  | .ok (db', a) => (db', .ok a)
  | .error e => (db, .error e)

/-- A handler that checks, and then runs on what the checks have read. -/
def attempt {α β : Type} (db : Db) (r : Except ApiError α) (run : α → Outcome β) : Outcome β :=
  match r with
  | .ok a => run a
  | .error e => (db, .error e)

/-- What holds of the database before, and after every run of the handler that succeeds. -/
theorem settle_induction {r : Except ApiError (Db × α)}
    (hdb : motive db) (hok : ∀ db' a, r = .ok (db', a) → motive db') : motive (settle db r).1 := by
  cases r with
  | error e => exact hdb
  | ok x => exact hok x.1 x.2 rfl

theorem attempt_induction {r : Except ApiError α} {run : α → Outcome β}
    (hdb : motive db) (hok : ∀ a, r = .ok a → motive (run a).1) : motive (attempt db r run).1 := by
  cases r with
  | error e => exact hdb
  | ok => exact hok _ rfl

end VQuasar.Tenancy
