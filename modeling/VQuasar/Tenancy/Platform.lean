import VQuasar.Tenancy.Networks

/-!
# Projects, roles, hosts and pools

`api/projects.rs`, `api/iam.rs`, `api/hosts.rs`, `api/pools.rs` and `api/enroll.rs`.  These handlers
act on the id in the path: the permission is looked up in the scope of the request, and the row is
not asked whether it belongs to that scope.  Only the bindings of `setUserRoles`, `addGroupRole` and
`removeGroupRole` are made in it.
-/

namespace VQuasar.Tenancy

/-! ## Projects -/

structure CreateProject where
  name : String
  description : Option String

def isLowerOrDigit (c : Char) : Bool := ('a' ≤ c && c ≤ 'z') || ('0' ≤ c && c ≤ '9')

def validateName (name : String) : Except ApiError Unit := do
  ensure (!name.isEmpty) (.invalid "project name must not be empty")
  ensure (name.utf8ByteSize ≤ 63)
    (.invalid ("project name must be at most " ++ toString 63 ++ " characters, got " ++
      toString name.utf8ByteSize))
  ensure (name.toList.head?.any isLowerOrDigit &&
      name.toList.all fun c => isLowerOrDigit c || c == '-')
    (.invalid ("project name may contain only lowercase letters, digits and hyphens, " ++
      "and must start with a letter or digit"))

variable (cfg : Config) (db : Db) (s : Scope) (u : AuthUser) (id : Id)

/-- Whether the caller may know of the project: one they are bound in, or any for a caller with a
platform-wide binding. -/
def AuthUser.knows (db : Db) (project : Id) : Bool :=
  match u.user with
  | none => true
  | some id => (db.projectsForCaller id u.groups).all fun mine => mine.contains project

def listProjects : Except ApiError (List Project) := do
  u.require .projectRead
  return (db.projects.rows.insertionSort fun a b => a.name ≤ b.name).filter fun p =>
    u.knows db p.id

def readProject : Except ApiError Project := do
  u.require .projectRead
  ensure (u.knows db id) (.resourceNotFound "project")
  orElse (db.projects.get id) (.resourceNotFound "project")

def createProject (body : CreateProject) : Outcome Project :=
  settle db do
    u.require .projectCreate
    validateName body.name
    let id := db.projects.next
    let db ← db.insertProject body.name body.description
    let group := db.securityGroups.next
    let db := (db.insertProjectDefaultGroup id body.name).setProjectDefaultGroup id (some group)
    let project ← orElse (db.projects.get id) .database
    return (db, project)

/-- `update`: any project, from the scope of the request. -/
def updateProject (body : CreateProject) : Outcome Project :=
  settle db do
    u.require .projectUpdate
    validateName body.name
    let db ← db.updateProject id body.name body.description
    let project ← orElse (db.projects.get id) (.resourceNotFound "project")
    return (db, project)

/-- A count and what it counts, in the plural unless it is one. -/
def countText (n : Nat) (what : String) : String :=
  toString n ++ " " ++ what ++ (if n = 1 then "" else "s")

/-- `project_contents`, and `summary` over it -/
def Db.contentsSummary : String :=
  ", ".intercalate (([
    ((db.vms.rows.filter fun r => r.project == id).length, "VM"),
    ((db.volumes.rows.filter fun r => r.project == id).length, "volume"),
    ((db.templates.rows.filter fun r => r.project == id).length, "template"),
    ((db.securityGroups.rows.filter fun r => r.project == id && !r.managed).length,
      "security group"),
    ((db.networks.rows.filter fun r => r.project == some id).length, "network")].filter
      fun e => e.1 ≠ 0).map fun e => countText e.1 e.2)

/-- `delete`: refused while the project still owns anything. -/
def deleteProject : Outcome Unit :=
  settle db do
    u.require .projectDelete
    let project ← orElse (db.projects.get id) (.resourceNotFound "project")
    ensure (!project.isDefault)
      (.invalid ("the default project cannot be deleted: every caller without project " ++
        "context resolves to it"))
    ensure (db.projectEmpty id)
      (.invalid ("project still owns " ++ db.contentsSummary id ++ " — delete or move them first"))
    let db ← db.deleteProject id
    return (db, ())

/-! ### Quotas -/

structure QuotaView where
  limits : Quota.Limits
  usage : Quota.Amounts
  overQuota : Bool

/-- `over` -/
def overQuota (limits : Quota.Limits) (usage : Quota.Amounts) : Bool :=
  limits.maxVms.any (· < usage.vms) || limits.maxVcpus.any (· < usage.vcpus) ||
  limits.maxMemoryMib.any (· < usage.memoryMib) || limits.maxVolumes.any (· < usage.volumes) ||
  limits.maxStorageBytes.any (· < usage.storageBytes)

/-- `Limits::default` -/
def noLimits : Quota.Limits := ⟨none, none, none, none, none⟩

/-- `get_quota` -/
def readQuota : Except ApiError QuotaView := do
  u.require .projectRead
  ensure (u.knows db id) (.resourceNotFound "project")
  ensure (db.projects.get id).isSome (.resourceNotFound "project")
  let limits := (db.getQuota id).getD noLimits
  let usage ← db.usageIn id
  return ⟨limits, usage, overQuota limits usage⟩

/-- One of the limits of `set_quota`. -/
def checkLimit (name : String) (v : Option Int) : Except ApiError Unit :=
  ensure (v.all (0 ≤ ·)) (.invalid (name ++ " must not be negative"))

/-- The checks of `set_quota`. -/
def quotaChecks (body : Quota.Limits) : Except ApiError Unit := do
  u.require .projectUpdate
  ensure (db.projects.get id).isSome (.resourceNotFound "project")
  checkLimit "max_vms" body.maxVms
  checkLimit "max_vcpus" body.maxVcpus
  checkLimit "max_memory_mib" body.maxMemoryMib
  checkLimit "max_volumes" body.maxVolumes
  checkLimit "max_storage_bytes" body.maxStorageBytes

/-- `set_quota`: the limits are stored before the usage is read for the answer. -/
def setQuota (body : Quota.Limits) : Outcome QuotaView :=
  attempt db (quotaChecks db u id body) fun _ =>
    attempt db (db.setQuota id body) fun db =>
      (db, do
        let usage ← db.usageIn id
        return ⟨body, usage, overQuota body usage⟩)

def clearQuota : Outcome Unit :=
  settle db do
    u.require .projectUpdate
    ensure (db.quotas.any fun q => q.project == id) (.resourceNotFound "quota")
    return (db.clearQuota id, ())

/-! ## Users, roles and bindings -/

/-- `Me`, without the identity that the token itself carries -/
structure Me where
  permissions : List Permission
  project : Option Id
  tenancy : Bool
  platform : Bool
deriving DecidableEq, Repr

def me : Me where
  permissions := if u.superuser then Permission.catalog else u.permissions
  project := s.projectFilter
  tenancy := cfg.tenancyEnabled
  platform :=
    match u.user with
    | none => true
    | some id => (db.projectsForCaller id u.groups).isNone

def Db.rolesForUser (user : Id) (project : Option Id) : List Role :=
  (db.roles.rows.filter fun r => db.userRoles.any fun b =>
    b.user == user && b.role == r.id && b.project == project).insertionSort fun a b => a.name ≤ b.name

structure UserView where
  user : User
  roles : List Role
deriving DecidableEq, Repr

def listUsers : Except ApiError (List UserView) := do
  u.require .iamRead
  return (db.users.rows.insertionSort fun a b => a.username ≤ b.username).map fun r =>
    ⟨r, db.rolesForUser r.id s.projectFilter⟩

def setUserRoles (roles : List Id) : Outcome UserView :=
  settle db do
    u.require .iamManage
    let target ← orElse (db.users.get id) (.invalid ("user not found: " ++ toString id))
    let db ← db.setUserRoles id roles s.projectFilter
    return (db, ⟨target, db.rolesForUser id s.projectFilter⟩)

structure RoleView where
  role : Role
  permissions : List Permission
deriving DecidableEq, Repr

/-- A role with `role_permissions`. -/
def Db.roleView (r : Role) : RoleView :=
  ⟨r, Permission.catalog.filter fun p => db.rolePermissions.contains ⟨r.id, p⟩⟩

def listRoles : Except ApiError (List RoleView) := do
  u.require .iamRead
  return (db.roles.rows.insertionSort fun a b => a.name ≤ b.name).map db.roleView

def readRole : Except ApiError RoleView := do
  u.require .iamRead
  let r ← orElse (db.roles.get id) (.invalid ("role not found: " ++ toString id))
  return db.roleView r

/-- `validate_perms`, with what the texts name -/
def validatePerms : List (Text Permission) → Except ApiError (List Permission)
  | [] => .ok []
  | .error p :: _ => .error (.invalid ("unknown permission: " ++ p))
  | .ok p :: rest => do
    let ps ← validatePerms rest
    return p :: ps

structure CreateRole where
  name : String
  description : Option String
  permissions : List (Text Permission)

def createRole (body : CreateRole) : Outcome RoleView :=
  settle db do
    u.require .iamManage
    ensure (!body.name.isEmpty) (.invalid "name is required")
    let permissions ← validatePerms body.permissions
    let role : Role := ⟨db.roles.next, body.name, body.description, false⟩
    let db ← db.createRole body.name body.description permissions
    return (db, ⟨role, permissions⟩)

structure UpdateRole where
  description : Option String
  permissions : List (Text Permission)

/-- `update_role`: roles are shared by all scopes, and the request's scope is not consulted. -/
def updateRole (body : UpdateRole) : Outcome RoleView :=
  settle db do
    u.require .iamManage
    let role ← orElse (db.roles.get id) (.invalid ("role not found: " ++ toString id))
    ensure (!role.builtin) (.invalid "built-in roles cannot be edited")
    let permissions ← validatePerms body.permissions
    let db ← db.updateRolePermissions id body.description permissions
    return (db, ⟨role, permissions⟩)

def deleteRole : Outcome Unit :=
  settle db do
    u.require .iamManage
    ensure ((db.roles.get id).any fun r => !r.builtin) (.invalid "role not found or is built-in")
    return (db.deleteRole id, ())

structure GroupRoleView where
  group : String
  role : String
  project : Option Id
deriving DecidableEq, Repr

def listGroupRoles : Except ApiError (List GroupRoleView) := do
  u.require .iamRead
  let bound := db.groupRoles.filter fun r => Db.bindingCounts r.project s.projectFilter
  let rows := bound.filterMap fun b => (db.roles.get b.role).map fun r =>
    (⟨b.group, r.name, b.project⟩ : GroupRoleView)
  return rows.insertionSort fun a b => a.group < b.group ∨ (a.group = b.group ∧ a.role ≤ b.role)

def addGroupRole (group : String) (role : Id) : Outcome Unit :=
  settle db do
    u.require .iamManage
    ensure (!group.isEmpty) (.invalid "group is required")
    let db ← db.addGroupRole group role s.projectFilter
    return (db, ())

def removeGroupRole (group : String) (role : Id) : Outcome Unit :=
  settle db do
    u.require .iamManage
    ensure (db.groupRoles.contains ⟨group, role, s.projectFilter⟩) (.invalid "mapping not found")
    return (db.removeGroupRole group role s.projectFilter, ())

/-! ## Hosts -/

def registerHost (name endpoint : String) : Outcome Host :=
  settle db do
    u.require .hostManage
    ensure (!name.isEmpty && !endpoint.isEmpty) (.invalid "name and endpoint are required")
    return (db.registerHost name endpoint,
      ⟨db.hosts.next, name, endpoint, false, true, none, [], none⟩)

def updateHost (schedulable : Bool) : Outcome Host :=
  settle db do
    u.require .hostManage
    let host ← orElse (db.hosts.get id) (.hostNotFound id)
    let db := (db.setHostSchedulable id schedulable).insertEvent .host (some id)
      (if schedulable then "host.uncordoned" else "host.cordoned") "info" host.name
    let host ← orElse (db.hosts.get id) (.hostNotFound id)
    return (db, host)

structure DrainMove where
  vm : Id
  vmName : String
  targetHost : Id
  targetHostName : String
deriving DecidableEq, Repr

structure DrainSkip where
  vm : Id
  vmName : String
  reason : String
deriving DecidableEq, Repr

structure DrainResult where
  migrating : List DrainMove
  skipped : List DrainSkip
deriving DecidableEq, Repr

/-- Why a drain leaves a running VM where it is before it asks the scheduler. -/
def Db.drainObstacle (vm : Vm) : Option String :=
  if (db.activeMigrationForVm vm.id).isSome then some "a migration is already in progress"
  else if vm.spec.placement == some id then some "pinned to this host by its placement"
  else if (db.localPool vm.spec).isSome then some "pinned to this host by a disk on local storage"
  else none

/-- What a drain says of a VM the scheduler cannot place. -/
def Unschedulable.drainReason : Unschedulable → String
  | .unreachableStorage => "no CPU-compatible host reports this VM's storage pool"
  | .requestedHostUnavailable => "pinned by its placement — change that first"
  | .placementConflict => "pinned by its placement — change that first"
  | .noCapacity => "no CPU-compatible host with free capacity"

/-- One VM of a drain: `start` is the database the scheduler's figures were read from. -/
def drainVm (start : Db) (source : Host) (compat : List Host) (vm : Vm)
    (acc : Db × DrainResult) : Db × DrainResult :=
  let (db, r) := acc
  let skip (reason : String) : Db × DrainResult :=
    (db, { r with skipped := r.skipped ++ [⟨vm.id, vm.name, reason⟩] })
  if vm.host != some source.id || vm.phase != .running then (db, r)
  else
    match db.drainObstacle source.id vm with
    | some reason => skip reason
    | none =>
      match cfg.schedule start (r.migrating.map fun m => (m.vm, m.targetHost)) vm compat with
      | .error e => skip e.drainReason
      | .ok target =>
        let name := ((compat.find? fun h => h.id == target).map Host.name).getD ""
        (requestMigration db vm source.id target,
          { r with migrating := r.migrating ++ [⟨vm.id, vm.name, target, name⟩] })

/-- The loop of `drain`. -/
def drainVms (cfg : Config) (start : Db) (source : Host) (compat : List Host) :
    List Vm → Db × DrainResult → Db × DrainResult
  | [], acc => acc
  | vm :: vms, acc => drainVms cfg start source compat vms (drainVm cfg start source compat vm acc)

/-- The hosts a drain may use: ready, schedulable, and not known to be incompatible. -/
def Db.drainTargets (source : Host) : List Host :=
  ((db.hosts.rows.filter fun h => h.ready && h.schedulable).insertionSort
    fun a b => a.name ≤ b.name).filter fun h => h.id != source.id && (cpuCompat source h).permitted

/-- `drain`: cordon the host, then migrate what runs on it; every project's VMs. -/
def drainHost (cfg : Config) (db : Db) (u : AuthUser) (id : Id) : Outcome DrainResult :=
  settle db do
    u.require .hostManage
    let source ← orElse (db.hosts.get id) (.hostNotFound id)
    let db := (db.setHostSchedulable id false).insertEvent .host (some id) "host.cordoned" "info"
      source.name
    let (db, r) := drainVms cfg db source (db.drainTargets source) db.vms.rows (db, ⟨[], []⟩)
    return (db.insertEvent .host (some id) "host.drain" "info"
      (source.name ++ ": " ++ toString r.migrating.length ++ " migrating, " ++
        toString r.skipped.length ++ " skipped"), r)

def listHosts : Except ApiError (List Host) := do
  u.require .hostRead
  return db.hosts.rows

def readHost : Except ApiError Host := do
  u.require .hostRead
  orElse (db.hosts.get id) (.hostNotFound id)

/-! ### Enrolling -/

/-- `enroll`; `ca` is what reading the root certificate gives, after the rows are written. -/
def enroll (name endpoint : String) (ca : Text Unit) : Outcome Nat :=
  let r : Except ApiError Unit := do
    u.require .hostManage
    ensure (!name.isEmpty && !endpoint.isEmpty) (.invalid "name and endpoint are required")
  attempt db r fun _ =>
    let id := db.hosts.next
    let db := db.registerHost name endpoint
    let db : Db :=
      { db with enrollmentTokens := db.enrollmentTokens ++ [⟨id, cfg.enrollmentToken id, false⟩] }
    match ca with
    | .error e => (db, .error (.internal ("read CA cert: " ++ e)))
    | .ok () =>
      (db.insertEvent .host (some id) "host.enroll" "info" name, .ok (cfg.enrollmentToken id))

/-- `consume_enrollment_token`; a token that has expired counts as used. -/
def Db.consumeEnrollmentToken (token : Nat) : Option (Id × Db) :=
  match db.enrollmentTokens.find? fun t => t.token == token && !t.used with
  | none => none
  | some t =>
    let db' : Db :=
      { db with
        enrollmentTokens := Table.updateWhere (fun t => t.token == token && !t.used)
          (fun t => { t with used := true }) db.enrollmentTokens }
    some (t.host, db')

/-- `bootstrap_sign`: whoever holds a token has the host's certificate signed.  `signed` is the
common name in the request, or the refusal of a request that cannot be read or signed. -/
def bootstrapSign (token : Option Nat) (signed : Except ApiError String) : Outcome Unit :=
  match token with
  | none => (db, .error (.invalid "missing X-Enrollment-Token header"))
  | some token =>
    match db.consumeEnrollmentToken token with
    | none => (db, .error (.unauthorized "invalid, expired, or already-used enrollment token"))
    | some (host, db) =>
      match db.hosts.get host with
      | none => (db, .error (.internal "enrolled host vanished"))
      | some h =>
        match signed with
        | .error e => (db, .error e)
        | .ok cn =>
          ((db.setHostCertCn host cn).insertEvent .host (some host) "host.enroll.signed" "info"
            h.name, .ok ())

/-! ## Storage pools -/

def validatePoolName (name : String) : Except ApiError Unit := do
  ensure (!name.isEmpty) (.invalid "name must not be empty")
  ensure (name.utf8ByteSize ≤ 63)
    (.invalid ("name must be at most 63 characters, got " ++ toString name.utf8ByteSize))
  ensure ((name.toList.all fun c => isLowerOrDigit c || c == '-') &&
      name.toList.head?.any isLowerOrDigit && name.toList.getLast?.any isLowerOrDigit)
    (.invalid ("name may contain only lowercase letters, digits and '-', " ++
      "and must start and end with a letter or digit: " ++ quoted name))

/-- The `absolute` check of `PoolParams::validate`. -/
def checkAbsolute (p : HostPath) : Except ApiError Unit := do
  ensure (!p.isEmpty) (.invalid "a shared_dir pool requires a path")
  ensure p.absolute (.invalid ("path must be absolute, got " ++ quoted p.text))

/-- The same, of a text that is not used as a path here. -/
def checkAbsoluteText (p : String) : Except ApiError Unit := do
  ensure (!(trim p).isEmpty) (.invalid "a shared_dir pool requires a path")
  ensure (p.toList.head? == some '/') (.invalid ("path must be absolute, got " ++ quoted p))

/-- A character that must not stand on a `mount -o` command line. -/
def isShellChar (c : Char) : Bool :=
  c.isWhitespace || [';', '&', '|', Char.ofNat 96, '$'].contains c

def PoolParams.validate : PoolParams → Except ApiError Unit
  | .sharedDir path => checkAbsolute path
  | .localDir path => checkAbsolute path
  | .nfs server exportPath mountPoint options => do
    ensure (!(trim server).isEmpty) (.invalid "an nfs pool requires a server")
    ensure (server.toList.all fun c => c != ':' && c != '/')
      (.invalid ("server must be a host or address on its own, not " ++ quoted server ++
        " — the export is a separate field"))
    checkAbsoluteText exportPath
    checkAbsolute mountPoint
    ensure (options.all fun o => !o.toList.any isShellChar)
      (.invalid ("mount options must be a comma-separated list with no whitespace or shell " ++
        "characters, got " ++ quoted (options.getD "")))

structure CreatePool where
  name : String
  description : Option String
  params : PoolParams

/-- A pool with the hosts that report it. -/
structure PoolView where
  pool : StoragePool
  hosts : List Id
deriving DecidableEq, Repr

def Db.poolView (p : StoragePool) : PoolView :=
  ⟨p, (db.poolReports.filter fun r => r.pool == p.id).map PoolReport.host⟩

def createPool (body : CreatePool) : Outcome PoolView :=
  settle db do
    u.require .storagepoolManage
    validatePoolName body.name
    body.params.validate
    ensureWithin body.params.hostPath cfg.allowedPaths "path"
    let row : StoragePool := ⟨db.pools.next, body.name, body.description, body.params⟩
    let db ← db.insertStoragePool body.name body.description body.params
    return (db, ⟨row, []⟩)

def updatePool (name : String) (description : Option String) : Outcome PoolView :=
  settle db do
    u.require .storagepoolManage
    validatePoolName name
    let db ← db.updateStoragePool id name description
    let pool ← orElse (db.pools.get id) (.resourceNotFound "storage pool")
    return (db, db.poolView pool)

def Db.volumesInPool : Nat :=
  (db.volumes.rows.filter fun v => v.pool == some id).length

def deletePool : Outcome Unit :=
  settle db do
    u.require .storagepoolManage
    ensure (db.volumesInPool id == 0)
      (.invalid (countText (db.volumesInPool id) "volume" ++
        " still live in this pool — delete or move them first"))
    ensure (db.pools.get id).isSome (.resourceNotFound "storage pool")
    return (db.deleteStoragePool id, ())

def listPools : Except ApiError (List PoolView) := do
  u.require .storagepoolRead
  return db.pools.rows.map db.poolView

def readPool : Except ApiError PoolView := do
  u.require .storagepoolRead
  let p ← orElse (db.pools.get id) (.resourceNotFound "storage pool")
  return db.poolView p

end VQuasar.Tenancy
