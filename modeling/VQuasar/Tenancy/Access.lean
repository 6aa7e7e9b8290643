import VQuasar.Tenancy.Store
import Mathlib.Data.List.Perm.Subperm

/-!
# Who may act, and on which rows

A request names a project (`resolveScope`); the caller's permissions are those of the roles bound
to them there (`effectivePermissions`), and the queries of `ScopedStore` are filtered by the same
scope.  A caller whose bindings all name one project has no permission anywhere else
(`effectivePermissions_eq_nil`), and what a scoped query returns belongs to the scope
(`getVm_eq_some` and its siblings).
-/

namespace VQuasar.Tenancy

open Table List Option IdTable

/-! ## Configuration -/

inductive Unschedulable
  | unreachableStorage | requestedHostUnavailable | placementConflict | noCapacity
deriving DecidableEq, Repr

structure Config where
  tenancyEnabled : Bool
  /-- whether an identity provider is configured -/
  authenticator : Bool
  bootstrapAdmin : Option String
  allowedPaths : List HostPath
  sharedVolumesDir : HostPath
  policyEnforced : Bool
  egressEnforced : Bool
  /-- `provider_vlans`, as ranges -/
  providerVlans : List (Int × Int)
  describeVlans : String
  physicalNetworks : List String
  vniStart : Nat
  vniEnd : Nat
  /-- what `random_token` returned for a VM -/
  phoneHomeToken : Id → Nat
  /-- what `random_token` returned for a host -/
  enrollmentToken : Id → Nat
  /-- `scheduler::schedule` in a drain, given the VMs already moved and where to -/
  schedule : Db → List (Id × Id) → Vm → List Host → Except Unschedulable Id

variable (cfg : Config) (db : Db)

def Config.permitsVlan (tag : Int) : Bool :=
  1 ≤ tag && tag ≤ 4094 && cfg.providerVlans.any fun r => r.1 ≤ tag && tag ≤ r.2

def Config.permitsUplink (name : String) : Bool := cfg.physicalNetworks.contains name

/-! ## Permissions -/

namespace Permission

def name : Permission → String
  | vmCreate => "vm:create"
  | vmRead => "vm:read"
  | vmUpdate => "vm:update"
  | vmDelete => "vm:delete"
  | vmPower => "vm:power"
  | vmMigrate => "vm:migrate"
  | vmConsole => "vm:console"
  | hostRead => "host:read"
  | hostManage => "host:manage"
  | networkCreate => "network:create"
  | networkCreateProvider => "network:create:provider"
  | networkRead => "network:read"
  | networkUpdate => "network:update"
  | networkDelete => "network:delete"
  | storagepoolRead => "storagepool:read"
  | storagepoolManage => "storagepool:manage"
  | volumeCreate => "volume:create"
  | volumeRead => "volume:read"
  | volumeUpdate => "volume:update"
  | volumeDelete => "volume:delete"
  | imageCreate => "image:create"
  | imageRead => "image:read"
  | imageUpdate => "image:update"
  | imageDelete => "image:delete"
  | templateCreate => "template:create"
  | templateRead => "template:read"
  | templateUpdate => "template:update"
  | templateDelete => "template:delete"
  | iamRead => "iam:read"
  | iamManage => "iam:manage"
  | projectRead => "project:read"
  | projectCreate => "project:create"
  | projectUpdate => "project:update"
  | projectDelete => "project:delete"

def catalog : List Permission :=
  [vmCreate, vmRead, vmUpdate, vmDelete, vmPower, vmMigrate, vmConsole, hostRead, hostManage,
    networkCreate, networkCreateProvider, networkRead, networkUpdate, networkDelete,
    storagepoolRead, storagepoolManage, volumeCreate, volumeRead, volumeUpdate, volumeDelete,
    imageCreate, imageRead, imageUpdate, imageDelete, templateCreate, templateRead, templateUpdate,
    templateDelete, iamRead, iamManage, projectRead, projectCreate, projectUpdate, projectDelete]

theorem mem_catalog (p : Permission) : p ∈ catalog := by
  cases p <;> decide

end Permission

/-! ## Scopes -/

inductive Scope
  | project (id : Id)
  | platform
deriving DecidableEq, Repr

namespace Scope

def projectFilter : Scope → Option Id
  | project id => some id
  | platform => none

variable (s : Scope)

/-- `$n IS NULL OR project_id = $n` -/
def owns (project : Id) : Bool :=
  s.projectFilter.isNone || s.projectFilter == some project

/-- The same, where `project_id` may be `NULL`. -/
def ownsShareable (project : Option Id) : Bool :=
  s.projectFilter.isNone || (project.isSome && s.projectFilter == project)

/-- `project_id IS NULL OR $n IS NULL OR project_id = $n` -/
def sees (project : Option Id) : Bool :=
  project.isNone || s.projectFilter.isNone || s.projectFilter == project

def owningProject : Id := s.projectFilter.getD defaultProjectId

def shareableOwner : Option Id := s.projectFilter

@[simp]
theorem owns_project (p q : Id) : (project p).owns q ↔ q = p := by
  simp only [owns, projectFilter, isNone_some, Bool.false_or, beq_iff_eq, some.injEq]
  exact eq_comm

@[simp]
theorem ownsShareable_project (p : Id) (q : Option Id) :
    (project p).ownsShareable q ↔ q = some p := by
  cases q with
  | none => simp [ownsShareable, projectFilter]
  | some q =>
    simp only [ownsShareable, projectFilter, isNone_some, isSome_some, Bool.false_or,
      Bool.true_and, beq_iff_eq, some.injEq]
    exact eq_comm

@[simp]
theorem sees_project (p : Id) (q : Option Id) : (project p).sees q ↔ q = none ∨ q = some p := by
  cases q with
  | none => simp [sees]
  | some q =>
    simp only [sees, projectFilter, isNone_some, Bool.false_or, beq_iff_eq,
      some.injEq, reduceCtorEq, false_or]
    exact eq_comm

end Scope

/-! ## Callers -/

structure Claims where
  subject : String
  username : String
  email : Option String
  displayName : Option String
  groups : List String
deriving DecidableEq, Repr

structure AuthUser where
  user : Option Id
  permissions : List Permission
  groups : List String
  superuser : Bool

def AuthUser.require (u : AuthUser) (p : Permission) : Except ApiError Unit :=
  ensure (u.superuser || u.permissions.contains p) (.forbidden p.name)

/-- The `X-Vquasar-Project` header, or `?project=`. -/
inductive ProjectRef
  | absent
  /-- `*` -/
  | star
  | id (id : Id)
  | name (name : String)
deriving DecidableEq, Repr

def resolveScope (requested : ProjectRef) : Except ApiError Scope :=
  if !cfg.tenancyEnabled then .ok .platform
  else
    match requested with
    | .star => .ok .platform
    -- no context is the default project, never everything
    | .absent => .ok (.project defaultProjectId)
    | .id id => do
      let p ← orElse (db.projects.get id) (.resourceNotFound "project")
      return .project p.id
    | .name name => do
      let p ← orElse (db.projects.rows.find? fun p => p.name == name) (.resourceNotFound "project")
      return .project p.id

namespace Db

/-- Whether a binding made for `bound` counts in `project`. -/
def bindingCounts (bound project : Option Id) : Bool :=
  bound.isNone || (project.isSome && bound == project)

variable (db : Db) (user : Id) (groups : List String)

/-- Whether a role is bound to the user or one of the groups, in a scope. -/
def roleBound (project : Option Id) (role : Id) : Bool :=
  (db.userRoles.any fun r => r.user == user && bindingCounts r.project project && r.role == role) ||
  (db.groupRoles.any fun r =>
    groups.contains r.group && bindingCounts r.project project && r.role == role)

/-- `effective_permissions`, as a set: in the order of the catalogue, without repetition. -/
def effectivePermissions (project : Option Id) : List Permission :=
  Permission.catalog.filter fun p =>
    db.rolePermissions.any fun rp =>
      rp.permission == p && db.roleBound user groups project rp.role

def projectsForCaller : Option (List Id) :=
  let bound := (db.userRoles.filter fun r => r.user == user).map UserRole.project ++
    (db.groupRoles.filter fun r => groups.contains r.group).map GroupRole.project
  if bound.any Option.isNone then none else some (bound.filterMap fun p => p)

def userIdOf (c : Claims) : Id :=
  match db.users.rows.find? fun u => u.subject == c.subject with
  | some u => u.id
  | none => db.users.next

end Db

def Config.isBootstrapAdmin (c : Claims) : Bool :=
  match cfg.bootstrapAdmin with
  | some ba => ba == c.subject || ba == c.username || c.email == some ba
  | none => false

/-- What authentication writes: the caller's row, and the first administrator's binding. -/
def login (c : Claims) : Db :=
  let user := db.userIdOf c
  let db := db.upsertUser c.subject c.username c.email c.displayName
  if cfg.isBootstrapAdmin c then db.grantRoleByName user "admin" else db

/-- `AuthUser::from_request_parts` after the token has been validated, with the scope that
`RequestScope` resolves for the same request. -/
def authenticate (claims : Option Claims) (requested : ProjectRef) :
    Db × Except ApiError (AuthUser × Scope) :=
  if !cfg.authenticator then
    (db, do
      let scope ← resolveScope cfg db requested
      return (⟨none, [], [], true⟩, scope))
  else
    match claims with
    | none => (db, .error (.unauthorized "missing bearer token"))
    | some c =>
      let user := db.userIdOf c
      let db := login cfg db c
      (db, do
        let scope ← resolveScope cfg db requested
        let permissions := db.effectivePermissions user c.groups scope.projectFilter
        return (⟨some user, permissions, c.groups, false⟩, scope))

/-! ## Queries of `ScopedStore` -/

namespace Db

variable (db : Db) (s : Scope) (id : Id)

def getVm : Option Vm :=
  (db.vms.get id).filter fun r => s.owns r.project

def getVolume : Option Volume :=
  (db.volumes.get id).filter fun r => s.owns r.project

def getTemplate : Option Template :=
  (db.templates.get id).filter fun r => s.owns r.project

def templateInScope : Bool := (db.getTemplate s id).isSome

def getSecurityGroup : Option SecurityGroup :=
  (db.securityGroups.get id).filter fun r => s.owns r.project

/-- `security_groups_in_scope`: as many rows as ids. -/
def securityGroupsInScope (ids : List Id) : Bool :=
  if ids.isEmpty then true
  else (db.securityGroups.rows.filter fun r => ids.contains r.id && s.owns r.project).length ==
    ids.length

def getNetwork : Option Network :=
  (db.networks.get id).filter fun r => s.sees r.project

def networkVisible : Bool := (db.getNetwork s id).isSome

def networkWritable : Bool :=
  ((db.networks.get id).filter fun r => s.ownsShareable r.project).isSome

/-- `ScopedStore::image_visible`, with the row -/
def visibleImage : Option Image :=
  (db.images.get id).filter fun r => s.sees r.project

def imageVisible : Bool := (db.visibleImage s id).isSome

def imageWritable : Bool :=
  ((db.images.get id).filter fun r => s.ownsShareable r.project).isSome

def getTask : Option Task :=
  (db.tasks.get id).filter fun r => s.ownsShareable r.project

/-! ## What the queries return -/

variable {db : Db} {s : Scope} {id : Id}

theorem getVm_eq_some {vm : Vm} :
    db.getVm s id = some vm ↔ vm ∈ db.vms ∧ vm.id = id ∧ s.owns vm.project := by
  rw [getVm, filter_eq_some_iff, get_eq_some, and_assoc]
  rfl

theorem getVolume_eq_some {v : Volume} :
    db.getVolume s id = some v ↔ v ∈ db.volumes ∧ v.id = id ∧ s.owns v.project := by
  rw [getVolume, filter_eq_some_iff, get_eq_some, and_assoc]
  rfl

theorem getTemplate_eq_some {t : Template} :
    db.getTemplate s id = some t ↔ t ∈ db.templates ∧ t.id = id ∧ s.owns t.project := by
  rw [getTemplate, filter_eq_some_iff, get_eq_some, and_assoc]
  rfl

theorem getNetwork_eq_some {n : Network} :
    db.getNetwork s id = some n ↔ n ∈ db.networks ∧ n.id = id ∧ s.sees n.project := by
  rw [getNetwork, filter_eq_some_iff, get_eq_some, and_assoc]
  rfl

theorem visibleImage_eq_some {i : Image} :
    db.visibleImage s id = some i ↔ i ∈ db.images ∧ i.id = id ∧ s.sees i.project := by
  rw [visibleImage, filter_eq_some_iff, get_eq_some, and_assoc]
  rfl

theorem networkVisible_iff :
    db.networkVisible s id ↔ ∃ n ∈ db.networks, n.id = id ∧ s.sees n.project := by
  rw [networkVisible, isSome_iff_exists]
  simp only [getNetwork_eq_some]

theorem networkWritable_iff : db.networkWritable s id ↔
    ∃ n ∈ db.networks, n.id = id ∧ s.ownsShareable n.project := by
  rw [networkWritable, isSome_iff_exists]
  simp only [filter_eq_some_iff, get_eq_some, and_assoc]
  rfl

theorem imageWritable_iff : db.imageWritable s id ↔
    ∃ i ∈ db.images, i.id = id ∧ s.ownsShareable i.project := by
  rw [imageWritable, isSome_iff_exists]
  simp only [filter_eq_some_iff, get_eq_some, and_assoc]
  rfl

theorem templateInScope_iff : db.templateInScope s id ↔
    ∃ t ∈ db.templates, t.id = id ∧ s.owns t.project := by
  rw [templateInScope, isSome_iff_exists]
  simp only [getTemplate_eq_some]

/-- The count of `security_groups_in_scope` is right because ids are unique: as many matching rows
as ids means that every id has one. -/
theorem mem_of_securityGroupsInScope {ids : List Id} (h : db.securityGroupsInScope s ids)
    {g : Id} (hg : g ∈ ids) : ∃ r ∈ db.securityGroups, r.id = g ∧ s.owns r.project := by
  have hne : ids.isEmpty = false := by
    cases ids with
    | nil => cases hg
    | cons => rfl
  rw [securityGroupsInScope, hne, if_neg (by simp)] at h
  set found := db.securityGroups.rows.filter fun r => ids.contains r.id && s.owns r.project
  have hlen : (found.map SecurityGroup.id).length = ids.length := by
    rw [length_map]
    exact of_decide_eq_true (by simpa using h)
  have hnodup : (found.map SecurityGroup.id).Nodup :=
    db.securityGroups.nodup.sublist (filter_sublist.map _)
  have hsub : found.map SecurityGroup.id ⊆ ids := by
    intro i hi
    obtain ⟨r, hr, rfl⟩ := mem_map.mp hi
    have hr' := (mem_filter.mp hr).2
    simp only [Bool.and_eq_true, contains_iff_mem] at hr'
    exact hr'.1
  have hperm : (found.map SecurityGroup.id).Perm ids :=
    (hnodup.subperm hsub).perm_of_length_le hlen.ge
  obtain ⟨r, hr, rfl⟩ := mem_map.mp (hperm.mem_iff.mpr hg)
  obtain ⟨hmem, hr'⟩ := mem_filter.mp hr
  simp only [Bool.and_eq_true] at hr'
  exact ⟨r, hmem, rfl, hr'.2⟩

end Db

end VQuasar.Tenancy
