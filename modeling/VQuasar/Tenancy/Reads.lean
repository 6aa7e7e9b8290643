import VQuasar.Tenancy.Iam

/-!
# What a project's callers can learn

Two databases agree for project `P` when `P`'s rows, the shared rows and the platform's rows are the
same in both (`Agree`).  A caller whose bindings all name `P` and who acts in `P` should get the same
answer to every read request in both.  Every query but one carries the scope or hangs on a row of it;
the addresses given out on a network are all returned to whoever sees the network:

    (∀ databases that agree, the same answer to q) ↔ q.isAllocations = false     (reads_noninterfering)
-/

namespace VQuasar.Tenancy

open List Option IdTable Scope

/-! ## Requests that read -/

/-- The `GET` routes on what projects own, and on projects. -/
inductive Read
  | listVms
  | readVm (id : Id)
  | metrics (id : Id)
  | migrationTargets (id : Id)
  | listVolumes
  | readVolume (id : Id)
  | listSnapshots (id : Id)
  | listNetworks
  | readNetwork (id : Id)
  | networkAllocations (id : Id)
  | listImages
  | readImage (id : Id)
  | listTemplates
  | readTemplate (id : Id)
  | listGroups
  | readGroup (id : Id)
  | listTasks
  | readTask (id : Id)
  | listEvents (limit : Int)
  | listProjects
  | readProject (id : Id)
  | readQuota (id : Id)

def Read.Answer : Read → Type
  | .listVms => List Vm
  | .readVm _ => Vm
  | .metrics _ => Option Host
  | .migrationTargets _ => List MigrationTarget
  | .listVolumes => List VolumeView
  | .readVolume _ => VolumeView
  | .listSnapshots _ => List VolumeSnapshot
  | .listNetworks => List Network
  | .readNetwork _ => Network
  | .networkAllocations _ => List IpAllocation
  | .listImages => List Image
  | .readImage _ => Image
  | .listTemplates => List Template
  | .readTemplate _ => Template
  | .listGroups => List SecurityGroupView
  | .readGroup _ => SecurityGroupView
  | .listTasks => List Task
  | .readTask _ => Task
  | .listEvents _ => List Event
  | .listProjects => List Project
  | .readProject _ => Project
  | .readQuota _ => QuotaView

def Read.run (cfg : Config) (db : Db) (s : Scope) (u : AuthUser) :
    (q : Read) → Except ApiError q.Answer
  | .listVms => Tenancy.listVms db s u
  | .readVm id => Tenancy.readVm db s u id
  | .metrics id => metricsHost db s u id
  | .migrationTargets id => Tenancy.migrationTargets db s u id
  | .listVolumes => Tenancy.listVolumes cfg db s u
  | .readVolume id => Tenancy.readVolume cfg db s u id
  | .listSnapshots id => Tenancy.listSnapshots db s u id
  | .listNetworks => Tenancy.listNetworks db s u
  | .readNetwork id => Tenancy.readNetwork db s u id
  | .networkAllocations id => Tenancy.networkAllocations db s u id
  | .listImages => Tenancy.listImages db s u
  | .readImage id => Tenancy.readImage db s u id
  | .listTemplates => Tenancy.listTemplates db s u
  | .readTemplate id => Tenancy.readTemplate db s u id
  | .listGroups => Tenancy.listGroups db s u
  | .readGroup id => Tenancy.readGroup db s u id
  | .listTasks => Tenancy.listTasks db s u
  | .readTask id => Tenancy.readTask db s u id
  | .listEvents limit => Tenancy.listEvents db s u limit
  | .listProjects => Tenancy.listProjects db u
  | .readProject id => Tenancy.readProject db u id
  | .readQuota id => Tenancy.readQuota db u id

/-- The answer to a caller: authentication, the scope, then the handler. -/
def answer (cfg : Config) (db : Db) (c : Claims) (ref : ProjectRef) (q : Read) :
    Except ApiError q.Answer :=
  match authenticate cfg db (some c) ref with
  | (_, .error e) => .error e
  | (db, .ok (u, s)) => q.run cfg db s u

def Read.isAllocations : Read → Bool
  | .networkAllocations _ => true
  | _ => false

/-! ## Databases that agree for a project -/

variable (db : Db) (P : Id)

def Db.snapshotOf (r : VolumeSnapshot) : Bool :=
  db.volumes.rows.any fun v => v.id == r.volume && v.project == P

def Db.ruleOf (r : SecurityGroupRule) : Bool :=
  db.securityGroups.rows.any fun g => g.id == r.group && g.project == P

def Db.allocationOf (r : IpAllocation) : Bool :=
  db.vms.rows.any fun v => r.vm == some v.id && v.project == P

/-- The rows of `P`, the shared rows and the rows of the platform are the same in both. -/
structure Agree (P : Id) (db₁ db₂ : Db) : Prop where
  vms : IdTable.Same (fun r => r.project == P) db₁.vms db₂.vms
  volumes : IdTable.Same (fun r => r.project == P) db₁.volumes db₂.volumes
  snapshots : db₂.snapshots.rows.filter (db₂.snapshotOf P) =
    db₁.snapshots.rows.filter (db₁.snapshotOf P)
  templates : IdTable.Same (fun r => r.project == P) db₁.templates db₂.templates
  images : IdTable.Same (fun r => r.project == none || r.project == some P) db₁.images db₂.images
  securityGroups : IdTable.Same (fun r => r.project == P) db₁.securityGroups db₂.securityGroups
  rules : db₂.rules.rows.filter (db₂.ruleOf P) = db₁.rules.rows.filter (db₁.ruleOf P)
  networks : IdTable.Same (fun r => r.project == none || r.project == some P)
    db₁.networks db₂.networks
  allocations : db₂.allocations.rows.filter (db₂.allocationOf P) =
    db₁.allocations.rows.filter (db₁.allocationOf P)
  tasks : IdTable.Same (fun r => r.project == some P) db₁.tasks db₂.tasks
  events : db₂.events.filter (fun r => r.project == some P) =
    db₁.events.filter fun r => r.project == some P
  projects : IdTable.Same (fun r => r.id == P) db₁.projects db₂.projects
  quotas : db₂.quotas.filter (fun q => q.project == P) = db₁.quotas.filter fun q => q.project == P
  userRoles : ∀ r : UserRole, r.project = some P → (r ∈ db₂.userRoles ↔ r ∈ db₁.userRoles)
  groupRoles : ∀ r : GroupRole, r.project = some P → (r ∈ db₂.groupRoles ↔ r ∈ db₁.groupRoles)
  hosts : db₂.hosts = db₁.hosts
  pools : db₂.pools = db₁.pools
  poolReports : db₂.poolReports = db₁.poolReports
  users : db₂.users = db₁.users
  roles : db₂.roles = db₁.roles
  rolePermissions : db₂.rolePermissions = db₁.rolePermissions

/-- A caller whose bindings all name `P`, in a database whose bindings are keyed, and who acts in `P`. -/
structure ActsIn (cfg : Config) (P : Id) (db : Db) (c : Claims) (ref : ProjectRef) : Prop where
  keyed : db.UsersKeyed
  bound : BoundTo cfg P db c
  scope : resolveScope cfg db ref = .ok (.project P)

/-! ## The predicates of the queries -/

theorem owns_project_eq (P q : Id) : (project P).owns q = (q == P) :=
  Bool.eq_iff_iff.mpr ((owns_project P q).trans beq_iff_eq.symm)

theorem sees_project_eq (q : Option Id) :
    (project P).sees q = (q == none || q == some P) := by
  refine Bool.eq_iff_iff.mpr ((sees_project P q).trans ?_)
  rw [Bool.or_eq_true, beq_iff_eq, beq_iff_eq]

theorem ownsShareable_project_eq (q : Option Id) :
    (project P).ownsShareable q = (q == some P) :=
  Bool.eq_iff_iff.mpr ((ownsShareable_project P q).trans beq_iff_eq.symm)

theorem filter_of_imp {α : Type} {p q : α → Bool} {rows : List α}
    (h : ∀ r ∈ rows, p r → q r) : rows.filter p = (rows.filter q).filter p := by
  rw [List.filter_filter]
  refine List.filter_congr fun r hr => ?_
  cases hp : p r with
  | false => rfl
  | true => simp [h r hr hp]

section

variable {cfg : Config} {P : Id} {db db₁ db₂ : Db} {u : AuthUser} {c : Claims}
  {β : Type} {e : ApiError} {ref : ProjectRef}

/-! ## Looking up what is in the scope -/

namespace Agree

section

variable (h : Agree P db₁ db₂) {v : Volume}
include h

section

variable (id : Id)
include id

theorem getVm : db₂.getVm (.project P) id = db₁.getVm (.project P) id := by
  simp only [Db.getVm, owns_project_eq]
  exact h.vms.get id

theorem getVolume : db₂.getVolume (.project P) id = db₁.getVolume (.project P) id := by
  simp only [Db.getVolume, owns_project_eq]
  exact h.volumes.get id

theorem getTemplate : db₂.getTemplate (.project P) id = db₁.getTemplate (.project P) id := by
  simp only [Db.getTemplate, owns_project_eq]
  exact h.templates.get id

theorem getSecurityGroup :
    db₂.getSecurityGroup (.project P) id = db₁.getSecurityGroup (.project P) id := by
  simp only [Db.getSecurityGroup, owns_project_eq]
  exact h.securityGroups.get id

theorem getNetwork : db₂.getNetwork (.project P) id = db₁.getNetwork (.project P) id := by
  simp only [Db.getNetwork, sees_project_eq]
  exact h.networks.get id

theorem visibleImage : db₂.visibleImage (.project P) id = db₁.visibleImage (.project P) id := by
  simp only [Db.visibleImage, sees_project_eq]
  exact h.images.get id

theorem getTask : db₂.getTask (.project P) id = db₁.getTask (.project P) id := by
  simp only [Db.getTask, ownsShareable_project_eq]
  exact h.tasks.get id

end

theorem getProject : db₂.projects.get P = db₁.projects.get P := by
  have hrows : (db₂.projects.get P).toList = (db₁.projects.get P).toList := by
    rw [← filter_id, ← filter_id]
    exact h.projects
  simpa using congrArg List.head? hrows

theorem snapshots_of (hv : v ∈ db₁.volumes) (hP : v.project = P) :
    db₂.snapshots.rows.filter (fun r => r.volume == v.id) =
      db₁.snapshots.rows.filter fun r => r.volume == v.id := by
  have hof : ∀ db : Db, v ∈ db.volumes →
      db.snapshots.rows.filter (fun r => r.volume == v.id) =
        (db.snapshots.rows.filter (db.snapshotOf P)).filter fun r => r.volume == v.id := by
    intro db hv
    refine filter_of_imp fun r _ hr => any_eq_true.mpr ⟨v, hv, ?_⟩
    simp [eq_of_beq hr, hP]
  have hv₂ : v ∈ db₂.volumes := h.volumes.mem hv (by simp [hP])
  rw [hof db₂ hv₂, hof db₁ hv, h.snapshots]

theorem groupView {g : SecurityGroup} (hg : g ∈ db₁.securityGroups)
    (hP : g.project = P) : db₂.groupView g = db₁.groupView g := by
  have hof : ∀ db : Db, g ∈ db.securityGroups →
      db.rules.rows.filter (fun r => r.group == g.id) =
        (db.rules.rows.filter (db.ruleOf P)).filter fun r => r.group == g.id := by
    intro db hg
    refine filter_of_imp fun r _ hr => any_eq_true.mpr ⟨g, hg, ?_⟩
    simp [eq_of_beq hr, hP]
  have hg₂ : g ∈ db₂.securityGroups := h.securityGroups.mem hg (by simp [hP])
  unfold Db.groupView
  rw [hof db₂ hg₂, hof db₁ hg, h.rules]

theorem volumeView (hv : v ∈ db₁.volumes)
    (hP : v.project = P) : db₂.volumeView cfg v = db₁.volumeView cfg v := by
  simp only [Db.volumeView, Db.snapshotCount, h.snapshots_of hv hP, Db.fileOf, Db.volumeDir, h.pools]

theorem migrationTarget (vm : Vm) (host : Host) :
    db₂.migrationTarget vm host = db₁.migrationTarget vm host := by
  have hreports : db₂.reports = db₁.reports := by
    funext host pool
    simp only [Db.reports, h.poolReports]
  simp only [Db.migrationTarget, Db.hardObstacle, Db.localPool, hreports, h.hosts, h.pools]

theorem usageIn : db₂.usageIn P = db₁.usageIn P := by
  have hvms := h.vms
  have hvolumes := h.volumes
  unfold IdTable.Same at hvms hvolumes
  simp only [Db.usageIn, hvms, hvolumes]

theorem getQuota : db₂.getQuota P = db₁.getQuota P := by
  unfold Db.getQuota
  rw [← List.head?_filter, ← List.head?_filter, h.quotas]

end

end Agree

/-! ## What the caller is -/

/-- Every binding of the caller, as the handlers look them up, names `P`. -/
structure BindingsIn (P : Id) (db : Db) (u : AuthUser) : Prop where
  user : ∃ id, u.user = some id ∧ ∀ r ∈ db.userRoles, r.user = id → r.project = some P
  groups : ∀ r ∈ db.groupRoles, r.group ∈ u.groups → r.project = some P

/-- The only project that the caller may know of is `P`, and that when they are bound there. -/
theorem BindingsIn.knows_iff (hb : BindingsIn P db u) (project : Id) :
    u.knows db project ↔ project = P ∧
      ((∃ r ∈ db.userRoles, r.project = some P ∧ u.user = some r.user) ∨
        ∃ r ∈ db.groupRoles, r.project = some P ∧ r.group ∈ u.groups) := by
  obtain ⟨⟨id, hid, hdirect⟩, hgroups⟩ := hb
  set bound := (db.userRoles.filter fun r => r.user == id).map UserRole.project ++
    (db.groupRoles.filter fun r => u.groups.contains r.group).map GroupRole.project with hbound
  have hmem : ∀ p, p ∈ bound ↔ (∃ r ∈ db.userRoles, r.user = id ∧ r.project = p) ∨
      ∃ r ∈ db.groupRoles, r.group ∈ u.groups ∧ r.project = p := by
    intro p
    simp [hbound, and_assoc]
  have hall : ∀ p ∈ bound, p = some P := by
    intro p hp
    rcases (hmem p).mp hp with ⟨r, hr, huser, rfl⟩ | ⟨r, hr, hgroup, rfl⟩
    · exact hdirect r hr huser
    · exact hgroups r hr hgroup
  have hsome : db.projectsForCaller id u.groups = some (bound.filterMap fun p => p) := by
    unfold Db.projectsForCaller
    rw [← hbound]
    refine if_neg ?_
    rw [List.any_eq_true]
    rintro ⟨p, hp, hnone⟩
    simp [hall p hp] at hnone
  have hknows : u.knows db project ↔ some project ∈ bound := by
    unfold AuthUser.knows
    rw [hid]
    simp only [hsome, all_some, contains_iff_mem, mem_filterMap]
    exact ⟨fun ⟨p, hp, heq⟩ => heq ▸ hp, fun hp => ⟨some project, hp, rfl⟩⟩
  rw [hknows]
  constructor
  · intro hp
    obtain rfl : project = P := some.inj (hall _ hp)
    refine ⟨rfl, ?_⟩
    rcases (hmem _).mp hp with ⟨r, hr, huser, hproject⟩ | ⟨r, hr, hgroup, hproject⟩
    · exact Or.inl ⟨r, hr, hproject, by rw [hid, huser]⟩
    · exact Or.inr ⟨r, hr, hproject, hgroup⟩
  · rintro ⟨rfl, hany⟩
    refine (hmem _).mpr ?_
    rcases hany with ⟨r, hr, hproject, huser⟩ | ⟨r, hr, hproject, hgroup⟩
    · exact Or.inl ⟨r, hr, (mem_unique hid huser).symm, hproject⟩
    · exact Or.inr ⟨r, hr, hgroup, hproject⟩

section

variable (h : Agree P db₁ db₂) (hb₁ : BindingsIn P db₁ u) (hb₂ : BindingsIn P db₂ u)
include h hb₁ hb₂

theorem Agree.knows (project : Id) : u.knows db₂ project = u.knows db₁ project := by
  refine Bool.eq_iff_iff.mpr ?_
  rw [hb₂.knows_iff, hb₁.knows_iff]
  refine and_congr_right fun _ => or_congr ?_ ?_
  · exact exists_congr fun r => ⟨fun ⟨hr, hp, hu⟩ => ⟨(h.userRoles r hp).mp hr, hp, hu⟩,
      fun ⟨hr, hp, hu⟩ => ⟨(h.userRoles r hp).mpr hr, hp, hu⟩⟩
  · exact exists_congr fun r => ⟨fun ⟨hr, hp, hu⟩ => ⟨(h.groupRoles r hp).mp hr, hp, hu⟩,
      fun ⟨hr, hp, hu⟩ => ⟨(h.groupRoles r hp).mpr hr, hp, hu⟩⟩

/-- The list of projects is that of one row at most, in whatever order it was sorted. -/
theorem Agree.listProjects : listProjects db₂ u = listProjects db₁ u := by
  have hrows : ∀ db : Db, BindingsIn P db u →
      ((db.projects.rows.insertionSort fun a b => a.name ≤ b.name).filter fun p =>
        u.knows db p.id) = (db.projects.get P).toList.filter fun p => u.knows db p.id := by
    intro db hb
    have hperm : ((db.projects.rows.insertionSort fun a b => a.name ≤ b.name).filter fun p =>
        p.id == P).Perm (db.projects.get P).toList := by
      rw [← filter_id]
      exact (perm_insertionSort _ _).filter _
    have heq : (db.projects.rows.insertionSort fun a b => a.name ≤ b.name).filter
        (fun p => p.id == P) = (db.projects.get P).toList := by
      cases hget : db.projects.get P with
      | none =>
        rw [hget] at hperm
        exact hperm.eq_nil
      | some p =>
        rw [hget] at hperm
        exact perm_singleton.mp hperm
    rw [← heq]
    exact filter_of_imp fun p _ hp => beq_iff_eq.mpr ((hb.knows_iff p.id).mp hp).1
  unfold Tenancy.listProjects
  rw [hrows db₂ hb₂, hrows db₁ hb₁, h.getProject]
  simp only [h.knows hb₁ hb₂]

end

/-! ## Every query but one -/

theorem orElse_map_congr {α : Type} {o : Option α} {f g : α → β} (h : ∀ a, o = some a → f a = g a) :
    (orElse o e >>= fun a => pure (f a)) = (orElse o e >>= fun a => pure (g a)) := by
  cases o with
  | none => rfl
  | some a => exact congrArg Except.ok (h a rfl)

theorem ensure_bind_congr {ok : Bool} {f g : Unit → Except ApiError β}
    (h : ok → f () = g ()) : (ensure ok e >>= f) = (ensure ok e >>= g) := by
  cases ok with
  | false => rfl
  | true => exact h rfl

section

variable (h : Agree P db₁ db₂)
include h

theorem Agree.readVolume (id : Id) :
    readVolume cfg db₂ (.project P) u id = readVolume cfg db₁ (.project P) u id := by
  unfold Tenancy.readVolume
  rw [h.getVolume]
  refine congrArg _ (funext fun _ => orElse_map_congr fun v hv => ?_)
  obtain ⟨hmem, -, hown⟩ := Db.getVolume_eq_some.mp hv
  exact h.volumeView hmem ((owns_project _ _).mp hown)

theorem Agree.listSnapshots (id : Id) :
    listSnapshots db₂ (.project P) u id = listSnapshots db₁ (.project P) u id := by
  unfold Tenancy.listSnapshots
  rw [h.getVolume]
  refine congrArg _ (funext fun _ => orElse_map_congr fun v hv => ?_)
  obtain ⟨hmem, rfl, hown⟩ := Db.getVolume_eq_some.mp hv
  exact h.snapshots_of hmem ((owns_project _ _).mp hown)

theorem Agree.listVolumes :
    listVolumes cfg db₂ (.project P) u = listVolumes cfg db₁ (.project P) u := by
  simp only [Tenancy.listVolumes, owns_project_eq, h.volumes.rows]
  refine congrArg _ (funext fun _ => congrArg pure (map_congr_left fun v hv => ?_))
  obtain ⟨hmem, hown⟩ := mem_filter.mp hv
  exact h.volumeView hmem (eq_of_beq hown)

theorem Agree.readGroup (id : Id) :
    readGroup db₂ (.project P) u id = readGroup db₁ (.project P) u id := by
  unfold Tenancy.readGroup
  rw [h.getSecurityGroup]
  refine congrArg _ (funext fun _ => orElse_map_congr fun g hg => ?_)
  obtain ⟨hget, hown⟩ := filter_eq_some_iff.mp hg
  exact h.groupView (get_eq_some.mp hget).1 ((owns_project _ _).mp hown)

theorem Agree.listGroups : listGroups db₂ (.project P) u = listGroups db₁ (.project P) u := by
  simp only [Tenancy.listGroups, owns_project_eq, h.securityGroups.rows]
  refine congrArg _ (funext fun _ => congrArg pure (map_congr_left fun g hg => ?_))
  obtain ⟨hmem, hown⟩ := mem_filter.mp ((perm_insertionSort _ _).mem_iff.mp hg)
  exact h.groupView hmem (eq_of_beq hown)

section

variable (hb₁ : BindingsIn P db₁ u) (hb₂ : BindingsIn P db₂ u)
include hb₁ hb₂

theorem Agree.readQuota (id : Id) : readQuota db₂ u id = readQuota db₁ u id := by
  unfold Tenancy.readQuota
  rw [h.knows hb₁ hb₂]
  refine congrArg _ (funext fun _ => ensure_bind_congr fun hk => ?_)
  obtain ⟨rfl, -⟩ := (hb₁.knows_iff id).mp hk
  rw [h.getProject, h.getQuota, h.usageIn]

theorem Agree.readProject (id : Id) : readProject db₂ u id = readProject db₁ u id := by
  unfold Tenancy.readProject
  rw [h.knows hb₁ hb₂]
  refine congrArg _ (funext fun _ => ensure_bind_congr fun hk => ?_)
  obtain ⟨rfl, -⟩ := (hb₁.knows_iff id).mp hk
  rw [h.getProject]

/-- **The handlers** of a caller in the scope of `P`. -/
theorem Agree.run {q : Read} (hq : q.isAllocations = false) :
    q.run cfg db₂ (.project P) u = q.run cfg db₁ (.project P) u := by
  cases q with
  | networkAllocations id => cases hq
  | listVms =>
    simp only [Read.run, Tenancy.listVms, owns_project_eq, h.vms.rows]
    rfl
  | readVm =>
    simp only [Read.run, Tenancy.readVm, h.getVm]
    rfl
  | metrics =>
    simp only [Read.run, metricsHost, h.getVm, h.hosts]
    rfl
  | migrationTargets =>
    simp only [Read.run, Tenancy.migrationTargets, h.getVm, h.hosts, funext (h.migrationTarget _)]
    rfl
  | listVolumes => exact h.listVolumes
  | readVolume => exact h.readVolume _
  | listSnapshots => exact h.listSnapshots _
  | listNetworks =>
    simp only [Read.run, Tenancy.listNetworks, sees_project_eq, h.networks.rows]
    rfl
  | readNetwork =>
    simp only [Read.run, Tenancy.readNetwork, h.getNetwork]
    rfl
  | listImages =>
    simp only [Read.run, Tenancy.listImages, sees_project_eq, h.images.rows]
    rfl
  | readImage =>
    simp only [Read.run, Tenancy.readImage, h.visibleImage]
    rfl
  | listTemplates =>
    simp only [Read.run, Tenancy.listTemplates, owns_project_eq, h.templates.rows]
    rfl
  | readTemplate =>
    simp only [Read.run, Tenancy.readTemplate, h.getTemplate]
    rfl
  | listGroups => exact h.listGroups
  | readGroup => exact h.readGroup _
  | listTasks =>
    simp only [Read.run, Tenancy.listTasks, ownsShareable_project_eq, h.tasks.rows]
    rfl
  | readTask =>
    simp only [Read.run, Tenancy.readTask, h.getTask]
    rfl
  | listEvents =>
    simp only [Read.run, Tenancy.listEvents, ownsShareable_project_eq, h.events]
    rfl
  | listProjects => exact h.listProjects hb₁ hb₂
  | readProject => exact h.readProject hb₁ hb₂ _
  | readQuota => exact h.readQuota hb₁ hb₂ _

end

end

/-! ## The caller is the same in both -/

theorem login_agree (husers : db₂.users = db₁.users) (hnb : cfg.isBootstrapAdmin c = false) :
    ∃ t, login cfg db₁ c = { db₁ with users := t } ∧ login cfg db₂ c = { db₂ with users := t } := by
  simp only [login, hnb, Db.upsertUser, husers, Bool.false_eq_true, if_false]
  split <;> exact ⟨_, rfl, rfl⟩

theorem Agree.roleBound (h : Agree P db₁ db₂) (hb₁ : BindingsIn P db₁ u)
    (hb₂ : BindingsIn P db₂ u) {user : Id} (huser : u.user = some user) (role : Id) :
    db₂.roleBound user u.groups (some P) role ↔ db₁.roleBound user u.groups (some P) role := by
  have hdirect : ∀ {db}, BindingsIn P db u → ∀ r ∈ db.userRoles, r.user = user →
      r.project = some P := by
    intro db hb r hr hid
    obtain ⟨id, hsome, hall⟩ := hb.user
    exact hall r hr (hid.trans (Option.mem_unique huser hsome))
  simp only [Db.roleBound, Bool.or_eq_true, List.any_eq_true, Bool.and_eq_true, beq_iff_eq,
    List.contains_iff_mem]
  refine or_congr (exists_congr fun r => ?_) (exists_congr fun r => ?_)
  · constructor
    · rintro ⟨hr, hrest⟩
      exact ⟨(h.userRoles r (hdirect hb₂ r hr hrest.1.1)).mp hr, hrest⟩
    · rintro ⟨hr, hrest⟩
      exact ⟨(h.userRoles r (hdirect hb₁ r hr hrest.1.1)).mpr hr, hrest⟩
  · constructor
    · rintro ⟨hr, hrest⟩
      exact ⟨(h.groupRoles r (hb₂.groups r hr hrest.1.1)).mp hr, hrest⟩
    · rintro ⟨hr, hrest⟩
      exact ⟨(h.groupRoles r (hb₁.groups r hr hrest.1.1)).mpr hr, hrest⟩

/-- A request in `P` is a login and the handler, with the permissions held in `P`. -/
theorem ActsIn.answer_eq_run (hauth : cfg.authenticator)
    (h : ActsIn cfg P db c ref) {t : IdTable User} (ht : login cfg db c = { db with users := t })
    (q : Read) : answer cfg db c ref q = q.run cfg { db with users := t } (.project P)
      ⟨some (db.userIdOf c), db.effectivePermissions (db.userIdOf c) c.groups (some P), c.groups,
        false⟩ := by
  have hs : resolveScope cfg { db with users := t } ref = .ok (.project P) :=
    (resolveScope_congr rfl ref).trans h.scope
  simp only [answer, authenticate, hauth, Bool.not_true, Bool.false_eq_true, if_false, ht, hs, bind,
    Except.bind, pure, Except.pure, projectFilter]
  rfl

/-- **The whole request.** -/
theorem answer_eq (hauth : cfg.authenticator) (h : Agree P db₁ db₂)
    (h₁ : ActsIn cfg P db₁ c ref) (h₂ : ActsIn cfg P db₂ c ref) {q : Read}
    (hq : q.isAllocations = false) : answer cfg db₂ c ref q = answer cfg db₁ c ref q := by
  obtain ⟨t, hl₁, hl₂⟩ := login_agree h.users h₁.bound.notBootstrap
  have hid : db₂.userIdOf c = db₁.userIdOf c := by
    simp only [Db.userIdOf, h.users]
  have hlogin : Agree P { db₁ with users := t } { db₂ with users := t } := { h with users := rfl }
  have hin : ∀ {db}, ActsIn cfg P db c ref → ∀ perms, BindingsIn P { db with users := t }
      ⟨some (db.userIdOf c), perms, c.groups, false⟩ := fun {db} ha perms =>
    ⟨⟨db.userIdOf c, rfl, ha.bound.userIdOf ha.keyed⟩, ha.bound.groups⟩
  have hperms : db₂.effectivePermissions (db₁.userIdOf c) c.groups (some P) =
      db₁.effectivePermissions (db₁.userIdOf c) c.groups (some P) := by
    refine effectivePermissions_congr fun role p => and_congr ?_ ?_
    · rw [h.rolePermissions]
    · exact hlogin.roleBound (hin h₁ []) (hid ▸ hin h₂ []) rfl role
  rw [h₁.answer_eq_run hauth hl₁, h₂.answer_eq_run hauth hl₂, hid, hperms]
  exact hlogin.run (hin h₁ _) (hid ▸ hin h₂ _) hq

end

/-! ## Addresses on a shared network -/

/-- A deployment with project `P` and a second one, whose VM has the given addresses on the shared
network `network`. -/
def sharedNetworkDb (P network : Id) (addresses : IdTable IpAllocation) : Db :=
  { sampleDb with
    vms := ⟨[⟨0, "other", sampleSpec, .running, none, 1, 1, none, none, none, P + 1⟩], 1,
      by simp [HasId.id], by simp⟩
    networks := ⟨[⟨network, "shared", .provider, none, none, none, none, unmanaged, none, none⟩],
      network + 1, by simp [HasId.id], by simp⟩
    projects := ⟨[⟨P, "red", none, false, none⟩], P + 1, by simp [HasId.id], by simp⟩
    userRoles := [⟨0, 0, some P⟩]
    allocations := addresses }

/-- One address of the VM of the other project. -/
def otherAddress (network : Id) : IdTable IpAllocation :=
  ⟨[⟨0, network, ⟨false, 7⟩, false, some 0, 0, none⟩], 1, by simp [HasId.id], by simp⟩

theorem otherAddress_listed (network : Id) :
    ((otherAddress network).rows.filter fun a => a.network == network) ≠
      (empty : IdTable IpAllocation).rows.filter fun a => a.network == network := by
  simp [otherAddress, empty]

section

variable {P network : Id} {addresses : IdTable IpAllocation}

theorem sharedNetworkDb_acts :
    ActsIn sampleCfg P (sharedNetworkDb P network addresses) alice (.id P) where
  keyed := by
    intro r hr
    obtain rfl := mem_singleton.mp hr
    exact (by decide : 0 < sampleDb.users.next)
  bound := by
    refine ⟨by decide, fun u _ _ r hr _ => ?_, fun r hr => nomatch hr⟩
    obtain rfl := mem_singleton.mp hr
    rfl
  scope := by
    have hget : (sharedNetworkDb P network addresses).projects.get P =
        some ⟨P, "red", none, false, none⟩ :=
      get_eq_some.mpr ⟨mem_cons_self, rfl⟩
    simp only [resolveScope, hget]
    rfl

/-- Whoever sees the network gets every address on it. -/
theorem sharedNetworkDb_answer :
    answer sampleCfg (sharedNetworkDb P network addresses) alice (.id P)
      (.networkAllocations network) =
      .ok (addresses.rows.filter fun a => a.network == network) := by
  have hacts : ActsIn sampleCfg P (sharedNetworkDb P network addresses) alice (.id P) :=
    sharedNetworkDb_acts
  obtain ⟨t, ht, -, -⟩ := login_users (sharedNetworkDb P network addresses) hacts.bound.notBootstrap
  rw [hacts.answer_eq_run rfl ht]
  have hperm : Permission.networkRead ∈ Db.effectivePermissions
      (sharedNetworkDb P network addresses) 0 [] (some P) := by
    refine mem_effectivePermissions.mpr
      ⟨0, (by decide : ⟨0, .networkRead⟩ ∈ sampleDb.rolePermissions), ?_⟩
    simp [Db.roleBound, sharedNetworkDb, Db.bindingCounts]
  have hvisible : Db.networkVisible { sharedNetworkDb P network addresses with users := t }
      (.project P) network = true :=
    Db.networkVisible_iff.mpr ⟨_, mem_cons_self, rfl, rfl⟩
  have hrequire : AuthUser.require ⟨some 0, Db.effectivePermissions
      (sharedNetworkDb P network addresses) 0 [] (some P), [], false⟩ .networkRead = .ok () := by
    simp [AuthUser.require, ensure, hperm]
  show networkAllocations _ _ _ _ = _
  unfold networkAllocations
  rw [hvisible]
  exact congrArg (· >>= _) hrequire

/-- The other project's address is no row of `P`'s. -/
theorem sharedNetworkDb_agree :
    Agree P (sharedNetworkDb P network .empty) (sharedNetworkDb P network (otherAddress network)) := by
  refine ⟨rfl, rfl, rfl, rfl, rfl, rfl, rfl, rfl, ?_, rfl, rfl, rfl, rfl, fun _ _ => Iff.rfl,
    fun _ _ => Iff.rfl, rfl, rfl, rfl, rfl, rfl, rfl⟩
  simp [sharedNetworkDb, otherAddress, Db.allocationOf, empty]

end

/-- **Read noninterference, and its one exception.**  In any two databases that agree for `P`, a
caller bound in `P` only gets the same answer, exactly when it is not for the addresses of a
network. -/
theorem reads_noninterfering (q : Read) :
    (∀ (cfg : Config) (db₁ db₂ : Db) (c : Claims) (ref : ProjectRef),
      cfg.tenancyEnabled → cfg.authenticator → Agree P db₁ db₂ →
      ActsIn cfg P db₁ c ref → ActsIn cfg P db₂ c ref →
      answer cfg db₂ c ref q = answer cfg db₁ c ref q) ↔ q.isAllocations = false := by
  constructor
  · intro h
    cases q with
    | networkAllocations network =>
      have heq := h sampleCfg _ _ alice (.id P) rfl rfl
        (sharedNetworkDb_agree : Agree P (sharedNetworkDb P network .empty) _) sharedNetworkDb_acts sharedNetworkDb_acts
      rw [sharedNetworkDb_answer, sharedNetworkDb_answer] at heq
      exact absurd (Except.ok.inj heq) (otherAddress_listed network)
    | _ => rfl
  · intro hq cfg db₁ db₂ c ref _ hauth hagree h₁ h₂
    exact answer_eq hauth hagree h₁ h₂ hq

/-- **The addresses of a shared network tell of other projects**: a caller bound in project 2 only
sees an address that a VM of project 3 has. -/
theorem foreign_address_listed : sampleCfg.tenancyEnabled ∧ sampleCfg.authenticator ∧
    Agree 2 (sharedNetworkDb 2 1 .empty) (sharedNetworkDb 2 1 (otherAddress 1)) ∧
    ActsIn sampleCfg 2 (sharedNetworkDb 2 1 .empty) alice (.id 2) ∧
    ActsIn sampleCfg 2 (sharedNetworkDb 2 1 (otherAddress 1)) alice (.id 2) ∧
    answer sampleCfg (sharedNetworkDb 2 1 (otherAddress 1)) alice (.id 2) (.networkAllocations 1) ≠
      answer sampleCfg (sharedNetworkDb 2 1 .empty) alice (.id 2) (.networkAllocations 1) := by
  refine ⟨rfl, rfl, sharedNetworkDb_agree, sharedNetworkDb_acts, sharedNetworkDb_acts, ?_⟩
  rw [sharedNetworkDb_answer, sharedNetworkDb_answer]
  exact fun heq => otherAddress_listed 1 (Except.ok.inj heq)

end VQuasar.Tenancy
