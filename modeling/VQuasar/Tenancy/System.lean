import VQuasar.Tenancy.Callers

/-!
# The control plane as a system

What happens to the database over time (`Action`): requests of anyone, in any scope; the two
requests that carry a secret; and the reconcile loop, which writes the status of a VM, has an agent
ready its disks, and removes the row of a VM it has torn down.  A request is a login and guarded
statements in the scope it names (`handle_steps`).
-/

namespace VQuasar.Tenancy

/-! ## Files of a VM -/

/-- What an agent finds when it readies disks. -/
structure Found where
  present : HostPath → Bool
  /-- smaller than the size the spec asks for -/
  small : HostPath → Bool

/-- `provision_disk`, for what it does to files -/
def DiskSpec.provision (d : DiskSpec) (found : Found) : List FileOp :=
  if found.present d.path then
    if d.sizeBytes.isSome && found.small d.path then [.write d.path] else []
  else
    match d.source with
    | none => [.write d.path]
    | some source => .clone source d.path :: if d.sizeBytes.isSome then [.write d.path] else []

/-- `prepare`, for one disk, and the attachment when the VMM is started -/
def DiskSpec.ready (vm : Id) (found : Found) (d : DiskSpec) : List FileOp :=
  (if d.needsProvisioning then d.provision found else []) ++ [.attach vm d.path]

def BootSpec.files : BootSpec → List HostPath
  | .directKernel kernel initramfs _ => kernel :: initramfs.toList
  | .firmware path => [path]

/-- The file operations of `ensure_vm`, but for the cloud-init seed. -/
def VirtualMachineSpec.ready (spec : VirtualMachineSpec) (vm : Id) (found : Found) : List FileOp :=
  spec.disks.flatMap (DiskSpec.ready vm found) ++ spec.boot.files.map (.attach vm)

/-! ## Actions -/

/-- What the reconcile loop records of a VM. -/
structure Status where
  phase : VmPhase
  host : Option Id
  observedGeneration : Nat
  message : Option String

def Vm.withStatus (st : Status) (vm : Vm) : Vm :=
  { vm with
    phase := st.phase, host := st.host, observedGeneration := st.observedGeneration,
    message := st.message }

inductive Action
  | request (claims : Option Claims) (ref : ProjectRef) (w : Write)
  | phoneHome (vm : Id) (token : Option Nat) (ip : String)
  | bootstrapSign (token : Option Nat) (signed : Except ApiError String)
  /-- the reconcile loop records what it has seen of a VM -/
  | observe (vm : Id) (st : Status)
  /-- an agent readies the disks of a VM and starts it -/
  | ready (vm : Id) (found : Found)
  /-- a VM has been torn down, and its row goes -/
  | reap (vm : Id)

def Db.fileOps (db : Db) (ops : List FileOp) : Db := ops.foldl Db.fileOp db

/-- One action; the reconcile loop acts on VMs there are, and reaps those that are being deleted. -/
def step (cfg : Config) (db : Db) : Action → Option Db
  | .request claims ref w => some (handle cfg db claims ref w)
  | .phoneHome vm token ip => some (phoneHome db vm token ip)
  | .bootstrapSign token signed => some (bootstrapSign db token signed).1
  | .observe vm st => some (db.setVm vm (Vm.withStatus st) fun _ => rfl)
  | .ready vm found => (db.vms.get vm).map fun r => db.fileOps (r.spec.ready vm found)
  | .reap vm =>
    if (db.vms.get vm).any fun r => r.phase == .deleting then some (db.deleteVmRow vm) else none

/-! ## What the actions write -/

section

variable {cfg : Config} {db db' : Db}

theorem fileOps_eq (db : Db) (ops : List FileOp) :
    db.fileOps ops = { db with files := ops.reverse ++ db.files } := by
  induction ops generalizing db with
  | nil => rfl
  | cons op ops ih =>
    show (db.fileOp op).fileOps ops = _
    rw [ih]
    simp [Db.fileOp]

theorem login_eq (cfg : Config) (db : Db) (c : Claims) :
    ∃ t r, login cfg db c = { db with users := t, userRoles := r } := by
  have hupsert : ∃ t, db.upsertUser c.subject c.username c.email c.displayName =
      { db with users := t } := by
    unfold Db.upsertUser
    split <;> exact ⟨_, rfl⟩
  obtain ⟨t, ht⟩ := hupsert
  simp only [login, ht]
  split
  · unfold Db.grantRoleByName
    split
    · exact ⟨t, _, rfl⟩
    · exact ⟨t, db.userRoles, rfl⟩
  · exact ⟨t, db.userRoles, rfl⟩

theorem authenticate_eq (cfg : Config) (db : Db) (claims : Option Claims) (ref : ProjectRef) :
    ∃ t r, (authenticate cfg db claims ref).1 = { db with users := t, userRoles := r } := by
  unfold authenticate
  split
  · exact ⟨db.users, db.userRoles, rfl⟩
  · cases claims with
    | none => exact ⟨db.users, db.userRoles, rfl⟩
    | some => exact login_eq cfg db _

/-- A request is handled after a login, or goes no further than that. -/
theorem handle_perform (cfg : Config) (db : Db) (claims : Option Claims) (ref : ProjectRef)
    (w : Write) : ∃ t r, handle cfg db claims ref w = { db with users := t, userRoles := r } ∨
      ∃ s u, handle cfg db claims ref w = w.perform cfg s u { db with users := t, userRoles := r } := by
  obtain ⟨t, r, hauth⟩ := authenticate_eq cfg db claims ref
  refine ⟨t, r, ?_⟩
  simp only [handle]
  rw [← hauth]
  cases authenticate cfg db claims ref with
  | mk d answer =>
    cases answer with
    | error e => exact Or.inl rfl
    | ok us => exact Or.inr ⟨us.2, us.1, rfl⟩

theorem resolveScope_congr (h : db'.projects = db.projects) (ref : ProjectRef) :
    resolveScope cfg db' ref = resolveScope cfg db ref := by
  unfold resolveScope
  rw [h]

/-- **A request is a login and guarded statements** in the scope that it names. -/
theorem handle_steps (cfg : Config) (db : Db) (claims : Option Claims) (ref : ProjectRef)
    (w : Write) : ∃ t r, handle cfg db claims ref w = { db with users := t, userRoles := r } ∨
      ∃ s u, resolveScope cfg db ref = .ok s ∧
        Steps cfg s u w { db with users := t, userRoles := r }
          { db with users := t, userRoles := r } (handle cfg db claims ref w) := by
  by_cases hauth : cfg.authenticator
  · cases claims with
    | none =>
      refine ⟨db.users, db.userRoles, Or.inl ?_⟩
      simp only [handle, authenticate, hauth, Bool.not_true, Bool.false_eq_true, if_false]
    | some c =>
      obtain ⟨t, r, hlogin⟩ := login_eq cfg db c
      refine ⟨t, r, ?_⟩
      have hscope : resolveScope cfg (login cfg db c) ref = resolveScope cfg db ref :=
        resolveScope_congr (by rw [hlogin]) ref
      simp only [handle, authenticate, hauth, Bool.not_true, Bool.false_eq_true, if_false, hscope]
      rw [← hlogin]
      cases hs : resolveScope cfg db ref with
      | error e => exact Or.inl rfl
      | ok s => exact Or.inr ⟨s, _, rfl, perform_steps _ _ _ _ _⟩
  · refine ⟨db.users, db.userRoles, ?_⟩
    simp only [handle, authenticate, hauth, Bool.not_false, if_true]
    cases hs : resolveScope cfg db ref with
    | error e => exact Or.inl rfl
    | ok s => exact Or.inr ⟨s, _, rfl, perform_steps _ _ _ _ _⟩

theorem bootstrapSign_eq (db : Db) (token : Option Nat) (signed : Except ApiError String) :
    ∃ h t e, (bootstrapSign db token signed).1 =
      { db with hosts := h, enrollmentTokens := t, events := e } := by
  unfold bootstrapSign
  cases token with
  | none => exact ⟨db.hosts, db.enrollmentTokens, db.events, rfl⟩
  | some token =>
  simp only [Db.consumeEnrollmentToken]
  cases db.enrollmentTokens.find? fun t => t.token == token && !t.used with
  | none => exact ⟨db.hosts, db.enrollmentTokens, db.events, rfl⟩
  | some t =>
  simp only
  split
  · exact ⟨db.hosts, _, db.events, rfl⟩
  · split
    · exact ⟨db.hosts, _, db.events, rfl⟩
    · exact ⟨_, _, _, rfl⟩

/-- What an action leaves, one case for each way it can go. -/
inductive Acts (cfg : Config) (db : Db) : Action → Db → Prop
  | request (claims : Option Claims) (ref : ProjectRef) (w : Write) :
      Acts cfg db (.request claims ref w) (handle cfg db claims ref w)
  | phoneHome (vm : Id) (token : Option Nat) (ip : String) : Acts cfg db (.phoneHome vm token ip)
      ((db.setVmIp vm ip).insertEvent .vm (some vm) "vm.phone_home" "info" ip)
  | unheard (vm : Id) (token : Option Nat) (ip : String) : Acts cfg db (.phoneHome vm token ip) db
  | bootstrapSign (token : Option Nat) (signed : Except ApiError String) (hosts : IdTable Host)
      (tokens : List EnrollmentToken) (events : List Event) :
      Acts cfg db (.bootstrapSign token signed)
        { db with hosts := hosts, enrollmentTokens := tokens, events := events }
  | observe (vm : Id) (st : Status) :
      Acts cfg db (.observe vm st) (db.setVm vm (Vm.withStatus st) fun _ => rfl)
  | ready {vm : Id} {found : Found} {r : Vm} (hr : db.vms.get vm = some r) :
      Acts cfg db (.ready vm found) { db with files := (r.spec.ready vm found).reverse ++ db.files }
  | reap {vm : Id} (h : (db.vms.get vm).any (fun r => r.phase == .deleting) = true) :
      Acts cfg db (.reap vm) (db.deleteVmRow vm)

theorem step_acts {a : Action} (h : step cfg db a = some db') : Acts cfg db a db' := by
  cases a with
  | request claims ref w =>
    cases h
    exact .request claims ref w
  | phoneHome vm token ip =>
    cases h
    unfold Tenancy.phoneHome
    split
    · split
      · exact .phoneHome vm token ip
      · exact .unheard vm token ip
    · exact .unheard vm token ip
  | bootstrapSign token signed =>
    cases h
    obtain ⟨hosts, t, e, heq⟩ := bootstrapSign_eq db token signed
    exact heq ▸ .bootstrapSign token signed hosts t e
  | observe vm st =>
    cases h
    exact .observe vm st
  | ready vm found =>
    obtain ⟨r, hr, rfl⟩ := Option.map_eq_some_iff.mp h
    exact fileOps_eq db _ ▸ .ready hr
  | reap vm =>
    obtain ⟨hdeleting, ⟨⟩⟩ := Option.ite_none_right_eq_some.mp h
    exact .reap hdeleting

end

/-! ## A small deployment

Two projects besides the default one, each with one user who holds every permission there, a network
of the second project and a shared one. -/

def storageRoot : HostPath := ⟨true, [.normal (.named "srv")]⟩

def sampleCfg : Config where
  tenancyEnabled := true
  authenticator := true
  bootstrapAdmin := none
  allowedPaths := [storageRoot]
  sharedVolumesDir := storageRoot
  policyEnforced := true
  egressEnforced := false
  providerVlans := []
  describeVlans := "none"
  physicalNetworks := ["default"]
  vniStart := 1
  vniEnd := 9
  phoneHomeToken := fun id => id
  enrollmentToken := fun id => id
  schedule := fun _ _ _ _ => .error .noCapacity

def unmanaged : NetworkIpam := ⟨none, none, none, none, [], none, none, none, none⟩

def sampleDb : Db where
  vms := .empty
  volumes := .empty
  snapshots := .empty
  templates := .empty
  images := .empty
  securityGroups := .empty
  rules := .empty
  networks := ⟨[⟨0, "blue-net", .tenant, none, none, none, none, unmanaged, none, some 3⟩,
    ⟨1, "shared-net", .provider, none, none, none, none, unmanaged, none, none⟩], 2,
    by decide, by decide⟩
  segments := []
  allocations := .empty
  projects := ⟨[⟨1, "default", none, true, none⟩, ⟨2, "red", none, false, none⟩,
    ⟨3, "blue", none, false, none⟩], 4, by decide, by decide⟩
  quotas := []
  hosts := .empty
  pools := ⟨[⟨0, "default", none, .sharedDir storageRoot⟩], 1, by decide, by decide⟩
  poolReports := []
  users := ⟨[⟨0, "alice", "alice", none, none⟩, ⟨1, "bob", "bob", none, none⟩], 2,
    by decide, by decide⟩
  roles := ⟨[⟨0, "owner", none, false⟩], 1, by decide, by decide⟩
  rolePermissions := Permission.catalog.map fun p => ⟨0, p⟩
  userRoles := [⟨0, 0, some 2⟩, ⟨1, 0, some 3⟩]
  groupRoles := []
  tasks := .empty
  events := []
  migrations := .empty
  enrollmentTokens := []
  files := []

def alice : Claims := ⟨"alice", "alice", none, none, []⟩

theorem sample_tenants {db : Db} (husers : db.users = sampleDb.users)
    (hroles : db.userRoles = sampleDb.userRoles) (hgroups : db.groupRoles = sampleDb.groupRoles) :
    Tenants sampleCfg 2 (fun c => c = alice) db := by
  constructor
  · intro r hr
    rw [hroles] at hr
    rw [husers]
    exact (by decide : ∀ r ∈ sampleDb.userRoles, r.user < sampleDb.users.next) r hr
  · rintro c rfl
    refine ⟨by decide, ?_, ?_⟩
    · rw [hroles, husers]
      exact (by decide : ∀ u ∈ sampleDb.users.rows, u.subject = alice.subject →
        ∀ r ∈ sampleDb.userRoles, r.user = u.id → r.project = some 2)
    · rw [hgroups]
      exact fun r hr => nomatch hr

def sampleSpec : VirtualMachineSpec where
  desiredPowerState := .running
  cpu := ⟨1, 1⟩
  memory := ⟨512, none⟩
  boot := .firmware (storageRoot.join (.named "fw"))
  disks := []
  networkInterfaces := []
  placement := none
  cloudInit := none
  machineType := .standard

end VQuasar.Tenancy
