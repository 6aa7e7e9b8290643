import VQuasar.Tenancy.Platform

/-!
# Requests

The routes of `api/mod.rs` that write.  A request is authenticated, its scope is resolved, and its
handler runs (`handle`); `phoneHome` and `bootstrapSign` are the two that carry a secret of their
own instead of a caller.  Every handler asks for a permission before it writes, so a caller without
one in the scope of the request changes nothing (`perform_denied`).
-/

namespace VQuasar.Tenancy

variable {u : AuthUser} {s : Scope} {db : Db} {cfg : Config} {β α : Type}

/-- A request that may write, with what the outside world answers while it runs. -/
inductive Write
  | createVm (body : CreateVm)
  | createFromTemplate (body : CreateVmFromTemplate)
  | createFromVolume (body : CreateVmFromVolume)
  | updateVm (id : Id) (body : UpdateVm)
  | changeNic (id : Id) (index : Nat) (body : ChangeNic)
  | startVm (id : Id)
  | stopVm (id : Id)
  | deleteVm (id : Id)
  | migrateVm (id : Id) (body : MigrateRequest)
  | createVolume (body : CreateVolume) (tool : ToolRun)
  | deleteVolume (id : Id)
  | attachVolume (id vm : Id)
  | detachVolume (id : Id)
  | createSnapshot (id : Id) (name : String) (tool : ToolRun)
  | deleteSnapshot (id snap : Id) (tool : ToolRun)
  | revertSnapshot (id snap : Id) (tool : ToolRun)
  | createImage (body : CreateImage)
  | updateImage (id : Id) (body : CreateImage)
  | deleteImage (id : Id)
  | createTemplate (body : CreateTemplate)
  | updateTemplate (id : Id) (body : CreateTemplate)
  | deleteTemplate (id : Id)
  | createNetwork (body : CreateNetwork)
  | updateNetwork (id : Id) (body : CreateNetwork)
  | adoptSegment (id : Id) (body : AdoptSegment)
  | deleteNetwork (id : Id)
  | createGroup (body : CreateGroup)
  | updateGroup (id : Id) (body : CreateGroup)
  | deleteGroup (id : Id)
  | addRule (id : Id) (body : CreateRule)
  | deleteRule (id rule : Id)
  | createProject (body : CreateProject)
  | updateProject (id : Id) (body : CreateProject)
  | deleteProject (id : Id)
  | setQuota (id : Id) (body : Quota.Limits)
  | clearQuota (id : Id)
  | setUserRoles (id : Id) (roles : List Id)
  | createRole (body : CreateRole)
  | updateRole (id : Id) (body : UpdateRole)
  | deleteRole (id : Id)
  | addGroupRole (group : String) (role : Id)
  | removeGroupRole (group : String) (role : Id)
  | registerHost (name endpoint : String)
  | updateHost (id : Id) (schedulable : Bool)
  | drainHost (id : Id)
  | enroll (name endpoint : String) (ca : Text Unit)
  | createPool (body : CreatePool)
  | updatePool (id : Id) (name : String) (description : Option String)
  | deletePool (id : Id)

def Write.perform (cfg : Config) (s : Scope) (u : AuthUser) (db : Db) : Write → Db
  | .createVm body => (Tenancy.createVm cfg db s u body).1
  | .createFromTemplate body => (Tenancy.createFromTemplate cfg db s u body).1
  | .createFromVolume body => (Tenancy.createFromVolume cfg db s u body).1
  | .updateVm id body => (Tenancy.updateVm db s u id body).1
  | .changeNic id index body => (Tenancy.changeNic db s u id index body).1
  | .startVm id => (Tenancy.startVm db s u id).1
  | .stopVm id => (Tenancy.stopVm db s u id).1
  | .deleteVm id => (Tenancy.deleteVm db s u id).1
  | .migrateVm id body => (Tenancy.migrateVm db s u id body).1
  | .createVolume body tool => (Tenancy.createVolume cfg db s u body tool).1
  | .deleteVolume id => (Tenancy.deleteVolume cfg db s u id).1
  | .attachVolume id vm => (Tenancy.attachVolume cfg db s u id vm).1
  | .detachVolume id => (Tenancy.detachVolume cfg db s u id).1
  | .createSnapshot id name tool => (Tenancy.createSnapshot cfg db s u id name tool).1
  | .deleteSnapshot id snap tool => (Tenancy.deleteSnapshot cfg db s u id snap tool).1
  | .revertSnapshot id snap tool => (Tenancy.revertSnapshot cfg db s u id snap tool).1
  | .createImage body => (Tenancy.createImage cfg db s u body).1
  | .updateImage id body => (Tenancy.updateImage cfg db s u id body).1
  | .deleteImage id => (Tenancy.deleteImage db s u id).1
  | .createTemplate body => (Tenancy.createTemplate db s u body).1
  | .updateTemplate id body => (Tenancy.updateTemplate db s u id body).1
  | .deleteTemplate id => (Tenancy.deleteTemplate db s u id).1
  | .createNetwork body => (Tenancy.createNetwork cfg db s u body).1
  | .updateNetwork id body => (Tenancy.updateNetwork db s u id body).1
  | .adoptSegment id body => (Tenancy.adoptSegment cfg db s u id body).1
  | .deleteNetwork id => (Tenancy.deleteNetwork db s u id).1
  | .createGroup body => (Tenancy.createGroup db s u body).1
  | .updateGroup id body => (Tenancy.updateGroup db s u id body).1
  | .deleteGroup id => (Tenancy.deleteGroup db s u id).1
  | .addRule id body => (Tenancy.addRule cfg db s u id body).1
  | .deleteRule id rule => (Tenancy.deleteRule db s u id rule).1
  | .createProject body => (Tenancy.createProject db u body).1
  | .updateProject id body => (Tenancy.updateProject db u id body).1
  | .deleteProject id => (Tenancy.deleteProject db u id).1
  | .setQuota id body => (Tenancy.setQuota db u id body).1
  | .clearQuota id => (Tenancy.clearQuota db u id).1
  | .setUserRoles id roles => (Tenancy.setUserRoles db s u id roles).1
  | .createRole body => (Tenancy.createRole db u body).1
  | .updateRole id body => (Tenancy.updateRole db u id body).1
  | .deleteRole id => (Tenancy.deleteRole db u id).1
  | .addGroupRole group role => (Tenancy.addGroupRole db s u group role).1
  | .removeGroupRole group role => (Tenancy.removeGroupRole db s u group role).1
  | .registerHost name endpoint => (Tenancy.registerHost db u name endpoint).1
  | .updateHost id schedulable => (Tenancy.updateHost db u id schedulable).1
  | .drainHost id => (Tenancy.drainHost cfg db u id).1
  | .enroll name endpoint ca => (Tenancy.enroll cfg db u name endpoint ca).1
  | .createPool body => (Tenancy.createPool cfg db u body).1
  | .updatePool id name description => (Tenancy.updatePool db u id name description).1
  | .deletePool id => (Tenancy.deletePool db u id).1

/-- A request of a caller: authentication, the scope, then the handler. -/
def handle (cfg : Config) (db : Db) (claims : Option Claims) (ref : ProjectRef) (w : Write) : Db :=
  match authenticate cfg db claims ref with
  | (db, .error _) => db
  | (db, .ok (u, s)) => w.perform cfg s u db

/-! ## Permission first -/

def AuthUser.Powerless (u : AuthUser) : Prop := u.superuser = false ∧ u.permissions = []

theorem AuthUser.Powerless.require (h : u.Powerless) (p : Permission) : u.require p = .error
    (.forbidden p.name) := by
  obtain ⟨hs, hp⟩ := h
  simp [AuthUser.require, ensure, hs, hp]

theorem AuthUser.Powerless.require_bind (h : u.Powerless) (p : Permission) (f : Unit →
    Except ApiError β) : (u.require p >>= f) = .error (.forbidden p.name) := by
  rw [h.require p, error_bind]

theorem settle_error (db : Db) (e : ApiError) :
    (settle db (.error e : Except ApiError (Db × α))).1 = db := rfl

theorem attempt_error (db : Db) (e : ApiError) (run : α → Outcome β) :
    (attempt db (.error e) run).1 = db := rfl

/-- A network's kind only decides which permission is asked for. -/
theorem NetworkKind.require_ne_ok (h : u.Powerless) (k : NetworkKind) (p : Permission) (x : Unit) :
    k.require u p ≠ .ok x := by
  unfold NetworkKind.require
  split <;> rw [h.require] <;> exact fun hx => nomatch hx

theorem createNetwork_denied (h : u.Powerless) (body : CreateNetwork) : (createNetwork cfg db s u
    body).1 = db := by
  refine attempt_induction (motive := fun d => d = db) rfl fun kind hok => ?_
  obtain ⟨-, -, hok⟩ := bind_eq_ok.mp hok
  obtain ⟨kind, -, hok⟩ := bind_eq_ok.mp hok
  obtain ⟨x, hreq, -⟩ := bind_eq_ok.mp hok
  exact absurd hreq (kind.require_ne_ok h _ x)

theorem adoptSegment_denied (h : u.Powerless) (id : Id) (body : AdoptSegment) : (adoptSegment cfg db
    s u id body).1 = db := by
  refine settle_induction (motive := fun d => d = db) rfl fun _ _ hok => ?_
  obtain ⟨-, -, hok⟩ := bind_eq_ok.mp hok
  obtain ⟨net, -, hok⟩ := bind_eq_ok.mp hok
  obtain ⟨x, hreq, -⟩ := bind_eq_ok.mp hok
  exact absurd hreq (net.kind.require_ne_ok h _ x)

/-- **Permission first.**  Every handler asks for a permission in the scope of the request before
it writes, so a caller who holds none there changes nothing. -/
theorem perform_denied (h : u.Powerless) (w : Write) : w.perform cfg s u db = db := by
  cases w with
  | createNetwork => exact createNetwork_denied h _
  | adoptSegment => exact adoptSegment_denied h _ _
  | _ =>
  simp only [Write.perform, createVm, createSpec, createFromTemplate, templateSpec,
    createFromVolume, volumeSpec, updateVm, changeNic, changeNicSpec, startVm, stopVm, setPower,
    deleteVm, migrateVm, migrateChecks, createVolume, volumePlan, deleteVolume, attachVolume,
    detachVolume, createSnapshot, deleteSnapshot, revertSnapshot, createImage, updateImage,
    deleteImage, createTemplate, updateTemplate, deleteTemplate, updateNetwork, deleteNetwork,
    createGroup, updateGroup, deleteGroup, addRule, deleteRule, createProject, updateProject,
    deleteProject, setQuota, quotaChecks, clearQuota, setUserRoles, createRole, updateRole,
    deleteRole, addGroupRole, removeGroupRole, registerHost, updateHost, drainHost, enroll,
    createPool, updatePool, deletePool, h.require_bind, settle_error, attempt_error]

end VQuasar.Tenancy
