import VQuasar.Tenancy.Vms

/-!
# The volume endpoints

`api/volumes.rs`.  A volume is reserved, its file is built, and the reservation is finalised; the
file is built by `qemu-img` here or by the agent of the host that holds it, and what that tool
answers is a parameter (`ToolRun`).  Every handler finds its volume in the scope of the request,
but a snapshot is looked up by its id alone.
-/

namespace VQuasar.Tenancy

/-- What `qemu-img` or an agent answers: an error text, or the size it reports if it does. -/
abbrev ToolRun := Except String (Option Int)

structure VolumeView where
  volume : Volume
  path : HostPath
  snapshotCount : Nat
deriving DecidableEq, Repr

variable (cfg : Config) (db : Db) (s : Scope) (u : AuthUser) (id : Id)

/-- `snapshot_counts`, for one volume -/
def Db.snapshotCount (volume : Id) : Nat :=
  (db.snapshots.rows.filter fun s => s.volume == volume).length

/-- `view` -/
def Db.volumeView (cfg : Config) (v : Volume) : VolumeView :=
  ⟨v, db.fileOf cfg v, db.snapshotCount v.id⟩

/-! ## Creating -/

/-- The `pool` of a request: a text that parses as an id, or any other. -/
inductive PoolRef
  | id (id : Id)
  | name (name : String)
deriving DecidableEq, Repr

structure CreateVolume where
  name : String
  sizeBytes : Int
  format : Text Format
  sourceImage : Option Id
  policy : Option StoragePolicy
  host : Option Id
  pool : Option PoolRef

/-- The pool with a name, or a refusal. -/
def Db.poolNamed (name : String) : Except ApiError StoragePool :=
  orElse (db.getStoragePoolByName name) (.invalid ("unknown storage pool " ++ quoted name))

def Db.resolvePool : Option PoolRef → Except ApiError StoragePool
  | none => db.poolNamed "default"
  | some (.name name) => db.poolNamed name
  | some (.id id) =>
    match db.pools.get id with
    | some p => .ok p
    | none => db.poolNamed (toString id)

def Db.hostForPool (host : Id) (pool : StoragePool) : Except ApiError Host := do
  let h ← orElse (db.hosts.get host) (.hostNotFound host)
  ensure (db.reports host pool.id)
    (.invalid ("host " ++ quoted h.name ++ " does not report storage pool " ++ quoted pool.name ++
      ", so it cannot hold a volume there"))
  return h

/-- The host that is to hold the volume: one for a local pool, none for a shared one. -/
def Db.volumeHost (pool : StoragePool) (host : Option Id) : Except ApiError (Option Host) :=
  match pool.params.isShared, host with
  | false, some h => do
    let h ← db.hostForPool h pool
    return some h
  | false, none =>
    .error (.invalid ("storage pool " ++ quoted pool.name ++
      " is local to each host, so a volume in it has to name the " ++
      "host that will hold it: pass \"host\"."))
  | true, some _ =>
    .error (.invalid ("storage pool " ++ quoted pool.name ++
      " is shared, so no single host holds a volume in it — " ++ "remove \"host\"."))
  | true, none => .ok none

/-- What `create` has settled before it reserves. -/
structure VolumePlan where
  pool : StoragePool
  host : Option Host
  format : Format
  reserve : Int
  /-- the file to copy -/
  source : Option HostPath

/-- The format, the size to reserve and the file to copy. -/
def Db.volumeSource (body : CreateVolume) (format : Format) :
    Except ApiError (Format × Int × Option HostPath) :=
  match body.sourceImage with
  | some imageId => do
    let img ← orElse (db.visibleImage s imageId) (.resourceNotFound "image")
    ensure (img.status == .ready) (.invalid "image is not ready")
    return (img.format, max body.sizeBytes (img.defaultSizeBytes.getD 0), some img.sourcePath)
  | none => do
    ensure (0 < body.sizeBytes) (.invalid "size_bytes must be positive")
    return (format, body.sizeBytes, none)

/-- `StoragePolicy::validate` of an optional policy, under the text of its error. -/
def checkPolicy : Option StoragePolicy → Except ApiError Unit
  | none => .ok ()
  | some p =>
    match p.validate with
    | .ok () => .ok ()
    | .error field => .error (.invalid (field ++ zeroLimit))

def volumePlan (body : CreateVolume) : Except ApiError VolumePlan := do
  u.require .volumeCreate
  ensure (!(trim body.name).isEmpty) (.invalid "name is required")
  let format ← orElse body.format.toOption (.invalid "format must be raw or qcow2")
  ensure (0 ≤ body.sizeBytes) (.invalid "size_bytes must not be negative")
  ensure (body.sizeBytes ≤ Quota.maxDiskBytes)
    (.invalid ("size_bytes " ++ toString body.sizeBytes ++ " exceeds the limit of " ++
      toString Quota.maxDiskBytes ++ " bytes"))
  checkPolicy body.policy
  let pool ← db.resolvePool body.pool
  let host ← db.volumeHost pool body.host
  let (format, reserve, source) ← db.volumeSource s body format
  return ⟨pool, host, format, reserve, source⟩

def VolumePlan.build (plan : VolumePlan) (path : HostPath) : FileOp :=
  match plan.source with
  | some source => .clone source path
  | none => .write path

/-- `provision` and `provision_on_host`: the size of the file that was built. -/
def VolumePlan.built (plan : VolumePlan) (body : CreateVolume) (tool : ToolRun) :
    Except ApiError Int :=
  match plan.host, tool with
  | some h, .error e => .error (.internal ("provisioning on " ++ h.name ++ ": " ++ e))
  | some _, .ok size => .ok (size.getD 0)
  | none, .error e => .error (.internal e)
  | none, .ok size =>
    if plan.source.isSome then .ok (size.getD (max body.sizeBytes 0)) else .ok body.sizeBytes

/-- A reservation whose file could not be built, or does not fit: both go. -/
def abandonVolume (path : HostPath) : Db :=
  (db.fileOp (.unlink path)).dropVolumeReservation id

/-- `create`, after the reservation has been made: build the file and finalise. -/
def buildVolume (path : HostPath) (plan : VolumePlan)
    (body : CreateVolume) (tool : ToolRun) : Outcome VolumeView :=
  let db := db.fileOp (plan.build path)
  match plan.built body tool with
  | .error e => (abandonVolume db id path, .error e)
  | .ok size =>
    match db.finalizeVolume id size with
    | .ok (some db) => (db, orElse ((db.volumes.get id).map (db.volumeView cfg)) .database)
    | .ok none => (db.fileOp (.unlink path), .error (.internal "volume reservation disappeared"))
    | .error e => (abandonVolume db id path, .error e)

def createVolume (body : CreateVolume) (tool : ToolRun) : Outcome VolumeView :=
  attempt db (volumePlan db s u body) fun plan =>
    let id := db.volumes.next
    attempt db (db.createVolume (trim body.name) plan.reserve plan.format body.sourceImage
        s.owningProject plan.pool.id body.policy (plan.host.map Host.id)) fun db =>
      buildVolume cfg db id (volumePath plan.pool.params.hostPath id plan.format) plan body tool

/-! ## Deleting, attaching, detaching -/

/-- `remove_file_wherever_it_is`: the file of a volume whose host is gone stays behind. -/
def Db.removeFile (v : Volume) (path : HostPath) : Db :=
  match v.host with
  | none => db.fileOp (.unlink path)
  | some h => if (db.hosts.get h).isSome then db.fileOp (.unlink path) else db

def deleteVolume : Outcome Unit :=
  settle db do
    u.require .volumeDelete
    let v ← orElse (db.getVolume s id) (.resourceNotFound "volume")
    ensure v.attachedVm.isNone (.invalid "detach the volume before deleting it")
    let db := db.removeFile v (db.fileOf cfg v)
    return (db.deleteVolumes fun r => r.id == id && s.owns r.project, ())

def attachVolume (id vmId : Id) : Outcome VolumeView :=
  settle db do
    u.require .volumeUpdate
    let v ← orElse (db.getVolume s id) (.resourceNotFound "volume")
    ensure (v.status == .ready) (.invalid "volume is still being provisioned")
    ensure v.attachedVm.isNone (.invalid "volume is already attached")
    let vm ← orElse (db.getVm s vmId) (.resourceNotFound "vm")
    let spec := { vm.spec with disks := vm.spec.disks ++ [db.volumeDisk cfg v] }
    spec.validate
    let written ← db.setVmSpec vmId spec
    let db := (written.map Prod.snd).getD db
    let db := db.setVolumeAttachment id (some vmId) (some vm.spec.disks.length)
    let v ← orElse (db.volumes.get id) .database
    return (db, db.volumeView cfg v)

/-- A VMM may hold the file. -/
def Vm.holdsDisks (vm : Vm) : Bool := vm.phase == .running || vm.phase == .starting

/-- The VM's part of `detach`; the VM is looked up by its id alone. -/
def Db.dropDisk (vmId : Id) (path : HostPath) : Except ApiError Db :=
  match db.vms.get vmId with
  | none => .ok db
  | some vm => do
    ensure (!vm.holdsDisks)
      (.invalid "stop the VM before detaching this volume (no hot-unplug yet)")
    let written ← db.setVmSpec vmId
      { vm.spec with disks := vm.spec.disks.filter fun d => d.path != path }
    return (written.map Prod.snd).getD db

def detachVolume : Outcome VolumeView :=
  settle db do
    u.require .volumeUpdate
    let v ← orElse (db.getVolume s id) (.resourceNotFound "volume")
    let vmId ← orElse v.attachedVm (.invalid "volume is not attached")
    let db ← db.dropDisk vmId (db.fileOf cfg v)
    let db := db.setVolumeAttachment id none none
    let v ← orElse (db.volumes.get id) .database
    return (db, db.volumeView cfg v)

/-! ## Snapshots -/

def Db.snapshottable (v : Volume) : Except ApiError Unit := do
  ensure (v.status == .ready) (.invalid "volume is still being provisioned")
  ensure (v.format == .qcow2) (.invalid "snapshots require a qcow2 volume")
  ensure (!(v.attachedVm.bind db.vms.get).any Vm.holdsDisks)
    (.invalid "stop the VM before snapshotting/reverting this volume")

/-- `qemu_img`, for its effect on one file -/
def qemuImg (path : HostPath) (tool : ToolRun) : Outcome Unit :=
  match tool with
  | .ok _ => (db.fileOp (.write path), .ok ())
  | .error e => (db.fileOp (.write path), .error (.internal ("qemu-img failed: " ++ e)))

def createSnapshot (name : String) (tool : ToolRun) : Outcome VolumeSnapshot :=
  let r : Except ApiError Volume := do
    u.require .volumeUpdate
    ensure (!(trim name).isEmpty) (.invalid "name is required")
    let v ← orElse (db.getVolume s id) (.resourceNotFound "volume")
    db.snapshottable v
    return v
  attempt db r fun v =>
    match qemuImg db (db.fileOf cfg v) tool with
    | (db, .error e) => (db, .error e)
    | (db, .ok ()) =>
      (db.createVolumeSnapshot id (trim name), .ok ⟨db.snapshots.next, id, trim name⟩)

/-- `delete_snapshot`: the snapshot need not be one of the volume. -/
def deleteSnapshot (id snap : Id) (tool : ToolRun) : Outcome Unit :=
  settle db do
    u.require .volumeUpdate
    let v ← orElse (db.getVolume s id) (.resourceNotFound "volume")
    ensure (db.snapshots.get snap).isSome (.invalid "snapshot not found")
    return ((qemuImg db (db.fileOf cfg v) tool).1.deleteVolumeSnapshot snap, ())

def revertSnapshot (id snap : Id) (tool : ToolRun) : Outcome Unit :=
  let r : Except ApiError Volume := do
    u.require .volumeUpdate
    let v ← orElse (db.getVolume s id) (.resourceNotFound "volume")
    ensure (db.snapshots.get snap).isSome (.invalid "snapshot not found")
    db.snapshottable v
    return v
  attempt db r fun v => qemuImg db (db.fileOf cfg v) tool

/-! ## Reading -/

def listVolumes : Except ApiError (List VolumeView) := do
  u.require .volumeRead
  return (db.volumes.rows.filter fun v => s.owns v.project).map (db.volumeView cfg)

def readVolume : Except ApiError VolumeView := do
  u.require .volumeRead
  let v ← orElse (db.getVolume s id) (.resourceNotFound "volume")
  return db.volumeView cfg v

def listSnapshots : Except ApiError (List VolumeSnapshot) := do
  u.require .volumeRead
  let _ ← orElse (db.getVolume s id) (.resourceNotFound "volume")
  return db.snapshots.rows.filter fun r => r.volume == id

end VQuasar.Tenancy
