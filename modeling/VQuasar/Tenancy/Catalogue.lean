import VQuasar.Tenancy.Volumes

/-!
# Images and templates

`api/images.rs` and `api/templates.rs`.  An image is found by the
shareable predicate and edited by the stricter one; a template names an image and a network that
the scope of the request can see.
-/

namespace VQuasar.Tenancy

/-! ## Images -/

structure CreateImage where
  name : String
  sourcePath : HostPath
  format : Text Format
  boot : BootSpec
  defaultSizeBytes : Option Int
  cloudInit : Bool
  os : Option String

/-- What `create` and `update` check of the body, with its format. -/
def CreateImage.check (body : CreateImage) (cfg : Config) : Except ApiError Format := do
  ensure (!body.name.isEmpty && !body.sourcePath.isEmpty)
    (.invalid "name and source_path are required")
  let format ← orElse body.format.toOption (.invalid "format must be 'raw' or 'qcow2'")
  ensureWithin body.sourcePath cfg.allowedPaths "source_path"
  return format

def createImage (cfg : Config) (db : Db) (s : Scope) (u : AuthUser) (body : CreateImage) :
    Outcome Image :=
  settle db do
    u.require .imageCreate
    let format ← body.check cfg
    let id := db.images.next
    let db ← db.insertImage body.name body.sourcePath format body.boot body.defaultSizeBytes
      body.cloudInit body.os s.shareableOwner
    let image ← orElse (db.images.get id) .database
    return (db, image)

def updateImage (cfg : Config) (db : Db) (s : Scope) (u : AuthUser) (id : Id)
    (body : CreateImage) : Outcome Image :=
  settle db do
    u.require .imageUpdate
    let format ← body.check cfg
    ensure (db.imageWritable s id) (.resourceNotFound "image")
    let db ← db.updateImage id body.name body.sourcePath format body.boot body.defaultSizeBytes
      body.cloudInit body.os
    let image ← orElse (db.images.get id) (.invalid ("image not found: " ++ toString id))
    return (db, image)

variable (db : Db) (s : Scope) (u : AuthUser) (id : Id)

/-- `delete`: the file goes too when the platform made it. -/
def deleteImage : Outcome Unit :=
  settle db do
    u.require .imageDelete
    let deleted ← db.deleteImages fun r => r.id == id && s.ownsShareable r.project
    ensure (db.imageWritable s id) (.resourceNotFound "image")
    match db.images.get id with
    | some img => return (if img.managed then deleted.fileOp (.unlink img.sourcePath) else deleted, ())
    | none => return (deleted, ())

structure ImportImage where
  name : String
  url : String
  format : Text Format
  defaultSizeBytes : Option Int

def checkDefaultSize : Option Int → Except ApiError Unit
  | none => .ok ()
  | some size => do
    ensure (0 ≤ size) (.invalid "default_size_bytes must not be negative")
    ensure (size ≤ Quota.maxDiskBytes)
      (.invalid ("default_size_bytes " ++ toString size ++ " exceeds the limit of " ++
        toString Quota.maxDiskBytes ++ " bytes"))

/-- `import`: the statement of `insert_image_importing` has a placeholder `$11` and ten values, so
the database refuses it. -/
def importImage (body : ImportImage) : Except ApiError Unit := do
  u.require .imageCreate
  ensure (!(trim body.name).isEmpty && !(trim body.url).isEmpty)
    (.invalid "name and url are required")
  let _ ← orElse body.format.toOption (.invalid "format must be 'raw' or 'qcow2'")
  ensure ("http://".isPrefixOf body.url || "https://".isPrefixOf body.url)
    (.invalid "url must be http(s)")
  checkDefaultSize body.defaultSizeBytes
  .error .database

/-- `upload`, which makes the same statement -/
def uploadImage (name : String) (format : Text Format) : Except ApiError Unit := do
  u.require .imageCreate
  ensure (!(trim name).isEmpty) (.invalid "name is required")
  let _ ← orElse format.toOption (.invalid "format must be 'raw' or 'qcow2'")
  .error .database

def listImages : Except ApiError (List Image) := do
  u.require .imageRead
  return (db.images.rows.filter fun r => s.sees r.project).insertionSort fun a b => a.name ≤ b.name

def readImage : Except ApiError Image := do
  u.require .imageRead
  orElse (db.visibleImage s id) (.resourceNotFound "image")

/-! ## Templates -/

structure CreateTemplate where
  name : String
  image : Id
  bootVcpus : Int
  maxVcpus : Int
  memoryMib : Int
  diskSizeBytes : Option Int
  diskFormat : Text Format
  network : Option Id
  cloudInit : Option CloudInitSpec
  machineType : Text MachineType

/-- The checks of the body that come before the memory check of `create`. -/
def CreateTemplate.checkCpu (body : CreateTemplate) : Except ApiError Unit := do
  ensure (!body.name.isEmpty) (.invalid "name is required")
  ensure (1 ≤ body.bootVcpus && body.bootVcpus ≤ body.maxVcpus)
    (.invalid "require 1 <= boot_vcpus <= max_vcpus")

/-- The checks that come after it. -/
def CreateTemplate.checkKinds (body : CreateTemplate) : Except ApiError (Format × MachineType) := do
  let format ← orElse body.diskFormat.toOption (.invalid "disk_format must be 'raw' or 'qcow2'")
  let machineType ← orElse body.machineType.toOption
    (.invalid "machine_type must be 'standard' or 'microvm'")
  return (format, machineType)

/-- The image and the network a template names are in sight, and the image can be built on. -/
def CreateTemplate.checkRefs (body : CreateTemplate) (db : Db) (s : Scope)
    (machineType : MachineType) : Except ApiError Unit := do
  let image ← orElse (db.visibleImage s body.image) (.resourceNotFound "image")
  ensure (body.network.all (db.networkVisible s)) (.resourceNotFound "network")
  ensure (image.status == .ready)
    (.invalid ("image is not ready (status: " ++ image.status.text ++ ")"))
  if machineType = .microVm then
    ensure image.boot.isDirectKernel (.invalid "a microvm template requires a direct-kernel image")
    ensure (!image.cloudInit && body.cloudInit.isNone)
      (.invalid "a microvm template cannot use cloud-init; use a non-cloud-init image")
  else .ok ()

/-- The row a body describes. -/
def CreateTemplate.fields (body : CreateTemplate) (format : Format) (machineType : MachineType)
    (cloudInit : Option CloudInitSpec) : Db.TemplateFields :=
  ⟨body.name, body.image, body.bootVcpus, body.maxVcpus, body.memoryMib, body.diskSizeBytes,
    format, body.network, cloudInit, machineType⟩

def createTemplate (body : CreateTemplate) : Outcome Template :=
  settle db do
    u.require .templateCreate
    body.checkCpu
    ensure (1 ≤ body.memoryMib) (.invalid "memory_mib must be positive")
    let (format, machineType) ← body.checkKinds
    body.checkRefs db s machineType
    let fields := body.fields format machineType body.cloudInit
    let row := fields.row db.templates.next s.owningProject
    let db ← db.insertTemplate fields s.owningProject
    return (db, row.redact)

/-- `update`: the memory is not checked here. -/
def updateTemplate (body : CreateTemplate) : Outcome Template :=
  settle db do
    u.require .templateUpdate
    body.checkCpu
    let (format, machineType) ← body.checkKinds
    ensure (db.templateInScope s id) (.resourceNotFound "template")
    body.checkRefs db s machineType
    let stored := (db.templates.get id).bind Template.cloudInit
    let db ← db.updateTemplate id
      (body.fields format machineType (mergeCloudInit body.cloudInit stored))
    let t ← orElse (db.templates.get id) (.resourceNotFound "template")
    return (db, t.redact)

def deleteTemplate : Outcome Unit :=
  settle db do
    u.require .templateDelete
    ensure (db.templateInScope s id) (.resourceNotFound "template")
    return (db.deleteTemplates fun t => t.id == id && s.owns t.project, ())

def listTemplates : Except ApiError (List Template) := do
  u.require .templateRead
  return ((db.templates.rows.filter fun r => s.owns r.project).insertionSort
    fun a b => a.name ≤ b.name).map Template.redact

def readTemplate : Except ApiError Template := do
  u.require .templateRead
  let t ← orElse (db.getTemplate s id) (.invalid ("template not found: " ++ toString id))
  return t.redact

end VQuasar.Tenancy
