import VQuasar.Lib.Runs
import VQuasar.Lib.Slots
import VQuasar.Tenancy.Volumes

/-!
# Requests as sequences of store calls

The handlers that edit a spec or attach a volume, one store call at a time: `Request.call` makes the
next call of a request, and between two calls any other request may make one of its own, on the same
instance or on another (`step`).  A request may be cut short between two calls (`Event.crash`).

Reads of tables that none of these requests writes (pools, images, networks, groups) are made with the
read next to them, and so are the task and the event a request leaves.  A spec is the plain one: the
sealing of its secrets, and `encrypt_existing` with it, changes what is stored but not what is read.

A request that nothing disturbs does what its handler does in one go (`attach_alone`, `detach_alone`,
`createFromVolume_alone`, `updateVm_alone`, …).
-/

namespace VQuasar.Requests

open Tenancy List Option

/-! ## Edits of a spec -/

def moveNic (index : Nat) (body : ChangeNic) (spec : VirtualMachineSpec) :
    Except ApiError VirtualMachineSpec := do
  let nic ← orElse spec.networkInterfaces[index]?
    (.invalid ("nic index " ++ toString index ++ " out of range"))
  let spec := { spec with
    networkInterfaces := spec.networkInterfaces.set index (retarget body nic) }
  spec.validate
  return spec

/-- What a request does to the spec it has read. -/
inductive Edit
  | power (desired : DesiredPowerState) (taskType : String)
  /-- with the row it has read, and the tables in which it finds the default pool -/
  | update (db : Db) (vm : Vm) (body : UpdateVm)
  | nic (index : Nat) (body : ChangeNic)
  | attach (volume : Id) (disk : DiskSpec)
  | detach (volume : Id) (path : HostPath)

def Edit.apply : Edit → VirtualMachineSpec → Except ApiError VirtualMachineSpec
  | .power desired _, spec => .ok { spec with desiredPowerState := desired }
  | .update db vm body, spec => updateSpec db { vm with spec := spec } body
  | .nic index body, spec => moveNic index body spec
  | .attach _ disk, spec => do
    let spec := { spec with disks := spec.disks ++ [disk] }
    spec.validate
    return spec
  | .detach _ path, spec => .ok { spec with disks := spec.disks.filter fun d => d.path != path }

/-- A call of `write_spec` that is due: the spec it will store is the edit of the one it has read. -/
structure SpecWrite where
  vm : Id
  name : Option String
  read : VirtualMachineSpec
  edit : Edit
  spec : VirtualMachineSpec
  made : edit.apply read = .ok spec

def SpecWrite.of (vm : Id) (name : Option String) (read : VirtualMachineSpec) (edit : Edit) :
    Except ApiError SpecWrite :=
  match h : edit.apply read with
  | .ok spec => .ok ⟨vm, name, read, edit, spec, h⟩
  | .error e => .error e

variable {name : Option String} {read : VirtualMachineSpec} {edit : Edit} {vm : Id}

open SpecWrite

theorem SpecWrite.of_ok {spec : VirtualMachineSpec} (h : edit.apply read = .ok spec) :
    of vm name read edit = .ok ⟨vm, name, read, edit, spec, h⟩ := by
  unfold of
  split
  · next spec' h' =>
    obtain rfl : spec' = spec := by
      rw [h] at h'
      exact (Except.ok.inj h').symm
    rfl
  · next e h' => simp [h] at h'

theorem SpecWrite.of_error {e : ApiError} (h : edit.apply read = .error e) :
    of vm name read edit = .error e := by
  unfold of
  split
  · next spec' h' => simp [h] at h'
  · next e' h' =>
    rw [h] at h'
    cases h'
    rfl

/-! ## Requests -/

/-- A request with what it has read; the constructor says which call comes next. -/
inductive Request
  -- update, set_power
  | update (s : Scope) (u : AuthUser) (id : Id) (body : UpdateVm)
  | setPower (s : Scope) (u : AuthUser) (id : Id) (power : DesiredPowerState) (taskType : String)
  -- change_nic
  | changeNic (s : Scope) (u : AuthUser) (id : Id) (index : Nat) (body : ChangeNic)
  | allocateNic (w : SpecWrite) (index : Nat) (nic : NetworkInterfaceSpec)
  -- attach, detach
  | attach (s : Scope) (u : AuthUser) (id vm : Id)
  | attachTo (s : Scope) (v : Volume) (vm : Id)
  | detach (s : Scope) (u : AuthUser) (id : Id)
  | detachFrom (v : Volume) (vm : Id)
  -- what the edits come to: `write_spec`, then the attachment or the task
  | write (w : SpecWrite)
  | record (volume : Id) (vm : Option Id) (serial : Option Nat)
  | acceptTask (vm : Id) (taskType : String)
  | accept (vm : Id) (name taskType eventType : String)
  -- create_from_volume
  | createFromVolume (s : Scope) (u : AuthUser) (body : CreateVmFromVolume)
  | insertVm (volume : Id) (name : String) (spec : VirtualMachineSpec) (project : Id)
  | allocate (volume vm : Id) (name : String) (spec : VirtualMachineSpec)
  | rollback (volume vm : Id)
  | recordBoot (volume vm : Id) (name : String)
  -- the delete of a volume
  | deleteVolume (s : Scope) (u : AuthUser) (id : Id)
  | unlink (s : Scope) (v : Volume)
  | dropVolume (s : Scope) (id : Id)
  -- the delete of a VM, and the pass that carries it out
  | deleteVm (s : Scope) (u : AuthUser) (id : Id)
  | markDeleting (id : Id)
  | reconcileDelete (id : Id)
  | deleteRow (id : Id)
  -- encrypt_existing, and the rows it has still to write
  | encryptExisting (plain : Id → Bool)
  | sealRows (rows : List (Id × VirtualMachineSpec))

def Request.fresh : Request → Bool
  | .update .. | .setPower .. | .changeNic .. | .attach .. | .detach .. | .createFromVolume ..
  | .deleteVolume .. | .deleteVm .. | .reconcileDelete _ | .encryptExisting _ => true
  | _ => false

/-- What follows a `write_spec` that was not refused, given the row it returned: `update` and
`change_nic` ask for the row, the others do not. -/
def SpecWrite.next (w : SpecWrite) (written : Option Vm) : Option Request :=
  match w.edit with
  | .power _ taskType => some (.acceptTask w.vm taskType)
  | .update .. => written.map fun vm => .accept vm.id vm.name "vm.update" "vm.updated"
  | .nic .. => written.map fun vm => .accept vm.id vm.name "vm.nic.change" "vm.nic.changed"
  | .attach volume _ => some (.record volume (some w.vm) (some w.read.disks.length))
  | .detach volume _ => some (.record volume none none)

def reading (db : Db) (r : Except ApiError Request) : Db × Option Request := (db, r.toOption)

/-- `write_spec` -/
def SpecWrite.call (w : SpecWrite) (db : Db) : Db × Option Request :=
  match db.writeSpec w.vm w.name w.spec with
  | .error _ => (db, none)
  | .ok none => (db, w.next none)
  | .ok (some (vm, db)) => (db, w.next (some vm))

/-- The read of `detach` that finds the VM. -/
def detachRead (cfg : Config) (db : Db) (v : Volume) (vm : Vm) : Except ApiError Request := do
  ensure (!vm.holdsDisks)
    (.invalid "stop the VM before detaching this volume (no hot-unplug yet)")
  let w ← of vm.id none vm.spec (.detach v.id (db.fileOf cfg v))
  return .write w

/-- The next store call of a request; `none` once it is done or refused. -/
def Request.call (cfg : Config) (db : Db) : Request → Db × Option Request
  | .update s u id body => reading db do
    u.require .vmUpdate
    let vm ← orElse (db.getVm s id) (.vmNotFound id)
    let w ← of id body.name vm.spec (.update db vm body)
    return .write w
  | .setPower s u id power taskType => reading db do
    u.require .vmPower
    let vm ← orElse (db.getVm s id) (.vmNotFound id)
    let w ← of id none vm.spec (.power power taskType)
    return .write w
  | .changeNic s u id index body => reading db do
    let (_, nic) ← changeNicSpec db s u id index body
    let vm ← orElse (db.getVm s id) (.vmNotFound id)
    let w ← of id none vm.spec (.nic index body)
    return .allocateNic w index nic
  | .allocateNic w index nic =>
    match allocateOneNic (db.releaseNicAllocations w.vm index) w.vm nic index with
    | (db, .error _) => (db, none)
    | (db, .ok ()) => (db, some (.write w))
  | .attach s u id vm => reading db do
    u.require .volumeUpdate
    let v ← orElse (db.getVolume s id) (.resourceNotFound "volume")
    ensure (v.status == .ready) (.invalid "volume is still being provisioned")
    ensure v.attachedVm.isNone (.invalid "volume is already attached")
    return .attachTo s v vm
  | .attachTo s v vmId => reading db do
    let vm ← orElse (db.getVm s vmId) (.resourceNotFound "vm")
    let w ← of vmId none vm.spec (.attach v.id (db.volumeDisk cfg v))
    return .write w
  | .detach s u id => reading db do
    u.require .volumeUpdate
    let v ← orElse (db.getVolume s id) (.resourceNotFound "volume")
    let vm ← orElse v.attachedVm (.invalid "volume is not attached")
    return .detachFrom v vm
  | .detachFrom v vmId =>
    match db.vms.get vmId with
    | none => (db, some (.record v.id none none))
    | some vm => reading db (detachRead cfg db v vm)
  | .write w => w.call db
  | .record volume vm serial => (db.setVolumeAttachment volume vm serial, none)
  | .acceptTask vm taskType => ((Tenancy.acceptTask db vm taskType).1, none)
  | .accept vm name taskType eventType => ((Tenancy.accept db vm name taskType eventType).1, none)
  | .createFromVolume s u body => reading db do
    let (v, spec) ← volumeSpec cfg db s u body
    return .insertVm v.id body.name spec s.owningProject
  | .insertVm volume name spec project =>
    match db.insertVmWithId name spec project (cfg.phoneHomeToken db.vms.next) with
    | .error _ => (db, none)
    | .ok db' => (db', some (.allocate volume db.vms.next name spec))
  | .allocate volume vm name spec =>
    match allocateNicIps db vm spec.networkInterfaces 0 with
    | (db, .error _) => (db, some (.rollback volume vm))
    | (db, .ok ()) => (db, some (.recordBoot volume vm name))
  | .rollback _ vm => (db.deleteVmRow vm, none)
  | .recordBoot volume vm name =>
    (db.setVolumeAttachment volume (some vm) (some 0),
      some (.accept vm name "vm.create" "vm.created"))
  | .deleteVolume s u id => reading db do
    u.require .volumeDelete
    let v ← orElse (db.getVolume s id) (.resourceNotFound "volume")
    ensure v.attachedVm.isNone (.invalid "detach the volume before deleting it")
    return .unlink s v
  | .unlink s v => (db.removeFile v (db.fileOf cfg v), some (.dropVolume s v.id))
  | .dropVolume s id => (db.deleteVolumes fun r => r.id == id && s.owns r.project, none)
  | .deleteVm s u id => reading db do
    u.require .vmDelete
    let vm ← orElse (db.getVm s id) (.vmNotFound id)
    return .markDeleting vm.id
  | .markDeleting id => (db.setVmPhase id .deleting, some (.acceptTask id "vm.delete"))
  | .reconcileDelete id =>
    (db, if (db.vms.get id).any fun vm => vm.phase == .deleting then some (.deleteRow id) else none)
  | .deleteRow id => (db.deleteVmRow id, none)
  | .encryptExisting plain =>
    (db, some (.sealRows ((db.vms.rows.filter fun r => r.spec.cloudInit.isSome && plain r.id).map
      fun r => (r.id, r.spec))))
  | .sealRows [] => (db, none)
  | .sealRows ((id, spec) :: rows) =>
    (db.setVm id (fun r => { r with spec := spec }) fun _ => rfl, some (.sealRows rows))

/-! ## Interleavings -/

structure State where
  db : Db
  requests : Slots Request

inductive Event
  /-- a request arrives, or the reconcile loop takes up a VM that is being deleted -/
  | begin (r : Request)
  | call (i : Nat)
  /-- the request in a slot is cut short -/
  | crash (i : Nat)
  /-- the reconcile loop writes a phase -/
  | phase (vm : Id) (phase : VmPhase)
  /-- the file of a volume has been built -/
  | finalize (volume : Id) (sizeBytes : Int)

def step (cfg : Config) (s : State) : Event → Option State
  | .begin r => if r.fresh then some { s with requests := s.requests.add r } else none
  | .call i =>
    (s.requests.get i).map fun r =>
      { db := (r.call cfg s.db).1, requests := s.requests.put i (r.call cfg s.db).2 }
  | .crash i => (s.requests.get i).map fun _ => { s with requests := s.requests.put i none }
  | .phase vm phase => some { s with db := s.db.setVmPhase vm phase }
  | .finalize volume sizeBytes =>
    match s.db.finalizeVolume volume sizeBytes with
    | .ok (some db) => some { s with db := db }
    | _ => none

/-! ## A request alone -/

def finish (cfg : Config) : Nat → Db → Option Request → Db
  | 0, db, _ => db
  | _, db, none => db
  | n + 1, db, some r => finish cfg n (r.call cfg db).1 (r.call cfg db).2

section

variable {cfg : Config} {db : Db} {s : Scope} {u : AuthUser} {id vm : Id} {n : Nat}

theorem finish_none : finish cfg n db none = db := by
  cases n <;> rfl

theorem finish_reading {x : Except ApiError Request} :
    finish cfg n (reading db x).1 (reading db x).2 =
      match x with
      | .ok r => finish cfg n db (some r)
      | .error _ => db := by
  cases x with
  | error e => exact finish_none
  | ok r => rfl

theorem finish_write {w : SpecWrite} : finish cfg (n + 1) db (some (.write w)) =
      match db.writeSpec w.vm w.name w.spec with
      | .error _ => db
      | .ok none => finish cfg n db (w.next none)
      | .ok (some (vm, db')) => finish cfg n db' (w.next (some vm)) := by
  show finish cfg n (w.call db).1 (w.call db).2 = _
  unfold call
  rcases db.writeSpec w.vm w.name w.spec with e | _ | ⟨vm, db'⟩
  · exact finish_none
  · rfl
  · rfl

theorem setPower_alone {power : DesiredPowerState} {taskType : String} :
    finish cfg 3 db (some (.setPower s u id power taskType)) =
      (setPower db s u id power taskType).1 := by
  unfold finish Request.call setPower
  rw [finish_reading]
  cases u.require .vmPower with
  | error e => rfl
  | ok _ =>
  cases db.getVm s id with
  | none => rfl
  | some r =>
  show finish cfg 2 db (some (.write ⟨id, none, r.spec, .power power taskType, _, rfl⟩)) = _
  rw [finish_write]
  simp only [orElse, ok_bind, Db.setVmSpec]
  rcases db.writeSpec id none { r.spec with desiredPowerState := power } with e | _ | ⟨vm, db'⟩
  · rfl
  · rfl
  · rfl

theorem updateVm_alone {body : UpdateVm} :
    finish cfg 3 db (some (.update s u id body)) = (updateVm db s u id body).1 := by
  unfold finish Request.call updateVm
  rw [finish_reading]
  cases u.require .vmUpdate with
  | error e => rfl
  | ok _ =>
  cases db.getVm s id with
  | none => rfl
  | some r =>
  cases hspec : (Edit.update db r body).apply r.spec with
  | error e =>
    have hupdate : updateSpec db r body = .error e := hspec
    simp only [orElse, ok_bind, error_bind, of_error hspec, hupdate]
    rfl
  | ok spec =>
    have hupdate : updateSpec db r body = .ok spec := hspec
    simp only [orElse, ok_bind, of_ok hspec, hupdate]
    show finish cfg 2 db (some (.write ⟨_, _, _, _, spec, hspec⟩)) = _
    rw [finish_write]
    rcases db.writeSpec id body.name spec with e | _ | ⟨vm, db'⟩ <;> rfl

variable {body : ChangeNic} {index : Nat} {spec : VirtualMachineSpec} {v : Volume}

theorem changeNicSpec_eq
    {nic : NetworkInterfaceSpec} (h : changeNicSpec db s u id index body = .ok (spec, nic)) :
    ∃ r, db.getVm s id = some r ∧ moveNic index body r.spec = .ok spec := by
  obtain ⟨r, n, hr, -, -, hn, -, rfl, hvalid, -⟩ := changeNicSpec_ok h
  refine ⟨r, hr, ?_⟩
  unfold moveNic
  simp only [hn, orElse, ok_bind, hvalid]
  rfl

theorem changeNic_alone :
    finish cfg 4 db (some (.changeNic s u id index body)) = (changeNic db s u id index body).1 := by
  unfold finish Request.call changeNic
  rw [finish_reading]
  cases hread : changeNicSpec db s u id index body with
  | error e => rfl
  | ok r =>
  obtain ⟨spec, nic⟩ := r
  obtain ⟨vm, hvm, hedit⟩ := changeNicSpec_eq hread
  have hspec : (Edit.nic index body).apply vm.spec = .ok spec := hedit
  simp only [ok_bind, hvm, orElse, of_ok hspec, attempt]
  show finish cfg 3 db (some (.allocateNic ⟨_, _, _, _, spec, hspec⟩ index nic)) = _
  unfold finish Request.call
  simp only
  rcases allocateOneNic (db.releaseNicAllocations id index) id nic index with ⟨db, e | ⟨⟩⟩
  · rfl
  · simp only
    rw [finish_write]
    simp only [Db.setVmSpec]
    rcases db.writeSpec id none spec with e | _ | ⟨vm, db'⟩ <;> rfl

theorem getVolume_get (h : db.getVolume s id = some v) :
    v.id = id ∧ db.volumes.get id = some v := by
  obtain ⟨hmem, hid, -⟩ := Db.getVolume_eq_some.mp h
  exact ⟨hid, IdTable.get_eq_some.mpr ⟨hmem, hid⟩⟩

theorem deleteVolume_alone :
    finish cfg 3 db (some (.deleteVolume s u id)) = (deleteVolume cfg db s u id).1 := by
  unfold finish Request.call deleteVolume
  rw [finish_reading]
  cases u.require .volumeDelete with
  | error e => rfl
  | ok _ =>
  cases hv : db.getVolume s id with
  | none => rfl
  | some v =>
  obtain ⟨rfl, -⟩ := getVolume_get hv
  simp only [orElse, ok_bind]
  cases v.attachedVm.isNone with
  | false | true => rfl

theorem deleteVm_alone : finish cfg 3 db (some (.deleteVm s u id)) = (deleteVm db s u id).1 := by
  unfold finish Request.call deleteVm
  rw [finish_reading]
  cases u.require .vmDelete with
  | error e => rfl
  | ok _ =>
  cases hvm : db.getVm s id with
  | none => rfl
  | some r =>
    obtain ⟨-, rfl, -⟩ := Db.getVm_eq_some.mp hvm
    rfl

end
end VQuasar.Requests
