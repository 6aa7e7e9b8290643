import VQuasar.Lib.Slots
import VQuasar.Tenancy.Vms

/-!
# Creating a VM, one store call at a time

The three routes that create a VM insert its row, allocate the addresses of its NICs, and record the
boot volume, the task and the event, in this order and with nothing around it (`Creation.call`).
`allocate_nic_ips` is itself a sequence of calls, three at most for each family of each NIC
(`Job.call`): the network's row, the addresses that are taken, and the insert.  Any of the calls may
fail (`Creation.broken`); a failure while addresses are allocated leads to the rollback, which is
`delete_vm_row` with its three statements and whose own failures are ignored.

The checks of a route are made with the insert of the row: no request of this development writes the
tables they read, but for networks, which are only added.  A creation that nothing disturbs does what
its handler does in one go (`create_alone`).
-/

namespace VQuasar.Provisioning

open Tenancy

/-! ## Allocating -/

/-- The next call of `allocate_one_nic`. -/
inductive NicCall
  | getNetwork
  /-- one family, with the row that was read and the addresses that are asked for -/
  | choose (n : Network) (requested : List IpAddr) (v6 : Bool)
  | insert (n : Network) (requested : List IpAddr) (v6 : Bool) (ip : IpAddr)

/-- What is left of `allocate_nic_ips`: the NIC at `index`, then the others. -/
structure Job where
  vm : Id
  index : Nat
  nic : NetworkInterfaceSpec
  rest : List NetworkInterfaceSpec
  next : NicCall

namespace Job

def start (vm : Id) (index : Nat) : List NetworkInterfaceSpec → Option Job
  | [] => none
  | nic :: rest => some ⟨vm, index, nic, rest, .getNetwork⟩

def nextNic (j : Job) : Option Job := start j.vm (j.index + 1) j.rest

def nextFamily (j : Job) (n : Network) (requested : List IpAddr) (v6 : Bool) : Option Job :=
  if v6 then j.nextNic else some { j with next := .choose n requested true }

end Job

variable (cfg : Config) (db : Db)

/-- The address of one family; `none` when the network does not have the family. -/
def chooseAddress (n : Network) (requested : List IpAddr) (v6 : Bool) :
    Except ApiError (Option IpAddr) := do
  let subnet ← n.ipam.subnet v6
  match subnet with
  | none => return none
  | some subnet =>
    match requested.find? fun ip => ip.v6 == v6 with
    | some ip =>
      subnet.validate ip
      return some ip
    | none =>
      let ip ← subnet.nextFree ((db.allocationsForNetwork n.id).map IpAllocation.ip)
      return some ip

/-- The next call of `allocate_nic_ips`, and what is left. -/
def Job.call (j : Job) : Except ApiError (Db × Option Job) :=
  match j.next with
  | .getNetwork => do
    let n ← orElse (db.networks.get j.nic.networkId)
      (.invalid ("network not found: " ++ toString j.nic.networkId))
    if n.isManaged then
      let requested ← requestedAddresses j.nic.addresses
      return (db, some { j with next := .choose n requested false })
    else return (db, j.nextNic)
  | .choose n requested v6 => do
    let ip ← chooseAddress db n requested v6
    match ip with
    | none => return (db, j.nextFamily n requested v6)
    | some ip => return (db, some { j with next := .insert n requested v6 ip })
  | .insert n requested v6 ip => do
    let db ← db.insertAllocation n.id ip v6 (some j.vm) j.index j.nic.mac
    return (db, j.nextFamily n requested v6)

/-! ## Creating -/

/-- The statements of `delete_vm_row`. -/
inductive Drop
  | release | detach | deleteRow
deriving DecidableEq, Repr

theorem detached_id (v : Volume) :
    HasId.id { v with attachedVm := none, attachedSerial := none } = HasId.id v := rfl

def Drop.call (vm : Id) : Drop → Db
  | .release => db.releaseVmAllocations vm
  | .detach => { db with
      volumes := db.volumes.update (fun v => v.attachedVm == some vm)
        (fun v => { v with attachedVm := none, attachedSerial := none }) detached_id }
  | .deleteRow => { db with vms := db.vms.delete fun r => r.id == vm }

def Drop.next : Drop → Option Drop
  | .release => some .detach
  | .detach => some .deleteRow
  | .deleteRow => none

/-- The next call of a creation whose row is there. -/
inductive Stage
  | allocate (j : Job)
  /-- the rollback, and the error that is answered after it -/
  | rollback (d : Drop) (e : ApiError)
  | attach (volume : Id)
  | task
  | event (task : Id)

structure Creation where
  vm : Id
  name : String
  /-- the volume to boot from -/
  boot : Option Id
  stage : Stage

namespace Creation

def allocated (boot : Option Id) : Stage :=
  match boot with
  | some volume => .attach volume
  | none => .task

/-- The creation goes on with what is left of the allocation. -/
def allocating (c : Creation) (j : Option Job) : Creation :=
  match j with
  | some j => { c with stage := .allocate j }
  | none => { c with stage := allocated c.boot }

/-- The next call, and what is left of the request or what it answers. -/
def call (db : Db) (c : Creation) : Db × (Creation ⊕ Except ApiError Accepted) :=
  match c.stage with
  | .allocate j =>
    match j.call db with
    | .ok (db, j) => (db, .inl (c.allocating j))
    | .error e => (db, .inl { c with stage := .rollback .release e })
  | .rollback d e =>
    (d.call db c.vm,
      match d.next with
      | some d => .inl { c with stage := .rollback d e }
      | none => .inr (.error e))
  | .attach volume =>
    (db.setVolumeAttachment volume (some c.vm) (some 0), .inl { c with stage := .task })
  | .task => (db.insertTask "vm.create" (some c.vm), .inl { c with stage := .event db.tasks.next })
  | .event task =>
    (db.insertEvent .vm (some c.vm) "vm.created" "info" c.name, .inr (.ok ⟨c.vm, task⟩))

def broken (c : Creation) : Creation ⊕ Except ApiError Accepted :=
  match c.stage with
  | .allocate _ => .inl { c with stage := .rollback .release .database }
  | .rollback _ e => .inr (.error e)
  | _ => .inr (.error .database)

end Creation

inductive Route
  | create (s : Scope) (u : AuthUser) (body : CreateVm)
  | createFromTemplate (s : Scope) (u : AuthUser) (body : CreateVmFromTemplate)
  | createFromVolume (s : Scope) (u : AuthUser) (body : CreateVmFromVolume)

/-- `insert_vm_with_id` -/
def insertRow (name : String) (spec : VirtualMachineSpec) (project : Id)
    (boot : Option Id) : Except ApiError (Db × Creation) := do
  let id := db.vms.next
  let db ← db.insertVmWithId name spec project (cfg.phoneHomeToken id)
  return (db, Creation.allocating ⟨id, name, boot, .task⟩ (Job.start id 0 spec.networkInterfaces))

/-- The checks of a route, and the insert. -/
def Route.begin : Route → Except ApiError (Db × Creation)
  | .create s u body => do
    let spec ← createSpec cfg db s u body
    insertRow cfg db body.name spec s.owningProject none
  | .createFromTemplate s u body => do
    let spec ← templateSpec db s u body
    insertRow cfg db body.name spec s.owningProject none
  | .createFromVolume s u body => do
    let (vol, spec) ← volumeSpec cfg db s u body
    insertRow cfg db body.name spec s.owningProject (some vol.id)

theorem vm_allocating (c : Creation) (o : Option Job) : (c.allocating o).vm = c.vm := by
  cases o <;> rfl

theorem begin_ok {cfg : Config} {db db' : Db} {r : Route} {c : Creation}
    (h : r.begin cfg db = .ok (db', c)) :
    ∃ name new project boot token,
      db' = { db with
        vms := db.vms.insert
          (fun id => ⟨id, name, new, .pending, none, 1, 0, none, none, some token, project⟩) fun _ => rfl } ∧
      c = Creation.allocating ⟨db.vms.next, name, boot, .task⟩
        (Job.start db.vms.next 0 new.networkInterfaces) := by
  have hinsert : ∀ {name : String} {new : VirtualMachineSpec} {project : Id} {boot : Option Id},
      insertRow cfg db name new project boot = .ok (db', c) → ∃ name new project boot token,
        db' = { db with
          vms := db.vms.insert
            (fun id => ⟨id, name, new, .pending, none, 1, 0, none, none, some token, project⟩)
            fun _ => rfl } ∧
        c = Creation.allocating ⟨db.vms.next, name, boot, .task⟩
          (Job.start db.vms.next 0 new.networkInterfaces) := by
    intro name new project boot h
    unfold insertRow at h
    obtain ⟨db₁, hrow, ⟨⟩⟩ := of_bind_pure h
    exact ⟨name, new, project, boot, _, Db.insertVmWithId_ok hrow, rfl⟩
  cases r with
  | create | createFromTemplate =>
    obtain ⟨new, -, h⟩ := bind_eq_ok.mp h
    exact hinsert h
  | createFromVolume sc u body =>
    obtain ⟨p, -, h⟩ := bind_eq_ok.mp h
    exact hinsert h

def Route.handle : Route → Outcome Accepted
  | .create s u body => createVm cfg db s u body
  | .createFromTemplate s u body => Tenancy.createFromTemplate cfg db s u body
  | .createFromVolume s u body => Tenancy.createFromVolume cfg db s u body

/-! ## A creation alone -/

/-- At most `n` calls of a job, with nothing in between. -/
def Job.finish : Nat → Db → Option Job → Option (Outcome Unit)
  | _, db, none => some (db, .ok ())
  | 0, _, some _ => none
  | n + 1, db, some j =>
    match j.call db with
    | .error e => some (db, .error e)
    | .ok (db, j) => finish n db j

def Creation.finish : Nat → Db → Creation → Option (Outcome Accepted)
  | 0, _, _ => none
  | n + 1, db, c =>
    match c.call db with
    | (db, .inl c) => finish n db c
    | (db, .inr r) => some (db, r)

def Route.finish (n : Nat) (db : Db) (r : Route) : Option (Outcome Accepted) :=
  match r.begin cfg db with
  | .error e => some (db, .error e)
  | .ok (db, c) => c.finish n db

namespace Job

variable {db : Db} {n : Nat} {j : Job} {go : Db → Outcome Unit}

theorem finish_mono {o : Option Job} {r : Outcome Unit} (h : finish n db o = some r) :
    finish (n + 1) db o = some r := by
  induction n generalizing db o with
  | zero =>
    cases o with
    | none => exact h
    | some j => cases h
  | succ n ih =>
    cases o with
    | none => exact h
    | some j =>
    unfold finish at h ⊢
    cases hcall : j.call db with
    | error e => rwa [hcall] at h
    | ok p =>
      rw [hcall] at h
      exact ih h

variable {net : Network} {requested : List IpAddr} {v6 : Bool}

theorem allocateFamily_eq {vm : Id} {i : Nat} {mac : Option String} :
    allocateFamily db net vm i mac requested v6 = (do
      let ip ← chooseAddress db net requested v6
      match ip with
      | none => return db
      | some ip => db.insertAllocation net.id ip v6 (some vm) i mac) := by
  unfold allocateFamily chooseAddress
  cases net.ipam.subnet v6 with
  | error e => rfl
  | ok o =>
  cases o with
  | none => rfl
  | some subnet =>
  cases requested.find? fun ip => ip.v6 == v6 with
  | some ip => cases hval : subnet.validate ip with
    | error e => simp only [hval, Bind.bind, Except.bind]
    | ok u => simp only [hval, Bind.bind, Except.bind]; rfl
  | none =>
    cases hfree : subnet.nextFree ((db.allocationsForNetwork net.id).map IpAllocation.ip) with
    | error e => simp only [hfree, Bind.bind, Except.bind]
    | ok ip => simp only [hfree, Bind.bind, Except.bind]; rfl

theorem call_getNetwork (h : j.next = .getNetwork) : j.call db =
      match db.networks.get j.nic.networkId with
      | none => .error (.invalid ("network not found: " ++ toString j.nic.networkId))
      | some n =>
        if n.isManaged then
          (requestedAddresses j.nic.addresses).map fun requested =>
            (db, some { j with next := .choose n requested false })
        else .ok (db, j.nextNic) := by
  unfold Job.call
  simp only [h]
  cases db.networks.get j.nic.networkId with
  | none => rfl
  | some n =>
    cases hman : n.isManaged with
    | false => simp [orElse, hman, Bind.bind, Except.bind, pure, Except.pure]
    | true => simp [orElse, hman, Bind.bind, Except.bind, pure, Except.pure, Except.map]

theorem call_choose (h : j.next = .choose net requested v6) :
    j.call db = (chooseAddress db net requested v6).map fun ip =>
      match ip with
      | none => (db, j.nextFamily net requested v6)
      | some ip => (db, some { j with next := .insert net requested v6 ip }) := by
  unfold Job.call
  simp only [h]
  cases chooseAddress db net requested v6 with
  | error e => rfl
  | ok o => cases o <;> rfl

theorem call_insert {ip : IpAddr} (h : j.next = .insert net requested v6 ip) :
    j.call db = (db.insertAllocation net.id ip v6 (some j.vm) j.index j.nic.mac).map fun db =>
      (db, j.nextFamily net requested v6) := by
  unfold Job.call
  simp only [h]
  rfl

theorem finish_choose (hgo : ∀ db, finish n db (j.nextFamily net requested v6) = some (go db)) :
    finish (n + 2) db (some { j with next := .choose net requested v6 }) =
      some (match allocateFamily db net j.vm j.index j.nic.mac requested v6 with
        | .error e => (db, .error e)
        | .ok db => go db) := by
  rw [allocateFamily_eq]
  unfold finish
  rw [call_choose rfl]
  cases chooseAddress db net requested v6 with
  | error e => rfl
  | ok o =>
  cases o with
  | none => exact finish_mono (hgo db)
  | some ip =>
  show finish (n + 1) db (some { j with next := .insert net requested v6 ip }) =
    some (match db.insertAllocation net.id ip v6 (some j.vm) j.index j.nic.mac with
      | .error e => (db, .error e)
      | .ok db => go db)
  unfold finish
  rw [call_insert rfl]
  cases db.insertAllocation net.id ip v6 (some j.vm) j.index j.nic.mac with
  | error e => rfl
  | ok => exact hgo _

theorem finish_nic (hgo : ∀ db, finish n db j.nextNic = some (go db)) :
    finish (n + 5) db (some { j with next := .getNetwork }) =
      some (match allocateOneNic db j.vm j.nic j.index with
        | (db, .error e) => (db, .error e)
        | (db, .ok ()) => go db) := by
  unfold finish allocateOneNic
  rw [call_getNetwork rfl]
  cases db.networks.get j.nic.networkId with
  | none => rfl
  | some net =>
  cases hman : net.isManaged with
  | false =>
    simp only [hman]
    exact finish_mono (finish_mono (finish_mono (finish_mono (hgo db))))
  | true =>
    simp only [hman]
    cases requestedAddresses j.nic.addresses with
    | error e => rfl
    | ok requested =>
    have h6 : ∀ db, finish (n + 2) db (j.nextFamily net requested false) =
        some (match allocateFamily db net j.vm j.index j.nic.mac requested true with
          | .error e => (db, .error e)
          | .ok db => go db) :=
      fun db => finish_choose hgo
    show finish (n + 4) db (some { j with next := .choose net requested false }) = _
    rw [finish_choose h6]
    simp only [Bool.not_true, Bool.false_eq_true, if_false]
    cases allocateFamily db net j.vm j.index j.nic.mac requested false with
    | error e => rfl
    | ok db4 =>
      simp only
      cases allocateFamily db4 net j.vm j.index j.nic.mac requested true with
      | error | ok => rfl

/-- **`allocate_nic_ips` alone.**  Five calls for each NIC are enough. -/
theorem finish_eq (vm : Id) (nics : List NetworkInterfaceSpec) : ∀ (db : Db) (i : Nat),
      finish (5 * nics.length) db (start vm i nics) = some (allocateNicIps db vm nics i) := by
  induction nics with
  | nil =>
    intro db i
    rfl
  | cons nic nics ih =>
    intro db i
    have hnic := @finish_nic db _ ⟨vm, i, nic, nics, .getNetwork⟩ _ fun db => ih db (i + 1)
    refine hnic.trans ?_
    rcases hone : allocateOneNic db vm nic i with ⟨db', e | ⟨⟩⟩ <;> simp only [allocateNicIps, hone]

end Job

namespace Creation

variable {db db' : Db} {n m : Nat} {c : Creation} {r : Outcome Accepted}

theorem finish_mono (h : finish n db c = some r) : finish (n + 1) db c = some r := by
  induction n generalizing db c with
  | zero => cases h
  | succ n ih =>
    unfold finish at h ⊢
    cases hcall : c.call db with
    | mk d next =>
      rw [hcall] at h
      cases next with
      | inl c => exact ih h
      | inr r => exact h

theorem finish_le (hnm : n ≤ m) (h : finish n db c = some r) : finish m db c = some r := by
  induction hnm with
  | refl => exact h
  | step _ ih => exact finish_mono ih

def afterJob (c : Creation) : Except ApiError Unit → Creation
  | .ok () => { c with stage := allocated c.boot }
  | .error e => { c with stage := .rollback .release e }

theorem finish_job {o : Option Job} {r : Except ApiError Unit} {out : Outcome Accepted}
    (hjob : Job.finish n db o = some (db', r)) (hout : finish m db' (c.afterJob r) = some out) :
    finish (m + n) db (c.allocating o) = some out := by
  induction n generalizing db o with
  | zero =>
    cases o with
    | some j => cases hjob
    | none =>
      cases hjob
      exact hout
  | succ n ih =>
    cases o with
    | none =>
      refine finish_mono (ih ?_)
      rw [← hjob]
      cases n <;> rfl
    | some j =>
      show (match (c.allocating (some j)).call db with
        | (db, .inl c) => finish (m + n) db c
        | (db, .inr r) => some (db, r)) = some out
      unfold Job.finish at hjob
      unfold call allocating
      simp only
      cases hcall : j.call db with
      | ok p =>
        rw [hcall] at hjob
        exact ih hjob
      | error e =>
        rw [hcall] at hjob
        cases hjob
        exact finish_le (Nat.le_add_right m n) hout

theorem finish_afterJob (r : Except ApiError Unit) : finish 3 db (c.afterJob r) = some (match r with
      | .ok () =>
        accept ((c.boot.map fun v => db.setVolumeAttachment v (some c.vm) (some 0)).getD db) c.vm
          c.name "vm.create" "vm.created"
      | .error e => (db.deleteVmRow c.vm, .error e)) := by
  cases r with
  | error e => rfl
  | ok u =>
    unfold afterJob allocated
    cases c.boot with
    | none | some => rfl

end Creation

/-- What is left of a route after the insert does what `launch` does, and then accepts. -/
theorem finish_insertRow {cfg : Config} {db : Db} {name : String} {spec : VirtualMachineSpec}
    {project : Id} {boot : Option Id} :
    (match insertRow cfg db name spec project boot with
      | .error e => some (db, .error e)
      | .ok (db, c) => c.finish (3 + 5 * spec.networkInterfaces.length) db) =
    some (match launch cfg db name spec project with
      | (db, .error e) => (db, .error e)
      | (db, .ok id) =>
        accept ((boot.map fun v => db.setVolumeAttachment v (some id) (some 0)).getD db) id name
          "vm.create" "vm.created") := by
  unfold insertRow launch
  cases hrow : db.insertVmWithId name spec project (cfg.phoneHomeToken db.vms.next) with
  | error e => simp only [hrow, attempt, Bind.bind, Except.bind]
  | ok db' =>
  have hjob := Job.finish_eq db.vms.next spec.networkInterfaces db' 0
  rcases hr : allocateNicIps db' db.vms.next spec.networkInterfaces 0 with ⟨db'', r⟩
  rw [hr] at hjob
  simp only [hrow, attempt, Bind.bind, Except.bind, hr]
  refine (Creation.finish_job hjob (Creation.finish_afterJob r)).trans ?_
  cases r with
  | error | ok => rfl

/-- **A creation alone.**  With nothing in between, the calls of a creation do what its handler
does. -/
theorem create_alone (r : Route) : ∃ n, r.finish cfg n db = some (r.handle cfg db) := by
  unfold Route.finish
  cases r with
  | create s u body =>
    simp only [Route.begin, Route.handle, createVm]
    cases createSpec cfg db s u body with
    | error e => exact ⟨0, rfl⟩
    | ok spec => exact ⟨_, finish_insertRow⟩
  | createFromTemplate s u body =>
    simp only [Route.begin, Route.handle, Tenancy.createFromTemplate]
    cases templateSpec db s u body with
    | error e => exact ⟨0, rfl⟩
    | ok spec => exact ⟨_, finish_insertRow⟩
  | createFromVolume s u body =>
    simp only [Route.begin, Route.handle, Tenancy.createFromVolume]
    cases volumeSpec cfg db s u body with
    | error e => exact ⟨0, rfl⟩
    | ok r => exact ⟨_, finish_insertRow⟩

end VQuasar.Provisioning
