import VQuasar.Provisioning.Families
import VQuasar.Requests.Steps
import VQuasar.Tenancy.References

/-!
# Every NIC has its addresses

The requests that add, move or remove a NIC or change a subnet, one store call at a time: the three
creations, `update` with its new NIC, `change_nic`, the delete of a VM with the pass that carries it out,
and the create and update of networks.  Between two calls any other request may make one of its own,
and a request may fail at a call or be cut short (`step`).  A request that nothing disturbs does what
its handler does in one go (`updateVm_finish`, `changeNic_finish`).

A VM that no request is busy with should have, for each NIC on a managed network, one usable address
for each family of the network (`Addressed`).  `update` puts a NIC on a managed network without
allocating for it, `change_nic` gives the old addresses up before it knows that there are new ones, and
`networks::update` changes a subnet under the addresses that were taken from it; the invariant holds as
long as nobody does these (`orderly`, `addresses_kept`).
-/

namespace VQuasar.Provisioning.Addresses

open Tenancy Runs List Option Bool Creation
open Requests (Edit SpecWrite)
open IdTable (mem_delete mem_updated get_eq_some id_lt eq_of_id mem_insert map_get_update mem_rows)
open Slots (get_put_ne get_put_self all_iff get_add_of_get get_add)

variable {w : SpecWrite} {id : Id} {sc : Scope} {u : AuthUser} {index : Nat}
  {nic : NetworkInterfaceSpec}

/-! ## Requests -/

/-- A request in progress, with the call that comes next. -/
inductive Request
  | creating (c : Creation)
  -- update
  | update (w : SpecWrite)
  -- change_nic
  | releaseNic (w : SpecWrite) (index : Nat) (nic : NetworkInterfaceSpec)
  | allocateNic (w : SpecWrite) (j : Job)
  | writeNic (w : SpecWrite)
  -- the pass that carries a delete out
  | reap (vm : Id) (d : Drop)

/-- `write_spec`, with the task and the event of the request. -/
def storeSpec (db : Db) (w : SpecWrite) (taskType eventType : String) : Db :=
  match db.writeSpec w.vm w.name w.spec with
  | .ok (some (vm, db)) => (accept db vm.id vm.name taskType eventType).1
  | _ => db

namespace Request

def vm : Request → Id
  | creating c => c.vm
  | update w => w.vm
  | releaseNic w _ _ => w.vm
  | allocateNic w _ => w.vm
  | writeNic w => w.vm
  | reap vm _ => vm

/-- Whether the request writes the NICs of its VM or their addresses. -/
def edits : Request → Bool
  | reap .. => false
  | _ => true

def call (db : Db) : Request → Db × Option Request
  | creating c =>
    match c.call db with
    | (db, .inl c) => (db, some (.creating c))
    | (db, .inr _) => (db, none)
  | update w => (storeSpec db w "vm.update" "vm.updated", none)
  | releaseNic w index nic =>
    (db.releaseNicAllocations w.vm index, some (.allocateNic w ⟨w.vm, index, nic, [], .getNetwork⟩))
  | allocateNic w j =>
    match j.call db with
    | .error _ => (db, none)
    | .ok (db, some j) => (db, some (.allocateNic w j))
    | .ok (db, none) => (db, some (.writeNic w))
  | writeNic w => (storeSpec db w "vm.nic.change" "vm.nic.changed", none)
  | reap vm d => (d.call db vm, d.next.map (.reap vm))

def broken : Request → Option Request
  | creating c => c.broken.getLeft?.map .creating
  | _ => none

end Request

def readUpdate (db : Db) (s : Scope) (u : AuthUser) (id : Id) (body : UpdateVm) :
    Except ApiError SpecWrite := do
  u.require .vmUpdate
  let vm ← orElse (db.getVm s id) (.vmNotFound id)
  SpecWrite.of id body.name vm.spec (.update db vm body)

/-- The reads of `change_nic`, with the NIC it moves. -/
def readChangeNic (db : Db) (s : Scope) (u : AuthUser) (id : Id) (index : Nat) (body : ChangeNic) :
    Except ApiError (SpecWrite × NetworkInterfaceSpec) := do
  let (_, nic) ← changeNicSpec db s u id index body
  let vm ← orElse (db.getVm s id) (.vmNotFound id)
  let w ← SpecWrite.of id none vm.spec (.nic index body)
  return (w, nic)

/-! ## A request alone -/

namespace Request

/-- At most `n` calls of a request, with nothing in between. -/
def finish : Nat → Db → Option Request → Option Db
  | _, db, none => some db
  | 0, _, some _ => none
  | n + 1, db, some q => finish n (q.call db).1 (q.call db).2

theorem finish_none (n : Nat) (db : Db) : finish n db none = some db := by
  cases n with
  | zero | succ => rfl

theorem finish_allocateNic {n : Nat} {r : Except ApiError Unit} {db' : Db} :
    ∀ {db : Db} {j : Job}, Job.finish n db (some j) = some (db', r) →
      finish (n + 1) db (some (.allocateNic w j)) = some (match r with
        | .error _ => db'
        | .ok () => storeSpec db' w "vm.nic.change" "vm.nic.changed") := by
  induction n with
  | zero =>
    intro db j h
    cases h
  | succ n ih =>
    intro db j h
    unfold Job.finish at h
    unfold finish
    simp only [call]
    cases hcall : j.call db with
    | error e =>
      rw [hcall] at h
      cases h
      exact finish_none _ _
    | ok p =>
      obtain ⟨db₁, o⟩ := p
      rw [hcall] at h
      cases o with
      | none =>
        have hdone : Job.finish n db₁ none = some (db₁, .ok ()) := by
          cases n with
          | zero | succ => rfl
        cases hdone.symm.trans h
        exact finish_none _ _
      | some j' => exact ih h

end Request

theorem updateVm_finish (db : Db) (s : Scope) (u : AuthUser) (id : Id) (body : UpdateVm) :
    (match readUpdate db s u id body with
      | .error _ => some db
      | .ok w => Request.finish 1 db (some (.update w))) = some (updateVm db s u id body).1 := by
  unfold readUpdate updateVm
  cases u.require .vmUpdate with
  | error e => rfl
  | ok _ =>
  cases db.getVm s id with
  | none => rfl
  | some vm =>
  cases hspec : (Edit.update db vm body).apply vm.spec with
  | error e =>
    have hupdate : updateSpec db vm body = .error e := hspec
    simp only [orElse, ok_bind, error_bind, SpecWrite.of_error hspec, hupdate]
    rfl
  | ok spec =>
    have hupdate : updateSpec db vm body = .ok spec := hspec
    simp only [orElse, ok_bind, SpecWrite.of_ok hspec, hupdate]
    show some (storeSpec db ⟨id, body.name, vm.spec, _, spec, hspec⟩ _ _) = _
    unfold storeSpec
    rcases db.writeSpec id body.name spec with e | _ | ⟨vm, db'⟩ <;> rfl

theorem changeNic_finish (db : Db) (s : Scope) (u : AuthUser) (id : Id) (index : Nat)
    (body : ChangeNic) :
    (match readChangeNic db s u id index body with
      | .error _ => some db
      | .ok (w, nic) => Request.finish 7 db (some (.releaseNic w index nic))) =
        some (changeNic db s u id index body).1 := by
  unfold readChangeNic changeNic
  cases hread : changeNicSpec db s u id index body with
  | error e => rfl
  | ok r =>
  obtain ⟨spec, nic⟩ := r
  obtain ⟨vm, hvm, hedit⟩ := Requests.changeNicSpec_eq hread
  have hspec : (Edit.nic index body).apply vm.spec = .ok spec := hedit
  simp only [ok_bind, hvm, orElse, SpecWrite.of_ok hspec, attempt]
  show Request.finish 6 (db.releaseNicAllocations id index) (some (.allocateNic
    ⟨id, none, vm.spec, _, spec, hspec⟩ ⟨id, index, nic, [], .getNetwork⟩)) = _
  -- the job is the one NIC that is moved
  have hjob := Job.finish_eq id [nic] (db.releaseNicAllocations id index) index
  rw [allocateNicIps] at hjob
  rcases hone : allocateOneNic (db.releaseNicAllocations id index) id nic index with ⟨db₁, e | ⟨⟩⟩
  · rw [hone] at hjob
    exact Request.finish_allocateNic hjob
  · rw [hone] at hjob
    refine (Request.finish_allocateNic hjob).trans ?_
    simp only [storeSpec, Db.setVmSpec]
    rcases db₁.writeSpec id none spec with e | _ | ⟨vm, db'⟩ <;> rfl

/-! ## Interleavings -/

structure State where
  db : Db
  requests : Slots Request

inductive Event
  -- a request arrives and makes its reads, and its insert if it is a creation
  | create (r : Route)
  | update (s : Scope) (u : AuthUser) (id : Id) (body : UpdateVm)
  | changeNic (s : Scope) (u : AuthUser) (id : Id) (index : Nat) (body : ChangeNic)
  | delete (s : Scope) (u : AuthUser) (id : Id)
  /-- the reconcile loop takes up a VM that is being deleted -/
  | reap (id : Id)
  | createNetwork (s : Scope) (u : AuthUser) (body : CreateNetwork)
  | updateNetwork (s : Scope) (u : AuthUser) (id : Id) (body : CreateNetwork)
  | call (i : Nat)
  /-- the database refuses the next call of the request in a slot -/
  | fail (i : Nat)
  /-- the request in a slot is cut short -/
  | crash (i : Nat)

variable (db : Db) (s : State) (network : Id) (vm : Id) (spec : VirtualMachineSpec)

def attached : Bool :=
  db.vms.rows.any fun r => r.spec.networkInterfaces.any fun nic => nic.networkId == network

namespace State

def begin : Except ApiError Request → State
  | .error _ => s
  | .ok q => { s with requests := s.requests.add q }

end State

def step (cfg : Config) (s : State) : Event → Option State
  | .create r =>
    match r.begin cfg s.db with
    | .error _ => some s
    | .ok (db, c) => some ⟨db, s.requests.add (.creating c)⟩
  | .update sc u id body => some (s.begin ((readUpdate s.db sc u id body).map .update))
  | .changeNic sc u id index body =>
    some (s.begin ((readChangeNic s.db sc u id index body).map fun (w, nic) =>
      .releaseNic w index nic))
  | .delete sc u id => some { s with db := (deleteVm s.db sc u id).1 }
  | .reap id =>
    if (s.db.vms.get id).any fun vm => vm.phase == .deleting then
      some { s with requests := s.requests.add (.reap id .release) }
    else none
  | .createNetwork sc u body =>
    -- ids are drawn at random: that of a new network is not one a spec names already
    if attached s.db s.db.networks.next then none
    else some { s with db := (createNetwork cfg s.db sc u body).1 }
  | .updateNetwork sc u id body => some { s with db := (updateNetwork s.db sc u id body).1 }
  | .call i =>
    (s.requests.get i).map fun q =>
      { db := (q.call s.db).1, requests := s.requests.put i (q.call s.db).2 }
  | .fail i => (s.requests.get i).map fun q => { s with requests := s.requests.put i q.broken }
  | .crash i => (s.requests.get i).map fun _ => { s with requests := s.requests.put i none }

/-! ## What should hold, and when it does -/

/-- **The addresses are right.**  Each NIC on a managed network has the rows of its network's families,
for every VM that no request is busy with, and no address of a network is given out twice. -/
def Addressed : Prop :=
  (∀ r ∈ s.db.vms, s.requests.all (fun q => q.vm != r.id) = true →
    ∀ i nic n, r.spec.networkInterfaces[i]? = some nic → s.db.networks.get nic.networkId = some n →
      n.isManaged = true → ∀ v6, FamilyOk s.db r.id i n.id v6 (rangeOf n.ipam v6)) ∧
    Unique s.db

def Fresh : Prop :=
  s.requests = .empty ∧ s.db.vms.rows = [] ∧ s.db.networks.rows = [] ∧ s.db.allocations.rows = []

namespace Request

/-- Whether the request relies on what it has read of a network, or is about to put a NIC there. -/
def claims : Request → Bool
  | creating c =>
    match c.stage with
    | .allocate j =>
      match j.next with
      | .getNetwork => false
      | _ => j.nic.networkId == network
    | _ => false
  | allocateNic w _ | writeNic w => w.spec.networkInterfaces.any fun nic => nic.networkId == network
  | _ => false

def added (w : SpecWrite) : Option Id :=
  match w.edit with
  | .update _ _ body => body.addNic
  | _ => none

/-- Whether the pool of the network has an address left for the NIC that is moved, and the one that
was chosen is still free. -/
def roomFor (j : Job) : Bool :=
  match j.next with
  | .getNetwork => true
  | .choose n _ v6 =>
    match n.ipam.subnet v6 with
    | .ok (some s) => hasRoom s ((db.allocationsForNetwork n.id).map IpAllocation.ip)
    | _ => true
  | .insert n _ _ ip => (db.allocationsForNetwork n.id).all fun a => a.ip != ip

def ready : Request → Bool -- the new NIC gets no address, so its network must have none to give
  | update w => (added w).all fun network => !(db.networks.get network).any Network.isManaged
  | allocateNic _ j => roomFor db j
  -- the usage of the project can be added up, so the quota lets the new spec pass
  | writeNic w => (db.vms.get w.vm).all fun vm => (db.usageIn vm.project).isOk
  | _ => true

def endable : Request → Bool
  | creating c =>
    match c.stage with
    | .allocate _ | .rollback .. => false
    | _ => true
  | allocateNic .. | writeNic _ => false
  | reap _ d => d == .release
  | _ => true

/-- A creation that cannot allocate rolls back; other requests end where they fail. -/
def failable (q : Request) : Bool := q.broken.isSome || q.endable

end Request

namespace State

def unedited : Bool := s.requests.all fun q => !(q.edits && q.vm == vm)

/-- Whether new subnets suit the addresses given out: a family keeps its subnet; or, with no request
relying on the old one, the addresses are usable in the new one, or no NIC is on the network. -/
def suits (ipam : NetworkIpam) : Bool :=
  (s.db.networks.get network).all fun n => [false, true].all fun v6 =>
    decide (rangeOf ipam v6 = rangeOf n.ipam v6) ||
      s.requests.all (fun q => !q.claims network) &&
        match rangeOf n.ipam v6, rangeOf ipam v6 with
        | .ok (some _), .ok (some r) =>
          s.db.allocations.rows.all fun a =>
            !(a.network == network && a.v6 == v6) || decide (Usable r a.ip)
        | _, _ => !attached s.db network

/-- Edits of one VM do not overlap, a NIC is added on networks without addresses only, a NIC is moved
where there is an address for it, subnets are of their own family and suit the addresses given out, and
no request is cut short while the addresses of its VM are incomplete. -/
def orderly : Event → Bool
  | .update _ _ id _ | .changeNic _ _ id _ _ => s.unedited id
  | .createNetwork _ _ body => proper body.ipam
  | .updateNetwork _ _ id body => proper body.ipam && s.suits id body.ipam
  | .call i => (s.requests.get i).all fun q => q.ready s.db
  | .fail i => (s.requests.get i).all Request.failable
  | .crash i => (s.requests.get i).all Request.endable
  | _ => true

end State

/-! ## The invariant -/

def NicsOk (nics : List NetworkInterfaceSpec) : Prop :=
  ∀ i nic, nics[i]? = some nic → NicOk db vm i nic.networkId

/-- The write of a `change_nic` moves one NIC and leaves the rest of the spec as it is. -/
def Moves (w : SpecWrite) (index : Nat) (nic : NetworkInterfaceSpec) : Prop :=
  w.spec = { spec with networkInterfaces := spec.networkInterfaces.set index nic } ∧
    index < spec.networkInterfaces.length ∧ nic.addresses = []

def unrequested (j : Job) : Prop :=
  match j.next with
  | .getNetwork => j.nic.addresses = []
  | .choose _ requested _ | .insert _ requested _ _ => requested = []

/-- What a request has to do with the spec that is stored and the addresses that are given out. -/
def Fits : Request → Prop
  | .creating c =>
    match c.stage with
    | .allocate j =>
      j.vm = vm ∧ spec.networkInterfaces.drop j.index = j.nic :: j.rest ∧
        (∀ i nic, i < j.index → spec.networkInterfaces[i]? = some nic → NicOk db vm i nic.networkId) ∧
        (∀ i v6, j.index < i → familyRows db vm i v6 = []) ∧ Current db j
    | .rollback .. => True
    | _ => NicsOk db vm spec.networkInterfaces
  | .update w =>
    w.spec.networkInterfaces = spec.networkInterfaces ++ oneNic (Request.added w) [] ∧
      NicsOk db vm spec.networkInterfaces
  | .releaseNic w index nic =>
    Moves spec w index nic ∧ (rangesAt db nic.networkId).isSome ∧ NicsOk db vm spec.networkInterfaces
  | .allocateNic w j =>
    Moves spec w j.index j.nic ∧ j.vm = vm ∧ j.rest = [] ∧ (rangesAt db j.nic.networkId).isSome ∧
      (∀ i nic, i ≠ j.index → spec.networkInterfaces[i]? = some nic → NicOk db vm i nic.networkId) ∧
      unrequested j ∧ Current db j
  | .writeNic w =>
    w.spec.amounts = spec.amounts ∧
      (∀ nic ∈ w.spec.networkInterfaces,
        nic ∈ spec.networkInterfaces ∨ (rangesAt db nic.networkId).isSome) ∧
      NicsOk db vm w.spec.networkInterfaces
  | .reap .. => True

def JobOf : Request → Prop
  | .creating c =>
    match c.stage with
    | .allocate j => j.vm = c.vm
    | _ => True
  | .allocateNic w j => j.vm = w.vm
  | _ => True

/-- What is left of a request fits, and a request that is over leaves the NICs with their addresses. -/
def Left : Option Request → Prop
  | some q => Fits db vm spec q
  | none => NicsOk db vm spec.networkInterfaces

/-- The addresses of the VM have been released because its row is about to go. -/
def Gutted (t : Slots Request) (vm : Id) : Prop := ∃ k d, t.get k = some (.reap vm d) ∧ d ≠ .release

/-- The request that edits the VM fits, and without one the NICs have their addresses. -/
def Facts (t : Slots Request) (db : Db) (vm : Id) (spec : VirtualMachineSpec) : Prop :=
  (∀ k q, t.get k = some q → q.edits → q.vm = vm → Fits db vm spec q) ∧
    ((∀ k q, t.get k = some q → q.edits → q.vm ≠ vm) → NicsOk db vm spec.networkInterfaces)

structure Inv (s : State) : Prop where
  unique : Unique s.db
  proper : ∀ n ∈ s.db.networks, proper n.ipam
  /-- a VM that is yet to be created has no addresses -/
  owners : ∀ a ∈ s.db.allocations, ∀ vm, a.vm = some vm → vm < s.db.vms.next
  known : s.requests.All fun q => q.vm < s.db.vms.next ∧ JobOf q
  apart : s.requests.Apart fun a b => a.edits = true → b.edits = true → a.vm ≠ b.vm
  rows : ∀ r ∈ s.db.vms, Gutted s.requests r.id ∨ Facts s.requests s.db r.id r.spec

section

variable {db db' : Db} {vm : Id} {spec : VirtualMachineSpec} {q q' : Request} {t : Slots Request}
  {i : Nat} {o : Option Request} {s s' : State}

theorem moves_mem (h : Moves spec w index nic) : nic ∈ w.spec.networkInterfaces := by
  obtain ⟨hspec, hlt, -⟩ := h
  rw [hspec]
  exact mem_of_getElem? (List.getElem?_set_self hlt)

/-! ## What a change of the tables leaves alone -/

theorem familyRows_congr (h : db'.allocations = db.allocations) (vm : Id) (i : Nat) (v6 : Bool) :
    familyRows db' vm i v6 = familyRows db vm i v6 := by
  unfold familyRows
  rw [h]

theorem rangesAt_congr (h : db'.networks = db.networks) (network : Id) :
    rangesAt db' network = rangesAt db network := by
  unfold rangesAt
  rw [h]

/-- A request keeps fitting when its NICs keep their addresses and the networks it relies on their
subnets. -/
theorem Fits.frame (hrows : ∀ i v6, familyRows db' vm i v6 = familyRows db vm i v6)
    (hnic : ∀ i nic, spec.networkInterfaces[i]? = some nic → NicOk db vm i nic.networkId →
      NicOk db' vm i nic.networkId)
    (hclaims : ∀ network, q.claims network → rangesAt db' network = rangesAt db network)
    (hsome : ∀ network, (rangesAt db network).isSome → (rangesAt db' network).isSome)
    (h : Fits db vm spec q) : Fits db' vm spec q := by
  have hnics : NicsOk db vm spec.networkInterfaces → NicsOk db' vm spec.networkInterfaces :=
    fun hok i nic hi => hnic i nic hi (hok i nic hi)
  cases q with
  | creating c =>
    obtain ⟨cvm, name, boot, stage⟩ := c
    cases stage with
    | allocate j =>
      obtain ⟨rfl, hdrop, hdone, hnone, hcur⟩ := h
      refine ⟨rfl, hdrop, fun i nic hi hget => hnic i nic hget (hdone i nic hi hget),
        fun i v6 hi => (hrows i v6).trans (hnone i v6 hi), ?_⟩
      cases hnext : j.next with
      | getNetwork =>
        unfold Current at hcur ⊢
        rw [hnext] at hcur ⊢
        exact fun v6 => (hrows j.index v6).trans (hcur v6)
      | choose | insert =>
        refine hcur.frame (hrows j.index) (hclaims _ ?_)
        simp [Request.claims, hnext]
    | rollback d e => exact trivial
    | attach | task | event => exact hnics h
  | update w => exact ⟨h.1, hnics h.2⟩
  | releaseNic w index nic => exact ⟨h.1, hsome _ h.2.1, hnics h.2.2⟩
  | allocateNic w j =>
    obtain ⟨hmoves, rfl, hrest, hex, hothers, hreq, hcur⟩ := h
    refine ⟨hmoves, rfl, hrest, hsome _ hex, fun i nic hi hget => hnic i nic hget (hothers i nic hi hget),
      hreq, hcur.frame (hrows j.index) (hclaims _ ?_)⟩
    exact any_eq_true.mpr ⟨j.nic, moves_mem hmoves, beq_self_eq_true _⟩
  | writeNic w =>
    obtain ⟨hamounts, hex, hok⟩ := h
    refine ⟨hamounts, fun nic hmem => (hex nic hmem).imp_right (hsome _), ?_⟩
    intro i nic hget
    refine (hok i nic hget).frame (hrows i) (hclaims _ ?_)
    exact any_eq_true.mpr ⟨nic, mem_of_getElem? hget, beq_self_eq_true _⟩
  | reap vm d => exact trivial

/-- Only one VM is touched: its row, and its addresses. -/
structure Local (vm : Id) (db db' : Db) : Prop where
  specs : ∀ r ∈ db'.vms, r.id ≠ vm → ∃ r₀ ∈ db.vms, r₀.id = r.id ∧ r₀.spec = r.spec
  next : db'.vms.next = db.vms.next
  networks : db'.networks = db.networks
  rows : ∀ vm' i v6, vm' ≠ vm → familyRows db' vm' i v6 = familyRows db vm' i v6
  unique : Unique db → Unique db'
  owners : ∀ a ∈ db'.allocations, a ∈ db.allocations ∨ a.vm = some vm

theorem Local.of_same (hvms : db'.vms = db.vms) (hnets : db'.networks = db.networks)
    (halloc : db'.allocations = db.allocations) : Local vm db db' where
  specs := fun r hr _ => ⟨r, hvms ▸ hr, rfl, rfl⟩
  next := by rw [hvms]
  networks := hnets
  rows := fun vm' i v6 _ => familyRows_congr halloc vm' i v6
  unique := by
    intro hu
    unfold Unique
    rw [halloc]
    exact hu
  owners := fun a ha => .inl (halloc ▸ ha)

theorem Local.rangesAt (h : Local vm db db') (network : Id) :
    rangesAt db' network = rangesAt db network :=
  rangesAt_congr h.networks network

theorem Local.trans {db'' : Db} (h : Local vm db db') (h' : Local vm db' db'') : Local vm db db'' where
  specs := by
    intro r hr hne
    obtain ⟨r₁, hr₁, hid₁, hspec₁⟩ := h'.specs r hr hne
    obtain ⟨r₀, hr₀, hid₀, hspec₀⟩ := h.specs r₁ hr₁ (hid₁ ▸ hne)
    exact ⟨r₀, hr₀, hid₀.trans hid₁, hspec₀.trans hspec₁⟩
  next := h'.next.trans h.next
  networks := h'.networks.trans h.networks
  rows := fun vm' i v6 hne => (h'.rows vm' i v6 hne).trans (h.rows vm' i v6 hne)
  unique := fun hu => h'.unique (h.unique hu)
  owners := by
    intro a ha
    rcases h'.owners a ha with ha | ha
    · exact h.owners a ha
    · exact .inr ha

theorem Local.of_adds (h : Adds vm i db db') : Local vm db db' where
  specs := by
    obtain ⟨t, rfl⟩ := h.only
    exact fun r hr _ => ⟨r, hr, rfl, rfl⟩
  next := by
    obtain ⟨t, rfl⟩ := h.only
    rfl
  networks := by
    obtain ⟨t, rfl⟩ := h.only
    rfl
  rows := fun vm' i' v6 hne => h.others vm' i' v6 fun hsame => hne hsame.1
  unique := h.unique
  owners := h.owners

theorem Local.deleteAllocations {p : IpAllocation → Bool} (hp : ∀ a, p a → a.vm = some vm) :
    Local vm db { db with allocations := db.allocations.delete p } where
  specs := fun r hr _ => ⟨r, hr, rfl, rfl⟩
  next := rfl
  networks := rfl
  rows := by
    intro vm' i v6 hne
    refine IdTable.Same.delete fun a _ ha => ?_
    have hvm := hp a ha
    simp [hvm, Ne.symm hne]
  unique := by
    intro hu a ha b hb
    exact hu a (mem_delete.mp ha).1 b (mem_delete.mp hb).1
  owners := fun a ha => .inl (mem_delete.mp ha).1

theorem Local.setVm (f : Vm → Vm) (hf : ∀ r, (f r).id = r.id) : Local vm db (db.setVm vm f hf) where
  specs := by
    intro r hr hne
    obtain ⟨r₀, hr₀, rfl⟩ := mem_updated rfl hr
    split at hne
    · next heq =>
      rw [hf] at hne
      exact absurd (eq_of_beq heq) hne
    · next heq =>
      rw [if_neg heq]
      exact ⟨r₀, hr₀, rfl, rfl⟩
  next := rfl
  networks := rfl
  rows := fun _ _ _ _ => rfl
  unique := fun h => h
  owners := fun _ h => .inl h

theorem Local.drop (d : Drop) : Local vm db (d.call db vm) := by
  cases d with
  | release => exact .deleteAllocations fun a ha => eq_of_beq ha
  | detach => exact .of_same rfl rfl rfl
  | deleteRow =>
    exact ⟨fun r hr _ => ⟨r, (mem_delete.mp hr).1, rfl, rfl⟩, rfl, rfl, fun _ _ _ _ => rfl,
      fun h => h, fun _ h => .inl h⟩

variable {r : Vm} {eventType taskType : String} {j : Job} {c : Creation} {cfg : Config}
  {ipam : NetworkIpam}

theorem id_ne_of_deleteRow (hr : r ∈ (Drop.deleteRow.call db vm).vms) : r.id ≠ vm := by
  have htest := (mem_delete.mp hr).2
  simpa using htest

theorem Local.storeSpec : Local w.vm db (storeSpec db w taskType eventType) := by
  unfold Addresses.storeSpec
  split
  · next vm' db' hw =>
    rw [Db.writeSpec_ok hw]
    exact (Local.setVm (Db.respec w.name w.spec) fun _ => rfl).trans (.of_same rfl rfl rfl)
  · exact .of_same rfl rfl rfl

/-! ## The requests in the slots -/

theorem Gutted.put (hi : t.get i = some q) (hq : q.edits) (h : Gutted t vm) :
    Gutted (t.put i o) vm := by
  obtain ⟨k, d, hk, hd⟩ := h
  refine ⟨k, d, ?_, hd⟩
  rw [get_put_ne, hk]
  rintro rfl
  rw [hi] at hk
  cases hk
  cases hq

theorem facts_put (hi : t.get i = some q)
    (hapart : t.Apart fun a b => a.edits = true → b.edits = true → a.vm ≠ b.vm)
    (hq : q.edits) (hvm : q.vm = vm) (ho : Left db vm spec o)
    (hedits : ∀ q', o = some q' → q'.edits ∧ q'.vm = vm) : Facts (t.put i o) db vm spec := by
  constructor
  · intro k q' hk hq' hvm'
    by_cases hki : k = i
    · subst hki
      rw [get_put_self hi] at hk
      subst hk
      exact ho
    · rw [get_put_ne hki] at hk
      exact absurd (hvm.trans hvm'.symm) (hapart i k q q' (Ne.symm hki) hi hk hq hq')
  · intro hnone
    cases o with
    | none => exact ho
    | some q' =>
      obtain ⟨hq', hvm'⟩ := hedits q' rfl
      exact absurd hvm' (hnone i q' (get_put_self hi) hq')

section

variable (h : Inv s) (hi : s.requests.get i = some q)
include h hi

theorem rows_put_other (hlocal : Local q.vm s.db db')
    (hvm : ∀ q', o = some q' → q'.vm = q.vm) (hr : r ∈ db'.vms) (hne : r.id ≠ q.vm) :
    Gutted (s.requests.put i o) r.id ∨ Facts (s.requests.put i o) db' r.id r.spec := by
  obtain ⟨r₀, hr₀, hid, hspec⟩ := hlocal.specs r hr hne
  -- the slots hold the same requests about this VM
  have hslot : ∀ k q', (s.requests.put i o).get k = some q' → q'.vm = r.id →
      s.requests.get k = some q' := by
    intro k q' hk hq'
    by_cases hki : k = i
    · subst hki
      rw [get_put_self hi] at hk
      exact absurd (hq'.symm.trans (hvm q' hk)) hne
    · rwa [get_put_ne hki] at hk
  have hslot' : ∀ k q', s.requests.get k = some q' → q'.vm = r.id →
      (s.requests.put i o).get k = some q' := by
    intro k q' hk hq'
    rw [get_put_ne, hk]
    rintro rfl
    rw [hi] at hk
    obtain rfl := some.inj hk
    exact hne hq'.symm
  have hrows : ∀ j v6, familyRows db' r.id j v6 = familyRows s.db r.id j v6 :=
    fun j v6 => hlocal.rows r.id j v6 hne
  have hnic : ∀ j nic, r.spec.networkInterfaces[j]? = some nic → NicOk s.db r.id j nic.networkId →
      NicOk db' r.id j nic.networkId :=
    fun j nic _ hok => hok.frame (hrows j) (hlocal.rangesAt _)
  have hold := h.rows r₀ hr₀
  rw [hid, hspec] at hold
  rcases hold with ⟨k, d, hk, hd⟩ | ⟨hfits, hfree⟩
  · exact .inl ⟨k, d, hslot' k _ hk rfl, hd⟩
  refine .inr ⟨?_, ?_⟩
  · intro k q' hk hq' hvm'
    exact (hfits k q' (hslot k q' hk hvm') hq' hvm').frame hrows hnic
      (fun network _ => hlocal.rangesAt network)
      (fun network hs => by rw [hlocal.rangesAt]; exact hs)
  · intro hnone j nic hget
    refine hnic j nic hget (hfree ?_ j nic hget)
    intro k q' hk hq' hvm'
    exact hnone k q' (hslot' k q' hk hvm') hq' hvm'

/-- **One call of a request.**  Only its VM is touched; what is left of the request is about the same
VM, and fits what the call has left of the row. -/
theorem Inv.put (hlocal : Local q.vm s.db db')
    (hvm : ∀ q', o = some q' → q'.vm = q.vm ∧ q'.edits = q.edits ∧ JobOf q')
    (hown : ∀ r ∈ db'.vms, r.id = q.vm →
    Gutted (s.requests.put i o) q.vm ∨ Facts (s.requests.put i o) db' q.vm r.spec) :
    Inv ⟨db', s.requests.put i o⟩ where
  unique := hlocal.unique h.unique
  proper := by
    intro n hn
    exact h.proper n (hlocal.networks ▸ hn)
  owners := by
    intro a ha vm hvm
    show vm < db'.vms.next
    rw [hlocal.next]
    rcases hlocal.owners a ha with hold | hnew
    · exact h.owners a hold vm hvm
    · rw [hvm] at hnew
      exact some.inj hnew ▸ (h.known i q hi).1
  known := by
    show (s.requests.put i o).All fun q => q.vm < db'.vms.next ∧ JobOf q
    rw [hlocal.next]
    refine h.known.put hi fun q' hq' => ⟨?_, (hvm q' hq').2.2⟩
    rw [(hvm q' hq').1]
    exact (h.known i q hi).1
  apart := by
    refine Slots.Apart.put (fun a b hab hb ha => Ne.symm (hab ha hb)) h.apart hi ?_
    intro q' hq' k b hk hb
    obtain ⟨hv, he, -⟩ := hvm q' hq'
    rw [hv, he]
    exact h.apart i k q b (Ne.symm hk) hi hb
  rows := by
    intro r hr
    by_cases hid : r.id = q.vm
    · rw [hid]
      exact hown r hr hid
    · exact rows_put_other h hi hlocal (fun q' hq' => (hvm q' hq').1) hr hid

/-- A call of a request that edits its VM: the row may have been emptied already, and otherwise the
request fits before the call. -/
theorem Inv.put_edit (hq : q.edits)
    (hlocal : Local q.vm s.db db') (hvm : ∀ q', o = some q' → q'.vm = q.vm ∧ q'.edits ∧ JobOf q')
    (hown : ∀ r ∈ db'.vms, r.id = q.vm → ∃ r₀ ∈ s.db.vms, r₀.id = q.vm ∧
    (Fits s.db q.vm r₀.spec q → Left db' q.vm r.spec o)) : Inv ⟨db', s.requests.put i o⟩ := by
  refine h.put hi hlocal (fun q' hq' => ?_) ?_
  · obtain ⟨hv, he, hj⟩ := hvm q' hq'
    exact ⟨hv, he.trans hq.symm, hj⟩
  intro r hr hid
  obtain ⟨r₀, hr₀, hid₀, hstep⟩ := hown r hr hid
  have hold := h.rows r₀ hr₀
  rw [hid₀] at hold
  rcases hold with hgut | ⟨hfits, -⟩
  · exact .inl (hgut.put hi hq)
  · exact .inr (facts_put hi h.apart hq rfl (hstep (hfits i q hi hq rfl))
      fun q' hq' => ⟨(hvm q' hq').2.1, (hvm q' hq').1⟩)

end

/-! ## The calls -/

variable {nics : List NetworkInterfaceSpec} {new : VirtualMachineSpec} {body : CreateNetwork}
  {n : Network}

theorem NicsOk.frame (hrows : ∀ i v6, familyRows db' vm i v6 = familyRows db vm i v6)
    (hnet : ∀ network, rangesAt db' network = rangesAt db network) (h : NicsOk db vm nics) :
    NicsOk db' vm nics :=
  fun i nic hget => (h i nic hget).frame (hrows i) (hnet _)

/-- The NICs below `index` have their addresses, the one at `index` has just got them, and the others
have none yet. -/
theorem creating_next (hadds : Adds j.vm j.index db db')
    (hdrop : spec.networkInterfaces.drop j.index = j.nic :: j.rest)
    (hdone : ∀ i nic, i < j.index → spec.networkInterfaces[i]? = some nic →
      NicOk db j.vm i nic.networkId) (hnone : ∀ i v6, j.index < i → familyRows db j.vm i v6 = [])
    (hnic : NicOk db' j.vm j.index j.nic.networkId) :
    Fits db' j.vm spec (.creating (c.allocating j.nextNic)) := by
  have hother : ∀ i, i ≠ j.index → ∀ v6, familyRows db' j.vm i v6 = familyRows db j.vm i v6 :=
    fun i hi v6 => hadds.others j.vm i v6 fun hsame => hi hsame.2
  have hat : spec.networkInterfaces[j.index]? = some j.nic := by
    have hhead := congrArg List.head? hdrop
    rwa [List.head?_drop] at hhead
  have hdone' : ∀ i nic, i < j.index + 1 → spec.networkInterfaces[i]? = some nic →
      NicOk db' j.vm i nic.networkId := by
    intro i nic hi hget
    by_cases hij : i = j.index
    · subst hij
      rw [hat] at hget
      exact some.inj hget ▸ hnic
    · exact (hdone i nic (by omega) hget).frame (hother i hij) (hadds.rangesAt _)
  have htail : spec.networkInterfaces.drop (j.index + 1) = j.rest := by
    rw [← tail_drop, hdrop]
    rfl
  cases hrest : j.rest with
  | nil =>
    -- this was the last NIC
    have hlen : spec.networkInterfaces.length ≤ j.index + 1 := by
      rw [hrest, drop_eq_nil_iff] at htail
      exact htail
    have hok : NicsOk db' j.vm spec.networkInterfaces := by
      intro i nic hget
      have hlt := (List.getElem?_eq_some_iff.mp hget).1
      exact hdone' i nic (by omega) hget
    unfold Job.nextNic
    rw [hrest]
    show Fits db' j.vm spec (.creating { c with stage := allocated c.boot })
    unfold allocated
    cases c.boot with
    | none | some => exact hok
  | cons nic rest =>
    unfold Job.nextNic
    rw [hrest]
    refine ⟨rfl, htail.trans hrest, hdone', ?_, ?_⟩
    · intro i v6 hi
      have hi' : j.index + 1 < i := hi
      rw [hother i (by omega)]
      exact hnone i v6 (by omega)
    · intro v6
      show familyRows db' j.vm (j.index + 1) v6 = []
      rw [hother _ (by omega)]
      exact hnone _ v6 (by omega)

theorem Inv.call_creating (h : Inv s) (hi : s.requests.get i = some (.creating c)) :
    Inv ⟨(Request.call s.db (.creating c)).1,
      s.requests.put i (Request.call s.db (.creating c)).2⟩ := by
  have hjob := (h.known i _ hi).2
  obtain ⟨vm, name, boot, stage⟩ := c
  unfold Request.call call
  cases stage with
  | allocate j =>
    obtain rfl : j.vm = vm := hjob
    simp only
    cases hcall : j.call s.db with
    | error e =>
      -- no address: the creation rolls back
      refine h.put_edit hi rfl (.of_same rfl rfl rfl) ?_ fun r hr hid => ⟨r, hr, hid, fun _ => trivial⟩
      rintro q' ⟨⟩
      exact ⟨rfl, rfl, trivial⟩
    | ok p =>
      obtain ⟨db', o⟩ := p
      have hcalled := Job.called hcall
      have hadds := hcalled.adds
      refine h.put_edit hi rfl (.of_adds hadds) ?_ ?_
      · rintro q' ⟨⟩
        unfold allocating
        cases o with
        | some j' => exact ⟨rfl, rfl, hcalled.sameVm j' rfl⟩
        | none =>
          unfold allocated
          cases boot with
          | none | some => exact ⟨rfl, rfl, trivial⟩
      · intro r hr hid
        have hr₀ : r ∈ s.db.vms := by
          obtain ⟨t, rfl⟩ := hadds.only
          exact hr
        refine ⟨r, hr₀, hid, ?_⟩
        rintro ⟨-, hdrop, hdone, hnone, hcur⟩
        rcases hcur.call h.proper hcalled with ⟨next, rfl, hcur'⟩ | ⟨rfl, hnic⟩
        · refine ⟨rfl, hdrop, ?_, ?_, hcur'⟩
          · intro k nic hk hget
            refine (hdone k nic hk hget).frame (fun v6 => hadds.others _ k v6 ?_) (hadds.rangesAt _)
            rintro ⟨-, rfl⟩
            exact Nat.lt_irrefl _ hk
          · intro k v6 hk
            rw [hadds.others _ k v6]
            · exact hnone k v6 hk
            · rintro ⟨-, rfl⟩
              exact Nat.lt_irrefl _ hk
        · exact creating_next hadds hdrop hdone hnone hnic
  | rollback d e =>
    cases d with
    | release =>
      show Inv ⟨Drop.release.call s.db vm, _⟩
      refine h.put_edit hi rfl (.drop _) ?_ fun r hr hid => ⟨r, hr, hid, fun _ => trivial⟩
      rintro q' ⟨⟩
      exact ⟨rfl, rfl, trivial⟩
    | detach =>
      show Inv ⟨Drop.detach.call s.db vm, _⟩
      refine h.put_edit hi rfl (.drop _) ?_ fun r hr hid => ⟨r, hr, hid, fun _ => trivial⟩
      rintro q' ⟨⟩
      exact ⟨rfl, rfl, trivial⟩
    | deleteRow =>
      show Inv ⟨Drop.deleteRow.call s.db vm, _⟩
      refine h.put_edit hi rfl (.drop _) (by rintro q' ⟨⟩) fun r hr hid => ?_
      exact absurd hid (id_ne_of_deleteRow hr)
  | attach | task =>
    refine h.put_edit hi rfl (.of_same rfl rfl rfl) ?_ fun r hr hid => ⟨r, hr, hid, fun hok => hok⟩
    rintro q' ⟨⟩
    exact ⟨rfl, rfl, trivial⟩
  | event task =>
    refine h.put_edit hi rfl (.of_same rfl rfl rfl) ?_ fun r hr hid => ⟨r, hr, hid, fun hok => hok⟩
    rintro q' ⟨⟩

theorem mem_storeSpec (hr : r ∈ (storeSpec db w taskType eventType).vms) (hid : r.id = w.vm) :
    (∃ r₀ ∈ db.vms, r₀.id = w.vm ∧ r.spec = w.spec) ∨
      r ∈ db.vms ∧ ∃ e, db.writeSpec w.vm w.name w.spec = .error e := by
  unfold storeSpec at hr
  split at hr
  · next vm' db' hw =>
    rw [Db.writeSpec_ok hw] at hr
    obtain ⟨r₀, hr₀, rfl⟩ := mem_updated rfl hr
    split at hid
    · next heq =>
      rw [if_pos heq]
      exact .inl ⟨r₀, hr₀, eq_of_beq heq, rfl⟩
    · next heq => exact absurd (beq_iff_eq.mpr hid) heq
  · next hw =>
    refine .inr ⟨hr, ?_⟩
    cases hres : db.writeSpec w.vm w.name w.spec with
    | error e => exact ⟨e, rfl⟩
    | ok o =>
    cases o with
    | some p => exact absurd hres (hw p.1 p.2)
    | none =>
    unfold Db.writeSpec at hres
    rw [get_eq_some.mpr ⟨hr, hid⟩] at hres
    obtain ⟨u, -, hres⟩ := bind_eq_ok.mp hres
    cases hres

theorem storeSpec_allocations :
    (storeSpec db w taskType eventType).allocations = db.allocations := by
  unfold storeSpec
  split
  · next vm' db' hw =>
    rw [Db.writeSpec_ok hw]
    rfl
  · rfl

theorem nicsOk_storeSpec
    (h : NicsOk db vm nics) : NicsOk (storeSpec db w taskType eventType) vm nics :=
  h.frame (familyRows_congr storeSpec_allocations vm) fun network => Local.storeSpec.rangesAt network

theorem Inv.call_update (h : Inv s) (hi : s.requests.get i = some (.update w))
    (hready : Request.ready s.db (.update w)) :
    Inv ⟨(Request.call s.db (.update w)).1, s.requests.put i (Request.call s.db (.update w)).2⟩ := by
  refine h.put_edit hi rfl (.storeSpec : Local w.vm s.db _) (by rintro q' ⟨⟩) fun r hr hid => ?_
  rcases mem_storeSpec hr hid with ⟨r₀, hr₀, hid₀, hspec⟩ | ⟨hr₀, -⟩
  · refine ⟨r₀, hr₀, hid₀, ?_⟩
    rintro ⟨hnics, hok⟩
    show NicsOk _ w.vm r.spec.networkInterfaces
    rw [hspec, hnics]
    refine nicsOk_storeSpec ?_
    intro k nic hget
    rw [List.getElem?_append] at hget
    split at hget
    · exact hok k nic hget
    -- the new NIC: its network has no addresses to give
    have hmem := mem_of_getElem? hget
    have hadd : Request.added w = some nic.networkId := by
      unfold oneNic at hmem
      cases hadded : Request.added w with
      | none =>
        rw [hadded] at hmem
        cases hmem
      | some network =>
        rw [hadded] at hmem
        obtain rfl := mem_singleton.mp hmem
        rfl
    intro f hf hset
    unfold Request.ready at hready
    simp only [hadd, all_some] at hready
    obtain ⟨n, hn, rfl⟩ := map_eq_some_iff.mp hf
    rw [hn] at hready
    simp [isManaged_iff.mpr hset] at hready
  · exact ⟨r, hr₀, hid, fun hfits => nicsOk_storeSpec hfits.2⟩

theorem Inv.call_releaseNic (h : Inv s) (hi : s.requests.get i = some (.releaseNic w index nic)) :
    Inv ⟨s.db.releaseNicAllocations w.vm index,
      s.requests.put i (some (.allocateNic w ⟨w.vm, index, nic, [], .getNetwork⟩))⟩ := by
  have hlocal : Local w.vm s.db (s.db.releaseNicAllocations w.vm index) :=
    .deleteAllocations fun a ha => eq_of_beq (and_eq_true_iff.mp ha).1
  refine h.put_edit hi rfl hlocal ?_ fun r hr hid => ⟨r, hr, hid, ?_⟩
  · rintro q' ⟨⟩
    exact ⟨rfl, rfl, rfl⟩
  · rintro ⟨hmoves, hex, hok⟩
    refine ⟨hmoves, rfl, rfl, hex, ?_, hmoves.2.2, ?_⟩
    · intro k nic' hk hget
      refine (hok k nic' hget).frame (fun v6 => IdTable.Same.delete fun a _ ha => ?_) rfl
      simp only [and_eq_true, beq_iff_eq] at ha
      have hki : (index == k) = false := beq_eq_false_iff_ne.mpr (Ne.symm hk)
      simp [ha.2, hki]
    · intro v6
      show List.filter _ (Table.deleteWhere _ _) = []
      rw [filter_eq_nil_iff]
      intro a ha htest
      have hkept := (Table.mem_deleteWhere.mp ha).2
      simp only [and_eq_true, beq_iff_eq] at htest
      simp [htest.1.1, htest.1.2] at hkept

theorem unrequested_call {next : NicCall} (h : unrequested j)
    (hcall : Called db j db' (some { j with next := next })) (hrest : j.rest = []) :
    unrequested { j with next := next } := by
  have hnic : j.nextNic = none := by
    unfold Job.nextNic
    rw [hrest]
    rfl
  have hfamily : ∀ n requested v6, requested = [] →
      j.nextFamily n requested v6 = some { j with next := next } → unrequested { j with next := next } := by
    intro n requested v6 hreq hnext
    cases v6 with
    | true =>
      rw [show j.nextFamily n requested true = j.nextNic from rfl, hnic] at hnext
      cases hnext
    | false =>
      cases hnext
      exact hreq
  unfold unrequested at h
  generalize ho : some { j with next := next } = o at hcall
  cases hcall with
  | unmanaged =>
    rw [hnic] at ho
    cases ho
  | managed hnext hn hman hreq =>
    cases ho
    rw [hnext] at h
    have haddr : j.nic.addresses = [] := h
    rw [haddr] at hreq
    exact (Except.ok.inj hreq).symm
  | absent hnext | inserted hnext =>
    rw [hnext] at h
    exact hfamily _ _ _ h ho.symm
  | chosen hnext hip =>
    cases ho
    rw [hnext] at h
    exact h

theorem call_of_room (hp : ∀ n ∈ db.networks, proper n.ipam) (hcur : Current db j)
    (hreq : unrequested j) (hex : (rangesAt db j.nic.networkId).isSome)
    (hroom : Request.roomFor db j) : ∃ p, j.call db = .ok p := by
  unfold unrequested at hreq
  unfold Request.roomFor at hroom
  unfold Current at hcur
  cases hnext : j.next with
  | getNetwork =>
    rw [hnext] at hreq
    rw [Job.call_getNetwork hnext]
    cases hn : db.networks.get j.nic.networkId with
    | none =>
      unfold rangesAt at hex
      rw [hn] at hex
      cases hex
    | some n =>
      have haddr : j.nic.addresses = [] := hreq
      simp only
      split
      · rw [haddr]
        exact ⟨_, rfl⟩
      · exact ⟨_, rfl⟩
  | choose n requested v6 =>
    rw [hnext] at hreq hroom hcur
    obtain rfl : requested = [] := hreq
    obtain ⟨o, ho, -⟩ := proper_range (hcur.1.proper hp) v6
    obtain ⟨ip, hip⟩ : ∃ ip, chooseAddress db n [] v6 = .ok ip := by
      unfold chooseAddress
      cases hsub : n.ipam.subnet v6 with
      | error e =>
        unfold rangeOf at ho
        rw [hsub] at ho
        cases ho
      | ok so =>
        cases so with
        | none => exact ⟨none, rfl⟩
        | some s =>
          simp only [hsub] at hroom
          obtain ⟨ip, hip⟩ := nextFree_of_hasRoom hroom
          refine ⟨some ip, bind_eq_ok.mpr ⟨some s, rfl, bind_eq_ok.mpr ⟨ip, hip, rfl⟩⟩⟩
    rw [Job.call_choose hnext, hip]
    exact ⟨_, rfl⟩
  | insert n requested v6 ip =>
    rw [hnext] at hroom
    have hfree : ((db.allocationsForNetwork n.id).all fun a => a.ip != ip) = true := hroom
    rw [Job.call_insert hnext]
    unfold Db.insertAllocation
    rw [hfree]
    exact ⟨_, rfl⟩

theorem Inv.call_allocateNic (h : Inv s) (hi : s.requests.get i = some (.allocateNic w j))
    (hready : Request.ready s.db (.allocateNic w j)) :
    Inv ⟨(Request.call s.db (.allocateNic w j)).1,
      s.requests.put i (Request.call s.db (.allocateNic w j)).2⟩ := by
  have hjob : j.vm = w.vm := (h.known i _ hi).2
  unfold Request.call
  simp only
  cases hcall : j.call s.db with
  | error e =>
    -- there was room for the NIC, so the call did not fail
    refine h.put_edit hi rfl (.of_same rfl rfl rfl) (by rintro q' ⟨⟩) fun r hr hid => ⟨r, hr, hid, ?_⟩
    rintro ⟨-, -, -, hex, -, hreq, hcur⟩
    obtain ⟨p, hp⟩ := call_of_room h.proper hcur hreq hex hready
    rw [hcall] at hp
    cases hp
  | ok p =>
    obtain ⟨db', o⟩ := p
    have hcalled := Job.called hcall
    have hadds := hcalled.adds
    have hlocal : Local w.vm s.db db' := hjob ▸ Local.of_adds hadds
    have hrow : ∀ r, r ∈ db'.vms → r ∈ s.db.vms := by
      obtain ⟨t, rfl⟩ := hadds.only
      exact fun r hr => hr
    -- the other NICs keep their addresses
    have hothers : ∀ {spec : VirtualMachineSpec},
        (∀ i nic, i ≠ j.index → spec.networkInterfaces[i]? = some nic →
          NicOk s.db w.vm i nic.networkId) →
        ∀ i nic, i ≠ j.index → spec.networkInterfaces[i]? = some nic → NicOk db' w.vm i nic.networkId := by
      intro spec hok k nic hk hget
      exact (hok k nic hk hget).frame (fun v6 => hadds.others w.vm k v6 fun hsame => hk hsame.2)
        (hadds.rangesAt _)
    cases o with
    | some j' =>
      refine h.put_edit hi rfl hlocal ?_ fun r hr hid => ⟨r, hrow r hr, hid, ?_⟩
      · rintro q' ⟨⟩
        exact ⟨rfl, rfl, (hcalled.sameVm j' rfl).trans hjob⟩
      · rintro ⟨hmoves, hvm, hrest, hex, hok, hreq, hcur⟩
        rcases hcur.call h.proper hcalled with ⟨next, hj', hcur'⟩ | ⟨hj', -⟩
        · obtain rfl := some.inj hj'
          refine ⟨hmoves, hvm, hrest, ?_, hothers hok, unrequested_call hreq hcalled hrest, hcur'⟩
          rw [hadds.rangesAt]
          exact hex
        · unfold Job.nextNic at hj'
          rw [hrest] at hj'
          cases hj'
    | none =>
      refine h.put_edit hi rfl hlocal ?_ fun r hr hid => ⟨r, hrow r hr, hid, ?_⟩
      · rintro q' ⟨⟩
        exact ⟨rfl, rfl, trivial⟩
      · rintro ⟨⟨hspec, hlt, -⟩, hvm, hrest, hex, hok, hreq, hcur⟩
        rcases hcur.call h.proper hcalled with ⟨next, hj', -⟩ | ⟨-, hnic⟩
        · cases hj'
        refine ⟨?_, ?_, ?_⟩
        · rw [hspec]
          rfl
        · intro nic hmem
          rw [hspec] at hmem
          rcases mem_or_eq_of_mem_set hmem with hold | rfl
          · exact .inl hold
          · right
            rw [hadds.rangesAt]
            exact hex
        · rw [hspec]
          intro k nic hget
          by_cases hk : k = j.index
          · subst hk
            rw [List.getElem?_set_self hlt] at hget
            obtain rfl := some.inj hget
            rw [hjob] at hnic
            exact hnic
          · rw [List.getElem?_set_ne (Ne.symm hk)] at hget
            exact hothers hok k nic hk hget

theorem writeSpec_of_amounts {name : Option String}
    (hr : db.vms.get vm = some r) (hamounts : new.amounts = r.spec.amounts)
    (husage : (db.usageIn r.project).isOk) (e : ApiError) :
    db.writeSpec vm name new ≠ .error e := by
  have hquota : db.admission r.project (r.spec.amounts.delta new.amounts) = .ok () := by
    unfold Db.admission
    cases db.getQuota r.project with
    | none => rfl
    | some limits =>
    simp only
    split
    · rfl
    cases hu : db.usageIn r.project with
    | error e =>
      rw [hu] at husage
      cases husage
    | ok usage =>
      cases hcheck : Quota.check limits usage (r.spec.amounts.delta new.amounts) with
      | ok u => exact bind_eq_ok.mpr ⟨usage, rfl, by rw [hcheck]⟩
      | error x =>
        obtain ⟨d, n, ⟨-, hpos, -⟩, -⟩ := Quota.check_error hcheck
        rw [hamounts, Quota.Amounts.delta_get, Int.sub_self] at hpos
        exact absurd hpos (by decide)
  unfold Db.writeSpec
  rw [hr]
  simp only [hquota]
  exact fun h => nomatch h

section

variable (h : Inv s)
include h

theorem Inv.call_writeNic (hi : s.requests.get i = some (.writeNic w))
    (hready : Request.ready s.db (.writeNic w)) : Inv ⟨(Request.call s.db (.writeNic w)).1,
      s.requests.put i (Request.call s.db (.writeNic w)).2⟩ := by
  refine h.put_edit hi rfl (.storeSpec : Local w.vm s.db _) (by rintro q' ⟨⟩) fun r hr hid => ?_
  rcases mem_storeSpec hr hid with ⟨r₀, hr₀, hid₀, hspec⟩ | ⟨hr₀, e, he⟩
  · refine ⟨r₀, hr₀, hid₀, ?_⟩
    rintro ⟨-, -, hok⟩
    show NicsOk _ w.vm r.spec.networkInterfaces
    rw [hspec]
    exact nicsOk_storeSpec hok
  · refine ⟨r, hr₀, hid, ?_⟩
    rintro ⟨hamounts, -, -⟩
    have hget : s.db.vms.get w.vm = some r := get_eq_some.mpr ⟨hr₀, hid⟩
    have husage := (all_eq_true _ _).mp hready r hget
    exact absurd he (writeSpec_of_amounts hget hamounts husage e)

theorem Inv.call_reap {d : Drop} (hi : s.requests.get i = some (.reap vm d)) :
    Inv ⟨d.call s.db vm, s.requests.put i (d.next.map (.reap vm))⟩ := by
  refine h.put hi (.drop d) ?_ fun r hr hid => ?_
  · intro q' hq'
    obtain ⟨d', -, rfl⟩ := map_eq_some_iff.mp hq'
    exact ⟨rfl, rfl, trivial⟩
  · cases d with
    | release => exact .inl ⟨i, .detach, get_put_self hi, by decide⟩
    | detach => exact .inl ⟨i, .deleteRow, get_put_self hi, by decide⟩
    | deleteRow => exact absurd hid (id_ne_of_deleteRow hr)

section

variable (hi : s.requests.get i = some q)
include hi

/-- **Every call keeps the invariant.** -/
theorem Inv.call (hready : q.ready s.db) :
    Inv ⟨(q.call s.db).1, s.requests.put i (q.call s.db).2⟩ := by
  cases q with
  | creating c => exact h.call_creating hi
  | update w => exact h.call_update hi hready
  | releaseNic w index nic => exact h.call_releaseNic hi
  | allocateNic w j => exact h.call_allocateNic hi hready
  | writeNic w => exact h.call_writeNic hi hready
  | reap vm d => exact h.call_reap hi

theorem Inv.end (hend : q.endable) : Inv { s with requests := s.requests.put i none } := by
  cases hq : q.edits with
  | true =>
    refine h.put_edit hi hq (.of_same rfl rfl rfl) (fun q' hq' => nomatch hq') fun r hr hid =>
      ⟨r, hr, hid, fun hfits => ?_⟩
    cases q with
    | creating c =>
      obtain ⟨vm, name, boot, stage⟩ := c
      cases stage with
      | allocate | rollback => cases hend
      | attach | task | event => exact hfits
    | update w => exact hfits.2
    | releaseNic w index nic => exact hfits.2.2
    | allocateNic | writeNic => cases hend
    | reap vm d => cases hq
  | false =>
    -- a pass that has not released anything
    refine h.put hi (.of_same rfl rfl rfl) (fun q' hq' => nomatch hq') fun r hr hid => ?_
    have hslot : ∀ k q', s.requests.get k = some q' → q'.edits →
        (s.requests.put i none).get k = some q' := by
      intro k q' hk hq'
      rw [get_put_ne, hk]
      rintro rfl
      rw [hi] at hk
      rw [← some.inj hk, hq] at hq'
      cases hq'
    have hback : ∀ k q', (s.requests.put i none).get k = some q' → s.requests.get k = some q' := by
      intro k q' hk
      by_cases hki : k = i
      · subst hki
        rw [get_put_self hi] at hk
        cases hk
      · rwa [get_put_ne hki] at hk
    have hold := h.rows r hr
    rw [hid] at hold
    rcases hold with ⟨k, d, hk, hd⟩ | ⟨hfits, hfree⟩
    · refine .inl ⟨k, d, ?_, hd⟩
      rw [get_put_ne, hk]
      rintro rfl
      rw [hi] at hk
      rw [some.inj hk] at hend
      exact hd (eq_of_beq hend)
    · refine .inr ⟨fun k q' hk hq' hvm => hfits k q' (hback k q' hk) hq' hvm, fun hnone => hfree ?_⟩
      intro k q' hk hq'
      exact hnone k q' (hslot k q' hk hq') hq'

theorem Inv.fail (hfail : q.failable) : Inv { s with requests := s.requests.put i q.broken } := by
  cases hb : q.broken with
  | none =>
    unfold Request.failable at hfail
    rw [hb] at hfail
    exact h.end hi hfail
  | some q' =>
    -- a creation that rolls back
    cases q with
    | creating c =>
      obtain ⟨vm, name, boot, stage⟩ := c
      cases stage with
      | allocate j =>
        cases hb
        refine h.put_edit hi rfl (.of_same rfl rfl rfl) ?_ fun r hr hid => ⟨r, hr, hid, fun _ => trivial⟩
        rintro q' ⟨⟩
        exact ⟨rfl, rfl, trivial⟩
      | _ => cases hb
    | _ => cases hb

end

/-! ## The requests that arrive -/

theorem Inv.add (hknown : q.vm < s.db.vms.next ∧ JobOf q) (hfree : q.edits → s.unedited q.vm)
    (hfits : ∀ r ∈ s.db.vms, r.id = q.vm → q.edits →
      NicsOk s.db q.vm r.spec.networkInterfaces → Fits s.db q.vm r.spec q) :
    Inv { s with requests := s.requests.add q } := by
  have hother : q.edits → ∀ k b, s.requests.get k = some b → b.edits → b.vm ≠ q.vm := by
    intro hq k b hk hb hvm
    have htest := all_iff.mp (hfree hq) k b hk
    simp [hb, hvm] at htest
  refine ⟨h.unique, h.proper, h.owners, h.known.add hknown, ?_, ?_⟩
  · refine Slots.Apart.add (fun a b hab hb ha => Ne.symm (hab ha hb)) h.apart ?_
    intro k b hk hq hb
    exact Ne.symm (hother hq k b hk hb)
  · intro r hr
    rcases h.rows r hr with ⟨k, d, hk, hd⟩ | ⟨hold, hnone⟩
    · exact .inl ⟨k, d, get_add_of_get hk, hd⟩
    refine .inr ⟨?_, ?_⟩
    · intro k b hk hb hvm
      have hk' : (s.requests.add q).get k = some b := hk
      rw [get_add] at hk'
      split at hk'
      · obtain rfl := some.inj hk'
        rw [← hvm]
        refine hfits r hr hvm.symm hb ?_
        rw [hvm]
        exact hnone fun k' b' hk'' hb' => hvm ▸ hother hb k' b' hk'' hb'
      · exact hold k b hk' hb hvm
    · intro hall
      exact hnone fun k b hk hb => hall k b (get_add_of_get hk) hb

theorem Inv.begin_update {body : UpdateVm} (hfree : s.unedited id) :
    Inv (s.begin ((readUpdate s.db sc u id body).map .update)) := by
  cases hread : readUpdate s.db sc u id body with
  | error e => exact h
  | ok w =>
  unfold readUpdate at hread
  obtain ⟨-, -, hread⟩ := bind_eq_ok.mp hread
  obtain ⟨vm, hvm, hread⟩ := orElse_bind.mp hread
  obtain ⟨hmem, hid, -⟩ := Db.getVm_eq_some.mp hvm
  cases hspec : (Edit.update s.db vm body).apply vm.spec with
  | error e =>
    rw [SpecWrite.of_error hspec] at hread
    cases hread
  | ok spec =>
    rw [SpecWrite.of_ok hspec] at hread
    obtain rfl := Except.ok.inj hread
    refine h.add ⟨?_, trivial⟩ (fun _ => hfree) ?_
    · exact hid ▸ id_lt hmem
    · intro r hr hrid _ hok
      obtain rfl : r = vm := eq_of_id hr hmem (hrid.trans hid.symm)
      exact ⟨updateSpec_nics hspec, hok⟩

end

theorem moveNic_ok {body : ChangeNic} {old : NetworkInterfaceSpec} (hold : spec.networkInterfaces[index]? = some old)
    (h : Requests.moveNic index body spec = .ok new) :
    new = { spec with networkInterfaces := spec.networkInterfaces.set index (retarget body old) } := by
  unfold Requests.moveNic at h
  obtain ⟨nic, hnic, h⟩ := orElse_bind.mp h
  obtain rfl : nic = old := mem_unique hnic hold
  obtain ⟨-, -, h⟩ := of_bind_pure h
  exact h.symm

theorem Inv.begin_changeNic {body : ChangeNic} (h : Inv s) (hfree : s.unedited id) :
    Inv (s.begin ((readChangeNic s.db sc u id index body).map fun (w, nic) =>
      .releaseNic w index nic)) := by
  cases hread : readChangeNic s.db sc u id index body with
  | error e => exact h
  | ok p =>
  unfold readChangeNic at hread
  obtain ⟨⟨new, nic⟩, hnic, hread⟩ := bind_eq_ok.mp hread
  obtain ⟨vm, hvm, hread⟩ := orElse_bind.mp hread
  obtain ⟨w, hw, rfl⟩ := of_bind_pure hread
  obtain ⟨hmem, hid, -⟩ := Db.getVm_eq_some.mp hvm
  obtain ⟨r₁, old, hr₁, -, -, hold, hnet, -, -, rfl⟩ := changeNicSpec_ok hnic
  obtain rfl : r₁ = vm := mem_unique hr₁ hvm
  cases hspec : (Edit.nic index body).apply r₁.spec with
  | error e =>
    rw [SpecWrite.of_error hspec] at hw
    cases hw
  | ok spec =>
    rw [SpecWrite.of_ok hspec] at hw
    obtain rfl := Except.ok.inj hw
    refine h.add ⟨?_, trivial⟩ (fun _ => hfree) ?_
    · exact hid ▸ id_lt hmem
    · intro r hr hrid _ hok
      obtain rfl : r = r₁ := eq_of_id hr hmem (hrid.trans hid.symm)
      refine ⟨⟨moveNic_ok hold hspec, (List.getElem?_eq_some_iff.mp hold).1, rfl⟩, ?_, hok⟩
      unfold rangesAt
      rw [isSome_map]
      exact hnet

theorem familyRows_new (h : Inv s) (i : Nat) (v6 : Bool) :
    familyRows s.db s.db.vms.next i v6 = [] := by
  rw [eq_nil_iff_forall_not_mem]
  intro a ha
  obtain ⟨hmem, hvm, -⟩ := mem_familyRows ha
  exact Nat.lt_irrefl _ (h.owners a hmem _ hvm)

/-- **A new row.**  It comes with no addresses, and with the request that allocates them. -/
theorem Inv.create {r : Route} (h : Inv s)
    (hb : r.begin cfg s.db = .ok (db', c)) : Inv ⟨db', s.requests.add (.creating c)⟩ := by
  obtain ⟨name, new, project, boot, token, rfl, rfl⟩ := begin_ok hb
  have hvm : ∀ o, (allocating ⟨s.db.vms.next, name, boot, .task⟩ o).vm = s.db.vms.next :=
    fun o => vm_allocating _ o
  refine ⟨h.unique, h.proper, fun a ha vm hvm => Nat.lt_succ_of_lt (h.owners a ha vm hvm), ?_, ?_, ?_⟩
  · refine Slots.All.add (h.known.mono fun q hq => ⟨Nat.lt_succ_of_lt hq.1, hq.2⟩) ⟨?_, ?_⟩
    · show (allocating _ _).vm < s.db.vms.next + 1
      rw [hvm]
      exact Nat.lt_succ_self _
    · cases new.networkInterfaces with
      | nil => cases boot <;> exact trivial
      | cons nic rest => exact rfl
  · refine Slots.Apart.add (fun a b hab hb ha => Ne.symm (hab ha hb)) h.apart ?_
    intro k b hk _ _
    show (allocating _ _).vm ≠ b.vm
    rw [hvm]
    exact Ne.symm (Nat.ne_of_lt (h.known k b hk).1)
  · intro r hr
    rcases mem_insert.mp hr with hr | rfl
    · have hlt : r.id < s.db.vms.next := id_lt hr
      rcases h.rows r hr with ⟨k, d, hk, hd⟩ | ⟨hfits, hnone⟩
      · exact .inl ⟨k, d, get_add_of_get hk, hd⟩
      refine .inr ⟨?_, fun hall => hnone fun k q hk => hall k q (get_add_of_get hk)⟩
      intro k q hk hq hqvm
      have hk' := hk
      rw [get_add] at hk'
      split at hk'
      · obtain rfl := some.inj hk'
        have hnew : (allocating _ _).vm = r.id := hqvm
        rw [hvm] at hnew
        exact absurd hnew (Ne.symm (Nat.ne_of_lt hlt))
      · exact hfits k q hk' hq hqvm
    · refine .inr ⟨?_, fun hall => ?_⟩
      · intro k q hk hq hqvm
        rw [get_add] at hk
        split at hk
        · obtain rfl := some.inj hk
          cases hnics : new.networkInterfaces with
          | nil =>
            have hok : NicsOk s.db s.db.vms.next new.networkInterfaces := by
              rw [hnics]
              intro i nic hget
              cases hget
            cases boot with
            | none | some => exact hok
          | cons nic rest =>
            exact ⟨rfl, hnics, fun i _ hi => absurd hi (Nat.not_lt_zero i),
              fun i v6 _ => familyRows_new h i v6, fun v6 => familyRows_new h 0 v6⟩
        · exact absurd hqvm (Nat.ne_of_lt (h.known k q hk).1)
      · have hslot := hall s.requests.cells.length _ (by rw [get_add, if_pos rfl]) rfl
        exact absurd (hvm _) hslot

/-! ## Networks and deletes -/

theorem Inv.tables (h : Inv s)
    (hspecs : ∀ r ∈ db'.vms, ∃ r₀ ∈ s.db.vms, r₀.id = r.id ∧ r₀.spec = r.spec)
    (hnext : db'.vms.next = s.db.vms.next) (halloc : db'.allocations = s.db.allocations)
    (hproper : ∀ n ∈ db'.networks, Provisioning.proper n.ipam)
    (hnic : ∀ r ∈ s.db.vms, ∀ i nic, r.spec.networkInterfaces[i]? = some nic →
      NicOk s.db r.id i nic.networkId → NicOk db' r.id i nic.networkId)
    (hclaims : ∀ r ∈ s.db.vms, ∀ k q, s.requests.get k = some q → Fits s.db r.id r.spec q →
      ∀ network, q.claims network → rangesAt db' network = rangesAt s.db network)
    (hsome : ∀ network, (rangesAt s.db network).isSome → (rangesAt db' network).isSome) :
    Inv ⟨db', s.requests⟩ := by
  refine ⟨?_, hproper, ?_, ?_, h.apart, ?_⟩
  · unfold Unique
    rw [halloc]
    exact h.unique
  · intro a ha vm hvm
    show vm < db'.vms.next
    rw [hnext]
    exact h.owners a (halloc ▸ ha) vm hvm
  · show s.requests.All fun q => q.vm < db'.vms.next ∧ JobOf q
    rw [hnext]
    exact h.known
  · intro r hr
    obtain ⟨r₀, hr₀, hid, hspec⟩ := hspecs r hr
    rw [← hid, ← hspec]
    rcases h.rows r₀ hr₀ with hgut | ⟨hfits, hnone⟩
    · exact .inl hgut
    · refine .inr ⟨?_, fun hall i nic hget => hnic r₀ hr₀ i nic hget (hnone hall i nic hget)⟩
      intro k q hk hq hvm
      have hfit := hfits k q hk hq hvm
      exact hfit.frame (familyRows_congr halloc r₀.id) (hnic r₀ hr₀) (hclaims r₀ hr₀ k q hk hfit) hsome

theorem Inv.delete (h : Inv s) : Inv { s with db := (deleteVm s.db sc u id).1 } := by
  have htables : (deleteVm s.db sc u id).1.networks = s.db.networks ∧
      (deleteVm s.db sc u id).1.allocations = s.db.allocations ∧
      (deleteVm s.db sc u id).1.vms.next = s.db.vms.next ∧
      ∀ r ∈ (deleteVm s.db sc u id).1.vms, ∃ r₀ ∈ s.db.vms, r₀.id = r.id ∧ r₀.spec = r.spec := by
    unfold deleteVm attempt
    simp only
    split
    · refine ⟨rfl, rfl, rfl, fun r hr => ?_⟩
      obtain ⟨r₀, hr₀, rfl⟩ := mem_updated rfl hr
      refine ⟨r₀, hr₀, ?_⟩
      split <;> exact ⟨rfl, rfl⟩
    · exact ⟨rfl, rfl, rfl, fun r hr => ⟨r, hr, rfl, rfl⟩⟩
  obtain ⟨hnets, halloc, hnext, hspecs⟩ := htables
  have hranges := rangesAt_congr hnets
  refine h.tables hspecs hnext halloc (fun n hn => h.proper n (hnets ▸ hn)) ?_
    (fun _ _ _ _ _ _ network _ => hranges network) (fun network hs => by rw [hranges]; exact hs)
  intro r _ i nic _ hok
  exact hok.frame (familyRows_congr halloc r.id i) (hranges _)

/-- What `create` does to the networks: one is added. -/
structure AddsNetwork (ipam : NetworkIpam) (db db' : Db) : Prop where
  vms : db'.vms = db.vms
  allocations : db'.allocations = db.allocations
  old : ∀ id, id ≠ db.networks.next →
    (db'.networks.get id).map Network.ipam = (db.networks.get id).map Network.ipam
  new : ∀ n ∈ db'.networks, n.id = db.networks.next → n.ipam = ipam

theorem AddsNetwork.of_same (hvms : db'.vms = db.vms) (halloc : db'.allocations = db.allocations)
    (hnets : db'.networks = db.networks) (ipam : NetworkIpam) : AddsNetwork ipam db db' where
  vms := hvms
  allocations := halloc
  old := by
    intro id _
    rw [hnets]
  new := by
    intro n hn hid
    rw [hnets] at hn
    exact absurd hid (Nat.ne_of_lt (id_lt hn))

theorem AddsNetwork.of_insert {mk : Id → Network} {group : Id}
    (hmk : ∀ i, (mk i).id = i) (hnew : ∀ i, (mk i).ipam = ipam)
    (hnets : db'.networks = (({ db with networks := db.networks.insert mk hmk } : Db).setNetworkDefaultGroup
      db.networks.next group).networks)
    (hvms : db'.vms = db.vms) (halloc : db'.allocations = db.allocations) :
    AddsNetwork ipam db db' where
  vms := hvms
  allocations := halloc
  old := by
    intro id hid
    rw [hnets]
    have hgroup : ∀ r ∈ db.networks.insert mk hmk, HasId.id r = id →
        (r.id == db.networks.next) →
          Network.ipam { r with defaultGroup := some group } = r.ipam := fun _ _ _ _ => rfl
    refine (map_get_update hgroup).trans ?_
    rw [IdTable.get_insert_of_ne hid]
  new := by
    intro n hn hid
    rw [hnets] at hn
    obtain ⟨n₀, hn₀, rfl⟩ := mem_updated rfl hn
    have hmem : n₀ ∈ db.networks.insert mk hmk := hn₀
    have hsame : ∀ {p : Bool}, (if p then { n₀ with defaultGroup := some group } else n₀).id = n₀.id ∧
        (if p then { n₀ with defaultGroup := some group } else n₀).ipam = n₀.ipam := by
      intro p
      split <;> exact ⟨rfl, rfl⟩
    rcases mem_insert.mp hmem with hold | rfl
    · exact absurd (hsame.1.symm.trans hid) (Nat.ne_of_lt (id_lt hold))
    · exact hsame.2.trans (hnew _)

theorem finishNetwork_tables (db : Db) (id : Id) (name : String) (kind : NetworkKind)
    (vni : Option Nat) : ∃ group,
      (db.finishNetwork id name kind vni).networks = (db.setNetworkDefaultGroup id group).networks ∧
        (db.finishNetwork id name kind vni).vms = db.vms ∧
        (db.finishNetwork id name kind vni).allocations = db.allocations := by
  cases vni with
  | none | some => exact ⟨_, rfl, rfl, rfl⟩

theorem createNetwork_adds (cfg : Config) (db : Db) (sc : Scope) (u : AuthUser)
    (body : CreateNetwork) : AddsNetwork body.ipam db (createNetwork cfg db sc u body).1 := by
  refine attempt_induction (.of_same rfl rfl rfl _) fun kind _ => ?_
  refine attempt_induction (.of_same rfl rfl rfl _) fun p hseg => ?_
  obtain ⟨key, vni, db₁⟩ := p
  obtain ⟨t, rfl⟩ := networkSegment_ok hseg
  have hsegment : AddsNetwork body.ipam db { db with segments := t } :=
    AddsNetwork.of_same (by rfl) (by rfl) (by rfl) _
  refine attempt_induction hsegment fun db₂ hins => ?_
  obtain ⟨group, hnets, hvms, halloc⟩ :=
    finishNetwork_tables db₂ db.networks.next body.name kind vni
  cases Db.insertNetwork_ok hins
  exact .of_insert (fun _ => rfl) (fun _ => rfl) hnets hvms halloc

theorem rangesAt_eq (db : Db) (id : Id) :
    rangesAt db id = ((db.networks.get id).map Network.ipam).map rangeOf := by
  rw [Option.map_map]
  rfl

theorem Fits.claimed {network : Id} (h : Fits db vm spec q) (hclaims : q.claims network) :
    (∃ nic ∈ spec.networkInterfaces, nic.networkId = network) ∨ (rangesAt db network).isSome := by
  cases q with
  | creating c =>
    obtain ⟨cvm, name, boot, stage⟩ := c
    cases stage with
    | allocate j =>
      obtain ⟨-, -, -, -, hcur⟩ := h
      unfold Current at hcur
      simp only [Request.claims] at hclaims
      have hheld : ∀ n, Held db j n → j.nic.networkId = network → (rangesAt db network).isSome := by
        rintro n ⟨hid, -, hrange⟩ rfl
        rw [← hid, hrange]
        rfl
      cases hnext : j.next with
      | getNetwork =>
        rw [hnext] at hclaims
        cases hclaims
      | choose n | insert n =>
        rw [hnext] at hclaims hcur
        exact .inr (hheld n hcur.1 (eq_of_beq hclaims))
    | rollback | attach | task | event => cases hclaims
  | update | releaseNic => cases hclaims
  | allocateNic w j =>
    obtain ⟨⟨hspec, -, -⟩, -, -, hex, -⟩ := h
    obtain ⟨nic, hmem, hnet⟩ := any_eq_true.mp hclaims
    obtain rfl := eq_of_beq hnet
    rw [hspec] at hmem
    rcases mem_or_eq_of_mem_set hmem with hold | rfl
    · exact .inl ⟨nic, hold, rfl⟩
    · exact .inr hex
  | writeNic w =>
    obtain ⟨-, hex, -⟩ := h
    obtain ⟨nic, hmem, hnet⟩ := any_eq_true.mp hclaims
    obtain rfl := eq_of_beq hnet
    exact (hex nic hmem).imp_left fun hold => ⟨nic, hold, rfl⟩
  | reap vm d => cases hclaims

theorem ne_of_not_attached {network : Id} (h : attached db network = false)
    (hr : r ∈ db.vms) (hnic : nic ∈ r.spec.networkInterfaces) : nic.networkId ≠ network := by
  rintro rfl
  refine false_ne_true (h.symm.trans ?_)
  exact any_eq_true.mpr ⟨r, hr, any_eq_true.mpr ⟨nic, hnic, beq_self_eq_true _⟩⟩

theorem Inv.createNetwork (h : Inv s) (hfree : attached s.db s.db.networks.next = false)
    (hproper : Provisioning.proper body.ipam) :
    Inv { s with db := (createNetwork cfg s.db sc u body).1 } := by
  obtain ⟨hvms, halloc, hold, hnew⟩ := createNetwork_adds cfg s.db sc u body
  have hranges : ∀ network, network ≠ s.db.networks.next →
      rangesAt (Tenancy.createNetwork cfg s.db sc u body).1 network = rangesAt s.db network := by
    intro network hne
    rw [rangesAt_eq, rangesAt_eq, hold network hne]
  have hexists : ∀ network, (rangesAt s.db network).isSome → network ≠ s.db.networks.next := by
    intro network hs
    obtain ⟨f, hf⟩ := isSome_iff_exists.mp hs
    obtain ⟨n, hn, -⟩ := map_eq_some_iff.mp hf
    obtain ⟨hmem, rfl⟩ := get_eq_some.mp hn
    exact Nat.ne_of_lt (id_lt hmem)
  refine h.tables ?_ (by rw [hvms]) halloc ?_ ?_ ?_ ?_
  · intro r hr
    exact ⟨r, hvms ▸ hr, rfl, rfl⟩
  · intro n hn
    by_cases hid : n.id = s.db.networks.next
    · rw [hnew n hn hid]
      exact hproper
    have hget := hold n.id hid
    have hself : (Tenancy.createNetwork cfg s.db sc u body).1.networks.get n.id = some n :=
      get_eq_some.mpr ⟨hn, rfl⟩
    rw [hself] at hget
    obtain ⟨n₀, hn₀, hipam⟩ := map_eq_some_iff.mp hget.symm
    rw [← hipam]
    exact h.proper n₀ (get_eq_some.mp hn₀).1
  · intro r hr i nic hget hok
    have hne := ne_of_not_attached hfree hr (mem_of_getElem? hget)
    exact hok.frame (familyRows_congr halloc r.id i) (hranges _ hne)
  · intro r hr k q _ hfit network hclaims
    rcases hfit.claimed hclaims with ⟨nic, hmem, rfl⟩ | hs
    · exact hranges _ (ne_of_not_attached hfree hr hmem)
    · exact hranges _ (hexists _ hs)
  · intro network hs
    rw [hranges _ (hexists _ hs)]
    exact hs

/-- What `suits` says of a family: its subnet stays, or nothing in progress relies on it and the
addresses given out can still be used, or no NIC is there. -/
theorem suits_family (h : s.suits id ipam)
    (hn : s.db.networks.get id = some n) (v6 : Bool) : rangeOf ipam v6 = rangeOf n.ipam v6 ∨
      (∀ k q, s.requests.get k = some q → q.claims id = false) ∧ (attached s.db id = false ∨
        ∃ r r', rangeOf n.ipam v6 = .ok (some r) ∧ rangeOf ipam v6 = .ok (some r') ∧
          ∀ a ∈ s.db.allocations, a.network = id → a.v6 = v6 → Usable r' a.ip) := by
  unfold State.suits at h
  rw [hn, Option.all_some, List.all_eq_true] at h
  have hv := h v6 (by cases v6 <;> simp)
  rcases or_eq_true_iff.mp hv with hsame | hnew
  · exact .inl (of_decide_eq_true hsame)
  obtain ⟨hclaims, hrest⟩ := and_eq_true_iff.mp hnew
  refine .inr ⟨fun k q hk => by simpa using all_iff.mp hclaims k q hk, ?_⟩
  split at hrest
  · next r r' hold hr' =>
    refine .inr ⟨r, r', hold, hr', fun a ha hnet hfam => ?_⟩
    have husable := all_eq_true.mp hrest a ha
    simpa [hnet, hfam] using husable
  · exact .inl (by simpa using hrest)

theorem nicOk_updateNetwork (hsuits : s.suits id ipam)
    (hn : s.db.networks.get id = some n) (hatt : attached s.db id)
    (halloc : db'.allocations = s.db.allocations)
    (hrange : rangesAt db' id = some (rangeOf ipam)) (h : NicOk s.db vm i id) :
    NicOk db' vm i id := by
  have hfamily : ∀ v6, rangeOf ipam v6 = rangeOf n.ipam v6 ∨
      ∃ r r', rangeOf n.ipam v6 = .ok (some r) ∧ rangeOf ipam v6 = .ok (some r') ∧
        ∀ a ∈ s.db.allocations, a.network = id → a.v6 = v6 → Usable r' a.ip := by
    intro v6
    rcases suits_family hsuits hn v6 with hsame | ⟨-, hfree | hboth⟩
    · exact .inl hsame
    · exact absurd (hfree.symm.trans hatt) false_ne_true
    · exact .inr hboth
  have hrows := familyRows_congr halloc vm i
  intro f hf hset v6
  obtain rfl := mem_unique hrange hf
  have hset' : ∃ v6, rangeOf n.ipam v6 ≠ .ok none := by
    obtain ⟨v, hv⟩ := hset
    refine ⟨v, ?_⟩
    rcases hfamily v with hsame | ⟨r, -, hold, -⟩
    · rw [← hsame]
      exact hv
    · rw [hold]
      nofun
  have hold := h (rangeOf n.ipam) (by rw [rangesAt, hn]; rfl) hset' v6
  rcases hfamily v6 with hsame | ⟨r, r', hr, hr', husable⟩
  · rw [hsame]
    exact hold.frame (hrows v6)
  rw [hr] at hold
  rw [hr']
  obtain ⟨a, ha, hnet, hfam, -⟩ := hold
  have hmem : a ∈ familyRows s.db vm i v6 := by simp [ha]
  obtain ⟨ha', -, -, hv6⟩ := mem_familyRows hmem
  exact ⟨a, (hrows v6).trans ha, hnet, hfam, husable a ha' hnet hv6⟩

theorem Inv.updateNetwork (h : Inv s)
    (hproper : Provisioning.proper body.ipam) (hsuits : s.suits id body.ipam) :
    Inv { s with db := (updateNetwork s.db sc u id body).1 } := by
  refine settle_induction (motive := fun db => Inv { s with db := db }) h fun db₁ _ hok => ?_
  replace hok := of_ensure hok
  replace hok := of_ensure hok
  obtain ⟨-, -, hok⟩ := bind_eq_ok.mp hok
  replace hok := of_ensure hok
  obtain ⟨n, hn, hok⟩ := orElse_bind.mp hok
  replace hok := of_ensure hok
  obtain ⟨net, -, ⟨⟩⟩ := of_orElse_pure hok
  -- only the subnets under `id` change
  have hother : ∀ network, network ≠ id →
      rangesAt (s.db.updateNetwork id body.name body.ipam) network = rangesAt s.db network := by
    intro network hne
    have hkeep : ∀ r ∈ s.db.networks, HasId.id r = network → (r.id == id) →
        Network.ipam { r with name := body.name, ipam := body.ipam } = r.ipam := by
      intro r _ hid htest
      exact absurd (hid.symm.trans (eq_of_beq htest)) hne
    rw [rangesAt_eq, rangesAt_eq]
    exact congrArg _ (map_get_update hkeep)
  have hself : rangesAt (s.db.updateNetwork id body.name body.ipam) id = some (rangeOf body.ipam) := by
    have hid : n.id = id := (get_eq_some.mp hn).2
    unfold rangesAt Db.updateNetwork Db.setNetwork
    rw [IdTable.get_update, hn, map_some, if_pos (beq_iff_eq.mpr hid)]
    rfl
  refine h.tables (fun r hr => ⟨r, hr, rfl, rfl⟩) rfl rfl ?_ ?_ ?_ ?_
  · intro n' hn'
    obtain ⟨n₀, hn₀, rfl⟩ := mem_updated rfl hn'
    split
    · exact hproper
    · exact h.proper n₀ hn₀
  · intro r hr i nic hget hok
    by_cases hid : nic.networkId = id
    · rw [hid] at hok ⊢
      refine nicOk_updateNetwork hsuits hn ?_ rfl hself hok
      exact any_eq_true.mpr ⟨r, hr, any_eq_true.mpr
        ⟨nic, mem_of_getElem? hget, beq_iff_eq.mpr hid⟩⟩
    · refine NicOk.frame ?_ (hother _ hid) hok
      exact fun _ => rfl
  · intro r hr k q hk hfit network hclaims
    by_cases hid : network = id
    · subst hid
      rw [hself, rangesAt, hn]
      refine congrArg some (funext fun v6 => ?_)
      rcases suits_family hsuits hn v6 with hsame | ⟨hnone, -⟩
      · exact hsame
      · exact absurd (hclaims.symm.trans (hnone k q hk)) (by simp)
    · exact hother network hid
  · intro network hs
    by_cases hid : network = id
    · rw [hid, hself]
      rfl
    · rw [hother network hid]
      exact hs

/-! ## Runs -/

theorem Inv.step {e : Event} (h : Inv s) (hok : s.orderly e)
    (hs : step cfg s e = some s') : Inv s' := by
  cases e with
  | create r =>
    simp only [Addresses.step] at hs
    split at hs
    · cases hs
      exact h
    · next db c hb =>
      cases hs
      exact h.create hb
  | update sc u id body =>
    cases hs
    exact h.begin_update hok
  | changeNic sc u id index body =>
    cases hs
    exact h.begin_changeNic hok
  | delete sc u id =>
    cases hs
    exact h.delete
  | reap id =>
    simp only [Addresses.step] at hs
    split at hs
    · next hdel =>
      cases hs
      obtain ⟨r, hr, hid, -⟩ := IdTable.get_any.mp hdel
      exact h.add ⟨hid ▸ id_lt hr, trivial⟩ nofun fun _ _ _ hedits => nomatch hedits
    · cases hs
  | createNetwork sc u body =>
    simp only [Addresses.step] at hs
    split at hs
    · cases hs
    · next hfree =>
      cases hs
      exact h.createNetwork (eq_false_iff.mpr hfree) hok
  | updateNetwork sc u id body =>
    cases hs
    obtain ⟨hproper, hsuits⟩ := and_eq_true_iff.mp hok
    exact h.updateNetwork hproper hsuits
  | call i =>
    obtain ⟨q, hi, rfl⟩ := map_eq_some_iff.mp hs
    exact h.call hi ((all_eq_true _ _).mp hok q hi)
  | fail i =>
    obtain ⟨q, hi, rfl⟩ := map_eq_some_iff.mp hs
    exact h.fail hi ((all_eq_true _ _).mp hok q hi)
  | crash i =>
    obtain ⟨q, hi, rfl⟩ := map_eq_some_iff.mp hs
    exact h.end hi ((all_eq_true _ _).mp hok q hi)

theorem Inv.of_fresh (h : Fresh s) : Inv s := by
  obtain ⟨hidle, hvms, hnets, halloc⟩ := h
  have hnone : ∀ a, a ∉ s.db.allocations := by
    intro a ha
    rw [← mem_rows, halloc] at ha
    cases ha
  have hget : ∀ i, s.requests.get i = none := by
    intro i
    rw [hidle]
    rfl
  refine ⟨fun a ha => absurd ha (hnone a), ?_, fun a ha => absurd ha (hnone a), ?_, ?_, ?_⟩
  · intro n hn
    rw [← mem_rows, hnets] at hn
    cases hn
  · intro i q hi
    rw [hget] at hi
    cases hi
  · intro i j a b _ hi
    rw [hget] at hi
    cases hi
  · intro r hr
    rw [← mem_rows, hvms] at hr
    cases hr

theorem Inv.addressed (h : Inv s) : Addressed s := by
  refine ⟨?_, h.unique⟩
  intro r hr hidle i nic n hget hn hmanaged v6
  have hbusy : ∀ k q, s.requests.get k = some q → q.vm ≠ r.id := by
    intro k q hk
    simpa using all_iff.mp hidle k q hk
  have hid : n.id = nic.networkId := (get_eq_some.mp hn).2
  rcases h.rows r hr with ⟨k, d, hk, -⟩ | ⟨-, hnone⟩
  · exact absurd rfl (hbusy k _ hk)
  · have hok := hnone (fun k q hk _ => hbusy k q hk) i nic hget
    rw [hid]
    exact hok (rangeOf n.ipam) (by rw [rangesAt, hn]; rfl) (isManaged_iff.mp hmanaged) v6

end

/-- **Addresses are kept.**  In every run of orderly steps, each NIC on a managed network has one
usable address for each family of it and no other, for every VM that no request is busy with, and
none is given out twice. -/
theorem addresses_kept {cfg : Config} {s : State}
    (h : Reach (step cfg) (fun s e => s.orderly e = true) Fresh s) : Addressed s := by
  have hinv : Inv s := h.invariant (fun _ => Inv.of_fresh) fun _ _ _ hi hok hs => hi.step hok hs
  exact hinv.addressed

def noNetworks : State := ⟨{ sampleDb with networks := .empty }, .empty⟩

def operator : AuthUser := ⟨none, [], [], true⟩

/-- A /29 whose gateway is its first address. -/
def lan (name : String) (network : Nat) : CreateNetwork :=
  ⟨name, some (.ok .tenant), none, none, false, none,
    ⟨some (.ok ⟨false, network, network + 7⟩), some (.ok ⟨false, network + 1⟩), none, none, [], none,
      none, none, none⟩⟩

/-- A VM is created with a NIC on one network, and the NIC is moved to another one. -/
def moved : List Event :=
  [.createNetwork (.project 2) operator (lan "front" 0x0a000000),
    .createNetwork (.project 2) operator (lan "back" 0x0a000100),
    .create (.create (.project 2) operator
      ⟨"web", { sampleSpec with networkInterfaces := [⟨0, none, [], []⟩] }⟩),
    .call 0, .call 0, .call 0, .call 0, .call 0, .call 0,
    .changeNic (.project 2) operator 0 0 ⟨1, none⟩,
    .call 1, .call 1, .call 1, .call 1, .call 1, .call 1]

theorem moved_addressed : (final (step sampleCfg) noNetworks moved).requests.idle ∧
      (final (step sampleCfg) noNetworks moved).db.allocations.rows.map
        (fun a => (a.network, a.ip.value)) = [(1, 0x0a000102)] ∧
      Addressed (final (step sampleCfg) noNetworks moved) :=
  ⟨by decide, by decide, addresses_kept
    (Reach.final (fun _ _ h => h) ⟨rfl, rfl, rfl, rfl⟩
      (by decide : execOk (step sampleCfg) State.orderly noNetworks moved = true) (by decide))⟩

/-- A NIC on a managed network is added to a VM. -/
def nicAdded : List Event :=
  [.createNetwork (.project 2) operator (lan "front" 0x0a000000),
    .create (.create (.project 2) operator ⟨"web", sampleSpec⟩), .call 0, .call 0,
    .update (.project 2) operator 0 ⟨none, none, none, none, none, none, none, some 0⟩, .call 1]

theorem nicAdded_unaddressed : ∃ s, Reach (step sampleCfg) anyStep Fresh s ∧ s.requests.idle ∧
    ¬ Addressed s := by
  refine ⟨final (step sampleCfg) noNetworks nicAdded, Reach.final_anyStep ⟨rfl, rfl, rfl, rfl⟩
    (by decide), by decide, ?_⟩
  rintro ⟨haddr, -⟩
  have hvm : ((final (step sampleCfg) noNetworks nicAdded).db.vms.get 0).isSome := by decide
  obtain ⟨r, hr⟩ := isSome_iff_exists.mp hvm
  obtain ⟨hmem, -⟩ := get_eq_some.mp hr
  cases hr
  obtain ⟨a, ha, -⟩ := haddr _ hmem (by decide) 0 _ _ rfl rfl (by decide) false
  cases ha

end VQuasar.Provisioning.Addresses
