import VQuasar.Quota.Admission

/-!
# Admission transactions under READ COMMITTED

The store functions that change a counted row, as transactions that advance one statement at a
time in any interleaving: `insert_vm_with_id`, `write_spec`, `create_volume` and
`finalize_volume`, with `admit` (the lock on the project row, the limits, the two aggregates of
`usage_in`, `check`) inlined.  Deletes are single statements.

Each statement reads the committed tables, so `State` holds committed rows only; what a
transaction has written is applied by its `commit` and is never read before.  A project row is
locked from `SELECT ... FOR UPDATE` to the end of the transaction (`TxPc.holds`), a row an
`UPDATE` has hit until it ends as well, and a statement that needs such a lock is not enabled
before.  Ids are UUIDs and never reused: an inserted row gets `nextId`.  The project of a row is
immutable and exists as long as the row does.
-/

namespace VQuasar.Quota

open Table Amounts

abbrev ProjectId := Nat

structure VmRow where
  id : Nat
  project : ProjectId
  spec : VmSpec
deriving DecidableEq

inductive VolumeStatus
  | provisioning | ready
deriving DecidableEq, Repr

structure VolumeRow where
  id : Nat
  project : ProjectId
  size : Fin (2 ^ 63)
  status : VolumeStatus
deriving DecidableEq

/-! ## Transactions -/

inductive Request
  | insertVmWithId (spec : VmSpec) (project : ProjectId)
  | writeSpec (id : Nat) (spec : VmSpec)
  | createVolume (size : Fin (2 ^ 63)) (project : ProjectId)
  | finalizeVolume (id : Nat) (size : Fin (2 ^ 63))
deriving DecidableEq

/-- The next statement of a transaction, with what it read before; `commit` knows whether its
`UPDATE` hit a row. -/
inductive TxPc
  | start
  | lockProject (project : ProjectId) (demand : Amounts)
  | loadLimits (project : ProjectId) (demand : Amounts)
  | countVms (project : ProjectId) (demand : Amounts) (limits : Limits)
  | countVolumes (project : ProjectId) (demand : Amounts) (limits : Limits) (vms : Amounts)
  | write (project : ProjectId) (demand : Amounts)
  | commit (project : ProjectId) (demand : Amounts) (hit : Bool)
  | finished
deriving DecidableEq

structure Tx where
  request : Request
  pc : TxPc
deriving DecidableEq

structure State where
  vms : List VmRow
  volumes : List VolumeRow
  quotas : ProjectId → Option Limits
  txs : List Tx
  nextId : Nat

/-- Whether the transaction holds the lock on the row of project `p`. -/
def TxPc.holds (p : ProjectId) : TxPc → Bool
  | .loadLimits q _ | .countVms q _ _ | .countVolumes q _ _ _ | .write q _ | .commit q _ _ => q == p
  | .start | .lockProject _ _ | .finished => false

/-- The project a transaction is about, once it knows. -/
def TxPc.project : TxPc → Option ProjectId
  | .lockProject q _ | .loadLimits q _ | .countVms q _ _ | .countVolumes q _ _ _ | .write q _
  | .commit q _ _ => some q
  | .start | .finished => none

def Tx.locksVm (id : Nat) (tx : Tx) : Bool :=
  match tx.request, tx.pc with
  | .writeSpec i _, .commit _ _ true => i == id
  | _, _ => false

def Tx.locksVolume (id : Nat) (tx : Tx) : Bool :=
  match tx.request, tx.pc with
  | .finalizeVolume i _, .commit _ _ true => i == id
  | _, _ => false

/-! ## Usage -/

variable (s : State)

def vmUsage (p : ProjectId) : Amounts :=
  let rows := s.vms.filter fun r => r.project == p
  { vms := rows.length
    vcpus := total (fun r => (r.spec.maxVcpus : Int)) rows
    memoryMib := total (fun r => ((r.spec.maxSizeMib.getD r.spec.sizeMib : Nat) : Int)) rows
    volumes := 0
    storageBytes :=
      total (fun r => total (fun b : Nat => (b : Int)) (r.spec.disks.filterMap id)) rows }

def volumeUsage (p : ProjectId) : Amounts :=
  let rows := s.volumes.filter fun r => r.project == p
  ⟨0, 0, 0, rows.length, total (fun r => ((r.size.val : Nat) : Int)) rows⟩

/-- Whether every sum fits the `bigint` it is cast to; a sum that does not is a database error. -/
def Amounts.decodes (a : Amounts) : Bool := Dimension.all.all fun d => a.get d < 2 ^ 63

/-- How `usage_in` puts its two aggregates together. -/
def Amounts.combine (vms volumes : Amounts) : Amounts :=
  { vms with
    volumes := volumes.volumes
    storageBytes := i64 (vms.storageBytes + volumes.storageBytes) }

def usageIn (p : ProjectId) : Option Amounts :=
  if (vmUsage s p).decodes && (volumeUsage s p).decodes then
    some ((vmUsage s p).combine (volumeUsage s p))
  else none

def usage (p : ProjectId) (d : Dimension) : Int :=
  (vmUsage s p).get d + (volumeUsage s p).get d

def limit (p : ProjectId) (d : Dimension) : Option Int :=
  (s.quotas p).bind fun l => l.get d

/-! ## Statements -/

/-- `limits.dimensions().iter().all(|(_, l)| l.is_none())` -/
def Limits.unlimited (l : Limits) : Bool := l.dimensions.all fun d => d.2.isNone

/-- The first statement: `write_spec` and `finalize_volume` read the row they are about to change,
without locking it. -/
def readBefore : Request → TxPc
  | .insertVmWithId spec p => .lockProject p (ofVm spec)
  | .createVolume size p => .lockProject p (ofVolume size)
  | .writeSpec id spec =>
    match s.vms.find? fun r => r.id == id with
    | some r => .lockProject r.project ((ofVm r.spec).delta (ofVm spec))
    | none => .finished
  | .finalizeVolume id size =>
    match s.volumes.find? fun r => r.id == id && r.status == .provisioning with
    | some r => .lockProject r.project (resize r.size size)
    | none => .finished

def hits : Request → Bool
  | .writeSpec id _ => s.vms.any fun r => r.id == id
  | .finalizeVolume id _ => s.volumes.any fun r => r.id == id
  | .insertVmWithId _ _ | .createVolume _ _ => true

def apply (p : ProjectId) (hit : Bool) : Request → State
  | .insertVmWithId spec _ =>
    { s with vms := s.vms ++ [⟨s.nextId, p, spec⟩], nextId := s.nextId + 1 }
  | .createVolume size _ =>
    { s with volumes := s.volumes ++ [⟨s.nextId, p, size, .provisioning⟩], nextId := s.nextId + 1 }
  | .writeSpec id spec =>
    if hit then
      { s with vms := updateWhere (fun r => r.id == id) (fun r => { r with spec := spec }) s.vms }
    else s
  | .finalizeVolume id size =>
    if hit then
      { s with
        volumes := updateWhere (fun r => r.id == id)
          (fun r => { r with size := size, status := .ready }) s.volumes }
    else s

/-- The next statement of a transaction.  An error, of the database or of `check`, ends it. -/
def stmt (tx : Tx) : Option (State × TxPc) :=
  match tx.pc with
  | .start => some (s, readBefore s tx.request)
  | .lockProject p demand =>
    if s.txs.any fun t => t.pc.holds p then none else some (s, .loadLimits p demand)
  | .loadLimits p demand =>
    match s.quotas p with
    | none => some (s, .write p demand)
    | some l => some (s, if l.unlimited then .write p demand else .countVms p demand l)
  | .countVms p demand l =>
    some (s, if (vmUsage s p).decodes then .countVolumes p demand l (vmUsage s p) else .finished)
  | .countVolumes p demand l vms =>
    if (volumeUsage s p).decodes then
      match check l (vms.combine (volumeUsage s p)) demand with
      | .ok () => some (s, .write p demand)
      | .error _ => some (s, .finished)
    else some (s, .finished)
  | .write p demand => some (s, .commit p demand (hits s tx.request))
  | .commit p _ hit => some (apply s p hit tx.request, .finished)
  | .finished => none

inductive Event
  | begin (r : Request)
  | exec (i : Nat)
  | rollback (i : Nat)
  -- autocommit statements
  | deleteVmRow (id : Nat)
  | deleteVolume (id : Nat)
  | dropVolumeReservation (id : Nat)
  | dropOrphanedReservations
  | setQuota (p : ProjectId) (l : Limits)
  | clearQuota (p : ProjectId)
deriving DecidableEq

/-- `DELETE FROM volumes WHERE ...`: waits for the rows an open transaction has updated. -/
def deleteVolumes (p : VolumeRow → Bool) : Option State :=
  if s.volumes.any fun r => p r && s.txs.any fun t => t.locksVolume r.id then none
  else some { s with volumes := deleteWhere p s.volumes }

def step : Event → Option State
  | .begin r => some { s with txs := s.txs ++ [⟨r, .start⟩] }
  | .exec i =>
    match s.txs[i]? with
    | none => none
    | some tx => (stmt s tx).map fun (s', pc) => { s' with txs := s.txs.set i { tx with pc := pc } }
  | .rollback i =>
    match s.txs[i]? with
    | none => none
    | some tx => some { s with txs := s.txs.set i { tx with pc := .finished } }
  | .deleteVmRow id =>
    if s.txs.any fun t => t.locksVm id then none
    else some { s with vms := deleteWhere (fun r => r.id == id) s.vms }
  | .deleteVolume id => deleteVolumes s fun r => r.id == id
  | .dropVolumeReservation id => deleteVolumes s fun r => r.id == id && r.status == .provisioning
  | .dropOrphanedReservations => deleteVolumes s fun r => r.status == .provisioning
  | .setQuota p l => some { s with quotas := Function.update s.quotas p (some l) }
  | .clearQuota p => some { s with quotas := Function.update s.quotas p none }

/-- Rows have distinct ids, all of them given out. -/
structure Tables (s : State) : Prop where
  vmIds : (s.vms.map (·.id)).Nodup
  volumeIds : (s.volumes.map (·.id)).Nodup
  vmLt : ∀ r ∈ s.vms, r.id < s.nextId
  volumeLt : ∀ r ∈ s.volumes, r.id < s.nextId

/-- No transaction is open and project `p` is within its limits. -/
structure Init (p : ProjectId) (s : State) : Prop where
  tables : Tables s
  idle : s.txs = []
  within : ∀ d n, limit s p d = some n → usage s p d ≤ n

/-! ## Lemmas -/

theorem vmUsage_get (p : ProjectId) (d : Dimension) : (vmUsage s p).get d =
      total (fun r => r.spec.counted.get d) (s.vms.filter fun r => r.project == p) := by
  cases d with
  | vms => exact (total_one _).symm
  | vcpus | memoryMib | storageBytes => rfl
  | volumes => exact (total_zero _).symm

theorem volumeUsage_get (p : ProjectId) (d : Dimension) : (volumeUsage s p).get d =
      total (fun r => (ofVolume r.size).get d)
        (s.volumes.filter fun r => r.project == p) := by
  cases d with
  | vms | vcpus | memoryMib => exact (total_zero _).symm
  | volumes => exact (total_one _).symm
  | storageBytes => rfl

theorem vmUsage_nonneg (p : ProjectId) (d : Dimension) : 0 ≤ (vmUsage s p).get d := by
  rw [vmUsage_get]
  exact total_nonneg fun r _ => counted_nonneg r.spec d

theorem volumeUsage_nonneg (p : ProjectId) (d : Dimension) : 0 ≤ (volumeUsage s p).get d := by
  rw [volumeUsage_get]
  exact total_nonneg fun r _ => ofVolume_nonneg r.size d

theorem combine_get {v w : Amounts} {d : Dimension} (hv : ∀ d, 0 ≤ v.get d) (hw : ∀ d, 0 ≤ w.get d)
    (hvol : v.volumes = 0) (hvms : w.vms = 0 ∧ w.vcpus = 0 ∧ w.memoryMib = 0)
    (hlt : v.get d + w.get d < 2 ^ 63) : (v.combine w).get d = v.get d + w.get d := by
  have h1 := hv d
  have h2 := hw d
  cases d with
  | vms => simp [Amounts.combine, Amounts.get, hvms.1]
  | vcpus => simp [Amounts.combine, Amounts.get, hvms.2.1]
  | memoryMib => simp [Amounts.combine, Amounts.get, hvms.2.2]
  | volumes => simp [Amounts.combine, Amounts.get, hvol]
  | storageBytes =>
    have hsum : i64 (v.get .storageBytes + w.get .storageBytes) = _ := i64_eq (by omega) (by omega)
    exact hsum

theorem usageIn_le {s : State} {p : ProjectId} {u : Amounts} (h : usageIn s p = some u)
    (d : Dimension) : u.get d ≤ usage s p d := by
  unfold usageIn at h
  split at h
  · cases h
    cases d with
    | vms | vcpus | memoryMib => exact Int.le_of_eq (Int.add_zero _).symm
    | volumes => exact Int.le_of_eq (Int.zero_add _).symm
    | storageBytes =>
    have h1 := vmUsage_nonneg s p .storageBytes
    have h2 := volumeUsage_nonneg s p .storageBytes
    have hsum : 0 ≤ (vmUsage s p).get .storageBytes + (volumeUsage s p).get .storageBytes := by
      omega
    exact i64_le hsum
  · cases h

end VQuasar.Quota
