import Mathlib.Logic.Function.Basic
import VQuasar.Lifecycle.Agent

/-!
# The control plane around one VM

The rows, the API requests and the controller passes that touch one VM id, as a step
function over events.  Every statement of `reconcile_vms`, `recover_running_vms`,
`reconcile_migrations` and of the handlers `create`, `delete`, `start`/`stop`, `migrate`
and `drain` is keyed by a VM id, and an agent's tables are too, so what the system does to
one VM is a run of this model, whatever it does to the others in between.

One lease holder runs the passes, one after another, so the controller is at one program
point `Pc` at a time; a program point carries what the pass read earlier and acts on now
(`vm`, `m`).  API requests interleave at every point.  Each database statement and each
agent call is one event.  An agent call has an `Outcome`: it succeeds, it fails without
reaching the handler, or it takes effect and times out at the caller.  `crash` returns the
controller to `idle` between any two events.

What the model leaves to the event: which ready host the scheduler picks, whether a pass defers
(host not ready, network missing, back-off), and which backend call of an agent handler
fails.  A database statement either commits or the controller crashes before it.  Tasks,
audit events and log lines are left out; nothing here reads them.
-/

namespace VQuasar.Lifecycle

open Function

/-! ## Rows -/

/-- The columns of `virtual_machines` the passes read or write; `desired` is
`spec.desired_power_state`. -/
structure VmRow where
  phase : Phase
  hostId : Option HostId
  desired : Power
  generation : Nat
  observedGeneration : Nat
  reconcileFailures : Nat
deriving DecidableEq, Repr

inductive MigrationState
  | pending | sending | finalizing | completed | failed
deriving DecidableEq, Repr

/-- `state NOT IN ('Completed', 'Failed')` -/
def MigrationState.active : MigrationState → Bool
  | .completed | .failed => false
  | _ => true

/-- A row of `migrations` for this VM. -/
structure Migration where
  id : Nat
  sourceHost : Option HostId
  targetHost : HostId
  state : MigrationState
  migrationUrl : Option Url
deriving DecidableEq, Repr

inductive HostState
  | absent | notReady | ready
deriving DecidableEq, Repr

def maxReconcileFailures : Nat := 5

/-- The WHERE clause of `list_vms_to_reconcile`. -/
def VmRow.toReconcile (r : VmRow) : Bool :=
  !(r.phase == .running || r.phase == .stopped || r.phase == .failed) ||
    r.generation != r.observedGeneration

/-! ## Program points and events -/

/-- Where the controller stands with this VM. -/
inductive Pc
  | idle
  -- reconcile_ensure
  | schedule (vm : VmRow)
  | assign (vm : VmRow) (h : HostId)
  | place (vm : VmRow) (h : HostId)
  | ensureCall (vm : VmRow) (h : HostId)
  | observed (vm : VmRow) (phase : Phase)
  -- the result of reconcile_ensure or reconcile_delete
  | clearFailures
  | noteFailure
  | giveUp
  -- reconcile_delete
  | deleteCall (h : HostId)
  | deleteRow
  -- recover_running_vms
  | recoverList (h : HostId)
  | recoverMark
  -- advance_migration
  | advance (m : Migration)
  | migrationCall (m : Migration)
  | prepared (m : Migration) (url : Url)
  | sent (m : Migration)
  | finalized (m : Migration)
  | discarded (m : Migration)
  | moved (m : Migration)
  -- the failure branch of reconcile_migrations
  | release (m : Migration)
  | fail (m : Migration)
  | restore
deriving DecidableEq, Repr

inductive Stage
  | read | checked | inserted
deriving DecidableEq, Repr

/-- A `migrate` request, or one VM of a `drain`, between its store calls. -/
structure MigrateRequest where
  source : HostId
  target : HostId
  stage : Stage
deriving DecidableEq, Repr

structure State where
  row : Option VmRow
  born : Bool
  migrations : List Migration
  agents : HostId → AgentVm
  hosts : HostId → HostState
  pc : Pc
  creating : Bool
  requests : List MigrateRequest

/-- An agent call: `lost` takes effect and times out at the caller. -/
inductive Outcome
  | ok | fail | lost
deriving DecidableEq, Repr

/-- How one agent call goes.  `husk` is what Cloud Hypervisor leaves of the source VMM when a
migration completes, `serial` the port a new receiver gets. -/
structure Call where
  outcome : Outcome
  ensure : EnsureFaults
  receive : ReceiveFaults
  serial : Nat
  husk : VmmState
deriving DecidableEq, Repr

inductive Event
  -- the lease holder
  | beginReconcile
  | beginRecover
  | beginMigration (m : Migration)
  | scheduled (h : HostId)
  | defer
  | db
  | call (c : Call)
  | crash
  -- the API
  | create (desired : Power)
  | createDone
  | createRollback
  | setPower (desired : Power)
  | delete
  | migrateRead (target : HostId)
  | migrateCheck (i : Nat)
  | migrateInsert (i : Nat)
  | migratePhase (i : Nat)
  | apiCrash
  -- the hosts
  | vmmExit (h : HostId) (v : Victim)
  | hostState (h : HostId) (st : HostState)
deriving DecidableEq, Repr

/-! ## Database statements -/

namespace State

variable (s : State)

/-- `UPDATE virtual_machines SET ... WHERE id = $1`: no effect when the row is gone. -/
def updateRow (f : VmRow → VmRow) : State := { s with row := s.row.map f }

def setVmPhase (p : Phase) : State := s.updateRow fun r => { r with phase := p }

def assignVmHost (h : HostId) : State :=
  s.updateRow fun r => { r with hostId := some h, phase := .scheduling }

def updateVmObserved (p : Phase) (observedGeneration : Nat) : State :=
  s.updateRow fun r => { r with phase := p, observedGeneration := observedGeneration }

def setVmHostRunning (h : HostId) : State :=
  s.updateRow fun r => { r with hostId := some h, phase := .running }

/-- `set_vm_spec`, as far as the power state goes. -/
def setVmSpec (desired : Power) : State :=
  s.updateRow fun r => { r with desired := desired, generation := r.generation + 1 }

def deleteVmRow : State := { s with row := none }

/-- `update_migration`: a `none` URL keeps the stored one. -/
def updateMigration (id : Nat) (st : MigrationState) (url : Option Url) : State :=
  { s with migrations := s.migrations.map fun m =>
      if m.id = id then { m with state := st, migrationUrl := url <|> m.migrationUrl } else m }

/-- `insert_migration`; row ids are never reused. -/
def insertMigration (source target : HostId) : State :=
  { s with migrations :=
      s.migrations ++ [⟨s.migrations.length, some source, target, .pending, none⟩] }

def activeMigration : Bool := s.migrations.any fun m => m.state.active

def setAgent (h : HostId) (a : AgentVm) : State :=
  { s with agents := update s.agents h a }

def goto (pc : Pc) : State := { s with pc := pc }

def executing (h : HostId) : Bool := (s.agents h).executing

end State

/-! ## Passes -/

variable (s : State) (vm : VmRow) (m : Migration)

/-- `reconcile_vms` takes up the row it listed: `reconcile_delete` or `reconcile_ensure`. -/
def reconcileVm : Pc :=
  match vm.phase, vm.hostId with
  | .deleting, some h => if s.hosts h = .absent then .deleteRow else .deleteCall h
  | .deleting, none => .deleteRow
  | _, some h => .place vm h
  | _, none => .schedule vm

def reconciled : Pc := if vm.reconcileFailures > 0 then .clearFailures else .idle

/-- `advance_migration` returned an error: `release_receiver` acts only from `Pending`. -/
def migrationFailed : Pc :=
  if m.state = .pending ∧ s.hosts m.targetHost ≠ .absent then .release m else .fail m

/-- The lookups at the top of `advance_migration` and of its `Sending` arm. -/
def advanceMigration : Pc :=
  if s.row.isNone ∨ s.hosts m.targetHost = .absent then migrationFailed s m
  else
    match m.state, m.sourceHost, m.migrationUrl with
    | .sending, some h, some _ =>
      if s.hosts h = .absent then migrationFailed s m else .migrationCall m
    | .sending, _, _ => migrationFailed s m
    | .pending, _, _ | .finalizing, _, _ => .migrationCall m
    | _, _, _ => .idle

/-- After `finalize_receive` the source, if it is still registered, is told to discard. -/
def afterFinalize : Pc :=
  match m.sourceHost with
  | some h => if s.hosts h = .absent then .discarded m else .finalized m
  | none => .discarded m

/-- `send_migration` on the source: the guest stops there exactly when the receiver has it. -/
def sendMigration (agents : HostId → AgentVm) (source : HostId) (url : Url) (husk : VmmState) :
    Option (HostId → AgentVm) :=
  if (agents source).managed = some .running ∧ husk ≠ .running then
    let agents' := update agents source ((agents source).sent husk)
    ((agents' url.host).receive url).map fun a => update agents' url.host a
  else none

theorem sendMigration_spec {agents agents' : HostId → AgentVm} {x : HostId} {u : Url}
    {husk : VmmState} (h : sendMigration agents x u husk = some agents') :
    (agents x).managed = some .running ∧ husk ≠ .running ∧
      ∃ a, ((update agents x ((agents x).sent husk)) u.host).receive u = some a ∧
        agents' = update (update agents x ((agents x).sent husk)) u.host a := by
  unfold sendMigration at h
  split at h
  · next hc =>
    obtain ⟨a, ha, rfl⟩ := Option.map_eq_some_iff.mp h
    exact ⟨hc.1, hc.2, a, ha, rfl⟩
  · cases h

/-- The next database statement of the current pass. -/
def dbStep : Option State :=
  match s.pc with
  | .assign vm h => some ((s.assignVmHost h).goto (.place vm h))
  | .place vm h => some (s.goto (if s.hosts h = .ready then .ensureCall vm h else reconciled vm))
  | .observed vm p => some ((s.updateVmObserved p vm.generation).goto (reconciled vm))
  | .clearFailures => some ((s.updateRow fun r => { r with reconcileFailures := 0 }).goto .idle)
  | .noteFailure =>
    match s.row with
    | none => some (s.goto .idle)
    | some r =>
      let s' := s.updateRow fun r => { r with reconcileFailures := r.reconcileFailures + 1 }
      some (s'.goto (if r.reconcileFailures + 1 < maxReconcileFailures then .idle else .giveUp))
  | .giveUp => some ((s.setVmPhase .failed).goto .idle)
  | .deleteRow => some (s.deleteVmRow.goto .idle)
  | .recoverMark => some ((s.setVmPhase .scheduling).goto .idle)
  | .advance m => some (s.goto (advanceMigration s m))
  | .prepared m url => some ((s.updateMigration m.id .sending (some url)).goto .idle)
  | .sent m => some ((s.updateMigration m.id .finalizing none).goto .idle)
  | .discarded m => some ((s.setVmHostRunning m.targetHost).goto (.moved m))
  | .moved m => some ((s.updateMigration m.id .completed none).goto .idle)
  | .fail m => some ((s.updateMigration m.id .failed none).goto .restore)
  | .restore => some ((s.setVmPhase .running).goto .idle)
  | _ => none

/-- Where `reconcile_ensure` goes with the agent's answer. -/
def ensureNext : Outcome → Except AgentError Phase → Pc
  | .ok, .ok p => .observed vm p
  | _, _ => .noteFailure

def prepareNext : Outcome → Except AgentError Url → Pc
  | .ok, .ok url => .prepared m url
  | _, _ => migrationFailed s m

def finalizeNext : Outcome → Except AgentError Phase → Pc
  | .ok, .ok _ => afterFinalize s m
  | _, _ => migrationFailed s m

def migrationCallStep (c : Call) : Option State :=
  let failed := migrationFailed s m
  match c.outcome, m.state with
  | .fail, _ => some (s.goto failed)
  | o, .pending =>
    ((s.agents m.targetHost).prepareReceive c.receive m.targetHost c.serial).map fun (a, r) =>
      (s.setAgent m.targetHost a).goto (prepareNext s m o r)
  | o, .sending =>
    match m.sourceHost, m.migrationUrl with
    | some h, some url =>
      match sendMigration s.agents h url c.husk with
      | some agents => some (({ s with agents := agents } : State).goto
          (if o = .ok then .sent m else failed))
      | none => some (s.goto failed)
    | _, _ => some (s.goto failed)
  | o, .finalizing =>
    (s.agents m.targetHost).finalizeReceive.map fun (a, r) =>
      (s.setAgent m.targetHost a).goto (finalizeNext s m o r)
  | _, _ => none

def callStep (c : Call) : Option State :=
  match s.pc with
  | .ensureCall vm h =>
    if c.outcome = .fail then some (s.goto .noteFailure)
    else
      let (a, r) := (s.agents h).ensure c.ensure vm.desired
      some ((s.setAgent h a).goto (ensureNext vm c.outcome r))
  | .deleteCall h =>
    if c.outcome = .fail then some (s.goto .deleteRow)
    else (s.agents h).delete.map fun (a, _) => (s.setAgent h a).goto .deleteRow
  | .recoverList h =>
    -- an agent that does not answer is skipped; a VM it does not report as up is relaunched
    if c.outcome = .ok ∧ (s.agents h).managed ≠ some .running then some (s.goto .recoverMark)
    else some (s.goto .idle)
  | .migrationCall m => migrationCallStep s m c
  | .finalized m =>
    match m.sourceHost with
    | some h =>
      if c.outcome = .fail then some (s.goto (.discarded m))
      else (s.agents h).discard.map fun (a, _) => (s.setAgent h a).goto (.discarded m)
    | none => none
  | .release m =>
    if c.outcome = .fail then some (s.goto (.fail m))
    else (s.agents m.targetHost).discard.map fun (a, _) =>
      (s.setAgent m.targetHost a).goto (.fail m)
  | _ => none

def beginStep : Event → Option State
  | .beginReconcile =>
    match s.pc, s.row with
    | .idle, some r =>
      if r.toReconcile ∧ r.phase ≠ .migrating then some (s.goto (reconcileVm s r)) else none
    | _, _ => none
  | .beginRecover =>
    match s.pc, s.row with
    | .idle, some r =>
      match r.hostId with
      | some h =>
        if r.phase = .running ∧ r.desired = .running ∧ s.hosts h = .ready then
          some (s.goto (.recoverList h))
        else none
      | none => none
    | _, _ => none
  | .beginMigration m =>
    if s.pc = .idle ∧ m ∈ s.migrations ∧ m.state.active then some (s.goto (.advance m)) else none
  | .scheduled h =>
    match s.pc with
    -- `list_schedulable_hosts` lists registered hosts that are ready
    | .schedule vm => if s.hosts h = .ready then some (s.goto (.assign vm h)) else none
    | _ => none
  | .defer =>
    match s.pc with
    | .schedule vm | .place vm _ => some (s.goto (reconciled vm))
    | _ => none
  | _ => none

/-! ## API requests -/

def setRequest (i : Nat) (q : Option MigrateRequest) : State :=
  { s with requests := s.requests.take i ++ q.toList ++ s.requests.drop (i + 1) }

def apiStep : Event → Option State
  | .create desired =>
    if s.born then none
    else some { s with row := some ⟨.pending, none, desired, 1, 0, 0⟩, born := true,
                       creating := true }
  | .createDone => some { s with creating := false }
  | .createRollback => if s.creating then some { s.deleteVmRow with creating := false } else none
  | .setPower desired => some (s.setVmSpec desired)
  | .delete => some (s.setVmPhase .deleting)
  | .migrateRead target =>
    match s.row with
    | some r =>
      match r.hostId with
      | some h =>
        if r.phase = .running ∧ h ≠ target ∧ s.hosts target = .ready then
          some { s with requests := s.requests ++ [⟨h, target, .read⟩] }
        else none
      | none => none
    | none => none
  | .migrateCheck i =>
    match s.requests[i]? with
    | some q =>
      if q.stage = .read ∧ s.activeMigration = false then
        some (setRequest s i (some { q with stage := .checked }))
      else none
    | none => none
  | .migrateInsert i =>
    match s.requests[i]? with
    | some q =>
      if q.stage = .checked then
        some (setRequest (s.insertMigration q.source q.target) i
          (some { q with stage := .inserted }))
      else none
    | none => none
  | .migratePhase i =>
    match s.requests[i]? with
    | some q =>
      if q.stage = .inserted then some (setRequest (s.setVmPhase .migrating) i none) else none
    | none => none
  | .apiCrash => some { s with requests := [], creating := false }
  | _ => none

/-! ## The system -/

def step : Event → Option State
  | .db => dbStep s
  | .call c => callStep s c
  | .crash => some (s.goto .idle)
  | .vmmExit h v => some (s.setAgent h ((s.agents h).vmmExit v))
  | .hostState h st =>
    -- host rows are never deleted
    if s.hosts h ≠ .absent ∧ st = .absent then none
    else some { s with hosts := update s.hosts h st }
  | .create d => apiStep s (.create d)
  | .createDone => apiStep s .createDone
  | .createRollback => apiStep s .createRollback
  | .setPower d => apiStep s (.setPower d)
  | .delete => apiStep s .delete
  | .migrateRead t => apiStep s (.migrateRead t)
  | .migrateCheck i => apiStep s (.migrateCheck i)
  | .migrateInsert i => apiStep s (.migrateInsert i)
  | .migratePhase i => apiStep s (.migratePhase i)
  | .apiCrash => apiStep s .apiCrash
  | .beginReconcile => beginStep s .beginReconcile
  | .beginRecover => beginStep s .beginRecover
  | .beginMigration m => beginStep s (.beginMigration m)
  | .scheduled h => beginStep s (.scheduled h)
  | .defer => beginStep s .defer

/-- Before the VM is created: no row, no request, no process, the controller idle. -/
def Init : Prop :=
  s.row = none ∧ s.born = false ∧ s.migrations = [] ∧ s.pc = .idle ∧ s.creating = false ∧
    s.requests = [] ∧ ∀ h, s.agents h = AgentVm.empty

end VQuasar.Lifecycle
