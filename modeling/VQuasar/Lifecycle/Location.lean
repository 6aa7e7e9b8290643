import VQuasar.Lib.Runs
import VQuasar.Lifecycle.Passes

/-!
# Where the guest runs

Under the condition `orderly` on steps the guest never executes on two hosts
(`executing_unique`) and, once no migration is active, it executes only where the row says
(`executing_at_hostId`).  `two_hosts_reachable` and `failed_elsewhere_reachable` are runs
outside the condition that break both: the failure branch of `reconcile_migrations` is
taken from `Finalizing`, where the guest has already left its source.
-/

namespace VQuasar.Lifecycle

open Runs

def OrderlyReach : State → Prop := Reach step (fun s e => orderly s e = true) Init

theorem OrderlyReach.inv {s : State} (h : OrderlyReach s) : Inv s :=
  Reach.invariant (fun _ => inv_init) (fun _ _ _ hi hok hs => inv_step hi hok hs) h

/-! ## Concrete runs -/

/-- No VM yet, every host registered and ready. -/
def start : State := ⟨none, false, [], fun _ => AgentVm.empty, fun _ => .ready, .idle, false, []⟩

theorem start_init : Init start := ⟨rfl, rfl, rfl, rfl, rfl, rfl, fun _ => rfl⟩

def plainCall : Call := ⟨.ok, .none, .none, 0, .noVm⟩

def deadCall : Call := { plainCall with outcome := .fail }

/-- Create the VM, place it on host 0 and boot it. -/
def bootOnZero : List Event :=
  [.create .running, .createDone, .beginReconcile, .scheduled 0, .db, .db, .call plainCall, .db]

/-- Request a migration to host 1, prepare the receiver and send the guest. -/
def sendToOne : List Event :=
  [.migrateRead 1, .migrateCheck 0, .migrateInsert 0, .migratePhase 0,
   .beginMigration ⟨0, some 0, 1, .pending, none⟩, .db, .call plainCall, .db,
   .beginMigration ⟨0, some 0, 1, .sending, some ⟨1, 0⟩⟩, .db, .call plainCall, .db]

def sentMigration : Migration := ⟨0, some 0, 1, .finalizing, some ⟨1, 0⟩⟩

/-- The target adopts the guest, the source discards the husk, the row moves. -/
def completeToOne : List Event :=
  [.beginMigration sentMigration, .db, .call plainCall, .call plainCall, .db, .db]

/-- `finalize_receive` does not get through: the failure branch. -/
def failFinalize : List Event :=
  [.beginMigration sentMigration, .db, .call deadCall, .db, .db]

theorem completed_run :
    OrderlyReach (final step start (bootOnZero ++ sendToOne ++ completeToOne)) ∧
      (final step start (bootOnZero ++ sendToOne ++ completeToOne)).executing 1 :=
  ⟨Reach.final (fun _ _ h => h) start_init (by decide) (by decide), by decide⟩

/-! ## One live guest -/

/-- **One live guest.**  In every run whose steps meet the condition, no two hosts execute the
guest at once. -/
theorem executing_unique {s : State} (hr : OrderlyReach s) {h h' : HostId}
    (he : s.executing h) (he' : s.executing h') : h = h' :=
  hr.inv.one h h' he he'

/-- The condition is met by a complete migration, after which host 1 alone executes the guest. -/
theorem executing_unique_migrated :
    (final step start (bootOnZero ++ sendToOne ++ completeToOne)).executing 1 ∧
      ∀ h, (final step start (bootOnZero ++ sendToOne ++ completeToOne)).executing h → h = 1 := by
  obtain ⟨hr, h1⟩ := completed_run
  exact ⟨h1, fun h he => executing_unique hr he h1⟩

/-- **Two live guests.**  The controller crashes after the source discarded the husk and before the
row moved; on the retry `finalize_receive` fails, and the recovery pass boots the VM on its old
host. -/
theorem two_hosts_reachable : ∃ s, Reach step anyStep Init s ∧ s.executing 0 ∧ s.executing 1 := by
  refine ⟨final step start (bootOnZero ++ sendToOne ++
    [.beginMigration sentMigration, .db, .call plainCall, .call plainCall, .crash] ++
    failFinalize ++
    [.beginRecover, .call plainCall, .db, .beginReconcile, .db, .call plainCall]), ?_, ?_, ?_⟩
  · exact Reach.final_anyStep start_init (by decide)
  · decide
  · decide

/-! ## The row tells where -/

/-- **The row tells where the guest runs.**  In every run whose steps meet the condition, once no
migration of the VM is active, a host that executes the guest is the row's host. -/
theorem executing_at_hostId {s : State} (hr : OrderlyReach s)
    (hdone : ∀ m ∈ s.migrations, m.state.active = false) {r : VmRow} (hrow : s.row = some r)
    {h : HostId} (he : s.executing h) : r.hostId = some h := by
  rcases (hr.inv.row r hrow).home h he with hh | ⟨-, m, hm, hact, -⟩
  · exact hh
  · simp [hdone m hm] at hact

/-- After a completed migration the row names host 1, which executes the guest. -/
theorem executing_at_hostId_migrated :
    (final step start (bootOnZero ++ sendToOne ++ completeToOne)).executing 1 ∧
      ∃ r, (final step start (bootOnZero ++ sendToOne ++ completeToOne)).row = some r ∧
        r.hostId = some 1 := by
  obtain ⟨hr, h1⟩ := completed_run
  have hrow : (final step start (bootOnZero ++ sendToOne ++ completeToOne)).row =
      some ⟨.running, some 1, .running, 1, 1, 0⟩ := by decide
  exact ⟨h1, _, hrow, executing_at_hostId hr (by decide) hrow h1⟩

/-- **A failed migration that moved.**  `finalize_receive` fails after the guest was sent: the
migration is `Failed`, the row says host 0, host 1 executes the guest. -/
theorem failed_elsewhere_reachable :
    ∃ s, Reach step anyStep Init s ∧ s.migrations.map (·.state) = [.failed] ∧
      s.row.bind (·.hostId) = some 0 ∧ s.executing 0 = false ∧ s.executing 1 := by
  refine ⟨final step start (bootOnZero ++ sendToOne ++ failFinalize), ?_, ?_, ?_, ?_, ?_⟩
  · exact Reach.final_anyStep start_init (by decide)
  all_goals decide

end VQuasar.Lifecycle
