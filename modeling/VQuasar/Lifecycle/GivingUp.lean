import VQuasar.Lifecycle.Deleting

/-!
# Giving up

`note_reconcile_failure` marks a VM `Failed` and records `vm.reconcile_failed` once the counter has
reached its limit.  That ends the attempts only for a VM whose generation has been observed: `fail_vm`
leaves `observed_generation` alone, so a VM that never came up stays listed, and the next pass sends
`ensure_vm` again.  Nor does `fail_vm` ask for the phase: a delete that commits while the failure is
being counted is turned into `Failed` (`gives_up_again`).
-/

namespace VQuasar.Lifecycle

open Runs List Option Bool

/-- The VM has been observed at its generation and is not being deleted, and no migration of it is
active or asked for. -/
def finished (s : State) : Bool :=
  s.row.any (fun r => r.phase != .deleting && r.generation == r.observedGeneration) &&
    s.requests.isEmpty && !s.activeMigration

def Turn.edits : Turn → Bool
  | .event e => e.bumps
  | .storeError _ => false

/-- The rows that giving up leaves, and what a delete makes of them. -/
def VmRow.over (r : VmRow) : Prop :=
  r.phase = .deleting ∨ r.phase = .failed ∧ r.generation = r.observedGeneration

end VQuasar.Lifecycle
