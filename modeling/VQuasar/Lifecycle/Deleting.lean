import VQuasar.Lifecycle.Location

/-!
# A delete that is lost

The delete handler sets the phase to `Deleting` and leaves the rest to the reconcile loop, which reads
the phase again in a later pass.  Every other writer of the phase writes it unconditionally, and a pass
that is under way writes what it concluded from a row read earlier: `update_vm_observed` after
`ensure_vm` returns puts a deleted VM back to `Running`, and with `observed_generation` caught up it is
not even listed again (`delete_overwritten`).

`deleting_kept` shows that the delete is kept when it finds no pass under way, no migration and no
request to migrate (`settled`), and no store call of `reconcile_delete` fails: the failure counter does
not ask for the phase either.
-/

namespace VQuasar.Lifecycle

open Runs

/-! ## Store calls that fail -/

/-- What happens: an event, or a store call of the pass fails, before or after the next statement of
the pass has taken effect. -/
inductive Turn
  | event (e : Event)
  | storeError (late : Bool)
deriving DecidableEq, Repr

/-- Where an error takes the pass: `reconcile_vms` counts it, `reconcile_migrations` takes its failure
branch.  In the other places the pass ends, as it does in a crash. -/
def failurePc (s : State) : Option Pc :=
  match s.pc with
  | .schedule _ | .assign _ _ | .place _ _ | .ensureCall _ _ | .observed _ _ => some .noteFailure
  | .deleteCall _ | .deleteRow => some .noteFailure
  | .advance m | .migrationCall m | .prepared m _ | .sent m | .finalized m | .discarded m
  | .moved m => some (migrationFailed s m)
  | _ => none

def turn (s : State) : Turn → Option State
  | .event e => step s e
  | .storeError late =>
    (failurePc s).bind fun pc =>
      if late then (dbStep s).map fun s' => s'.goto pc else some (s.goto pc)

/-! ## The condition -/

/-- The points at which the controller has no phase to write. -/
def Pc.writesNoPhase : Pc → Bool
  | .idle | .clearFailures | .deleteCall _ | .deleteRow => true
  | _ => false

/-- Nothing that could still write a phase is under way. -/
def settled (s : State) : Bool :=
  s.pc.writesNoPhase && s.requests.isEmpty && !s.activeMigration

/-- A delete finds nothing under way, and no store call of `reconcile_delete` fails. -/
def undisturbed (s : State) : Turn → Bool
  | .event .delete => settled s
  | .storeError _ =>
    match s.pc with
    | .deleteCall _ | .deleteRow => false
    | _ => true
  | _ => true

/-! ## What a settled delete leaves -/

/-- The VM is being deleted, or gone, and nothing is under way that could write a phase. -/
structure Sealed (s : State) : Prop where
  born : s.born
  row : ∀ r, s.row = some r → r.phase = .deleting
  pc : s.pc.writesNoPhase
  requests : s.requests = []
  migrations : ∀ m ∈ s.migrations, m.state.active = false

/-- The row is such as `P`, or gone, and nothing is under way that could write a phase. -/
structure Shut (P : VmRow → Prop) (s : State) : Prop where
  born : s.born
  row : ∀ r, s.row = some r → P r
  pc : s.pc.writesNoPhase
  requests : s.requests = []
  migrations : ∀ m ∈ s.migrations, m.state.active = false

/-- Rows that no pass takes up but to delete them, whatever else is written to them. -/
structure AtRest (P : VmRow → Prop) : Prop where
  keeps : ∀ r r', r'.phase = r.phase → r'.generation = r.generation →
    r'.observedGeneration = r.observedGeneration → P r → P r'
  deleting : ∀ r, r.phase = .deleting → P r
  idle : ∀ r, P r → r.phase ≠ .running ∧ (r.phase = .deleting ∨ r.toReconcile = false)

section

variable {P : VmRow → Prop} {s s' : State} {e : Event}

/-- The row is written but for its phase and its generations, or goes, and the controller moves on. -/
theorem Shut.of_row (h : Shut P s) (hborn : s'.born = s.born) (hreq : s'.requests = s.requests)
    (hmig : s'.migrations = s.migrations) (hpc : s'.pc.writesNoPhase)
    (hrow : ∀ r', s'.row = some r' → ∃ r, s.row = some r ∧ (P r → P r')) : Shut P s' where
  born := hborn.trans h.born
  row := by
    intro r' hr'
    obtain ⟨r, hr, hkeeps⟩ := hrow r' hr'
    exact hkeeps (h.row r hr)
  pc := hpc
  requests := hreq.trans h.requests
  migrations := hmig ▸ h.migrations

theorem Shut.updateRow (h : Shut P s) {f : VmRow → VmRow} (hf : ∀ r, P r → P (f r)) :
    Shut P (s.updateRow f) := by
  refine h.of_row rfl rfl rfl h.pc fun r' hr' => ?_
  obtain ⟨r, hr, rfl⟩ := Option.map_eq_some_iff.mp hr'
  exact ⟨r, hr, hf r⟩

theorem Shut.goto (h : Shut P s) {pc : Pc} (hpc : pc.writesNoPhase) : Shut P (s.goto pc) :=
  h.of_row rfl rfl rfl hpc fun r hr => ⟨r, hr, id⟩

theorem Shut.dbStep (hP : AtRest P) (h : Shut P s) (hs : dbStep s = some s') : Shut P s' := by
  have hpc := h.pc
  cases dbStep_leaves hs with
  | cleared =>
    have hcleared : Shut P (s.updateRow fun r => { r with reconcileFailures := 0 }) :=
      h.updateRow fun r => hP.keeps r _ rfl rfl rfl
    exact hcleared.goto rfl
  | deleted => exact h.of_row rfl rfl rfl rfl fun r hr => nomatch hr
  | assigned hp | placed hp | deferred hp | observed hp | rowGone hp | noted hp | gaveUp hp | marked hp
  | advanced hp | sending hp | finalizing hp | moved hp | completed hp | failed hp | restored hp =>
    rw [hp] at hpc
    cases hpc

theorem Shut.callStep {c : Call} (h : Shut P s) (hs : callStep s c = some s') : Shut P s' := by
  have hpc := h.pc
  cases callStep_leaves hs with
  | deleteFailed => exact h.goto rfl
  | deleted => exact h.of_row rfl rfl rfl rfl fun r hr => ⟨r, hr, id⟩
  | ensureFailed hp | ensured hp | lost hp | reported hp | migrationFailed hp | prepared hp | sent hp
  | finalized hp | discardFailed hp | discarded hp | releaseFailed hp | released hp =>
    rw [hp] at hpc
    cases hpc

section

variable (hP : AtRest P) (h : Shut P s)
include hP h

theorem Shut.beginStep (hs : beginStep s e = some s') : Shut P s' := by
  obtain ⟨pc, rfl, hgoes⟩ := beginStep_effect hs
  have hpc := h.pc
  generalize s.pc = pc₀ at hgoes hpc
  cases hgoes with
  | deletes hr _ pc hpc =>
    refine h.goto ?_
    rcases hpc with rfl | ⟨x, -, rfl⟩ <;> rfl
  | places hr hp _ hrec | schedules hr hp _ hrec =>
    rcases (hP.idle _ (h.row _ hr)).2 with hd | hn
    · exact absurd hd hp.1
    · cases hn.symm.trans hrec
  | recovers hr hp _ => exact absurd hp (hP.idle _ (h.row _ hr)).1
  | advances hm hact => simp [h.migrations _ hm] at hact
  | scheduled vm _ => cases hpc
  | defers vm pc pc' hpc' _ => rcases hpc' with rfl | ⟨x, rfl⟩ <;> cases hpc

/-- No request of the API takes the row out of `P`, an edit apart, and no request to migrate is left. -/
theorem Shut.apiStep
    (hbump : ∀ d, e = .setPower d → ∀ r, P r → P { r with desired := d, generation := r.generation + 1 })
    (hs : apiStep s e = some s') : Shut P s' := by
  have hnone : ∀ {i : Nat} {q}, s.requests[i]? ≠ some q := by simp [h.requests]
  cases apiStep_goes hs with
  | create d hb => cases hb.symm.trans h.born
  | createDone => exact h.of_row rfl rfl rfl h.pc fun r hr => ⟨r, hr, id⟩
  | createRollback => exact h.of_row rfl rfl rfl h.pc fun r hr => nomatch hr
  | setPower d => exact h.updateRow (hbump d rfl)
  | delete => exact h.updateRow fun _ _ => hP.deleting _ rfl
  | migrateRead hr hx hp => exact absurd hp (hP.idle _ (h.row _ hr)).1
  | migrateCheck hq | migrateInsert hq | migratePhase hq => exact absurd hq hnone
  | apiCrash => exact ⟨h.born, h.row, h.pc, rfl, h.migrations⟩

theorem Shut.step
    (hbump : ∀ d, e = .setPower d → ∀ r, P r → P { r with desired := d, generation := r.generation + 1 })
    (hs : step s e = some s') : Shut P s' := by
  cases step_kind hs with
  | db _ hs => exact h.dbStep hP hs
  | call c _ hs => exact h.callStep hs
  | crash _ hs' =>
    subst hs'
    exact h.goto rfl
  | exits x v _ hs' | host x st _ hs' =>
    subst hs'
    exact h.of_row rfl rfl rfl h.pc fun r hr => ⟨r, hr, id⟩
  | api hs => exact h.apiStep hP hbump hs
  | begins hs => exact h.beginStep hP hs

/-- An error elsewhere than in `reconcile_delete` has no pass to take anywhere. -/
theorem Shut.turn {t : Turn} (hok : ∀ late, t = .storeError late →
    ∀ x, s.pc ≠ .deleteCall x ∧ s.pc ≠ .deleteRow)
    (hbump : ∀ d, t = .event (.setPower d) → ∀ r, P r →
    P { r with desired := d, generation := r.generation + 1 })
    (hs : turn s t = some s') : Shut P s' := by
  cases t with
  | event e => exact h.step hP (fun d hd => hbump d (congrArg _ hd)) hs
  | storeError late =>
  have hpc := h.pc
  have hnone : failurePc s = none := by
    unfold failurePc
    cases hp : s.pc with
    | idle | clearFailures => rfl
    | deleteCall x => exact absurd hp (hok late rfl x).1
    | deleteRow => exact absurd hp (hok late rfl 0).2
    | _ => simp [hp, Pc.writesNoPhase] at hpc
  simp only [Lifecycle.turn, hnone] at hs
  cases hs

end

end

theorem atRest_deleting : AtRest fun r => r.phase = .deleting :=
  ⟨fun _ _ hp _ _ h => hp.trans h, fun _ h => h, fun _ h => ⟨by rw [h]; decide, .inl h⟩⟩

theorem sealed_iff {s : State} : Sealed s ↔ Shut (fun r => r.phase = .deleting) s :=
  ⟨fun h => ⟨h.born, h.row, h.pc, h.requests, h.migrations⟩,
    fun h => ⟨h.born, h.row, h.pc, h.requests, h.migrations⟩⟩

theorem Sealed.turn {s s' : State} {t : Turn} (h : Sealed s) (hok : undisturbed s t)
    (hs : turn s t = some s') : Sealed s' := by
  refine sealed_iff.mpr ((sealed_iff.mp h).turn atRest_deleting ?_ (fun _ _ _ h => h) hs)
  rintro late rfl x
  constructor <;> intro hp <;> simp [undisturbed, hp] at hok

/-! ## In every run -/

/-- **A delete is kept.**  A `Deleting` committed while nothing is under way that writes a phase
stays until the row is gone, if no store call of `reconcile_delete` fails and further deletes are as
undisturbed. -/
theorem deleting_kept {s₀ s₁ s : State} (hborn : s₀.born)
    (hok : undisturbed s₀ (.event .delete)) (hd : turn s₀ (.event .delete) = some s₁)
    (h : Reach turn (fun s t => undisturbed s t = true) (fun s => s = s₁) s) :
    ∀ r, s.row = some r → r.phase = .deleting := by
  cases hd
  have hstart : ∀ s, s = s₀.setVmPhase .deleting → Sealed s := by
    rintro s rfl
    simp only [undisturbed, settled, Bool.and_eq_true, Bool.not_eq_true', List.isEmpty_iff] at hok
    refine ⟨hborn, fun r hr => ?_, hok.1.1, hok.1.2, ?_⟩
    · obtain ⟨r₀, -, rfl⟩ := Option.map_eq_some_iff.mp hr
      rfl
    · simpa [State.activeMigration, State.setVmPhase, State.updateRow] using hok.2
  exact (Reach.invariant hstart (fun _ _ _ hi hok hs => hi.turn hok hs) h).row

def booted : State :=
  final turn start (bootOnZero.map .event)

def toldToDelete : List Turn :=
  [.event .beginReconcile, .event (.call plainCall)]

/-- The booted VM is deleted: the agent no longer knows it and the row still says `Deleting`. -/
theorem deleting_kept_booted :
    ∃ r, (final turn (booted.setVmPhase .deleting) toldToDelete).row = some r ∧
      r.phase = .deleting := by
  have hrun : Reach turn (fun s t => undisturbed s t = true)
      (fun s => s = booted.setVmPhase .deleting)
      (final turn (booted.setVmPhase .deleting) toldToDelete) :=
    Reach.final (fun _ _ h => h) rfl (by decide) (by decide)
  have hrow : (final turn (booted.setVmPhase .deleting) toldToDelete).row =
      some ⟨.deleting, some 0, .running, 1, 1, 0⟩ := by decide
  exact ⟨_, hrow, deleting_kept (by decide) (by decide) rfl hrun _ hrow⟩

def answered : State :=
  final turn start ([Event.create .running, .createDone, .beginReconcile, .scheduled 0, .db, .db,
    .call plainCall].map .event)

/-- **A delete is overwritten.**  The first pass over a new VM has its answer from the agent when the
API commits `Deleting`; `update_vm_observed` then writes `Running`, and the row is settled. -/
theorem delete_overwritten : Reach turn anyStep Init answered ∧
      turn answered (.event .delete) = some (answered.setVmPhase .deleting) ∧
      ∃ s, turn (answered.setVmPhase .deleting) (.event .db) = some s ∧
        ∃ r, s.row = some r ∧ r.phase = .running ∧ r.toReconcile = false := by
  refine ⟨?_, rfl, _, rfl, ⟨.running, some 0, .running, 1, 1, 0⟩, by decide, rfl, by decide⟩
  exact Reach.final_anyStep start_init (by decide)

end VQuasar.Lifecycle
