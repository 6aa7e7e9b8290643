import VQuasar.Lib.Runs

/-!
# The agent's memory of the epoch

`EpochGuard` (`services/agent/src/epoch.rs`): `check` raises the highest epoch seen by one atomic
`fetch_max`, and a check that raised it writes the epoch to a temporary file and renames that over
the epoch file before it returns.  Several checks run at once, all through the same temporary file;
each write and each rename is one event, durable and atomic.  A crash forgets the memory and the
checks under way, and the next start loads the epoch file.

`acked` holds the epochs for which a check has returned `Ok`, `reported` whether a `persist` has
reported an I/O error.  `forgotten` is a run without an I/O error after which the file is behind an
epoch that was accepted: a slower check renames its older epoch over a newer one.
`acked_le_load` shows that checks which do not overlap forget nothing.
-/

namespace VQuasar.Leadership

open Runs List Option

/-! ## The guard -/

/-- What stands in a file: a number, or something that does not parse. -/
inductive Content
  | number (n : Int)
  | garbage
deriving DecidableEq, Repr

/-- `load`: a file that is missing or not a number counts as zero. -/
def load : Option Content → Int
  | some (.number n) => n
  | _ => 0

inductive Stamp
  | absent
  | unparsable
  | epoch (n : Int)
deriving DecidableEq, Repr

/-- A check that persists its epoch. -/
inductive Persisting
  | write (epoch : Int)
  | rename (epoch : Int)
deriving DecidableEq, Repr

def Persisting.epoch : Persisting → Int
  | .write e | .rename e => e

structure Guard where
  strict : Bool
  highest : Int
  file : Option Content
  tmp : Option Content
  tasks : List Persisting
  acked : List Int
  reported : Bool
deriving DecidableEq, Repr

/-- What `check` has decided when it has done its `fetch_max`. -/
inductive Verdict
  | refused
  | admitted
  | persisting (epoch : Int)
deriving DecidableEq, Repr

/-- `check` up to `persist`. -/
def check (strict : Bool) (highest : Int) : Stamp → Verdict
  | .absent => if strict then .refused else .admitted
  | .unparsable => .refused
  | .epoch e => if e < highest then .refused else if e > highest then .persisting e else .admitted

variable {strict : Bool} {highest e : Int}

theorem check_admitted (h : check strict highest (.epoch e) = .admitted) : e = highest := by
  simp only [check] at h
  split at h
  · cases h
  · split at h
    · cases h
    · omega

theorem check_persisting {e' : Int}
    (h : check strict highest (.epoch e) = .persisting e') : highest < e' := by
  simp only [check] at h
  split at h
  · cases h
  · split at h
    · cases h
      omega
    · cases h

inductive GuardEvent
  | check (stamp : Stamp)
  | write (i : Nat)
  | rename (i : Nat)
  /-- `create_dir_all`, the write or the rename of a task fails. -/
  | ioError (i : Nat)
  | restart
deriving DecidableEq, Repr

/-- `fetch_max`, and what follows from it at once. -/
def Guard.receive (g : Guard) (stamp : Stamp) : Guard :=
  match stamp, check g.strict g.highest stamp with
  | .epoch e, .admitted => { g with acked := e :: g.acked }
  | _, .persisting e => { g with highest := e, tasks := g.tasks ++ [.write e] }
  | _, _ => g

/-- Task `i` is done; `check` returns `Ok` whatever `persist` has reported. -/
def Guard.finish (g : Guard) (i : Nat) (e : Int) : Guard :=
  { g with tasks := g.tasks.eraseIdx i, acked := e :: g.acked }

def Guard.step (g : Guard) : GuardEvent → Option Guard
  | .check stamp => some (g.receive stamp)
  | .write i =>
    match g.tasks[i]? with
    | some (.write e) => some { g with tmp := some (.number e), tasks := g.tasks.set i (.rename e) }
    | _ => none
  | .rename i =>
    match g.tasks[i]? with
    | some (.rename e) =>
      match g.tmp with
      | some c => some ({ g with file := some c, tmp := none }.finish i e)
      -- another task has renamed the temporary file away
      | none => some ({ g with reported := true }.finish i e)
    | _ => none
  | .ioError i =>
    match g.tasks[i]? with
    | some t => some ({ g with reported := true }.finish i t.epoch)
    | none => none
  | .restart => some { g with highest := load g.file, tasks := [] }

/-- A guard that has been loaded and has seen no request. -/
def Guard.Fresh (g : Guard) : Prop :=
  g.highest = load g.file ∧ g.tasks = [] ∧ g.acked = [] ∧ g.reported = false

/-- A check whose epoch reaches the highest seen starts only when no other is under way. -/
def Guard.apart (g : Guard) : GuardEvent → Bool
  | .check (.epoch e) => decide (e < g.highest) || g.tasks.isEmpty
  | _ => true

/-! ## The invariant -/

/-- At most one check is under way, for the highest epoch, and the file is not behind what has been
answered. -/
structure Kept (g : Guard) : Prop where
  highest : ∀ e ∈ g.acked, e ≤ g.highest
  file : ∀ e ∈ g.acked, e ≤ load g.file
  tasks : (g.tasks = [] ∧ g.highest ≤ load g.file) ∨ g.tasks = [.write g.highest] ∨
    (g.tasks = [.rename g.highest] ∧ g.tmp = some (.number g.highest))

section

variable {g g' : Guard}

variable {i : Nat} {ev : GuardEvent} {e : Int}

theorem eq_of_single {t t' : Persisting} (h : [t][i]? = some t') : i = 0 ∧ t' = t := by
  cases i with
  | zero => exact ⟨rfl, (some.inj h).symm⟩
  | succ i => cases h

theorem Kept.write_task (h : Kept g) (hi : g.tasks[i]? = some (.write e)) :
    i = 0 ∧ e = g.highest ∧ g.tasks = [.write g.highest] := by
  rcases h.tasks with ⟨hnil, -⟩ | hone | ⟨hone, -⟩
  · simp [hnil] at hi
  · rw [hone] at hi
    obtain ⟨h0, he⟩ := eq_of_single hi
    exact ⟨h0, Persisting.write.inj he, hone⟩
  · rw [hone] at hi
    cases (eq_of_single hi).2

theorem Kept.rename_task (h : Kept g) (hi : g.tasks[i]? = some (.rename e)) :
    i = 0 ∧ e = g.highest ∧ g.tasks = [.rename g.highest] ∧ g.tmp = some (.number g.highest) := by
  rcases h.tasks with ⟨hnil, -⟩ | hone | ⟨hone, htmp⟩
  · simp [hnil] at hi
  · rw [hone] at hi
    cases (eq_of_single hi).2
  · rw [hone] at hi
    obtain ⟨h0, he⟩ := eq_of_single hi
    exact ⟨h0, Persisting.rename.inj he, hone, htmp⟩

theorem Kept.receive (h : Kept g) {stamp : Stamp} (hok : g.apart (.check stamp)) :
    Kept (g.receive stamp) := by
  cases stamp with
  | absent =>
    unfold Guard.receive check
    cases g.strict <;> exact h
  | unparsable => exact h
  | epoch e =>
    simp only [Guard.apart, Bool.or_eq_true, decide_eq_true_eq, List.isEmpty_iff] at hok
    unfold Guard.receive check
    by_cases hlt : e < g.highest
    · simp only [if_pos hlt]
      exact h
    have hnil : g.tasks = [] := hok.resolve_left hlt
    have hload : g.highest ≤ load g.file := by
      rcases h.tasks with ⟨-, hle⟩ | hone | ⟨hone, -⟩
      · exact hle
      · simp [hone] at hnil
      · simp [hone] at hnil
    by_cases hgt : e > g.highest
    · simp only [if_neg hlt, if_pos hgt]
      refine ⟨?_, h.file, .inr (.inl ?_)⟩
      · intro e' he'
        have hle := h.highest e' he'
        show e' ≤ e
        omega
      · show g.tasks ++ [.write e] = [.write e]
        rw [hnil]
        rfl
    · -- the highest epoch again, which the file has
      simp only [if_neg hlt, if_neg hgt]
      refine ⟨?_, ?_, .inl ⟨hnil, hload⟩⟩
      · intro e' he'
        rcases mem_cons.mp he' with rfl | he'
        · show e' ≤ g.highest
          omega
        · exact h.highest e' he'
      · intro e' he'
        rcases mem_cons.mp he' with rfl | he'
        · show e' ≤ load g.file
          omega
        · exact h.file e' he'

open Guard

theorem Kept.step (h : Kept g) (hok : g.apart ev)
    (hs : g.step ev = some g') (hrep : g'.reported = false) : Kept g' := by
  cases ev with
  | check stamp =>
    cases hs
    exact h.receive hok
  | write i =>
    simp only [step] at hs
    split at hs
    · next e hi =>
      obtain ⟨rfl, rfl, hone⟩ := h.write_task hi
      cases hs
      refine ⟨h.highest, h.file, .inr (.inr ⟨?_, rfl⟩)⟩
      show g.tasks.set 0 (.rename g.highest) = _
      rw [hone]
      rfl
    · cases hs
  | rename i =>
    simp only [step] at hs
    split at hs
    · next e hi =>
      obtain ⟨rfl, rfl, hone, htmp⟩ := h.rename_task hi
      rw [htmp] at hs
      cases hs
      -- the file now has the highest epoch, which no answer exceeds
      have hall : ∀ e ∈ g.highest :: g.acked, e ≤ g.highest := by
        intro e he
        rcases mem_cons.mp he with rfl | he
        · exact Int.le_refl _
        · exact h.highest e he
      refine ⟨hall, hall, .inl ⟨?_, Int.le_refl _⟩⟩
      show g.tasks.eraseIdx 0 = []
      rw [hone]
      rfl
    · cases hs
  | ioError i =>
    simp only [step] at hs
    split at hs
    · cases hs
      cases hrep
    · cases hs
  | restart =>
    cases hs
    exact ⟨h.file, h.file, .inl ⟨rfl, Int.le_refl _⟩⟩

theorem reported_of_step (hs : g.step ev = some g') (h : g.reported) : g'.reported := by
  cases ev with
  | check stamp =>
    cases hs
    unfold receive
    split <;> exact h
  | write i =>
    simp only [step] at hs
    split at hs
    · cases hs
      exact h
    · cases hs
  | rename i =>
    simp only [step] at hs
    split at hs
    · split at hs
      · cases hs
        exact h
      · cases hs
        rfl
    · cases hs
  | ioError i =>
    simp only [step] at hs
    split at hs
    · cases hs
      rfl
    · cases hs
  | restart =>
    cases hs
    exact h

theorem kept_fresh (h : g.Fresh) : Kept g := by
  obtain ⟨hhigh, htasks, hacked, -⟩ := h
  refine ⟨?_, ?_, .inl ⟨htasks, hhigh ▸ Int.le_refl _⟩⟩
  · intro e he
    simp [hacked] at he
  · intro e he
    simp [hacked] at he

def ApartReach : Guard → Prop := Reach step (fun g ev => g.apart ev = true) Guard.Fresh

theorem ApartReach.kept (hr : ApartReach g) (hrep : g.reported = false) : Kept g := by
  induction hr with
  | start g h => exact kept_fresh h
  | next g g' ev _ hok hs ih =>
    refine (ih ?_).step hok hs hrep
    cases hg : g.reported with
    | false => rfl
    | true => simp [reported_of_step hs hg] at hrep

end

/-! ## A restart -/

/-- **The epoch survives a restart.**  In every run whose checks do not overlap, as long as no
`persist` has reported an error, a start at any point loads at least every epoch for which a check
has returned `Ok`. -/
theorem acked_le_load {g : Guard} (hr : ApartReach g) (hrep : g.reported = false) {e : Int}
    (he : e ∈ g.acked) : e ≤ load g.file :=
  (hr.kept hrep).file e he

def newGuard : Guard := ⟨false, 0, none, none, [], [], false⟩

theorem newGuard_fresh : newGuard.Fresh := ⟨rfl, rfl, rfl, rfl⟩

/-- Two controllers one after the other: the file has the second one's epoch. -/
theorem acked_le_load_successor :
    (6 : Int) ≤ load (final Guard.step newGuard [.check (.epoch 5), .write 0, .rename 0,
      .check (.epoch 6), .write 0, .rename 0]).file := by
  have hr : ApartReach (final Guard.step newGuard [.check (.epoch 5), .write 0, .rename 0,
      .check (.epoch 6), .write 0, .rename 0]) :=
    Reach.final (fun _ _ h => h) newGuard_fresh (by decide) (by decide)
  exact acked_le_load hr (by decide) (by decide)

/-- The check of epoch 6 returns, then the one of epoch 5 renames its own file over it. -/
def overtaken : List GuardEvent :=
  [.check (.epoch 5), .check (.epoch 6), .write 1, .rename 1, .write 0, .rename 0]

/-- A second request of epoch 6 returns while the first has yet to write. -/
def ahead : List GuardEvent := [.check (.epoch 6), .check (.epoch 6)]

/-- **The epoch is forgotten.**  Two checks overlap, no I/O error is reported, a check has returned
`Ok` for epoch 6, and a start now loads less. -/
theorem forgotten :
    (∃ g, Reach Guard.step anyStep Guard.Fresh g ∧ exec Guard.step newGuard overtaken = some g ∧
      g.reported = false ∧ 6 ∈ g.acked ∧ load g.file = 5) ∧
    ∃ g, Reach Guard.step anyStep Guard.Fresh g ∧ exec Guard.step newGuard ahead = some g ∧
      g.reported = false ∧ 6 ∈ g.acked ∧ load g.file = 0 := by
  refine ⟨⟨final Guard.step newGuard overtaken, ?_, by decide⟩,
    ⟨final Guard.step newGuard ahead, ?_, by decide⟩⟩
  · exact Reach.final_anyStep newGuard_fresh (by decide)
  · exact Reach.final_anyStep newGuard_fresh (by decide)

end VQuasar.Leadership
