import VQuasar.Leadership.Guard
import VQuasar.Leadership.Lease
import Mathlib.Logic.Function.Basic

/-!
# Fencing a superseded controller

The control-plane instances around one agent that is not strict.  Each instance runs the loop of
`Lease::run`, which takes the lease, stores `fresh` and publishes the epoch as three separate
writes, and starts a pass when it finds itself fresh.  A pass sends many requests; each is stamped
with whatever epoch the instance has published when it is sent (`StampEpoch`), and arrives at the
agent at some later time, if at all.

A request carries the term in which its pass was started.  `superseded_admitted` are two runs in
which the agent admits a request of a term that is over: an instance that notices that it has lost
the lease publishes 0, so the rest of its pass is unstamped, and one that gets the lease back
stamps the rest of its old pass with the new epoch.  `superseded_refused` shows that the agent
refuses every such request in runs in which each request is sent under the epoch of its own term.
-/

namespace VQuasar.Leadership

open Runs List Option

/-! ## Instances -/

/-- Where `Lease::run` stands: before `acquire_or_renew`, or with the epoch it is to publish, 0
for an error or a lease that is somebody else's. -/
inductive Loop
  | renew
  | store (epoch : Option Int)
  | publish (epoch : Int)
deriving DecidableEq, Repr

/-- `term` is the epoch of the last lease this instance was given, `pass` that of the term in which
its running pass was started. -/
structure Instance where
  fresh : Bool
  published : Int
  loop : Loop
  term : Int
  pass : Option Int
deriving DecidableEq, Repr

def Instance.idle : Instance := ⟨false, 0, .renew, 0, none⟩

/-- `StampEpoch`: an epoch of 0 stamps nothing. -/
def stampOf (published : Int) : Stamp := if published > 0 then .epoch published else .absent

/-- A request of a pass, on its way to the agent. -/
structure Request where
  stamp : Stamp
  term : Int
deriving DecidableEq, Repr

structure Fleet where
  lease : LeaseState
  instances : Identity → Instance
  net : List Request
  highest : Int
  admitted : List Int

/-- How the statement of the lease loop goes; `lost` takes effect and is reported as an error. -/
inductive Answer
  | ok | failed | lost
deriving DecidableEq, Repr

inductive FleetEvent
  | time (passed : Nat)
  | acquire (i : Identity) (answer : Answer)
  | store (i : Identity)
  | publish (i : Identity)
  | release (i : Identity)
  | startPass (i : Identity)
  | endPass (i : Identity)
  | send (i : Identity)
  | deliver (k : Nat)
  | lose (k : Nat)
  /-- The agent restarts and loads an epoch. -/
  | restart (loaded : Int)
deriving DecidableEq, Repr

namespace Fleet

def update (t : Fleet) (i : Identity) (f : Instance → Instance) : Fleet :=
  { t with instances := Function.update t.instances i (f (t.instances i)) }

def taken (t : Fleet) (i : Identity) : Fleet := { t with lease := t.lease.step (.acquireOrRenew i) }

def acquire (t : Fleet) (i : Identity) (answer : Answer) : Fleet :=
  match answer, (t.lease.row.acquireOrRenew t.lease.now i).2 with
  | .ok, some h =>
    (t.taken i).update i fun a => { a with loop := .store (some h.epoch), term := h.epoch }
  | .ok, none | .failed, _ => t.update i fun a => { a with loop := .store none }
  | .lost, _ => (t.taken i).update i fun a => { a with loop := .store none }

def receive (t : Fleet) (q : Request) : Fleet :=
  match q.stamp, check false t.highest q.stamp with
  | .epoch e, .admitted => { t with admitted := e :: t.admitted }
  | .epoch _, .persisting e => { t with highest := e, admitted := e :: t.admitted }
  | _, _ => t

def step (t : Fleet) : FleetEvent → Option Fleet
  | .time passed => some { t with lease := t.lease.step (.pass passed) }
  | .acquire i answer => if (t.instances i).loop = .renew then some (t.acquire i answer) else none
  | .store i =>
    match (t.instances i).loop with
    | .store epoch => some (t.update i fun a =>
        { a with fresh := epoch.isSome, loop := .publish (epoch.getD 0) })
    | _ => none
  | .publish i =>
    match (t.instances i).loop with
    | .publish epoch => some (t.update i fun a => { a with published := epoch, loop := .renew })
    | _ => none
  | .release i => some { t with lease := t.lease.step (.release i) }
  | .startPass i =>
    if (t.instances i).fresh = true ∧ (t.instances i).pass = none then
      some (t.update i fun a => { a with pass := some a.term })
    else none
  | .endPass i => some (t.update i fun a => { a with pass := none })
  | .send i =>
    match (t.instances i).pass with
    | some term => some { t with net := t.net ++ [⟨stampOf (t.instances i).published, term⟩] }
    | none => none
  | .deliver k =>
    match t.net[k]? with
    | some q => some ({ t with net := t.net.eraseIdx k }.receive q)
    | none => none
  | .lose k => some { t with net := t.net.eraseIdx k }
  | .restart loaded => some { t with highest := loaded }

end Fleet

/-- No instance has started, and the agent has admitted nothing. -/
def FleetInit (t : Fleet) : Prop :=
  (∀ i, t.instances i = Instance.idle) ∧ t.net = [] ∧ t.admitted = []

/-! ## The condition on steps -/

/-- A request is sent while its instance publishes the epoch of the term in which the pass was
started, and a restart of the agent forgets no epoch that it has admitted. -/
def steady (t : Fleet) : FleetEvent → Bool
  | .send i => (t.instances i).pass == some (t.instances i).published &&
      decide (0 < (t.instances i).published)
  | .restart loaded => t.admitted.all fun e => decide (e ≤ loaded)
  | _ => true

/-! ## The invariant -/

structure Stamped (t : Fleet) : Prop where
  net : ∀ q ∈ t.net, q.stamp = .epoch q.term
  admitted : ∀ e ∈ t.admitted, e ≤ t.highest

section

variable {t t' : Fleet}

theorem Stamped.of_eq (h : Stamped t) (hnet : ∀ q ∈ t'.net, q ∈ t.net)
    (hadm : t'.admitted = t.admitted) (hhigh : t'.highest = t.highest) : Stamped t' := by
  refine ⟨fun q hq => h.net q (hnet q hq), ?_⟩
  rw [hadm, hhigh]
  exact h.admitted

theorem Stamped.acquire (h : Stamped t) (i : Identity) (answer : Answer) :
    Stamped (t.acquire i answer) := by
  unfold Fleet.acquire
  split <;> exact h.of_eq (fun _ hq => hq) rfl rfl

theorem Stamped.receive (h : Stamped t) (q : Request) : Stamped (t.receive q) := by
  unfold Fleet.receive
  split
  · next e hstamp hcheck =>
    rw [hstamp] at hcheck
    have hhigh := check_admitted hcheck
    refine ⟨h.net, ?_⟩
    intro e' he'
    rcases mem_cons.mp he' with rfl | he'
    · exact Int.le_of_eq hhigh
    · exact h.admitted e' he'
  · next e₀ e hstamp hcheck =>
    rw [hstamp] at hcheck
    have hhigh := check_persisting hcheck
    refine ⟨h.net, ?_⟩
    intro e' he'
    show e' ≤ e
    rcases mem_cons.mp he' with rfl | he'
    · exact Int.le_refl _
    · have hle := h.admitted e' he'
      omega
  · exact h

theorem Stamped.step (h : Stamped t) {ev : FleetEvent} (hok : steady t ev)
    (hs : t.step ev = some t') : Stamped t' := by
  cases ev with
  | time passed =>
    cases hs
    exact h.of_eq (fun _ hq => hq) rfl rfl
  | acquire i answer =>
    simp only [Fleet.step] at hs
    split at hs
    · cases hs
      exact h.acquire i answer
    · cases hs
  | store | publish =>
    simp only [Fleet.step] at hs
    split at hs
    · cases hs
      exact h.of_eq (fun _ hq => hq) rfl rfl
    · cases hs
  | release | endPass =>
    cases hs
    exact h.of_eq (fun _ hq => hq) rfl rfl
  | startPass i =>
    simp only [Fleet.step] at hs
    split at hs
    · cases hs
      exact h.of_eq (fun _ hq => hq) rfl rfl
    · cases hs
  | send i =>
    simp only [steady, Bool.and_eq_true, beq_iff_eq, decide_eq_true_eq] at hok
    simp only [Fleet.step, hok.1] at hs
    cases hs
    refine ⟨?_, h.admitted⟩
    intro q hq
    rcases mem_append.mp hq with hq | hq
    · exact h.net q hq
    · rw [mem_singleton.mp hq]
      exact if_pos hok.2
  | deliver k =>
    simp only [Fleet.step] at hs
    split at hs
    · next q hq =>
      cases hs
      have herase : Stamped { t with net := t.net.eraseIdx k } :=
        h.of_eq (fun _ hq => mem_of_mem_eraseIdx hq) rfl rfl
      exact herase.receive q
    · cases hs
  | lose k =>
    cases hs
    exact h.of_eq (fun _ hq => mem_of_mem_eraseIdx hq) rfl rfl
  | restart loaded =>
    cases hs
    simp only [steady, List.all_eq_true, decide_eq_true_eq] at hok
    exact ⟨h.net, hok⟩

theorem stamped_init (h : FleetInit t) : Stamped t := by
  obtain ⟨-, hnet, hadm⟩ := h
  refine ⟨?_, ?_⟩
  · intro q hq
    simp [hnet] at hq
  · intro e he
    simp [hadm] at he

def SteadyFleet : Fleet → Prop := Reach Fleet.step (fun t ev => steady t ev = true) FleetInit

theorem SteadyFleet.stamped (hr : SteadyFleet t) : Stamped t :=
  Reach.invariant (fun _ => stamped_init) (fun _ _ _ hi hok hs => hi.step hok hs) hr

end

/-! ## Fencing -/

/-- **A superseded controller is refused.**  In every run whose steps meet the condition, once the
agent has admitted epoch `e` it refuses every request of a pass that was started in an earlier
term. -/
theorem superseded_refused {t : Fleet} (hr : SteadyFleet t) {q : Request} (hq : q ∈ t.net) {e : Int}
    (he : e ∈ t.admitted) (hlow : q.term < e) : check false t.highest q.stamp = .refused := by
  have h := hr.stamped
  have hle := h.admitted e he
  rw [h.net q hq]
  exact if_pos (by omega)

def newFleet : Fleet := ⟨⟨⟨"", 0, 0, -1000000⟩, 0⟩, fun _ => Instance.idle, [], 0, []⟩

theorem newFleet_init : FleetInit newFleet := ⟨fun _ => rfl, rfl, rfl⟩

def round (i : Identity) : List FleetEvent := [.acquire i .ok, .store i, .publish i]

/-- `a` takes the lease and starts a pass; its lease runs out; `b` takes over and has a request
admitted. -/
def takeover : List FleetEvent :=
  round "a" ++ [.startPass "a", .time 16000000] ++ round "b" ++ [.startPass "b", .send "b",
    .deliver 0]

/-- A request of the old controller, sent before it has noticed anything, is refused. -/
theorem superseded_refused_unnoticed :
    check false (final Fleet.step newFleet (takeover ++ [.send "a"])).highest (.epoch 1) =
      .refused := by
  have hr : SteadyFleet (final Fleet.step newFleet (takeover ++ [.send "a"])) :=
    Reach.final (fun _ _ h => h) newFleet_init (by decide) (by decide)
  exact superseded_refused hr (q := ⟨.epoch 1, 1⟩) (e := 2) (by decide) (by decide) (by decide)

/-- **A superseded controller is admitted.**  The pass that `a` started in term 1 goes on after the
agent has admitted epoch 2: `a` publishes 0, or has the lease back, in term 3. -/
theorem superseded_admitted : (∃ t, Reach Fleet.step anyStep FleetInit t ∧
      exec Fleet.step newFleet (takeover ++ round "a" ++ [.send "a"]) = some t ∧
      t.net = [⟨.absent, 1⟩] ∧ 2 ∈ t.admitted ∧ check false t.highest .absent = .admitted) ∧
    ∃ t, Reach Fleet.step anyStep FleetInit t ∧
      exec Fleet.step newFleet (takeover ++ round "a" ++ [.time 16000000] ++ round "a" ++
        [.send "a"]) = some t ∧ t.net = [⟨.epoch 3, 1⟩] ∧ 2 ∈ t.admitted ∧
      check false t.highest (.epoch 3) = .persisting 3 := by
  refine ⟨⟨final Fleet.step newFleet (takeover ++ round "a" ++ [.send "a"]), ?_, ?_⟩,
    ⟨final Fleet.step newFleet (takeover ++ round "a" ++ [.time 16000000] ++ round "a" ++
      [.send "a"]), ?_, ?_⟩⟩
  · exact Reach.final_anyStep newFleet_init (by decide)
  · exact ⟨rfl, by decide, by decide, by decide⟩
  · exact Reach.final_anyStep newFleet_init (by decide)
  · exact ⟨rfl, by decide, by decide, by decide⟩

end VQuasar.Leadership
