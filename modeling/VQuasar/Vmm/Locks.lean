import VQuasar.Lib.Runs
import VQuasar.Lib.Slots

/-!
# The mutexes of the VM manager

`VmManager` keeps its two tables behind mutexes of the whole process.  An operation is the sequence of
the locks that it takes and of what it waits for in between.  It ends early, with all its guards, at an
error, and when its caller gives up, unless it runs detached.

`send_migration` holds `vms` while it sends, and `finalize_receive` holds `pending` while it waits for
the guest ("that serialises finalises — acceptable"), so that operations on other VMs wait as well.
No other operation is in the way of another VM while it waits for another host (`blocked_behind`).
-/

namespace VQuasar.Vmm.Locks

open Runs List Option

inductive Mutex
  | vms
  | pending
deriving DecidableEq

inductive Instr
  | lock (m : Mutex)
  | unlock (m : Mutex)
  /-- the VMM, the switch or the disk of this host -/
  | work
  /-- a migration stream from or to another host -/
  | remote
deriving DecidableEq

inductive Op
  | ensure
  | delete
  | discard
  | prepareReceive
  | sendMigration
  | finalizeReceive
deriving DecidableEq

/-- The operations that go on when their caller is gone. -/
def Op.detached : Op → Bool
  | prepareReceive | finalizeReceive => true
  | _ => false

open Instr Mutex

/-- `teardown`: the guard of `pending` goes with the statement that takes it. -/
def teardown : List Instr := [lock pending, unlock pending, lock vms, work, unlock vms, work]

/-- The ways through an operation, each of which may also end early. -/
def Op.paths : Op → List (List Instr)
  -- a VM that is to be off is prepared again after the guard is dropped
  | ensure => [[work, lock vms, work], [work, lock vms, work, unlock vms, work]]
  | delete => [teardown]
  -- `vms` is looked at only if there was a receiver, and nothing is left to do if there is no VM
  | discard =>
    [lock pending :: unlock pending :: teardown,
      lock pending :: unlock pending :: lock vms :: unlock vms :: teardown,
      [lock pending, unlock pending, lock vms, unlock vms]]
  | prepareReceive => [[lock pending, work]]
  | sendMigration => [[lock vms, remote]]
  -- the guard of `vms` that finds no VM goes before the wait
  | finalizeReceive =>
    [[lock pending, lock vms, work], [lock pending, lock vms, unlock vms, remote, lock vms, work]]

structure Task where
  vm : Nat
  op : Op
  rest : List Instr
  held : List Mutex
deriving DecidableEq

def holdsAfter (held : List Mutex) : Instr → List Mutex
  | lock m => m :: held
  | unlock m => held.erase m
  | _ => held

/-- The next instruction; a mutex is taken when nobody holds it. -/
def Task.next (s : Slots Task) (t : Task) : Option Task :=
  match t.rest with
  | [] => none
  | i :: rest =>
    match i, s.all fun t' => t'.held.all fun m => i != lock m with
    | lock _, false => none
    | _, _ => some { t with rest := rest, held := holdsAfter t.held i }

inductive Event
  | start (vm : Nat) (op : Op) (path : Nat)
  | next (i : Nat)
  /-- the operation returns, at its end or before -/
  | ends (i : Nat)
  | giveUp (i : Nat)

def step (s : Slots Task) : Event → Option (Slots Task)
  | .start vm op path => op.paths[path]?.map fun rest => s.add ⟨vm, op, rest, []⟩
  | .next i => (s.get i).bind fun t => (t.next s).map fun t' => s.put i (some t')
  | .ends i => (s.get i).map fun _ => s.put i none
  | .giveUp i => (s.get i).map fun t => if t.op.detached then s else s.put i none

/-- `t` waits for a mutex that `t'` holds, which waits for another host. -/
def Blocked (m : Mutex) (t t' : Task) : Prop :=
  t.rest.head? = some (lock m) ∧ m ∈ t'.held ∧ t'.rest.head? = some remote

instance (m : Mutex) (t t' : Task) : Decidable (Blocked m t t') := inferInstanceAs (Decidable (_ ∧ _))

/-- A task is somewhere on one of its paths, with the guards it has taken there. -/
def OnPath (t : Task) : Prop :=
  ∃ path ∈ t.op.paths, ∃ k, t.rest = path.drop k ∧ t.held = (path.take k).foldl holdsAfter []

variable {s : Slots Task} {t : Task}

theorem OnPath.next {t' : Task} (h : OnPath t) (hs : t.next s = some t') : OnPath t' := by
  obtain ⟨path, hpath, k, hrest, hheld⟩ := h
  unfold Task.next at hs
  split at hs
  · cases hs
  · next i rest hcons =>
    have hi : path[k]? = some i := by
      rw [← List.head?_drop, ← hrest, hcons]
      rfl
    split at hs
    · cases hs
    cases hs
    refine ⟨path, hpath, k + 1, ?_, ?_⟩
    · rw [← tail_drop, ← hrest, hcons]
      rfl
    · rw [take_add_one, hi, foldl_append, ← hheld]
      rfl

theorem onPath_step {s' : Slots Task} {e : Event} (h : s.All OnPath) (hs : step s e = some s') :
    s'.All OnPath := by
  cases e with
  | start vm op path =>
    obtain ⟨rest, hrest, rfl⟩ := map_eq_some_iff.mp hs
    exact h.add ⟨rest, mem_of_getElem? hrest, 0, rfl, rfl⟩
  | next i =>
    obtain ⟨t, hi, hs⟩ := bind_eq_some_iff.mp hs
    obtain ⟨t', hnext, rfl⟩ := map_eq_some_iff.mp hs
    refine h.put hi ?_
    rintro _ ⟨⟩
    exact (h i t hi).next hnext
  | ends i =>
    obtain ⟨t, hi, rfl⟩ := map_eq_some_iff.mp hs
    exact h.put hi nofun
  | giveUp i =>
    obtain ⟨t, hi, rfl⟩ := map_eq_some_iff.mp hs
    split
    · exact h
    · exact h.put hi nofun

theorem OnPath.at {i : Instr} (h : OnPath t) (hi : t.rest.head? = some i) :
    ∃ path ∈ t.op.paths, ∃ k < path.length, path[k]? = some i ∧
      t.held = (path.take k).foldl holdsAfter [] := by
  obtain ⟨path, hpath, k, hrest, hheld⟩ := h
  rw [hrest, List.head?_drop] at hi
  exact ⟨path, hpath, k, (List.getElem?_eq_some_iff.mp hi).1, hi, hheld⟩

theorem OnPath.holds {m : Mutex} (h : OnPath t) (hm : m ∈ t.held)
    (hwait : t.rest.head? = some remote) :
    (t.op = .sendMigration ∧ m = vms) ∨ (t.op = .finalizeReceive ∧ m = pending) := by
  obtain ⟨path, hpath, k, hk, hi, hheld⟩ := h.at hwait
  rw [hheld] at hm
  have hall : ∀ path ∈ t.op.paths, ∀ k < path.length, path[k]? = some remote →
      ∀ m ∈ (path.take k).foldl holdsAfter [],
        (t.op = .sendMigration ∧ m = vms) ∨ (t.op = .finalizeReceive ∧ m = pending) := by
    cases t.op <;> decide
  exact hall path hpath k hk hi m hm

theorem OnPath.wants (h : OnPath t) (hwait : t.rest.head? = some (lock pending)) :
    t.op ≠ .ensure ∧ t.op ≠ .sendMigration := by
  obtain ⟨path, hpath, k, hk, hi, -⟩ := h.at hwait
  have hall : ∀ path ∈ t.op.paths, ∀ k < path.length, path[k]? = some (lock pending) →
      t.op ≠ .ensure ∧ t.op ≠ .sendMigration := by
    cases t.op <;> decide
  exact hall path hpath k hk hi

/-- **Who is in the way of another VM.**  An operation waits for a mutex whose holder waits for
another host only if the holder is a `send_migration`, with `vms`, or a `finalize_receive`, with
`pending`. -/
theorem blocked_behind {s : Slots Task} (h : Reach step anyStep (fun s => s = .empty) s) {i j : Nat}
    {t t' : Task} (hi : s.get i = some t) (hj : s.get j = some t') {m : Mutex}
    (hb : Blocked m t t') : (t'.op = .sendMigration ∧ m = vms) ∨
      (t'.op = .finalizeReceive ∧ m = pending ∧ t.op ≠ .ensure ∧ t.op ≠ .sendMigration) := by
  have hall : s.All OnPath := by
    refine h.invariant ?_ fun _ _ _ hs _ hstep => onPath_step hs hstep
    rintro _ rfl i t ⟨⟩
  obtain ⟨hwants, hholds, hwaits⟩ := hb
  rcases (hall j t' hj).holds hholds hwaits with hsend | ⟨hop, rfl⟩
  · exact .inl hsend
  · exact .inr ⟨hop, rfl, (hall i t hi).wants hwants⟩

/-- The caller of a `finalize_receive` gives up, and another VM is to be deleted. -/
def stuckReceive : Slots Task :=
  final step .empty [.start 1 .finalizeReceive 1, .next 0, .next 0, .next 0, .giveUp 0,
    .start 0 .delete 0]

def receiving : Task := ⟨1, .finalizeReceive, [remote, lock vms, work], [pending]⟩

def deleting : Task := ⟨0, .delete, teardown, []⟩

theorem stuckReceive_reach : Reach step anyStep (fun s => s = .empty) stuckReceive :=
  Reach.final_anyStep rfl (by decide)

theorem stuckReceive_behind : Blocked pending deleting receiving ∧
    ((receiving.op = .sendMigration ∧ pending = vms) ∨ (receiving.op = .finalizeReceive ∧
      pending = pending ∧ deleting.op ≠ .ensure ∧ deleting.op ≠ .sendMigration)) := by
  have hdeleting : stuckReceive.get 1 = some deleting := rfl
  have hreceiving : stuckReceive.get 0 = some receiving := rfl
  have hb : Blocked pending deleting receiving := by decide
  exact ⟨hb, blocked_behind stuckReceive_reach hdeleting hreceiving hb⟩

/-- An operation on one VM is in the way of one on another. -/
def InTheWay (m : Mutex) (s : Slots Task) : Prop :=
  ∃ i j t t', s.get i = some t ∧ s.get j = some t' ∧ t.vm ≠ t'.vm ∧ Blocked m t t'

/-- A VM is to be brought up while another one is sent. -/
def stuckEnsure : Slots Task :=
  final step .empty [.start 1 .sendMigration 0, .next 0, .start 0 .ensure 0, .next 1]

/-- **VMs block each other.**  The delete of a VM waits for a guest that another VM is to receive, and
an `ensure` for one that another VM sends. -/
theorem vms_blocked :
    (Reach step anyStep (fun s => s = .empty) stuckReceive ∧ InTheWay pending stuckReceive) ∧
      Reach step anyStep (fun s => s = .empty) stuckEnsure ∧ InTheWay vms stuckEnsure := by
  have hensure : Reach step anyStep (fun s => s = .empty) stuckEnsure :=
    Reach.final_anyStep rfl (by decide)
  refine ⟨⟨stuckReceive_reach, 1, 0, deleting, receiving, rfl, rfl, by decide, by decide⟩, hensure, 1, 0,
    ⟨0, .ensure, [lock vms, work], []⟩, ⟨1, .sendMigration, [remote], [vms]⟩, rfl, rfl, ?_, ?_⟩
  · decide
  · decide

end VQuasar.Vmm.Locks
