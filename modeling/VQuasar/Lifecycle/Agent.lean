import Mathlib.Logic.Basic

/-!
# The host agent's VM manager, for one VM id

`AgentVm` is what one host holds for one VM id: the entry of the manager's `vms`
table, the entry of its `pending` table, and the VMM processes no table refers to.
The last component is real: a `ChProcess` is spawned with `kill_on_drop(false)`, so
dropping a handle (an entry taken out of `pending`, a launch whose API socket never
came up) leaves its process alive.

The functions below are the manager's RPC handlers (`services/agent/src/manager.rs`).
A handler that cannot get past the `pending` lock, because a detached
`finalize_receive` is waiting inside it, is `none`.  Which backend call fails is an
argument (`EnsureFaults`, `ReceiveFaults`), so a statement about all arguments is a
statement about every failure.

Cloud Hypervisor itself is `VmmState` with `create`, `boot` and `terminate` as the
client drives them; `VmmState.running` is the only state in which guest
instructions execute.
-/

namespace VQuasar.Lifecycle

open List Option Bool

variable {a a' : AgentVm} {r : Except AgentError Unit} {u : Url}

/-- Host ids are UUIDs; only their equality matters. -/
abbrev HostId := Nat

/-- The lifecycle phase column of `virtual_machines`. -/
inductive Phase
  | pending | scheduling | creating | stopped | starting | running | stopping | migrating
  | failed | deleting
deriving DecidableEq, Repr

inductive Power
  | running | stopped
deriving DecidableEq, Repr

/-- A migration URL names the host that advertises it and one receiver on it. -/
structure Url where
  host : HostId
  serial : Nat
deriving DecidableEq, Repr

/-! ## The VMM process -/

/-- `noVm`: the process answers but holds no VM; `exited`: the process is gone. -/
inductive VmmState
  | noVm | created | running | shutdown | exited
deriving DecidableEq, Repr

inductive AgentError
  | invalid | storage | network | hypervisor | notFound
deriving DecidableEq, Repr

/-- `vm.info` answers exactly when the VMM holds a VM. -/
def VmmState.info : VmmState → Bool
  | .created | .running | .shutdown => true
  | .noVm | .exited => false

/-- `create` is skipped when a VM exists, and fails when the process is gone. -/
def VmmState.create : VmmState → Except AgentError VmmState
  | .noVm => .ok .created
  | .exited => .error .hypervisor
  | v => .ok v

/-- `boot` is skipped on a running VM. -/
def VmmState.boot : VmmState → Except AgentError VmmState
  | .created | .running | .shutdown => .ok .running
  | .noVm | .exited => .error .hypervisor

/-- `observe`: the phase the agent reports for a managed VMM. -/
def VmmState.observe : VmmState → Phase
  | .created | .shutdown => .stopped
  | .running => .running
  | .noVm | .exited => .failed

def VmmState.alive (v : VmmState) : Bool := v != .exited

/-! ## The tables -/

/-- The background `receive_migration` call of a prepared receiver. -/
inductive Recv
  | waiting | done | failed
deriving DecidableEq, Repr

/-- An entry of `pending`.  `finalizing`: a detached `finalize_receive` awaits `recv` and
holds the `pending` lock. -/
structure PendingReceive where
  vmm : VmmState
  recv : Recv
  returnUrl : Url
  finalizing : Bool
deriving DecidableEq, Repr

/-- A VMM process no table entry refers to, with the URL it still receives on, if any. -/
structure Stray where
  vmm : VmmState
  waitsOn : Option Url
deriving DecidableEq, Repr

structure AgentVm where
  managed : Option VmmState
  pending : Option PendingReceive
  strays : List Stray
deriving DecidableEq, Repr

def AgentVm.empty : AgentVm := ⟨none, none, []⟩

/-- Whether a process outside the `vms` table executes the guest. -/
def AgentVm.loose (a : AgentVm) : Bool :=
  a.pending.any (fun p => p.vmm == .running) || a.strays.any fun t => t.vmm == .running

def AgentVm.strayRuns (a : AgentVm) : Bool := a.strays.any fun t => t.vmm == .running

/-- Whether a process no table refers to still receives on `u`. -/
def AgentVm.strayWaits (a : AgentVm) (u : Url) : Bool := a.strays.any fun t => t.waitsOn == some u

def AgentVm.executing (a : AgentVm) : Bool := a.managed == some .running || a.loose

/-- Whether a VMM process or a prepared receiver is alive on this host. -/
def AgentVm.anyAlive (a : AgentVm) : Bool :=
  a.managed.any VmmState.alive || a.pending.any (fun p => p.vmm.alive) ||
    a.strays.any (fun t => t.vmm.alive)

/-- The process of a dropped `pending` entry lives on. -/
def PendingReceive.drop (p : PendingReceive) : Stray :=
  ⟨p.vmm, if p.recv = .waiting then some p.returnUrl else none⟩

/-- Take the entry out of `pending`; its handle is dropped. -/
def AgentVm.dropPending (a : AgentVm) : AgentVm :=
  match a.pending with
  | some p => { a with pending := none, strays := p.drop :: a.strays }
  | none => a

/-- A launched process whose handle was dropped before it held a VM. -/
def AgentVm.leaveProcess (a : AgentVm) : AgentVm :=
  { a with strays := ⟨.noVm, none⟩ :: a.strays }

/-- Whether the `pending` lock is held by a detached `finalize_receive`. -/
def AgentVm.locked (a : AgentVm) : Bool := a.pending.any (·.finalizing)

/-! ## Handlers -/

/-- `backend.launch`: `notReady` is a spawned process whose API socket did not come up. -/
inductive Launch
  | ok | notSpawned | notReady
deriving DecidableEq, Repr

/-- `vm.boot`: `lost` takes effect but its answer does not arrive. -/
inductive Boot
  | ok | refused | lost
deriving DecidableEq, Repr

/-- Which step of `ensure` fails; `prepare` also covers the validation and the record, and
`reprepare` is the second `storage.prepare` of a power-off. -/
structure EnsureFaults where
  prepare : Bool
  network : Bool
  launch : Launch
  create : Bool
  reconfigure : Bool
  boot : Boot
  reprepare : Bool
deriving DecidableEq, Repr

def EnsureFaults.none : EnsureFaults := ⟨false, false, .ok, false, false, .ok, false⟩

/-- Boot the managed VMM `v`; skipped when it runs.  A VMM that will not boot and never ran is
taken out of `vms` and terminated. -/
def AgentVm.bootManaged (f : EnsureFaults) (a : AgentVm) (v : VmmState) :
    AgentVm × Except AgentError Phase :=
  if v = .running then ({ a with managed := some v }, .ok v.observe)
  else
    match f.boot, v.boot with
    | .ok, .ok v' => ({ a with managed := some v' }, .ok v'.observe)
    | .lost, .ok v' => ({ a with managed := some v' }, .error .hypervisor)
    | _, _ =>
      if v = .created then ({ a with managed := none }, .error .hypervisor)
      else ({ a with managed := some v }, .error .hypervisor)

/-- `create`, then (on a VMM that was already there) `reconfigure`, then `boot`. -/
def AgentVm.createAndBoot (f : EnsureFaults) (isNew : Bool) (a : AgentVm) (v : VmmState) :
    AgentVm × Except AgentError Phase :=
  match if f.create && !v.info then .error AgentError.hypervisor else v.create with
  | .error e => ({ a with managed := some v }, .error e)
  | .ok v' =>
    if f.reconfigure && !isNew then ({ a with managed := some v' }, .error .hypervisor)
    else a.bootManaged f v'

/-- `ensure`: drive the VM to its desired power state. -/
def AgentVm.ensure (f : EnsureFaults) (desired : Power) (a : AgentVm) :
    AgentVm × Except AgentError Phase :=
  if f.prepare then (a, .error .storage)
  else
    match desired with
    | .stopped =>
      ({ a with managed := none }, if f.reprepare then .error .storage else .ok .stopped)
    | .running =>
      if f.network then (a, .error .network)
      else
        match a.managed with
        | some v => a.createAndBoot f false v
        | none =>
          match f.launch with
          | .ok => a.createAndBoot f true .noVm
          | .notSpawned => (a, .error .hypervisor)
          | .notReady => (a.leaveProcess, .error .hypervisor)

/-- The part of `teardown` after the `pending` entry is gone: the VMM is shut down and
terminated. -/
def AgentVm.terminateManaged (a : AgentVm) : AgentVm × Except AgentError Unit :=
  match a.managed with
  | some _ => ({ a with managed := none }, .ok ())
  | none => (a, .error .notFound)

/-- `delete`, that is `teardown` with `Shared::Reclaim`. -/
def AgentVm.delete (a : AgentVm) : Option (AgentVm × Except AgentError Unit) :=
  if a.locked then none else some a.dropPending.terminateManaged

/-- `discard`: a receiver alone is dropped and reported as success. -/
def AgentVm.discard (a : AgentVm) : Option (AgentVm × Except AgentError Unit) :=
  if a.locked then none
  else if a.pending.isSome && a.managed.isNone then some (a.dropPending, .ok ())
  else some a.dropPending.terminateManaged

/-- Which step of `prepare_receive` fails; the port is picked after the launch. -/
inductive ReceiveFaults
  | none | record | launch (l : Launch) | noPort
deriving DecidableEq, Repr

/-- `prepare_receive`: at most one receiver per VM id; `serial` is the port picked for a new
one on `host`, which must be free. -/
def AgentVm.prepareReceive (f : ReceiveFaults) (host : HostId) (serial : Nat) (a : AgentVm) :
    Option (AgentVm × Except AgentError Url) :=
  match a.pending with
  | some p => if p.finalizing then none else some (a, .ok p.returnUrl)
  | none =>
    match f with
    | .record => some (a, .error .storage)
    | .launch .notSpawned => some (a, .error .hypervisor)
    | .launch .notReady | .noPort => some (a.leaveProcess, .error .hypervisor)
    | .none | .launch .ok =>
      if a.strayWaits ⟨host, serial⟩ then none
      else some ({ a with pending := some ⟨.noVm, .waiting, ⟨host, serial⟩, false⟩ },
        .ok ⟨host, serial⟩)

/-- `finalize_receive`: a managed VM is already adopted; otherwise the receiver is, once its `recv`
is done. While `recv` waits there is no answer and the detached task keeps the lock. -/
def AgentVm.finalizeReceive (a : AgentVm) : Option (AgentVm × Except AgentError Phase) :=
  if a.locked then none
  else
    match a.managed with
    | some v => some (a, .ok v.observe)
    | none =>
      match a.pending with
      | none => some (a, .error .notFound)
      | some p =>
        match p.recv with
        | .done => some ({ a with managed := some p.vmm, pending := none }, .ok p.vmm.observe)
        | .failed => some (a, .error .hypervisor)
        | .waiting => some ({ a with pending := some { p with finalizing := true } },
            .error .hypervisor)

/-! ## Transfer of the guest -/

/-- The guest arrives at the process of this host that receives on `u`.  A detached
`finalize_receive` that waits for it adopts it at once; the entry it replaces in `vms`, if any,
is dropped. -/
def AgentVm.receive (u : Url) (a : AgentVm) : Option AgentVm :=
  match a.pending.filter fun p => p.recv == .waiting && p.returnUrl == u && p.vmm == .noVm with
  | some p =>
    if p.finalizing then
      some { managed := some .running, pending := none,
             strays := (a.managed.map fun v => (⟨v, none⟩ : Stray)).toList ++ a.strays }
    else some { a with pending := some { p with vmm := .running, recv := .done } }
  | none =>
    if (⟨.noVm, some u⟩ : Stray) ∈ a.strays then
      some { a with strays := ⟨.running, none⟩ :: a.strays.erase ⟨.noVm, some u⟩ }
    else none

/-- The source side of a completed `send_migration`: its VMM stops executing the guest and is
left as `husk`. -/
def AgentVm.sent (husk : VmmState) (a : AgentVm) : AgentVm := { a with managed := some husk }

/-- What stops on its own: the guest of the managed VMM powers off, or a VMM process dies. -/
inductive Victim
  | guest | managed | pending | stray (i : Nat)
deriving DecidableEq, Repr

def AgentVm.vmmExit (a : AgentVm) : Victim → AgentVm
  | .guest => { a with managed := a.managed.map fun v => if v = .running then .shutdown else v }
  | .managed => { a with managed := a.managed.map fun _ => .exited }
  | .pending => { a with pending := a.pending.map fun p =>
      { p with vmm := .exited, finalizing := false,
               recv := if p.recv = .waiting then .failed else p.recv } }
  | .stray i => { a with strays := a.strays.eraseIdx i }

/-! ## Lemmas -/

open AgentVm

theorem AgentVm.executing_iff (a : AgentVm) :
    a.executing ↔ a.managed = some .running ∨ a.loose := by
  simp [executing]

theorem AgentVm.loose_iff (a : AgentVm) : a.loose ↔
      (∃ p, a.pending = some p ∧ p.vmm = .running) ∨ a.strayRuns := by
  cases hp : a.pending <;> simp [loose, strayRuns, hp]

theorem AgentVm.executing_of_loose (h : a.loose) : a.executing :=
  a.executing_iff.mpr (.inr h)

/-- What every handler but `ensure` and the transfer itself keeps: no process starts executing
and no stray starts receiving, except that a dropped receiver becomes a stray. -/
structure AgentVm.Fades (a a' : AgentVm) : Prop where
  managed : a'.managed = some .running → a.managed = some .running
  loose : a'.loose → a.loose

theorem AgentVm.Fades.executing (h : a.Fades a') (he : a'.executing) : a.executing :=
    by
  rcases a'.executing_iff.mp he with hm | hl
  · exact a.executing_iff.mpr (.inl (h.managed hm))
  · exact a.executing_iff.mpr (.inr (h.loose hl))

theorem AgentVm.leaveProcess_loose (a : AgentVm) : a.leaveProcess.loose = a.loose := by
  have hne : (VmmState.noVm == VmmState.running) = false := rfl
  simp [leaveProcess, loose, hne]

theorem AgentVm.leaveProcess_strayRuns (a : AgentVm) : a.leaveProcess.strayRuns = a.strayRuns := by
  simp [leaveProcess, strayRuns]

theorem AgentVm.leaveProcess_strayWaits (a : AgentVm) (u : Url) :
    a.leaveProcess.strayWaits u = a.strayWaits u := by
  simp [leaveProcess, strayWaits]

theorem AgentVm.dropPending_loose (a : AgentVm) : a.dropPending.loose = a.loose := by
  unfold dropPending
  cases hp : a.pending with
  | none => rfl
  | some p => simp [loose, hp, PendingReceive.drop]

theorem AgentVm.dropPending_managed (a : AgentVm) : a.dropPending.managed = a.managed := by
  unfold dropPending
  cases a.pending <;> rfl

theorem AgentVm.dropPending_pending (a : AgentVm) : a.dropPending.pending = none := by
  unfold dropPending
  cases hp : a.pending with
  | none => exact hp
  | some p => rfl

theorem AgentVm.terminateManaged_eq (a : AgentVm) :
    a.terminateManaged.1 = { a with managed := none } := by
  unfold terminateManaged
  cases hm : a.managed with
  | some v => rfl
  | none => cases a; cases hm; rfl

theorem AgentVm.delete_eq
    (h : a.delete = some (a', r)) : a' = { a.dropPending with managed := none } := by
  unfold delete at h
  split at h
  · simp at h
  · simp only [some.injEq] at h
    rw [← a.dropPending.terminateManaged_eq, h]

theorem AgentVm.discard_eq
    (h : a.discard = some (a', r)) : a' = { a.dropPending with managed := none } := by
  unfold discard at h
  split at h
  · simp at h
  split at h
  · next hc =>
    simp only [and_eq_true, isNone_iff_eq_none] at hc
    simp only [some.injEq, Prod.mk.injEq] at h
    rw [← h.1, ← a.dropPending_managed.trans hc.2]
  · simp only [some.injEq] at h
    rw [← a.dropPending.terminateManaged_eq, h]

/-! `ensure` touches nothing but the `vms` entry, apart from a process whose launch failed. -/

theorem AgentVm.bootManaged_frame (f : EnsureFaults) (a : AgentVm) (v : VmmState) :
    (a.bootManaged f v).1.pending = a.pending ∧ (a.bootManaged f v).1.strays = a.strays := by
  unfold bootManaged
  split
  · exact ⟨rfl, rfl⟩
  · split
    · exact ⟨rfl, rfl⟩
    · exact ⟨rfl, rfl⟩
    · split <;> exact ⟨rfl, rfl⟩

theorem AgentVm.createAndBoot_frame (f : EnsureFaults) (n : Bool) (a : AgentVm) (v : VmmState) :
    (a.createAndBoot f n v).1.pending = a.pending ∧
      (a.createAndBoot f n v).1.strays = a.strays := by
  unfold createAndBoot
  split
  · exact ⟨rfl, rfl⟩
  · split
    · exact ⟨rfl, rfl⟩
    · exact a.bootManaged_frame f _

theorem AgentVm.ensure_frame (f : EnsureFaults) (d : Power) (a : AgentVm) :
    (a.ensure f d).1.pending = a.pending ∧ (a.ensure f d).1.loose = a.loose ∧
      (a.ensure f d).1.strayRuns = a.strayRuns ∧
      ∀ u, (a.ensure f d).1.strayWaits u = a.strayWaits u := by
  have hsame : ∀ a' : AgentVm, a'.pending = a.pending → a'.strays = a.strays →
      a'.pending = a.pending ∧ a'.loose = a.loose ∧ a'.strayRuns = a.strayRuns ∧
        ∀ u, a'.strayWaits u = a.strayWaits u := by
    intro a' hp hs
    refine ⟨hp, ?_, ?_, ?_⟩ <;> simp [loose, strayRuns, strayWaits, hp, hs]
  unfold ensure
  split
  · exact hsame a rfl rfl
  split
  · exact hsame _ rfl rfl
  split
  · exact hsame a rfl rfl
  split
  · next v _ =>
    obtain ⟨hp, hs⟩ := a.createAndBoot_frame f false v
    exact hsame _ hp hs
  · split
    · obtain ⟨hp, hs⟩ := a.createAndBoot_frame f true .noVm
      exact hsame _ hp hs
    · exact hsame a rfl rfl
    · exact ⟨rfl, a.leaveProcess_loose, a.leaveProcess_strayRuns, a.leaveProcess_strayWaits⟩

/-- `prepare_receive` leaves `vms` alone and executes nothing; a URL it returns is this host's
and is received on by no stray. -/
theorem AgentVm.prepareReceive_spec {f : ReceiveFaults} {h : HostId} {n : Nat} {r : Except
    AgentError Url} (hp : a.prepareReceive f h n = some (a', r)) : a'.managed = a.managed ∧ a'.loose
    = a.loose ∧ a'.strayRuns = a.strayRuns ∧ (∀ u, a'.strayWaits u = a.strayWaits u) ∧ (a'.pending =
    a.pending ∨ ∃ p, a'.pending = some p ∧ p.returnUrl = ⟨h, n⟩ ∧ a.strayWaits ⟨h, n⟩ = false) ∧ (∀
    u, r = .ok u → ∃ p, a'.pending = some p ∧ p.returnUrl = u) := by
  unfold prepareReceive at hp
  split at hp
  · next p hpend =>
    split at hp
    · simp at hp
    · cases hp
      exact ⟨rfl, rfl, rfl, fun _ => rfl, .inl rfl, fun u hu => ⟨p, hpend, by simpa using hu⟩⟩
  · next hpend =>
    have hl : a.loose = a.strayRuns := by simp [loose, strayRuns, hpend]
    split at hp
    · cases hp
      exact ⟨rfl, rfl, rfl, fun _ => rfl, .inl rfl, fun u hu => by simp at hu⟩
    · cases hp
      exact ⟨rfl, rfl, rfl, fun _ => rfl, .inl rfl, fun u hu => by simp at hu⟩
    · cases hp
      exact ⟨rfl, a.leaveProcess_loose, a.leaveProcess_strayRuns, a.leaveProcess_strayWaits,
        .inl rfl, fun u hu => by simp at hu⟩
    · cases hp
      exact ⟨rfl, a.leaveProcess_loose, a.leaveProcess_strayRuns, a.leaveProcess_strayWaits,
        .inl rfl, fun u hu => by simp at hu⟩
    all_goals
      split at hp
      · simp at hp
      · next hfree =>
        cases hp
        refine ⟨rfl, ?_, rfl, fun _ => rfl, .inr ⟨_, rfl, rfl, by simpa using hfree⟩, ?_⟩
        · rw [hl]; simp [loose, strayRuns]
        · intro u hu
          simp only [Except.ok.injEq] at hu
          exact ⟨_, rfl, hu⟩

theorem AgentVm.finalizeReceive_spec {r : Except AgentError Phase}
    (hf : a.finalizeReceive = some (a', r)) : (a' = a ∧ ((∃ p, r = .ok p) → a.managed.isSome)) ∨
    (∃ p, a.managed = none ∧ a.pending = some p ∧
      a' = { a with managed := some p.vmm, pending := none }) ∨
    (∃ p e, a.managed = none ∧ a.pending = some p ∧ p.recv = .waiting ∧ r = .error e ∧
      a' = { a with pending := some { p with finalizing := true } }) := by
  unfold finalizeReceive at hf
  split at hf
  · simp at hf
  split at hf
  · next v hv =>
    simp only [some.injEq, Prod.mk.injEq] at hf
    exact .inl ⟨hf.1.symm, fun _ => by simp [hv]⟩
  · next hm =>
    split at hf
    · cases hf
      exact .inl ⟨rfl, fun ⟨p, hp⟩ => by simp at hp⟩
    · next p hp =>
      split at hf
      · simp only [some.injEq, Prod.mk.injEq] at hf
        exact .inr (.inl ⟨p, hm, hp, hf.1.symm⟩)
      · cases hf
        exact .inl ⟨rfl, fun ⟨q, hq⟩ => by simp at hq⟩
      · next hw =>
        simp only [some.injEq, Prod.mk.injEq] at hf
        exact .inr (.inr ⟨p, _, hm, hp, hw, hf.2.symm, hf.1.symm⟩)

/-- The guest arrives in the `pending` receiver, is adopted at once, or lands in a stray. -/
theorem AgentVm.receive_spec (h : a.receive u = some a') :
    (∃ p, a.pending = some p ∧ p.returnUrl = u ∧
      a' = { a with pending := some { p with vmm := .running, recv := .done } }) ∨
    (∃ p, a.pending = some p ∧ p.returnUrl = u ∧ p.finalizing ∧
      a' = { managed := some .running, pending := none,
             strays := (a.managed.map fun v => (⟨v, none⟩ : Stray)).toList ++ a.strays }) ∨
    a.strayWaits u = true := by
  unfold receive at h
  split at h
  · next p hp =>
    obtain ⟨hpend, hcond⟩ := filter_eq_some_iff.mp hp
    simp only [and_eq_true, beq_iff_eq] at hcond
    split at h
    · next hfin => exact .inr (.inl ⟨p, hpend, hcond.1.2, hfin, (some.inj h).symm⟩)
    · exact .inl ⟨p, hpend, hcond.1.2, (some.inj h).symm⟩
  · split at h
    · next hmem =>
      refine .inr (.inr ?_)
      simp only [strayWaits, List.any_eq_true, beq_iff_eq]
      exact ⟨_, hmem, rfl⟩
    · simp at h

/-- The guest arriving on a host that has no `vms` entry, no executing stray and no stray on the
URL: it is adopted, or it is the receiver's and stays out of `vms`. -/
theorem AgentVm.receive_free (h : a.receive u = some a') (hm : a.managed = none) (hr :
    a.strayRuns = false) (hw : a.strayWaits u = false) : a'.strays = a.strays ∧ (∀ p', a'.pending =
    some p' → ∃ p, a.pending = some p ∧ p.returnUrl = p'.returnUrl) ∧ (a'.loose → a'.managed
    = none) := by
  rcases receive_spec h with ⟨p, hp, -, rfl⟩ | ⟨p, hp, -, -, rfl⟩ | hc
  · refine ⟨rfl, ?_, fun _ => hm⟩
    rintro q ⟨⟩
    exact ⟨p, hp, rfl⟩
  · rw [hm]
    refine ⟨rfl, by rintro q ⟨⟩, ?_⟩
    intro hl
    rcases (loose_iff _).mp hl with ⟨q, hq, -⟩ | hsr
    · cases hq
    · have hsr' : a.strayRuns := hsr
      simp [hr] at hsr'
  · simp [hw] at hc

theorem AgentVm.vmmExit_spec (a : AgentVm) (v : Victim) :
    a.Fades (a.vmmExit v) ∧ (a.vmmExit v).managed.isSome = a.managed.isSome ∧
      (∀ u, (a.vmmExit v).strayWaits u → a.strayWaits u) ∧ ((a.vmmExit v).strayRuns → a.strayRuns) ∧
      (∀ p', (a.vmmExit v).pending = some p' →
        ∃ p, a.pending = some p ∧ p.returnUrl = p'.returnUrl) := by
  cases v with
  | guest =>
    refine ⟨⟨?_, fun h => h⟩, ?_, fun _ h => h, fun h => h, fun p' h => ⟨p', h, rfl⟩⟩
    · cases hm : a.managed with
      | none => simp [vmmExit, hm]
      | some w => cases w <;> simp [vmmExit, hm]
    · cases hm : a.managed <;> simp [vmmExit, hm]
  | managed =>
    refine ⟨⟨?_, fun h => h⟩, ?_, fun _ h => h, fun h => h, fun p' h => ⟨p', h, rfl⟩⟩
    · cases hm : a.managed <;> simp [vmmExit, hm]
    · cases hm : a.managed <;> simp [vmmExit, hm]
  | pending =>
    refine ⟨⟨fun h => h, ?_⟩, rfl, fun _ h => h, fun h => h, ?_⟩
    · intro h
      rw [loose_iff] at h ⊢
      rcases h with ⟨p, hp, hr⟩ | h
      · simp only [vmmExit, map_eq_some_iff] at hp
        obtain ⟨q, -, rfl⟩ := hp
        simp at hr
      · exact .inr h
    · intro p' hp'
      cases hp : a.pending with
      | none => simp [vmmExit, hp] at hp'
      | some p =>
        simp only [vmmExit, hp, map_some, some.injEq] at hp'
        exact ⟨p, rfl, by rw [← hp']⟩
  | stray i =>
    have hsub : ∀ q : Stray → Bool, (a.strays.eraseIdx i).any q → a.strays.any q := by
      intro q h
      simp only [List.any_eq_true] at h ⊢
      obtain ⟨t, ht, hq⟩ := h
      exact ⟨t, mem_of_mem_eraseIdx ht, hq⟩
    refine ⟨⟨fun h => h, ?_⟩, rfl, fun u h => hsub _ h, fun h => hsub _ h, fun p' h => ⟨p', h, rfl⟩⟩
    intro h
    simp only [vmmExit, loose, or_eq_true] at h ⊢
    exact h.imp id (hsub _)

end VQuasar.Lifecycle
