import VQuasar.Lib.Futures
import VQuasar.Lib.Runs
import VQuasar.Lifecycle.Agent

/-!
# The VM manager, await by await

`services/agent/src/manager.rs` for one VM id, with the Cloud Hypervisor processes of that id by
their pids.  Where `Lifecycle.Agent` takes a handler as one step, here it is a future: every call to
the backend has its own fate, and a handler that is not detached may be dropped at any of its awaits.

A process outlives its handle (`kill_on_drop(false)`), so a handle that is dropped, on an error, with a
future or with an entry of a table, leaves its process alive.  The API of a VMM is reached through the
socket in the directory of the id: a process that is launched takes the socket over, the socket goes
with the directory, and a handle that was attached after a restart knows no more than the socket.

`launches` is not in the source: it records which handler launched which process.
-/

namespace VQuasar.Vmm

open Futures List Option
open Lifecycle (Power Phase)

abbrev Pid := Nat

/-- `HypervisorState` -/
inductive VmState
  | created | running | paused | shutdown
deriving DecidableEq, Repr

/-- A live process, with the state of the VM it holds, if it holds one. -/
structure Process where
  pid : Pid
  vm : Option VmState
deriving DecidableEq, Repr

/-- A `ManagedVmm`; `owned` if the agent launched the process and has not been restarted since. -/
structure Handle where
  pid : Pid
  owned : Bool
deriving DecidableEq, Repr

/-- The background `receive_migration`. -/
inductive Recv
  | waiting | done | failed
deriving DecidableEq, Repr

/-- An entry of `pending`; while `finalizing`, a detached `finalize_receive` waits for it and holds
the lock of the table. -/
structure PendingReceive where
  vmm : Handle
  recv : Recv
  returnUrl : Nat
  finalizing : Bool
deriving DecidableEq, Repr

/-- A receive that its process no longer answers. -/
def PendingReceive.lost (r : PendingReceive) : PendingReceive :=
  { r with recv := if r.recv = .waiting then .failed else r.recv, finalizing := false }

inductive Launcher
  | ensure | prepareReceive
deriving DecidableEq, Repr

structure Launch where
  launcher : Launcher
  pid : Pid
deriving DecidableEq, Repr

/-- What a host has for the id; `record` is the metadata on disk, and `launches` has the last one
first. -/
structure Host where
  processes : List Process
  socket : Option Pid
  record : Bool
  vms : Option Handle
  pending : Option PendingReceive
  nextPid : Pid
  launches : List Launch
deriving DecidableEq, Repr

namespace Host

def empty : Host := ⟨[], none, false, none, none, 0, []⟩

/-! ## Processes -/

def spawn (launcher : Launcher) (s : Host) : Host :=
  { s with
    processes := s.processes ++ [⟨s.nextPid, none⟩]
    socket := some s.nextPid
    nextPid := s.nextPid + 1
    launches := ⟨launcher, s.nextPid⟩ :: s.launches }

variable (vmm : Handle) (s : Host)

def setVm (pid : Pid) (f : Option VmState → Option VmState) : Host :=
  { s with processes := s.processes.map fun p => if p.pid = pid then { p with vm := f p.vm } else p }

def api (f : Option VmState → Option VmState) (s : Host) : Host :=
  match s.socket with
  | some pid => s.setVm pid f
  | none => s

def apiProcess : Option Process :=
  s.socket.bind fun pid => s.processes.find? fun p => p.pid == pid

/-- The VM of the process behind the socket, as `vm.info` has it. -/
def apiVm : Option VmState := s.apiProcess.bind Process.vm

def exit (pid : Pid) (s : Host) : Host :=
  { s with
    processes := s.processes.filter fun p => p.pid != pid
    pending := s.pending.map fun r => if r.vmm.pid = pid then r.lost else r }

/-- `vmm.shutdown`, for whatever is behind the socket -/
def vmmShutdown : Host :=
  match s.socket with
  | some pid => s.exit pid
  | none => s

/-- `terminate`: ask over the socket, then kill the child if there is one. -/
def terminate : Host :=
  if vmm.owned then s.vmmShutdown.exit vmm.pid else s.vmmShutdown

/-! ## Tables and files -/

def storeRecord : Host := { s with record := true }

/-- The directory goes, with the record and the socket in it. -/
def removeVmDir : Host := { s with record := false, socket := none }

def manage : Host := { s with vms := some vmm }

def unmanage : Host := { s with vms := none }

def dropPending : Host := { s with pending := none }

/-- Start the background receive of a new process. -/
def receive (url : Nat) (s : Host) : Host :=
  { s with pending := some ⟨vmm, .waiting, url, false⟩ }

/-- The receiver becomes a managed VM; an entry it replaces is dropped. -/
def adopt (r : PendingReceive) (s : Host) : Host := { s with vms := some r.vmm, pending := none }

/-- A detached `finalize_receive` waits for the receive. -/
def awaitReceive : Host :=
  { s with pending := s.pending.map fun r => { r with finalizing := true } }

def locked : Bool := s.pending.any fun r => r.finalizing

end Host

/-! ## Handlers -/

/-- What the handlers wait for. -/
inductive Await
  /-- validation and `storage.prepare` -/
  | storage
  /-- `store_record` -/
  | record
  /-- the lock of a table -/
  | lock
  /-- `prepare` or `rehome` of the NICs -/
  | network
  | directory
  | spawn
  /-- `wait_ready` -/
  | socket
  | create | reconfigure | boot | info
  | observe
  | shutdown | terminate
  | release
  /-- the second `storage.prepare` of a power-off, and the sleep before it -/
  | offline
  | removeDir
  /-- the address a receiver listens on -/
  | port
  | send
  /-- `load_record` -/
  | load
  /-- `info` of a VMM found on disk -/
  | probe
deriving DecidableEq, Repr

abbrev Env := Await → Fate

def goodEnv : Env := fun _ => .good

section

variable (env : Env)

open Host

def reach (a : Await) (effect : Host → Host) : Future Host Unit := do
  if (← read apiProcess).isSome then call (env a) effect else call (env a).refused id

/-- `backend.launch`: the child is spawned without waiting, and then its socket is waited for. -/
def launch (launcher : Launcher) : Future Host Handle := do
  call (env .directory) id
  let pid ← read nextPid
  if (env .spawn).effect then do
    act (spawn launcher)
    call (env .socket) id
    pure ⟨pid, true⟩
  else fail

/-- `phase_of` -/
def VmState.phase : VmState → Phase
  | .created | .shutdown => .stopped
  | .running | .paused => .running

def observe : Future Host Phase := do
  let answer ← attempt (reach env .observe id)
  let vm ← read apiVm
  match answer, vm with
  | some _, some vm => pure vm.phase
  | _, _ => pure .failed

/-- A VMM that will not boot and never ran is discarded. -/
def reclaim : Future Host Unit := do
  let answer ← attempt (reach env .info id)
  let vm ← read apiVm
  let stale ← read vms
  match answer, vm, stale with
  | some _, some .created, some vmm => do
    act unmanage
    let _ ← attempt (call (env .terminate) (terminate vmm))
    let _ ← attempt (call (env .release) id)
  | _, _, _ => pure ()

/-- The end of a VMM that was taken out of `vms`. -/
def putDown (vmm : Handle) : Future Host Unit := do
  let _ ← attempt (reach env .shutdown (api fun vm => vm.map fun _ => .shutdown))
  call (env .terminate) (terminate vmm)

def closeVmm : Future Host Unit := do
  match ← read vms with
  | some vmm => do
    act unmanage
    putDown env vmm
  | none => pure ()

/-- `ensure` of a stopped VM -/
def powerOff : Future Host Phase := do
  closeVmm env
  call (env .offline) id
  pure .stopped

/-- The VMM of `ensure`: a new one is launched and recorded. -/
def ensureVmm (isNew : Bool) : Future Host Unit := do
  call (env .network) id
  if isNew then do
    let vmm ← launch env .ensure
    act (manage vmm)
  else pure ()

/-- `create`, `reconfigure` and `boot` of the VMM in `vms` -/
def bringUp (isNew : Bool) : Future Host Phase := do
  reach env .create (api fun vm => some (vm.getD .created))
  (if isNew then pure () else reach env .reconfigure id)
  match ← attempt (reach env .boot (api fun vm => vm.map fun _ => .running)) with
  | some _ => observe env
  | none => do
    reclaim env
    fail

def ensure (desired : Power) : Future Host Phase := do
  call (env .storage) id
  call (env .record) storeRecord
  call (env .lock) id
  match desired with
  | .stopped => powerOff env
  | .running => do
    let isNew ← read fun s => s.vms.isNone
    ensureVmm env isNew
    bringUp env isNew

/-- `teardown`; what `delete` does to the seed afterwards is left out. -/
def teardown : Future Host Unit := do
  act dropPending
  call (env .lock) id
  match ← read vms with
  | none => fail
  | some vmm => do
    act unmanage
    putDown env vmm
    let _ ← attempt (call (env .release) id)
    call (env .removeDir) removeVmDir

def delete : Future Host Unit := teardown env

def discard : Future Host Unit := do
  let hadReceiver ← read fun s => s.pending.isSome
  act dropPending
  call (env .lock) id
  let managed ← read fun s => s.vms.isSome
  if hadReceiver && !managed then pure () else teardown env

/-- `prepare_receive_inner`; `url` is the address that is picked for a new receiver. -/
def prepareReceive (url : Nat) : Future Host Nat := do
  match ← read pending with
  | some r => pure r.returnUrl
  | none => do
    call (env .record) storeRecord
    let vmm ← launch env .prepareReceive
    call (env .port) id
    act (receive vmm url)
    pure url

/-- `finalize_receive_inner`, until it has to wait for the receive: then there is no answer yet. -/
def finalizeReceive : Future Host (Option Phase) := do
  call (env .lock) id
  match ← read vms with
  | some _ => some <$> observe env
  | none =>
    match ← read pending with
    | none => fail
    | some r =>
      match r.recv with
      | .done => do
        act (adopt r)
        some <$> observe env
      | .failed => fail
      | .waiting => do
        act awaitReceive
        pure none

/-- What a completed `send_migration` leaves at its source. -/
inductive Husk
  | exited
  | left (vm : Option VmState)
deriving DecidableEq, Repr

def Husk.effect : Husk → Host → Host
  | .exited => vmmShutdown
  | .left vm => api fun _ => vm

def sendMigration (husk : Husk) : Future Host Unit := do
  match ← read vms with
  | none => fail
  | some _ => reach env .send husk.effect

/-- `recover`, for the directory of the id: a VMM that answers is attached to, and the directory of
one that does not goes. -/
def recover : Future Host Unit := do
  if ← read record then
    match ← attempt (call (env .load) id) with
    | none => pure ()
    | some _ => do
      let answer ← attempt (reach env .probe id)
      let vm ← read apiVm
      let socket ← read socket
      match answer, vm, socket with
      | some _, some _, some pid => act (manage ⟨pid, false⟩)
      | _, _, _ => do
        let _ ← attempt (call (env .removeDir) removeVmDir)
  else pure ()

end

/-! ## Runs -/

inductive Op
  | ensure (desired : Power)
  | delete
  | discard
  | prepareReceive (url : Nat)
  | sendMigration (husk : Husk)
  | finalizeReceive
deriving DecidableEq, Repr

/-- Nobody drops a task of its own. -/
def Env.detached (env : Env) : Env := fun a => (env a).detached

def done {α : Type} (m : Future Host α) (s : Host) : Host := (m s).1

def Op.run (env : Env) : Op → Host → Host
  | .ensure desired => done (Vmm.ensure env desired)
  | .delete => done (Vmm.delete env)
  | .discard => done (Vmm.discard env)
  | .prepareReceive url => done (Vmm.prepareReceive env url)
  | .sendMigration husk => done (Vmm.sendMigration env husk)
  | .finalizeReceive => done (Vmm.finalizeReceive env)

/-- The two steps of a destination run in a task of their own. -/
def Op.env (env : Env) : Op → Env
  | .prepareReceive _ | .finalizeReceive => env.detached
  | .ensure _ | .delete | .discard | .sendMigration _ => env

/-- Whether a request needs the lock of `pending`. -/
def Op.locks : Op → Bool
  | .ensure _ | .sendMigration _ => false
  | .delete | .discard | .prepareReceive _ | .finalizeReceive => true

/-- The agent starts: it has nothing in memory. -/
def start (env : Env) (s : Host) : Host :=
  done (recover env.detached) { s with vms := none, pending := none }

/-- The guest arrives at the receiver, and a `finalize_receive` that waits for it goes on. -/
def received (s : Host) : Option Host :=
  match s.pending with
  | some r =>
    if r.recv = .waiting then
      let s := s.setVm r.vmm.pid fun _ => some .running
      if r.finalizing then some (s.adopt r)
      else some { s with pending := some { r with recv := .done } }
    else none
  | none => none

/-- The receive fails, and a `finalize_receive` that waits for it reports that. -/
def receiveFails (s : Host) : Option Host :=
  match s.pending with
  | some r => if r.recv = .waiting then some { s with pending := some r.lost } else none
  | none => none

inductive Event
  | request (op : Op) (env : Env)
  /-- the agent goes down, perhaps in the middle of a request, and starts again: then nothing of it is
  left but what it did -/
  | restart (cut : Option (Op × Env)) (env : Env)
  | received
  | receiveFails
  | exits (pid : Pid)
  /-- the VM of a process changes: the guest powers off, or a receiver nobody holds gets it -/
  | drifts (pid : Pid) (vm : Option VmState)

/-- A request that needs the lock of `pending` waits while that is taken. -/
def step (s : Host) : Event → Option Host
  | .request op env => if op.locks && s.locked then none else some (op.run (op.env env) s)
  | .restart none env => some (start env s)
  | .restart (some (op, env)) env' =>
    if op.locks && s.locked then none else some (start env' (op.run env s))
  | .received => Vmm.received s
  | .receiveFails => Vmm.receiveFails s
  | .exits pid => some (s.exit pid)
  | .drifts pid vm => some (s.setVm pid fun _ => vm)

/-- A receiver is prepared where the VM already runs. -/
def beside : List Event :=
  [.request (.ensure .running) goodEnv, .request (.prepareReceive 4000) goodEnv]

/-! ## Reading a host by its pids -/

namespace Host

variable (s : Host) (pid : Pid)

def pids : List Pid := s.processes.map Process.pid

def managed : Option Pid := s.vms.map Handle.pid

def receiver : Option Pid := s.pending.map fun r => r.vmm.pid

def waitingFor : Option Pid :=
  s.pending.bind fun r => if r.recv = .waiting then some r.vmm.pid else none

/-- What a VMM may do by itself, or when it is asked to over its API: its VM changes, or it exits, and
then a receive that waits for it is lost.  The tables keep their entries. -/
structure Fades (s t : Host) : Prop where
  pids : t.pids.Sublist s.pids
  socket : t.socket = s.socket
  vms : t.vms = s.vms
  receiver : t.receiver = s.receiver
  waiting : ∀ pid, t.waitingFor = some pid → s.waitingFor = some pid ∧ (pid ∈ s.pids → pid ∈ t.pids)
  launches : t.launches = s.launches
  nextPid : t.nextPid = s.nextPid

theorem Fades.refl : Fades s s :=
  ⟨.refl _, rfl, rfl, rfl, fun _ h => ⟨h, id⟩, rfl, rfl⟩

theorem Fades.trans {s t u : Host} (h : Fades s t) (h' : Fades t u) : Fades s u where
  pids := h'.pids.trans h.pids
  socket := h'.socket.trans h.socket
  vms := h'.vms.trans h.vms
  receiver := h'.receiver.trans h.receiver
  waiting := by
    intro pid hu
    obtain ⟨ht, hkept'⟩ := h'.waiting pid hu
    obtain ⟨hs, hkept⟩ := h.waiting pid ht
    exact ⟨hs, fun hmem => hkept' (hkept hmem)⟩
  launches := h'.launches.trans h.launches
  nextPid := h'.nextPid.trans h.nextPid

@[simp] theorem pids_setVm (f : Option VmState → Option VmState) :
    (s.setVm pid f).pids = s.pids := by
  unfold pids setVm
  rw [List.map_map]
  apply List.map_congr_left
  intro p _
  simp only [Function.comp_apply]
  split <;> rfl

@[simp] theorem pids_exit : (s.exit pid).pids = s.pids.filter (· != pid) := by
  unfold pids exit
  rw [List.filter_map]
  rfl

theorem fades_setVm (f : Option VmState → Option VmState) : Fades s (s.setVm pid f) where
  pids := by simp only [pids_setVm, List.Sublist.refl]
  socket := rfl
  vms := rfl
  receiver := rfl
  waiting := fun p h => ⟨h, by rw [pids_setVm]; exact id⟩
  launches := rfl
  nextPid := rfl

theorem fades_api (f : Option VmState → Option VmState) (s : Host) : Fades s (s.api f) := by
  unfold api
  split
  · exact fades_setVm s _ f
  · exact .refl s

theorem waitingFor_exit {s : Host} {pid p : Pid} (h : (s.exit pid).waitingFor = some p) :
    s.waitingFor = some p ∧ p ≠ pid := by
  unfold waitingFor exit at h
  cases hp : s.pending with
  | none => simp [hp] at h
  | some r =>
  by_cases hpid : r.vmm.pid = pid
  · -- the receive of this process is lost, so it no longer waits
    cases hr : r.recv <;> simp [hp, hpid, hr, PendingReceive.lost] at h
  · simp only [hp, map_some, if_neg hpid, bind_some,
      ite_none_right_eq_some, some.injEq] at h
    refine ⟨by simp [waitingFor, hp, h.1, h.2], ?_⟩
    rwa [← h.2]

theorem fades_exit : Fades s (s.exit pid) where
  pids := by rw [pids_exit]; exact filter_sublist
  socket := rfl
  vms := rfl
  receiver := by
    unfold receiver exit
    rw [Option.map_map]
    congr 1
    funext r
    simp only [Function.comp_apply]
    split <;> rfl
  waiting := by
    intro p h
    obtain ⟨hs, hne⟩ := waitingFor_exit h
    refine ⟨hs, fun hmem => ?_⟩
    rw [pids_exit]
    exact mem_filter.mpr ⟨hmem, by simpa using hne⟩
  launches := rfl
  nextPid := rfl

theorem fades_vmmShutdown : Fades s s.vmmShutdown := by
  unfold vmmShutdown
  split
  · exact fades_exit s _
  · exact .refl s

theorem fades_terminate (vmm : Handle) (s : Host) : Fades s (s.terminate vmm) := by
  unfold terminate
  split
  · exact (fades_vmmShutdown s).trans (fades_exit _ _)
  · exact fades_vmmShutdown s

end Host

theorem Husk.fades (husk : Husk) (s : Host) : Host.Fades s (husk.effect s) := by
  cases husk with
  | exited => exact Host.fades_vmmShutdown s
  | left vm => exact Host.fades_api _ s

theorem done_of_triple {α : Type} {P I : Host → Prop} {m : Future Host α} (h : Triple P m (always I))
    {s : Host} (hs : P s) : I (done m s) := by
  have hm := h s hs
  unfold done
  cases hr : m s with
  | mk t r =>
    rw [hr] at hm
    cases r with
    | ok | err | dropped => exact hm

section

variable {env : Env} {a : Await} {effect : Host → Host} {I : Host → Prop}

/-- A call over the socket: it fails if it says so or if nobody is there. -/
theorem triple_reach (hI : ∀ s, I s → I (effect s)) : Triple I (reach env a effect)
      ⟨fun _ => I, fun s => I s ∧ ((env a).reply = .err ∨ s.apiProcess = none),
        fun s => I s ∧ (env a).reply = .dropped⟩ := by
  unfold reach
  refine triple_read_bind fun p => ?_
  split
  · have hkeep : ∀ s, I s ∧ s.apiProcess = p → I ((env a).apply effect s) := fun s hs =>
      apply_keeps hI hs.1
    exact triple_call (fun _ => hkeep) (fun hr s hs => ⟨hkeep s hs, .inl hr⟩)
      (fun hr s hs => ⟨hkeep s hs, hr⟩)
  · rename_i hp
    have hnone : p = none := by simpa using hp
    refine triple_call (fun hr => ?_) (fun _ s hs => ⟨hs.1, .inr (hs.2.trans hnone)⟩)
      (fun hr s hs => ⟨hs.1, ?_⟩)
    · -- a call that nobody answers is not answered
      unfold Fate.refused at hr
      simp only at hr
      split at hr
      · cases hr
      · contradiction
    · unfold Fate.refused at hr
      simp only at hr
      split at hr
      · cases hr
      · exact hr

theorem keeps_reach (hI : ∀ s, I s → I (effect s)) : Triple I (reach env a effect) (always I) :=
  triple_conseq (triple_reach hI) (fun _ hs => hs) (fun _ _ hs => hs) (fun _ hs => hs.1)
    (fun _ hs => hs.1)

theorem keeps_ask : Triple I (reach env a id) (always I) :=
  keeps_reach fun _ hs => hs

theorem keeps_observe : Triple I (observe env) (always I) := by
  unfold observe
  refine keeps_bind (keeps_attempt keeps_ask) fun answer => keeps_bind keeps_read fun vm => ?_
  split <;> exact keeps_pure

end

end VQuasar.Vmm
