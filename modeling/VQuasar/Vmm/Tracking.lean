import VQuasar.Vmm.Manager

/-!
# Every live process is tracked

Between two requests at most one process of the id is alive, and a live one is held in `vms` or in
`pending`.  The code does not keep this by itself: a receiver that is discarded, a launch that fails
after the child was spawned or a request that is dropped between taking an entry out of its table and
the end of the process leaves a process that nothing knows.  `careful` is what has to be asked of a
step, and every run of careful steps keeps its processes tracked.
-/

namespace VQuasar.Vmm

open Futures Runs Host List Option Bool
open Lifecycle (Power)

variable {s t : Host} {vmm : Handle}

/-- At most one process is alive, and a table has its handle. -/
def Tracked (s : Host) : Prop :=
  s.pids.length ≤ 1 ∧ ∀ pid ∈ s.pids, s.managed = some pid ∨ s.receiver = some pid

instance (s : Host) : Decidable (Tracked s) := inferInstanceAs (Decidable (_ ∧ _))

/-! ## Careful steps -/

section

variable (env : Env) (s : Host)

/-- No process is alive, and a child that is spawned gets its socket ready. -/
def launches : Bool :=
  s.processes.isEmpty && (!(env .spawn).effect || (env .socket).reply == .ok)

/-- A VMM that is taken out of `vms` comes to its end. -/
def closes : Bool :=
  s.vms.isNone || s.processes.isEmpty || ((env .shutdown).reply != .dropped && (env .terminate).effect)

/-- A VMM that will not boot comes to its end. -/
def reclaims : Bool := (env .boot).reply != .err || (env .terminate).effect

/-- The receiver has no process any more, if there is one. -/
def receiverGone : Bool := s.receiver.all fun pid => !s.pids.contains pid

/-- The VMM that is alive is found again. -/
def recovers : Bool :=
  s.processes.isEmpty ||
    (s.record && s.processes.all (fun p => p.vm.isSome) && (env .load).reply == .ok &&
      (env .probe).reply == .ok)

/-- What a request asks of the host it finds and of the calls it makes. -/
def Op.careful : Op → Bool
  | .ensure .stopped => closes env s
  | .ensure .running => (s.vms.isSome || launches env s) && reclaims env
  | .delete | .discard => receiverGone s && closes env s
  | .prepareReceive _ => s.pending.isSome || (launches env s && (env .port).reply == .ok)
  | .sendMigration _ | .finalizeReceive => true

end

/-- The steps that keep track of the processes. -/
def careful (s : Host) : Event → Bool
  | .request op env => op.careful (op.env env) s
  | .restart none env => recovers env.detached s
  | .restart (some _) _ => false
  | .received | .receiveFails | .exits _ | .drifts _ _ => true

/-! ## Invariants -/

/-- What holds in the middle of a request too: at most one process is alive, the socket leads to it,
and a receiver that waits is alive. -/
structure Loose (s : Host) : Prop where
  one : s.pids.length ≤ 1
  socket : ∀ pid ∈ s.pids, s.socket = some pid
  waiting : ∀ pid, s.waitingFor = some pid → pid ∈ s.pids

/-- Between two requests the process that is alive is held too. -/
structure Sound (s : Host) : Prop extends Loose s where
  held : ∀ pid ∈ s.pids, s.managed = some pid ∨ s.receiver = some pid

structure Quiet (s : Host) : Prop extends Loose s where
  empty : s.pids = []

theorem Quiet.sound (h : Quiet s) : Sound s where
  toLoose := h.toLoose
  held := by
    intro pid hmem
    simp [h.empty] at hmem

theorem Sound.tracked (h : Sound s) : Tracked s := ⟨h.one, h.held⟩

theorem Loose.eq (h : Loose s) {p q : Pid} (hp : p ∈ s.pids) (hq : q ∈ s.pids) : p = q :=
  some.inj ((h.socket p hp).symm.trans (h.socket q hq))

section Fading

variable {s t : Host}

theorem Loose.fades (h : Fades s t) (hs : Loose s) : Loose t where
  one := Nat.le_trans h.pids.length_le hs.one
  socket := by
    intro pid hmem
    rw [h.socket]
    exact hs.socket pid (h.pids.subset hmem)
  waiting := by
    intro pid hw
    obtain ⟨hw, hkept⟩ := h.waiting pid hw
    exact hkept (hs.waiting pid hw)

theorem Sound.fades (h : Fades s t) (hs : Sound s) : Sound t where
  toLoose := hs.toLoose.fades h
  held := by
    intro pid hmem
    rw [managed, h.vms, h.receiver]
    exact hs.held pid (h.pids.subset hmem)

theorem Quiet.fades (h : Fades s t) (hs : Quiet s) : Quiet t where
  toLoose := hs.toLoose.fades h
  empty := by
    have hsub := h.pids
    rw [hs.empty] at hsub
    exact sublist_nil.mp hsub

end Fading

theorem Loose.quiet_terminate (h : Loose s) (vmm : Handle) : Quiet (s.terminate vmm) := by
  have hshutdown : s.vmmShutdown.pids = [] := by
    unfold vmmShutdown
    split
    · rename_i pid hsocket
      rw [pids_exit, filter_eq_nil_iff]
      intro p hmem
      have hp : p = pid := some.inj ((h.socket p hmem).symm.trans hsocket)
      simp [hp]
    · rename_i hsocket
      rw [eq_nil_iff_forall_not_mem]
      intro p hmem
      have hp := h.socket p hmem
      simp [hsocket] at hp
  refine ⟨h.fades (fades_terminate vmm s), ?_⟩
  unfold terminate
  split
  · rw [pids_exit, hshutdown]
    rfl
  · exact hshutdown

/-! ## Tables -/

section Tables

variable {s : Host}

theorem Loose.of_tables (h : Loose s) (hpids : t.pids = s.pids)
    (hsocket : t.socket = s.socket) (hwaiting : t.waitingFor = s.waitingFor ∨ t.waitingFor = none) :
    Loose t where
  one := by rw [hpids]; exact h.one
  socket := by rw [hpids, hsocket]; exact h.socket
  waiting := by
    intro pid hw
    rcases hwaiting with hwaiting | hwaiting
    · rw [hwaiting] at hw
      rw [hpids]
      exact h.waiting pid hw
    · simp [hwaiting] at hw

theorem Sound.of_tables (h : Sound s) (hpids : t.pids = s.pids)
    (hsocket : t.socket = s.socket) (hwaiting : t.waitingFor = s.waitingFor ∨ t.waitingFor = none)
    (hmanaged : t.managed = s.managed) (hreceiver : t.receiver = s.receiver) : Sound t where
  toLoose := h.toLoose.of_tables hpids hsocket hwaiting
  held := by rw [hpids, hmanaged, hreceiver]; exact h.held

theorem Loose.unmanage (h : Loose s) : Loose s.unmanage := h.of_tables rfl rfl (.inl rfl)

theorem Loose.dropPending (h : Loose s) : Loose s.dropPending := h.of_tables rfl rfl (.inr rfl)

theorem Quiet.unmanage (h : Quiet s) : Quiet s.unmanage := ⟨h.toLoose.unmanage, h.empty⟩

theorem Quiet.manage (h : Quiet s) (vmm : Handle) : Quiet (s.manage vmm) :=
  ⟨h.toLoose.of_tables rfl rfl (.inl rfl), h.empty⟩

theorem Quiet.removeVmDir (h : Quiet s) : Quiet s.removeVmDir where
  one := h.one
  socket := by
    intro pid hmem
    have : pid ∈ s.pids := hmem
    simp [h.empty] at this
  waiting := h.waiting
  empty := h.empty

theorem Sound.dropPending (h : Sound s) (hgone : receiverGone s) : Sound s.dropPending where
  toLoose := h.toLoose.dropPending
  held := by
    intro pid hmem
    rcases h.held pid hmem with hm | hr
    · exact .inl hm
    · simp [receiverGone, hr] at hgone
      exact absurd hmem hgone

theorem Sound.adopt {r : PendingReceive} (h : Sound s) (hr : s.receiver = some r.vmm.pid)
    (hother : ∀ pid ∈ s.pids, s.managed = some pid → pid = r.vmm.pid) : Sound (s.adopt r) where
  toLoose := h.toLoose.of_tables rfl rfl (.inr rfl)
  held := by
    intro pid hmem
    left
    have hpid : pid = r.vmm.pid := by
      rcases h.held pid hmem with hm | hp
      · exact hother pid hmem hm
      · exact mem_unique hp hr
    rw [hpid]
    rfl

end Tables

/-! ## Handlers -/

section Handlers

variable {env : Env} {isNew : Bool} {url : Nat}

/-- A child that is spawned and not recorded yet. -/
structure Launched (vmm : Handle) (s : Host) : Prop where
  pids : s.pids = [vmm.pid]
  socket : s.socket = some vmm.pid
  waiting : s.waitingFor = none

theorem Quiet.waitingFor_eq (h : Quiet s) : s.waitingFor = none := by
  cases hw : s.waitingFor with
  | none => rfl
  | some pid =>
    have hmem := h.waiting pid hw
    simp [h.empty] at hmem

theorem Quiet.launched (h : Quiet s) (launcher : Launcher) :
    Launched ⟨s.nextPid, true⟩ (s.spawn launcher) where
  pids := by
    have hpids : (s.spawn launcher).pids = s.pids ++ [s.nextPid] := by simp [pids, spawn]
    rw [hpids, h.empty]
    rfl
  socket := rfl
  waiting := h.waitingFor_eq

theorem Launched.sound (h : Launched vmm s) (hpids : t.pids = s.pids) (hsocket : t.socket =
    s.socket) (hwaiting : ∀ pid, t.waitingFor = some pid → pid = vmm.pid) (hheld : t.managed = some
    vmm.pid ∨ t.receiver = some vmm.pid) : Sound t := by
  have hmem : ∀ pid, pid ∈ t.pids ↔ pid = vmm.pid := by
    intro pid
    rw [hpids, h.pids, mem_singleton]
  refine ⟨⟨?_, ?_, ?_⟩, ?_⟩
  · rw [hpids, h.pids]
    exact Nat.le_refl 1
  · intro pid hp
    rw [hsocket, h.socket, (hmem pid).mp hp]
  · intro pid hw
    exact (hmem pid).mpr (hwaiting pid hw)
  · intro pid hp
    rwa [(hmem pid).mp hp]

theorem Launched.manage (h : Launched vmm s) : Sound (s.manage vmm) := by
  refine h.sound rfl rfl ?_ (.inl rfl)
  intro pid hw
  have hw' : s.waitingFor = some pid := hw
  simp [h.waiting] at hw'

theorem Launched.receive (h : Launched vmm s) (url : Nat) : Sound (s.receive vmm url) := by
  refine h.sound rfl rfl ?_ (.inr rfl)
  intro pid hw
  exact (some.inj hw).symm

theorem triple_launch {launcher : Launcher}
    (hready : (env .spawn).effect → (env .socket).reply = .ok) :
    Triple Quiet (launch env launcher) (orElse Launched Quiet) := by
  unfold launch
  refine triple_bind (keeps_call fun s hs => hs) fun _ => triple_read_bind fun pid => ?_
  split
  · rename_i hspawn
    refine triple_act_bind (R := Launched ⟨pid, true⟩) ?_
      (triple_bind (R := fun _ => Launched ⟨pid, true⟩) ?_ fun _ => ?_)
    · rintro s ⟨hs, rfl⟩
      exact hs.launched launcher
    · -- the socket is ready, so the child is not lost here
      exact triple_answered (hready hspawn) fun s hs => apply_keeps (fun _ ht => ht) hs
    · exact triple_pure fun s hs => hs
  · exact triple_fail fun s hs => hs.1

theorem triple_terminate : Triple (fun s => Loose s ∧ (Quiet s ∨ (env .terminate).effect))
    (call (env .terminate) (terminate vmm)) (always Quiet) := by
  have hquiet : ∀ s, Loose s ∧ (Quiet s ∨ (env .terminate).effect) →
      Quiet ((env .terminate).apply (terminate vmm) s) := by
    rintro s ⟨hs, hq | heff⟩
    · exact apply_keeps (fun t => Quiet.fades (fades_terminate vmm t)) hq
    · unfold Fate.apply
      rw [if_pos heff]
      exact hs.quiet_terminate vmm
  exact triple_call (fun _ => hquiet) (fun _ => hquiet) (fun _ => hquiet)

/-- A VMM was taken out of `vms`: no process is alive, or the calls that follow will end it. -/
def Closing (env : Env) (s : Host) : Prop :=
  Loose s ∧ (Quiet s ∨ ((env .shutdown).reply ≠ .dropped ∧ (env .terminate).effect))

theorem Closing.fades (h : Fades s t) (hs : Closing env s) : Closing env t :=
  ⟨hs.1.fades h, hs.2.imp_left (Quiet.fades h)⟩

theorem triple_putDown : Triple (Closing env) (putDown env vmm) (always Quiet) := by
  unfold putDown
  refine triple_bind (R := fun _ => Closing env) (triple_attempt (triple_conseq
    (triple_reach fun s => Closing.fades (fades_api _ s)) (fun _ hs => hs) (fun _ _ hs => hs)
    (fun _ hs => hs.1) ?_)) fun _ => ?_
  · -- dropped while the guest was asked to stop
    rintro s ⟨⟨_, hq | ⟨hnot, _⟩⟩, hdropped⟩
    · exact hq
    · exact absurd hdropped hnot
  · exact always_imp triple_terminate (fun _ hs => ⟨hs.1, hs.2.imp_right And.right⟩) fun _ hs => hs

theorem Sound.closing (hs : Sound s) (hvms : s.vms = some vmm) (hc : closes env s) : Closing env
    s.unmanage := by
  refine ⟨hs.toLoose.unmanage, ?_⟩
  simp only [closes, hvms, isNone_some, Bool.false_or, Bool.or_eq_true,
    List.isEmpty_iff, Bool.and_eq_true, bne_iff_ne] at hc
  rcases hc with hnil | hc
  · exact .inl ⟨hs.toLoose.unmanage, by simp [pids, unmanage, hnil]⟩
  · exact .inr hc

theorem triple_closeVmm :
    Triple (fun s => Sound s ∧ closes env s = true) (closeVmm env) (always Sound) := by
  unfold closeVmm
  refine triple_read_bind fun vms => ?_
  split
  · refine triple_act_bind (R := Closing env) (fun s hs => hs.1.1.closing hs.2 hs.1.2) ?_
    exact always_imp triple_putDown (fun _ hs => hs) fun _ => Quiet.sound
  · exact triple_pure fun s hs => hs.1.1

theorem triple_powerOff :
    Triple (fun s => Sound s ∧ closes env s = true) (powerOff env) (always Sound) := by
  unfold powerOff
  exact triple_bind triple_closeVmm fun _ => keeps_bind (keeps_call fun _ hs => hs) fun _ => keeps_pure

theorem Loose.quiet (h : Loose s) (hnone : s.apiProcess = none) : Quiet s := by
  refine ⟨h, ?_⟩
  rw [eq_nil_iff_forall_not_mem]
  intro pid hmem
  obtain ⟨p, hp, hpid⟩ := mem_map.mp hmem
  simp only [apiProcess, h.socket pid hmem, bind_some, List.find?_eq_none, beq_iff_eq] at hnone
  exact hnone p hp hpid

/-- A VMM that will not boot is alive only if it can be ended. -/
def Failing (env : Env) (s : Host) : Prop :=
  Sound s ∧ (Quiet s ∨ (env .terminate).effect)

theorem triple_reclaim : Triple (Failing env) (reclaim env) (always Sound) := by
  unfold reclaim
  refine always_bind (keeps_attempt keeps_ask) (fun _ hs => hs.1) fun answer => ?_
  refine always_bind keeps_read (fun _ hs => hs.1) fun vm => ?_
  refine always_bind keeps_read (fun _ hs => hs.1) fun stale => ?_
  split
  · rename_i vmm
    refine triple_act_bind
      (R := fun s => Loose s ∧ (Quiet s ∨ (env .terminate).effect = true)) ?_ ?_
    · rintro s ⟨hs, hq⟩
      exact ⟨hs.toLoose.unmanage, hq.imp_left Quiet.unmanage⟩
    · refine always_imp (I := Quiet) ?_ (fun _ hs => hs) fun _ => Quiet.sound
      exact triple_bind (triple_attempt triple_terminate) fun _ =>
        keeps_bind (keeps_attempt (keeps_call fun _ hs => hs)) fun _ => keeps_pure
  · exact triple_pure fun _ hs => hs.1

theorem triple_bringUp (hreclaims : reclaims env) :
    Triple Sound (bringUp env isNew) (always Sound) := by
  unfold bringUp
  refine keeps_bind (keeps_reach fun s => Sound.fades (fades_api _ s)) fun _ => ?_
  refine keeps_bind ?_ fun _ => ?_
  · split
    · exact keeps_pure
    · exact keeps_ask
  · refine triple_bind (R := fun booted s => Sound s ∧ (booted = none → Failing env s))
      (triple_attempt (triple_conseq (triple_reach fun s => Sound.fades (fades_api _ s))
        (fun _ hs => hs) (fun _ s hs => ⟨hs, nofun⟩) ?_ (fun _ hs => hs.1))) fun booted => ?_
    · rintro s ⟨hs, hfailed⟩
      refine ⟨hs, fun _ => ⟨hs, ?_⟩⟩
      rcases hfailed with herr | hnone
      · right
        simpa [reclaims, herr] using hreclaims
      · left
        exact hs.toLoose.quiet hnone
    · split
      · exact always_imp keeps_observe (fun _ hs => hs.1) fun _ hs => hs
      · exact triple_bind (always_imp triple_reclaim (fun _ hs => hs.2 rfl) fun _ hs => hs)
          fun _ => keeps_fail

theorem triple_ensureVmm (hready : isNew → (env .spawn).effect → (env .socket).reply = .ok) :
    Triple (fun s => Sound s ∧ (isNew → Quiet s)) (ensureVmm env isNew) (always Sound) := by
  unfold ensureVmm
  refine always_bind (keeps_call fun _ hs => hs) (fun _ hs => hs.1) fun _ => ?_
  split
  · rename_i hnew
    refine triple_bind (R := Launched) (triple_conseq (triple_launch (hready hnew))
      (fun _ hs => hs.2 hnew) (fun _ _ hs => hs) (fun _ hs => hs.sound) (fun _ hs => hs.sound))
      fun vmm => ?_
    exact triple_act fun s hs => hs.manage
  · exact triple_pure fun _ hs => hs.1

theorem Sound.quiet (h : Sound s) (hnil : s.processes = []) : Quiet s :=
  ⟨h.toLoose, by rw [pids, hnil]; rfl⟩

theorem launches_iff : launches env s ↔ s.processes = [] ∧ ((env .spawn).effect → (env
    .socket).reply = .ok) := by
  unfold launches
  cases (env .spawn).effect <;> simp

theorem triple_ensure {desired : Power} :
    Triple (fun s => Sound s ∧ (Op.ensure desired).careful env s = true) (ensure env desired)
      (always Sound) := by
  unfold ensure
  refine always_bind (keeps_call fun _ hs => hs) (fun _ hs => hs.1) fun _ => ?_
  refine always_bind (keeps_call ?_) (fun _ hs => hs.1) fun _ => ?_
  · rintro s ⟨hs, hc⟩
    exact ⟨hs.of_tables rfl rfl (.inl rfl) rfl rfl, by cases desired <;> exact hc⟩
  refine always_bind (keeps_call fun _ hs => hs) (fun _ hs => hs.1) fun _ => ?_
  cases desired with
  | stopped => exact triple_powerOff
  | running =>
  refine triple_read_bind fun isNew => ?_
  intro s hs
  obtain ⟨⟨hsound, hc⟩, hnew⟩ := hs
  simp only [Op.careful, and_eq_true, or_eq_true] at hc
  have hlaunch : isNew → launches env s := by
    intro h
    rw [h, isNone_iff_eq_none] at hnew
    simpa [hnew] using hc.1
  have hready : isNew → (env .spawn).effect → (env .socket).reply = .ok := fun h =>
    (launches_iff.mp (hlaunch h)).2
  have hup : Triple Sound (bringUp env isNew) (always Sound) := triple_bringUp hc.2
  have hrun := triple_bind (triple_ensureVmm hready) fun _ => hup
  exact hrun s ⟨hsound, fun h => hsound.quiet (launches_iff.mp (hlaunch h)).1⟩

/-- What `delete` and `discard` ask for. -/
def Closable (env : Env) (s : Host) : Prop :=
  Sound s ∧ receiverGone s = true ∧ closes env s = true

theorem Closable.dropPending (h : Closable env s) : Closable env s.dropPending :=
  ⟨h.1.dropPending h.2.1, rfl, h.2.2⟩

theorem triple_teardown : Triple (Closable env) (teardown env) (always Sound) := by
  unfold teardown
  refine triple_act_bind (fun _ => Closable.dropPending) ?_
  refine always_bind (keeps_call fun _ hs => hs) (fun _ hs => hs.1) fun _ => ?_
  refine triple_read_bind fun vms => ?_
  split
  · exact triple_fail fun _ hs => hs.1.1
  refine triple_act_bind (R := Closing env) (fun s hs => hs.1.1.closing hs.2 hs.1.2.2) ?_
  refine always_imp (I := Quiet) ?_ (fun _ hs => hs) fun _ => Quiet.sound
  exact triple_bind triple_putDown fun _ =>
    keeps_bind (keeps_attempt (keeps_call fun _ hs => hs)) fun _ =>
    keeps_call fun _ => Quiet.removeVmDir

theorem triple_discard : Triple (Closable env) (discard env) (always Sound) := by
  unfold discard
  refine always_bind keeps_read (fun _ hs => hs.1) fun hadReceiver => ?_
  refine triple_act_bind (fun _ => Closable.dropPending) ?_
  refine always_bind (keeps_call fun _ hs => hs) (fun _ hs => hs.1) fun _ => ?_
  refine always_bind keeps_read (fun _ hs => hs.1) fun managed => ?_
  split
  · exact triple_pure fun _ hs => hs.1
  · exact triple_teardown

theorem triple_newReceiver
    (hready : (env .spawn).effect → (env .socket).reply = .ok) (hport : (env .port).reply = .ok) :
    Triple Quiet (do
      call (env .record) storeRecord
      let vmm ← launch env .prepareReceive
      call (env .port) id
      act (receive vmm url)
      pure url) (always Sound) := by
  refine always_bind (keeps_call ?_) (fun _ => Quiet.sound) fun _ => ?_
  · intro s hs
    exact ⟨hs.toLoose.of_tables rfl rfl (.inl rfl), hs.empty⟩
  refine triple_bind (R := Launched) (triple_conseq (triple_launch hready) (fun _ hs => hs)
    (fun _ _ hs => hs) (fun _ => Quiet.sound) (fun _ => Quiet.sound)) fun vmm => ?_
  refine triple_bind (R := fun _ => Launched vmm) ?_ fun _ => ?_
  · exact triple_answered hport fun s hs => apply_keeps (fun _ ht => ht) hs
  · exact triple_act_bind (fun _ hs => hs.receive url) keeps_pure

theorem triple_prepareReceive :
    Triple (fun s => Sound s ∧ (Op.prepareReceive url).careful env s = true) (prepareReceive env url)
      (always Sound) := by
  unfold prepareReceive
  refine triple_read_bind fun pending => ?_
  split
  · exact triple_pure fun _ hs => hs.1.1
  intro s hs
  obtain ⟨⟨hsound, hc⟩, hpending⟩ := hs
  simp only [Op.careful, hpending, isSome_none, Bool.false_or, Bool.and_eq_true,
    beq_iff_eq, launches_iff] at hc
  obtain ⟨⟨hnil, hready⟩, hport⟩ := hc
  refine triple_newReceiver hready hport s (hsound.quiet hnil)

theorem triple_sendMigration {husk : Husk} :
    Triple Sound (sendMigration env husk) (always Sound) := by
  unfold sendMigration
  refine keeps_bind keeps_read fun vms => ?_
  split
  · exact keeps_fail
  · exact keeps_reach fun s => Sound.fades (husk.fades s)

theorem Sound.awaitReceive (h : Sound s) : Sound s.awaitReceive := by
  refine h.of_tables rfl rfl (.inl ?_) rfl ?_
  · unfold waitingFor Host.awaitReceive
    cases s.pending <;> rfl
  · unfold receiver Host.awaitReceive
    cases s.pending <;> rfl

theorem triple_finalizeReceive : Triple Sound (finalizeReceive env) (always Sound) := by
  unfold finalizeReceive
  refine keeps_bind (keeps_call fun _ hs => hs) fun _ => triple_read_bind fun vms => ?_
  split
  · exact always_imp (keeps_bind keeps_observe fun _ => keeps_pure) (fun _ hs => hs.1) fun _ hs => hs
  refine triple_read_bind fun pending => ?_
  split
  · exact triple_fail fun _ hs => hs.1.1
  rename_i r
  split
  · refine triple_act_bind ?_ (keeps_bind keeps_observe fun _ => keeps_pure)
    rintro s ⟨⟨hs, hvms⟩, hpending⟩
    refine hs.adopt (by rw [receiver, hpending]; rfl) ?_
    intro pid _ hm
    simp [managed, hvms] at hm
  · exact triple_fail fun _ hs => hs.1.1
  · exact triple_act_bind (fun _ hs => hs.1.1.awaitReceive) keeps_pure

/-- A VMM that is alive and can be found. -/
structure Found (s : Host) : Prop extends Loose s where
  record : s.record
  alive : s.processes ≠ []
  vm : ∀ p ∈ s.processes, p.vm.isSome

theorem Found.apiVm (h : Found s) : ∃ pid vm, s.pids = [pid] ∧ s.socket = some pid ∧ s.apiVm = some
    vm := by
  cases hp : s.processes with
  | nil => exact absurd hp h.alive
  | cons p rest =>
  have hone := h.one
  simp only [pids, hp, map_cons, length_cons, length_map] at hone
  have hrest : rest = [] := eq_nil_of_length_eq_zero (by omega)
  have hsocket := h.socket p.pid (by simp [pids, hp])
  obtain ⟨vm, hvm⟩ := isSome_iff_exists.mp (h.vm p (by simp [hp]))
  refine ⟨p.pid, vm, by simp [Host.pids, hp, hrest], hsocket, ?_⟩
  simp [Host.apiVm, apiProcess, hsocket, hp, hvm]

theorem Found.pids_ne_nil (h : Found s) : s.pids ≠ [] := by
  obtain ⟨pid, _, hpids, _⟩ := h.apiVm
  rw [hpids]
  exact cons_ne_nil _ _

theorem Found.manage {pid : Pid} (h : Found s) (hsocket : s.socket = some pid) :
    Sound (s.manage ⟨pid, false⟩) where
  toLoose := h.toLoose.of_tables rfl rfl (.inl rfl)
  held := by
    intro p hmem
    left
    have hp := h.socket p hmem
    rwa [hsocket] at hp

theorem triple_recover_quiet : Triple Quiet (recover env) (always Quiet) := by
  unfold recover
  refine keeps_bind keeps_read fun record => ?_
  split
  · refine keeps_bind (keeps_attempt (keeps_call fun _ hs => hs)) fun loaded => ?_
    split
    · exact keeps_pure
    refine keeps_bind (keeps_attempt keeps_ask) fun answer => keeps_bind keeps_read fun vm =>
      keeps_bind keeps_read fun socket => ?_
    split
    · exact keeps_act fun s hs => hs.manage _
    · exact keeps_bind (keeps_attempt (keeps_call fun s => Quiet.removeVmDir)) fun _ => keeps_pure
  · exact keeps_pure

theorem triple_recover_found (hload : (env .load).reply = .ok) (hprobe : (env .probe).reply = .ok) :
    Triple Found (recover env) (always Sound) := by
  unfold recover
  refine triple_read_bind fun record => ?_
  split
  · refine triple_bind (R := fun loaded s => Found s ∧ loaded.isSome) (triple_attempt
      (triple_answered hload fun s hs => apply_keeps (fun _ ht => ht) ⟨hs.1, rfl⟩)) fun loaded => ?_
    split
    · exact triple_pure fun s hs => absurd hs.2 false_ne_true
    refine triple_bind (R := fun answer s => Found s ∧ answer.isSome) ?_ fun answer => ?_
    · refine triple_attempt (triple_conseq (triple_reach fun _ hs => hs) (fun _ hs => hs.1)
        (fun _ _ hs => ⟨hs, rfl⟩) ?_ ?_)
      · rintro s ⟨hfound, herr | hnone⟩
        · rw [hprobe] at herr; cases herr
        · exact absurd (hfound.toLoose.quiet hnone).empty hfound.pids_ne_nil
      · rintro s ⟨_, hdropped⟩
        simp [hprobe] at hdropped
    · refine triple_read_bind fun vm => triple_read_bind fun socket => ?_
      split
      · exact triple_act fun s hs => hs.1.1.1.manage hs.2
      rename_i hnot
      intro s hs
      obtain ⟨⟨⟨hfound, hanswer⟩, hvm⟩, hsocket⟩ := hs
      obtain ⟨pid, vm', _, hsocket', hvm'⟩ := hfound.apiVm
      obtain ⟨_, rfl⟩ := isSome_iff_exists.mp hanswer
      exact (hnot () vm' pid rfl (hvm.symm.trans hvm') (hsocket.symm.trans hsocket')).elim
  · rename_i hrecord
    exact triple_pure fun s hs => absurd (hs.2.symm.trans hs.1.record) hrecord

end Handlers

/-! ## Steps and runs -/

section

variable (hs : Sound s) {env : Env}
include hs

theorem Op.sound_run {op : Op} (hc : op.careful env s) : Sound (op.run env s) := by
  cases op with
  | ensure desired => exact done_of_triple triple_ensure ⟨hs, hc⟩
  | delete =>
    simp only [Op.careful, and_eq_true] at hc
    exact done_of_triple triple_teardown ⟨hs, hc.1, hc.2⟩
  | discard =>
    simp only [Op.careful, and_eq_true] at hc
    exact done_of_triple triple_discard ⟨hs, hc.1, hc.2⟩
  | prepareReceive url => exact done_of_triple triple_prepareReceive ⟨hs, hc⟩
  | sendMigration husk => exact done_of_triple triple_sendMigration hs
  | finalizeReceive => exact done_of_triple triple_finalizeReceive hs

theorem sound_start (hc : recovers env.detached s) : Sound (start env s) := by
  have hloose : Loose { s with vms := none, pending := none } :=
    hs.toLoose.of_tables rfl rfl (.inr rfl)
  simp only [recovers, or_eq_true, and_eq_true, List.isEmpty_iff, List.all_eq_true,
    beq_iff_eq] at hc
  by_cases hnil : s.processes = []
  · have hquiet : Quiet { s with vms := none, pending := none } :=
      ⟨hloose, by simp [pids, hnil]⟩
    exact (done_of_triple triple_recover_quiet hquiet).sound
  · obtain hnil' | ⟨⟨⟨hrecord, hvm⟩, hload⟩, hprobe⟩ := hc
    · exact absurd hnil' hnil
    · exact done_of_triple (triple_recover_found hload hprobe) ⟨hloose, hrecord, hnil, hvm⟩

theorem sound_received (h : received s = some t) : Sound t := by
  unfold received at h
  split at h
  · rename_i r hpending
    split at h
    · rename_i hwaiting
      have hfaded : Sound (s.setVm r.vmm.pid fun _ => some .running) := hs.fades (fades_setVm s _ _)
      have hreceiver : (s.setVm r.vmm.pid fun _ => some .running).receiver = some r.vmm.pid := by
        simp [receiver, setVm, hpending]
      have hw : (s.setVm r.vmm.pid fun _ => some .running).waitingFor = some r.vmm.pid := by
        simp [waitingFor, setVm, hpending, hwaiting]
      split at h
      · cases h
        refine hfaded.adopt hreceiver ?_
        intro pid hmem _
        exact hfaded.toLoose.eq hmem (hfaded.waiting _ hw)
      · cases h
        exact hfaded.of_tables rfl rfl (.inr rfl) rfl hreceiver.symm
    · cases h
  · cases h

theorem sound_receiveFails (h : receiveFails s = some t) : Sound t := by
  unfold receiveFails at h
  split at h
  · rename_i r hpending
    split at h
    · rename_i hwaiting
      cases h
      refine hs.of_tables rfl rfl (.inr ?_) rfl ?_
      · simp [waitingFor, PendingReceive.lost, hwaiting]
      · simp [receiver, PendingReceive.lost, hpending]
    · cases h
  · cases h

theorem sound_step {e : Event} (hc : careful s e) (h : step s e = some t) : Sound t := by
  cases e with
  | request op env =>
    simp only [step] at h
    split at h
    · cases h
    · cases h
      exact Op.sound_run hs hc
  | restart cut env =>
    cases cut with
    | none =>
      cases h
      exact sound_start hs hc
    | some cut => exact absurd hc false_ne_true
  | received => exact sound_received hs h
  | receiveFails => exact sound_receiveFails hs h
  | exits pid =>
    cases h
    exact hs.fades (fades_exit s pid)
  | drifts pid vm =>
    cases h
    exact hs.fades (fades_setVm s pid _)

end

theorem sound_empty : Sound empty :=
  Quiet.sound ⟨⟨Nat.zero_le 1, nofun, nofun⟩, rfl⟩

/-- In every run of careful steps the processes are tracked. -/
theorem run_tracked (s : Host)
    (h : Reach step (fun s e => careful s e = true) (fun s => s = empty) s) : Tracked s := by
  have hsound : Sound s := by
    refine h.invariant ?_ fun s t e hs hc hstep => sound_step hs hc hstep
    rintro s rfl
    exact sound_empty
  exact hsound.tracked

/-- A VM comes to the host, survives a restart of the agent, and is powered off and on. -/
def arrival : List Event :=
  [.request (.prepareReceive 4000) goodEnv, .request .finalizeReceive goodEnv, .received,
    .restart none goodEnv, .request (.ensure .stopped) goodEnv, .request (.ensure .running) goodEnv]

theorem run_tracked_arrival : (final step empty arrival).pids = [1] ∧
    Tracked (final step empty arrival) :=
  ⟨by decide, run_tracked _ (Reach.final (fun _ _ h => h) rfl (by decide) (by decide))⟩

/-- A receiver is prepared, and then discarded. -/
def discarded : List Event :=
  [.request (.prepareReceive 4000) goodEnv, .request .discard goodEnv]

/-- **A process nobody knows.**  A receiver that is discarded stays alive, since dropping its entry
does not end its process; and one that is prepared beside a managed VM is a second process. -/
theorem discarded_receiver_lives :
    (∃ s, Reach step anyStep (fun s => s = empty) s ∧ exec step empty discarded = some s ∧
      s.pids = [0] ∧ s.vms = none ∧ s.pending = none ∧ ¬ Tracked s) ∧
    ∃ s, Reach step anyStep (fun s => s = empty) s ∧ exec step empty beside = some s ∧
      s.pids = [0, 1] ∧ ¬ Tracked s := by
  refine ⟨⟨final step empty discarded, ?_, rfl, by decide⟩,
    ⟨final step empty beside, ?_, rfl, by decide⟩⟩
  · exact Reach.final_anyStep rfl rfl
  · exact Reach.final_anyStep rfl rfl

end VQuasar.Vmm
