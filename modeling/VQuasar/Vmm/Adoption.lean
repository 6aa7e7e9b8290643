import VQuasar.Vmm.Manager

/-!
# What a finalised migration leaves under management

`finalize_receive` takes any VM it finds in `vms` for the one it was asked to adopt ("Already adopted,
so a previous call succeeded").  That is right as long as nothing else put it there: a receiver must not
be prepared beside a VM that is under management, and `finalize_receive` must not be asked again once
`ensure` has launched a VMM of its own.  In the runs that keep to this, a `finalize_receive` that
returns `Ok` leaves the process of the last receiver in `vms`.
-/

namespace VQuasar.Vmm

open Futures Runs Host List Option
open Lifecycle (Power)

variable {s t : Host} {vmm : Handle}

/-- The process that the last `prepare_receive` to launch one launched. -/
def Host.prepared (s : Host) : Option Pid :=
  (s.launches.find? fun l => l.launcher == .prepareReceive).map Launch.pid

/-- Whether a `finalize_receive` returns `Ok` in this step: the one that is asked now, or one that
waited for the receive. -/
def finalizes (s : Host) : Event → Bool
  | .request .finalizeReceive env =>
    match (finalizeReceive env.detached s).2 with
    | .ok (some _) => true
    | .ok none | .err | .dropped => false
  | .received => s.pending.any fun r => r.finalizing
  | .request _ _ | .restart _ _ | .receiveFails | .exits _ | .drifts _ _ => false

/-- The VM under management is the last receiver, and no other launch had its pid. -/
def AdoptsPrepared (s : Host) : Prop :=
  s.managed.isSome ∧ s.managed = s.prepared ∧ (s.launches.map Launch.pid).Nodup

instance (s : Host) : Decidable (AdoptsPrepared s) := inferInstanceAs (Decidable (_ ∧ _ ∧ _))

/-- A receiver is launched where no VM is under management. -/
def Op.fits (s : Host) : Op → Bool
  | .prepareReceive _ => s.pending.isSome || s.vms.isNone
  | .ensure _ | .delete | .discard | .sendMigration _ | .finalizeReceive => true

/-- The steps that leave no doubt who launched the VM under management: `finalize_receive` is asked
before anything is adopted, or while the last launch is that of a receiver. -/
def fits (s : Host) : Event → Bool
  | .request .finalizeReceive _ =>
    s.vms.isNone || s.launches.head?.any fun l => l.launcher == .prepareReceive
  | .request op _ => op.fits s
  | .restart (some (op, _)) _ => op.fits s
  | .restart none _ | .received | .receiveFails | .exits _ | .drifts _ _ => true

/-! ## Invariant -/

/-- The tables and the launches: the receiver is the last one prepared; after the launch of a receiver
nothing else is under management; and the socket is that of the last launch. -/
structure Linked (s : Host) : Prop where
  receiver : ∀ pid, s.receiver = some pid → s.prepared = some pid
  vms : ∀ pid, s.launches.head? = some ⟨.prepareReceive, pid⟩ → ∀ q, s.managed = some q → q = pid
  socket : ∀ pid, s.socket = some pid → s.launches.head?.map Launch.pid = some pid
  below : ∀ l ∈ s.launches, l.pid < s.nextPid
  nodup : (s.launches.map Launch.pid).Nodup

theorem prepared_of_head {pid : Pid} (h : s.launches.head? = some ⟨.prepareReceive, pid⟩) :
    s.prepared = some pid := by
  obtain ⟨rest, hl⟩ := List.head?_eq_some_iff.mp h
  rw [prepared, hl]
  rfl

section Steps

variable {s t : Host}

theorem Linked.of_tables (h : Linked s) (hlaunches : t.launches = s.launches)
    (hnext : t.nextPid = s.nextPid) (hreceiver : ∀ pid, t.receiver = some pid → s.receiver = some pid)
    (hmanaged : ∀ pid, t.managed = some pid → s.managed = some pid)
    (hsocket : ∀ pid, t.socket = some pid → s.socket = some pid) : Linked t where
  receiver := by
    intro pid hp
    rw [prepared, hlaunches]
    exact h.receiver pid (hreceiver pid hp)
  vms := by
    intro pid hhead q hq
    rw [hlaunches] at hhead
    exact h.vms pid hhead q (hmanaged q hq)
  socket := by
    intro pid hp
    rw [hlaunches]
    exact h.socket pid (hsocket pid hp)
  below := by rw [hlaunches, hnext]; exact h.below
  nodup := by rw [hlaunches]; exact h.nodup

theorem Linked.fades (h : Fades s t) (hs : Linked s) : Linked t :=
  hs.of_tables h.launches h.nextPid (by rw [h.receiver]; exact fun _ => id)
    (by rw [managed, managed, h.vms]; exact fun _ => id) (by rw [h.socket]; exact fun _ => id)

section

variable (h : Linked s)
include h

theorem Linked.unmanage : Linked s.unmanage :=
  h.of_tables rfl rfl (fun _ => id) nofun fun _ => id

theorem Linked.dropPending : Linked s.dropPending :=
  h.of_tables rfl rfl nofun (fun _ => id) fun _ => id

theorem Linked.removeVmDir : Linked s.removeVmDir :=
  h.of_tables rfl rfl (fun _ => id) (fun _ => id) nofun

theorem Linked.storeRecord : Linked s.storeRecord :=
  h.of_tables rfl rfl (fun _ => id) (fun _ => id) fun _ => id

theorem Linked.awaitReceive : Linked s.awaitReceive := by
  refine h.of_tables rfl rfl ?_ (fun _ => id) fun _ => id
  intro pid hp
  simpa [Host.receiver, Host.awaitReceive] using hp

theorem Linked.manage
    (hlast : ∀ pid, s.launches.head? = some ⟨.prepareReceive, pid⟩ → vmm.pid = pid) :
    Linked (s.manage vmm) where
  receiver := h.receiver
  vms := by
    intro pid hhead q hq
    exact (some.inj hq).symm.trans (hlast pid hhead)
  socket := h.socket
  below := h.below
  nodup := h.nodup

theorem Linked.adopt {r : PendingReceive} (hr : s.receiver = some r.vmm.pid) :
    Linked (s.adopt r) := by
  refine (h.manage ?_).dropPending
  intro pid hhead
  exact some.inj ((h.receiver _ hr).symm.trans (prepared_of_head hhead))

theorem Linked.spawned (launcher : Launcher) :
    (∀ l ∈ (s.spawn launcher).launches, l.pid < (s.spawn launcher).nextPid) ∧
      ((s.spawn launcher).launches.map Launch.pid).Nodup := by
  refine ⟨?_, ?_⟩
  · intro l hl
    rcases mem_cons.mp hl with rfl | hl
    · exact Nat.lt_succ_self _
    · exact Nat.lt_succ_of_lt (h.below l hl)
  · show (s.nextPid :: s.launches.map Launch.pid).Nodup
    refine nodup_cons.mpr ⟨?_, h.nodup⟩
    intro hmem
    obtain ⟨l, hl, hpid⟩ := mem_map.mp hmem
    exact absurd hpid (Nat.ne_of_lt (h.below l hl))

theorem Linked.spawn_ensure : Linked (s.spawn .ensure) where
  receiver := h.receiver
  vms := by
    intro pid hhead
    cases hhead
  socket := fun pid hp => hp
  below := (h.spawned _).1
  nodup := (h.spawned _).2

theorem Linked.spawn_prepareReceive (hpending : s.pending = none)
    (hvms : s.vms = none) : Linked (s.spawn .prepareReceive) where
  receiver := by
    intro pid hp
    have hp' : s.receiver = some pid := hp
    simp [Host.receiver, hpending] at hp'
  vms := by
    intro pid _ q hq
    have hq' : s.managed = some q := hq
    simp [managed, hvms] at hq'
  socket := fun pid hp => hp
  below := (h.spawned _).1
  nodup := (h.spawned _).2

theorem Linked.receive (url : Nat) (hp : s.prepared = some vmm.pid) :
    Linked (s.receive vmm url) where
  receiver := by
    intro pid hr
    exact hp.trans hr
  vms := h.vms
  socket := h.socket
  below := h.below
  nodup := h.nodup

end

end Steps

/-! ## Handlers -/

section Handlers

variable {env : Env} {isNew : Bool}

theorem triple_spawn {launcher : Launcher} {P I : Host → Prop} {Q : Handle → Host → Prop}
    (hP : ∀ s, P s → I s) (hQ : ∀ vmm s, Q vmm s → I s)
    (hspawn : ∀ s, P s → Q ⟨s.nextPid, true⟩ (s.spawn launcher)) :
    Triple P (launch env launcher) (orElse Q I) := by
  unfold launch
  refine triple_bind (R := fun _ => P) (triple_conseq (keeps_call fun _ hs => hs) (fun _ hs => hs)
    (fun _ _ hs => hs) hP hP) fun _ => triple_read_bind fun pid => ?_
  split
  · refine triple_act_bind (R := Q ⟨pid, true⟩) ?_ (triple_bind (R := fun _ => Q ⟨pid, true⟩) ?_
      fun _ => triple_pure fun _ hs => hs)
    · rintro s ⟨hs, rfl⟩
      exact hspawn s hs
    · exact triple_conseq (keeps_call fun _ hs => hs) (fun _ hs => hs) (fun _ _ hs => hs) (hQ _) (hQ _)
  · exact triple_fail fun s hs => hP s hs.1

theorem linked_reach {a : Await} {effect : Host → Host} (h : ∀ s, Fades s (effect s)) :
    Triple Linked (reach env a effect) (always Linked) :=
  keeps_reach fun s => Linked.fades (h s)

theorem linked_terminate : Triple Linked (call (env .terminate) (terminate vmm)) (always
    Linked) :=
  keeps_call fun s => Linked.fades (fades_terminate vmm s)

theorem linked_putDown : Triple Linked (putDown env vmm) (always Linked) := by
  unfold putDown
  exact keeps_bind (keeps_attempt (linked_reach (fades_api _))) fun _ => linked_terminate

theorem linked_closeVmm : Triple Linked (closeVmm env) (always Linked) := by
  unfold closeVmm
  refine keeps_bind keeps_read fun vms => ?_
  split
  · exact keeps_bind (keeps_act fun _ => Linked.unmanage) fun _ => linked_putDown
  · exact keeps_pure

theorem linked_reclaim : Triple Linked (reclaim env) (always Linked) := by
  unfold reclaim
  refine keeps_bind (keeps_attempt keeps_ask) fun answer => keeps_bind keeps_read fun vm =>
    keeps_bind keeps_read fun stale => ?_
  split
  · exact keeps_bind (keeps_act fun _ => Linked.unmanage) fun _ =>
      keeps_bind (keeps_attempt linked_terminate) fun _ =>
      keeps_bind (keeps_attempt (keeps_call fun _ hs => hs)) fun _ => keeps_pure
  · exact keeps_pure

/-- The last launch is one of `ensure`. -/
def LastEnsure (s : Host) : Prop := Linked s ∧ s.launches.head?.map Launch.launcher = some .ensure

theorem LastEnsure.manage (h : LastEnsure s) (vmm : Handle) : Linked (s.manage vmm) := by
  refine h.1.manage ?_
  intro pid hhead
  have hlast := h.2
  simp [hhead] at hlast

theorem linked_ensureVmm : Triple Linked (ensureVmm env isNew) (always Linked) := by
  unfold ensureVmm
  refine keeps_bind (keeps_call fun _ hs => hs) fun _ => ?_
  split
  · exact triple_bind (triple_spawn (fun _ hs => hs) (fun _ _ hs => hs.1) fun s hs =>
      (⟨hs.spawn_ensure, rfl⟩ : LastEnsure (s.spawn .ensure)))
      fun vmm => triple_act fun _ hs => LastEnsure.manage hs vmm
  · exact keeps_pure

theorem linked_bringUp : Triple Linked (bringUp env isNew) (always Linked) := by
  unfold bringUp
  refine keeps_bind (linked_reach (fades_api _)) fun _ => keeps_bind ?_ fun _ =>
    keeps_bind (keeps_attempt (linked_reach (fades_api _))) fun booted => ?_
  · split
    · exact keeps_pure
    · exact keeps_ask
  · split
    · exact keeps_observe
    · exact keeps_bind linked_reclaim fun _ => keeps_fail

theorem linked_ensure {desired : Power} : Triple Linked (ensure env desired) (always Linked) := by
  unfold ensure
  refine keeps_bind (keeps_call fun _ hs => hs) fun _ =>
    keeps_bind (keeps_call fun _ => Linked.storeRecord) fun _ =>
    keeps_bind (keeps_call fun _ hs => hs) fun _ => ?_
  cases desired with
  | stopped =>
    exact keeps_bind linked_closeVmm fun _ => keeps_bind (keeps_call fun _ hs => hs) fun _ => keeps_pure
  | running =>
    exact keeps_bind keeps_read fun _ => keeps_bind linked_ensureVmm fun _ => linked_bringUp

theorem linked_teardown : Triple Linked (teardown env) (always Linked) := by
  unfold teardown
  refine keeps_bind (keeps_act fun _ => Linked.dropPending) fun _ =>
    keeps_bind (keeps_call fun _ hs => hs) fun _ => keeps_bind keeps_read fun vms => ?_
  split
  · exact keeps_fail
  · exact keeps_bind (keeps_act fun _ => Linked.unmanage) fun _ => keeps_bind linked_putDown fun _ =>
      keeps_bind (keeps_attempt (keeps_call fun _ hs => hs)) fun _ =>
      keeps_call fun _ => Linked.removeVmDir

theorem linked_discard : Triple Linked (discard env) (always Linked) := by
  unfold discard
  refine keeps_bind keeps_read fun hadReceiver =>
    keeps_bind (keeps_act fun _ => Linked.dropPending) fun _ =>
    keeps_bind (keeps_call fun _ hs => hs) fun _ => keeps_bind keeps_read fun managed => ?_
  split
  · exact keeps_pure
  · exact linked_teardown

/-- The process of a handle is that of the last receiver. -/
def LastPrepared (vmm : Handle) (s : Host) : Prop := Linked s ∧ s.prepared = some vmm.pid

theorem linked_prepareReceive {url : Nat} :
    Triple (fun s => Linked s ∧ (Op.prepareReceive url).fits s = true) (prepareReceive env url)
      (always Linked) := by
  unfold prepareReceive
  refine triple_read_bind fun pending => ?_
  split
  · exact triple_pure fun _ hs => hs.1.1
  -- a new receiver: neither table has an entry
  refine always_imp (P := fun s => Linked s ∧ s.pending = none ∧ s.vms = none) ?_ ?_ fun _ hs => hs
  · refine always_bind (keeps_call fun s hs => ⟨hs.1.storeRecord, hs.2⟩) (fun _ hs => hs.1) fun _ => ?_
    refine triple_bind (R := LastPrepared) (triple_spawn (fun _ hs => hs.1) (fun _ _ hs => hs.1)
      fun s hs => ⟨hs.1.spawn_prepareReceive hs.2.1 hs.2.2, rfl⟩) fun vmm => ?_
    refine always_bind (keeps_call fun _ hs => hs) (fun _ hs => hs.1) fun _ => ?_
    exact triple_act_bind (fun _ hs => hs.1.receive url hs.2) keeps_pure
  · rintro s ⟨⟨hs, hfits⟩, hpending⟩
    refine ⟨hs, hpending, ?_⟩
    simpa [Op.fits, hpending] using hfits

theorem linked_sendMigration {husk : Husk} :
    Triple Linked (sendMigration env husk) (always Linked) := by
  unfold sendMigration
  refine keeps_bind keeps_read fun vms => ?_
  split
  · exact keeps_fail
  · exact linked_reach husk.fades

theorem Linked.recovered {pid : Pid} (h : Linked s) (hsocket : s.socket = some pid) : Linked
    (s.manage ⟨pid, false⟩) := by
  refine h.manage ?_
  intro p hhead
  have hlast := h.socket pid hsocket
  rw [hhead] at hlast
  exact (some.inj hlast).symm

theorem linked_recover : Triple Linked (recover env) (always Linked) := by
  unfold recover
  refine keeps_bind keeps_read fun record => ?_
  split
  · refine keeps_bind (keeps_attempt (keeps_call fun _ hs => hs)) fun loaded => ?_
    split
    · exact keeps_pure
    refine keeps_bind (keeps_attempt keeps_ask) fun answer => keeps_bind keeps_read fun vm =>
      triple_read_bind fun socket => ?_
    split
    · exact triple_act fun _ hs => hs.1.recovered hs.2
    · exact always_imp (I := Linked) (keeps_bind (keeps_attempt (keeps_call fun _ =>
        Linked.removeVmDir)) fun _ => keeps_pure) (fun _ hs => hs.1) fun _ hs => hs
  · exact keeps_pure

theorem AdoptsPrepared.of_adopt {r : PendingReceive} (h : Linked s) (hr : s.receiver = some
    r.vmm.pid) : AdoptsPrepared (s.adopt r) :=
  ⟨rfl, (h.receiver _ hr).symm, h.nodup⟩

theorem AdoptsPrepared.of_head (h : Linked s) (hvms : s.vms = some vmm) (hhead :
    s.launches.head?.any (fun l => l.launcher == .prepareReceive) = true) : AdoptsPrepared s := by
  obtain ⟨⟨launcher, pid⟩, hl, hlauncher⟩ := (any_eq_true _ _).mp hhead
  obtain rfl : launcher = .prepareReceive := by simpa using hlauncher
  have hmanaged : s.managed = some vmm.pid := by rw [managed, hvms]; rfl
  refine ⟨by rw [hmanaged]; rfl, ?_, h.nodup⟩
  rw [hmanaged, h.vms pid hl vmm.pid hmanaged, prepared_of_head hl]

theorem linked_finalizeReceive : Triple Linked (finalizeReceive env) (always Linked) := by
  unfold finalizeReceive
  refine keeps_bind (keeps_call fun _ hs => hs) fun _ => keeps_bind keeps_read fun vms => ?_
  split
  · exact keeps_bind keeps_observe fun _ => keeps_pure
  refine triple_read_bind fun pending => ?_
  split
  · exact triple_fail fun _ hs => hs.1
  split
  · refine triple_act_bind ?_ (keeps_bind keeps_observe fun _ => keeps_pure)
    rintro s ⟨hs, hpending⟩
    exact hs.adopt (by rw [receiver, hpending]; rfl)
  · exact triple_fail fun _ hs => hs.1
  · exact triple_act_bind (fun _ hs => hs.1.awaitReceive) keeps_pure

theorem finalizeReceive_adopts :
    Triple (fun s => Linked s ∧ fits s (.request .finalizeReceive env) = true) (finalizeReceive env)
      ⟨fun answer s => answer.isSome = true → AdoptsPrepared s, fun _ => True, fun _ => True⟩ := by
  have hobserve : Triple AdoptsPrepared (some <$> observe env)
      ⟨fun answer s => answer.isSome = true → AdoptsPrepared s, fun _ => True, fun _ => True⟩ :=
    triple_conseq (keeps_bind keeps_observe fun _ => keeps_pure) (fun _ hs => hs)
      (fun _ _ hs _ => hs) (fun _ _ => trivial) (fun _ _ => trivial)
  unfold finalizeReceive
  refine triple_bind (triple_conseq (keeps_call fun _ hs => hs) (fun _ hs => hs) (fun _ _ hs => hs)
    (fun _ _ => trivial) (fun _ _ => trivial)) fun _ => triple_read_bind fun vms => ?_
  split
  · refine triple_conseq hobserve ?_ (fun _ _ hs => hs) (fun _ hs => hs) (fun _ hs => hs)
    rintro s ⟨⟨hs, hfits⟩, hvms⟩
    exact .of_head hs hvms (by simpa [fits, hvms] using hfits)
  · refine triple_read_bind fun pending => ?_
    split
    · exact triple_fail fun _ _ => trivial
    split
    · refine triple_act_bind ?_ hobserve
      rintro s ⟨⟨⟨hs, _⟩, _⟩, hpending⟩
      exact .of_adopt hs (by rw [receiver, hpending]; rfl)
    · exact triple_fail fun _ _ => trivial
    · -- no answer yet
      exact triple_act_bind (R := fun _ => True) (fun _ _ => trivial)
        (triple_pure fun _ _ h => absurd h Bool.false_ne_true)

end Handlers

/-! ## Steps and runs -/

section

variable (hs : Linked s) {env : Env}
include hs

theorem Op.linked_run {op : Op} (hf : op.fits s) : Linked (op.run env s) := by
  cases op with
  | ensure desired => exact done_of_triple linked_ensure hs
  | delete => exact done_of_triple linked_teardown hs
  | discard => exact done_of_triple linked_discard hs
  | prepareReceive url => exact done_of_triple linked_prepareReceive ⟨hs, hf⟩
  | sendMigration husk => exact done_of_triple linked_sendMigration hs
  | finalizeReceive => exact done_of_triple linked_finalizeReceive hs

theorem linked_start : Linked (start env s) :=
  done_of_triple linked_recover (hs.of_tables rfl rfl nofun nofun fun _ => id)

theorem linked_received (h : received s = some t) : Linked t ∧ (s.pending.any (fun r
    => r.finalizing) = true → AdoptsPrepared t) := by
  unfold received at h
  split at h
  · rename_i r hpending
    split at h
    · have hfaded : Linked (s.setVm r.vmm.pid fun _ => some .running) := hs.fades (fades_setVm s _ _)
      have hreceiver : (s.setVm r.vmm.pid fun _ => some .running).receiver = some r.vmm.pid := by
        simp [receiver, setVm, hpending]
      split at h
      · cases h
        exact ⟨hfaded.adopt hreceiver, fun _ => .of_adopt hfaded hreceiver⟩
      rename_i hnot
      cases h
      refine ⟨hfaded.of_tables rfl rfl ?_ (fun _ => id) fun _ => id, ?_⟩
      · intro pid hp
        exact hreceiver.trans hp
      · intro hfinalizing
        rw [hpending] at hfinalizing
        exact absurd hfinalizing hnot
    · cases h
  · cases h

theorem linked_receiveFails (h : receiveFails s = some t) : Linked t := by
  unfold receiveFails at h
  split at h
  · rename_i r hpending
    split at h
    · cases h
      refine hs.of_tables rfl rfl ?_ (fun _ => id) fun _ => id
      intro pid hp
      simpa [receiver, hpending, PendingReceive.lost] using hp
    · cases h
  · cases h

theorem linked_step {e : Event} (hf : fits s e) (h : step s e = some t) : Linked t := by
  cases e with
  | request op env =>
    simp only [step] at h
    split at h
    · cases h
    cases h
    refine Op.linked_run hs ?_
    cases op with
    | finalizeReceive | ensure | delete | discard => rfl
    | prepareReceive url => exact hf
    | sendMigration _ => rfl
  | restart cut env =>
    cases cut with
    | none =>
      cases h
      exact linked_start hs
    | some cut =>
      simp only [step] at h
      split at h
      · cases h
      · cases h
        exact linked_start (Op.linked_run hs hf)
  | received => exact (linked_received hs h).1
  | receiveFails => exact linked_receiveFails hs h
  | exits pid =>
    cases h
    exact hs.fades (fades_exit s pid)
  | drifts pid vm =>
    cases h
    exact hs.fades (fades_setVm s pid _)

end

theorem linked_empty : Linked empty :=
  ⟨nofun, nofun, nofun, nofun, nodup_nil⟩

/-- A step in which `finalize_receive` returns `Ok` leaves the last receiver under management. -/
theorem adopts_of_finalizes {e : Event} (hs : Linked s) (hf : fits s e) (h : step s e = some
    t) (hok : finalizes s e) : AdoptsPrepared t := by
  cases e with
  | request op env =>
    cases op with
    | finalizeReceive =>
      simp only [step] at h
      split at h
      · cases h
      cases h
      have hfin : Post.Holds _ (finalizeReceive env.detached s) :=
        finalizeReceive_adopts s ⟨hs, hf⟩
      show AdoptsPrepared (finalizeReceive env.detached s).1
      simp only [finalizes] at hok
      cases hres : finalizeReceive env.detached s with
      | mk t r =>
        rw [hres] at hfin hok
        split at hok
        · rename_i hr
          obtain rfl : r = _ := hr
          exact hfin rfl
        · cases hok
        · cases hok
        · cases hok
    | ensure | delete | discard | prepareReceive | sendMigration => cases hok
  | received => exact (linked_received hs h).2 hok
  | restart | receiveFails | exits | drifts => cases hok

/-- In every run of fitting steps, whenever `finalize_receive` returns `Ok` the process then under
management is that of the last receiver. -/
theorem run_adopts_prepared (s t : Host) (e : Event)
    (hr : Reach step (fun s e => fits s e = true) (fun s => s = empty) s)
    (hf : fits s e) (h : step s e = some t) (hok : finalizes s e) : AdoptsPrepared t := by
  have hs : Linked s := by
    refine hr.invariant ?_ fun s t e hs hf hstep => linked_step hs hf hstep
    rintro s rfl
    exact linked_empty
  exact adopts_of_finalizes hs hf h hok

/-- A receiver is prepared, and its guest arrives. -/
def arrived : List Event := [.request (.prepareReceive 4000) goodEnv, .received]

theorem run_adopts_prepared_arrived :
    ∃ t, step (final step empty arrived) (.request .finalizeReceive goodEnv) = some t ∧
      AdoptsPrepared t :=
  ⟨_, rfl, run_adopts_prepared (final step empty arrived) _ (.request .finalizeReceive goodEnv)
    (Reach.final (fun _ _ h => h) rfl (by decide) (by decide)) (by decide) rfl (by decide)⟩

/-- **Another VM is taken for the receiver.**  Process 0 was under management before process 1 was
launched to receive; `finalize_receive` returns `Ok`, and what is under management is process 0. -/
theorem older_vmm_adopted :
    ∃ s t, Reach step anyStep (fun s => s = empty) s ∧ exec step empty beside = some s ∧
      step s (.request .finalizeReceive goodEnv) = some t ∧
      finalizes s (.request .finalizeReceive goodEnv) = true ∧ t.managed = some 0 ∧
      t.prepared = some 1 ∧ ¬ AdoptsPrepared t := by
  refine ⟨final step empty beside, _, ?_, rfl, rfl, by decide⟩
  exact Reach.final_anyStep rfl rfl

end VQuasar.Vmm
