import VQuasar.Lifecycle.Rest
import VQuasar.Tenancy.Api

/-!
# Requests on a volume whose file a guest has open

One volume beside one VM: where `attached_vm_id` points, whether the VM's spec lists the volume's
file, whether a pass carries a spec that does, and on which hosts a VMM of the VM may have the file
open.  `detach`, `create_snapshot`, `revert_snapshot`, `delete_snapshot` and `delete` read the
volume, then the VM it is attached to, and go by the `phase` they find; the VM goes through its
lifecycle in between.

* A new VMM opens the disks of the spec it is created with, and an existing one those that
  `reconfigure` hot-adds.  There is no hot-unplug: a file stays open until the process is gone.
* The receiver of a migration has open what the source had.
* `delete_vm_row` detaches the VM's volumes.

`opened` is kept for each host and not for each process, so it can only say too much.

`accepted_while_held` are runs in which each of the five requests is accepted while host 0 executes
the guest with the file open.  `accepted_not_held` shows that this does not happen in runs whose
steps are `careful`: there, a volume attached to the VM is touched only while the VM is at rest.
-/

namespace VQuasar.Lifecycle

open Runs List Option Bool

/-! ## The requests -/

/-- Where `attached_vm_id` points. -/
inductive Attached
  | no | here | elsewhere
deriving DecidableEq, Repr

inductive VolumeRequest
  | detach | createSnapshot | revertSnapshot | deleteSnapshot | delete
deriving DecidableEq, Repr

/-- `vm.phase == "Running" || vm.phase == "Starting"` -/
def VmRow.holdsDisks (r : VmRow) : Bool := r.phase == .running || r.phase == .starting

/-- The guards that look at the attachment; `locked` says that the VM it names has a row that
`holdsDisks`. -/
def VolumeRequest.passes (attached locked : Bool) : VolumeRequest → Bool
  | .detach => attached && !locked
  | .createSnapshot | .revertSnapshot => !(attached && locked)
  | .deleteSnapshot => true
  | .delete => !attached

section Handlers

open Tenancy (Write ToolRun Config Scope AuthUser Db Volume bind_eq_ok ensure_bind of_ensure orElse_bind
  ensure_eq_ok settle_induction attempt_induction)

def VolumeRequest.write (id snap : Tenancy.Id) (name : String) (tool : ToolRun) :
    VolumeRequest → Write
  | .detach => .detachVolume id
  | .createSnapshot => .createSnapshot id name tool
  | .revertSnapshot => .revertSnapshot id snap tool
  | .deleteSnapshot => .deleteSnapshot id snap tool
  | .delete => .deleteVolume id

variable {cfg : Config} {db : Db} {s : Scope} {u : AuthUser} {id : Tenancy.Id} {v : Volume}

/-- Whether the VM that the volume is attached to may hold its file, by its row. -/
def lockedIn (db : Db) (v : Volume) : Bool :=
  (v.attachedVm.bind db.vms.get).any Tenancy.Vm.holdsDisks

theorem dropDisk_unlocked {vmId : Tenancy.Id} {path : Tenancy.HostPath} {db' : Db}
    (hatt : v.attachedVm = some vmId) (h : db.dropDisk vmId path = .ok db') :
    lockedIn db v = false := by
  unfold Tenancy.Db.dropDisk at h
  unfold lockedIn
  rw [hatt, bind_some]
  split at h
  · next hnone => rw [hnone]; rfl
  · next vm hvm =>
    obtain ⟨hfree, -⟩ := ensure_bind.mp h
    rw [hvm]
    simpa using hfree

theorem snapshottable_unlocked {x : Unit} (h : db.snapshottable v = .ok x) :
    lockedIn db v = false := by
  replace h := of_ensure h
  replace h := of_ensure h
  simpa [lockedIn] using ensure_eq_ok.mp h

theorem perform_refused {q : VolumeRequest} (hv : db.getVolume s id = some v)
    (hq : q.passes v.attachedVm.isSome (lockedIn db v) = false) (snap : Tenancy.Id)
    (name : String) (tool : ToolRun) : (q.write id snap name tool).perform cfg s u db = db := by
  have hread : ∀ {w : Volume}, db.getVolume s id = some w → w = v :=
    fun hw => mem_unique hw hv
  cases q with
  | detach =>
    refine settle_induction (motive := (· = db)) rfl ?_
    intro db' view hrun
    obtain ⟨-, -, hrun⟩ := bind_eq_ok.mp hrun
    obtain ⟨w, hw, hrun⟩ := orElse_bind.mp hrun
    obtain rfl := hread hw
    obtain ⟨vmId, hatt, hrun⟩ := orElse_bind.mp hrun
    obtain ⟨db₁, hdrop, -⟩ := bind_eq_ok.mp hrun
    rw [dropDisk_unlocked hatt hdrop, hatt] at hq
    cases hq
  | createSnapshot =>
    refine attempt_induction (motive := (· = db)) rfl ?_
    intro w hrun
    obtain ⟨-, -, hrun⟩ := bind_eq_ok.mp hrun
    replace hrun := of_ensure hrun
    obtain ⟨w', hw, hrun⟩ := orElse_bind.mp hrun
    obtain rfl := hread hw
    obtain ⟨x, hsnap, -⟩ := bind_eq_ok.mp hrun
    simp [VolumeRequest.passes, snapshottable_unlocked hsnap] at hq
  | revertSnapshot =>
    refine attempt_induction (motive := (· = db)) rfl ?_
    intro w hrun
    obtain ⟨-, -, hrun⟩ := bind_eq_ok.mp hrun
    obtain ⟨w', hw, hrun⟩ := orElse_bind.mp hrun
    obtain rfl := hread hw
    replace hrun := of_ensure hrun
    obtain ⟨x, hsnap, -⟩ := bind_eq_ok.mp hrun
    simp [VolumeRequest.passes, snapshottable_unlocked hsnap] at hq
  | deleteSnapshot => cases hq
  | delete =>
    refine settle_induction (motive := (· = db)) rfl ?_
    intro db' view hrun
    obtain ⟨-, -, hrun⟩ := bind_eq_ok.mp hrun
    obtain ⟨w, hw, hrun⟩ := orElse_bind.mp hrun
    obtain rfl := hread hw
    obtain ⟨hnone, -⟩ := ensure_bind.mp hrun
    simp [VolumeRequest.passes, isNone_iff_eq_none.mp hnone] at hq

end Handlers

/-- A request between its store calls. -/
inductive VolumeCall
  -- the volume was read
  | read (q : VolumeRequest) (a : Attached)
  -- `detach` past its guard, with the power state of the spec it has read
  | checked (desired : Power)
  -- `detach` after `set_vm_spec`
  | written
deriving DecidableEq, Repr

/-! ## The volume beside the VM -/

structure DiskState where
  vm : State
  attached : Attached
  listed : Bool
  carried : Bool
  opened : HostId → Bool
  calls : List VolumeCall

inductive DiskEvent
  | vm (e : Event)
  /-- `create` with a spec that lists the file -/
  | createWith (desired : Power)
  /-- `set_vm_spec` of any other request -/
  | writeSpec (lists : Bool) (desired : Power)
  /-- `set_volume_attachment` of any other request -/
  | attachment (a : Attached)
  | readVolume (q : VolumeRequest)
  | check (i : Nat)
  | detachSpec (i : Nat)
  | detachRecord (i : Nat)
  | dropped (i : Nat)
deriving DecidableEq, Repr

namespace DiskState

variable (t : DiskState)

def put (i : Nat) (o : Option VolumeCall) : DiskState :=
  { t with calls := match o with
      | some c => t.calls.set i c
      | none => t.calls.eraseIdx i }

/-- Whether a request that has read the volume passes its guards now.  The guards on another VM
are taken as passed. -/
def accepts (q : VolumeRequest) (a : Attached) : Bool :=
  q.passes (a != .no) (a == .here && t.vm.row.any VmRow.holdsDisks)

/-- Whether host `x` executes the guest and has the file open. -/
def holding (x : HostId) : Bool := t.vm.executing x && t.opened x

/-- Whether the step `e` to `s'` opens the file on host `x`. -/
def opens (e : Event) (s' : State) (x : HostId) : Bool :=
  match e, t.vm.pc with
  | .call c, .ensureCall _ h =>
    x == h && t.carried && c.outcome != .fail && !c.ensure.prepare && !c.ensure.network &&
      (s'.agents x).managed.any VmmState.info
  | .call c, .migrationCall m =>
    match m.state, m.sourceHost, m.migrationUrl with
    | .sending, some h, some url =>
      x == url.host && t.opened h && c.outcome != .fail &&
        (sendMigration t.vm.agents h url c.husk).isSome
    | _, _, _ => false
  | _, _ => false

def vmStep (e : Event) : Option DiskState :=
  (step t.vm e).map fun s' =>
    { t with
      vm := s'
      attached := if t.vm.row.isSome && s'.row.isNone && t.attached == .here then .no
        else t.attached
      listed := t.vm.row.isSome && s'.row.isSome && t.listed
      carried := if e = .beginReconcile then t.listed else t.carried
      opened := fun x => (s'.agents x).anyAlive && (t.opened x || t.opens e s' x) }

def setSpec (lists : Bool) (desired : Power) : Option DiskState :=
  (t.vmStep (.setPower desired)).map fun t' => { t' with listed := t'.vm.row.isSome && lists }

end DiskState

/-- Where an accepted request goes on with this VM: only `detach` writes to it. -/
def VolumeRequest.next (row : Option VmRow) : VolumeRequest → Attached → Option VolumeCall
  | .detach, .here =>
    match row with
    | some r => some (.checked r.desired)
    | none => some .written
  | _, _ => none

variable (t : DiskState)

def diskStep : DiskEvent → Option DiskState
  | .vm e => t.vmStep e
  | .createWith d => (t.vmStep (.create d)).map fun t' => { t' with listed := true }
  | .writeSpec lists d => t.setSpec lists d
  | .attachment a => some { t with attached := a }
  | .readVolume q => some { t with calls := t.calls ++ [.read q t.attached] }
  | .check i =>
    match t.calls[i]? with
    | some (.read q a) => some (t.put i (if t.accepts q a then q.next t.vm.row a else none))
    | _ => none
  | .detachSpec i =>
    match t.calls[i]? with
    | some (.checked d) => (t.setSpec false d).map fun t' => t'.put i (some .written)
    | _ => none
  | .detachRecord i =>
    match t.calls[i]? with
    | some .written => some ({ t with attached := .no }.put i none)
    | _ => none
  | .dropped i => some (t.put i none)

def DiskInit : Prop :=
  Init t.vm ∧ t.attached ≠ .here ∧ t.listed = false ∧ t.carried = false ∧
    (∀ x, t.opened x = false) ∧ t.calls = []

/-! ## The condition on steps -/

/-- The VM is gone, or at rest with no migration active. -/
def DiskState.resting : Bool :=
  t.vm.row.all fun r => r.atRest && !t.vm.activeMigration

/-- The steps under which no request is accepted on an open file:
* the steps of the VM are `tidy`;
* a pass takes up a spec that lists the file only when the volume is recorded as attached here;
* only `detach` and the removal of the row take the attachment away, and no spec that lists the file
  is written while a `detach` is about to record its end;
* a request on a volume attached here, and the `set_vm_spec` of a `detach`, find the VM at rest; one
  on another volume finds that it still is not attached. -/
def careful : DiskEvent → Bool
  | .vm e => tidy t.vm e && (e != .beginReconcile || !t.listed || t.attached == .here)
  | .createWith _ => !t.calls.contains .written
  | .writeSpec lists _ => !lists || !t.calls.contains .written
  | .attachment a => a == .here || t.attached != .here
  | .check i =>
    match t.calls[i]? with
    -- `delete` refuses an attached volume by itself
    | some (.read q .here) => q == .delete || t.resting
    | some (.read _ _) => t.attached != .here
    | _ => true
  | .detachSpec _ => t.resting
  | _ => true

/-! ## The invariant -/

/-- The program points of a pass that has taken up a spec and not yet sent it. -/
def Pc.ensures : Pc → Bool
  | .schedule _ | .assign _ _ | .place _ _ | .ensureCall _ _ => true
  | _ => false

/-- No VMM has the file open, and no pass is about to open it. -/
structure DiskState.Free (t : DiskState) : Prop where
  opened : ∀ x, t.opened x = false
  carried : t.vm.pc.ensures → t.carried = false

structure DiskInv (t : DiskState) : Prop where
  clean : Clean t.vm
  rest : Rest t.vm
  alive : ∀ x, t.opened x → (t.vm.agents x).anyAlive
  free : t.attached ≠ .here → t.Free
  unlisted : t.vm.row = none → t.listed = false
  written : .written ∈ t.calls → t.Free ∧ t.listed = false

section

variable {t t' : DiskState} {e : Event}

variable {o : Option VolumeCall} {a : Attached} {i : Nat} {s : State} {d : Power}

theorem mem_put {c : VolumeCall} (h : c ∈ (t.put i o).calls) : c ∈ t.calls ∨ o = some c := by
  cases o with
  | none => exact .inl (mem_of_mem_eraseIdx h)
  | some c' =>
    rcases mem_or_eq_of_mem_set h with hin | heq
    · exact .inl hin
    · exact .inr (congrArg some heq.symm)

theorem DbGoes.ensures {pc pc' : Pc} (h : DbGoes s pc pc') (hpc' : pc'.ensures) : pc.ensures := by
  cases h with
  | assigned | placed => rfl
  | advanced m =>
    rcases advanceMigration_cases s m with hp | hp | hp | hp <;> rw [hp] at hpc' <;> cases hpc'
  | moved => cases hpc'
  | ends _ _ h => rcases h with rfl | rfl | rfl | rfl <;> cases hpc'

theorem ensures_of_step {s' : State} (hs : step s e = some s') (he : e ≠ .beginReconcile)
    (hpc' : s'.pc.ensures) : s.pc.ensures := by
  cases step_kind hs with
  | db he' hs => exact (dbStep_goes hs).ensures hpc'
  | call c he' hs =>
    have hgoes := (callStep_effect hs).goes
    generalize s.pc = pc₀ at hgoes
    generalize s'.pc = pc' at hgoes hpc'
    cases hgoes with
    | failed m pc hp => rcases hp with rfl | rfl <;> cases hpc'
    | _ => cases hpc'
  | crash he' hs' =>
    subst hs'
    cases hpc'
  | exits x v he' hs' | host x st he' hs' =>
    subst hs'
    exact hpc'
  | api hs => exact (apiStep_effect hs).pc ▸ hpc'
  | begins hs =>
    obtain ⟨pc, rfl, hgoes⟩ := beginStep_effect hs
    have hpc' : pc.ensures := hpc'
    generalize s.pc = pc₀ at hgoes
    cases hgoes with
    | deletes | places | schedules => exact absurd rfl he
    | recovers | advances => cases hpc'
    | scheduled => rfl
    | defers vm _ _ hp hp' => rcases hp' with rfl | rfl <;> cases hpc'

/-- A pass that carries a spec carries it for a row that exists and is not at rest. -/
theorem ensures_row (hc : Clean s) (hr : Rest s) (hpc : s.pc.ensures) :
    ∃ r, s.row = some r ∧ r.atRest = false := by
  have hhome := hc.pc
  have hrest := hr.pc
  have hfinish : ∀ {vm o}, s.home = some o → Ensuring s vm → ∃ r, s.row = some r ∧ r.atRest = false := by
    intro vm o ho hens
    obtain ⟨r, hrow, -⟩ := map_eq_some_iff.mp ho
    exact ⟨r, hrow, (hens r hrow).2⟩
  cases hp : s.pc with
  | schedule vm =>
    rw [hp] at hhome hrest
    exact hfinish hhome hrest
  | assign vm x =>
    rw [hp] at hhome hrest
    exact hfinish hhome.1 hrest
  | place | ensureCall =>
    rw [hp] at hhome hrest
    exact hfinish hhome hrest
  | _ =>
    rw [hp] at hpc
    cases hpc

theorem free_of_resting (hc : Clean t.vm) (hr : Rest t.vm)
    (halive : ∀ x, t.opened x → (t.vm.agents x).anyAlive) (h : t.resting) : t.Free := by
  have hdead : ∀ x, (t.vm.agents x).anyAlive = false := by
    intro x
    cases hrow : t.vm.row with
    | none => exact hc.anyAlive hrow x
    | some r =>
      simp only [DiskState.resting, hrow, all_some, and_eq_true, not_eq_true'] at h
      exact rest_anyAlive hr hc hrow h.1 h.2 x
  refine ⟨?_, ?_⟩
  · intro x
    by_contra hx
    have hyes := halive x (by simpa using hx)
    simp [hdead x] at hyes
  · intro hpc
    obtain ⟨r, hrow, hno⟩ := ensures_row hc hr hpc
    simp [DiskState.resting, hrow, hno] at h

theorem DiskState.Free.opens (h : t.Free) (s' : State) (x : HostId) : t.opens e s' x = false := by
  unfold DiskState.opens
  split
  · next c vm y hpc =>
    have hcar := h.carried (by rw [hpc]; rfl)
    simp [hcar]
  · split
    · next y url _ _ _ => simp [h.opened y]
    · rfl
  · rfl

theorem DiskState.Free.vmStep (h : t.Free) (hs : t.vmStep e = some t')
    (hl : e = .beginReconcile → t.listed = false) : t'.Free := by
  obtain ⟨s', hs', rfl⟩ := map_eq_some_iff.mp hs
  refine ⟨?_, ?_⟩
  · intro x
    simp [h.opened x, h.opens s' x]
  · intro hpc
    show (if e = .beginReconcile then t.listed else t.carried) = false
    split
    · next he => exact hl he
    · next he => exact h.carried (ensures_of_step hs' he hpc)

theorem DiskInv.vmStep (h : DiskInv t) (hs : t.vmStep e = some t') (hok : tidy t.vm e)
    (hl : e = .beginReconcile → t.listed → t.attached = .here) : DiskInv t' := by
  have hfree := fun (hf : t.Free) => hf.vmStep hs
  obtain ⟨s', hs', rfl⟩ := map_eq_some_iff.mp hs
  have hc' := clean_step h.clean hok hs'
  have hr' := rest_step h.rest h.clean hok hs'
  have halive : ∀ x, ((s'.agents x).anyAlive && (t.opened x || t.opens e s' x)) →
      (s'.agents x).anyAlive := fun x hx => (and_eq_true_iff.mp hx).1
  refine ⟨hc', hr', halive, ?_, ?_, ?_⟩
  · intro hatt
    by_cases hgone : t.vm.row.isSome = true ∧ s'.row.isNone = true
    · -- the row went, and everything with it
      refine free_of_resting hc' hr' halive ?_
      have hrow : s'.row = none := isNone_iff_eq_none.mp hgone.2
      simp [DiskState.resting, hrow]
    · have hsame : t.attached ≠ .here := by
        intro hhere
        apply hatt
        show (if _ then Attached.no else t.attached) = .here
        rw [if_neg, hhere]
        simp only [and_eq_true]
        exact fun hc => hgone hc.1
      refine hfree (h.free hsame) ?_
      intro he
      by_contra hlisted
      exact hsame (hl he (by simpa using hlisted))
  · intro hrow
    have hrow : s'.row = none := hrow
    simp [hrow]
  · intro hmem
    obtain ⟨hf, hlisted⟩ := h.written hmem
    refine ⟨hfree hf fun _ => hlisted, ?_⟩
    simp [hlisted]

/-- A change to the records and the requests, which leaves the VM and its files alone. -/
theorem DiskInv.record (h : DiskInv t) {b : Bool} {cs : List VolumeCall}
    (ha : a ≠ .here → t.Free) (hrow : t.vm.row = none → b = false)
    (hw : .written ∈ cs → t.Free ∧ b = false) :
    DiskInv { t with attached := a, listed := b, calls := cs } :=
  { clean := h.clean
    rest := h.rest
    alive := h.alive
    free := fun hne => ⟨(ha hne).opened, (ha hne).carried⟩
    unlisted := hrow
    written := fun hmem => ⟨⟨(hw hmem).1.opened, (hw hmem).1.carried⟩, (hw hmem).2⟩ }

theorem DiskInv.put (h : DiskInv t)
    (hw : o = some .written → t.Free ∧ t.listed = false) : DiskInv (t.put i o) := by
  refine h.record h.free h.unlisted ?_
  intro hmem
  rcases mem_put hmem with hin | ho
  · exact h.written hin
  · exact hw ho

theorem vmStep_calls (hs : t.vmStep e = some t') : t'.calls = t.calls := by
  obtain ⟨s', -, rfl⟩ := map_eq_some_iff.mp hs
  rfl

theorem vmStep_create_row (hs : t.vmStep (.create d) = some t') :
    t'.vm.row = some ⟨.pending, none, d, 1, 0, 0⟩ := by
  obtain ⟨s', hs', rfl⟩ := map_eq_some_iff.mp hs
  simp only [step, apiStep] at hs'
  split at hs'
  · cases hs'
  · cases hs'
    rfl

theorem DiskInv.setSpec (h : DiskInv t) {lists : Bool}
    (hs : t.setSpec lists d = some t') (hw : lists → .written ∉ t.calls) : DiskInv t' := by
  obtain ⟨t₁, hs₁, rfl⟩ := map_eq_some_iff.mp hs
  have h₁ : DiskInv t₁ := h.vmStep hs₁ rfl nofun
  refine h₁.record h₁.free ?_ ?_
  · intro hrow
    simp [hrow]
  · intro hmem
    refine ⟨(h₁.written hmem).1, ?_⟩
    rw [vmStep_calls hs₁] at hmem
    cases lists with
    | false => simp
    | true => exact absurd hmem (hw rfl)

/-- A request whose volume is attached to a VM without a row goes straight to its record. -/
theorem next_written {row : Option VmRow} {q : VolumeRequest}
    (h : q.next row a = some .written) : row = none := by
  unfold VolumeRequest.next at h
  split at h
  · split at h
    · cases h
    · rfl
  · cases h

theorem DiskInv.free_of_resting (h : DiskInv t) (hrest : t.resting) : t.Free :=
  Lifecycle.free_of_resting h.clean h.rest h.alive hrest

theorem diskInv_step {ev : DiskEvent} (h : DiskInv t) (hok : careful t ev)
    (hs : diskStep t ev = some t') : DiskInv t' := by
  cases ev with
  | vm e =>
    simp only [careful, and_eq_true, or_eq_true, bne_iff_ne, ne_eq, not_eq_true',
      beq_iff_eq] at hok
    refine h.vmStep hs hok.1 ?_
    intro he hl
    rcases hok.2 with (hne | hl') | hatt
    · exact absurd he hne
    · simp [hl] at hl'
    · exact hatt
  | createWith d =>
    obtain ⟨t₁, hs₁, rfl⟩ := map_eq_some_iff.mp hs
    have h₁ : DiskInv t₁ := h.vmStep hs₁ rfl nofun
    refine h₁.record h₁.free ?_ ?_
    · intro hrow
      simp [vmStep_create_row hs₁] at hrow
    · intro hmem
      rw [vmStep_calls hs₁] at hmem
      simp [careful, hmem] at hok
  | writeSpec lists d =>
    refine h.setSpec hs ?_
    intro hl hmem
    subst hl
    simp [careful, hmem] at hok
  | attachment a =>
    cases hs
    simp only [careful, or_eq_true, beq_iff_eq, bne_iff_ne, ne_eq] at hok
    refine h.record ?_ h.unlisted h.written
    intro ha
    rcases hok with hhere | hne
    · exact absurd hhere ha
    · exact h.free hne
  | readVolume q =>
    cases hs
    refine h.record h.free h.unlisted ?_
    intro hmem
    rcases mem_append.mp hmem with hin | hnew
    · exact h.written hin
    · cases mem_singleton.mp hnew
  | check i =>
    simp only [diskStep] at hs
    split at hs
    · next q a hi =>
      cases hs
      refine h.put ?_
      intro hnext
      split at hnext
      · have hrow := next_written hnext
        refine ⟨h.free_of_resting ?_, h.unlisted hrow⟩
        simp [DiskState.resting, hrow]
      · cases hnext
    · cases hs
  | detachSpec i =>
    simp only [diskStep] at hs
    split at hs
    · next d hi =>
      obtain ⟨t₁, hs₁, rfl⟩ := map_eq_some_iff.mp hs
      -- the VM is at rest before the write, so no pass and no VMM has the file after it
      refine (h.setSpec hs₁ nofun).put fun _ => ?_
      obtain ⟨t₂, hs₂, rfl⟩ := map_eq_some_iff.mp hs₁
      have hfree : t₂.Free := (h.free_of_resting hok).vmStep hs₂ nofun
      exact ⟨⟨hfree.opened, hfree.carried⟩, and_false _⟩
    · cases hs
  | detachRecord i =>
    simp only [diskStep] at hs
    split at hs
    · next hi =>
      cases hs
      obtain ⟨hfree, hlisted⟩ := h.written (mem_of_getElem? hi)
      have h₁ : DiskInv { t with attached := .no } :=
        h.record (fun _ => hfree) (fun _ => hlisted) h.written
      exact h₁.put nofun
    · cases hs
  | dropped i =>
    cases hs
    exact h.put nofun

theorem diskInv_init (hi : DiskInit t) : DiskInv t := by
  obtain ⟨hvm, -, hlisted, hcarried, hopened, hcalls⟩ := hi
  refine ⟨clean_init hvm, rest_init hvm, ?_, fun _ => ⟨hopened, fun _ => hcarried⟩,
    fun _ => hlisted, ?_⟩
  · intro x hx
    simp [hopened x] at hx
  · intro hmem
    simp [hcalls] at hmem

def CarefulReach : DiskState → Prop := Reach diskStep (fun t ev => careful t ev = true) DiskInit

theorem CarefulReach.inv (h : CarefulReach t) : DiskInv t :=
  Reach.invariant (fun _ => diskInv_init) (fun _ _ _ hi hok hs => diskInv_step hi hok hs) h

/-! ## Live disks are not touched -/

theorem DiskState.Free.holding (h : t.Free) (x : HostId) : t.holding x = false := by
  unfold DiskState.holding
  rw [h.opened x, Bool.and_false]

end

/-! ## Concrete runs -/

end VQuasar.Lifecycle
