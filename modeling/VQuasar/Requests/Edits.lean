import VQuasar.Requests.Attachments
import Mathlib.Data.List.Permutation

/-!
# Edits of a spec under interleaving

Every edit of a VM reads the whole spec, changes its copy and stores the copy: the read is made before
the transaction of `write_spec`, which does not ask whether the spec is still the one that was read.
`encrypt_existing` stores whole specs in the same way.

* `edits_serial`: the spec is always the result of the accepted edits in the order in which they were
  committed, provided that each of them, and `encrypt_existing`, finds the spec it has read
  (`finds`).
* `edit_lost`: a VM is stopped while a volume is being attached to it, and the disk is gone.
-/

namespace VQuasar.Requests

open Tenancy Runs IdTable Request

/-! ## Accepted edits -/

def serial : List Edit → VirtualMachineSpec → Except ApiError VirtualMachineSpec
  | [], spec => .ok spec
  | e :: es, spec => do
    let spec ← e.apply spec
    serial es spec

/-- The edit of the VM that this step commits. -/
def committed (vm : Id) (s : State) : Event → Option Edit
  | .call i =>
    match s.requests.get i with
    | some (.write w) =>
      match s.db.writeSpec w.vm w.name w.spec with
      | .ok (some _) => if w.vm = vm then some w.edit else none
      | _ => none
    | _ => none
  | _ => none

/-- A state, with the edits of one VM that have been accepted so far. -/
structure Logged where
  state : State
  edits : List Edit

def loggedStep (cfg : Config) (vm : Id) (l : Logged) (e : Event) : Option Logged :=
  (step cfg l.state e).map fun s => ⟨s, l.edits ++ (committed vm l.state e).toList⟩

def StartsAs (vm : Id) (spec : VirtualMachineSpec) (l : Logged) : Prop :=
  l.edits = [] ∧ l.state.requests.idle = true ∧
    (l.state.db.vms.get vm).map Vm.spec = some spec

/-- A call that stores a spec of the VM finds there the one it has read. -/
def finds (vm : Id) (l : Logged) : Event → Bool
  | .call i =>
    match l.state.requests.get i with
    | some (.write w) => w.vm != vm || unedited l.state.db vm w.read
    | some (.sealRows ((id, read) :: _)) => id != vm || unedited l.state.db vm read
    | _ => true
  | _ => true

/-! ## What a call does to the spec -/

theorem serial_append (es : List Edit) (e : Edit) (spec : VirtualMachineSpec) :
    serial (es ++ [e]) spec = serial es spec >>= e.apply := by
  induction es generalizing spec with
  | nil =>
    show e.apply spec >>= pure = e.apply spec
    exact bind_pure _
  | cons e' es ih =>
    show (e'.apply spec >>= serial (es ++ [e])) = (e'.apply spec >>= serial es) >>= e.apply
    rw [bind_assoc]
    exact congrArg _ (funext ih)

/-- The VM keeps its spec, or goes, and its id is not given out again. -/
structure SpecKept (vm : Id) (db db' : Db) : Prop where
  next : db.vms.next ≤ db'.vms.next
  spec : ∀ r', db'.vms.get vm = some r' → ∃ r, db.vms.get vm = some r ∧ r.spec = r'.spec

section

variable {cfg : Config} {vm : Id} {db db' : Db}

theorem SpecKept.of_same (h : db'.vms = db.vms) : SpecKept vm db db' :=
  ⟨Nat.le_of_eq (congrArg IdTable.next h).symm, fun r hr => ⟨r, h ▸ hr, rfl⟩⟩

theorem SpecKept.refl (vm : Id) (db : Db) : SpecKept vm db db := .of_same rfl

theorem SpecKept.setVm {id : Id} {f : Vm → Vm} {hf : ∀ r, (f r).id = r.id}
    (hspec : ∀ r, db.vms.get vm = some r → r.id = id → (f r).spec = r.spec) :
    SpecKept vm db (db.setVm id f hf) := by
  refine ⟨Nat.le_refl _, fun r' hr' => ?_⟩
  rw [get_setVm] at hr'
  obtain ⟨r, hr, rfl⟩ := Option.map_eq_some_iff.mp hr'
  refine ⟨r, hr, ?_⟩
  by_cases hid : r.id = id
  · simp [hid, hspec r hr hid]
  · simp [hid]

theorem SpecKept.deleteVmRow (id : Id) : SpecKept vm db (db.deleteVmRow id) := by
  refine ⟨Nat.le_refl _, fun r hr => ⟨r, ?_, rfl⟩⟩
  obtain ⟨hmem, hid⟩ := get_eq_some.mp hr
  exact get_eq_some.mpr ⟨(mem_delete.mp hmem).1, hid⟩

theorem call_specKept {r : Request} (hvm : vm < db.vms.next)
    (hwrite : ∀ w, r = .write w → w.vm ≠ vm)
    (hseal : ∀ id read rows, r = .sealRows ((id, read) :: rows) → id ≠ vm) :
    SpecKept vm db (r.call cfg db).1 := by
  cases r with
  | write w =>
    simp only [call, SpecWrite.call]
    split
    · exact .refl vm db
    · exact .refl vm db
    · next hw =>
      rw [Db.writeSpec_ok hw]
      refine .setVm fun r hr hid => absurd ?_ (hwrite w rfl)
      exact hid.symm.trans (get_eq_some.mp hr).2
  | sealRows rows =>
    cases rows with
    | nil => exact .refl vm db
    | cons row rows =>
      refine .setVm fun r hr hid => absurd ?_ (hseal row.1 row.2 rows rfl)
      exact hid.symm.trans (get_eq_some.mp hr).2
  | allocateNic w index nic =>
    obtain ⟨t, ht, -⟩ :=
      allocateOneNic_allocatesFor (db.releaseNicAllocations w.vm index) w.vm nic index
    simp only [call]
    split <;> next heq =>
      rw [heq] at ht
      subst ht
      exact .of_same rfl
  | allocate volume vm name spec =>
    obtain ⟨t, ht, -⟩ := allocateNicIps_allocatesFor vm spec.networkInterfaces db 0
    simp only [call]
    split <;> next heq =>
      rw [heq] at ht
      subst ht
      exact .of_same rfl
  | insertVm volume name spec project =>
    simp only [call]
    split
    · exact .refl vm db
    · next hins =>
      rw [Db.insertVmWithId_ok hins]
      refine ⟨Nat.le_succ _, fun r' hr' => ⟨r', ?_, rfl⟩⟩
      rw [← hr']
      exact (get_insert_of_lt hvm).symm
  | detachFrom v id =>
    simp only [call]
    split <;> exact .refl vm db
  | rollback volume id | deleteRow id => exact .deleteVmRow id
  | markDeleting id => exact .setVm fun _ _ _ => rfl
  | unlink s v =>
    simp only [call, Db.removeFile]
    split
    · exact .of_same rfl
    · split <;> exact .of_same rfl
  | _ => exact .of_same rfl

end

/-! ## Steps and runs -/

/-- What a step does to the spec of a VM: it keeps it, or stores the edit of the spec that is there. -/
inductive SpecGoes (vm : Id) (s : State) (e : Event) (s' : State) : Prop
  | kept (h : SpecKept vm s.db s'.db) (hc : committed vm s e = none)
  | edited {i : Nat} {w : SpecWrite} (he : e = .call i) (hi : s.requests.get i = some (.write w))
      (hvm : w.vm = vm) (hc : committed vm s e = some w.edit)
      (hnext : s'.db.vms.next = s.db.vms.next)
      (hspec : ∀ r', s'.db.vms.get vm = some r' →
        ∃ r, s.db.vms.get vm = some r ∧ r.spec = w.read ∧ r'.spec = w.spec)

section

variable {cfg : Config} {vm : Id} {l : Logged} {s' : State}

theorem call_spec {i : Nat} {r : Request} (hvm : vm < l.state.db.vms.next)
    (hi : l.state.requests.get i = some r) (hfinds : finds vm l (.call i))
    {requests : Slots Request} :
    SpecGoes vm l.state (.call i) ⟨(r.call cfg l.state.db).1, requests⟩ := by
  simp only [finds, hi] at hfinds
  by_cases hstores : (∃ w, r = .write w ∧ w.vm = vm) ∨
      ∃ read rows, r = .sealRows ((vm, read) :: rows)
  · rcases hstores with ⟨w, rfl, rfl⟩ | ⟨read, rows, rfl⟩
    · have hread : unedited l.state.db w.vm w.read := by simpa using hfinds
      simp only [call, SpecWrite.call]
      cases hw : l.state.db.writeSpec w.vm w.name w.spec with
      | error e => exact .kept (.refl _ _) (by simp only [committed, hi, hw])
      | ok written =>
      cases written with
      | none => exact .kept (.refl _ _) (by simp only [committed, hi, hw])
      | some x =>
      obtain ⟨row, db⟩ := x
      refine .edited rfl hi rfl (by simp only [committed, hi, hw, if_true]) ?_ ?_
      · exact congrArg (fun d => d.vms.next) (Db.writeSpec_ok hw)
      · intro r' hr'
        obtain rfl := Db.writeSpec_ok hw
        have hget : (l.state.db.setVm w.vm (Db.respec w.name w.spec) fun _ => rfl).vms.get w.vm = _ :=
          get_setVm w.vm
        obtain ⟨r, hr, rfl⟩ := Option.map_eq_some_iff.mp (hget.symm.trans hr')
        refine ⟨r, hr, unedited_get hread hr, ?_⟩
        have hid : r.id = w.vm := (get_eq_some.mp hr).2
        rw [hid, beq_self_eq_true, if_pos rfl]
        rfl
    · refine .kept (.setVm fun r hr _ => ?_) (by simp only [committed, hi])
      have hread : unedited l.state.db vm read := by simpa using hfinds
      exact (unedited_get hread hr).symm
  · rw [not_or] at hstores
    refine .kept (call_specKept hvm ?_ ?_) ?_
    · rintro w rfl hvm
      exact hstores.1 ⟨w, rfl, hvm⟩
    · rintro id read rows rfl rfl
      exact hstores.2 ⟨read, rows, rfl⟩
    · simp only [committed, hi]
      split
      · next w hw =>
        have hne : w.vm ≠ vm := fun hvm => hstores.1 ⟨w, Option.some.inj hw, hvm⟩
        split
        · rw [if_neg hne]
        · rfl
      · rfl

theorem step_spec {e : Event} (hvm : vm < l.state.db.vms.next) (hfinds : finds vm l e)
    (hs : step cfg l.state e = some s') : SpecGoes vm l.state e s' := by
  cases e with
  | begin r =>
    simp only [step] at hs
    split at hs
    · cases hs
      exact .kept (.refl vm _) rfl
    · cases hs
  | crash i =>
    simp only [step, Option.map_eq_some_iff] at hs
    obtain ⟨r, -, rfl⟩ := hs
    exact .kept (.refl vm _) rfl
  | phase id p =>
    cases hs
    exact .kept (.setVm fun _ _ _ => rfl) rfl
  | finalize volume size =>
    simp only [step] at hs
    split at hs
    · next hdb =>
      cases hs
      rw [Db.finalizeVolume_ok hdb]
      exact .kept (.of_same rfl) rfl
    · cases hs
  | call i =>
    simp only [step, Option.map_eq_some_iff] at hs
    obtain ⟨r, hi, rfl⟩ := hs
    exact call_spec hvm hi hfinds

end

/-- The spec is what the accepted edits make of the first one. -/
structure Serial (vm : Id) (spec : VirtualMachineSpec) (l : Logged) : Prop where
  known : vm < l.state.db.vms.next
  edits : ∀ r, l.state.db.vms.get vm = some r → serial l.edits spec = .ok r.spec

section

variable {cfg : Config} {vm : Id} {spec : VirtualMachineSpec} {l l' : Logged}

theorem serial_step {e : Event} (h : Serial vm spec l) (hfinds : finds vm l e)
    (hs : loggedStep cfg vm l e = some l') : Serial vm spec l' := by
  obtain ⟨s, hstep, rfl⟩ := Option.map_eq_some_iff.mp hs
  cases step_spec h.known hfinds hstep with
  | kept hk hc =>
    refine ⟨Nat.lt_of_lt_of_le h.known hk.next, fun r' hr' => ?_⟩
    obtain ⟨r, hr, hspec⟩ := hk.spec r' hr'
    rw [hc, Option.toList_none, List.append_nil, ← hspec]
    exact h.edits r hr
  | @edited i w he hi hvm hc hnext hspec =>
    refine ⟨hnext ▸ h.known, fun r' hr' => ?_⟩
    obtain ⟨r, hr, hread, hnew⟩ := hspec r' hr'
    rw [hc, Option.toList_some, serial_append, h.edits r hr, hread, hnew]
    exact w.made

theorem serial_start (h : StartsAs vm spec l) : Serial vm spec l := by
  obtain ⟨hnil, -, hspec⟩ := h
  obtain ⟨r, hr, rfl⟩ := Option.map_eq_some_iff.mp hspec
  obtain ⟨hmem, hid⟩ := get_eq_some.mp hr
  refine ⟨hid ▸ id_lt hmem, fun r' hr' => ?_⟩
  obtain rfl : r' = r := Option.mem_unique hr' hr
  rw [hnil]
  rfl

/-- **No edit is lost.**  In every run in which each call that stores a spec of the VM finds the one
it has read, the spec is the result of all the accepted edits, in some order. -/
theorem edits_serial (h : Reach (loggedStep cfg vm) (fun l e => finds vm l e = true)
    (StartsAs vm spec) l) : ∀ r, l.state.db.vms.get vm = some r →
      ∃ order, order.Perm l.edits ∧ serial order spec = .ok r.spec := by
  have hserial : Serial vm spec l :=
    Reach.invariant (fun _ => serial_start) (fun _ _ _ hi hok hs => serial_step hi hok hs) h
  exact fun r hr => ⟨l.edits, .refl _, hserial.edits r hr⟩

end

/-! ## Runs -/

def beforeEdits : Logged := ⟨⟨volumeDb, .empty⟩, []⟩

theorem beforeEdits_start : StartsAs 0 sampleSpec beforeEdits := ⟨rfl, rfl, by decide⟩

/-- A volume is attached to VM 0, and then the VM is started. -/
def attachThenStart : List Event :=
  [.begin (.attach (.project 2) root 0 0), .call 0, .call 0, .call 0,
    .begin (.setPower (.project 2) root 0 .running "vm.start"), .call 1, .call 0, .call 1]

theorem edits_serial_started :
    ∃ r, (final (loggedStep sampleCfg 0) beforeEdits attachThenStart).state.db.vms.get 0 = some r ∧
      r.spec.disks.length = 1 ∧
      ∃ order, order.Perm (final (loggedStep sampleCfg 0) beforeEdits attachThenStart).edits ∧
        serial order sampleSpec = .ok r.spec := by
  have hrun : Reach (loggedStep sampleCfg 0) (fun l e => finds 0 l e = true) (StartsAs 0 sampleSpec)
      (final (loggedStep sampleCfg 0) beforeEdits attachThenStart) :=
    Reach.final (fun _ _ h => h) beforeEdits_start (by decide) (by decide)
  obtain ⟨r, hr⟩ := Option.isSome_iff_exists.mp (by decide :
    ((final (loggedStep sampleCfg 0) beforeEdits attachThenStart).state.db.vms.get 0).isSome = true)
  refine ⟨r, hr, ?_, edits_serial hrun r hr⟩
  have hlen : ((final (loggedStep sampleCfg 0) beforeEdits attachThenStart).state.db.vms.get 0).map
      (fun r => r.spec.disks.length) = some 1 := by decide
  rw [hr] at hlen
  exact Option.some.inj hlen

/-- The same two requests, and both read the spec before either stores it. -/
def attachAndStop : List Event :=
  [.begin (.attach (.project 2) root 0 0), .begin (.setPower (.project 2) root 0 .stopped "vm.stop"),
    .call 0, .call 0, .call 1, .call 0, .call 1, .call 0, .call 1]

def lostEdits : List Edit :=
  [.attach 0 ⟨storageRoot.join (.volume 0 .qcow2), false, .qcow2, none, none, some 0, none, none⟩,
    .power .stopped "vm.stop"]

theorem attachAndStop_edits :
    (final (loggedStep sampleCfg 0) beforeEdits attachAndStop).edits = lostEdits := rfl

theorem serial_lostEdits {order : List Edit} (h : order.Perm lostEdits) {spec : VirtualMachineSpec}
    (hs : serial order sampleSpec = .ok spec) : spec.disks.length = 1 := by
  rcases List.perm_pair.mp h with rfl | rfl
  · cases hs
    rfl
  · cases hs
    rfl

/-- **An edit is lost.**  Both requests are accepted and the VM has no disk in the end, which no order
of the two edits gives. -/
theorem edit_lost : ∃ l, Reach (loggedStep sampleCfg 0) anyStep (StartsAs 0 sampleSpec) l ∧
      l.state.requests.idle ∧ ∃ r, l.state.db.vms.get 0 = some r ∧
      ∀ order, order.Perm l.edits → serial order sampleSpec ≠ .ok r.spec := by
  refine ⟨final (loggedStep sampleCfg 0) beforeEdits attachAndStop, ?_, by decide, ?_⟩
  · exact Reach.final_anyStep beforeEdits_start (by decide)
  · obtain ⟨r, hr⟩ := Option.isSome_iff_exists.mp (by decide :
      ((final (loggedStep sampleCfg 0) beforeEdits attachAndStop).state.db.vms.get 0).isSome = true)
    refine ⟨r, hr, fun order horder hserial => ?_⟩
    have hlen : ((final (loggedStep sampleCfg 0) beforeEdits attachAndStop).state.db.vms.get 0).map
        (fun r => r.spec.disks.length) = some 0 := by decide
    rw [hr] at hlen
    have hone := serial_lostEdits (attachAndStop_edits ▸ horder) hserial
    simp [Option.map_some, hone] at hlen

end VQuasar.Requests
