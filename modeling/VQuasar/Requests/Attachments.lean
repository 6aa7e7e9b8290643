import VQuasar.Requests.Disks

/-!
# Attachments under interleaving

A volume's attachment is recorded twice: in the volume's row, and as a disk of the VM's spec.  `attach`,
`detach` and `create_from_volume` write the two rows in separate calls, after checks made on rows read
earlier.

* `attachments_agree`: the two records agree whenever no request is in flight, provided that what a
  request has read of a row still holds when it writes (`orderly`), that no request is cut short
  between its two writes, and that a VM is created from a volume that is ready.
* `unready_volume_booted`: `create_from_volume` does not ask for the status, as `attach` does.
* `volume_attached_twice`: two requests that both find the volume free both attach it.
-/

namespace VQuasar.Requests

open Tenancy Runs List Option Bool Request
open IdTable (get_eq_some eq_of_id mem_updated)
open Slots (all_iff get_put_self get_put_ne get_add get_idle)

variable {db : Db} {volume : Id} {v : Volume} {w : SpecWrite}

/-! ## The two records -/

/-- `target` is the one VM that has the volume as a disk, and only a volume that is ready has one. -/
structure Agrees (cfg : Config) (db : Db) (v : Volume) (target : Option Id) : Prop where
  attached : ∀ m, target = some m ↔ Holds db m (db.fileOf cfg v)
  ready : target ≠ none → v.status = .ready

/-- The records of the volumes and those of the VMs agree. -/
structure AttachmentsAgree (cfg : Config) (db : Db) : Prop where
  attached : ∀ v ∈ db.volumes, ∀ m, v.attachedVm = some m ↔ Holds db m (db.fileOf cfg v)
  single : ∀ v ∈ db.volumes, ∀ m m', Holds db m (db.fileOf cfg v) →
    Holds db m' (db.fileOf cfg v) → m = m'
  ready : ∀ v ∈ db.volumes, v.attachedVm ≠ none → v.status = .ready

/-! ## The condition -/

/-- No request in flight is between its two writes of this volume. -/
def State.clear (s : State) (volume : Id) : Bool :=
  s.requests.all fun r => r.due.all fun d => d.1 != volume

/-- No request in flight has an attachment to this VM to record, of a volume other than `own`. -/
def State.unclaimed (s : State) (vm : Id) (own : Option Id) : Bool :=
  s.requests.all fun r => r.due.all fun d => d.2 != some vm || some d.1 == own

/-- The spec of the VM is the one that was read, or the VM is gone. -/
def unedited (db : Db) (vm : Id) (read : VirtualMachineSpec) : Bool :=
  (db.vms.get vm).all fun r => r.spec == read

/-- The volume is attached to one of these, or to none, or it is gone. -/
def attachedIn (db : Db) (volume : Id) (vms : List Id) : Bool :=
  (db.volumes.get volume).all fun v => v.attachedVm.all fun m => vms.contains m

/-- What a request that writes has read of the rows it writes still holds. -/
def Request.current (s : State) : Request → Bool
  | .write w =>
    unedited s.db w.vm w.read &&
      match w.edit with
      | .attach volume _ => (s.db.vms.get w.vm).isSome && s.clear volume &&
        attachedIn s.db volume []
      | .detach volume _ => s.clear volume && attachedIn s.db volume [w.vm]
      | _ => true
  | .detachFrom v vm => (s.db.vms.get vm).isSome || s.clear v.id && attachedIn s.db v.id [vm]
  | .insertVm volume .. =>
    s.clear volume && attachedIn s.db volume [] &&
      (s.db.volumes.get volume).all fun v => v.status == .ready
  | .rollback volume vm => s.unclaimed vm (some volume)
  | .deleteRow vm => s.unclaimed vm none
  | .sealRows ((vm, read) :: _) => unedited s.db vm read
  | _ => true

/-- Requests write on what still holds, and none is cut short between its two writes. -/
def orderly (s : State) : Event → Bool
  | .call i => (s.requests.get i).all fun r => r.current s
  | .crash i => (s.requests.get i).all fun r => r.due.isNone
  | _ => true

/-! ## The invariant -/

/-- The VM to which the volume is attached, once the requests in flight have recorded what they have
begun. -/
def AttachedTo (t : Slots Request) (v : Volume) (target : Option Id) : Prop :=
  (∃ i r, t.get i = some r ∧ r.due = some (v.id, target)) ∨
    ((∀ i r x, t.get i = some r → r.due ≠ some (v.id, x)) ∧ v.attachedVm = target)

/-- At most one request at a time is between its two writes of a volume, and once those are made the
records agree; a volume that is being attached is free until then. -/
structure Inv (cfg : Config) (s : State) : Prop where
  single : s.requests.Apart fun a b =>
    ∀ volume x y, a.due = some (volume, x) → b.due ≠ some (volume, y)
  free : ∀ v ∈ s.db.volumes, ∀ i r m, s.requests.get i = some r → r.due = some (v.id, some m) →
    v.attachedVm = none
  agree : ∀ v ∈ s.db.volumes, ∀ target, AttachedTo s.requests v target → Agrees cfg s.db v target
  sound : s.requests.All (Request.Sound cfg s.db)

section

variable {cfg : Config} {s : State} {db' : Db} {i : Nat} {r : Request} {o : Option Request}

theorem clear_iff : s.clear volume ↔ ∀ i r x, s.requests.get i = some r → r.due ≠ some
    (volume, x) := by
  unfold State.clear
  rw [all_iff]
  constructor
  · intro h i r x hr hdue
    have hall := h i r hr
    simp [hdue] at hall
  · intro h i r hr
    cases hdue : r.due with
    | none => rfl
    | some d =>
    have hne : d.1 ≠ volume := by
      rintro rfl
      exact h i r d.2 hr hdue
    simpa using hne

/-- The requests in flight about a volume that the step does not touch. -/
theorem AttachedTo.of_put {v' : Volume} {target : Option Id} (hi : s.requests.get i = some r)
    (hid : v.id = v'.id) (hatt : v.attachedVm = v'.attachedVm)
    (hdue : ∀ x, o.bind due = some (v'.id, x) ↔ r.due = some (v'.id, x))
    (h : AttachedTo (s.requests.put i o) v' target) : AttachedTo s.requests v target := by
  rcases h with ⟨j, b, hb, hbdue⟩ | ⟨hnone, rfl⟩
  · left
    by_cases hj : j = i
    · subst hj
      rw [get_put_self hi] at hb
      refine ⟨j, r, hi, ?_⟩
      rw [hid]
      exact (hdue target).mp (by rw [hb]; exact hbdue)
    · rw [get_put_ne hj] at hb
      exact ⟨j, b, hb, hid ▸ hbdue⟩
  · right
    refine ⟨fun j b x hb hbdue => ?_, hatt⟩
    by_cases hj : j = i
    · subst hj
      obtain rfl : b = r := mem_unique hb hi
      have ho := (hdue x).mpr (hid ▸ hbdue)
      cases hoc : o with
      | none => rw [hoc] at ho; cases ho
      | some c =>
        rw [hoc] at ho
        exact hnone j c x (by rw [get_put_self hi, hoc]) ho
    · exact hnone j b x (by rw [get_put_ne hj]; exact hb) (hid ▸ hbdue)

section

variable (h : Inv cfg s) (hi : s.requests.get i = some r) (hf : Follows s.db db') (hsound : ∀ b, o =
  some b → b.Sound cfg s.db)
include h hi hf hsound

/-- A call by the request in slot `i`.  A volume either is not touched by it, or is shown to agree. -/
theorem Inv.put (hsingle : ∀ volume x, o.bind due = some (volume, x) →
    r.due = some (volume, x) ∨ s.clear volume)
    (hfree : ∀ v' ∈ db'.volumes, ∀ m, o.bind due = some (v'.id, some m) → v'.attachedVm = none)
    (hkeep : ∀ v ∈ s.db.volumes, ∀ v' ∈ db'.volumes, v'.id = v.id → v.attachedVm = none →
    v'.attachedVm = none ∨ ∃ x, r.due = some (v.id, x))
    (hagree : ∀ v ∈ s.db.volumes, ∀ v' ∈ db'.volumes, v'.id = v.id → v.attachedVm = v'.attachedVm ∧
    (∀ x, o.bind due = some (v'.id, x) ↔ r.due = some (v'.id, x)) ∧
    (∀ m, Holds db' m (s.db.fileOf cfg v) ↔ Holds s.db m (s.db.fileOf cfg v)) ∨
    ∀ target, AttachedTo (s.requests.put i o) v' target → Agrees cfg db' v' target) :
    Inv cfg ⟨db', s.requests.put i o⟩ where
  single := by
    refine h.single.put (fun a b hab volume x y hb ha => hab volume y x ha hb) hi ?_
    intro c hc j b hj hb volume x y hcdue hbdue
    rcases hsingle volume x (by rw [hc]; exact hcdue) with hr | hclear
    · exact h.single i j r b (Ne.symm hj) hi hb volume x y hr hbdue
    · exact clear_iff.mp hclear j b y hb hbdue
  free := by
    intro v' hv' j b m hb hbdue
    by_cases hj : j = i
    · subst hj
      rw [get_put_self hi] at hb
      exact hfree v' hv' m (by rw [hb]; exact hbdue)
    · rw [get_put_ne hj] at hb
      obtain ⟨v, hv, hid, -⟩ := hf.volumes v' hv'
      rw [hid] at hbdue
      rcases hkeep v hv v' hv' hid (h.free v hv j b m hb hbdue) with hnone | ⟨x, hx⟩
      · exact hnone
      · exact absurd hbdue (h.single i j r b (Ne.symm hj) hi hb v.id x (some m) hx)
  agree := by
    intro v' hv' target ht
    obtain ⟨v, hv, hid, hformat, hpool, hready⟩ := hf.volumes v' hv'
    rcases hagree v hv v' hv' hid with ⟨hatt, hdue, hholds⟩ | hdirect
    · have hold := h.agree v hv target (ht.of_put hi hid.symm hatt hdue)
      refine ⟨fun m => ?_, fun hne => hready (hold.ready hne)⟩
      show target = some m ↔ Holds db' m (db'.fileOf cfg v')
      rw [fileOf_congr hf.pools hid hformat hpool, hholds]
      exact hold.attached m
    · exact hdirect target ht
  sound := Slots.All.put (h.sound.mono fun b hb => hb.follows hf) hi
    fun b hb => (hsound b hb).follows hf

theorem Inv.quiet (hdue : o.bind due = r.due)
    (hatt : ∀ v ∈ s.db.volumes, ∀ v' ∈ db'.volumes, v'.id = v.id → v.attachedVm = v'.attachedVm)
    (hholds : ∀ v ∈ s.db.volumes, ∀ m,
    Holds db' m (s.db.fileOf cfg v) ↔ Holds s.db m (s.db.fileOf cfg v)) :
    Inv cfg ⟨db', s.requests.put i o⟩ := by
  refine h.put hi hf hsound (fun volume x hx => Or.inl (hdue ▸ hx)) ?_ ?_ ?_
  · intro v' hv' m hm
    obtain ⟨v, hv, hid, -⟩ := hf.volumes v' hv'
    rw [← hatt v hv v' hv' hid]
    exact h.free v hv i r m hi (by rw [← hdue, hm, hid])
  · intro v hv v' hv' hid hnone
    exact Or.inl ((hatt v hv v' hv' hid).symm.trans hnone)
  · intro v hv v' hv' hid
    exact Or.inl ⟨hatt v hv v' hv' hid, fun x => by rw [hdue], hholds v hv⟩

end

end

/-! ## The calls that write an attachment -/

section

variable {cfg : Config} {s : State} {i : Nat} {r : Request} {o : Option Request}
  {x target : Option Id}

theorem Inv.agrees_of_clear (h : Inv cfg s) (hv : v ∈ s.db.volumes) (hclear : s.clear v.id) :
    Agrees cfg s.db v v.attachedVm :=
  h.agree v hv _ (Or.inr ⟨clear_iff.mp hclear, rfl⟩)

theorem AttachedTo.eq_begun {c : Request} (hi : s.requests.get i = some r)
    (hclear : s.clear v.id) (hc : c.due = some (v.id, x)) (h : AttachedTo (s.requests.put i
    (some c)) v target) : target = x := by
  rcases h with ⟨j, b, hb, hbdue⟩ | ⟨hnone, -⟩
  · by_cases hj : j = i
    · subst hj
      rw [get_put_self hi] at hb
      cases hb
      rw [hc] at hbdue
      cases hbdue
      rfl
    · rw [get_put_ne hj] at hb
      exact absurd hbdue (clear_iff.mp hclear j b target hb)
  · exact absurd hc (hnone i c x (get_put_self hi))

theorem AttachedTo.eq_done (h : Inv cfg s) (hi : s.requests.get i = some r)
    (hr : r.due = some (v.id, x)) (ho : ∀ y, o.bind due ≠ some (v.id, y)) (ht : AttachedTo
    (s.requests.put i o) v target) : v.attachedVm = target := by
  rcases ht with ⟨j, b, hb, hbdue⟩ | ⟨-, hatt⟩
  · by_cases hj : j = i
    · subst hj
      rw [get_put_self hi] at hb
      rw [hb] at ho
      exact absurd hbdue (ho target)
    · rw [get_put_ne hj] at hb
      exact absurd hbdue (h.single i j r b (Ne.symm hj) hi hb v.id x target hr)
  · exact hatt

theorem attachedIn_mem {vms : List Id} (h : attachedIn db volume vms) (hv : v ∈ db.volumes)
    (hid : v.id = volume) {m : Id} (hm : v.attachedVm = some m) : m ∈ vms := by
  have hget : db.volumes.get volume = some v := get_eq_some.mpr ⟨hv, hid⟩
  simpa [attachedIn, hget, hm] using h

theorem attachedIn_nil (h : attachedIn db v.id []) (hv : v ∈ db.volumes) : v.attachedVm = none := by
  cases hatt : v.attachedVm with
  | none => rfl
  | some m => exact absurd (attachedIn_mem h hv rfl hatt) not_mem_nil

theorem unedited_get {vm : Id} {read : VirtualMachineSpec} {r : Vm} (h : unedited db vm read)
    (hr : db.vms.get vm = some r) : r.spec = read := by
  simpa [unedited, hr] using h

section

variable (h : Inv cfg s)
include h

/-- A volume that is attached to nothing but a VM that is not there is held by nobody. -/
theorem Inv.not_holds (hv : v ∈ s.db.volumes) (hclear : s.clear v.id) {vms :
    List Id} (hin : attachedIn s.db v.id vms) {m : Id} (hm : m ∉ vms) : ¬ Holds s.db m
    (s.db.fileOf cfg v) := by
  intro hholds
  have hatt := ((h.agrees_of_clear hv hclear).attached m).mpr hholds
  exact hm (attachedIn_mem hin hv rfl hatt)

variable {x : Option Id} {row : Vm} {serial : Option Nat}

section

variable (hi : s.requests.get i = some r) (hr : r.due = none)
include hi hr

theorem Inv.begun {db' : Db} {c : Request} (hc : c.due = some (volume, x))
    (hclear : s.clear volume) (hsound : c.Sound cfg s.db) (hpools : db'.pools = s.db.pools)
    (hvolumes : db'.volumes = s.db.volumes) (hother : ∀ v ∈ s.db.volumes, v.id ≠ volume → ∀ m,
    Holds db' m (s.db.fileOf cfg v) ↔ Holds s.db m (s.db.fileOf cfg v))
    (hown : ∀ v ∈ s.db.volumes, v.id = volume → (∀ m, x = some m ↔ Holds db' m (s.db.fileOf cfg v)) ∧
    (x ≠ none → v.status = .ready ∧ v.attachedVm = none)) :
    Inv cfg ⟨db', s.requests.put i (some c)⟩ := by
  refine h.put hi (.of_same hpools hvolumes) ?_ ?_ ?_ ?_ ?_
  · rintro b ⟨⟩
    exact hsound
  · intro vol y hy
    cases hc.symm.trans hy
    exact Or.inr hclear
  · intro v' hv' m hm
    rw [hvolumes] at hv'
    cases hc.symm.trans hm
    exact ((hown v' hv' rfl).2 (some_ne_none m)).2
  · intro v hv v' hv' hid hnone
    rw [hvolumes] at hv'
    rw [eq_of_id hv' hv hid]
    exact Or.inl hnone
  · intro v hv v' hv' hid
    rw [hvolumes] at hv'
    obtain rfl : v' = v := eq_of_id hv' hv hid
    by_cases hvol : v'.id = volume
    · subst hvol
      right
      intro target ht
      obtain rfl := ht.eq_begun hi hclear hc
      refine ⟨fun m => ?_, fun hne => ((hown v' hv rfl).2 hne).1⟩
      rw [fileOf_congr hpools rfl rfl rfl]
      exact (hown v' hv rfl).1 m
    · refine Or.inl ⟨rfl, fun y => ?_, hother v' hv hvol⟩
      rw [hr]
      constructor
      · intro hy
        cases hc.symm.trans hy
        exact absurd rfl hvol
      · intro hy
        cases hy

theorem Inv.release {vm : Id} (hgone : s.db.vms.get vm = none) (hclear : s.clear volume)
    (hin : attachedIn s.db volume [vm]) :
    Inv cfg ⟨s.db, s.requests.put i (some (.record volume none none))⟩ := by
  refine h.begun hi hr rfl hclear trivial rfl rfl (fun _ _ _ _ => Iff.rfl) fun v hv hid => ?_
  subst hid
  refine ⟨fun m => ⟨fun hm => (by cases hm), fun hholds => ?_⟩, fun hne => absurd rfl hne⟩
  by_cases hm : m = vm
  · obtain ⟨row, hrow, -⟩ := hholds
    simp [hm, hgone] at hrow
  · exact absurd hholds (h.not_holds hv hclear hin (by simpa using hm))

theorem Inv.respec
    (hrow : s.db.vms.get w.vm = some row) (hread : row.spec = w.read) (hclear : s.clear volume) (hother : ∀ v ∈ s.db.volumes, v.id ≠ volume → (uses
    w.spec (s.db.fileOf cfg v) ↔ uses w.read (s.db.fileOf cfg v))) (hown : ∀ v ∈
    s.db.volumes, v.id = volume → (∀ m, x = some m ↔ if m = w.vm then uses w.spec (s.db.fileOf cfg
    v) = true else Holds s.db m (s.db.fileOf cfg v)) ∧ (x ≠ none → v.status = .ready ∧ v.attachedVm
    = none)) : Inv cfg ⟨s.db.setVm w.vm (Db.respec w.name w.spec) fun _ => rfl, s.requests.put i
    (some (.record volume x serial))⟩ := by
  have hspec : (Db.respec w.name w.spec row).spec = w.spec := rfl
  refine h.begun hi hr rfl hclear trivial rfl rfl ?_ ?_
  · intro v hv hvol m
    refine (holds_respec hrow hspec m _).trans ?_
    split
    · next hm =>
      rw [hm, holds_of_get hrow, hread]
      exact hother v hv hvol
    · exact Iff.rfl
  · intro v hv hid
    refine ⟨fun m => ?_, (hown v hv hid).2⟩
    exact ((hown v hv hid).1 m).trans (holds_respec hrow hspec m _).symm

end

theorem Inv.attach (hi : s.requests.get i = some (.write w)) {disk : DiskSpec}
    (hedit : w.edit = .attach volume disk) (hrow : s.db.vms.get w.vm = some row) (hread :
    row.spec = w.read) (hclear : s.clear volume) (hin : attachedIn s.db volume []) : Inv cfg ⟨s.db.setVm w.vm (Db.respec w.name w.spec) fun _ => rfl,
    s.requests.put i (some (.record volume (some w.vm) serial))⟩ := by
  have hsound : w.Sound cfg s.db := h.sound i _ hi
  simp only [SpecWrite.Sound, hedit] at hsound
  have huses := uses_attach (hedit ▸ w.made)
  refine h.respec hi rfl hrow hread hclear ?_ ?_
  · intro v hv hne
    rw [huses]
    exact or_iff_left fun hpath => hne ((hsound.1 v hv).mp hpath.symm)
  · intro v hv hid
    subst hid
    refine ⟨fun m => ?_, fun _ => ⟨hsound.2 v hv rfl, attachedIn_nil hin hv⟩⟩
    split
    · next hm =>
      rw [hm, huses]
      exact ⟨fun _ => Or.inr ((hsound.1 v hv).mpr rfl).symm, fun _ => rfl⟩
    · next hm =>
      constructor
      · intro heq
        exact absurd (some.inj heq).symm hm
      · intro hholds
        exact absurd hholds (h.not_holds hv hclear hin not_mem_nil)

theorem Inv.detach (hi : s.requests.get i = some (.write w)) {path : HostPath}
    (hedit : w.edit = .detach volume path) (hrow : s.db.vms.get w.vm = some row) (hread :
    row.spec = w.read) (hclear : s.clear volume) (hin : attachedIn s.db volume [w.vm])
    : Inv cfg ⟨s.db.setVm w.vm (Db.respec w.name w.spec) fun _ => rfl, s.requests.put i (some
    (.record volume none none))⟩ := by
  have hsound : w.Sound cfg s.db := h.sound i _ hi
  simp only [SpecWrite.Sound, hedit] at hsound
  have huses := uses_detach (hedit ▸ w.made)
  refine h.respec hi rfl hrow hread hclear ?_ ?_
  · intro v hv hne
    rw [huses]
    exact and_iff_left fun hpath => hne ((hsound v hv).mp hpath)
  · intro v hv hid
    subst hid
    refine ⟨fun m => ⟨fun hm => (by cases hm), fun hholds => ?_⟩, fun hne => absurd rfl hne⟩
    split at hholds
    · exact absurd ((hsound v hv).mpr rfl) ((huses _).mp hholds).2
    · next hm => exact absurd hholds (h.not_holds hv hclear hin (by simpa using hm))

end

end

section

variable {cfg : Config} {s : State} {i : Nat} {r : Request} {vm : Id} {own : Option Id}

theorem Inv.insertVm (h : Inv cfg s) {name : String} {spec : VirtualMachineSpec}
    {project : Id} (hi : s.requests.get i = some (.insertVm volume name spec project)) {mk : Nat → Vm}
    {hmk : ∀ j, (mk j).id = j} (hspec : ∀ j, (mk j).spec = spec) (hclear : s.clear volume)
    (hin : attachedIn s.db volume [])
    (hready : ((s.db.volumes.get volume).all fun v => v.status == .ready) = true) :
    Inv cfg ⟨{ s.db with vms := s.db.vms.insert mk hmk },
      s.requests.put i (some (.allocate volume s.db.vms.next name spec))⟩ := by
  have hsound : ∀ v ∈ s.db.volumes, uses spec (s.db.fileOf cfg v) ↔ v.id = volume :=
    h.sound i _ hi
  have hholds : ∀ v ∈ s.db.volumes, ∀ m,
      Holds { s.db with vms := s.db.vms.insert mk hmk } m (s.db.fileOf cfg v) ↔
        Holds s.db m (s.db.fileOf cfg v) ∨ m = s.db.vms.next ∧ v.id = volume := by
    intro v hv m
    rw [holds_insert, hspec, hsound v hv]
  refine h.begun hi rfl rfl hclear trivial rfl rfl ?_ ?_
  · intro v hv hvol m
    rw [hholds v hv]
    exact or_iff_left fun hnew => hvol hnew.2
  · intro v hv hid
    subst hid
    refine ⟨fun m => Iff.trans ?_ (hholds v hv m).symm, fun _ => ⟨?_, attachedIn_nil hin hv⟩⟩
    · constructor
      · intro heq
        exact Or.inr ⟨(some.inj heq).symm, rfl⟩
      · rintro (hold | ⟨rfl, -⟩)
        · exact absurd hold (h.not_holds hv hclear hin not_mem_nil)
        · rfl
    · have hget : s.db.volumes.get v.id = some v := get_eq_some.mpr ⟨hv, rfl⟩
      simpa [hget] using hready

theorem Inv.record (h : Inv cfg s) {o : Option Request} (hi : s.requests.get i = some
    r) {x : Option Id} (hr : r.due = some (volume, x)) (ho : o.bind due = none) (hsound : ∀
    b, o = some b → b.Sound cfg s.db) {serial : Option Nat} : Inv cfg ⟨s.db.setVolumeAttachment
    volume x serial, s.requests.put i o⟩ := by
  have hrow : ∀ v' ∈ (s.db.setVolumeAttachment volume x serial).volumes, ∃ v ∈ s.db.volumes,
      v'.id = v.id ∧ v'.status = v.status ∧
        v'.attachedVm = if v.id = volume then x else v.attachedVm := by
    intro v' hv'
    obtain ⟨v, hv, rfl⟩ := mem_updated rfl hv'
    refine ⟨v, hv, ?_⟩
    by_cases hvol : v.id = volume <;> simp [hvol]
  have hf : Follows s.db (s.db.setVolumeAttachment volume x serial) :=
    follows_setVolumeAttachment volume x serial
  refine h.put hi hf hsound ?_ ?_ ?_ ?_
  · intro vol y hy
    simp [ho] at hy
  · intro v' _ m hm
    simp [ho] at hm
  · intro v hv v' hv' hid hnone
    by_cases hvol : v.id = volume
    · exact Or.inr ⟨x, hvol ▸ hr⟩
    · obtain ⟨v₀, hv₀, hid₀, -, hatt⟩ := hrow v' hv'
      obtain rfl : v = v₀ := eq_of_id hv hv₀ (hid.symm.trans hid₀)
      rw [if_neg hvol] at hatt
      exact Or.inl (hatt.trans hnone)
  · intro v hv v' hv' hid
    obtain ⟨v₀, hv₀, hid₀, hstatus, hatt⟩ := hrow v' hv'
    obtain rfl : v = v₀ := eq_of_id hv hv₀ (hid.symm.trans hid₀)
    by_cases hvol : v.id = volume
    · right
      intro target ht
      rw [if_pos hvol] at hatt
      have hdone := AttachedTo.eq_done h hi (by rw [hid, hvol]; exact hr)
        (fun y hy => by rw [ho] at hy; cases hy) ht
      obtain rfl : x = target := hatt.symm.trans hdone
      have hold := h.agree v hv x (Or.inl ⟨i, r, hi, hvol ▸ hr⟩)
      obtain ⟨v₁, hv₁, hid₁, hformat, hpool, -⟩ := hf.volumes v' hv'
      obtain rfl : v = v₁ := eq_of_id hv hv₁ (hid.symm.trans hid₁)
      refine ⟨fun m => ?_, fun hne => hstatus.trans (hold.ready hne)⟩
      rw [fileOf_congr rfl hid hformat hpool]
      exact hold.attached m
    · rw [if_neg hvol] at hatt
      refine Or.inl ⟨hatt.symm, fun y => ?_, fun m => Iff.rfl⟩
      rw [ho, hr]
      constructor
      · intro hy
        cases hy
      · intro hy
        cases hy
        exact absurd hid.symm hvol

theorem unclaimed_iff : s.unclaimed vm own ↔
    ∀ i r volume, s.requests.get i = some r → r.due = some (volume, some vm) → some volume = own := by
  unfold State.unclaimed
  rw [all_iff]
  constructor
  · intro h i r volume hr hdue
    have hall := h i r hr
    simpa [hdue] using hall
  · intro h i r hr
    cases hdue : r.due with
    | none => rfl
    | some d =>
    have hown : d.2 = some vm → some d.1 = own := by
      intro hd
      refine h i r d.1 hr ?_
      rw [hdue, ← hd]
    simpa [Classical.or_iff_not_imp_left] using hown

theorem Inv.deleteVmRow (h : Inv cfg s) (hi : s.requests.get i = some r)
    (hr : r.due = own.map fun volume => (volume, some vm))
    (hun : s.unclaimed vm own) : Inv cfg ⟨s.db.deleteVmRow vm, s.requests.put i none⟩ := by
  have hrow : ∀ v' ∈ (s.db.deleteVmRow vm).volumes, ∃ v ∈ s.db.volumes, v'.id = v.id ∧
      v'.status = v.status ∧
        v'.attachedVm = if v.attachedVm = some vm then none else v.attachedVm := by
    intro v' hv'
    obtain ⟨v, hv, rfl⟩ := mem_updated rfl hv'
    refine ⟨v, hv, ?_⟩
    by_cases hatt : v.attachedVm = some vm <;> simp [hatt]
  have hf : Follows s.db (s.db.deleteVmRow vm) := follows_deleteVmRow vm
  refine h.put hi hf (fun b hb => by cases hb) (fun volume x hx => by cases hx)
    (fun v' _ m hm => by cases hm) ?_ ?_
  · intro v hv v' hv' hid hnone
    obtain ⟨v₀, hv₀, hid₀, -, hatt⟩ := hrow v' hv'
    obtain rfl : v = v₀ := eq_of_id hv hv₀ (hid.symm.trans hid₀)
    left
    rw [hatt, hnone]
    rfl
  · intro v hv v' hv' hid
    obtain ⟨v₀, hv₀, hid₀, hstatus, hatt⟩ := hrow v' hv'
    obtain rfl : v = v₀ := eq_of_id hv hv₀ (hid.symm.trans hid₀)
    obtain ⟨v₁, hv₁, hid₁, hformat, hpool, -⟩ := hf.volumes v' hv'
    obtain rfl : v = v₁ := eq_of_id hv hv₁ (hid.symm.trans hid₁)
    right
    intro target ht
    -- what held the file before, and who holds it when the VM is gone
    obtain ⟨old, hold, htarget⟩ : ∃ old, Agrees cfg s.db v old ∧
        target = if old = some vm then none else old := by
      rcases ht with ⟨j, b, hb, hbdue⟩ | ⟨hnone, rfl⟩
      · by_cases hj : j = i
        · subst hj
          simp [get_put_self hi] at hb
        · rw [get_put_ne hj] at hb
          rw [hid] at hbdue
          refine ⟨target, h.agree v hv target (Or.inl ⟨j, b, hb, hbdue⟩), ?_⟩
          rw [if_neg]
          rintro rfl
          have hown := unclaimed_iff.mp hun j b v.id hb hbdue
          rw [← hown] at hr
          exact h.single i j r b (Ne.symm hj) hi hb v.id _ _ hr hbdue
      · by_cases hown : own = some v.id
        · rw [hown] at hr
          have hfree := h.free v hv i r vm hi hr
          refine ⟨some vm, h.agree v hv _ (Or.inl ⟨i, r, hi, hr⟩), ?_⟩
          rw [hatt, hfree]
          simp
        · refine ⟨v.attachedVm, h.agree v hv _ (Or.inr ⟨fun j b x hb hbdue => ?_, rfl⟩), hatt⟩
          by_cases hj : j = i
          · subst hj
            obtain rfl : b = r := mem_unique hb hi
            rw [hr] at hbdue
            obtain ⟨volume, hvol, heq⟩ := map_eq_some_iff.mp hbdue
            cases heq
            exact hown hvol
          · exact hnone j b x (by rw [get_put_ne hj]; exact hb) (hid ▸ hbdue)
    refine ⟨fun m => ?_, fun hne => ?_⟩
    · rw [fileOf_congr hf.pools hid hformat hpool, holds_deleteVmRow, ← hold.attached, htarget]
      split
      · next hvm =>
        rw [hvm]
        constructor
        · intro hm
          cases hm
        · rintro ⟨hne, hm⟩
          exact absurd (some.inj hm).symm hne
      · next hvm =>
        constructor
        · intro hm
          refine ⟨?_, hm⟩
          rintro rfl
          exact hvm hm
        · exact fun hm => hm.2
    · refine hstatus.trans (hold.ready fun hnone => hne ?_)
      rw [htarget, hnone]
      rfl

end

/-! ## Steps and runs -/

section

variable {cfg : Config} {s : State} {i : Nat} {r : Request} {o : Option Request}

theorem writeSpec_found {vm : Id} {name : Option String} {spec : VirtualMachineSpec} {written :
    Option (Vm × Db)} (h : db.writeSpec vm name spec = .ok written) : written.isSome = (db.vms.get
    vm).isSome := by
  unfold Db.writeSpec at h
  cases hrow : db.vms.get vm with
  | none =>
    rw [hrow] at h
    cases h
    rfl
  | some row =>
    rw [hrow] at h
    obtain ⟨-, -, ⟨⟩⟩ := of_bind_pure h
    rfl

section

variable (h : Inv cfg s) {db' : Db}
include h

theorem Inv.stay (hi : s.requests.get i = some r)
    (hsound : ∀ b, o = some b → b.Sound cfg s.db) (hdue : o.bind due = r.due) :
    Inv cfg ⟨s.db, s.requests.put i o⟩ := by
  refine h.quiet hi (.refl s.db) hsound hdue ?_ fun _ _ _ => Iff.rfl
  intro v hv v' hv' hid
  rw [eq_of_id hv' hv hid]

theorem Inv.same (hi : s.requests.get i = some r)
    (hpools : db'.pools = s.db.pools) (hvolumes : db'.volumes = s.db.volumes)
    (hholds : ∀ v ∈ s.db.volumes, ∀ m,
    Holds db' m (s.db.fileOf cfg v) ↔ Holds s.db m (s.db.fileOf cfg v))
    (hsound : ∀ b, o = some b → b.Sound cfg s.db) (hdue : o.bind due = r.due) :
    Inv cfg ⟨db', s.requests.put i o⟩ := by
  refine h.quiet hi (.of_same hpools hvolumes) hsound hdue ?_ hholds
  intro v hv v' hv' hid
  rw [hvolumes] at hv'
  rw [eq_of_id hv' hv hid]

theorem Inv.edit (hi : s.requests.get i = some (.write w)) (hcur : unedited s.db
    w.vm w.read) (huses : ∀ v ∈ s.db.volumes, uses w.spec (s.db.fileOf cfg v) ↔ uses
    w.read (s.db.fileOf cfg v)) (hnext : ∀ written b, w.next written = some b → b.Sound cfg
    s.db ∧ b.due = none) : Inv cfg ⟨(w.call s.db).1, s.requests.put i (w.call s.db).2⟩ := by
  have hdue : ∀ written, (w.next written).bind due = none := by
    intro written
    cases hn : w.next written with
    | none => rfl
    | some b => exact (hnext written b hn).2
  unfold SpecWrite.call
  split
  · exact h.stay hi (fun b hb => by cases hb) rfl
  · exact h.stay hi (fun b hb => (hnext none b hb).1) (hdue none)
  · next vm db hw =>
    obtain ⟨row, hrow⟩ := isSome_iff_exists.mp (writeSpec_found hw).symm
    rw [Db.writeSpec_ok hw]
    refine h.same hi rfl rfl ?_ (fun b hb => (hnext _ b hb).1) (hdue _)
    intro v hv m
    refine (holds_respec hrow rfl m _).trans ?_
    split
    · next hm =>
      rw [hm, holds_of_get hrow, unedited_get hcur hrow]
      exact huses v hv
    · exact Iff.rfl

theorem Inv.write (hi : s.requests.get i = some (.write w)) (hcur : (write
    w).current s) : Inv cfg ⟨(w.call s.db).1, s.requests.put i (w.call s.db).2⟩ := by
  simp only [current, and_eq_true] at hcur
  obtain ⟨hun, hcur⟩ := hcur
  cases hedit : w.edit with
  | power desired taskType =>
    refine h.edit hi hun (fun v _ => uses_congr (power_disks (hedit ▸ w.made)) _) ?_
    intro written b hb
    simp only [SpecWrite.next, hedit, some.injEq] at hb
    subst hb
    exact ⟨trivial, rfl⟩
  | update db₀ vm body =>
    refine h.edit hi hun (fun v _ => uses_update (hedit ▸ w.made) v) ?_
    intro written b hb
    simp only [SpecWrite.next, hedit, map_eq_some_iff] at hb
    obtain ⟨vm, -, rfl⟩ := hb
    exact ⟨trivial, rfl⟩
  | nic index body =>
    refine h.edit hi hun (fun v _ => uses_congr (nic_disks (hedit ▸ w.made)) _) ?_
    intro written b hb
    simp only [SpecWrite.next, hedit, map_eq_some_iff] at hb
    obtain ⟨vm, -, rfl⟩ := hb
    exact ⟨trivial, rfl⟩
  | attach volume disk =>
    simp only [hedit, and_eq_true] at hcur
    obtain ⟨⟨hthere, hclear⟩, hin⟩ := hcur
    obtain ⟨row, hrow⟩ := isSome_iff_exists.mp hthere
    unfold SpecWrite.call
    split
    · exact h.stay hi (fun b hb => by cases hb) rfl
    · next hw =>
      rw [← writeSpec_found hw] at hthere
      cases hthere
    · next vm db hw =>
      rw [Db.writeSpec_ok hw]
      simp only [SpecWrite.next, hedit]
      exact h.attach hi hedit hrow (unedited_get hun hrow) hclear hin
  | detach volume path =>
    simp only [hedit, and_eq_true] at hcur
    obtain ⟨hclear, hin⟩ := hcur
    unfold SpecWrite.call
    split
    · exact h.stay hi (fun b hb => by cases hb) rfl
    · next hw =>
      have hgone : s.db.vms.get w.vm = none := by
        have hfound := writeSpec_found hw
        simpa using hfound
      simp only [SpecWrite.next, hedit]
      exact h.release hi rfl hgone hclear hin
    · next vm db hw =>
      obtain ⟨row, hrow⟩ := isSome_iff_exists.mp (writeSpec_found hw).symm
      rw [Db.writeSpec_ok hw]
      simp only [SpecWrite.next, hedit]
      exact h.detach hi hedit hrow (unedited_get hun hrow) hclear hin

/-- The call of a request that writes on what still holds. -/
theorem Inv.call (hi : s.requests.get i = some r) (hcur : r.current s) :
    Inv cfg ⟨(r.call cfg s.db).1, s.requests.put i (r.call cfg s.db).2⟩ := by
  by_cases hreads : r.reads
  · -- a read leaves the database as it is
    have hnext := fun b => reads_next hreads (h.sound i r hi) (b := b)
    rw [reads_db hreads]
    refine h.stay hi (fun b hb => (hnext b hb).1) ?_
    have hdue : r.due = none := by
      cases r <;> first | rfl | cases hreads
    cases hb : (r.call cfg s.db).2 with
    | none => exact hdue.symm
    | some b => exact (hnext b hb).2.trans hdue.symm
  have hf : Follows s.db (r.call cfg s.db).1 := call_follows r
  cases r with
  | write w => exact h.write hi hcur
  | detachFrom v vm =>
    simp only [call]
    split
    · next hgone =>
      simp only [current, hgone, isSome_none, Bool.false_or, Bool.and_eq_true] at hcur
      exact h.release hi rfl hgone hcur.1 hcur.2
    · next row hrow =>
      have hnext : ∀ b, (reading s.db (detachRead cfg s.db v row)).2 = some b →
          b.Sound cfg s.db ∧ b.due = none := by
        intro b hb
        obtain ⟨-, hb⟩ := ensure_bind.mp (reading_some hb)
        obtain ⟨w, hw, ⟨⟩⟩ := of_bind_pure hb
        refine ⟨?_, rfl⟩
        simp only [Request.Sound, SpecWrite.Sound, (SpecWrite.of_eq_ok hw).2.2]
        exact h.sound i _ hi
      refine h.stay hi (fun b hb => (hnext b hb).1) ?_
      cases hb : (reading s.db (detachRead cfg s.db v row)).2 with
      | none => rfl
      | some b => exact (hnext b hb).2
  | allocateNic w index nic =>
    have hsound : w.Sound cfg s.db := h.sound i _ hi
    obtain ⟨t, ht, -⟩ :=
      allocateOneNic_allocatesFor (s.db.releaseNicAllocations w.vm index) w.vm nic index
    simp only [call]
    split
    · next heq =>
      rw [heq] at ht
      subst ht
      exact h.same hi rfl rfl (fun v _ m => Iff.rfl) (fun b hb => by cases hb) rfl
    · next heq =>
      rw [heq] at ht
      subst ht
      refine h.same hi rfl rfl (fun v _ m => Iff.rfl) ?_ rfl
      rintro b hb
      cases hb
      exact hsound
  | record volume vm serial =>
    exact h.record hi rfl rfl fun b hb => by cases hb
  | recordBoot volume vm name =>
    refine h.record hi rfl rfl ?_
    rintro b hb
    cases hb
    trivial
  | insertVm volume name spec project =>
    simp only [current, and_eq_true] at hcur
    simp only [call]
    split
    · exact h.stay hi (fun b hb => by cases hb) rfl
    · next hins =>
      rw [Db.insertVmWithId_ok hins]
      exact h.insertVm hi (fun _ => rfl) hcur.1.1 hcur.1.2 hcur.2
  | allocate volume vm name spec =>
    obtain ⟨t, ht, -⟩ := allocateNicIps_allocatesFor vm spec.networkInterfaces s.db 0
    simp only [call]
    split <;> next heq =>
      rw [heq] at ht
      subst ht
      refine h.same hi rfl rfl (fun v _ m => Iff.rfl) ?_ rfl
      rintro b hb
      cases hb
      trivial
  | rollback | deleteRow => exact h.deleteVmRow hi rfl hcur
  | unlink u v =>
    have hsame : (s.db.removeFile v (s.db.fileOf cfg v)).volumes = s.db.volumes ∧
        (s.db.removeFile v (s.db.fileOf cfg v)).vms = s.db.vms := by
      unfold Db.removeFile
      split
      · exact ⟨rfl, rfl⟩
      · split <;> exact ⟨rfl, rfl⟩
    refine h.same hi hf.pools hsame.1 (fun v _ m => holds_congr hsame.2 m _) ?_ rfl
    rintro b hb
    cases hb
    trivial
  | dropVolume u volume =>
    refine h.quiet hi hf (fun b hb => by cases hb) rfl ?_ fun _ _ _ => Iff.rfl
    intro v hv v' hv' hid
    rw [eq_of_id (IdTable.mem_delete.mp hv').1 hv hid]
  | markDeleting vm =>
    refine h.same hi rfl rfl (fun v _ m => ?_) ?_ rfl
    · refine holds_setVm ?_ m _
      exact fun _ _ => rfl
    · rintro b hb
      cases hb
      trivial
  | sealRows rows =>
    cases rows with
    | nil => exact h.stay hi (fun b hb => by cases hb) rfl
    | cons row rows =>
    obtain ⟨vm, read⟩ := row
    refine h.same hi rfl rfl (fun v _ m => ?_) ?_ rfl
    · refine holds_setVm ?_ m _
      exact fun r hr => (unedited_get hcur hr).symm
    · rintro b hb
      cases hb
      trivial
  | accept | acceptTask =>
    exact h.same hi rfl rfl (fun v _ m => Iff.rfl) (fun b hb => by cases hb) rfl
  | _ => exact absurd rfl hreads

theorem Inv.env (hf : Follows s.db db')
    (hatt : ∀ v ∈ s.db.volumes, ∀ v' ∈ db'.volumes, v'.id = v.id → v'.attachedVm = v.attachedVm)
    (hholds : ∀ m p, Holds db' m p ↔ Holds s.db m p) : Inv cfg ⟨db', s.requests⟩ where
  single := h.single
  free := by
    intro v' hv' i r m hi hdue
    obtain ⟨v, hv, hid, -⟩ := hf.volumes v' hv'
    rw [hatt v hv v' hv' hid]
    exact h.free v hv i r m hi (hid ▸ hdue)
  agree := by
    intro v' hv' target ht
    obtain ⟨v, hv, hid, hformat, hpool, hready⟩ := hf.volumes v' hv'
    have hold := h.agree v hv target (by
      unfold AttachedTo at ht ⊢
      rwa [hid, hatt v hv v' hv' hid] at ht)
    refine ⟨fun m => ?_, fun hne => hready (hold.ready hne)⟩
    show target = some m ↔ Holds db' m (db'.fileOf cfg v')
    rw [fileOf_congr hf.pools hid hformat hpool, hholds]
    exact hold.attached m
  sound := h.sound.mono fun _ hb => hb.follows hf

theorem Inv.finalize {size : Int} (hdb : s.db.finalizeVolume volume size
    = .ok (some db')) : Inv cfg ⟨db', s.requests⟩ := by
  rw [Db.finalizeVolume_ok hdb]
  refine h.env (Follows.update rfl rfl fun _ => ⟨rfl, rfl, rfl, fun _ => rfl⟩) ?_ fun _ _ => Iff.rfl
  intro v hv v' hv' hid
  obtain ⟨v₀, hv₀, rfl⟩ := mem_updated rfl hv'
  have hid₀ : v₀.id = v.id := by
    rw [← hid]
    split <;> rfl
  rw [eq_of_id hv₀ hv hid₀]
  split <;> rfl

theorem Inv.begin (hsound : r.Sound cfg s.db) (hdue : r.due = none) :
    Inv cfg ⟨s.db, s.requests.add r⟩ where
  single := by
    refine h.single.add (fun a b hab volume x y hb ha => hab volume y x ha hb) ?_
    intro j b _ volume x y hx
    simp [hdue] at hx
  free := by
    intro v hv j b m hb hbdue
    rw [get_add] at hb
    split at hb
    · rw [← some.inj hb, hdue] at hbdue
      cases hbdue
    · exact h.free v hv j b m hb hbdue
  agree := by
    intro v hv target ht
    refine h.agree v hv target ?_
    rcases ht with ⟨j, b, hb, hbdue⟩ | ⟨hnone, hatt⟩
    · rw [get_add] at hb
      split at hb
      · rw [← some.inj hb, hdue] at hbdue
        cases hbdue
      · exact Or.inl ⟨j, b, hb, hbdue⟩
    · refine Or.inr ⟨fun j b x hb => hnone j b x ?_, hatt⟩
      rw [get_add, if_neg, hb]
      rintro rfl
      simp [Slots.get_length] at hb
  sound := h.sound.add hsound

theorem inv_step {s' : State} {e : Event} (hok : orderly s e)
    (hs : step cfg s e = some s') : Inv cfg s' := by
  cases e with
  | begin r =>
    simp only [step] at hs
    split at hs
    · next hfresh =>
      cases hs
      cases r <;> first | exact h.begin trivial rfl | cases hfresh
    · cases hs
  | call i =>
    simp only [step, map_eq_some_iff] at hs
    obtain ⟨r, hi, rfl⟩ := hs
    simp only [orderly, hi, all_some] at hok
    exact h.call hi hok
  | crash i =>
    simp only [step, map_eq_some_iff] at hs
    obtain ⟨r, hi, rfl⟩ := hs
    simp only [orderly, hi, all_some, isNone_iff_eq_none] at hok
    exact h.stay hi (fun b hb => by cases hb) hok.symm
  | phase vm p =>
    cases hs
    refine h.env (.of_same rfl rfl) ?_ fun m p => ?_
    · intro v hv v' hv' hid
      rw [eq_of_id hv' hv hid]
    · refine holds_setVm ?_ m p
      exact fun _ _ => rfl
  | finalize volume size =>
    simp only [step] at hs
    split at hs
    · next hdb =>
      cases hs
      exact h.finalize hdb
    · cases hs

end

def Start (cfg : Config) (s : State) : Prop :=
  s.requests.idle = true ∧ AttachmentsAgree cfg s.db

theorem inv_start (h : Start cfg s) : Inv cfg s where
  single := fun i j a b _ ha => by
    simp [get_idle h.1] at ha
  free := fun v _ i r m hr => by
    simp [get_idle h.1] at hr
  agree := by
    intro v hv target ht
    rcases ht with ⟨i, r, hr, -⟩ | ⟨-, rfl⟩
    · simp [get_idle h.1] at hr
    · exact ⟨h.2.attached v hv, h.2.ready v hv⟩
  sound := fun i r hr => by
    simp [get_idle h.1] at hr

/-- **Attachments agree.**  In every run in which requests write on what still holds and none is cut
short between its two writes, whenever no request is in flight a volume is attached to a VM exactly
when that VM has the volume's file among its disks; no other VM has it, and the volume is ready. -/
theorem attachments_agree (h : Reach (step cfg) (fun s e => orderly s e = true) (Start cfg) s)
    (hidle : s.requests.idle) : AttachmentsAgree cfg s.db := by
  have hinv : Inv cfg s :=
    Reach.invariant (fun _ => inv_start) (fun _ _ _ hi hok hs => inv_step hi hok hs) h
  have hagree : ∀ v ∈ s.db.volumes, Agrees cfg s.db v v.attachedVm := by
    intro v hv
    refine hinv.agree v hv _ (Or.inr ⟨fun i r x hr => ?_, rfl⟩)
    simp [get_idle hidle] at hr
  refine ⟨fun v hv => (hagree v hv).attached, fun v hv m m' hm hm' => ?_,
    fun v hv => (hagree v hv).ready⟩
  have hsome := ((hagree v hv).attached m).mpr hm
  exact some.inj (hsome.symm.trans (((hagree v hv).attached m').mpr hm'))

end

/-! ## Runs -/

theorem holds_iff {m : Id} {p : HostPath} : ((db.vms.get m).any fun r => uses r.spec p) = true ↔
    Holds db m p := by
  rw [Option.any_eq_true]
  rfl

instance (db : Db) (m : Id) (p : HostPath) : Decidable (Holds db m p) :=
  decidable_of_iff _ holds_iff

theorem agree_of_unattached {cfg : Config} (hnone : ∀ v ∈ db.volumes, v.attachedVm = none) (hunused
    : ∀ r ∈ db.vms, ∀ v ∈ db.volumes, uses r.spec (db.fileOf cfg v) = false) : AttachmentsAgree cfg
    db := by
  have hfree : ∀ v ∈ db.volumes, ∀ m, ¬ Holds db m (db.fileOf cfg v) := by
    rintro v hv m ⟨r, hr, hu⟩
    simp [hunused r (get_eq_some.mp hr).1 v hv] at hu
  refine ⟨fun v hv m => ?_, fun v hv m m' hm => absurd hm (hfree v hv m), fun v hv hne => ?_⟩
  · rw [hnone v hv]
    exact ⟨fun h => (by cases h), fun h => absurd h (hfree v hv m)⟩
  · exact absurd (hnone v hv) hne

/-- Two VMs that are stopped, a volume that is ready, and one that is still being cloned from an
image. -/
def volumeDb : Db :=
  { sampleDb with
    vms := ⟨[⟨0, "web", sampleSpec, .stopped, none, 1, 1, none, none, none, 2⟩,
      ⟨1, "db", sampleSpec, .stopped, none, 1, 1, none, none, none, 2⟩], 2, by decide, by decide⟩
    volumes := ⟨[⟨0, "data", 10, .qcow2, none, none, none, .ready, some 0, none, none, 2⟩,
      ⟨1, "root", 10, .qcow2, none, none, some 0, .provisioning, some 0, none, none, 2⟩], 2,
      by decide, by decide⟩
    images := ⟨[⟨0, "debian", storageRoot.join (.image 0 .qcow2), .qcow2, sampleSpec.boot, none, false,
      none, .ready, true, none⟩], 1, by decide, by decide⟩ }

theorem volumeDb_start : Start sampleCfg ⟨volumeDb, .empty⟩ :=
  ⟨rfl, agree_of_unattached (by decide : ∀ v ∈ volumeDb.volumes.rows, v.attachedVm = none)
    (by decide : ∀ r ∈ volumeDb.vms.rows, ∀ v ∈ volumeDb.volumes.rows,
      uses r.spec (volumeDb.fileOf sampleCfg v) = false)⟩

def root : AuthUser := ⟨none, [], [], true⟩

/-- The data volume is attached to one VM while the other is started. -/
def attachRun : List Event :=
  [.begin (.attach (.project 2) root 0 0), .begin (.setPower (.project 2) root 1 .running "vm.start"),
    .call 0, .call 1, .call 0, .call 1, .call 0, .call 1, .call 0]

theorem attachments_agree_attached :
    (final (step sampleCfg) ⟨volumeDb, .empty⟩ attachRun).requests.idle ∧
      AttachmentsAgree sampleCfg (final (step sampleCfg) ⟨volumeDb, .empty⟩ attachRun).db ∧
      Holds (final (step sampleCfg) ⟨volumeDb, .empty⟩ attachRun).db 0
        (storageRoot.join (.volume 0 .qcow2)) := by
  have hrun : Reach (step sampleCfg) (fun s e => orderly s e = true) (Start sampleCfg)
      (final (step sampleCfg) ⟨volumeDb, .empty⟩ attachRun) :=
    Reach.final (fun _ _ h => h) volumeDb_start (by decide) (by decide)
  exact ⟨by decide, attachments_agree hrun (by decide), by decide⟩

/-- Two requests attach the volume to different VMs, and both look at it before either writes. -/
def attachTwice : List Event :=
  [.begin (.attach (.project 2) root 0 0), .begin (.attach (.project 2) root 0 1),
    .call 0, .call 1, .call 0, .call 1, .call 0, .call 1, .call 0, .call 1]

/-- **A volume is attached to two VMs.**  Both requests find it free and are answered; the VM of the
first keeps the disk, and the volume's row names the second. -/
theorem volume_attached_twice :
    ∃ s, Reach (step sampleCfg) anyStep (Start sampleCfg) s ∧ s.requests.idle ∧
      ¬ AttachmentsAgree sampleCfg s.db := by
  refine ⟨final (step sampleCfg) ⟨volumeDb, .empty⟩ attachTwice, ?_, by decide, fun h => ?_⟩
  · exact Reach.final_anyStep volumeDb_start (by decide)
  · have hv : (⟨0, "data", 10, .qcow2, some 1, some 0, none, .ready, some 0, none, none, 2⟩ : Volume) ∈
        (final (step sampleCfg) ⟨volumeDb, .empty⟩ attachTwice).db.volumes := by decide
    exact absurd (h.single _ hv 0 1 (by decide) (by decide)) (by decide)

/-- **A VM boots from a volume that is not ready**, in one undisturbed request. -/
theorem unready_volume_booted :
    ∃ s, Reach (step sampleCfg) anyStep (Start sampleCfg) s ∧ s.requests.idle ∧
      ∃ v ∈ s.db.volumes, v.attachedVm = some 2 ∧ v.status = .provisioning := by
  refine ⟨final (step sampleCfg) ⟨volumeDb, .empty⟩
    [.begin (.createFromVolume (.project 2) root ⟨"vm", 1, 1, 1, 512, none, [], none⟩),
      .call 0, .call 0, .call 0, .call 0, .call 0], ?_, by decide,
    ⟨1, "root", 10, .qcow2, some 2, some 0, some 0, .provisioning, some 0, none, none, 2⟩,
    by decide, rfl, rfl⟩
  exact Reach.final_anyStep volumeDb_start (by decide)

end VQuasar.Requests
