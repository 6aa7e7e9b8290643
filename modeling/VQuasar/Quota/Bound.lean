import Mathlib
import VQuasar.Lib.Ledger
import VQuasar.Lib.Runs
import VQuasar.Quota.Transactions

/-!
# Quotas hold when the charged row has not moved

`write_spec` and `finalize_volume` charge the difference to a row they read before they take the
project lock.  `stale_update_exceeds` is a run in which the row changes in between and the project
ends above its limit.  `steady` is the condition on steps that leaves such runs out, and
`usage_within_limits` shows that under it a project never exceeds a limit, for every interleaving
of any number of transactions.

The project's usage and limit in one dimension are an `Account`; every step under the condition
is a step of that account (`account_step`), so the general bound of `Ledger` applies.
-/

namespace VQuasar.Quota

open Table Ledger Runs List Option Amounts

variable {p q : ProjectId} {s s' : State} {req : Request} {demand : Amounts} {i : Nat} {tx : Tx}

/-! ## The condition on steps -/

/-- Whether the row a transaction charges, if it is still there, still has the size it read. -/
def unmoved (s : State) (demand : Amounts) : Request → Bool
  | .writeSpec id spec =>
    s.vms.all fun r => r.id != id || demand == (ofVm r.spec).delta (ofVm spec)
  | .finalizeVolume id size =>
    s.volumes.all fun r => r.id != id || demand == resize r.size size
  | .insertVmWithId _ _ | .createVolume _ _ => true

def fits (s : State) (p : ProjectId) (demand vms : Amounts) : Bool :=
  Dimension.all.all fun d => decide (demand.get d ≤ 0) ||
    decide (vms.get d + (volumeUsage s p).get d + demand.get d < 2 ^ 63)

/-- Whether limits `l` are nowhere below those of `p`. -/
def raises (s : State) (p : ProjectId) (l : Limits) : Bool :=
  Dimension.all.all fun d =>
    match l.get d, limit s p d with
    | none, _ => true
    | some n', some n => n ≤ n'
    | some _, none => false

/-- The steps under which the quota of `p` is sound: a transaction takes the lock on `p` while the
row it read is unmoved, its admission arithmetic does not overflow, and the limits of `p` are not
lowered. -/
def steady (p : ProjectId) (s : State) : Event → Bool
  | .exec i =>
    match s.txs[i]? with
    | some ⟨req, .lockProject q demand⟩ => q != p || unmoved s demand req
    | some ⟨_, .countVolumes q demand _ vms⟩ => q != p || fits s p demand vms
    | _ => true
  | .setQuota q l => q != p || raises s p l
  | _ => true

/-! ## The invariant -/

def account (s : State) (p : ProjectId) (d : Dimension) : Account Int := ⟨usage s p d, limit s p d⟩

/-- The row a transaction of project `q` updates is a row of `q`. -/
def Targets (s : State) (q : ProjectId) : Request → Prop
  | .writeSpec id _ => id < s.nextId ∧ ∀ r ∈ s.vms, r.id = id → r.project = q
  | .finalizeVolume id _ => id < s.nextId ∧ ∀ r ∈ s.volumes, r.id = id → r.project = q
  | .insertVmWithId _ _ | .createVolume _ _ => True

/-- The demand is what the write will add. -/
def Demands (s : State) (demand : Amounts) : Request → Prop
  | .insertVmWithId spec _ => demand = ofVm spec
  | .createVolume size _ => demand = ofVolume size
  | .writeSpec id spec =>
    ∀ r ∈ s.vms, r.id = id → demand = (ofVm r.spec).delta (ofVm spec)
  | .finalizeVolume id size => ∀ r ∈ s.volumes, r.id = id → demand = resize r.size size

/-- The part of `Demands` that does not depend on the tables. -/
def Announced (demand : Amounts) : Request → Prop
  | .insertVmWithId spec _ => demand = ofVm spec
  | .createVolume size _ => demand = ofVolume size
  | .writeSpec _ _ | .finalizeVolume _ _ => True

/-- The limits a transaction loaded bound what the current limits allow. -/
def Loaded (s : State) (p : ProjectId) (l : Limits) : Prop :=
  ∀ d, NotLowered (l.get d) (limit s p d)

/-- The demand fits under the current limits wherever it grows the usage. -/
def Admitted (s : State) (p : ProjectId) (demand : Amounts) : Prop :=
  ∀ d n, limit s p d = some n → 0 < demand.get d → usage s p d + demand.get d ≤ n

/-- What a transaction of project `p` knows at each statement. -/
def TxInv (p : ProjectId) (s : State) (req : Request) : TxPc → Prop
  | .start | .finished => True
  | .lockProject _ demand => Announced demand req
  | .loadLimits _ demand => Demands s demand req
  | .countVms _ demand l => Demands s demand req ∧ Loaded s p l
  | .countVolumes _ demand l vms => Demands s demand req ∧ Loaded s p l ∧ vms.volumes = 0 ∧
      ∀ d, (vmUsage s p).get d ≤ vms.get d
  | .write _ demand | .commit _ demand _ => Demands s demand req ∧ Admitted s p demand

structure Inv (p : ProjectId) (s : State) : Prop where
  tables : Tables s
  targets : ∀ tx ∈ s.txs, ∀ q, tx.pc.project = some q → Targets s q tx.request
  /-- At most one transaction holds the lock on `p`. -/
  oneHolder : ∀ (i j : Nat) (tx tx' : Tx), s.txs[i]? = some tx → s.txs[j]? = some tx' →
    tx.pc.holds p → tx'.pc.holds p → i = j
  tx : ∀ tx ∈ s.txs, tx.pc.project = some p → TxInv p s tx.request tx.pc

/-! ## Steps that do not charge `p` -/

/-- The rows of `p` only become fewer, and its limits are not lowered. -/
structure Shrinks (p : ProjectId) (s s' : State) : Prop where
  vms : ∀ r ∈ s'.vms, r.project = p → r ∈ s.vms
  volumes : ∀ r ∈ s'.volumes, r.project = p → r ∈ s.volumes
  vmUsage : ∀ d, (vmUsage s' p).get d ≤ (vmUsage s p).get d
  volumeUsage : ∀ d, (volumeUsage s' p).get d ≤ (volumeUsage s p).get d
  limits : ∀ d, NotLowered (limit s p d) (limit s' p d)

/-- Rows keep their id and project; new rows have new ids. -/
structure Keeps (s s' : State) : Prop where
  nextId : s.nextId ≤ s'.nextId
  vms : ∀ r' ∈ s'.vms, (∃ r ∈ s.vms, r.id = r'.id ∧ r.project = r'.project) ∨ s.nextId ≤ r'.id
  volumes : ∀ r' ∈ s'.volumes,
    (∃ r ∈ s.volumes, r.id = r'.id ∧ r.project = r'.project) ∨ s.nextId ≤ r'.id

theorem Shrinks.usage (h : Shrinks p s s') (d : Dimension) : usage s' p d ≤ usage s p d :=
  Int.add_le_add (h.vmUsage d) (h.volumeUsage d)

theorem Shrinks.step (h : Shrinks p s s') (d : Dimension) : (account s p d).Step (account s' p d) :=
  .release (h.usage d) (h.limits d)

theorem Keeps.targets (h : Keeps s s') (ht : Targets s q req) : Targets s' q req := by
  cases req with
  | insertVmWithId | createVolume => trivial
  | writeSpec id spec =>
    refine ⟨Nat.lt_of_lt_of_le ht.1 h.nextId, fun r' hr' hid => ?_⟩
    rcases h.vms r' hr' with ⟨r, hr, hrid, hrp⟩ | hnew
    · exact hrp ▸ ht.2 r hr (hrid.trans hid)
    · exact absurd ht.1 (by omega)
  | finalizeVolume id size =>
    refine ⟨Nat.lt_of_lt_of_le ht.1 h.nextId, fun r' hr' hid => ?_⟩
    rcases h.volumes r' hr' with ⟨r, hr, hrid, hrp⟩ | hnew
    · exact hrp ▸ ht.2 r hr (hrid.trans hid)
    · exact absurd ht.1 (by omega)

section

variable (h : Shrinks p s s')
include h

theorem Shrinks.demands (ht : Targets s' p req) (hd : Demands s demand req) :
    Demands s' demand req := by
  cases req with
  | insertVmWithId | createVolume => exact hd
  | writeSpec id spec =>
    intro r hr hid
    exact hd r (h.vms r hr (ht.2 r hr hid)) hid
  | finalizeVolume id size =>
    intro r hr hid
    exact hd r (h.volumes r hr (ht.2 r hr hid)) hid

theorem Shrinks.admitted (ha : Admitted s p demand) : Admitted s' p demand := by
  intro d n' hn' hw
  obtain ⟨n, hn, hnn⟩ := h.limits d n' hn'
  have h1 := ha d n hn hw
  have h2 := h.usage d
  omega

theorem Shrinks.loaded {l : Limits} (hl : Loaded s p l) : Loaded s' p l :=
  fun d => (hl d).trans (h.limits d)

theorem Shrinks.txInv {pc : TxPc} (ht : Targets s' p req)
    (hi : TxInv p s req pc) : TxInv p s' req pc := by
  cases pc with
  | start | finished => trivial
  | lockProject => exact hi
  | loadLimits => exact h.demands ht hi
  | countVms => exact ⟨h.demands ht hi.1, h.loaded hi.2⟩
  | countVolumes q demand l vms =>
    refine ⟨h.demands ht hi.1, h.loaded hi.2.1, hi.2.2.1, ?_⟩
    intro d
    exact Int.le_trans (h.vmUsage d) (hi.2.2.2 d)
  | write | commit => exact ⟨h.demands ht hi.1, h.admitted hi.2⟩

end

/-- A step on the tables alone that does not charge `p`. -/
theorem Inv.shrink (h : Inv p s) (htx : s'.txs = s.txs) (ht : Tables s') (hk : Keeps s s')
    (hs : Shrinks p s s') : Inv p s' := by
  have htgt : ∀ tx ∈ s'.txs, ∀ q, tx.pc.project = some q → Targets s' q tx.request := by
    rw [htx]
    exact fun tx hin q hq => hk.targets (h.targets tx hin q hq)
  refine ⟨ht, htgt, htx ▸ h.oneHolder, ?_⟩
  intro tx hin hp
  refine hs.txInv (htgt tx hin p hp) ?_
  rw [htx] at hin
  exact h.tx tx hin hp

theorem Inv.setPc (h : Inv p s) (hi : s.txs[i]? = some tx) (pc : TxPc)
    (htgt : ∀ q, pc.project = some q → Targets s q tx.request) (hhold : pc.holds p → tx.pc.holds p ∨
    ∀ t ∈ s.txs, t.pc.holds p = false) (hinv : pc.project = some p → TxInv p s tx.request pc) :
    Inv p { s with txs := s.txs.set i { tx with pc := pc } } := by
  have hmem : ∀ t ∈ s.txs.set i { tx with pc := pc }, t ∈ s.txs ∨ t = { tx with pc := pc } :=
    fun t ht => mem_or_eq_of_mem_set ht
  have hget : ∀ (j : Nat) (t : Tx), (s.txs.set i { tx with pc := pc })[j]? = some t →
      t.pc.holds p = true → (∀ t ∈ s.txs, t.pc.holds p = false) ∧ j = i ∨
        ∃ t', s.txs[j]? = some t' ∧ t'.pc.holds p = true := by
    intro j t hj ht
    by_cases hji : i = j
    · subst hji
      rw [List.getElem?_set_self (List.getElem?_eq_some_iff.mp hi).1] at hj
      cases hj
      rcases hhold ht with hh | hno
      · exact .inr ⟨tx, hi, hh⟩
      · exact .inl ⟨hno, rfl⟩
    · rw [List.getElem?_set_ne hji] at hj
      exact .inr ⟨t, hj, ht⟩
  refine ⟨⟨h.tables.vmIds, h.tables.volumeIds, h.tables.vmLt, h.tables.volumeLt⟩, ?_, ?_, ?_⟩
  · intro t ht q hq
    rcases hmem t ht with hin | rfl
    · exact h.targets t hin q hq
    · exact htgt q hq
  · intro j k t t' hj hk ht ht'
    rcases hget j t hj ht with ⟨hno, rfl⟩ | ⟨u, hu, huh⟩
    · rcases hget k t' hk ht' with ⟨-, rfl⟩ | ⟨u', hu', huh'⟩
      · rfl
      · simp [hno u' (mem_of_getElem? hu')] at huh'
    · rcases hget k t' hk ht' with ⟨hno, rfl⟩ | ⟨u', hu', huh'⟩
      · simp [hno u (mem_of_getElem? hu)] at huh
      · exact h.oneHolder j k u u' hu hu' huh huh'
  · intro t ht hp
    rcases hmem t ht with hin | rfl
    · exact h.tx t hin hp
    · exact hinv hp

theorem Inv.finish (h : Inv p s) (hi : s.txs[i]? = some tx) :
    Inv p { s with txs := s.txs.set i { tx with pc := .finished } } :=
  h.setPc hi .finished (fun q hq => by cases hq) (fun hc => by cases hc) (fun hq => by cases hq)

/-! ## Deletes and limits -/

theorem vmUsage_le_of_sublist (h : s'.vms.Sublist s.vms) (p : ProjectId) (d : Dimension) :
    (vmUsage s' p).get d ≤ (vmUsage s p).get d := by
  rw [vmUsage_get, vmUsage_get]
  exact total_le_of_sublist (h.filter _) fun r _ => counted_nonneg r.spec d

theorem volumeUsage_le_of_sublist (h : s'.volumes.Sublist s.volumes) (p : ProjectId)
    (d : Dimension) : (volumeUsage s' p).get d ≤ (volumeUsage s p).get d := by
  rw [volumeUsage_get, volumeUsage_get]
  exact total_le_of_sublist (h.filter _) fun r _ => ofVolume_nonneg r.size d

/-- What deletes and quota changes do: rows go away, the limits of `p` are not lowered. -/
structure Trims (p : ProjectId) (s s' : State) : Prop where
  txs : s'.txs = s.txs
  vms : s'.vms.Sublist s.vms
  volumes : s'.volumes.Sublist s.volumes
  nextId : s'.nextId = s.nextId
  limits : ∀ d, NotLowered (limit s p d) (limit s' p d)

theorem Trims.shrinks (h : Trims p s s') : Shrinks p s s' := by
  refine ⟨?_, ?_, ?_, ?_, h.limits⟩
  · exact fun r hr _ => h.vms.subset hr
  · exact fun r hr _ => h.volumes.subset hr
  · exact vmUsage_le_of_sublist h.vms p
  · exact volumeUsage_le_of_sublist h.volumes p

theorem Trims.inv (ht : Trims p s s') (h : Inv p s) : Inv p s' := by
  refine h.shrink ht.txs ⟨?_, ?_, ?_, ?_⟩ ⟨ht.nextId.ge, ?_, ?_⟩ ht.shrinks
  · exact h.tables.vmIds.sublist (ht.vms.map _)
  · exact h.tables.volumeIds.sublist (ht.volumes.map _)
  · intro r hr
    rw [ht.nextId]
    exact h.tables.vmLt r (ht.vms.subset hr)
  · intro r hr
    rw [ht.nextId]
    exact h.tables.volumeLt r (ht.volumes.subset hr)
  · exact fun r hr => .inl ⟨r, ht.vms.subset hr, rfl, rfl⟩
  · exact fun r hr => .inl ⟨r, ht.volumes.subset hr, rfl, rfl⟩

theorem trims_deleteVolumes (p : ProjectId) {q : VolumeRow → Bool}
    (hs : deleteVolumes s q = some s') : Trims p s s' := by
  unfold deleteVolumes at hs
  split at hs
  · cases hs
  · cases hs
    exact ⟨rfl, List.Sublist.refl _, deleteWhere_sublist q s.volumes, rfl, fun d => .refl _⟩

theorem limit_update (s : State) (q : ProjectId) (v : Option Limits) (p : ProjectId)
    (d : Dimension) : limit { s with quotas := Function.update s.quotas q v } p d =
      if p = q then v.bind fun l => l.get d else limit s p d := by
  by_cases hpq : p = q
  · subst hpq
    simp [limit]
  · simp [limit, hpq]

variable {l : Limits} {e : Event} {pc : TxPc}

theorem trims_setQuota (hok : steady p s (.setQuota q l)) :
    Trims p s { s with quotas := Function.update s.quotas q (some l) } := by
  refine ⟨rfl, List.Sublist.refl _, List.Sublist.refl _, rfl, ?_⟩
  intro d
  rw [limit_update]
  split
  · next hpq =>
    subst hpq
    simp only [steady, bne_self_eq_false, Bool.false_or, raises, List.all_eq_true] at hok
    have hd := hok d d.mem_all
    intro n' hn'
    rw [show l.get d = some n' from hn'] at hd
    cases hl : limit s p d with
    | none => simp [hl] at hd
    | some n => exact ⟨n, rfl, by simpa [hl] using hd⟩
  · exact .refl _

theorem trims_clearQuota (p : ProjectId) (s : State) (q : ProjectId) :
    Trims p s { s with quotas := Function.update s.quotas q none } := by
  refine ⟨rfl, List.Sublist.refl _, List.Sublist.refl _, rfl, ?_⟩
  intro d
  rw [limit_update]
  split
  · intro n' hn'
    cases hn'
  · exact .refl _

theorem trims_step (hok : steady p s e) (hs : step s e = some s') :
    (∃ r, e = .begin r) ∨ (∃ i, e = .exec i) ∨ (∃ i, e = .rollback i) ∨ Trims p s s' := by
  cases e with
  | begin r => exact .inl ⟨r, rfl⟩
  | exec i => exact .inr (.inl ⟨i, rfl⟩)
  | rollback i => exact .inr (.inr (.inl ⟨i, rfl⟩))
  | deleteVmRow id =>
    simp only [step] at hs
    split at hs
    · cases hs
    · cases hs
      exact .inr (.inr (.inr ⟨rfl, deleteWhere_sublist _ s.vms, List.Sublist.refl _, rfl,
        fun d => .refl _⟩))
  | deleteVolume | dropVolumeReservation | dropOrphanedReservations =>
    exact .inr (.inr (.inr (trims_deleteVolumes p hs)))
  | setQuota q l =>
    cases hs
    exact .inr (.inr (.inr (trims_setQuota hok)))
  | clearQuota q =>
    cases hs
    exact .inr (.inr (.inr (trims_clearQuota p s q)))

/-! ## Statements before the commit -/

theorem Demands.announced (h : Demands s demand req) : Announced demand req := by
  cases req with
  | insertVmWithId | createVolume => exact h
  | writeSpec | finalizeVolume => trivial

theorem readBefore_spec (ht : Tables s) (req : Request) :
    readBefore s req = .finished ∨ ∃ q demand, readBefore s req = .lockProject q demand ∧
      Targets s q req ∧ Demands s demand req ∧ hits s req := by
  cases req with
  | insertVmWithId spec q | createVolume size q => exact .inr ⟨q, _, rfl, trivial, rfl, rfl⟩
  | writeSpec id spec =>
    cases hf : s.vms.find? fun r => r.id == id with
    | none => exact .inl (by simp only [readBefore, hf])
    | some r =>
    have hr : r ∈ s.vms := mem_of_find?_eq_some hf
    have hid : r.id = id := by simpa using List.find?_some hf
    have honly : ∀ r' ∈ s.vms, r'.id = id → r' = r := fun r' hr' hid' =>
      inj_on_of_nodup_map ht.vmIds hr' hr (hid'.trans hid.symm)
    refine .inr ⟨r.project, (ofVm r.spec).delta (ofVm spec),
      by simp only [readBefore, hf], ⟨hid ▸ ht.vmLt r hr, ?_⟩, ?_, ?_⟩
    · exact fun r' hr' hid' => by rw [honly r' hr' hid']
    · exact fun r' hr' hid' => by rw [honly r' hr' hid']
    · exact any_eq_true.mpr ⟨r, hr, by simpa using hid⟩
  | finalizeVolume id size =>
    cases hf : s.volumes.find? fun r => r.id == id && r.status == .provisioning with
    | none => exact .inl (by simp only [readBefore, hf])
    | some r =>
    have hr : r ∈ s.volumes := mem_of_find?_eq_some hf
    have hid : r.id = id := by
      have hfs := List.find?_some hf
      simp only [Bool.and_eq_true, beq_iff_eq] at hfs
      exact hfs.1
    have honly : ∀ r' ∈ s.volumes, r'.id = id → r' = r := fun r' hr' hid' =>
      inj_on_of_nodup_map ht.volumeIds hr' hr (hid'.trans hid.symm)
    refine .inr ⟨r.project, resize r.size size, by simp only [readBefore, hf],
      ⟨hid ▸ ht.volumeLt r hr, ?_⟩, ?_, ?_⟩
    · exact fun r' hr' hid' => by rw [honly r' hr' hid']
    · exact fun r' hr' hid' => by rw [honly r' hr' hid']
    · exact any_eq_true.mpr ⟨r, hr, by simpa using hid⟩

/-- With the row unmoved, the announced demand is what the write will add. -/
theorem demands_of_unmoved (ha : Announced demand req) (hu : unmoved s demand req) :
    Demands s demand req := by
  cases req with
  | insertVmWithId | createVolume => exact ha
  | writeSpec | finalizeVolume =>
    intro r hr hid
    simp only [unmoved, List.all_eq_true] at hu
    simpa [hid] using hu r hr

theorem limit_of_unlimited (hq : s.quotas p = some l) (hu : l.unlimited)
    (d : Dimension) : limit s p d = none := by
  simp only [Limits.unlimited, Limits.dimensions, List.all_map, List.all_eq_true,
    Function.comp_apply, Option.isNone_iff_eq_none] at hu
  rw [limit, hq]
  exact hu d d.mem_all

theorem admitted_of_check {vms : Amounts} (hl : Loaded s p l)
    (hvol : vms.volumes = 0) (hvms : ∀ d, (vmUsage s p).get d ≤ vms.get d)
    (hfit : fits s p demand vms)
    (hc : check l (vms.combine (volumeUsage s p)) demand = .ok ()) : Admitted s p demand := by
  intro d n' hn' hw
  obtain ⟨n, hn, hnn⟩ := hl d n' hn'
  have hchk := check_ok hc hn hw
  simp only [fits, List.all_eq_true, Bool.or_eq_true, decide_eq_true_eq] at hfit
  have hlt : vms.get d + (volumeUsage s p).get d + demand.get d < 2 ^ 63 := by
    rcases hfit d d.mem_all with h | h
    · omega
    · exact h
  have hv0 : ∀ d, 0 ≤ vms.get d := fun d => Int.le_trans (vmUsage_nonneg s p d) (hvms d)
  have hcomb : (vms.combine (volumeUsage s p)).get d = vms.get d + (volumeUsage s p).get d :=
    combine_get hv0 (volumeUsage_nonneg s p) hvol ⟨rfl, rfl, rfl⟩ (by omega)
  have h1 := hv0 d
  have h2 := volumeUsage_nonneg s p d
  rw [hcomb, i64_eq (by omega) (by omega)] at hchk
  have h3 := hvms d
  unfold usage
  omega

/-! ## The commit -/

theorem apply_tables (ht : Tables s) (q : ProjectId) (hit : Bool) (req : Request) :
    Tables (apply s q hit req) ∧ Keeps s (apply s q hit req) ∧
      (apply s q hit req).txs = s.txs ∧ (apply s q hit req).quotas = s.quotas := by
  have hkv : ∀ r' ∈ s.vms, (∃ r ∈ s.vms, r.id = r'.id ∧ r.project = r'.project) ∨
      s.nextId ≤ r'.id := fun r hr => .inl ⟨r, hr, rfl, rfl⟩
  have hkw : ∀ r' ∈ s.volumes, (∃ r ∈ s.volumes, r.id = r'.id ∧ r.project = r'.project) ∨
      s.nextId ≤ r'.id := fun r hr => .inl ⟨r, hr, rfl, rfl⟩
  cases req with
  | insertVmWithId spec q' =>
    obtain ⟨hu, hlt, hkeep⟩ :=
      keys_append VmRow.project ⟨s.nextId, q, spec⟩ ht.vmIds ht.vmLt rfl
    exact ⟨⟨hu, ht.volumeIds, hlt, fun r hr => Nat.lt_succ_of_lt (ht.volumeLt r hr)⟩,
      ⟨Nat.le_succ _, hkeep, hkw⟩, rfl, rfl⟩
  | createVolume size q' =>
    obtain ⟨hu, hlt, hkeep⟩ :=
      keys_append VolumeRow.project ⟨s.nextId, q, size, .provisioning⟩ ht.volumeIds ht.volumeLt rfl
    exact ⟨⟨ht.vmIds, hu, fun r hr => Nat.lt_succ_of_lt (ht.vmLt r hr), hlt⟩,
      ⟨Nat.le_succ _, hkv, hkeep⟩, rfl, rfl⟩
  | writeSpec id spec =>
    cases hit with
    | false => exact ⟨ht, ⟨Nat.le_refl _, hkv, hkw⟩, rfl, rfl⟩
    | true =>
    obtain ⟨hu, hlt, hkeep⟩ := keys_updateWhere VmRow.project (fun r => r.id == id)
      (fun r => { r with spec := spec }) (fun _ => ⟨rfl, rfl⟩) ht.vmIds ht.vmLt
    exact ⟨⟨hu, ht.volumeIds, hlt, ht.volumeLt⟩,
      ⟨Nat.le_refl _, fun r' hr' => .inl (hkeep r' hr'), hkw⟩, rfl, rfl⟩
  | finalizeVolume id size =>
    cases hit with
    | false => exact ⟨ht, ⟨Nat.le_refl _, hkv, hkw⟩, rfl, rfl⟩
    | true =>
    obtain ⟨hu, hlt, hkeep⟩ := keys_updateWhere VolumeRow.project (fun r => r.id == id)
      (fun r => { r with size := size, status := .ready }) (fun _ => ⟨rfl, rfl⟩)
      ht.volumeIds ht.volumeLt
    exact ⟨⟨ht.vmIds, hu, ht.vmLt, hlt⟩,
      ⟨Nat.le_refl _, hkv, fun r' hr' => .inl (hkeep r' hr')⟩, rfl, rfl⟩

def vmsOf (s : State) (p : ProjectId) : List VmRow := s.vms.filter fun r => r.project == p

def volumesOf (s : State) (p : ProjectId) : List VolumeRow :=
  s.volumes.filter fun r => r.project == p

theorem mem_vmsOf {r : VmRow} : r ∈ vmsOf s p ↔ r ∈ s.vms ∧ r.project = p := by
  simp [vmsOf]

theorem mem_volumesOf {r : VolumeRow} : r ∈ volumesOf s p ↔ r ∈ s.volumes ∧ r.project = p := by
  simp [volumesOf]

theorem shrinks_of_same_rows (hv : vmsOf s' p = vmsOf s p) (hw : volumesOf s' p = volumesOf s p)
    (hq : s'.quotas = s.quotas) : Shrinks p s s' := by
  refine ⟨?_, ?_, ?_, ?_, ?_⟩
  · intro r hr hp
    have hmem : r ∈ vmsOf s' p := mem_vmsOf.mpr ⟨hr, hp⟩
    rw [hv] at hmem
    exact (mem_vmsOf.mp hmem).1
  · intro r hr hp
    have hmem : r ∈ volumesOf s' p := mem_volumesOf.mpr ⟨hr, hp⟩
    rw [hw] at hmem
    exact (mem_volumesOf.mp hmem).1
  · intro d
    rw [vmUsage_get, vmUsage_get]
    exact Int.le_of_eq (congrArg (total fun r => r.spec.counted.get d) hv)
  · intro d
    rw [volumeUsage_get, volumeUsage_get]
    exact Int.le_of_eq (congrArg (total fun r => (ofVolume r.size).get d) hw)
  · intro d
    unfold limit
    rw [hq]
    exact .refl _

theorem apply_other (hqp : q ≠ p) (hit : Bool) (htgt : Targets s q req) :
    vmsOf (apply s q hit req) p = vmsOf s p ∧ volumesOf (apply s q hit req) p = volumesOf s p := by
  cases req with
  | insertVmWithId spec q' =>
    refine ⟨?_, rfl⟩
    simp [vmsOf, apply, filter_append, hqp]
  | createVolume size q' =>
    refine ⟨rfl, ?_⟩
    simp [volumesOf, apply, filter_append, hqp]
  | writeSpec id spec =>
    cases hit with
    | false => exact ⟨rfl, rfl⟩
    | true =>
      refine ⟨filter_updateWhere_eq (fun _ => rfl) fun r hr hp => ?_, rfl⟩
      simp only [beq_eq_false_iff_ne]
      exact fun hid => hqp ((htgt.2 r hr hid).symm.trans (eq_of_beq hp))
  | finalizeVolume id size =>
    cases hit with
    | false => exact ⟨rfl, rfl⟩
    | true =>
      refine ⟨rfl, filter_updateWhere_eq (fun _ => rfl) fun r hr hp => ?_⟩
      simp only [beq_eq_false_iff_ne]
      exact fun hid => hqp ((htgt.2 r hr hid).symm.trans (eq_of_beq hp))

theorem usage_eq (s : State) (p : ProjectId) (d : Dimension) : usage s p d =
    total (fun r => r.spec.counted.get d) (vmsOf s p) +
      total (fun r => (ofVolume r.size).get d) (volumesOf s p) := by
  unfold usage
  rw [vmUsage_get, volumeUsage_get]
  rfl

section

variable (ht : Tables s) (hit : Bool) (htgt : Targets s p req) (hd : Demands s demand req)
include ht hit htgt hd

/-- A commit in `p` adds its demand, or nothing when its row is gone. -/
theorem apply_usage :
    (∀ d, usage (apply s p hit req) p d = usage s p d + demand.get d) ∨
      (hit && hits s req) = false ∧ ∀ d, usage (apply s p hit req) p d = usage s p d := by
  cases req with
  | insertVmWithId spec q' =>
    left
    intro d
    have hd' : demand = ofVm spec := hd
    have hrows : vmsOf (apply s p hit (.insertVmWithId spec q')) p =
        vmsOf s p ++ [⟨s.nextId, p, spec⟩] := by
      simp [vmsOf, apply, filter_append]
    have hvol : volumesOf (apply s p hit (.insertVmWithId spec q')) p = volumesOf s p := rfl
    rw [usage_eq, usage_eq, hrows, hvol, hd', ofVm_eq_counted, total_append, total_cons, total_nil]
    dsimp only
    omega
  | createVolume size q' =>
    left
    intro d
    have hd' : demand = ofVolume size := hd
    have hrows : volumesOf (apply s p hit (.createVolume size q')) p =
        volumesOf s p ++ [⟨s.nextId, p, size, .provisioning⟩] := by
      simp [volumesOf, apply, filter_append]
    have hvms : vmsOf (apply s p hit (.createVolume size q')) p = vmsOf s p := rfl
    rw [usage_eq, usage_eq, hrows, hvms, hd', total_append, total_cons, total_nil]
    dsimp only
    omega
  | writeSpec id spec =>
    cases hit with
    | false => exact .inr ⟨rfl, fun _ => rfl⟩
    | true =>
    have hrows : vmsOf (apply s p true (.writeSpec id spec)) p =
        updateWhere (fun r => r.id == id) (fun r => { r with spec := spec }) (vmsOf s p) :=
      filter_updateWhere fun _ => rfl
    have hvol : volumesOf (apply s p true (.writeSpec id spec)) p = volumesOf s p := rfl
    have hu : ((vmsOf s p).map VmRow.id).Nodup := ht.vmIds.sublist (filter_sublist.map _)
    by_cases hex : ∃ r ∈ s.vms, r.id = id
    · obtain ⟨r, hr, rfl⟩ := hex
      refine .inl fun d => ?_
      rw [usage_eq, usage_eq, hrows, hvol, total_updateWhere hu (mem_vmsOf.mpr ⟨hr, htgt.2 r hr rfl⟩),
        hd r hr rfl, delta_counted]
      dsimp only
      omega
    · refine .inr ⟨by simpa [hits] using hex, fun d => ?_⟩
      rw [usage_eq, usage_eq, hrows, hvol, updateWhere_eq_self]
      exact fun r hr => by simpa using fun hid => hex ⟨r, (mem_vmsOf.mp hr).1, hid⟩
  | finalizeVolume id size =>
    cases hit with
    | false => exact .inr ⟨rfl, fun _ => rfl⟩
    | true =>
    have hrows : volumesOf (apply s p true (.finalizeVolume id size)) p =
        updateWhere (fun r => r.id == id) (fun r => { r with size := size, status := .ready })
          (volumesOf s p) := filter_updateWhere fun _ => rfl
    have hvms : vmsOf (apply s p true (.finalizeVolume id size)) p = vmsOf s p := rfl
    have hu : ((volumesOf s p).map VolumeRow.id).Nodup :=
      ht.volumeIds.sublist (filter_sublist.map _)
    by_cases hex : ∃ r ∈ s.volumes, r.id = id
    · obtain ⟨r, hr, rfl⟩ := hex
      refine .inl fun d => ?_
      rw [usage_eq, usage_eq, hrows, hvms, total_updateWhere hu (mem_volumesOf.mpr ⟨hr, htgt.2 r hr rfl⟩),
        hd r hr rfl, resize_get]
      dsimp only
      omega
    · refine .inr ⟨by simpa [hits] using hex, fun d => ?_⟩
      rw [usage_eq, usage_eq, hrows, hvms, updateWhere_eq_self]
      exact fun r hr => by simpa using fun hid => hex ⟨r, (mem_volumesOf.mp hr).1, hid⟩

/-- A commit of an admitted demand is a charge that fits, or a release. -/
theorem apply_step (ha : Admitted s p demand) (d : Dimension) :
    (account s p d).Step (account (apply s p hit req) p d) := by
  have hlim : limit (apply s p hit req) p d = limit s p d := by
    unfold limit
    rw [(apply_tables ht p hit req).2.2.2]
  have hrel : usage (apply s p hit req) p d ≤ usage s p d →
      (account s p d).Step (account (apply s p hit req) p d) := by
    intro hle
    refine .release hle ?_
    show NotLowered (limit s p d) (limit (apply s p hit req) p d)
    rw [hlim]
    exact .refl _
  rcases apply_usage ht hit htgt hd with hu | ⟨-, hu⟩
  · by_cases hw : 0 < demand.get d
    · have hacc : account (apply s p hit req) p d =
          ⟨(account s p d).usage + demand.get d, (account s p d).limit⟩ := by
        unfold account
        rw [hu d, hlim]
      rw [hacc]
      exact .charge _ fun n hn => ha d n hn hw
    · exact hrel (by rw [hu d]; omega)
  · exact hrel (Int.le_of_eq (hu d))

end

/-! ## The system -/

/-- A pc that is about `p` without the lock on it is waiting for the lock. -/
theorem TxPc.waits (hp : pc.project = some p) (hh : pc.holds p = false) :
    ∃ demand, pc = .lockProject p demand := by
  cases pc with
  | lockProject q demand =>
    obtain rfl : q = p := some.inj hp
    exact ⟨demand, rfl⟩
  | start | finished => cases hp
  | loadLimits | countVms | countVolumes | write | commit =>
    cases hp
    simp [TxPc.holds] at hh

theorem inv_commit (h : Inv p s) {hit : Bool} (hi : s.txs[i]? = some ⟨req, .commit p demand hit⟩) :
    Inv p { apply s p hit req with txs := s.txs.set i ⟨req, .finished⟩ } := by
  obtain ⟨ht, hk, -, -⟩ := apply_tables h.tables p hit req
  refine ⟨⟨ht.vmIds, ht.volumeIds, ht.vmLt, ht.volumeLt⟩, ?_, ?_, ?_⟩
  · intro tx htx q hq
    rcases mem_or_eq_of_mem_set htx with htx | rfl
    · exact hk.targets (h.targets tx htx q hq)
    · cases hq
  · intro j k tx tx' hj hk' hh hh'
    -- the finished transaction holds nothing, and `i` held the lock alone
    by_cases hji : i = j
    · subst hji
      rw [List.getElem?_set_self (List.getElem?_eq_some_iff.mp hi).1] at hj
      cases hj
      cases hh
    · rw [List.getElem?_set_ne hji] at hj
      exact absurd (h.oneHolder i j _ tx hi hj (by simp [TxPc.holds]) hh) hji
  · intro tx htx hp
    obtain ⟨j, hj⟩ := mem_iff_getElem?.mp htx
    by_cases hji : i = j
    · subst hji
      rw [List.getElem?_set_self (List.getElem?_eq_some_iff.mp hi).1] at hj
      cases hj
      cases hp
    · rw [List.getElem?_set_ne hji] at hj
      have hno : tx.pc.holds p = false := by
        by_contra hc
        exact hji (h.oneHolder i j _ tx hi hj (by simp [TxPc.holds]) (by simpa using hc))
      obtain ⟨dem, hpc⟩ := TxPc.waits hp hno
      have hold := h.tx tx (mem_of_getElem? hj) hp
      rw [hpc] at hold ⊢
      exact hold

theorem inv_exec (h : Inv p s) (hok : steady p s (.exec i))
    (hs : step s (.exec i) = some s') : Inv p s' := by
  simp only [step] at hs
  split at hs
  · cases hs
  · next tx hi =>
    obtain ⟨⟨s1, pc'⟩, hst, rfl⟩ := map_eq_some_iff.mp hs
    have hin : tx ∈ s.txs := mem_of_getElem? hi
    have htgt := h.targets tx hin
    have hinv := h.tx tx hin
    obtain ⟨req, pc⟩ := tx
    cases pc with
    | start =>
      cases hst
      rcases readBefore_spec h.tables req with hf | ⟨q, demand, hf, ht, hd, -⟩
      · rw [hf]
        exact h.finish hi
      rw [hf]
      refine h.setPc hi (.lockProject q demand) ?_ (fun hc => by cases hc)
        (fun _ => hd.announced)
      intro q' hq'
      cases hq'
      exact ht
    | lockProject q demand =>
      simp only [stmt] at hst
      split at hst
      · cases hst
      · next hfree =>
        cases hst
        refine h.setPc hi (.loadLimits q demand) htgt ?_ ?_
        · intro hh
          have hqp : q = p := by simpa [TxPc.holds] using hh
          subst hqp
          right
          intro t ht
          by_contra hc
          exact hfree (any_eq_true.mpr ⟨t, ht, by simpa using hc⟩)
        · intro hp
          obtain rfl : q = p := some.inj hp
          have hu : unmoved s demand req := by simpa [steady, hi] using hok
          exact demands_of_unmoved (hinv rfl) hu
    | loadLimits q demand =>
      simp only [stmt] at hst
      split at hst
      · next hq =>
        cases hst
        refine h.setPc hi (.write q demand) htgt (fun hh => .inl hh) ?_
        intro hp
        obtain rfl : q = p := some.inj hp
        refine ⟨hinv rfl, ?_⟩
        intro d n hn
        simp [limit, hq] at hn
      · next l hq =>
        cases hst
        split
        · next hu =>
          refine h.setPc hi (.write q demand) htgt (fun hh => .inl hh) ?_
          intro hp
          obtain rfl : q = p := some.inj hp
          refine ⟨hinv rfl, ?_⟩
          intro d n hn
          simp [limit_of_unlimited hq hu] at hn
        · refine h.setPc hi (.countVms q demand l) htgt (fun hh => .inl hh) ?_
          intro hp
          obtain rfl : q = p := some.inj hp
          refine ⟨hinv rfl, ?_⟩
          intro d n hn
          exact ⟨n, by simpa [limit, hq] using hn, Int.le_refl n⟩
    | countVms q demand l =>
      cases hst
      split
      · refine h.setPc hi (.countVolumes q demand l (vmUsage s q)) htgt (fun hh => .inl hh) ?_
        intro hp
        obtain rfl : q = p := some.inj hp
        exact ⟨(hinv rfl).1, (hinv rfl).2, rfl, fun d => Int.le_refl _⟩
      · exact h.finish hi
    | countVolumes q demand l vms =>
      simp only [stmt] at hst
      split at hst
      · split at hst
        · next hc =>
          cases hst
          refine h.setPc hi (.write q demand) htgt (fun hh => .inl hh) ?_
          intro hp
          obtain rfl : q = p := some.inj hp
          obtain ⟨hd, hl, hvol, hvms⟩ := hinv rfl
          have hfit : fits s q demand vms := by simpa [steady, hi] using hok
          exact ⟨hd, admitted_of_check hl hvol hvms hfit hc⟩
        · cases hst
          exact h.finish hi
      · cases hst
        exact h.finish hi
    | write q demand =>
      cases hst
      exact h.setPc hi (.commit q demand (hits s req)) htgt (fun hh => .inl hh) hinv
    | commit q demand hit =>
      cases hst
      by_cases hqp : q = p
      · subst hqp
        exact inv_commit h hi
      obtain ⟨ht, hk, htx, hq⟩ := apply_tables h.tables q hit req
      obtain ⟨hv, hw⟩ := apply_other (p := p) hqp hit (htgt q rfl)
      have h1 : Inv p (apply s q hit req) := h.shrink htx ht hk (shrinks_of_same_rows hv hw hq)
      have hi1 : (apply s q hit req).txs[i]? = some ⟨req, .commit q demand hit⟩ := by
        rwa [htx]
      have h2 := h1.finish hi1
      rwa [htx] at h2
    | finished => cases hst

theorem inv_begin (h : Inv p s) (r : Request) : Inv p { s with txs := s.txs ++ [⟨r, .start⟩] } := by
  have hget : ∀ (j : Nat) (t : Tx), (s.txs ++ [⟨r, .start⟩])[j]? = some t →
      t.pc.holds p → s.txs[j]? = some t := by
    intro j t hj ht
    by_cases hlt : j < s.txs.length
    · rwa [List.getElem?_append_left hlt] at hj
    have hmem : t ∈ [(⟨r, .start⟩ : Tx)] := by
      rw [List.getElem?_append_right (by omega)] at hj
      exact mem_of_getElem? hj
    obtain rfl := mem_singleton.mp hmem
    cases ht
  refine ⟨⟨h.tables.vmIds, h.tables.volumeIds, h.tables.vmLt, h.tables.volumeLt⟩, ?_, ?_, ?_⟩
  · intro tx htx q hq
    rcases mem_append.mp htx with htx | htx
    · exact h.targets tx htx q hq
    · obtain rfl := mem_singleton.mp htx
      cases hq
  · intro j k t t' hj hk ht ht'
    exact h.oneHolder j k t t' (hget j t hj ht) (hget k t' hk ht') ht ht'
  · intro tx htx hp
    rcases mem_append.mp htx with htx | htx
    · exact h.tx tx htx hp
    · obtain rfl := mem_singleton.mp htx
      cases hp

theorem inv_step (h : Inv p s) (hok : steady p s e) (hs : step s e = some s') : Inv p s' := by
  rcases trims_step hok hs with ⟨r, rfl⟩ | ⟨i, rfl⟩ | ⟨i, rfl⟩ | ht
  · cases hs
    exact inv_begin h r
  · exact inv_exec h hok hs
  · simp only [step] at hs
    split at hs
    · cases hs
    · next tx hi =>
      cases hs
      exact h.finish hi
  · exact ht.inv h

theorem stmt_tables {s1 : State} (hs : stmt s tx = some (s1, pc)) :
    s1 = s ∨ ∃ q demand hit, tx.pc = .commit q demand hit ∧ s1 = apply s q hit tx.request := by
  have hsame : ∀ pc', some (s, pc') = some (s1, pc) → s1 = s := by
    rintro pc' ⟨⟩
    rfl
  unfold stmt at hs
  split at hs
  · exact .inl (hsame _ hs)
  · split at hs
    · cases hs
    · exact .inl (hsame _ hs)
  · split at hs <;> exact .inl (hsame _ hs)
  · exact .inl (hsame _ hs)
  · split at hs
    · split at hs <;> exact .inl (hsame _ hs)
    · exact .inl (hsame _ hs)
  · exact .inl (hsame _ hs)
  · next q demand hit hpc =>
    exact .inr ⟨q, demand, hit, hpc, (Prod.mk.inj (some.inj hs)).1.symm⟩
  · cases hs

/-- **Refinement.**  Every step under the condition is, for project `p` and each dimension, a
step of the metered account. -/
theorem account_step (h : Inv p s) (hok : steady p s e) (hs : step s e = some s')
    (d : Dimension) : (account s p d).Step (account s' p d) := by
  have hstay : (account s p d).Step (account s p d) := .release (Int.le_refl _) (.refl _)
  rcases trims_step hok hs with ⟨r, rfl⟩ | ⟨i, rfl⟩ | ⟨i, rfl⟩ | ht
  · cases hs
    exact hstay
  · simp only [step] at hs
    split at hs
    · cases hs
    · next tx hi =>
      obtain ⟨⟨s1, pc'⟩, hst, rfl⟩ := map_eq_some_iff.mp hs
      show (account s p d).Step (account s1 p d)
      have hin : tx ∈ s.txs := mem_of_getElem? hi
      rcases stmt_tables hst with rfl | ⟨q, demand, hit, hpc, rfl⟩
      · exact hstay
      have htgt : Targets s q tx.request := h.targets tx hin q (by rw [hpc]; rfl)
      by_cases hqp : q = p
      · subst hqp
        have hinv := h.tx tx hin (by rw [hpc]; rfl)
        rw [hpc] at hinv
        exact apply_step h.tables hit htgt hinv.1 hinv.2 d
      · obtain ⟨hv, hw⟩ := apply_other hqp hit htgt
        exact (shrinks_of_same_rows hv hw (apply_tables h.tables q hit tx.request).2.2.2).step d
  · simp only [step] at hs
    split at hs
    · cases hs
    · cases hs
      exact hstay
  · exact ht.shrinks.step d

theorem inv_init (h : Init p s) : Inv p s := by
  have hno : ∀ tx, tx ∉ s.txs := by
    intro tx htx
    simp [h.idle] at htx
  refine ⟨h.tables, fun tx htx => absurd htx (hno tx), ?_, fun tx htx => absurd htx (hno tx)⟩
  intro i j tx tx' hi
  exact absurd (mem_of_getElem? hi) (hno tx)

def SteadyReach (p : ProjectId) : State → Prop :=
  Reach step (fun s e => steady p s e = true) (Init p)

theorem SteadyReach.inv (h : SteadyReach p s) : Inv p s ∧ ∀ d, (account s p d).Within := by
  have hinit : ∀ s, Init p s → Inv p s ∧ ∀ d, (account s p d).Within :=
    fun s h => ⟨inv_init h, h.within⟩
  refine Reach.invariant hinit ?_ h
  intro s s' e hi hok hs
  exact ⟨inv_step hi.1 hok hs, fun d => (account_step hi.1 hok hs d).within (hi.2 d)⟩

/-! ## Quotas -/

/-- **A quota is never exceeded.**  In every run whose steps meet the condition, started within
the limits of project `p`, what `p` uses and what `usage_in` reports of it stay within each limit
its quota sets. -/
theorem usage_within_limits {p : ProjectId} {s : State} (hr : SteadyReach p s) {l : Limits}
    (hq : s.quotas p = some l) {d : Dimension} {n : Int} (hl : l.get d = some n) :
    usage s p d ≤ n ∧ ∀ u, usageIn s p = some u → u.get d ≤ n := by
  have hlim : limit s p d = some n := by
    rwa [limit, hq]
  have hle : usage s p d ≤ n := hr.inv.2 d n hlim
  exact ⟨hle, fun u hu => Int.le_trans (usageIn_le hu d) hle⟩

def plainSpec (n : Fin 513) : VmSpec :=
  ⟨n.val, 1024, none, [], Nat.le_of_lt_succ n.isLt, by decide, by decide, by simp⟩

def eightVcpus : Limits := ⟨none, some 8, none, none, none⟩

/-- Project 0 has VM 0 with 6 vCPUs and VM 1 with 2, which is all it may have. -/
def start : State where
  vms := [⟨0, 0, plainSpec 6⟩, ⟨1, 0, plainSpec 2⟩]
  volumes := []
  quotas := fun p => if p = 0 then some eightVcpus else none
  txs := []
  nextId := 2

theorem start_init : Init 0 start := by
  refine ⟨⟨by decide, by decide, by decide, by decide⟩, rfl, ?_⟩
  intro d n hn
  cases d with
  | vcpus =>
    obtain rfl : 8 = n := some.inj hn
    decide
  | vms | memoryMib | volumes | storageBytes => cases hn

/-- The remaining statements of transaction `i`, from the lock to the commit. -/
def finish (i : Nat) : List Event := List.replicate 6 (.exec i)

/-- VM 0 shrinks to 2 vCPUs, and a new VM takes the 4 it gave back. -/
theorem usage_within_limits_shrunk : usage (final step start
      ([.begin (.writeSpec 0 (plainSpec 2)), .exec 0] ++ finish 0 ++
        [.begin (.insertVmWithId (plainSpec 4) 0), .exec 1] ++ finish 1)) 0 .vcpus ≤ 8 := by
  have hr : SteadyReach 0 (final step start
      ([.begin (.writeSpec 0 (plainSpec 2)), .exec 0] ++ finish 0 ++
        [.begin (.insertVmWithId (plainSpec 4) 0), .exec 1] ++ finish 1)) :=
    Reach.final (fun _ _ h => h) start_init (by decide) (by decide)
  exact (usage_within_limits hr (l := eightVcpus) (by decide) (d := .vcpus) rfl).1

/-- **A stale update exceeds the quota.**  A write that leaves VM 0 at 6 vCPUs reads it, VM 0
shrinks to 2, a new VM takes the freed 4, and the write is admitted with a demand of 0: 12 vCPUs of
8. -/
theorem stale_update_exceeds :
    ∃ s, Reach step anyStep (Init 0) s ∧ s.quotas 0 = some eightVcpus ∧ usage s 0 .vcpus = 12 := by
  refine ⟨final step start
    ([.begin (.writeSpec 0 (plainSpec 6)), .exec 0] ++
      [.begin (.writeSpec 0 (plainSpec 2)), .exec 1] ++ finish 1 ++
      [.begin (.insertVmWithId (plainSpec 4) 0), .exec 2] ++ finish 2 ++ finish 0), ?_, ?_, ?_⟩
  · exact Reach.final_anyStep start_init (by decide)
  · decide
  · decide

end VQuasar.Quota
