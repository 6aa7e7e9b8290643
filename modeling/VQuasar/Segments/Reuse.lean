import VQuasar.Dataplane.Backend
import VQuasar.Segments.Concurrency

/-!
# When a VNI is used again

A VNI that a network gives back is held in quarantine, since a host may still have its bridge.
`sweep_quarantine` drops the row once the time is over and no host's last report has the VNI; the next
allocation may then hand it out.

The reports are what is recorded of the hosts, and the hosts may have gone on: an agent that cannot
list its bridges reports none (`overlayVnis`), a bridge may be younger than the report, and a call
that was prepared before the network was deleted makes the bridge when it arrives.  `reuse_safe`: as
long as every sweep finds the hosts' bridges in their last reports and no such call under way, no
host has the bridge of a VNI that is allocated.

Hosts that are down are hosts whose reports and calls do not come.  A request that ends between two
transactions is one that takes no further step.
-/

namespace VQuasar.Segments

open Runs Table Dataplane List Option Function

/-! ## Names of bridges -/

/-- `parse::<u32>()` -/
def parseU32 (text : List Char) : Option Nat :=
  let digits := if text.head? = some '+' then text.tail else text
  if digits ≠ [] ∧ digits.all Char.isDigit ∧ Nat.ofDigitChars 10 digits 0 < 2 ^ 32 then
    some (Nat.ofDigitChars 10 digits 0)
  else none

def vniOfBridge (name : String) : Option Nat :=
  if "vxbr".toList.isPrefixOf name.toList then parseU32 (name.toList.drop 4) else none

/-- `overlay_vnis`, given what `ovs-vsctl list-br` answers -/
def overlayVnis : Option (List String) → List Nat
  | some bridges => bridges.filterMap vniOfBridge
  | none => []

theorem parseU32_toDigits {n : Nat} (h : n < 2 ^ 32) : parseU32 (Nat.toDigits 10 n) = some n := by
  have hdigits : ∀ c ∈ Nat.toDigits 10 n, c.isDigit :=
    fun c hc => Nat.isDigit_of_mem_toDigits (by decide) (by decide) hc
  have hsign : (Nat.toDigits 10 n).head? ≠ some '+' := by
    intro hc
    have := hdigits '+' (mem_of_mem_head? hc)
    revert this
    decide
  unfold parseU32
  rw [if_neg hsign]
  simp only [Nat.ofDigitChars_ten_toDigits]
  exact if_pos ⟨Nat.toDigits_ne_nil, all_eq_true.mpr hdigits, h⟩

theorem overlayBridge_toList (v : Nat) :
    (overlayBridge v).toList = 'v' :: 'x' :: 'b' :: 'r' :: Nat.toDigits 10 v := by
  unfold overlayBridge
  rw [String.toList_append, Nat.toString_eq_ofList_toDigits]
  simp only [String.toList_ofList]
  rfl

theorem vniOfBridge_overlayBridge {v : Nat} (h : v < 2 ^ 32) :
    vniOfBridge (overlayBridge v) = some v := by
  unfold vniOfBridge
  rw [overlayBridge_toList]
  exact (if_pos rfl).trans (parseU32_toDigits h)

theorem overlayBridge_inj {v w : Nat} (h : overlayBridge v = overlayBridge w) : v = w := by
  have htail := congrArg (fun name : String => name.toList.drop 4) h
  simp only [overlayBridge_toList, drop_succ_cons, drop_zero] at htail
  rw [← Nat.ofDigitChars_ten_toDigits (n := v), htail, Nat.ofDigitChars_ten_toDigits]

/-! ## The fleet -/

structure SegmentPolicy extends Range where
  quarantine : Nat

/-- A row of `network_segments` with kind `vxlan`. -/
structure Held where
  value : Nat
  state : RowState
  releasedAt : Option Nat
deriving DecidableEq, Repr

/-- Who has the VNI of a row: a request that is about to insert its network, the network, or a request
that has deleted the network and is about to release the segment. -/
inductive User
  | create | network | delete
deriving DecidableEq, Repr

/-- A host as it is recorded, and the bridges it has. -/
structure Host where
  overlayVnis : List Nat
  bridges : List String
deriving DecidableEq, Repr

variable {k : Nat}

structure Fleet (k : Nat) where
  now : Nat
  rows : List Held
  users : Nat → Option User
  hosts : Fin k → Host
  /-- calls to agents, with the VNI that was read for them -/
  calls : List (Fin k × Nat)
  /-- reports of agents that are not yet recorded -/
  reports : List (Fin k × List Nat)

inductive Move (k : Nat)
  | tick (seconds : Nat)
  -- the transactions of the requests for networks
  | allocate
  | insertNetwork (vni : Nat)
  | deleteNetwork (vni : Nat)
  | release (vni : Nat)
  -- a call for a VM on the network, and what it makes on the host
  | resolve (host : Fin k) (vni : Nat)
  | addBridge (host : Fin k) (vni : Nat)
  | callEnds (host : Fin k) (vni : Nat)
  | gcOverlay (host : Fin k) (vni : Nat)
  -- a heartbeat: the agent answers, and the answer is recorded
  | report (host : Fin k) (listed : Bool)
  | updateHostReady (host : Fin k) (vnis : List Nat)
  | sweep

/-- `allocate_vxlan`: the VNI that is handed out; a value that has a row makes the `INSERT` fail. -/
def allocateVxlan (p : SegmentPolicy) (rows : List Held) : Option Nat :=
  let next := lowestFree ((rows.filter fun r => r.state != .free).map Held.value) p.vniStart
  if next ≤ p.vniEnd ∧ next ∉ rows.map Held.value then some next else none

def Held.over (p : SegmentPolicy) (now : Nat) (r : Held) : Bool :=
  r.state == .quarantined && r.releasedAt.any fun t => t + p.quarantine < now

def sweepQuarantine (p : SegmentPolicy) (s : Fleet k) : List Held :=
  deleteWhere (fun r => r.over p s.now && decide (¬ ∃ h, r.value ∈ (s.hosts h).overlayVnis)) s.rows

def Fleet.setHost (s : Fleet k) (h : Fin k) (f : Host → Host) : Fleet k :=
  { s with hosts := update s.hosts h (f (s.hosts h)) }

def fleetStep (p : SegmentPolicy) (s : Fleet k) : Move k → Option (Fleet k)
  | .tick seconds => some { s with now := s.now + seconds }
  | .allocate =>
    (allocateVxlan p s.rows).map fun vni =>
      { s with
        rows := s.rows ++ [⟨vni, .allocated, none⟩]
        users := update s.users vni (some .create) }
  | .insertNetwork vni =>
    if s.users vni = some .create then
      some { s with users := update s.users vni (some .network) }
    else none
  | .deleteNetwork vni =>
    if s.users vni = some .network then
      some { s with users := update s.users vni (some .delete) }
    else none
  | .release vni =>
    if s.users vni = some .delete then
      some { s with
        rows := updateWhere (fun r => r.value == vni)
          (fun r => { r with state := .quarantined, releasedAt := some s.now }) s.rows
        users := update s.users vni none }
    else none
  | .resolve h vni =>
    if s.users vni = some .network then some { s with calls := (h, vni) :: s.calls } else none
  | .addBridge h vni =>
    if (h, vni) ∈ s.calls then
      some (s.setHost h fun host => { host with bridges := host.bridges.insert (overlayBridge vni) })
    else none
  | .callEnds h vni =>
    if (h, vni) ∈ s.calls then some { s with calls := s.calls.erase (h, vni) } else none
  | .gcOverlay h vni =>
    some (s.setHost h fun host =>
      { host with bridges := host.bridges.filter (· != overlayBridge vni) })
  | .report h listed =>
    let answer := if listed then some (s.hosts h).bridges else none
    some { s with reports := (h, overlayVnis answer) :: s.reports }
  | .updateHostReady h vnis =>
    if (h, vnis) ∈ s.reports then
      some ({ s with reports := s.reports.erase (h, vnis) }.setHost h fun host =>
        { host with overlayVnis := vnis })
    else none
  | .sweep => some { s with rows := sweepQuarantine p s }

/-- A sweep comes when every host that has the bridge of a segment whose quarantine is over has it in
its last report, and no call for the segment is under way. -/
def reported (p : SegmentPolicy) (s : Fleet k) : Move k → Prop
  | .sweep => ∀ r ∈ s.rows, r.over p s.now = true →
      (∀ h, overlayBridge r.value ∈ (s.hosts h).bridges → r.value ∈ (s.hosts h).overlayVnis) ∧
      ∀ c ∈ s.calls, c.2 ≠ r.value
  | _ => True

/-! ## What holds of the fleet -/

def Fleet.Known (s : Fleet k) (v : Nat) : Prop := ∃ r ∈ s.rows, r.value = v

/-- Whatever is in use or may come into use has a row. -/
structure Accounted (s : Fleet k) : Prop where
  nodup : (s.rows.map Held.value).Nodup
  users : ∀ v, s.users v ≠ none → ∃ r ∈ s.rows, r.value = v ∧ r.state = .allocated
  bridges : ∀ h v, overlayBridge v ∈ (s.hosts h).bridges → s.Known v
  calls : ∀ c ∈ s.calls, s.Known c.2

section

variable {p : SegmentPolicy} {s s' : Fleet k} {e : Move k} {v : Nat} {h : Fin k}

theorem allocateVxlan_spec {rows : List Held} (h : allocateVxlan p rows = some v) :
    ∀ r ∈ rows, r.value ≠ v := by
  unfold allocateVxlan at h
  simp only [ite_none_right_eq_some, some.injEq] at h
  obtain ⟨⟨-, hnew⟩, rfl⟩ := h
  intro r hr hv
  exact hnew (hv ▸ mem_map_of_mem hr)

section

variable (ha : Accounted s)
include ha

/-- A step that changes neither the rows nor their users, and makes no bridge or call for a segment
without a row. -/
theorem Accounted.same (hrows : s'.rows = s.rows)
    (husers : ∀ v, s'.users v ≠ none → s.users v ≠ none)
    (hbridges : ∀ h v, overlayBridge v ∈ (s'.hosts h).bridges →
    overlayBridge v ∈ (s.hosts h).bridges ∨ s.Known v)
    (hcalls : ∀ c ∈ s'.calls, c ∈ s.calls ∨ s.Known c.2) : Accounted s' := by
  have hknown : ∀ v, s'.Known v ↔ s.Known v := by
    intro v
    unfold Fleet.Known
    rw [hrows]
  constructor
  · rw [hrows]
    exact ha.nodup
  · intro v hv
    rw [hrows]
    exact ha.users v (husers v hv)
  · intro h v hv
    rw [hknown]
    rcases hbridges h v hv with hold | hk
    · exact ha.bridges h v hold
    · exact hk
  · intro c hc
    rw [hknown]
    rcases hcalls c hc with hold | hk
    · exact ha.calls c hold
    · exact hk

theorem Accounted.allocate (hv : allocateVxlan p s.rows = some v) :
    Accounted { s with
      rows := s.rows ++ [⟨v, .allocated, none⟩]
      users := update s.users v (some .create) } := by
  have hnew := allocateVxlan_spec hv
  have hknown : ∀ {w}, s.Known w → ∃ r ∈ s.rows ++ [⟨v, .allocated, none⟩], r.value = w := by
    rintro w ⟨r, hr, hw⟩
    exact ⟨r, mem_append_left _ hr, hw⟩
  constructor
  · show ((s.rows ++ [_]).map Held.value).Nodup
    rw [map_append]
    refine ha.nodup.append (nodup_singleton _) ?_
    intro w hw hwv
    obtain ⟨r, hr, rfl⟩ := mem_map.mp hw
    exact hnew r hr (mem_singleton.mp hwv)
  · intro w hw
    by_cases hwv : w = v
    · subst hwv
      exact ⟨_, mem_append_right _ (mem_singleton_self _), rfl, rfl⟩
    · simp only [update_of_ne hwv] at hw
      obtain ⟨r, hr, hval, hst⟩ := ha.users w hw
      exact ⟨r, mem_append_left _ hr, hval, hst⟩
  · exact fun h w hw => hknown (ha.bridges h w hw)
  · exact fun c hc => hknown (ha.calls c hc)

theorem Accounted.release (v : Nat) : Accounted { s with
      rows := updateWhere (fun r => r.value == v)
        (fun r => { r with state := .quarantined, releasedAt := some s.now }) s.rows
      users := update s.users v none } := by
  have hvalues : (updateWhere (fun r => r.value == v)
      (fun r => { r with state := .quarantined, releasedAt := some s.now }) s.rows).map Held.value =
      s.rows.map Held.value := map_updateWhere fun _ => rfl
  have hknown : ∀ {w}, s.Known w → ∃ r ∈ updateWhere (fun r => r.value == v)
      (fun r => { r with state := .quarantined, releasedAt := some s.now }) s.rows, r.value = w := by
    rintro w ⟨r, hr, hw⟩
    refine ⟨_, mem_updateWhere.mpr ⟨r, hr, rfl⟩, ?_⟩
    split <;> exact hw
  constructor
  · exact hvalues ▸ ha.nodup
  · intro w hw
    have hwv : w ≠ v := by
      rintro rfl
      exact hw (update_self ..)
    simp only [update_of_ne hwv] at hw
    obtain ⟨r, hr, hval, hst⟩ := ha.users w hw
    refine ⟨r, mem_updateWhere.mpr ⟨r, hr, if_neg ?_⟩, hval, hst⟩
    simpa [hval] using hwv
  · exact fun h w hw => hknown (ha.bridges h w hw)
  · exact fun c hc => hknown (ha.calls c hc)

/-- A sweep that meets the condition drops no segment that may still be carried. -/
theorem Accounted.sweep (hok : reported p s .sweep) :
    Accounted { s with rows := sweepQuarantine p s } := by
  -- a row stays unless its quarantine is over and no report has it
  have hkept : ∀ r ∈ s.rows, (r.over p s.now → ∃ h, r.value ∈ (s.hosts h).overlayVnis) →
      r ∈ sweepQuarantine p s := by
    intro r hr h
    refine mem_deleteWhere.mpr ⟨hr, ?_⟩
    by_cases ho : r.over p s.now
    · simp [h ho]
    · simp [ho]
  constructor
  · exact ha.nodup.sublist ((deleteWhere_sublist _ _).map _)
  · intro v hv
    obtain ⟨r, hr, hval, hst⟩ := ha.users v hv
    refine ⟨r, hkept r hr ?_, hval, hst⟩
    intro ho
    simp [Held.over, hst] at ho
  · intro h v hv
    obtain ⟨r, hr, rfl⟩ := ha.bridges h v hv
    exact ⟨r, hkept r hr fun ho => ⟨h, (hok r hr ho).1 h hv⟩, rfl⟩
  · intro c hc
    obtain ⟨r, hr, hval⟩ := ha.calls c hc
    exact ⟨r, hkept r hr fun ho => absurd hval.symm ((hok r hr ho).2 c hc), hval⟩

end

theorem setHost_bridges {h' : Fin k} {f : Host → Host} {b : String}
    (hb : b ∈ ((s.setHost h f).hosts h').bridges) :
    b ∈ (s.hosts h').bridges ∨ h' = h ∧ b ∈ (f (s.hosts h)).bridges := by
  by_cases hh : h' = h
  · subst hh
    exact .inr ⟨rfl, by simpa [Fleet.setHost] using hb⟩
  · exact .inl (by simpa [Fleet.setHost, hh] using hb)

/-- Right after a heartbeat that went well, the report has every bridge of the host. -/
theorem heartbeat_reported (hv : v < 2 ^ 32) (hrun : exec (fleetStep p) s
    [.report h true, .updateHostReady h (overlayVnis (some (s.hosts h).bridges))] = some s')
    (hb : overlayBridge v ∈ (s'.hosts h).bridges) : v ∈ (s'.hosts h).overlayVnis := by
  have hs' : s' = s.setHost h fun host =>
      { host with overlayVnis := overlayVnis (some (s.hosts h).bridges) } := by
    simpa [exec, fleetStep, eq_comm] using hrun
  subst hs'
  simp only [Fleet.setHost, update_self] at hb ⊢
  exact mem_filterMap.mpr ⟨_, hb, vniOfBridge_overlayBridge hv⟩

theorem accounted_step (ha : Accounted s) (hok : reported p s e) (h : fleetStep p s e = some s') :
    Accounted s' := by
  have hsame : ∀ u : Nat → Option User, (∀ v, u v ≠ none → s.users v ≠ none) →
      Accounted { s with users := u } := fun u hu =>
    ha.same rfl hu (fun _ _ hv => .inl hv) (fun _ hc => .inl hc)
  -- the next user of a segment that has one
  have huser : ∀ v x, s.users v ≠ none → ∀ w, update s.users v x w ≠ none →
      s.users w ≠ none := by
    intro v x hv w hw
    by_cases hwv : w = v
    · exact hwv ▸ hv
    · rwa [update_of_ne hwv] at hw
  cases e with
  | tick seconds =>
    cases h
    exact ha.same rfl (fun _ hv => hv) (fun _ _ hv => .inl hv) fun _ hc => .inl hc
  | allocate =>
    obtain ⟨v, hv, rfl⟩ := map_eq_some_iff.mp h
    exact ha.allocate hv
  | insertNetwork v | deleteNetwork v =>
    simp only [fleetStep, ite_none_right_eq_some, some.injEq] at h
    obtain ⟨hv, rfl⟩ := h
    exact hsame _ (huser v _ (by simp [hv]))
  | release v =>
    simp only [fleetStep, ite_none_right_eq_some, some.injEq] at h
    obtain ⟨-, rfl⟩ := h
    exact ha.release v
  | resolve host v =>
    simp only [fleetStep, ite_none_right_eq_some, some.injEq] at h
    obtain ⟨hv, rfl⟩ := h
    refine ha.same rfl (fun _ hv => hv) (fun _ _ hv => .inl hv) ?_
    intro c hc
    rcases mem_cons.mp hc with rfl | hold
    · obtain ⟨r, hr, hval, -⟩ := ha.users v (by simp [hv])
      exact .inr ⟨r, hr, hval⟩
    · exact .inl hold
  | addBridge host v =>
    simp only [fleetStep, ite_none_right_eq_some, some.injEq] at h
    obtain ⟨hv, rfl⟩ := h
    refine ha.same rfl (fun _ hv => hv) ?_ fun _ hc => .inl hc
    intro h w hw
    rcases setHost_bridges hw with hold | ⟨rfl, hnew⟩
    · exact .inl hold
    · rcases mem_insert_iff.mp hnew with heq | hold
      · exact .inr (overlayBridge_inj heq ▸ ha.calls _ hv)
      · exact .inl hold
  | callEnds host v =>
    simp only [fleetStep, ite_none_right_eq_some, some.injEq] at h
    obtain ⟨-, rfl⟩ := h
    exact ha.same rfl (fun _ hv => hv) (fun _ _ hv => .inl hv) fun _ hc =>
      .inl (mem_of_mem_erase hc)
  | gcOverlay host v =>
    cases h
    refine ha.same rfl (fun _ hv => hv) ?_ fun _ hc => .inl hc
    intro h w hw
    rcases setHost_bridges hw with hold | ⟨rfl, hnew⟩
    · exact .inl hold
    · exact .inl (mem_of_mem_filter hnew)
  | report host listed =>
    cases h
    exact ha.same rfl (fun _ hv => hv) (fun _ _ hv => .inl hv) fun _ hc => .inl hc
  | updateHostReady host vnis =>
    simp only [fleetStep, ite_none_right_eq_some, some.injEq] at h
    obtain ⟨-, rfl⟩ := h
    refine ha.same rfl (fun _ hv => hv) ?_ fun _ hc => .inl hc
    intro h w hw
    rcases setHost_bridges hw with hold | ⟨rfl, hnew⟩
    · exact .inl hold
    · exact .inl hnew
  | sweep =>
    cases h
    exact ha.sweep hok

/-- **A VNI that is allocated is carried nowhere**, in every run whose sweeps all meet the
condition. -/
theorem reuse_safe (hr : Reach (fleetStep p) (reported p) Accounted s) {v : Nat}
    (hv : allocateVxlan p s.rows = some v) (h : Fin k) : overlayBridge v ∉ (s.hosts h).bridges := by
  have ha : Accounted s :=
    hr.invariant (fun _ hs => hs) fun _ _ _ hs hok hstep => accounted_step hs hok hstep
  intro hb
  obtain ⟨r, hr, hval⟩ := ha.bridges h v hb
  exact allocateVxlan_spec hv r hr hval

def reportedb (p : SegmentPolicy) (s : Fleet k) : Move k → Bool
  | .sweep => s.rows.all fun r => !r.over p s.now ||
      (decide (∀ h, overlayBridge r.value ∈ (s.hosts h).bridges →
        r.value ∈ (s.hosts h).overlayVnis) && s.calls.all fun c => c.2 != r.value)
  | _ => true

theorem reported_of_reportedb (h : reportedb p s e) : reported p s e := by
  cases e with
  | sweep =>
    intro r hr ho
    have hall := all_eq_true.mp h r hr
    rw [ho, Bool.not_true, Bool.false_or, Bool.and_eq_true] at hall
    refine ⟨of_decide_eq_true hall.1, fun c hc => ?_⟩
    simpa using all_eq_true.mp hall.2 c hc
  | _ => trivial

end

def newFleet : Fleet 1 := ⟨0, [], fun _ => none, fun _ => ⟨[], []⟩, [], []⟩

theorem newFleet_accounted : Accounted newFleet := by
  refine ⟨nodup_nil, ?_, ?_, ?_⟩
  · intro v hv
    exact absurd rfl hv
  · intro h v hv
    exact absurd hv not_mem_nil
  · intro c hc
    exact absurd hc not_mem_nil

def tenSeconds : SegmentPolicy := ⟨⟨1, 9⟩, 10⟩

/-- A network whose host has its bridge. -/
def carried : List (Move 1) :=
  [.allocate, .insertNetwork 1, .resolve 0 1, .addBridge 0 1, .callEnds 0 1]

/-- The host reports the bridge, and the segment is held until it is gone. -/
def handedBack : List (Move 1) :=
  carried ++ [.report 0 true, .updateHostReady 0 [1], .deleteNetwork 1, .release 1, .tick 11, .sweep,
    .gcOverlay 0 1, .sweep, .report 0 true, .updateHostReady 0 [], .sweep]

theorem reuse_safe_handedBack :
    allocateVxlan tenSeconds (final (fleetStep tenSeconds) newFleet handedBack).rows = some 1 ∧
      overlayBridge 1 ∉ ((final (fleetStep tenSeconds) newFleet handedBack).hosts 0).bridges := by
  have hv : allocateVxlan tenSeconds (final (fleetStep tenSeconds) newFleet handedBack).rows = some 1 := by
    decide
  exact ⟨hv, reuse_safe (Reach.final (fun _ _ => reported_of_reportedb) newFleet_accounted (by decide)
    (by decide)) hv 0⟩

/-- The host cannot list its bridges when it is asked. -/
def unlisted : List (Move 1) :=
  carried ++ [.report 0 false, .updateHostReady 0 [], .deleteNetwork 1, .release 1, .tick 11, .sweep]

/-- The call arrives after the network is gone. -/
def lateCall : List (Move 1) :=
  [.allocate, .insertNetwork 1, .report 0 true, .updateHostReady 0 [], .resolve 0 1, .deleteNetwork 1,
    .release 1, .tick 11, .addBridge 0 1, .sweep]

/-- **A VNI is allocated again while a host has its bridge**: the host's report is empty because it
failed, or because the bridge was not there yet. -/
theorem carried_vni_allocated :
    (allocateVxlan tenSeconds (final (fleetStep tenSeconds) newFleet unlisted).rows = some 1 ∧
      overlayBridge 1 ∈ ((final (fleetStep tenSeconds) newFleet unlisted).hosts 0).bridges) ∧
    allocateVxlan tenSeconds (final (fleetStep tenSeconds) newFleet lateCall).rows = some 1 ∧
      overlayBridge 1 ∈ ((final (fleetStep tenSeconds) newFleet lateCall).hosts 0).bridges := by
  decide

end VQuasar.Segments
