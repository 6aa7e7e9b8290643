import VQuasar.Lifecycle.Exclusion
import VQuasar.Lifecycle.Settled

/-!
# Disks that only one host has

A disk on local storage pins its VM to the host that has the file (`pinned_host`).  The scheduler asks
for the pin of the first disk that has one; `migrate` and `drain` refuse a VM with a disk in a local
pool; `attach` asks neither where the VM is nor where it is going (`attached_elsewhere`).

`local_disks_stay`: a VM is placed on, and migrated to, no host but the one its disks are on, provided
that every spec that is written fits the hosts in play.
-/

namespace VQuasar.Lifecycle

open Runs List

/-! ## Scheduling -/

/-- A disk of a spec: its pool, and the one host that has it. -/
structure Disk where
  pool : Option Nat
  pinnedHost : Option HostId
deriving DecidableEq, Repr

/-- What scheduling reads of a spec; `requested` is `placement.host`. -/
structure Storage where
  disks : List Disk
  requested : Option HostId
deriving DecidableEq, Repr

variable (isLocal : Nat → Bool) (t : Tracked Storage) (st : Storage)

namespace Storage

def pinnedHost : Option HostId := st.disks.findSome? Disk.pinnedHost

/-- `required_host`; `none` stands for a conflict with the placement. -/
def requiredHost : Option (Option HostId) :=
  match st.pinnedHost, st.requested with
  | some p, some r => if p ≠ r then none else some (some p)
  | some p, none => some (some p)
  | none, r => some r

/-- Whether `schedule` may choose the host, as far as `required_host` goes. -/
def allows (h : HostId) : Bool :=
  match st.requiredHost with
  | some required => required.all (· == h)
  | none => false

/-- The checks that `migrate` and `drain` make of the spec. -/
def migratable (target : HostId) : Bool :=
  st.requested.all (· == target) && st.disks.all fun d => !d.pool.any isLocal

def attach (pool : Option Nat) (host : Option HostId) : Storage :=
  { st with disks := st.disks ++ [⟨pool, host⟩] }

def pins : List HostId := st.disks.filterMap Disk.pinnedHost

end Storage

/-- What the scheduler and the two requests ask of the spec that they have read. -/
def asks : Move Storage → Bool
  | .event (.scheduled h) => t.held.rest.allows h
  | .event (.migrateRead target) => t.rest.migratable isLocal target
  | _ => true

def storageStep (mv : Move Storage) : Option (Tracked Storage) :=
  if asks isLocal t mv then trackedStep t mv else none

/-! ## The condition -/

/-- Where a pass chooses a host, and the one it has chosen. -/
def Pc.chooses : Pc → Option (Option HostId)
  | .schedule _ => some none
  | .assign _ h => some (some h)
  | _ => none

/-- The hosts that the VM is on or may be sent to. -/
def State.inPlay (s : State) : List HostId :=
  (s.row.bind VmRow.hostId).toList ++
    (s.migrations.filter fun m => m.state.active).map Migration.targetHost ++
      s.requests.map MigrateRequest.target ++ s.pc.chooses.join.toList

/-- A disk that is pinned is in a local pool, and no two are pinned to different hosts. -/
def Storage.coherent : Prop :=
  (∀ d ∈ st.disks, d.pinnedHost.isSome → d.pool.any isLocal) ∧ ∀ p ∈ st.pins, ∀ q ∈ st.pins, p = q

/-- The disks are on every host in play, and a pass that chooses one knows of them. -/
def Fits : Prop :=
  st.coherent isLocal ∧ (∀ p ∈ st.pins, ∀ h ∈ t.base.inPlay, p = h) ∧
    (t.base.pc.chooses = some none → ∀ p ∈ st.pins, t.held.rest.pinnedHost = some p)

instance (isLocal : Nat → Bool) (t : Tracked Storage) (st : Storage) :
    Decidable (Fits isLocal t st) :=
  inferInstanceAs (Decidable ((_ ∧ _) ∧ _ ∧ _))

/-- Every spec that is written fits. -/
def fitting : Move Storage → Bool
  | .edit _ st => decide (Fits isLocal t st)
  | _ => true

def StorageInit : Prop :=
  TrackedInit t ∧ t.rest.coherent isLocal

/-! ## The hosts in play -/

section

variable {s s' : State} {e : Event} {h : HostId}

theorem mem_inPlay : h ∈ s.inPlay ↔ (∃ r, s.row = some r ∧ r.hostId = some h) ∨
    (∃ m ∈ s.migrations, m.state.active ∧ m.targetHost = h) ∨
      (∃ q ∈ s.requests, q.target = h) ∨ s.pc.chooses = some (some h) := by
  simp only [State.inPlay, mem_append, Option.mem_toList, Option.bind_eq_some_iff, mem_map,
    mem_filter, or_assoc, and_assoc, Option.join_eq_some_iff]

theorem inPlay_updateRow {f : VmRow → VmRow} (hh : h ∈ (s.updateRow f).inPlay)
    (hf : ∀ r, (f r).hostId = r.hostId) : h ∈ s.inPlay := by
  rw [mem_inPlay] at hh ⊢
  refine hh.imp_left ?_
  rintro ⟨r', hr', hhost⟩
  obtain ⟨r, hr, rfl⟩ := Option.map_eq_some_iff.mp hr'
  exact ⟨r, hr, hf r ▸ hhost⟩

theorem step_chooses {c : Option HostId} (hs : step s e = some s') (hc : s'.pc.chooses = some c) :
    (s.pc.chooses = some c ∧ e ≠ .beginReconcile) ∨ (e = .beginReconcile ∧ s.row ≠ none ∧ c = none) ∨
      ∃ h, e = .scheduled h ∧ s.pc.chooses = some none ∧ c = some h := by
  cases step_kind hs with
  | db he hdb =>
    have hgoes := dbStep_goes hdb
    generalize s.pc = pc, s'.pc = pc' at hgoes hc
    cases hgoes with
    | advanced m => rcases advanceMigration_cases s m with h | h | h | h <;> rw [h] at hc <;> cases hc
    | ends _ _ h => rcases h with rfl | rfl | rfl | rfl <;> cases hc
    | _ => cases hc
  | call c he hcall =>
    have hgoes := (callStep_effect hcall).goes
    generalize s.pc = pc, s'.pc = pc' at hgoes hc
    cases hgoes with
    | failed _ _ hpc => rcases hpc with rfl | rfl <;> cases hc
    | _ => cases hc
  | crash he hs' =>
    subst hs'
    cases hc
  | exits x v he hs' | host x st he hs' =>
    subst he hs'
    exact .inl ⟨hc, nofun⟩
  | api hapi =>
    refine .inl ⟨(apiStep_effect hapi).pc ▸ hc, ?_⟩
    rintro rfl
    cases hapi
  | begins hbeg =>
    obtain ⟨pc, rfl, hgoes⟩ := beginStep_effect hbeg
    replace hc : pc.chooses = some c := hc
    generalize s.pc = pc₀ at hgoes
    cases hgoes with
    | schedules hr => exact .inr (.inl ⟨rfl, hr ▸ nofun, (Option.some.inj hc).symm⟩)
    | scheduled => exact .inr (.inr ⟨_, rfl, rfl, (Option.some.inj hc).symm⟩)
    | deletes _ _ _ hpc => rcases hpc with rfl | ⟨x, -, rfl⟩ <;> cases hc
    | defers _ _ _ _ hpc => rcases hpc with rfl | rfl <;> cases hc
    | _ => cases hc

theorem inPlay_step (hi : InHand s) (hs : step s e = some s') (hh : h ∈ s'.inPlay) :
    h ∈ s.inPlay ∨ (e = .scheduled h ∧ s.pc.chooses = some none) ∨ e = .migrateRead h := by
  rw [mem_inPlay] at hh ⊢
  rcases hh with ⟨r', hr', hhost⟩ | ⟨m, hm, hact, rfl⟩ | ⟨q, hq, rfl⟩ | hpc
  · left
    rcases step_writes hs hr' with ⟨-, d, -, rfl⟩ | ⟨r, hr, hw⟩
    · cases hhost
    cases hw with
    | same _ _ _ hsame => exact .inl ⟨r, hr, hsame ▸ hhost⟩
    | power | observed => exact .inl ⟨r, hr, hhost⟩
    | assigned hpc => exact .inr (.inr (.inr (by rw [hpc]; exact congrArg some hhost)))
    | @moved _ m hpc =>
      obtain ⟨hm, hact⟩ := hi.hand m (congrArg Pc.migration hpc)
      exact .inr (.inl ⟨m, hm, hact, Option.some.inj hhost⟩)
  · left
    rcases target_of_step hi hs hm with ⟨y, hy, htarget, hold⟩ | hq
    · exact .inr (.inl ⟨y, hy, hold hact, htarget⟩)
    · exact .inr (.inr (.inl hq))
  · rcases request_of_step hs hq with ⟨p, hp, -, htarget⟩ | ⟨he, -⟩
    · exact .inl (.inr (.inr (.inl ⟨p, hp, htarget⟩)))
    · exact .inr (.inr he)
  · rcases step_chooses hs hpc with ⟨hpc, -⟩ | ⟨-, -, hno⟩ | ⟨x, he, hpc, hx⟩
    · exact .inl (.inr (.inr (.inr hpc)))
    · cases hno
    · cases hx
      exact .inr (.inl ⟨he, hpc⟩)

end

/-! ## Every run -/

section

variable {isLocal : Nat → Bool} {t t' : Tracked Storage} {st : Storage} {p h : HostId}

theorem Storage.pinnedHost_of_mem (hst : st.coherent isLocal) (hp : p ∈ st.pins) :
    st.pinnedHost = some p := by
  cases hq : st.pinnedHost with
  | none =>
    obtain ⟨d, hd, hpin⟩ := mem_filterMap.mp hp
    cases (List.findSome?_eq_none_iff.mp hq d hd).symm.trans hpin
  | some q =>
    obtain ⟨d, hd, hpin⟩ := exists_of_findSome?_eq_some hq
    rw [hst.2 q (mem_filterMap.mpr ⟨d, hd, hpin⟩) p hp]

theorem Storage.eq_of_allows (hp : st.pinnedHost = some p) (hok : st.allows h) : p = h := by
  cases hr : st.requested with
  | none => simpa [Storage.allows, Storage.requiredHost, hp, hr] using hok
  | some r =>
  by_cases hpr : p = r
  · subst hpr
    simpa [Storage.allows, Storage.requiredHost, hp, hr] using hok
  · simp [Storage.allows, Storage.requiredHost, hp, hr, hpr] at hok

theorem Storage.not_migratable (hst : st.coherent isLocal) (hp : p ∈ st.pins) :
    st.migratable isLocal h = false := by
  obtain ⟨d, hd, hpin⟩ := mem_filterMap.mp hp
  have hpool := hst.1 d hd (by rw [hpin]; rfl)
  exact Bool.and_eq_false_iff.mpr (.inr (all_eq_false.mpr ⟨d, hd, by simp [hpool]⟩))

structure Kept (isLocal : Nat → Bool) (t : Tracked Storage) : Prop where
  hand : InHand t.base
  fits : Fits isLocal t t.rest

theorem Kept.event {e : Event} {s' : State} (hk : Kept isLocal t)
    (hask : asks isLocal t (.event e)) (hs : step t.base e = some s') :
    Kept isLocal (t.after e s') := by
  obtain ⟨hst, hplay, hheld⟩ := hk.fits
  refine ⟨hk.hand.step hs, hst, fun p hp h hh => ?_, fun hc p hp => ?_⟩
  · rcases inPlay_step hk.hand hs hh with hh | ⟨rfl, hc⟩ | rfl
    · exact hplay p hp h hh
    · exact Storage.eq_of_allows (hheld hc p hp) hask
    · cases (Storage.not_migratable hst hp).symm.trans hask
  · rcases step_chooses hs hc with ⟨hc, he⟩ | ⟨rfl, hrow, -⟩ | ⟨x, -, -, hx⟩
    · have hread : t.read e = none := by
        cases hpc : t.base.pc with
        | schedule vm => exact Tracked.read_none (congrArg Pc.vm? hpc) he
        | _ => rw [hpc] at hc; cases hc
      rw [Tracked.after_held hread]
      exact hheld hc p hp
    · -- the pass has read the spec as it is
      obtain ⟨r, hr⟩ := Option.ne_none_iff_exists'.mp hrow
      have hrest : (t.after .beginReconcile s').held.rest = t.rest := by
        simp [Tracked.after, Tracked.read, Tracked.current, hr]
      rw [hrest]
      exact Storage.pinnedHost_of_mem hst hp
    · cases hx

theorem Kept.step {mv : Move Storage} (hk : Kept isLocal t) (hok : fitting isLocal t mv)
    (hs : storageStep isLocal t mv = some t') : Kept isLocal t' := by
  obtain ⟨hask, hs⟩ := Option.ite_none_right_eq_some.mp hs
  cases mv with
  | event e =>
    obtain ⟨s', hs', rfl⟩ := Option.map_eq_some_iff.mp hs
    exact hk.event hask hs'
  | edit desired st =>
    cases hs
    obtain ⟨hst, hplay, hheld⟩ := of_decide_eq_true hok
    exact ⟨⟨hk.hand.ids, hk.hand.hand⟩, hst,
      fun p hp h hh => hplay p hp h (inPlay_updateRow hh fun _ => rfl), hheld⟩
  | touch =>
    cases hs
    obtain ⟨hst, hplay, hheld⟩ := hk.fits
    exact ⟨⟨hk.hand.ids, hk.hand.hand⟩, hst,
      fun p hp h hh => hplay p hp h (inPlay_updateRow hh fun _ => rfl), hheld⟩

theorem kept_init (h : StorageInit isLocal t) : Kept isLocal t := by
  obtain ⟨⟨⟨hrow, -, hmig, hpc, -, hreq, -⟩, -⟩, hst⟩ := h
  refine ⟨⟨?_, ?_⟩, hst, ?_, ?_⟩
  · rw [hmig]
    nofun
  · rw [hpc]
    nofun
  · simp [State.inPlay, hrow, hmig, hpc, hreq, Pc.chooses]
  · rw [hpc]
    nofun

end

/-- **Local disks stay with their host.**  In every run in which every spec that is written fits the
hosts in play, the host of the VM and the target of each active migration have its pinned disks. -/
theorem local_disks_stay {isLocal : Nat → Bool} {t : Tracked Storage}
    (hr : Reach (storageStep isLocal) (fun t mv => fitting isLocal t mv = true) (StorageInit isLocal) t)
    {d : Disk} (hd : d ∈ t.rest.disks) {p : HostId} (hp : d.pinnedHost = some p) :
    (∀ r, t.base.row = some r → ∀ h, r.hostId = some h → h = p) ∧
      ∀ m ∈ t.base.migrations, m.state.active = true → m.targetHost = p := by
  have hk : Kept isLocal t := Reach.invariant (fun _ => kept_init) (fun _ _ _ hk => hk.step) hr
  have hpin : p ∈ t.rest.pins := mem_filterMap.mpr ⟨d, hd, hp⟩
  refine ⟨fun r hrow h hh => ?_, fun m hm hact => ?_⟩
  · exact (hk.fits.2.1 p hpin h (mem_inPlay.mpr (.inl ⟨r, hrow, hh⟩))).symm
  · exact (hk.fits.2.1 p hpin _ (mem_inPlay.mpr (.inr (.inl ⟨m, hm, hact, rfl⟩)))).symm

/-! Pool 0 is local.  The VM runs on host 0 when a volume of that pool is attached. -/

def bare : Tracked Storage := ⟨start, ⟨[], none⟩, ⟨0, .running, ⟨[], none⟩⟩, false, fun _ => none⟩

def attachOn (h : HostId) : List (Move Storage) :=
  bootOnZero.map .event ++ [.edit .running (Storage.attach ⟨[], none⟩ (some 0) (some h))]

theorem stays_attached :
    (final (storageStep (· == 0)) bare (attachOn 0)).rest.disks = [⟨some 0, some 0⟩] ∧
      ∀ r, (final (storageStep (· == 0)) bare (attachOn 0)).base.row = some r → ∀ h,
        r.hostId = some h → h = 0 := by
  have hd : (final (storageStep (· == 0)) bare (attachOn 0)).rest.disks = [⟨some 0, some 0⟩] := by
    decide
  refine ⟨hd, (local_disks_stay (Reach.final (fun _ _ h => h) ⟨⟨start_init, rfl, fun _ => rfl⟩, ?_⟩
    (by decide) (by decide)) (hd ▸ mem_singleton_self _) rfl).1⟩
  exact ⟨nofun, nofun⟩

/-- **A VM on host 0 with a disk that only host 1 has.** -/
theorem attached_elsewhere : ∃ t, Reach (storageStep (· == 0)) anyStep (StorageInit (· == 0)) t ∧
      t.rest.disks = [⟨some 0, some 1⟩] ∧ t.base.row.bind VmRow.hostId = some 0 := by
  refine ⟨final (storageStep (· == 0)) bare (attachOn 1), ?_, by decide, by decide⟩
  exact Reach.final_anyStep ⟨⟨start_init, rfl, fun _ => rfl⟩, nofun, nofun⟩ (by decide)

end VQuasar.Lifecycle
