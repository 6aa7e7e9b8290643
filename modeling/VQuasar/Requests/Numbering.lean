import VQuasar.Requests.Edits

/-!
# The paths of a VM's disks

`create` numbers the disks it places, `add_disk` names a new one after the number of disks the VM has
at the time, and the file of an attached volume is named after the volume.  `detach` takes a disk out of
the list, so the next number may be one that was given before.

* `disk_paths_distinct`: no two disks of a VM have one path, provided that whenever a disk is added
  the numbers given so far are below the number of disks (`numbered`).
* `disk_number_reused`: a volume is attached, a disk added, the volume detached and a disk added.
-/

namespace VQuasar.Requests

open Tenancy Runs List Option Bool

/-- The number in the name that `add_disk` gave. -/
def addedNumber (path : HostPath) : Option Nat :=
  match path.fileName with
  | some (.vmAdded _ n _) => some n
  | _ => none

/-- A disk is added to a VM all of whose added disks have numbers below the number of its disks, and a
volume is attached while it is there. -/
def numbered (s : State) : Event → Bool
  | .call i =>
    match s.requests.get i with
    | some (.write w) =>
      match w.edit with
      | .update _ _ body => body.addDisk.isNone ||
        (diskPaths w.read).all fun p => (addedNumber p).all (· < w.read.disks.length)
      | .attach volume _ => (s.db.volumes.get volume).isSome
      | _ => true
    | _ => true
  | _ => true

/-- The VM has one disk, as one made from a template or a volume, or its disks are those that `create`
places for a request that gives no path. -/
def Created (vm : Id) (spec : VirtualMachineSpec) : Prop :=
  (∃ d, spec.disks = [d]) ∨ ∃ pool dir ds, spec.disks = placeDisks vm pool dir ds 0 ∧
    ∀ d ∈ ds, d.needsProvisioning = true ∧ d.path.isEmpty = true

/-- At the start no request is in flight, the attachments agree and the VM has been created. -/
def StartsCreated (cfg : Config) (vm : Id) (s : State) : Prop :=
  Start cfg s ∧ ∃ r, s.db.vms.get vm = some r ∧ Created vm r.spec

structure Distinct (cfg : Config) (vm : Id) (s : State) : Prop where
  inv : Inv cfg s
  known : vm < s.db.vms.next
  paths : ∀ r, s.db.vms.get vm = some r → (diskPaths r.spec).Nodup

section

variable {cfg : Config} {vm : Id} {s s' : State}

variable {dir : HostPath} {ds : List DiskSpec} {pool : Id} {e : Event}

section

variable (hds : ∀ d ∈ ds, d.needsProvisioning ∧ d.path.isEmpty) (i : Nat)
include hds i

theorem placeDisks_numbers :
    ∀ p ∈ (placeDisks vm pool dir ds i).map DiskSpec.path,
      ∃ j ext, i ≤ j ∧ p.fileName = some (.vmDisk vm j ext) := by
  induction ds generalizing i with
  | nil => exact fun p hp => absurd hp not_mem_nil
  | cons d ds ih =>
    obtain ⟨hneeds, hempty⟩ := hds d mem_cons_self
    intro p hp
    simp only [placeDisks, hneeds, hempty, Bool.and_self, if_true, map_cons] at hp
    rcases mem_cons.mp hp with rfl | hp
    · exact ⟨i, d.imageType, Nat.le_refl i, HostPath.fileName_join _ _⟩
    · obtain ⟨j, ext, hj, hname⟩ := ih (fun d hd => hds d (mem_cons_of_mem _ hd)) (i + 1) p hp
      exact ⟨j, ext, Nat.le_of_succ_le hj, hname⟩

theorem placeDisks_nodup : ((placeDisks vm pool dir ds i).map DiskSpec.path).Nodup := by
  induction ds generalizing i with
  | nil => exact nodup_nil
  | cons d ds ih =>
    obtain ⟨hneeds, hempty⟩ := hds d mem_cons_self
    have hrest := fun d hd => hds d (mem_cons_of_mem _ hd)
    simp only [placeDisks, hneeds, hempty, Bool.and_self, if_true, map_cons]
    refine nodup_cons.mpr ⟨fun hmem => ?_, ih hrest (i + 1)⟩
    obtain ⟨j, ext, hj, hname⟩ := placeDisks_numbers hrest (i + 1) _ hmem
    rw [HostPath.fileName_join] at hname
    cases hname
    exact Nat.not_succ_le_self i hj

end

theorem Created.nodup {spec : VirtualMachineSpec} (h : Created vm spec) : (diskPaths spec).Nodup := by
  rcases h with ⟨d, hone⟩ | ⟨pool, dir, ds, heq, hds⟩
  · rw [diskPaths, hone]
    exact nodup_singleton d.path
  · rw [diskPaths, heq]
    exact placeDisks_nodup hds 0

theorem Distinct.edited (h : Distinct cfg vm s) {i : Nat} {w : SpecWrite} {r : Vm}
    (hi : s.requests.get i = some (.write w)) (hok : orderly s (.call i))
    (hnum : numbered s (.call i)) (hr : s.db.vms.get vm = some r) (hread : r.spec = w.read) :
    (diskPaths w.spec).Nodup := by
  have hnodup : (diskPaths w.read).Nodup := hread ▸ h.paths r hr
  simp only [orderly, hi, all_some, Request.current, and_eq_true] at hok
  simp only [numbered, hi] at hnum
  cases hedit : w.edit with
  | power desired taskType => rwa [diskPaths, power_disks (hedit ▸ w.made)]
  | nic index body => rwa [diskPaths, nic_disks (hedit ▸ w.made)]
  | detach volume path =>
    rw [detach_paths (hedit ▸ w.made)]
    exact hnodup.filter _
  | attach volume disk =>
    -- the volume is attached to no VM, so its file is a disk of none
    simp only [hedit, and_eq_true] at hok hnum
    obtain ⟨v, hv⟩ := isSome_iff_exists.mp hnum
    obtain ⟨hmem, rfl⟩ := IdTable.get_eq_some.mp hv
    have hsound : w.Sound cfg s.db := h.inv.sound i _ hi
    simp only [SpecWrite.Sound, hedit] at hsound
    have hpath : s.db.fileOf cfg v = disk.path := (hsound.1 v hmem).mpr rfl
    rw [attach_paths (hedit ▸ w.made)]
    refine hnodup.append (nodup_singleton _) (disjoint_singleton.mpr fun hin => ?_)
    refine h.inv.not_holds hmem hok.2.1.2 hok.2.2 (not_mem_nil (a := vm)) ⟨r, hr, ?_⟩
    rwa [uses_iff, hread, hpath]
  | update db₀ row body =>
    simp only [hedit, or_eq_true] at hnum
    rcases update_paths (hedit ▸ w.made) with heq | ⟨dir, ext, hadd, heq⟩
    · rwa [heq]
    -- the number is new
    rw [heq]
    refine hnodup.append (nodup_singleton _) (disjoint_singleton.mpr fun hin => ?_)
    rcases hnum with hnone | hall
    · simp [isNone_iff_eq_none.mp hnone] at hadd
    · have hlt := all_eq_true.mp hall _ hin
      simp only [addedNumber, HostPath.fileName_join, all_some, diskPaths, length_map,
        Nat.lt_irrefl, decide_false] at hlt
      cases hlt

theorem finds_of_orderly (h : orderly s e) : finds vm ⟨s, []⟩ e := by
  cases e with
  | call i =>
    simp only [orderly] at h
    simp only [finds]
    split
    · next w hi =>
      simp only [hi, all_some, Request.current, and_eq_true] at h
      rw [or_eq_true, bne_iff_ne, ← imp_iff_not_or]
      rintro rfl
      exact h.1
    · next id read rows hi =>
      simp only [hi, all_some, Request.current] at h
      rw [or_eq_true, bne_iff_ne, ← imp_iff_not_or]
      rintro rfl
      exact h
    · rfl
  | _ => rfl

theorem Distinct.step (h : Distinct cfg vm s)
    (hok : orderly s e ∧ numbered s e) (hs : step cfg s e = some s') : Distinct cfg vm s' := by
  have hinv := inv_step h.inv hok.1 hs
  cases step_spec (l := ⟨s, []⟩) h.known (finds_of_orderly hok.1) hs with
  | kept hk hc =>
    refine ⟨hinv, Nat.lt_of_lt_of_le h.known hk.next, fun r' hr' => ?_⟩
    obtain ⟨r, hr, hspec⟩ := hk.spec r' hr'
    exact hspec ▸ h.paths r hr
  | @edited i w he hi hvm hc hnext hspec =>
    refine ⟨hinv, hnext ▸ h.known, fun r' hr' => ?_⟩
    obtain ⟨r, hr, hread, hnew⟩ := hspec r' hr'
    subst he
    exact hnew ▸ h.edited hi hok.1 hok.2 hr hread

theorem Distinct.of_start (h : StartsCreated cfg vm s) : Distinct cfg vm s := by
  obtain ⟨hstart, r, hr, hcreated⟩ := h
  obtain ⟨hmem, hid⟩ := IdTable.get_eq_some.mp hr
  refine ⟨inv_start hstart, hid ▸ IdTable.id_lt hmem, fun r' hr' => ?_⟩
  obtain rfl : r' = r := mem_unique hr' hr
  exact hcreated.nodup

/-- **Disk paths are distinct.**  In every run in which requests write on what still holds and a
disk is added only while all numbers given are below the number of disks, no two disks have one
path. -/
theorem disk_paths_distinct
    (h : Reach (Requests.step cfg) (fun s e => orderly s e = true ∧ numbered s e = true)
      (StartsCreated cfg vm) s) : ∀ r, s.db.vms.get vm = some r → (diskPaths r.spec).Nodup := by
  have hdistinct : Distinct cfg vm s :=
    Reach.invariant (fun _ => Distinct.of_start) (fun _ _ _ hi hok hs => hi.step hok hs) h
  exact hdistinct.paths

end

/-! ## Runs -/

theorem volumeDb_created : StartsCreated sampleCfg 0 ⟨volumeDb, .empty⟩ :=
  ⟨volumeDb_start, _, rfl, Or.inr ⟨0, storageRoot, [], rfl, by decide⟩⟩

def addDisk : Request :=
  .update (.project 2) root 0 ⟨none, none, none, none, none, none, some ⟨10, none⟩, none⟩

/-- A disk is added to the VM, and a volume is attached to it. -/
def addThenAttach : List Event :=
  [.begin addDisk, .call 0, .call 0, .call 0,
    .begin (.attach (.project 2) root 0 0), .call 1, .call 1, .call 1, .call 1]

theorem added_distinct :
    (diskPaths <$> Vm.spec <$> (final (step sampleCfg) ⟨volumeDb, .empty⟩ addThenAttach).db.vms.get 0) =
        some [storageRoot.join (.vmAdded 0 0 .qcow2), storageRoot.join (.volume 0 .qcow2)] ∧
      ∀ r, (final (step sampleCfg) ⟨volumeDb, .empty⟩ addThenAttach).db.vms.get 0 = some r →
        (diskPaths r.spec).Nodup := by
  have hrun : Reach (step sampleCfg) (fun s e => orderly s e = true ∧ numbered s e = true)
      (StartsCreated sampleCfg 0) (final (step sampleCfg) ⟨volumeDb, .empty⟩ addThenAttach) :=
    Reach.final (fun _ _ => and_eq_true_iff.mp) volumeDb_created
      (by decide : execOk _ (fun s e => orderly s e && numbered s e) _ _ = true) (by decide)
  exact ⟨by decide, disk_paths_distinct hrun⟩

/-- A volume is attached and a disk added; the volume is detached and a disk added. -/
def detachBetween : List Event :=
  [.begin (.attach (.project 2) root 0 0), .call 0, .call 0, .call 0, .call 0,
    .begin addDisk, .call 1, .call 1, .call 1,
    .begin (.detach (.project 2) root 0), .call 2, .call 2, .call 2, .call 2,
    .begin addDisk, .call 3, .call 3, .call 3]

/-- **Two disks have one path.**  The second disk takes the number of the first. -/
theorem disk_number_reused :
    ∃ s, Reach (step sampleCfg) anyStep (StartsCreated sampleCfg 0) s ∧ s.requests.idle ∧
      ∃ r, s.db.vms.get 0 = some r ∧ diskPaths r.spec =
        [storageRoot.join (.vmAdded 0 1 .qcow2), storageRoot.join (.vmAdded 0 1 .qcow2)] := by
  refine ⟨final (step sampleCfg) ⟨volumeDb, .empty⟩ detachBetween, ?_, by decide, ?_⟩
  · exact Reach.final_anyStep volumeDb_created (by decide)
  · exact map_eq_some_iff.mp (by decide)

end VQuasar.Requests
