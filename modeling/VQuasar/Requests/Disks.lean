import VQuasar.Requests.Steps
import VQuasar.Tenancy.Files

/-!
# Disks and volumes in requests

What the calls of a request do to the disks of the VMs and to the volumes.  A volume never moves, so
what a request has read of its path stays true while other requests go on (`Follows`,
`Request.Sound.follows`); an edit other than `attach` and `detach` leaves the files of the volumes where
they are (`uses_update`, `nic_disks`, `power_disks`), and every other write changes which VM has which
disk in a way that one lemma says (`holds_respec`, `holds_insert`, `holds_deleteVmRow`).
-/

namespace VQuasar.Requests

open Tenancy List Option IdTable SpecWrite

/-! ## Disks -/

def uses (spec : VirtualMachineSpec) (path : HostPath) : Bool :=
  spec.disks.any fun d => d.path == path

variable (cfg : Config) (db : Db)

def Holds (vm : Id) (path : HostPath) : Prop :=
  ∃ r, db.vms.get vm = some r ∧ uses r.spec path = true

/-! ## What requests in flight have read -/

/-- The attachment that a request has begun to write, and has still to record or take back. -/
def Request.due : Request → Option (Id × Option Id)
  | .record volume vm _ => some (volume, vm)
  | .allocate volume vm _ _ | .rollback volume vm | .recordBoot volume vm _ =>
    some (volume, some vm)
  | _ => none

/-- Among the volumes there are, the file is that of this one. -/
def Names (path : HostPath) (volume : Id) : Prop :=
  ∀ v ∈ db.volumes, db.fileOf cfg v = path ↔ v.id = volume

def IsReady (volume : Id) : Prop := ∀ v ∈ db.volumes, v.id = volume → v.status = .ready

def SpecWrite.Sound (w : SpecWrite) : Prop :=
  match w.edit with
  | .attach volume disk => Names cfg db disk.path volume ∧ IsReady db volume
  | .detach volume path => Names cfg db path volume
  | _ => True

/-- What a request has read of a volume is true of it for good. -/
def Request.Sound : Request → Prop
  | .attachTo _ v _ => Names cfg db (db.fileOf cfg v) v.id ∧ IsReady db v.id
  | .detachFrom v _ => Names cfg db (db.fileOf cfg v) v.id
  | .write w => w.Sound cfg db
  | .allocateNic w _ _ => w.Sound cfg db
  | .insertVm volume _ spec _ =>
    ∀ v ∈ db.volumes, uses spec (db.fileOf cfg v) = true ↔ v.id = volume
  | _ => True

/-- No volume has moved, and none that was ready is not. -/
structure Follows (db db' : Db) : Prop where
  pools : db'.pools = db.pools
  volumes : ∀ v' ∈ db'.volumes, ∃ v ∈ db.volumes, v'.id = v.id ∧ v'.format = v.format ∧
    v'.pool = v.pool ∧ (v.status = .ready → v'.status = .ready)

section

variable {cfg : Config} {db db' : Db} {v v' : Volume} {volume : Id}

theorem fileOf_congr (hpools : db'.pools = db.pools) (hid : v'.id = v.id)
    (hformat : v'.format = v.format) (hpool : v'.pool = v.pool) :
    db'.fileOf cfg v' = db.fileOf cfg v := by
  simp only [Db.fileOf, Db.volumeDir, hpools, hid, hformat, hpool]

theorem fileOf_id (h : db.fileOf cfg v = db.fileOf cfg v') : v.id = v'.id := by
  have hname := congrArg HostPath.fileName h
  simp only [Db.fileOf, volumePath, HostPath.fileName_join, some.injEq,
    FileName.volume.injEq] at hname
  exact hname.1

theorem Names.of_mem (hv : v ∈ db.volumes) : Names cfg db (db.fileOf cfg v) v.id := by
  intro r hr
  constructor
  · exact fileOf_id
  · intro hid
    rw [eq_of_id hr hv hid]

theorem Follows.refl (db : Db) : Follows db db :=
  ⟨rfl, fun v hv => ⟨v, hv, rfl, rfl, rfl, id⟩⟩

theorem Follows.of_same (hpools : db'.pools = db.pools) (hvolumes : db'.volumes = db.volumes) :
    Follows db db' :=
  ⟨hpools, fun v hv => ⟨v, hvolumes ▸ hv, rfl, rfl, rfl, id⟩⟩

theorem Follows.fileOf (h : Follows db db') (v : Volume) : db'.fileOf cfg v = db.fileOf cfg v :=
  fileOf_congr h.pools rfl rfl rfl

theorem Names.follows {path : HostPath} (h : Names cfg db path volume)
    (hf : Follows db db') : Names cfg db' path volume := by
  intro v' hv'
  obtain ⟨v, hv, hid, hformat, hpool, -⟩ := hf.volumes v' hv'
  rw [fileOf_congr hf.pools hid hformat hpool, hid]
  exact h v hv

theorem IsReady.follows (h : IsReady db volume) (hf : Follows db db') : IsReady db' volume := by
  intro v' hv' hid'
  obtain ⟨v, hv, hid, -, -, hready⟩ := hf.volumes v' hv'
  exact hready (h v hv (hid.symm.trans hid'))

theorem SpecWrite.Sound.follows {w : SpecWrite} (h : w.Sound cfg db) (hf : Follows db db') :
    w.Sound cfg db' := by
  unfold SpecWrite.Sound at h ⊢
  split
  · next heq =>
    simp only [heq] at h
    exact ⟨h.1.follows hf, h.2.follows hf⟩
  · next heq =>
    simp only [heq] at h
    exact h.follows hf
  · trivial

theorem Request.Sound.follows {r : Request} (h : r.Sound cfg db) (hf : Follows db db') :
    r.Sound cfg db' := by
  cases r with
  | attachTo s v vm =>
    simp only [Request.Sound, hf.fileOf] at h ⊢
    exact ⟨h.1.follows hf, h.2.follows hf⟩
  | detachFrom v vm =>
    simp only [Request.Sound, hf.fileOf] at h ⊢
    exact h.follows hf
  | write | allocateNic => exact SpecWrite.Sound.follows h hf
  | insertVm volume name spec project =>
    intro v' hv'
    obtain ⟨v, hv, hid, hformat, hpool, -⟩ := hf.volumes v' hv'
    rw [fileOf_congr hf.pools hid hformat hpool, hid]
    exact h v hv
  | _ => trivial

end

/-! ## What a call does to the volumes -/

section

variable {cfg : Config} {db db' : Db} {vm : Id} {w : SpecWrite} {b r : Request}

theorem Follows.update {p : Volume → Bool} {f : Volume → Volume} (hpools : db'.pools = db.pools)
    (hrows : db'.volumes.rows = Table.updateWhere p f db.volumes.rows)
    (h : ∀ v, (f v).id = v.id ∧ (f v).format = v.format ∧ (f v).pool = v.pool ∧
      (v.status = .ready → (f v).status = .ready)) : Follows db db' := by
  refine ⟨hpools, fun v' hv' => ?_⟩
  obtain ⟨v, hv, rfl⟩ := mem_updated hrows hv'
  refine ⟨v, hv, ?_⟩
  split
  · exact h v
  · exact ⟨rfl, rfl, rfl, id⟩

theorem follows_setVolumeAttachment (volume : Id) (target : Option Id) (serial : Option Nat) :
    Follows db (db.setVolumeAttachment volume target serial) :=
  Follows.update rfl rfl fun _ => ⟨rfl, rfl, rfl, id⟩

theorem follows_deleteVmRow (vm : Id) : Follows db (db.deleteVmRow vm) :=
  Follows.update rfl rfl fun _ => ⟨rfl, rfl, rfl, id⟩

theorem follows_deleteVolumes (p : Volume → Bool) : Follows db (db.deleteVolumes p) :=
  ⟨rfl, fun v hv => ⟨v, (mem_delete.mp hv).1, rfl, rfl, rfl, id⟩⟩

theorem follows_allocates (h : AllocatesFor vm db db') : Follows db db' := by
  obtain ⟨t, rfl, -⟩ := h
  exact .of_same rfl rfl

theorem follows_writeSpec : Follows db (w.call db).1 := by
  unfold call
  split
  · exact .refl db
  · exact .refl db
  · next hw =>
    rw [Db.writeSpec_ok hw]
    exact .of_same rfl rfl

theorem call_follows (r : Request) : Follows db (r.call cfg db).1 := by
  cases r with
  | allocateNic w index nic =>
    have h := follows_allocates
      (allocateOneNic_allocatesFor (db.releaseNicAllocations w.vm index) w.vm nic index)
    have hrel : Follows db (db.releaseNicAllocations w.vm index) := .of_same rfl rfl
    simp only [Request.call]
    split <;> next heq =>
      rw [heq] at h
      exact ⟨h.pools.trans hrel.pools, h.volumes⟩
  | write w => exact follows_writeSpec
  | detachFrom v vm =>
    simp only [Request.call]
    split <;> exact .refl db
  | record => exact follows_setVolumeAttachment _ _ _
  | recordBoot volume vm name => exact follows_setVolumeAttachment volume (some vm) (some 0)
  | insertVm volume name spec project =>
    simp only [Request.call]
    split
    · exact .refl db
    · next hins =>
      rw [Db.insertVmWithId_ok hins]
      exact .of_same rfl rfl
  | allocate volume vm name spec =>
    have h := follows_allocates (allocateNicIps_allocatesFor vm spec.networkInterfaces db 0)
    simp only [Request.call]
    split <;> next heq => rw [heq] at h; exact h
  | rollback volume vm | deleteRow vm => exact follows_deleteVmRow vm
  | unlink s v =>
    simp only [Request.call, Db.removeFile]
    split
    · exact .of_same rfl rfl
    · split
      · exact .of_same rfl rfl
      · exact .refl db
  | dropVolume s volume => exact follows_deleteVolumes _
  | sealRows rows =>
    cases rows with
    | nil => exact .refl db
    | cons row rows => exact .of_same rfl rfl
  | markDeleting | accept | acceptTask => exact .of_same rfl rfl
  | _ => exact .refl db

theorem SpecWrite.of_eq_ok {name : Option String} {read : VirtualMachineSpec} {edit : Edit}
    (h : of vm name read edit = .ok w) : w.vm = vm ∧ w.read = read ∧ w.edit = edit := by
  unfold of at h
  split at h
  · cases h
    exact ⟨rfl, rfl, rfl⟩
  · cases h

theorem reading_some {x : Except ApiError Request} (h : (reading db x).2 = some b) : x = .ok b := by
  cases x with
  | error e => cases h
  | ok r => exact congrArg Except.ok (some.inj h)

/-- The requests whose next call is a read. -/
def Request.reads : Request → Bool
  | .update .. | .setPower .. | .changeNic .. | .attach .. | .attachTo .. | .detach ..
  | .createFromVolume .. | .deleteVolume .. | .deleteVm .. | .reconcileDelete _
  | .encryptExisting _ => true
  | _ => false

theorem reads_db (hr : r.reads) : (r.call cfg db).1 = db := by
  cases r <;> first | rfl | cases hr

/-- What a request has prepared from the rows it read is sound, and it has not begun to write. -/
theorem reads_next (hr : r.reads) (h : r.Sound cfg db)
    (hb : (r.call cfg db).2 = some b) : b.Sound cfg db ∧ b.due = none := by
  cases r with
  | update | setPower =>
    obtain ⟨-, -, hb⟩ := bind_eq_ok.mp (reading_some hb)
    obtain ⟨r, -, hb⟩ := orElse_bind.mp hb
    obtain ⟨w, hw, ⟨⟩⟩ := of_bind_pure hb
    refine ⟨?_, rfl⟩
    simp only [Request.Sound, SpecWrite.Sound, (of_eq_ok hw).2.2]
  | changeNic s u id index body =>
    obtain ⟨x, -, hb⟩ := bind_eq_ok.mp (reading_some hb)
    obtain ⟨r, -, hb⟩ := orElse_bind.mp hb
    obtain ⟨w, hw, ⟨⟩⟩ := of_bind_pure hb
    refine ⟨?_, rfl⟩
    simp only [Request.Sound, SpecWrite.Sound, (of_eq_ok hw).2.2]
  | attach s u id vm =>
    obtain ⟨-, -, hb⟩ := bind_eq_ok.mp (reading_some hb)
    obtain ⟨v, hv, hb⟩ := orElse_bind.mp hb
    obtain ⟨hready, hb⟩ := ensure_bind.mp hb
    cases of_ensure_pure hb
    obtain ⟨hmem, -⟩ := Db.getVolume_eq_some.mp hv
    refine ⟨⟨Names.of_mem hmem, fun v' hv' hid => ?_⟩, rfl⟩
    rw [eq_of_id hv' hmem hid]
    exact eq_of_beq hready
  | attachTo s v vm =>
    obtain ⟨r, -, hb⟩ := orElse_bind.mp (reading_some hb)
    obtain ⟨w, hw, ⟨⟩⟩ := of_bind_pure hb
    refine ⟨?_, rfl⟩
    simp only [Request.Sound, SpecWrite.Sound, (of_eq_ok hw).2.2]
    exact h
  | detach s u id =>
    obtain ⟨-, -, hb⟩ := bind_eq_ok.mp (reading_some hb)
    obtain ⟨v, hv, hb⟩ := orElse_bind.mp hb
    obtain ⟨vm, -, ⟨⟩⟩ := of_orElse_pure hb
    exact ⟨Names.of_mem (Db.getVolume_eq_some.mp hv).1, rfl⟩
  | createFromVolume s u body =>
    obtain ⟨⟨v, spec⟩, hspec, ⟨⟩⟩ := of_bind_pure (reading_some hb)
    obtain ⟨-, -, hv, -, -, hdisks, -⟩ := volumeSpec_ok hspec
    refine ⟨fun v' hv' => ?_, rfl⟩
    rw [← Names.of_mem (Db.getVolume_eq_some.mp hv).1 v' hv']
    simp only [uses, hdisks, any_cons, any_nil, Bool.or_false, beq_iff_eq]
    exact eq_comm
  | deleteVolume s u id =>
    obtain ⟨-, -, hb⟩ := bind_eq_ok.mp (reading_some hb)
    obtain ⟨v, -, hb⟩ := orElse_bind.mp hb
    cases of_ensure_pure hb
    exact ⟨trivial, rfl⟩
  | deleteVm s u id =>
    obtain ⟨-, -, hb⟩ := bind_eq_ok.mp (reading_some hb)
    obtain ⟨r, -, ⟨⟩⟩ := of_orElse_pure hb
    exact ⟨trivial, rfl⟩
  | reconcileDelete id =>
    simp only [Request.call] at hb
    split at hb <;> cases hb
    exact ⟨trivial, rfl⟩
  | encryptExisting plain =>
    cases hb
    exact ⟨trivial, rfl⟩
  | _ => cases hr

end

/-! ## What an edit does to the disks -/

section

variable {cfg : Config} {db : Db} {spec spec' : VirtualMachineSpec}

def diskPaths (spec : VirtualMachineSpec) : List HostPath := spec.disks.map DiskSpec.path

theorem uses_iff {p : HostPath} : uses spec p ↔ p ∈ diskPaths spec := by
  simp [uses, diskPaths]

variable {volume : Id} {disk : DiskSpec} {path : HostPath} {db₀ : Db} {body : UpdateVm} {vm : Vm}

theorem attach_paths (h : (Edit.attach volume disk).apply spec = .ok spec') :
    diskPaths spec' = diskPaths spec ++ [disk.path] := by
  obtain ⟨-, -, ⟨⟩⟩ := of_bind_pure h
  exact map_append

theorem uses_attach (h : (Edit.attach volume disk).apply spec = .ok spec') (p : HostPath) :
    uses spec' p ↔ uses spec p ∨ disk.path = p := by
  rw [uses_iff, uses_iff, attach_paths h, mem_append, mem_singleton, eq_comm]

theorem detach_paths (h : (Edit.detach volume path).apply spec = .ok spec') :
    diskPaths spec' = (diskPaths spec).filter (· != path) := by
  cases h
  rw [diskPaths, diskPaths, List.filter_map]
  rfl

theorem uses_detach (h : (Edit.detach volume path).apply spec = .ok spec') (p : HostPath) :
    uses spec' p ↔ uses spec p ∧ p ≠ path := by
  rw [uses_iff, uses_iff, detach_paths h, mem_filter, bne_iff_ne]

theorem growDisk_uses {ds ds' : List DiskSpec} {g : GrowDisk} (h : growDisk ds g = .ok ds') :
    ds'.map DiskSpec.path = ds.map DiskSpec.path := by
  obtain ⟨d, hd, h⟩ := orElse_bind.mp h
  cases of_ensure_pure h
  rw [map_set]
  refine ext_getElem? fun i => ?_
  rw [List.getElem?_set]
  split
  · next hi =>
    subst hi
    split
    · rw [List.getElem?_map, hd]
      rfl
    · next hlt => rw [List.getElem?_eq_none (by simpa using hlt)]
  · rfl

theorem update_paths (h : (Edit.update db₀ vm body).apply spec = .ok spec') :
    diskPaths spec' = diskPaths spec ∨ ∃ dir ext, body.addDisk.isSome ∧
      diskPaths spec' = diskPaths spec ++
        [HostPath.join dir (.vmAdded vm.id (diskPaths spec).length ext)] := by
  obtain ⟨disks, hdisks, h⟩ := bind_eq_ok.mp h
  obtain ⟨-, -, ⟨⟩⟩ := of_bind_pure h
  obtain ⟨grown, hgrow, hadd⟩ := updateDisks_ok hdisks
  have hmap : grown.map DiskSpec.path = diskPaths spec := by
    rcases hgrow with rfl | ⟨g, hg⟩
    · rfl
    · exact growDisk_uses hg
  rcases hadd with rfl | ⟨a, pool, dir, ha, -, rfl⟩
  · exact Or.inl hmap
  · refine Or.inr ⟨dir, (addedDisk vm.id 0 a pool dir).imageType, by rw [ha]; rfl, ?_⟩
    rw [← hmap, length_map]
    exact map_append

theorem uses_update (h : (Edit.update db₀ vm body).apply spec = .ok spec') (v : Volume) :
    uses spec' (db.fileOf cfg v) ↔ uses spec (db.fileOf cfg v) := by
  rw [uses_iff, uses_iff]
  rcases update_paths h with heq | ⟨dir, ext, -, heq⟩
  · rw [heq]
  rw [heq, mem_append, mem_singleton]
  refine or_iff_left fun hpath => ?_
  have hname := congrArg HostPath.fileName hpath
  simp only [Db.fileOf, volumePath, HostPath.fileName_join] at hname
  cases hname

theorem nic_disks {index : Nat} {body : ChangeNic}
    (h : (Edit.nic index body).apply spec = .ok spec') : spec'.disks = spec.disks := by
  obtain ⟨nic, -, h⟩ := orElse_bind.mp h
  obtain ⟨-, -, ⟨⟩⟩ := of_bind_pure h
  rfl

theorem power_disks {desired : DesiredPowerState} {taskType : String}
    (h : (Edit.power desired taskType).apply spec = .ok spec') : spec'.disks = spec.disks := by
  cases h
  rfl

theorem uses_congr (h : spec'.disks = spec.disks) (p : HostPath) : uses spec' p ↔ uses spec p := by
  rw [uses, uses, h]

end

/-! ## Which VM holds which file after a call -/

section

variable {cfg : Config} {db db' : Db}

theorem holds_congr (h : db'.vms = db.vms) (m : Id) (p : HostPath) :
    Holds db' m p ↔ Holds db m p := by
  unfold Holds
  rw [h]

variable {f : Vm → Vm} {vm : Id} {r : Vm}

theorem get_setVm {id : Id} {hf : ∀ r, (f r).id = r.id} (vm : Id) :
    (db.setVm id f hf).vms.get vm = (db.vms.get vm).map fun r => if r.id == id then f r else r := by
  unfold Db.setVm
  simp only [get_update]

theorem holds_setVm {hf : ∀ r, (f r).id = r.id}
    (hspec : ∀ r, db.vms.get vm = some r → (f r).spec = r.spec) (m : Id) (p : HostPath) :
    Holds (db.setVm vm f hf) m p ↔ Holds db m p := by
  have hrow : ∀ r, db.vms.get m = some r → (if r.id == vm then f r else r).spec = r.spec := by
    intro r hr
    split
    · next hid =>
      have hm : r.id = m := (get_eq_some.mp hr).2
      rw [← hm, eq_of_beq hid] at hr
      exact hspec r hr
    · rfl
  unfold Holds
  simp only [get_setVm]
  constructor
  · rintro ⟨r', hr', hu⟩
    obtain ⟨r, hr, rfl⟩ := map_eq_some_iff.mp hr'
    exact ⟨r, hr, hrow r hr ▸ hu⟩
  · rintro ⟨r, hr, hu⟩
    rw [hr]
    exact ⟨_, rfl, (hrow r hr).symm ▸ hu⟩

theorem holds_respec {hf : ∀ r, (f r).id = r.id}
    {spec : VirtualMachineSpec} (hr : db.vms.get vm = some r) (hspec : (f r).spec = spec) (m : Id)
    (p : HostPath) :
    Holds (db.setVm vm f hf) m p ↔ if m = vm then uses spec p = true else Holds db m p := by
  unfold Holds
  simp only [get_setVm]
  split
  · next hm =>
    subst hm
    have hid : r.id = m := (get_eq_some.mp hr).2
    rw [hr]
    simp [hid, hspec]
  · next hm =>
    refine exists_congr fun r' => and_congr_left fun _ => ?_
    constructor
    · intro h
      obtain ⟨r₀, hr₀, rfl⟩ := map_eq_some_iff.mp h
      have hid : r₀.id = m := (get_eq_some.mp hr₀).2
      rw [hr₀, if_neg]
      simpa [hid] using hm
    · intro h
      have hid : r'.id = m := (get_eq_some.mp h).2
      rw [h, map_some, if_neg]
      simpa [hid] using hm

theorem holds_of_get (hr : db.vms.get vm = some r) (p : HostPath) :
    Holds db vm p ↔ uses r.spec p := by
  constructor
  · rintro ⟨r', hr', hu⟩
    obtain rfl : r' = r := mem_unique hr' hr
    exact hu
  · exact fun hu => ⟨r, hr, hu⟩

theorem holds_deleteVmRow (m : Id) (p : HostPath) :
    Holds (db.deleteVmRow vm) m p ↔ m ≠ vm ∧ Holds db m p := by
  unfold Holds Db.deleteVmRow
  simp only [get_eq_some, mem_delete]
  constructor
  · rintro ⟨r, ⟨⟨hr, hne⟩, hid⟩, hu⟩
    refine ⟨?_, r, ⟨hr, hid⟩, hu⟩
    rintro rfl
    simp [show r.id = m from hid] at hne
  · rintro ⟨hne, r, ⟨hr, hid⟩, hu⟩
    refine ⟨r, ⟨⟨hr, ?_⟩, hid⟩, hu⟩
    simpa [show r.id = m from hid] using hne

theorem holds_insert {mk : Nat → Vm} {hmk : ∀ i, (mk i).id = i} (m : Id) (p : HostPath) :
    Holds { db with vms := db.vms.insert mk hmk } m p ↔
      Holds db m p ∨ m = db.vms.next ∧ uses (mk m).spec p = true := by
  unfold Holds
  simp only [get_eq_some, mem_insert]
  constructor
  · rintro ⟨r, ⟨hr | rfl, hid⟩, hu⟩
    · exact Or.inl ⟨r, ⟨hr, hid⟩, hu⟩
    · have hm : db.vms.next = m := (hmk _).symm.trans hid
      exact Or.inr ⟨hm.symm, hm ▸ hu⟩
  · rintro (⟨r, ⟨hr, hid⟩, hu⟩ | ⟨rfl, hu⟩)
    · exact ⟨r, ⟨Or.inl hr, hid⟩, hu⟩
    · exact ⟨_, ⟨Or.inr rfl, hmk _⟩, hu⟩

end

end VQuasar.Requests
