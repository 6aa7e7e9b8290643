import VQuasar.Reclaim.Names

/-!
# The orphan sweep

`sweep` of `orphans.rs`, with the policy to delete: it lists the pools, reads the ids of all VMs and
then of all volumes, and removes the files whose owner, by their names, is not among them.  Requests
and the reconcile loop go on in between (`sweepStep`).

What the control plane refers to are paths: the disks of the VMs, the files of images and of volumes
(`Refers`).  The platform names its own files after rows that are there, and of fresh ids nobody knows
a name; but callers may send any path under the allowed roots, also one that has the name of a row
that is gone.  In every run in which they do not, and in which no volume is deleted while a VM has its
file, the sweep removes nothing that is referred to (`sweep_spares`).
-/

namespace VQuasar.Reclaim

open Tenancy Runs Table List Option Bool
open IdTable (id_lt mem_updated mem_insert mem_delete mem_rows)

/-! ## The sweep -/

variable (db : Db)

def scanDirs : List HostPath :=
  db.pools.rows.flatMap fun p => [p.params.hostPath.join (.named "seeds"), p.params.hostPath]

structure Candidate where
  path : HostPath
  owner : Owner
deriving DecidableEq, Repr

/-- `candidates_in`, of a directory with these files that have settled -/
def candidatesIn (dir : HostPath) (names : List FileName) : List Candidate :=
  names.filterMap fun name => (owner name.spelled).map fun o => ⟨dir.join name, o⟩

def allVmIds : List Id := db.vms.rows.map Vm.id

def allVolumeIds : List Id := db.volumes.rows.map Volume.id

def Owner.orphaned (vms volumes : List Id) : Owner → Bool
  | .vm id => !vms.contains id
  | .volume id => !volumes.contains id

/-- How far a sweep is, with what it has read. -/
inductive Sweep
  | idle
  | listing (dirs : List HostPath) (found : List Candidate)
  | volumeIds (found : List Candidate) (vms : List Id)
  | removing (orphans : List Candidate)
deriving DecidableEq

def Sweep.candidates : Sweep → List Candidate
  | .idle => []
  | .listing _ found => found
  | .volumeIds found _ => found
  | .removing orphans => orphans

structure Swept where
  db : Db
  sweep : Sweep

inductive SweepEvent
  /-- a request, or the reconcile loop -/
  | action (a : Action)
  | scan
  /-- the next directory, with the files in it that have settled -/
  | list (names : List FileName)
  | readVmIds
  | readVolumeIds
  | remove

def IdsFit : Prop := db.vms.next ≤ 2 ^ 128 ∧ db.volumes.next ≤ 2 ^ 128

instance (db : Db) : Decidable (IdsFit db) := inferInstanceAs (Decidable (_ ∧ _))

/-- A row that comes has a new id, which is in no name that the sweep has seen. -/
def Unheard (db db' : Db) (c : Candidate) : Prop :=
  c.owner.orphaned (allVmIds db) (allVolumeIds db) = true →
    c.owner.orphaned (allVmIds db') (allVolumeIds db') = true

instance (db db' : Db) (c : Candidate) : Decidable (Unheard db db' c) :=
  inferInstanceAs (Decidable (_ → _))

def sweepStep (cfg : Config) (s : Swept) : SweepEvent → Option Swept
  | .action a =>
    (step cfg s.db a).bind fun db =>
      if IdsFit db ∧ ∀ c ∈ s.sweep.candidates, Unheard s.db db c then some ⟨db, s.sweep⟩ else none
  | .scan =>
    match s.sweep with
    | .idle => some { s with sweep := .listing (scanDirs s.db) [] }
    | _ => none
  | .list names =>
    match s.sweep with
    | .listing (dir :: dirs) found =>
      some { s with sweep := .listing dirs (found ++ candidatesIn dir names) }
    | _ => none
  | .readVmIds =>
    match s.sweep with
    | .listing [] [] => some { s with sweep := .idle }
    | .listing [] found => some { s with sweep := .volumeIds found (allVmIds s.db) }
    | _ => none
  | .readVolumeIds =>
    match s.sweep with
    | .volumeIds found vms =>
      some { s with
        sweep := .removing (found.filter fun c => c.owner.orphaned vms (allVolumeIds s.db)) }
    | _ => none
  | .remove =>
    match s.sweep with
    | .removing [] => some { s with sweep := .idle }
    | .removing (_ :: orphans) => some { s with sweep := .removing orphans }
    | _ => none

/-! ## The property -/

/-- The file is a disk or the source of a disk of some VM, the file of an image or that of a volume;
boot files are taken along. -/
inductive Refers (cfg : Config) (db : Db) (p : HostPath) : Prop
  | vm {vm : Vm} {q : HostPath} (hvm : vm ∈ db.vms) (hq : q ∈ vm.spec.paths) (h : p.Same q)
  | image {img : Image} {q : HostPath} (himg : img ∈ db.images)
      (hq : q ∈ img.sourcePath :: img.boot.files) (h : p.Same q)
  | volume {v : Volume} (hv : v ∈ db.volumes) (h : p.Same (db.fileOf cfg v))

/-- No path that the caller sends has a name of the platform's. -/
def unnamed : Action → Bool
  | .request _ _ (.createVm body) => body.spec.paths.all fun p => p.owner.isNone
  | .request _ _ (.createImage body) =>
    (body.sourcePath :: body.boot.files).all fun p => p.owner.isNone
  | .request _ _ (.updateImage _ body) =>
    (body.sourcePath :: body.boot.files).all fun p => p.owner.isNone
  | _ => true

/-- A volume that goes is not in the spec of a VM. -/
def unattached : Action → Bool
  | .request _ _ (.deleteVolume id) =>
    db.vms.rows.all fun vm => vm.spec.paths.all fun p => p.owner != some (.volume id)
  | _ => true

def orderly (s : Swept) : SweepEvent → Bool
  | .action a => unnamed a && unattached s.db a
  | _ => true

/-- A deployment without VMs and images. -/
structure Vacant (s : Swept) : Prop where
  vms : s.db.vms.rows = []
  images : s.db.images.rows = []
  fit : IdsFit s.db
  sweep : s.sweep = .idle

/-! ## What the paths are named after -/

/-- Files of images have names of their own, and those of a VM are named after it, after a volume that
is there or after nobody. -/
structure Named (db : Db) : Prop where
  images : ∀ img ∈ db.images, ∀ p ∈ img.sourcePath :: img.boot.files, p.owner = none
  vms : ∀ vm ∈ db.vms, ∀ p ∈ vm.spec.paths,
    p.owner = none ∨ p.owner = some (.vm vm.id) ∨
      ∃ id ∈ allVolumeIds db, p.owner = some (.volume id)

/-- The same in the middle of a request `w` that has found `db`, with the volumes it found. -/
structure During (w : Write) (db d : Db) : Prop where
  images : ∀ img ∈ d.images, ∀ p ∈ img.sourcePath :: img.boot.files, p.owner = none
  vms : ∀ vm ∈ d.vms, ∀ p ∈ vm.spec.paths,
    p.owner = none ∨ p.owner = some (.vm vm.id) ∨
      ∃ id ∈ allVolumeIds d, id < db.volumes.next ∧ w ≠ .deleteVolume id ∧
        p.owner = some (.volume id)
  volumes : ∀ id ∈ allVolumeIds db, w ≠ .deleteVolume id → id ∈ allVolumeIds d

section

variable {cfg : Config} {db d d' : Db} {s : Scope} {u : AuthUser} {w : Write}
  {claims : Option Claims} {ref : ProjectRef}

theorem owner_none_of_all {ps : List HostPath} (h : (ps.all fun p => p.owner.isNone) = true) :
    ∀ p ∈ ps, p.owner = none :=
  fun p hp => isNone_iff_eq_none.mp (all_eq_true.mp h p hp)

variable {id : Id} {spec : VirtualMachineSpec}

theorem mem_allVolumeIds : id ∈ allVolumeIds db ↔ ∃ v ∈ db.volumes, v.id = id :=
  mem_map

theorem mem_allVmIds : id ∈ allVmIds db ↔ ∃ vm ∈ db.vms, vm.id = id := mem_map

theorem lt_of_mem_allVolumeIds (h : id ∈ allVolumeIds db) : id < db.volumes.next := by
  obtain ⟨v, hv, rfl⟩ := mem_allVolumeIds.mp h
  exact id_lt hv

theorem owner_fileOf (hfit : IdsFit db) {v : Volume} (hv : v ∈ db.volumes) :
    (db.fileOf cfg v).owner = some (.volume v.id) := by
  have hid : v.id < db.volumes.next := id_lt hv
  rw [Db.fileOf, volumePath, HostPath.owner_join]
  exact (Generated.volume (lt_of_lt_of_le hid hfit.2) v.format).owner.1

theorem Named.during (h : Named db) (hdel : unattached db (.request claims ref w)) :
    During w db db where
  images := h.images
  vms vm hvm p hp := by
    rcases h.vms vm hvm p hp with hnone | hown | ⟨id, hid, hvol⟩
    · exact .inl hnone
    · exact .inr (.inl hown)
    · refine .inr (.inr ⟨id, hid, lt_of_mem_allVolumeIds hid, ?_, hvol⟩)
      rintro rfl
      exact bne_iff_ne.mp (all_eq_true.mp (all_eq_true.mp hdel vm hvm) p hp) hvol
  volumes _ hid _ := hid

theorem During.named (h : During w db d) : Named d where
  images := h.images
  vms vm hvm p hp := by
    rcases h.vms vm hvm p hp with hnone | hown | ⟨id, hid, -, -, hvol⟩
    · exact .inl hnone
    · exact .inr (.inl hown)
    · exact .inr (.inr ⟨id, hid, hvol⟩)

theorem During.of_rows (h : During w db d) (himages : ∀ img ∈ d'.images, img ∈ d.images)
    (hvms : ∀ vm' ∈ d'.vms, ∃ vm ∈ d.vms, vm.id = vm'.id ∧ vm.spec = vm'.spec)
    (hvolumes : ∀ id ∈ allVolumeIds d, id < db.volumes.next → w ≠ .deleteVolume id →
      id ∈ allVolumeIds d') : During w db d' where
  images img himg := h.images img (himages img himg)
  vms vm' hvm' p hp := by
    obtain ⟨vm, hvm, hid, hspec⟩ := hvms vm' hvm'
    rw [← hspec] at hp
    rcases h.vms vm hvm p hp with hnone | hown | ⟨id, hmem, hlt, hne, hvol⟩
    · exact .inl hnone
    · exact .inr (.inl (hid ▸ hown))
    · exact .inr (.inr ⟨id, hvolumes id hmem hlt hne, hlt, hne, hvol⟩)
  volumes id hid hne := hvolumes id (h.volumes id hid hne) (lt_of_mem_allVolumeIds hid) hne

/-- Whatever a request puts into the spec of `vm` is named after it, after a volume or after nobody. -/
theorem During.origin {vm : Id} {p : HostPath} (h : During w db d) (hi : Named db) (hfit : IdsFit db)
    (hvm : vm < 2 ^ 128) (hplain : unnamed (.request claims ref w))
    (hw : ∀ id, w ≠ .deleteVolume id) (ho : PathOrigin cfg db s vm w p) :
    p.owner = none ∨ p.owner = some (.vm vm) ∨
      ∃ id ∈ allVolumeIds d, id < db.volumes.next ∧ w ≠ .deleteVolume id ∧
        p.owner = some (.volume id) := by
  have hvolume : ∀ id ∈ allVolumeIds db, p.owner = some (.volume id) →
      ∃ id ∈ allVolumeIds d, id < db.volumes.next ∧ w ≠ .deleteVolume id ∧
        p.owner = some (.volume id) :=
    fun id hid hown => ⟨id, h.volumes id hid (hw id), lt_of_mem_allVolumeIds hid, hw id, hown⟩
  cases ho with
  | checked hp _ => exact .inl (owner_none_of_all hplain p hp)
  | @source body disk p hd hp =>
    have hmem := mem_paths_disk hd (mem_cons_of_mem _ (mem_toList.mpr hp))
    exact .inl (owner_none_of_all hplain p hmem)
  | made hpool hname =>
    refine .inr (.inl ?_)
    rw [HostPath.owner_join]
    exact (Generated.disk hname hvm).owner.1
  | templateImage ht hown himg hid hp => exact .inl (hi.images _ himg p hp)
  | volumeImage himg hsees hp => exact .inl (hi.images _ himg p (mem_cons_of_mem _ hp))
  | volume hv hown =>
    exact .inr (.inr (hvolume _ (mem_allVolumeIds.mpr ⟨_, hv, rfl⟩) (owner_fileOf hfit hv)))
  | kept hr hid hp =>
    rcases hi.vms _ hr p hp with hnone | hown | ⟨id, hmem, hvol⟩
    · exact .inl hnone
    · exact .inr (.inl (hid ▸ hown))
    · exact .inr (.inr (hvolume id hmem hvol))

theorem launches_ne_deleteVolume (hl : Launches cfg db s u w spec)
    (id : Id) : w ≠ .deleteVolume id := by
  intro h
  cases hl <;> cases h

theorem respecs_ne_deleteVolume {vm : Vm}
    (hr : Respecs cfg db s w vm spec) (id : Id) : w ≠ .deleteVolume id := by
  intro h
  cases hr <;> cases h

theorem specs_update {p : Vm → Bool} {f : Vm → Vm}
    (hrows : d'.vms.rows = updateWhere p f d.vms.rows)
    (h : ∀ r, (f r).id = r.id ∧ (f r).spec = r.spec := by exact fun _ => ⟨rfl, rfl⟩) :
    ∀ vm' ∈ d'.vms, ∃ vm ∈ d.vms, vm.id = vm'.id ∧ vm.spec = vm'.spec := by
  intro vm' hmem
  obtain ⟨r, hr, rfl⟩ := mem_updated hrows hmem
  refine ⟨r, hr, ?_⟩
  split
  · exact ⟨(h r).1.symm, (h r).2.symm⟩
  · exact ⟨rfl, rfl⟩

theorem allVolumeIds_update {p : Volume → Bool} {f : Volume → Volume}
    (hrows : d'.volumes.rows = updateWhere p f d.volumes.rows)
    (h : ∀ r, (f r).id = r.id := by exact fun _ => rfl) : allVolumeIds d' = allVolumeIds d := by
  rw [allVolumeIds, hrows, map_updateWhere h]
  rfl

theorem During.step (h : During w db d) (hi : Named db) (hfit : IdsFit db) (hfit' : IdsFit d')
    (hplain : unnamed (.request claims ref w)) (hs : Step cfg s u w db d d') : During w db d' := by
  have hsame : ∀ vm' ∈ d.vms, ∃ vm ∈ d.vms, vm.id = vm'.id ∧ vm.spec = vm'.spec :=
    fun vm hvm => ⟨vm, hvm, rfl, rfl⟩
  cases hs with
  | insertVm hl hfirst =>
    refine { h with vms := fun vm hvm => ?_ }
    rcases mem_insert.mp hvm with hold | rfl
    · exact h.vms vm hold
    intro p hp
    have hnext : d.vms.next + 1 ≤ 2 ^ 128 := hfit'.1
    have hlt : db.vms.next < 2 ^ 128 := by omega
    have horigin := h.origin hi hfit hlt hplain (launches_ne_deleteVolume hl) (hl.paths p hp)
    rwa [← hfirst] at horigin
  | removeVm hvm =>
    refine h.of_rows (fun _ himg => himg) ?_ fun id hid _ _ => ?_
    · exact fun vm hvm => ⟨vm, (mem_delete.mp hvm).1, rfl, rfl⟩
    · rwa [allVolumeIds_update (d := d) rfl]
  | @respec vm name spec hvm hr =>
    refine { h with vms := fun vm' hvm' => ?_ }
    obtain ⟨r, hr', rfl⟩ := mem_updated rfl hvm'
    split
    · next heq =>
      intro p hp
      have hlt : vm.id < 2 ^ 128 := lt_of_lt_of_le (id_lt hvm) hfit.1
      have horigin := h.origin hi hfit hlt hplain (respecs_ne_deleteVolume hr) (hr.paths hvm p hp)
      rwa [← eq_of_beq heq] at horigin
    · exact h.vms r hr'
  | phase | touch => exact h.of_rows (fun _ himg => himg) (specs_update rfl) fun id hid _ _ => hid
  | drainPhase hw hvm hhost =>
    exact h.of_rows (fun _ himg => himg) (specs_update rfl) fun id hid _ _ => hid
  | createVolume =>
    refine h.of_rows (fun _ himg => himg) hsame fun id hid _ _ => ?_
    obtain ⟨v, hv, rfl⟩ := mem_allVolumeIds.mp hid
    exact mem_allVolumeIds.mpr ⟨v, mem_insert.mpr (.inl hv), rfl⟩
  | finalizeVolume | attachment =>
    refine h.of_rows (fun _ himg => himg) hsame fun id hid _ _ => ?_
    rwa [allVolumeIds_update (d := d) rfl]
  | deleteVolumes hp hw =>
    refine h.of_rows (fun _ himg => himg) hsame fun id hid hlt hne => ?_
    obtain ⟨v, hv, rfl⟩ := mem_allVolumeIds.mp hid
    refine mem_allVolumeIds.mpr ⟨v, mem_delete.mpr ⟨hv, ?_⟩, rfl⟩
    by_contra hgone
    rcases hw v (not_eq_false _ ▸ hgone) with heq | hle
    · exact hne heq
    · exact absurd hlt (Nat.not_lt.mpr hle)
  | insertImage hw hcheck =>
    subst hw
    refine { h with images := fun img himg => ?_ }
    rcases mem_insert.mp himg with hold | rfl
    · exact h.images img hold
    · exact owner_none_of_all hplain
  | updateImage hw hown hcheck =>
    subst hw
    refine { h with images := fun img himg => ?_ }
    obtain ⟨r, hr, rfl⟩ := mem_updated rfl himg
    split
    · exact owner_none_of_all hplain
    · exact h.images r hr
  | deleteImage hown =>
    exact { h with images := fun img himg => h.images img (mem_delete.mp himg).1 }
  | _ => exact { h with }

theorem IdsFit.of_descends (h : IdsFit d') (hd : d.Descends d') : IdsFit d :=
  ⟨hd.vms.next_le.trans h.1, hd.volumes.next_le.trans h.2⟩

theorem During.steps (hi : Named db) (hfit : IdsFit db) (hplain : unnamed (.request claims ref w))
    (hdel : unattached db (.request claims ref w)) (hs : Steps cfg s u w db db d) (hfit' : IdsFit d) :
    During w db d := by
  induction hs with
  | refl => exact hi.during hdel
  | tail _ hstep ih =>
    exact (ih (hfit'.of_descends (Db.Descends.step hstep))).step hi hfit hfit' hplain hstep

theorem Named.of_rows (h : Named d) (himages : d'.images = d.images)
    (hvms : ∀ vm' ∈ d'.vms, ∃ vm ∈ d.vms, vm.id = vm'.id ∧ vm.spec = vm'.spec)
    (hvolumes : allVolumeIds d' = allVolumeIds d) : Named d' where
  images := himages ▸ h.images
  vms vm' hvm' p hp := by
    obtain ⟨vm, hvm, hid, hspec⟩ := hvms vm' hvm'
    rw [← hid, hvolumes]
    exact h.vms vm hvm p (hspec ▸ hp)

theorem Named.action {a : Action} (h : Named db) (hfit : IdsFit db) (hplain : unnamed a)
    (hdel : unattached db a) (hs : Tenancy.step cfg db a = some d) (hfit' : IdsFit d) : Named d := by
  cases step_acts hs with
  | request claims ref w =>
    obtain ⟨t, r, heq | ⟨s, u, -, hsteps⟩⟩ := handle_steps cfg db claims ref w
    · rw [heq]
      exact { h with }
    · have hi : Named { db with users := t, userRoles := r } := { h with }
      exact (During.steps hi hfit hplain hdel hsteps hfit').named
  | phoneHome | observe => exact h.of_rows rfl (specs_update rfl) rfl
  | unheard => exact h
  | bootstrapSign | ready => exact { h with }
  | reap =>
    exact h.of_rows rfl (fun vm hvm => ⟨vm, (mem_delete.mp hvm).1, rfl, rfl⟩)
      (allVolumeIds_update rfl)

end

/-! ## What a sweep is about to remove -/

/-- What a sweep knows of its candidates: their owners by name, and of those it has looked for without
finding them that they are gone. -/
def Sweep.Sound : Sweep → Prop
  | .idle => True
  | .listing _ found => ∀ c ∈ found, c.path.owner = some c.owner
  | .volumeIds found vms => ∀ c ∈ found, c.path.owner = some c.owner ∧
      ∀ id, c.owner = .vm id → id ∉ vms → id ∉ allVmIds db
  | .removing orphans => ∀ c ∈ orphans, c.path.owner = some c.owner ∧
      c.owner.orphaned (allVmIds db) (allVolumeIds db) = true

structure Guarded (s : Swept) : Prop where
  named : Named s.db
  fit : IdsFit s.db
  sound : s.sweep.Sound s.db

section

variable {cfg : Config} {s s' : Swept} {e : SweepEvent}

theorem owner_of_mem_candidatesIn {dir : HostPath} {names : List FileName} {c : Candidate}
    (h : c ∈ candidatesIn dir names) : c.path.owner = some c.owner := by
  obtain ⟨name, -, hc⟩ := mem_filterMap.mp h
  obtain ⟨o, ho, rfl⟩ := map_eq_some_iff.mp hc
  rw [HostPath.owner_join, ho]

theorem Sweep.Sound.unheard {db db' : Db} {w : Sweep} (h : w.Sound db)
    (hnew : ∀ c ∈ w.candidates, Unheard db db' c) : w.Sound db' := by
  cases w with
  | idle => trivial
  | listing dirs found => exact h
  | volumeIds found vms =>
    intro c hc
    refine ⟨(h c hc).1, fun id hown hid => ?_⟩
    have hgone := (h c hc).2 id hown hid
    have hstill := hnew c hc
    simp only [Unheard, hown, Owner.orphaned, not_eq_true', contains_eq_mem,
      decide_eq_false_iff_not] at hstill
    exact hstill hgone
  | removing orphans => exact fun c hc => ⟨(h c hc).1, hnew c hc (h c hc).2⟩

theorem Guarded.step (h : Guarded s) (hok : orderly s e) (hs : sweepStep cfg s e = some s') :
    Guarded s' := by
  cases e with
  | action a =>
    obtain ⟨db, hdb, hs⟩ := bind_eq_some_iff.mp hs
    simp only [ite_none_right_eq_some] at hs
    obtain ⟨⟨hfit, hnew⟩, hs⟩ := hs
    cases hs
    obtain ⟨hplain, hdel⟩ := and_eq_true_iff.mp hok
    exact ⟨h.named.action h.fit hplain hdel hdb hfit, hfit, h.sound.unheard hnew⟩
  | scan =>
    simp only [sweepStep] at hs
    split at hs
    · cases hs
      exact ⟨h.named, h.fit, nofun⟩
    · cases hs
  | list names =>
    simp only [sweepStep] at hs
    split at hs
    · next dir dirs found hsweep =>
      cases hs
      refine ⟨h.named, h.fit, fun c hc => ?_⟩
      have hsound := h.sound
      rw [hsweep] at hsound
      rcases mem_append.mp hc with hold | hnew
      · exact hsound c hold
      · exact owner_of_mem_candidatesIn hnew
    · cases hs
  | readVmIds =>
    simp only [sweepStep] at hs
    split at hs
    · cases hs
      exact ⟨h.named, h.fit, trivial⟩
    · next found _ hsweep =>
      cases hs
      have hsound := h.sound
      rw [hsweep] at hsound
      exact ⟨h.named, h.fit, fun c hc => ⟨hsound c hc, fun _ _ hid => hid⟩⟩
    · cases hs
  | readVolumeIds =>
    simp only [sweepStep] at hs
    split at hs
    · next found vms hsweep =>
      cases hs
      have hsound := h.sound
      rw [hsweep] at hsound
      refine ⟨h.named, h.fit, fun c hc => ?_⟩
      obtain ⟨hfound, horphan⟩ := mem_filter.mp hc
      refine ⟨(hsound c hfound).1, ?_⟩
      cases hown : c.owner with
      | vm id =>
        rw [hown] at horphan
        simp only [Owner.orphaned, not_eq_true', contains_eq_mem,
          decide_eq_false_iff_not] at horphan ⊢
        exact (hsound c hfound).2 id hown horphan
      | volume id => rwa [hown] at horphan
    · cases hs
  | remove =>
    simp only [sweepStep] at hs
    split at hs
    · cases hs
      exact ⟨h.named, h.fit, trivial⟩
    · next c orphans hsweep =>
      cases hs
      have hsound := h.sound
      rw [hsweep] at hsound
      exact ⟨h.named, h.fit, fun c hc => hsound c (mem_cons_of_mem _ hc)⟩
    · cases hs

theorem Vacant.guarded (h : Vacant s) : Guarded s := by
  refine ⟨⟨?_, ?_⟩, h.fit, h.sweep ▸ trivial⟩
  · intro img himg
    rw [← mem_rows, h.images] at himg
    cases himg
  · intro vm hvm
    rw [← mem_rows, h.vms] at hvm
    cases hvm

theorem Guarded.not_refers (h : Guarded s) {p : HostPath} {o : Owner} (hown : p.owner = some o)
    (hgone : o.orphaned (allVmIds s.db) (allVolumeIds s.db)) : ¬ Refers cfg s.db p := by
  intro href
  cases href with
  | @vm vm q hvm hq hsame =>
    rw [hsame.owner_eq] at hown
    rcases h.named.vms vm hvm q hq with hnone | hvmown | ⟨id, hid, hvol⟩
    · cases hnone.symm.trans hown
    · obtain rfl := mem_unique hvmown hown
      simp [Owner.orphaned, mem_allVmIds.mpr ⟨vm, hvm, rfl⟩] at hgone
    · obtain rfl := mem_unique hvol hown
      simp [Owner.orphaned, hid] at hgone
  | @image img q himg hq hsame => simp [hsame.owner_eq, h.named.images img himg q hq] at hown
  | @volume v hv hsame =>
    rw [hsame.owner_eq, owner_fileOf h.fit hv] at hown
    cases hown
    simp [Owner.orphaned, mem_allVolumeIds.mpr ⟨v, hv, rfl⟩] at hgone

/-- When the sweep removes a file, nothing refers to it. -/
theorem sweep_spares {c : Candidate} {orphans : List Candidate}
    (hr : Reach (sweepStep cfg) (fun s e => orderly s e = true) Vacant s) (hnext : s.sweep = .removing (c :: orphans)) :
    ¬ Refers cfg s.db c.path := by
  have h : Guarded s := hr.invariant (fun _ hs => hs.guarded) fun _ _ _ hs hok hstep =>
    hs.step hok hstep
  have hsound := h.sound
  rw [hnext] at hsound
  obtain ⟨hown, hgone⟩ := hsound c (mem_cons_self ..)
  exact h.not_refers hown hgone

end

/-! ## A file that was left -/

/-- The disk that the platform made for the first VM. -/
def leftover : HostPath := storageRoot.join (.vmRoot 0 .qcow2)

/-- A VM is made from a template and deleted, and a request follows. -/
def deleteThen (w : Write) : List Action :=
  fromImageRun (storageRoot.join (.named "fw")) ++
    [.request (some alice) (.id 2) (.deleteVm 0), .reap 0, .request (some alice) (.id 2) w]

/-- Then a sweep finds its disk. -/
def sweepAfter (w : Write) : Swept :=
  final (sweepStep sampleCfg) ⟨sampleDb, .idle⟩ ((deleteThen w).map .action ++
    [.scan, .list [], .list [.vmRoot 0 .qcow2], .readVmIds, .readVolumeIds])

theorem sampleDb_vacant : Vacant ⟨sampleDb, .idle⟩ := ⟨rfl, rfl, by decide, rfl⟩

/-- Another VM is made from the template. -/
def again : Write :=
  .createFromTemplate ⟨"web", 0, ⟨none, none, none, none, none, none, [], none, none, none⟩⟩

theorem sweep_spares_new : (sweepAfter again).sweep = .removing [⟨leftover, .vm 0⟩] ∧
      ¬ Refers sampleCfg (sweepAfter again).db leftover := by
  have hnext : (sweepAfter again).sweep = .removing [⟨leftover, .vm 0⟩] := by decide
  exact ⟨hnext, sweep_spares (Reach.final (fun _ _ h => h) sampleDb_vacant (by decide) (by decide)) hnext⟩

/-- A VM is made on the old disk. -/
def recovered : Write :=
  .createVm ⟨"web", { sampleSpec with
    disks := [⟨leftover, false, .qcow2, none, none, none, none, none⟩] }⟩

/-- **The sweep removes a disk that is in use.**  Another VM is created with the disk that a deleted
VM left; the sweep takes the file for the first VM's. -/
theorem sweep_removes_used : Reach (sweepStep sampleCfg) anyStep Vacant (sweepAfter recovered) ∧
      (sweepAfter recovered).sweep = .removing [⟨leftover, .vm 0⟩] ∧
      Refers sampleCfg (sweepAfter recovered).db leftover := by
  refine ⟨Reach.final_anyStep sampleDb_vacant (by decide), by decide, ?_⟩
  obtain ⟨vm, hvm, hpath⟩ : ∃ vm ∈ (sweepAfter recovered).db.vms.rows, leftover ∈ vm.spec.paths := by
    decide
  exact .vm hvm hpath ⟨rfl, rfl⟩

end VQuasar.Reclaim
