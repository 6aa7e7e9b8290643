import VQuasar.Tenancy.Frame
import VQuasar.Tenancy.Paths

/-!
# Whose files a project's requests touch

Callers whose bindings all name project `P`, and the agents that run `P`'s guests, should not touch a
file that backs a volume, a VM disk or a private image of another project (`Db.foreignFile`).  The
platform generates the names of volume files and VM disks from ids, so those of one project are never
those of another; but a caller may name any file under the roots as a disk, as the source of a disk, or
as the source of an image, and `pathsafe.rs` asks for the root only.  In every run in which the files
that callers name are not another project's (`ownPaths`), no operation touches one:

    Reach (step cfg) (by P's callers, ownPaths) (· = db₀) db → FilesApart cfg P db₀ db   (files_apart)

What the invariant carries (`Clear`) is about names, so that it does not matter in which directory a
pool has put a file.
-/

namespace VQuasar.Tenancy

open List Option HostPath
open IdTable (id_lt eq_of_id mem_updated mem_delete mem_insert)

/-! ## The files of another project -/

def HostPath.fileName (p : HostPath) : Option FileName :=
  match p.components.getLast? with
  | some (.normal name) => some name
  | _ => none

/-- The file backs a volume, a generated VM disk or a private image of a project other than `P`. -/
def Db.foreignFile (db : Db) (cfg : Config) (P : Id) (p : HostPath) : Bool :=
  (db.volumes.rows.any fun v => v.project != P && p == db.fileOf cfg v) ||
  (db.vms.rows.any fun vm => vm.project != P &&
    vm.spec.disks.any fun d => p == d.path && p.fileName.bind FileName.ofVm == some vm.id) ||
  db.images.rows.any fun i => i.project.any (· != P) && p == i.sourcePath

/-- Since `db`, nothing has been done to a file that was another project's there. -/
def FilesApart (cfg : Config) (P : Id) (db d : Db) : Prop :=
  ∃ ops, d.files = ops ++ db.files ∧ ∀ op ∈ ops, ∀ p ∈ op.paths, db.foreignFile cfg P p = false

/-- At the start: what `P` may use is no other project's file, and no private image of another
project lies where a disk or a volume of `P` is, or will be. -/
structure Db.Apart (db : Db) (cfg : Config) (P : Id) : Prop where
  images : ∀ i ∈ db.images, i.project = none ∨ i.project = some P →
    ∀ p ∈ i.sourcePath :: i.boot.files, db.foreignFile cfg P p = false
  templates : ∀ t ∈ db.templates, t.project = P → t.image < db.images.next ∧
    ∀ i ∈ db.images, i.id = t.image → i.project = none ∨ i.project = some P
  vms : ∀ vm ∈ db.vms, vm.project = P → ∀ p ∈ vm.spec.paths, db.foreignFile cfg P p = false
  volumeNames : ∀ i ∈ db.images, i.project ≠ none → i.project ≠ some P → ∀ id ext,
    i.sourcePath.fileName = some (.volume id ext) →
      id < db.volumes.next ∧ ∀ v ∈ db.volumes, v.id = id → v.project ≠ P
  vmNames : ∀ i ∈ db.images, i.project ≠ none → i.project ≠ some P → ∀ (name : FileName) (id : Id),
    i.sourcePath.fileName = some name → name.ofVm = some id →
      id < db.vms.next ∧ ∀ vm ∈ db.vms, vm.id = id → vm.project ≠ P

/-! ## The condition -/

/-- The files that a request names are not another project's in `db₀`. -/
def ownPaths (cfg : Config) (P : Id) (db₀ : Db) : Action → Bool
  | .request _ _ (.createVm body) => body.spec.paths.all fun p => !db₀.foreignFile cfg P p
  | .request _ _ (.createImage body) =>
    (body.sourcePath :: body.boot.files).all fun p => !db₀.foreignFile cfg P p
  | .request _ _ (.updateImage _ body) =>
    (body.sourcePath :: body.boot.files).all fun p => !db₀.foreignFile cfg P p
  | _ => true

/-- Requests are made by the callers, and agents ready VMs of `P`; the rest of the reconcile loop is
free. -/
def ByProject (P : Id) (callers : Claims → Prop) (db : Db) : Action → Prop
  | .request claims _ _ => ∃ c, claims = some c ∧ callers c
  | .ready vm _ => ∀ r ∈ db.vms, r.id = vm → r.project = P
  | _ => True

/-! ## Names that are `P`'s -/

/-- The image is given out, and if it is still there it is shared or of `P`. -/
structure ImageFor (images : IdTable Image) (P image : Id) : Prop where
  given : image < images.next
  own : ∀ i ∈ images, i.id = image → i.project = none ∨ i.project = some P

/-- What `P` has, and what will be made for it, is clear of the files in `F`. -/
structure Clear (F : HostPath → Bool) (P : Id) (db : Db) : Prop where
  images : ∀ i ∈ db.images, i.project = none ∨ i.project = some P →
    ∀ p ∈ i.sourcePath :: i.boot.files, F p = false
  templates : ∀ t ∈ db.templates, t.project = P → ImageFor db.images P t.image
  vms : ∀ vm ∈ db.vms, vm.project = P → ∀ p ∈ vm.spec.paths, F p = false
  volumeNames : ∀ id, (db.volumes.next ≤ id ∨ ∃ v ∈ db.volumes, v.id = id ∧ v.project = P) →
    ∀ dir ext, F (volumePath dir id ext) = false
  vmNames : ∀ id, (db.vms.next ≤ id ∨ ∃ vm ∈ db.vms, vm.id = id ∧ vm.project = P) →
    ∀ (dir : HostPath) (name : FileName), name.ofVm = some id → F (dir.join name) = false

section

variable {cfg : Config} {P : Id} {F : HostPath → Bool} {db d d' : Db} {u : AuthUser} {w : Write}

theorem HostPath.fileName_join (dir : HostPath) (name : FileName) :
    (dir.join name).fileName = some name := by
  simp [fileName, join]

/-- At the start, generated names differ because ids do. -/
theorem Db.Apart.clear (h : db.Apart cfg P) : Clear (db.foreignFile cfg P) P db := by
  refine ⟨h.images, fun t ht hP => ⟨(h.templates t ht hP).1, (h.templates t ht hP).2⟩, h.vms, ?_, ?_⟩
  · intro id hid dir ext
    by_contra hforeign
    have hforeign : db.foreignFile cfg P (dir.join (.volume id ext)) := by
      simpa [volumePath] using hforeign
    simp only [Db.foreignFile, Bool.or_eq_true, List.any_eq_true, Bool.and_eq_true, bne_iff_ne,
      beq_iff_eq, fileName_join] at hforeign
    rcases hforeign with (⟨v, hv, hne, hfile⟩ | ⟨vm, -, -, d, -, -, hname⟩) | ⟨i, hi, hP, hfile⟩
    · have hname := congrArg fileName hfile
      rw [fileName_join, Db.fileOf, volumePath, fileName_join] at hname
      cases hname
      rcases hid with hid | ⟨v', hv', hid', hP⟩
      · exact absurd (id_lt hv) (Nat.not_lt.mpr hid)
      · exact hne (eq_of_id hv' hv hid' ▸ hP)
    · cases hname
    · obtain ⟨q, hq, hne⟩ := (any_eq_true _ _).mp hP
      have hname : i.sourcePath.fileName = some (.volume id ext) := by
        rw [← hfile, fileName_join]
      obtain ⟨hlt, hother⟩ := h.volumeNames i hi (by simp [hq])
        (by simpa [hq] using hne) id ext hname
      rcases hid with hid | ⟨v, hv, hid, hP⟩
      · exact absurd hlt (Nat.not_lt.mpr hid)
      · exact hother v hv hid hP
  · intro id hid dir name hvm
    by_contra hforeign
    have hforeign : db.foreignFile cfg P (dir.join name) := by simpa using hforeign
    simp only [Db.foreignFile, Bool.or_eq_true, List.any_eq_true, Bool.and_eq_true, bne_iff_ne,
      beq_iff_eq, fileName_join] at hforeign
    rcases hforeign with (⟨v, hv, hne, hfile⟩ | ⟨vm, hmem, hne, d, -, -, hname⟩) | ⟨i, hi, hP, hfile⟩
    · have hname := congrArg fileName hfile
      rw [fileName_join, Db.fileOf, volumePath, fileName_join] at hname
      cases hname
      cases hvm
    · have heq : id = vm.id := some_inj.mp (hvm.symm.trans hname)
      rcases hid with hid | ⟨vm', hmem', hid', hP⟩
      · exact absurd (id_lt hmem) (Nat.not_lt.mpr (hid.trans_eq heq))
      · exact hne (eq_of_id hmem' hmem (hid'.trans heq) ▸ hP)
    · obtain ⟨q, hq, hne⟩ := (any_eq_true _ _).mp hP
      have hname : i.sourcePath.fileName = some name := by rw [← hfile, fileName_join]
      obtain ⟨hlt, hother⟩ := h.vmNames i hi (by simp [hq])
        (by simpa [hq] using hne) name id hname hvm
      rcases hid with hid | ⟨vm, hmem, hid, hP⟩
      · exact absurd hlt (Nat.not_lt.mpr hid)
      · exact hother vm hmem hid hP

variable {image : Id} {db₀ : Db} {callers : Claims → Prop}

theorem ImageFor.descends {t t' : IdTable Image} (h : ImageFor t P image)
    (hd : IdTable.Descends Image.project t t') : ImageFor t' P image := by
  refine ⟨lt_of_lt_of_le h.given hd.next_le, fun i hi hid => ?_⟩
  obtain ⟨i₀, hi₀, hid₀, hown⟩ := hd.old i hi (lt_of_eq_of_lt hid h.given)
  rw [← hown]
  exact h.own i₀ hi₀ (hid₀.trans hid)

theorem imageFor_of_visible (h : db.imageVisible (.project P) image) :
    ImageFor db.images P image := by
  obtain ⟨i, hi⟩ := isSome_iff_exists.mp h
  obtain ⟨hmem, rfl, hsees⟩ := Db.visibleImage_eq_some.mp hi
  refine ⟨id_lt hmem, fun i' hi' hid => ?_⟩
  rw [eq_of_id hi' hmem hid]
  exact (Scope.sees_project _ _).mp hsees

/-! ## One statement -/

namespace Clear

theorem fileOf (h : Clear F P db) {v : Volume} (hv : v ∈ db.volumes)
    (hown : (Scope.project P).owns v.project) : F (db.fileOf cfg v) = false :=
  h.volumeNames v.id (Or.inr ⟨v, hv, rfl, (Scope.owns_project _ _).mp hown⟩) _ _

variable {claims : Option Claims} {ref : ProjectRef} {db₀ : Db}

/-- Whatever a request in the scope of `P` puts into the spec of a VM of `P` is clear. -/
theorem origin {vm : Id} {p : HostPath}
    (h : Clear (db₀.foreignFile cfg P) P db) (hok : ownPaths cfg P db₀ (.request claims ref w))
    (hvm : db.vms.next ≤ vm ∨ ∃ r ∈ db.vms, r.id = vm ∧ r.project = P)
    (ho : PathOrigin cfg db (.project P) vm w p) : db₀.foreignFile cfg P p = false := by
  cases ho with
  | checked hp hwithin => simpa using all_eq_true.mp hok p hp
  | source hd hp =>
    have hmem := mem_paths.mpr (Or.inr ⟨_, hd, Or.inr hp⟩)
    simpa using all_eq_true.mp hok p hmem
  | made hpool hname => exact h.vmNames vm hvm _ _ hname
  | templateImage ht hown himg hid hp =>
    have hfor := h.templates _ ht ((Scope.owns_project _ _).mp hown)
    exact h.images _ himg (hfor.own _ himg hid) p hp
  | volumeImage himg hsees hp =>
    exact h.images _ himg ((Scope.sees_project _ _).mp hsees) p (mem_cons_of_mem _ hp)
  | volume hv hown => exact h.fileOf hv hown
  | kept hr hid hp =>
    rcases hvm with hnew | ⟨r', hr', hid', hP⟩
    · exact absurd (id_lt hr) (Nat.not_lt.mpr (hnew.trans_eq hid.symm))
    · have hrow := eq_of_id hr hr' (Eq.trans hid hid'.symm)
      exact h.vms _ hr (hrow ▸ hP) p hp

theorem touches (h : Clear F P db) {op : FileOp} (ht : Touches cfg db (.project P) op) :
    ∀ p ∈ op.paths, F p = false := by
  have hfile : ∀ {path : HostPath}, OwnFile cfg db (.project P) path → F path = false := by
    intro path ho
    cases ho with
    | old hv hown => exact h.fileOf hv hown
    | new dir format => exact h.volumeNames _ (Or.inl le_rfl) dir format
  intro p hp
  cases ht with
  | clone hpath himg hsees =>
    simp only [FileOp.paths, mem_cons, not_mem_nil, or_false] at hp
    rcases hp with rfl | rfl
    · exact h.images _ himg ((Scope.sees_project _ _).mp hsees) _ mem_cons_self
    · exact hfile hpath
  | write hpath | unlink hpath =>
    rw [mem_singleton.mp hp]
    exact hfile hpath
  | unlinkImage himg hown =>
    rw [mem_singleton.mp hp]
    have hP := (Scope.ownsShareable_project _ _).mp hown
    exact h.images _ himg (Or.inr hP) _ mem_cons_self

section

variable (h : Clear F P d)
include h

theorem volumeNames_of (hnext : d.volumes.next ≤ d'.volumes.next)
    (hrows : ∀ v' ∈ d'.volumes, ∃ v ∈ d.volumes, v.id = v'.id ∧ v.project = v'.project) :
    ∀ id, (d'.volumes.next ≤ id ∨ ∃ v ∈ d'.volumes, v.id = id ∧ v.project = P) →
      ∀ dir ext, F (volumePath dir id ext) = false := by
  intro id hid
  refine h.volumeNames id ?_
  rcases hid with hnew | ⟨v', hv', hid, hP⟩
  · exact Or.inl (hnext.trans hnew)
  · obtain ⟨v, hv, hid', hproject⟩ := hrows v' hv'
    exact Or.inr ⟨v, hv, hid'.trans hid, hproject.trans hP⟩

theorem vmNames_of (hnext : d.vms.next ≤ d'.vms.next)
    (hrows : ∀ vm' ∈ d'.vms, ∃ vm ∈ d.vms, vm.id = vm'.id ∧ vm.project = vm'.project) :
    ∀ id, (d'.vms.next ≤ id ∨ ∃ vm ∈ d'.vms, vm.id = id ∧ vm.project = P) →
      ∀ (dir : HostPath) (name : FileName), name.ofVm = some id → F (dir.join name) = false := by
  intro id hid
  refine h.vmNames id ?_
  rcases hid with hnew | ⟨vm', hvm', hid, hP⟩
  · exact Or.inl (hnext.trans hnew)
  · obtain ⟨vm, hvm, hid', hproject⟩ := hrows vm' hvm'
    exact Or.inr ⟨vm, hvm, hid'.trans hid, hproject.trans hP⟩

theorem updateVms {p : Vm → Bool} {f : Vm → Vm} {hf : ∀ r, (f r).id = r.id}
    (hsame : ∀ r, (f r).project = r.project ∧ (f r).spec = r.spec := by exact fun _ => ⟨rfl, rfl⟩) :
    Clear F P { d with vms := d.vms.update p f hf } := by
  have hrows : ∀ vm' ∈ d.vms.update p f hf, ∃ vm ∈ d.vms, vm.id = vm'.id ∧
      vm.project = vm'.project ∧ vm.spec = vm'.spec := by
    intro vm' hvm'
    obtain ⟨r, hr, rfl⟩ := mem_updated rfl hvm'
    refine ⟨r, hr, ?_⟩
    split
    · exact ⟨(hf r).symm, (hsame r).1.symm, (hsame r).2.symm⟩
    · exact ⟨rfl, rfl, rfl⟩
  refine { h with vms := fun vm' hvm' hP => ?_, vmNames := h.vmNames_of le_rfl fun vm' hvm' => ?_ }
  · obtain ⟨vm, hvm, -, hproject, hspec⟩ := hrows vm' hvm'
    exact hspec ▸ h.vms vm hvm (hproject.trans hP)
  · obtain ⟨vm, hvm, hid, hproject, -⟩ := hrows vm' hvm'
    exact ⟨vm, hvm, hid, hproject⟩

theorem deleteVmRow (id : Id) : Clear F P (d.deleteVmRow id) := by
  refine { h with
    vms := fun vm hvm => h.vms vm (mem_delete.mp hvm).1
    vmNames := h.vmNames_of le_rfl fun vm hvm => ⟨vm, (mem_delete.mp hvm).1, rfl, rfl⟩
    volumeNames := h.volumeNames_of le_rfl fun v hv => ?_ }
  obtain ⟨v₀, hv₀, rfl⟩ := mem_updated rfl hv
  refine ⟨v₀, hv₀, ?_⟩
  split <;> exact ⟨rfl, rfl⟩

end

theorem step (hi : Clear (db₀.foreignFile cfg P) P db)
    (hok : ownPaths cfg P db₀ (.request claims ref w)) (hd : db.Descends d)
    (h : Clear (db₀.foreignFile cfg P) P d) (hs : Step cfg (.project P) u w db d d') :
    Clear (db₀.foreignFile cfg P) P d' := by
  cases hs with
  | insertVm hl =>
    refine { h with vms := fun vm hvm hP => ?_, vmNames := fun id hid => ?_ }
    · rcases mem_insert.mp hvm with hold | rfl
      · exact h.vms vm hold hP
      · exact fun p hp => hi.origin hok (Or.inl le_rfl) (hl.paths p hp)
    · refine h.vmNames id ?_
      rcases hid with hnew | ⟨vm, hvm, hid, hP⟩
      · exact Or.inl (Nat.le_of_succ_le hnew)
      · rcases mem_insert.mp hvm with hold | rfl
        · exact Or.inr ⟨vm, hold, hid, hP⟩
        · exact Or.inl (Nat.le_of_eq hid)
  | removeVm hvm => exact h.deleteVmRow _
  | @respec vm name spec hvm hr =>
    refine { h with
      vms := fun vm' hvm' hP => ?_
      vmNames := h.vmNames_of le_rfl fun vm' hvm' => ?_ }
    · obtain ⟨r, hr', rfl⟩ := mem_updated rfl hvm'
      by_cases hid : (r.id == vm.id) = true
      · rw [if_pos hid] at hP ⊢
        have hproject : r.project = vm.project := hd.vms.own_eq hr' hvm (eq_of_beq hid)
        exact fun p hp => hi.origin hok (Or.inr ⟨vm, hvm, rfl, hproject.symm.trans hP⟩)
          (hr.paths hvm p hp)
      · rw [if_neg hid] at hP ⊢
        exact h.vms r hr' hP
    · obtain ⟨r, hr', rfl⟩ := mem_updated rfl hvm'
      refine ⟨r, hr', ?_⟩
      split <;> exact ⟨rfl, rfl⟩
  | phase | drainPhase | touch => exact h.updateVms
  | createVolume =>
    refine { h with volumeNames := fun id hid => h.volumeNames id ?_ }
    rcases hid with hnew | ⟨v, hv, hid, hP⟩
    · exact Or.inl (Nat.le_of_succ_le hnew)
    · rcases mem_insert.mp hv with hold | rfl
      · exact Or.inr ⟨v, hold, hid, hP⟩
      · exact Or.inl (Nat.le_of_eq hid)
  | finalizeVolume hv | attachment hv =>
    refine { h with volumeNames := h.volumeNames_of le_rfl fun v hv => ?_ }
    obtain ⟨v₀, hv₀, rfl⟩ := mem_updated rfl hv
    refine ⟨v₀, hv₀, ?_⟩
    split <;> exact ⟨rfl, rfl⟩
  | deleteVolumes hp =>
    exact { h with
      volumeNames := h.volumeNames_of le_rfl fun v hv =>
        ⟨v, (mem_delete.mp hv).1, rfl, rfl⟩ }
  | insertImage hw hcheck =>
    subst hw
    refine { h with images := fun i hi' hP => ?_, templates := fun t ht hP => ?_ }
    · rcases mem_insert.mp hi' with hold | rfl
      · exact h.images i hold hP
      · exact fun p hp => by simpa using all_eq_true.mp hok p hp
    · exact (h.templates t ht hP).descends (.insert rfl rfl rfl)
  | @updateImage id body format hw hown hcheck =>
    subst hw
    refine { h with images := fun i hi' hP => ?_, templates := fun t ht hP => ?_ }
    · obtain ⟨r, hr, rfl⟩ := mem_updated rfl hi'
      by_cases hid : (r.id == id) = true
      · rw [if_pos hid]
        exact fun p hp => by simpa using all_eq_true.mp hok p hp
      · rw [if_neg hid] at hP ⊢
        exact h.images r hr hP
    · exact (h.templates t ht hP).descends .update
  | deleteImage hown =>
    exact { h with
      images := fun i hi' => h.images i (mem_delete.mp hi').1
      templates := fun t ht hP => (h.templates t ht hP).descends (.delete _) }
  | insertTemplate hw hf hnet himage =>
    refine { h with templates := fun t ht hP => ?_ }
    rcases mem_insert.mp ht with hold | rfl
    · exact h.templates t hold hP
    · exact (imageFor_of_visible himage).descends hd.images
  | @updateTemplate t₀ body f hw hf hnet ht₀ hown himage =>
    refine { h with templates := fun t ht hP => ?_ }
    obtain ⟨r, hr, rfl⟩ := mem_updated rfl ht
    by_cases hid : (r.id == t₀.id) = true
    · rw [if_pos hid]
      exact (imageFor_of_visible himage).descends hd.images
    · rw [if_neg hid] at hP ⊢
      exact h.templates r hr hP
  | deleteTemplate hown =>
    exact { h with templates := fun t ht => h.templates t (mem_delete.mp ht).1 }
  | deleteNetwork hw hown =>
    refine { h with templates := fun t ht hP => ?_ }
    obtain ⟨r, hr, rfl⟩ := mem_updated rfl ht
    split at hP
    · rw [if_pos ‹_›]
      exact h.templates r hr hP
    · rw [if_neg ‹_›]
      exact h.templates r hr hP
  | _ => exact { h with }

end Clear

theorem FilesApart.step (hi : Clear (db₀.foreignFile cfg P) P db)
    (h : FilesApart cfg P db₀ d) (hs : Step cfg (.project P) u w db d d') :
    FilesApart cfg P db₀ d' := by
  cases hs with
  | @file op ht =>
    obtain ⟨ops, hfiles, hclear⟩ := h
    refine ⟨op :: ops, congrArg (op :: ·) hfiles, fun op' hop' => ?_⟩
    rcases mem_cons.mp hop' with rfl | hold
    · exact hi.touches ht
    · exact hclear op' hold
  | _ => exact h

/-! ## Whole requests, and runs -/

theorem Clear.steps {claims : Option Claims} {ref : ProjectRef}
    (hi : Clear (db₀.foreignFile cfg P) P db)
    (hok : ownPaths cfg P db₀ (.request claims ref w)) (hf : FilesApart cfg P db₀ db)
    (hs : Steps cfg (.project P) u w db db d) :
    Clear (db₀.foreignFile cfg P) P d ∧ FilesApart cfg P db₀ d := by
  induction hs with
  | refl => exact ⟨hi, hf⟩
  | tail hsteps hstep ih =>
    exact ⟨Clear.step hi hok (Db.Descends.steps hsteps) ih.1 hstep, ih.2.step hi hstep⟩

theorem Tenants.of_same (h : Tenants cfg P callers db)
    (husers : d.users = db.users) (hroles : d.userRoles = db.userRoles)
    (hgroups : d.groupRoles = db.groupRoles) : Tenants cfg P callers d := by
  refine ⟨?_, fun c hc => ⟨(h.bound c hc).notBootstrap, ?_, ?_⟩⟩
  · rw [Db.UsersKeyed, hroles, husers]
    exact h.keyed
  · rw [hroles, husers]
    exact (h.bound c hc).direct
  · rw [hgroups]
    exact (h.bound c hc).groups

/-- What is carried along a run. -/
structure Tidy (cfg : Config) (P : Id) (callers : Claims → Prop) (db₀ db : Db) : Prop where
  tenants : Tenants cfg P callers db
  clear : Clear (db₀.foreignFile cfg P) P db
  files : FilesApart cfg P db₀ db

theorem Tidy.action {a : Action} (hauth : cfg.authenticator) (h : Tidy cfg P callers db₀ db)
    (hby : ByProject P callers db a) (hok : ownPaths cfg P db₀ a)
    (hs : Tenancy.step cfg db a = some d) : Tidy cfg P callers db₀ d := by
  cases step_acts hs with
  | request claims ref w =>
    obtain ⟨c, rfl, hc⟩ := hby
    have hb := h.tenants.bound c hc
    obtain ⟨u, hsteps⟩ := serve_steps (r := ⟨c, ref, w⟩) hauth h.tenants.keyed hb
    obtain ⟨t, ht, -, -⟩ := login_users db hb.notBootstrap
    rw [ht] at hsteps
    have hclear : Clear (db₀.foreignFile cfg P) P { db with users := t } := { h.clear with }
    obtain ⟨hclear', hfiles'⟩ := Clear.steps hclear hok h.files hsteps
    exact ⟨h.tenants.serve (r := ⟨c, ref, w⟩) hauth hc, hclear', hfiles'⟩
  | phoneHome vm token ip =>
    have hip : Clear (db₀.foreignFile cfg P) P (db.setVmIp vm ip) := h.clear.updateVms
    exact ⟨h.tenants.of_same rfl rfl rfl, { hip with }, h.files⟩
  | unheard => exact h
  | bootstrapSign => exact ⟨h.tenants.of_same rfl rfl rfl, { h.clear with }, h.files⟩
  | observe => exact ⟨h.tenants.of_same rfl rfl rfl, h.clear.updateVms, h.files⟩
  | @ready vm found r hr =>
    refine ⟨h.tenants.of_same rfl rfl rfl, { h.clear with }, ?_⟩
    obtain ⟨hmem, hid⟩ := IdTable.get_eq_some.mp hr
    obtain ⟨ops, hfiles, hclear⟩ := h.files
    refine ⟨(r.spec.ready vm found).reverse ++ ops, ?_, fun op hop => ?_⟩
    · rw [hfiles, append_assoc]
    · rcases mem_append.mp hop with hnew | hold
      · have hpaths := VirtualMachineSpec.ready_paths op (mem_reverse.mp hnew)
        exact fun p hp => h.clear.vms r hmem (hby r hmem hid) p (hpaths p hp)
      · exact hclear op hold
  | @reap vm => exact ⟨h.tenants.of_same rfl rfl rfl, h.clear.deleteVmRow vm, h.files⟩

end

/-- **Tenant file isolation.**  By requests of callers bound in `P` only that name no file of
another project, no file that backed another project's volume, VM disk or private image at the start
is attached, cloned from, written or unlinked. -/
theorem files_apart {cfg : Config} {P : Id} {callers : Claims → Prop} {db₀ db : Db}
    (hauth : cfg.authenticator) (htenants : Tenants cfg P callers db₀) (hapart : db₀.Apart cfg P)
    (h : Runs.Reach (step cfg) (fun db a => ByProject P callers db a ∧ ownPaths cfg P db₀ a = true)
      (fun db => db = db₀) db) : FilesApart cfg P db₀ db := by
  have hstart : ∀ d, d = db₀ → Tidy cfg P callers db₀ d := by
    rintro d rfl
    exact ⟨htenants, hapart.clear, [], rfl, fun _ hop => nomatch hop⟩
  refine (Runs.Reach.invariant hstart ?_ h).files
  exact fun d d' a hi hok hs => hi.action hauth hok.1 hok.2 hs

/-! ## A disk at another project's volume -/

theorem snapshotDb_apart : snapshotDb.Apart sampleCfg 2 where
  images := fun _ hi => nomatch hi
  templates := fun _ ht => nomatch ht
  vms := fun _ hvm => nomatch hvm
  volumeNames := fun _ hi => nomatch hi
  vmNames := fun _ hi => nomatch hi

def nothingFound : Found := ⟨fun _ => false, fun _ => false⟩

/-- A VM with one disk, and its first start. -/
def diskRun (path : HostPath) : List Action :=
  [.request (some alice) (.id 2) (.createVm ⟨"web", { sampleSpec with
      disks := [⟨path, false, .qcow2, none, none, none, none, none⟩] }⟩),
    .ready 0 nothingFound]

def byAlice (db : Db) : Action → Bool
  | .request claims _ _ => claims == some alice
  | .ready vm _ => db.vms.rows.all fun r => r.id != vm || r.project == 2
  | _ => true

theorem byAlice_byProject {db : Db} {a : Action} (h : byAlice db a) :
    ByProject 2 (fun c => c = alice) db a := by
  cases a with
  | request claims ref w => exact ⟨alice, eq_of_beq h, rfl⟩
  | ready vm found =>
    intro r hr hid
    have hrow := all_eq_true.mp h r hr
    simpa [hid] using hrow
  | _ => trivial

theorem files_apart_own_disk :
    (Runs.final (step sampleCfg) snapshotDb (diskRun (storageRoot.join (.named "own")))).files.length
      = 2 ∧ FilesApart sampleCfg 2 snapshotDb
      (Runs.final (step sampleCfg) snapshotDb (diskRun (storageRoot.join (.named "own")))) := by
  refine ⟨by decide, files_apart rfl (sample_tenants rfl rfl rfl) snapshotDb_apart
    (Runs.Reach.final (fun db a hok => ?_) rfl
      (by decide : Runs.execOk (step sampleCfg)
        (fun db a => byAlice db a && ownPaths sampleCfg 2 snapshotDb a) _ _ = true) (by decide))⟩
  obtain ⟨hby, hown⟩ := Bool.and_eq_true_iff.mp hok
  exact ⟨byAlice_byProject hby, hown⟩

/-- **A disk may be another project's volume.**  `ensure_spec_within` finds the file under the root,
and the agent attaches it. -/
theorem foreign_volume_attached : sampleCfg.tenancyEnabled ∧ sampleCfg.authenticator ∧
    Tenants sampleCfg 2 (fun c => c = alice) snapshotDb ∧ snapshotDb.Apart sampleCfg 2 ∧
    ∃ db, Runs.Reach (step sampleCfg) (ByProject 2 fun c => c = alice)
      (fun db => db = snapshotDb) db ∧ ¬ FilesApart sampleCfg 2 snapshotDb db := by
  refine ⟨rfl, rfl, sample_tenants rfl rfl rfl, snapshotDb_apart,
    Runs.final (step sampleCfg) snapshotDb (diskRun (storageRoot.join (.volume 1 .qcow2))), ?_, ?_⟩
  · exact Runs.Reach.final (fun _ _ => byAlice_byProject) rfl
      (by decide : Runs.execOk (step sampleCfg) byAlice _ _ = true) (by decide)
  · rintro ⟨ops, hfiles, hclear⟩
    have hattached : FileOp.attach 0 (storageRoot.join (.volume 1 .qcow2)) ∈
        (Runs.final (step sampleCfg) snapshotDb
          (diskRun (storageRoot.join (.volume 1 .qcow2)))).files := by decide
    rw [hfiles] at hattached
    rcases mem_append.mp hattached with hop | hold
    · exact absurd (hclear _ hop _ mem_cons_self) (by decide)
    · cases hold

end VQuasar.Tenancy
