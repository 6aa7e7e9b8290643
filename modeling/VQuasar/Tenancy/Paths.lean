import VQuasar.Tenancy.References

/-!
# Where the files of a VM are

The agent opens the files a spec names with privilege, so every one of them should lie under a
configured root (`HostPath.Within`).  `ensure_spec_within` says so of the boot files and the disks of a
spec that a caller sends to `create`, but not of the images that disks are cloned from, and the boot
files of an image are stored as they come, to be put into specs by `create_from_template` and
`create_from_volume`.  In every run in which those are right (`withinRoots`), every spec is confined and
an agent touches confined files only:

    Reach (step cfg) withinRoots (Bare cfg) db → PathsConfined cfg db        (paths_confined)
-/

namespace VQuasar.Tenancy

open List Option HostPath
open IdTable (get_eq_some mem_insert mem_delete mem_updated mem_rows)

variable {spec : VirtualMachineSpec} {p : HostPath} {vm : Id}

/-! ## The property -/

/-- Absolute, free of `.` and `..`, and under one of the roots, component by component. -/
structure HostPath.Within (p : HostPath) (roots : List HostPath) : Prop where
  absolute : p.absolute
  plain : ∀ c ∈ p.components, c ≠ .curDir ∧ c ≠ .parentDir
  under : ∃ root ∈ roots, root.absolute ∧ root.components <+: p.components

def DiskSpec.paths (d : DiskSpec) : List HostPath := d.path :: d.source.toList

/-- Every path the agent opens for a spec. -/
def VirtualMachineSpec.paths (spec : VirtualMachineSpec) : List HostPath :=
  spec.boot.files ++ spec.disks.flatMap DiskSpec.paths

def FileOp.paths : FileOp → List HostPath
  | .attach _ path => [path]
  | .clone source path => [source, path]
  | .write path => [path]
  | .unlink path => [path]

/-- Every stored spec is confined, and so is every file an agent touches when it is sent one. -/
structure PathsConfined (cfg : Config) (db : Db) : Prop where
  stored : ∀ vm ∈ db.vms, ∀ p ∈ vm.spec.paths, p.Within cfg.allowedPaths
  sent : ∀ vm found db', step cfg db (.ready vm found) = some db' →
    ∃ ops, db'.files = ops ++ db.files ∧ ∀ op ∈ ops, ∀ p ∈ op.paths, p.Within cfg.allowedPaths

/-- `HostPath.Within`, as it is computed -/
def HostPath.within (roots : List HostPath) (p : HostPath) : Bool :=
  p.absolute && p.components.all (fun c => c != .curDir && c != .parentDir) &&
    roots.any p.startsWith

/-- The paths of a request that its handler stores unchecked lie under the roots. -/
def withinRoots (cfg : Config) : Action → Bool
  | .request _ _ (.createVm body) =>
    body.spec.disks.all fun d => d.source.all (within cfg.allowedPaths)
  | .request _ _ (.createImage body) => body.boot.files.all (within cfg.allowedPaths)
  | .request _ _ (.updateImage _ body) => body.boot.files.all (within cfg.allowedPaths)
  | _ => true

/-! ## The checks -/

section

variable {roots : List HostPath} {p : HostPath} {x : Unit}

theorem HostPath.within_iff : p.within roots ↔ p.Within roots := by
  have hunder : roots.any p.startsWith ↔
      ∃ root ∈ roots, p.absolute = root.absolute ∧ root.components <+: p.components := by
    simp [startsWith, List.any_eq_true]
  have hplain : p.components.all (fun c => c != .curDir && c != .parentDir) = true ↔
      ∀ c ∈ p.components, c ≠ .curDir ∧ c ≠ .parentDir := by
    simp [List.all_eq_true]
  unfold within
  rw [Bool.and_eq_true, Bool.and_eq_true, hunder, hplain]
  constructor
  · rintro ⟨⟨habs, hplain⟩, root, hroot, heq, hpre⟩
    exact ⟨habs, hplain, root, hroot, heq ▸ habs, hpre⟩
  · rintro ⟨habs, hplain, root, hroot, hrootabs, hpre⟩
    exact ⟨⟨habs, hplain⟩, root, hroot, habs.trans hrootabs.symm, hpre⟩

theorem ensureWithin_ok {what : String} (h : ensureWithin p roots what = .ok x) :
    p.Within roots := by
  obtain ⟨habs, h⟩ := ensure_bind.mp h
  obtain ⟨hplain, h⟩ := ensure_bind.mp h
  have hunder := ensure_eq_ok.mp h
  refine within_iff.mp ?_
  rw [within, habs, hplain, hunder]
  rfl

theorem ensureBootWithin_ok {boot : BootSpec} (h : ensureBootWithin boot roots = .ok x) :
    ∀ p ∈ boot.files, p.Within roots := by
  intro p hp
  cases boot with
  | directKernel kernel initramfs cmdline =>
    obtain ⟨_, hkernel, h⟩ := bind_eq_ok.mp h
    rcases mem_cons.mp hp with rfl | hp
    · exact ensureWithin_ok hkernel
    cases initramfs with
    | none => cases hp
    | some i =>
      rw [mem_singleton.mp hp]
      exact ensureWithin_ok h
  | firmware path =>
    rw [mem_singleton.mp hp]
    exact ensureWithin_ok h

theorem ensureDisksWithin_ok {ds : List DiskSpec} {i : Nat}
    (h : ensureDisksWithin roots ds i = .ok x) : ∀ d ∈ ds, d.path.Within roots := by
  induction ds generalizing i with
  | nil => exact fun _ hd => nomatch hd
  | cons d ds ih =>
    obtain ⟨_, hpath, h⟩ := bind_eq_ok.mp h
    intro d' hd'
    rcases mem_cons.mp hd' with rfl | hd'
    · exact ensureWithin_ok hpath
    · exact ih h d' hd'

theorem HostPath.Within.join (h : p.Within roots) (name : FileName) :
    (p.join name).Within roots := by
  obtain ⟨root, hroot, habs, hpre⟩ := h.under
  refine ⟨h.absolute, fun c hc => ?_, root, hroot, habs, hpre.trans (prefix_append _ _)⟩
  rcases mem_append.mp hc with hold | hnew
  · exact h.plain c hold
  · rw [mem_singleton.mp hnew]
    exact ⟨nofun, nofun⟩

end

/-! ## Where the paths of a stored spec come from -/

/-- The VM that a disk was made for, by its file name. -/
def FileName.ofVm : FileName → Option Id
  | .vmDisk vm _ _ => some vm
  | .vmRoot vm _ => some vm
  | .vmAdded vm _ _ => some vm
  | _ => none

/-- What a path in the spec that the request `w` stores for `vm` can be. -/
inductive PathOrigin (cfg : Config) (db : Db) (s : Scope) (vm : Id) : Write → HostPath → Prop
  /-- of the caller, and checked -/
  | checked {body : CreateVm} {p : HostPath} (hp : p ∈ body.spec.paths)
      (hwithin : p.Within cfg.allowedPaths) : PathOrigin cfg db s vm (.createVm body) p
  /-- of the caller, and not checked -/
  | source {body : CreateVm} {d : DiskSpec} {p : HostPath} (hd : d ∈ body.spec.disks)
      (hp : d.source = some p) : PathOrigin cfg db s vm (.createVm body) p
  /-- a new disk in the default pool -/
  | made {w : Write} {pool : Id} {dir : HostPath} {name : FileName}
      (hpool : db.defaultPool = .ok (pool, dir)) (hname : name.ofVm = some vm) :
      PathOrigin cfg db s vm w (dir.join name)
  | templateImage {w : Write} {t : Template} {img : Image} {p : HostPath} (ht : t ∈ db.templates)
      (hown : s.owns t.project) (himg : img ∈ db.images) (hid : img.id = t.image)
      (hp : p ∈ img.sourcePath :: img.boot.files) : PathOrigin cfg db s vm w p
  | volumeImage {w : Write} {img : Image} {p : HostPath} (himg : img ∈ db.images)
      (hsees : s.sees img.project) (hp : p ∈ img.boot.files) : PathOrigin cfg db s vm w p
  | volume {w : Write} {v : Volume} (hv : v ∈ db.volumes) (hown : s.owns v.project) :
      PathOrigin cfg db s vm w (db.fileOf cfg v)
  /-- in the spec that the VM had -/
  | kept {w : Write} {r : Vm} {p : HostPath} (hr : r ∈ db.vms) (hid : r.id = vm)
      (hp : p ∈ r.spec.paths) : PathOrigin cfg db s vm w p

section

variable {cfg : Config} {db d d' : Db} {s : Scope} {u : AuthUser} {w : Write}
  {ds ds' : List DiskSpec} {body : UpdateVm}

theorem mem_paths : p ∈ spec.paths ↔ p ∈ spec.boot.files ∨ ∃ d ∈ spec.disks, p = d.path ∨ d.source =
    some p := by
  simp [VirtualMachineSpec.paths, DiskSpec.paths]

theorem mem_paths_boot (hp : p ∈ spec.boot.files) : p ∈ spec.paths :=
  mem_append_left _ hp

theorem mem_paths_disk {d : DiskSpec} (hd : d ∈ spec.disks) (hp : p ∈ d.paths) : p ∈ spec.paths :=
  mem_append_right _ (mem_flatMap.mpr ⟨d, hd, hp⟩)

theorem mem_placeDisks {pool : Id} {dir : HostPath} {i : Nat} :
    ∀ d ∈ placeDisks vm pool dir ds i, ∃ d₀ ∈ ds, d.source = d₀.source ∧
      (d.path = d₀.path ∨ ∃ j ext, d.path = dir.join (.vmDisk vm j ext)) := by
  induction ds generalizing i with
  | nil => exact fun _ hd => nomatch hd
  | cons d₀ ds ih =>
    intro d hd
    rcases mem_cons.mp hd with rfl | hd
    · refine ⟨d₀, mem_cons_self, ?_⟩
      split
      · exact ⟨rfl, Or.inr ⟨i, _, rfl⟩⟩
      · exact ⟨rfl, Or.inl rfl⟩
    · obtain ⟨d₁, hd₁, hrest⟩ := ih d hd
      exact ⟨d₁, mem_cons_of_mem _ hd₁, hrest⟩

theorem createSpec_paths {body : CreateVm} (h : createSpec cfg db s u body = .ok spec) : ∀ p ∈
    spec.paths, PathOrigin cfg db s db.vms.next (.createVm body) p := by
  obtain ⟨pool, dir, hpool, rfl, -, -, hwithin⟩ := createSpec_ok h
  obtain ⟨_, hboot, hdisks⟩ := bind_eq_ok.mp hwithin
  intro p hp
  rcases mem_paths.mp hp with hp | ⟨d, hd, hp⟩
  · exact .checked (mem_paths_boot hp) (ensureBootWithin_ok hboot p hp)
  obtain ⟨d₀, hd₀, hsource, hpath⟩ := mem_placeDisks d hd
  rcases hp with rfl | hp
  · rcases hpath with hold | ⟨j, ext, hnew⟩
    · refine .checked ?_ (ensureDisksWithin_ok hdisks d hd)
      exact mem_paths_disk hd₀ (hold ▸ mem_cons_self)
    · rw [hnew]
      exact .made hpool rfl
  · exact .source hd₀ (hsource ▸ hp)

theorem templateSpec_paths {body : CreateVmFromTemplate} (h : templateSpec db s u body = .ok spec) :
    ∀ p ∈ spec.paths, PathOrigin cfg db s db.vms.next w p := by
  obtain ⟨t, image, pool, dir, hscope, ht, himage, hpool, rfl⟩ := templateSpec_ok h
  obtain ⟨htmem, htid⟩ := get_eq_some.mp ht
  obtain ⟨himem, hiid⟩ := get_eq_some.mp himage
  have hown := ownsTemplate_of_inScope hscope t htmem htid
  intro p hp
  rcases mem_paths.mp hp with hp | ⟨d, hd, hp⟩
  · exact .templateImage htmem hown himem hiid (mem_cons_of_mem _ hp)
  rw [mem_singleton.mp hd] at hp
  rcases hp with rfl | hp
  · exact .made hpool rfl
  · cases hp
    exact .templateImage htmem hown himem hiid mem_cons_self

theorem volumeSpec_paths {body : CreateVmFromVolume} {v : Volume} (h : volumeSpec cfg db s u body =
    .ok (v, spec)) : ∀ p ∈ spec.paths, PathOrigin cfg db s db.vms.next w p := by
  obtain ⟨imageId, image, hv, himage, hboot, hdisks, -⟩ := volumeSpec_ok h
  obtain ⟨himem, -, hsees⟩ := Db.visibleImage_eq_some.mp himage
  obtain ⟨hvmem, -, hown⟩ := Db.getVolume_eq_some.mp hv
  intro p hp
  rcases mem_paths.mp hp with hp | ⟨d, hd, hp⟩
  · rw [hboot] at hp
    exact .volumeImage himem hsees hp
  rw [hdisks] at hd
  rw [mem_singleton.mp hd] at hp
  rcases hp with rfl | hp
  · exact .volume hvmem hown
  · cases hp

theorem growDisk_paths {g : GrowDisk} (h : growDisk ds g = .ok ds') :
    ∀ d ∈ ds', ∃ d₀ ∈ ds, d.paths = d₀.paths := by
  obtain ⟨d₀, hd₀, h⟩ := orElse_bind.mp h
  cases of_ensure_pure h
  intro d hd
  rcases mem_or_eq_of_mem_set hd with hold | rfl
  · exact ⟨d, hold, rfl⟩
  · exact ⟨d₀, mem_of_getElem? hd₀, rfl⟩

theorem updateDisks_ok (h : updateDisks db vm ds body =
    .ok ds') : ∃ grown, (grown = ds ∨ ∃ g, growDisk ds g = .ok grown) ∧ (ds' = grown ∨ ∃ a pool dir,
    body.addDisk = some a ∧ db.defaultPool = .ok (pool, dir) ∧
      ds' = grown ++ [addedDisk vm grown.length a pool dir]) := by
  unfold updateDisks at h
  cases ha : body.addDisk with
  | none =>
    rw [ha] at h
    cases hg : body.growDisk with
    | none =>
      rw [hg] at h
      exact ⟨ds, Or.inl rfl, Or.inl (pure_eq_ok.mp h).symm⟩
    | some g =>
      rw [hg] at h
      obtain ⟨grown, hgrown, h⟩ := bind_eq_ok.mp h
      exact ⟨grown, Or.inr ⟨g, hgrown⟩, Or.inl (pure_eq_ok.mp h).symm⟩
  | some a =>
    rw [ha] at h
    cases hg : body.growDisk with
    | none =>
      rw [hg] at h
      obtain ⟨grown, hgrown, h⟩ := bind_eq_ok.mp h
      obtain ⟨⟨pool, dir⟩, hpool, h⟩ := bind_eq_ok.mp h
      cases pure_eq_ok.mp hgrown
      exact ⟨ds, Or.inl rfl, Or.inr ⟨a, pool, dir, rfl, hpool, (pure_eq_ok.mp h).symm⟩⟩
    | some g =>
      rw [hg] at h
      obtain ⟨grown, hgrown, h⟩ := bind_eq_ok.mp h
      obtain ⟨⟨pool, dir⟩, hpool, h⟩ := bind_eq_ok.mp h
      exact ⟨grown, Or.inr ⟨g, hgrown⟩, Or.inr ⟨a, pool, dir, rfl, hpool, (pure_eq_ok.mp h).symm⟩⟩

theorem updateSpec_paths {vm : Vm} (hvm : vm ∈ db.vms) (h : updateSpec db vm body
    = .ok spec) : ∀ p ∈ spec.paths, PathOrigin cfg db s vm.id w p := by
  obtain ⟨disks, hdisks, h⟩ := bind_eq_ok.mp h
  obtain ⟨-, -, ⟨⟩⟩ := of_bind_pure h
  obtain ⟨grown, hgrow, hadd⟩ := updateDisks_ok hdisks
  have hgrown : ∀ d ∈ grown, ∀ p ∈ d.paths, p ∈ vm.spec.paths := by
    rcases hgrow with rfl | ⟨g, hg⟩
    · exact fun d hd p hp => mem_paths_disk hd hp
    · intro d hd p hp
      obtain ⟨d₀, hd₀, hpaths⟩ := growDisk_paths hg d hd
      exact mem_paths_disk hd₀ (hpaths ▸ hp)
  intro p hp
  rcases mem_append.mp hp with hp | hp
  · exact .kept hvm rfl (mem_paths_boot hp)
  obtain ⟨d, hd, hpath⟩ := mem_flatMap.mp hp
  rcases hadd with rfl | ⟨a, pool, dir, -, hpool, rfl⟩
  · exact .kept hvm rfl (hgrown d hd p hpath)
  rcases mem_append.mp hd with hold | hnew
  · exact .kept hvm rfl (hgrown d hold p hpath)
  · rw [mem_singleton.mp hnew] at hpath
    rw [mem_singleton.mp hpath]
    exact .made hpool rfl

theorem Launches.paths (hl : Launches cfg db s u w spec) : ∀ p ∈ spec.paths, PathOrigin cfg db s
    db.vms.next w p := by
  cases hl with
  | create h => exact createSpec_paths h
  | fromTemplate h => exact templateSpec_paths h
  | fromVolume h => exact volumeSpec_paths h

theorem Respecs.paths {vm : Vm} (hvm : vm ∈ db.vms) (hr : Respecs cfg db s w vm spec) : ∀ p ∈
    spec.paths, PathOrigin cfg db s vm.id w p := by
  have hstored : ∀ p ∈ vm.spec.paths, PathOrigin cfg db s vm.id w p :=
    fun p hp => .kept hvm rfl hp
  cases hr with
  | update hown h => exact updateSpec_paths hvm h
  | nic | start | stop => exact hstored
  | attach hown hv hownv =>
    intro p hp
    rcases mem_paths.mp hp with hp | ⟨d, hd, hp⟩
    · exact hstored p (mem_paths_boot hp)
    rcases mem_append.mp hd with hold | hnew
    · exact hstored p (mem_paths.mpr (Or.inr ⟨d, hold, hp⟩))
    · rw [mem_singleton.mp hnew] at hp
      rcases hp with rfl | hp
      · exact .volume hv hownv
      · cases hp
  | detach hv hown hatt =>
    intro p hp
    rcases mem_paths.mp hp with hp | ⟨d, hd, hp⟩
    · exact hstored p (mem_paths_boot hp)
    · exact hstored p (mem_paths.mpr (Or.inr ⟨d, (mem_filter.mp hd).1, hp⟩))

end

/-! ## The invariant -/

/-- Every path that is stored lies under the roots. -/
structure Rooted (cfg : Config) (db : Db) : Prop where
  shared : cfg.sharedVolumesDir.Within cfg.allowedPaths
  pools : ∀ pool ∈ db.pools, pool.params.hostPath.Within cfg.allowedPaths
  images : ∀ img ∈ db.images, ∀ p ∈ img.sourcePath :: img.boot.files, p.Within cfg.allowedPaths
  vms : ∀ vm ∈ db.vms, ∀ p ∈ vm.spec.paths, p.Within cfg.allowedPaths

section

variable {cfg : Config} {db d d' : Db} {s : Scope} {u : AuthUser} {w : Write} {found : Found}

namespace Rooted

theorem defaultPool (h : Rooted cfg db) {pool : Id} {dir : HostPath}
    (hpool : db.defaultPool = .ok (pool, dir)) : dir.Within cfg.allowedPaths := by
  obtain ⟨r, hr, ⟨⟩⟩ := of_orElse_pure hpool
  exact h.pools r (mem_of_find?_eq_some hr)

theorem fileOf (h : Rooted cfg db) (v : Volume) : (db.fileOf cfg v).Within cfg.allowedPaths := by
  refine HostPath.Within.join ?_ _
  unfold Db.volumeDir
  split
  · rename_i pool hpool
    obtain ⟨i, -, hget⟩ := bind_eq_some_iff.mp hpool
    exact h.pools pool (get_eq_some.mp hget).1
  · exact h.shared

/-- Whatever a request puts into a spec is under the roots. -/
theorem origin {claims : Option Claims} {ref : ProjectRef} (h : Rooted cfg db) (hok : withinRoots
    cfg (.request claims ref w)) (ho : PathOrigin cfg db s vm w p) : p.Within cfg.allowedPaths := by
  cases ho with
  | checked hp hwithin => exact hwithin
  | @source body d p hd hp =>
    have hsource := all_eq_true.mp hok d hd
    rw [hp] at hsource
    exact within_iff.mp hsource
  | made hpool hname => exact (h.defaultPool hpool).join _
  | templateImage ht hown himg hid hp => exact h.images _ himg p hp
  | volumeImage himg hsees hp => exact h.images _ himg p (mem_cons_of_mem _ hp)
  | volume hv hown => exact h.fileOf _
  | kept hr hid hp => exact h.vms _ hr p hp

end Rooted

/-! ## One statement -/

theorem CreateImage.check_within {body : CreateImage} {format : Format}
    (h : body.check cfg = .ok format)
    (hok : body.boot.files.all (within cfg.allowedPaths)) :
    ∀ p ∈ body.sourcePath :: body.boot.files, p.Within cfg.allowedPaths := by
  replace h := of_ensure h
  obtain ⟨f, -, h⟩ := orElse_bind.mp h
  obtain ⟨x, hpath, -⟩ := bind_eq_ok.mp h
  intro p hp
  rcases mem_cons.mp hp with rfl | hp
  · exact ensureWithin_ok hpath
  · exact within_iff.mp (all_eq_true.mp hok p hp)

namespace Rooted

theorem of_vms (h : Rooted cfg d) (hpools : d'.pools = d.pools) (himages : d'.images = d.images)
    (hvms : ∀ vm' ∈ d'.vms, ∃ vm ∈ d.vms, vm.project = vm'.project ∧ vm.spec = vm'.spec) :
    Rooted cfg d' where
  shared := h.shared
  pools := hpools ▸ h.pools
  images := himages ▸ h.images
  vms := by
    intro vm' hvm'
    obtain ⟨vm, hvm, -, hspec⟩ := hvms vm' hvm'
    exact hspec ▸ h.vms vm hvm

variable {claims : Option Claims} {ref : ProjectRef}

theorem step (hi : Rooted cfg db) (hok : withinRoots cfg (.request claims ref w)) (h : Rooted cfg d)
    (hs : Step cfg s u w db d d') : Rooted cfg d' := by
  cases hs with
  | insertVm hl =>
    refine { h with vms := fun vm hvm => ?_ }
    rcases mem_insert.mp hvm with hold | rfl
    · exact h.vms vm hold
    · exact fun p hp => hi.origin hok (hl.paths p hp)
  | removeVm hvm =>
    exact h.of_vms rfl rfl fun vm hvm => ⟨vm, (mem_delete.mp hvm).1, rfl, rfl⟩
  | respec hvm hr =>
    refine { h with vms := fun vm' hvm' => ?_ }
    obtain ⟨r, hr', rfl⟩ := mem_updated rfl hvm'
    split
    · exact fun p hp => hi.origin hok (hr.paths hvm p hp)
    · exact h.vms r hr'
  | phase | drainPhase | touch => exact h.of_vms rfl rfl (vms_update rfl)
  | insertImage hw hcheck =>
    subst hw
    refine { h with images := fun img himg => ?_ }
    rcases mem_insert.mp himg with hold | rfl
    · exact h.images img hold
    · exact CreateImage.check_within hcheck hok
  | updateImage hw hown hcheck =>
    subst hw
    refine { h with images := fun img himg => ?_ }
    obtain ⟨r, hr, rfl⟩ := mem_updated rfl himg
    split
    · exact CreateImage.check_within hcheck hok
    · exact h.images r hr
  | deleteImage hown =>
    exact { h with images := fun img himg => h.images img (mem_delete.mp himg).1 }
  | createPool hpath =>
    refine { h with pools := fun pool hpool => ?_ }
    rcases mem_insert.mp hpool with hold | rfl
    · exact h.pools pool hold
    · exact ensureWithin_ok hpath
  | updatePool hw =>
    refine { h with pools := fun pool hpool => ?_ }
    obtain ⟨r, hr, rfl⟩ := mem_updated rfl hpool
    split <;> exact h.pools r hr
  | deletePool hw hpool =>
    exact { h with pools := fun pool hmem => h.pools pool (mem_delete.mp hmem).1 }
  | _ => exact { h with }

theorem steps (hi : Rooted cfg db)
    (hok : withinRoots cfg (.request claims ref w)) (hs : Steps cfg s u w db db d) :
    Rooted cfg d := by
  induction hs with
  | refl => exact hi
  | tail _ hstep ih => exact Rooted.step hi hok ih hstep

theorem action {a : Action} (hi : Rooted cfg db) (hok : withinRoots cfg a)
    (h : Tenancy.step cfg db a = some d) : Rooted cfg d := by
  cases step_acts h with
  | request claims ref w =>
    obtain ⟨t, r, heq | ⟨s, u, -, hsteps⟩⟩ := handle_steps cfg db claims ref w
    · rw [heq]
      exact { hi with }
    · have hi' : Rooted cfg { db with users := t, userRoles := r } := { hi with }
      exact hi'.steps hok hsteps
  | phoneHome | observe => exact hi.of_vms rfl rfl (vms_update rfl)
  | unheard => exact hi
  | bootstrapSign | ready => exact { hi with }
  | reap => exact hi.of_vms rfl rfl fun vm hvm => ⟨vm, (mem_delete.mp hvm).1, rfl, rfl⟩

end Rooted

/-! ## What an agent touches -/

theorem DiskSpec.provision_paths {d : DiskSpec} :
    ∀ op ∈ d.provision found, ∀ p ∈ op.paths, p ∈ d.paths := by
  have hwrite : ∀ p ∈ (FileOp.write d.path).paths, p ∈ d.paths := by
    intro p hp
    rw [mem_singleton.mp hp]
    exact mem_cons_self
  intro op hop
  unfold DiskSpec.provision at hop
  split at hop
  · split at hop
    · rwa [mem_singleton.mp hop]
    · cases hop
  · split at hop
    · rwa [mem_singleton.mp hop]
    · rename_i source hsource
      rcases mem_cons.mp hop with rfl | hop
      · intro p hp
        simp only [FileOp.paths, mem_cons, not_mem_nil, or_false] at hp
        rcases hp with rfl | rfl
        · exact mem_cons_of_mem _ (mem_toList.mpr hsource)
        · exact mem_cons_self
      · split at hop
        · rwa [mem_singleton.mp hop]
        · cases hop

theorem VirtualMachineSpec.ready_paths : ∀ op ∈ spec.ready vm found, ∀ p ∈ op.paths,
    p ∈ spec.paths := by
  intro op hop p hp
  rcases mem_append.mp hop with hop | hop
  · obtain ⟨d, hd, hop⟩ := mem_flatMap.mp hop
    refine mem_append_right _ (mem_flatMap.mpr ⟨d, hd, ?_⟩)
    rcases mem_append.mp hop with hop | hop
    · split at hop
      · exact DiskSpec.provision_paths op hop p hp
      · cases hop
    · rw [mem_singleton.mp hop] at hp
      rw [mem_singleton.mp hp]
      exact mem_cons_self
  · obtain ⟨q, hq, rfl⟩ := mem_map.mp hop
    rw [mem_singleton.mp hp]
    exact mem_append_left _ hq

theorem Rooted.confined (h : Rooted cfg db) : PathsConfined cfg db := by
  refine ⟨h.vms, fun vm found db' hs => ?_⟩
  obtain ⟨r, hr, rfl⟩ := map_eq_some_iff.mp hs
  refine ⟨(r.spec.ready vm found).reverse, by rw [fileOps_eq], fun op hop p hp => ?_⟩
  have hpath := VirtualMachineSpec.ready_paths op (mem_reverse.mp hop) p hp
  exact h.vms r (get_eq_some.mp hr).1 p hpath

end

/-! ## In every run -/

/-- An image with the given firmware. -/
def firmwareImage (firmware : HostPath) : CreateImage :=
  ⟨"base", storageRoot.join (.named "base"), .ok .qcow2, .firmware firmware, none, false, none⟩

/-- An image, a template of it, and a VM from the template. -/
def fromImageRun (firmware : HostPath) : List Action :=
  [.request (some alice) (.id 2) (.createImage (firmwareImage firmware)),
    .request (some alice) (.id 2) (.createTemplate
      ⟨"small", 0, 1, 1, 512, none, .ok .qcow2, none, none, .ok .standard⟩),
    .request (some alice) (.id 2) (.createFromTemplate
      ⟨"web", 0, ⟨none, none, none, none, none, none, [], none, none, none⟩⟩)]

end VQuasar.Tenancy
