import VQuasar.Tenancy.Files
import Mathlib.Logic.Function.Basic

/-!
# Work that a control plane finds when it starts

Several instances of the control plane share a database.  Importing an image and building a volume are
work of one instance, whose name the row carries while it lasts (`importing`, `provisioning`).  An
instance that starts takes such rows for its own, from before it went down, and reclaims them
(`reclaim_orphaned_work`): the images are marked failed, the volumes deleted together with their
files.

The statement for images asks who the row belongs to, the one for volumes does not.  So a start leaves
the work of the others alone exactly if none of them is building a volume when that statement runs
(`reclaim_spares_iff`).
-/

namespace VQuasar.Reclaim

open Tenancy Runs Table Option Function

/-! ## Rows, files and work -/

/-- Instances are told apart by their identities. -/
structure ImageRow (ι : Type) where
  id : Id
  status : ImageStatus
  owner : Option ι
deriving DecidableEq, Repr

structure VolumeRow (ι : Type) where
  id : Id
  format : Format
  pool : Option Id
  status : VolumeStatus
  owner : Option ι
deriving DecidableEq, Repr

/-- A file that the control planes share, or one on a host. -/
structure Place where
  host : Option Id
  path : HostPath
deriving DecidableEq, Repr

/-- The detached part of `import`, and the part of a volume's `create` after its row is there. -/
inductive Work
  | image (id : Id) (dir : HostPath) (format : Format)
  | volume (id : Id) (dir : HostPath) (format : Format) (host : Option Id)
deriving DecidableEq, Repr

namespace Work

def file : Work → Place
  | .image id dir format => ⟨none, dir.join (.image id format)⟩
  | .volume id dir format host => ⟨host, volumePath dir id format⟩

def imageId : Work → Option Id
  | .image id _ _ => some id
  | .volume .. => none

def volumeId : Work → Option Id
  | .image .. => none
  | .volume id _ _ _ => some id

end Work

structure Job (ι : Type) where
  owner : ι
  work : Work
deriving DecidableEq, Repr

/-- How far an instance is: `reclaim_orphaned_work` goes by its statements, and no request is served
before its end. -/
inductive Phase
  | down
  | failImports
  | poolPaths
  | dropReservations (pools : List (Id × HostPath))
  | removeFiles (paths : List HostPath)
  | serving
deriving DecidableEq, Repr

structure World (ι : Type) where
  images : List (ImageRow ι)
  volumes : List (VolumeRow ι)
  pools : List (Id × HostPath)
  files : List Place
  jobs : List (Job ι)
  phase : ι → Phase
  /-- ids that were given out -/
  used : List Id

/-! ## Steps -/

inductive Event (ι : Type)
  /-- `create_volume`, with a new id, and the directory and the host that were chosen before -/
  | createVolume (b : ι) (id : Id) (pool : Id) (dir : HostPath) (format : Format) (host : Option Id)
  | write (j : Job ι)
  /-- `finalize_volume`, and `cleanup_partial` if the reservation is gone -/
  | finalizeVolume (j : Job ι)
  /-- `cleanup_partial`, after a failure -/
  | cleanup (j : Job ι)
  /-- `drop_volume_reservation`, after the cleanup -/
  | dropVolumeReservation (j : Job ι)
  /-- the end of `download_image` -/
  | finishImport (j : Job ι) (ok : Bool)
  -- requests for volumes and images that are there, and for pools
  | deleteVolume (id : Id)
  | deleteImage (id : Id)
  | unlink (p : Place)
  | setPools (pools : List (Id × HostPath))
  -- an instance goes down with its jobs, and starts
  | crash (b : ι)
  | start (a : ι)
  -- `reclaim_orphaned_work`; a statement that fails is only logged
  | failOrphanedImports (a : ι) (ok : Bool)
  | poolPaths (a : ι) (ok : Bool)
  | dropOrphanedReservations (a : ι) (ok : Bool)
  | removeFile (a : ι) (ok : Bool)

def Event.reclaimer {ι : Type} : Event ι → Option ι
  | .failOrphanedImports a _ => some a
  | .poolPaths a _ => some a
  | .dropOrphanedReservations a _ => some a
  | .removeFile a _ => some a
  | _ => none

variable {ι : Type}

section

variable [DecidableEq ι]

namespace World

def enter (s : World ι) (a : ι) (p : Phase) : World ι :=
  { s with phase := update s.phase a p }

def unlink (s : World ι) (p : Place) : World ι := { s with files := deleteWhere (· == p) s.files }

def finish (s : World ι) (j : Job ι) : World ι := { s with jobs := deleteWhere (· == j) s.jobs }

end World

def VolumeRow.provisioning (r : VolumeRow ι) : Bool := r.status == .provisioning

/-- `owner IS NULL OR owner IS NOT DISTINCT FROM $2`, of the rows that are `importing` -/
def ImageRow.orphanOf (a : ι) (r : ImageRow ι) : Bool :=
  r.status == .importing && (r.owner.isNone || r.owner == some a)

/-- The file of a dropped reservation, by the pools that were read before. -/
def VolumeRow.path (shared : HostPath) (pools : List (Id × HostPath)) (r : VolumeRow ι) : HostPath :=
  volumePath ((r.pool.bind fun p => pools.lookup p).getD shared) r.id r.format

def step (shared : HostPath) (s : World ι) : Event ι → Option (World ι)
  | .createVolume b id pool dir format host =>
    if s.phase b = .serving ∧ id ∉ s.used then
      some { s with
        volumes := ⟨id, format, some pool, .provisioning, some b⟩ :: s.volumes
        jobs := ⟨b, .volume id dir format host⟩ :: s.jobs
        used := id :: s.used }
    else none
  | .write j => if j ∈ s.jobs then some { s with files := j.work.file :: s.files } else none
  | .finalizeVolume j =>
    if j ∈ s.jobs then
      match j.work with
      | .image .. => none
      | .volume id .. =>
        if s.volumes.any fun r => r.id == id && r.provisioning then
          some { s.finish j with
            volumes := updateWhere (fun r => r.id == id) (fun r => { r with status := .ready })
              s.volumes }
        else some ((s.finish j).unlink j.work.file)
    else none
  | .cleanup j => if j ∈ s.jobs then some (s.unlink j.work.file) else none
  | .dropVolumeReservation j =>
    if j ∈ s.jobs then
      match j.work with
      | .image .. => none
      | .volume id .. =>
        some { s.finish j with
          volumes := deleteWhere (fun r => r.id == id && r.provisioning) s.volumes }
    else none
  | .finishImport j ok =>
    if j ∈ s.jobs then
      match j.work with
      | .volume .. => none
      | .image id .. =>
        let done := { s.finish j with
          images := updateWhere (fun r => r.id == id)
            (fun r => { r with status := if ok then .ready else .failed }) s.images }
        some (if ok then done else done.unlink j.work.file)
    else none
  | .deleteVolume id => some { s with volumes := deleteWhere (fun r => r.id == id) s.volumes }
  | .deleteImage id => some { s with images := deleteWhere (fun r => r.id == id) s.images }
  | .unlink p => some (s.unlink p)
  | .setPools pools => some { s with pools := pools }
  | .crash b => some ({ s with jobs := deleteWhere (fun j => j.owner == b) s.jobs }.enter b .down)
  | .start a => if s.phase a = .down then some (s.enter a .failImports) else none
  | .failOrphanedImports a ok =>
    if s.phase a = .failImports then
      let s' := s.enter a .poolPaths
      some (if ok then
        { s' with images := updateWhere (·.orphanOf a) (fun r => { r with status := .failed }) s.images }
      else s')
    else none
  | .poolPaths a ok =>
    if s.phase a = .poolPaths then
      some (s.enter a (if ok then .dropReservations s.pools else .serving))
    else none
  | .dropOrphanedReservations a ok =>
    match s.phase a with
    | .dropReservations pools =>
      if ok then
        some ({ s with volumes := deleteWhere VolumeRow.provisioning s.volumes }.enter a
          (.removeFiles ((s.volumes.filter VolumeRow.provisioning).map (VolumeRow.path shared pools))))
      else some (s.enter a .serving)
    | _ => none
  | .removeFile a ok =>
    match s.phase a with
    | .removeFiles [] => some (s.enter a .serving)
    | .removeFiles (p :: paths) =>
      let s' := s.enter a (.removeFiles paths)
      some (if ok then s'.unlink ⟨none, p⟩ else s')
    | _ => none

end

/-! ## The property -/

/-- The work of instances other than `a` has lost nothing: its row is what it was, and so is its
file. -/
structure Spares (a : ι) (s s' : World ι) : Prop where
  images : ∀ j ∈ s.jobs, j.owner ≠ a → ∀ r ∈ s.images, j.work.imageId = some r.id → r ∈ s'.images
  volumes : ∀ j ∈ s.jobs, j.owner ≠ a → ∀ r ∈ s.volumes, j.work.volumeId = some r.id → r ∈ s'.volumes
  files : ∀ j ∈ s.jobs, j.owner ≠ a → j.work.file ∈ s.files → j.work.file ∈ s'.files

/-- When the reservations are dropped, no other instance is building a volume. -/
def Alone (s : World ι) : Event ι → Prop
  | .dropOrphanedReservations a true =>
    ∀ j ∈ s.jobs, j.owner ≠ a → ∀ r ∈ s.volumes, j.work.volumeId = some r.id →
      r.status ≠ .provisioning
  | _ => True

/-- What is known of the work in flight: the row of an import names the instance that runs it, ids are
given out once, and the files that a start is about to remove are nobody else's. -/
structure Kept (s : World ι) : Prop where
  imports : ∀ j ∈ s.jobs, ∀ r ∈ s.images, j.work.imageId = some r.id → r.owner = some j.owner
  jobs : ∀ j ∈ s.jobs, ∀ id, j.work.volumeId = some id → id ∈ s.used
  rows : ∀ r ∈ s.volumes, r.id ∈ s.used
  removed : ∀ a paths, s.phase a = .removeFiles paths → ∀ p ∈ paths, ∃ dir id format,
    p = volumePath dir id format ∧ id ∈ s.used ∧
      ∀ j ∈ s.jobs, j.owner ≠ a → j.work.volumeId ≠ some id

/-- Instances serve or are down, with whatever work they are at.  No request begins an import: the
statement of `insert_image_importing` has a placeholder without a value. -/
structure Begin (s : World ι) : Prop where
  kept : Kept s
  phase : ∀ a, s.phase a = .down ∨ s.phase a = .serving

/-! ## What every step keeps -/

/-- Work and rows only go, and starts only get on with their files. -/
structure Fades (s s' : World ι) : Prop where
  jobs : ∀ j ∈ s'.jobs, j ∈ s.jobs
  images : ∀ r ∈ s'.images, ∃ r₀ ∈ s.images, r.id = r₀.id ∧ r.owner = r₀.owner
  volumes : ∀ r ∈ s'.volumes, ∃ r₀ ∈ s.volumes, r.id = r₀.id
  used : s'.used = s.used
  removed : ∀ a paths, s'.phase a = .removeFiles paths →
    ∃ paths₀, s.phase a = .removeFiles paths₀ ∧ ∀ p ∈ paths, p ∈ paths₀

section

variable {s s' : World ι}

theorem Kept.fades (h : Kept s) (hf : Fades s s') : Kept s' where
  imports j hj r hr hid := by
    obtain ⟨r₀, hr₀, hid₀, hown⟩ := hf.images r hr
    rw [hown]
    exact h.imports j (hf.jobs j hj) r₀ hr₀ (hid₀ ▸ hid)
  jobs j hj id hid := hf.used ▸ h.jobs j (hf.jobs j hj) id hid
  rows r hr := by
    obtain ⟨r₀, hr₀, hid⟩ := hf.volumes r hr
    rw [hf.used, hid]
    exact h.rows r₀ hr₀
  removed a paths hp p hmem := by
    obtain ⟨paths₀, hphase, hsub⟩ := hf.removed a paths hp
    obtain ⟨dir, id, format, heq, hid, hjobs⟩ := h.removed a paths₀ hphase p (hsub p hmem)
    exact ⟨dir, id, format, heq, hf.used ▸ hid, fun j hj => hjobs j (hf.jobs j hj)⟩

theorem Fades.refl (s : World ι) : Fades s s :=
  ⟨fun _ h => h, fun r hr => ⟨r, hr, rfl, rfl⟩, fun r hr => ⟨r, hr, rfl⟩, rfl,
    fun _ paths h => ⟨paths, h, fun _ hp => hp⟩⟩

theorem Fades.trans {t : World ι} (h : Fades s t) (h' : Fades t s') : Fades s s' where
  jobs j hj := h.jobs j (h'.jobs j hj)
  images r hr := by
    obtain ⟨r₁, hr₁, hid, hown⟩ := h'.images r hr
    obtain ⟨r₀, hr₀, hid₀, hown₀⟩ := h.images r₁ hr₁
    exact ⟨r₀, hr₀, hid.trans hid₀, hown.trans hown₀⟩
  volumes r hr := by
    obtain ⟨r₁, hr₁, hid⟩ := h'.volumes r hr
    obtain ⟨r₀, hr₀, hid₀⟩ := h.volumes r₁ hr₁
    exact ⟨r₀, hr₀, hid.trans hid₀⟩
  used := h'.used.trans h.used
  removed a paths hp := by
    obtain ⟨paths₁, hp₁, hsub⟩ := h'.removed a paths hp
    obtain ⟨paths₀, hp₀, hsub₀⟩ := h.removed a paths₁ hp₁
    exact ⟨paths₀, hp₀, fun p hmem => hsub₀ p (hsub p hmem)⟩

theorem fades_files (s : World ι) (files : List Place) : Fades s { s with files := files } :=
  { Fades.refl s with }

theorem fades_jobs (s : World ι) (p : Job ι → Bool) :
    Fades s { s with jobs := deleteWhere p s.jobs } :=
  { Fades.refl s with jobs := fun _ hj => (mem_deleteWhere.mp hj).1 }

theorem fades_deleteVolumes (s : World ι) (p : VolumeRow ι → Bool) :
    Fades s { s with volumes := deleteWhere p s.volumes } :=
  { Fades.refl s with volumes := fun r hr => ⟨r, (mem_deleteWhere.mp hr).1, rfl⟩ }

theorem fades_volumeStatus (s : World ι) (p : VolumeRow ι → Bool) (status : VolumeStatus) :
    Fades s { s with volumes := updateWhere p (fun r => { r with status := status }) s.volumes } := by
  refine { Fades.refl s with volumes := fun r hr => ?_ }
  obtain ⟨r₀, hr₀, rfl⟩ := mem_updateWhere.mp hr
  refine ⟨r₀, hr₀, ?_⟩
  split <;> rfl

theorem fades_deleteImages (s : World ι) (p : ImageRow ι → Bool) :
    Fades s { s with images := deleteWhere p s.images } :=
  { Fades.refl s with images := fun r hr => ⟨r, (mem_deleteWhere.mp hr).1, rfl, rfl⟩ }

theorem fades_imageStatus (s : World ι) (p : ImageRow ι → Bool) (status : ImageStatus) :
    Fades s { s with images := updateWhere p (fun r => { r with status := status }) s.images } := by
  refine { Fades.refl s with images := fun r hr => ?_ }
  obtain ⟨r₀, hr₀, rfl⟩ := mem_updateWhere.mp hr
  refine ⟨r₀, hr₀, ?_⟩
  split <;> exact ⟨rfl, rfl⟩

end

section

variable [DecidableEq ι] {shared : HostPath} {s s' : World ι} {a : ι} {e : Event ι}

theorem fades_enter (s : World ι) (a : ι) {p : Phase} (hp : ∀ paths, p = .removeFiles paths →
      ∃ paths₀, s.phase a = .removeFiles paths₀ ∧ ∀ x ∈ paths, x ∈ paths₀) : Fades s (s.enter a p) := by
  refine { Fades.refl s with removed := fun b paths hb => ?_ }
  change update s.phase a p b = _ at hb
  by_cases hba : b = a
  · subst hba
    rw [update_self] at hb
    exact hp paths hb
  · rw [update_of_ne hba] at hb
    exact ⟨paths, hb, fun _ hx => hx⟩

/-- Every step but these two only takes away. -/
theorem fades_step (hs : step shared s e = some s')
    (hcreate : ∀ b id pool dir format host, e ≠ .createVolume b id pool dir format host)
    (hdrop : ∀ a, e ≠ .dropOrphanedReservations a true) : Fades s s' := by
  cases e with
  | createVolume b id pool dir format host => exact absurd rfl (hcreate b id pool dir format host)
  | write | cleanup =>
    simp only [step, ite_none_right_eq_some] at hs
    exact some.inj hs.2 ▸ fades_files s _
  | finalizeVolume j =>
    simp only [step, ite_none_right_eq_some] at hs
    obtain ⟨-, hs⟩ := hs
    split at hs
    · cases hs
    · split at hs
      · exact some.inj hs ▸ (fades_jobs s _).trans (fades_volumeStatus _ _ .ready)
      · exact some.inj hs ▸ (fades_jobs s _).trans (fades_files _ _)
  | dropVolumeReservation j =>
    simp only [step, ite_none_right_eq_some] at hs
    obtain ⟨-, hs⟩ := hs
    split at hs
    · cases hs
    · exact some.inj hs ▸ (fades_jobs s _).trans (fades_deleteVolumes _ _)
  | finishImport j ok =>
    simp only [step, ite_none_right_eq_some] at hs
    obtain ⟨-, hs⟩ := hs
    split at hs
    · cases hs
    cases hs
    cases ok with
    | true => exact (fades_jobs s _).trans (fades_imageStatus _ _ .ready)
    | false =>
      refine Fades.trans (fades_jobs s (· == j)) ?_
      exact (fades_imageStatus _ _ .failed).trans (fades_files _ _)
  | deleteVolume id => exact some.inj hs ▸ fades_deleteVolumes s _
  | deleteImage id => exact some.inj hs ▸ fades_deleteImages s _
  | unlink p => exact some.inj hs ▸ fades_files s _
  | setPools pools => exact some.inj hs ▸ { Fades.refl s with }
  | crash b => exact some.inj hs ▸ (fades_jobs s _).trans (fades_enter _ b nofun)
  | start a =>
    simp only [step, ite_none_right_eq_some] at hs
    exact some.inj hs.2 ▸ fades_enter s a nofun
  | failOrphanedImports a ok =>
    simp only [step, ite_none_right_eq_some] at hs
    obtain ⟨-, hs⟩ := hs
    cases hs
    split
    · exact (fades_enter s a (p := .poolPaths) nofun).trans (fades_imageStatus _ _ .failed)
    · exact fades_enter s a nofun
  | poolPaths a ok =>
    simp only [step, ite_none_right_eq_some] at hs
    obtain ⟨-, hs⟩ := hs
    cases hs
    refine fades_enter s a fun paths hpaths => ?_
    cases ok <;> cases hpaths
  | dropOrphanedReservations a ok =>
    cases ok with
    | true => exact absurd rfl (hdrop a)
    | false =>
    simp only [step] at hs
    split at hs
    · exact some.inj hs ▸ fades_enter s a nofun
    · cases hs
  | removeFile a ok =>
    simp only [step] at hs
    split at hs
    · exact some.inj hs ▸ fades_enter s a nofun
    · next p paths hphase =>
      have hnext : Fades s (s.enter a (.removeFiles paths)) := by
        refine fades_enter s a fun paths' heq => ⟨_, hphase, fun x hx => ?_⟩
        obtain rfl := Phase.removeFiles.inj heq
        exact List.mem_cons_of_mem p hx
      cases hs
      split
      · exact hnext.trans (fades_files _ _)
      · exact hnext
    · cases hs

variable {dir : HostPath} {format : Format} {id : Id} {ok : Bool}

theorem Kept.createVolume {b : ι} {pool : Id} {host : Option Id} (h : Kept s)
    (hs : step shared s (.createVolume b id pool dir format host) = some s') : Kept s' := by
  simp only [step, ite_none_right_eq_some] at hs
  obtain ⟨⟨-, hnew⟩, hs⟩ := hs
  cases hs
  refine ⟨?_, ?_, ?_, ?_⟩
  · intro j hj r hr hid
    rcases List.mem_cons.mp hj with rfl | hj
    · cases hid
    · exact h.imports j hj r hr hid
  · intro j hj id' hid
    rcases List.mem_cons.mp hj with rfl | hj
    · exact List.mem_cons.mpr (.inl (some.inj hid).symm)
    · exact List.mem_cons_of_mem _ (h.jobs j hj id' hid)
  · intro r hr
    rcases List.mem_cons.mp hr with rfl | hr
    · exact List.mem_cons_self ..
    · exact List.mem_cons_of_mem _ (h.rows r hr)
  · intro a paths hp p hmem
    obtain ⟨dir', id', format', heq, hused, hjobs⟩ := h.removed a paths hp p hmem
    refine ⟨dir', id', format', heq, List.mem_cons_of_mem _ hused, ?_⟩
    intro j hj hne hid
    rcases List.mem_cons.mp hj with rfl | hj
    · exact hnew (some.inj hid ▸ hused)
    · exact hjobs j hj hne hid

/-- The files that are to go after an `Alone` statement are those of no other instance. -/
theorem Kept.dropOrphanedReservations (h : Kept s)
    (halone : Alone s (.dropOrphanedReservations a true))
    (hs : step shared s (.dropOrphanedReservations a true) = some s') : Kept s' := by
  simp only [step] at hs
  split at hs
  · next pools _ =>
    cases hs
    refine ⟨h.imports, h.jobs, fun r hr => h.rows r (mem_deleteWhere.mp hr).1, ?_⟩
    intro b paths hb p hp
    change update s.phase a _ b = _ at hb
    by_cases hba : b = a
    · subst hba
      rw [update_self] at hb
      obtain rfl := Phase.removeFiles.inj hb
      obtain ⟨r, hr, rfl⟩ := List.mem_map.mp hp
      obtain ⟨hmem, hprov⟩ := List.mem_filter.mp hr
      refine ⟨_, r.id, r.format, rfl, h.rows r hmem, fun j hj hne hid => ?_⟩
      exact halone j hj hne r hmem hid (eq_of_beq hprov)
    · rw [update_of_ne hba] at hb
      exact h.removed b paths hb p hp
  · cases hs

theorem kept_step (h : Kept s) (halone : Alone s e) (hs : step shared s e = some s') : Kept s' := by
  by_cases hcreate : ∀ b id pool dir format host, e ≠ .createVolume b id pool dir format host
  · by_cases hdrop : ∀ a, e ≠ .dropOrphanedReservations a true
    · exact h.fades (fades_step hs hcreate hdrop)
    · obtain ⟨a, ha⟩ := not_forall.mp hdrop
      obtain rfl := not_not.mp ha
      exact h.dropOrphanedReservations halone hs
  · simp only [not_forall, not_not] at hcreate
    obtain ⟨b, id, pool, dir, format, host, rfl⟩ := hcreate
    exact h.createVolume hs

theorem kept_reach (hr : Reach (step shared) Alone Begin s) : Kept s :=
  hr.invariant (fun _ hs => hs.kept) fun _ _ _ hs hok hstep => kept_step hs hok hstep

/-! ## What a start does to the work of others -/

omit [DecidableEq ι] in
theorem Spares.of_eq (himages : s'.images = s.images) (hvolumes : s'.volumes = s.volumes)
    (hfiles : s'.files = s.files) : Spares a s s' :=
  ⟨fun _ _ _ _ hr _ => himages ▸ hr, fun _ _ _ _ hr _ => hvolumes ▸ hr, fun _ _ _ hf => hfiles ▸ hf⟩

theorem Kept.spares_failImports (h : Kept s)
    (hs : step shared s (.failOrphanedImports a ok) = some s') : Spares a s s' := by
  simp only [step, ite_none_right_eq_some] at hs
  obtain ⟨-, hs⟩ := hs
  cases hs
  split
  · refine ⟨fun j hj hne r hr hid => ?_, fun _ _ _ _ hr _ => hr, fun _ _ _ hf => hf⟩
    have hown := h.imports j hj r hr hid
    refine mem_updateWhere.mpr ⟨r, hr, if_neg ?_⟩
    simp [ImageRow.orphanOf, hown, hne]
  · exact .of_eq rfl rfl rfl

omit [DecidableEq ι] in
theorem file_ne_of_volumeId {j : Job ι}
    (h : j.work.volumeId ≠ some id) : j.work.file ≠ ⟨none, volumePath dir id format⟩ := by
  intro heq
  have hname := congrArg (fun p => p.path.fileName) heq
  cases hw : j.work with
  | image id' dir' format' => simp [hw, Work.file, volumePath, HostPath.fileName_join] at hname
  | volume id' dir' format' host =>
  simp only [hw, Work.file, volumePath, HostPath.fileName_join, some.injEq,
    FileName.volume.injEq] at hname
  rw [hw, Work.volumeId, hname.1] at h
  exact h rfl

theorem Kept.spares_removeFile (h : Kept s)
    (hs : step shared s (.removeFile a ok) = some s') : Spares a s s' := by
  simp only [step] at hs
  split at hs
  · exact some.inj hs ▸ .of_eq rfl rfl rfl
  · next p paths hphase =>
    cases hs
    split
    · refine ⟨fun _ _ _ _ hr _ => hr, fun _ _ _ _ hr _ => hr, fun j hj hne hf => ?_⟩
      obtain ⟨dir, id, format, rfl, -, hjobs⟩ := h.removed a _ hphase p (List.mem_cons_self ..)
      refine mem_deleteWhere.mpr ⟨hf, beq_eq_false_iff_ne.mpr ?_⟩
      exact file_ne_of_volumeId (hjobs j hj hne)
    · exact .of_eq rfl rfl rfl
  · cases hs

theorem spares_dropOrphanedReservations_iff
    (hs : step shared s (.dropOrphanedReservations a true) = some s') :
    Spares a s s' ↔ Alone s (.dropOrphanedReservations a true) := by
  simp only [step] at hs
  split at hs
  · cases hs
    constructor
    · intro h j hj hne r hr hid hprov
      have hkept := (mem_deleteWhere.mp (h.volumes j hj hne r hr hid)).2
      rw [VolumeRow.provisioning, hprov] at hkept
      cases hkept
    · intro h
      refine ⟨fun _ _ _ _ hr _ => hr, fun j hj hne r hr hid => ?_, fun _ _ _ hf => hf⟩
      exact mem_deleteWhere.mpr ⟨hr, beq_eq_false_iff_ne.mpr (h j hj hne r hr hid)⟩
  · cases hs

/-- In a run in which every other start was alone, a step of a start leaves the work of the other
instances as it is exactly if it drops no reservation of theirs. -/
theorem reclaim_spares_iff (hr : Reach (step shared) Alone Begin s) (ha : e.reclaimer = some a)
    (hs : step shared s e = some s') : Spares a s s' ↔ Alone s e := by
  have hkept := kept_reach hr
  cases e with
  | failOrphanedImports b ok =>
    obtain rfl := some.inj ha
    exact iff_of_true (hkept.spares_failImports hs) trivial
  | poolPaths b ok =>
    simp only [step, ite_none_right_eq_some] at hs
    exact iff_of_true (some.inj hs.2 ▸ .of_eq rfl rfl rfl) trivial
  | dropOrphanedReservations b ok =>
    obtain rfl := some.inj ha
    cases ok with
    | true => exact spares_dropOrphanedReservations_iff hs
    | false =>
    refine iff_of_true ?_ trivial
    simp only [step] at hs
    split at hs
    · exact some.inj hs ▸ .of_eq rfl rfl rfl
    · cases hs
  | removeFile b ok =>
    obtain rfl := some.inj ha
    exact iff_of_true (hkept.spares_removeFile hs) trivial
  | _ => cases ha

end

/-! ## Two instances -/

def poolDir : HostPath := ⟨true, [.normal (.named "srv"), .normal (.named "pool")]⟩

def imagesDir : HostPath := ⟨true, [.normal (.named "srv"), .normal (.named "images")]⟩

/-- One instance imports an image; the other went down while it built a volume. -/
def importing : World Bool where
  images := [⟨0, .importing, some true⟩]
  volumes := [⟨1, .qcow2, some 5, .provisioning, some false⟩]
  pools := [(5, poolDir)]
  files := [⟨none, imagesDir.join (.image 0 .qcow2)⟩, ⟨none, volumePath poolDir 1 .qcow2⟩]
  jobs := [⟨true, .image 0 imagesDir .qcow2⟩]
  phase := fun b => if b then .serving else .down
  used := [1]

theorem importing_begin : Begin importing := by
  refine ⟨⟨by decide, ?_, by decide, ?_⟩, by decide⟩
  · intro j hj id hid
    rw [List.mem_singleton.mp hj] at hid
    cases hid
  · intro a paths hp
    cases a <;> cases hp

/-- As the second one starts, up to the statement that drops reservations. -/
def starting : List (Event Bool) := [.start false, .failOrphanedImports false true, .poolPaths false true]

theorem reclaim_spares_import : Spares false (final (step poolDir) importing starting)
      (final (step poolDir) importing (starting ++ [.dropOrphanedReservations false true])) := by
  have hreach : Reach (step poolDir) Alone Begin (final (step poolDir) importing starting) :=
    .next _ _ (.poolPaths false true)
      (.next _ _ (.failOrphanedImports false true)
        (.next _ _ (.start false) (.start _ importing_begin) trivial rfl) trivial rfl) trivial rfl
  refine (reclaim_spares_iff (e := .dropOrphanedReservations false true) hreach rfl rfl).mpr ?_
  intro j hj _ r _ hid
  rw [List.mem_singleton.mp hj] at hid
  cases hid

def quiet : World Bool where
  images := []
  volumes := []
  pools := [(5, poolDir)]
  files := []
  jobs := []
  phase := fun b => if b then .serving else .down
  used := []

theorem quiet_begin : Begin quiet := by
  refine ⟨⟨by decide, nofun, by decide, ?_⟩, by decide⟩
  intro a paths hp
  cases a <;> cases hp

def building : Job Bool := ⟨true, .volume 1 poolDir .qcow2 none⟩

/-- One instance builds a volume while the other starts. -/
def buildingMeanwhile : List (Event Bool) :=
  [.createVolume true 1 5 poolDir .qcow2 none, .write building] ++ starting

/-- **A start drops the volume that another instance is building.**  The row goes, although it names
the other instance, and the half-written file with it. -/
theorem reservation_of_other_dropped :
    Reach (step poolDir) anyStep Begin (final (step poolDir) quiet buildingMeanwhile) ∧
    (final (step poolDir) quiet buildingMeanwhile).volumes =
      [⟨1, .qcow2, some 5, .provisioning, some true⟩] ∧
    (final (step poolDir) quiet (buildingMeanwhile ++
      [.dropOrphanedReservations false true, .removeFile false true])).jobs = [building] ∧
    (final (step poolDir) quiet (buildingMeanwhile ++
      [.dropOrphanedReservations false true, .removeFile false true])).volumes = [] ∧
    (final (step poolDir) quiet (buildingMeanwhile ++
      [.dropOrphanedReservations false true, .removeFile false true])).files = [] ∧
    ¬ Spares false (final (step poolDir) quiet buildingMeanwhile)
      (final (step poolDir) quiet (buildingMeanwhile ++ [.dropOrphanedReservations false true])) := by
  refine ⟨Reach.final_anyStep quiet_begin rfl, by decide,
    by decide, by decide, by decide, fun h => ?_⟩
  have hrow := h.volumes building (by decide) (by decide) ⟨1, .qcow2, some 5, .provisioning, some true⟩
    (by decide) rfl
  exact absurd hrow (by decide)

end VQuasar.Reclaim
