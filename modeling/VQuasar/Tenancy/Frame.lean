import VQuasar.Tenancy.Ownership

/-!
# What a project's callers leave alone

Callers whose bindings all name project `P` should leave every row that is neither `P`'s nor new as
it was (`Frame`).  The handlers look most rows up in the scope of the request, and there the frame
holds.  Where they act on an id from the path, on a platform resource, or on rows that hang on one of
`P`'s, it takes a condition on the request (`contained`):

    Reach (serving cfg) (contained P) (· = db₀) db → Frame P db₀ db        (cross_project_frame)

A request is a list of statements (`serve_steps`), and the frame of a request is carried from
statement to statement, always relative to the database that the request has found: that is what its
handler has checked.
-/

namespace VQuasar.Tenancy

open List Option Bool Scope
open IdTable (get_any eq_of_id id_lt mem_updated)

/-! ## The property -/

/-- The snapshot is of a volume of another project. -/
def Db.OthersSnapshot (db : Db) (P : Id) (r : VolumeSnapshot) : Prop :=
  ∃ v ∈ db.volumes, v.id = r.volume ∧ v.project ≠ P

/-- The rule is in a group of another project. -/
def Db.OthersRule (db : Db) (P : Id) (r : SecurityGroupRule) : Prop :=
  ∃ g ∈ db.securityGroups, g.id = r.group ∧ g.project ≠ P

/-- Every row of `db` that is not of project `P` is in `d`, unchanged. -/
structure Frame (P : Id) (db d : Db) : Prop where
  vms : IdTable.Kept (fun r => r.project ≠ P) db.vms d.vms
  volumes : IdTable.Kept (fun r => r.project ≠ P) db.volumes d.volumes
  snapshots : IdTable.Kept (db.OthersSnapshot P) db.snapshots d.snapshots
  templates : IdTable.Kept (fun r => r.project ≠ P) db.templates d.templates
  images : IdTable.Kept (fun r => r.project ≠ some P) db.images d.images
  securityGroups : IdTable.Kept (fun r => r.project ≠ P) db.securityGroups d.securityGroups
  rules : IdTable.Kept (db.OthersRule P) db.rules d.rules
  networks : IdTable.Kept (fun r => r.project ≠ some P) db.networks d.networks
  projects : IdTable.Kept (fun r => r.id ≠ P) db.projects d.projects
  quotas : ∀ q ∈ db.quotas, q.project ≠ P → q ∈ d.quotas
  hosts : IdTable.Kept (fun _ => True) db.hosts d.hosts
  pools : IdTable.Kept (fun _ => True) db.pools d.pools

/-- A volume is attached to a VM there is, or was (a foreign key of `volumes`). -/
def Db.AttachmentsKeyed (db : Db) : Prop :=
  ∀ v ∈ db.volumes, ∀ i, v.attachedVm = some i → i < db.vms.next

/-! ## What the handlers leave unchecked -/

/-- The rule is in no group of another project. -/
def Db.ownRule (db : Db) (P : Id) (r : SecurityGroupRule) : Bool :=
  db.securityGroups.rows.all fun g => g.id != r.group || g.project == P

/-- No VM of another project that is not about to go lists the group. -/
def Db.unlisted (db : Db) (P group : Id) : Bool :=
  db.vms.rows.all fun r => r.project == P || r.phase == .deleting || !Db.Vm.usesGroup r group

/-- Where its handler does not ask, the request stays with the rows of `P`, or leaves what it names
as it is. -/
def contained (P : Id) (db : Db) : Write → Bool -- the snapshot is one of a volume of `P`
  | .deleteSnapshot _ snap _ => db.snapshots.rows.all fun r => r.id != snap ||
      db.volumes.rows.all fun v => v.id != r.volume || v.project == P
  -- the VM the volume is attached to
  | .detachVolume id => db.volumes.rows.all fun v => v.id != id ||
      db.vms.rows.all fun r => v.attachedVm != some r.id || r.project == P
  -- the templates that name the network
  | .deleteNetwork id => db.templates.rows.all fun t => t.network != some id || t.project == P
  -- rules that name a deleted group go with it
  | .deleteGroup id => db.rules.rows.all fun r => r.remoteGroup != some id || db.ownRule P r
  | .addRule g _ => db.unlisted P g
  | .deleteRule g _ => db.unlisted P g
  | .updateProject id _ => id == P
  | .deleteProject id => id == P && db.rules.rows.all fun r => db.ownRule P r ||
      r.remoteGroup.all fun i => db.securityGroups.rows.any fun g => g.id == i && g.project != P
  | .setQuota id _ => id == P
  | .clearQuota id => id == P
  | .updateHost id schedulable => db.hosts.rows.all fun r => r.id != id || r.schedulable == schedulable
  | .drainHost id => (db.hosts.rows.all fun r => r.id != id || !r.schedulable) &&
      db.vms.rows.all fun r => r.host != some id || r.project == P
  | .updatePool id name description => db.pools.rows.all fun r => r.id != id ||
      (r.name == name && r.description == description)
  | .deletePool id => db.pools.rows.all fun r => r.id != id
  | _ => true

section

variable {cfg : Config} {P : Id} {db d d' d'' : Db} {u : AuthUser} {w : Write}

theorem Frame.refl (P : Id) (db : Db) : Frame P db db :=
  ⟨.refl _ _, .refl _ _, .refl _ _, .refl _ _, .refl _ _, .refl _ _, .refl _ _, .refl _ _,
    .refl _ _, fun _ h _ => h, .refl _ _, .refl _ _⟩

/-- A snapshot or rule of another project still is one, because what it hangs on is kept. -/
theorem Frame.trans (h : Frame P db d) (h' : Frame P d d') : Frame P db d' where
  vms := h.vms.trans h'.vms
  volumes := h.volumes.trans h'.volumes
  snapshots := by
    rintro r hr ⟨v, hv, hid, hne⟩
    exact h'.snapshots r (h.snapshots r hr ⟨v, hv, hid, hne⟩) ⟨v, h.volumes v hv hne, hid, hne⟩
  templates := h.templates.trans h'.templates
  images := h.images.trans h'.images
  securityGroups := h.securityGroups.trans h'.securityGroups
  rules := by
    rintro r hr ⟨g, hg, hid, hne⟩
    exact h'.rules r (h.rules r hr ⟨g, hg, hid, hne⟩) ⟨g, h.securityGroups g hg hne, hid, hne⟩
  networks := h.networks.trans h'.networks
  projects := h.projects.trans h'.projects
  quotas := fun q hq hne => h'.quotas q (h.quotas q hq hne) hne
  hosts := h.hosts.trans h'.hosts
  pools := h.pools.trans h'.pools

/-! ## One statement

Another project's row is none that the scope of `P` owns. -/

variable {id : Id} {r : SecurityGroupRule}

theorem Scope.OwnsVm.not_other (h : (project P).OwnsVm db id) {r : Vm}
    (hr : r ∈ db.vms) (hne : r.project ≠ P) : ¬ (r.id == id) :=
  fun hid => hne ((owns_project _ _).mp (h r hr (eq_of_beq hid)))

theorem Scope.OwnsVolume.not_other (h : (project P).OwnsVolume db id) {r : Volume}
    (hr : r ∈ db.volumes) (hne : r.project ≠ P) : ¬ (r.id == id) :=
  fun hid => hne ((owns_project _ _).mp (h r hr (eq_of_beq hid)))

theorem Scope.OwnsGroup.not_other (h : (project P).OwnsGroup db id)
    {r : SecurityGroup} (hr : r ∈ db.securityGroups) (hne : r.project ≠ P) : ¬ (r.id == id) :=
  fun hid => hne ((owns_project _ _).mp (h r hr (eq_of_beq hid)))

theorem Scope.OwnsNetwork.not_other (h : (project P).OwnsNetwork db id)
    {r : Network} (hr : r ∈ db.networks) (hne : r.project ≠ some P) : ¬ (r.id == id) :=
  fun hid => hne ((ownsShareable_project _ _).mp (h r hr (eq_of_beq hid)))

theorem Scope.OwnsImage.not_other (h : (project P).OwnsImage db id) {r : Image}
    (hr : r ∈ db.images) (hne : r.project ≠ some P) : ¬ (r.id == id) :=
  fun hid => hne ((ownsShareable_project _ _).mp (h r hr (eq_of_beq hid)))

theorem Db.OthersRule.not_owned (h : db.OthersRule P r)
    (hown : (project P).OwnsGroup db r.group) : False := by
  obtain ⟨g, hg, hid, hne⟩ := h
  exact hown.not_other hg hne (beq_iff_eq.mpr hid)

theorem Db.OthersRule.ownRule (h : db.OthersRule P r) : db.ownRule P r = false := by
  obtain ⟨g, hg, hid, hne⟩ := h
  rw [Db.ownRule, List.all_eq_false]
  exact ⟨g, hg, by simp [hid, hne]⟩

theorem Frame.dropGroups {p : SecurityGroup → Bool} (h : Frame P db d)
    (hp : ∀ g, p g → g.project = P)
    (hnamed : ∀ r ∈ db.rules, db.OthersRule P r → ∀ g ∈ d.securityGroups, p g →
      r.remoteGroup ≠ some g.id) : Frame P db (d.dropGroups p) := by
  refine { h with
    securityGroups := h.securityGroups.delete fun r _ hne hr => hne (hp r hr)
    rules := h.rules.delete fun r hr hother hgone => ?_ }
  rcases or_eq_true_iff.mp hgone with hin | hremote
  · obtain ⟨g₀, hg₀, hid₀, hne⟩ := hother
    obtain ⟨g, hg, hid, hpg⟩ := get_any.mp hin
    have heq := eq_of_id hg (h.securityGroups g₀ hg₀ hne) (hid.trans hid₀.symm)
    exact hne (heq ▸ hp g hpg)
  · obtain ⟨i, hi, hgone⟩ := (any_eq_true _ _).mp hremote
    obtain ⟨g, hg, rfl, hpg⟩ := get_any.mp hgone
    exact hnamed r hr hother g hg hpg hi

theorem Frame.dropProject (h : Frame P db d) (hok : contained P db (.deleteProject P)) :
    Frame P db (d.dropProject P) := by
  have hprojects : IdTable.Kept (fun r => r.id ≠ P) db.projects
      (d.setProjectDefaultGroup P none).projects :=
    h.projects.update fun r _ hne hid => absurd (eq_of_beq hid) hne
  have hgroups : Frame P db (d.dropProjectGroups P) := by
    refine Frame.dropGroups { h with projects := hprojects } ?_ ?_
    · intro g hg
      exact eq_of_beq (and_eq_true_iff.mp hg).1
    · -- a rule of another project names groups of other projects only
      intro r hr hother g hg hp hnamed
      have hrule := all_eq_true.mp (and_eq_true_iff.mp hok).2 r hr
      rw [hother.ownRule, hnamed] at hrule
      obtain ⟨g₀, hg₀, hg₀P⟩ := any_eq_true.mp hrule
      obtain ⟨hid, hne⟩ := and_eq_true_iff.mp hg₀P
      have hne : g₀.project ≠ P := by simpa using hne
      have heq := eq_of_id hg (h.securityGroups g₀ hg₀ hne) (eq_of_beq hid).symm
      exact hne (heq ▸ eq_of_beq (and_eq_true_iff.mp hp).1)
  refine { hgroups with
    projects := hgroups.projects.delete fun r _ hne hid => ?_
    quotas := fun q hq hne => ?_ }
  · exact hne (eq_of_beq (and_eq_true_iff.mp hid).1)
  · exact Table.mem_deleteWhere.mpr ⟨h.quotas q hq hne, by simpa using hne⟩

theorem Frame.deleteVolumes {p : Volume → Bool} (h : Frame P db d)
    (hp : ∀ r, p r → (project P).OwnsVolume db r.id) : Frame P db (d.deleteVolumes p) := by
  refine { h with
    volumes := h.volumes.delete fun r hr hne hpr => (hp r hpr).not_other hr hne (beq_self_eq_true _)
    snapshots := h.snapshots.delete fun r hr hother hgone => ?_ }
  obtain ⟨v₀, hv₀, hid₀, hne⟩ := hother
  obtain ⟨v, hv, hid, hpv⟩ := get_any.mp hgone
  exact (hp v hpv).not_other hv₀ hne (beq_iff_eq.mpr (hid₀.trans hid.symm))

theorem Frame.deleteNetwork (h : Frame P db d) (hok : contained P db (.deleteNetwork id)) :
    Frame P db (d.deleteNetworks fun n => n.id == id && (project P).ownsShareable n.project) := by
  refine { h with
    templates := h.templates.update fun t ht hne hgone => ?_
    networks := h.networks.delete fun r _ hne hr => ?_ }
  · obtain ⟨i, hi, hgone⟩ := (any_eq_true _ _).mp hgone
    obtain ⟨n, -, rfl, hn⟩ := get_any.mp hgone
    have hid : n.id = id := eq_of_beq (and_eq_true_iff.mp hn).1
    have hown := all_eq_true.mp hok t ht
    rw [show t.network = some id from hi.trans (congrArg some hid)] at hown
    exact absurd (by simpa using hown) hne
  · exact hne ((ownsShareable_project _ _).mp (and_eq_true_iff.mp hr).2)

theorem Respecs.own {vm : Vm} {spec : VirtualMachineSpec} (hok : contained P db w)
    (hvm : vm ∈ db.vms) (hr : Respecs cfg db (.project P) w vm spec) : vm.project = P := by
  cases hr with
  | update hown | nic hown | start hown | stop hown | attach hown =>
    exact (owns_project _ _).mp hown
  | detach hv hownv hatt =>
    have hvol := all_eq_true.mp hok _ hv
    simp only [bne_self_eq_false, Bool.false_or] at hvol
    have h := all_eq_true.mp hvol vm hvm
    simpa [hatt] using h

theorem fresh_ne {α : Type} [HasId α] {t : IdTable α} {r : α} (hr : r ∈ t) {i : Id}
    (hi : t.next ≤ i) : ¬ (HasId.id r == i) :=
  fun hid => absurd (eq_of_beq hid) (Nat.ne_of_lt (lt_of_lt_of_le (id_lt hr) hi))

/-- **One statement** of a request in the scope of `P`. -/
theorem Frame.step (hatt : db.AttachmentsKeyed) (hok : contained P db w)
    (h : Frame P db d) (hs : Step cfg (.project P) u w db d d') : Frame P db d' := by
  cases hs with
  | insertVm hl => exact { h with vms := h.vms.insert rfl }
  | removeVm hvm =>
    exact { h with
      vms := h.vms.delete fun r hr _ => fresh_ne hr hvm
      volumes := h.volumes.update fun r hr _ hid =>
        absurd (hatt r hr _ (eq_of_beq hid)) (Nat.not_lt.mpr hvm) }
  | respec hvm hr =>
    refine { h with vms := h.vms.update fun r hmem hne hid => absurd ?_ hne }
    rw [eq_of_id hmem hvm (eq_of_beq hid)]
    exact hr.own hok hvm
  | phase hvm =>
    exact { h with vms := h.vms.update fun r hr hne hid => absurd hid (hvm.not_other hr hne) }
  | drainPhase hw hvm hhost =>
    subst hw
    refine { h with vms := h.vms.update fun r hmem hne hid => absurd ?_ hne }
    rw [eq_of_id hmem hvm (eq_of_beq hid)]
    have hdrain := all_eq_true.mp (and_eq_true_iff.mp hok).2 _ hvm
    simpa [hhost] using hdrain
  | @touch g hw hg =>
    have hlist : db.unlisted P g := by
      rcases hw with ⟨body, rfl⟩ | ⟨rule, rfl⟩ <;> exact hok
    refine { h with vms := h.vms.update fun r hr hne hp => absurd ?_ hne }
    have hrow := all_eq_true.mp hlist r hr
    obtain ⟨hphase, huses⟩ := and_eq_true_iff.mp hp
    have hphase : r.phase ≠ .deleting := by simpa using hphase
    simpa [hphase, huses] using hrow
  | createVolume => exact { h with volumes := h.volumes.insert rfl }
  | finalizeVolume hv | attachment hv =>
    exact { h with
      volumes := h.volumes.update fun r hr hne hid => absurd hid (hv.not_other hr hne) }
  | deleteVolumes hp => exact h.deleteVolumes hp
  | createSnapshot hv hown => exact { h with snapshots := h.snapshots.insert rfl }
  | deleteSnapshot hw =>
    subst hw
    refine { h with snapshots := h.snapshots.delete fun r hr hother hid => ?_ }
    obtain ⟨v, hv, hvid, hne⟩ := hother
    have hsnap := all_eq_true.mp hok r hr
    rw [bne, hid] at hsnap
    have hvol := all_eq_true.mp hsnap v hv
    exact hne (by simpa [hvid] using hvol)
  | insertImage hw => exact { h with images := h.images.insert rfl }
  | updateImage hw hown =>
    exact { h with
      images := h.images.update fun r hr hne hid => absurd hid (hown.not_other hr hne) }
  | deleteImage hown =>
    exact { h with
      images := h.images.delete fun r hr hne hid =>
        hown.not_other hr hne (and_eq_true_iff.mp hid).1 }
  | insertTemplate hw hf hnet => exact { h with templates := h.templates.insert rfl }
  | updateTemplate hw hf hnet ht hown =>
    refine { h with templates := h.templates.update fun r hr hne hid => absurd ?_ hne }
    rw [eq_of_id hr ht (eq_of_beq hid)]
    exact (owns_project _ _).mp hown
  | deleteTemplate hown =>
    exact { h with
      templates := h.templates.delete fun r _ hne hid =>
        hne ((owns_project _ _).mp (and_eq_true_iff.mp hid).2) }
  | createNetwork hw hp =>
    -- the default group is put into the row of the new network
    exact { h with
      networks := (h.networks.insert rfl).update fun r hr hne hid =>
        absurd hid (fresh_ne (h.networks r hr hne) le_rfl)
      securityGroups := h.securityGroups.insert rfl }
  | updateNetwork hown =>
    exact { h with
      networks := h.networks.update fun r hr hne hid => absurd hid (hown.not_other hr hne) }
  | adoptSegment hown =>
    exact { h with
      networks := h.networks.update fun r hr hne hid =>
        absurd (and_eq_true_iff.mp hid).1 (hown.not_other hr hne) }
  | deleteNetwork hw hown =>
    subst hw
    exact h.deleteNetwork hok
  | createGroup => exact { h with securityGroups := h.securityGroups.insert rfl }
  | updateGroup hg =>
    exact { h with
      securityGroups := h.securityGroups.update fun r hr hne hid =>
        absurd hid (hg.not_other hr hne) }
  | deleteGroup hw hg =>
    subst hw
    refine h.dropGroups (fun g hp => ?_) fun r hr hother g _ hp hnamed => ?_
    · exact (owns_project _ _).mp (and_eq_true_iff.mp hp).2
    · have hrule := all_eq_true.mp hok r hr
      have hid := eq_of_beq (and_eq_true_iff.mp hp).1
      simp [hother.ownRule, hnamed, hid] at hrule
  | addRule hw hg => exact { h with rules := h.rules.insert rfl }
  | deleteRule hw hg =>
    refine { h with rules := h.rules.delete fun r _ hother hp => hother.not_owned ?_ }
    rwa [eq_of_beq (and_eq_true_iff.mp hp).2]
  | createProject hw =>
    exact { h with
      projects := (h.projects.insert rfl).update fun r hr hne hid =>
        absurd hid (fresh_ne (h.projects r hr hne) le_rfl)
      securityGroups := h.securityGroups.insert rfl }
  | updateProject hw =>
    subst hw
    exact { h with
      projects := h.projects.update fun r _ hne hid =>
        absurd ((eq_of_beq hid).trans (eq_of_beq hok)) hne }
  | deleteProject hw =>
    subst hw
    obtain rfl := eq_of_beq (and_eq_true_iff.mp hok).1
    exact h.dropProject hok
  | setQuota hw ht =>
    subst hw
    obtain rfl := eq_of_beq hok
    exact { h with quotas := fun q hq hne => (ht q hne).mpr (h.quotas q hq hne) }
  | clearQuota hw =>
    subst hw
    obtain rfl := eq_of_beq hok
    exact { h with
      quotas := fun q hq hne =>
        Table.mem_deleteWhere.mpr ⟨h.quotas q hq hne, by simpa using hne⟩ }
  | registerHost => exact { h with hosts := h.hosts.insert rfl }
  | @schedulable id b hw =>
    refine { h with hosts := h.hosts.update fun r hr _ hid => ?_ }
    have hsame : r.schedulable = b := by
      rcases hw with rfl | ⟨rfl, rfl⟩
      · have hrow := all_eq_true.mp hok r hr
        rw [bne, hid] at hrow
        exact eq_of_beq hrow
      · have hrow := all_eq_true.mp (and_eq_true_iff.mp hok).1 r hr
        rw [bne, hid] at hrow
        simpa using hrow
    rw [← hsame]
  | createPool => exact { h with pools := h.pools.insert rfl }
  | updatePool hw =>
    subst hw
    refine { h with pools := h.pools.update fun r hr _ hid => ?_ }
    have hrow := all_eq_true.mp hok r hr
    rw [bne, hid] at hrow
    obtain ⟨hname, hdescription⟩ := and_eq_true_iff.mp hrow
    rw [← eq_of_beq hname, ← eq_of_beq hdescription]
  | deletePool hw hpool =>
    subst hw
    refine { h with pools := h.pools.delete fun r hr _ hid => ?_ }
    have hrow := all_eq_true.mp hok r hr
    simp [bne, hid] at hrow
  | _ => exact { h with }

/-! ## Whole requests, and runs -/

theorem Db.AttachmentsKeyed.step {s : Scope} (h : d.AttachmentsKeyed)
    (hs : Step cfg s u w db d d') : d'.AttachmentsKeyed := by
  cases hs with
  | insertVm hl => exact fun v hv i hi => Nat.lt_succ_of_lt (h v hv i hi)
  | removeVm hvm =>
    intro v hv i hi
    obtain ⟨v₀, hv₀, rfl⟩ := mem_updated rfl hv
    split at hi
    · cases hi
    · exact h v₀ hv₀ i hi
  | createVolume =>
    intro v hv i hi
    rcases IdTable.mem_insert.mp hv with hold | rfl
    · exact h v hold i hi
    · cases hi
  | finalizeVolume hv =>
    intro v hv i hi
    obtain ⟨v₀, hv₀, rfl⟩ := mem_updated rfl hv
    split at hi <;> exact h v₀ hv₀ i hi
  | deleteVolumes hp => exact fun v hv => h v (IdTable.mem_delete.mp hv).1
  | attachment hv hvm =>
    intro v hv i hi
    obtain ⟨v₀, hv₀, rfl⟩ := mem_updated rfl hv
    split at hi
    · exact hvm i hi
    · exact h v₀ hv₀ i hi
  | _ => exact h

/-- A request that stays within `P` frames what is not `P`'s. -/
theorem Frame.steps (hatt : db.AttachmentsKeyed) (hok : contained P db w)
    (hs : Steps cfg (.project P) u w db db d) : Frame P db d ∧ d.AttachmentsKeyed := by
  induction hs with
  | refl => exact ⟨.refl P db, hatt⟩
  | tail _ hstep ih => exact ⟨ih.1.step hatt hok hstep, ih.2.step hstep⟩

theorem Frame.serve (hauth : cfg.authenticator) {r : Request}
    (hk : db.UsersKeyed) (hb : BoundTo cfg P db r.claims) (hatt : db.AttachmentsKeyed)
    (hok : contained P db r.write) :
    Frame P db (serve cfg db r) ∧ (serve cfg db r).AttachmentsKeyed := by
  obtain ⟨u, hsteps⟩ := serve_steps hauth hk hb
  obtain ⟨t, ht, -, -⟩ := login_users db hb.notBootstrap
  rw [ht] at hsteps
  have hok' : contained P { db with users := t } r.write = true := by
    rw [← hok]
    cases r.write <;> rfl
  have hatt' : Db.AttachmentsKeyed { db with users := t } := hatt
  obtain ⟨hframe, hatt''⟩ := Frame.steps hatt' hok' hsteps
  have hlogin : Frame P db { db with users := t } := { Frame.refl P db with }
  exact ⟨hlogin.trans hframe, hatt''⟩

end

/-- **Cross-project write frame.**  After any requests of callers bound in `P` only that stay with
`P`'s rows where the handler does not ask, every row that is not `P`'s is there unchanged. -/
theorem cross_project_frame {cfg : Config} {P : Id} {callers : Claims → Prop} {db₀ db : Db}
    (hauth : cfg.authenticator) (htenants : Tenants cfg P callers db₀) (hatt : db₀.AttachmentsKeyed)
    (h : Runs.Reach (serving cfg) (fun db r => callers r.claims ∧ contained P db r.write = true)
      (fun db => db = db₀) db) : Frame P db₀ db := by
  have hstart : ∀ d, d = db₀ →
      Tenants cfg P callers d ∧ d.AttachmentsKeyed ∧ Frame P db₀ d := by
    rintro d rfl
    exact ⟨htenants, hatt, .refl P d⟩
  refine (Runs.Reach.invariant hstart ?_ h).2.2
  rintro d d' r ⟨ht, hk, hf⟩ ⟨hcaller, hok⟩ hs
  cases hs
  obtain ⟨hframe, hk'⟩ := Frame.serve hauth ht.keyed (ht.bound _ hcaller) hk hok
  exact ⟨ht.serve hauth hcaller, hk', hf.trans hframe⟩

def snapshotDb : Db :=
  { sampleDb with
    volumes := ⟨[⟨0, "red-data", 10, .qcow2, none, none, none, .ready, some 0, none, none, 2⟩,
      ⟨1, "blue-data", 10, .qcow2, none, none, none, .ready, some 0, none, none, 3⟩], 2,
      by decide, by decide⟩
    snapshots := ⟨[⟨0, 0, "red-nightly"⟩, ⟨1, 1, "blue-nightly"⟩], 2, by decide, by decide⟩ }

theorem snapshotDb_attachmentsKeyed : snapshotDb.AttachmentsKeyed := by
  intro v hv i hi
  have hnone : ∀ v ∈ snapshotDb.volumes.rows, v.attachedVm = none := by decide
  simp [hnone v hv] at hi

/-- One request: a snapshot is deleted, under the path of the caller's own volume. -/
def deleteSnapshotRun (snap : Id) : List Request :=
  [⟨alice, .id 2, .deleteSnapshot 0 snap (.ok none)⟩]

theorem cross_project_frame_own_snapshot :
    (Runs.final (serving sampleCfg) snapshotDb (deleteSnapshotRun 0)).snapshots.rows.map
      VolumeSnapshot.id = [1] ∧
    Frame 2 snapshotDb (Runs.final (serving sampleCfg) snapshotDb (deleteSnapshotRun 0)) := by
  refine ⟨by decide, cross_project_frame rfl (sample_tenants rfl rfl rfl)
    snapshotDb_attachmentsKeyed (Runs.Reach.final (fun db r hok => ?_) rfl
      (by decide : Runs.execOk (serving sampleCfg)
        (fun db r => r.claims == alice && contained 2 db r.write) _ _ = true) (by decide))⟩
  obtain ⟨hclaims, hcontained⟩ := and_eq_true_iff.mp hok
  exact ⟨eq_of_beq hclaims, hcontained⟩

/-- **`delete_snapshot` deletes another project's snapshot**: the handler finds the volume in the
scope, and the snapshot by its id alone. -/
theorem foreign_snapshot_deleted : sampleCfg.tenancyEnabled ∧ sampleCfg.authenticator ∧
    Tenants sampleCfg 2 (fun c => c = alice) snapshotDb ∧ snapshotDb.AttachmentsKeyed ∧
    ∃ db, Runs.Reach (serving sampleCfg) (fun _ r => r.claims = alice)
      (fun db => db = snapshotDb) db ∧ ¬ Frame 2 snapshotDb db := by
  refine ⟨rfl, rfl, sample_tenants rfl rfl rfl, snapshotDb_attachmentsKeyed,
    Runs.final (serving sampleCfg) snapshotDb (deleteSnapshotRun 1), ?_, ?_⟩
  · exact Runs.Reach.final (fun _ _ => beq_iff_eq.mp) rfl
      (by decide : Runs.execOk (serving sampleCfg) (fun _ r => r.claims == alice) _ _ = true)
      (by decide)
  · intro h
    have hgone : (⟨1, 1, "blue-nightly"⟩ : VolumeSnapshot) ∉
        (Runs.final (serving sampleCfg) snapshotDb (deleteSnapshotRun 1)).snapshots := by decide
    exact hgone (h.snapshots _ (by decide) ⟨_, mem_cons_of_mem _ mem_cons_self, rfl,
      by decide⟩)

end VQuasar.Tenancy
