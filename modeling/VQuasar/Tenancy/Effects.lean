import VQuasar.Tenancy.Statements

/-!
# Every request is a sequence of statements

One lemma for each handler, and `perform_steps` for all of them: what a write request leaves is
reached by statements that `Step` allows in its scope.
-/

namespace VQuasar.Tenancy

open List Option
open IdTable (eq_of_id id_lt get_eq_some)

variable {id : Id} {spec : VirtualMachineSpec}

section

variable {cfg : Config} {s : Scope} {u : AuthUser} {w : Write} {db d d' : Db} {d'' : Db} {α : Type}

theorem Steps.refl (d : Db) : Steps cfg s u w db d d := Relation.ReflTransGen.refl

theorem Steps.one (h : Step cfg s u w db d d') : Steps cfg s u w db d d' :=
  Relation.ReflTransGen.single h

theorem Steps.then (h : Steps cfg s u w db d d') (h' : Step cfg s u w db d' d'') :
    Steps cfg s u w db d d'' := h.tail h'

theorem Steps.trans (h : Steps cfg s u w db d d') (h' : Steps cfg s u w db d' d'') :
    Steps cfg s u w db d d'' := Relation.ReflTransGen.trans h h'

/-- What the request leaves behind is reached by statements that its scope allows. -/
def Stepwise (cfg : Config) (s : Scope) (u : AuthUser) (db : Db) (w : Write) : Prop :=
  Steps cfg s u w db db (w.perform cfg s u db)

/-- A handler that asks for its permission, checks, and writes last. -/
theorem Stepwise.of_settle {ok : Bool} {e : ApiError} {k : Unit → Except ApiError (Db × α)}
    (hrun : w.perform cfg s u db = (settle db (ensure ok e >>= k)).1)
    (h : ∀ db' a, k () = .ok (db', a) → Steps cfg s u w db db db') : Stepwise cfg s u db w := by
  unfold Stepwise
  rw [hrun]
  exact settle_induction (.refl db) fun db' a hr => h db' a (ensure_bind.mp hr).2

theorem Stepwise.of_attempt {β : Type} {r : Except ApiError α} {run : α → Outcome β}
    (hrun : w.perform cfg s u db = (attempt db r run).1)
    (h : ∀ a, r = .ok a → Steps cfg s u w db db (run a).1) : Stepwise cfg s u db w := by
  unfold Stepwise
  rw [hrun]
  exact attempt_induction (.refl db) h

/-! ## What the lookups establish -/

variable {vm : Vm} {v : Volume} {name : Option String} {x : Option (Vm × Db)} {body : CreateVolume}
  {plan : VolumePlan} {machineType : MachineType}

theorem ownsVm_of_get (h : db.getVm s id = some vm) : s.OwnsVm db id := by
  obtain ⟨hmem, hid, hown⟩ := Db.getVm_eq_some.mp h
  intro r hr hrid
  rwa [eq_of_id hr hmem (hrid.trans hid.symm)]

theorem ownsVolume_of_get (h : db.getVolume s id = some v) : s.OwnsVolume db id := by
  obtain ⟨hmem, hid, hown⟩ := Db.getVolume_eq_some.mp h
  intro r hr hrid
  rwa [eq_of_id hr hmem (hrid.trans hid.symm)]

theorem ownsTemplate_of_inScope (h : db.templateInScope s id) : s.OwnsTemplate db id := by
  obtain ⟨t, hmem, hid, hown⟩ := Db.templateInScope_iff.mp h
  intro r hr hrid
  rwa [eq_of_id hr hmem (hrid.trans hid.symm)]

theorem ownsGroup_of_inScope (h : db.securityGroupsInScope s [id]) : s.OwnsGroup db id := by
  obtain ⟨g, hmem, hid, hown⟩ := Db.mem_of_securityGroupsInScope h (mem_singleton.mpr rfl)
  intro r hr hrid
  rwa [eq_of_id hr hmem (hrid.trans hid.symm)]

theorem ownsNetwork_of_writable (h : db.networkWritable s id) : s.OwnsNetwork db id := by
  obtain ⟨n, hmem, hid, hown⟩ := Db.networkWritable_iff.mp h
  intro r hr hrid
  rwa [eq_of_id hr hmem (hrid.trans hid.symm)]

theorem ownsImage_of_writable (h : db.imageWritable s id) : s.OwnsImage db id := by
  obtain ⟨i, hmem, hid, hown⟩ := Db.imageWritable_iff.mp h
  intro r hr hrid
  rwa [eq_of_id hr hmem (hrid.trans hid.symm)]

theorem ownsVm_next (s : Scope) (db : Db) : s.OwnsVm db db.vms.next :=
  fun _ hr hid => absurd hid (Nat.ne_of_lt (id_lt hr))

theorem ownsVolume_next (s : Scope) (db : Db) : s.OwnsVolume db db.volumes.next :=
  fun _ hr hid => absurd hid (Nat.ne_of_lt (id_lt hr))

/-! ## Virtual machines -/

theorem accept_step (vm : Id) (name taskType eventType : String) :
    Step cfg s u w db d (accept d vm name taskType eventType).1 :=
  .log

theorem acceptTask_step (vm : Id) (taskType : String) :
    Step cfg s u w db d (acceptTask d vm taskType).1 :=
  .log

theorem allocatesFor_steps {vm : Id} (hvm : s.OwnsVm db vm) (h : AllocatesFor vm d d')
    (hw : (∃ spec, Launches cfg db s u w spec) ∨ ∃ i body, w = .changeNic vm i body) :
    Steps cfg s u w db d d' := by
  obtain ⟨t, rfl, hkept, hsame⟩ := h
  exact .one (.allocate hvm hkept hsame hw)

/-- The three ways a launch ends: refused, taken back, or done. -/
theorem launch_cases (cfg : Config) (db : Db) (name : String) (spec : VirtualMachineSpec)
    (project : Id) : (∃ e, launch cfg db name spec project = (db, .error e)) ∨
    ∃ db₁ db₂, db.insertVmWithId name spec project (cfg.phoneHomeToken db.vms.next) = .ok db₁ ∧
      AllocatesFor db.vms.next db₁ db₂ ∧
      ((∃ e, launch cfg db name spec project = (db₂.deleteVmRow db.vms.next, .error e)) ∨
        launch cfg db name spec project = (db₂, .ok db.vms.next)) := by
  simp only [launch, attempt]
  cases hins : db.insertVmWithId name spec project (cfg.phoneHomeToken db.vms.next) with
  | error e => exact Or.inl ⟨e, rfl⟩
  | ok db₁ =>
  have halloc := allocateNicIps_allocatesFor db.vms.next spec.networkInterfaces db₁ 0
  refine Or.inr ⟨db₁, _, rfl, halloc, ?_⟩
  simp only
  cases hr : allocateNicIps db₁ db.vms.next spec.networkInterfaces 0 with
  | mk db₂ r =>
    cases r with
    | error e => exact Or.inl ⟨e, rfl⟩
    | ok _ => exact Or.inr rfl

theorem launch_steps (cfg : Config) (name : String) (hl : Launches cfg db s u w spec) : Steps cfg s
    u w db db (launch cfg db name spec s.owningProject).1 ∧ ∀ id, (launch cfg db name spec
    s.owningProject).2 = .ok id → id < (launch cfg db name spec s.owningProject).1.vms.next := by
  rcases launch_cases cfg db name spec s.owningProject with
    ⟨e, he⟩ | ⟨db₁, db₂, hins, halloc, hend⟩
  · rw [he]
    exact ⟨.refl db, fun _ h => nomatch h⟩
  cases Db.insertVmWithId_ok hins
  have hsteps := (Steps.one (.insertVm hl rfl)).trans
    (allocatesFor_steps (ownsVm_next s db) halloc (Or.inl ⟨spec, hl⟩))
  rcases hend with ⟨e, he⟩ | he
  · rw [he]
    exact ⟨hsteps.then (.removeVm le_rfl ⟨spec, hl⟩), fun _ h => nomatch h⟩
  rw [he]
  refine ⟨hsteps, ?_⟩
  rintro id ⟨⟩
  obtain ⟨t, rfl, -, -⟩ := halloc
  exact Nat.lt_succ_self _

theorem createVm_steps (body : CreateVm) : Stepwise cfg s u db (.createVm body) := by
  refine .of_attempt rfl fun spec hspec => ?_
  have hlaunch := (launch_steps cfg body.name (.create hspec)).1
  cases hr : launch cfg db body.name spec s.owningProject with
  | mk db₁ r =>
    rw [hr] at hlaunch
    cases r with
    | error e => exact hlaunch
    | ok id => exact hlaunch.then (accept_step id body.name _ _)

theorem createFromTemplate_steps (body : CreateVmFromTemplate) :
    Stepwise cfg s u db (.createFromTemplate body) := by
  refine .of_attempt rfl fun spec hspec => ?_
  have hlaunch := (launch_steps cfg body.name (.fromTemplate hspec)).1
  cases hr : launch cfg db body.name spec s.owningProject with
  | mk db₁ r =>
    rw [hr] at hlaunch
    cases r with
    | error e => exact hlaunch
    | ok id => exact hlaunch.then (accept_step id body.name _ _)

theorem createFromVolume_steps (body : CreateVmFromVolume) :
    Stepwise cfg s u db (.createFromVolume body) := by
  refine .of_attempt rfl fun r hspec => ?_
  obtain ⟨v, spec⟩ := r
  obtain ⟨-, -, hget, -⟩ := volumeSpec_ok hspec
  have hown : s.OwnsVolume db v.id := by
    rw [(Db.getVolume_eq_some.mp hget).2.1]
    exact ownsVolume_of_get hget
  have hlaunch := launch_steps cfg body.name (.fromVolume hspec)
  cases hr : launch cfg db body.name spec s.owningProject with
  | mk db₁ r =>
    rw [hr] at hlaunch
    obtain ⟨hsteps, hdone⟩ := hlaunch
    cases r with
    | error e => exact hsteps
    | ok id =>
      refine (hsteps.then (.attachment hown ?_)).then (accept_step id body.name _ _)
      rintro i ⟨⟩
      exact hdone id rfl

theorem respec_steps (hvm : vm ∈ db.vms)
    (hid : vm.id = id) (hr : Respecs cfg db s w vm spec) (h : d.writeSpec id name spec = .ok x) :
    Steps cfg s u w db d ((x.map Prod.snd).getD d) := by
  subst hid
  cases x with
  | none => exact .refl d
  | some r =>
    obtain ⟨vm', d₁⟩ := r
    cases Db.writeSpec_ok h
    exact .one (.respec hvm hr)

theorem writeSpec_next (h : d.writeSpec id name spec =
    .ok x) : ((x.map Prod.snd).getD d).vms.next = d.vms.next := by
  cases x with
  | none => rfl
  | some r =>
    obtain ⟨vm', d₁⟩ := r
    cases Db.writeSpec_ok h
    rfl

theorem updateVm_steps (body : UpdateVm) : Stepwise cfg s u db (.updateVm id body) := by
  refine .of_attempt rfl fun r hr => ?_
  replace hr := of_ensure hr
  obtain ⟨vm, hvm, hr⟩ := orElse_bind.mp hr
  obtain ⟨spec, hspec, hr⟩ := bind_eq_ok.mp hr
  obtain ⟨written, hw, hr⟩ := bind_eq_ok.mp hr
  obtain ⟨hmem, rfl, hown⟩ := Db.getVm_eq_some.mp hvm
  cases orElse_eq_ok.mp hr
  exact (respec_steps hmem rfl (.update hown hspec) hw).then (accept_step _ _ _ _)

theorem changeNic_steps (index : Nat) (body : ChangeNic) :
    Stepwise cfg s u db (.changeNic id index body) := by
  refine .of_attempt rfl fun r hr => ?_
  obtain ⟨spec, moved⟩ := r
  obtain ⟨vm, nic, hvm, hnet, hgroups, hnic, -, rfl, -, -⟩ := changeNicSpec_ok hr
  obtain ⟨hmem, rfl, hown⟩ := Db.getVm_eq_some.mp hvm
  have hvmown := ownsVm_of_get hvm
  have halloc := allocateOneNic_allocatesFor (db.releaseNicAllocations vm.id index) vm.id moved index
  have hsteps : Steps cfg s u (.changeNic vm.id index body) db db
      (allocateOneNic (db.releaseNicAllocations vm.id index) vm.id moved index).1 :=
    (Steps.one (.releaseNic hvmown ⟨body, rfl⟩)).trans
      (allocatesFor_steps hvmown halloc (Or.inr ⟨index, body, rfl⟩))
  cases ha : allocateOneNic (db.releaseNicAllocations vm.id index) vm.id moved index with
  | mk db₁ r =>
    rw [ha] at hsteps
    cases r with
    | error e => exact hsteps
    | ok _ =>
    refine attempt_induction hsteps fun written hwritten => ?_
    obtain ⟨x, hx, hwritten⟩ := bind_eq_ok.mp hwritten
    cases orElse_eq_ok.mp hwritten
    exact (hsteps.trans (respec_steps hmem rfl (.nic hown hnet hgroups hnic) hx)).then
      (accept_step _ _ _ _)

theorem setPower_steps (power : DesiredPowerState) (taskType : String)
    (hr : ∀ vm : Vm, vm.id = id → s.owns vm.project →
      Respecs cfg db s w vm { vm.spec with desiredPowerState := power }) :
    Steps cfg s u w db db (setPower db s u id power taskType).1 := by
  refine attempt_induction (.refl db) fun db₁ h => ?_
  replace h := of_ensure h
  obtain ⟨vm, hvm, h⟩ := orElse_bind.mp h
  obtain ⟨written, hw, h⟩ := bind_eq_ok.mp h
  obtain ⟨hmem, hid, hown⟩ := Db.getVm_eq_some.mp hvm
  cases pure_eq_ok.mp h
  exact (respec_steps hmem hid (hr vm hid hown) hw).then (acceptTask_step _ _)

theorem startVm_steps : Steps cfg s u (.startVm id) db db (startVm db s u id).1 :=
  setPower_steps _ _ fun _ hid hown => hid ▸ .start hown

theorem stopVm_steps : Steps cfg s u (.stopVm id) db db (stopVm db s u id).1 :=
  setPower_steps _ _ fun _ hid hown => hid ▸ .stop hown

theorem deleteVm_steps : Stepwise cfg s u db (.deleteVm id) := by
  refine .of_attempt rfl fun vm h => ?_
  replace h := of_ensure h
  exact (Steps.one (.phase (ownsVm_of_get (orElse_eq_ok.mp h)) (Or.inl rfl))).then
    (acceptTask_step _ _)

theorem migrateChecks_vm {body : MigrateRequest} {r : Vm × Id × CpuCompat} (h : migrateChecks db s u
    id body = .ok r) : db.getVm s id = some r.1 := by
  replace h := of_ensure h
  obtain ⟨vm, hvm, h⟩ := orElse_bind.mp h
  replace h := of_ensure h
  obtain ⟨sourceId, -, h⟩ := orElse_bind.mp h
  replace h := of_ensure h
  obtain ⟨target, -, h⟩ := orElse_bind.mp h
  replace h := of_ensure h
  replace h := of_ensure h
  replace h := of_ensure h
  obtain ⟨-, -, h⟩ := bind_eq_ok.mp h
  replace h := of_ensure h
  obtain ⟨source, -, h⟩ := orElse_bind.mp h
  cases of_ensure_pure h
  exact hvm

theorem compatEvent_step (vm : Id) (c : CpuCompat) : Step cfg s u w db d (compatEvent d vm c) := by
  cases c <;> exact .log

theorem requestMigration_steps (vm : Vm) (source target : Id)
    (hphase : ∀ d : Db, Step cfg s u w db d (d.setVmPhase vm.id .migrating)) :
    Steps cfg s u w db d (requestMigration d vm source target) := by
  have htask : Step cfg s u w db d ((d.insertTask "vm.migrate" (some vm.id)).insertMigration vm.id
      (some source) target d.tasks.next) := .log
  exact ((Steps.one htask).then (hphase _)).then .log

theorem migrateVm_steps (body : MigrateRequest) :
    Stepwise cfg s u db (.migrateVm id body) := by
  refine .of_attempt rfl fun r h => ?_
  have hvm := migrateChecks_vm h
  obtain ⟨-, rfl, -⟩ := Db.getVm_eq_some.mp hvm
  exact (Steps.one (compatEvent_step r.1.id r.2.2)).trans
    (requestMigration_steps _ _ _ fun _ => .phase (ownsVm_of_get hvm) (Or.inr ⟨body, rfl⟩))

/-! ## Volumes -/

theorem volumeSource_ok {format format' : Format} {reserve : Int} {source : Option HostPath}
    (h : db.volumeSource s body format = .ok (format', reserve, source)) :
    ∀ path, source = some path → ∃ img ∈ db.images, s.sees img.project ∧ img.sourcePath = path := by
  unfold Db.volumeSource at h
  cases himage : body.sourceImage with
  | none =>
    rw [himage] at h
    cases of_ensure_pure h
    exact fun _ hpath => nomatch hpath
  | some imageId =>
    rw [himage] at h
    obtain ⟨img, himg, h⟩ := orElse_bind.mp h
    cases of_ensure_pure h
    obtain ⟨hmem, -, hsees⟩ := Db.visibleImage_eq_some.mp himg
    rintro path ⟨⟩
    exact ⟨img, hmem, hsees, rfl⟩

theorem volumePlan_ok (h : volumePlan db s u body = .ok plan) : ∀ path, plan.source = some path →
      ∃ img ∈ db.images, s.sees img.project ∧ img.sourcePath = path := by
  replace h := of_ensure h
  replace h := of_ensure h
  obtain ⟨format, -, h⟩ := orElse_bind.mp h
  replace h := of_ensure h
  replace h := of_ensure h
  obtain ⟨-, -, h⟩ := bind_eq_ok.mp h
  obtain ⟨pool, -, h⟩ := bind_eq_ok.mp h
  obtain ⟨host, -, h⟩ := bind_eq_ok.mp h
  obtain ⟨⟨format', reserve, source⟩, hsource, ⟨⟩⟩ := of_bind_pure h
  exact volumeSource_ok hsource

theorem buildVolume_steps {tool : ToolRun}
    {path : HostPath} (hpath : OwnFile cfg db s path) (hsource : ∀ path, plan.source = some path →
      ∃ img ∈ db.images, s.sees img.project ∧ img.sourcePath = path) :
    Steps cfg s u w db d (buildVolume cfg d db.volumes.next path plan body tool).1 := by
  have hbuild : Step cfg s u w db d (d.fileOp (plan.build path)) := by
    refine .file ?_
    unfold VolumePlan.build
    cases hs : plan.source with
    | none => exact .write hpath
    | some source =>
      obtain ⟨img, himg, hsees, rfl⟩ := hsource source hs
      exact .clone hpath himg hsees
  have hunlink : Steps cfg s u w db d ((d.fileOp (plan.build path)).fileOp (.unlink path)) :=
    (Steps.one hbuild).then (.file (.unlink hpath))
  have habandon : Steps cfg s u w db d
      (abandonVolume (d.fileOp (plan.build path)) db.volumes.next path) := by
    have hnew : ∀ r : Volume, (r.id == db.volumes.next && r.status == .provisioning) →
        r.id = db.volumes.next := fun r hp => eq_of_beq (Bool.and_eq_true_iff.mp hp).1
    refine hunlink.then (.deleteVolumes (fun r hp => ?_) fun r hp => .inr (hnew r hp).ge)
    rw [hnew r hp]
    exact ownsVolume_next s db
  simp only [buildVolume]
  cases plan.built body tool with
  | error e => exact habandon
  | ok size =>
  simp only
  cases hfin : (d.fileOp (plan.build path)).finalizeVolume db.volumes.next size with
  | error e => exact habandon
  | ok r =>
  cases r with
  | none => exact hunlink
  | some d₁ =>
    cases Db.finalizeVolume_ok hfin
    exact (Steps.one hbuild).then (.finalizeVolume (ownsVolume_next s db))

theorem createVolume_steps (body : CreateVolume) (tool : ToolRun) :
    Stepwise cfg s u db (.createVolume body tool) := by
  refine .of_attempt rfl fun plan hplan => ?_
  refine attempt_induction (.refl db) fun db₁ hins => ?_
  cases Db.createVolume_ok hins
  exact (Steps.one .createVolume).trans
    (buildVolume_steps (.new _ _) (volumePlan_ok hplan))

theorem deleteVolume_steps : Stepwise cfg s u db (.deleteVolume id) := by
  refine .of_settle rfl fun db₁ _ h => ?_
  obtain ⟨v, hv, h⟩ := orElse_bind.mp h
  cases of_ensure_pure h
  obtain ⟨hmem, -, hown⟩ := Db.getVolume_eq_some.mp hv
  have hunlink : Steps cfg s u (.deleteVolume id) db db (db.fileOp (.unlink (db.fileOf cfg v))) :=
    .one (.file (.unlink (.old hmem hown)))
  have hremove : Steps cfg s u (.deleteVolume id) db db (db.removeFile v (db.fileOf cfg v)) := by
    unfold Db.removeFile
    cases v.host with
    | none => exact hunlink
    | some h =>
    simp only
    split
    · exact hunlink
    · exact .refl db
  have hid : ∀ r : Volume, (r.id == id && s.owns r.project) → r.id = id :=
    fun r hp => eq_of_beq (Bool.and_eq_true_iff.mp hp).1
  refine hremove.then (.deleteVolumes (fun r hp => ?_) fun r hp => .inl (by rw [hid r hp]))
  rw [hid r hp]
  exact ownsVolume_of_get hv

theorem attachVolume_steps (vmId : Id) : Stepwise cfg s u db (.attachVolume id vmId) := by
  refine .of_settle rfl fun db₁ _ h => ?_
  obtain ⟨v, hv, h⟩ := orElse_bind.mp h
  replace h := of_ensure h
  replace h := of_ensure h
  obtain ⟨vm, hvm, h⟩ := orElse_bind.mp h
  obtain ⟨-, -, h⟩ := bind_eq_ok.mp h
  obtain ⟨written, hw, h⟩ := bind_eq_ok.mp h
  obtain ⟨v', -, ⟨⟩⟩ := of_orElse_pure h
  obtain ⟨hmem, rfl, hown⟩ := Db.getVm_eq_some.mp hvm
  obtain ⟨hvmem, rfl, hvown⟩ := Db.getVolume_eq_some.mp hv
  refine (respec_steps hmem rfl (.attach hown hvmem hvown) hw).then
    (.attachment (ownsVolume_of_get hv) ?_)
  rintro i ⟨⟩
  rw [writeSpec_next hw]
  exact id_lt hmem

theorem detachVolume_steps : Stepwise cfg s u db (.detachVolume id) := by
  refine .of_settle rfl fun db₁ _ h => ?_
  obtain ⟨v, hv, h⟩ := orElse_bind.mp h
  obtain ⟨vmId, hatt, h⟩ := orElse_bind.mp h
  obtain ⟨db₂, hdrop, h⟩ := bind_eq_ok.mp h
  obtain ⟨v', -, ⟨⟩⟩ := of_orElse_pure h
  obtain ⟨hvmem, rfl, hvown⟩ := Db.getVolume_eq_some.mp hv
  have hdropped : Steps cfg s u (.detachVolume v.id) db db db₂ := by
    unfold Db.dropDisk at hdrop
    cases hvm : db.vms.get vmId with
    | none =>
      rw [hvm] at hdrop
      cases hdrop
      exact .refl db
    | some vm =>
      rw [hvm] at hdrop
      obtain ⟨hmem, rfl⟩ := get_eq_some.mp hvm
      replace hdrop := of_ensure hdrop
      obtain ⟨written, hw, ⟨⟩⟩ := of_bind_pure hdrop
      exact respec_steps hmem rfl (.detach hvmem hvown hatt) hw
  exact hdropped.then (.attachment (ownsVolume_of_get hv) fun _ hi => nomatch hi)

theorem qemuImg_step (hv : db.getVolume s id = some v) (tool : ToolRun) : Step cfg s u
    w db d (qemuImg d (db.fileOf cfg v) tool).1 := by
  obtain ⟨hmem, -, hown⟩ := Db.getVolume_eq_some.mp hv
  cases tool <;> exact .file (.write (.old hmem hown))

theorem createSnapshot_steps (name : String) (tool : ToolRun) :
    Stepwise cfg s u db (.createSnapshot id name tool) := by
  refine .of_attempt rfl fun v h => ?_
  replace h := of_ensure h
  replace h := of_ensure h
  obtain ⟨v', hv, h⟩ := orElse_bind.mp h
  obtain ⟨-, -, ⟨⟩⟩ := of_bind_pure h
  have hstep : Step cfg s u (.createSnapshot id name tool) db db
      (qemuImg db (db.fileOf cfg v) tool).1 := qemuImg_step hv tool
  cases hq : qemuImg db (db.fileOf cfg v) tool with
  | mk db₁ r =>
    rw [hq] at hstep
    cases r with
    | error e => exact .one hstep
    | ok _ =>
      obtain ⟨hmem, rfl, hown⟩ := Db.getVolume_eq_some.mp hv
      exact (Steps.one hstep).then (.createSnapshot hmem hown)

theorem deleteSnapshot_steps (snap : Id) (tool : ToolRun) :
    Stepwise cfg s u db (.deleteSnapshot id snap tool) := by
  refine .of_settle rfl fun db₁ _ h => ?_
  obtain ⟨v, hv, h⟩ := orElse_bind.mp h
  cases of_ensure_pure h
  exact (Steps.one (qemuImg_step hv tool)).then (.deleteSnapshot rfl)

theorem revertSnapshot_steps (snap : Id) (tool : ToolRun) :
    Stepwise cfg s u db (.revertSnapshot id snap tool) := by
  refine .of_attempt rfl fun v h => ?_
  replace h := of_ensure h
  obtain ⟨v', hv, h⟩ := orElse_bind.mp h
  replace h := of_ensure h
  obtain ⟨-, -, ⟨⟩⟩ := of_bind_pure h
  exact .one (qemuImg_step hv tool)

/-! ## Images and templates -/

theorem createImage_steps (body : CreateImage) : Stepwise cfg s u db (.createImage body) := by
  refine .of_settle rfl fun db₁ _ h => ?_
  obtain ⟨format, hcheck, h⟩ := bind_eq_ok.mp h
  obtain ⟨db₂, hins, h⟩ := bind_eq_ok.mp h
  obtain ⟨image, -, ⟨⟩⟩ := of_orElse_pure h
  cases Db.insertImage_ok hins
  exact .one (.insertImage rfl hcheck)

theorem updateImage_steps (body : CreateImage) :
    Stepwise cfg s u db (.updateImage id body) := by
  refine .of_settle rfl fun db₁ _ h => ?_
  obtain ⟨format, hcheck, h⟩ := bind_eq_ok.mp h
  obtain ⟨hown, h⟩ := ensure_bind.mp h
  obtain ⟨db₂, hupd, h⟩ := bind_eq_ok.mp h
  obtain ⟨image, -, ⟨⟩⟩ := of_orElse_pure h
  cases Db.updateImage_ok hupd
  exact .one (.updateImage rfl (ownsImage_of_writable hown) hcheck)

theorem deleteImage_steps : Stepwise cfg s u db (.deleteImage id) := by
  refine .of_settle rfl fun db₁ _ h => ?_
  obtain ⟨db₂, hdel, h⟩ := bind_eq_ok.mp h
  obtain ⟨hwritable, h⟩ := ensure_bind.mp h
  obtain ⟨img, hmem, rfl, hown⟩ := Db.imageWritable_iff.mp hwritable
  have hget : db.images.get img.id = some img := get_eq_some.mpr ⟨hmem, rfl⟩
  rw [hget] at h
  cases pure_eq_ok.mp h
  cases Db.deleteImages_ok hdel
  have hdeleted : Steps cfg s u (.deleteImage img.id) db db { db with
      images := db.images.delete fun r => r.id == img.id && s.ownsShareable r.project } :=
    .one (.deleteImage (ownsImage_of_writable hwritable))
  split
  · exact hdeleted.then (.file (.unlinkImage hmem hown))
  · exact hdeleted

theorem checkRefs_network {body : CreateTemplate} {x : Unit}
    (h : body.checkRefs db s machineType = .ok x) : body.network.all (db.networkVisible s) := by
  obtain ⟨image, -, h⟩ := orElse_bind.mp h
  exact (ensure_bind.mp h).1

theorem checkRefs_image {body : CreateTemplate} {x : Unit}
    (h : body.checkRefs db s machineType = .ok x) : db.imageVisible s body.image := by
  obtain ⟨image, himage, -⟩ := orElse_bind.mp h
  exact isSome_iff_exists.mpr ⟨image, himage⟩

theorem createTemplate_steps (body : CreateTemplate) :
    Stepwise cfg s u db (.createTemplate body) := by
  refine .of_settle rfl fun db₁ _ h => ?_
  obtain ⟨-, -, h⟩ := bind_eq_ok.mp h
  replace h := of_ensure h
  obtain ⟨⟨format, machineType⟩, -, h⟩ := bind_eq_ok.mp h
  obtain ⟨_, hrefs, h⟩ := bind_eq_ok.mp h
  obtain ⟨db₂, hins, ⟨⟩⟩ := of_bind_pure h
  cases Db.insertTemplate_ok hins
  exact .one (.insertTemplate rfl rfl (checkRefs_network hrefs) (checkRefs_image hrefs))

theorem updateTemplate_steps (body : CreateTemplate) :
    Stepwise cfg s u db (.updateTemplate id body) := by
  refine .of_settle rfl fun db₁ _ h => ?_
  obtain ⟨-, -, h⟩ := bind_eq_ok.mp h
  obtain ⟨⟨format, machineType⟩, -, h⟩ := bind_eq_ok.mp h
  obtain ⟨hown, h⟩ := ensure_bind.mp h
  obtain ⟨_, hrefs, h⟩ := bind_eq_ok.mp h
  obtain ⟨db₂, hupd, h⟩ := bind_eq_ok.mp h
  obtain ⟨t, -, ⟨⟩⟩ := of_orElse_pure h
  cases Db.updateTemplate_ok hupd
  obtain ⟨t₀, ht₀, rfl, hown₀⟩ := Db.templateInScope_iff.mp hown
  exact .one (.updateTemplate rfl rfl (checkRefs_network hrefs) ht₀ hown₀ (checkRefs_image hrefs))

theorem deleteTemplate_steps : Stepwise cfg s u db (.deleteTemplate id) := by
  refine .of_settle rfl fun db₁ _ h => ?_
  obtain ⟨hown, h⟩ := ensure_bind.mp h
  cases pure_eq_ok.mp h
  exact .one (.deleteTemplate (ownsTemplate_of_inScope hown))

/-! ## Networks and security groups -/

theorem networkSegment_ok {kind : NetworkKind} {body : CreateNetwork} {key : SegmentKey}
    {vni : Option Nat} (h : db.networkSegment cfg kind body = .ok (key, vni, db')) :
    ∃ t, db' = { db with segments := t } := by
  cases kind with
  | tenant =>
    obtain ⟨⟨n, db₁⟩, halloc, ⟨⟩⟩ := of_bind_pure h
    simp only [Db.allocateVxlan] at halloc
    split at halloc
    · cases halloc
    · cases halloc
      exact ⟨_, rfl⟩
  | provider | vlan =>
    cases h
    exact ⟨db.segments, rfl⟩

theorem createNetwork_steps (body : CreateNetwork) : Stepwise cfg s u db (.createNetwork body) := by
  refine .of_attempt rfl fun kind _ => ?_
  refine attempt_induction (.refl db) fun r hseg => ?_
  obtain ⟨key, vni, db₁⟩ := r
  obtain ⟨t, ht⟩ := networkSegment_ok hseg
  have hsegment : Steps cfg s u (.createNetwork body) db db db₁ := by
    rw [ht]
    exact .one .segments
  refine attempt_induction hsegment fun db₂ hins => ?_
  cases Db.insertNetwork_ok hins
  cases vni with
  | none => exact hsegment.then (.createNetwork rfl rfl)
  | some n => exact (hsegment.then (.createNetwork rfl rfl)).then .segments

theorem updateNetwork_steps (body : CreateNetwork) :
    Stepwise cfg s u db (.updateNetwork id body) := by
  refine .of_settle rfl fun db₁ _ h => ?_
  replace h := of_ensure h
  obtain ⟨-, -, h⟩ := bind_eq_ok.mp h
  obtain ⟨hown, h⟩ := ensure_bind.mp h
  obtain ⟨existing, -, h⟩ := orElse_bind.mp h
  replace h := of_ensure h
  obtain ⟨net, -, ⟨⟩⟩ := of_orElse_pure h
  exact .one (.updateNetwork (ownsNetwork_of_writable hown) rfl)

theorem adoptSegment_steps (body : AdoptSegment) :
    Stepwise cfg s u db (.adoptSegment id body) := by
  refine settle_induction (.refl db) fun db₁ _ h => ?_
  obtain ⟨hown, h⟩ := ensure_bind.mp h
  obtain ⟨net, -, h⟩ := orElse_bind.mp h
  obtain ⟨-, -, h⟩ := bind_eq_ok.mp h
  replace h := of_ensure h
  replace h := of_ensure h
  replace h := of_ensure h
  replace h := of_ensure h
  obtain ⟨db₂, hadopt, h⟩ := bind_eq_ok.mp h
  obtain ⟨net', -, ⟨⟩⟩ := of_orElse_pure h
  cases Db.adoptNetworkSegment_ok hadopt
  exact .one (.adoptSegment (ownsNetwork_of_writable hown) ⟨body, rfl⟩)

theorem deleteNetwork_steps : Stepwise cfg s u db (.deleteNetwork id) := by
  refine .of_settle rfl fun db₁ _ h => ?_
  obtain ⟨hown, h⟩ := ensure_bind.mp h
  cases pure_eq_ok.mp h
  have hdel : Steps cfg s u (.deleteNetwork id) db db
      (db.deleteNetworks fun n => n.id == id && s.ownsShareable n.project) :=
    .one (.deleteNetwork rfl (ownsNetwork_of_writable hown))
  cases (db.networks.get id).bind Network.segmentKey with
  | none => exact hdel
  | some key =>
    cases key with
    | physical => exact hdel
    | vxlan vni => exact hdel.then .segments

theorem createGroup_steps (body : CreateGroup) : Stepwise cfg s u db (.createGroup body) := by
  refine .of_settle rfl fun db₁ _ h => ?_
  cases of_ensure_pure h
  exact .one .createGroup

theorem updateGroup_steps (body : CreateGroup) :
    Stepwise cfg s u db (.updateGroup id body) := by
  refine .of_settle rfl fun db₁ _ h => ?_
  replace h := of_ensure h
  obtain ⟨hg, h⟩ := ensure_bind.mp h
  obtain ⟨g, -, ⟨⟩⟩ := of_orElse_pure h
  exact .one (.updateGroup (ownsGroup_of_inScope hg))

theorem deleteGroup_steps : Stepwise cfg s u db (.deleteGroup id) := by
  refine .of_settle rfl fun db₁ _ h => ?_
  obtain ⟨hg, h⟩ := ensure_bind.mp h
  replace h := of_ensure h
  obtain ⟨db₂, hdel, ⟨⟩⟩ := of_bind_pure h
  cases Db.deleteGroups_ok hdel
  exact .one (.deleteGroup rfl (ownsGroup_of_inScope hg))

theorem addRule_steps (body : CreateRule) : Stepwise cfg s u db (.addRule id body) := by
  refine .of_settle rfl fun db₁ _ h => ?_
  obtain ⟨hg, h⟩ := ensure_bind.mp h
  obtain ⟨⟨direction, ethertype, protocol, cidr⟩, -, h⟩ := bind_eq_ok.mp h
  replace h := of_ensure h
  cases of_ensure_pure h
  exact (Steps.one (.addRule rfl hg)).then
    (.touch (Or.inl ⟨body, rfl⟩) (ownsGroup_of_inScope hg))

theorem deleteRule_steps (rule : Id) : Stepwise cfg s u db (.deleteRule id rule) := by
  refine .of_settle rfl fun db₁ _ h => ?_
  obtain ⟨hg, h⟩ := ensure_bind.mp h
  cases of_ensure_pure h
  have hown := ownsGroup_of_inScope hg
  exact (Steps.one (.deleteRule rfl hown)).then (.touch (Or.inr ⟨rule, rfl⟩) hown)

/-! ## Projects, roles, hosts and pools -/

theorem createProject_steps (body : CreateProject) : Stepwise cfg s u db (.createProject body) := by
  refine .of_settle rfl fun db₁ _ h => ?_
  obtain ⟨-, -, h⟩ := bind_eq_ok.mp h
  obtain ⟨db₂, hins, h⟩ := bind_eq_ok.mp h
  obtain ⟨project, -, ⟨⟩⟩ := of_orElse_pure h
  cases Db.insertProject_ok hins
  exact .one (.createProject rfl)

theorem updateProject_steps (body : CreateProject) :
    Stepwise cfg s u db (.updateProject id body) := by
  refine .of_settle rfl fun db₁ _ h => ?_
  obtain ⟨-, -, h⟩ := bind_eq_ok.mp h
  obtain ⟨db₂, hupd, h⟩ := bind_eq_ok.mp h
  obtain ⟨project, -, ⟨⟩⟩ := of_orElse_pure h
  cases Db.updateProject_ok hupd
  exact .one (.updateProject rfl)

theorem deleteProject_steps : Stepwise cfg s u db (.deleteProject id) := by
  refine .of_settle rfl fun db₁ _ h => ?_
  obtain ⟨project, -, h⟩ := orElse_bind.mp h
  replace h := of_ensure h
  replace h := of_ensure h
  obtain ⟨db₂, hdel, ⟨⟩⟩ := of_bind_pure h
  cases Db.deleteProject_ok hdel
  exact .one (.deleteProject rfl)

theorem setQuota_steps (body : Quota.Limits) :
    Stepwise cfg s u db (.setQuota id body) := by
  refine .of_attempt rfl fun _ _ => ?_
  refine attempt_induction (.refl db) fun db₁ hset => ?_
  obtain ⟨t, rfl, ht⟩ := Db.setQuota_ok hset
  exact .one (.setQuota rfl ht)

theorem clearQuota_steps : Stepwise cfg s u db (.clearQuota id) := by
  refine .of_settle rfl fun db₁ _ h => ?_
  cases of_ensure_pure h
  exact .one (.clearQuota rfl)

theorem setUserRoles_steps (roles : List Id) :
    Stepwise cfg s u db (.setUserRoles id roles) := by
  refine .of_settle rfl fun db₁ _ h => ?_
  obtain ⟨target, htarget, h⟩ := orElse_bind.mp h
  obtain ⟨db₂, hset, ⟨⟩⟩ := of_bind_pure h
  have hid : target.id = id := (get_eq_some.mp htarget).2
  subst hid
  obtain ⟨t, rfl, hnew, hold⟩ := Db.setUserRoles_ok hset
  exact .one (.setUserRoles (get_eq_some.mp htarget).1 hnew hold)

theorem createRole_steps (body : CreateRole) : Stepwise cfg s u db (.createRole body) := by
  refine .of_settle rfl fun db₁ _ h => ?_
  replace h := of_ensure h
  obtain ⟨permissions, -, h⟩ := bind_eq_ok.mp h
  obtain ⟨db₂, hins, ⟨⟩⟩ := of_bind_pure h
  cases Db.createRole_ok hins
  exact .one .createRole

theorem updateRole_steps (body : UpdateRole) :
    Stepwise cfg s u db (.updateRole id body) := by
  refine .of_settle rfl fun db₁ _ h => ?_
  obtain ⟨role, hrole, h⟩ := orElse_bind.mp h
  replace h := of_ensure h
  obtain ⟨permissions, hperms, h⟩ := bind_eq_ok.mp h
  obtain ⟨db₂, hupd, ⟨⟩⟩ := of_bind_pure h
  have hid : role.id = id := (get_eq_some.mp hrole).2
  subst hid
  cases Db.updateRolePermissions_ok hupd
  exact .one (.updateRole rfl (get_eq_some.mp hrole).1 hperms)

theorem deleteRole_steps : Stepwise cfg s u db (.deleteRole id) := by
  refine .of_settle rfl fun db₁ _ h => ?_
  cases of_ensure_pure h
  exact .one (.deleteRole rfl)

theorem addGroupRole_steps (group : String) (role : Id) :
    Stepwise cfg s u db (.addGroupRole group role) := by
  refine .of_settle rfl fun db₁ _ h => ?_
  replace h := of_ensure h
  obtain ⟨db₂, hadd, ⟨⟩⟩ := of_bind_pure h
  obtain ⟨rfl, hrole⟩ := Db.addGroupRole_ok hadd
  exact .one (.addGroupRole hrole)

theorem removeGroupRole_steps (group : String) (role : Id) :
    Stepwise cfg s u db (.removeGroupRole group role) := by
  refine .of_settle rfl fun db₁ _ h => ?_
  cases of_ensure_pure h
  exact .one .removeGroupRole

theorem registerHost_steps (name endpoint : String) :
    Stepwise cfg s u db (.registerHost name endpoint) := by
  refine .of_settle rfl fun db₁ _ h => ?_
  cases of_ensure_pure h
  exact .one (.registerHost (Or.inl rfl))

theorem insertEvent_step (r : ResourceType) (id : Option Id) (type severity message : String) :
    Step cfg s u w db d (d.insertEvent r id type severity message) :=
  .log

theorem updateHost_steps (schedulable : Bool) :
    Stepwise cfg s u db (.updateHost id schedulable) := by
  refine .of_settle rfl fun db₁ _ h => ?_
  obtain ⟨host, -, h⟩ := orElse_bind.mp h
  obtain ⟨host', -, ⟨⟩⟩ := of_orElse_pure h
  exact (Steps.one (.schedulable (Or.inl rfl))).then (insertEvent_step _ _ _ _ _)

theorem drainVm_steps (start : Db) (source : Host) (compat : List Host)
    (hvm : vm ∈ db.vms) (acc : Db × DrainResult) :
    Steps cfg s u (.drainHost source.id) db acc.1 (drainVm cfg start source compat vm acc).1 := by
  obtain ⟨d, r⟩ := acc
  simp only [drainVm]
  split
  · exact .refl d
  rename_i hhere
  simp only [Bool.or_eq_true, bne_iff_ne, not_or, not_not] at hhere
  cases d.drainObstacle source.id vm with
  | some reason => exact .refl d
  | none =>
  simp only
  cases cfg.schedule start (r.migrating.map fun m => (m.vm, m.targetHost)) vm compat with
  | error e => exact .refl d
  | ok target => exact requestMigration_steps _ _ _ fun _ => .drainPhase rfl hvm hhere.1

theorem drainVms_steps (start : Db) (source : Host) (compat : List Host) {vms : List Vm}
    (hvms : ∀ vm ∈ vms, vm ∈ db.vms) : ∀ acc, Steps cfg s u (.drainHost source.id) db acc.1
      (drainVms cfg start source compat vms acc).1 := by
  induction vms with
  | nil => exact fun acc => .refl acc.1
  | cons vm vms ih =>
    intro acc
    exact (drainVm_steps start source compat (hvms vm mem_cons_self) acc).trans
      (ih (fun vm' h => hvms vm' (mem_cons_of_mem _ h)) _)

theorem drainHost_steps : Stepwise cfg s u db (.drainHost id) := by
  refine .of_settle rfl fun db₁ _ h => ?_
  obtain ⟨source, hsource, ⟨⟩⟩ := of_orElse_pure h
  have hid : source.id = id := (get_eq_some.mp hsource).2
  subst hid
  refine Steps.then ?_ (insertEvent_step _ _ _ _ _)
  set cordoned := (db.setHostSchedulable source.id false).insertEvent .host (some source.id)
    "host.cordoned" "info" source.name
  have hcordon : Steps cfg s u (.drainHost source.id) db db cordoned :=
    (Steps.one (.schedulable (Or.inr ⟨rfl, rfl⟩))).then (insertEvent_step _ _ _ _ _)
  exact hcordon.trans (drainVms_steps cordoned source _ (fun _ h => h) (cordoned, ⟨[], []⟩))

theorem enroll_steps (name endpoint : String) (ca : Text Unit) :
    Stepwise cfg s u db (.enroll name endpoint ca) := by
  refine .of_attempt rfl fun _ _ => ?_
  have hrows : Steps cfg s u (.enroll name endpoint ca) db db
      { db.registerHost name endpoint with
        enrollmentTokens := db.enrollmentTokens ++
          [⟨db.hosts.next, cfg.enrollmentToken db.hosts.next, false⟩] } :=
    (Steps.one (.registerHost (Or.inr ⟨ca, rfl⟩))).then .enrollmentTokens
  cases ca with
  | error e => exact hrows
  | ok _ => exact hrows.then (insertEvent_step _ _ _ _ _)

theorem createPool_steps (body : CreatePool) : Stepwise cfg s u db (.createPool body) := by
  refine .of_settle rfl fun db₁ _ h => ?_
  obtain ⟨-, -, h⟩ := bind_eq_ok.mp h
  obtain ⟨-, -, h⟩ := bind_eq_ok.mp h
  obtain ⟨x, hpath, h⟩ := bind_eq_ok.mp h
  obtain ⟨db₂, hins, ⟨⟩⟩ := of_bind_pure h
  cases Db.insertStoragePool_ok hins
  exact .one (.createPool hpath)

theorem updatePool_steps (name : String) (description : Option String) :
    Stepwise cfg s u db (.updatePool id name description) := by
  refine .of_settle rfl fun db₁ _ h => ?_
  obtain ⟨-, -, h⟩ := bind_eq_ok.mp h
  obtain ⟨db₂, hupd, h⟩ := bind_eq_ok.mp h
  obtain ⟨pool, -, ⟨⟩⟩ := of_orElse_pure h
  cases Db.updateStoragePool_ok hupd
  exact .one (.updatePool rfl)

theorem deletePool_steps : Stepwise cfg s u db (.deletePool id) := by
  refine .of_settle rfl fun db₁ _ h => ?_
  obtain ⟨hempty, h⟩ := ensure_bind.mp h
  cases of_ensure_pure h
  refine .one (.deletePool rfl fun v hv hpool => ?_)
  have hnil : (db.volumes.rows.filter fun v => v.pool == some id) = [] :=
    length_eq_zero_iff.mp (of_decide_eq_true (by simpa [Db.volumesInPool] using hempty))
  have hmem : v ∈ db.volumes.rows.filter fun v => v.pool == some id :=
    mem_filter.mpr ⟨hv, by simp [hpool]⟩
  simp [hnil] at hmem

/-! ## All of them -/

/-- **Every request is a sequence of guarded statements.**  Whatever a handler leaves behind is
reached by statements that its scope allows. -/
theorem perform_steps (cfg : Config) (s : Scope) (u : AuthUser) (db : Db) (w : Write) :
    Steps cfg s u w db db (w.perform cfg s u db) := by
  cases w with
  | createVm => exact createVm_steps _
  | createFromTemplate => exact createFromTemplate_steps _
  | createFromVolume => exact createFromVolume_steps _
  | updateVm => exact updateVm_steps _
  | changeNic => exact changeNic_steps _ _
  | startVm => exact startVm_steps
  | stopVm => exact stopVm_steps
  | deleteVm => exact deleteVm_steps
  | migrateVm => exact migrateVm_steps _
  | createVolume => exact createVolume_steps _ _
  | deleteVolume => exact deleteVolume_steps
  | attachVolume => exact attachVolume_steps _
  | detachVolume => exact detachVolume_steps
  | createSnapshot => exact createSnapshot_steps _ _
  | deleteSnapshot => exact deleteSnapshot_steps _ _
  | revertSnapshot => exact revertSnapshot_steps _ _
  | createImage => exact createImage_steps _
  | updateImage => exact updateImage_steps _
  | deleteImage => exact deleteImage_steps
  | createTemplate => exact createTemplate_steps _
  | updateTemplate => exact updateTemplate_steps _
  | deleteTemplate => exact deleteTemplate_steps
  | createNetwork => exact createNetwork_steps _
  | updateNetwork => exact updateNetwork_steps _
  | adoptSegment => exact adoptSegment_steps _
  | deleteNetwork => exact deleteNetwork_steps
  | createGroup => exact createGroup_steps _
  | updateGroup => exact updateGroup_steps _
  | deleteGroup => exact deleteGroup_steps
  | addRule => exact addRule_steps _
  | deleteRule => exact deleteRule_steps _
  | createProject => exact createProject_steps _
  | updateProject => exact updateProject_steps _
  | deleteProject => exact deleteProject_steps
  | setQuota => exact setQuota_steps _
  | clearQuota => exact clearQuota_steps
  | setUserRoles => exact setUserRoles_steps _
  | createRole => exact createRole_steps _
  | updateRole => exact updateRole_steps _
  | deleteRole => exact deleteRole_steps
  | addGroupRole => exact addGroupRole_steps _ _
  | removeGroupRole => exact removeGroupRole_steps _ _
  | registerHost => exact registerHost_steps _ _
  | updateHost => exact updateHost_steps _
  | drainHost => exact drainHost_steps
  | enroll => exact enroll_steps _ _ _
  | createPool => exact createPool_steps _
  | updatePool => exact updatePool_steps _ _
  | deletePool => exact deletePool_steps

end

end VQuasar.Tenancy
