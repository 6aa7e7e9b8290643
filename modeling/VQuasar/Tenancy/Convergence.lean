import VQuasar.Tenancy.Bindings

/-!
# Which changes reach the dataplane

The reconcile loop hands a VM's bindings (`resolveBindings`) to the agent when it visits the VM, and it
visits the VMs of `list_vms_to_reconcile`: those in a phase that has not settled, and those whose
generation is not the observed one.  Bindings are made of six tables; a change to one of them reaches
a running VM only if the request that makes it bumps the generation of that VM.  For every action that
alters the bindings of a running VM,

    listed after ↔ listed before ∨ the action revisits the VM      (altered_listed_iff)

where the actions that revisit a VM are edits of its own spec and of the rules in a group that one of
its NICs lists.  The rules of default groups, the members of remote groups, the segment of a network
and the registry of hosts are not among them (`changes_overlooked`).
-/

namespace VQuasar.Tenancy

open List Option Bool
open IdTable (get_eq_some get_update id_lt get_delete)

/-! ## The work list -/

def Vm.settled (r : Vm) : Bool := r.phase == .running || r.phase == .stopped || r.phase == .failed

def Db.listVmsToReconcile (db : Db) : List Vm :=
  db.vms.rows.filter fun r => !r.settled || r.generation != r.observedGeneration

/-- The action changes what the loop would hand to the agent of a VM that is placed. -/
def Alters (cfg : Config) (underlay : Underlay) (db db' : Db) (vm vm' : Vm) : Prop :=
  ∃ host, vm.host = some host ∧
    resolveBindings cfg underlay db' vm' host ≠ resolveBindings cfg underlay db vm host

/-- The requests that bump the generation of a VM whose bindings they alter; `change_nic` may also
fail after it has released the old addresses. -/
def Write.revisits (s : Scope) (u : AuthUser) (db : Db) (vm : Vm) : Write → Bool
  | .addRule g _ => Db.Vm.usesGroup vm g
  | .deleteRule g _ => Db.Vm.usesGroup vm g
  | .updateVm id _ => id == vm.id
  | .changeNic id index body => id == vm.id && (Tenancy.changeNic db s u id index body).2.toBool
  | _ => false

def Action.revisits (cfg : Config) (db : Db) (vm : Vm) : Action → Bool
  | .request claims ref w =>
    match authenticate cfg db claims ref with
    | (_, .error _) => false
    | (db, .ok (u, s)) => w.revisits s u db vm
  | _ => false

/-! ## Requests that leave the bindings alone -/

/-- What bindings are made of is the same. -/
structure SameBindings (db d : Db) : Prop where
  vms : ∀ id, (d.vms.get id).map (fun r => (r.project, r.spec.networkInterfaces)) =
    (db.vms.get id).map fun r => (r.project, r.spec.networkInterfaces)
  rules : d.rules = db.rules
  allocations : d.allocations = db.allocations
  networks : d.networks = db.networks
  projects : d.projects = db.projects
  hosts : d.hosts.rows.map (fun h => (h.id, h.endpoint, h.certCn)) =
    db.hosts.rows.map fun h => (h.id, h.endpoint, h.certCn)

/-- Requests about the power, the place and the volumes of VMs. -/
def Write.marks : Write → Bool
  | .startVm _ | .stopVm _ | .deleteVm _ | .migrateVm _ _ | .attachVolume _ _ | .detachVolume _
  | .drainHost _ => true
  | _ => false

section

variable {cfg : Config} {underlay : Underlay} {s : Scope} {u : AuthUser} {w : Write}
  {db d d' : Db} {vm vm' : Vm} {g : Id}

namespace SameBindings

theorem refl (db : Db) : SameBindings db db := ⟨fun _ => rfl, rfl, rfl, rfl, rfl, rfl⟩

section

variable (h : SameBindings db d)
include h

theorem projectDefaultGroup (id : Id) : d.projectDefaultGroup id = db.projectDefaultGroup id := by
  have hcolumns : ∀ d : Db, d.projectDefaultGroup id =
      ((d.vms.get id).map fun r => (r.project, r.spec.networkInterfaces)).bind fun c =>
        (d.projects.get c.1).bind Project.defaultGroup := by
    intro d
    unfold Db.projectDefaultGroup
    cases d.vms.get id <;> rfl
  rw [hcolumns, hcolumns, h.vms, h.projects]

theorem nicGroups (a : IpAllocation) : d.nicGroups a = db.nicGroups a := by
  have hcolumns : ∀ d : Db, d.nicGroups a =
      ((a.vm.bind fun id => (d.vms.get id).map fun r => (r.project, r.spec.networkInterfaces)).bind
        fun c => c.2[a.nicIndex]?).elim [] NetworkInterfaceSpec.securityGroups := by
    intro d
    unfold Db.nicGroups
    cases a.vm with
    | none => rfl
    | some id =>
      simp only [bind_some]
      cases d.vms.get id <;> rfl
  rw [hcolumns, hcolumns]
  simp only [h.vms]

theorem groupsPolicy_eq (groups : List Id) :
    groupsPolicy cfg d groups = groupsPolicy cfg db groups := by
  refine groupsPolicy_congr (by unfold Db.rulesForGroups; rw [h.rules]) fun _ _ g _ => ?_
  unfold Db.addressesInGroup
  rw [h.allocations]
  exact flatMap_congr fun a _ => by rw [h.nicGroups]

theorem overlayPeers (host : Id) :
    d.overlayPeers underlay host = db.overlayPeers underlay host := by
  have hcolumns : ∀ d : Db, d.overlayPeers underlay host =
      ((d.hosts.rows.map fun h => (h.id, h.endpoint, h.certCn)).filter fun c => c.1 != host).filterMap
        fun c => (underlay.resolve c.2.1).map fun ip => ⟨ip, c.2.2.getD ""⟩ := by
    intro d
    rw [List.filter_map, List.filterMap_map]
    rfl
  rw [hcolumns, hcolumns, h.hosts]

theorem nicBinding_eq (hid : vm'.id = vm.id) (host : Id) (network : Network)
    (nic : NetworkInterfaceSpec) (i : Nat) : nicBinding cfg underlay d vm' host network nic i =
      nicBinding cfg underlay db vm host network nic i := by
  have hgroups : effectiveGroups cfg d vm'.id network nic =
      effectiveGroups cfg db vm.id network nic := by
    unfold effectiveGroups
    rw [hid, h.projectDefaultGroup]
  unfold nicBinding
  rw [hgroups, h.groupsPolicy_eq, h.overlayPeers, hid]

theorem resolveNics_eq (hid : vm'.id = vm.id) (host : Id) (nics : List NetworkInterfaceSpec) : ∀ i,
    resolveNics cfg underlay d vm' host nics i = resolveNics cfg underlay db vm host nics i := by
  induction nics with
  | nil => exact fun _ => rfl
  | cons nic nics ih =>
    intro i
    unfold resolveNics
    rw [h.networks, ih]
    simp only [h.nicBinding_eq hid]

section

variable (hvm : vm ∈ db.vms)
include hvm

section

variable (hvm' : vm' ∈ d.vms) (hid : vm'.id = vm.id)
include hvm' hid

theorem nics_eq : vm'.spec.networkInterfaces = vm.spec.networkInterfaces := by
  have hget : db.vms.get vm.id = some vm := get_eq_some.mpr ⟨hvm, rfl⟩
  have hget' : d.vms.get vm.id = some vm' := get_eq_some.mpr ⟨hvm', hid⟩
  have hrow := h.vms vm.id
  rw [hget, hget'] at hrow
  exact congrArg Prod.snd (some.inj hrow)

/-- **From the tables to the bindings.** -/
theorem resolveBindings_eq (host : Id) :
    resolveBindings cfg underlay d vm' host = resolveBindings cfg underlay db vm host := by
  unfold resolveBindings
  rw [h.nics_eq hvm hvm' hid]
  exact h.resolveNics_eq hid host _ 0

theorem not_alters : ¬ Alters cfg underlay db d vm vm' := by
  rintro ⟨host, -, halter⟩
  exact halter (h.resolveBindings_eq hvm hvm' hid host)

end

theorem alters (hvm' : vm ∈ d.vms)
    (halters : Alters cfg underlay db d' vm vm') : Alters cfg underlay d d' vm vm' := by
  obtain ⟨host, hhost, halter⟩ := halters
  refine ⟨host, hhost, ?_⟩
  rw [h.resolveBindings_eq hvm hvm' rfl]
  exact halter

end

theorem updateVms {p : Vm → Bool} {f : Vm → Vm} {hf : ∀ r, (f r).id = r.id}
    (hsame : ∀ r ∈ d.vms, p r → (f r).project = r.project ∧
      (f r).spec.networkInterfaces = r.spec.networkInterfaces) :
    SameBindings db { d with vms := d.vms.update p f hf } := by
  refine { h with vms := fun id => ?_ }
  rw [← h.vms id]
  refine IdTable.map_get_update (fun r hr _ hp => ?_) hf
  obtain ⟨hproject, hnics⟩ := hsame r hr hp
  rw [hproject, hnics]

end

theorem step (hw : w.marks) (h : SameBindings db d) (hs : Step cfg s u w db d d') :
    SameBindings db d' := by
  cases hs with
  | insertVm hl => cases hl <;> cases hw
  | allocate _ _ _ hw' =>
    rcases hw' with ⟨_, hl⟩ | ⟨_, _, rfl⟩
    · cases hl <;> cases hw
    · cases hw
  | releaseNic _ hw' =>
    obtain ⟨_, rfl⟩ := hw'
    cases hw
  | removeVm _ hw' =>
    obtain ⟨_, hl⟩ := hw'
    cases hl <;> cases hw
  | @respec r name spec hr hrespec =>
    -- the spec is that of the row the request has read, and so are its NICs
    have hnics : spec.networkInterfaces = r.spec.networkInterfaces := by
      cases hrespec with
      | update | nic => cases hw
      | _ => rfl
    refine h.updateVms fun r' hr' hid => ⟨rfl, ?_⟩
    exact hnics.trans (h.nics_eq hr hr' (eq_of_beq hid)).symm
  | phase | drainPhase | touch => exact h.updateVms fun _ _ _ => ⟨rfl, rfl⟩
  | createNetwork hw' | updateNetwork _ hw' =>
    subst hw'
    cases hw
  | adoptSegment _ hw' =>
    obtain ⟨_, rfl⟩ := hw'
    cases hw
  | deleteNetwork hw' | deleteGroup hw' | addRule hw' | deleteRule hw' | createProject hw'
  | updateProject hw' | deleteProject hw' =>
    subst hw'
    cases hw
  | registerHost hw' => rcases hw' with rfl | ⟨_, rfl⟩ <;> cases hw
  | schedulable =>
    -- not one of the columns that bindings read
    refine { h with hosts := (Table.map_updateWhere ?_).trans h.hosts }
    exact fun _ => rfl
  | _ => exact { h with }

theorem steps (hw : w.marks) (hs : Steps cfg s u w db db d) : SameBindings db d := by
  induction hs with
  | refl => exact .refl db
  | tail _ hstep ih => exact ih.step hw hstep

end SameBindings

/-! ## Requests that leave the row alone -/

/-- The requests that may write the row of a VM. -/
def Write.writesRow (vm : Vm) : Write → Bool
  | .addRule g _ => Db.Vm.usesGroup vm g
  | .deleteRule g _ => Db.Vm.usesGroup vm g
  | .updateVm id _ => id == vm.id
  | .changeNic id _ _ => id == vm.id
  | w => w.marks

theorem Step.get_eq (hw : w.writesRow vm = false) (hvm : vm ∈ db.vms)
    (hget : d.vms.get vm.id = some vm) (hs : Step cfg s u w db d d') :
    d'.vms.get vm.id = some vm := by
  have hkept : ∀ (p : Vm → Bool) (f : Vm → Vm) (hf : ∀ r, (f r).id = r.id), p vm = false →
      (d.vms.update p f hf).get vm.id = some vm := by
    intro p f hf hp
    rw [get_update, hget, map_some, hp]
    rfl
  cases hs with
  | insertVm hl =>
    rw [← hget]
    exact IdTable.get_insert_of_lt (id_lt (get_eq_some.mp hget).1)
  | @removeVm id hnew hw' =>
    rw [← hget]
    refine get_delete fun r _ hid => ?_
    have hid : r.id = vm.id := hid
    have hlt : vm.id < db.vms.next := id_lt hvm
    have hne : r.id ≠ id := hid ▸ Nat.ne_of_lt (lt_of_lt_of_le hlt hnew)
    exact beq_eq_false_iff_ne.mpr hne
  | @respec r name spec hr hrespec =>
    refine hkept _ (Db.respec name spec) (fun _ => rfl) ?_
    have hne : r.id ≠ vm.id := by
      cases hrespec with
      | update | nic => exact beq_eq_false_iff_ne.mp hw
      | _ => cases hw
    exact beq_eq_false_iff_ne.mpr hne.symm
  | phase _ hw' => rcases hw' with rfl | ⟨_, rfl⟩ <;> cases hw
  | drainPhase hw' =>
    subst hw'
    cases hw
  | @touch g hw' hg =>
    refine hkept _ (fun r => { r with generation := r.generation + 1 }) (fun _ => rfl) ?_
    have huses : Db.Vm.usesGroup vm g = false := by
      rcases hw' with ⟨_, rfl⟩ | ⟨_, rfl⟩ <;> exact hw
    rw [huses, Bool.and_false]
  | _ => exact hget

theorem Steps.get_eq (hw : w.writesRow vm = false) (hvm : vm ∈ db.vms)
    (hs : Steps cfg s u w db db d) : d.vms.get vm.id = some vm := by
  induction hs with
  | refl => exact get_eq_some.mpr ⟨hvm, rfl⟩
  | tail _ hstep ih => exact hstep.get_eq hw hvm ih

/-! ## Requests that bump the generation -/

/-- The row has a new generation, which the loop has not observed. -/
def Bumped (vm : Vm) (d : Db) : Prop :=
  ∃ r, d.vms.get vm.id = some r ∧ r.generation = vm.generation + 1 ∧
    r.observedGeneration = vm.observedGeneration

theorem Bumped.of_update {p : Vm → Bool} {f : Vm → Vm} (hget : d.vms.get vm.id = some vm)
    (hp : p vm) (hgen : (f vm).generation = vm.generation + 1)
    (hobs : (f vm).observedGeneration = vm.observedGeneration)
    (hf : ∀ r, (f r).id = r.id := by exact fun _ => rfl) :
    Bumped vm { d with vms := d.vms.update p f hf } := by
  refine ⟨f vm, ?_, hgen, hobs⟩
  rw [get_update, hget, map_some, hp]
  rfl

theorem bumped_touch (hget : d.vms.get vm.id = some vm) (hrunning : vm.phase = .running)
    (hg : Db.Vm.usesGroup vm g) : Bumped vm (d.touchVmsUsingSecurityGroup g) := by
  refine .of_update hget ?_ rfl rfl
  rw [hrunning, hg]
  rfl

section

variable (hget : db.vms.get vm.id = some vm) (hrunning : vm.phase = .running) (hg : Db.Vm.usesGroup
  vm g)
include hget hrunning hg

theorem addRule_bumped {body : CreateRule} :
    (addRule cfg db s u g body).1 = db ∨ Bumped vm (addRule cfg db s u g body).1 := by
  refine settle_induction (motive := fun d => d = db ∨ Bumped vm d) (Or.inl rfl)
    fun db₁ _ h => Or.inr ?_
  replace h := of_ensure h
  replace h := of_ensure h
  obtain ⟨_, -, h⟩ := bind_eq_ok.mp h
  replace h := of_ensure h
  cases of_ensure_pure h
  exact bumped_touch hget hrunning hg

theorem deleteRule_bumped {rule : Id} :
    (deleteRule db s u g rule).1 = db ∨ Bumped vm (deleteRule db s u g rule).1 := by
  refine settle_induction (motive := fun d => d = db ∨ Bumped vm d) (Or.inl rfl)
    fun db₁ _ h => Or.inr ?_
  replace h := of_ensure h
  replace h := of_ensure h
  cases of_ensure_pure h
  exact bumped_touch hget hrunning hg

end

theorem bumped_writeSpec {name : Option String} {spec : VirtualMachineSpec} {r : Vm}
    (hget : d.vms.get vm.id = some vm) (h : d.writeSpec vm.id name spec = .ok (some (r, d'))) :
    Bumped vm d' := by
  cases Db.writeSpec_ok h
  exact .of_update hget (beq_self_eq_true vm.id) rfl rfl

theorem updateVm_bumped {body : UpdateVm} (hget : db.vms.get vm.id = some vm) :
    (updateVm db s u vm.id body).1 = db ∨ Bumped vm (updateVm db s u vm.id body).1 := by
  refine attempt_induction (motive := fun d => d = db ∨ Bumped vm d) (Or.inl rfl)
    fun r hr => Or.inr ?_
  replace hr := of_ensure hr
  obtain ⟨_, -, hr⟩ := orElse_bind.mp hr
  obtain ⟨_, -, hr⟩ := bind_eq_ok.mp hr
  obtain ⟨written, hw, hr⟩ := bind_eq_ok.mp hr
  cases orElse_eq_ok.mp hr
  have hbumped : Bumped vm r.2 := bumped_writeSpec hget hw
  exact hbumped

/-- `change_nic` either goes through and bumps the generation, or leaves the row as it is. -/
theorem changeNic_bumped {index : Nat} {body : ChangeNic} (hget : db.vms.get vm.id = some vm) :
    ((changeNic db s u vm.id index body).2.toBool ∧
        Bumped vm (changeNic db s u vm.id index body).1) ∨
      ((changeNic db s u vm.id index body).2.toBool = false ∧
        (changeNic db s u vm.id index body).1.vms.get vm.id = some vm) := by
  simp only [changeNic, attempt]
  cases changeNicSpec db s u vm.id index body with
  | error e => exact Or.inr ⟨rfl, hget⟩
  | ok r =>
  simp only
  have hvms : (allocateOneNic (db.releaseNicAllocations vm.id index) vm.id r.2 index).1.vms =
      db.vms := by
    obtain ⟨t, ht, -, -⟩ :=
      allocateOneNic_allocatesFor (db.releaseNicAllocations vm.id index) vm.id r.2 index
    rw [ht]
    rfl
  cases ha : allocateOneNic (db.releaseNicAllocations vm.id index) vm.id r.2 index with
  | mk db₁ answer =>
    rw [ha] at hvms
    have hget₁ : db₁.vms.get vm.id = some vm := hvms ▸ hget
    cases answer with
    | error e => exact Or.inr ⟨rfl, hget₁⟩
    | ok _ =>
    simp only
    cases hw : db₁.setVmSpec vm.id r.1 with
    | error e => exact Or.inr ⟨rfl, hget₁⟩
    | ok written =>
    cases written with
    | none => exact Or.inr ⟨rfl, hget₁⟩
    | some x =>
      have hbumped : Bumped vm x.2 := bumped_writeSpec hget₁ hw
      exact Or.inl ⟨rfl, hbumped⟩

/-! ## Actions -/

theorem listed_iff_of_get (hvm : vm ∈ db.vms) (hget : d.vms.get vm.id = some vm) (hvm' : vm' ∈ d.vms)
    (hid : vm'.id = vm.id) : vm' ∈ d.listVmsToReconcile ↔ vm ∈ db.listVmsToReconcile := by
  obtain rfl : vm' = vm :=
    some.inj ((get_eq_some.mpr ⟨hvm', hid⟩).symm.trans hget)
  have hrows : ∀ {d : Db}, vm' ∈ d.vms → (vm' ∈ d.listVmsToReconcile ↔
      (!vm'.settled || vm'.generation != vm'.observedGeneration)) :=
    fun h => ⟨fun hl => (mem_filter.mp hl).2, fun hc => mem_filter.mpr ⟨h, hc⟩⟩
  rw [hrows hvm', hrows hvm]

theorem Bumped.listed (h : Bumped vm d) (hgen : vm.observedGeneration ≤ vm.generation)
    (hvm' : vm' ∈ d.vms) (hid : vm'.id = vm.id) : vm' ∈ d.listVmsToReconcile := by
  obtain ⟨r, hr, hbump, hobs⟩ := h
  obtain rfl : vm' = r := some.inj ((get_eq_some.mpr ⟨hvm', hid⟩).symm.trans hr)
  refine mem_filter.mpr ⟨hvm', or_eq_true_iff.mpr (Or.inr ?_)⟩
  refine bne_iff_ne.mpr ?_
  omega

theorem Write.writesRow_of_revisits (h : w.revisits s u db vm) : w.writesRow vm := by
  cases w with
  | changeNic id index body => exact (and_eq_true_iff.mp h).1
  | addRule | deleteRule | updateVm => exact h
  | _ => cases h

theorem listed_of_bumped (h : d = db ∨ Bumped vm d) (hvm : vm ∈ db.vms)
    (hgen : vm.observedGeneration ≤ vm.generation) (hvm' : vm' ∈ d.vms) (hid : vm'.id = vm.id)
    (halters : Alters cfg underlay db d vm vm') : vm' ∈ d.listVmsToReconcile := by
  rcases h with rfl | hbumped
  · exact absurd halters ((SameBindings.refl d).not_alters hvm hvm' hid)
  · exact hbumped.listed hgen hvm' hid

theorem perform_listed_iff (hvm : vm ∈ db.vms) (hrunning : vm.phase = .running)
    (hgen : vm.observedGeneration ≤ vm.generation) (hvm' : vm' ∈ (w.perform cfg s u db).vms)
    (hid : vm'.id = vm.id) (halters : Alters cfg underlay db (w.perform cfg s u db) vm vm') :
    vm' ∈ (w.perform cfg s u db).listVmsToReconcile ↔
      vm ∈ db.listVmsToReconcile ∨ w.revisits s u db vm := by
  have hget : db.vms.get vm.id = some vm := get_eq_some.mpr ⟨hvm, rfl⟩
  have hsteps := perform_steps cfg s u db w
  by_cases hmarks : w.marks
  · exact absurd halters ((SameBindings.steps hmarks hsteps).not_alters hvm hvm' hid)
  cases hrow : w.writesRow vm with
  | false =>
    have hnot : w.revisits s u db vm ≠ true := fun h =>
      false_ne_true (hrow.symm.trans (Write.writesRow_of_revisits h))
    rw [listed_iff_of_get hvm (Steps.get_eq hrow hvm hsteps) hvm' hid, or_iff_left hnot]
  | true =>
    cases w with
    | addRule g body =>
      exact iff_of_true (listed_of_bumped (addRule_bumped hget hrunning hrow) hvm hgen hvm' hid halters)
        (Or.inr hrow)
    | deleteRule g rule =>
      exact iff_of_true
        (listed_of_bumped (deleteRule_bumped hget hrunning hrow) hvm hgen hvm' hid halters)
        (Or.inr hrow)
    | updateVm id body =>
      obtain rfl : id = vm.id := eq_of_beq hrow
      exact iff_of_true (listed_of_bumped (updateVm_bumped hget) hvm hgen hvm' hid halters)
        (Or.inr hrow)
    | changeNic id index body =>
      obtain rfl : id = vm.id := eq_of_beq hrow
      rcases changeNic_bumped hget with ⟨hok, hbumped⟩ | ⟨hfail, hkept⟩
      · exact iff_of_true (hbumped.listed hgen hvm' hid)
          (Or.inr (and_eq_true_iff.mpr ⟨hrow, hok⟩))
      · refine (listed_iff_of_get hvm hkept hvm' hid).trans (or_iff_left fun h => ?_).symm
        exact false_ne_true (hfail.symm.trans (and_eq_true_iff.mp h).2)
    | _ => exact absurd hrow hmarks

theorem handle_cases (cfg : Config) (db : Db) (claims : Option Claims) (ref : ProjectRef) (w : Write)
    (vm : Vm) : ∃ t r, handle cfg db claims ref w = { db with users := t, userRoles := r } ∨
      ∃ u s, handle cfg db claims ref w = w.perform cfg s u { db with users := t, userRoles := r } ∧
        (Action.request claims ref w).revisits cfg db vm =
          w.revisits s u { db with users := t, userRoles := r } vm := by
  obtain ⟨t, r, hauth⟩ := authenticate_eq cfg db claims ref
  refine ⟨t, r, ?_⟩
  simp only [handle, Action.revisits]
  rw [← hauth]
  cases authenticate cfg db claims ref with
  | mk d answer =>
    cases answer with
    | error e => exact Or.inl rfl
    | ok us => exact Or.inr ⟨us.1, us.2, rfl, rfl⟩

/-- **Which changes put a running VM on the work list**: of the actions that alter what the loop
would hand to its agent, exactly those that edit the VM or the rules of a group that its own NICs
list. -/
theorem altered_listed_iff {a : Action} {db' : Db} (hstep : step cfg db a = some db')
    (hvm : vm ∈ db.vms) (hrunning : vm.phase = .running)
    (hgen : vm.observedGeneration ≤ vm.generation) (hvm' : vm' ∈ db'.vms) (hid : vm'.id = vm.id)
    (halters : Alters cfg underlay db db' vm vm') : vm' ∈ db'.listVmsToReconcile ↔
      vm ∈ db.listVmsToReconcile ∨ a.revisits cfg db vm := by
  have hget : db.vms.get vm.id = some vm := get_eq_some.mpr ⟨hvm, rfl⟩
  -- an action that writes no bindings does not alter them, and one that leaves the row does not list it
  have hsame : ¬ SameBindings db db' := fun h => h.not_alters hvm hvm' hid halters
  have hkept : db'.vms.get vm.id = some vm → a.revisits cfg db vm = false →
      (vm' ∈ db'.listVmsToReconcile ↔
        vm ∈ db.listVmsToReconcile ∨ a.revisits cfg db vm) := by
    intro hrow hnot
    rw [listed_iff_of_get hvm hrow hvm' hid, hnot]
    simp
  cases step_acts hstep with
  | request claims ref w =>
    obtain ⟨t, r, hcases⟩ := handle_cases cfg db claims ref w vm
    have hlogin : SameBindings db { db with users := t, userRoles := r } :=
      { SameBindings.refl db with }
    rcases hcases with heq | ⟨u, s, heq, hrevisits⟩
    · exact absurd (heq ▸ hlogin) hsame
    · rw [heq] at hvm' halters ⊢
      rw [hrevisits]
      exact perform_listed_iff hvm hrunning hgen hvm' hid (hlogin.alters hvm hvm halters)
  | phoneHome id token ip =>
    have hrow : SameBindings db (db.setVmIp id ip) :=
      (SameBindings.refl db).updateVms fun _ _ _ => ⟨rfl, rfl⟩
    exact absurd { hrow with } hsame
  | unheard => exact absurd (.refl db) hsame
  | bootstrapSign => exact hkept hget rfl
  | observe =>
    refine absurd ?_ hsame
    exact (SameBindings.refl db).updateVms fun _ _ _ => ⟨rfl, rfl⟩
  | ready => exact absurd { SameBindings.refl db with } hsame
  | @reap id hdeleting =>
    -- the row that goes is that of a VM being deleted, so it is another one
    have hne : vm.id ≠ id := by
      rintro rfl
      rw [hget, any_some, hrunning] at hdeleting
      cases hdeleting
    refine hkept ((get_delete fun r _ hr => ?_).trans hget) rfl
    exact beq_eq_false_iff_ne.mpr fun h => hne (Eq.trans hr.symm h)

end

/-! ## A deployment with everything in it

A database VM with a NIC on an overlay network, whose group admits the members of another group, and a
NIC on a network from before segments were recorded; and a web VM, a member of that other group, which
is being deleted. -/

def meshUnderlay : Underlay := ⟨some, true⟩

def managedIpam : NetworkIpam :=
  { unmanaged with cidrV4 := some (.ok ⟨false, 0x0a000000, 0x0a0000ff⟩) }

def databaseVm : Vm where
  id := 0
  name := "database"
  spec := { sampleSpec with networkInterfaces := [⟨0, none, [], [3]⟩, ⟨1, none, [], []⟩] }
  phase := .running
  host := some 0
  generation := 1
  observedGeneration := 1
  message := none
  ipAddress := none
  phoneHomeToken := none
  project := 2

def meshDb : Db :=
  { sampleDb with
    vms := ⟨[databaseVm, { databaseVm with
      id := 1, name := "web", phase := .deleting
      spec := { sampleSpec with networkInterfaces := [⟨0, none, [], [2]⟩] } }], 2,
      by decide, by decide⟩
    securityGroups := ⟨[⟨0, "default-app", none, true, 1⟩, ⟨1, "default-red", none, true, 2⟩,
      ⟨2, "web", none, false, 2⟩, ⟨3, "database", none, false, 2⟩], 4, by decide, by decide⟩
    rules := ⟨[⟨0, 0, .ingress, .ipv4, .icmp, none, none, none, none⟩,
      ⟨1, 3, .ingress, .ipv4, .tcp, some 5432, some 5432, none, some 2⟩], 2, by decide, by decide⟩
    networks := ⟨[⟨0, "app", .tenant, none, some (.vxlan 5), none, some 5, managedIpam, some 0, some 2⟩,
      ⟨1, "legacy", .provider, none, none, none, none, unmanaged, none, none⟩], 2,
      by decide, by decide⟩
    allocations := ⟨[⟨0, 0, ⟨false, 0x0a000005⟩, false, some 1, 0, none⟩], 1, by decide, by decide⟩
    projects := ⟨[⟨1, "default", none, true, none⟩, ⟨2, "red", none, false, some 1⟩], 3,
      by decide, by decide⟩
    hosts := ⟨[⟨0, "host-0", "10.1.0.1", true, true, none, [], none⟩], 1, by decide, by decide⟩
    userRoles := [⟨0, 0, none⟩] }

def meshCfg : Config := { sampleCfg with providerVlans := [(1, 4094)] }

def asAdmin (w : Write) : Action := .request (some alice) .star w

def admitAll : CreateRule := ⟨.ok .ingress, .ok .ipv4, .ok .any, none, none, none, none⟩

/-- A rule of the group that the VM's own NIC lists. -/
theorem altered_listed_iff_own_group :
    ∃ db' r, step meshCfg meshDb (asAdmin (.addRule 3 admitAll)) = some db' ∧ r ∈ db'.vms ∧
      Alters meshCfg meshUnderlay meshDb db' databaseVm r ∧ r ∈ db'.listVmsToReconcile := by
  have hvm' : { databaseVm with generation := 2 } ∈
      (handle meshCfg meshDb (some alice) .star (.addRule 3 admitAll)).vms.rows := by decide
  have halters : Alters meshCfg meshUnderlay meshDb
      (handle meshCfg meshDb (some alice) .star (.addRule 3 admitAll)) databaseVm
      { databaseVm with generation := 2 } := ⟨0, rfl, by decide⟩
  exact ⟨_, _, rfl, hvm', halters, (altered_listed_iff (a := asAdmin (.addRule 3 admitAll)) rfl
    (by decide : databaseVm ∈ meshDb.vms.rows) rfl (by decide) hvm' rfl halters).mpr
    (Or.inr (by decide))⟩

/-- Rules of the two default groups, groups that the policy names, members of the remote group, the
segment of the second network, and a host to tunnel to. -/
def overlooked : List Action :=
  [asAdmin (.addRule 0 admitAll), asAdmin (.addRule 1 admitAll), asAdmin (.deleteRule 0 0),
    asAdmin (.deleteGroup 2), asAdmin (.deleteGroup 3),
    asAdmin (.createVm ⟨"web-2", { sampleSpec with networkInterfaces := [⟨0, none, [], [2]⟩] }⟩),
    .reap 1, asAdmin (.adoptSegment 1 ⟨none, some 30, true⟩),
    asAdmin (.registerHost "host-1" "10.1.0.2")]

/-- **Changes that the loop is not told of.**  Each of these actions alters the bindings of the
running database VM and leaves it off the work list, though `resolve_bindings` is meant to see it "on
every tick". -/
theorem changes_overlooked : databaseVm ∈ meshDb.vms ∧ databaseVm.phase = .running ∧
    databaseVm.observedGeneration = databaseVm.generation ∧
    ∀ a ∈ overlooked, ∃ db' r, step meshCfg meshDb a = some db' ∧ r ∈ db'.vms ∧
      r.id = databaseVm.id ∧ Alters meshCfg meshUnderlay meshDb db' databaseVm r ∧
      r ∉ db'.listVmsToReconcile := by
  refine ⟨(by decide : databaseVm ∈ meshDb.vms.rows), rfl, rfl, fun a ha => ?_⟩
  have heval : ∀ a ∈ overlooked, ((step meshCfg meshDb a).any fun db' => (db'.vms.get 0).any fun r =>
      resolveBindings meshCfg meshUnderlay db' r 0 !=
        resolveBindings meshCfg meshUnderlay meshDb databaseVm 0 &&
      !db'.listVmsToReconcile.contains r) = true := by decide
  obtain ⟨db', hstep, hrow⟩ := (any_eq_true _ _).mp (heval a ha)
  obtain ⟨r, hr, hid, hmissed⟩ := IdTable.get_any.mp hrow
  obtain ⟨haltered, hunlisted⟩ := and_eq_true_iff.mp hmissed
  refine ⟨db', r, hstep, hr, hid, ⟨0, rfl, bne_iff_ne.mp haltered⟩, fun hlisted => ?_⟩
  rw [contains_iff_mem.mpr hlisted] at hunlisted
  cases hunlisted

end VQuasar.Tenancy
