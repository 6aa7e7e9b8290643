import VQuasar.Tenancy.Ownership

/-!
# What a NIC may refer to

A NIC of a VM of project `P` should be on a network that is shared or `P`'s, with security groups of
`P` (`RefsIsolated`).  `create` and `change_nic` check what the caller names against the scope of the
request; `create_from_template`, `create_from_volume` and `update` do not, and in the platform's scope
the check passes for every row while the VM goes to the default project.  In every run in which what
they leave unchecked is right (`referenced`), the property holds:

    Reach (step cfg) (WellReferenced cfg) Fresh db → RefsIsolated db        (refs_isolated)

Template rows carry the same promise for their network, and ids that are not given out yet are named
by nobody, so that a new network cannot turn up under an old reference (`NetworkFor`, `GroupFor`).
-/

namespace VQuasar.Tenancy

open List Option Bool
open IdTable (id_lt eq_of_id mem_updated mem_insert mem_delete mem_rows)

variable {spec : VirtualMachineSpec} {s : Scope} {u : AuthUser} {network : Id}

/-! ## The property -/

/-- Every NIC is on a network that is shared or of the VM's project, with groups of that project. -/
def RefsIsolated (db : Db) : Prop :=
  ∀ vm ∈ db.vms, ∀ nic ∈ vm.spec.networkInterfaces,
    (∀ n ∈ db.networks, n.id = nic.networkId → n.project = none ∨ n.project = some vm.project) ∧
    ∀ g ∈ nic.securityGroups, ∀ r ∈ db.securityGroups, r.id = g → r.project = vm.project

/-! ## What the handlers leave unchecked -/

/-- The network is there, and shared or of the project. -/
def Db.lends (db : Db) (project network : Id) : Bool :=
  db.networks.rows.any fun n => n.id == network && (n.project.isNone || n.project == some project)

/-- The group is there, and of the project. -/
def Db.holds (db : Db) (project group : Id) : Bool :=
  db.securityGroups.rows.any fun g => g.id == group && g.project == project

/-- What a request names without a check that fits is there, and of the project that the VM or the
template belongs to. -/
def referenced (db : Db) (s : Scope) : Write → Bool
  | .createVm body =>
    s != .platform || body.spec.networkInterfaces.all fun nic =>
      db.lends s.owningProject nic.networkId && nic.securityGroups.all (db.holds s.owningProject)
  | .createFromTemplate body =>
    body.overrides.network.all (db.lends s.owningProject) &&
    body.overrides.securityGroups.all (db.holds s.owningProject) &&
    (s != .platform || db.templates.rows.all fun t =>
      t.id != body.template || t.network.all (db.lends s.owningProject))
  | .createFromVolume body =>
    body.network.all (db.lends s.owningProject) &&
    body.securityGroups.all (db.holds s.owningProject)
  | .updateVm id body =>
    db.vms.rows.all fun vm => vm.id != id || body.addNic.all (db.lends vm.project)
  | .changeNic id _ body =>
    s != .platform || db.vms.rows.all fun vm => vm.id != id ||
      (db.lends vm.project body.network &&
        body.securityGroups.all fun gs => gs.all (db.holds vm.project))
  | .createTemplate body => s != .platform || body.network.all (db.lends s.owningProject)
  | .updateTemplate id body =>
    s != .platform || db.templates.rows.all fun t => t.id != id || body.network.all (db.lends t.project)
  | _ => true

/-- The condition on a request, in the state before it. -/
def wellReferenced (cfg : Config) (db : Db) : Action → Bool
  | .request _ ref w =>
    match resolveScope cfg db ref with
    | .ok s => referenced db s w
    | .error _ => true
  | _ => true

/-- A deployment before its first VM and template. -/
def Fresh (db : Db) : Prop := db.vms.rows = [] ∧ db.templates.rows = []

/-! ## References that stay right -/

/-- The network has been given out, and if it is still there it is shared or of the project. -/
structure NetworkFor (db : Db) (project network : Id) : Prop where
  given : network < db.networks.next
  own : ∀ n ∈ db.networks, n.id = network → n.project = none ∨ n.project = some project

structure GroupFor (db : Db) (project group : Id) : Prop where
  given : group < db.securityGroups.next
  own : ∀ g ∈ db.securityGroups, g.id = group → g.project = project

structure NicFor (db : Db) (project : Id) (nic : NetworkInterfaceSpec) : Prop where
  network : NetworkFor db project nic.networkId
  groups : ∀ g ∈ nic.securityGroups, GroupFor db project g

section

variable {db d d' : Db} {project : Id}

theorem NetworkFor.descends (h : NetworkFor db project network) (hd : db.Descends d) : NetworkFor d
    project network := by
  refine ⟨lt_of_lt_of_le h.given hd.networks.next_le, fun n hn hid => ?_⟩
  obtain ⟨n₀, hn₀, hid₀, hown⟩ := hd.networks.old n hn (lt_of_eq_of_lt hid h.given)
  rw [← hown]
  exact h.own n₀ hn₀ (hid₀.trans hid)

variable {group : Id} {nic : NetworkInterfaceSpec} {groups : List Id} {p : Vm → Bool} {f : Vm → Vm}
  {vm : Vm}

theorem GroupFor.descends (h : GroupFor db project group) (hd : db.Descends d) :
    GroupFor d project group := by
  refine ⟨lt_of_lt_of_le h.given hd.securityGroups.next_le, fun g hg hid => ?_⟩
  obtain ⟨g₀, hg₀, hid₀, hown⟩ := hd.securityGroups.old g hg (lt_of_eq_of_lt hid h.given)
  rw [← hown]
  exact h.own g₀ hg₀ (hid₀.trans hid)

theorem NicFor.descends (h : NicFor db project nic) (hd : db.Descends d) : NicFor d project nic :=
  ⟨h.network.descends hd, fun g hg => (h.groups g hg).descends hd⟩

theorem networkFor_of_mem {n : Network} (hn : n ∈ db.networks)
    (hown : n.project = none ∨ n.project = some project) : NetworkFor db project n.id := by
  refine ⟨id_lt hn, fun n' hn' hid => ?_⟩
  rwa [eq_of_id hn' hn hid]

theorem groupFor_of_mem {g : SecurityGroup} (hg : g ∈ db.securityGroups)
    (hown : g.project = project) : GroupFor db project g.id := by
  refine ⟨id_lt hg, fun g' hg' hid => ?_⟩
  rwa [eq_of_id hg' hg hid]

theorem networkFor_of_lends (h : db.lends project network) : NetworkFor db project network :=
    by
  obtain ⟨n, hn, hp⟩ := any_eq_true.mp h
  simp only [and_eq_true, beq_iff_eq, or_eq_true, isNone_iff_eq_none] at hp
  obtain ⟨rfl, hown⟩ := hp
  exact networkFor_of_mem hn hown

theorem groupFor_of_holds (h : db.holds project group) : GroupFor db project group := by
  obtain ⟨g, hg, hp⟩ := any_eq_true.mp h
  simp only [and_eq_true, beq_iff_eq] at hp
  obtain ⟨rfl, hown⟩ := hp
  exact groupFor_of_mem hg hown

theorem networkFor_of_visible (h : db.networkVisible (.project project) network) : NetworkFor
    db project network := by
  obtain ⟨n, hn, rfl, hsees⟩ := Db.networkVisible_iff.mp h
  exact networkFor_of_mem hn ((Scope.sees_project _ _).mp hsees)

theorem groupFor_of_inScope {ids : List Id} (h : db.securityGroupsInScope (.project project) ids) :
    ∀ g ∈ ids, GroupFor db project g := by
  intro g hg
  obtain ⟨r, hr, rfl, hown⟩ := Db.mem_of_securityGroupsInScope h hg
  exact groupFor_of_mem hr ((Scope.owns_project _ _).mp hown)

/-! ## The specs that are stored -/

theorem mem_oneNic {network : Option Id} :
    nic ∈ oneNic network groups ↔ ∃ n, network = some n ∧ nic = ⟨n, none, [], groups⟩ := by
  cases network <;> simp [oneNic]

theorem checkNics_ok {nics : List NetworkInterfaceSpec} {x : Unit} (h : checkNics db s nics = .ok x)
    : ∀ nic ∈ nics, db.networkVisible s nic.networkId ∧ db.securityGroupsInScope s
    nic.securityGroups := by
  induction nics with
  | nil => exact fun _ hnic => nomatch hnic
  | cons nic nics ih =>
    obtain ⟨hnet, h⟩ := ensure_bind.mp h
    obtain ⟨hgroups, h⟩ := ensure_bind.mp h
    intro nic' hmem
    rcases mem_cons.mp hmem with rfl | hmem
    · exact ⟨hnet, hgroups⟩
    · exact ih h nic' hmem

theorem updateSpec_nics {body : UpdateVm} (h : updateSpec db vm body = .ok spec) :
    spec.networkInterfaces = vm.spec.networkInterfaces ++ oneNic body.addNic [] := by
  obtain ⟨disks, -, h⟩ := bind_eq_ok.mp h
  obtain ⟨-, -, ⟨⟩⟩ := of_bind_pure h
  rfl

/-! ## The invariant -/

/-- Every NIC and every template refers to what is shared or of its own project. -/
structure Refs (db : Db) : Prop where
  nics : ∀ vm ∈ db.vms, ∀ nic ∈ vm.spec.networkInterfaces, NicFor db vm.project nic
  templates : ∀ t ∈ db.templates, ∀ n, t.network = some n → NetworkFor db t.project n

variable {cfg : Config} {s : Scope} {u : AuthUser} {w : Write}

theorem nicFor_oneNic {network : Option Id} (hnet : ∀ n, network = some n → NetworkFor db project n)
    (hgroups : ∀ g ∈ groups, GroupFor db project g) :
    ∀ nic ∈ oneNic network groups, NicFor db project nic := by
  intro nic hnic
  obtain ⟨n, hn, rfl⟩ := mem_oneNic.mp hnic
  exact ⟨hnet n hn, hgroups⟩

theorem launches_nics (hi : Refs db) (hr : referenced db s w) (hl : Launches cfg db s u w
    spec) : ∀ nic ∈ spec.networkInterfaces, NicFor db s.owningProject nic := by
  cases hl with
  | create h =>
    obtain ⟨pool, dir, -, rfl, -, hcheck, -⟩ := createSpec_ok h
    cases s with
    | project P =>
      intro nic hnic
      obtain ⟨hnet, hgroups⟩ := checkNics_ok hcheck nic hnic
      exact ⟨networkFor_of_visible hnet, groupFor_of_inScope hgroups⟩
    | platform =>
      intro nic hnic
      simp only [referenced, bne_self_eq_false, Bool.false_or, List.all_eq_true, Bool.and_eq_true]
        at hr
      obtain ⟨hnet, hgroups⟩ := hr nic hnic
      exact ⟨networkFor_of_lends hnet, fun g hg => groupFor_of_holds (hgroups g hg)⟩
  | @fromTemplate body spec h =>
    obtain ⟨t, image, pool, dir, hscope, hget, -, -, rfl⟩ := templateSpec_ok h
    obtain ⟨ht, hid⟩ := IdTable.get_eq_some.mp hget
    have hown := ownsTemplate_of_inScope hscope t ht hid
    simp only [referenced, and_eq_true, List.all_eq_true, Option.all_eq_true] at hr
    obtain ⟨⟨hnet, hgroups⟩, htemplate⟩ := hr
    refine nicFor_oneNic (fun n hn => ?_) fun g hg => groupFor_of_holds (hgroups g hg)
    cases hov : body.overrides.network with
    | some n' =>
      rw [hov] at hn
      cases hn
      exact networkFor_of_lends (hnet n hov)
    | none =>
      -- the network comes from the template
      rw [hov] at hn
      cases s with
      | project P =>
        have hproject : t.project = P := (Scope.owns_project _ _).mp hown
        exact hproject ▸ hi.templates t ht n hn
      | platform =>
        simp only [bne_self_eq_false, Bool.false_or, List.all_eq_true, Bool.or_eq_true, bne_iff_ne]
          at htemplate
        rcases htemplate t ht with hne | hlends
        · exact absurd hid hne
        · have hn' : t.network = some n := hn
          rw [hn'] at hlends
          exact networkFor_of_lends hlends
  | fromVolume h =>
    obtain ⟨-, -, -, -, -, -, hnics⟩ := volumeSpec_ok h
    rw [hnics]
    simp only [referenced, and_eq_true, List.all_eq_true, Option.all_eq_true] at hr
    exact nicFor_oneNic (fun n hn => networkFor_of_lends (hr.1 n hn))
      fun g hg => groupFor_of_holds (hr.2 g hg)

theorem respecs_nics (hi : Refs db) (hr : referenced db s w) (hvm : vm ∈ db.vms) (h
    : Respecs cfg db s w vm spec) : ∀ nic ∈ spec.networkInterfaces, NicFor db vm.project nic := by
  cases h with
  | @update vm body spec hown h =>
    rw [updateSpec_nics h]
    simp only [referenced, List.all_eq_true, or_eq_true, bne_iff_ne, Option.all_eq_true] at hr
    intro nic hnic
    rcases mem_append.mp hnic with hold | hnew
    · exact hi.nics vm hvm nic hold
    · refine nicFor_oneNic (fun n hn => ?_) (fun _ hg => absurd hg List.not_mem_nil) nic hnew
      rcases hr vm hvm with hne | hlends
      · exact absurd rfl hne
      · exact networkFor_of_lends (hlends n hn)
  | @nic vm index body nic hown hnet hgroups hnic =>
    intro nic' hmem
    rcases mem_or_eq_of_mem_set hmem with hold | rfl
    · exact hi.nics vm hvm nic' hold
    have hstored := hi.nics vm hvm nic (mem_of_getElem? hnic)
    have hnamed : NetworkFor db vm.project body.network ∧
        ∀ gs, body.securityGroups = some gs → ∀ g ∈ gs, GroupFor db vm.project g := by
      cases s with
      | project P =>
        have hproject : vm.project = P := (Scope.owns_project _ _).mp hown
        refine hproject ▸ ⟨networkFor_of_visible hnet, fun gs hgs => ?_⟩
        rw [hgs] at hgroups
        exact groupFor_of_inScope hgroups
      | platform =>
        simp only [referenced, bne_self_eq_false, Bool.false_or, List.all_eq_true,
          Bool.or_eq_true, bne_iff_ne, Bool.and_eq_true, Option.all_eq_true] at hr
        rcases hr vm hvm with hne | ⟨hlends, hholds⟩
        · exact absurd rfl hne
        · exact ⟨networkFor_of_lends hlends,
            fun gs hgs g hg => groupFor_of_holds (hholds gs hgs g hg)⟩
    refine ⟨hnamed.1, fun g hg => ?_⟩
    cases hgs : body.securityGroups with
    | none =>
      simp only [retarget, hgs, getD_none] at hg
      exact hstored.groups g hg
    | some gs =>
      simp only [retarget, hgs, getD_some] at hg
      exact hnamed.2 gs hgs g hg
  | start | stop | attach | detach => exact hi.nics _ hvm

/-- Where the NICs of a row after a statement come from: from a row before it, or from what the
request has stored. -/
def VmFrom (db d : Db) (vm' : Vm) : Prop :=
  (∃ vm ∈ d.vms, vm.project = vm'.project ∧
    vm.spec.networkInterfaces = vm'.spec.networkInterfaces) ∨
  ∀ nic ∈ vm'.spec.networkInterfaces, NicFor db vm'.project nic

def TemplateFrom (db d : Db) (t' : Template) : Prop :=
  (∃ t ∈ d.templates, t.project = t'.project ∧ (t'.network = t.network ∨ t'.network = none)) ∨
  ∀ n, t'.network = some n → NetworkFor db t'.project n

theorem vms_update (hrows : d'.vms.rows = Table.updateWhere p f d.vms.rows)
    (h : ∀ r, (f r).project = r.project ∧ (f r).spec = r.spec := by exact fun _ => ⟨rfl, rfl⟩) :
    ∀ vm' ∈ d'.vms, ∃ vm ∈ d.vms, vm.project = vm'.project ∧ vm.spec = vm'.spec := by
  intro vm' hmem
  obtain ⟨r, hr, rfl⟩ := mem_updated hrows hmem
  refine ⟨r, hr, ?_⟩
  split
  · rw [(h r).1, (h r).2]
    exact ⟨rfl, rfl⟩
  · exact ⟨rfl, rfl⟩

theorem vmFrom_update
    (hrows : d'.vms.rows = Table.updateWhere p f d.vms.rows) {vm' : Vm} (hmem : vm' ∈ d'.vms)
    (h : ∀ r, (f r).project = r.project ∧ (f r).spec = r.spec := by exact fun _ => ⟨rfl, rfl⟩) :
    VmFrom db d vm' := by
  obtain ⟨vm, hvm, hproject, hspec⟩ := vms_update hrows h vm' hmem
  exact Or.inl ⟨vm, hvm, hproject, by rw [hspec]⟩

theorem step_vmFrom (hi : Refs db) (hr : referenced db s w) (hd : db.Descends d)
    (h : Step cfg s u w db d d') : ∀ vm' ∈ d'.vms, VmFrom db d vm' := by
  intro vm' hmem
  cases h with
  | insertVm hl =>
    rcases mem_insert.mp hmem with hold | rfl
    · exact Or.inl ⟨vm', hold, rfl, rfl⟩
    · exact Or.inr (launches_nics hi hr hl)
  | removeVm hvm => exact Or.inl ⟨vm', (mem_delete.mp hmem).1, rfl, rfl⟩
  | @respec vm name spec hvm hres =>
    obtain ⟨r, hr', rfl⟩ := mem_updated rfl hmem
    by_cases hid : (r.id == vm.id) = true
    · have hproject : r.project = vm.project := hd.vms.own_eq hr' hvm (eq_of_beq hid)
      rw [if_pos hid]
      refine Or.inr fun nic hnic => ?_
      have hnic' := respecs_nics hi hr hvm hres nic hnic
      rwa [← hproject] at hnic'
    · rw [if_neg hid]
      exact Or.inl ⟨r, hr', rfl, rfl⟩
  | phase | drainPhase | touch => exact vmFrom_update rfl hmem
  | _ => exact Or.inl ⟨vm', hmem, rfl, rfl⟩

theorem step_templateFrom (hr : referenced db s w) (hd : db.Descends d)
    (h : Step cfg s u w db d d') : ∀ t' ∈ d'.templates, TemplateFrom db d t' := by
  intro t' hmem
  cases h with
  | @insertTemplate body f hw hf hnet =>
    rcases mem_insert.mp hmem with hold | rfl
    · exact Or.inl ⟨t', hold, rfl, Or.inl rfl⟩
    refine Or.inr fun n hn => ?_
    have hbody : body.network = some n := hf.symm.trans hn
    rw [hbody] at hnet
    cases s with
    | project P => exact networkFor_of_visible hnet
    | platform =>
      subst hw
      simp only [referenced, bne_self_eq_false, Bool.false_or, Option.all_eq_true] at hr
      exact networkFor_of_lends (hr n hbody)
  | @updateTemplate t body f hw hf hnet ht hown =>
    obtain ⟨r, hr', rfl⟩ := mem_updated rfl hmem
    by_cases hid : (r.id == t.id) = true
    · have hproject : r.project = t.project := hd.templates.own_eq hr' ht (eq_of_beq hid)
      rw [if_pos hid]
      refine Or.inr fun n hn => ?_
      have hbody : body.network = some n := hf.symm.trans hn
      rw [hbody] at hnet
      show NetworkFor db r.project n
      rw [hproject]
      cases s with
      | project P =>
        rw [(Scope.owns_project _ _).mp hown]
        exact networkFor_of_visible hnet
      | platform =>
        subst hw
        simp only [referenced, bne_self_eq_false, Bool.false_or, List.all_eq_true, Bool.or_eq_true,
          bne_iff_ne, Option.all_eq_true] at hr
        rcases hr t ht with hne | hlends
        · exact absurd rfl hne
        · exact networkFor_of_lends (hlends n hbody)
    · rw [if_neg hid]
      exact Or.inl ⟨r, hr', rfl, Or.inl rfl⟩
  | deleteTemplate hown => exact Or.inl ⟨t', (mem_delete.mp hmem).1, rfl, Or.inl rfl⟩
  | deleteNetwork hw hown =>
    obtain ⟨r, hr', rfl⟩ := mem_updated rfl hmem
    refine Or.inl ⟨r, hr', ?_⟩
    split
    · exact ⟨rfl, Or.inr rfl⟩
    · exact ⟨rfl, Or.inl rfl⟩
  | _ => exact Or.inl ⟨t', hmem, rfl, Or.inl rfl⟩

theorem Refs.of_from (hi : Refs d) (hd : db.Descends d) (hd' : d.Descends d')
    (hvms : ∀ vm' ∈ d'.vms, VmFrom db d vm') (htemplates : ∀ t' ∈ d'.templates, TemplateFrom db d t') :
    Refs d' := by
  constructor
  · intro vm' hmem nic hnic
    rcases hvms vm' hmem with ⟨vm, hvm, hproject, hnics⟩ | hstored
    · rw [← hnics] at hnic
      exact hproject ▸ (hi.nics vm hvm nic hnic).descends hd'
    · exact (hstored nic hnic).descends (hd.trans hd')
  · intro t' hmem n hn
    rcases htemplates t' hmem with ⟨t, ht, hproject, hnet | hnone⟩ | hstored
    · exact hproject ▸ (hi.templates t ht n (hnet ▸ hn)).descends hd'
    · simp [hnone] at hn
    · exact (hstored n hn).descends (hd.trans hd')

theorem Refs.steps (hi : Refs db) (hr : referenced db s w)
    (h : Steps cfg s u w db db d) : Refs d := by
  induction h with
  | refl => exact hi
  | tail hs hstep ih =>
    have hd := Db.Descends.steps hs
    exact ih.of_from hd (.step hstep) (step_vmFrom hi hr hd hstep) (step_templateFrom hr hd hstep)

theorem Refs.of_same (hi : Refs db) (hd : db.Descends d)
    (hvms : ∀ vm' ∈ d.vms, ∃ vm ∈ db.vms, vm.project = vm'.project ∧ vm.spec = vm'.spec)
    (htemplates : d.templates = db.templates) : Refs d := by
  refine hi.of_from (.refl db) hd (fun vm' hmem => ?_) fun t' hmem => ?_
  · obtain ⟨vm, hvm, hproject, hspec⟩ := hvms vm' hmem
    exact Or.inl ⟨vm, hvm, hproject, by rw [hspec]⟩
  · exact Or.inl ⟨t', htemplates ▸ hmem, rfl, Or.inl rfl⟩

theorem Refs.login (hi : Refs db) (t : IdTable User) (r : List UserRole) :
    Refs { db with users := t, userRoles := r } :=
  hi.of_same { Db.Descends.refl db with } (fun vm hvm => ⟨vm, hvm, rfl, rfl⟩) rfl

theorem referenced_login (t : IdTable User) (r : List UserRole) :
    referenced { db with users := t, userRoles := r } s w = referenced db s w := by
  cases w <;> rfl

theorem Refs.action {a : Action} (hi : Refs db) (hok : wellReferenced cfg db a)
    (h : step cfg db a = some d) : Refs d := by
  have hd := step_descends h
  cases step_acts h with
  | request claims ref w =>
    obtain ⟨t, r, heq | ⟨s, u, hs, hsteps⟩⟩ := handle_steps cfg db claims ref w
    · rw [heq]
      exact hi.login t r
    · simp only [wellReferenced, hs] at hok
      exact (hi.login t r).steps ((referenced_login t r).trans hok) hsteps
  | phoneHome | observe => exact hi.of_same hd (vms_update rfl) rfl
  | unheard => exact hi
  | bootstrapSign | ready => exact hi.of_same hd (fun vm hvm => ⟨vm, hvm, rfl, rfl⟩) rfl
  | reap =>
    exact hi.of_same hd (fun vm hvm => ⟨vm, (mem_delete.mp hvm).1, rfl, rfl⟩) rfl

theorem refs_fresh (h : Fresh db) : Refs db := by
  obtain ⟨hvms, htemplates⟩ := h
  constructor
  · intro vm hvm
    rw [← mem_rows, hvms] at hvm
    cases hvm
  · intro t ht
    rw [← mem_rows, htemplates] at ht
    cases ht

end

/-! ## In every run -/

/-- **Reference isolation.**  In every run from a deployment without VMs and templates in which each
request names, where its handler does not check, only what is of the VM's project, every NIC is on a
network that is shared or of the VM's project, with groups of that project. -/
theorem refs_isolated (cfg : Config) {db : Db}
    (h : Runs.Reach (step cfg) (fun db a => wellReferenced cfg db a = true) Fresh db) :
    RefsIsolated db := by
  have hi : Refs db :=
    Runs.Reach.invariant (fun _ => refs_fresh) (fun _ _ _ hi hok hs => hi.action hok hs) h
  intro vm hvm nic hnic
  have hnic' := hi.nics vm hvm nic hnic
  exact ⟨hnic'.network.own, fun g hg => (hnic'.groups g hg).own⟩

def addNic (network : Id) : UpdateVm := ⟨none, none, none, none, none, none, none, some network⟩

/-- A run of one caller: a VM is created, and gets a NIC on `network`. -/
def addNicRun (network : Id) : List Action :=
  [.request (some alice) (.id 2) (.createVm ⟨"web", sampleSpec⟩),
    .request (some alice) (.id 2) (.updateVm 0 (addNic network))]

theorem refs_isolated_shared_nic : (Runs.final (step sampleCfg) sampleDb (addNicRun 1)).vms.rows.map
      (fun vm => vm.spec.networkInterfaces.map NetworkInterfaceSpec.networkId) = [[1]] ∧
    RefsIsolated (Runs.final (step sampleCfg) sampleDb (addNicRun 1)) :=
  ⟨by decide, refs_isolated sampleCfg (Runs.Reach.final (fun _ _ h => h) ⟨rfl, rfl⟩
    (by decide) (by decide))⟩

/-- **`update` puts a NIC on another project's network.**  The caller is bound in project 2 only and
adds to their VM a NIC on a network of project 3: `update` asks for no scope. -/
theorem added_nic_crosses : sampleCfg.tenancyEnabled ∧
    ∃ db, Runs.Reach (step sampleCfg) Runs.anyStep Fresh db ∧ ¬ RefsIsolated db := by
  refine ⟨rfl, Runs.final (step sampleCfg) sampleDb (addNicRun 0), ?_, ?_⟩
  · exact Runs.Reach.final_anyStep ⟨rfl, rfl⟩ (by decide)
  intro h
  have hcross : ∃ vm ∈ (Runs.final (step sampleCfg) sampleDb (addNicRun 0)).vms.rows,
      ∃ nic ∈ vm.spec.networkInterfaces,
        ∃ n ∈ (Runs.final (step sampleCfg) sampleDb (addNicRun 0)).networks.rows,
          n.id = nic.networkId ∧ ¬ (n.project = none ∨ n.project = some vm.project) := by
    decide
  obtain ⟨vm, hvm, nic, hnic, n, hn, hid, hcross⟩ := hcross
  exact hcross ((h vm hvm nic hnic).1 n hn hid)

end VQuasar.Tenancy
