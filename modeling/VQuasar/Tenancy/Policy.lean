import VQuasar.Tenancy.Bindings
import VQuasar.Tenancy.References

/-!
# Whose requests change a VM's network policy

Callers whose bindings all name project `Q` should not change the policy that the dataplane is given
for the VMs of other projects.  The groups of that policy are the NIC's own and two defaults, and the
default group of a network is made without a project, so that it lands in the default project whoever
owns the network (`insertDefaultGroup`).  Besides, a NIC that is stored unchecked can join a group that
another project's rules name as their remote end.  In every run in which `Q`'s requests keep away from
the groups that other projects' VMs rely on (`unentangled`), nothing changes for those VMs:

    Reach (serving cfg) (unentangled cfg Q) (· = db₀) db → PoliciesKept cfg Q db₀ db   (policies_kept)
-/

namespace VQuasar.Tenancy

open List Option Bool
open IdTable (get_eq_some eq_of_id mem_updated mem_delete get_any map_get_update get_delete mem_insert id_lt)

/-! ## What a VM relies on -/

variable (cfg : Config) (db : Db) (Q : Id)

/-- The groups of the effective policies of a VM's NICs. -/
def policyGroups (vm : Vm) : List Id :=
  vm.spec.networkInterfaces.flatMap fun nic =>
    match db.networks.get nic.networkId with
    | some network => effectiveGroups cfg db vm.id network nic
    | none => []

/-- A VM of another project has the group in its policy. -/
def Db.enforces (cfg : Config) (Q group : Id) : Bool :=
  db.vms.rows.any fun vm => vm.project != Q && (policyGroups cfg db vm).contains group

/-- A rule in the policy of another project's VM names the group as its remote end. -/
def Db.watches (cfg : Config) (Q group : Id) : Bool :=
  db.rules.rows.any fun r => db.enforces cfg Q r.group && r.remoteGroup == some group

/-- The id is that of a VM of another project. -/
def Db.othersVm (vm : Option Id) : Bool :=
  db.vms.rows.any fun v => v.project != Q && vm == some v.id

/-! ## The condition -/

/-- Nothing the groups list is a remote end of another project's rules. -/
def Db.unwatched (cfg : Config) (Q : Id) (groups : List Id) : Bool :=
  groups.all fun g => !db.watches cfg Q g

/-- The request keeps away from what other projects' VMs rely on. -/
def keepsAway (db : Db) : Write → Bool
  | .createVm body => body.spec.networkInterfaces.all fun nic =>
      db.unwatched cfg Q nic.securityGroups
  | .createFromTemplate body => db.unwatched cfg Q body.overrides.securityGroups
  | .createFromVolume body => db.unwatched cfg Q body.securityGroups
  | .changeNic _ _ body => body.securityGroups.all (db.unwatched cfg Q)
  | .addRule g _ => !db.enforces cfg Q g
  | .deleteRule g _ => !db.enforces cfg Q g
  | .deleteGroup g => !db.enforces cfg Q g && !db.watches cfg Q g
  -- a network goes with its addresses
  | .deleteNetwork id =>
    (db.vms.rows.all fun vm => vm.project == Q ||
      vm.spec.networkInterfaces.all fun nic => nic.networkId != id) &&
    db.allocations.rows.all fun a => a.network != id || !db.othersVm Q a.vm
  -- a project goes with its managed groups
  | .deleteProject id =>
    (db.vms.rows.all fun vm => vm.project == Q || vm.project != id) &&
    db.securityGroups.rows.all fun g => g.project != id || !g.managed ||
      (!db.enforces cfg Q g.id && !db.watches cfg Q g.id)
  | _ => true

/-- Besides, no NIC of `Q` is a member of a group that other projects' rules name. -/
def unentangled (db : Db) (w : Write) : Bool :=
  (db.vms.rows.all fun vm => vm.project != Q || vm.spec.networkInterfaces.all fun nic =>
    db.unwatched cfg Q nic.securityGroups) && keepsAway cfg Q db w

/-! ## The property -/

/-- The same VM, as far as its policy is concerned. -/
structure SameNics (vm v : Vm) : Prop where
  id : v.id = vm.id
  project : v.project = vm.project
  nics : v.spec.networkInterfaces = vm.spec.networkInterfaces

/-- Every VM of another project is still there, and its NICs are given the policy they were given,
wherever it is placed. -/
def PoliciesKept (db d : Db) : Prop :=
  ∀ vm ∈ db.vms, vm.project ≠ Q → ∃ v ∈ d.vms, SameNics vm v ∧
    ∀ underlay host, (resolveBindings cfg underlay d v host).map (List.map NetworkBinding.policy) =
      (resolveBindings cfg underlay db vm host).map (List.map NetworkBinding.policy)

/-- What other projects' VMs name has been given out (foreign keys, and new ids are new). -/
def Db.Named : Prop :=
  ∀ vm ∈ db.vms, vm.project ≠ Q → vm.project < db.projects.next ∧
    ∀ nic ∈ vm.spec.networkInterfaces, nic.networkId < db.networks.next

/-! ## What a request leaves alone -/

/-- Between the start of a request and one of its statements. -/
structure Undisturbed (cfg : Config) (Q : Id) (w : Write) (db d : Db) : Prop where
  vms : ∀ vm ∈ db.vms, vm.project ≠ Q → ∃ v ∈ d.vms, SameNics vm v
  origin : ∀ v ∈ d.vms, v.project ≠ Q → ∃ vm ∈ db.vms, SameNics vm v
  own : ∀ v ∈ d.vms, v.project = Q → ∀ nic ∈ v.spec.networkInterfaces,
    db.unwatched cfg Q nic.securityGroups
  rules : IdTable.Same (fun r => db.enforces cfg Q r.group) db.rules d.rules
  allocations : IdTable.Same (fun a => db.othersVm Q a.vm) db.allocations d.allocations
  networks : ∀ vm ∈ db.vms, vm.project ≠ Q → ∀ nic ∈ vm.spec.networkInterfaces,
    (d.networks.get nic.networkId).map Network.defaultGroup =
      (db.networks.get nic.networkId).map Network.defaultGroup
  projects : ∀ vm ∈ db.vms, vm.project ≠ Q →
    (d.projects.get vm.project).map Project.defaultGroup =
      (db.projects.get vm.project).map Project.defaultGroup
  /-- the groups that the delete of a project takes were there before -/
  managed : ∀ id, w = .deleteProject id → ∀ g ∈ d.securityGroups, g.managed = true →
    ∃ g₀ ∈ db.securityGroups, g₀.id = g.id ∧ g₀.project = g.project ∧ g₀.managed = true
  networksNext : db.networks.next ≤ d.networks.next
  projectsNext : db.projects.next ≤ d.projects.next

section

variable {cfg : Config} {Q : Id} {db d d' : Db} {u : AuthUser} {w : Write}
  {spec : VirtualMachineSpec}

theorem SameNics.refl (vm : Vm) : SameNics vm vm := ⟨rfl, rfl, rfl⟩

theorem SameNics.trans {a b c : Vm} (h : SameNics a b) (h' : SameNics b c) : SameNics a c :=
  ⟨h'.id.trans h.id, h'.project.trans h.project, h'.nics.trans h.nics⟩

theorem Undisturbed.refl (h : unentangled cfg Q db w) : Undisturbed cfg Q w db db where
  vms vm hvm _ := ⟨vm, hvm, .refl vm⟩
  origin vm hvm _ := ⟨vm, hvm, .refl vm⟩
  own vm hvm hQ := by
    have hrow := all_eq_true.mp (Bool.and_eq_true_iff.mp h).1 vm hvm
    simp only [hQ, bne_self_eq_false, Bool.false_or] at hrow
    exact all_eq_true.mp hrow
  rules := .refl _ _
  allocations := .refl _ _
  networks _ _ _ _ _ := rfl
  projects _ _ _ := rfl
  managed _ _ g hg hm := ⟨g, hg, rfl, rfl, hm⟩
  networksNext := le_rfl
  projectsNext := le_rfl

/-! ## From there to the policy -/

namespace Undisturbed

variable {vm : Vm} {n : Network}

section

variable (h : Undisturbed cfg Q w db d) (hvm : vm ∈ db.vms) (hQ : vm.project ≠ Q)
include h hvm hQ

theorem projectDefaultGroup : d.projectDefaultGroup vm.id = db.projectDefaultGroup vm.id := by
  have hbind : ∀ o : Option Project, o.bind Project.defaultGroup = (o.map Project.defaultGroup).join := by
    intro o
    cases o <;> rfl
  obtain ⟨v, hv, hsame⟩ := h.vms vm hvm hQ
  have hget : d.vms.get vm.id = some v := get_eq_some.mpr ⟨hv, hsame.id⟩
  have hget₀ : db.vms.get vm.id = some vm := get_eq_some.mpr ⟨hvm, rfl⟩
  simp only [Db.projectDefaultGroup, hget, hget₀, bind_some, hbind, hsame.project,
    h.projects vm hvm hQ]

theorem effectiveGroups_eq {n' : Network} (hn : n'.defaultGroup = n.defaultGroup)
    (nic : NetworkInterfaceSpec) :
    effectiveGroups cfg d vm.id n' nic = effectiveGroups cfg db vm.id n nic := by
  simp only [effectiveGroups, hn, h.projectDefaultGroup hvm hQ]

end

theorem enforces_of_mem (hvm : vm ∈ db.vms) (hQ : vm.project ≠ Q)
    {nic : NetworkInterfaceSpec} (hnic : nic ∈ vm.spec.networkInterfaces)
    (hn : db.networks.get nic.networkId = some n) {g : Id}
    (hg : g ∈ effectiveGroups cfg db vm.id n nic) : db.enforces cfg Q g := by
  refine any_eq_true.mpr ⟨vm, hvm, ?_⟩
  have hmem : g ∈ policyGroups cfg db vm := by
    refine mem_flatMap.mpr ⟨nic, hnic, ?_⟩
    rwa [hn]
  simp [hQ, hmem]

section

variable (h : Undisturbed cfg Q w db d) {a : IpAllocation}
include h

theorem rulesForGroups_eq {groups : List Id} (hgroups : ∀ g ∈ groups, db.enforces cfg Q g) :
    d.rulesForGroups groups = db.rulesForGroups groups := by
  have hsame : IdTable.Same (fun r => groups.contains r.group) db.rules d.rules :=
    h.rules.weaken fun r hr => hgroups r.group (contains_iff_mem.mp hr)
  exact hsame

theorem nicGroups_eq (ha : db.othersVm Q a.vm) : d.nicGroups a = db.nicGroups a := by
  obtain ⟨vm, hvm, hrow⟩ := any_eq_true.mp ha
  obtain ⟨hQ, hid⟩ := and_eq_true_iff.mp hrow
  have hQ : vm.project ≠ Q := bne_iff_ne.mp hQ
  obtain ⟨v, hv, hsame⟩ := h.vms vm hvm hQ
  have hget : d.vms.get vm.id = some v := get_eq_some.mpr ⟨hv, hsame.id⟩
  have hget₀ : db.vms.get vm.id = some vm := get_eq_some.mpr ⟨hvm, rfl⟩
  simp only [Db.nicGroups, eq_of_beq hid, bind_some, hget, hget₀, hsame.nics]

theorem nicGroups_unwatched (ha : db.othersVm Q a.vm = false) {g : Id} (hg : db.watches cfg Q g) :
    (d.nicGroups a).filter (· == g) = [] := by
  rw [filter_eq_nil_iff]
  intro i hi hig
  obtain rfl := eq_of_beq hig
  unfold Db.nicGroups at hi
  cases hv : a.vm.bind d.vms.get with
  | none => simp [hv] at hi
  | some v =>
  obtain ⟨j, hj, hget⟩ := bind_eq_some_iff.mp hv
  obtain ⟨hmem, hid⟩ := get_eq_some.mp hget
  rw [hv] at hi
  by_cases hQ : v.project = Q
  · cases hnic : v.spec.networkInterfaces[a.nicIndex]? with
    | none =>
      simp only [hnic] at hi
      cases hi
    | some nic =>
      simp only [hnic] at hi
      have hfree := h.own v hmem hQ nic (mem_of_getElem? hnic)
      have hi' := all_eq_true.mp hfree i hi
      simp [hg] at hi'
  · -- a VM of another project was there before
    obtain ⟨vm, hvm, hsame⟩ := h.origin v hmem hQ
    have hothers : db.othersVm Q a.vm := by
      refine any_eq_true.mpr ⟨vm, hvm, ?_⟩
      have hne : vm.project ≠ Q := hsame.project ▸ hQ
      have hidv : vm.id = j := hsame.id.symm.trans hid
      simp [hj, hidv, hne]
    simp [ha] at hothers

end

section

variable (h₀ : Undisturbed cfg Q w db db) {vm : Vm}
include h₀

section

variable (h : Undisturbed cfg Q w db d)
include h

theorem addressesInGroup_eq {g : Id}
    (hg : db.watches cfg Q g) : d.addressesInGroup g = db.addressesInGroup g := by
  have hpart : ∀ {d : Db}, Undisturbed cfg Q w db d → d.addressesInGroup g =
      (d.allocations.rows.filter fun a => db.othersVm Q a.vm).flatMap fun a =>
        ((d.nicGroups a).filter (· == g)).map fun _ => a.ip := by
    intro d h
    unfold Db.addressesInGroup
    induction d.allocations.rows with
    | nil => rfl
    | cons a rows ih =>
      rw [flatMap_cons, filter_cons, ih]
      cases ha : db.othersVm Q a.vm with
      | true => rfl
      | false =>
        rw [h.nicGroups_unwatched ha hg]
        rfl
  have hrows : d.allocations.rows.filter (fun a => db.othersVm Q a.vm) =
    db.allocations.rows.filter fun a => db.othersVm Q a.vm := h.allocations
  rw [hpart h, hpart h₀, hrows]
  refine flatMap_congr fun a ha => ?_
  rw [h.nicGroups_eq (mem_filter.mp ha).2]

theorem policy_eq (hvm : vm ∈ db.vms) (hQ : vm.project ≠ Q) {nic : NetworkInterfaceSpec}
    (hnic : nic ∈ vm.spec.networkInterfaces) {n n' : Network}
    (hn : db.networks.get nic.networkId = some n) (hdefault : n'.defaultGroup = n.defaultGroup) :
    groupsPolicy cfg d (effectiveGroups cfg d vm.id n' nic) =
      groupsPolicy cfg db (effectiveGroups cfg db vm.id n nic) := by
  rw [h.effectiveGroups_eq hvm hQ hdefault]
  have henforced : ∀ g ∈ effectiveGroups cfg db vm.id n nic, db.enforces cfg Q g :=
    fun g hg => enforces_of_mem hvm hQ hnic hn hg
  refine groupsPolicy_congr (h.rulesForGroups_eq henforced) fun r hr g hg => ?_
  obtain ⟨hmem, hgroup⟩ := mem_filter.mp hr
  refine addressesInGroup_eq h₀ h (any_eq_true.mpr ⟨r, hmem, ?_⟩)
  simp [henforced r.group (contains_iff_mem.mp hgroup), hg]

theorem resolveNics_eq {v : Vm}
    (hvm : vm ∈ db.vms) (hQ : vm.project ≠ Q) (hsame : SameNics vm v) (underlay : Underlay)
    (host : Id) : ∀ (nics : List NetworkInterfaceSpec) (i : Nat),
      (∀ nic ∈ nics, nic ∈ vm.spec.networkInterfaces) →
      (resolveNics cfg underlay d v host nics i).map (List.map NetworkBinding.policy) =
        (resolveNics cfg underlay db vm host nics i).map (List.map NetworkBinding.policy) := by
  intro nics
  induction nics with
  | nil => intro _ _; rfl
  | cons nic nics ih =>
    intro i hmem
    have hnic := hmem nic mem_cons_self
    have hrest := ih (i + 1) fun nic' hnic' => hmem nic' (mem_cons_of_mem _ hnic')
    have hdefault := h.networks vm hvm hQ nic hnic
    unfold resolveNics
    cases hn : db.networks.get nic.networkId with
    | none =>
      rw [hn, map_none, map_eq_none_iff] at hdefault
      rw [hdefault]
      rfl
    | some n =>
      rw [hn, map_some] at hdefault
      obtain ⟨n', hn', hgroup⟩ := map_eq_some_iff.mp hdefault
      have hpolicy := policy_eq h₀ h hvm hQ hnic hn hgroup
      simp only [hn', Option.bind_some, Option.map_map]
      have hcons : ∀ (b : NetworkBinding) (o : Option (List NetworkBinding)),
          o.map (List.map NetworkBinding.policy ∘ fun rest => b :: rest) =
            (o.map (List.map NetworkBinding.policy)).map fun rest => b.policy :: rest := by
        intro b o
        cases o <;> rfl
      rw [hcons, hcons, hrest]
      simp only [nicBinding, hsame.id, hpolicy]

/-- **From the rows to the policy.** -/
theorem policiesKept : PoliciesKept cfg Q db d := by
  intro vm hvm hQ
  obtain ⟨v, hv, hsame⟩ := h.vms vm hvm hQ
  refine ⟨v, hv, hsame, fun underlay host => ?_⟩
  unfold resolveBindings
  rw [hsame.nics]
  exact resolveNics_eq h₀ h hvm hQ hsame underlay host _ 0 fun _ hnic => hnic

end

end

/-! ## One statement -/

section

variable (h : Undisturbed cfg Q w db d) {p : Vm → Bool} {f : Vm → Vm}
include h

theorem row_eq {vm r : Vm} (hvm : vm ∈ db.vms) (hr : r ∈ d.vms)
    (hid : r.id = vm.id) : (vm.project = Q ∧ r.project = Q) ∨ (r.project ≠ Q ∧ SameNics vm r) := by
  by_cases hQ : r.project = Q
  · refine Or.inl ⟨?_, hQ⟩
    by_contra hne
    obtain ⟨v, hv, hsame⟩ := h.vms vm hvm hne
    have hrow : r = v := eq_of_id hr hv (hid.trans hsame.id.symm)
    exact hne (hsame.project ▸ hrow ▸ hQ)
  · obtain ⟨vm', hvm', hsame⟩ := h.origin r hr hQ
    have hrow : vm' = vm := eq_of_id hvm' hvm (hsame.id.symm.trans hid)
    exact Or.inr ⟨hQ, hrow ▸ hsame⟩

/-- Rows are written: those of other projects keep their NICs, those of `Q` are in no group that is
watched. -/
theorem updateVms {hf : ∀ r, (f r).id = r.id} (hproject : ∀ r, (f r).project = r.project)
    (hothers : ∀ r ∈ d.vms, p r → r.project ≠ Q → SameNics r (f r))
    (hown : ∀ r ∈ d.vms, p r → r.project = Q → ∀ nic ∈ (f r).spec.networkInterfaces,
    db.unwatched cfg Q nic.securityGroups) :
    Undisturbed cfg Q w db { d with vms := d.vms.update p f hf } := by
  have hrow : ∀ r ∈ d.vms, r.project ≠ Q → SameNics r (if p r then f r else r) := by
    intro r hr hQ
    split
    · exact hothers r hr ‹_› hQ
    · exact .refl r
  have hcolumn : ∀ r : Vm, (if p r then f r else r).project = r.project := by
    intro r
    split
    · exact hproject r
    · rfl
  refine { h with vms := ?_, origin := ?_, own := ?_ }
  · intro vm hvm hQ
    obtain ⟨v, hv, hsame⟩ := h.vms vm hvm hQ
    have hwritten : (if p v then f v else v) ∈ d.vms.update p f hf :=
      IdTable.mem_update.mpr ⟨v, hv, rfl⟩
    exact ⟨_, hwritten, hsame.trans (hrow v hv (hsame.project ▸ hQ))⟩
  · intro v' hv' hQ
    obtain ⟨v, hv, rfl⟩ := mem_updated rfl hv'
    rw [hcolumn] at hQ
    obtain ⟨vm, hvm, hsame⟩ := h.origin v hv hQ
    exact ⟨vm, hvm, hsame.trans (hrow v hv hQ)⟩
  · intro v' hv' hQ
    obtain ⟨v, hv, rfl⟩ := mem_updated rfl hv'
    rw [hcolumn] at hQ
    split
    · exact hown v hv ‹_› hQ
    · exact h.own v hv hQ

theorem updateVms_same {hf : ∀ r, (f r).id = r.id}
    (hsame : ∀ r, (f r).project = r.project ∧ (f r).spec = r.spec := by exact fun _ => ⟨rfl, rfl⟩) :
    Undisturbed cfg Q w db { d with vms := d.vms.update p f hf } := by
  refine h.updateVms (fun r => (hsame r).1) (fun r _ _ _ => ?_) fun r hr _ hQ => ?_
  · exact ⟨hf r, (hsame r).1, congrArg _ (hsame r).2⟩
  · rw [(hsame r).2]
    exact h.own r hr hQ

end

end Undisturbed

theorem Launches.unwatched {s : Scope}
    (hok : keepsAway cfg Q db w) (hl : Launches cfg db s u w spec) :
    ∀ nic ∈ spec.networkInterfaces, db.unwatched cfg Q nic.securityGroups := by
  cases hl with
  | create h =>
    obtain ⟨-, -, -, rfl, -⟩ := createSpec_ok h
    exact all_eq_true.mp hok
  | fromTemplate h =>
    obtain ⟨t, -, -, -, -, -, -, -, rfl⟩ := templateSpec_ok h
    intro nic hnic
    obtain ⟨n, -, rfl⟩ := mem_oneNic.mp hnic
    exact hok
  | fromVolume h =>
    obtain ⟨-, -, -, -, -, -, hnics⟩ := volumeSpec_ok h
    rw [hnics]
    intro nic hnic
    obtain ⟨n, -, rfl⟩ := mem_oneNic.mp hnic
    exact hok

/-- A request writes the NICs of a VM of `Q` only, and puts them into no group that is watched. -/
theorem Respecs.unwatched {vm : Vm} (hok : unentangled cfg Q db w) (hvm : vm ∈ db.vms)
    (hr : Respecs cfg db (.project Q) w vm spec) :
    spec.networkInterfaces = vm.spec.networkInterfaces ∨
      (vm.project = Q ∧ ∀ nic ∈ spec.networkInterfaces, db.unwatched cfg Q nic.securityGroups) := by
  have hstored := (Undisturbed.refl hok).own vm hvm
  cases hr with
  | update hown h =>
    have hQ := (Scope.owns_project _ _).mp hown
    refine Or.inr ⟨hQ, fun nic hnic => ?_⟩
    rw [updateSpec_nics h] at hnic
    rcases mem_append.mp hnic with hold | hnew
    · exact hstored hQ nic hold
    · obtain ⟨n, -, rfl⟩ := mem_oneNic.mp hnew
      rfl
  | @nic _ index body nic hown hnet hgroups hnic =>
    have hQ := (Scope.owns_project _ _).mp hown
    refine Or.inr ⟨hQ, fun nic' hnic' => ?_⟩
    rcases mem_or_eq_of_mem_set hnic' with hold | rfl
    · exact hstored hQ nic' hold
    have haway : body.securityGroups.all (db.unwatched cfg Q) :=
      (and_eq_true_iff.mp hok).2
    cases hgs : body.securityGroups with
    | none =>
      simp only [retarget, hgs, getD_none]
      exact hstored hQ nic (mem_of_getElem? hnic)
    | some gs =>
      rw [hgs] at haway
      simp only [retarget, hgs, getD_some]
      exact haway
  | start | stop | attach | detach => exact Or.inl rfl

theorem othersVm_ne {vm : Id} (hvm : (Scope.project Q).OwnsVm db vm) {a : IpAllocation}
    (ha : db.othersVm Q a.vm) : a.vm ≠ some vm := by
  intro heq
  obtain ⟨v, hv, hrow⟩ := any_eq_true.mp ha
  obtain ⟨hQ, hid⟩ := and_eq_true_iff.mp hrow
  have hid : vm = v.id := some_inj.mp (heq.symm.trans (eq_of_beq hid))
  exact bne_iff_ne.mp hQ ((Scope.owns_project _ _).mp (hvm v hv hid.symm))

namespace Undisturbed

theorem dropGroups {p : SecurityGroup → Bool} (h : Undisturbed cfg Q w db d)
    (hp : ∀ g ∈ d.securityGroups, p g →
      db.enforces cfg Q g.id = false ∧ db.watches cfg Q g.id = false) :
    Undisturbed cfg Q w db (d.dropGroups p) := by
  refine { h with
    rules := h.rules.trans (IdTable.Same.delete fun r hr hgone => ?_)
    managed := fun id hw g hg => h.managed id hw g (mem_delete.mp hg).1 }
  rcases or_eq_true_iff.mp hgone with hin | hremote
  · obtain ⟨g, hg, hid, hpg⟩ := get_any.mp hin
    have hid : g.id = r.group := hid
    exact hid ▸ (hp g hg hpg).1
  · obtain ⟨i, hi, hgone⟩ := (any_eq_true _ _).mp hremote
    obtain ⟨g, hg, rfl, hpg⟩ := get_any.mp hgone
    -- an enforced rule that names the group would make it a watched one
    by_contra henf
    have henf : db.enforces cfg Q r.group := by simpa using henf
    have hwatch : db.watches cfg Q g.id := by
      refine any_eq_true.mpr ⟨r, (h.rules.mem_iff henf).mp hr, ?_⟩
      rw [henf, hi]
      exact beq_self_eq_true _
    simp [(hp g hg hpg).2] at hwatch

theorem dropProject {id : Id} (hok : keepsAway cfg Q db (.deleteProject id))
    (h : Undisturbed cfg Q (.deleteProject id) db d) :
    Undisturbed cfg Q (.deleteProject id) db (d.dropProject id) := by
  obtain ⟨hvms, hgroups⟩ := and_eq_true_iff.mp hok
  have hne : ∀ vm ∈ db.vms, vm.project ≠ Q → vm.project ≠ id := by
    intro vm hvm hQ
    simpa [hQ] using all_eq_true.mp hvms vm hvm
  have hcleared : Undisturbed cfg Q (.deleteProject id) db (d.setProjectDefaultGroup id none) := by
    refine { h with projects := fun vm hvm hQ => ?_ }
    rw [← h.projects vm hvm hQ]
    refine map_get_update fun r _ hr hid => ?_
    exact absurd ((eq_of_beq hid).symm.trans hr).symm (hne vm hvm hQ)
  have hdropped : Undisturbed cfg Q (.deleteProject id) db (d.dropProjectGroups id) := by
    refine hcleared.dropGroups fun g hg hpg => ?_
    obtain ⟨hproject, hmanaged⟩ := and_eq_true_iff.mp hpg
    obtain ⟨g₀, hg₀, hid, hproject₀, hmanaged₀⟩ := h.managed id rfl g hg hmanaged
    have hrow := all_eq_true.mp hgroups g₀ hg₀
    rw [hproject₀, eq_of_beq hproject, hmanaged₀, hid] at hrow
    simpa using hrow
  refine { hdropped with projects := fun vm hvm hQ => ?_ }
  rw [← hdropped.projects vm hvm hQ]
  refine congrArg _ (get_delete fun r _ hr => ?_)
  have hrid : r.id ≠ id := fun heq => hne vm hvm hQ (Eq.trans hr.symm heq)
  simp [hrid]

theorem deleteNetwork {id : Id} {p : Network → Bool} (hp : ∀ n, p n → n.id = id)
    (hok : keepsAway cfg Q db (.deleteNetwork id))
    (h : Undisturbed cfg Q w db d) : Undisturbed cfg Q w db (d.deleteNetworks p) := by
  obtain ⟨hvms, hallocations⟩ := and_eq_true_iff.mp hok
  refine { h with
    allocations := h.allocations.trans (IdTable.Same.delete fun a ha hgone => ?_)
    networks := fun vm hvm hQ nic hnic => ?_ }
  · obtain ⟨n, -, hnid, hpn⟩ := get_any.mp hgone
    have hid : a.network = id := hnid.symm.trans (hp n hpn)
    by_contra hothers
    have hothers : db.othersVm Q a.vm := by simpa using hothers
    have hrow := all_eq_true.mp hallocations a ((h.allocations.mem_iff hothers).mp ha)
    simp [hid, hothers] at hrow
  · have hrow := all_eq_true.mp hvms vm hvm
    have hnics : ∀ nic ∈ vm.spec.networkInterfaces, nic.networkId ≠ id := by simpa [hQ] using hrow
    rw [← h.networks vm hvm hQ nic hnic]
    refine congrArg _ (get_delete fun n _ hn => ?_)
    by_contra hpn
    exact hnics nic hnic (hn.symm.trans (hp n (by simpa using hpn)))

/-- **One statement** of a request in the scope of `Q`. -/
theorem step (hnamed : db.Named Q) (hok : unentangled cfg Q db w)
    (h : Undisturbed cfg Q w db d) (hs : Step cfg (.project Q) u w db d d') :
    Undisturbed cfg Q w db d' := by
  have haway := (and_eq_true_iff.mp hok).2
  cases hs with
  | insertVm hl =>
    refine { h with vms := ?_, origin := ?_, own := ?_ }
    · intro vm hvm hQ
      obtain ⟨v, hv, hsame⟩ := h.vms vm hvm hQ
      exact ⟨v, mem_insert.mpr (Or.inl hv), hsame⟩
    · intro v hv hQ
      rcases mem_insert.mp hv with hold | rfl
      · exact h.origin v hold hQ
      · exact absurd rfl hQ
    · intro v hv hQ
      rcases mem_insert.mp hv with hold | rfl
      · exact h.own v hold hQ
      · exact hl.unwatched haway
  | allocate hvm hkept hsame =>
    refine { h with allocations := h.allocations.trans (hsame.weaken fun a ha => ?_) }
    exact bne_iff_ne.mpr (othersVm_ne hvm ha)
  | releaseNic hvm =>
    refine { h with allocations := h.allocations.trans (IdTable.Same.delete fun a _ hgone => ?_) }
    by_contra hothers
    exact othersVm_ne hvm (by simpa using hothers) (eq_of_beq (and_eq_true_iff.mp hgone).1)
  | @removeVm id hvm =>
    refine { h with
      vms := ?_
      origin := fun v hv => h.origin v (mem_delete.mp hv).1
      own := fun v hv => h.own v (mem_delete.mp hv).1
      allocations := h.allocations.trans (IdTable.Same.delete fun a _ hgone => ?_) }
    · intro vm hmem hQ
      obtain ⟨v, hv, hsame⟩ := h.vms vm hmem hQ
      have hlt : v.id < db.vms.next := hsame.id ▸ id_lt hmem
      refine ⟨v, mem_delete.mpr ⟨hv, ?_⟩, hsame⟩
      simpa using Nat.ne_of_lt (lt_of_lt_of_le hlt hvm)
    · have hnobody : (Scope.project Q).OwnsVm db id := by
        intro r hr hid
        exact absurd hid (Nat.ne_of_lt (lt_of_lt_of_le (id_lt hr) hvm))
      by_contra hothers
      exact othersVm_ne hnobody (by simpa using hothers) (eq_of_beq hgone)
  | @respec vm name spec hvm hr =>
    refine h.updateVms (fun _ => rfl) (fun r hmem hid hQ => ?_) fun r hmem hid hQ => ?_
    · rcases h.row_eq hvm hmem (eq_of_beq hid) with ⟨-, hown⟩ | ⟨-, hsame⟩
      · exact absurd hown hQ
      · rcases hr.unwatched hok hvm with hnics | ⟨hown, -⟩
        · exact ⟨rfl, rfl, hnics.trans hsame.nics.symm⟩
        · exact absurd (hsame.project.trans hown) hQ
    · rcases h.row_eq hvm hmem (eq_of_beq hid) with ⟨hown, -⟩ | ⟨hne, -⟩
      · rcases hr.unwatched hok hvm with hnics | ⟨-, hfree⟩
        · show ∀ nic ∈ spec.networkInterfaces, _
          rw [hnics]
          exact (Undisturbed.refl hok).own vm hvm hown
        · exact hfree
      · exact absurd hQ hne
  | phase | drainPhase | touch => exact h.updateVms_same
  | createNetwork hw hp =>
    subst hw
    refine { h with
      networks := fun vm hvm hQ nic hnic => ?_
      managed := fun id hid => nomatch hid
      networksNext := Nat.le_succ_of_le h.networksNext }
    have hlt : nic.networkId < d.networks.next :=
      lt_of_lt_of_le ((hnamed vm hvm hQ).2 nic hnic) h.networksNext
    rw [← h.networks vm hvm hQ nic hnic]
    refine (map_get_update fun r _ hr hid => ?_).trans
      (congrArg _ (IdTable.get_insert_of_lt hlt))
    exact absurd (hr.symm.trans (eq_of_beq hid)) (Nat.ne_of_lt hlt)
  | updateNetwork | adoptSegment =>
    refine { h with networks := fun vm hvm hQ nic hnic => ?_ }
    rw [← h.networks vm hvm hQ nic hnic]
    refine map_get_update ?_
    exact fun _ _ _ _ => rfl
  | deleteNetwork hw hown =>
    subst hw
    exact h.deleteNetwork (fun n hn => eq_of_beq (and_eq_true_iff.mp hn).1) haway
  | createGroup =>
    refine { h with managed := fun id hw g hg hm => ?_ }
    rcases mem_insert.mp hg with hold | rfl
    · exact h.managed id hw g hold hm
    · cases hm
  | updateGroup hg =>
    refine { h with managed := fun id hw g hg hm => ?_ }
    obtain ⟨g', hg', rfl⟩ := mem_updated rfl hg
    split at hm
    · rw [if_pos ‹_›]
      exact h.managed id hw g' hg' hm
    · rw [if_neg ‹_›]
      exact h.managed id hw g' hg' hm
  | deleteGroup hw hg =>
    subst hw
    refine h.dropGroups fun g _ hpg => ?_
    rw [eq_of_beq (and_eq_true_iff.mp hpg).1]
    simpa [keepsAway] using haway
  | @addRule g body _ _ _ _ hw hg =>
    subst hw
    have hfree : db.enforces cfg Q g = false := by simpa [keepsAway] using haway
    exact { h with rules := h.rules.trans (IdTable.Same.insert rfl hfree) }
  | @deleteRule g rule hw hg =>
    subst hw
    have hfree : db.enforces cfg Q g = false := by simpa [keepsAway] using haway
    refine { h with rules := h.rules.trans (IdTable.Same.delete fun r _ hgone => ?_) }
    rwa [eq_of_beq (and_eq_true_iff.mp hgone).2]
  | createProject hw =>
    subst hw
    refine { h with
      projects := fun vm hvm hQ => ?_
      managed := fun id hid => nomatch hid
      projectsNext := Nat.le_succ_of_le h.projectsNext }
    have hlt : vm.project < d.projects.next :=
      lt_of_lt_of_le (hnamed vm hvm hQ).1 h.projectsNext
    rw [← h.projects vm hvm hQ]
    refine (map_get_update fun r _ hr hid => ?_).trans
      (congrArg _ (IdTable.get_insert_of_lt hlt))
    exact absurd (hr.symm.trans (eq_of_beq hid)) (Nat.ne_of_lt hlt)
  | updateProject hw =>
    refine { h with projects := fun vm hvm hQ => ?_ }
    rw [← h.projects vm hvm hQ]
    refine map_get_update ?_
    exact fun _ _ _ _ => rfl
  | deleteProject hw =>
    subst hw
    exact h.dropProject haway
  | _ => exact { h with }

theorem steps (hnamed : db.Named Q) (hok : unentangled cfg Q db w)
    (hs : Steps cfg (.project Q) u w db db d) : Undisturbed cfg Q w db d := by
  induction hs with
  | refl => exact .refl hok
  | tail _ hstep ih => exact ih.step hnamed hok hstep

theorem named (h : Undisturbed cfg Q w db d) (hnamed : db.Named Q) : d.Named Q := by
  intro v hv hQ
  obtain ⟨vm, hvm, hsame⟩ := h.origin v hv hQ
  obtain ⟨hproject, hnics⟩ := hnamed vm hvm (hsame.project ▸ hQ)
  rw [hsame.project, hsame.nics]
  exact ⟨lt_of_lt_of_le hproject h.projectsNext,
    fun nic hnic => lt_of_lt_of_le (hnics nic hnic) h.networksNext⟩

end Undisturbed

/-! ## Whole requests, and runs -/

theorem PoliciesKept.refl (cfg : Config) (Q : Id) (db : Db) : PoliciesKept cfg Q db db :=
  fun vm hvm _ => ⟨vm, hvm, .refl vm, fun _ _ => rfl⟩

theorem PoliciesKept.trans (h : PoliciesKept cfg Q db d) (h' : PoliciesKept cfg Q d d') :
    PoliciesKept cfg Q db d' := by
  intro vm hvm hQ
  obtain ⟨v, hv, hsame, hpolicy⟩ := h vm hvm hQ
  obtain ⟨v', hv', hsame', hpolicy'⟩ := h' v hv (hsame.project ▸ hQ)
  exact ⟨v', hv', hsame.trans hsame',
    fun underlay host => (hpolicy' underlay host).trans (hpolicy underlay host)⟩

theorem PoliciesKept.serve (hauth : cfg.authenticator) {r : Request} (hk : db.UsersKeyed)
    (hb : BoundTo cfg Q db r.claims) (hnamed : db.Named Q) (hok : unentangled cfg Q db r.write) :
    PoliciesKept cfg Q db (serve cfg db r) ∧ (serve cfg db r).Named Q := by
  obtain ⟨u, hsteps⟩ := serve_steps hauth hk hb
  obtain ⟨t, ht, -, -⟩ := login_users db hb.notBootstrap
  rw [ht] at hsteps
  have hok' : unentangled cfg Q { db with users := t } r.write = true := by
    rw [← hok]
    cases r.write <;> rfl
  have hnamed' : Db.Named { db with users := t } Q := hnamed
  have h := Undisturbed.steps hnamed' hok' hsteps
  have hlogin : Undisturbed cfg Q r.write db { db with users := t } :=
    { Undisturbed.refl hok with }
  exact ⟨(Undisturbed.policiesKept (.refl hok) hlogin).trans
    (Undisturbed.policiesKept (.refl hok') h), h.named hnamed'⟩

end

end VQuasar.Tenancy
