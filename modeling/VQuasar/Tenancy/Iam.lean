import VQuasar.Tenancy.System

/-!
# What a project's administrators can grant

A binding is made in the scope of the request, so callers who are bound to `P` only ever bind in `P`.
The definition of a role has no scope: `update_role` and `delete_role` change what a role means
wherever it is bound.  In every run of IAM requests that leave alone what roles bound outside `P` grant
(`confined`), nobody's permissions in any other scope change, the platform's included:

    Reach (serving cfg) (confined P) (· = db₀) db → db.PermissionsAgree P db₀     (iam_contained)

A permission is held when some role grants it and is bound (`mem_effectivePermissions`), so it is
enough to follow the pairs of a role and a permission through one request.
-/

namespace VQuasar.Tenancy

open List Option Table

variable {user role : Id} {groups : List String} {project : Option Id}

/-! ## The property -/

/-- Everyone has the same permissions in every scope other than `P`'s. -/
def Db.PermissionsAgree (P : Id) (db d : Db) : Prop :=
  ∀ user groups project, project ≠ some P →
    d.effectivePermissions user groups project = db.effectivePermissions user groups project

/-- Bindings name roles there are, or were (foreign keys of `user_roles` and `group_roles`). -/
structure Db.RolesKeyed (db : Db) : Prop where
  direct : ∀ r ∈ db.userRoles, r.role < db.roles.next
  groups : ∀ r ∈ db.groupRoles, r.role < db.roles.next

/-- The requests of `api/iam.rs`. -/
def Write.isIam : Write → Bool
  | .setUserRoles .. | .createRole _ | .updateRole .. | .deleteRole _ | .addGroupRole ..
  | .removeGroupRole .. => true
  | _ => false

/-! ## What the handlers leave unchecked -/

/-- Every binding of the role names `P`. -/
def Db.boundOnlyIn (db : Db) (P role : Id) : Bool :=
  (db.userRoles.all fun r => r.role != role || r.project == some P) &&
  db.groupRoles.all fun r => r.role != role || r.project == some P

/-- What a role that is bound outside `P` grants stays as it is. -/
def confined (P : Id) (db : Db) : Write → Bool
  | .updateRole id body => db.boundOnlyIn P id ||
      match validatePerms body.permissions with
      | .ok ps => Permission.catalog.all fun p =>
          ps.contains p == db.rolePermissions.contains ⟨id, p⟩
      | .error _ => true
  | .deleteRole id => db.boundOnlyIn P id || db.rolePermissions.all fun rp => rp.role != id
  | _ => true

section

variable {cfg : Config} {P : Id} {db d : Db} {u : AuthUser}

/-! ## Permissions as pairs of a role and a permission -/

theorem mem_effectivePermissions {p : Permission} : p ∈ db.effectivePermissions user groups project
    ↔ ∃ role, ⟨role, p⟩ ∈ db.rolePermissions ∧ db.roleBound user groups project role := by
  unfold Db.effectivePermissions
  rw [List.mem_filter, List.any_eq_true]
  constructor
  · rintro ⟨-, rp, hrp, hp⟩
    obtain ⟨hperm, hbound⟩ := Bool.and_eq_true_iff.mp hp
    obtain rfl := eq_of_beq hperm
    exact ⟨rp.role, hrp, hbound⟩
  · rintro ⟨role, hrp, hbound⟩
    exact ⟨Permission.mem_catalog p, ⟨role, p⟩, hrp, by simp [hbound]⟩

theorem effectivePermissions_congr (h : ∀ role p, (⟨role, p⟩ ∈ d.rolePermissions ∧ d.roleBound user
    groups project role) ↔ (⟨role, p⟩ ∈ db.rolePermissions ∧ db.roleBound user groups project
    role)) : d.effectivePermissions user groups project = db.effectivePermissions user groups
    project := by
  have hmem : ∀ p, p ∈ d.effectivePermissions user groups project ↔
      p ∈ db.effectivePermissions user groups project := by
    intro p
    rw [mem_effectivePermissions, mem_effectivePermissions]
    exact exists_congr fun role => h role p
  unfold Db.effectivePermissions at *
  refine filter_congr fun p hp => ?_
  have hp' := hmem p
  simp only [mem_filter, hp, true_and] at hp'
  exact Bool.eq_iff_iff.mpr hp'

theorem roleBound_iff (hproject : project ≠ some P) : db.roleBound user groups project role ↔
    (∃ r ∈ db.userRoles, r.project ≠ some P ∧ r.user = user ∧ Db.bindingCounts r.project project ∧ r.role = role) ∨ ∃ r ∈ db.groupRoles, r.project ≠ some P ∧ r.group ∈ groups ∧
    Db.bindingCounts r.project project ∧ r.role = role := by
  have hne : ∀ bound, Db.bindingCounts bound project → bound ≠ some P := by
    rintro bound hcounts rfl
    simp [bindingCounts_eq_false hproject] at hcounts
  simp only [Db.roleBound, Bool.or_eq_true, List.any_eq_true, Bool.and_eq_true, beq_iff_eq,
    List.contains_iff_mem]
  constructor
  · rintro (⟨r, hr, ⟨hu, hc⟩, hrole⟩ | ⟨r, hr, ⟨hg, hc⟩, hrole⟩)
    · exact Or.inl ⟨r, hr, hne _ hc, hu, hc, hrole⟩
    · exact Or.inr ⟨r, hr, hne _ hc, hg, hc, hrole⟩
  · rintro (⟨r, hr, -, hu, hc, hrole⟩ | ⟨r, hr, -, hg, hc, hrole⟩)
    · exact Or.inl ⟨r, hr, ⟨hu, hc⟩, hrole⟩
    · exact Or.inr ⟨r, hr, ⟨hg, hc⟩, hrole⟩

theorem roleBound_congr (hproject : project ≠ some P) (hdirect : ∀ r : UserRole, r.role = role →
    r.project ≠ some P → (r ∈ d.userRoles ↔ r ∈ db.userRoles)) (hgroups : ∀ r : GroupRole, r.role =
    role → r.project ≠ some P → (r ∈ d.groupRoles ↔ r ∈ db.groupRoles)) : d.roleBound user groups
    project role ↔ db.roleBound user groups project role := by
  rw [roleBound_iff hproject, roleBound_iff hproject]
  constructor
  · rintro (⟨r, hr, hne, hu, hc, hrole⟩ | ⟨r, hr, hne, hg, hc, hrole⟩)
    · exact Or.inl ⟨r, (hdirect r hrole hne).mp hr, hne, hu, hc, hrole⟩
    · exact Or.inr ⟨r, (hgroups r hrole hne).mp hr, hne, hg, hc, hrole⟩
  · rintro (⟨r, hr, hne, hu, hc, hrole⟩ | ⟨r, hr, hne, hg, hc, hrole⟩)
    · exact Or.inl ⟨r, (hdirect r hrole hne).mpr hr, hne, hu, hc, hrole⟩
    · exact Or.inr ⟨r, (hgroups r hrole hne).mpr hr, hne, hg, hc, hrole⟩

theorem boundOnlyIn_not_bound (h : db.boundOnlyIn P role) (hproject : project ≠ some P) : ¬
    db.roleBound user groups project role := by
  obtain ⟨hdirect, hgroups⟩ := Bool.and_eq_true_iff.mp h
  rw [roleBound_iff hproject]
  rintro (⟨r, hr, hne, -, -, hrole⟩ | ⟨r, hr, hne, -, -, hrole⟩)
  · have hP := all_eq_true.mp hdirect r hr
    simp [hrole, hne] at hP
  · have hP := all_eq_true.mp hgroups r hr
    simp [hrole, hne] at hP

theorem Db.RolesKeyed.not_bound (h : db.RolesKeyed) (hproject : project ≠ some P) : ¬ db.roleBound
    user groups project db.roles.next := by
  rw [roleBound_iff hproject]
  rintro (⟨r, hr, -, -, -, hrole⟩ | ⟨r, hr, -, -, -, hrole⟩)
  · exact absurd hrole (Nat.ne_of_lt (h.direct r hr))
  · exact absurd hrole (Nat.ne_of_lt (h.groups r hr))

/-! ## One request -/

/-- What an IAM request of a caller bound to `P` leaves. -/
structure IamContained (P : Id) (db d : Db) : Prop where
  agree : db.PermissionsAgree P d
  keyed : d.RolesKeyed

theorem IamContained.refl (hk : db.RolesKeyed) : IamContained P db db :=
  ⟨fun _ _ _ _ => rfl, hk⟩

theorem IamContained.of_bindings {t : List UserRole} {g : List GroupRole}
    (hdirect : ∀ r : UserRole, r.project ≠ some P → (r ∈ t ↔ r ∈ db.userRoles))
    (hgroups : ∀ r : GroupRole, r.project ≠ some P → (r ∈ g ↔ r ∈ db.groupRoles))
    (hk : Db.RolesKeyed { db with userRoles := t, groupRoles := g }) :
    IamContained P db { db with userRoles := t, groupRoles := g } := by
  refine ⟨fun user groups project hproject => ?_, hk⟩
  refine effectivePermissions_congr fun role p => and_congr_right fun _ => ?_
  exact roleBound_congr hproject (fun r _ => hdirect r) fun r _ => hgroups r

theorem role_lt (h : (db.roles.get role).isSome) : role < db.roles.next := by
  obtain ⟨r, hr⟩ := isSome_iff_exists.mp h
  obtain ⟨hmem, hid⟩ := IdTable.get_eq_some.mp hr
  rw [← hid]
  exact IdTable.id_lt hmem

section

variable (hk : db.RolesKeyed) {id : Id}
include hk

theorem setUserRoles_contained (id : Id) (roles : List Id) :
    IamContained P db (setUserRoles db (.project P) u id roles).1 := by
  refine settle_induction (.refl hk) fun db₁ _ h => ?_
  replace h := of_ensure h
  obtain ⟨target, -, h⟩ := orElse_bind.mp h
  obtain ⟨db₂, hset, ⟨⟩⟩ := of_bind_pure h
  obtain ⟨t, rfl, hnew, hold⟩ := Db.setUserRoles_ok hset
  refine IamContained.of_bindings (fun r hne => ⟨fun hr => ?_, fun hr => hold r hr hne⟩)
    (fun _ _ => Iff.rfl) ⟨fun r hr => ?_, hk.groups⟩
  · rcases hnew r hr with hmem | ⟨-, hproject, -⟩
    · exact hmem
    · exact absurd hproject hne
  · rcases hnew r hr with hmem | ⟨-, -, hrole⟩
    · exact hk.direct r hmem
    · exact role_lt hrole

theorem addGroupRole_contained (group : String) (role : Id) :
    IamContained P db (addGroupRole db (.project P) u group role).1 := by
  refine settle_induction (.refl hk) fun db₁ _ h => ?_
  replace h := of_ensure h
  replace h := of_ensure h
  obtain ⟨db₂, hadd, ⟨⟩⟩ := of_bind_pure h
  obtain ⟨rfl, hrole⟩ := Db.addGroupRole_ok hadd
  refine IamContained.of_bindings (fun _ _ => Iff.rfl)
    (fun r hne => ⟨fun hr => ?_, fun hr => Db.mem_insertNew.mpr (Or.inl hr)⟩)
    ⟨hk.direct, fun r hr => ?_⟩
  · rcases Db.mem_insertNew.mp hr with hmem | rfl
    · exact hmem
    · exact absurd rfl hne
  · rcases Db.mem_insertNew.mp hr with hmem | rfl
    · exact hk.groups r hmem
    · exact role_lt hrole

theorem removeGroupRole_contained (group : String) (role : Id) :
    IamContained P db (removeGroupRole db (.project P) u group role).1 := by
  refine settle_induction (.refl hk) fun db₁ _ h => ?_
  replace h := of_ensure h
  cases of_ensure_pure h
  refine IamContained.of_bindings (fun _ _ => Iff.rfl)
    (fun r hne => ⟨fun hr => (mem_deleteWhere.mp hr).1, fun hr => ?_⟩)
    ⟨hk.direct, fun r hr => hk.groups r (mem_deleteWhere.mp hr).1⟩
  exact mem_deleteWhere.mpr ⟨hr, by simp [Scope.projectFilter, hne]⟩

theorem createRole_contained (body : CreateRole) : IamContained P db (createRole db u body).1 := by
  refine settle_induction (.refl hk) fun db₁ _ h => ?_
  replace h := of_ensure h
  replace h := of_ensure h
  obtain ⟨permissions, -, h⟩ := bind_eq_ok.mp h
  obtain ⟨db₂, hcreate, ⟨⟩⟩ := of_bind_pure h
  cases Db.createRole_ok hcreate
  refine ⟨fun user groups project hproject => ?_, ⟨fun r hr => ?_, fun r hr => ?_⟩⟩
  · refine effectivePermissions_congr fun role p => ?_
    constructor
    · rintro ⟨hmem, hbound⟩
      rcases mem_append.mp hmem with hold | hnew
      · exact ⟨hold, hbound⟩
      · obtain ⟨q, -, heq⟩ := mem_map.mp hnew
        cases heq
        exact absurd hbound (hk.not_bound hproject)
    · rintro ⟨hmem, hbound⟩
      exact ⟨mem_append_left _ hmem, hbound⟩
  · exact Nat.lt_succ_of_lt (hk.direct r hr)
  · exact Nat.lt_succ_of_lt (hk.groups r hr)

/-- The permissions of one role are replaced: the role is bound in `P` only, or it grants what it
granted. -/
theorem updateRole_contained {body : UpdateRole} (hok : confined P db (.updateRole id body)) :
    IamContained P db (updateRole db u id body).1 := by
  refine settle_induction (.refl hk) fun db₁ _ h => ?_
  replace h := of_ensure h
  obtain ⟨role, -, h⟩ := orElse_bind.mp h
  replace h := of_ensure h
  obtain ⟨permissions, hperms, h⟩ := bind_eq_ok.mp h
  obtain ⟨db₂, hupdate, ⟨⟩⟩ := of_bind_pure h
  cases Db.updateRolePermissions_ok hupdate
  refine ⟨fun user groups project hproject => ?_, ⟨hk.direct, hk.groups⟩⟩
  refine effectivePermissions_congr fun r p => and_congr_left fun hbound => ?_
  have hmem : (⟨r, p⟩ : RolePermission) ∈
      deleteWhere (fun rp => rp.role == id) db.rolePermissions ++
        permissions.map (fun q => (⟨id, q⟩ : RolePermission)) ↔
      (⟨r, p⟩ ∈ db.rolePermissions ∧ r ≠ id) ∨ (p ∈ permissions ∧ r = id) := by
    rw [List.mem_append, mem_deleteWhere, List.mem_map]
    refine or_congr (and_congr_right fun _ => by simp) ⟨?_, ?_⟩
    · rintro ⟨q, hq, heq⟩
      cases heq
      exact ⟨hq, rfl⟩
    · rintro ⟨hp, rfl⟩
      exact ⟨p, hp, rfl⟩
  rw [hmem]
  by_cases hid : r = id
  · subst hid
    rcases Bool.or_eq_true_iff.mp hok with honly | hsame
    · exact absurd hbound (boundOnlyIn_not_bound honly hproject)
    rw [hperms] at hsame
    have hp := eq_of_beq (all_eq_true.mp hsame p (Permission.mem_catalog p))
    have hiff : p ∈ permissions ↔ (⟨r, p⟩ : RolePermission) ∈ db.rolePermissions := by
      rw [← contains_iff_mem, hp, contains_iff_mem]
    simp [hiff]
  · simp [hid]

/-- A role goes with its permissions and bindings: those of other roles stay, and this one was bound
in `P` only or granted nothing. -/
theorem deleteRole_contained
    (hok : confined P db (.deleteRole id)) : IamContained P db (deleteRole db u id).1 := by
  refine settle_induction (.refl hk) fun db₁ _ h => ?_
  replace h := of_ensure h
  cases of_ensure_pure h
  set gone : Id → Bool := fun i => (db.roles.get i).any fun r => r.id == id && !r.builtin
  have hgone : ∀ i, i ≠ id → gone i = false := by
    intro i hne
    rw [Bool.eq_false_iff]
    intro hany
    obtain ⟨r, -, hid, hr⟩ := IdTable.get_any.mp hany
    exact hne (hid.symm.trans (eq_of_beq (Bool.and_eq_true_iff.mp hr).1))
  refine ⟨fun user groups project hproject => ?_, ⟨fun r hr => ?_, fun r hr => ?_⟩⟩
  · refine effectivePermissions_congr fun role p => ?_
    by_cases hid : role = id
    · -- before and after, nobody holds a permission through this role outside `P`
      subst hid
      have hbefore : ¬ ((⟨role, p⟩ : RolePermission) ∈ db.rolePermissions ∧
          db.roleBound user groups project role) := by
        rintro ⟨hmem, hbound⟩
        rcases Bool.or_eq_true_iff.mp hok with honly | hnone
        · exact boundOnlyIn_not_bound honly hproject hbound
        · have := all_eq_true.mp hnone _ hmem
          simp at this
      refine iff_of_false (fun hafter => hbefore ⟨(mem_deleteWhere.mp hafter.1).1, ?_⟩) hbefore
      have hbound := hafter.2
      rw [roleBound_iff hproject] at hbound ⊢
      exact hbound.imp
        (fun ⟨r, hr, hrest⟩ => ⟨r, (mem_deleteWhere.mp hr).1, hrest⟩)
        fun ⟨r, hr, hrest⟩ => ⟨r, (mem_deleteWhere.mp hr).1, hrest⟩
    · have hkeep := hgone role hid
      refine and_congr ⟨fun hm => (mem_deleteWhere.mp hm).1,
        fun hm => mem_deleteWhere.mpr ⟨hm, hkeep⟩⟩ (roleBound_congr hproject ?_ ?_)
      · rintro r rfl -
        exact ⟨fun hm => (mem_deleteWhere.mp hm).1,
          fun hm => mem_deleteWhere.mpr ⟨hm, hkeep⟩⟩
      · rintro r rfl -
        exact ⟨fun hm => (mem_deleteWhere.mp hm).1,
          fun hm => mem_deleteWhere.mpr ⟨hm, hkeep⟩⟩
  · exact hk.direct r (mem_deleteWhere.mp hr).1
  · exact hk.groups r (mem_deleteWhere.mp hr).1

theorem perform_contained {w : Write} (hiam : w.isIam)
    (hok : confined P db w) : IamContained P db (w.perform cfg (.project P) u db) := by
  cases w with
  | setUserRoles => exact setUserRoles_contained hk _ _
  | createRole => exact createRole_contained hk _
  | updateRole id body => exact updateRole_contained hk hok
  | deleteRole id => exact deleteRole_contained hk hok
  | addGroupRole => exact addGroupRole_contained hk _ _
  | removeGroupRole => exact removeGroupRole_contained hk _ _
  | _ => cases hiam

end

end

/-! ## In every run -/

/-- **IAM containment.**  After any IAM requests of callers bound in `P` only, as long as what roles
bound outside `P` grant is left alone, everyone has the permissions they had in every other scope.
-/
theorem iam_contained {cfg : Config} {P : Id} {callers : Claims → Prop} {db₀ db : Db}
    (hauth : cfg.authenticator) (htenants : Tenants cfg P callers db₀)
    (hroles : db₀.RolesKeyed) (h : Runs.Reach (serving cfg)
      (fun db r => callers r.claims ∧ r.write.isIam = true ∧ confined P db r.write = true)
      (fun db => db = db₀) db) : db₀.PermissionsAgree P db := by
  have hstart : ∀ d, d = db₀ → Tenants cfg P callers d ∧ IamContained P db₀ d := by
    rintro d rfl
    exact ⟨htenants, .refl hroles⟩
  refine (Runs.Reach.invariant hstart ?_ h).2.agree
  rintro d d' r ⟨ht, hi⟩ ⟨hcaller, hiam, hok⟩ hs
  cases hs
  have hb := ht.bound _ hcaller
  obtain ⟨t, hlogin, -, -⟩ := login_users d hb.notBootstrap
  refine ⟨ht.serve hauth hcaller, ?_⟩
  rcases serve_performs hauth ht.keyed hb with heq | ⟨u, heq⟩
  · rw [heq, hlogin]
    exact ⟨hi.agree, ⟨hi.keyed.direct, hi.keyed.groups⟩⟩
  rw [heq, hlogin]
  have hok' : confined P { d with users := t } r.write = true := by
    rw [← hok]
    cases r.write <;> rfl
  have hkeyed : Db.RolesKeyed { d with users := t } := ⟨hi.keyed.direct, hi.keyed.groups⟩
  have hd : IamContained P _ (r.write.perform cfg (.project P) u _) :=
    perform_contained hkeyed hiam hok'
  exact ⟨fun user groups project hp =>
    (hd.agree user groups project hp).trans (hi.agree user groups project hp), hd.keyed⟩

theorem sampleDb_rolesKeyed : sampleDb.RolesKeyed :=
  ⟨by decide, fun _ hr => nomatch hr⟩

/-- A role is made and bound to a user of the other project, in the caller's own. -/
def grantRun : List Request :=
  [⟨alice, .id 2, .createRole ⟨"viewer", none, [.ok .vmRead]⟩⟩,
    ⟨alice, .id 2, .setUserRoles 1 [1]⟩]

theorem iam_contained_grant :
    (Runs.final (serving sampleCfg) sampleDb grantRun).effectivePermissions 1 [] (some 2) =
      [.vmRead] ∧
    sampleDb.PermissionsAgree 2 (Runs.final (serving sampleCfg) sampleDb grantRun) := by
  refine ⟨by decide, iam_contained rfl (sample_tenants rfl rfl rfl) sampleDb_rolesKeyed
    (Runs.Reach.final (fun db r hok => ?_) rfl
      (by decide : Runs.execOk (serving sampleCfg) (fun db r => r.claims == alice &&
        (r.write.isIam && confined 2 db r.write)) _ _ = true) (by decide))⟩
  obtain ⟨hclaims, hrest⟩ := Bool.and_eq_true_iff.mp hok
  exact ⟨eq_of_beq hclaims, Bool.and_eq_true_iff.mp hrest⟩

/-- One request: the caller takes every permission out of a role. -/
def emptyRoleRun : List Request := [⟨alice, .id 2, .updateRole 0 ⟨none, []⟩⟩]

/-- **`update_role` reaches every scope.**  The caller is bound in project 2 only and empties the role
through which the user of project 3 holds their permissions there. -/
theorem role_emptied_across : sampleCfg.tenancyEnabled ∧ sampleCfg.authenticator ∧
    Tenants sampleCfg 2 (fun c => c = alice) sampleDb ∧ sampleDb.RolesKeyed ∧
    ∃ db, Runs.Reach (serving sampleCfg) (fun _ r => r.claims = alice ∧ r.write.isIam = true)
      (fun db => db = sampleDb) db ∧ ¬ sampleDb.PermissionsAgree 2 db := by
  refine ⟨rfl, rfl, sample_tenants rfl rfl rfl, sampleDb_rolesKeyed,
    Runs.final (serving sampleCfg) sampleDb emptyRoleRun, ?_, ?_⟩
  · refine Runs.Reach.final (fun _ r hok => ?_) rfl
      (by decide : Runs.execOk (serving sampleCfg)
        (fun _ r => r.claims == alice && r.write.isIam) _ _ = true) (by decide)
    obtain ⟨hclaims, hiam⟩ := Bool.and_eq_true_iff.mp hok
    exact ⟨eq_of_beq hclaims, hiam⟩
  · intro h
    have hbob := h 1 [] (some 3) (by decide)
    revert hbob
    decide

end VQuasar.Tenancy
