import VQuasar.Tenancy.Effects
import VQuasar.Lib.Runs

/-!
# Callers of one project

A caller whose bindings all name project `P` (`BoundTo`) has no permission in any other scope
(`effectivePermissions_eq_nil`).  So whatever project their request names, it is answered by a
login and statements in the scope of `P` (`serve_steps`), and they stay bound to `P`, because a
binding is only ever made in the scope of the request (`Tenants.serve`).
-/

namespace VQuasar.Tenancy

open List

/-- Every binding of the caller, direct or through a group, names project `P`. -/
structure BoundTo (cfg : Config) (P : Id) (db : Db) (c : Claims) : Prop where
  /-- logging in would bind the first administrator platform-wide -/
  notBootstrap : cfg.isBootstrapAdmin c = false
  direct : ∀ u ∈ db.users, u.subject = c.subject → ∀ r ∈ db.userRoles, r.user = u.id →
    r.project = some P
  groups : ∀ r ∈ db.groupRoles, r.group ∈ c.groups → r.project = some P

/-- Bindings name users there are (a foreign key of `user_roles`). -/
def Db.UsersKeyed (db : Db) : Prop := ∀ r ∈ db.userRoles, r.user < db.users.next

section

variable {cfg : Config} {P : Id} {db d d' : Db} {c : Claims}
  {project : Option Id} {r : Request} {u : AuthUser} {w : Write}

/-! ## No permission elsewhere -/

theorem bindingCounts_eq_false (h : project ≠ some P) :
    Db.bindingCounts (some P) project = false := by
  cases project with
  | none => rfl
  | some q =>
    have hne : (some P : Option Id) ≠ some q := fun hpq => h hpq.symm
    simpa [Db.bindingCounts] using hne

section

variable (hb : BoundTo cfg P db c) (hk : db.UsersKeyed)
include hb hk

theorem BoundTo.userIdOf : ∀ r ∈ db.userRoles, r.user = db.userIdOf c → r.project = some P := by
  intro r hr huser
  unfold Db.userIdOf at huser
  cases hfind : db.users.rows.find? fun u => u.subject == c.subject with
  | some u =>
    rw [hfind] at huser
    have hsub : u.subject = c.subject := by simpa using List.find?_some hfind
    exact hb.direct u (mem_of_find?_eq_some hfind) hsub r hr huser
  | none =>
    rw [hfind] at huser
    exact absurd huser (Nat.ne_of_lt (hk r hr))

theorem BoundTo.roleBound_eq_false (h : project ≠ some P) (role : Id) :
    db.roleBound (db.userIdOf c) c.groups project role = false := by
  have huser : (db.userRoles.any fun r => r.user == db.userIdOf c &&
      Db.bindingCounts r.project project && r.role == role) = false := by
    rw [any_eq_false]
    intro r hr
    by_cases hid : r.user = db.userIdOf c
    · rw [hb.userIdOf hk r hr hid, bindingCounts_eq_false h]
      simp
    · simp [hid]
  have hgroup : (db.groupRoles.any fun r => c.groups.contains r.group &&
      Db.bindingCounts r.project project && r.role == role) = false := by
    rw [any_eq_false]
    intro r hr
    by_cases hmem : r.group ∈ c.groups
    · rw [hb.groups r hr hmem, bindingCounts_eq_false h]
      simp
    · simp [hmem]
  simp only [Db.roleBound, huser, hgroup, Bool.or_self]

/-- **No permission elsewhere.**  A caller bound to `P` holds no permission in any other scope, the
platform's included. -/
theorem effectivePermissions_eq_nil
    (h : project ≠ some P) : db.effectivePermissions (db.userIdOf c) c.groups project = [] := by
  unfold Db.effectivePermissions
  rw [filter_eq_nil_iff]
  intro p _
  simp [hb.roleBound_eq_false hk h]

end

/-! ## Logging in -/

theorem login_users (db : Db) (h : cfg.isBootstrapAdmin c = false) :
    ∃ t, login cfg db c = { db with users := t } ∧ db.users.next ≤ t.next ∧
      ∀ u ∈ t, (∃ u₀ ∈ db.users, u₀.id = u.id ∧ u₀.subject = u.subject) ∨ u.id = db.users.next := by
  simp only [login, h, Db.upsertUser, Bool.false_eq_true, if_false]
  split
  · refine ⟨_, rfl, le_rfl, fun u hu => Or.inl ?_⟩
    obtain ⟨u₀, h₀, rfl⟩ := IdTable.mem_update.mp hu
    refine ⟨u₀, h₀, ?_⟩
    split <;> exact ⟨rfl, rfl⟩
  · refine ⟨_, rfl, Nat.le_succ _, fun u hu => ?_⟩
    rcases IdTable.mem_insert.mp hu with hold | rfl
    · exact Or.inl ⟨u, hold, rfl, rfl⟩
    · exact Or.inr rfl

theorem BoundTo.login {c' : Claims} (hb : BoundTo cfg P db c) (hk : db.UsersKeyed)
    (h : cfg.isBootstrapAdmin c' = false) : BoundTo cfg P (login cfg db c') c := by
  obtain ⟨t, ht, -, hu⟩ := login_users db h
  rw [ht]
  refine ⟨hb.notBootstrap, ?_, hb.groups⟩
  intro u hmem hsub r hr huser
  rcases hu u hmem with ⟨u₀, h₀, hid, hsub₀⟩ | hnew
  · exact hb.direct u₀ h₀ (hsub₀.trans hsub) r hr (huser.trans hid.symm)
  · exact absurd (huser.trans hnew) (Nat.ne_of_lt (hk r hr))

theorem Db.UsersKeyed.login (hk : db.UsersKeyed) (h : cfg.isBootstrapAdmin c = false) :
    (login cfg db c).UsersKeyed := by
  obtain ⟨t, ht, hnext, -⟩ := login_users db h
  rw [ht]
  exact fun r hr => lt_of_lt_of_le (hk r hr) hnext

/-! ## Requests -/

structure Request where
  claims : Claims
  ref : ProjectRef
  write : Write

def serve (cfg : Config) (db : Db) (r : Request) : Db :=
  handle cfg db (some r.claims) r.ref r.write

def serving (cfg : Config) (db : Db) (r : Request) : Option Db := some (serve cfg db r)

section

variable (hauth : cfg.authenticator) (hk : db.UsersKeyed) (hb : BoundTo cfg P db r.claims)
include hauth hk hb

/-- A request of a bound caller is refused after the login, or runs its handler in the scope of
`P`, whatever scope it names. -/
theorem serve_performs : serve cfg db r = login cfg db r.claims ∨
      ∃ u, serve cfg db r = r.write.perform cfg (.project P) u (login cfg db r.claims) := by
  set db₁ := login cfg db r.claims with hdb₁
  simp only [serve, handle, authenticate, hauth, Bool.not_true, Bool.false_eq_true, if_false,
    ← hdb₁]
  cases hscope : resolveScope cfg db₁ r.ref with
  | error e => exact Or.inl rfl
  | ok s =>
  simp only [bind, Except.bind, pure, Except.pure]
  by_cases hs : s = .project P
  · subst hs
    exact Or.inr ⟨_, rfl⟩
  -- in any other scope the caller has no permission, and the handler refuses
  have hfilter : s.projectFilter ≠ some P := by
    cases s with
    | platform => exact fun h => nomatch h
    | project q =>
      intro h
      cases h
      exact hs rfl
  have hperms : db₁.effectivePermissions (db.userIdOf r.claims) r.claims.groups
      s.projectFilter = [] := by
    obtain ⟨t, ht, -, -⟩ := login_users db hb.notBootstrap
    rw [hdb₁, ht]
    exact effectivePermissions_eq_nil hb hk hfilter
  exact Or.inl (perform_denied ⟨rfl, hperms⟩ r.write)

/-- **A bound caller acts in their project.**  Whatever scope the request names, it is a login and
statements in the scope of `P`. -/
theorem serve_steps :
    ∃ u, Steps cfg (.project P) u r.write (login cfg db r.claims) (login cfg db r.claims)
      (serve cfg db r) := by
  rcases serve_performs hauth hk hb with heq | ⟨u, heq⟩
  · rw [heq]
    exact ⟨⟨none, [], [], false⟩, .refl _⟩
  · rw [heq]
    exact ⟨u, perform_steps _ _ _ _ _⟩

end

/-! ## Bindings stay in the project -/

/-- Nothing but bindings in `P` of users there are has been added. -/
structure BindsIn (P : Id) (db d : Db) : Prop where
  users : d.users = db.users
  direct : ∀ r ∈ d.userRoles, r ∈ db.userRoles ∨
    (r.project = some P ∧ ∃ u ∈ db.users, r.user = u.id)
  groups : ∀ r ∈ d.groupRoles, r ∈ db.groupRoles ∨ r.project = some P

theorem BindsIn.refl (P : Id) (db : Db) : BindsIn P db db :=
  ⟨rfl, fun _ => Or.inl, fun _ => Or.inl⟩

theorem BindsIn.of_subset (h : BindsIn P db d) (husers : d'.users = d.users)
    (hdirect : ∀ r ∈ d'.userRoles, r ∈ d.userRoles)
    (hgroups : ∀ r ∈ d'.groupRoles, r ∈ d.groupRoles) : BindsIn P db d' :=
  ⟨husers.trans h.users, fun r hr => h.direct r (hdirect r hr),
    fun r hr => h.groups r (hgroups r hr)⟩

theorem BindsIn.step (h : BindsIn P db d)
    (hs : Step cfg (.project P) u w db d d') : BindsIn P db d' := by
  cases hs with
  | setUserRoles huser hnew hold =>
    refine ⟨h.users, fun r hr => ?_, h.groups⟩
    rcases hnew r hr with hmem | ⟨hid, hproject, -⟩
    · exact h.direct r hmem
    · exact Or.inr ⟨hproject, _, huser, hid⟩
  | addGroupRole hrole =>
    refine ⟨h.users, h.direct, fun r hr => ?_⟩
    rcases Db.mem_insertNew.mp hr with hmem | rfl
    · exact h.groups r hmem
    · exact Or.inr rfl
  | removeGroupRole =>
    exact h.of_subset rfl (fun _ => id) fun _ hr => (Table.mem_deleteWhere.mp hr).1
  | deleteRole | deleteProject =>
    exact h.of_subset rfl (fun _ hr => (Table.mem_deleteWhere.mp hr).1)
      fun _ hr => (Table.mem_deleteWhere.mp hr).1
  | _ => exact ⟨h.users, h.direct, h.groups⟩

theorem BindsIn.steps (hs : Steps cfg (.project P) u w db db d) : BindsIn P db d := by
  induction hs with
  | refl => exact .refl P db
  | tail _ hstep ih => exact ih.step hstep

theorem BoundTo.bindsIn (hb : BoundTo cfg P db c) (h : BindsIn P db d) : BoundTo cfg P d c := by
  refine ⟨hb.notBootstrap, ?_, ?_⟩
  · intro u hu hsub r hr huser
    rw [h.users] at hu
    rcases h.direct r hr with hmem | ⟨hproject, -⟩
    · exact hb.direct u hu hsub r hmem huser
    · exact hproject
  · intro r hr hmem
    rcases h.groups r hr with hold | hproject
    · exact hb.groups r hold hmem
    · exact hproject

theorem Db.UsersKeyed.bindsIn (hk : db.UsersKeyed) (h : BindsIn P db d) : d.UsersKeyed := by
  intro r hr
  rw [h.users]
  rcases h.direct r hr with hmem | ⟨-, u, hu, huser⟩
  · exact hk r hmem
  · rw [huser]
    exact IdTable.id_lt hu

/-- Callers who are all bound to `P`, in a database whose bindings are keyed. -/
structure Tenants (cfg : Config) (P : Id) (callers : Claims → Prop) (db : Db) : Prop where
  keyed : db.UsersKeyed
  bound : ∀ c, callers c → BoundTo cfg P db c

/-- **Bound callers stay bound.**  No request of theirs gives any of them a binding elsewhere. -/
theorem Tenants.serve {callers : Claims → Prop} (hauth : cfg.authenticator)
    (h : Tenants cfg P callers db) (hr : callers r.claims) :
    Tenants cfg P callers (serve cfg db r) := by
  have hb := h.bound r.claims hr
  obtain ⟨u, hsteps⟩ := serve_steps hauth h.keyed hb
  have hin := BindsIn.steps hsteps
  refine ⟨(h.keyed.login hb.notBootstrap).bindsIn hin, fun c hc => ?_⟩
  exact ((h.bound c hc).login h.keyed hb.notBootstrap).bindsIn hin

end

end VQuasar.Tenancy
