import VQuasar.Lib.Slots
import VQuasar.Segments.Allocator
import VQuasar.Tenancy.System

/-!
# Segments and the networks that have them

`create` and `delete` of `api/networks.rs`, one committed transaction at a time.  Requests interleave,
and a request may end between two of its transactions: the instance goes down, or the next statement
fails (`NetEvent.cut`).  A request alone does what its handler does (`create_alone`, `delete_alone`).

The allocation of a VNI commits before the network is inserted, and the delete of a network before its
segment is released.  In between, the table of segments has a row that no network goes with: the
request owes it (`NetRequest.owes`), and if it ends there, nobody ever pays (`corresponds_iff`).
-/

namespace VQuasar.Segments

open Tenancy Runs Table List Option Slots IdTable

/-! ## Requests -/

/-- A request with what it has read; the constructor says which transaction comes next. -/
inductive NetRequest
  -- create
  | create (s : Scope) (u : AuthUser) (body : CreateNetwork)
  | insert (s : Scope) (body : CreateNetwork) (kind : NetworkKind) (key : SegmentKey)
      (vni : Option Nat)
  | defaultGroup (id : Id) (name : String) (kind : NetworkKind) (vni : Option Nat)
  | setDefaultGroup (id group : Id) (vni : Option Nat)
  | bind (vni : Nat) (id : Id)
  -- delete
  | delete (s : Scope) (u : AuthUser) (id : Id)
  | deleteRow (s : Scope) (id : Id) (segment : Option SegmentKey)
  | release (key : SegmentKey)

/-- The transactions a request starts with.  Ids are not guessed: a request that names a network names
one there is or has been. -/
def NetRequest.fresh (db : Db) : NetRequest → Bool
  | .create .. => true
  | .delete _ _ id => decide (id < db.networks.next)
  | _ => false

/-- The next transaction of a request; no request is left once it is done or refused. -/
def NetRequest.call (cfg : Config) (db : Db) : NetRequest → Db × Option NetRequest
  | .create s u body =>
    match networkChecks cfg u body with
    | .error _ => (db, none)
    | .ok kind =>
      match db.networkSegment cfg kind body with
      | .error _ => (db, none)
      | .ok (key, vni, db) => (db, some (.insert s body kind key vni))
  | .insert s body kind key vni =>
    match db.insertNetwork body.name kind (if kind.isPhysical then some body.uplink else none)
      (some key) body.vlan vni body.ipam (if kind = .tenant then s.shareableOwner else none) with
    | .error _ => (db, none)
    | .ok db' => (db', some (.defaultGroup db.networks.next body.name kind vni))
  | .defaultGroup id name kind vni =>
    (db.insertDefaultGroup name (kind == .tenant),
      some (.setDefaultGroup id db.securityGroups.next vni))
  | .setDefaultGroup id group vni =>
    (db.setNetworkDefaultGroup id group, vni.map fun vni => .bind vni id)
  | .bind vni id => (db.bindSegment vni id, none)
  | .delete s u id =>
    match u.require .networkDelete with
    | .error _ => (db, none)
    | .ok () => (db, some (.deleteRow s id ((db.networks.get id).bind Network.segmentKey)))
  | .deleteRow s id segment =>
    if db.networkWritable s id then
      (db.deleteNetworks fun n => n.id == id && s.ownsShareable n.project, segment.map .release)
    else (db, none)
  | .release key => (db.quarantine (some key), none)

structure NetState where
  db : Db
  requests : Slots NetRequest

inductive NetEvent
  | begin (r : NetRequest)
  | call (i : Nat)
  /-- the request in a slot ends before its next transaction -/
  | cut (i : Nat)

def netStep (cfg : Config) (s : NetState) : NetEvent → Option NetState
  | .begin r => if r.fresh s.db then some { s with requests := s.requests.add r } else none
  | .call i =>
    (s.requests.get i).map fun r =>
      { db := (r.call cfg s.db).1, requests := s.requests.put i (r.call cfg s.db).2 }
  | .cut i => (s.requests.get i).map fun _ => { s with requests := s.requests.put i none }

variable (db : Db) (s : NetState)

/-- A segment is allocated exactly if one network has it, and that network has its VNI. -/
def Corresponds : Prop :=
  ∀ r ∈ db.segments,
    (r.state = .allocated ↔
      ∃ n ∈ db.networks, n.segmentKey = some (.vxlan r.value) ∧
        ∀ m ∈ db.networks, m.segmentKey = some (.vxlan r.value) → m = n) ∧
    ∀ n ∈ db.networks, n.segmentKey = some (.vxlan r.value) → n.vni = some r.value

/-- The VNI whose row a request has still to bring in line: its network is not yet inserted, or its
segment not yet released. -/
def NetRequest.owes : NetRequest → Option Nat
  | .insert _ _ _ (.vxlan vni) _ => some vni
  | .release (.vxlan vni) => some vni
  | _ => none

open NetRequest

/-- No request is cut short while it owes a segment. -/
def careful : NetEvent → Bool
  | .cut i => ((s.requests.get i).bind owes).isNone
  | _ => true

/-! ## A request alone -/

def netFinish (cfg : Config) : Nat → Db → Option NetRequest → Db
  | 0, db, _ => db
  | _, db, none => db
  | n + 1, db, some r => netFinish cfg n (r.call cfg db).1 (r.call cfg db).2

section

variable {cfg : Config} {db : Db} {s : Scope} {u : AuthUser}

theorem netFinish_none (n : Nat) : netFinish cfg n db none = db := by
  cases n <;> rfl

theorem create_alone (body : CreateNetwork) :
    netFinish cfg 5 db (some (.create s u body)) = (createNetwork cfg db s u body).1 := by
  simp only [netFinish, call, createNetwork, attempt]
  cases networkChecks cfg u body with
  | error e => exact netFinish_none 4
  | ok kind =>
  simp only
  cases db.networkSegment cfg kind body with
  | error e => exact netFinish_none 4
  | ok r =>
  obtain ⟨key, vni, db₁⟩ := r
  simp only [netFinish, call]
  cases db₁.insertNetwork body.name kind (if kind.isPhysical then some body.uplink else none)
    (some key) body.vlan vni body.ipam (if kind = .tenant then s.shareableOwner else none) with
  | error e => exact netFinish_none 3
  | ok db₂ =>
    cases vni with
    | none | some => rfl

theorem delete_alone (id : Id) :
    netFinish cfg 3 db (some (.delete s u id)) = (deleteNetwork db s u id).1 := by
  simp only [netFinish, call, deleteNetwork]
  cases u.require .networkDelete with
  | error e => exact netFinish_none 2
  | ok _ =>
  simp only [netFinish, call]
  cases hw : db.networkWritable s id with
  | false => exact netFinish_none 1
  | true =>
    cases (db.networks.get id).bind Network.segmentKey with
    | none => exact netFinish_none 1
    | some key => rfl

end

/-! ## What a request relies on -/

def HasRow (vni : Nat) : Prop := ∃ r ∈ db.segments, r.value = vni ∧ r.state = .allocated

def Unnamed (vni : Nat) : Prop :=
  ∀ n ∈ db.networks, n.segmentKey ≠ some (.vxlan vni)

def Sound : NetRequest → Prop
  | .insert _ _ _ key vni => ∀ v, key = .vxlan v → vni = some v ∧ HasRow db v ∧ Unnamed db v
  | .delete _ _ id => id < db.networks.next
  | .deleteRow _ id segment =>
    id < db.networks.next ∧ ∀ n ∈ db.networks, n.id = id → n.segmentKey = segment
  | .release key => ∀ v, key = .vxlan v → HasRow db v ∧ Unnamed db v
  | _ => True

/-- What the tables satisfy at every point. -/
structure Tables (db : Db) : Prop where
  nodup : (db.segments.map Segment.value).Nodup
  vni : ∀ n ∈ db.networks, ∀ v, n.segmentKey = some (.vxlan v) → n.vni = some v
  row : ∀ n ∈ db.networks, ∀ v, n.segmentKey = some (.vxlan v) → HasRow db v
  unique : ∀ m ∈ db.networks, ∀ n ∈ db.networks, ∀ v,
    m.segmentKey = some (.vxlan v) → n.segmentKey = some (.vxlan v) → m = n

/-- Two requests do not owe the same segment. -/
def Distinct (a b : NetRequest) : Prop := ∀ v, a.owes = some v → b.owes ≠ some v

theorem Distinct.symm {a b : NetRequest} (h : Distinct a b) : Distinct b a :=
  fun v hb ha => h v ha hb

/-- What holds at every point of every run. -/
structure Base (s : NetState) : Prop where
  tables : Tables s.db
  sound : Slots.All (Sound s.db) s.requests
  apart : Slots.Apart Distinct s.requests

def Debt (vni : Nat) : Prop := HasRow db vni ∧ Unnamed db vni

/-- Every debt is owed by a request. -/
def Covered : Prop :=
  ∀ v, Debt s.db v → ∃ i r, s.requests.get i = some r ∧ r.owes = some v

def Leaked : Prop :=
  ∃ v, Debt s.db v ∧ ∀ i r, s.requests.get i = some r → r.owes ≠ some v

theorem Sound.debt {db : Db} {r : NetRequest} {v : Nat} (h : Sound db r) (ho : r.owes = some v) :
    Debt db v := by
  cases r with
  | insert s body kind key vni =>
    cases key with
    | physical => cases ho
    | vxlan w =>
      obtain rfl := some.inj ho
      exact (h w rfl).2
  | release key =>
    cases key with
    | physical => cases ho
    | vxlan w =>
      obtain rfl := some.inj ho
      exact h w rfl
  | _ => cases ho

/-! ## What a transaction does -/

/-- The effect of a transaction on segments and on the networks that have them, with the request that
is left. -/
inductive Effect (db : Db) (r : NetRequest) : Db × Option NetRequest → Prop
  /-- nothing that matters here -/
  | other (db' : Db) (o : Option NetRequest) (hrow : ∀ v, HasRow db' v ↔ HasRow db v)
      (hvalues : db'.segments.map Segment.value = db.segments.map Segment.value)
      (hnext : db'.networks.next = db.networks.next)
      (hnets : ∀ n' ∈ db'.networks, ∃ n ∈ db.networks, n'.id = n.id ∧
        n'.segmentKey = n.segmentKey ∧ n'.vni = n.vni)
      (hkept : ∀ n ∈ db.networks, ∃ n' ∈ db'.networks, n'.segmentKey = n.segmentKey)
      (hr : r.owes = none) (ho : ∀ b, o = some b → b.owes = none ∧ Sound db' b) :
      Effect db r (db', o)
  | allocate (v : Nat) (b : NetRequest) (db' : Db) (hnew : v ∉ db.segments.map Segment.value)
      (hseg : db'.segments = db.segments ++ [⟨v, .allocated, none⟩])
      (hnet : db'.networks = db.networks) (hr : r.owes = none) (hb : b.owes = some v)
      (hsound : HasRow db' v → Unnamed db' v → Sound db' b) : Effect db r (db', some b)
  | insert (n : Network) (b : NetRequest) (db' : Db) (hseg : db'.segments = db.segments)
      (hid : n.id = db.networks.next) (hnext : db'.networks.next = db.networks.next + 1)
      (hmem : ∀ m, m ∈ db'.networks ↔ m ∈ db.networks ∨ m = n)
      (hkey : ∀ v, n.segmentKey = some (.vxlan v) ↔ r.owes = some v)
      (hvni : ∀ v, n.segmentKey = some (.vxlan v) → n.vni = some v)
      (hb : b.owes = none ∧ Sound db' b) : Effect db r (db', some b)
  | delete (id : Id) (segment : Option SegmentKey) (db' : Db)
      (hrow : ∀ v, HasRow db' v ↔ HasRow db v)
      (hvalues : db'.segments.map Segment.value = db.segments.map Segment.value)
      (hnext : db'.networks.next = db.networks.next)
      (hmem : ∀ m, m ∈ db'.networks ↔ m ∈ db.networks ∧ m.id ≠ id)
      (hhad : ∃ n ∈ db.networks, n.id = id ∧ n.segmentKey = segment) (hr : r.owes = none) :
      Effect db r (db', segment.map .release)
  | release (v : Nat) (db' : Db) (hr : r.owes = some v)
      (hrow : ∀ w, HasRow db' w ↔ HasRow db w ∧ w ≠ v)
      (hvalues : db'.segments.map Segment.value = db.segments.map Segment.value)
      (hnet : db'.networks = db.networks) : Effect db r (db', none)

section

variable {cfg : Config} {db db' : Db} {r : NetRequest} {id : Id}

theorem Effect.same (hr : r.owes = none) {o : Option NetRequest}
    (ho : ∀ b, o = some b → b.owes = none ∧ Sound db b) : Effect db r (db, o) :=
  .other db o (fun _ => Iff.rfl) rfl rfl (fun n hn => ⟨n, hn, rfl, rfl, rfl⟩)
    (fun n hn => ⟨n, hn, rfl⟩) hr ho

theorem Effect.done (hr : r.owes = none) : Effect db r (db, none) := by
  refine .same hr ?_
  intro b hb
  cases hb

theorem hasRow_updateWhere {p : Segment → Bool} {f : Segment → Segment}
    (hseg : db'.segments = updateWhere p f db.segments) (hvalue : ∀ r, (f r).value = r.value)
    (hstate : ∀ r, (f r).state = r.state) (v : Nat) : HasRow db' v ↔ HasRow db v := by
  have hf : ∀ r : Segment, (if p r = true then f r else r).value = r.value ∧
      (if p r = true then f r else r).state = r.state := by
    intro r
    split
    · exact ⟨hvalue r, hstate r⟩
    · exact ⟨rfl, rfl⟩
  unfold HasRow
  rw [hseg]
  constructor
  · rintro ⟨r', hr', hv, hst⟩
    obtain ⟨r, hr, rfl⟩ := mem_updateWhere.mp hr'
    exact ⟨r, hr, (hf r).1.symm.trans hv, (hf r).2.symm.trans hst⟩
  · rintro ⟨r, hr, hv, hst⟩
    exact ⟨_, mem_updateWhere.mpr ⟨r, hr, rfl⟩, (hf r).1.trans hv, (hf r).2.trans hst⟩

theorem effect_create (s : Scope) (u : AuthUser) (body : CreateNetwork) :
    Effect db (.create s u body) ((create s u body).call cfg db) := by
  rw [call]
  cases networkChecks cfg u body with
  | error e => exact Effect.done rfl
  | ok kind =>
  have hphysical : Effect db (.create s u body)
      (db, some (.insert s body kind (.physical body.uplink (body.vlan.map asU16)) none)) := by
    refine Effect.same rfl ?_
    intro b hb
    cases hb
    refine ⟨rfl, ?_⟩
    intro v hv
    cases hv
  cases kind with
  | provider | vlan => exact hphysical
  | tenant =>
  simp only [Db.networkSegment, Db.allocateVxlan]
  by_cases hend : lowestFree (db.segments.map Segment.value) cfg.vniStart > cfg.vniEnd
  · rw [lowestFree] at hend
    rw [if_pos hend]
    exact Effect.done rfl
  · rw [lowestFree] at hend
    rw [if_neg hend]
    refine Effect.allocate (lowestFree (db.segments.map Segment.value) cfg.vniStart) _ _
      (lowestFree_not_mem _ _) rfl rfl rfl rfl ?_
    intro hrow hfree v hv
    cases hv
    exact ⟨rfl, hrow, hfree⟩

theorem effect_insert {s : Scope} {body : CreateNetwork} {kind : NetworkKind} {key : SegmentKey}
    {vni : Option Nat} (hs : Sound db (.insert s body kind key vni)) :
    Effect db (.insert s body kind key vni)
      ((insert s body kind key vni).call cfg db) := by
  rw [call]
  cases hins : db.insertNetwork body.name kind (if kind.isPhysical then some body.uplink else none)
    (some key) body.vlan vni body.ipam (if kind = .tenant then s.shareableOwner else none) with
  | error e =>
    -- only a segment that another network has is refused
    cases key with
    | physical uplink vlan => exact Effect.done rfl
    | vxlan v =>
    exfalso
    have htaken : db.segmentTaken (some (.vxlan v)) = false := by
      refine any_eq_false.mpr fun n hn => ?_
      simp only [isSome_some, Bool.true_and, beq_iff_eq]
      exact (hs v rfl).2.2 n hn
    simp only [Db.insertNetwork, htaken, Bool.not_false] at hins
    cases hins
  | ok db' =>
    cases Db.insertNetwork_ok hins
    refine Effect.insert _ _ _ rfl rfl rfl (fun m => mem_insert) ?_ ?_ ⟨rfl, trivial⟩
    · intro v
      cases key with
      | physical | vxlan => simp [owes]
    · intro v hv
      exact (hs v (some.inj hv)).1

theorem effect_setDefaultGroup (id group : Id) (vni : Option Nat) :
    Effect db (.setDefaultGroup id group vni)
      ((setDefaultGroup id group vni).call cfg db) := by
  rw [call]
  refine Effect.other _ _ (fun _ => Iff.rfl) rfl rfl ?_ ?_ rfl ?_
  · intro n' hn'
    obtain ⟨n, hn, rfl⟩ := mem_updateWhere.mp hn'
    refine ⟨n, hn, ?_⟩
    split <;> exact ⟨rfl, rfl, rfl⟩
  · intro n hn
    refine ⟨_, mem_updateWhere.mpr ⟨n, hn, rfl⟩, ?_⟩
    split <;> rfl
  · intro b hb
    obtain ⟨v, -, rfl⟩ := map_eq_some_iff.mp hb
    exact ⟨rfl, trivial⟩

theorem effect_bind (vni : Nat) (id : Id) :
    Effect db (.bind vni id) ((bind vni id).call cfg db) := by
  rw [call]
  refine Effect.other _ _ (hasRow_updateWhere rfl (fun _ => rfl) fun _ => rfl)
    (map_updateWhere fun _ => rfl) rfl (fun n hn => ⟨n, hn, rfl, rfl, rfl⟩)
    (fun n hn => ⟨n, hn, rfl⟩) rfl ?_
  intro b hb
  cases hb

theorem effect_delete {s : Scope} {u : AuthUser} (hs : Sound db (.delete s u id)) :
    Effect db (.delete s u id) ((delete s u id).call cfg db) := by
  rw [call]
  cases u.require .networkDelete with
  | error e => exact Effect.done rfl
  | ok _ =>
  refine Effect.same rfl ?_
  intro b hb
  cases hb
  refine ⟨rfl, hs, ?_⟩
  intro n hn hid
  rw [get_eq_some.mpr ⟨hn, hid⟩]
  rfl

theorem effect_deleteRow {s : Scope} {segment : Option SegmentKey}
    (hs : Sound db (.deleteRow s id segment)) :
    Effect db (.deleteRow s id segment) ((deleteRow s id segment).call cfg db) := by
  rw [call]
  by_cases hw : db.networkWritable s id
  · rw [if_pos hw]
    obtain ⟨n, hn, hid, hown⟩ := Db.networkWritable_iff.mp hw
    refine Effect.delete id segment _ (hasRow_updateWhere rfl (fun _ => rfl) fun _ => rfl)
      (map_updateWhere fun _ => rfl) rfl ?_ ⟨n, hn, hid, hs.2 n hn hid⟩ rfl
    intro m
    refine mem_delete.trans (and_congr_right fun hm => ?_)
    constructor
    · intro hkeep hmid
      -- the row with this id is the one that the scope owns
      have heq : m = n := eq_of_id hm hn (hmid.trans hid.symm)
      rw [heq, hid, hown] at hkeep
      simp at hkeep
    · intro hmid
      simp [hmid]
  · rw [if_neg hw]
    exact Effect.done rfl

theorem effect_release (key : SegmentKey) :
    Effect db (.release key) ((release key).call cfg db) := by
  rw [call]
  cases key with
  | physical uplink vlan => exact Effect.done rfl
  | vxlan v =>
  refine Effect.release v _ rfl ?_ (map_updateWhere fun _ => rfl) rfl
  intro w
  show (∃ r ∈ updateWhere (fun s => s.value == v)
    (fun s => { s with state := .quarantined, network := none }) db.segments, _) ↔ _
  constructor
  · rintro ⟨r', hr', hv, hst⟩
    obtain ⟨r, hr, rfl⟩ := mem_updateWhere.mp hr'
    by_cases hrv : r.value = v
    · simp [if_pos (by simpa using hrv)] at hst
    · rw [if_neg (by simpa using hrv)] at hv hst
      exact ⟨⟨r, hr, hv, hst⟩, fun hw => hrv (hv.trans hw)⟩
  · rintro ⟨⟨r, hr, hv, hst⟩, hw⟩
    refine ⟨r, mem_updateWhere.mpr ⟨r, hr, if_neg ?_⟩, hv, hst⟩
    simp only [beq_iff_eq]
    exact fun hrv => hw (hv.symm.trans hrv)

theorem call_effect (hs : Sound db r) : Effect db r (r.call cfg db) := by
  cases r with
  | create => exact effect_create _ _ _
  | insert s body kind key vni => exact effect_insert hs
  | defaultGroup id name kind vni =>
    refine Effect.other _ _ (fun _ => Iff.rfl) rfl rfl (fun n hn => ⟨n, hn, rfl, rfl, rfl⟩)
      (fun n hn => ⟨n, hn, rfl⟩) rfl ?_
    intro b hb
    cases hb
    exact ⟨rfl, trivial⟩
  | setDefaultGroup => exact effect_setDefaultGroup _ _ _
  | bind => exact effect_bind _ _
  | delete s u id => exact effect_delete hs
  | deleteRow s id segment => exact effect_deleteRow hs
  | release => exact effect_release _

end

/-! ## One step -/

section

variable {cfg : Config} {db db' : Db} {r : NetRequest} {o : Option NetRequest} {v : Nat}

theorem hasRow_append {w : Nat} (hseg : db'.segments = db.segments ++ [⟨v, .allocated, none⟩]) :
    HasRow db' w ↔ HasRow db w ∨ w = v := by
  unfold HasRow
  rw [hseg]
  simp only [mem_append, mem_singleton]
  constructor
  · rintro ⟨r, hr | rfl, hw, hst⟩
    · exact .inl ⟨r, hr, hw, hst⟩
    · exact .inr hw.symm
  · rintro (⟨r, hr, hw, hst⟩ | rfl)
    · exact ⟨r, .inl hr, hw, hst⟩
    · exact ⟨_, .inr rfl, rfl, rfl⟩

theorem hasRow_congr (hseg : db'.segments = db.segments) (v : Nat) : HasRow db' v ↔ HasRow db v := by
  unfold HasRow
  rw [hseg]

theorem unnamed_congr (hnet : db'.networks = db.networks) (v : Nat) :
    Unnamed db' v ↔ Unnamed db v := by
  unfold Unnamed
  rw [hnet]

theorem HasRow.mem (h : HasRow db v) : v ∈ db.segments.map Segment.value := by
  obtain ⟨r, hr, rfl, -⟩ := h
  exact mem_map_of_mem hr

section

variable (h : Effect db r (db', o))
include h

/-- A transaction takes a debt over from its request and leaves it to what is left of the request;
all others stay as they are. -/
theorem Effect.debt (v : Nat) :
    (Debt db' v ∧ ∀ b, o = some b → b.owes ≠ some v) ↔ (Debt db v ∧ r.owes ≠ some v) := by
  have hnone : (none : Option Nat) ≠ some v := (some_ne_none v).symm
  cases h with
  | other _ _ hrow hvalues hnext hnets hkept hr ho =>
    have hunnamed : Unnamed db' v ↔ Unnamed db v := by
      constructor
      · intro h n hn
        obtain ⟨n', hn', hkey⟩ := hkept n hn
        exact hkey ▸ h n' hn'
      · intro h n' hn'
        obtain ⟨n, hn, -, hkey, -⟩ := hnets n' hn'
        exact hkey ▸ h n hn
    have howes : ∀ b, o = some b → b.owes ≠ some v := by
      intro b hb
      rwa [(ho b hb).1]
    unfold Debt
    rw [hrow v, hunnamed, hr]
    exact and_congr_right fun _ => ⟨fun _ => hnone, fun _ => howes⟩
  | allocate w b _ hnew hseg hnet hr hb hsound =>
    unfold Debt
    rw [hasRow_append hseg, unnamed_congr hnet, hr]
    constructor
    · rintro ⟨⟨hrow | rfl, hun⟩, ho⟩
      · exact ⟨⟨hrow, hun⟩, hnone⟩
      · exact absurd hb (ho b rfl)
    · rintro ⟨⟨hrow, hun⟩, -⟩
      refine ⟨⟨.inl hrow, hun⟩, ?_⟩
      intro b' hb' howes
      cases hb'
      obtain rfl := mem_unique hb howes
      exact hnew hrow.mem
  | insert n b _ hseg hid hnext hmem hkey hvni hb =>
    unfold Debt
    rw [hasRow_congr hseg]
    constructor
    · rintro ⟨⟨hrow, hun⟩, -⟩
      refine ⟨⟨hrow, fun m hm => hun m ((hmem m).mpr (.inl hm))⟩, ?_⟩
      exact fun howes => hun n ((hmem n).mpr (.inr rfl)) ((hkey v).mpr howes)
    · rintro ⟨⟨hrow, hun⟩, howes⟩
      refine ⟨⟨hrow, ?_⟩, ?_⟩
      · intro m hm hmkey
        rcases (hmem m).mp hm with hold | rfl
        · exact hun m hold hmkey
        · exact howes ((hkey v).mp hmkey)
      · intro b' hb'
        cases hb'
        rwa [hb.1]
  | delete id segment _ hrow hvalues hnext hmem hhad hr =>
    obtain ⟨n, hn, hid, hseg⟩ := hhad
    unfold Debt
    rw [hrow v, hr]
    constructor
    · rintro ⟨⟨hv, hun⟩, ho⟩
      refine ⟨⟨hv, ?_⟩, hnone⟩
      intro m hm hmkey
      by_cases hmid : m.id = id
      · -- the network that is deleted had the segment: the release is still to come
        obtain rfl : m = n := eq_of_id hm hn (hmid.trans hid.symm)
        rw [← hseg, hmkey] at ho
        exact ho _ rfl rfl
      · exact hun m ((hmem m).mpr ⟨hm, hmid⟩) hmkey
    · rintro ⟨⟨hv, hun⟩, -⟩
      refine ⟨⟨hv, fun m hm => hun m ((hmem m).mp hm).1⟩, ?_⟩
      intro b hb howes
      obtain ⟨key, hkey, rfl⟩ := map_eq_some_iff.mp hb
      cases key with
      | physical uplink vlan => cases howes
      | vxlan w =>
        cases howes
        exact hun n hn (hseg.trans hkey)
  | release w _ hr hrow hvalues hnet =>
    unfold Debt
    rw [hrow v, unnamed_congr hnet, hr]
    constructor
    · rintro ⟨⟨⟨hv, hne⟩, hun⟩, -⟩
      exact ⟨⟨hv, hun⟩, fun h => hne (some.inj h).symm⟩
    · rintro ⟨⟨hv, hun⟩, hne⟩
      refine ⟨⟨⟨hv, fun h => hne (congrArg some h.symm)⟩, hun⟩, ?_⟩
      intro b hb
      cases hb

theorem Effect.tables (hs : Sound db r) (ht : Tables db) : Tables db' := by
  cases h with
  | other _ _ hrow hvalues hnext hnets hkept hr ho =>
    refine ⟨hvalues ▸ ht.nodup, ?_, ?_, ?_⟩
    · intro n' hn' v hv
      obtain ⟨n, hn, -, hkey, hvni⟩ := hnets n' hn'
      exact hvni.trans (ht.vni n hn v (hkey ▸ hv))
    · intro n' hn' v hv
      obtain ⟨n, hn, -, hkey, -⟩ := hnets n' hn'
      exact (hrow v).mpr (ht.row n hn v (hkey ▸ hv))
    · intro m' hm' n' hn' v hmv hnv
      obtain ⟨m, hm, hmid, hmkey, -⟩ := hnets m' hm'
      obtain ⟨n, hn, hnid, hnkey, -⟩ := hnets n' hn'
      have heq := ht.unique m hm n hn v (hmkey ▸ hmv) (hnkey ▸ hnv)
      refine eq_of_id hm' hn' ?_
      show m'.id = n'.id
      rw [hmid, hnid, heq]
  | allocate w b _ hnew hseg hnet hr hb hsound =>
    refine ⟨?_, ?_, ?_, ?_⟩
    · rw [hseg, map_append]
      refine ht.nodup.append (nodup_singleton _) ?_
      intro v hv hw
      obtain rfl := mem_singleton.mp hw
      exact hnew hv
    · rw [hnet]
      exact ht.vni
    · rw [hnet]
      exact fun n hn v hv => (hasRow_append hseg).mpr (.inl (ht.row n hn v hv))
    · rw [hnet]
      exact ht.unique
  | insert n b _ hseg hid hnext hmem hkey hvni hb =>
    have hnew : ∀ v, n.segmentKey = some (.vxlan v) → Debt db v :=
      fun v hv => hs.debt ((hkey v).mp hv)
    refine ⟨hseg ▸ ht.nodup, ?_, ?_, ?_⟩
    · intro m hm v hv
      rcases (hmem m).mp hm with hold | rfl
      · exact ht.vni m hold v hv
      · exact hvni v hv
    · intro m hm v hv
      refine (hasRow_congr hseg v).mpr ?_
      rcases (hmem m).mp hm with hold | rfl
      · exact ht.row m hold v hv
      · exact (hnew v hv).1
    · intro m hm m' hm' v hv hv'
      rcases (hmem m).mp hm with hold | rfl
      · rcases (hmem m').mp hm' with hold' | rfl
        · exact ht.unique m hold m' hold' v hv hv'
        · exact absurd hv ((hnew v hv').2 m hold)
      · rcases (hmem m').mp hm' with hold' | rfl
        · exact absurd hv' ((hnew v hv).2 m' hold')
        · rfl
  | delete id segment _ hrow hvalues hnext hmem hhad hr =>
    refine ⟨hvalues ▸ ht.nodup, ?_, ?_, ?_⟩
    · exact fun n hn => ht.vni n ((hmem n).mp hn).1
    · exact fun n hn v hv => (hrow v).mpr (ht.row n ((hmem n).mp hn).1 v hv)
    · exact fun m hm n hn => ht.unique m ((hmem m).mp hm).1 n ((hmem n).mp hn).1
  | release w _ hr hrow hvalues hnet =>
    refine ⟨hvalues ▸ ht.nodup, ?_, ?_, ?_⟩
    · rw [hnet]
      exact ht.vni
    · rw [hnet]
      refine fun n hn v hv => (hrow v).mpr ⟨ht.row n hn v hv, ?_⟩
      rintro rfl
      exact (hs.debt hr).2 n hn hv
    · rw [hnet]
      exact ht.unique

theorem Effect.next_le : db.networks.next ≤ db'.networks.next := by
  cases h with
  | other _ _ hrow hvalues hnext | delete _ _ _ hrow hvalues hnext => exact hnext.ge
  | allocate _ _ _ hnew hseg hnet | release _ _ hr hrow hvalues hnet =>
    exact (congrArg next hnet).ge
  | insert _ _ _ hseg hid hnext => exact hnext ▸ Nat.le_succ _

theorem Effect.old {n' : Network} (hn' : n' ∈ db'.networks) (hlt : n'.id < db.networks.next) :
    ∃ n ∈ db.networks, n.id = n'.id ∧ n.segmentKey = n'.segmentKey := by
  cases h with
  | other _ _ hrow hvalues hnext hnets hkept hr ho =>
    obtain ⟨n, hn, hid, hkey, -⟩ := hnets n' hn'
    exact ⟨n, hn, hid.symm, hkey.symm⟩
  | allocate _ _ _ hnew hseg hnet | release _ _ hr hrow hvalues hnet =>
    rw [hnet] at hn'
    exact ⟨n', hn', rfl, rfl⟩
  | insert n _ _ hseg hid hnext hmem =>
    rcases (hmem n').mp hn' with hold | rfl
    · exact ⟨n', hold, rfl, rfl⟩
    · exact absurd hid hlt.ne
  | delete _ _ _ hrow hvalues hnext hmem => exact ⟨n', ((hmem n').mp hn').1, rfl, rfl⟩

theorem Effect.rest {b : NetRequest} (hb : Sound db b) (hd : Distinct r b) : Sound db' b := by
  have hdebt : ∀ v, b.owes = some v → Debt db' v := fun v hv =>
    ((h.debt v).mpr ⟨hb.debt hv, fun hr => hd v hr hv⟩).1
  cases b with
  | insert s body kind key vni =>
    intro v hv
    subst hv
    exact ⟨(hb v rfl).1, hdebt v rfl⟩
  | release key =>
    intro v hv
    subst hv
    exact hdebt v rfl
  | delete s u id => exact Nat.lt_of_lt_of_le hb h.next_le
  | deleteRow s id segment =>
    refine ⟨Nat.lt_of_lt_of_le hb.1 h.next_le, ?_⟩
    intro n' hn' hid
    obtain ⟨n, hn, hnid, hkey⟩ := h.old hn' (hid ▸ hb.1)
    exact hkey ▸ hb.2 n hn (hnid.trans hid)
  | _ => trivial

theorem Effect.left (ht : Tables db) : ∀ b, o = some b → Sound db' b := by
  cases h with
  | other _ _ hrow hvalues hnext hnets hkept hr ho => exact fun b hb => (ho b hb).2
  | allocate v c _ hnew hseg hnet hr hc hsound =>
    intro b hb
    cases hb
    refine hsound ((hasRow_append hseg).mpr (.inr rfl)) ?_
    intro n hn hkey
    rw [hnet] at hn
    exact hnew (ht.row n hn v hkey).mem
  | insert n c _ hseg hid hnext hmem hkey hvni hc =>
    intro b hb
    cases hb
    exact hc.2
  | delete id segment _ hrow hvalues hnext hmem hhad hr =>
    obtain ⟨n, hn, hid, hseg⟩ := hhad
    intro b hb
    obtain ⟨key, hkey, rfl⟩ := map_eq_some_iff.mp hb
    intro v hv
    have hnv : n.segmentKey = some (.vxlan v) := by rw [hseg, hkey, hv]
    refine ⟨(hrow v).mpr (ht.row n hn v hnv), ?_⟩
    intro m hm hmv
    obtain ⟨hold, hmid⟩ := (hmem m).mp hm
    exact hmid (ht.unique m hold n hn v hmv hnv ▸ hid)
  | release _ _ hr hrow hvalues hnet =>
    intro b hb
    cases hb

end

end

/-! ## Runs -/

section

variable {cfg : Config} {s s' : NetState} {e : NetEvent}

theorem sound_of_fresh {db : Db} {r : NetRequest} (h : r.fresh db) :
    Sound db r ∧ r.owes = none := by
  cases r with
  | create s u body => exact ⟨trivial, rfl⟩
  | delete s u id => exact ⟨of_decide_eq_true (p := id < db.networks.next) h, rfl⟩
  | _ => cases h

inductive Did (cfg : Config) (s : NetState) : NetEvent → NetState → Prop
  | began {r : NetRequest} (hs : Sound s.db r) (hr : r.owes = none) :
      Did cfg s (.begin r) { s with requests := s.requests.add r }
  | called {i : Nat} {r : NetRequest} (hi : s.requests.get i = some r) :
      Did cfg s (.call i)
        { db := (r.call cfg s.db).1, requests := s.requests.put i (r.call cfg s.db).2 }
  | cut {i : Nat} {r : NetRequest} (hi : s.requests.get i = some r) :
      Did cfg s (.cut i) { s with requests := s.requests.put i none }

theorem netStep_did (h : netStep cfg s e = some s') : Did cfg s e s' := by
  cases e with
  | begin r =>
    rw [netStep] at h
    by_cases hf : r.fresh s.db
    · rw [if_pos hf] at h
      cases h
      exact .began (sound_of_fresh hf).1 (sound_of_fresh hf).2
    · simp [if_neg hf] at h
  | call i =>
    obtain ⟨r, hr, rfl⟩ := map_eq_some_iff.mp h
    exact .called hr
  | cut i =>
    obtain ⟨r, hr, rfl⟩ := map_eq_some_iff.mp h
    exact .cut hr

theorem base_step (hb : Base s) (h : netStep cfg s e = some s') : Base s' := by
  cases netStep_did h with
  | began hs hr =>
    refine ⟨hb.tables, hb.sound.add hs, hb.apart.add (fun _ _ => Distinct.symm) ?_⟩
    intro j b _ v hv
    simp [hr] at hv
  | @called i r hi =>
    have hr := hb.sound i r hi
    have heff : Effect s.db r ((r.call cfg s.db).1, (r.call cfg s.db).2) := call_effect hr
    refine ⟨heff.tables hr hb.tables, all_put hi ?_ (heff.left hb.tables),
      hb.apart.put (fun _ _ => Distinct.symm) hi ?_⟩
    · intro j b hji hj
      exact heff.rest (hb.sound j b hj) (hb.apart i j r b (Ne.symm hji) hi hj)
    · -- what another request owes is a debt, and not one of this request
      intro c hc j b hji hj v hcv hbv
      have hrv : r.owes ≠ some v := fun hrv => hb.apart i j r b (Ne.symm hji) hi hj v hrv hbv
      exact ((heff.debt v).mpr ⟨(hb.sound j b hj).debt hbv, hrv⟩).2 c hc hcv
  | @cut i r hi =>
    refine ⟨hb.tables, hb.sound.put hi ?_, hb.apart.put (fun _ _ => Distinct.symm) hi ?_⟩
    · intro b hb
      cases hb
    · intro c hc
      cases hc

theorem covered_step (hb : Base s) (hc : Covered s) (hok : careful s e)
    (h : netStep cfg s e = some s') : Covered s' := by
  cases netStep_did h with
  | began hs hr =>
    intro v hv
    obtain ⟨i, r, hi, ho⟩ := hc v hv
    exact ⟨i, r, get_add_of_get hi, ho⟩
  | @called i r hi =>
    have heff : Effect s.db r ((r.call cfg s.db).1, (r.call cfg s.db).2) :=
      call_effect (hb.sound i r hi)
    intro v hv
    by_cases ho : ∃ b, (r.call cfg s.db).2 = some b ∧ b.owes = some v
    · obtain ⟨b, hbr, hbv⟩ := ho
      exact ⟨i, b, (get_put_self hi).trans hbr, hbv⟩
    obtain ⟨hd, hrv⟩ := (heff.debt v).mp ⟨hv, fun b hbr hbv => ho ⟨b, hbr, hbv⟩⟩
    obtain ⟨j, b, hj, hbv⟩ := hc v hd
    have hji : j ≠ i := by
      rintro rfl
      exact hrv (mem_unique hi hj ▸ hbv)
    exact ⟨j, b, (get_put_ne hji).trans hj, hbv⟩
  | @cut i r hi =>
    have hr : r.owes = none := by
      simpa [careful, hi] using hok
    intro v hv
    obtain ⟨j, b, hj, hbv⟩ := hc v hv
    have hji : j ≠ i := by
      rintro rfl
      simp [mem_unique hj hi, hr] at hbv
    exact ⟨j, b, (get_put_ne hji).trans hj, hbv⟩

/-- A request that is cut short leaves its debt behind. -/
theorem leaked_of_careless (hb : Base s) (hok : careful s e = false)
    (h : netStep cfg s e = some s') : Leaked s' := by
  cases netStep_did h with
  | began | called => cases hok
  | @cut i r hi =>
  obtain ⟨v, hv⟩ : ∃ v, r.owes = some v := by
    simpa [careful, hi, isSome_iff_exists] using hok
  refine ⟨v, (hb.sound i r hi).debt hv, ?_⟩
  intro j b hj
  by_cases hji : j = i
  · simp [hji, get_put_self hi] at hj
  · rw [get_put_ne hji] at hj
    exact hb.apart i j r b (Ne.symm hji) hi hj v hv

theorem leaked_step (hb : Base s) (hl : Leaked s) (h : netStep cfg s e = some s') : Leaked s' := by
  obtain ⟨v, hd, hnobody⟩ := hl
  cases netStep_did h with
  | @began r hs hr =>
    refine ⟨v, hd, ?_⟩
    intro j b hj
    rw [get_add] at hj
    split at hj
    · rw [← some.inj hj, hr]
      exact (some_ne_none v).symm
    · exact hnobody j b hj
  | @called i r hi =>
    have heff : Effect s.db r ((r.call cfg s.db).1, (r.call cfg s.db).2) :=
      call_effect (hb.sound i r hi)
    obtain ⟨hd', ho⟩ := (heff.debt v).mpr ⟨hd, hnobody i r hi⟩
    exact ⟨v, hd', all_put hi (fun j b _ hj => hnobody j b hj) ho⟩
  | @cut i r hi =>
    refine ⟨v, hd, all_put hi (fun j b _ hj => hnobody j b hj) ?_⟩
    intro b hb
    cases hb

theorem Covered.corresponds (ht : Tables s.db) (hc : Covered s) (hidle : s.requests.idle) :
    Corresponds s.db := by
  intro r hr
  refine ⟨⟨fun hst => ?_, ?_⟩, fun n hn hkey => ht.vni n hn r.value hkey⟩
  · have hnamed : ¬ Unnamed s.db r.value := by
      intro hun
      obtain ⟨i, b, hi, -⟩ := hc r.value ⟨⟨r, hr, rfl, hst⟩, hun⟩
      simp [get_idle hidle] at hi
    obtain ⟨n, hn, hkey⟩ : ∃ n ∈ s.db.networks, n.segmentKey = some (.vxlan r.value) := by
      simpa [Unnamed] using hnamed
    exact ⟨n, hn, hkey, fun m hm hm' => ht.unique m hm n hn _ hm' hkey⟩
  · rintro ⟨n, hn, hkey, -⟩
    obtain ⟨r', hr', hval, hst⟩ := ht.row n hn _ hkey
    rwa [← inj_on_of_nodup_map ht.nodup hr' hr hval]

theorem Corresponds.covered (hc : Corresponds s.db) : Covered s := by
  rintro v ⟨⟨r, hr, rfl, hst⟩, hun⟩
  obtain ⟨n, hn, hkey, -⟩ := (hc r hr).1.mp hst
  exact absurd hkey (hun n hn)

theorem Leaked.not_corresponds (hl : Leaked s) : ¬ Corresponds s.db := by
  intro hc
  obtain ⟨v, hd, hnobody⟩ := hl
  obtain ⟨i, r, hi, ho⟩ := hc.covered v hd
  exact hnobody i r hi ho

theorem base_start {db : Db} (ht : Tables db) : Base ⟨db, .empty⟩ := by
  refine ⟨ht, ?_, ?_⟩
  · intro i r hi
    cases hi
  · intro i j a b _ hi
    cases hi

/-- **When segments and networks correspond.**  Once no request is in flight, they correspond
exactly if none was cut short while it owed a segment. -/
theorem corresponds_iff {db : Db} (ht : Tables db) (hstart : Corresponds db) {es : List NetEvent}
    (hrun : exec (netStep cfg) ⟨db, .empty⟩ es = some s) (hidle : s.requests.idle) :
    Corresponds s.db ↔ execOk (netStep cfg) careful ⟨db, .empty⟩ es :=
  exec_iff (P := fun s => Corresponds s.db) (fun s => Base s ∧ Covered s)
    (fun s => Base s ∧ Leaked s)
    (fun _ _ _ hs hok h => ⟨base_step hs.1 h, covered_step hs.1 hs.2 hok h⟩)
    (fun _ _ _ hs hok h => ⟨base_step hs.1 h, leaked_of_careless hs.1 hok h⟩)
    (fun _ _ _ hs h => ⟨base_step hs.1 h, leaked_step hs.1 hs.2 h⟩)
    ⟨base_start ht, hstart.covered⟩ hrun (fun hs => hs.2.corresponds hs.1.tables hidle)
    (fun hs => hs.2.not_corresponds)

end

def tenantNetwork (name : String) : CreateNetwork :=
  ⟨name, some (.ok .tenant), none, none, false, none, unmanaged⟩

def networkAdmin : AuthUser := ⟨some 0, [.networkCreate, .networkDelete], [], false⟩

theorem sampleDb_tables : Tables sampleDb := by
  have hnone : ∀ n ∈ sampleDb.networks, n.segmentKey = none :=
    (by decide : ∀ n ∈ sampleDb.networks.rows, n.segmentKey = none)
  refine ⟨by decide, ?_, ?_, ?_⟩
  · intro n hn v hv
    cases (hnone n hn).symm.trans hv
  · intro n hn v hv
    cases (hnone n hn).symm.trans hv
  · intro m hm n hn v hv
    cases (hnone m hm).symm.trans hv

theorem sampleDb_corresponds : Corresponds sampleDb := fun _ hr => absurd hr not_mem_nil

/-- Two networks are made at the same time, the first is deleted, and the second one's request ends
before it is bound. -/
def twoNetworks : List NetEvent :=
  [.begin (.create (.project 2) networkAdmin (tenantNetwork "red")), .call 0,
    .begin (.create (.project 2) networkAdmin (tenantNetwork "green")), .call 1, .call 1, .call 0,
    .call 0, .call 1, .call 0, .call 1, .call 0, .cut 1,
    .begin (.delete (.project 2) networkAdmin 3), .call 2, .call 2, .call 2]

theorem corresponds_twoNetworks :
    (final (netStep sampleCfg) ⟨sampleDb, .empty⟩ twoNetworks).db.segments.length = 2 ∧
      Corresponds (final (netStep sampleCfg) ⟨sampleDb, .empty⟩ twoNetworks).db := by
  have hrun := exec_eq_final (by decide : (exec (netStep sampleCfg) ⟨sampleDb, .empty⟩ twoNetworks).isSome)
  exact ⟨by decide,
    (corresponds_iff sampleDb_tables sampleDb_corresponds hrun (by decide)).mpr (by decide)⟩

/-- The instance goes down between the two transactions of a request. -/
def downInBetween : List NetEvent :=
  [.begin (.create (.project 2) networkAdmin (tenantNetwork "red")), .call 0, .cut 0]

/-- **A segment without a network.**  The allocation is committed and the network is not; no request
is left, and the segment stays allocated. -/
theorem segment_orphaned :
    (final (netStep sampleCfg) ⟨sampleDb, .empty⟩ downInBetween).requests.idle ∧
      ⟨1, .allocated, none⟩ ∈ (final (netStep sampleCfg) ⟨sampleDb, .empty⟩ downInBetween).db.segments ∧
      ¬ Corresponds (final (netStep sampleCfg) ⟨sampleDb, .empty⟩ downInBetween).db := by
  have hrow : (⟨1, .allocated, none⟩ : Segment) ∈
      (final (netStep sampleCfg) ⟨sampleDb, .empty⟩ downInBetween).db.segments := by decide
  refine ⟨by decide, hrow, ?_⟩
  intro h
  obtain ⟨n, hn, hkey, -⟩ := (h _ hrow).1.mp rfl
  exact (by decide : ∀ n ∈ (final (netStep sampleCfg) ⟨sampleDb, .empty⟩ downInBetween).db.networks.rows,
    n.segmentKey ≠ some (.vxlan 1)) n hn hkey

end VQuasar.Segments
