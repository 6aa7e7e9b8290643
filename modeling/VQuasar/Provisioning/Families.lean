import VQuasar.Provisioning.Calls

/-!
# The addresses of a NIC

A NIC on a managed network should have one row of `ip_allocations` for each family of the network, with
an address that a guest can use (`NicOk`).  Whatever `next_free` finds and `validate` lets pass is
usable (`nextFree_usable`, `validate_iff`), unless the subnet is the last address of all, whose
successor saturates; and `next_free` finds the least address there is, unless it is the last address of
all, at which the loop stops (`nextFree_exact_iff`).

Between two calls of `allocate_nic_ips` the NIC at hand has the addresses of the families that are done
and no others (`Current`), and a call carries this on, whatever happened to the rows of other NICs in
between (`Called`, `Current.call`).
-/

namespace VQuasar.Provisioning

open Tenancy List Option Bool Subnet

variable {ip : IpAddr} {s : Subnet} {taken : List IpAddr} {o : Option Job}
  {i : NetworkIpam} {v6 : Bool} {v : Nat}

/-! ## Usable addresses -/

/-- A subnet without its pool: the network, and the gateway. -/
abbrev Range := IpNet × Option IpAddr

/-- Inside the network, and neither its first address nor its gateway, nor its broadcast address,
which only IPv4 has. -/
def Usable (r : Range) (ip : IpAddr) : Prop :=
  ip.v6 = r.1.v6 ∧ r.1.network < ip.value ∧ ip.value ≤ r.1.broadcast ∧
    (r.1.v6 = false → ip.value ≠ r.1.broadcast) ∧ r.2.map IpAddr.value ≠ some ip.value

instance (r : Range) (ip : IpAddr) : Decidable (Usable r ip) := by
  unfold Usable
  infer_instance

def range (s : Subnet) : Range := (s.net, s.gateway)

def rangeOf (i : NetworkIpam) (v6 : Bool) : Except ApiError (Option Range) :=
  (i.subnet v6).map (Option.map range)

theorem rangeOf_eq_some {r : Range} :
    rangeOf i v6 = .ok (some r) ↔ ∃ s, i.subnet v6 = .ok (some s) ∧ range s = r := by
  unfold rangeOf
  cases i.subnet v6 with
  | error e => simp [Except.map]
  | ok o => cases o <;> simp [Except.map]

theorem rangeOf_eq_none : rangeOf i v6 = .ok none ↔ i.subnet v6 = .ok none := by
  unfold rangeOf
  cases i.subnet v6 with
  | error e => simp [Except.map]
  | ok o => cases o <;> simp [Except.map]

theorem validate_iff : s.validate ip = .ok () ↔ Usable (range s) ip := by
  unfold validate
  rw [ensure_bind, ensure_eq_ok]
  simp only [Subnet.contains, Usable, range, and_eq_true, or_eq_true, bne_iff_ne, beq_iff_eq,
    decide_eq_true_eq]
  constructor
  · rintro ⟨⟨⟨hfam, hlo⟩, hhi⟩, ⟨hnet, hbroad⟩, hgw⟩
    exact ⟨hfam, by omega, hhi, fun hv4 => hbroad.resolve_left (by simp [hv4]), hgw⟩
  · rintro ⟨hfam, hlo, hhi, hbroad, hgw⟩
    refine ⟨⟨⟨hfam, by omega⟩, hhi⟩, ⟨by omega, ?_⟩, hgw⟩
    cases hv : s.net.v6 with
    | true => exact .inl rfl
    | false => exact .inr (hbroad hv)

/-- Neither the gateway nor taken. -/
def Vacant (s : Subnet) (taken : List IpAddr) (v : Nat) : Prop :=
  s.gateway.map IpAddr.value ≠ some v ∧ (⟨s.net.v6, v⟩ : IpAddr) ∉ taken

/-- The loop stops before the last address of all, unless it starts there. -/
theorem scan_spec : ∀ {fuel v : Nat},
    (∀ ip, s.scan taken fuel v = some ip → ip.v6 = s.net.v6 ∧ v ≤ ip.value ∧ ip.value < v + fuel ∧
      Vacant s taken ip.value ∧ (∀ k, v ≤ k → k < ip.value → ¬ Vacant s taken k) ∧
      (v < u128Max → ip.value ≠ u128Max)) ∧
    (s.scan taken fuel v = none → ∀ k, v ≤ k → k < v + fuel → Vacant s taken k →
      v < k ∧ u128Max ≤ k) := by
  intro fuel
  induction fuel with
  | zero => exact fun {v} => ⟨nofun, fun _ k hlo hhi => absurd hhi (by omega)⟩
  | succ fuel ih =>
    intro v
    rw [scan]
    split
    · next hfree =>
      refine ⟨?_, nofun⟩
      rintro ip ⟨⟩
      refine ⟨rfl, Nat.le_refl v, by show v < v + (fuel + 1); omega, hfree, fun k hk hlt => ?_, Nat.ne_of_lt⟩
      exact absurd hlt (Nat.not_lt_of_le hk)
    · next hno =>
      have hskip : ∀ k, v ≤ k → Vacant s taken k → v + 1 ≤ k := by
        intro k hk hvac
        rcases Nat.eq_or_lt_of_le hk with rfl | hlt
        · exact absurd hvac hno
        · exact hlt
      split
      · refine ⟨nofun, fun _ k hlo _ hvac => ?_⟩
        have := hskip k hlo hvac
        omega
      · obtain ⟨hfound, hnone⟩ := @ih (v + 1)
        refine ⟨fun ip h => ?_, fun h k hlo hhi hvac => ?_⟩
        · obtain ⟨hfam, hlo, hhi, hvac, hmin, htop⟩ := hfound ip h
          refine ⟨hfam, by omega, by omega, hvac, fun k hk hlt hk' => ?_, fun hv => htop (by omega)⟩
          exact hmin k (hskip k hk hk') hlt hk'
        · have hk := hskip k hlo hvac
          have := hnone h k hk (by omega) hvac
          omega

/-- The addresses that the subnet has to give: usable, inside the pool and not taken. -/
def Offered (s : Subnet) (taken : List IpAddr) (ip : IpAddr) : Prop :=
  Usable (range s) ip ∧ (∀ a, s.poolStart = some a → a.value ≤ ip.value) ∧
    (∀ a, s.poolEnd = some a → ip.value ≤ a.value) ∧ ip ∉ taken

theorem bounds_fst_le : s.bounds.1 ≤ v ↔ min (s.net.network + 1) u128Max ≤ v ∧
    ∀ a, s.poolStart = some a → a.value ≤ v := by
  unfold bounds
  cases s.poolStart <;> simp

theorem le_bounds_snd : v ≤ s.bounds.2 ↔
    (v ≤ if s.net.v6 then s.net.broadcast else s.net.broadcast - 1) ∧
      ∀ a, s.poolEnd = some a → v ≤ a.value := by
  unfold bounds
  cases s.poolEnd <;> simp

theorem offered_iff (hnet : s.net.network < u128Max) :
    Offered s taken ⟨s.net.v6, v⟩ ↔ s.bounds.1 ≤ v ∧ v ≤ s.bounds.2 ∧ Vacant s taken v := by
  rw [bounds_fst_le, le_bounds_snd]
  unfold Vacant Offered Usable range
  cases s.net.v6 <;> grind

theorem nextFree_usable (hnet : s.net.network < u128Max) (h : s.nextFree taken = .ok ip) :
    Usable (range s) ip := by
  obtain ⟨hfam, hlo, hhi, hvac, -⟩ := scan_spec.1 ip (orElse_eq_ok.mp h)
  obtain ⟨fam, v⟩ := ip
  obtain rfl : fam = s.net.v6 := hfam
  dsimp only at hlo hhi hvac
  exact ((offered_iff hnet).mpr ⟨hlo, by omega, hvac⟩).1

/-- An address of the pool that is not taken, below the last address of all. -/
def hasRoom (s : Subnet) (taken : List IpAddr) : Bool :=
  (List.range (s.bounds.2 + 1 - s.bounds.1)).any fun k =>
    s.gateway.map IpAddr.value != some (s.bounds.1 + k) &&
      !taken.contains ⟨s.net.v6, s.bounds.1 + k⟩ && s.bounds.1 + k < u128Max

theorem nextFree_of_hasRoom (h : hasRoom s taken) : ∃ ip, s.nextFree taken = .ok ip := by
  obtain ⟨k, hk, hroom⟩ := any_eq_true.mp h
  simp only [and_eq_true, bne_iff_ne, decide_eq_true_eq, not_eq_true',
    contains_eq_mem, decide_eq_false_iff_not] at hroom
  have hk' := mem_range.mp hk
  unfold nextFree
  cases hscan : s.scan taken (s.bounds.2 + 1 - s.bounds.1) s.bounds.1 with
  | some ip => exact ⟨ip, rfl⟩
  | none =>
    have htop := (scan_spec.2 hscan _ (Nat.le_add_right _ k) (by omega) hroom.1).2
    exact absurd hroom.2 (Nat.not_lt_of_le htop)

/-! ## The least free address -/

/-- `next_free` finds the least address there is to give, and `validate` lets it pass; it finds none
only if there is none. -/
def NextFreeExact (s : Subnet) (taken : List IpAddr) : Prop :=
  match s.nextFree taken with
  | .ok ip => Offered s taken ip ∧ (∀ ip', Offered s taken ip' → ip.value ≤ ip'.value) ∧
      s.validate ip = .ok ()
  | .error e => e = .invalid ("no free address left in subnet " ++ s.net.text) ∧
      ∀ ip, ¬ Offered s taken ip

/-- The addresses are 128-bit numbers. -/
def InU128 (s : Subnet) : Prop :=
  s.net.network ≤ s.net.broadcast ∧ s.net.broadcast ≤ u128Max ∧
    ∀ a, s.poolStart = some a → a.value ≤ u128Max

/-- The last address of all is in the pool and not the gateway, and the loop does not start there, or
starts there only because the address after the network's own saturates. -/
def TopLost (s : Subnet) : Prop :=
  s.net.v6 = true ∧ s.net.broadcast = u128Max ∧
    (∀ a, s.poolEnd = some a → u128Max ≤ a.value) ∧
    s.gateway.map IpAddr.value ≠ some u128Max ∧
    (s.net.network = u128Max ∨ (s.net.network + 1 < u128Max ∧
      ∀ a, s.poolStart = some a → a.value < u128Max))

theorem nextFreeExact_iff : NextFreeExact s taken ↔
    match s.scan taken (s.bounds.2 + 1 - s.bounds.1) s.bounds.1 with
    | some ip => Offered s taken ip ∧ ∀ ip', Offered s taken ip' → ip.value ≤ ip'.value
    | none => ∀ ip, ¬ Offered s taken ip := by
  unfold NextFreeExact nextFree
  cases s.scan taken (s.bounds.2 + 1 - s.bounds.1) s.bounds.1 with
  | none => exact and_iff_right rfl
  | some ip => exact ⟨fun h => ⟨h.1, h.2.1⟩, fun h => ⟨h.1, h.2, validate_iff.mpr h.1.1⟩⟩

/-- **`next_free` is exact**, whatever is taken, unless it loses the last address of all. -/
theorem nextFree_exact_iff (hwf : InU128 s) : (∀ taken, NextFreeExact s taken) ↔ ¬ TopLost s := by
  obtain ⟨hle, hmax, hstart⟩ := hwf
  have hpos : 0 < u128Max := by decide
  have hspec := fun taken => @scan_spec s taken (s.bounds.2 + 1 - s.bounds.1) s.bounds.1
  simp only [nextFreeExact_iff]
  constructor
  · rintro hexact ⟨hv6, hbroad, hend, hgw, htop⟩
    have hlo : s.bounds.1 ≤ u128Max := bounds_fst_le.mpr ⟨by omega, hstart⟩
    have hhi : u128Max ≤ s.bounds.2 := le_bounds_snd.mpr ⟨by simp [hv6, hbroad], hend⟩
    -- everything but the last address is taken
    let taken : List IpAddr := (List.range u128Max).map fun v => ⟨true, v⟩
    have hmem : ∀ v, (⟨s.net.v6, v⟩ : IpAddr) ∈ taken ↔ v < u128Max := by simp [taken, hv6]
    have hvac : Vacant s taken u128Max := ⟨hgw, by simp [hmem]⟩
    have h := hexact taken
    obtain ⟨hfound, hnone⟩ := hspec taken
    cases hscan : s.scan taken (s.bounds.2 + 1 - s.bounds.1) s.bounds.1 with
    | some ip =>
      rw [hscan] at h
      obtain ⟨-, -, -, ⟨-, hfree⟩, -, hne⟩ := hfound ip hscan
      rw [hmem] at hfree
      have hnet : s.net.network < ip.value := h.1.1.2.1
      have hin : ip.value ≤ s.net.broadcast := h.1.1.2.2.1
      rcases htop with htop | ⟨hnet', hps⟩
      · omega
      · have hlt : s.bounds.1 ≤ u128Max - 1 :=
          bounds_fst_le.mpr ⟨by omega, fun a ha => Nat.le_sub_one_of_lt (hps a ha)⟩
        exact hne (by omega) (by omega)
    | none =>
      rw [hscan] at h
      have hlt := (hnone hscan _ hlo (by omega) hvac).1
      have hnet := (bounds_fst_le.mp (Nat.le_refl s.bounds.1)).1
      exact h ⟨s.net.v6, u128Max⟩ ((offered_iff (by omega)).mpr ⟨hlo, hhi, hvac⟩)
  · intro hlost taken
    obtain ⟨hfound, hnone⟩ := hspec taken
    cases hscan : s.scan taken (s.bounds.2 + 1 - s.bounds.1) s.bounds.1 with
    | some ip =>
      obtain ⟨hfam, hlo, hhi, hvac, hmin, -⟩ := hfound ip hscan
      obtain ⟨fam, v⟩ := ip
      obtain rfl : fam = s.net.v6 := hfam
      dsimp only at hlo hhi hvac hmin
      have hle : v ≤ s.bounds.2 := by omega
      obtain ⟨hfst, -⟩ := bounds_fst_le.mp hlo
      obtain ⟨hsnd, hend⟩ := le_bounds_snd.mp hle
      have hnet : s.net.network < u128Max := by
        by_contra hnet
        cases hv6 : s.net.v6 <;> simp only [hv6, false_eq_true, if_false, if_true] at hsnd
        · omega
        · obtain rfl : v = u128Max := by omega
          exact hlost ⟨hv6, by omega, hend, hvac.1, .inl (by omega)⟩
      refine ⟨(offered_iff hnet).mpr ⟨hlo, hle, hvac⟩, ?_⟩
      rintro ⟨fam, v'⟩ hoff
      obtain rfl : fam = s.net.v6 := hoff.1.1
      obtain ⟨hlo', -, hvac'⟩ := (offered_iff hnet).mp hoff
      exact Nat.le_of_not_lt fun hlt => hmin v' hlo' hlt hvac'
    | none =>
      rintro ⟨fam, v⟩ hoff
      obtain rfl : fam = s.net.v6 := hoff.1.1
      have hnet : s.net.network < v := hoff.1.2.1
      have hv : v ≤ s.net.broadcast := hoff.1.2.2.1
      obtain ⟨hlo, hhi, hvac⟩ := (offered_iff (by omega)).mp hoff
      obtain ⟨hlt, htop'⟩ := hnone hscan v hlo (by omega) hvac
      obtain rfl : v = u128Max := by omega
      obtain ⟨⟨-, -, -, hbroad, hgw⟩, -, hend, -⟩ := hoff
      refine hlost ⟨?_, by omega, hend, hgw, .inr ⟨?_, fun a ha => ?_⟩⟩
      · by_contra hv4
        exact hbroad (eq_false_iff.mpr hv4) (show u128Max = s.net.broadcast by omega)
      · have := (bounds_fst_le.mp (Nat.le_refl s.bounds.1)).1
        omega
      · have := (bounds_fst_le.mp (Nat.le_refl s.bounds.1)).2 a ha
        omega

def lanSubnet : Subnet := ⟨⟨false, 167772160, 167772415⟩, some ⟨false, 167772161⟩, none, none⟩

theorem nextFree_exact_lan : InU128 lanSubnet ∧ ∀ taken, NextFreeExact lanSubnet taken := by
  have hwf : InU128 lanSubnet := ⟨by decide, by decide, nofun⟩
  exact ⟨hwf, (nextFree_exact_iff hwf).mpr fun h => nomatch h.1⟩

/-- The four addresses from the `i`-th but last of all on, or fewer. -/
def topSubnet (i : Nat) : Subnet := ⟨⟨true, u128Max - i, u128Max⟩, none, none, none⟩

/-- **The last address of all is lost**: with two of three addresses taken the third is not found.  In
the subnet of that address alone, it is given out although it is the network's own. -/
theorem top_address_lost :
    ¬ NextFreeExact (topSubnet 3) [⟨true, u128Max - 2⟩, ⟨true, u128Max - 1⟩] ∧
      ¬ NextFreeExact (topSubnet 0) [] := by
  refine ⟨fun h => h.2 ⟨true, u128Max⟩ ⟨by decide, nofun, nofun, by decide⟩, fun h => ?_⟩
  exact absurd h.1.1.2.1 (by decide)
/-! ## Networks -/

/-- Both families of a network can be read, a column holds a subnet of its own family, and none is
the last address of all. -/
def proper (i : NetworkIpam) : Bool :=
  [false, true].all fun v6 =>
    match rangeOf i v6 with
    | .ok none => true
    | .ok (some r) => r.1.v6 == v6 && r.1.network < u128Max
    | .error _ => false

theorem proper_range (h : proper i) (v6 : Bool) :
    ∃ o, rangeOf i v6 = .ok o ∧ ∀ r, o = some r → r.1.v6 = v6 ∧ r.1.network < u128Max := by
  have hv := all_eq_true.mp h v6 (by cases v6 <;> simp)
  cases ho : rangeOf i v6 with
  | error e =>
    rw [ho] at hv
    cases hv
  | ok o =>
    rw [ho] at hv
    refine ⟨o, rfl, ?_⟩
    rintro r rfl
    simpa using hv

theorem isManaged_iff {n : Network} : n.isManaged ↔ ∃ v6, rangeOf n.ipam v6 ≠ .ok none := by
  have hset : ∀ v6, rangeOf n.ipam v6 ≠ .ok none ↔
      (if v6 then n.ipam.cidrV6 else n.ipam.cidrV4).isSome = true := by
    intro v6
    rw [Ne, rangeOf_eq_none]
    have hparse : ∀ {cidr : Option (Text IpNet)} {gateway poolStart poolEnd : Option (Text IpAddr)},
        ¬ parseOpt cidr gateway poolStart poolEnd = .ok none ↔ cidr.isSome := by
      intro cidr gateway poolStart poolEnd
      cases cidr with
      | none => simp [parseOpt]
      | some cidr =>
      simp only [isSome_some, iff_true]
      intro h
      rw [parseOpt] at h
      obtain ⟨net, -, h⟩ := bind_eq_ok.mp h
      obtain ⟨gw, -, h⟩ := bind_eq_ok.mp h
      obtain ⟨first, -, h⟩ := bind_eq_ok.mp h
      obtain ⟨last, -, h⟩ := bind_eq_ok.mp h
      cases h
    cases v6 <;> exact hparse
  unfold Network.isManaged
  rw [or_eq_true]
  constructor
  · rintro (h | h)
    · exact ⟨false, (hset false).mpr h⟩
    · exact ⟨true, (hset true).mpr h⟩
  · rintro ⟨v6, h⟩
    cases v6
    · exact .inl ((hset false).mp h)
    · exact .inr ((hset true).mp h)

/-! ## The rows of a NIC -/

def familyRows (db : Db) (vm : Id) (i : Nat) (v6 : Bool) : List IpAllocation :=
  db.allocations.rows.filter fun a => a.vm == some vm && a.nicIndex == i && a.v6 == v6

/-- What the rows of a NIC for one family are to be: one, on its network and with a usable address of
the family, if the network has the family, and none otherwise. -/
def FamilyOk (db : Db) (vm : Id) (i : Nat) (network : Id) (v6 : Bool) :
    Except ApiError (Option Range) → Prop
  | .ok (some r) => ∃ a, familyRows db vm i v6 = [a] ∧ a.network = network ∧ a.ip.v6 = v6 ∧ Usable r a.ip
  | .ok none => familyRows db vm i v6 = []
  | .error _ => False

def rangesAt (db : Db) (id : Id) : Option (Bool → Except ApiError (Option Range)) :=
  (db.networks.get id).map fun n => rangeOf n.ipam

/-- The NIC has the addresses of its network, if that is managed. -/
def NicOk (db : Db) (vm : Id) (i : Nat) (network : Id) : Prop :=
  ∀ f, rangesAt db network = some f → (∃ v6, f v6 ≠ .ok none) →
    ∀ v6, FamilyOk db vm i network v6 (f v6)

/-- No two rows of a network share an address. -/
def Unique (db : Db) : Prop :=
  ∀ a ∈ db.allocations, ∀ b ∈ db.allocations, a.network = b.network → a.ip = b.ip → a = b

section

variable {db db' : Db} {vm : Id} {i : Nat} {network : Id} {v6 : Bool} {j : Job} {n : Network}

theorem FamilyOk.frame {o : Except ApiError (Option Range)}
    (hrows : familyRows db' vm i v6 = familyRows db vm i v6) (h : FamilyOk db vm i network v6 o) :
    FamilyOk db' vm i network v6 o := by
  match o, h with
  | .ok (some r), h =>
    show ∃ a, familyRows db' vm i v6 = [a] ∧ _
    rw [hrows]
    exact h
  | .ok none, h => exact hrows.trans h

theorem NicOk.frame (hrows : ∀ v6, familyRows db' vm i v6 = familyRows db vm i v6)
    (hnet : rangesAt db' network = rangesAt db network) (h : NicOk db vm i network) :
    NicOk db' vm i network := by
  intro f hf hset v6
  exact (h f (hnet ▸ hf) hset v6).frame (hrows v6)

theorem mem_familyRows {a : IpAllocation} (h : a ∈ familyRows db vm i v6) :
    a ∈ db.allocations ∧ a.vm = some vm ∧ a.nicIndex = i ∧ a.v6 = v6 := by
  obtain ⟨hmem, htest⟩ := mem_filter.mp h
  simp only [and_eq_true, beq_iff_eq] at htest
  exact ⟨hmem, htest.1.1, htest.1.2, htest.2⟩

/-- Nothing has changed but for new rows of one NIC. -/
structure Adds (vm : Id) (i : Nat) (db db' : Db) : Prop where
  only : ∃ t, db' = { db with allocations := t }
  others : ∀ vm' i' v6, ¬(vm' = vm ∧ i' = i) → familyRows db' vm' i' v6 = familyRows db vm' i' v6
  unique : Unique db → Unique db'
  owners : ∀ a ∈ db'.allocations, a ∈ db.allocations ∨ a.vm = some vm

theorem Adds.refl (vm : Id) (i : Nat) (db : Db) : Adds vm i db db :=
  ⟨⟨db.allocations, rfl⟩, fun _ _ _ _ => rfl, fun h => h, fun _ h => .inl h⟩

theorem Adds.rangesAt (h : Adds vm i db db') (id : Id) : rangesAt db' id = rangesAt db id := by
  obtain ⟨t, rfl⟩ := h.only
  rfl

variable {mac : Option String} {requested : List IpAddr}

section

variable (h : db.insertAllocation network ip v6 (some vm) i mac = .ok db')
include h

theorem insertAllocation_ok :
    (∀ a ∈ db.allocations, a.network = network → a.ip ≠ ip) ∧
      ∃ t id, db' = { db with allocations := t } ∧
        t.rows = db.allocations.rows ++ [⟨id, network, ip, v6, some vm, i, mac⟩] := by
  unfold Db.insertAllocation at h
  obtain ⟨hfree, h⟩ := ensure_bind.mp h
  refine ⟨?_, _, _, (pure_eq_ok.mp h).symm, rfl⟩
  intro a ha hnet
  have hmem : a ∈ db.allocationsForNetwork network := mem_filter.mpr ⟨ha, beq_iff_eq.mpr hnet⟩
  simpa using all_eq_true.mp hfree a hmem

theorem insertAllocation_adds : Adds vm i db db' := by
  obtain ⟨hfree, t, id, rfl, hrows⟩ := insertAllocation_ok h
  refine ⟨⟨t, rfl⟩, ?_, ?_, ?_⟩
  · intro vm' i' v hne
    refine IdTable.Same.insert hrows (eq_false_iff.mpr fun htest => hne ?_)
    simp only [and_eq_true, beq_iff_eq, some.injEq] at htest
    exact ⟨htest.1.1.symm, htest.1.2.symm⟩
  · intro hu a ha b hb hnet hip
    rw [← IdTable.mem_rows, hrows, mem_append, mem_singleton] at ha hb
    rcases ha with ha | rfl
    · rcases hb with hb | rfl
      · exact hu a ha b hb hnet hip
      · exact absurd hip (hfree a ha hnet)
    · rcases hb with hb | rfl
      · exact absurd hip.symm (hfree b hb hnet.symm)
      · rfl
  · intro a ha
    rw [← IdTable.mem_rows, hrows, mem_append, mem_singleton] at ha
    rcases ha with ha | rfl
    · exact .inl ha
    · exact .inr rfl

theorem insertAllocation_rows : (∃ a, familyRows db' vm i v6 = familyRows db vm i v6 ++ [a] ∧ a.network =
    network ∧ a.ip = ip) ∧ familyRows db' vm i (!v6) = familyRows db vm i (!v6) := by
  obtain ⟨-, t, id, rfl, hrows⟩ := insertAllocation_ok h
  constructor
  · refine ⟨⟨id, network, ip, v6, some vm, i, mac⟩, ?_, rfl, rfl⟩
    show t.rows.filter _ = db.allocations.rows.filter _ ++ _
    rw [hrows, filter_append, filter_singleton]
    simp
  · exact IdTable.Same.insert hrows (by simp)

end

/-! ## Between two calls -/

/-- The row that was read still says what the network's subnets are. -/
def Held (db : Db) (j : Job) (n : Network) : Prop :=
  n.id = j.nic.networkId ∧ n.isManaged = true ∧ rangesAt db n.id = some (rangeOf n.ipam)

/-- The NIC has no address of the family that is next, and IPv4 comes before IPv6. -/
def Before (db : Db) (j : Job) (n : Network) (v6 : Bool) : Prop :=
  familyRows db j.vm j.index v6 = [] ∧
    if v6 then FamilyOk db j.vm j.index n.id false (rangeOf n.ipam false)
    else familyRows db j.vm j.index true = []

/-- Where the job stands with the NIC at hand. -/
def Current (db : Db) (j : Job) : Prop :=
  match j.next with
  | .getNetwork => ∀ v6, familyRows db j.vm j.index v6 = []
  | .choose n _ v6 => Held db j n ∧ Before db j n v6
  | .insert n _ v6 ip =>
    Held db j n ∧ Before db j n v6 ∧ ∃ r, rangeOf n.ipam v6 = .ok (some r) ∧ ip.v6 = v6 ∧ Usable r ip

theorem Current.frame (hrows : ∀ v6, familyRows db' j.vm j.index v6 = familyRows db j.vm j.index v6)
    (hnet : rangesAt db' j.nic.networkId = rangesAt db j.nic.networkId) (h : Current db j) :
    Current db' j := by
  have hheld : ∀ n, Held db j n → Held db' j n := by
    rintro n ⟨hid, hman, hrange⟩
    refine ⟨hid, hman, ?_⟩
    rw [← hrange, hid, hnet]
  have hbefore : ∀ n v6, Before db j n v6 → Before db' j n v6 := by
    rintro n v6 ⟨hnone, hother⟩
    refine ⟨(hrows v6).trans hnone, ?_⟩
    cases v6 with
    | false => exact (hrows true).trans hother
    | true => exact FamilyOk.frame (hrows false) hother
  unfold Current at h ⊢
  cases hnext : j.next with
  | getNetwork =>
    rw [hnext] at h
    exact fun v6 => (hrows v6).trans (h v6)
  | choose n requested v6 =>
    rw [hnext] at h
    exact ⟨hheld n h.1, hbefore n v6 h.2⟩
  | insert n requested v6 ip =>
    rw [hnext] at h
    exact ⟨hheld n h.1, hbefore n v6 h.2.1, h.2.2⟩

theorem current_nextFamily (hheld : Held db j n)
    (hok : FamilyOk db j.vm j.index n.id v6 (rangeOf n.ipam v6))
    (hother : if v6 then FamilyOk db j.vm j.index n.id false (rangeOf n.ipam false)
      else familyRows db j.vm j.index true = []) :
    (∃ next, j.nextFamily n requested v6 = some { j with next := next } ∧
        Current db { j with next := next }) ∨
      j.nextFamily n requested v6 = j.nextNic ∧ NicOk db j.vm j.index j.nic.networkId := by
  cases v6 with
  | false => exact .inl ⟨_, rfl, hheld, hother, hok⟩
  | true =>
  refine .inr ⟨rfl, ?_⟩
  obtain ⟨hid, -, hrange⟩ := hheld
  rw [← hid]
  intro f hf _ v6
  rw [hrange] at hf
  obtain rfl := some.inj hf
  cases v6 with
  | false => exact hother
  | true => exact hok

/-- What is chosen for a family: nothing if the network does not have it, and otherwise an address
that can be used. -/
theorem chooseAddress_spec {o : Option IpAddr}
    (hp : proper n.ipam) (h : chooseAddress db n requested v6 = .ok o) : match o with
    | none => rangeOf n.ipam v6 = .ok none
    | some ip => ∃ r, rangeOf n.ipam v6 = .ok (some r) ∧ ip.v6 = v6 ∧ Usable r ip := by
  obtain ⟨ro, hro, hprop⟩ := proper_range hp v6
  unfold chooseAddress at h
  obtain ⟨so, hso, h⟩ := bind_eq_ok.mp h
  cases so with
  | none =>
    cases pure_eq_ok.mp h
    exact rangeOf_eq_none.mpr hso
  | some s =>
    have hr : rangeOf n.ipam v6 = .ok (some (range s)) := rangeOf_eq_some.mpr ⟨s, hso, rfl⟩
    obtain ⟨hfam, hmax⟩ := hprop (range s) (Except.ok.inj (hro.symm.trans hr))
    have husable : ∀ ip, Usable (range s) ip → ∃ r, rangeOf n.ipam v6 = .ok (some r) ∧ ip.v6 = v6 ∧
        Usable r ip := fun ip hip => ⟨range s, hr, hip.1.trans hfam, hip⟩
    cases hreq : requested.find? fun ip => ip.v6 == v6 with
    | some ip =>
      simp only [hreq] at h
      obtain ⟨u, hval, ⟨⟩⟩ := of_bind_pure h
      exact husable ip (validate_iff.mp hval)
    | none =>
      simp only [hreq] at h
      obtain ⟨ip, hfree, ⟨⟩⟩ := of_bind_pure h
      exact husable ip (nextFree_usable hmax hfree)

theorem Held.proper (hp : ∀ n ∈ db.networks, proper n.ipam) (h : Held db j n) : proper n.ipam := by
  obtain ⟨-, -, hrange⟩ := h
  obtain ⟨m, hm, heq⟩ := map_eq_some_iff.mp hrange
  have hpm := hp m (IdTable.get_eq_some.mp hm).1
  unfold Provisioning.proper at hpm ⊢
  rw [← heq]
  exact hpm

/-- What a call of an allocation can do. -/
inductive Called (db : Db) (j : Job) : Db → Option Job → Prop
  | unmanaged {n : Network} (hnext : j.next = .getNetwork)
      (hn : db.networks.get j.nic.networkId = some n) (hman : n.isManaged = false) :
      Called db j db j.nextNic
  | managed {n : Network} {requested : List IpAddr} (hnext : j.next = .getNetwork)
      (hn : db.networks.get j.nic.networkId = some n) (hman : n.isManaged)
      (hreq : requestedAddresses j.nic.addresses = .ok requested) :
      Called db j db (some { j with next := .choose n requested false })
  | absent {n : Network} {requested : List IpAddr} {v6 : Bool}
      (hnext : j.next = .choose n requested v6) (hip : chooseAddress db n requested v6 = .ok none) :
      Called db j db (j.nextFamily n requested v6)
  | chosen {n : Network} {requested : List IpAddr} {v6 : Bool} {ip : IpAddr}
      (hnext : j.next = .choose n requested v6)
      (hip : chooseAddress db n requested v6 = .ok (some ip)) :
      Called db j db (some { j with next := .insert n requested v6 ip })
  | inserted {db' : Db} {n : Network} {requested : List IpAddr} {v6 : Bool} {ip : IpAddr}
      (hnext : j.next = .insert n requested v6 ip)
      (hins : db.insertAllocation n.id ip v6 (some j.vm) j.index j.nic.mac = .ok db') :
      Called db j db' (j.nextFamily n requested v6)

theorem Job.called (hcall : j.call db = .ok (db', o)) : Called db j db' o := by
  cases hnext : j.next with
  | getNetwork =>
    rw [Job.call_getNetwork hnext] at hcall
    cases hn : db.networks.get j.nic.networkId with
    | none =>
      rw [hn] at hcall
      cases hcall
    | some n =>
      simp only [hn] at hcall
      cases hman : n.isManaged with
      | false =>
        rw [hman] at hcall
        cases hcall
        exact .unmanaged hnext hn hman
      | true =>
        rw [hman] at hcall
        cases hreq : requestedAddresses j.nic.addresses with
        | error e =>
          rw [hreq] at hcall
          cases hcall
        | ok requested =>
          rw [hreq] at hcall
          cases hcall
          exact .managed hnext hn hman hreq
  | choose n requested v6 =>
    rw [Job.call_choose hnext] at hcall
    cases hip : chooseAddress db n requested v6 with
    | error e =>
      rw [hip] at hcall
      cases hcall
    | ok ip =>
      rw [hip] at hcall
      cases ip with
      | none =>
        cases hcall
        exact .absent hnext hip
      | some ip =>
        cases hcall
        exact .chosen hnext hip
  | insert n requested v6 ip =>
    rw [Job.call_insert hnext] at hcall
    cases hins : db.insertAllocation n.id ip v6 (some j.vm) j.index j.nic.mac with
    | error e =>
      rw [hins] at hcall
      cases hcall
    | ok db₁ =>
      rw [hins] at hcall
      cases hcall
      exact .inserted hnext hins

theorem Called.adds (h : Called db j db' o) : Adds j.vm j.index db db' := by
  cases h with
  | inserted hnext hins => exact insertAllocation_adds hins
  | _ => exact .refl _ _ _

theorem Called.sameVm (h : Called db j db' o) : ∀ j', o = some j' → j'.vm = j.vm := by
  have hnic : ∀ j', j.nextNic = some j' → j'.vm = j.vm := by
    intro j' hj'
    unfold Job.nextNic Job.start at hj'
    split at hj'
    · cases hj'
    · cases hj'
      rfl
  have hfamily : ∀ n requested v6 j', j.nextFamily n requested v6 = some j' → j'.vm = j.vm := by
    intro n requested v6 j' hj'
    cases v6 with
    | false =>
      cases hj'
      rfl
    | true => exact hnic j' hj'
  intro j' hj'
  cases h with
  | unmanaged => exact hnic j' hj'
  | absent | inserted => exact hfamily _ _ _ j' hj'
  | managed | chosen =>
    cases hj'
    rfl

/-- **One call of an allocation.**  The NIC at hand goes on to its next call, or it has its
addresses. -/
theorem Current.call (hp : ∀ n ∈ db.networks, proper n.ipam)
    (h : Current db j) (hcall : Called db j db' o) :
    (∃ next, o = some { j with next := next } ∧ Current db' { j with next := next }) ∨
      o = j.nextNic ∧ NicOk db' j.vm j.index j.nic.networkId := by
  unfold Current at h
  cases hcall with
  | @unmanaged n hnext hn hman =>
    refine .inr ⟨rfl, ?_⟩
    intro f hf hset
    unfold rangesAt at hf
    rw [hn] at hf
    obtain rfl := some.inj hf
    rw [isManaged_iff.mpr hset] at hman
    cases hman
  | @managed n requested hnext hn hman _ =>
    rw [hnext] at h
    have hid : n.id = j.nic.networkId := (IdTable.get_eq_some.mp hn).2
    refine .inl ⟨_, rfl, ⟨hid, hman, ?_⟩, h false, h true⟩
    unfold rangesAt
    rw [hid, hn]
    rfl
  | absent hnext hip =>
    rw [hnext] at h
    obtain ⟨hheld, hnone, hother⟩ := h
    refine current_nextFamily hheld ?_ hother
    rw [show rangeOf _ _ = .ok none from chooseAddress_spec (hheld.proper hp) hip]
    exact hnone
  | chosen hnext hip =>
    rw [hnext] at h
    obtain ⟨hheld, hbefore⟩ := h
    exact .inl ⟨_, rfl, hheld, hbefore, chooseAddress_spec (hheld.proper hp) hip⟩
  | @inserted db' n requested v6 ip hnext hins =>
    rw [hnext] at h
    obtain ⟨hheld, ⟨hnone, hother⟩, r, hr, hfam, hip⟩ := h
    obtain ⟨⟨a, hrows, hnet, haip⟩, hkept⟩ := insertAllocation_rows hins
    refine current_nextFamily ⟨hheld.1, hheld.2.1, ?_⟩ ?_ ?_
    · rw [(insertAllocation_adds hins).rangesAt]
      exact hheld.2.2
    · rw [hr]
      refine ⟨a, ?_, hnet, haip ▸ hfam, haip ▸ hip⟩
      rw [hrows, hnone]
      rfl
    · cases v6 with
      | false => exact hkept.trans hother
      | true => exact FamilyOk.frame hkept hother

end

end VQuasar.Provisioning
