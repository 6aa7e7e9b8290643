import VQuasar.Tenancy.Access

/-!
# Address management

`ipam.rs` and the allocation of a NIC's addresses.  A network's families are read from its columns
(`Subnet.parseOpt`); a NIC on a managed network gets the address it asks for, or the lowest free
one.  Whatever happens on the way, allocating touches no table but `ip_allocations`, and there
only rows of the VM in question (`AllocatesFor`).
-/

namespace VQuasar.Tenancy

structure Subnet where
  net : IpNet
  gateway : Option IpAddr
  poolStart : Option IpAddr
  poolEnd : Option IpAddr

def IpNet.text (n : IpNet) : String := toString n.network

/-- `parse`, with the field it names in the error -/
def parseField {α : Type} (what : String) (t : Text α) : Except ApiError α :=
  match t with
  | .ok a => .ok a
  | .error value => .error (.invalid ("invalid " ++ what ++ ": " ++ value))

def parseOptional {α : Type} (what : String) : Option (Text α) → Except ApiError (Option α)
  | none => .ok none
  | some t => do
    let a ← parseField what t
    return some a

namespace Subnet

/-- `parse_opt`: `none` when the family is not managed. -/
def parseOpt (cidr : Option (Text IpNet)) (gateway poolStart poolEnd : Option (Text IpAddr)) :
    Except ApiError (Option Subnet) :=
  match cidr with
  | none => .ok none
  | some cidr => do
    let net ← parseField "cidr" cidr
    let gateway ← parseOptional "gateway" gateway
    let poolStart ← parseOptional "pool_start" poolStart
    let poolEnd ← parseOptional "pool_end" poolEnd
    return some ⟨net, gateway, poolStart, poolEnd⟩

def u128Max : Nat := 2 ^ 128 - 1

/-- `bounds`: the pool without the network address and the IPv4 broadcast. -/
def bounds (s : Subnet) : Nat × Nat :=
  let lo := min (s.net.network + 1) u128Max
  let hi := if s.net.v6 then s.net.broadcast else s.net.broadcast - 1
  (match s.poolStart with
    | some a => max lo a.value
    | none => lo,
   match s.poolEnd with
    | some a => min hi a.value
    | none => hi)

/-- The loop of `next_free` from `v` on, over at most `fuel` addresses. -/
def scan (s : Subnet) (taken : List IpAddr) : Nat → Nat → Option IpAddr
  | 0, _ => none
  | fuel + 1, v =>
    let ip : IpAddr := ⟨s.net.v6, v⟩
    if (s.gateway.map IpAddr.value) ≠ some v ∧ ip ∉ taken then some ip
    else if v + 1 = u128Max then none
    else scan s taken fuel (v + 1)

def nextFree (s : Subnet) (taken : List IpAddr) : Except ApiError IpAddr :=
  orElse (s.scan taken (s.bounds.2 + 1 - s.bounds.1) s.bounds.1)
    (.invalid ("no free address left in subnet " ++ s.net.text))

/-- `net.contains` -/
def contains (s : Subnet) (ip : IpAddr) : Bool :=
  ip.v6 == s.net.v6 && s.net.network ≤ ip.value && ip.value ≤ s.net.broadcast

def validate (s : Subnet) (ip : IpAddr) : Except ApiError Unit := do
  ensure (s.contains ip)
    (.invalid ("address " ++ ip.text ++ " is not inside subnet " ++ s.net.text))
  ensure (ip.value != s.net.network && (s.net.v6 || ip.value != s.net.broadcast) &&
      s.gateway.map IpAddr.value != some ip.value)
    (.invalid ("address " ++ ip.text ++ " is reserved (network, broadcast, or gateway)"))

end Subnet

/-- The IPv4 or the IPv6 columns of a network. -/
def NetworkIpam.subnet (i : NetworkIpam) (v6 : Bool) : Except ApiError (Option Subnet) :=
  if v6 then Subnet.parseOpt i.cidrV6 i.gatewayV6 i.poolV6Start i.poolV6End
  else Subnet.parseOpt i.cidrV4 i.gatewayV4 i.poolV4Start i.poolV4End

/-- The gateway check of `validate_ipam` for one family. -/
def checkGateway : Option Subnet → Except ApiError Unit
  | none => .ok ()
  | some s =>
    match s.gateway with
    | none => .ok ()
    | some gw =>
      ensure (s.contains gw) (.invalid ("gateway " ++ gw.text ++ " is not inside " ++ s.net.text))

/-- `validate_ipam` -/
def NetworkIpam.validate (i : NetworkIpam) : Except ApiError Unit := do
  let v4 ← i.subnet false
  checkGateway v4
  let v6 ← i.subnet true
  checkGateway v6
  match i.dns.find? fun d => !d.isOk with
  | some (.error d) => .error (.invalid ("dns entry is not an IP: " ++ d))
  | _ => .ok ()

/-! ## Allocating for a NIC -/

/-- The requested addresses, refusing the first that does not parse. -/
def requestedAddresses : List (Text IpAddr) → Except ApiError (List IpAddr)
  | [] => .ok []
  | .error a :: _ => .error (.invalid ("invalid requested IP: " ++ a))
  | .ok ip :: rest => do
    let ips ← requestedAddresses rest
    return ip :: ips

variable (db : Db) (vm : Id)

/-- One family of `allocate_one_nic`. -/
def allocateFamily (network : Network) (vm : Id) (nicIndex : Nat) (mac : Option String)
    (requested : List IpAddr) (v6 : Bool) : Except ApiError Db := do
  let subnet ← network.ipam.subnet v6
  match subnet with
  | none => return db
  | some subnet =>
    match requested.find? fun ip => ip.v6 == v6 with
    | some ip =>
      subnet.validate ip
      db.insertAllocation network.id ip v6 (some vm) nicIndex mac
    | none =>
      let ip ← subnet.nextFree ((db.allocationsForNetwork network.id).map IpAllocation.ip)
      db.insertAllocation network.id ip v6 (some vm) nicIndex mac

/-- `allocate_one_nic`; an address of the first family stays allocated when the second fails. -/
def allocateOneNic (nic : NetworkInterfaceSpec) (nicIndex : Nat) : Db × Except ApiError Unit :=
  match db.networks.get nic.networkId with
  | none => (db, .error (.invalid ("network not found: " ++ toString nic.networkId)))
  | some network =>
    if !network.isManaged then (db, .ok ())
    else
      match requestedAddresses nic.addresses with
      | .error e => (db, .error e)
      | .ok requested =>
        match allocateFamily db network vm nicIndex nic.mac requested false with
        | .error e => (db, .error e)
        | .ok db =>
          match allocateFamily db network vm nicIndex nic.mac requested true with
          | .error e => (db, .error e)
          | .ok db => (db, .ok ())

/-- `allocate_nic_ips`, from NIC `i` on -/
def allocateNicIps (db : Db) (vm : Id) : List NetworkInterfaceSpec → Nat → Db × Except ApiError Unit
  | [], _ => (db, .ok ())
  | nic :: nics, i =>
    match allocateOneNic db vm nic i with
    | (db, .error e) => (db, .error e)
    | (db, .ok ()) => allocateNicIps db vm nics (i + 1)

/-! ## What allocating writes -/

/-- Nothing but rows of `ip_allocations` for one VM has been added. -/
def AllocatesFor (db db' : Db) : Prop :=
  ∃ t, db' = { db with allocations := t } ∧ IdTable.Kept (fun _ => True) db.allocations t ∧
    IdTable.Same (fun a => a.vm != some vm) db.allocations t

namespace AllocatesFor

variable {vm : Id} {db db' db'' : Db}

theorem refl (vm : Id) (db : Db) : AllocatesFor vm db db :=
  ⟨db.allocations, rfl, IdTable.Kept.refl _ _, IdTable.Same.refl _ _⟩

theorem trans (h : AllocatesFor vm db db') (h' : AllocatesFor vm db' db'') :
    AllocatesFor vm db db'' := by
  obtain ⟨t, rfl, hk, hs⟩ := h
  obtain ⟨t', rfl, hk', hs'⟩ := h'
  exact ⟨t', rfl, hk.trans hk', hs.trans hs'⟩

theorem insertAllocation {network : Id} {ip : IpAddr} {v6 : Bool} {i : Nat} {mac : Option String}
    (h : db.insertAllocation network ip v6 (some vm) i mac = .ok db') : AllocatesFor vm db db' := by
  unfold Db.insertAllocation at h
  cases hok : (db.allocationsForNetwork network).all fun a => a.ip != ip with
  | false =>
    rw [hok] at h
    cases h
  | true =>
    rw [hok] at h
    cases h
    exact ⟨_, rfl, (IdTable.Kept.refl _ _).insert rfl, IdTable.Same.insert rfl (by simp)⟩

end AllocatesFor

theorem allocateFamily_allocatesFor {db db' : Db} {network : Network} {vm : Id} {i : Nat}
    {mac : Option String} {requested : List IpAddr} {v6 : Bool}
    (h : allocateFamily db network vm i mac requested v6 = .ok db') : AllocatesFor vm db db' := by
  obtain ⟨subnet, -, h⟩ := bind_eq_ok.mp h
  cases subnet with
  | none =>
    cases h
    exact .refl vm db
  | some subnet =>
    cases hreq : requested.find? fun ip => ip.v6 == v6 with
    | some ip =>
      simp only [hreq] at h
      obtain ⟨-, -, h⟩ := bind_eq_ok.mp h
      exact .insertAllocation h
    | none =>
      simp only [hreq] at h
      obtain ⟨ip, -, h⟩ := bind_eq_ok.mp h
      exact .insertAllocation h

theorem allocateOneNic_allocatesFor (nic : NetworkInterfaceSpec) (i : Nat) :
    AllocatesFor vm db (allocateOneNic db vm nic i).1 := by
  unfold allocateOneNic
  cases db.networks.get nic.networkId with
  | none => exact .refl vm db
  | some network =>
  simp only
  split
  · exact .refl vm db
  cases requestedAddresses nic.addresses with
  | error e => exact .refl vm db
  | ok requested =>
  simp only
  cases h4 : allocateFamily db network vm i nic.mac requested false with
  | error e => exact .refl vm db
  | ok db4 =>
  have hdb4 := allocateFamily_allocatesFor h4
  simp only
  cases h6 : allocateFamily db4 network vm i nic.mac requested true with
  | error e => exact hdb4
  | ok db6 => exact hdb4.trans (allocateFamily_allocatesFor h6)

theorem allocateNicIps_allocatesFor (nics : List NetworkInterfaceSpec) :
    ∀ (db : Db) (i : Nat), AllocatesFor vm db (allocateNicIps db vm nics i).1 := by
  induction nics with
  | nil =>
    intro db i
    exact .refl vm db
  | cons nic nics ih =>
    intro db i
    have hone := allocateOneNic_allocatesFor db vm nic i
    unfold allocateNicIps
    cases hr : allocateOneNic db vm nic i with
    | mk db1 r =>
      rw [hr] at hone
      cases r with
      | error e => exact hone
      | ok u => exact hone.trans (ih db1 (i + 1))

end VQuasar.Tenancy
