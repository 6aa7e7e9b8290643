import VQuasar.Lib.Hex
import VQuasar.Tenancy.References
import VQuasar.Tenancy.Bindings
import VQuasar.Tenancy.Sizes

/-!
# Whose MAC it is

A NIC is sent to its agent with the MAC of its spec, or with one derived from the VM and the index
(`allocate_mac`).  Port security, addresses and discovery take that MAC for the identity of the NIC,
so it should be a unicast address, and no other NIC of the same segment should have it
(`MacsOwned`).  The derived ones are unicast and differ within a VM (`allocateMac_index`), but what
`create` is given in a spec is stored and sent as it is: `validate` does not look at it.  In every
run in which the MACs that a request brings are unicast and nobody else's (`macsFit`), the property
holds:

    Reach (step cfg) (fittingMacs uuid) Fresh db → MacsOwned cfg uuid db        (macs_owned)
-/

namespace VQuasar.Tenancy

open List Option

variable {m : NicMac} {vm : Vm} {spec : VirtualMachineSpec} {b : NetworkBinding} {i : Nat}

/-! ## MACs in text -/

/-- `mixed` in `allocate_mac` -/
def macSeed (vm : BitVec 128) (index : Nat) : BitVec 128 :=
  vm ^^^ (BitVec.ofNat 128 index * 0x9E3779B97F4A7C15F39CC0605CEDC835#128)

/-- The octets of `allocate_mac`: the locally administered `02`, then the five low bytes of the
seed. -/
def macOctets (seed : BitVec 128) : List Nat :=
  [2, seed.toNat % 256, seed.toNat / 256 % 256, seed.toNat / 65536 % 256,
    seed.toNat / 16777216 % 256, seed.toNat / 4294967296 % 256]

def macText : List Nat → List Char
  | [] => []
  | [x] => Hex.byte x
  | x :: xs => Hex.byte x ++ ':' :: macText xs

def allocateMac (vm : BitVec 128) (index : Nat) : String :=
  String.ofList (macText (macOctets (macSeed vm index)))

/-- The octets of a text: two digits each, between colons. -/
def readOctets : List Char → Option (List Nat)
  | [a, b] => (Hex.readByte a b).map fun x => [x]
  | a :: b :: ':' :: rest => (Hex.readByte a b).bind fun x => (readOctets rest).map (x :: ·)
  | _ => none

/-- The address that a text spells, if it is one. -/
def parseMac (text : String) : Option (List Nat) :=
  (readOctets text.toList).filter fun octets => octets.length == 6

/-- The address of one station: the group bit of the first octet is clear. -/
def unicast (octets : List Nat) : Bool := octets.head?.any fun x => x % 2 == 0

/-- What is sent as the MAC of a NIC; `uuid` are the ids as the rows were given them. -/
def Mac.text (uuid : Id → BitVec 128) : Mac → String
  | .given text => text
  | .allocated vm index => allocateMac (uuid vm) index

theorem readOctets_macText {octets : List Nat} (hne : octets ≠ []) (h : ∀ x ∈ octets, x < 256) :
    readOctets (macText octets) = some octets := by
  induction octets with
  | nil => exact absurd rfl hne
  | cons x xs ih =>
    have hx := Hex.readByte_byte (h x mem_cons_self)
    cases xs with
    | nil => simp only [macText, Hex.byte, readOctets, hx, map_some]
    | cons y ys =>
      have hrest := ih (cons_ne_nil y ys) fun z hz => h z (mem_cons_of_mem x hz)
      show readOctets (_ :: _ :: ':' :: macText (y :: ys)) = _
      simp only [readOctets, hx, hrest, bind_some, map_some]

theorem parseMac_allocateMac (vm : BitVec 128) (index : Nat) :
    parseMac (allocateMac vm index) = some (macOctets (macSeed vm index)) := by
  have hsmall : ∀ x ∈ macOctets (macSeed vm index), x < 256 := by
    intro x hx
    simp only [macOctets, mem_cons, not_mem_nil, or_false] at hx
    omega
  have hread := readOctets_macText (by simp [macOctets]) hsmall
  simp only [parseMac, allocateMac, String.toList_ofList, hread]
  rfl

theorem unicast_allocateMac (vm : BitVec 128) (index : Nat) :
    (parseMac (allocateMac vm index)).any unicast := by
  rw [parseMac_allocateMac]
  rfl

/-- The multiplier of the seed is odd, so it has an inverse among the numbers of 40 bits. -/
theorem seed_factor_inverse :
    (0x9E3779B97F4A7C15F39CC0605CEDC835#128).setWidth 40 * 0x1A988D4A1D#40 = 1#40 := by decide

theorem macOctets_inj {a b : BitVec 128} (h : macOctets a = macOctets b) :
    a.setWidth 40 = b.setWidth 40 := by
  simp only [macOctets, List.cons.injEq, true_and, and_true] at h
  apply BitVec.eq_of_toNat_eq
  simp only [BitVec.toNat_setWidth]
  omega

/-- **The NICs of one VM get different MACs.** -/
theorem allocateMac_index {vm : BitVec 128} {j : Nat} (hi : i < 2 ^ 40) (hj : j < 2 ^ 40)
    (h : parseMac (allocateMac vm i) = parseMac (allocateMac vm j)) : i = j := by
  rw [parseMac_allocateMac, parseMac_allocateMac, some.injEq] at h
  have hseed := macOctets_inj h
  simp only [macSeed, BitVec.setWidth_xor, BitVec.setWidth_mul _ _ (by decide : 40 ≤ 128),
    BitVec.xor_right_inj] at hseed
  have hindex := congrArg (· * 0x1A988D4A1D#40) hseed
  simp only [BitVec.mul_assoc, seed_factor_inverse, BitVec.mul_one] at hindex
  have hnat := congrArg BitVec.toNat hindex
  simp only [BitVec.toNat_setWidth, BitVec.toNat_ofNat] at hnat
  omega

/-! ## The property -/

/-- The segment that a binding attaches a NIC to: an overlay, or a VLAN of the host's bridge. -/
inductive L2
  | overlay (vni : Nat)
  | vlan (tag : Nat)
deriving DecidableEq, Repr

def NetworkBinding.l2 (b : NetworkBinding) : L2 := if b.vni ≠ 0 then .overlay b.vni else .vlan b.vlan

/-- NIC `index` of the VM is sent to some host with this binding. -/
def Sends (cfg : Config) (db : Db) (vm : Vm) (index : Nat) (b : NetworkBinding) : Prop :=
  ∃ underlay host bindings, resolveBindings cfg underlay db vm host = some bindings ∧
    bindings[index]? = some b

/-- Every MAC that is sent is a unicast address, and two NICs of a segment have different ones,
unless both were derived, for two VMs. -/
structure MacsOwned (cfg : Config) (uuid : Id → BitVec 128) (db : Db) : Prop where
  valid : ∀ vm ∈ db.vms, ∀ i b, Sends cfg db vm i b →
    (parseMac (b.mac.text uuid)).any unicast
  apart : ∀ vm ∈ db.vms, ∀ vm' ∈ db.vms, ∀ i j b b', Sends cfg db vm i b → Sends cfg db vm' j b' →
    (vm.id, i) ≠ (vm'.id, j) → b.l2 = b'.l2 →
    parseMac (b.mac.text uuid) = parseMac (b'.mac.text uuid) →
    vm.id ≠ vm'.id ∧ b.mac = .allocated vm.id i ∧ b'.mac = .allocated vm'.id j

/-! ## The MACs of the stored NICs -/

/-- A NIC, by the VM and the index, with its MAC. -/
structure NicMac where
  vm : Id
  index : Nat
  mac : Mac
deriving DecidableEq, Repr

def NetworkInterfaceSpec.macOf (nic : NetworkInterfaceSpec) (vm : Id) (index : Nat) : Mac :=
  (nic.mac.map Mac.given).getD (.allocated vm index)

def nicMacs (vm : Id) (nics : List NetworkInterfaceSpec) : List NicMac :=
  nics.zipIdx.map fun p => ⟨vm, p.2, p.1.macOf vm p.2⟩

def Db.nicMacs (db : Db) : List NicMac :=
  db.vms.rows.flatMap fun vm => Tenancy.nicMacs vm.id vm.spec.networkInterfaces

/-- The MACs that a request brings, with the NICs they are for. -/
def Db.freshMacs (db : Db) : Write → List NicMac
  | .createVm body => Tenancy.nicMacs db.vms.next body.spec.networkInterfaces
  | .createFromTemplate body =>
    Tenancy.nicMacs db.vms.next (oneNic (body.overrides.network.orElse fun _ =>
      (db.templates.get body.template).bind Template.network) body.overrides.securityGroups)
  | .createFromVolume body => Tenancy.nicMacs db.vms.next (oneNic body.network body.securityGroups)
  | .updateVm id body =>
    match db.vms.get id, body.addNic with
    | some vm, some _ =>
      [⟨id, vm.spec.networkInterfaces.length, .allocated id vm.spec.networkInterfaces.length⟩]
    | _, _ => []
  | _ => []

def Mac.derived : Mac → Bool
  | .given _ => false
  | .allocated .. => true

/-- Two NICs have one address, and it was not derived for both. -/
def NicMac.clashes (uuid : Id → BitVec 128) (m n : NicMac) : Bool :=
  (m.vm, m.index) != (n.vm, n.index) && !(m.mac.derived && n.mac.derived) &&
    parseMac (m.mac.text uuid) == parseMac (n.mac.text uuid)

/-- The MACs of a request are unicast, and not those of other NICs. -/
def macsFit (uuid : Id → BitVec 128) (db : Db) (w : Write) : Bool :=
  (db.freshMacs w).all fun m => (parseMac (m.mac.text uuid)).any unicast &&
    (db.nicMacs ++ db.freshMacs w).all fun n => !m.clashes uuid n

/-- The condition on a request, in the state before it. -/
def fittingMacs (uuid : Id → BitVec 128) (db : Db) : Action → Bool
  | .request _ _ w => macsFit uuid db w
  | _ => true

section

variable {cfg : Config} {db d d' : Db} {s : Scope} {u : AuthUser} {w : Write}

variable {nics : List NetworkInterfaceSpec} {p : Vm → Bool} {i : Nat}

theorem mem_nicMacs {vm : Id} : m ∈ nicMacs vm nics ↔ ∃ nic,
    nics[m.index]? = some nic ∧ m = ⟨vm, m.index, nic.macOf vm m.index⟩ := by
  simp only [nicMacs, List.mem_map, Prod.exists, List.mem_zipIdx_iff_getElem?]
  constructor
  · rintro ⟨nic, i, hnic, rfl⟩
    exact ⟨nic, hnic, rfl⟩
  · rintro ⟨nic, hnic, hm⟩
    exact ⟨nic, m.index, hnic, hm.symm⟩

theorem mem_dbNicMacs : m ∈ db.nicMacs ↔ ∃ vm ∈ db.vms, m ∈ nicMacs vm.id vm.spec.networkInterfaces
    := by
  simp only [Db.nicMacs, mem_flatMap, IdTable.mem_rows]

theorem nicMacs_congr {vm : Id} {nics' : List NetworkInterfaceSpec} (h : nics'.map
    NetworkInterfaceSpec.mac = nics.map NetworkInterfaceSpec.mac) (hm : m ∈ nicMacs vm nics') : m ∈
    nicMacs vm nics := by
  obtain ⟨nic', hnic', heq⟩ := mem_nicMacs.mp hm
  have hmac := congrArg (fun l => l[m.index]?) h
  simp only [List.getElem?_map, hnic', map_some] at hmac
  obtain ⟨nic, hnic, hsame⟩ := map_eq_some_iff.mp hmac.symm
  refine mem_nicMacs.mpr ⟨nic, hnic, ?_⟩
  rw [NetworkInterfaceSpec.macOf, hsame]
  exact heq

/-! ## What a request stores -/

theorem updateSpec_valid {body : UpdateVm} (h : updateSpec db vm body = .ok spec) :
    spec.networkInterfaces.length ≤ 16 := by
  obtain ⟨disks, -, h⟩ := bind_eq_ok.mp h
  obtain ⟨x, hvalid, ⟨⟩⟩ := of_bind_pure h
  exact (validate_ok hvalid).1

theorem length_oneNic (network : Option Id) (groups : List Id) :
    (oneNic network groups).length ≤ 16 := by
  cases network <;> simp [oneNic]

/-- A MAC that was there, or that the request brings for a NIC that is counted. -/
def MacFrom (db : Db) (w : Write) (m : NicMac) : Prop :=
  m ∈ db.nicMacs ∨ m ∈ db.freshMacs w ∧ m.index < 16

theorem launches_macs (hl : Launches cfg db s u w spec) : ∀ m ∈ nicMacs db.vms.next
    spec.networkInterfaces, m ∈ db.freshMacs w ∧ m.index < 16 := by
  have hcount : ∀ m ∈ nicMacs db.vms.next spec.networkInterfaces,
      m.index < spec.networkInterfaces.length := by
    intro m hm
    obtain ⟨nic, hnic, -⟩ := mem_nicMacs.mp hm
    exact (List.getElem?_eq_some_iff.mp hnic).1
  intro m hm
  cases hl with
  | create h =>
    obtain ⟨pool, dir, -, rfl, hvalid, -⟩ := createSpec_ok h
    exact ⟨hm, Nat.lt_of_lt_of_le (hcount m hm) ((validate_ok hvalid).1)⟩
  | fromTemplate h =>
    obtain ⟨t, image, pool, dir, -, ht, -, -, rfl⟩ := templateSpec_ok h
    refine ⟨?_, Nat.lt_of_lt_of_le (hcount m hm) (length_oneNic _ _)⟩
    simp only [Db.freshMacs, ht, bind_some]
    exact hm
  | fromVolume h =>
    obtain ⟨-, -, -, -, -, -, hnics⟩ := volumeSpec_ok h
    rw [hnics] at hm hcount
    exact ⟨hm, Nat.lt_of_lt_of_le (hcount m hm) (length_oneNic _ _)⟩

/-- The MACs of a VM whose spec is written: only `update` adds a NIC, and a moved NIC keeps its
MAC. -/
theorem respecs_macs (hvm : vm ∈ db.vms) (h : Respecs cfg db s w vm spec) : ∀ m ∈ nicMacs vm.id
    spec.networkInterfaces, MacFrom db w m := by
  have hold : ∀ m ∈ nicMacs vm.id vm.spec.networkInterfaces, MacFrom db w m :=
    fun m hm => Or.inl (mem_dbNicMacs.mpr ⟨vm, hvm, hm⟩)
  intro m hm
  cases h with
  | @update vm body spec hown h =>
    have hcount := updateSpec_valid h
    rw [updateSpec_nics h] at hm hcount
    obtain ⟨nic, hnic, heq⟩ := mem_nicMacs.mp hm
    have hlt := (List.getElem?_eq_some_iff.mp hnic).1
    by_cases hindex : m.index < vm.spec.networkInterfaces.length
    · rw [List.getElem?_append_left hindex] at hnic
      exact hold m (mem_nicMacs.mpr ⟨nic, hnic, heq⟩)
    rw [List.getElem?_append_right (Nat.le_of_not_lt hindex)] at hnic
    obtain ⟨n, hadd, rfl⟩ := mem_oneNic.mp (mem_of_getElem? hnic)
    refine Or.inr ⟨?_, Nat.lt_of_lt_of_le hlt hcount⟩
    rw [hadd, length_append] at hlt
    have hlast : m.index = vm.spec.networkInterfaces.length := by
      simp only [oneNic, length_singleton] at hlt
      omega
    have hget : db.vms.get vm.id = some vm := IdTable.get_eq_some.mpr ⟨hvm, rfl⟩
    simp only [Db.freshMacs, hget, hadd]
    rw [hlast] at heq
    exact mem_singleton.mpr heq
  | @nic vm index body nic hown hnet hgroups hnic =>
    obtain ⟨hlt, rfl⟩ := List.getElem?_eq_some_iff.mp hnic
    refine hold m (nicMacs_congr ?_ hm)
    have hlt' : index < (vm.spec.networkInterfaces.map NetworkInterfaceSpec.mac).length := by
      rwa [length_map]
    have hkept : (retarget body vm.spec.networkInterfaces[index]).mac =
        (vm.spec.networkInterfaces.map NetworkInterfaceSpec.mac)[index] := by
      rw [getElem_map]
      rfl
    rw [map_set, hkept, set_getElem_self]
  | start | stop | attach | detach => exact hold m hm

theorem nicMacs_update {f : Vm → Vm} (hm : m ∈ d'.nicMacs) (hrows : d'.vms.rows =
    Table.updateWhere p f d.vms.rows) (h : ∀ r, (f r).id = r.id ∧ (f r).spec = r.spec := by exact
    fun _ => ⟨rfl, rfl⟩) : m ∈ d.nicMacs := by
  obtain ⟨vm', hvm', hm⟩ := mem_dbNicMacs.mp hm
  obtain ⟨r, hr, rfl⟩ := IdTable.mem_updated hrows hvm'
  refine mem_dbNicMacs.mpr ⟨r, hr, ?_⟩
  split at hm
  · rwa [(h r).1, (h r).2] at hm
  · exact hm

theorem nicMacs_delete (hm : m ∈ Db.nicMacs { d with vms := d.vms.delete p }) : m ∈ d.nicMacs := by
  obtain ⟨vm, hvm, hm⟩ := mem_dbNicMacs.mp hm
  exact mem_dbNicMacs.mpr ⟨vm, (IdTable.mem_delete.mp hvm).1, hm⟩

theorem nicMacs_insert (hm : m ∈ d'.nicMacs) (hrows : d'.vms.rows = d.vms.rows ++ [vm]) : m ∈
    d.nicMacs ∨ m ∈ nicMacs vm.id vm.spec.networkInterfaces := by
  rw [Db.nicMacs, hrows, flatMap_append, flatMap_singleton, mem_append] at hm
  exact hm

theorem launch_macs (hl : Launches cfg db s u w spec) (name : String) (project : Id) : ∀ m ∈ (launch
    cfg db name spec project).1.nicMacs, MacFrom db w m := by
  rcases launch_cases cfg db name spec project with ⟨e, he⟩ | ⟨db₁, db₂, hins, halloc, hend⟩
  · rw [he]
    exact fun m hm => Or.inl hm
  have hrows : ∀ m ∈ db₁.nicMacs, MacFrom db w m := by
    rw [Db.insertVmWithId_ok hins]
    intro m hm
    rcases nicMacs_insert hm rfl with hold | hnew
    · exact Or.inl hold
    · exact Or.inr (launches_macs hl m hnew)
  obtain ⟨t, rfl, -, -⟩ := halloc
  rcases hend with ⟨e, he⟩ | he
  · rw [he]
    exact fun m hm => hrows m (nicMacs_delete hm)
  · rw [he]
    exact hrows

theorem step_macs (hw : ∀ spec, ¬ Launches cfg db s u w spec)
    (hd : ∀ m ∈ d.nicMacs, MacFrom db w m) (h : Step cfg s u w db d d') :
    ∀ m ∈ d'.nicMacs, MacFrom db w m := by
  intro m hm
  cases h with
  | insertVm hl => exact absurd hl (hw _)
  | removeVm hvm hl =>
    obtain ⟨spec, hl⟩ := hl
    exact absurd hl (hw spec)
  | @respec vm name spec hvm hres =>
    obtain ⟨vm', hvm', hm⟩ := mem_dbNicMacs.mp hm
    obtain ⟨r, hr, rfl⟩ := IdTable.mem_updated rfl hvm'
    by_cases hid : (r.id == vm.id) = true
    · rw [if_pos hid] at hm
      refine respecs_macs hvm hres m ?_
      rw [← eq_of_beq hid]
      exact hm
    · rw [if_neg hid] at hm
      exact hd m (mem_dbNicMacs.mpr ⟨r, hr, hm⟩)
  | phase | drainPhase | touch => exact hd m (nicMacs_update hm rfl)
  | _ => exact hd m hm

theorem steps_macs (hw : ∀ spec, ¬ Launches cfg db s u w spec) (h : Steps cfg s u w db db d) :
    ∀ m ∈ d.nicMacs, MacFrom db w m := by
  induction h with
  | refl => exact fun m hm => Or.inl hm
  | tail _ hstep ih => exact step_macs hw ih hstep

/-- A request: one that creates a VM stores one row, and any other launches nothing. -/
theorem perform_macs (cfg : Config) (s : Scope) (u : AuthUser) (db : Db) (w : Write) :
    ∀ m ∈ (w.perform cfg s u db).nicMacs, MacFrom db w m := by
  have hkept : ∀ m ∈ db.nicMacs, MacFrom db w m := fun m hm => Or.inl hm
  cases w with
  | createVm body =>
    refine attempt_induction (motive := fun d => ∀ m ∈ d.nicMacs, MacFrom db (.createVm body) m)
      hkept fun spec hspec => ?_
    have hlaunch := launch_macs (.create hspec) body.name s.owningProject
    cases hr : launch cfg db body.name spec s.owningProject with
    | mk db₁ r =>
      rw [hr] at hlaunch
      cases r with
      | error | ok => exact hlaunch
  | createFromTemplate body =>
    refine attempt_induction
      (motive := fun d => ∀ m ∈ d.nicMacs, MacFrom db (.createFromTemplate body) m)
      hkept fun spec hspec => ?_
    have hl : Launches cfg db s u (.createFromTemplate body) spec := .fromTemplate hspec
    have hlaunch := launch_macs hl body.name s.owningProject
    cases hr : launch cfg db body.name spec s.owningProject with
    | mk db₁ r =>
      rw [hr] at hlaunch
      cases r with
      | error | ok => exact hlaunch
  | createFromVolume body =>
    refine attempt_induction
      (motive := fun d => ∀ m ∈ d.nicMacs, MacFrom db (.createFromVolume body) m)
      hkept fun r hr => ?_
    have hlaunch := launch_macs (.fromVolume hr) body.name s.owningProject
    cases hr : launch cfg db body.name r.2 s.owningProject with
    | mk db₁ r =>
      rw [hr] at hlaunch
      cases r with
      | error | ok => exact hlaunch
  | _ =>
    refine steps_macs (fun spec hl => ?_) (perform_steps cfg s u db _)
    cases hl

/-! ## The invariant -/

/-- What is kept of the MACs of all NICs, on whatever segment. -/
structure MacsInv (uuid : Id → BitVec 128) (db : Db) : Prop where
  counted : ∀ m ∈ db.nicMacs, m.index < 16
  valid : ∀ m ∈ db.nicMacs, (parseMac (m.mac.text uuid)).any unicast
  apart : ∀ m ∈ db.nicMacs, ∀ n ∈ db.nicMacs, m.clashes uuid n = false

variable {uuid : Id → BitVec 128}

theorem NicMac.clashes_comm (m n : NicMac) : m.clashes uuid n = n.clashes uuid m := by
  simp only [NicMac.clashes, bne_comm (a := (m.vm, m.index)), Bool.and_comm m.mac.derived,
    BEq.comm (a := parseMac (m.mac.text uuid))]

theorem MacsInv.of_subset (hi : MacsInv uuid db) (h : ∀ m ∈ d.nicMacs, m ∈ db.nicMacs) :
    MacsInv uuid d where
  counted m hm := hi.counted m (h m hm)
  valid m hm := hi.valid m (h m hm)
  apart m hm n hn := hi.apart m (h m hm) n (h n hn)

theorem MacsInv.of_from (hi : MacsInv uuid db) (hfit : macsFit uuid db w)
    (h : ∀ m ∈ d.nicMacs, MacFrom db w m) : MacsInv uuid d := by
  have hfresh : ∀ m ∈ db.freshMacs w, (parseMac (m.mac.text uuid)).any unicast ∧
      ∀ n, MacFrom db w n → m.clashes uuid n = false := by
    intro m hm
    have hm' := List.all_eq_true.mp hfit m hm
    simp only [Bool.and_eq_true, List.all_eq_true, List.mem_append, Bool.not_eq_true'] at hm'
    refine ⟨hm'.1, fun n hn => hm'.2 n ?_⟩
    rcases hn with hold | hnew
    · exact Or.inl hold
    · exact Or.inr hnew.1
  constructor
  · intro m hm
    rcases h m hm with hold | hnew
    · exact hi.counted m hold
    · exact hnew.2
  · intro m hm
    rcases h m hm with hold | hnew
    · exact hi.valid m hold
    · exact (hfresh m hnew.1).1
  · intro m hm n hn
    rcases h m hm with hold | hnew
    · rcases h n hn with hold' | hnew'
      · exact hi.apart m hold n hold'
      · rw [NicMac.clashes_comm]
        exact (hfresh n hnew'.1).2 m (Or.inl hold)
    · exact (hfresh m hnew.1).2 n (h n hn)

theorem MacsInv.action {a : Action} (hi : MacsInv uuid db) (hok : fittingMacs uuid db a)
    (h : step cfg db a = some d) : MacsInv uuid d := by
  cases step_acts h with
  | request claims ref w =>
    obtain ⟨t, r, heq | ⟨s, u, heq⟩⟩ := handle_perform cfg db claims ref w
    · rw [heq]
      exact hi.of_subset fun m hm => hm
    -- the login is not seen by the condition
    have hlogin : MacsInv uuid { db with users := t, userRoles := r } :=
      hi.of_subset fun m hm => hm
    rw [heq]
    refine hlogin.of_from ?_ (perform_macs cfg s u _ w)
    cases w <;> exact hok
  | phoneHome | observe => exact hi.of_subset fun m hm => nicMacs_update hm rfl
  | unheard => exact hi
  | bootstrapSign | ready => exact hi.of_subset fun m hm => hm
  | reap => exact hi.of_subset fun m hm => nicMacs_delete hm

theorem macsInv_fresh (h : Fresh db) : MacsInv uuid db := by
  have hnone : db.nicMacs = [] := by
    rw [Db.nicMacs, h.1]
    rfl
  constructor <;> (rw [hnone]; exact fun m hm => nomatch hm)

/-! ## What is sent -/

theorem resolveNics_mac {underlay : Underlay} {host : Id} {k :
    Nat} {bs : List NetworkBinding} (h : resolveNics cfg underlay db vm host nics k = some bs) (hb :
    bs[i]? = some b) : ∃ nic, nics[i]? = some nic ∧ b.mac = nic.macOf vm.id (k + i) := by
  induction nics generalizing k i bs with
  | nil =>
    cases h
    simp at hb
  | cons nic nics ih =>
    obtain ⟨network, -, h⟩ := bind_eq_some_iff.mp h
    obtain ⟨rest, hrest, rfl⟩ := map_eq_some_iff.mp h
    cases i with
    | zero =>
      cases hb
      exact ⟨nic, rfl, rfl⟩
    | succ i =>
      obtain ⟨nic', hnic', hmac⟩ := ih hrest hb
      refine ⟨nic', hnic', ?_⟩
      rw [hmac]
      congr 1
      omega

theorem Sends.nic (h : Sends cfg db vm i b) : ∃ nic, vm.spec.networkInterfaces[i]? = some
    nic ∧ b.mac = nic.macOf vm.id i := by
  obtain ⟨underlay, host, bs, hbs, hb⟩ := h
  obtain ⟨nic, hnic, hmac⟩ := resolveNics_mac hbs hb
  rw [Nat.zero_add] at hmac
  exact ⟨nic, hnic, hmac⟩

theorem Sends.mem (h : Sends cfg db vm i b) (hvm : vm ∈ db.vms) : ⟨vm.id, i, b.mac⟩ ∈
    db.nicMacs := by
  obtain ⟨nic, hnic, hmac⟩ := h.nic
  exact mem_dbNicMacs.mpr ⟨vm, hvm, mem_nicMacs.mpr ⟨nic, hnic, by rw [hmac]⟩⟩

theorem mac_of_derived (hm : m ∈ db.nicMacs) (h : m.mac.derived) : m.mac = .allocated m.vm
    m.index := by
  obtain ⟨vm, -, hm⟩ := mem_dbNicMacs.mp hm
  obtain ⟨nic, -, heq⟩ := mem_nicMacs.mp hm
  rw [heq] at h ⊢
  simp only [NetworkInterfaceSpec.macOf] at h ⊢
  cases hmac : nic.mac with
  | none => rfl
  | some text =>
    rw [hmac] at h
    cases h

theorem MacsInv.owned (hi : MacsInv uuid db) : MacsOwned cfg uuid db := by
  constructor
  · intro vm hvm i b hb
    exact hi.valid _ (hb.mem hvm)
  · intro vm hvm vm' hvm' i j b b' hb hb' hne _ hsame
    have hm := hb.mem hvm
    have hm' := hb'.mem hvm'
    have hclash := hi.apart _ hm _ hm'
    simp only [NicMac.clashes, bne_iff_ne.mpr hne, hsame, Bool.true_and, beq_self_eq_true,
      Bool.and_true, Bool.not_eq_false', Bool.and_eq_true] at hclash
    have hmac : b.mac = .allocated vm.id i := mac_of_derived hm hclash.1
    have hmac' : b'.mac = .allocated vm'.id j := mac_of_derived hm' hclash.2
    refine ⟨fun hid => ?_, hmac, hmac'⟩
    -- within one VM the derived ones differ
    rw [hmac, hmac', ← hid] at hsame
    have hi16 : i < 16 := hi.counted _ hm
    have hj16 : j < 16 := hi.counted _ hm'
    have hij := allocateMac_index (by omega) (by omega) hsame
    exact hne (by rw [hid, hij])

end

/-! ## In every run -/

/-- **MAC ownership.**  In every run from a deployment without VMs and templates in which the MACs
that requests add are unicast and not those of other NICs unless both are derived, every MAC sent is
unicast, and two NICs of a segment share one only if it was derived for both. -/
theorem macs_owned (cfg : Config) (uuid : Id → BitVec 128) {db : Db}
    (h : Runs.Reach (step cfg) (fun db a => fittingMacs uuid db a = true) Fresh db) :
    MacsOwned cfg uuid db := by
  have hi : MacsInv uuid db :=
    Runs.Reach.invariant (fun _ => macsInv_fresh) (fun _ _ _ hi hok hs => hi.action hok hs) h
  exact hi.owned

def bob : Claims := ⟨"bob", "bob", none, none, []⟩

/-- A VM with NICs on the shared network, with these MACs. -/
def withMacs (macs : List (Option String)) : VirtualMachineSpec :=
  { sampleSpec with networkInterfaces := macs.map fun mac => ⟨1, mac, [], []⟩ }

/-- Alice's VM gets the MAC that is derived for it, and bob asks for these. -/
def macRun (macs : List (Option String)) : List Action :=
  [.request (some alice) (.id 2) (.createVm ⟨"web", withMacs [none]⟩),
    .request (some bob) (.id 3) (.createVm ⟨"other", withMacs macs⟩)]

/-- The ids in the order in which they are given out. -/
def countedIds (id : Id) : BitVec 128 := BitVec.ofNat 128 id

theorem macs_owned_own_mac :
    (Runs.final (step sampleCfg) sampleDb (macRun [some "02:00:00:00:00:07", none])).vms.rows.map
      (fun vm => vm.spec.networkInterfaces.length) = [1, 2] ∧ MacsOwned sampleCfg countedIds
      (Runs.final (step sampleCfg) sampleDb (macRun [some "02:00:00:00:00:07", none])) :=
  ⟨by decide, macs_owned sampleCfg countedIds (Runs.Reach.final (fun _ _ h => h) ⟨rfl, rfl⟩
    (by decide) (by decide))⟩

/-- What an agent of host 0 is sent for a NIC. -/
def sentAs (db : Db) (vm : Vm) (index : Nat) : List NetworkBinding :=
  ((resolveBindings sampleCfg ⟨some, true⟩ db vm 0).bind fun bindings => bindings[index]?).toList

theorem sends_of_sentAs {db : Db} (h : b ∈ sentAs db vm i) : Sends sampleCfg db vm i b :=
    by
  obtain ⟨bs, hbs, hb⟩ := bind_eq_some_iff.mp (mem_toList.mp h)
  exact ⟨_, _, bs, hbs, hb⟩

/-- **A caller takes the MAC of another project's NIC.**  `create` stores what the spec asks for: a
MAC that was derived for another VM on the shared network, and a text that is no address at all. -/
theorem mac_taken :
    ∃ db, Runs.Reach (step sampleCfg) Runs.anyStep Fresh db ∧ ¬ MacsOwned sampleCfg countedIds db ∧
      (∃ vm ∈ db.vms, ∃ vm' ∈ db.vms, ∃ b b', Sends sampleCfg db vm 0 b ∧
        Sends sampleCfg db vm' 0 b' ∧ vm.project ≠ vm'.project ∧ b.l2 = b'.l2 ∧
        b'.mac.derived = false ∧
        parseMac (b.mac.text countedIds) = parseMac (b'.mac.text countedIds)) ∧
      ∃ vm ∈ db.vms, ∃ b, Sends sampleCfg db vm 1 b ∧ parseMac (b.mac.text countedIds) = none := by
  let db := Runs.final (step sampleCfg) sampleDb (macRun [some "02:00:00:00:00:00", some "not a mac"])
  have hreach : Runs.Reach (step sampleCfg) Runs.anyStep Fresh db :=
    Runs.Reach.final_anyStep ⟨rfl, rfl⟩ (by decide)
  have hsame : ∃ vm ∈ db.vms.rows, ∃ vm' ∈ db.vms.rows, ∃ b ∈ sentAs db vm 0,
      ∃ b' ∈ sentAs db vm' 0, vm.project ≠ vm'.project ∧ b.l2 = b'.l2 ∧ b'.mac.derived = false ∧
        parseMac (b.mac.text countedIds) = parseMac (b'.mac.text countedIds) := by decide
  have hnone : ∃ vm ∈ db.vms.rows, ∃ b ∈ sentAs db vm 1,
      parseMac (b.mac.text countedIds) = none := by decide
  obtain ⟨vm, hvm, vm', hvm', b, hb, b', hb', hsame⟩ := hsame
  obtain ⟨vm₂, hvm₂, b₂, hb₂, hnone⟩ := hnone
  refine ⟨db, hreach, fun h => ?_,
    ⟨vm, hvm, vm', hvm', b, b', sends_of_sentAs hb, sends_of_sentAs hb', hsame⟩,
    ⟨vm₂, hvm₂, b₂, sends_of_sentAs hb₂, hnone⟩⟩
  have hvalid := h.valid vm₂ hvm₂ 1 b₂ (sends_of_sentAs hb₂)
  simp [hnone] at hvalid

end VQuasar.Tenancy
