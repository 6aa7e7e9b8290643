import Mathlib.Order.Basic

/-!
# A metered account

An account has a usage and possibly a limit.  What may happen to it is a release, a charge that
fits under the limit, and a limit that is raised or lifted; none of them takes the usage over the
limit (`Account.Step.within`).
-/

namespace VQuasar.Ledger

variable {M : Type*} [Preorder M]

/-- A usage and its limit; `none` is unlimited. -/
structure Account (M : Type*) where
  usage : M
  limit : Option M

def Account.Within (a : Account M) : Prop := ∀ n, a.limit = some n → a.usage ≤ n

/-- A limit `l'` that is at least `l` wherever it limits. -/
def NotLowered (l l' : Option M) : Prop := ∀ n', l' = some n' → ∃ n, l = some n ∧ n ≤ n'

theorem NotLowered.refl (l : Option M) : NotLowered l l := fun n h => ⟨n, h, le_rfl⟩

theorem NotLowered.trans {l l' l'' : Option M} (h : NotLowered l l') (h' : NotLowered l' l'') :
    NotLowered l l'' := by
  intro n'' hn''
  obtain ⟨n', hn', hle'⟩ := h' n'' hn''
  obtain ⟨n, hn, hle⟩ := h n' hn'
  exact ⟨n, hn, le_trans hle hle'⟩

/-- What may happen to an account. -/
inductive Account.Step [Add M] : Account M → Account M → Prop
  | release {a a' : Account M} : a'.usage ≤ a.usage → NotLowered a.limit a'.limit → Step a a'
  | charge {a : Account M} (k : M) :
      (∀ n, a.limit = some n → a.usage + k ≤ n) → Step a ⟨a.usage + k, a.limit⟩

/-- No step takes an account over its limit. -/
theorem Account.Step.within [Add M] {a a' : Account M} (hs : a.Step a') (h : a.Within) : a'.Within := by
  cases hs with
  | release hle hlim =>
    intro n' hn'
    obtain ⟨n, hn, hnn⟩ := hlim n' hn'
    exact le_trans (le_trans hle (h n hn)) hnn
  | charge k hk =>
    intro n hn
    exact hk n hn

end VQuasar.Ledger
