import Mathlib.Data.Nat.Bitwise

/-!
# Masks of aligned blocks

In words of `w` bits, the mask `2 ^ w - 2 ^ k` keeps all but the low `k` bits.  Under it, the words
that agree with a multiple `a` of `2 ^ k` are those of the block `[a, a + 2 ^ k)`
(`and_blockMask_eq_iff`).
-/

namespace VQuasar.Masks

/-- The mask of `w` bits that clears the low `k`. -/
def blockMask (w k : Nat) : Nat := 2 ^ w - 2 ^ k

variable {w k : Nat}

theorem blockMask_eq_shiftLeft (hk : k ≤ w) : blockMask w k = (2 ^ (w - k) - 1) <<< k := by
  unfold blockMask
  rw [Nat.shiftLeft_eq, Nat.sub_mul, ← Nat.pow_add]
  congr 2 <;> omega

theorem and_blockMask {p : Nat} (hk : k ≤ w) (hp : p < 2 ^ w) :
    p &&& blockMask w k = p / 2 ^ k * 2 ^ k := by
  have hcut : p / 2 ^ k * 2 ^ k = (p >>> k) <<< k := by
    rw [Nat.shiftLeft_eq, Nat.shiftRight_eq_div_pow]
  rw [blockMask_eq_shiftLeft hk, hcut]
  apply Nat.eq_of_testBit_eq
  intro i
  rw [Nat.testBit_and, Nat.testBit_shiftLeft, Nat.testBit_shiftLeft, Nat.testBit_shiftRight,
    Nat.testBit_two_pow_sub_one]
  by_cases hi : k ≤ i
  · have hadd : k + (i - k) = i := by omega
    rw [hadd]
    by_cases hlt : i - k < w - k
    · simp [hi, hlt]
    -- beyond the word both sides are zero
    have hbit : p.testBit i = false := by
      apply Nat.testBit_lt_two_pow
      exact Nat.lt_of_lt_of_le hp (Nat.pow_le_pow_right (by omega) (by omega))
    simp [hbit]
  · simp [hi]

/-- The words of a block are those that agree with its start under the mask. -/
theorem and_blockMask_eq_iff {p a : Nat} (hk : k ≤ w) (hp : p < 2 ^ w) (ha : a < 2 ^ w)
    (hdvd : 2 ^ k ∣ a) : p &&& blockMask w k = a &&& blockMask w k ↔ a ≤ p ∧ p < a + 2 ^ k := by
  obtain ⟨c, rfl⟩ := hdvd
  have hpos : 0 < 2 ^ k := Nat.two_pow_pos k
  rw [and_blockMask hk hp, and_blockMask hk ha, Nat.mul_div_cancel_left c hpos]
  have hdm := Nat.div_add_mod p (2 ^ k)
  have hlt := Nat.mod_lt p hpos
  constructor
  · intro h
    have hq : 2 ^ k * (p / 2 ^ k) = 2 ^ k * c := by
      rw [Nat.mul_comm, h, Nat.mul_comm]
    omega
  · rintro ⟨h1, h2⟩
    have hq : p / 2 ^ k = c := by
      apply Nat.div_eq_of_lt_le
      · rwa [Nat.mul_comm]
      · rwa [Nat.add_mul, Nat.one_mul, Nat.mul_comm c]
    rw [hq]

end VQuasar.Masks
