import Mathlib.Data.Nat.Digits.Defs
import Mathlib.Data.Option.Basic

/-!
# Hexadecimal

A byte as two lower-case digits (`byte`), and the two digits read back, in either case
(`readByte`); a number as so many digits (`digits`), read back from any number of them
(`readDigits`).
-/

namespace VQuasar.Hex

open List Option

def value (c : Char) : Option Nat :=
  if '0' ≤ c ∧ c ≤ '9' then some (c.toNat - 48)
  else if 'a' ≤ c ∧ c ≤ 'f' then some (c.toNat - 87)
  else if 'A' ≤ c ∧ c ≤ 'F' then some (c.toNat - 55)
  else none

/-- `{:02x}` -/
def byte (n : Nat) : List Char := [Nat.digitChar (n / 16 % 16), Nat.digitChar (n % 16)]

def readByte (a b : Char) : Option Nat := (value a).bind fun x => (value b).map fun y => 16 * x + y

theorem value_digitChar : ∀ d < 16, value (Nat.digitChar d) = some d := by decide

theorem readByte_byte {n : Nat} (h : n < 256) :
    readByte (Nat.digitChar (n / 16 % 16)) (Nat.digitChar (n % 16)) = some n := by
  have hhigh := value_digitChar (n / 16 % 16) (Nat.mod_lt _ (by omega))
  have hlow := value_digitChar (n % 16) (Nat.mod_lt _ (by omega))
  simp only [readByte, hhigh, hlow, bind_some, map_some, some.injEq]
  omega

/-- The last `k` digits, the first one first. -/
def digits : Nat → Nat → List Char
  | 0, _ => []
  | k + 1, n => Nat.digitChar (n / 16 ^ k % 16) :: digits k n

def readDigits : Nat → List Char → Option Nat
  | acc, [] => some acc
  | acc, c :: cs => (value c).bind fun d => readDigits (acc * 16 + d) cs

@[simp] theorem length_digits (k n : Nat) : (digits k n).length = k := by
  induction k with
  | zero => rfl
  | succ k ih => simp [digits, ih]

theorem mem_digits {k n : Nat} {c : Char} (h : c ∈ digits k n) : ∃ d < 16, c = Nat.digitChar d := by
  induction k with
  | zero => cases h
  | succ k ih =>
    rcases mem_cons.mp h with rfl | h
    · exact ⟨_, Nat.mod_lt _ (by omega), rfl⟩
    · exact ih h

theorem readDigits_digits (k n acc : Nat) :
    readDigits acc (digits k n) = some (acc * 16 ^ k + n % 16 ^ k) := by
  induction k generalizing acc with
  | zero => simp [digits, readDigits, Nat.mod_one]
  | succ k ih =>
    have hdigit := value_digitChar (n / 16 ^ k % 16) (Nat.mod_lt _ (by omega))
    simp only [digits, readDigits, hdigit, bind_some, ih, Nat.mod_pow_succ, some.injEq]
    ring

/-- The hyphen and the digits in lower case. -/
def lower : List Char := '-' :: (range 16).map Nat.digitChar

theorem digitChar_of_value {c : Char} {d : Nat} (hc : c ∈ lower) (h : value c = some d) :
    d < 16 ∧ c = Nat.digitChar d := by
  rcases mem_cons.mp hc with rfl | hc
  · cases h
  · obtain ⟨e, he, rfl⟩ := mem_map.mp hc
    cases (value_digitChar e (mem_range.mp he)).symm.trans h
    exact ⟨mem_range.mp he, rfl⟩

theorem digits_of_readDigits {acc n : Nat} {cs : List Char} (h : readDigits acc cs = some n)
    (hcs : cs.all lower.contains) : acc = n / 16 ^ cs.length ∧ cs = digits cs.length n := by
  induction cs generalizing acc with
  | nil => simpa [readDigits, digits] using h
  | cons c cs ih =>
    obtain ⟨hc, hcs⟩ := Bool.and_eq_true_iff.mp hcs
    obtain ⟨d, hd, h⟩ := bind_eq_some_iff.mp h
    obtain ⟨hlt, hchar⟩ := digitChar_of_value (contains_iff_mem.mp hc) hd
    obtain ⟨hacc, hrest⟩ := ih h hcs
    have hdigit : n / 16 ^ cs.length % 16 = d := by omega
    rw [length_cons, pow_succ, ← Nat.div_div_eq_div_mul, ← hacc, digits, hdigit, ← hrest, ← hchar]
    exact ⟨by omega, rfl⟩

end VQuasar.Hex
