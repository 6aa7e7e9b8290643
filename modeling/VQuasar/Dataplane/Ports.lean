import VQuasar.Lib.Masks

/-!
# Port ranges as masked matches

Open vSwitch has no range match, so the agent cuts a range of ports into aligned blocks, each of them
a value and a mask (`port_masks`).  The blocks cover the range and nothing else
(`any_portMasks_iff`).  They grow until one no longer fits and shrink from there on, which bounds how
many there are (`length_ascending`, `length_descending`).
-/

namespace VQuasar.Dataplane

open Masks List

def trailingZeros : Nat → Nat → Nat
  | 0, _ => 0
  | width + 1, a => if a % 2 = 1 then 0 else trailingZeros width (a / 2) + 1

/-- The largest aligned block that starts at `a`, as a power of two. -/
def alignment (a : Nat) : Nat := if a = 0 then 16 else trailingZeros 32 a

/-- Halve the block until it ends at `b` or before. -/
def shrink (a b : Nat) : Nat → Nat
  | 0 => 0
  | k + 1 => if a + 2 ^ (k + 1) - 1 > b then shrink a b k else k + 1

def not32 (x : Nat) : Nat := 2 ^ 32 - 1 - x

/-- The loop of `port_masks` with `fuel` rounds left. -/
def portMasksFrom : Nat → Nat → Nat → List (Nat × Nat)
  | 0, _, _ => []
  | fuel + 1, a, b =>
    if a ≤ b then
      let size := 2 ^ shrink a b (alignment a)
      (a % 2 ^ 16, (0xFFFF &&& not32 (size - 1)) % 2 ^ 16) ::
        if a + size > 0xFFFF then [] else portMasksFrom fuel (a + size) b
    else []

/-- `port_masks`; a round takes up at least one port. -/
def portMasks (min max : Nat) : List (Nat × Nat) := portMasksFrom (max + 1 - min) min max

def maskHits (p : Nat) (vm : Nat × Nat) : Bool := p &&& vm.2 == vm.1 &&& vm.2

example : portMasks 22 22 = [(22, 0xFFFF)] := by decide

example : portMasks 1024 1027 = [(1024, 0xFFFC)] := by decide

/-! ## The blocks -/

theorem trailingZeros_le (width a : Nat) : trailingZeros width a ≤ width := by
  induction width generalizing a with
  | zero => exact Nat.le_refl 0
  | succ width ih =>
    unfold trailingZeros
    split
    · omega
    · exact Nat.succ_le_succ (ih _)

variable {t a b k : Nat}

theorem two_pow_dvd_iff {width : Nat} (ht : t ≤ width) : 2 ^ t ∣ a ↔ t ≤ trailingZeros width a := by
  induction t generalizing width a with
  | zero => simp
  | succ t ih =>
    obtain ⟨width, rfl⟩ := Nat.exists_eq_add_of_le' (by omega : 1 ≤ width)
    unfold trailingZeros
    by_cases hodd : a % 2 = 1
    · rw [if_pos hodd]
      refine ⟨fun h => ?_, by omega⟩
      have heven : 2 ∣ a := Nat.dvd_trans ⟨2 ^ t, Nat.pow_succ'⟩ h
      omega
    · obtain ⟨c, rfl⟩ : ∃ c, a = 2 * c := ⟨a / 2, by omega⟩
      rw [if_neg hodd, Nat.mul_div_cancel_left c (by omega), Nat.pow_succ',
        Nat.mul_dvd_mul_iff_left (by omega), ih (Nat.le_of_succ_le_succ ht), Nat.succ_le_succ_iff]

theorem two_pow_alignment_dvd (a : Nat) : 2 ^ alignment a ∣ a := by
  unfold alignment
  split
  · rename_i h
    simp [h]
  · exact (two_pow_dvd_iff (trailingZeros_le 32 a)).mpr (Nat.le_refl _)

theorem le_alignment (ht : t ≤ 16) (hdvd : 2 ^ t ∣ a) : t ≤ alignment a := by
  unfold alignment
  split
  · exact ht
  · exact (two_pow_dvd_iff (by omega)).mp hdvd

theorem alignment_lt (hpos : 0 < a) (ha : a < 2 ^ 16) : alignment a < 16 := by
  rw [← Nat.pow_lt_pow_iff_right (a := 2) (by omega)]
  exact Nat.lt_of_le_of_lt (Nat.le_of_dvd hpos (two_pow_alignment_dvd a)) ha

theorem shrink_le (a b k : Nat) : shrink a b k ≤ k := by
  induction k with
  | zero => exact Nat.le_refl 0
  | succ k ih =>
    unfold shrink
    split
    · omega
    · exact Nat.le_refl _

theorem shrink_fits (hab : a ≤ b) (k : Nat) : a + 2 ^ shrink a b k ≤ b + 1 := by
  induction k with
  | zero => simpa [shrink] using hab
  | succ k ih =>
    unfold shrink
    split
    · exact ih
    · omega

/-- A block that was halved is the largest that fits. -/
theorem lt_of_shrink_lt {j : Nat} (hlt : shrink a b k < j) (hle : j ≤ k) : b + 1 < a + 2 ^ j := by
  induction k with
  | zero => omega
  | succ k ih =>
    unfold shrink at hlt
    split at hlt
    · by_cases hj : j = k + 1
      · subst hj
        omega
      · exact ih hlt (by omega)
    · omega

theorem mask_eq (hk : k ≤ 16) : (0xFFFF &&& not32 (2 ^ k - 1)) % 2 ^ 16 = blockMask 16 k := by
  have hall : ∀ k < 17, (0xFFFF &&& not32 (2 ^ k - 1)) % 2 ^ 16 = blockMask 16 k := by decide
  exact hall k (by omega)

/-- The block the loop cuts off at `a`, as a power of two. -/
def block (a b : Nat) : Nat := shrink a b (alignment a)

theorem block_le (b : Nat) (ha : a < 2 ^ 16) : block a b ≤ 16 := by
  have hle := shrink_le a b (alignment a)
  by_cases h : a = 0
  · simpa [h, block, alignment] using hle
  · exact Nat.le_trans hle (Nat.le_of_lt (alignment_lt (by omega) ha))

theorem two_pow_block_dvd (a b : Nat) : 2 ^ block a b ∣ a :=
  Nat.dvd_trans (Nat.pow_dvd_pow 2 (shrink_le a b _)) (two_pow_alignment_dvd a)

theorem portMasksFrom_of_lt (hlt : b < a) (fuel : Nat) : portMasksFrom fuel a b = [] := by
  cases fuel with
  | zero => rfl
  | succ fuel => exact if_neg (by omega)

section

variable {b : Nat} (hb : b < 2 ^ 16) {a p : Nat}

include hb

theorem portMasksFrom_cons (hab : a ≤ b) (fuel : Nat) : portMasksFrom (fuel + 1) a b =
    (a, blockMask 16 (block a b)) :: portMasksFrom fuel (a + 2 ^ block a b) b := by
  have ha : a < 2 ^ 16 := by omega
  simp only [portMasksFrom, if_pos hab, Nat.mod_eq_of_lt ha]
  rw [← block, mask_eq (block_le b ha)]
  split
  · -- the block ends at the last port
    rw [portMasksFrom_of_lt (by omega)]
  · rfl

theorem any_portMasksFrom_iff (hp : p < 2 ^ 16) (fuel : Nat) : ∀ a, b + 1 - a ≤ fuel →
    ((portMasksFrom fuel a b).any (maskHits p) ↔ a ≤ p ∧ p ≤ b) := by
  induction fuel with
  | zero =>
    intro a hfuel
    simp only [portMasksFrom, any_nil, Bool.false_eq_true, false_iff]
    omega
  | succ fuel ih =>
    intro a hfuel
    by_cases hab : a ≤ b
    · have hpos := Nat.two_pow_pos (block a b)
      have hfits : a + 2 ^ block a b ≤ b + 1 := shrink_fits hab (alignment a)
      have ha : a < 2 ^ 16 := by omega
      rw [portMasksFrom_cons hb hab, any_cons, Bool.or_eq_true, ih _ (by omega), maskHits, beq_iff_eq,
        and_blockMask_eq_iff (block_le b ha) hp ha (two_pow_block_dvd a b)]
      omega
    · rw [portMasksFrom_of_lt (by omega)]
      simp only [any_nil, Bool.false_eq_true, false_iff]
      omega

/-- **The blocks of a range are the range.** -/
theorem any_portMasks_iff {min : Nat} (hp : p < 2 ^ 16) :
    (portMasks min b).any (maskHits p) ↔ min ≤ p ∧ p ≤ b :=
  any_portMasksFrom_iff hb hp _ min (Nat.le_refl _)

/-- The value of a block is in the block, and the blocks after it are beyond it. -/
theorem portMasksFrom_blocks (fuel : Nat) : ∀ a, b + 1 - a ≤ fuel →
    (∀ x ∈ portMasksFrom fuel a b, x.1 &&& x.2 = x.1) ∧
    (portMasksFrom fuel a b).Pairwise fun x y => ∀ p < 2 ^ 16, maskHits p x → ¬ maskHits p y := by
  induction fuel with
  | zero => exact fun _ _ => ⟨forall_mem_nil _, .nil⟩
  | succ fuel ih =>
    intro a hfuel
    by_cases hab : a ≤ b
    · have hpos := Nat.two_pow_pos (block a b)
      have ha : a < 2 ^ 16 := by omega
      have hk := block_le b ha
      obtain ⟨hvalues, hapart⟩ := ih (a + 2 ^ block a b) (by omega)
      rw [portMasksFrom_cons hb hab, forall_mem_cons, pairwise_cons]
      refine ⟨⟨?_, hvalues⟩, fun y hy p hp hx hyp => ?_, hapart⟩
      · rw [and_blockMask hk ha]
        exact Nat.div_mul_cancel (two_pow_block_dvd a b)
      · rw [maskHits, beq_iff_eq, and_blockMask_eq_iff hk hp ha (two_pow_block_dvd a b)] at hx
        have hbeyond := (any_portMasksFrom_iff hb hp fuel _ (by omega)).mp
          (any_eq_true.mpr ⟨y, hy, hyp⟩)
        omega
    · rw [portMasksFrom_of_lt (by omega)]
      exact ⟨forall_mem_nil _, .nil⟩

/-! ## How many blocks -/

/-- Once a block does not fit, the blocks get smaller. -/
theorem length_descending (fuel : Nat) : ∀ a k, k ≤ 16 → 2 ^ k ∣ a → b + 1 < a + 2 ^ k →
    (portMasksFrom fuel a b).length ≤ k := by
  induction fuel with
  | zero => exact fun _ _ _ _ _ => Nat.zero_le _
  | succ fuel ih =>
    intro a k hk hdvd hrest
    by_cases hab : a ≤ b
    · have hfits : a + 2 ^ block a b ≤ b + 1 := shrink_fits hab (alignment a)
      have hlt : block a b < k := by
        by_contra hge
        have := Nat.pow_le_pow_right (n := 2) (by omega) (Nat.not_lt.mp hge)
        omega
      have hnext := lt_of_shrink_lt (Nat.lt_succ_self (block a b))
        (Nat.le_trans hlt (le_alignment hk hdvd))
      rw [Nat.pow_succ] at hnext
      rw [portMasksFrom_cons hb hab, length_cons]
      exact Nat.le_trans (Nat.succ_le_succ (ih _ (block a b) (by omega)
        (Nat.dvd_add (two_pow_block_dvd a b) (Nat.dvd_refl _)) (by omega))) hlt
    · rw [portMasksFrom_of_lt (by omega)]
      exact Nat.zero_le _

omit hb in
theorem two_pow_dvd_next (hpos : 0 < a) (ha : a < 2 ^ 16) :
    2 ^ (alignment a + 1) ∣ a + 2 ^ alignment a := by
  obtain ⟨c, hc⟩ := two_pow_alignment_dvd a
  have hodd : c % 2 = 1 := by
    by_contra heven
    have hdvd : 2 ^ (alignment a + 1) ∣ a :=
      ⟨c / 2, by rw [Nat.pow_succ, Nat.mul_assoc, show 2 * (c / 2) = c by omega, ← hc]⟩
    have := le_alignment (alignment_lt hpos ha) hdvd
    omega
  refine ⟨(c + 1) / 2, ?_⟩
  rw [Nat.pow_succ, Nat.mul_assoc, show 2 * ((c + 1) / 2) = c + 1 by omega, Nat.mul_add, ← hc,
    Nat.mul_one]

/-- Up to there each block starts at a larger alignment than the one before. -/
theorem length_ascending (fuel : Nat) : ∀ a t, 0 < a → a < 2 ^ 16 → t ≤ alignment a →
    (portMasksFrom fuel a b).length ≤ 30 - t := by
  induction fuel with
  | zero => exact fun _ _ _ _ _ => Nat.zero_le _
  | succ fuel ih =>
    intro a t hpos ha ht
    have hlt := alignment_lt hpos ha
    have hdvd := two_pow_alignment_dvd a
    by_cases hrest : b + 1 < a + 2 ^ alignment a
    · have := length_descending hb (fuel + 1) a _ (by omega) hdvd hrest
      omega
    have hfull : block a b = alignment a := by
      by_contra hne
      exact hrest (lt_of_shrink_lt (Nat.lt_of_le_of_ne (shrink_le a b _) hne) (Nat.le_refl _))
    have hpow := Nat.two_pow_pos (alignment a)
    rw [portMasksFrom_cons hb (by omega), hfull, length_cons]
    by_cases hend : b < a + 2 ^ alignment a
    · rw [portMasksFrom_of_lt hend, length_nil]
      omega
    · have hnext := le_alignment hlt (two_pow_dvd_next hpos ha)
      have := ih _ _ (by omega) (by omega) hnext
      omega

theorem length_portMasks (min : Nat) (hle : min ≤ b) : (portMasks min b).length ≤ 30 := by
  by_cases hmin : min = 0
  · subst hmin
    by_cases hall : b = 2 ^ 16 - 1
    · subst hall
      decide
    · exact Nat.le_trans (length_descending hb _ 0 16 (by omega) (Nat.dvd_zero _) (by omega))
        (by omega)
  · exact length_ascending hb _ min 0 (by omega) (by omega) (Nat.zero_le _)

/-! ## The loop in `u32` -/

/-- The loop as the agent's arithmetic runs it, with no result where a sum leaves `u32` or the rounds
run out. -/
def portMasksChecked : Nat → Nat → Nat → Option (List (Nat × Nat))
  | 0, _, _ => none
  | fuel + 1, a, b =>
    if a ≤ b then
      if a + 2 ^ alignment a ≥ 2 ^ 32 then none
      else
        let size := 2 ^ shrink a b (alignment a)
        ((a % 2 ^ 16, (0xFFFF &&& not32 (size - 1)) % 2 ^ 16) :: ·) <$>
          if a + size > 0xFFFF then some [] else portMasksChecked fuel (a + size) b
    else some []

theorem portMasksChecked_eq (fuel : Nat) : ∀ a, b + 1 - a ≤ fuel →
    portMasksChecked (fuel + 1) a b = some (portMasksFrom fuel a b) := by
  induction fuel with
  | zero =>
    intro a hfuel
    exact if_neg (by omega)
  | succ fuel ih =>
    intro a hfuel
    unfold portMasksChecked portMasksFrom
    by_cases hab : a ≤ b
    · have halign : 2 ^ alignment a ≤ 2 ^ 16 := by
        refine Nat.pow_le_pow_right (by omega) ?_
        by_cases h : a = 0
        · simp [h, alignment]
        · exact Nat.le_of_lt (alignment_lt (by omega) (by omega))
      rw [if_pos hab, if_pos hab, if_neg (by omega)]
      dsimp only
      split
      · rfl
      · rw [ih _ (by have := Nat.two_pow_pos (shrink a b (alignment a)); omega)]
        rfl
    · rw [if_neg hab, if_neg hab]

end

/-- **`port_masks` cuts a range exactly**: it returns with no overflow, its blocks are apart, the ports
they match are those of the range, and there are at most 30 of them. -/
theorem portMasks_exact {min max : Nat} (hle : min ≤ max) (hmax : max < 2 ^ 16) :
    (∃ fuel, portMasksChecked fuel min max = some (portMasks min max)) ∧
    (portMasks min max).Pairwise
      (fun x y => ∀ p < 2 ^ 16, ¬ (p &&& x.2 = x.1 ∧ p &&& y.2 = y.1)) ∧
    (∀ p < 2 ^ 16, (∃ x ∈ portMasks min max, p &&& x.2 = x.1) ↔ min ≤ p ∧ p ≤ max) ∧
    (portMasks min max).length ≤ 30 := by
  obtain ⟨hvalues, hapart⟩ := portMasksFrom_blocks hmax _ min (Nat.le_refl _)
  have hhits : ∀ p, ∀ x ∈ portMasks min max, p &&& x.2 = x.1 ↔ maskHits p x := fun p x hx => by
    rw [maskHits, hvalues x hx, beq_iff_eq]
  refine ⟨⟨_, portMasksChecked_eq hmax _ min (Nat.le_refl _)⟩, ?_, fun p hp => ?_,
    length_portMasks hmax min hle⟩
  · refine hapart.imp_of_mem fun hx hy hxy p hp hboth => ?_
    exact hxy p hp ((hhits p _ hx).mp hboth.1) ((hhits p _ hy).mp hboth.2)
  · rw [← any_portMasks_iff hmax hp, any_eq_true]
    exact exists_congr fun x => and_congr_right (hhits p x)

theorem portMasks_exact_web : (8080 ≤ 8090 ∧ 8090 < 2 ^ 16) ∧ (portMasks 8080 8090).length ≤ 30 :=
  ⟨by decide, (portMasks_exact (by decide) (by decide)).2.2.2⟩

end VQuasar.Dataplane
