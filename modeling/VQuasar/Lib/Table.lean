import Mathlib.Algebra.BigOperators.Group.List.Basic
import Mathlib.Algebra.Order.BigOperators.Group.List
import Mathlib.Data.List.Nodup
import Mathlib.Tactic.Abel

/-!
# Tables as lists of rows

`UPDATE` and `DELETE` with a predicate, and the sum of a weight over the rows.  Dropping rows of
non-negative weight lowers the sum (`total_le_of_sublist`), and updating the one row with a
given key changes it by the difference (`total_updateWhere`).
-/

namespace VQuasar.Table

open List Option

variable {α : Type*} {rows : List α} {p : α → Bool} {f : α → α} {r : α} {q : α → Bool}

/-- `UPDATE ... SET row = f row WHERE p row` -/
def updateWhere (p : α → Bool) (f : α → α) (rows : List α) : List α :=
  rows.map fun r => if p r then f r else r

/-- `DELETE ... WHERE p row` -/
def deleteWhere (p : α → Bool) (rows : List α) : List α := rows.filter fun r => !p r

theorem mem_deleteWhere : r ∈ deleteWhere p rows ↔ r ∈ rows ∧ p r = false := by
  simp [deleteWhere]

theorem mem_updateWhere :
    r ∈ updateWhere p f rows ↔ ∃ r0 ∈ rows, (if p r0 then f r0 else r0) = r := by
  simp [updateWhere]

theorem updateWhere_eq_self (h : ∀ r ∈ rows, p r = false) : updateWhere p f rows = rows := by
  unfold updateWhere
  conv_rhs => rw [← map_id rows]
  refine map_congr_left ?_
  intro r hr
  simp [h r hr]

theorem deleteWhere_sublist (p : α → Bool) (rows : List α) :
    (deleteWhere p rows).Sublist rows := filter_sublist

theorem map_updateWhere {β : Type*} {g : α → β} (h : ∀ r, g (f r) = g r) :
    (updateWhere p f rows).map g = rows.map g := by
  unfold updateWhere
  rw [List.map_map]
  refine List.map_congr_left ?_
  intro r _
  simp only [Function.comp_apply]
  split
  · exact h r
  · rfl

theorem filter_updateWhere (h : ∀ r, q (f r) = q r) :
    (updateWhere p f rows).filter q = updateWhere p f (rows.filter q) := by
  induction rows with
  | nil => rfl
  | cons r rows ih =>
    have hq : q (if p r then f r else r) = q r := by
      split
      · exact h r
      · rfl
    simp only [updateWhere, map_cons, filter_cons] at ih ⊢
    rw [hq]
    split
    · rw [ih]
      rfl
    · exact ih

theorem filter_updateWhere_eq (hq : ∀ r, q (f r) = q r)
    (h : ∀ r ∈ rows, q r → p r = false) : (updateWhere p f rows).filter q = rows.filter q := by
  rw [filter_updateWhere hq]
  refine updateWhere_eq_self fun r hr => ?_
  obtain ⟨hin, hqr⟩ := mem_filter.mp hr
  exact h r hin hqr

/-! ## Keys -/

section Keys

variable {β : Type*} {key : α → Nat} {n : Nat}

theorem keys_append (owner : α → β) (r : α) (hu : (rows.map key).Nodup)
    (hlt : ∀ r ∈ rows, key r < n) (hr : key r = n) :
    ((rows ++ [r]).map key).Nodup ∧ (∀ r' ∈ rows ++ [r], key r' < n + 1) ∧
      ∀ r' ∈ rows ++ [r], (∃ r₀ ∈ rows, key r₀ = key r' ∧ owner r₀ = owner r') ∨ n ≤ key r' := by
  refine ⟨?_, fun r' hr' => ?_, fun r' hr' => ?_⟩
  · rw [map_append]
    refine hu.append (nodup_singleton _) fun k hk hk' => ?_
    obtain ⟨r', hr', rfl⟩ := mem_map.mp hk
    have hlt' := hlt r' hr'
    have heq := mem_singleton.mp hk'
    omega
  · rcases mem_append.mp hr' with hr' | hr'
    · exact Nat.lt_succ_of_lt (hlt r' hr')
    · rw [mem_singleton.mp hr', hr]
      exact Nat.lt_succ_self n
  · rcases mem_append.mp hr' with hr' | hr'
    · exact .inl ⟨r', hr', rfl, rfl⟩
    · rw [mem_singleton.mp hr']
      exact .inr hr.ge

theorem keys_updateWhere (owner : α → β) (p : α → Bool) (f : α → α)
    (hf : ∀ r, key (f r) = key r ∧ owner (f r) = owner r)
    (hu : (rows.map key).Nodup) (hlt : ∀ r ∈ rows, key r < n) :
    ((updateWhere p f rows).map key).Nodup ∧ (∀ r' ∈ updateWhere p f rows, key r' < n) ∧
      ∀ r' ∈ updateWhere p f rows, ∃ r ∈ rows, key r = key r' ∧ owner r = owner r' := by
  have hrow : ∀ r' ∈ updateWhere p f rows, ∃ r ∈ rows, key r = key r' ∧ owner r = owner r' := by
    intro r' hr'
    obtain ⟨r, hr, rfl⟩ := mem_updateWhere.mp hr'
    refine ⟨r, hr, ?_⟩
    split
    · exact ⟨(hf r).1.symm, (hf r).2.symm⟩
    · exact ⟨rfl, rfl⟩
  refine ⟨?_, fun r' hr' => ?_, hrow⟩
  · rwa [map_updateWhere fun r => (hf r).1]
  · obtain ⟨r, hr, hk, -⟩ := hrow r' hr'
    exact hk ▸ hlt r hr

end Keys

/-! ## Sums over rows -/

section Total

variable {M : Type*} [AddCommGroup M]

/-- `SUM(w)` -/
def total (w : α → M) (rows : List α) : M := (rows.map w).sum

@[simp]
theorem total_nil (w : α → M) : total w [] = 0 := rfl

@[simp]
theorem total_cons (w : α → M) (r : α) (rows : List α) :
    total w (r :: rows) = w r + total w rows := rfl

@[simp]
theorem total_append (w : α → M) (rows rows' : List α) :
    total w (rows ++ rows') = total w rows + total w rows' := by
  simp [total]

@[simp]
theorem total_zero (rows : List α) : total (fun _ => (0 : M)) rows = 0 := by
  simp [total]

theorem total_one (rows : List α) : total (fun _ => (1 : Int)) rows = rows.length := by
  simp [total]

/-- An update of the row with a key changes the sum by what it changes that row. -/
theorem total_updateWhere {K : Type*} [DecidableEq K] {key : α → K} (hu : (rows.map key).Nodup)
    {r0 : α} (hr0 : r0 ∈ rows) (f : α → α) (w : α → M) :
    total w (updateWhere (fun r => key r == key r0) f rows) = total w rows + (w (f r0) - w r0) := by
  induction rows with
  | nil => cases hr0
  | cons r rows ih =>
    rw [map_cons, nodup_cons] at hu
    by_cases hk : key r = key r0
    · -- the head is the row; the tail holds no other with its key
      have hr : r = r0 := by
        rcases mem_cons.mp hr0 with h | h
        · exact h.symm
        · exact absurd (mem_map.mpr ⟨r0, h, hk.symm⟩) hu.1
      subst hr
      have htail : updateWhere (fun r' => key r' == key r) f rows = rows := by
        refine updateWhere_eq_self ?_
        intro r' hr'
        simp only [beq_eq_false_iff_ne]
        intro hc
        exact hu.1 (mem_map.mpr ⟨r', hr', hc⟩)
      have hcons : updateWhere (fun r' => key r' == key r) f (r :: rows) = f r :: rows := by
        show (if (key r == key r) = true then f r else r) ::
          updateWhere (fun r' => key r' == key r) f rows = _
        rw [htail, if_pos (by simp)]
      rw [hcons, total_cons, total_cons]
      abel
    · have hmem : r0 ∈ rows := by
        rcases mem_cons.mp hr0 with h | h
        · exact absurd (by rw [h]) hk
        · exact h
      have hcons : updateWhere (fun r' => key r' == key r0) f (r :: rows) =
          r :: updateWhere (fun r' => key r' == key r0) f rows := by
        show (if (key r == key r0) = true then f r else r) :: _ = _
        rw [if_neg (by simpa using hk)]
        rfl
      rw [hcons, total_cons, total_cons, ih hu.2 hmem]
      abel

theorem total_deleteWhere (c q : α → Bool) (w : α → M) (rows : List α) :
    total w ((deleteWhere c rows).filter q) =
      total w (rows.filter q) - total w (rows.filter fun r => q r && c r) := by
  induction rows with
  | nil => simp [deleteWhere]
  | cons r rows ih =>
    simp only [deleteWhere, List.filter_filter] at ih ⊢
    cases hc : c r <;> cases hq : q r <;> simp [hc, hq, ih]
    abel

variable [LinearOrder M] [IsOrderedAddMonoid M] {w : α → M}

theorem total_nonneg (h : ∀ r ∈ rows, 0 ≤ w r) : 0 ≤ total w rows := by
  refine sum_nonneg ?_
  intro x hx
  obtain ⟨r, hr, rfl⟩ := mem_map.mp hx
  exact h r hr

theorem total_le_of_sublist {rows' : List α} (hs : rows'.Sublist rows)
    (h : ∀ r ∈ rows, 0 ≤ w r) : total w rows' ≤ total w rows := by
  refine (hs.map w).sum_le_sum ?_
  intro x hx
  obtain ⟨r, hr, rfl⟩ := mem_map.mp hx
  exact h r hr

end Total

end VQuasar.Table
