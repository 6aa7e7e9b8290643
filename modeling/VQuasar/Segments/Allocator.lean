import Mathlib.Order.Bounds.Basic
import VQuasar.Tenancy.Store

/-!
# The next VNI

The loop of `allocate_vxlan` walks along the recorded values in their order and stops at the first gap.
What it comes to is the least value of the range that is not recorded (`isLeast_lowestFree`).
-/

namespace VQuasar.Segments

open Tenancy List Option

/-- The value `allocate_vxlan` takes, next to those that are taken. -/
def lowestFree (taken : List Nat) (start : Nat) : Nat :=
  Db.nextVni (taken.insertionSort (· ≤ ·)) start

theorem isLeast_nextVni (vs : List Nat) :
    ∀ next, vs.Pairwise (· ≤ ·) → IsLeast {v | next ≤ v ∧ v ∉ vs} (Db.nextVni vs next) := by
  induction vs with
  | nil =>
    intro next _
    exact ⟨⟨Nat.le_refl next, not_mem_nil⟩, fun v hv => hv.1⟩
  | cons v vs ih =>
    intro next hsorted
    obtain ⟨hle, hvs⟩ := pairwise_cons.mp hsorted
    unfold Db.nextVni
    by_cases hlt : v < next
    · -- a value below the range
      rw [if_pos hlt]
      obtain ⟨⟨hge, hnot⟩, hleast⟩ := ih next hvs
      refine ⟨⟨hge, ?_⟩, fun w hw => hleast ⟨hw.1, fun hmem => hw.2 (mem_cons_of_mem v hmem)⟩⟩
      rw [mem_cons]
      rintro (heq | hmem)
      · omega
      · exact hnot hmem
    · rw [if_neg hlt]
      by_cases heq : v = next
      · rw [if_pos heq]
        obtain ⟨⟨hge, hnot⟩, hleast⟩ := ih (next + 1) hvs
        refine ⟨⟨by omega, ?_⟩, ?_⟩
        · rw [mem_cons]
          rintro (h | hmem)
          · omega
          · exact hnot hmem
        · rintro w ⟨hw, hwnot⟩
          have hne : w ≠ v := fun h => hwnot (h ▸ mem_cons_self)
          exact hleast ⟨by omega, fun hmem => hwnot (mem_cons_of_mem v hmem)⟩
      · -- a gap before the value
        rw [if_neg heq]
        refine ⟨⟨Nat.le_refl next, ?_⟩, fun w hw => hw.1⟩
        rw [mem_cons]
        rintro (h | hmem)
        · omega
        · have := hle next hmem
          omega

section

variable (taken : List Nat) (start : Nat)
include taken start

/-- **The least value of the range that is not taken.** -/
theorem isLeast_lowestFree : IsLeast {v | start ≤ v ∧ v ∉ taken} (lowestFree taken start) := by
  have h := isLeast_nextVni _ start (pairwise_insertionSort (· ≤ ·) taken)
  unfold lowestFree
  simpa only [mem_insertionSort] using h

theorem lowestFree_not_mem : lowestFree taken start ∉ taken :=
  (isLeast_lowestFree taken start).1.2

theorem le_lowestFree : start ≤ lowestFree taken start :=
  (isLeast_lowestFree taken start).1.1

end

theorem lowestFree_le {taken : List Nat} {start v : Nat} (hv : start ≤ v) (hfree : v ∉ taken) :
    lowestFree taken start ≤ v :=
  (isLeast_lowestFree taken start).2 ⟨hv, hfree⟩

/-- **`allocate_vxlan`** records and returns the least VNI of the range that is not recorded, and the
range is exhausted exactly when all of it is. -/
theorem allocateVxlan_least (db : Db) (vniStart vniEnd : Nat) :
    (∀ vni db', db.allocateVxlan vniStart vniEnd = .ok (vni, db') ↔
      IsLeast {v | vniStart ≤ v ∧ v ∉ db.segments.map Segment.value} vni ∧ vni ≤ vniEnd ∧
        db' = { db with segments := db.segments ++ [⟨vni, .allocated, none⟩] }) ∧
    ((∃ text, db.allocateVxlan vniStart vniEnd = .error (.invalid text)) ↔
      ∀ v, vniStart ≤ v → v ≤ vniEnd → v ∈ db.segments.map Segment.value) := by
  have hleast := isLeast_lowestFree (db.segments.map Segment.value) vniStart
  unfold Db.allocateVxlan
  change IsLeast _ (Db.nextVni _ _) at hleast
  generalize Db.nextVni _ _ = next at hleast
  by_cases hend : next > vniEnd
  · simp only [if_pos hend, reduceCtorEq, false_iff]
    refine ⟨?_, fun _ v hv hle => ?_, fun _ => ⟨_, rfl⟩⟩
    · rintro vni db' ⟨hvni, hle, -⟩
      have := hvni.unique hleast
      omega
    · by_contra hfree
      have := hleast.2 ⟨hv, hfree⟩
      omega
  · simp only [if_neg hend, Except.ok.injEq, Prod.mk.injEq, reduceCtorEq, exists_false, false_iff]
    refine ⟨fun vni db' => ⟨?_, ?_⟩, fun hall => ?_⟩
    · rintro ⟨rfl, rfl⟩
      exact ⟨hleast, by omega, rfl⟩
    · rintro ⟨hvni, -, rfl⟩
      obtain rfl := hvni.unique hleast
      exact ⟨rfl, rfl⟩
    · exact hleast.1.2 (hall next hleast.1.1 (by omega))

end VQuasar.Segments
