import Mathlib.Data.List.Basic

/-!
# Requests in flight

Requests that are served at the same time sit in slots: a request keeps its slot while it is served,
and the slot is empty once it is done.  What every request in flight satisfies is kept step by step
with `All.add` and `All.put`, what any two of them satisfy with `Apart.add` and `Apart.put`.
-/

namespace VQuasar

open List Option

structure Slots (α : Type*) where
  cells : List (Option α)

namespace Slots

variable {α : Type*} {t : Slots α} {a b : α} {o : Option α} {i j : Nat}

def empty : Slots α := ⟨[]⟩

def get (t : Slots α) (i : Nat) : Option α := t.cells[i]?.join

/-- A new request gets a new slot. -/
def add (t : Slots α) (a : α) : Slots α := ⟨t.cells ++ [some a]⟩

/-- What is left of the request in slot `i`. -/
def put (t : Slots α) (i : Nat) (o : Option α) : Slots α := ⟨t.cells.set i o⟩

def all (t : Slots α) (p : α → Bool) : Bool := t.cells.all fun c => c.all p

def idle (t : Slots α) : Bool := t.all fun _ => false

theorem mem_cells {c : Option α} (hc : c ∈ t.cells) : ∃ i, t.get i = c := by
  obtain ⟨i, hi⟩ := mem_iff_getElem?.mp hc
  refine ⟨i, ?_⟩
  unfold get
  rw [hi]
  rfl

theorem get_mem (h : t.get i = some a) : some a ∈ t.cells := by
  unfold get at h
  cases hc : t.cells[i]? with
  | none => simp [hc] at h
  | some c =>
    rw [hc] at h
    exact mem_of_getElem? (hc.trans (congrArg some h))

theorem all_iff {p : α → Bool} : t.all p ↔ ∀ i a, t.get i = some a → p a := by
  unfold all
  rw [List.all_eq_true]
  constructor
  · intro h i a ha
    exact h (some a) (get_mem ha)
  · intro h c hc
    obtain ⟨i, rfl⟩ := mem_cells hc
    cases ha : t.get i with
    | none => rfl
    | some => exact h i _ ha

theorem get_idle (h : t.idle) (i : Nat) : t.get i = none := by
  cases ha : t.get i with
  | none => rfl
  | some a => exact absurd (all_iff.mp h i a ha) Bool.false_ne_true

theorem get_add : (t.add a).get j = if j = t.cells.length then some a else t.get j := by
  unfold get add
  split
  · next hj =>
    subst hj
    simp
  · next hj =>
    rcases Nat.lt_or_gt_of_ne hj with hlt | hgt
    · rw [List.getElem?_append_left hlt]
    · rw [List.getElem?_eq_none (by simp; omega), List.getElem?_eq_none (by omega)]

theorem get_length : t.get t.cells.length = none := by
  unfold get
  rw [List.getElem?_eq_none (Nat.le_refl _)]
  rfl

theorem get_add_of_get (hi : t.get i = some b) : (t.add a).get i = some b := by
  rw [get_add, if_neg, hi]
  rintro rfl
  simp [get_length] at hi

theorem get_put_self (hi : t.get i = some a) : (t.put i o).get i = o := by
  unfold get at hi
  unfold get put
  have hlt : i < t.cells.length := by
    by_contra hge
    rw [List.getElem?_eq_none (by omega)] at hi
    cases hi
  rw [List.getElem?_set_self hlt]
  rfl

theorem get_put_ne (hij : j ≠ i) : (t.put i o).get j = t.get j := by
  unfold get put
  rw [List.getElem?_set_ne (Ne.symm hij)]

/-! ## What holds of the requests in flight -/

def All (P : α → Prop) (t : Slots α) : Prop := ∀ i a, t.get i = some a → P a

/-- Any two requests in flight satisfy `R`. -/
def Apart (R : α → α → Prop) (t : Slots α) : Prop :=
  ∀ i j a b, i ≠ j → t.get i = some a → t.get j = some b → R a b

variable {P Q : α → Prop} {R : α → α → Prop}

theorem All.mono (h : All P t) (himp : ∀ a, P a → Q a) : All Q t :=
  fun i a ha => himp a (h i a ha)

theorem All.add (h : All P t) (ha : P a) : All P (t.add a) := by
  intro j b hb
  rw [get_add] at hb
  split at hb
  · exact some.inj hb ▸ ha
  · exact h j b hb

/-- A step that changes what the others have to satisfy as well. -/
theorem all_put (hi : t.get i = some a) (hrest : ∀ j b, j ≠ i → t.get j = some b → P b)
    (ho : ∀ b, o = some b → P b) : All P (t.put i o) := by
  intro j b hb
  by_cases hij : j = i
  · subst hij
    rw [get_put_self hi] at hb
    exact ho b hb
  · rw [get_put_ne hij] at hb
    exact hrest j b hij hb

theorem All.put (h : All P t) (hi : t.get i = some a) (ho : ∀ b, o = some b → P b) :
    All P (t.put i o) :=
  all_put hi (fun j b _ hb => h j b hb) ho

theorem Apart.add (hsymm : ∀ a b, R a b → R b a) (h : Apart R t)
    (ha : ∀ j b, t.get j = some b → R a b) : Apart R (t.add a) := by
  intro j k b c hjk hb hc
  rw [get_add] at hb hc
  by_cases hj : j = t.cells.length
  · rw [if_pos hj] at hb
    rw [if_neg fun hk => hjk (hj.trans hk.symm)] at hc
    exact some.inj hb ▸ ha k c hc
  · rw [if_neg hj] at hb
    by_cases hk : k = t.cells.length
    · rw [if_pos hk] at hc
      exact hsymm c b (some.inj hc ▸ ha j b hb)
    · rw [if_neg hk] at hc
      exact h j k b c hjk hb hc

theorem Apart.put (hsymm : ∀ a b, R a b → R b a) (h : Apart R t) (hi : t.get i = some a)
    (ho : ∀ c, o = some c → ∀ j b, j ≠ i → t.get j = some b → R c b) : Apart R (t.put i o) := by
  intro j k b c hjk hb hc
  by_cases hji : j = i
  · subst hji
    rw [get_put_self hi] at hb
    rw [get_put_ne (Ne.symm hjk)] at hc
    exact ho b hb k c (Ne.symm hjk) hc
  · rw [get_put_ne hji] at hb
    by_cases hki : k = i
    · subst hki
      rw [get_put_self hi] at hc
      exact hsymm c b (ho c hc j b hji hb)
    · rw [get_put_ne hki] at hc
      exact h j k b c hjk hb hc

end Slots

end VQuasar
