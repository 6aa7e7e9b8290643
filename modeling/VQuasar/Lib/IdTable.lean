import VQuasar.Lib.Table

/-!
# Tables with generated ids

A table whose rows carry an id that the table itself hands out: no two rows share one
(`IdTable.eq_of_id`), and an id is never given out again after its row is gone.  Three relations
between the table before and after a statement carry the frame arguments:

    Kept F t t'        every row that satisfies F is still there, unchanged
    Same q t t'        the rows that satisfy q are the same rows in the same order
    Descends own t t'  a row under an old id has the owner it had

An `INSERT`, `UPDATE` or `DELETE` keeps what it does not hit (`Kept.update`, `Kept.delete`,
`Same.delete`, `Same.insert`), and owners stay when no `UPDATE` writes them
(`Descends.update`).
-/

namespace VQuasar

open Table List Option

/-- Rows that carry an id. -/
class HasId (α : Type*) where
  id : α → Nat

structure IdTable (α : Type*) [HasId α] where
  rows : List α
  /-- the id of the next row -/
  next : Nat
  lt_next : ∀ r ∈ rows, HasId.id r < next
  nodup : (rows.map HasId.id).Nodup

namespace IdTable

variable {α : Type*} [HasId α]

instance : Membership α (IdTable α) := ⟨fun t r => r ∈ t.rows⟩

theorem mem_rows {t : IdTable α} {r : α} : r ∈ t.rows ↔ r ∈ t := Iff.rfl

instance [DecidableEq α] (r : α) (t : IdTable α) : Decidable (r ∈ t) :=
  inferInstanceAs (Decidable (r ∈ t.rows))

def empty : IdTable α := ⟨[], 0, by simp, by simp⟩

/-- `INSERT`, with the next id -/
def insert (t : IdTable α) (mk : Nat → α) (hmk : ∀ i, HasId.id (mk i) = i) : IdTable α where
  rows := t.rows ++ [mk t.next]
  next := t.next + 1
  lt_next := by
    intro r hr
    rcases mem_append.mp hr with h | h
    · exact Nat.lt_succ_of_lt (t.lt_next r h)
    · rw [mem_singleton.mp h, hmk]
      exact Nat.lt_succ_self _
  nodup := by
    rw [map_append, nodup_append]
    refine ⟨t.nodup, by simp, ?_⟩
    intro i hi j hj hij
    obtain ⟨r, hr, rfl⟩ := mem_map.mp hi
    have hlt := t.lt_next r hr
    rw [map_singleton, mem_singleton, hmk] at hj
    omega

/-- `UPDATE`, of columns other than the id -/
def update (t : IdTable α) (p : α → Bool) (f : α → α) (hf : ∀ r, HasId.id (f r) = HasId.id r) :
    IdTable α where
  rows := updateWhere p f t.rows
  next := t.next
  lt_next := by
    intro r hr
    obtain ⟨r0, h0, rfl⟩ := mem_updateWhere.mp hr
    split
    · rw [hf]
      exact t.lt_next r0 h0
    · exact t.lt_next r0 h0
  nodup := by
    rw [map_updateWhere hf]
    exact t.nodup

def delete (t : IdTable α) (p : α → Bool) : IdTable α where
  rows := deleteWhere p t.rows
  next := t.next
  lt_next := fun r hr => t.lt_next r (mem_deleteWhere.mp hr).1
  nodup := t.nodup.sublist ((deleteWhere_sublist p t.rows).map _)

def get (t : IdTable α) (i : Nat) : Option α := t.rows.find? fun r => HasId.id r == i

/-! ## Reading -/

variable {t t' t'' : IdTable α} {r : α} {i : Nat} {p : α → Bool} {f : α → α} {mk : Nat → α}

theorem mem_insert {hmk : ∀ i, HasId.id (mk i) = i} : r ∈ t.insert mk hmk ↔ r ∈ t ∨ r
    = mk t.next := by
  rw [← mem_rows]
  simp [insert, mem_rows]

theorem mem_update {hf : ∀ r, HasId.id (f r) = HasId.id r} : r ∈ t.update p f hf ↔ ∃ r0 ∈ t, (if p
    r0 then f r0 else r0) = r :=
  mem_updateWhere

/-- A row after an `UPDATE`, for a table that is known by its rows. -/
theorem mem_updated (hrows : t'.rows = updateWhere p f t.rows) (hr : r ∈ t') : ∃ r0 ∈ t, (if p r0
    then f r0 else r0) = r := by
  rw [← mem_rows, hrows] at hr
  exact mem_updateWhere.mp hr

theorem mem_delete : r ∈ t.delete p ↔ r ∈ t ∧ p r = false :=
  mem_deleteWhere

theorem eq_of_id {a b : α} (ha : a ∈ t) (hb : b ∈ t) (h : HasId.id a = HasId.id b) : a = b :=
  inj_on_of_nodup_map t.nodup ha hb h

theorem id_lt (h : r ∈ t) : HasId.id r < t.next := t.lt_next r h

theorem get_eq_some : t.get i = some r ↔ r ∈ t ∧ HasId.id r = i := by
  constructor
  · intro h
    exact ⟨mem_of_find?_eq_some h, by simpa using List.find?_some h⟩
  · rintro ⟨hr, hi⟩
    cases h : t.get i with
    | none =>
      have hn := List.find?_eq_none.mp h r hr
      simp [hi] at hn
    | some r' =>
      have hr' : r' ∈ t := mem_of_find?_eq_some h
      have hi' : HasId.id r' = i := by simpa using List.find?_some h
      rw [eq_of_id hr' hr (hi'.trans hi.symm)]

theorem get_any : (t.get i).any p ↔ ∃ r ∈ t, HasId.id r = i ∧ p r := by
  constructor
  · intro h
    cases hg : t.get i with
    | none => simp [hg] at h
    | some r =>
      rw [hg] at h
      obtain ⟨hr, hi⟩ := get_eq_some.mp hg
      exact ⟨r, hr, hi, h⟩
  · rintro ⟨r, hr, hi, hp⟩
    rwa [get_eq_some.mpr ⟨hr, hi⟩]

theorem get_update {hf : ∀ r, HasId.id (f r) = HasId.id r} (i : Nat) : (t.update p f hf).get i =
    (t.get i).map fun r => if p r then f r else r := by
  show (updateWhere p f t.rows).find? _ = (t.rows.find? _).map _
  unfold updateWhere
  rw [List.find?_map]
  congr 2
  funext r
  show (HasId.id (if p r then f r else r) == i) = (HasId.id r == i)
  split
  · rw [hf]
  · rfl

theorem map_get_update {β : Type*} {g : α → β} (h : ∀ r ∈ t, HasId.id r = i → p r → g (f r) =
    g r) (hf : ∀ r, HasId.id (f r) = HasId.id r := by exact fun _ => rfl) : ((t.update p f hf).get
    i).map g = (t.get i).map g := by
  rw [get_update, Option.map_map]
  refine Option.map_congr fun r hr => ?_
  obtain ⟨hmem, hid⟩ := get_eq_some.mp hr
  show g (if p r then f r else r) = g r
  split
  · exact h r hmem hid ‹_›
  · rfl

theorem get_insert_of_ne {hmk : ∀ i, HasId.id (mk i) = i} (hi : i ≠ t.next) :
    (t.insert mk hmk).get i = t.get i := by
  refine Option.ext fun r => ?_
  simp only [get_eq_some, mem_insert]
  constructor
  · rintro ⟨hold | rfl, hid⟩
    · exact ⟨hold, hid⟩
    · rw [hmk] at hid
      exact absurd hid.symm hi
  · rintro ⟨hold, hid⟩
    exact ⟨Or.inl hold, hid⟩

theorem get_insert_of_lt {hmk : ∀ i, HasId.id (mk i) = i} (hi : i < t.next) :
    (t.insert mk hmk).get i = t.get i :=
  get_insert_of_ne (Nat.ne_of_lt hi)

theorem get_delete (h : ∀ r ∈ t, HasId.id r = i → p r = false) : (t.delete p).get i = t.get i := by
  refine Option.ext fun r => ?_
  simp only [get_eq_some, mem_delete]
  constructor
  · rintro ⟨⟨hr, -⟩, hid⟩
    exact ⟨hr, hid⟩
  · rintro ⟨hr, hid⟩
    exact ⟨⟨hr, h r hr hid⟩, hid⟩

theorem filter_id (t : IdTable α) (i : Nat) :
    t.rows.filter (fun r => HasId.id r == i) = (t.get i).toList := by
  have hrows : ∀ rows : List α, (rows.map HasId.id).Nodup →
      rows.filter (fun r => HasId.id r == i) = (rows.find? fun r => HasId.id r == i).toList := by
    intro rows
    induction rows with
    | nil => intro _; rfl
    | cons r rows ih =>
      intro hnodup
      obtain ⟨hr, hrest⟩ := nodup_cons.mp hnodup
      by_cases hid : HasId.id r = i
      · have hnone : rows.filter (fun r => HasId.id r == i) = [] := by
          rw [filter_eq_nil_iff]
          intro r' hr' hid'
          exact hr (hid ▸ eq_of_beq hid' ▸ mem_map_of_mem hr')
        simp [hid, hnone]
      · simp [hid, ih hrest]
  exact hrows t.rows t.nodup

/-! ## Rows that are left alone -/

/-- Every row that satisfies `F` is still there, unchanged. -/
def Kept (F : α → Prop) (t t' : IdTable α) : Prop := ∀ r ∈ t, F r → r ∈ t'

namespace Kept

variable {F : α → Prop}

theorem refl (F : α → Prop) (t : IdTable α) : Kept F t t := fun _ h _ => h

theorem trans (h : Kept F t t') (h' : Kept F t' t'') : Kept F t t'' :=
  fun r hr hF => h' r (h r hr hF) hF

theorem insert (h : Kept F t t') (hrows : t''.rows = t'.rows ++ [r]) : Kept F t t'' := by
  intro r' hr' hF
  rw [← mem_rows, hrows]
  exact mem_append_left _ (h r' hr' hF)

theorem update (h : Kept F t t') (hp : ∀ r ∈ t, F r → p r → f r = r) (hf : ∀ r, HasId.id (f
    r) = HasId.id r := by exact fun _ => rfl) : Kept F t (t'.update p f hf) := by
  intro r hr hF
  refine mem_update.mpr ⟨r, h r hr hF, ?_⟩
  split
  · exact hp r hr hF ‹_›
  · rfl

theorem delete (h : Kept F t t') (hp : ∀ r ∈ t, F r → p r ≠ true) : Kept F t (t'.delete p) := by
  intro r hr hF
  exact mem_delete.mpr ⟨h r hr hF, by simpa using hp r hr hF⟩

end Kept

/-- The rows that satisfy `q` are the same, in the same order. -/
def Same (q : α → Bool) (t t' : IdTable α) : Prop := t'.rows.filter q = t.rows.filter q

namespace Same

variable {q : α → Bool}

theorem refl (q : α → Bool) (t : IdTable α) : Same q t t := rfl

theorem rows (h : Same q t t') : t'.rows.filter q = t.rows.filter q := h

theorem trans (h : Same q t t') (h' : Same q t' t'') : Same q t t'' := by
  unfold Same at *
  rw [h', h]

theorem insert (hrows : t'.rows = t.rows ++ [r]) (h : q r = false) : Same q t t' := by
  unfold Same
  rw [hrows, filter_append, filter_singleton, h]
  simp

theorem delete (h : ∀ r ∈ t, p r → q r = false) : Same q t (t.delete p) := by
  show (deleteWhere p t.rows).filter q = t.rows.filter q
  unfold deleteWhere
  rw [List.filter_filter]
  refine List.filter_congr ?_
  intro r hr
  cases hp : p r with
  | false => simp
  | true => simp [h r hr hp]

section

variable (h : Same q t t')
include h

theorem mem (hr : r ∈ t) (hq : q r) : r ∈ t' := by
  have hf : r ∈ t'.rows.filter q := h ▸ mem_filter.mpr ⟨hr, hq⟩
  exact (mem_filter.mp hf).1

theorem symm : Same q t' t := Eq.symm h

theorem mem_iff (hq : q r) : r ∈ t' ↔ r ∈ t :=
  ⟨fun hr => h.symm.mem hr hq, fun hr => h.mem hr hq⟩

theorem get (i : Nat) : (t'.get i).filter q = (t.get i).filter q := by
  refine Option.ext fun r => ?_
  simp only [filter_eq_some_iff, get_eq_some]
  constructor
  · rintro ⟨⟨hr, hi⟩, hq⟩
    exact ⟨⟨(h.mem_iff hq).mp hr, hi⟩, hq⟩
  · rintro ⟨⟨hr, hi⟩, hq⟩
    exact ⟨⟨(h.mem_iff hq).mpr hr, hi⟩, hq⟩

theorem weaken {q' : α → Bool} (hq : ∀ r, q' r → q r) : Same q' t t' := by
  unfold Same at *
  have hsub : ∀ rows : List α, rows.filter q' = (rows.filter q).filter q' := by
    intro rows
    rw [List.filter_filter]
    refine List.filter_congr ?_
    intro r _
    cases hr : q' r with
    | false => simp
    | true => simp [hq r hr]
  rw [hsub t'.rows, hsub t.rows, h]

end

end Same

/-! ## Owners that do not change -/

/-- Ids are only added, and a row under an old id descends from one with the same owner. -/
structure Descends {β : Type*} (own : α → β) (t t' : IdTable α) : Prop where
  next_le : t.next ≤ t'.next
  old : ∀ r ∈ t', HasId.id r < t.next → ∃ r₀ ∈ t, HasId.id r₀ = HasId.id r ∧ own r₀ = own r

namespace Descends

variable {β : Type*} {own : α → β}

theorem refl (own : α → β) (t : IdTable α) : Descends own t t :=
  ⟨le_rfl, fun r hr _ => ⟨r, hr, rfl, rfl⟩⟩

theorem trans (h : Descends own t t') (h' : Descends own t' t'') : Descends own t t'' := by
  refine ⟨h.next_le.trans h'.next_le, fun r hr hlt => ?_⟩
  obtain ⟨r', hr', hid', hown'⟩ := h'.old r hr (lt_of_lt_of_le hlt h.next_le)
  obtain ⟨r₀, hr₀, hid₀, hown₀⟩ := h.old r' hr' (hid' ▸ hlt)
  exact ⟨r₀, hr₀, hid₀.trans hid', hown₀.trans hown'⟩

theorem insert (hrows : t'.rows = t.rows ++ [r]) (hnext : t'.next = t.next + 1) (hid : HasId.id r =
    t.next) : Descends own t t' := by
  refine ⟨hnext ▸ Nat.le_succ _, fun r' hr' hlt => ?_⟩
  rw [← mem_rows, hrows] at hr'
  rcases mem_append.mp hr' with hold | hnew
  · exact ⟨r', hold, rfl, rfl⟩
  · rw [mem_singleton.mp hnew, hid] at hlt
    exact absurd hlt (lt_irrefl _)

theorem update (hown : ∀ r, own (f r) = own r := by exact fun _ => rfl) (hf : ∀ r, HasId.id (f r) =
    HasId.id r := by exact fun _ => rfl) : Descends own t (t.update p f hf) := by
  refine ⟨le_rfl, fun r hr _ => ?_⟩
  obtain ⟨r₀, hr₀, rfl⟩ := mem_update.mp hr
  refine ⟨r₀, hr₀, ?_⟩
  split
  · exact ⟨(hf r₀).symm, (hown r₀).symm⟩
  · exact ⟨rfl, rfl⟩

theorem delete (p : α → Bool) : Descends own t (t.delete p) :=
  ⟨le_rfl, fun r hr _ => ⟨r, (mem_delete.mp hr).1, rfl, rfl⟩⟩

theorem own_eq (h : Descends own t t') {r₀ : α} (hr : r ∈ t') (hr₀ : r₀ ∈ t) (hid : HasId.id r =
    HasId.id r₀) : own r = own r₀ := by
  obtain ⟨r₁, hr₁, hid₁, hown⟩ := h.old r hr (hid ▸ id_lt hr₀)
  rw [← hown, eq_of_id hr₁ hr₀ (hid₁.trans hid)]

end Descends

end IdTable

end VQuasar
