import Mathlib.Data.List.Basic

/-!
# Priority flow tables

A switch keeps flows in numbered tables.  A lookup in a table takes a matching flow of the highest
priority, any of them when there are several, and a packet that matches none misses.  `lookup` is the
list of the actions a lookup may take; `mem_lookup_iff` says what is in it in terms of what the
matching flows offer.

Fields are of any type `μ`, packets of any type `π` and actions of any type `α`; `hits` says which
fields match which packet.
-/

namespace VQuasar.FlowTable

open List

variable {μ π α : Type}

/-- A flow; `cookie` names the owner that may delete it. -/
structure Flow (μ α : Type) where
  cookie : Nat
  table : Nat
  priority : Nat
  fields : μ
  action : α
deriving DecidableEq, Repr

variable (hits : μ → π → Bool)

variable (flows : List (Flow μ α)) (table : Nat)

def matching (p : π) : List (Flow μ α) :=
  flows.filter fun f => f.table == table && hits f.fields p

/-- The actions a lookup may take: those of the matching flows that no matching flow outranks. -/
def lookup (p : π) : List α :=
  ((matching hits flows table p).filter fun f =>
    (matching hits flows table p).all fun g => g.priority ≤ f.priority).map Flow.action

/-- A matching flow offers its action at its priority. -/
def Offers (p : π) (priority : Nat) (a : α) : Prop :=
  ∃ f ∈ flows, f.table = table ∧ hits f.fields p = true ∧ f.priority = priority ∧ f.action = a

section

variable {hits} {flows flows' : List (Flow μ α)} {table : Nat} {p : π} {n : Nat} {a : α}
  {f : Flow μ α} {b : α}

theorem mem_matching :
    f ∈ matching hits flows table p ↔ f ∈ flows ∧ f.table = table ∧ hits f.fields p := by
  simp [matching]

/-- A lookup takes what is offered at the highest priority. -/
theorem mem_lookup_iff : a ∈ lookup hits flows table p ↔
      ∃ n, Offers hits flows table p n a ∧ ∀ m b, Offers hits flows table p m b → m ≤ n := by
  unfold lookup
  simp only [mem_map, mem_filter, all_eq_true, decide_eq_true_eq]
  constructor
  · rintro ⟨f, ⟨hf, htop⟩, rfl⟩
    obtain ⟨hmem, htable, hhits⟩ := mem_matching.mp hf
    refine ⟨f.priority, ⟨f, hmem, htable, hhits, rfl, rfl⟩, ?_⟩
    rintro m b ⟨g, hg, hgt, hgh, rfl, rfl⟩
    exact htop g (mem_matching.mpr ⟨hg, hgt, hgh⟩)
  · rintro ⟨n, ⟨f, hmem, htable, hhits, rfl, rfl⟩, htop⟩
    refine ⟨f, ⟨mem_matching.mpr ⟨hmem, htable, hhits⟩, ?_⟩, rfl⟩
    intro g hg
    obtain ⟨hg, hgt, hgh⟩ := mem_matching.mp hg
    exact htop g.priority g.action ⟨g, hg, hgt, hgh, rfl, rfl⟩

theorem mem_lookup_of_top (h : Offers hits flows table p n a)
    (htop : ∀ m b, Offers hits flows table p m b → m ≤ n) : a ∈ lookup hits flows table p :=
  mem_lookup_iff.mpr ⟨n, h, htop⟩

/-- What a lookup takes is offered at least as high as anything that is offered. -/
theorem offers_of_mem_lookup (h : a ∈ lookup hits flows table p)
    (hb : Offers hits flows table p n b) : ∃ m, n ≤ m ∧ Offers hits flows table p m a := by
  obtain ⟨m, hm, htop⟩ := mem_lookup_iff.mp h
  exact ⟨m, htop n b hb, hm⟩

/-- Where one action alone is offered at the highest priority, a lookup takes that. -/
theorem mem_lookup_iff_eq (h : Offers hits flows table p n a)
    (htop : ∀ m c, Offers hits flows table p m c → m < n ∨ (m = n ∧ c = a)) :
    b ∈ lookup hits flows table p ↔ b = a := by
  constructor
  · intro hb
    obtain ⟨m, hm, hb⟩ := offers_of_mem_lookup hb h
    exact (htop m b hb).elim (fun hlt => by omega) And.right
  · rintro rfl
    refine mem_lookup_of_top h fun m c hc => ?_
    rcases htop m c hc with hlt | ⟨rfl, -⟩ <;> omega

theorem offers_cons : Offers hits (f :: flows) table p n a ↔
      (f.table = table ∧ hits f.fields p ∧ f.priority = n ∧ f.action = a) ∨
        Offers hits flows table p n a := by
  simp [Offers]

theorem offers_flatMap {β : Type} {xs : List β} {g : β → List (Flow μ α)} :
    Offers hits (xs.flatMap g) table p n a ↔ ∃ x ∈ xs, Offers hits (g x) table p n a := by
  constructor
  · rintro ⟨f, hf, h⟩
    obtain ⟨x, hx, hfx⟩ := mem_flatMap.mp hf
    exact ⟨x, hx, f, hfx, h⟩
  · rintro ⟨x, hx, f, hfx, h⟩
    exact ⟨f, mem_flatMap.mpr ⟨x, hx, hfx⟩, h⟩

theorem offers_append : Offers hits (flows ++ flows') table p n a ↔
      Offers hits flows table p n a ∨ Offers hits flows' table p n a := by
  constructor
  · rintro ⟨f, hf, h⟩
    rcases mem_append.mp hf with hf | hf
    · exact .inl ⟨f, hf, h⟩
    · exact .inr ⟨f, hf, h⟩
  · rintro (⟨f, hf, h⟩ | ⟨f, hf, h⟩)
    · exact ⟨f, mem_append_left _ hf, h⟩
    · exact ⟨f, mem_append_right _ hf, h⟩

end

end VQuasar.FlowTable
