import Mathlib.Data.Fintype.Card
import Mathlib.Order.Interval.Finset.Nat
import VQuasar.Lib.Runs
import VQuasar.Segments.Allocator

/-!
# Allocations at the same time

`k` transactions of `allocate_vxlan` over one table, statement by statement, under `READ COMMITTED`.
The `SELECT … FOR UPDATE` sees what is committed when it begins, waits for the rows of that snapshot
which others have locked, and reads those rows again; a row that has come in since is not among them.
Rows are locked in the order of their values, so the locks of a `SELECT` are taken in one step here.
The `INSERT` waits for another one of the same value to commit, and a value that has a row aborts it.

Locking the rows there are does not lock the gap between them: of two transactions that overlap, both
come to the same value.  `all_commit_iff` says that all of them commit exactly if no `SELECT` begins
while another transaction is under way.
-/

namespace VQuasar.Segments

open Runs List Option

structure Range where
  vniStart : Nat
  vniEnd : Nat

inductive Kind
  | vxlan | vlan
deriving DecidableEq, Repr

inductive RowState
  | allocated | quarantined | free
deriving DecidableEq, Repr

structure Row where
  kind : Kind
  value : Nat
  state : RowState
deriving DecidableEq, Repr

/-- `SELECT value … WHERE kind = 'vxlan' AND state <> 'free'` -/
def taken (rows : List Row) : List Nat :=
  (rows.filter fun r => r.kind == .vxlan && r.state != .free).map Row.value

/-- Whether `UNIQUE (kind, value)` refuses the value. -/
def recorded (rows : List Row) (v : Nat) : Bool := rows.any fun r => r.kind == .vxlan && r.value == v

/-- The values of the range that are free. -/
def free (p : Range) (rows : List Row) : Finset Nat :=
  (Finset.Icc p.vniStart p.vniEnd).filter fun v => v ∉ taken rows

/-! ## Transactions -/

inductive Txn
  | fresh
  /-- its `SELECT` has begun and waits for the rows it sees -/
  | waiting (snapshot : List Nat)
  /-- it has locked the rows that it read -/
  | holding (read : List Nat)
  | inserted (read : List Nat) (vni : Nat)
  | committed (vni : Nat)
  | aborted
deriving DecidableEq, Repr

def Txn.locks : Txn → List Nat
  | .holding read | .inserted read _ => read
  | _ => []

def Txn.running : Txn → Bool
  | .waiting _ | .holding _ | .inserted _ _ => true
  | _ => false

def Txn.isCommitted : Txn → Bool
  | .committed _ => true
  | _ => false

/-- Whether the row of a value has been inserted and is not committed. -/
def Txn.inserts (v : Nat) : Txn → Bool
  | .inserted _ w => w == v
  | _ => false

variable {k : Nat}

structure State (k : Nat) where
  rows : List Row
  txns : Fin k → Txn
deriving DecidableEq

def start (k : Nat) (rows : List Row) : State k := ⟨rows, fun _ => .fresh⟩

def State.set (s : State k) (i : Fin k) (t : Txn) : State k :=
  { s with txns := Function.update s.txns i t }

inductive Event (k : Nat)
  | select (i : Fin k)
  | lock (i : Fin k)
  | insert (i : Fin k)
  | commit (i : Fin k)
deriving DecidableEq, Repr

def State.lockable (s : State k) (i : Fin k) (snapshot : List Nat) : Bool :=
  decide (∀ j, j ≠ i → ∀ v ∈ (s.txns j).locks, v ∉ snapshot)

/-- The `INSERT` of `allocate_vxlan`, after the check of the range. -/
def State.insert (p : Range) (s : State k) (i : Fin k) (read : List Nat) : Option (State k) :=
  let next := lowestFree read p.vniStart
  if next > p.vniEnd ∨ recorded s.rows next then some (s.set i .aborted)
  else if ∃ j, j ≠ i ∧ (s.txns j).inserts next = true then none
  else some (s.set i (.inserted read next))

/-- The next statement of a transaction, unless it has to wait. -/
def step (p : Range) (s : State k) : Event k → Option (State k)
  | .select i =>
    match s.txns i with
    | .fresh => some (s.set i (.waiting (taken s.rows)))
    | _ => none
  | .lock i =>
    match s.txns i with
    | .waiting snapshot =>
      if s.lockable i snapshot then
        some (s.set i (.holding (snapshot.filter fun v => v ∈ taken s.rows)))
      else none
    | _ => none
  | .insert i =>
    match s.txns i with
    | .holding read => s.insert p i read
    | _ => none
  | .commit i =>
    match s.txns i with
    | .inserted _ vni =>
      some { (s.set i (.committed vni)) with rows := s.rows ++ [⟨.vxlan, vni, .allocated⟩] }
    | _ => none

/-- Everyone has got a VNI, and no two the same. -/
def State.Allocated (s : State k) : Prop :=
  (∀ i, (s.txns i).isCommitted) ∧
    ∀ i j v, s.txns i = .committed v → s.txns j = .committed v → i = j

/-- The lowest value that is not taken has a row all the same, in the state `free`. -/
def blocked (p : Range) (rows : List Row) : Bool :=
  rows.any fun r => r.kind == .vxlan && r.state == .free && decide (r.value ∉ taken rows) &&
    decide (p.vniStart ≤ r.value) &&
      (List.range r.value).all fun v => decide (v < p.vniStart) || decide (v ∈ taken rows)

/-- A `SELECT` begins while no other transaction is under way, and the gap it finds has no row. -/
def alone (p : Range) (s : State k) : Event k → Bool
  | .select _ => decide (∀ j, (s.txns j).running = false) && !blocked p s.rows
  | _ => true

/-! ## Rows -/

section

variable {p : Range} {rows : List Row} {v : Nat}

theorem taken_append : taken (rows ++ [⟨.vxlan, v, .allocated⟩]) = taken rows ++ [v] := by
  simp [taken]

theorem recorded_append {w : Nat} (h : recorded rows w) :
    recorded (rows ++ [⟨.vxlan, v, .allocated⟩]) w := by
  unfold recorded at h ⊢
  rw [any_append, h, Bool.true_or]

/-- The gap has a row only if the row is marked free. -/
theorem recorded_lowestFree (h : blocked p rows = false) :
    recorded rows (lowestFree (taken rows) p.vniStart) = false := by
  cases hr : recorded rows (lowestFree (taken rows) p.vniStart) with
  | false => rfl
  | true =>
  exfalso
  obtain ⟨r, hmem, hr⟩ := any_eq_true.mp hr
  rw [Bool.and_eq_true, beq_iff_eq, beq_iff_eq] at hr
  obtain ⟨hkind, hvalue⟩ := hr
  have hleast := isLeast_lowestFree (taken rows) p.vniStart
  rw [← hvalue] at hleast
  have hfree : r.state = .free := by
    by_contra hne
    apply hleast.1.2
    refine mem_map.mpr ⟨r, mem_filter.mpr ⟨hmem, ?_⟩, rfl⟩
    simp [hkind, hne]
  have hbelow : ∀ v ∈ List.range r.value, v < p.vniStart ∨ v ∈ taken rows := by
    intro v hv
    have hlt := mem_range.mp hv
    by_contra hne
    have hle := hleast.2 ⟨by omega, fun hmem => hne (.inr hmem)⟩
    omega
  have hblocked : blocked p rows := by
    refine List.any_eq_true.mpr ⟨r, hmem, ?_⟩
    simp only [Bool.and_eq_true, beq_iff_eq, decide_eq_true_eq, List.all_eq_true, Bool.or_eq_true]
    exact ⟨⟨⟨⟨hkind, hfree⟩, hleast.1.2⟩, hleast.1.1⟩, hbelow⟩
  rw [h] at hblocked
  cases hblocked

theorem recorded_of_blocked (h : blocked p rows) :
    recorded rows (lowestFree (taken rows) p.vniStart) := by
  obtain ⟨r, hmem, hr⟩ := List.any_eq_true.mp h
  simp only [Bool.and_eq_true, beq_iff_eq, decide_eq_true_eq, List.all_eq_true, Bool.or_eq_true,
    List.mem_range] at hr
  obtain ⟨⟨⟨⟨hkind, hfree⟩, hnot⟩, hge⟩, hbelow⟩ := hr
  have hleast := isLeast_lowestFree (taken rows) p.vniStart
  have hle := lowestFree_le hge hnot
  have heq : lowestFree (taken rows) p.vniStart = r.value := by
    by_contra hne
    have hge' := hleast.1.1
    rcases hbelow (lowestFree (taken rows) p.vniStart) (by omega) with hlt | hin
    · omega
    · exact hleast.1.2 hin
  rw [heq]
  refine any_eq_true.mpr ⟨r, hmem, ?_⟩
  simp [hkind]

end

/-! ## One step -/

section

variable {p : Range} {s s' : State k} {e : Event k}

@[simp] theorem set_txns_self (s : State k) (i : Fin k) (t : Txn) : (s.set i t).txns i = t := by
  simp [State.set]

theorem set_txns_other {i j : Fin k} (h : j ≠ i) (t : Txn) : (s.set i t).txns j = s.txns j := by
  simp [State.set, h]

/-- What a step does: one transaction goes on, and a commit adds its row. -/
inductive Moves (p : Range) (s : State k) : State k → Prop
  | select (i : Fin k) (h : s.txns i = .fresh) : Moves p s (s.set i (.waiting (taken s.rows)))
  | lock (i : Fin k) (snapshot : List Nat) (h : s.txns i = .waiting snapshot) :
      Moves p s (s.set i (.holding (snapshot.filter fun v => v ∈ taken s.rows)))
  | abort (i : Fin k) (read : List Nat) (h : s.txns i = .holding read)
      (hbad : lowestFree read p.vniStart > p.vniEnd ∨
        recorded s.rows (lowestFree read p.vniStart)) : Moves p s (s.set i .aborted)
  | insert (i : Fin k) (read : List Nat) (h : s.txns i = .holding read)
      (hend : lowestFree read p.vniStart ≤ p.vniEnd)
      (hnew : recorded s.rows (lowestFree read p.vniStart) = false) :
      Moves p s (s.set i (.inserted read (lowestFree read p.vniStart)))
  | commit (i : Fin k) (read : List Nat) (vni : Nat) (h : s.txns i = .inserted read vni) :
      Moves p s { (s.set i (.committed vni)) with rows := s.rows ++ [⟨.vxlan, vni, .allocated⟩] }

theorem step_moves (h : step p s e = some s') : Moves p s s' := by
  cases e with
  | select i =>
    simp only [step] at h
    split at h
    · next hi =>
      cases h
      exact .select i hi
    · cases h
  | lock i =>
    simp only [step] at h
    split at h
    · next snapshot hi =>
      split at h
      · cases h
        exact .lock i snapshot hi
      · cases h
    · cases h
  | insert i =>
    simp only [step] at h
    split at h
    · next read hi =>
      unfold State.insert at h
      simp only at h
      split at h
      · next hbad =>
        cases h
        exact .abort i read hi hbad
      · next hgood =>
        split at h
        · cases h
        · cases h
          simp only [not_or, not_lt, Bool.not_eq_true] at hgood
          exact .insert i read hi hgood.1 hgood.2
    · cases h
  | commit i =>
    simp only [step] at h
    split at h
    · next read vni hi =>
      cases h
      exact .commit i read vni hi
    · cases h

theorem Moves.taken_subset (h : Moves p s s') : ∀ v ∈ taken s.rows, v ∈ taken s'.rows := by
  cases h with
  | commit i read vni hi =>
    intro v hv
    show v ∈ taken (s.rows ++ [⟨.vxlan, vni, .allocated⟩])
    rw [taken_append]
    exact mem_append_left _ hv
  | _ => exact fun v hv => hv

theorem Moves.recorded (h : Moves p s s') {v : Nat} (hv : recorded s.rows v) :
    recorded s'.rows v := by
  cases h with
  | commit i read vni hi => exact recorded_append hv
  | _ => exact hv

end

/-! ## One after another -/

section

variable {p : Range} {s s' : State k} {e : Event k} {i : Fin k} {t : Txn}

/-- A transaction under way has read the table as it is now. -/
def Current (p : Range) (rows : List Row) : Txn → Prop
  | .waiting snapshot => snapshot = taken rows
  | .holding read => read = taken rows
  | .inserted read vni =>
    read = taken rows ∧ vni = lowestFree (taken rows) p.vniStart ∧ vni ≤ p.vniEnd
  | .committed vni => vni ∈ taken rows
  | .fresh => True
  | .aborted => False

def State.commits (s : State k) : Nat :=
  (Finset.univ.filter fun i => (s.txns i).isCommitted = true).card

/-- At most one transaction is under way, and what it has read is current. -/
structure Lone (p : Range) (s : State k) : Prop where
  one : ∀ i j, (s.txns i).running → (s.txns j).running → i = j
  current : ∀ i, Current p s.rows (s.txns i)
  distinct : ∀ i j v, s.txns i = .committed v → s.txns j = .committed v → i = j
  clear : ∀ i, (s.txns i).running → blocked p s.rows = false
  room : k ≤ (free p s.rows).card + s.commits

theorem lone_start {rows : List Row} (h : k ≤ (free p rows).card) : Lone p (start k rows) where
  one := by
    intro i j hi _
    cases hi
  current := fun _ => trivial
  distinct := by
    intro i j v hi
    cases hi
  clear := by
    intro i hi
    cases hi
  room := Nat.le_add_right_of_le h

theorem forall_set {P : Fin k → Txn → Prop} (hi : P i t)
    (hrest : ∀ j, j ≠ i → P j (s.txns j)) : ∀ j, P j ((s.set i t).txns j) := by
  intro j
  by_cases hj : j = i
  · rw [hj, set_txns_self]
    exact hi
  · rw [set_txns_other hj]
    exact hrest j hj

theorem commits_set (ht : t.isCommitted = false)
    (hi : (s.txns i).isCommitted = false) : (s.set i t).commits = s.commits := by
  unfold State.commits
  congr 1
  refine Finset.filter_congr fun j _ => ?_
  by_cases hj : j = i
  · rw [hj, set_txns_self, ht, hi]
  · rw [set_txns_other hj]

section

variable (h : Lone p s) {i : Fin k}
include h

theorem Lone.set {t : Txn} (ht : t.isCommitted = false)
    (hi : (s.txns i).isCommitted = false) (hcur : Current p s.rows t)
    (hothers : ∀ j, j ≠ i → (s.txns j).running = false) (hclear : blocked p s.rows = false) :
    Lone p (s.set i t) where
  one := by
    have hself : ∀ j, ((s.set i t).txns j).running → j = i := by
      intro j hj
      by_contra hne
      rw [set_txns_other hne, hothers j hne] at hj
      cases hj
    intro a b ha hb
    rw [hself a ha, hself b hb]
  current := forall_set (P := fun _ t => Current p s.rows t) hcur fun j _ => h.current j
  distinct := by
    have hother : ∀ j v, (s.set i t).txns j = .committed v → s.txns j = .committed v := by
      intro j v hj
      by_cases hji : j = i
      · rw [hji, set_txns_self] at hj
        rw [hj] at ht
        cases ht
      · rwa [set_txns_other hji] at hj
    intro a b v ha hb
    exact h.distinct a b v (hother a v ha) (hother b v hb)
  clear := fun _ _ => hclear
  room := by
    rw [commits_set ht hi]
    exact h.room

theorem Lone.others (hi : (s.txns i).running) : ∀ j, j ≠ i → (s.txns j).running = false := by
  intro j hj
  cases hr : (s.txns j).running with
  | false => rfl
  | true => exact absurd (h.one j i hr hi) hj

theorem Lone.lowestFree_le_end (hi : (s.txns i).isCommitted = false) :
    lowestFree (taken s.rows) p.vniStart ≤ p.vniEnd := by
  have hlt : s.commits < k := by
    have hne : (Finset.univ.filter fun i => (s.txns i).isCommitted = true) ≠
        (Finset.univ : Finset (Fin k)) := by
      intro heq
      have hmem : i ∈ Finset.univ.filter fun i => (s.txns i).isCommitted = true := by
        rw [heq]
        exact Finset.mem_univ i
      rw [(Finset.mem_filter.mp hmem).2] at hi
      cases hi
    have hcard := Finset.card_lt_card (Finset.ssubset_univ_iff.mpr hne)
    rwa [Finset.card_univ, Fintype.card_fin] at hcard
  have hpos : 0 < (free p s.rows).card := by
    have := h.room
    omega
  obtain ⟨v, hv⟩ := Finset.card_pos.mp hpos
  obtain ⟨hrange, hfree⟩ := Finset.mem_filter.mp hv
  obtain ⟨hge, hle⟩ := Finset.mem_Icc.mp hrange
  exact Nat.le_trans (lowestFree_le hge hfree) hle

theorem Lone.commit {read : List Nat} {vni : Nat} (hi : s.txns i = .inserted read vni) :
    Lone p { (s.set i (.committed vni)) with rows := s.rows ++ [⟨.vxlan, vni, .allocated⟩] } := by
  have hrun : (s.txns i).running := by rw [hi]; rfl
  have hothers := h.others hrun
  obtain ⟨-, hvni, hend⟩ : read = taken s.rows ∧ vni = lowestFree (taken s.rows) p.vniStart ∧
      vni ≤ p.vniEnd := by
    have hcur := h.current i
    rwa [hi] at hcur
  have hnew : vni ∉ taken s.rows := hvni ▸ lowestFree_not_mem _ _
  have hidle : ∀ j, ((s.set i (.committed vni)).txns j).running = false :=
    forall_set (P := fun _ t => t.running = false) rfl hothers
  constructor
  · intro a b ha _
    rw [hidle a] at ha
    cases ha
  · refine forall_set (P := fun _ t => Current p (s.rows ++ [⟨.vxlan, vni, .allocated⟩]) t) ?_ ?_
    · show vni ∈ taken (s.rows ++ _)
      rw [taken_append]
      exact mem_append_right _ (mem_singleton_self vni)
    · intro j hj
      have hcur := h.current j
      have hjrun := hothers j hj
      cases ht : s.txns j with
      | fresh => trivial
      | committed v =>
        rw [ht] at hcur
        show v ∈ taken (s.rows ++ _)
        rw [taken_append]
        exact mem_append_left _ hcur
      | aborted => rw [ht] at hcur; exact hcur
      | waiting | holding | inserted => rw [ht] at hjrun; cases hjrun
  · -- the new value is none of those committed before
    have hold : ∀ j, j ≠ i → ∀ v, (s.set i (.committed vni)).txns j = .committed v → v ≠ vni := by
      intro j hj v hv heq
      rw [set_txns_other hj] at hv
      have hcur := h.current j
      rw [hv, heq] at hcur
      exact hnew hcur
    intro a b v ha hb
    by_cases hai : a = i
    · by_cases hbi : b = i
      · rw [hai, hbi]
      · rw [hai] at ha
        have hv : vni = v := Txn.committed.inj ((set_txns_self s i _).symm.trans ha)
        exact absurd hv.symm (hold b hbi v hb)
    · by_cases hbi : b = i
      · rw [hbi] at hb
        have hv : vni = v := Txn.committed.inj ((set_txns_self s i _).symm.trans hb)
        exact absurd hv.symm (hold a hai v ha)
      · have ha' : s.txns a = .committed v := (set_txns_other hai _).symm.trans ha
        have hb' : s.txns b = .committed v := (set_txns_other hbi _).symm.trans hb
        exact h.distinct a b v ha' hb'
  · intro a ha
    rw [hidle a] at ha
    cases ha
  · -- one value less is free, and one transaction more has committed
    have hmem : vni ∈ free p s.rows :=
      Finset.mem_filter.mpr ⟨Finset.mem_Icc.mpr ⟨hvni ▸ le_lowestFree _ _, hend⟩, hnew⟩
    have hfree : free p (s.rows ++ [⟨.vxlan, vni, .allocated⟩]) = (free p s.rows).erase vni := by
      ext v
      simp only [free, taken_append, Finset.mem_filter, Finset.mem_erase, mem_append,
        mem_singleton, not_or]
      tauto
    have hcommits : ({ (s.set i (.committed vni)) with
        rows := s.rows ++ [⟨.vxlan, vni, .allocated⟩] } : State k).commits = s.commits + 1 := by
      have hinsert : (Finset.univ.filter fun j =>
          ((s.set i (.committed vni)).txns j).isCommitted = true) =
            insert i (Finset.univ.filter fun j => (s.txns j).isCommitted = true) := by
        ext j
        by_cases hj : j = i
        · simp only [hj, Finset.mem_filter, Finset.mem_univ, set_txns_self, Finset.mem_insert, true_and,
            true_or, iff_true]
          rfl
        · simp [set_txns_other hj, hj]
      unfold State.commits
      show (Finset.univ.filter fun j =>
        ((s.set i (.committed vni)).txns j).isCommitted = true).card = _
      have hnot : (s.txns i).isCommitted = false := by rw [hi]; rfl
      rw [hinsert, Finset.card_insert_of_notMem]
      simp [hnot]
    have hroom := h.room
    have hpos := Finset.card_pos.mpr ⟨vni, hmem⟩
    rw [hcommits]
    show k ≤ (free p (s.rows ++ _)).card + (s.commits + 1)
    rw [hfree, Finset.card_erase_of_mem hmem]
    omega

theorem lone_step (hok : alone p s e) (hs : step p s e = some s') : Lone p s' := by
  cases e with
  | select i =>
    simp only [step] at hs
    split at hs
    · next hi =>
      cases hs
      simp only [alone, Bool.and_eq_true, decide_eq_true_eq, Bool.not_eq_true'] at hok
      exact h.set rfl (by rw [hi]; rfl) rfl (fun j _ => hok.1 j) hok.2
    · cases hs
  | lock i =>
    simp only [step] at hs
    split at hs
    · next snapshot hi =>
      split at hs
      · cases hs
        have hrun : (s.txns i).running := by rw [hi]; rfl
        have hsnap : snapshot = taken s.rows := by
          have hcur := h.current i
          rwa [hi] at hcur
        refine h.set rfl (by rw [hi]; rfl) ?_ (h.others hrun) (h.clear i hrun)
        show snapshot.filter (fun v => v ∈ taken s.rows) = taken s.rows
        rw [hsnap, filter_eq_self]
        intro v hv
        exact decide_eq_true hv
      · cases hs
    · cases hs
  | insert i =>
    simp only [step] at hs
    split at hs
    · next read hi =>
      have hrun : (s.txns i).running := by rw [hi]; rfl
      have hread : read = taken s.rows := by
        have hcur := h.current i
        rwa [hi] at hcur
      have hend := h.lowestFree_le_end (i := i) (by rw [hi]; rfl)
      have hnew := recorded_lowestFree (h.clear i hrun)
      unfold State.insert at hs
      simp only [hread] at hs
      rw [if_neg (by rw [hnew]; simp only [not_or, not_lt]; exact ⟨hend, Bool.false_ne_true⟩)] at hs
      split at hs
      · cases hs
      · cases hs
        exact h.set rfl (by rw [hi]; rfl) ⟨rfl, rfl, hend⟩ (h.others hrun) (h.clear i hrun)
    · cases hs
  | commit i =>
    simp only [step] at hs
    split at hs
    · next read vni hi =>
      cases hs
      exact h.commit hi
    · cases hs

/-- While something is left to do, a transaction can go on. -/
theorem Lone.allocated (hend : ∀ e, step p s e = none) : s.Allocated := by
  refine ⟨fun i => ?_, h.distinct⟩
  cases hi : s.txns i with
  | committed v => rfl
  | fresh =>
    have hstep := hend (.select i)
    simp only [step, hi] at hstep
    cases hstep
  | waiting snapshot =>
    have hrun : (s.txns i).running := by rw [hi]; rfl
    have hlock : s.lockable i snapshot := by
      refine decide_eq_true fun j hj v hv => ?_
      have hidle := h.others hrun j hj
      cases hj' : s.txns j with
      | holding | inserted => rw [hj'] at hidle; cases hidle
      | _ => rw [hj'] at hv; cases hv
    have hstep := hend (.lock i)
    simp only [step, hi, hlock, if_true] at hstep
    cases hstep
  | holding read =>
    have hrun : (s.txns i).running := by rw [hi]; rfl
    have hpend : ¬ ∃ j, j ≠ i ∧ (s.txns j).inserts (lowestFree read p.vniStart) := by
      rintro ⟨j, hj, hins⟩
      have hidle := h.others hrun j hj
      cases hj' : s.txns j with
      | inserted read w => rw [hj'] at hidle; cases hidle
      | _ => rw [hj'] at hins; cases hins
    have hstep := hend (.insert i)
    simp only [step, hi] at hstep
    unfold State.insert at hstep
    simp only [if_neg hpend] at hstep
    split at hstep <;> cases hstep
  | inserted read vni =>
    have hstep := hend (.commit i)
    simp only [step, hi] at hstep
    cases hstep
  | aborted =>
    have hcur := h.current i
    rw [hi] at hcur
    exact hcur.elim

end

end

/-! ## Overlapping -/

section

variable {p : Range} {s s' : State k} {e : Event k} {read : List Nat} {j : Fin k}

/-- A transaction that has read these values, and what can become of it. -/
def HasRead (p : Range) (read : List Nat) : Txn → Prop
  | .waiting snapshot => snapshot = read
  | .holding read' => read' = read
  | .inserted _ vni | .committed vni => vni = lowestFree read p.vniStart
  | .aborted => True
  | .fresh => False

/-- A transaction that comes to a value which has a row. -/
def Refused (read : List Nat) : Txn → Prop
  | .waiting snapshot => snapshot = read
  | .holding read' => read' = read
  | .aborted => True
  | _ => False

/-- Two transactions have read the same, or one comes to a value that has a row. -/
def Spoilt (p : Range) (s : State k) : Prop :=
  ∃ read, (∀ v ∈ read, v ∈ taken s.rows) ∧
    ((∃ i j, i ≠ j ∧ HasRead p read (s.txns i) ∧ HasRead p read (s.txns j)) ∨
      ∃ i, Refused read (s.txns i) ∧ recorded s.rows (lowestFree read p.vniStart))

/-- Reading the rows of the snapshot again changes nothing: they are still there. -/
theorem reread (h : ∀ v ∈ read, v ∈ taken s.rows) :
    read.filter (fun v => v ∈ taken s.rows) = read := by
  rw [filter_eq_self]
  intro v hv
  exact decide_eq_true (h v hv)

section

variable (hm : Moves p s s') (hread : ∀ v ∈ read, v ∈ taken s.rows)
include hm hread

theorem Moves.hasRead (h : HasRead p read (s.txns j)) : HasRead p read (s'.txns j) := by
  have hset : ∀ {i : Fin k} {t : Txn}, (j = i → HasRead p read t) →
      HasRead p read ((s.set i t).txns j) := by
    intro i t ht
    by_cases hj : j = i
    · rw [hj, set_txns_self]
      exact ht hj
    · rw [set_txns_other hj]
      exact h
  cases hm with
  | select i hi =>
    refine hset fun hj => ?_
    rw [hj, hi] at h
    exact h.elim
  | lock i snapshot hi =>
    refine hset fun hj => ?_
    rw [hj, hi] at h
    have hsnap : snapshot = read := h
    show snapshot.filter _ = read
    rw [hsnap]
    exact reread hread
  | abort i read' hi hbad => exact hset fun _ => trivial
  | insert i read' hi hend hnew =>
    refine hset fun hj => ?_
    rw [hj, hi] at h
    have hread' : read' = read := h
    show lowestFree read' p.vniStart = _
    rw [hread']
  | commit i read' vni hi =>
    refine hset fun hj => ?_
    rw [hj, hi] at h
    exact h

theorem Moves.refused (hrec : Segments.recorded s.rows (lowestFree read p.vniStart))
    (h : Refused read (s.txns j)) : Refused read (s'.txns j) := by
  have hset : ∀ {i : Fin k} {t : Txn}, (j = i → Refused read t) →
      Refused read ((s.set i t).txns j) := by
    intro i t ht
    by_cases hj : j = i
    · rw [hj, set_txns_self]
      exact ht hj
    · rw [set_txns_other hj]
      exact h
  cases hm with
  | select i hi | commit i read' vni hi =>
    refine hset fun hj => ?_
    rw [hj, hi] at h
    exact h.elim
  | lock i snapshot hi =>
    refine hset fun hj => ?_
    rw [hj, hi] at h
    have hsnap : snapshot = read := h
    show snapshot.filter _ = read
    rw [hsnap]
    exact reread hread
  | abort i read' hi hbad => exact hset fun _ => trivial
  | insert i read' hi hend hnew =>
    refine hset fun hj => ?_
    rw [hj, hi] at h
    have hread' : read' = read := h
    rw [hread', hrec] at hnew
    cases hnew

end

theorem spoilt_step (h : Spoilt p s) (hs : step p s e = some s') : Spoilt p s' := by
  have hm := step_moves hs
  obtain ⟨read, hread, h⟩ := h
  refine ⟨read, fun v hv => hm.taken_subset v (hread v hv), ?_⟩
  rcases h with ⟨i, j, hij, hi, hj⟩ | ⟨i, hi, hrec⟩
  · exact .inl ⟨i, j, hij, hm.hasRead hread hi, hm.hasRead hread hj⟩
  · exact .inr ⟨i, hm.refused hread hrec hi, hm.recorded hrec⟩

/-- A transaction under way has read what another one reads now. -/
theorem Current.hasRead {t : Txn} (h : Current p s.rows t) (hrun : t.running) :
    HasRead p (taken s.rows) t := by
  cases t with
  | waiting | holding => exact h
  | inserted read vni => exact h.2.1
  | fresh | committed | aborted => cases hrun

theorem spoilt_of_not_alone (h : Lone p s) (hok : alone p s e = false)
    (hs : step p s e = some s') : Spoilt p s' := by
  cases e with
  | select i =>
    simp only [step] at hs
    split at hs
    · next hi =>
      cases hs
      refine ⟨taken s.rows, fun v hv => hv, ?_⟩
      by_cases hidle : ∀ j, (s.txns j).running = false
      · have hblocked : blocked p s.rows := by
          cases hb : blocked p s.rows with
          | true => rfl
          | false =>
            simp only [alone, hb, decide_eq_true hidle] at hok
            cases hok
        refine .inr ⟨i, ?_, recorded_of_blocked hblocked⟩
        rw [set_txns_self]
        rfl
      · simp only [not_forall, Bool.not_eq_false] at hidle
        obtain ⟨j, hj⟩ := hidle
        have hji : j ≠ i := by
          intro heq
          rw [heq, hi] at hj
          cases hj
        refine .inl ⟨i, j, hji.symm, ?_, ?_⟩
        · rw [set_txns_self]
          rfl
        · rw [set_txns_other hji]
          exact (h.current j).hasRead hj
    · cases hs
  | lock | insert | commit => cases hok

theorem Spoilt.not_allocated (h : Spoilt p s) : ¬ s.Allocated := by
  rintro ⟨hall, hdistinct⟩
  have hcommitted : ∀ i, ∃ v, s.txns i = .committed v := by
    intro i
    have hi := hall i
    cases ht : s.txns i with
    | committed v => exact ⟨v, rfl⟩
    | _ => rw [ht] at hi; cases hi
  obtain ⟨read, -, h⟩ := h
  rcases h with ⟨i, j, hij, hi, hj⟩ | ⟨i, hi, -⟩
  · obtain ⟨v, hv⟩ := hcommitted i
    obtain ⟨w, hw⟩ := hcommitted j
    rw [hv] at hi
    rw [hw] at hj
    have hvw : v = w := Eq.trans hi (Eq.symm hj)
    exact hij (hdistinct i j v hv (hvw ▸ hw))
  · obtain ⟨v, hv⟩ := hcommitted i
    rw [hv] at hi
    exact hi

/-- **Everyone gets a VNI exactly if nobody starts too early.**  A run that has come to its end has
committed all its transactions if and only if each of them began when no other one was under way. -/
theorem all_commit_iff (rows : List Row) (hfree : k ≤ (free p rows).card) {es : List (Event k)}
    (hrun : exec (step p) (start k rows) es = some s) (hend : ∀ e, step p s e = none) :
    s.Allocated ↔ execOk (step p) (alone p) (start k rows) es :=
  exec_iff (Lone p) (Spoilt p) (fun _ _ _ => lone_step)
    (fun _ _ _ => spoilt_of_not_alone) (fun _ _ _ => spoilt_step) (lone_start hfree) hrun
    (fun h => h.allocated hend) Spoilt.not_allocated

/-- Two transactions, one after the other, next to a segment that is taken. -/
def inTurn : List (Event 2) :=
  [.select 0, .lock 0, .insert 0, .commit 0, .select 1, .lock 1, .insert 1, .commit 1]

theorem all_commit_in_turn :
    (final (step ⟨1, 9⟩) (start 2 [⟨.vxlan, 1, .allocated⟩]) inTurn).Allocated := by
  have hrun : exec (step ⟨1, 9⟩) (start 2 [⟨.vxlan, 1, .allocated⟩]) inTurn =
      some (final (step ⟨1, 9⟩) (start 2 [⟨.vxlan, 1, .allocated⟩]) inTurn) := by decide
  refine (all_commit_iff _ (by decide) hrun ?_).mpr (by decide)
  intro e
  cases e with
  | select i | lock i | insert i | commit i => revert i; decide

/-- Two transactions that begin before either has committed. -/
def atOnce : List (Event 2) :=
  [.select 0, .select 1, .lock 0, .insert 0, .commit 0, .lock 1, .insert 1]

/-- The second waits for the rows the first has locked, does not see the row that the first adds, and
is aborted: seven more values of the range are free. -/
theorem overlapping_allocation_aborts : 2 ≤ (free ⟨1, 9⟩ [⟨.vxlan, 1, .allocated⟩]).card ∧
    ∃ s, exec (step ⟨1, 9⟩) (start 2 [⟨.vxlan, 1, .allocated⟩]) atOnce = some s ∧
      s.txns 0 = .committed 2 ∧ s.txns 1 = .aborted ∧ ¬ s.Allocated := by
  refine ⟨by decide, final (step ⟨1, 9⟩) (start 2 [⟨.vxlan, 1, .allocated⟩]) atOnce, by decide,
    by decide, by decide, fun h => ?_⟩
  have h1 := h.1 1
  revert h1
  decide

end

end VQuasar.Segments
