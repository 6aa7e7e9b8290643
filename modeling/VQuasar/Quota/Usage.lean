import VQuasar.Quota.Bound

/-!
# Usage is what the admitted demands add up to

The store functions one after another: a request is its transaction alone (`serve`), and `books`
keeps, next to the tables, the sum of the demands that were admitted, with what a deleted row
counts for taken off.  That sum is always the sum over the rows of the project.  `usage_in` is the
same sum as long as it fits an `i64`: a larger sum of one table is a database error, and a larger
sum of the two wraps (`usage_wraps`).
-/

namespace VQuasar.Quota

open Table Amounts

/-- `admit`, with nothing between its statements. -/
def admits (s : State) (p : ProjectId) (demand : Amounts) : Bool :=
  match s.quotas p with
  | none => true
  | some l => l.unlimited || (usageIn s p).any fun u => (check l u demand).isOk

/-- A transaction alone: the state it leaves, and the project and demand it commits with. -/
def serve (s : State) (r : Request) : State × Option (ProjectId × Amounts) :=
  match readBefore s r with
  | .lockProject p demand =>
    if admits s p demand then (apply s p (hits s r) r, some (p, demand)) else (s, none)
  | _ => (s, none)

inductive Op
  | request (r : Request)
  | deleteVms (c : VmRow → Bool)
  | deleteVolumes (c : VolumeRow → Bool)

variable {s : State} {p : ProjectId}

/-- What an operation leaves, and what it adds to the sum of each project. -/
def Op.run (s : State) : Op → State × (ProjectId → Dimension → Int)
  | .request r =>
    ((serve s r).1, fun p d => (serve s r).2.elim 0 fun x => if x.1 = p then x.2.get d else 0)
  | .deleteVms c =>
    ({ s with vms := deleteWhere c s.vms }, fun p d =>
      -total (fun r => (ofVm r.spec).get d) (s.vms.filter fun r => r.project == p && c r))
  | .deleteVolumes c =>
    ({ s with volumes := deleteWhere c s.volumes }, fun p d =>
      -total (fun r => (ofVolume r.size).get d)
        (s.volumes.filter fun r => r.project == p && c r))

/-- The tables after a sequence of operations, and the running sum. -/
def books : List Op → State × (ProjectId → Dimension → Int) → State × (ProjectId → Dimension → Int)
  | [], b => b
  | op :: ops, b => books ops ((op.run b.1).1, fun p d => b.2 p d + (op.run b.1).2 p d)

/-- The sum of `Amounts::of_vm` and `Amounts::of_volume` over the rows of a project. -/
def rowSum (s : State) (p : ProjectId) (d : Dimension) : Int :=
  total (fun r => (ofVm r.spec).get d) (vmsOf s p) +
    total (fun r => (ofVolume r.size).get d) (volumesOf s p)

theorem rowSum_eq (s : State) (p : ProjectId) (d : Dimension) : rowSum s p d = usage s p d := by
  simp only [rowSum, usage_eq, ofVm_eq_counted]

/-! ## The running sum -/

/-- **The step.**  An operation changes the sum over the rows of a project by what it posts. -/
theorem run_rowSum (ht : Tables s) (op : Op) (p : ProjectId) (d : Dimension) :
    Tables (op.run s).1 ∧ rowSum (op.run s).1 p d = rowSum s p d + (op.run s).2 p d := by
  cases op with
  | request r =>
    simp only [Op.run, serve, rowSum_eq]
    rcases readBefore_spec ht r with hr | ⟨q, demand, hr, htgt, hd, hhit⟩
    · simp [hr, ht]
    simp only [hr]
    split
    · refine ⟨(apply_tables ht q _ r).1, ?_⟩
      simp only [Option.elim_some]
      split
      · next hqp =>
        subst hqp
        rcases apply_usage ht (hits s r) htgt hd with hu | ⟨hno, -⟩
        · exact hu d
        · simp [hhit] at hno
      · next hqp =>
        obtain ⟨hv, hw⟩ := apply_other hqp (hits s r) htgt
        rw [usage_eq, usage_eq, hv, hw, Int.add_zero]
    · exact ⟨ht, (Int.add_zero _).symm⟩
  | deleteVms c =>
    have hsub := deleteWhere_sublist c s.vms
    refine ⟨⟨ht.vmIds.sublist (hsub.map _), ht.volumeIds,
      fun r hr => ht.vmLt r (hsub.subset hr), ht.volumeLt⟩, ?_⟩
    simp only [Op.run, rowSum, vmsOf, volumesOf, total_deleteWhere]
    omega
  | deleteVolumes c =>
    have hsub := deleteWhere_sublist c s.volumes
    refine ⟨⟨ht.vmIds, ht.volumeIds.sublist (hsub.map _), ht.vmLt,
      fun r hr => ht.volumeLt r (hsub.subset hr)⟩, ?_⟩
    simp only [Op.run, rowSum, vmsOf, volumesOf, total_deleteWhere]
    omega

/-- **The run.**  A running sum that starts at the sum over the rows stays there. -/
theorem books_rowSum (ops : List Op) {b : State × (ProjectId → Dimension → Int)} (ht : Tables b.1)
    (hb : b.2 = rowSum b.1) : (books ops b).2 = rowSum (books ops b).1 := by
  induction ops generalizing b with
  | nil => exact hb
  | cons op ops ih =>
    refine ih (run_rowSum ht op 0 .vms).1 ?_
    funext p d
    rw [(run_rowSum ht op p d).2, hb]

/-! ## `usage_in` -/

theorem usageIn_eq_iff : (∃ u, usageIn s p = some u ∧ ∀ d, u.get d = usage s p d) ↔
    ∀ d, usage s p d < 2 ^ 63 := by
  constructor
  · rintro ⟨u, hu, heq⟩ d
    rw [← heq d]
    unfold usageIn at hu
    split at hu
    · next hdec =>
      simp only [decodes, Bool.and_eq_true, List.all_eq_true, decide_eq_true_eq] at hdec
      cases hu
      cases d with
      | vms => exact hdec.1 .vms (Dimension.mem_all _)
      | vcpus => exact hdec.1 .vcpus (Dimension.mem_all _)
      | memoryMib => exact hdec.1 .memoryMib (Dimension.mem_all _)
      | volumes => exact hdec.2 .volumes (Dimension.mem_all _)
      | storageBytes => exact Int.bmod_lt (by decide)
    · cases hu
  · intro h
    have hv := vmUsage_nonneg s p
    have hw := volumeUsage_nonneg s p
    have hsmall : ∀ d, (vmUsage s p).get d + (volumeUsage s p).get d < 2 ^ 63 := h
    refine ⟨(vmUsage s p).combine (volumeUsage s p), if_pos ?_, fun d => ?_⟩
    · simp only [decodes, Bool.and_eq_true, List.all_eq_true, decide_eq_true_eq]
      refine ⟨fun d _ => ?_, fun d _ => ?_⟩
      · have h1 := hw d
        have h2 := hsmall d
        omega
      · have h1 := hv d
        have h2 := hsmall d
        omega
    · exact combine_get hv hw rfl ⟨rfl, rfl, rfl⟩ (hsmall d)

/-- **Accounting agrees while it fits.**  In every state that store operations leave, the running
sum of a project is that of `of_vm` and `of_volume` over its rows, and `usage_in` reports it exactly
when each component is below `2 ^ 63`. -/
theorem usage_agrees_iff {s t : State} {sum : ProjectId → Dimension → Int} (ht : Tables s)
    {ops : List Op} (h : books ops (s, rowSum s) = (t, sum)) (p : ProjectId) :
    (∀ d, sum p d = rowSum t p d) ∧
      ((∃ u, usageIn t p = some u ∧ ∀ d, u.get d = sum p d) ↔ ∀ d, rowSum t p d < 2 ^ 63) := by
  obtain rfl : sum = rowSum t := by
    have hb := books_rowSum ops (b := (s, rowSum s)) ht rfl
    rwa [h] at hb
  refine ⟨fun d => rfl, ?_⟩
  simp only [rowSum_eq]
  exact usageIn_eq_iff

/-- VM 0 shrinks, VM 1 goes away. -/
theorem usage_agrees_shrunk :
    ∃ u, usageIn (books [.request (.writeSpec 0 (plainSpec 2)), .deleteVms (·.id == 1)]
        (start, rowSum start)).1 0 = some u ∧
      ∀ d, u.get d = (books [.request (.writeSpec 0 (plainSpec 2)), .deleteVms (·.id == 1)]
        (start, rowSum start)).2 0 d :=
  (usage_agrees_iff start_init.tables rfl 0).2.mpr fun d => by cases d <;> decide

def oneByte : VmSpec := ⟨1, 1024, some 1024, [some 1], by decide, by decide, by decide, by decide⟩

/-- **The sum wraps.**  A VM with a disk of one byte and a volume of `2 ^ 63 - 1` bytes: `usage_in`
reports `-2 ^ 63`. -/
theorem usage_wraps :
    (books [.request (.insertVmWithId oneByte 1), .request (.createVolume ⟨2 ^ 63 - 1, by decide⟩ 1)]
        (start, rowSum start)).2 1 .storageBytes = 2 ^ 63 ∧
      usageIn (books [.request (.insertVmWithId oneByte 1),
        .request (.createVolume ⟨2 ^ 63 - 1, by decide⟩ 1)] (start, rowSum start)).1 1 =
          some ⟨1, 1, 1024, 1, -2 ^ 63⟩ := by
  decide

end VQuasar.Quota
