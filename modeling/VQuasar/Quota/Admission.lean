import Mathlib.Algebra.Order.Ring.Int
import VQuasar.Lib.Table

/-!
# Amounts, limits and the admission check

The pure part of `quota.rs`: what a VM and a volume count for, the change an edit makes, and
`check`, the comparison of usage and demand with the limits.  `i64` arithmetic wraps in a release
build, so sums carry an explicit `i64`.

The counted amounts of a VM are described twice: `Amounts.ofVm` computes them from the spec of a
request, and the SQL of `usage_in` from the stored JSON (`VmSpec.counted`).  `ofVm_eq_counted`
shows that the two agree on every validated spec.
-/

namespace VQuasar.Quota

open Table List Option

/-! ## 64-bit arithmetic -/

/-- The value an `i64` sum wraps to. -/
def i64 (x : Int) : Int := Int.bmod x (2 ^ 64)

def i64Max : Nat := 2 ^ 63 - 1

theorem i64_eq {x : Int} (h : -(2 ^ 63) ≤ x) (h' : x < 2 ^ 63) : i64 x = x := by
  unfold i64
  rw [Int.bmod_eq_of_le] <;> omega

theorem i64_le {x : Int} (h : 0 ≤ x) : i64 x ≤ x := by
  unfold i64
  rw [Int.bmod_def, show ((2 ^ 64 : Nat) : Int) = 18446744073709551616 from rfl]
  split <;> omega

/-! ## Amounts -/

/-- The dimensions a project is capped on. -/
inductive Dimension
  | vms | vcpus | memoryMib | volumes | storageBytes
deriving DecidableEq, Repr

structure Amounts where
  vms : Int
  vcpus : Int
  memoryMib : Int
  volumes : Int
  storageBytes : Int
deriving DecidableEq, Repr

structure Limits where
  maxVms : Option Int
  maxVcpus : Option Int
  maxMemoryMib : Option Int
  maxVolumes : Option Int
  maxStorageBytes : Option Int
deriving DecidableEq, Repr

def Dimension.name : Dimension → String
  | .vms => "vms"
  | .vcpus => "vcpus"
  | .memoryMib => "memory_mib"
  | .volumes => "volumes"
  | .storageBytes => "storage_bytes"

def Dimension.all : List Dimension := [.vms, .vcpus, .memoryMib, .volumes, .storageBytes]

open Dimension

theorem Dimension.mem_all (d : Dimension) : d ∈ all := by
  cases d <;> simp [all]

def Amounts.get (a : Amounts) : Dimension → Int
  | .vms => a.vms
  | .vcpus => a.vcpus
  | .memoryMib => a.memoryMib
  | .volumes => a.volumes
  | .storageBytes => a.storageBytes

def Limits.get (l : Limits) : Dimension → Option Int
  | .vms => l.maxVms
  | .vcpus => l.maxVcpus
  | .memoryMib => l.maxMemoryMib
  | .volumes => l.maxVolumes
  | .storageBytes => l.maxStorageBytes

def Amounts.dimensions (a : Amounts) : List (String × Int) :=
  all.map fun d => (d.name, a.get d)

def Limits.dimensions (l : Limits) : List (String × Option Int) :=
  all.map fun d => (d.name, l.get d)

def Amounts.delta (before after : Amounts) : Amounts where
  vms := i64 (after.vms - before.vms)
  vcpus := i64 (after.vcpus - before.vcpus)
  memoryMib := i64 (after.memoryMib - before.memoryMib)
  volumes := i64 (after.volumes - before.volumes)
  storageBytes := i64 (after.storageBytes - before.storageBytes)

theorem Amounts.delta_get (a b : Amounts) (d : Dimension) :
    (a.delta b).get d = i64 (b.get d - a.get d) := by
  cases d <;> rfl

/-! ## What a VM and a volume count for -/

def maxDiskBytes : Nat := 64 * 1024 * 1024 * 1024 * 1024

/-- The fields of a VM spec that count against a quota, within the bounds `validate` enforces on
every spec before it is stored; `disks` are the disks' `size_bytes`. -/
structure VmSpec where
  maxVcpus : Nat
  sizeMib : Nat
  maxSizeMib : Option Nat
  disks : List (Option Nat)
  vcpus_le : maxVcpus ≤ 512
  memory_le : maxSizeMib.getD sizeMib ≤ 4 * 1024 * 1024
  disks_le : disks.length ≤ 64
  disk_le : ∀ b ∈ disks.filterMap id, b ≤ maxDiskBytes
deriving DecidableEq

/-- `disks.iter().filter_map(size_bytes).map(min i64::MAX).sum()` -/
def sumSizes : List Nat → Int → Int
  | [], acc => acc
  | b :: bs, acc => sumSizes bs (i64 (acc + min b i64Max))

variable (spec : VmSpec) (d : Dimension) {limits : Limits} {usage demand : Amounts}

def Amounts.ofVm : Amounts where
  vms := 1
  vcpus := spec.maxVcpus
  memoryMib := (min (spec.maxSizeMib.getD spec.sizeMib) i64Max : Nat)
  volumes := 0
  storageBytes := sumSizes (spec.disks.filterMap id) 0

/-- `Amounts::of_volume`; a size is a non-negative `i64`. -/
def Amounts.ofVolume (size : Fin (2 ^ 63)) : Amounts := ⟨0, 0, 0, 1, size.val⟩

/-- What the SQL of `usage_in` adds up for one VM row. -/
def VmSpec.counted : Amounts where
  vms := 1
  vcpus := spec.maxVcpus
  memoryMib := (spec.maxSizeMib.getD spec.sizeMib : Nat)
  volumes := 0
  storageBytes := total (fun b : Nat => (b : Int)) (spec.disks.filterMap id)

theorem sizes_le : ((spec.disks.filterMap id).length : Int) * maxDiskBytes ≤ 64 * maxDiskBytes := by
  have hlen : (spec.disks.filterMap id).length ≤ 64 :=
    le_trans (length_filterMap_le id spec.disks) spec.disks_le
  exact Int.mul_le_mul_of_nonneg_right (by exact_mod_cast hlen) (Int.natCast_nonneg _)

/-- While the running sum stays small nothing is clamped and nothing wraps. -/
theorem sumSizes_eq : ∀ (bs : List Nat) (acc : Int), (∀ b ∈ bs, b ≤ maxDiskBytes) →
    0 ≤ acc → acc + bs.length * maxDiskBytes < 2 ^ 63 →
    sumSizes bs acc = acc + total (fun b : Nat => (b : Int)) bs := by
  intro bs
  induction bs with
  | nil =>
    intro acc _ _ _
    simp [sumSizes]
  | cons b bs ih =>
    intro acc hb h0 hlt
    have hb0 : b ≤ maxDiskBytes := hb b (by simp)
    have hmin : min b i64Max = b := by
      have : maxDiskBytes ≤ i64Max := by decide
      omega
    have hlen : ((b :: bs).length : Int) * maxDiskBytes = bs.length * maxDiskBytes + maxDiskBytes := by
      push_cast [length_cons]
      rw [Int.add_mul, Int.one_mul]
    have hpos : (0 : Int) ≤ bs.length * maxDiskBytes :=
      Int.mul_nonneg (Int.natCast_nonneg _) (Int.natCast_nonneg _)
    have hacc : i64 (acc + (b : Int)) = acc + b := i64_eq (by omega) (by omega)
    simp only [sumSizes, hmin, total_cons]
    rw [hacc, ih (acc + b) (fun c hc => hb c (by simp [hc])) (by omega) (by omega)]
    omega

open Amounts

/-- The request side and the SQL side count a validated spec alike. -/
theorem ofVm_eq_counted : ofVm spec = spec.counted := by
  have hmem : min (spec.maxSizeMib.getD spec.sizeMib) i64Max = spec.maxSizeMib.getD spec.sizeMib := by
    have h := spec.memory_le
    have : 4 * 1024 * 1024 ≤ i64Max := by decide
    omega
  have hdisk : sumSizes (spec.disks.filterMap id) 0 =
      total (fun b : Nat => (b : Int)) (spec.disks.filterMap id) := by
    have hbig : (64 : Int) * maxDiskBytes < 2 ^ 63 := by decide
    have hmul := sizes_le spec
    rw [sumSizes_eq _ 0 spec.disk_le le_rfl (by omega)]
    simp
  simp only [ofVm, VmSpec.counted, hmem, hdisk]

theorem counted_nonneg : 0 ≤ spec.counted.get d := by
  cases d with
  | vms => exact Int.one_nonneg
  | vcpus | memoryMib => exact Int.natCast_nonneg _
  | volumes => exact le_rfl
  | storageBytes => exact total_nonneg fun b _ => Int.natCast_nonneg b

theorem ofVolume_nonneg (size : Fin (2 ^ 63)) (d : Dimension) :
    0 ≤ (ofVolume size).get d := by
  cases d with
  | vms | vcpus | memoryMib => exact Int.le_refl 0
  | volumes => exact Int.one_nonneg
  | storageBytes => exact Int.natCast_nonneg _

/-- The counted amounts of a spec are far from the ends of `i64`, so a `delta` is exact. -/
theorem counted_lt : spec.counted.get d < 2 ^ 63 := by
  cases d with
  | vms =>
    show (1 : Int) < 2 ^ 63
    decide
  | vcpus =>
    have h := spec.vcpus_le
    show (spec.maxVcpus : Int) < 2 ^ 63
    omega
  | memoryMib =>
    have h := spec.memory_le
    show ((spec.maxSizeMib.getD spec.sizeMib : Nat) : Int) < 2 ^ 63
    omega
  | volumes =>
    show (0 : Int) < 2 ^ 63
    decide
  | storageBytes =>
    have hsum : ∀ bs : List Nat, (∀ b ∈ bs, b ≤ maxDiskBytes) →
        total (fun b : Nat => (b : Int)) bs ≤ bs.length * maxDiskBytes := by
      intro bs
      induction bs with
      | nil => intro _; simp
      | cons b bs ih =>
        intro hb
        have hb0 : (b : Int) ≤ maxDiskBytes := by exact_mod_cast hb b (by simp)
        have hbs := ih fun c hc => hb c (by simp [hc])
        rw [total_cons, length_cons]
        push_cast
        rw [Int.add_mul, Int.one_mul]
        omega
    have hmul := sizes_le spec
    have hbig : (64 : Int) * maxDiskBytes < 2 ^ 63 := by decide
    have h := hsum _ spec.disk_le
    show total (fun b : Nat => (b : Int)) (spec.disks.filterMap id) < 2 ^ 63
    omega

theorem delta_counted (before after : VmSpec) (d : Dimension) :
    ((ofVm before).delta (ofVm after)).get d =
      after.counted.get d - before.counted.get d := by
  rw [delta_get, ofVm_eq_counted, ofVm_eq_counted]
  have h1 := counted_nonneg before d
  have h2 := counted_nonneg after d
  have h3 := counted_lt before d
  have h4 := counted_lt after d
  exact i64_eq (by omega) (by omega)

/-- The demand of `finalize_volume`. -/
def Amounts.resize (reserved size : Fin (2 ^ 63)) : Amounts :=
  ⟨0, 0, 0, 0, i64 ((size.val : Int) - reserved.val)⟩

theorem resize_get (reserved size : Fin (2 ^ 63)) (d : Dimension) :
    (resize reserved size).get d =
      (ofVolume size).get d - (ofVolume reserved).get d := by
  cases d with
  | storageBytes =>
    have h1 := reserved.isLt
    have h2 := size.isLt
    exact i64_eq (by omega) (by omega)
  | _ => rfl

/-! ## The check -/

/-- A refused admission, naming the dimension and the arithmetic behind it. -/
structure Exceeded where
  dimension : String
  limit : Int
  inUse : Int
  requested : Int
deriving DecidableEq, Repr

def checkLoop : List ((String × Option Int) × (String × Int) × (String × Int)) →
    Except Exceeded Unit
  | [] => .ok ()
  | ((dim, limit), (_, used), (_, want)) :: rest =>
    match limit with
    | none => checkLoop rest
    | some limit =>
      -- a request that frees resources is always admissible
      if want ≤ 0 then checkLoop rest
      else if i64 (used + want) > limit then .error ⟨dim, limit, used, want⟩
      else checkLoop rest

/-- `check`: the first dimension in which usage and demand exceed the limit is refused. -/
def check (limits : Limits) (usage demand : Amounts) : Except Exceeded Unit :=
  checkLoop (limits.dimensions.zip (usage.dimensions.zip demand.dimensions))

/-- What `check` refuses in dimension `d`. -/
def Refused (limits : Limits) (usage demand : Amounts) (d : Dimension) (n : Int) : Prop :=
  limits.get d = some n ∧ 0 < demand.get d ∧ n < i64 (usage.get d + demand.get d)

theorem checkLoop_spec (limits : Limits) (usage demand : Amounts) (ds : List Dimension) :
    checkLoop ((ds.map fun d => (d.name, limits.get d)).zip
        ((ds.map fun d => (d.name, usage.get d)).zip (ds.map fun d => (d.name, demand.get d)))) =
        .ok () ∧ (∀ d ∈ ds, ∀ n, ¬Refused limits usage demand d n) ∨
    ∃ d ∈ ds, ∃ n, Refused limits usage demand d n ∧
      checkLoop ((ds.map fun d => (d.name, limits.get d)).zip
        ((ds.map fun d => (d.name, usage.get d)).zip (ds.map fun d => (d.name, demand.get d)))) =
        .error ⟨d.name, n, usage.get d, demand.get d⟩ := by
  induction ds with
  | nil => exact .inl ⟨rfl, by simp⟩
  | cons d ds ih =>
    simp only [map_cons, zip_cons_cons, checkLoop]
    -- the head is refused, or the loop goes on with the tail
    by_cases href : ∃ n, Refused limits usage demand d n
    · obtain ⟨n, hl, hw, hlt⟩ := href
      refine .inr ⟨d, by simp, n, ⟨hl, hw, hlt⟩, ?_⟩
      simp only [hl]
      rw [if_neg (by omega), if_pos hlt]
    · have hgo : ∀ (rest : Except Exceeded Unit),
          (match limits.get d with
            | none => rest
            | some limit =>
              if demand.get d ≤ 0 then rest
              else if i64 (usage.get d + demand.get d) > limit then
                .error ⟨d.name, limit, usage.get d, demand.get d⟩
              else rest) = rest := by
        intro rest
        split
        · rfl
        · next limit hl =>
          split
          · rfl
          · next hw =>
            rw [if_neg]
            intro hlt
            exact href ⟨limit, hl, by omega, hlt⟩
      rw [hgo]
      rcases ih with ⟨hok, hnone⟩ | ⟨d', hd', n, hr, herr⟩
      · refine .inl ⟨hok, ?_⟩
        intro d' hd' n hr
        rcases mem_cons.mp hd' with rfl | hd'
        · exact href ⟨n, hr⟩
        · exact hnone d' hd' n hr
      · exact .inr ⟨d', by simp [hd'], n, hr, herr⟩

/-- An admitted demand fits, as far as `i64` can tell, in every limited dimension it grows. -/
theorem check_ok (h : check limits usage demand = .ok ()) {d : Dimension} {n : Int}
    (hl : limits.get d = some n) (hw : 0 < demand.get d) :
    i64 (usage.get d + demand.get d) ≤ n := by
  rcases checkLoop_spec limits usage demand all with ⟨-, hnone⟩ | ⟨d', -, n', -, herr⟩
  · by_contra hc
    exact hnone d d.mem_all n ⟨hl, hw, by omega⟩
  · unfold check Limits.dimensions dimensions at h
    simp [herr] at h

/-- A refusal names a dimension the demand does not fit in, with its limit, usage and demand. -/
theorem check_error {e : Exceeded} (h : check limits usage demand = .error e) :
    ∃ d n, Refused limits usage demand d n ∧ e = ⟨d.name, n, usage.get d, demand.get d⟩ := by
  rcases checkLoop_spec limits usage demand all with ⟨hok, -⟩ | ⟨d, -, n, hr, herr⟩
  · unfold check Limits.dimensions dimensions at h
    simp [hok] at h
  · unfold check Limits.dimensions dimensions at h
    rw [herr] at h
    exact ⟨d, n, hr, (Except.error.inj h).symm⟩

-- exactly at the limit fits; one more does not
example : check ⟨some 2, none, none, none, none⟩ ⟨1, 0, 0, 0, 0⟩ ⟨1, 0, 0, 0, 0⟩ = .ok () := by
  decide

example : check ⟨some 2, none, none, none, none⟩ ⟨2, 0, 0, 0, 0⟩ ⟨1, 0, 0, 0, 0⟩ =
    .error ⟨"vms", 2, 2, 1⟩ := by
  decide

end VQuasar.Quota
