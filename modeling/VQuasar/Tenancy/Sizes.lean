import VQuasar.Tenancy.Schema

/-!
# The sizes of a validated spec

The memory of a spec goes through `u64` and `i64` arithmetic in `MemorySpec`, the quota, the
scheduler and `committed_by_host`.  `validate` bounds the hot-plug ceiling, and the size itself only
where there is no ceiling: a ceiling below the size lets any size through (`size_lost`).
-/

namespace VQuasar.Tenancy

open List
open Quota (i64 i64_eq VmSpec)

/-- `MemorySpec::size_bytes` -/
def MemorySpec.sizeBytes (m : MemorySpec) : Nat := asU64 (asU64 (m.sizeMib * 1024) * 1024)

def MemorySpec.hotplugBytes (m : MemorySpec) : Option Nat :=
  match m.maxSizeMib with
  | some max =>
    if max > m.sizeMib then some (asU64 (asU64 ((max - m.sizeMib : Nat) * 1024) * 1024)) else none
  | none => none

structure HostCommit where
  vcpus : Int
  memoryBytes : Int

variable (spec : VirtualMachineSpec)

/-- What `committed_by_host` adds for a VM. -/
def VirtualMachineSpec.commit : HostCommit :=
  ⟨i64 spec.cpu.bootVcpus, i64 spec.memory.sizeBytes⟩

/-- `passes_filters`, with the host's `logical_cpus` and `total_memory_bytes` -/
def passesFilters (logicalCpus totalMemory : Option Int) (commit : HostCommit) : Bool :=
  match logicalCpus, totalMemory with
  | some cpus, some total =>
    i64 spec.cpu.bootVcpus ≤ i64 (cpus - commit.vcpus) &&
      i64 spec.memory.sizeBytes ≤ i64 (total - commit.memoryBytes)
  | _, _ => false

/-- What a spec counts for, as numbers. -/
def VirtualMachineSpec.sizes : Quota.Amounts :=
  ⟨1, spec.cpu.maxVcpus, (spec.memory.maxSizeMib.getD spec.memory.sizeMib : Nat), 0,
    Table.total (fun b : Nat => (b : Int)) (spec.disks.filterMap (·.sizeBytes))⟩

/-- Every use of the sizes computes what they say: nothing wraps, is clamped or changes its sign,
and no less is charged than the guest boots with. -/
structure SizesSound : Prop where
  size : spec.memory.sizeBytes = spec.memory.sizeMib * 2 ^ 20
  hotplug : ∀ b, spec.memory.hotplugBytes = some b →
    ∃ max, spec.memory.maxSizeMib = some max ∧ spec.memory.sizeMib * 2 ^ 20 + b = max * 2 ^ 20
  commit : spec.commit = ⟨spec.cpu.bootVcpus, spec.memory.sizeMib * 2 ^ 20⟩
  filters : ∀ cpus total vcpus memory : Fin (2 ^ 63),
    passesFilters spec (some cpus.val) (some total.val) ⟨vcpus.val, memory.val⟩ ↔
      (vcpus.val + spec.cpu.bootVcpus : Int) ≤ cpus.val ∧
        (memory.val + spec.memory.sizeMib * 2 ^ 20 : Int) ≤ total.val
  amounts : spec.amounts = spec.sizes ∧ ∀ d, 0 ≤ spec.sizes.get d ∧ spec.sizes.get d < 2 ^ 63
  memory_le : spec.memory.sizeMib ≤ spec.amounts.memoryMib
  vcpus_le : spec.cpu.bootVcpus ≤ spec.amounts.vcpus

variable {spec}

theorem tooLarge_none : ∀ {ds : List DiskSpec} {i : Nat}, tooLarge ds i = none →
    ∀ b ∈ ds.filterMap (·.sizeBytes), b ≤ Quota.maxDiskBytes
  | [], _, _, _, hb => by cases hb
  | d :: ds, i, h, b, hb => by
    cases hd : d.sizeBytes with
    | none =>
      simp only [tooLarge, hd] at h
      exact tooLarge_none h b (by simpa [hd] using hb)
    | some size =>
      simp only [tooLarge, hd] at h
      split at h
      · cases h
      · next hle =>
        simp only [filterMap_cons, hd, mem_cons] at hb
        rcases hb with rfl | hb
        · exact Nat.not_lt.mp hle
        · exact tooLarge_none h b hb

/-- What `validate` checks; `q` is the spec as the quota counts it. -/
theorem validate_ok {x : Unit} (h : spec.validate = .ok x) :
    spec.networkInterfaces.length ≤ 16 ∧ spec.cpu.bootVcpus ≤ spec.cpu.maxVcpus ∧
      spec.cpu.maxVcpus ≤ 512 ∧ spec.memory.maxSizeMib.getD spec.memory.sizeMib ≤ 4 * 1024 * 1024 ∧
      ∃ q : VmSpec, spec.amounts = Quota.Amounts.ofVm q ∧ spec.sizes = q.counted := by
  replace h := of_ensure h
  obtain ⟨hboot, h⟩ := ensure_bind.mp h
  obtain ⟨hcpus, h⟩ := ensure_bind.mp h
  replace h := of_ensure h
  obtain ⟨hmem, h⟩ := ensure_bind.mp h
  obtain ⟨hdisks, h⟩ := ensure_bind.mp h
  obtain ⟨hnics, h⟩ := ensure_bind.mp h
  have hmem := of_decide_eq_true hmem
  have hcpus := of_decide_eq_true hcpus
  refine ⟨of_decide_eq_true hnics, of_decide_eq_true hboot, hcpus, hmem, ?_⟩
  cases htoo : tooLarge spec.disks 0 with
  | some y => simp [htoo] at h
  | none =>
  refine ⟨⟨_, _, spec.memory.maxSizeMib, spec.disks.map (·.sizeBytes), hcpus, hmem,
    by simpa using hdisks, by simpa [filterMap_map] using tooLarge_none htoo⟩, ?_, ?_⟩
  · simp [VirtualMachineSpec.amounts, Quota.Amounts.ofVm, filterMap_map]
  · simp [VirtualMachineSpec.sizes, VmSpec.counted, filterMap_map]

theorem asU64_mib {n : Nat} (h : n ≤ 4 * 1024 * 1024) :
    asU64 (asU64 ((n : Int) * 1024) * 1024) = n * 2 ^ 20 := by
  unfold asU64
  omega

/-- **Sizes are sound unless the ceiling is below the size.** -/
theorem sizes_sound_iff {spec : VirtualMachineSpec} (h : spec.validate = .ok ()) : SizesSound spec ↔
    ∀ max, spec.memory.maxSizeMib = some max → spec.memory.sizeMib ≤ max := by
  obtain ⟨-, hboot, hcpus, hmem, q, hq, hsizes⟩ := validate_ok h
  have hamounts : spec.amounts = spec.sizes := by rw [hq, hsizes, Quota.ofVm_eq_counted]
  constructor
  · intro hs max hm
    have hle := hs.memory_le
    rw [hamounts, VirtualMachineSpec.sizes, hm] at hle
    exact Int.ofNat_le.mp hle
  · intro hle
    have hsmall : spec.memory.sizeMib ≤ spec.memory.maxSizeMib.getD spec.memory.sizeMib := by
      cases hm : spec.memory.maxSizeMib with
      | none => exact Nat.le_refl _
      | some => exact hle _ hm
    have hbytes : spec.memory.sizeBytes = spec.memory.sizeMib * 2 ^ 20 :=
      asU64_mib (Nat.le_trans hsmall hmem)
    have hvcpus : i64 spec.cpu.bootVcpus = spec.cpu.bootVcpus := i64_eq (by omega) (by omega)
    have hmemory : i64 spec.memory.sizeBytes = spec.memory.sizeMib * 2 ^ 20 := by
      rw [hbytes, i64_eq (by omega) (by omega)]
      push_cast
      rfl
    refine ⟨hbytes, ?_, by rw [VirtualMachineSpec.commit, hvcpus, hmemory], ?_,
      ⟨hamounts, fun d => ?_⟩, ?_, ?_⟩
    · intro b hb
      unfold MemorySpec.hotplugBytes at hb
      split at hb
      · next max hm =>
        split at hb
        · next hlt =>
          rw [hm] at hmem
          have hsub : max - spec.memory.sizeMib ≤ 4 * 1024 * 1024 :=
            Nat.le_trans (Nat.sub_le _ _) hmem
          cases hb
          refine ⟨max, hm, ?_⟩
          rw [asU64_mib hsub]
          omega
        · cases hb
      · cases hb
    · rintro ⟨cpus, _⟩ ⟨total, _⟩ ⟨vcpus, _⟩ ⟨memory, _⟩
      simp only [passesFilters, hvcpus, hmemory, Bool.and_eq_true, decide_eq_true_eq]
      rw [i64_eq (by omega) (by omega), i64_eq (by omega) (by omega), le_sub_iff_add_le',
        le_sub_iff_add_le']
    · rw [hsizes]
      exact ⟨Quota.counted_nonneg q d, Quota.counted_lt q d⟩
    · rw [hamounts]
      exact Int.ofNat_le.mpr hsmall
    · rw [hamounts]
      exact Int.ofNat_le.mpr hboot

/-- A spec with one vCPU. -/
def sized (memory : MemorySpec) : VirtualMachineSpec :=
  ⟨.running, ⟨1, 1⟩, memory, .firmware ⟨true, []⟩, [], [], none, none, .standard⟩

theorem sizes_sound_ceiling : SizesSound (sized ⟨1024, some 2048⟩) :=
  (sizes_sound_iff rfl).mpr fun max h => by
    cases h
    decide

/-- **A size is lost.**  With a ceiling of 64 MiB the spec may ask for `2 ^ 44` MiB: that is 0 bytes
for the agent and the scheduler, and 64 MiB for the quota. -/
theorem size_lost : (sized ⟨2 ^ 44, some 64⟩).validate = .ok () ∧
    (sized ⟨2 ^ 44, some 64⟩).memory.sizeBytes = 0 ∧
      (sized ⟨2 ^ 44, some 64⟩).amounts.memoryMib = 64 := by
  decide

end VQuasar.Tenancy
