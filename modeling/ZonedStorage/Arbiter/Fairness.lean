import ZonedStorage.Arbiter.Admission
import ZonedStorage.Integrated.Lending

namespace EznsProof

open EznsRbc Floats EznsRbcIntegrated.TenantIsolation EznsIntegratedProof List Averages

def metric (frag : ℚ) : ℚ := 1 / (frag + 1 / 10)

/-- What is expected of a fairness index for tenants with these fragmentations. `tenants` is one order of the keys
    of a map, and `index` is computed along an order. -/
structure FairIndex (frag : UInt32 → ℚ) (index : List UInt32 → ℚ) (keys tenants : List UInt32) : Prop where
  metrics : ∀ ns ∈ tenants, frag ns + 1 / 10 ≠ 0
  divisor : (tenants.length : ℚ) * sumSq (tenants.map (fun ns => metric (frag ns))) ≠ 0
  lower : 1 / (keys.length : ℚ) ≤ index tenants
  upper : index tenants ≤ 1
  equal : index tenants = 1 ↔ ∀ ns ∈ keys, ∀ ns' ∈ keys, frag ns = frag ns'
  order : ∀ others : List UInt32, others.Perm keys → index others = index tenants

section

variable {frag : UInt32 → ℚ} {tenants keys : List UInt32}

theorem metric_pos {q : ℚ} (nonneg : 0 ≤ q) : 0 < metric q := by
  apply one_div_pos.mpr
  linarith

theorem metric_eq {p q : ℚ} (left : 0 ≤ p) (right : 0 ≤ q) : metric p = metric q ↔ p = q := by
  unfold metric
  rw [div_eq_div_iff (by linarith) (by linarith)]
  constructor
  · intro same
    linarith
  · intro same
    linarith

theorem fairIndex_of_jain {index : List UInt32 → ℚ} (walked : tenants.Perm keys) (some : keys ≠ [])
    (nonneg : ∀ ns ∈ keys, 0 ≤ frag ns)
    (computes : ∀ others : List UInt32, others ≠ [] → others.Perm keys →
      index others = jain (others.map (fun ns => metric (frag ns)))) :
    FairIndex frag index keys tenants := by
  have nonempty : ∀ others : List UInt32, others.Perm keys → others ≠ [] := by
    rintro others perm rfl
    exact some perm.nil_eq.symm
  have listed : ∀ ns ∈ tenants, 0 ≤ frag ns := fun ns member => nonneg ns (walked.mem_iff.mp member)
  have filled : tenants.map (fun ns => metric (frag ns)) ≠ [] := by
    rw [ne_eq, map_eq_nil_iff]
    exact nonempty tenants walked
  have positive : ∀ x ∈ tenants.map (fun ns => metric (frag ns)), 0 < x := by
    intro x member
    obtain ⟨ns, inside, rfl⟩ := mem_map.mp member
    exact metric_pos (listed ns inside)
  have value := computes tenants (nonempty tenants walked) walked
  have count : (keys.length : ℚ) = (tenants.map (fun ns => metric (frag ns))).length := by
    rw [length_map, walked.length_eq]
  constructor
  case metrics =>
    intro ns member
    have := listed ns member
    linarith
  case divisor =>
    have divisor := length_mul_sumSq_pos filled positive
    rw [length_map] at divisor
    exact divisor.ne'
  case lower =>
    rw [value, count]
    exact one_div_length_le_jain filled positive
  case upper =>
    rw [value]
    exact jain_le_one filled positive
  case equal =>
    rw [value, jain_eq_one filled positive]
    constructor
    · intro same ns member ns' member'
      apply (metric_eq (nonneg ns member) (nonneg ns' member')).mp
      exact same _ (mem_map_of_mem (walked.mem_iff.mpr member)) _
        (mem_map_of_mem (walked.mem_iff.mpr member'))
    · intro same x member y member'
      obtain ⟨ns, inside, rfl⟩ := mem_map.mp member
      obtain ⟨ns', inside', rfl⟩ := mem_map.mp member'
      rw [same ns (walked.mem_iff.mp inside) ns' (walked.mem_iff.mp inside')]
  case order =>
    intro others perm
    rw [value, computes others (nonempty others perm) perm]
    exact jain_perm ((perm.trans walked.symm).map _)

end

def vzoneFragmentation (getVzone : UInt32 → Option EznsRbcIntegrated.UnifiedVZoneMeta) (ns : UInt32) : ℚ :=
  ((getVzone (ns * 100 + 1)).map (·.fragmentationRatio)).getD 0

theorem currentFragmentation_eq {getVzone : UInt32 → Option EznsRbcIntegrated.UnifiedVZoneMeta} {ns : UInt32}
    (known : (getVzone (ns * 100 + 1)).isSome) (left : EznsRbcIntegrated.Uninitialised) :
    currentFragmentation getVzone left ns = vzoneFragmentation getVzone ns := by
  obtain ⟨record, found⟩ := Option.isSome_iff_exists.mp known
  simp only [currentFragmentation, vzoneFragmentation, found, Option.map_some, Option.getD_some]

/-- The fairness indices of both classes, in exact arithmetic, for tenants with fragmentations that are not
    negative. In the integrated class the tenants have a vzone each to have a fragmentation. -/
theorem fairness_index_bounds : (∀ (iso : TenantIsolation) (mgr : UnifiedMetadataManager) (tenants : List UInt32),
      tenants.Perm iso.tenantConfigs.keys → iso.tenantConfigs.keys ≠ [] →
      (∀ ns ∈ iso.tenantConfigs.keys, 0 ≤ TenantIsolation.currentFragmentation mgr ns) →
      FairIndex (TenantIsolation.currentFragmentation mgr) (TenantIsolation.calculateFairnessIndex .exact mgr)
        iso.tenantConfigs.keys tenants) ∧
    ∀ (iso : EznsRbcIntegrated.TenantIsolation) (getVzone : UInt32 → Option EznsRbcIntegrated.UnifiedVZoneMeta)
      (left : Nat → EznsRbcIntegrated.Uninitialised) (tenants : List UInt32),
      tenants.Perm iso.tenantConfigs.keys → iso.tenantConfigs.keys ≠ [] →
      (∀ ns ∈ iso.tenantConfigs.keys, (getVzone (ns * 100 + 1)).isSome ∧ 0 ≤ vzoneFragmentation getVzone ns) →
      FairIndex (vzoneFragmentation getVzone) (calculateFairnessIndex .exact getVzone left)
        iso.tenantConfigs.keys tenants := by
  constructor
  · intro iso mgr tenants walked some nonneg
    apply fairIndex_of_jain walked some nonneg
    intro others filled _
    unfold TenantIsolation.calculateFairnessIndex
    rw [if_neg filled, Rounding.fairness_exact]
    rfl
  · intro iso getVzone left tenants walked some known
    apply fairIndex_of_jain walked some (fun ns member => (known ns member).2)
    intro others filled perm
    have metrics : others.mapIdx (fun turn ns => metric (currentFragmentation getVzone (left turn) ns)) =
        others.map (fun ns => metric (vzoneFragmentation getVzone ns)) := by
      refine ext_getElem (by simp) (fun turn _ inside => ?_)
      rw [getElem_mapIdx, getElem_map]
      exact congrArg metric (currentFragmentation_eq (known _ (perm.mem_iff.mp (getElem_mem _))).1 _)
    unfold calculateFairnessIndex
    rw [if_neg filled, Rounding.fairness_exact, ← metrics]
    rfl

theorem of_mem_pair {p : UInt32 → Prop} {first second ns : UInt32} (member : ns ∈ [first, second])
    (one : p first) (two : p second) : p ns := by
  rcases mem_cons.mp member with rfl | rest
  · exact one
  · rw [mem_singleton.mp rest]
    exact two

def fragmentedFirst (vzoneId : UInt32) : Option EznsRbcIntegrated.UnifiedVZoneMeta :=
  if vzoneId = 101 then some ⟨1 / 2, 0, 0⟩ else if vzoneId = 201 then some ⟨0, 0, 0⟩ else none

/-- One of two tenants is fragmented, so that the index of either class is below 1. -/
theorem fragmented_tenants_unfair : TenantIsolation.calculateFairnessIndex .exact halfFragmented [10, 2] ≠ 1 ∧
      calculateFairnessIndex .exact fragmentedFirst (fun _ => ⟨0, 0⟩) [1, 2] ≠ 1 := by
  have walked : [10, 2].Perm twoTenants.tenantConfigs.keys := by decide +kernel
  have nonneg : ∀ ns ∈ twoTenants.tenantConfigs.keys, 0 ≤ TenantIsolation.currentFragmentation halfFragmented ns := by
    intro ns member
    apply of_mem_pair (walked.mem_iff.mpr member)
    · decide +kernel
    · decide +kernel
  have walked' : [1, 2].Perm lenderAndBorrower.tenantConfigs.keys := by decide +kernel
  have known : ∀ ns ∈ lenderAndBorrower.tenantConfigs.keys,
      (fragmentedFirst (ns * 100 + 1)).isSome ∧ 0 ≤ vzoneFragmentation fragmentedFirst ns := by
    intro ns member
    apply of_mem_pair (walked'.mem_iff.mpr member)
    · decide +kernel
    · decide +kernel
  constructor
  · intro fair
    have index := fairness_index_bounds.1 twoTenants halfFragmented [10, 2] walked (by decide +kernel) nonneg
    have same := index.equal.mp fair 10 (by decide +kernel) 2 (by decide +kernel)
    exact absurd same (by decide +kernel)
  · intro fair
    have index := fairness_index_bounds.2 lenderAndBorrower fragmentedFirst (fun _ => ⟨0, 0⟩) [1, 2] walked'
      (by decide +kernel) known
    have same := index.equal.mp fair 1 (by decide +kernel) 2 (by decide +kernel)
    exact absurd same (by decide +kernel)

end EznsProof
