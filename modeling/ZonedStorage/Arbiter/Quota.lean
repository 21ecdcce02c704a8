import ZonedStorage.Arbiter.Conserved

namespace EznsProof

open EznsRbc Floats Runs Arbitration FragAwareBalloon ZoneArbiter

def WithinQuota (s : Arbitration) : Prop :=
  ∀ ns config, s.arbiter.isolation.tenantConfigs.lookup ns = some config →
    spareHeldBy ns s.live ≤ config.maxSpareZones.toNat

/-- The fragmentation a request of a tenant is decided by. It is that of a new vzone if the id of the new vzone
    is the one the metadata of the tenant is looked for under. -/
def tenantFrag (mgr : UnifiedMetadataManager) (ns : UInt32) : ℚ :=
  if primaryVzone ns = mgr.nextVzoneId then 0
  else (mgr.getMetadata (primaryVzone ns)).elim 0 UnifiedMetadata.fragmentationRatio

def askedWidth (rounding : Rounding) (b : FragAwareBalloon) (frag : ℚ) (width : UInt32) : UInt32 :=
  if b.fragThreshold < frag then b.reducedWidth rounding width else width

def KeepsQuota (rounding : Rounding) (s : Arbitration) : ArbiterCall → Prop
  | .allocateVzone ns width => s.arbiter.permits rounding ns width = true →
    ∀ config, s.arbiter.isolation.tenantConfigs.lookup ns = some config →
      spareHeldBy ns s.live +
          min (askedWidth rounding s.arbiter.balloon (tenantFrag s.arbiter.metadataMgr ns) width).toNat
            s.arbiter.balloon.availableSpare.toNat ≤
        config.maxSpareZones.toNat
  | _ => True

def Registered (s : Arbitration) : Prop :=
  ∀ v ∈ s.live, v.namespaceId ∈ s.arbiter.isolation.tenantConfigs

section

variable {rounding : Rounding}

theorem grantedWidth_toNat (b : FragAwareBalloon) (frag : ℚ) (width : UInt32) :
    (b.grantedWidth rounding frag width).toNat =
      min (askedWidth rounding b frag width).toNat b.availableSpare.toNat := by
  simp only [grantedWidth, ← askedWidth.eq_1]
  split
  · rename_i short
    exact (Nat.min_eq_right (Nat.le_of_lt (UInt32.lt_iff_toNat_lt.mp short))).symm
  · rename_i enough
    exact (Nat.min_eq_left (UInt32.le_iff_toNat_le.mp (UInt32.not_lt.mp enough))).symm

theorem tenantMetadata_frag (mgr : UnifiedMetadataManager) (ns width : UInt32) :
    (tenantMetadata (mgr.createMetadata ns width).2 ns).1.fragmentationRatio =
      tenantFrag mgr ns := by
  by_cases same : primaryVzone ns = mgr.nextVzoneId
  · have found : (mgr.createMetadata ns width).2.getMetadata (primaryVzone ns) =
        some (UnifiedMetadataManager.created ns width) := by
      rw [same]
      exact AList.lookup_insert _
    rw [tenantMetadata, found, tenantFrag, if_pos same]
    rfl
  · have found : (mgr.createMetadata ns width).2.getMetadata (primaryVzone ns) = mgr.getMetadata (primaryVzone ns) :=
      AList.lookup_insert_ne same
    rw [tenantMetadata, found, tenantFrag, if_neg same]
    cases mgr.getMetadata (primaryVzone ns) with
    | none => rfl
    | some record => rfl

theorem requestZones_allocated (rounding : Rounding) (arbiter : ZoneArbiter) (ns width : UInt32) :
    (arbiter.requestZones rounding ns width).1.allocatedWidth.toNat =
      min (askedWidth rounding arbiter.balloon (tenantFrag arbiter.metadataMgr ns) width).toNat
        arbiter.balloon.availableSpare.toNat := by
  rw [← grantedWidth_toNat, ← tenantMetadata_frag arbiter.metadataMgr ns width]
  simp only [requestZones, borrowZones]
  split <;> rfl

end

theorem permits_registered {rounding : Rounding} {arbiter : ZoneArbiter} {ns width : UInt32}
    (allowed : arbiter.permits rounding ns width = true) : ns ∈ arbiter.isolation.tenantConfigs := by
  refine Classical.not_not.mp (fun absent => ?_)
  simp only [permits, TenantIsolation.checkBorrowPermission, AList.lookup_eq_none.mpr absent] at allowed
  cases allowed

theorem spareHeldBy_eraseP_le (ns : UInt32) (p : Vzone → Bool) (live : List Vzone) :
    spareHeldBy ns (live.eraseP p) ≤ spareHeldBy ns live := by
  have parts := sum_eraseP (Vzone.spareFor ns) p live
  rw [spareHeldBy, spareHeldBy, ← parts]
  exact Nat.le_add_right _ _

section

variable {rounding : Rounding} {s : Arbitration}

theorem unregistered_holds_nothing (registered : Registered s) {ns : UInt32}
    (absent : ns ∉ s.arbiter.isolation.tenantConfigs) : spareHeldBy ns s.live = 0 := by
  rw [spareHeldBy, List.sum_eq_zero_iff]
  intro n inside
  obtain ⟨v, live, rfl⟩ := List.mem_map.mp inside
  refine if_neg (fun same => absent ?_)
  rw [← same]
  exact registered v live

theorem allocateVzone_quota_iff (within : WithinQuota s) (ns width : UInt32) :
    WithinQuota (s.step rounding (.allocateVzone ns width)) ↔ KeepsQuota rounding s (.allocateVzone ns width) := by
  have configs : (s.arbiter.allocateVzone rounding ns width).2.isolation = s.arbiter.isolation := by
    simp only [allocateVzone]
    split <;> rfl
  by_cases allowed : s.arbiter.permits rounding ns width = true
  · have granted := requestZones_allocated rounding s.arbiter ns width
    simp only [KeepsQuota, WithinQuota, step, configs, allowed, if_true, true_implies,
      spareHeldBy, List.map_cons, List.sum_cons, Vzone.spareFor, granted]
    constructor
    · intro after config known
      have bound := after ns config known
      rw [if_pos rfl] at bound
      omega
    · intro keeps other config known
      have before := within other config known
      rw [spareHeldBy] at before
      by_cases same : ns = other
      · subst same
        have bound := keeps config known
        rw [if_pos rfl]
        omega
      · rw [if_neg same, Nat.zero_add]
        exact before
  · simp only [KeepsQuota, WithinQuota, step, configs, if_neg allowed]
    exact ⟨fun _ permitted => absurd permitted allowed, fun _ => within⟩

theorem registerTenant_quota (registered : Registered s) (within : WithinQuota s) (config : TenantConfig) :
    WithinQuota (s.step rounding (.registerTenant config)) := by
  intro ns found known
  simp only [step, withIsolation, TenantIsolation.registerTenant] at known ⊢
  split at known
  · exact within ns found known
  · rename_i absent
    by_cases same : ns = config.namespaceId
    · rw [same, unregistered_holds_nothing registered absent]
      exact Nat.zero_le _
    · dsimp only at known
      rw [AList.lookup_insert_ne same] at known
      exact within ns found known

theorem freeVzone_isolation (arbiter : ZoneArbiter) (id : UInt32) :
    (arbiter.freeVzone id).2.isolation = arbiter.isolation := by
  simp only [freeVzone]
  split
  · rfl
  · dsimp only
    split <;> rfl

theorem step_quota_iff (registered : Registered s) (within : WithinQuota s) (call : ArbiterCall) :
    WithinQuota (s.step rounding call) ↔ KeepsQuota rounding s call := by
  cases call with
  | registerTenant config => exact ⟨fun _ => trivial, fun _ => registerTenant_quota registered within config⟩
  | allocateVzone ns width => exact allocateVzone_quota_iff within ns width
  | freeVzone id =>
    refine ⟨fun _ => trivial, fun _ ns config known => ?_⟩
    simp only [step, freeVzone_isolation] at known ⊢
    exact Nat.le_trans (spareHeldBy_eraseP_le ns _ s.live) (within ns config known)
  | _ => exact ⟨fun _ => trivial, fun _ => within⟩

theorem step_registered (registered : Registered s) (call : ArbiterCall) : Registered (s.step rounding call) := by
  intro v live
  cases call with
  | registerTenant config =>
    have before := registered v live
    simp only [step, withIsolation, TenantIsolation.registerTenant]
    split
    · exact before
    · exact (AList.mem_insert _).mpr (.inr before)
  | allocateVzone ns width =>
    by_cases allowed : s.arbiter.permits rounding ns width = true
    · simp only [step, if_pos allowed, List.mem_cons] at live
      simp only [step, allocateVzone, if_pos allowed]
      rcases live with rfl | old
      · exact permits_registered allowed
      · exact registered v old
    · simp only [step, if_neg allowed] at live
      simp only [step, allocateVzone, if_neg allowed]
      exact registered v live
  | freeVzone id =>
    have before := registered v (List.mem_of_mem_eraseP live)
    simp only [step, freeVzone_isolation]
    exact before
  | _ => exact registered v live

end

/-- The quotas hold in a run exactly as long as every permitted allocation keeps to that of its tenant: nothing in
    the code looks at them. -/
theorem quota_enforced_iff (rounding : Rounding) (nextVzoneId maxActiveZones : UInt32) (calls : List ArbiterCall) :
    Throughout (step rounding) WithinQuota (start rounding nextVzoneId maxActiveZones) calls ↔
      EachStep (step rounding) (KeepsQuota rounding)
        (start rounding nextVzoneId maxActiveZones) calls := by
  have exact_step : ∀ s call, Registered s → WithinQuota s →
      (WithinQuota (s.step rounding call) ↔ KeepsQuota rounding s call) :=
    fun _ call registered within => step_quota_iff registered within call
  have kept : ∀ s call, Registered s → KeepsQuota rounding s call → Registered (s.step rounding call) :=
    fun _ call registered _ => step_registered registered call
  have registered : Registered (start rounding nextVzoneId maxActiveZones) :=
    fun _ live => absurd live List.not_mem_nil
  have within : WithinQuota (start rounding nextVzoneId maxActiveZones) := fun _ _ _ => Nat.zero_le _
  exact throughout_iff exact_step kept registered within calls

/-- One allocation takes five of the eight spare zones where the quota is four. -/
theorem allocation_exceeds_quota :
    ¬ Throughout (step .ieee) WithinQuota (start .ieee 1000 16) [.allocateVzone 1 5] ∧
    spareHeldBy 1 ((start .ieee 1000 16).step .ieee (.allocateVzone 1 5)).live = 5 ∧
    (((start .ieee 1000 16).step .ieee (.allocateVzone 1 5)).arbiter.isolation.tenantConfigs.lookup 1).map
      TenantConfig.maxSpareZones = some 4 := by
  have held : spareHeldBy 1 ((start .ieee 1000 16).step .ieee (.allocateVzone 1 5)).live = 5 := by
    decide +kernel
  have quota : (((start .ieee 1000 16).step .ieee
      (.allocateVzone 1 5)).arbiter.isolation.tenantConfigs.lookup 1).map TenantConfig.maxSpareZones = some 4 := by
    decide +kernel
  refine ⟨?_, held, quota⟩
  rintro ⟨_, after⟩
  obtain ⟨config, known, four⟩ := Option.map_eq_some_iff.mp quota
  have bound := after 1 config known
  rw [held, four] at bound
  exact absurd bound (by decide)

end EznsProof
