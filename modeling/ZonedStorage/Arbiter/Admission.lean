import ZonedStorage.Arbiter.Remapped
import ZonedStorage.Arbiter.TenantIsolation

namespace EznsProof

open EznsRbc EznsRbc.TenantIsolation Floats

def withFragmentation (mgr : UnifiedMetadataManager) (ns : UInt32) (frag : ℚ) : UnifiedMetadataManager :=
  mgr.modify (primaryVzone ns) (fun record => { record with fragmentationRatio := frag })

/-- The decision of `check_borrow_permission` in exact arithmetic. -/
def Allowed (iso : TenantIsolation) (mgr : UnifiedMetadataManager) (lender borrower width : UInt32) : Prop :=
  (iso.checkBorrowPermission .exact mgr lender borrower width).allowed = true

def WithinLimit (iso : TenantIsolation) (mgr : UnifiedMetadataManager) (lender borrower width : UInt32) : Prop :=
  Allowed iso mgr lender borrower width → ∀ cfg, iso.tenantConfigs.lookup lender = some cfg →
    currentFragmentation mgr lender + 5 / 1000 * width.toNat ≤ 12 / 10 * cfg.maxFragmentation

/-- What is allowed stays allowed at a lower fragmentation and a smaller width. -/
def MonotoneAdmission (iso : TenantIsolation) (mgr : UnifiedMetadataManager) (lender borrower : UInt32) : Prop :=
  ∀ frag frag' width width', frag' ≤ frag → width' ≤ width →
    Allowed iso (withFragmentation mgr lender frag) lender borrower width →
    Allowed iso (withFragmentation mgr lender frag') lender borrower width'

/-- A width that none of the checks stops leaves the fragmentation of the lender within its limit. -/
def Tolerable (iso : TenantIsolation) (mgr : UnifiedMetadataManager) (lender borrower width : UInt32) : Prop :=
  ∀ cfg, iso.tenantConfigs.lookup lender = some cfg → borrower ∈ iso.tenantConfigs → lender ∉ iso.throttledTenants →
    checkLatencySla .exact iso mgr lender = true → (5 / 1000 * width.toNat : ℚ) ≤ 2 / 10 * cfg.maxFragmentation →
    currentFragmentation mgr lender + 5 / 1000 * width.toNat ≤ 12 / 10 * cfg.maxFragmentation

section

variable {iso : TenantIsolation} {mgr : UnifiedMetadataManager} {lender borrower width : UInt32}

theorem newFrag_within (cfg : TenantConfig) (width : UInt32) :
    ¬cfg.maxFragmentation * (12 / 10) < cfg.maxFragmentation + (width.toNat : ℚ) * (5 / 1000) ↔
      (5 / 1000 * width.toNat : ℚ) ≤ 2 / 10 * cfg.maxFragmentation := by
  constructor
  · intro within
    linarith
  · intro within
    linarith

theorem allowed_iff : Allowed iso mgr lender borrower width ↔
    ∃ cfg, iso.tenantConfigs.lookup lender = some cfg ∧ borrower ∈ iso.tenantConfigs ∧
      lender ∉ iso.throttledTenants ∧ (5 / 1000 * width.toNat : ℚ) ≤ 2 / 10 * cfg.maxFragmentation ∧
      checkLatencySla .exact iso mgr lender = true := by
  unfold Allowed checkBorrowPermission
  generalize checkLatencySla .exact iso mgr lender = met
  cases registered : iso.tenantConfigs.lookup lender with
  | none => simp
  | some cfg =>
    have within := newFrag_within cfg width
    simp only [predictFragImpact, Rounding.exact, id_eq, Option.some.injEq, exists_eq_left']
    by_cases listed : borrower ∈ iso.tenantConfigs
    · rw [if_neg (not_not.mpr listed)]
      by_cases throttled : lender ∈ iso.throttledTenants
      · simp [throttled]
      · rw [if_neg throttled]
        rw [← within]
        by_cases heavy : cfg.maxFragmentation * (12 / 10) < cfg.maxFragmentation + (width.toNat : ℚ) * (5 / 1000)
        · simp [heavy]
        · cases met with
          | false => simp [heavy]
          | true => simp [listed, throttled, heavy]
    · simp [listed]

theorem lookup_withFragmentation (mgr : UnifiedMetadataManager) (ns vzone : UInt32) (frag : ℚ) :
    ∃ change : UnifiedMetadata → ℚ, (withFragmentation mgr ns frag).getMetadata vzone =
      (mgr.getMetadata vzone).map (fun record => { record with fragmentationRatio := change record }) := by
  unfold withFragmentation
  rw [getMetadata_modify]
  by_cases same : vzone = primaryVzone ns
  · refine ⟨fun _ => frag, ?_⟩
    rw [if_pos same, same]
  · refine ⟨UnifiedMetadata.fragmentationRatio, ?_⟩
    rw [if_neg same]
    cases mgr.getMetadata vzone with
    | none => rfl
    | some record => rfl

theorem checkLatencySla_withFragmentation (mgr : UnifiedMetadataManager) (ns : UInt32) (frag : ℚ) (lender : UInt32) :
    checkLatencySla .exact iso (withFragmentation mgr ns frag) lender = checkLatencySla .exact iso mgr lender := by
  have latency : avgReadLatencyUs .exact (withFragmentation mgr ns frag) lender =
      avgReadLatencyUs .exact mgr lender := by
    obtain ⟨change, changed⟩ := lookup_withFragmentation mgr ns (primaryVzone lender) frag
    unfold avgReadLatencyUs
    rw [changed]
    cases mgr.getMetadata (primaryVzone lender) with
    | none => rfl
    | some record => rfl
  unfold checkLatencySla
  rw [latency]

theorem monotoneAdmission (iso : TenantIsolation) (mgr : UnifiedMetadataManager) (lender borrower : UInt32) :
    MonotoneAdmission iso mgr lender borrower := by
  intro frag frag' width width' _ narrower allowed
  obtain ⟨cfg, registered, listed, free, light, met⟩ := allowed_iff.mp allowed
  rw [checkLatencySla_withFragmentation] at met
  have fewer : (width'.toNat : ℚ) ≤ width.toNat := Nat.cast_le.mpr (UInt32.le_iff_toNat_le.mp narrower)
  refine allowed_iff.mpr ⟨cfg, registered, listed, free, ?_, ?_⟩
  · linarith
  · rw [checkLatencySla_withFragmentation]
    exact met

end

theorem admission_by_fragmentation_iff (iso : TenantIsolation) (mgr : UnifiedMetadataManager)
    (lender borrower width : UInt32) :
    WithinLimit iso mgr lender borrower width ∧ MonotoneAdmission iso mgr lender borrower ↔
      Tolerable iso mgr lender borrower width := by
  constructor
  · rintro ⟨within, _⟩ cfg registered listed free met light
    exact within (allowed_iff.mpr ⟨cfg, registered, listed, free, light, met⟩) cfg registered
  · intro tolerable
    refine ⟨?_, monotoneAdmission iso mgr lender borrower⟩
    intro allowed cfg registered
    obtain ⟨cfg', registered', listed, free, light, met⟩ := allowed_iff.mp allowed
    have same : cfg' = cfg := Option.some.inj (registered'.symm.trans registered)
    rw [same] at light
    exact tolerable cfg registered listed free met light

def twoTenants : TenantIsolation :=
  ((TenantIsolation.new.registerTenant .exact ⟨10, 3 / 10, 2, 8, 2000⟩).2.registerTenant .exact ⟨2, 3 / 10, 2, 4, 500⟩).2

/-- The second vzone has the id that tenant 10 is looked up by. -/
def halfFragmented : UnifiedMetadataManager :=
  withFragmentation (((UnifiedMetadataManager.new 1000).createMetadata 2 4).2.createMetadata 10 4).2 10 (1 / 2)

theorem fragmented_lender_admits : ¬WithinLimit twoTenants halfFragmented 10 2 5 := by
  intro within
  have allowed : Allowed twoTenants halfFragmented 10 2 5 := by
    unfold Allowed
    decide +kernel
  have limit := within allowed ⟨10, 3 / 10, 2, 8, 2000⟩ (by decide +kernel)
  have current : currentFragmentation halfFragmented 10 = 1 / 2 := by decide +kernel
  rw [current] at limit
  exact absurd limit (by decide +kernel)

end EznsProof
