import ZonedStorage.Integrated.TenantIsolation

namespace EznsIntegratedProof

open EznsRbcIntegrated EznsRbcIntegrated.TenantIsolation

def lenderFrag (getVzone : UInt32 → Option UnifiedVZoneMeta) (lender : UInt32) : ℚ :=
  match getVzone (lender * 100 + 1) with
  | none => 0
  | some record => record.fragmentationRatio

def Bearable (frag limit : ℚ) (width : UInt32) : Prop := frag + width.toNat / 100 ≤ limit

/-- The largest width up to the request that may be lent, or 0. -/
structure LargestBearable (frag limit : ℚ) (requested width : UInt32) : Prop where
  asked : width ≤ requested
  bearable : Bearable frag limit width ∨ width = 0 ∧ limit < frag
  largest : ∀ other ≤ requested, Bearable frag limit other → other ≤ width

/-- The decision of `check_borrow_permission` protects the lender. -/
structure Protected (getVzone : UInt32 → Option UnifiedVZoneMeta) (limit : ℚ) (lender requested : UInt32)
    (decision : BorrowDecision) : Prop where
  allowed : decision.allowed = true → Bearable (lenderFrag getVzone lender) limit requested
  denied : decision.reason = "Would exceed max fragmentation" →
    ∃ width, decision.maxBorrow = some width ∧ LargestBearable (lenderFrag getVzone lender) limit requested width

/-- A lender without a vzone has to be protected by its latency, and one above its limit is less than one percent
    above it. -/
def Sheltered (getVzone : UInt32 → Option UnifiedVZoneMeta) (limit : ℚ) (lender requested : UInt32) (sla : Bool) :
    Prop :=
  match getVzone (lender * 100 + 1) with
  | none => sla = true → Bearable 0 limit requested
  | some record => ¬Bearable record.fragmentationRatio limit requested → record.fragmentationRatio - limit < 1 / 100

section

variable {frag limit : ℚ} {requested : UInt32}

theorem bearable_iff (width : UInt32) : Bearable frag limit width ↔ (width.toNat : ℚ) ≤ (limit - frag) * 100 := by
  unfold Bearable
  constructor
  · intro within
    linarith
  · intro within
    linarith

theorem not_bearable_iff (width : UInt32) : ¬Bearable frag limit width ↔ (limit - frag) * 100 < width.toNat := by
  rw [bearable_iff, not_le]

theorem toUInt32_defined (bearable : ¬Bearable frag limit requested) :
    (toUInt32 ((limit - frag) * 100)).isSome = true ↔ frag - limit < 1 / 100 := by
  have below := (not_bearable_iff requested).mp bearable
  have size : (requested.toNat : ℚ) < 2 ^ 32 := by exact_mod_cast requested.toNat_lt
  unfold toUInt32
  split
  · rename_i range
    simp only [Option.isSome_some, true_iff]
    linarith [range.1]
  · rename_i range
    simp only [Option.isSome_none, Bool.false_eq_true, false_iff, not_lt]
    by_contra close
    exact range ⟨by linarith, by linarith⟩

theorem floor_toNat_le {q : ℚ} {n : Nat} (above : -1 < q) : n ≤ q.floor.toNat ↔ n = 0 ∨ (n : ℚ) ≤ q := by
  have lower : (-1 : ℤ) ≤ q.floor := Rat.le_floor_iff.mpr (by push_cast; linarith)
  have integral : (n : ℚ) ≤ q ↔ (n : ℤ) ≤ q.floor := by
    rw [Rat.le_floor_iff]
    norm_cast
  rw [integral]
  omega

theorem toUInt32_largest (bearable : ¬Bearable frag limit requested) {allowed : UInt32}
    (converted : toUInt32 ((limit - frag) * 100) = some allowed) :
    LargestBearable frag limit requested (min requested allowed) := by
  have below := (not_bearable_iff requested).mp bearable
  unfold toUInt32 at converted
  split at converted
  · rename_i range
    have value : allowed.toNat = ((limit - frag) * 100).floor.toNat := by
      have size : ((limit - frag) * 100).floor.toNat < 2 ^ 32 := by
        rcases Nat.eq_zero_or_pos ((limit - frag) * 100).floor.toNat with zero | positive
        · omega
        · have small := ((floor_toNat_le range.1).mp le_rfl).resolve_left (by omega)
          exact_mod_cast small.trans_lt range.2
      rw [← Option.some.inj converted, UInt32.toNat_ofNat_of_lt' size]
    have least : ∀ width : UInt32, width ≤ allowed ↔ width.toNat = 0 ∨ Bearable frag limit width := by
      intro width
      rw [UInt32.le_iff_toNat_le, value, floor_toNat_le range.1, bearable_iff]
    have fits : allowed ≤ requested := by
      rcases (least allowed).mp (UInt32.le_refl _) with zero | within
      · exact UInt32.le_iff_toNat_le.mpr (by omega)
      · have small := ((bearable_iff _).mp within).trans_lt below
        exact UInt32.le_iff_toNat_le.mpr (by exact_mod_cast small.le)
    have same : min requested allowed = allowed := by
      rw [UInt32.min_def]
      split
      · rename_i other
        exact UInt32.le_antisymm other fits
      · rfl
    rw [same]
    refine ⟨fits, ?_, fun other _ within => (least other).mpr (Or.inr within)⟩
    rcases (least allowed).mp (UInt32.le_refl _) with zero | within
    · have zero : allowed = 0 := UInt32.toNat_inj.mp zero
      rcases lt_or_ge limit frag with above | under
      · exact Or.inr ⟨zero, above⟩
      · left
        rw [zero, bearable_iff]
        simp only [UInt32.toNat_zero, Nat.cast_zero]
        linarith
    · exact Or.inl within
  · cases converted

end

section

variable {getVzone : UInt32 → Option UnifiedVZoneMeta} {left : Uninitialised} {iso : TenantIsolation}
  {lender borrower requested : UInt32} {cfg : TenantConfig}

theorem protected_denied {limit : ℚ} (reason : String) (other : reason ≠ "Would exceed max fragmentation") :
    Protected getVzone limit lender requested ⟨false, some requested, reason⟩ :=
  ⟨fun allowed => absurd allowed Bool.false_ne_true, fun same => absurd same other⟩

def served (requested : UInt32) (sla : Bool) : BorrowDecision :=
  if !sla then ⟨false, some requested, "Latency SLA violation risk"⟩ else ⟨true, some requested, "OK"⟩

theorem served_protected_iff {limit : ℚ} (sla : Bool) :
    Protected getVzone limit lender requested (served requested sla) ↔
      (sla = true → Bearable (lenderFrag getVzone lender) limit requested) := by
  cases sla with
  | false => exact iff_of_true (protected_denied _ (by decide)) (fun met => absurd met Bool.false_ne_true)
  | true =>
    constructor
    · exact fun safe _ => safe.allowed rfl
    · intro bearable
      refine ⟨fun _ => bearable rfl, ?_⟩
      intro reason
      change "OK" = "Would exceed max fragmentation" at reason
      exact absurd reason (by decide)

section

variable {other : TenantConfig} (free : lender ∉ iso.throttledTenants)
  (registered : iso.tenantConfigs.lookup lender = some cfg) (listed : iso.tenantConfigs.lookup borrower = some other)

include free registered listed

theorem decision_unknown (found : getVzone (lender * 100 + 1) = none) :
    checkBorrowPermission .exact getVzone left iso lender borrower requested =
      served requested (checkLatencySla .exact getVzone left iso lender) := by
  unfold checkBorrowPermission
  rw [if_neg free, registered, listed, found]
  rfl

theorem decision_known {record : UnifiedVZoneMeta} (found : getVzone (lender * 100 + 1) = some record) :
    checkBorrowPermission .exact getVzone left iso lender borrower requested =
      if cfg.maxFragmentation < record.fragmentationRatio + (requested.toNat : ℚ) * (1 / 100) then
        ⟨false, (toUInt32 ((cfg.maxFragmentation - record.fragmentationRatio) * 100)).map (min requested),
          "Would exceed max fragmentation"⟩
      else served requested (checkLatencySla .exact getVzone left iso lender) := by
  unfold checkBorrowPermission
  rw [if_neg free, registered, listed, found]
  rfl

theorem decision_protected_iff : Protected getVzone cfg.maxFragmentation lender requested
        (checkBorrowPermission .exact getVzone left iso lender borrower requested) ↔
      Sheltered getVzone cfg.maxFragmentation lender requested (checkLatencySla .exact getVzone left iso lender) := by
  unfold Sheltered
  cases found : getVzone (lender * 100 + 1) with
  | none =>
    have none : lenderFrag getVzone lender = 0 := by rw [lenderFrag, found]
    rw [decision_unknown free registered listed found, served_protected_iff, none]
  | some record =>
    have frag : lenderFrag getVzone lender = record.fragmentationRatio := by rw [lenderFrag, found]
    have test : cfg.maxFragmentation < record.fragmentationRatio + (requested.toNat : ℚ) * (1 / 100) ↔
        ¬Bearable record.fragmentationRatio cfg.maxFragmentation requested := by
      rw [Bearable, not_le, mul_one_div]
    rw [decision_known free registered listed found]
    by_cases bearable : Bearable record.fragmentationRatio cfg.maxFragmentation requested
    · rw [if_neg (fun heavy => test.mp heavy bearable), served_protected_iff, frag]
      exact iff_of_true (fun _ => bearable) (fun heavy => absurd bearable heavy)
    · rw [if_pos (test.mpr bearable)]
      have defined := toUInt32_defined bearable
      constructor
      · intro safe _
        obtain ⟨width, given, _⟩ := safe.denied rfl
        obtain ⟨allowed, converted, _⟩ := Option.map_eq_some_iff.mp given
        apply defined.mp
        rw [converted]
        rfl
      · intro close
        obtain ⟨allowed, converted⟩ := Option.isSome_iff_exists.mp (defined.mpr (close bearable))
        refine ⟨fun allowed => absurd allowed Bool.false_ne_true, fun _ => ?_⟩
        refine ⟨min requested allowed, ?_, ?_⟩
        · rw [converted]
          rfl
        · rw [frag]
          exact toUInt32_largest bearable converted

end

end

/-- In exact arithmetic, for a lender with the configuration `cfg`. -/
theorem lender_protected_iff (getVzone : UInt32 → Option UnifiedVZoneMeta) (left : Uninitialised)
    (iso : TenantIsolation)
    (lender borrower requested : UInt32) :
    (∀ cfg, iso.tenantConfigs.lookup lender = some cfg → Protected getVzone cfg.maxFragmentation lender requested
        (checkBorrowPermission .exact getVzone left iso lender borrower requested)) ↔
      ∀ cfg, iso.tenantConfigs.lookup lender = some cfg → lender ∉ iso.throttledTenants →
        borrower ∈ iso.tenantConfigs →
        Sheltered getVzone cfg.maxFragmentation lender requested (checkLatencySla .exact getVzone left iso lender) := by
  constructor
  · intro safe cfg registered free listed
    obtain ⟨other, found⟩ := Option.isSome_iff_exists.mp (AList.lookup_isSome.mpr listed)
    exact (decision_protected_iff free registered found).mp (safe cfg registered)
  · intro sheltered cfg registered
    by_cases throttled : lender ∈ iso.throttledTenants
    · unfold checkBorrowPermission
      rw [if_pos throttled]
      exact protected_denied _ (by decide)
    · cases found : iso.tenantConfigs.lookup borrower with
      | none =>
        unfold checkBorrowPermission
        rw [if_neg throttled, registered, found]
        exact protected_denied _ (by decide)
      | some other =>
        have listed : borrower ∈ iso.tenantConfigs := by
          apply AList.lookup_isSome.mp
          rw [found]
          rfl
        exact (decision_protected_iff throttled registered found).mpr (sheltered cfg registered throttled listed)

def lenderAndBorrower : TenantIsolation :=
  ((TenantIsolation.new.registerTenant ⟨1, 3 / 10, 2000⟩).2.registerTenant ⟨2, 3 / 10, 500⟩).2

def fragmentedLender (vzone : UInt32) : Option UnifiedVZoneMeta := if vzone = 101 then some ⟨1 / 2, 0, 0⟩ else none

/-- The lender is above its limit by more than one percent, and the largest width is not a number. -/
theorem lender_above_limit_undefined : ¬Protected fragmentedLender (3 / 10) 1 5
        (checkBorrowPermission .exact fragmentedLender ⟨0, 0⟩ lenderAndBorrower 1 2 5) := by
  intro safe
  have decision : checkBorrowPermission .exact fragmentedLender ⟨0, 0⟩ lenderAndBorrower 1 2 5 =
      ⟨false, none, "Would exceed max fragmentation"⟩ := by decide +kernel
  rw [decision] at safe
  obtain ⟨width, given, _⟩ := safe.denied rfl
  cases given

end EznsIntegratedProof
