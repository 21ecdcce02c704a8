import ZonedStorage.Integrated.Balloon
import ZonedStorage.Runs.Throughout

namespace EznsIntegratedProof

open EznsRbcIntegrated Floats KeyedTable Runs Accounting

def spareOf (alloc : TenantAlloc) : Nat := alloc.spare.toNat

def essentialOf (alloc : TenantAlloc) : Nat := alloc.essential.toNat

structure SpareBalanced (b : FragAwareBalloon) : Prop where
  sum : b.usedSpare.toNat = Table.total spareOf b.tenantAlloc
  within : b.usedSpare.toNat ≤ b.totalSpare.toNat

structure EssentialBalanced (b : FragAwareBalloon) : Prop where
  sum : b.usedEssential.toNat = Table.total essentialOf b.tenantAlloc
  within : b.usedEssential.toNat ≤ b.totalEssential.toNat

/-- The pool is charged with what the tenants have, and no counter has wrapped. -/
structure Balanced (s : Accounting) : Prop where
  spare : SpareBalanced s.balloon
  essential : EssentialBalanced s.balloon
  unwrapped : s.wrapped = false

def Ungranted (rounding : Rounding) (b : FragAwareBalloon) : BalloonCall → Prop
  | .borrowZones (some currentFrag) _ width => b.allocatableSpare rounding currentFrag width = 0
  | _ => True

structure Idle (s : Accounting) : Prop where
  tenants : s.balloon.tenantAlloc = ∅
  spare : s.balloon.usedSpare = 0
  essential : s.balloon.usedEssential = 0
  unwrapped : s.wrapped = false

theorem Idle.balanced {s : Accounting} (idle : Idle s) : Balanced s := by
  refine ⟨⟨?_, ?_⟩, ⟨?_, ?_⟩, idle.unwrapped⟩
  · rw [idle.spare, idle.tenants]
    rfl
  · rw [idle.spare]
    exact Nat.zero_le _
  · rw [idle.essential, idle.tenants]
    rfl
  · rw [idle.essential]
    exact Nat.zero_le _

section

variable {b : FragAwareBalloon}

theorem calculateEssentialPerVzone_pos (b : FragAwareBalloon) : 0 < b.calculateEssentialPerVzone.toNat := by
  have one : (1 : UInt32) ≤ b.calculateEssentialPerVzone := by
    change 1 ≤ if 1 ≤ b.totalEssential / 4 / 1 then b.totalEssential / 4 / 1 else 1
    split
    · assumption
    · exact UInt32.le_refl 1
  exact UInt32.le_iff_toNat_le.mp one

theorem charge_unbalances (tenants : b.tenantAlloc = ∅) (unused : b.usedEssential = 0) (ns spare : UInt32) :
    ¬ EssentialBalanced (b.charge ns b.calculateEssentialPerVzone spare) := by
  intro balanced
  have positive := calculateEssentialPerVzone_pos b
  have fresh : b.allocOf ns = ⟨0, 0, []⟩ := by
    rw [FragAwareBalloon.allocOf, tenants]
    rfl
  have inserted := Table.total_insert essentialOf b.tenantAlloc ns
    (⟨0 + b.calculateEssentialPerVzone, 0 + spare, [] ++ [ns * 100 + 1]⟩ : TenantAlloc)
  have sum := balanced.sum
  simp only [FragAwareBalloon.charge, fresh, unused] at sum
  rw [← sum, essentialOf, UInt32.zero_add, tenants] at inserted
  change 0 + 0 = 0 + b.calculateEssentialPerVzone.toNat at inserted
  omega

end

section

variable {rounding : Rounding} {s : Accounting}

theorem Idle.step_ungranted (idle : Idle s) {call : BalloonCall} (ungranted : Ungranted rounding s.balloon call) :
    Idle (s.step rounding call) := by
  have absent : ∀ ns, s.balloon.tenantAlloc.lookup ns = none := by
    intro ns
    rw [idle.tenants]
    rfl
  cases call with
  | init e p =>
    refine ⟨idle.tenants, rfl, rfl, ?_⟩
    rw [step, idle.unwrapped]
    rfl
  | borrowZones vzone ns width =>
    cases vzone with
    | none =>
      refine ⟨idle.tenants, idle.spare, idle.essential, ?_⟩
      rw [step, idle.unwrapped]
      rfl
    | some frag =>
      have nothing : s.balloon.allocatableSpare rounding frag width = 0 := ungranted
      have same : s.step rounding (.borrowZones (some frag) ns width) = s := by
        simp only [step, FragAwareBalloon.step, FragAwareBalloon.borrowZones, FragAwareBalloon.wraps,
          nothing, UInt32.lt_irrefl, if_false, UInt32.toNat_zero, Nat.lt_irrefl, decide_false, Bool.false_and,
          Bool.or_false]
      rw [same]
      exact idle
  | returnSpareZones ns n =>
    have same : s.step rounding (.returnSpareZones ns n) = s := by
      simp only [step, FragAwareBalloon.step, FragAwareBalloon.returnSpareZones, FragAwareBalloon.wraps,
        absent ns, Bool.false_and, Bool.or_false]
    rw [same]
    exact idle
  | setFragThreshold q =>
    refine ⟨idle.tenants, idle.spare, idle.essential, ?_⟩
    rw [step, idle.unwrapped]
    rfl
  | setBorrowReduction q =>
    refine ⟨idle.tenants, idle.spare, idle.essential, ?_⟩
    rw [step, idle.unwrapped]
    rfl

theorem step_balanced_iff (idle : Idle s) (call : BalloonCall) :
    Balanced (s.step rounding call) ↔ Ungranted rounding s.balloon call := by
  refine ⟨fun balanced => ?_, fun ungranted => (idle.step_ungranted ungranted).balanced⟩
  cases call with
  | borrowZones vzone ns width =>
    cases vzone with
    | none => trivial
    | some frag =>
      refine Classical.not_not.mp (fun granted => ?_)
      have positive : 0 < s.balloon.allocatableSpare rounding frag width := UInt32.pos_iff_ne_zero.mpr granted
      have essential := balanced.essential
      simp only [step, FragAwareBalloon.step, FragAwareBalloon.borrowZones, if_pos positive] at essential
      exact charge_unbalances idle.tenants idle.essential ns _ essential
  | _ => trivial

end

/-- The accounts of the balloon are right in a run exactly as long as no borrow is granted. -/
theorem accounts_balanced_iff (rounding : Rounding) (calls : List BalloonCall) :
    Throughout (step rounding) Balanced (start rounding) calls ↔
      EachStep (step rounding) (fun s call => Ungranted rounding s.balloon call)
        (start rounding) calls := by
  have exact_step : ∀ s call, Idle s → Balanced s →
      (Balanced (s.step rounding call) ↔ Ungranted rounding s.balloon call) :=
    fun _ call idle _ => step_balanced_iff idle call
  have kept : ∀ s call, Idle s → Ungranted rounding s.balloon call → Idle (s.step rounding call) :=
    fun _ _ idle ungranted => idle.step_ungranted ungranted
  have idle : Idle (start rounding) := ⟨rfl, rfl, rfl, rfl⟩
  exact throughout_iff exact_step kept idle idle.balanced calls

def initialisedTwice : List BalloonCall :=
  [.init 8 8, .borrowZones (some 0) 1 6, .init 8 8, .returnSpareZones 1 4]

/-- A borrow leaves essential zones of the tenant uncounted, and a return after a second initialisation takes the
    counter of the spare zones below zero. -/
theorem granted_borrow_unbalances :
    ¬ Throughout (step .ieee) Balanced (start .ieee) initialisedTwice ∧
    (initialisedTwice.foldl (step .ieee) (start .ieee)).wrapped = true ∧
    (initialisedTwice.foldl (step .ieee) (start .ieee)).balloon.usedSpare = 4294967292 := by
  have wrapped : (initialisedTwice.foldl (step .ieee) (start .ieee)).wrapped = true := by
    decide +kernel
  refine ⟨?_, wrapped, by decide +kernel⟩
  rintro ⟨_, _, _, _, last⟩
  have unwrapped := last.unwrapped
  change (initialisedTwice.foldl (step .ieee) (start .ieee)).wrapped = false at unwrapped
  rw [wrapped] at unwrapped
  cases unwrapped

open FragAwareBalloon UInt32

structure Unwrapped (rounding : Rounding) (b : FragAwareBalloon) (frag : ℚ) (ns requested : UInt32) : Prop where
  demand : b.calculateEssentialPerVzone.toNat ≤ (b.adjustedWidth rounding frag requested).toNat
  available : b.usedSpare.toNat ≤ b.totalSpare.toNat
  pool : b.usedSpare.toNat + (b.allocatableSpare rounding frag requested).toNat < 2 ^ 32
  essential : (b.allocOf ns).essential.toNat + b.calculateEssentialPerVzone.toNat < 2 ^ 32
  spare : (b.allocOf ns).spare.toNat + (b.allocatableSpare rounding frag requested).toNat < 2 ^ 32
  width : b.calculateEssentialPerVzone.toNat + (b.allocatableSpare rounding frag requested).toNat < 2 ^ 32

structure Within (rounding : Rounding) (b : FragAwareBalloon) (frag : ℚ) (requested : UInt32) (answer : Allocation) :
    Prop where
  spare : answer.allocatedSpare.toNat ≤ (b.adjustedWidth rounding frag requested).toNat
  sum : answer.allocatedWidth.toNat = answer.allocatedEssential.toNat + answer.allocatedSpare.toNat
  width : answer.allocatedWidth.toNat ≤
    max (b.adjustedWidth rounding frag requested).toNat (b.calculateEssentialPerVzone.toNat + 1)

/-- A borrow that succeeds yields no more than was asked for, and no number wraps. -/
def Moderate (rounding : Rounding) (b : FragAwareBalloon) (vzone : Option ℚ) (ns requested : UInt32) : Prop :=
  ∀ frag answer, vzone = some frag → (b.borrowZones rounding vzone ⟨ns, requested⟩).1.allocation = some answer →
    Within rounding b frag requested answer ∧ Unwrapped rounding b frag ns requested

/-- Either there is nothing to lend, or the request is wider than the essential share, the pool is not overdrawn and
    the account of the tenant has room. -/
def Lends (rounding : Rounding) (b : FragAwareBalloon) (frag : ℚ) (ns requested : UInt32) : Prop :=
  b.adjustedWidth rounding frag requested = b.calculateEssentialPerVzone ∨ b.totalSpare = b.usedSpare ∨
    b.calculateEssentialPerVzone.toNat < (b.adjustedWidth rounding frag requested).toNat ∧
      b.usedSpare.toNat < b.totalSpare.toNat ∧
      (b.allocOf ns).essential.toNat + b.calculateEssentialPerVzone.toNat < 2 ^ 32 ∧
      (b.allocOf ns).spare.toNat + min
        ((b.adjustedWidth rounding frag requested).toNat - b.calculateEssentialPerVzone.toNat)
        (b.totalSpare.toNat - b.usedSpare.toNat) < 2 ^ 32

section

variable {rounding : Rounding} {b : FragAwareBalloon} {frag : ℚ} {ns requested : UInt32}

theorem borrowZones_allocation {answer : Allocation}
    (granted : (b.borrowZones rounding (some frag) ⟨ns, requested⟩).1.allocation = some answer) :
    0 < b.allocatableSpare rounding frag requested ∧
      answer.allocatedEssential = b.calculateEssentialPerVzone ∧
      answer.allocatedSpare = b.allocatableSpare rounding frag requested ∧
      answer.allocatedWidth = b.calculateEssentialPerVzone + b.allocatableSpare rounding frag requested := by
  unfold borrowZones at granted
  by_cases positive : 0 < b.allocatableSpare rounding frag requested
  · simp only [if_pos positive, Option.some.injEq] at granted
    rw [← granted]
    exact ⟨positive, rfl, rfl, rfl⟩
  · simp only [if_neg positive] at granted
    cases granted

theorem borrowZones_granted (ns : UInt32) (positive : 0 < b.allocatableSpare rounding frag requested) :
    ∃ answer, (b.borrowZones rounding (some frag) ⟨ns, requested⟩).1.allocation = some answer := by
  unfold borrowZones
  simp only [if_pos positive]
  exact ⟨_, rfl⟩

theorem sub_pos_of_ne {x y : UInt32} (different : x ≠ y) : 0 < (x - y).toNat := by
  have hx := x.toNat_lt
  have hy := y.toNat_lt
  have apart : x.toNat ≠ y.toNat := fun same => different (UInt32.toNat_inj.mp same)
  rw [UInt32.toNat_sub]
  omega

theorem allocatableSpare_pos
    (demand : b.adjustedWidth rounding frag requested ≠ b.calculateEssentialPerVzone)
    (available : b.totalSpare ≠ b.usedSpare) : 0 < b.allocatableSpare rounding frag requested := by
  apply lt_iff_toNat_lt.mpr
  unfold allocatableSpare availableSpare
  rw [toNat_min]
  exact lt_min (sub_pos_of_ne demand) (sub_pos_of_ne available)

theorem allocatableSpare_toNat
    (demand : b.calculateEssentialPerVzone.toNat ≤ (b.adjustedWidth rounding frag requested).toNat)
    (available : b.usedSpare.toNat ≤ b.totalSpare.toNat) :
    (b.allocatableSpare rounding frag requested).toNat =
      min ((b.adjustedWidth rounding frag requested).toNat - b.calculateEssentialPerVzone.toNat)
        (b.totalSpare.toNat - b.usedSpare.toNat) := by
  unfold allocatableSpare availableSpare
  rw [toNat_min, UInt32.toNat_sub_of_le _ _ (le_iff_toNat_le.mpr demand),
    UInt32.toNat_sub_of_le _ _ (le_iff_toNat_le.mpr available)]

theorem allocatableSpare_zero
    (nothing : b.adjustedWidth rounding frag requested = b.calculateEssentialPerVzone ∨ b.totalSpare = b.usedSpare) :
    ¬0 < b.allocatableSpare rounding frag requested := by
  intro positive
  have positive := lt_iff_toNat_lt.mp positive
  unfold allocatableSpare availableSpare at positive
  rw [toNat_min] at positive
  have parts := lt_min_iff.mp positive
  rcases nothing with same | same
  · rw [same, UInt32.sub_self] at parts
    exact Nat.lt_irrefl _ parts.1
  · rw [same, UInt32.sub_self] at parts
    exact Nat.lt_irrefl _ parts.2

theorem Lends.moderate (lends : Lends rounding b frag ns requested) {answer : Allocation}
    (granted : (b.borrowZones rounding (some frag) ⟨ns, requested⟩).1.allocation = some answer) :
    Within rounding b frag requested answer ∧ Unwrapped rounding b frag ns requested := by
  obtain ⟨positive, essential, spare, width⟩ := borrowZones_allocation granted
  rcases lends with nothing | nothing | ⟨demand, available, room, account⟩
  · exact absurd positive (allocatableSpare_zero (Or.inl nothing))
  · exact absurd positive (allocatableSpare_zero (Or.inr nothing))
  · have taken := allocatableSpare_toNat demand.le available.le
    have size := (b.adjustedWidth rounding frag requested).toNat_lt
    have total := b.totalSpare.toNat_lt
    have sum : answer.allocatedWidth.toNat = answer.allocatedEssential.toNat + answer.allocatedSpare.toNat := by
      rw [width, essential, spare, UInt32.toNat_add, Nat.mod_eq_of_lt]
      omega
    constructor
    · refine ⟨?_, sum, ?_⟩
      · rw [spare, taken]
        omega
      · rw [sum, essential, spare, taken]
        omega
    · refine ⟨demand.le, available.le, ?_, room, ?_, ?_⟩
      · omega
      · omega
      · omega

end

/-- A borrow stays within its request just if there is nothing to lend or no number wraps. -/
theorem borrow_within_request_iff (rounding : Rounding) (b : FragAwareBalloon) (vzone : Option ℚ)
    (ns requested : UInt32) :
    Moderate rounding b vzone ns requested ↔ ∀ frag, vzone = some frag → Lends rounding b frag ns requested := by
  constructor
  · rintro moderate frag rfl
    by_cases demand : b.adjustedWidth rounding frag requested = b.calculateEssentialPerVzone
    · exact Or.inl demand
    by_cases available : b.totalSpare = b.usedSpare
    · exact Or.inr (Or.inl available)
    obtain ⟨answer, granted⟩ := borrowZones_granted ns (allocatableSpare_pos demand available)
    obtain ⟨_, unwrapped⟩ := moderate frag answer rfl granted
    have wider : b.calculateEssentialPerVzone.toNat ≠ (b.adjustedWidth rounding frag requested).toNat :=
      fun same => demand (UInt32.toNat_inj.mp same.symm)
    have left : b.usedSpare.toNat ≠ b.totalSpare.toNat := fun same => available (UInt32.toNat_inj.mp same.symm)
    have account := unwrapped.spare
    rw [allocatableSpare_toNat unwrapped.demand unwrapped.available] at account
    exact Or.inr (Or.inr ⟨lt_of_le_of_ne unwrapped.demand wider, lt_of_le_of_ne unwrapped.available left,
      unwrapped.essential, account⟩)
  · rintro lends frag answer rfl granted
    exact (lends frag rfl).moderate granted

/-- The pool of the test program: a share is 20 zones, and a request for 8 of them takes all 176 spare zones. -/
theorem narrow_request_takes_pool : ¬Moderate .ieee ((new .ieee).init 80 176) (some 0) 1 8 ∧
      ((((new .ieee).init 80 176).borrowZones .ieee (some 0) ⟨1, 8⟩).1.allocation.map
        Allocation.allocatedSpare) = some 176 := by
  have taken : ((((new .ieee).init 80 176).borrowZones .ieee (some 0) ⟨1, 8⟩).1.allocation.map
      Allocation.allocatedSpare) = some 176 := by decide +kernel
  refine ⟨?_, taken⟩
  intro moderate
  obtain ⟨answer, granted, spare⟩ := Option.map_eq_some_iff.mp taken
  have adjusted : ((new .ieee).init 80 176).adjustedWidth .ieee 0 8 = 8 := by decide +kernel
  have within := (moderate 0 answer rfl granted).1.spare
  rw [spare, adjusted] at within
  exact absurd within (by decide)

end EznsIntegratedProof
