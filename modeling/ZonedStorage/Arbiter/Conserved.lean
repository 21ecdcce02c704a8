import ZonedStorage.Arbiter.ZoneArbiter

namespace EznsProof

open EznsRbc Floats Runs Arbitration FragAwareBalloon ZoneArbiter List

def spareHeld (live : List Vzone) : Nat := (live.map (fun v => v.spare.toNat)).sum

def Vzone.spareFor (ns : UInt32) (v : Vzone) : Nat := if v.namespaceId = ns then v.spare.toNat else 0

def spareHeldBy (ns : UInt32) (live : List Vzone) : Nat := (live.map (Vzone.spareFor ns)).sum

/-- The pool and every tenant are charged with what the live vzones hold. -/
structure Conserved (s : Arbitration) : Prop where
  pool : s.arbiter.balloon.usedSpare.toNat = spareHeld s.live
  within : s.arbiter.balloon.usedSpare.toNat ≤ s.arbiter.balloon.totalSpare.toNat
  tenants : ∀ ns, (s.arbiter.balloon.allocOf ns).spare.toNat = spareHeldBy ns s.live

def freed (s : Arbitration) (vzoneId : UInt32) : Option Vzone := s.live.find? (fun v => v.vzoneId = vzoneId)

/-- The metadata of a freed vzone tells what the vzone holds and for whom, or the vzone holds nothing and the
    metadata tells of more than the tenant has. -/
def Accounted (s : Arbitration) : ArbiterCall → Prop
  | .freeVzone vzoneId => ∀ record, s.arbiter.metadataMgr.getMetadata vzoneId = some record →
    (record.spareAllocated.toNat = (freed s vzoneId).elim 0 (fun v => v.spare.toNat) ∧
        ∀ v, freed s vzoneId = some v → v.spare.toNat = 0 ∨ v.namespaceId = record.namespaceId) ∨
      ((freed s vzoneId).elim 0 (fun v => v.spare.toNat) = 0 ∧
        (s.arbiter.balloon.allocOf record.namespaceId).spare.toNat < record.spareAllocated.toNat)
  | _ => True

def Listed (s : Arbitration) : Prop :=
  ∀ v ∈ s.live, v.vzoneId ∈ s.arbiter.metadataMgr.metadataMap

theorem sum_eraseP (f : Vzone → Nat) (p : Vzone → Bool) (live : List Vzone) :
    ((live.eraseP p).map f).sum + (live.find? p).elim 0 f = (live.map f).sum := by
  induction live with
  | nil => rfl
  | cons v live ih =>
    by_cases found : p v
    · rw [eraseP_cons_of_pos found, find?_cons_of_pos found, map_cons, sum_cons,
        Option.elim_some]
      exact Nat.add_comm _ _
    · rw [eraseP_cons_of_neg found, find?_cons_of_neg found, map_cons, map_cons,
        sum_cons, sum_cons, ← ih]
      exact Nat.add_assoc _ _ _

theorem spareHeldBy_le (ns : UInt32) (live : List Vzone) : spareHeldBy ns live ≤ spareHeld live := by
  refine sum_le_sum (fun v _ => ?_)
  rw [Vzone.spareFor]
  split
  · exact Nat.le_refl _
  · exact Nat.zero_le _

section

variable {mgr : UnifiedMetadataManager} {id other : UInt32} {change : UnifiedMetadata → UnifiedMetadata}

theorem mem_modify (listed : other ∈ mgr.metadataMap) : other ∈ (mgr.modify id change).metadataMap := by
  rw [UnifiedMetadataManager.modify]
  split
  · exact listed
  · exact (AList.mem_insert _).mpr (.inr listed)

variable {ns : UInt32}

theorem mem_createMetadata {width : UInt32} (listed : other ∈ mgr.metadataMap) :
    other ∈ (mgr.createMetadata ns width).2.metadataMap := (AList.mem_insert _).mpr (.inr listed)

theorem mem_tenantMetadata (listed : other ∈ mgr.metadataMap) :
    other ∈ (tenantMetadata mgr ns).2.metadataMap := by
  rw [tenantMetadata]
  split
  · exact listed
  · exact mem_createMetadata listed

theorem mem_borrowZones (rounding : Rounding) (b : FragAwareBalloon) (request : BorrowRequest)
    (listed : other ∈ mgr.metadataMap) : other ∈ (b.borrowZones rounding mgr request).2.2.metadataMap := by
  simp only [borrowZones]
  split
  · exact mem_modify (mem_tenantMetadata listed)
  · exact mem_tenantMetadata listed

theorem mem_allocateVzone {rounding : Rounding} {arbiter : ZoneArbiter} {width : UInt32}
    (allowed : arbiter.permits rounding ns width = true)
    (listed : other ∈ arbiter.metadataMgr.metadataMap ∨ other = (arbiter.allocateVzone rounding ns width).1) :
    other ∈ (arbiter.allocateVzone rounding ns width).2.metadataMgr.metadataMap := by
  have inside : other ∈ (arbiter.metadataMgr.createMetadata ns width).2.metadataMap := by
    rcases listed with listed | same
    · exact mem_createMetadata listed
    · simp only [allocateVzone, if_pos allowed] at same
      exact (AList.mem_insert _).mpr (.inl same)
  have later := mem_borrowZones rounding arbiter.balloon ⟨ns, width⟩ inside
  simp only [allocateVzone, if_pos allowed]
  split
  · exact mem_modify later
  · exact later

end

section

variable {rounding : Rounding} {b : FragAwareBalloon}

theorem grantedWidth_le (rounding : Rounding) (b : FragAwareBalloon) (frag : ℚ) (width : UInt32) :
    (b.grantedWidth rounding frag width).toNat ≤ b.availableSpare.toNat := by
  simp only [grantedWidth]
  generalize (if b.fragThreshold < frag then b.reducedWidth rounding width else width) = asked
  split
  · exact Nat.le_refl _
  · rename_i enough
    exact UInt32.le_iff_toNat_le.mp (UInt32.not_lt.mp enough)

theorem allocOf_insert (ns other used : UInt32) (alloc : TenantAlloc) :
    allocOf { b with usedSpare := used, tenantAlloc := b.tenantAlloc.insert ns alloc } other =
      if other = ns then alloc else b.allocOf other := by
  simp only [allocOf]
  split
  · rename_i same
    rw [same, AList.lookup_insert, Option.getD_some]
  · rename_i different
    rw [AList.lookup_insert_ne different]

structure Charges (b b' : FragAwareBalloon) (ns : UInt32) (change : UInt32 → UInt32) : Prop where
  pool : b'.usedSpare = change b.usedSpare
  size : b'.totalSpare = b.totalSpare
  tenant : (b'.allocOf ns).spare = change (b.allocOf ns).spare
  others : ∀ other, other ≠ ns → (b'.allocOf other).spare = (b.allocOf other).spare

theorem borrowZones_charges (mgr : UnifiedMetadataManager) (request : BorrowRequest) :
    Charges b (b.borrowZones rounding mgr request).2.1 request.namespaceId
      (fun n => n + (b.borrowZones rounding mgr request).1.allocatedWidth) := by
  simp only [borrowZones]
  split
  · refine ⟨rfl, rfl, ?_, fun other different => ?_⟩
    · rw [charge, allocOf_insert, if_pos rfl]
    · rw [charge, allocOf_insert, if_neg different]
  · rename_i nothing
    have zero : b.grantedWidth rounding (tenantMetadata mgr request.namespaceId).1.fragmentationRatio
        request.requestedWidth = 0 := UInt32.le_zero_iff.mp (UInt32.not_lt.mp nothing)
    simp only [zero]
    exact ⟨(UInt32.add_zero _).symm, rfl, (UInt32.add_zero _).symm, fun _ _ => rfl⟩

theorem borrowZones_within (mgr : UnifiedMetadataManager) (request : BorrowRequest) :
    (b.borrowZones rounding mgr request).1.allocatedWidth.toNat ≤ b.availableSpare.toNat := by
  have within := grantedWidth_le rounding b
    (tenantMetadata mgr request.namespaceId).1.fragmentationRatio request.requestedWidth
  simp only [borrowZones]
  split
  · exact within
  · exact within

def returned (b : FragAwareBalloon) (record : UnifiedMetadata) : UInt32 :=
  if (b.allocOf record.namespaceId).spare < record.spareAllocated then 0 else record.spareAllocated

theorem Charges.none (b : FragAwareBalloon) (ns : UInt32) : Charges b b ns (fun n => n - 0) :=
  ⟨(UInt32.sub_zero _).symm, rfl, (UInt32.sub_zero _).symm, fun _ _ => rfl⟩

theorem returnZones_charges (record : UnifiedMetadata) (some_spare : 0 < record.spareAllocated) :
    Charges b (b.returnZones record.namespaceId record.spareAllocated).2 record.namespaceId
      (fun n => n - returned b record) := by
  rcases held : b.tenantAlloc.lookup record.namespaceId with _ | alloc
  · have nothing : returned b record = 0 := by
      rw [returned, allocOf, held]
      exact if_pos some_spare
    have unchanged : (b.returnZones record.namespaceId record.spareAllocated).2 = b := by
      simp only [returnZones, held]
    rw [nothing, unchanged]
    exact Charges.none b record.namespaceId
  · have current : b.allocOf record.namespaceId = alloc := by
      rw [allocOf, held]
      rfl
    simp only [returnZones, held]
    rw [returned, current]
    by_cases short : alloc.spare < record.spareAllocated
    · rw [if_pos short, if_pos short]
      exact Charges.none b record.namespaceId
    · rw [if_neg short, if_neg short]
      refine ⟨rfl, rfl, ?_, fun other different => ?_⟩
      · rw [allocOf_insert, if_pos rfl, current]
      · rw [allocOf_insert, if_neg different]

theorem freeVzone_charges {arbiter : ZoneArbiter} {id : UInt32} {record : UnifiedMetadata}
    (found : arbiter.metadataMgr.getMetadata id = some record) :
    Charges arbiter.balloon (arbiter.freeVzone id).2.balloon record.namespaceId
      (fun n => n - returned arbiter.balloon record) := by
  simp only [freeVzone, found]
  split
  · rename_i some_spare
    exact returnZones_charges record some_spare
  · rename_i none_spare
    have zero : record.spareAllocated = 0 := UInt32.le_zero_iff.mp (UInt32.not_lt.mp none_spare)
    have nothing : returned arbiter.balloon record = 0 := by
      rw [returned, zero, ite_self]
    rw [nothing]
    exact Charges.none arbiter.balloon record.namespaceId

end

section

variable {rounding : Rounding} {s : Arbitration}

theorem allocateVzone_conserved (conserved : Conserved s) (ns width : UInt32) :
    Conserved (s.step rounding (.allocateVzone ns width)) := by
  by_cases allowed : s.arbiter.permits rounding ns width = true
  · have charges : Charges s.arbiter.balloon (s.arbiter.requestZones rounding ns width).2.1 ns
        (fun n => n + (s.arbiter.requestZones rounding ns width).1.allocatedWidth) := borrowZones_charges _ _
    have within : (s.arbiter.requestZones rounding ns width).1.allocatedWidth.toNat ≤
        s.arbiter.balloon.availableSpare.toNat := borrowZones_within _ _
    have pool := conserved.pool
    have bound := conserved.within
    have size := s.arbiter.balloon.totalSpare.toNat_lt
    simp only [step, allocateVzone, if_pos allowed]
    generalize s.arbiter.requestZones rounding ns width = request at charges within ⊢
    rw [availableSpare, UInt32.toNat_sub_of_le _ _ (UInt32.le_iff_toNat_le.mpr bound)] at within
    have room : ∀ n : UInt32, n.toNat ≤ s.arbiter.balloon.usedSpare.toNat →
        (n + request.1.allocatedWidth).toNat = n.toNat + request.1.allocatedWidth.toNat := by
      intro n small
      rw [UInt32.toNat_add, Nat.mod_eq_of_lt (by omega)]
    refine ⟨?_, ?_, fun other => ?_⟩
    · simp only [charges.pool, room _ (Nat.le_refl _), spareHeld, map_cons, sum_cons]
      rw [pool, spareHeld]
      exact Nat.add_comm _ _
    · simp only [charges.pool, charges.size, room _ (Nat.le_refl _)]
      omega
    · simp only [spareHeldBy, map_cons, sum_cons, Vzone.spareFor]
      have before := conserved.tenants other
      by_cases same : other = ns
      · subst same
        have small : (s.arbiter.balloon.allocOf other).spare.toNat ≤ s.arbiter.balloon.usedSpare.toNat := by
          rw [before, pool]
          exact spareHeldBy_le other s.live
        rw [charges.tenant, room _ small, before, if_pos rfl, spareHeldBy]
        exact Nat.add_comm _ _
      · rw [charges.others other same, before, if_neg (Ne.symm same), Nat.zero_add, spareHeldBy]
  · simp only [step, allocateVzone, if_neg allowed]
    exact conserved

theorem sum_after_free (s : Arbitration) (id : UInt32) (f : Vzone → Nat) :
    ((s.live.eraseP (fun v => v.vzoneId = id)).map f).sum + (freed s id).elim 0 f = (s.live.map f).sum :=
  sum_eraseP f (fun v => v.vzoneId = id) s.live

theorem returned_le (b : FragAwareBalloon) (record : UnifiedMetadata) :
    (returned b record).toNat ≤ (b.allocOf record.namespaceId).spare.toNat := by
  rw [returned]
  split
  · exact Nat.zero_le _
  · rename_i enough
    exact UInt32.le_iff_toNat_le.mp (UInt32.not_lt.mp enough)

variable {id : UInt32}

theorem freeVzone_conserved_iff (conserved : Conserved s) {record : UnifiedMetadata}
    (found : s.arbiter.metadataMgr.getMetadata id = some record) :
    Conserved (s.step rounding (.freeVzone id)) ↔
      (returned s.arbiter.balloon record).toNat = (freed s id).elim 0 (fun v => v.spare.toNat) ∧
        ∀ v, freed s id = some v → v.spare.toNat = 0 ∨ v.namespaceId = record.namespaceId := by
  have charges := freeVzone_charges found
  have small := returned_le s.arbiter.balloon record
  have held := sum_after_free s id (fun v => v.spare.toNat)
  have heldBy := fun ns => sum_after_free s id (Vzone.spareFor ns)
  have pool := conserved.pool
  have within := conserved.within
  have tenants := conserved.tenants
  have tenant_small : (s.arbiter.balloon.allocOf record.namespaceId).spare.toNat ≤
      s.arbiter.balloon.usedSpare.toNat := by
    rw [tenants, pool]
    exact spareHeldBy_le _ _
  have less : ∀ n : UInt32, (returned s.arbiter.balloon record).toNat ≤ n.toNat →
      (n - returned s.arbiter.balloon record).toNat = n.toNat - (returned s.arbiter.balloon record).toNat :=
    fun n enough => UInt32.toNat_sub_of_le _ _ (UInt32.le_iff_toNat_le.mpr enough)
  have pool_after := less _ (Nat.le_trans small tenant_small)
  have tenant_after := less _ small
  rw [← charges.pool] at pool_after
  rw [← charges.tenant] at tenant_after
  simp only [spareHeld] at pool
  simp only [spareHeldBy] at tenants
  have tenant := tenants record.namespaceId
  have heldHere := heldBy record.namespaceId
  constructor
  · intro after
    have pool' := after.pool
    have tenant' := after.tenants record.namespaceId
    simp only [step, spareHeld, spareHeldBy] at pool' tenant'
    have amount : (returned s.arbiter.balloon record).toNat =
        (freed s id).elim 0 (fun v => v.spare.toNat) := by omega
    refine ⟨amount, fun v live => ?_⟩
    by_cases same : v.namespaceId = record.namespaceId
    · exact .inr same
    · rw [live, Option.elim_some] at amount
      rw [live, Option.elim_some, Vzone.spareFor, if_neg same] at heldHere
      exact .inl (by omega)
  · rintro ⟨amount, owner⟩
    have heldFor : (freed s id).elim 0 (Vzone.spareFor record.namespaceId) =
        (freed s id).elim 0 (fun v => v.spare.toNat) := by
      rcases live : freed s id with _ | v
      · rfl
      · simp only [Option.elim_some, Vzone.spareFor]
        split
        · rfl
        · rename_i different
          exact ((owner v live).resolve_right different).symm
    have heldElsewhere : ∀ other, other ≠ record.namespaceId → (freed s id).elim 0 (Vzone.spareFor other) = 0 := by
      intro other different
      rcases live : freed s id with _ | v
      · rfl
      · simp only [Option.elim_some, Vzone.spareFor]
        split
        · rename_i same
          exact (owner v live).resolve_right (fun here => different (same.symm.trans here))
        · rfl
    refine ⟨?_, ?_, fun other => ?_⟩
    · simp only [step, spareHeld]
      omega
    · simp only [step, charges.size]
      omega
    · simp only [step, spareHeldBy]
      by_cases same : other = record.namespaceId
      · subst same
        omega
      · have before := tenants other
        have rest := heldBy other
        rw [heldElsewhere other same] at rest
        rw [charges.others other same]
        omega

theorem accounted_iff (conserved : Conserved s) {record : UnifiedMetadata}
    (found : s.arbiter.metadataMgr.getMetadata id = some record) :
    ((returned s.arbiter.balloon record).toNat = (freed s id).elim 0 (fun v => v.spare.toNat) ∧
        ∀ v, freed s id = some v → v.spare.toNat = 0 ∨ v.namespaceId = record.namespaceId) ↔
      Accounted s (.freeVzone id) := by
  have held := sum_after_free s id (Vzone.spareFor record.namespaceId)
  have tenant := conserved.tenants record.namespaceId
  simp only [spareHeldBy] at tenant
  simp only [Accounted, found, Option.some.injEq, forall_eq']
  by_cases short : (s.arbiter.balloon.allocOf record.namespaceId).spare < record.spareAllocated
  · have less := UInt32.lt_iff_toNat_lt.mp short
    have nothing : (returned s.arbiter.balloon record).toNat = 0 := by
      rw [returned, if_pos short]
      rfl
    rw [nothing]
    constructor
    · rintro ⟨amount, _⟩
      exact .inr ⟨amount.symm, less⟩
    · rintro (⟨amount, owner⟩ | ⟨amount, _⟩)
      · refine ⟨?_, owner⟩
        rcases live : freed s id with _ | v
        · rfl
        · rw [live, Option.elim_some] at amount held
          rcases owner v live with zero | same
          · exact zero.symm
          · rw [Vzone.spareFor, if_pos same] at held
            omega
      · refine ⟨amount.symm, fun v live => .inl ?_⟩
        rw [live, Option.elim_some] at amount
        exact amount
  · have enough := UInt32.le_iff_toNat_le.mp (UInt32.not_lt.mp short)
    have whole : returned s.arbiter.balloon record = record.spareAllocated := if_neg short
    rw [whole]
    constructor
    · exact .inl
    · rintro (both | ⟨_, less⟩)
      · exact both
      · omega

theorem free_unknown (listed : Listed s) (conserved : Conserved s)
    (unknown : s.arbiter.metadataMgr.getMetadata id = none) : Conserved (s.step rounding (.freeVzone id)) := by
  have absent : id ∉ s.arbiter.metadataMgr.metadataMap := AList.lookup_eq_none.mp unknown
  have same : s.live.eraseP (fun v => v.vzoneId = id) = s.live := by
    refine eraseP_of_forall_not (fun v live found => absent ?_)
    have here := listed v live
    rw [of_decide_eq_true found] at here
    exact here
  simp only [step, freeVzone, unknown, same]
  exact conserved

theorem step_conserved_iff (listed : Listed s) (conserved : Conserved s) (call : ArbiterCall) :
    Conserved (s.step rounding call) ↔ Accounted s call := by
  cases call with
  | allocateVzone ns width => exact ⟨fun _ => trivial, fun _ => allocateVzone_conserved conserved ns width⟩
  | freeVzone id =>
    cases found : s.arbiter.metadataMgr.getMetadata id with
    | none =>
      refine ⟨fun _ record present => ?_, fun _ => free_unknown listed conserved found⟩
      rw [found] at present
      cases present
    | some record => exact (freeVzone_conserved_iff conserved found).trans (accounted_iff conserved found)
  | _ => exact ⟨fun _ => trivial, fun _ => ⟨conserved.pool, conserved.within, conserved.tenants⟩⟩

theorem step_listed (listed : Listed s) (call : ArbiterCall) : Listed (s.step rounding call) := by
  intro v live
  cases call with
  | allocateVzone ns width =>
    by_cases allowed : s.arbiter.permits rounding ns width = true
    · simp only [step, if_pos allowed, mem_cons] at live
      refine mem_allocateVzone allowed ?_
      rcases live with rfl | old
      · exact .inr rfl
      · exact .inl (listed v old)
    · simp only [step, if_neg allowed] at live
      simp only [step, allocateVzone, if_neg allowed]
      exact listed v live
  | freeVzone id =>
    have before := listed v (mem_of_mem_eraseP live)
    simp only [step, freeVzone]
    split
    · exact before
    · dsimp only
      split <;> exact before
  | handleRead id latency => exact mem_modify (listed v live)
  | triggerReorganization id => exact mem_modify (listed v live)
  | addRemappedBlock id block => exact mem_modify (listed v live)
  | removeRemappedBlock id block => exact mem_modify (listed v live)
  | _ => exact listed v live

end

theorem start_conserved (rounding : Rounding) (nextVzoneId maxActiveZones : UInt32) :
    Conserved (start rounding nextVzoneId maxActiveZones) :=
  ⟨rfl, Nat.zero_le _, fun _ => rfl⟩

/-- Spare zones are conserved in a run exactly as long as every free finds metadata that tells what the vzone
    holds. -/
theorem spare_conserved_iff (rounding : Rounding) (nextVzoneId maxActiveZones : UInt32) (calls : List ArbiterCall) :
    Throughout (step rounding) Conserved (start rounding nextVzoneId maxActiveZones) calls ↔
      EachStep (step rounding) Accounted (start rounding nextVzoneId maxActiveZones) calls := by
  have exact_step : ∀ s call, Listed s → Conserved s → (Conserved (s.step rounding call) ↔ Accounted s call) :=
    fun _ call listed conserved => step_conserved_iff listed conserved call
  have kept : ∀ s call, Listed s → Accounted s call → Listed (s.step rounding call) :=
    fun _ call listed _ => step_listed listed call
  have listed : Listed (start rounding nextVzoneId maxActiveZones) :=
    fun _ live => absurd live not_mem_nil
  exact throughout_iff exact_step kept listed (start_conserved rounding nextVzoneId maxActiveZones) calls

def freedTwice : List ArbiterCall :=
  [.allocateVzone 1 2, .allocateVzone 1 2, .freeVzone 1000, .freeVzone 1000]

/-- The second free of the first vzone gives back what the other one still holds. -/
theorem second_free_returns_anothers :
    ¬ Throughout (step .ieee) Conserved (start .ieee 1000 16) freedTwice ∧
    (freedTwice.foldl (step .ieee) (start .ieee 1000 16)).live = [⟨1002, 1, 2⟩] ∧
    (freedTwice.foldl (step .ieee) (start .ieee 1000 16)).arbiter.balloon.usedSpare = 0 := by
  have live : (freedTwice.foldl (step .ieee) (start .ieee 1000 16)).live =
      [⟨1002, 1, 2⟩] := by decide +kernel
  have used : (freedTwice.foldl (step .ieee)
      (start .ieee 1000 16)).arbiter.balloon.usedSpare = 0 := by decide +kernel
  refine ⟨?_, live, used⟩
  rintro ⟨_, _, _, _, last⟩
  have pool := last.pool
  change (freedTwice.foldl (step .ieee) (start .ieee 1000 16)).arbiter.balloon.usedSpare.toNat =
    spareHeld (freedTwice.foldl (step .ieee) (start .ieee 1000 16)).live at pool
  rw [live, used] at pool
  exact absurd pool (by decide)

end EznsProof
