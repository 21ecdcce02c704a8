import ZonedStorage.Arbiter.FragLimit

namespace EznsRbc

open Floats

/-- The members of an entry that `get_metadata` writes when it finds it. Nothing is decided by them. -/
structure Access where
  lastAccessTime : UInt64
  accessCount : UInt32

def UnifiedMetadataManager.lookedUp (mgr : UnifiedMetadataManager) (now : UInt64) (vzoneId : UInt32)
    (access : UInt32 → Access) : UInt32 → Access :=
  if vzoneId ∈ mgr.metadataMap then Function.update access vzoneId ⟨now, (access vzoneId).accessCount + 1⟩ else access

/-- `check_latency_sla` looks the lender up, and it is the last of the checks. -/
def BorrowDecision.latencyChecked (decision : BorrowDecision) : Bool :=
  decision.allowed || decision.reason == "Lender latency SLA violation risk"

/-- An arbiter with these members of the entries of its metadata. -/
structure AccessedArbiter where
  arbiter : ZoneArbiter
  access : UInt32 → Access

namespace AccessedArbiter

variable (rounding : Rounding) (s : AccessedArbiter) (now : Nat → UInt64) (namespaceId requestedWidth : UInt32)

def accessAfterCheck : UInt32 → Access :=
  let decision := s.arbiter.isolation.checkBorrowPermission rounding s.arbiter.metadataMgr namespaceId namespaceId
    requestedWidth
  if decision.latencyChecked then s.arbiter.metadataMgr.lookedUp (now 0) (primaryVzone namespaceId) s.access
  else s.access

/-- The look-ups of `borrow_zones`: of the tenant, in `should_reorganize` and in `record_borrow`. -/
def accessAfterBorrow (access : UInt32 → Access) : UInt32 → Access :=
  let mgr := (s.arbiter.metadataMgr.createMetadata namespaceId requestedWidth).2
  let tenant := FragAwareBalloon.tenantMetadata mgr namespaceId
  let found := if primaryVzone namespaceId ∈ mgr.metadataMap then mgr.lookedUp (now 2) (primaryVzone namespaceId) access
    else Function.update access mgr.nextVzoneId ⟨now 2, 0⟩
  let judged := if s.arbiter.balloon.fragThreshold < tenant.1.fragmentationRatio then
      tenant.2.lookedUp (now 3) (primaryVzone namespaceId) found
    else found
  if 0 < (s.arbiter.requestZones rounding namespaceId requestedWidth).1.allocatedWidth then
    tenant.2.lookedUp (now 4) (primaryVzone namespaceId) judged
  else judged

def allocateVzone : UInt32 × AccessedArbiter :=
  let outcome := s.arbiter.allocateVzone rounding namespaceId requestedWidth
  let checked := s.accessAfterCheck rounding now namespaceId requestedWidth
  (outcome.1, ⟨outcome.2,
    if s.arbiter.permits rounding namespaceId requestedWidth then
      s.accessAfterBorrow rounding now namespaceId requestedWidth
        (Function.update checked s.arbiter.metadataMgr.nextVzoneId ⟨now 1, 0⟩)
    else checked⟩)

end AccessedArbiter

end EznsRbc

namespace EznsProof

open EznsRbc Floats UnifiedMetadataManager FragAwareBalloon ZoneArbiter

def zonesTaken (before after : ZoneArbiter) : UInt32 := after.balloon.usedSpare - before.balloon.usedSpare

structure Untouched (before after : AccessedArbiter) : Prop where
  metadata : ∀ vzone, after.arbiter.metadataMgr.getMetadata vzone = before.arbiter.metadataMgr.getMetadata vzone
  access : ∀ vzone ∈ before.arbiter.metadataMgr.metadataMap, after.access vzone = before.access vzone
  pool : after.arbiter.balloon = before.arbiter.balloon
  tenants : after.arbiter.isolation = before.arbiter.isolation

structure Extended (before after : ZoneArbiter) (vzoneId : UInt32) : Prop where
  new : vzoneId ∉ before.metadataMgr.metadataMap
  only : ∀ vzone, vzone ∈ after.metadataMgr.metadataMap ↔ vzone = vzoneId ∨ vzone ∈ before.metadataMgr.metadataMap
  spare : ∃ record, after.metadataMgr.getMetadata vzoneId = some record ∧
    record.spareAllocated = zonesTaken before after

/-- An allocation that takes no zone returns 0 and changes nothing, one that takes some adds its vzone. -/
def AllOrNone (before : AccessedArbiter) (outcome : UInt32 × AccessedArbiter) : Prop :=
  if zonesTaken before.arbiter outcome.2.arbiter = 0 then outcome.1 = 0 ∧ Untouched before outcome.2
  else Extended before.arbiter outcome.2.arbiter outcome.1

/-- There are zones for a request. One for no zones is met too if the tenant is fragmented, with one zone. -/
def Obtains (arbiter : ZoneArbiter) (ns width : UInt32) : Prop :=
  arbiter.balloon.availableSpare ≠ 0 ∧
    (width ≠ 0 ∨ arbiter.balloon.fragThreshold < tenantFrag arbiter.metadataMgr ns)

/-- A request that is denied is so before the tenant's metadata is looked at, or there is none. One that is not gets
    zones, the id of its vzone is new and no second one is made for the tenant. -/
def LeavesNoTrace (rounding : Rounding) (arbiter : ZoneArbiter) (ns width : UInt32) : Prop :=
  let mgr := arbiter.metadataMgr
  if arbiter.permits rounding ns width then
    Obtains arbiter ns width ∧ mgr.nextVzoneId ∉ mgr.metadataMap ∧
      (primaryVzone ns ∈ mgr.metadataMap ∨ primaryVzone ns = mgr.nextVzoneId ∨ mgr.nextVzoneId + 1 ∈ mgr.metadataMap)
  else (arbiter.isolation.checkBorrowPermission rounding mgr ns ns width).latencyChecked = true →
    primaryVzone ns ∉ mgr.metadataMap

section

variable {mgr : UnifiedMetadataManager} {ns width : UInt32}

theorem getMetadata_tenantMetadata (mgr : UnifiedMetadataManager) (ns other : UInt32) :
    (tenantMetadata mgr ns).2.getMetadata other =
      if primaryVzone ns ∉ mgr.metadataMap ∧ other = mgr.nextVzoneId then some (created ns 4)
      else mgr.getMetadata other := by
  unfold tenantMetadata
  cases found : mgr.getMetadata (primaryVzone ns) with
  | some record =>
    have listed : primaryVzone ns ∈ mgr.metadataMap :=
      AList.lookup_isSome.mp (Option.isSome_iff_exists.mpr ⟨record, found⟩)
    rw [if_neg (fun both => both.1 listed)]
  | none =>
    have absent : primaryVzone ns ∉ mgr.metadataMap := AList.lookup_eq_none.mp found
    simp only [absent, not_false_eq_true, true_and]
    exact getMetadata_createMetadata mgr ns 4 other

def requested (mgr : UnifiedMetadataManager) (ns width : UInt32) : UnifiedMetadataManager :=
  (tenantMetadata (mgr.createMetadata ns width).2 ns).2

def MakesSecond (mgr : UnifiedMetadataManager) (ns : UInt32) : Prop :=
  primaryVzone ns ∉ mgr.metadataMap ∧ primaryVzone ns ≠ mgr.nextVzoneId

instance (mgr : UnifiedMetadataManager) (ns : UInt32) : Decidable (MakesSecond mgr ns) :=
  inferInstanceAs (Decidable (_ ∧ _))

theorem primary_created_iff : primaryVzone ns ∉ (mgr.createMetadata ns width).2.metadataMap ↔ MakesSecond mgr ns := by
  have inside : primaryVzone ns ∈ (mgr.createMetadata ns width).2.metadataMap ↔
      primaryVzone ns = mgr.nextVzoneId ∨ primaryVzone ns ∈ mgr.metadataMap := AList.mem_insert _
  rw [inside, not_or, MakesSecond, and_comm]

theorem getMetadata_requested (mgr : UnifiedMetadataManager) (ns width other : UInt32) :
    (requested mgr ns width).getMetadata other =
      if MakesSecond mgr ns ∧ other = mgr.nextVzoneId + 1 then some (created ns 4)
      else if other = mgr.nextVzoneId then some (created ns width)
      else mgr.getMetadata other := by
  unfold requested
  rw [getMetadata_tenantMetadata, getMetadata_createMetadata]
  simp only [primary_created_iff]
  rfl

theorem mem_iff_getMetadata {vzone : UInt32} :
    vzone ∈ mgr.metadataMap ↔ ∃ record, mgr.getMetadata vzone = some record :=
  AList.lookup_isSome.symm.trans Option.isSome_iff_exists

theorem mem_requested (mgr : UnifiedMetadataManager) (ns width other : UInt32) :
    other ∈ (requested mgr ns width).metadataMap ↔
      (MakesSecond mgr ns ∧ other = mgr.nextVzoneId + 1) ∨ other = mgr.nextVzoneId ∨ other ∈ mgr.metadataMap := by
  rw [mem_iff_getMetadata, mem_iff_getMetadata, getMetadata_requested]
  by_cases second : MakesSecond mgr ns ∧ other = mgr.nextVzoneId + 1
  · rw [if_pos second]
    exact iff_of_true ⟨_, rfl⟩ (.inl second)
  · rw [if_neg second]
    by_cases first : other = mgr.nextVzoneId
    · rw [if_pos first]
      exact iff_of_true ⟨_, rfl⟩ (.inr (.inl first))
    · rw [if_neg first]
      simp only [second, first, false_or]

theorem succ_ne_self (id : UInt32) : id ≠ id + 1 := by
  intro same
  have stuck : id + 1 = id + 0 := same.symm.trans (UInt32.add_zero _).symm
  exact absurd ((UInt32.add_right_inj _).mp stuck) (by decide)

theorem getMetadata_requested_next (mgr : UnifiedMetadataManager) (ns width : UInt32) :
    (requested mgr ns width).getMetadata mgr.nextVzoneId = some (created ns width) := by
  rw [getMetadata_requested, if_neg (fun second => succ_ne_self _ second.2), if_pos rfl]

end

section

variable {rounding : Rounding} {arbiter : ZoneArbiter} {ns width : UInt32}

def grantedTo (rounding : Rounding) (arbiter : ZoneArbiter) (ns width : UInt32) : UInt32 :=
  arbiter.balloon.grantedWidth rounding (tenantFrag arbiter.metadataMgr ns) width

theorem pos_iff_toNat_pos (n : UInt32) : 0 < n ↔ 0 < n.toNat := UInt32.lt_iff_toNat_lt

theorem reducedWidth_pos (b : FragAwareBalloon) (width : UInt32) : 0 < (b.reducedWidth rounding width).toNat := by
  simp only [reducedWidth]
  split
  · decide
  · rename_i enough
    exact UInt32.le_iff_toNat_le.mp (UInt32.not_lt.mp enough)

theorem askedWidth_pos_iff (b : FragAwareBalloon) (frag : ℚ) (width : UInt32) :
    0 < (askedWidth rounding b frag width).toNat ↔ width ≠ 0 ∨ b.fragThreshold < frag := by
  unfold askedWidth
  split
  · rename_i fragmented
    exact iff_of_true (reducedWidth_pos b width) (.inr fragmented)
  · rename_i within
    rw [← pos_iff_toNat_pos, UInt32.pos_iff_ne_zero, or_iff_left within]

theorem grantedTo_pos_iff : 0 < grantedTo rounding arbiter ns width ↔ Obtains arbiter ns width := by
  unfold grantedTo Obtains
  rw [pos_iff_toNat_pos, grantedWidth_toNat, Nat.lt_min, askedWidth_pos_iff, ← pos_iff_toNat_pos,
    UInt32.pos_iff_ne_zero, and_comm]

theorem allocateVzone_denied (denied : ¬ arbiter.permits rounding ns width = true) :
    arbiter.allocateVzone rounding ns width = (0, arbiter) := if_neg denied

def recorded (mgr : UnifiedMetadataManager) (ns width granted : UInt32) : UnifiedMetadataManager :=
  ((requested mgr ns width).recordBorrow (primaryVzone ns) granted).modify mgr.nextVzoneId (fun record =>
    { record with spareAllocated := granted, essentialAllocated := 2 })

theorem allocateVzone_granted (allowed : arbiter.permits rounding ns width = true)
    (some_zone : 0 < grantedTo rounding arbiter ns width) :
    arbiter.allocateVzone rounding ns width =
      (arbiter.metadataMgr.nextVzoneId, { arbiter with
        balloon := arbiter.balloon.charge ns (grantedTo rounding arbiter ns width)
        metadataMgr := recorded arbiter.metadataMgr ns width (grantedTo rounding arbiter ns width) }) := by
  unfold grantedTo at some_zone ⊢
  rw [← tenantMetadata_frag arbiter.metadataMgr ns width] at some_zone ⊢
  simp only [allocateVzone, if_pos allowed, requestZones, borrowZones,
    if_pos some_zone]
  rfl

theorem allocateVzone_refused (allowed : arbiter.permits rounding ns width = true)
    (no_zone : ¬ 0 < grantedTo rounding arbiter ns width) :
    arbiter.allocateVzone rounding ns width =
      (arbiter.metadataMgr.nextVzoneId, { arbiter with metadataMgr := requested arbiter.metadataMgr ns width }) := by
  unfold grantedTo at no_zone
  rw [← tenantMetadata_frag arbiter.metadataMgr ns width] at no_zone
  simp only [allocateVzone, if_pos allowed, requestZones, borrowZones,
    if_neg no_zone]
  rfl

theorem mem_recorded (mgr : UnifiedMetadataManager) (ns width granted other : UInt32) :
    other ∈ (recorded mgr ns width granted).metadataMap ↔ other ∈ (requested mgr ns width).metadataMap := by
  unfold recorded recordBorrow
  rw [mem_modify_iff, mem_modify_iff]

theorem recorded_spare (mgr : UnifiedMetadataManager) (ns width granted : UInt32) :
    ∃ record, (recorded mgr ns width granted).getMetadata mgr.nextVzoneId = some record ∧
      record.spareAllocated = granted := by
  unfold recorded recordBorrow
  rw [getMetadata_modify, if_pos rfl, getMetadata_modify]
  split
  · rename_i same
    rw [← same, getMetadata_requested_next]
    exact ⟨_, rfl, rfl⟩
  · rw [getMetadata_requested_next]
    exact ⟨_, rfl, rfl⟩

theorem extended_iff {mgr : UnifiedMetadataManager} :
    (mgr.nextVzoneId ∉ mgr.metadataMap ∧ ∀ vzone, vzone ∈ (requested mgr ns width).metadataMap ↔
      vzone = mgr.nextVzoneId ∨ vzone ∈ mgr.metadataMap) ↔
    mgr.nextVzoneId ∉ mgr.metadataMap ∧ (primaryVzone ns ∈ mgr.metadataMap ∨ primaryVzone ns = mgr.nextVzoneId ∨
      mgr.nextVzoneId + 1 ∈ mgr.metadataMap) := by
  have second : MakesSecond mgr ns ↔ ¬ (primaryVzone ns ∈ mgr.metadataMap ∨ primaryVzone ns = mgr.nextVzoneId) :=
    not_or.symm
  have different := succ_ne_self mgr.nextVzoneId
  apply and_congr_right
  intro _
  constructor
  · intro only
    have next := (only (mgr.nextVzoneId + 1)).mp
    rw [mem_requested] at next
    by_cases made : MakesSecond mgr ns
    · rcases next (.inl ⟨made, rfl⟩) with same | listed
      · exact absurd same.symm different
      · exact .inr (.inr listed)
    · rw [second, not_not] at made
      exact made.elim .inl (fun same => .inr (.inl same))
  · intro kept vzone
    rw [mem_requested]
    constructor
    · rintro (⟨made, rfl⟩ | rest)
      · rcases kept with primary | primary | listed
        · exact absurd (.inl primary) (second.mp made)
        · exact absurd (.inr primary) (second.mp made)
        · exact .inr listed
      · exact rest
    · exact .inr

theorem untouched_checked_iff {s : AccessedArbiter} (now : Nat → UInt64) :
    (∀ vzone ∈ s.arbiter.metadataMgr.metadataMap, s.accessAfterCheck rounding now ns width vzone = s.access vzone) ↔
      ((s.arbiter.isolation.checkBorrowPermission rounding s.arbiter.metadataMgr ns ns width).latencyChecked = true →
        primaryVzone ns ∉ s.arbiter.metadataMgr.metadataMap) := by
  simp only [AccessedArbiter.accessAfterCheck]
  split
  · rename_i checked
    simp only [checked, forall_const]
    by_cases listed : primaryVzone ns ∈ s.arbiter.metadataMgr.metadataMap
    · simp only [lookedUp, listed, if_true, not_true_eq_false, iff_false]
      intro same
      have counted := congrArg Access.accessCount (same _ listed)
      rw [Function.update_self] at counted
      exact succ_ne_self _ counted.symm
    · simp only [lookedUp, listed, if_false, not_false_eq_true, implies_true]
  · rename_i unchecked
    exact iff_of_true (fun _ _ => rfl) (fun checked => absurd checked unchecked)

end

def withTenant (ns spare : UInt32) : AccessedArbiter where
  arbiter :=
    { new .exact 1001 with
      balloon := (FragAwareBalloon.new .exact).init 0 spare
      isolation := (TenantIsolation.new.registerTenant .exact (defaultTenant .exact 80 80 ns)).2 }
  access _ := ⟨0, 0⟩

end EznsProof
