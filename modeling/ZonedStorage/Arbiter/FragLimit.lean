import Mathlib.Algebra.Order.Floor.Semifield
import ZonedStorage.Arbiter.Quota
import ZonedStorage.Arbiter.Remapped

namespace EznsProof

open EznsRbc FragAwareBalloon UnifiedMetadataManager

/-- Some vzone created for the tenant is fragmented above the threshold. -/
def Fragmented (b : FragAwareBalloon) (mgr : UnifiedMetadataManager) (ns : UInt32) : Prop :=
  ∃ vzoneId record, mgr.getMetadata vzoneId = some record ∧ record.namespaceId = ns ∧
    b.fragThreshold < record.fragmentationRatio

/-- What a borrow has to do: a fragmented tenant gets at most seven tenths of the request and is told so, any other
    what there is of it, and no metadata is created. -/
structure FragLimited (b : FragAwareBalloon) (mgr : UnifiedMetadataManager) (ns width : UInt32) : Prop where
  fragmented : Fragmented b mgr ns →
    (b.borrowZones .exact mgr ⟨ns, width⟩).1.thresholdExceeded = true ∧
      (b.borrowZones .exact mgr ⟨ns, width⟩).1.allocatedWidth.toNat ≤ max 1 (7 * width.toNat / 10)
  compact : ¬ Fragmented b mgr ns →
    (b.borrowZones .exact mgr ⟨ns, width⟩).1.allocatedWidth.toNat = min width.toNat b.availableSpare.toNat
  counter : (b.borrowZones .exact mgr ⟨ns, width⟩).2.2.nextVzoneId = mgr.nextVzoneId
  entries : ∀ vzoneId,
    vzoneId ∈ (b.borrowZones .exact mgr ⟨ns, width⟩).2.2.metadataMap ↔ vzoneId ∈ mgr.metadataMap

/-- The metadata looked at is there and as fragmented as the tenant, or a reduction by the factor does not matter. -/
def Representative (b : FragAwareBalloon) (mgr : UnifiedMetadataManager) (ns width : UInt32) : Prop :=
  ∃ record, mgr.getMetadata (primaryVzone ns) = some record ∧
    (Fragmented b mgr ns → b.fragThreshold < record.fragmentationRatio) ∧
    (¬ Fragmented b mgr ns → b.fragThreshold < record.fragmentationRatio →
      min (max 1 ⌊(width.toNat : ℚ) * b.borrowReductionFactor⌋₊) b.availableSpare.toNat =
        min width.toNat b.availableSpare.toNat)

section

variable {b : FragAwareBalloon} {mgr : UnifiedMetadataManager} {ns width : UInt32}

theorem floor_le_sevenTenths (factor : b.borrowReductionFactor ≤ 7 / 10) :
    ⌊(width.toNat : ℚ) * b.borrowReductionFactor⌋₊ ≤ 7 * width.toNat / 10 := by
  have less : (width.toNat : ℚ) * b.borrowReductionFactor ≤ ((7 * width.toNat : ℕ) : ℚ) / (10 : ℕ) := by
    have nonneg : (0 : ℚ) ≤ width.toNat := Nat.cast_nonneg _
    have product := mul_le_mul_of_nonneg_left factor nonneg
    push_cast
    linarith
  exact (Nat.floor_le_floor less).trans (Nat.floor_div_eq_div _ _).le

theorem reducedWidth_toNat (factor : b.borrowReductionFactor ≤ 7 / 10) :
    (b.reducedWidth .exact width).toNat = max 1 ⌊(width.toNat : ℚ) * b.borrowReductionFactor⌋₊ := by
  have small : ⌊(width.toNat : ℚ) * b.borrowReductionFactor⌋₊ < 2 ^ 32 := by
    have below := @floor_le_sevenTenths b width factor
    have bound := width.toNat_lt
    omega
  have cut : (UInt32.ofNat ⌊(width.toNat : ℚ) * b.borrowReductionFactor⌋₊).toNat =
      ⌊(width.toNat : ℚ) * b.borrowReductionFactor⌋₊ := UInt32.toNat_ofNat_of_lt' small
  change (if UInt32.ofNat ⌊(width.toNat : ℚ) * b.borrowReductionFactor⌋₊ < 1 then (1 : UInt32)
    else .ofNat ⌊(width.toNat : ℚ) * b.borrowReductionFactor⌋₊).toNat = _
  split
  · rename_i none_left
    rw [UInt32.lt_iff_toNat_lt, cut] at none_left
    exact (max_eq_left (Nat.le_of_lt none_left)).symm
  · rename_i some_left
    rw [UInt32.lt_iff_toNat_lt, cut] at some_left
    rw [cut]
    exact (max_eq_right (Nat.le_of_not_lt some_left)).symm

theorem modify_nextVzoneId (id : UInt32) (change : UnifiedMetadata → UnifiedMetadata) :
    (mgr.modify id change).nextVzoneId = mgr.nextVzoneId := by
  rw [UnifiedMetadataManager.modify]
  split <;> rfl

theorem mem_modify_iff (id other : UInt32) (change : UnifiedMetadata → UnifiedMetadata) :
    other ∈ (mgr.modify id change).metadataMap ↔ other ∈ mgr.metadataMap := by
  refine ⟨fun after => ?_, mem_modify⟩
  rw [UnifiedMetadataManager.modify] at after
  split at after
  · exact after
  · rename_i record found
    rcases (AList.mem_insert _).mp after with rfl | before
    · exact AList.lookup_isSome.mp (Option.isSome_iff_exists.mpr ⟨record, found⟩)
    · exact before

theorem borrowZones_nextVzoneId (request : BorrowRequest) : (b.borrowZones .exact mgr request).2.2.nextVzoneId =
      (tenantMetadata mgr request.namespaceId).2.nextVzoneId := by
  simp only [borrowZones]
  split
  · exact modify_nextVzoneId _ _
  · rfl

theorem borrowZones_entries (request : BorrowRequest) (other : UInt32) :
    other ∈ (b.borrowZones .exact mgr request).2.2.metadataMap ↔
      other ∈ (tenantMetadata mgr request.namespaceId).2.metadataMap := by
  simp only [borrowZones]
  split
  · exact mem_modify_iff _ _ _
  · exact Iff.rfl

theorem borrowZones_allocated (b : FragAwareBalloon) (mgr : UnifiedMetadataManager) (request : BorrowRequest) :
    (b.borrowZones .exact mgr request).1.allocatedWidth.toNat =
      min (askedWidth .exact b (tenantMetadata mgr request.namespaceId).1.fragmentationRatio
        request.requestedWidth).toNat b.availableSpare.toNat := by
  rw [← grantedWidth_toNat]
  simp only [borrowZones]
  split <;> rfl

theorem borrowZones_exceeded (b : FragAwareBalloon) (mgr : UnifiedMetadataManager) (request : BorrowRequest) :
    (b.borrowZones .exact mgr request).1.thresholdExceeded = true ↔
      b.fragThreshold < (tenantMetadata mgr request.namespaceId).1.fragmentationRatio := by
  simp only [borrowZones]
  split <;> exact decide_eq_true_iff

theorem created_of_absent (absent : mgr.getMetadata (primaryVzone ns) = none) :
    (b.borrowZones .exact mgr ⟨ns, width⟩).2.2.nextVzoneId ≠ mgr.nextVzoneId := by
  rw [borrowZones_nextVzoneId, tenantMetadata, absent]
  intro same
  have moved : mgr.nextVzoneId + 1 = mgr.nextVzoneId + 0 := same.trans (UInt32.add_zero _).symm
  exact absurd (UInt32.add_right_inj _ |>.mp moved) (by decide)

theorem borrowZones_of_absent (b : FragAwareBalloon) (absent : mgr.getMetadata (primaryVzone ns) = none)
    (some_zone : 0 < b.grantedWidth .exact 0 width) :
    b.borrowZones .exact mgr ⟨ns, width⟩ =
      (⟨b.grantedWidth .exact 0 width, 0, b.fragThreshold < 0, "Success"⟩,
        b.charge ns (b.grantedWidth .exact 0 width),
        (mgr.createMetadata ns 4).2.recordBorrow (primaryVzone ns) (b.grantedWidth .exact 0 width)) := by
  have made : tenantMetadata mgr ns =
      (created ns 4, (mgr.createMetadata ns 4).2) := by
    rw [tenantMetadata, absent]
  simp only [borrowZones, made]
  exact if_pos some_zone

end

def eightySpare : FragAwareBalloon := (new .exact).init 80 80

theorem added_blocks (blocks : List Nat) {mgr : UnifiedMetadataManager} {vzone : UInt32} {record : UnifiedMetadata}
    (found : mgr.getMetadata vzone = some record) (updated : Updated record) :
    let after := blocks.foldl (fun mgr block => mgr.addRemappedBlock .exact vzone (.ofNat block)) mgr
    (∃ last, after.getMetadata vzone = some last ∧ last.namespaceId = record.namespaceId ∧
        last.fragmentationRatio = ((record.remappedBlocks.length + blocks.length : ℕ) : ℚ) / 1024) ∧
      (∀ other, other ≠ vzone → after.getMetadata other = mgr.getMetadata other) ∧
      after.nextVzoneId = mgr.nextVzoneId := by
  induction blocks generalizing mgr record with
  | nil =>
    refine ⟨⟨record, found, rfl, ?_⟩, fun _ _ => rfl, rfl⟩
    rw [updated.ratio, List.length_nil, Nat.add_zero]
  | cons block blocks ih =>
    have once : (mgr.addRemappedBlock .exact vzone (.ofNat block)).getMetadata vzone =
        some (record.addRemappedBlock .exact (.ofNat block)) := by
      rw [addRemappedBlock, getMetadata_modify, if_pos rfl, found]
      rfl
    have length : (record.addRemappedBlock .exact (.ofNat block)).remappedBlocks.length =
        record.remappedBlocks.length + 1 := List.length_append
    obtain ⟨⟨last, reached, owner, ratio⟩, others, counter⟩ := ih once (updated.add _)
    refine ⟨⟨last, reached, owner, ?_⟩, fun other different => ?_, ?_⟩
    · rw [length, Nat.add_assoc, Nat.add_comm 1] at ratio
      exact ratio
    · rw [List.foldl_cons, others other different, addRemappedBlock, getMetadata_modify,
        if_neg different]
    · rw [List.foldl_cons, counter]
      exact modify_nextVzoneId _ _

def remapBlocks (mgr : UnifiedMetadataManager) (vzone : UInt32) : UnifiedMetadataManager :=
  (List.range 500).foldl (fun mgr block => mgr.addRemappedBlock .exact vzone (.ofNat block)) mgr

def remappedVzone : UnifiedMetadataManager := remapBlocks ((new 1000).createMetadata 1 4).2 1000

/-- The second vzone has the id that is looked at for tenant 10. -/
def remappedTenth : UnifiedMetadataManager :=
  remapBlocks ((((new 1000).createMetadata 1 4).2.createMetadata 10 4).2) 1001

end EznsProof
