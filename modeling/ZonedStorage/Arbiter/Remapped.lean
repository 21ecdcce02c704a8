import Mathlib.Algebra.Order.Field.Basic
import Mathlib.Data.Finset.Card
import Mathlib.Tactic.NormNum
import ZonedStorage.Arbiter.FragAwareBalloon
import ZonedStorage.Runs.Throughout

namespace EznsRbc

inductive RemapCall where
  | createMetadata (namespaceId stripeWidth : UInt32)
  | addRemappedBlock (vzoneId blockId : UInt32)
  | removeRemappedBlock (vzoneId blockId : UInt32)
  | triggerReorganization (vzoneId : UInt32)

/-- A manager with the history of its vzones: the blocks of each that are remapped. -/
structure Remapping where
  mgr : UnifiedMetadataManager
  remapped : UInt32 → Finset UInt32

namespace Remapping

def start (nextVzoneId : UInt32) : Remapping := ⟨UnifiedMetadataManager.new nextVzoneId, fun _ => ∅⟩

def step (s : Remapping) : RemapCall → Remapping
  | .createMetadata ns width =>
    ⟨(s.mgr.createMetadata ns width).2, Function.update s.remapped s.mgr.nextVzoneId ∅⟩
  | .addRemappedBlock vzone block =>
    ⟨s.mgr.addRemappedBlock .exact vzone block, Function.update s.remapped vzone (insert block (s.remapped vzone))⟩
  | .removeRemappedBlock vzone block =>
    ⟨s.mgr.removeRemappedBlock .exact vzone block, Function.update s.remapped vzone ((s.remapped vzone).erase block)⟩
  | .triggerReorganization vzone =>
    ⟨FragAwareBalloon.triggerReorganization .exact s.mgr vzone, Function.update s.remapped vzone ∅⟩

end Remapping

end EznsRbc

namespace EznsProof

open EznsRbc Runs Remapping List UnifiedMetadata

section

variable {mgr : UnifiedMetadataManager}

theorem getMetadata_modify (mgr : UnifiedMetadataManager) (vzone other : UInt32)
    (change : UnifiedMetadata → UnifiedMetadata) :
    (mgr.modify vzone change).getMetadata other =
      if other = vzone then (mgr.getMetadata vzone).map change else mgr.getMetadata other := by
  unfold UnifiedMetadataManager.modify
  by_cases same : other = vzone
  · rw [if_pos same, same]
    cases found : mgr.getMetadata vzone with
    | none => exact found
    | some record => exact AList.lookup_insert _
  · rw [if_neg same]
    cases mgr.getMetadata vzone with
    | none => rfl
    | some record => exact AList.lookup_insert_ne same

theorem getMetadata_createMetadata (mgr : UnifiedMetadataManager) (ns width other : UInt32) :
    (mgr.createMetadata ns width).2.getMetadata other =
      if other = mgr.nextVzoneId then some (UnifiedMetadataManager.created ns width) else mgr.getMetadata other := by
  split
  · rename_i same
    rw [same]
    exact AList.lookup_insert _
  · rename_i different
    exact AList.lookup_insert_ne different

end

/-- The ratio of a vzone is the share of its blocks that are remapped. -/
structure TrueRatio (blocks : Finset UInt32) (record : UnifiedMetadata) : Prop where
  share : record.fragmentationRatio = blocks.card / record.totalBlocks.toNat
  nonneg : 0 ≤ record.fragmentationRatio
  le_one : record.fragmentationRatio ≤ 1

def TrueRatios (s : Remapping) : Prop :=
  ∀ vzone record, s.mgr.getMetadata vzone = some record → TrueRatio (s.remapped vzone) record

structure Updated (record : UnifiedMetadata) : Prop where
  total : record.totalBlocks = 1024
  ratio : record.fragmentationRatio = record.remappedBlocks.length / 1024

structure OnceListed (blocks : Finset UInt32) (record : UnifiedMetadata) : Prop extends Updated record where
  distinct : record.remappedBlocks.Nodup
  same : blocks = record.remappedBlocks.toFinset
  within : record.remappedBlocks.length ≤ 1024

def AddsNew (s : Remapping) : RemapCall → Prop
  | .addRemappedBlock vzone block => ∀ record, s.mgr.getMetadata vzone = some record →
      block ∉ record.remappedBlocks ∧ record.remappedBlocks.length < record.totalBlocks.toNat
  | _ => True

section

variable {record : UnifiedMetadata} {blocks : Finset UInt32}

theorem updated_updateFragmentation (total : record.totalBlocks = 1024) :
    Updated (record.updateFragmentation .exact) := by
  refine ⟨total, ?_⟩
  unfold updateFragmentation
  rw [total]
  rfl

theorem Updated.add (updated : Updated record) (block : UInt32) :
    Updated (record.addRemappedBlock .exact block) := updated_updateFragmentation updated.total

theorem Updated.remove (updated : Updated record) (block : UInt32) :
    Updated (record.removeRemappedBlock .exact block) := by
  unfold removeRemappedBlock
  split
  · exact updated_updateFragmentation updated.total
  · exact updated

theorem Updated.trueRatio_iff (updated : Updated record) :
    TrueRatio blocks record ↔ record.remappedBlocks.length = blocks.card ∧ record.remappedBlocks.length ≤ 1024 := by
  have scale : (0 : ℚ) < 1024 := by norm_num
  have total : ((record.totalBlocks.toNat : ℕ) : ℚ) = 1024 := by
    rw [updated.total]
    rfl
  constructor
  · intro truly
    have share := truly.share
    have upper := truly.le_one
    rw [updated.ratio, total, div_left_inj' scale.ne'] at share
    rw [updated.ratio, div_le_one scale] at upper
    exact ⟨by exact_mod_cast share, by exact_mod_cast upper⟩
  · rintro ⟨count, within⟩
    refine ⟨?_, ?_, ?_⟩
    · rw [updated.ratio, total, count]
    · rw [updated.ratio]
      exact div_nonneg (Nat.cast_nonneg _) scale.le
    · rw [updated.ratio, div_le_one scale]
      exact_mod_cast within

theorem OnceListed.trueRatio (listed : OnceListed blocks record) : TrueRatio blocks record := by
  apply listed.toUpdated.trueRatio_iff.mpr
  rw [listed.same, toFinset_card_of_nodup listed.distinct]
  exact ⟨rfl, listed.within⟩

theorem OnceListed.add_iff (listed : OnceListed blocks record) (block : UInt32) :
    TrueRatio (insert block blocks) (record.addRemappedBlock .exact block) ↔
      block ∉ record.remappedBlocks ∧ record.remappedBlocks.length < record.totalBlocks.toNat := by
  have length : (record.addRemappedBlock .exact block).remappedBlocks.length = record.remappedBlocks.length + 1 :=
    length_append
  have total : record.totalBlocks.toNat = 1024 := by
    rw [listed.total]
    rfl
  rw [(listed.toUpdated.add block).trueRatio_iff, length, listed.same, total]
  by_cases present : block ∈ record.remappedBlocks
  · rw [Finset.insert_eq_self.mpr (mem_toFinset.mpr present), toFinset_card_of_nodup listed.distinct]
    exact iff_of_false (fun bad => by omega) (fun bad => bad.1 present)
  · rw [Finset.card_insert_of_notMem (fun member => present (mem_toFinset.mp member)),
      toFinset_card_of_nodup listed.distinct]
    constructor
    · rintro ⟨_, within⟩
      exact ⟨present, by omega⟩
    · rintro ⟨_, within⟩
      exact ⟨rfl, by omega⟩

theorem OnceListed.add (listed : OnceListed blocks record) {block : UInt32} (fresh : block ∉ record.remappedBlocks)
    (left : record.remappedBlocks.length < record.totalBlocks.toNat) :
    OnceListed (insert block blocks) (record.addRemappedBlock .exact block) where
  toUpdated := listed.toUpdated.add block
  distinct := by
    change (record.remappedBlocks ++ [block]).Nodup
    exact nodup_append.mpr ⟨listed.distinct, nodup_singleton _, by
      intro other member last same
      rw [mem_singleton] at same
      rintro rfl
      exact fresh (same ▸ member)⟩
  same := by
    change _ = (record.remappedBlocks ++ [block]).toFinset
    rw [toFinset_append, ← listed.same, Finset.insert_eq, Finset.union_comm]
    rfl
  within := by
    have total : record.totalBlocks.toNat = 1024 := by
      rw [listed.total]
      rfl
    change (record.remappedBlocks ++ [block]).length ≤ 1024
    rw [length_append, length_singleton]
    omega

theorem OnceListed.remove (listed : OnceListed blocks record) (block : UInt32) :
    OnceListed (blocks.erase block) (record.removeRemappedBlock .exact block) := by
  have updated := listed.toUpdated.remove block
  unfold removeRemappedBlock at updated ⊢
  split
  · rename_i present
    rw [if_pos present] at updated
    refine ⟨updated, listed.distinct.erase block, ?_, ?_⟩
    · change _ = (record.remappedBlocks.erase block).toFinset
      ext other
      rw [listed.same, Finset.mem_erase, mem_toFinset, mem_toFinset, listed.distinct.mem_erase_iff]
    · exact length_erase_le.trans listed.within
  · rename_i absent
    refine ⟨listed.toUpdated, listed.distinct, ?_, listed.within⟩
    rw [listed.same, Finset.erase_eq_of_notMem (fun member => absent (mem_toFinset.mp member))]

theorem Updated.clear (updated : Updated record) :
    OnceListed ∅ ({ record with remappedBlocks := [] }.updateFragmentation .exact) where
  toUpdated := by
    apply updated_updateFragmentation
    exact updated.total
  distinct := nodup_nil
  same := rfl
  within := Nat.zero_le _

theorem listed_created (ns width : UInt32) : OnceListed ∅ (UnifiedMetadataManager.created ns width) where
  total := rfl
  ratio := by
    change (0 : ℚ) = ((0 : ℕ) : ℚ) / 1024
    norm_num
  distinct := nodup_nil
  same := rfl
  within := Nat.zero_le _

end

section

variable {s : Remapping}

def AllOnceListed (s : Remapping) : Prop :=
  ∀ vzone record, s.mgr.getMetadata vzone = some record → OnceListed (s.remapped vzone) record

theorem AllOnceListed.trueRatios (listed : AllOnceListed s) : TrueRatios s :=
  fun vzone record found => (listed vzone record found).trueRatio

theorem modified {P : Finset UInt32 → UnifiedMetadata → Prop} {vzone : UInt32} {blocks : Finset UInt32}
    {change : UnifiedMetadata → UnifiedMetadata}
    (before : ∀ other record, s.mgr.getMetadata other = some record → P (s.remapped other) record)
    (after : ∀ record, s.mgr.getMetadata vzone = some record → P blocks (change record)) :
    ∀ other record, (s.mgr.modify vzone change).getMetadata other = some record →
      P (Function.update s.remapped vzone blocks other) record := by
  intro other record found
  rw [getMetadata_modify] at found
  by_cases same : other = vzone
  · rw [if_pos same] at found
    obtain ⟨old, present, rfl⟩ := Option.map_eq_some_iff.mp found
    rw [same, Function.update_self]
    exact after old present
  · rw [if_neg same] at found
    rw [Function.update_of_ne same]
    exact before other record found

theorem AllOnceListed.step (listed : AllOnceListed s) {call : RemapCall} (adds : AddsNew s call) :
    AllOnceListed (s.step call) := by
  cases call with
  | createMetadata ns width =>
    intro other record found
    change (s.mgr.createMetadata ns width).2.getMetadata other = some record at found
    change OnceListed (Function.update s.remapped s.mgr.nextVzoneId ∅ other) record
    rw [getMetadata_createMetadata] at found
    by_cases same : other = s.mgr.nextVzoneId
    · rw [if_pos same] at found
      rw [same, Function.update_self, ← Option.some.inj found]
      exact listed_created ns width
    · rw [if_neg same] at found
      rw [Function.update_of_ne same]
      exact listed other record found
  | addRemappedBlock vzone block =>
    apply modified listed
    intro record found
    obtain ⟨fresh, left⟩ := adds record found
    exact (listed vzone record found).add fresh left
  | removeRemappedBlock vzone block =>
    apply modified listed
    exact fun record found => (listed vzone record found).remove block
  | triggerReorganization vzone =>
    apply modified listed
    exact fun record found => (listed vzone record found).toUpdated.clear

theorem AllOnceListed.step_iff (listed : AllOnceListed s) (call : RemapCall) :
    TrueRatios (s.step call) ↔ AddsNew s call := by
  refine ⟨fun truly => ?_, fun adds => (listed.step adds).trueRatios⟩
  cases call with
  | addRemappedBlock vzone block =>
    intro record found
    apply ((listed vzone record found).add_iff block).mp
    have changed := truly vzone (record.addRemappedBlock .exact block)
    change (s.mgr.modify vzone _).getMetadata vzone = _ →
      TrueRatio (Function.update s.remapped vzone _ vzone) _ at changed
    rw [getMetadata_modify, if_pos rfl, found, Function.update_self] at changed
    exact changed rfl
  | _ => trivial

theorem updated_run (calls : List RemapCall)
    (updated : ∀ vzone record, s.mgr.getMetadata vzone = some record → Updated record) :
    ∀ vzone record, (calls.foldl step s).mgr.getMetadata vzone = some record → Updated record := by
  induction calls generalizing s with
  | nil => exact updated
  | cons call calls ih =>
    apply ih
    cases call with
    | createMetadata ns width =>
      intro other record found
      change (s.mgr.createMetadata ns width).2.getMetadata other = some record at found
      rw [getMetadata_createMetadata] at found
      split at found
      · rw [← Option.some.inj found]
        exact (listed_created ns width).toUpdated
      · exact updated other record found
    | addRemappedBlock vzone block =>
      apply @modified s (fun _ => Updated) vzone ∅ _ updated
      exact fun record found => (updated vzone record found).add block
    | removeRemappedBlock vzone block =>
      apply @modified s (fun _ => Updated) vzone ∅ _ updated
      exact fun record found => (updated vzone record found).remove block
    | triggerReorganization vzone =>
      apply @modified s (fun _ => Updated) vzone ∅ _ updated
      exact fun record found => (updated vzone record found).clear.toUpdated

end

section

variable {record : UnifiedMetadata} {s : Remapping}

def ratioOf (s : Remapping) (vzone : UInt32) : Option ℚ :=
  (s.mgr.getMetadata vzone).map fragmentationRatio

def run (s : Remapping) (calls : List RemapCall) : Remapping := calls.foldl step s

def addsAndRemoval (vzone block : UInt32) (times : Nat) : List RemapCall :=
  replicate times (.addRemappedBlock vzone block) ++ [.removeRemappedBlock vzone block]

theorem run_append (s : Remapping) (calls later : List RemapCall) : run s (calls ++ later) = run (run s calls) later :=
  foldl_append

theorem getMetadata_adds (vzone block : UInt32) (times : Nat) (found : s.mgr.getMetadata vzone = some record)
    (updated : Updated record) :
    ∃ added, (run s (replicate times (.addRemappedBlock vzone block))).mgr.getMetadata vzone = some added ∧
      Updated added ∧ added.remappedBlocks = record.remappedBlocks ++ replicate times block := by
  induction times generalizing s record with
  | zero => exact ⟨record, found, updated, (append_nil _).symm⟩
  | succ times ih =>
    have once : (s.step (.addRemappedBlock vzone block)).mgr.getMetadata vzone =
        some (record.addRemappedBlock .exact block) := by
      change (s.mgr.modify vzone _).getMetadata vzone = _
      rw [getMetadata_modify, if_pos rfl, found]
      rfl
    obtain ⟨added, later, right, blocks⟩ := ih once (updated.add block)
    refine ⟨added, later, right, ?_⟩
    rw [blocks]
    change (record.remappedBlocks ++ [block]) ++ replicate times block = _
    rw [append_assoc, singleton_append, ← replicate_succ]

theorem restored_iff (vzone block : UInt32) (times : Nat) (found : s.mgr.getMetadata vzone = some record)
    (updated : Updated record) :
    ratioOf (run s (addsAndRemoval vzone block (times + 1))) vzone = ratioOf s vzone ↔ times = 0 := by
  obtain ⟨added, later, right, blocks⟩ := getMetadata_adds vzone block (times + 1) found updated
  have removed := right.remove block
  have scale : (1024 : ℚ) ≠ 0 := by norm_num
  have present : block ∈ added.remappedBlocks := by
    rw [blocks]
    exact mem_append_right _ (mem_replicate.mpr ⟨Nat.succ_ne_zero _, rfl⟩)
  have length : (added.removeRemappedBlock .exact block).remappedBlocks.length =
      record.remappedBlocks.length + times := by
    unfold removeRemappedBlock
    rw [if_pos present]
    change (added.remappedBlocks.erase block).length = _
    rw [length_erase_of_mem present, blocks, length_append, length_replicate]
    omega
  have after : ratioOf (run s (addsAndRemoval vzone block (times + 1))) vzone =
      some (added.removeRemappedBlock .exact block).fragmentationRatio := by
    unfold addsAndRemoval ratioOf
    rw [run_append]
    change (UnifiedMetadataManager.getMetadata (UnifiedMetadataManager.modify _ vzone _) vzone).map _ = _
    rw [getMetadata_modify, if_pos rfl, later]
    rfl
  rw [after, ratioOf, found, Option.map_some, Option.some_inj, removed.ratio, updated.ratio, div_left_inj' scale,
    length, Nat.cast_inj]
  omega

end

/-- The ratios are right in a run exactly if no block is added twice and none beyond the size of its vzone. One
    removal restores the ratio of a vzone exactly if the block was added once. -/
theorem fragmentation_ratio_iff (nextVzoneId : UInt32) (calls : List RemapCall) :
    (Throughout step TrueRatios (start nextVzoneId) calls ↔
      EachStep step AddsNew (start nextVzoneId) calls) ∧
    ∀ vzone record block times, (run (start nextVzoneId) calls).mgr.getMetadata vzone = some record →
      (ratioOf (run (start nextVzoneId) (calls ++ addsAndRemoval vzone block (times + 1))) vzone =
        ratioOf (run (start nextVzoneId) calls) vzone ↔ times = 0) := by
  have nothing : ∀ vzone record, (start nextVzoneId).mgr.getMetadata vzone ≠ some record := by
    intro vzone record found
    cases found
  have listed : AllOnceListed (start nextVzoneId) :=
    fun vzone record found => absurd found (nothing vzone record)
  constructor
  · apply throughout_iff _ _ listed listed.trueRatios
    · exact fun s call listed _ => listed.step_iff call
    · exact fun s call listed adds => listed.step adds
  · intro vzone record block times found
    have updated := updated_run calls (fun vzone record found => absurd found (nothing vzone record)) vzone record found
    rw [run_append]
    exact restored_iff vzone block times found updated

theorem block_added_once_restores :
    Throughout step TrueRatios (start 1000) [.createMetadata 1 4, .addRemappedBlock 1000 7] ∧
    ratioOf (run (start 1000) ([.createMetadata 1 4] ++ addsAndRemoval 1000 7 1)) 1000 =
      ratioOf (run (start 1000) [.createMetadata 1 4]) 1000 := by
  constructor
  · apply (fragmentation_ratio_iff 1000 _).1.mpr
    refine ⟨trivial, ?_, trivial⟩
    intro record found
    obtain rfl := Option.some.inj found
    exact ⟨not_mem_nil, by decide⟩
  · exact ((fragmentation_ratio_iff 1000 _).2 1000 _ 7 0 rfl).mpr rfl

/-- A block that is written again counts twice. -/
theorem rewritten_block_counts_twice : ¬Throughout step TrueRatios (start 1000)
      [.createMetadata 1 4, .addRemappedBlock 1000 7, .addRemappedBlock 1000 7] := by
  rintro ⟨_, _, _, last⟩
  have wrong := (last 1000 _ rfl).share
  revert wrong
  decide +kernel

end EznsProof
