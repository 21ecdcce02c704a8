import Mathlib.Data.List.Destutter
import ZonedStorage.Runs.Throughout
import ZonedStorage.Seqno.SeqnoToTime

namespace SeqnoModel

inductive MappingCall where
  | addUnenforced (seqno time : UInt64)
  | append (seqno time : UInt64)
  | enforce (now : UInt64)
  | setMaxTimeSpan (maxTimeSpan : UInt64)
  | setCapacity (capacity : UInt64)

def SeqnoToTimeMapping.step (m : SeqnoToTimeMapping) : MappingCall → SeqnoToTimeMapping
  | .addUnenforced seqno time => m.addUnenforced seqno time
  | .append seqno time => (m.append seqno time).2
  | .enforce now => m.enforce now
  | .setMaxTimeSpan maxTimeSpan => m.setMaxTimeSpan maxTimeSpan
  | .setCapacity capacity => m.setCapacity capacity

end SeqnoModel

namespace SeqnoProof

open SeqnoModel SeqnoModel.SeqnoToTimeMapping Runs Search SeqnoTimePair List SeqnoToTimeMapping

def Ordered (pairs : List SeqnoTimePair) : Prop :=
  pairs.Pairwise (fun a b => a.seqno < b.seqno ∧ a.time ≤ b.time)

def LargestOf (values : List UInt64) (value : UInt64) : Prop :=
  (values = [] ∧ value = 0) ∨ (value ∈ values ∧ ∀ other ∈ values, other ≤ value)

def upToTime (m : SeqnoToTimeMapping) (time : UInt64) : List SeqnoTimePair :=
  m.pairs.filter (fun pair => pair.time ≤ time)

def belowSeqno (m : SeqnoToTimeMapping) (seqno : UInt64) : List SeqnoTimePair :=
  m.pairs.filter (fun pair => pair.seqno < seqno)

/-- The entries are in order, and the queries by time and by sequence number find the best of them. -/
structure Consistent (m : SeqnoToTimeMapping) : Prop where
  ordered : Ordered m.pairs
  seqno : ∀ time, LargestOf ((upToTime m time).map seqno) (m.getProximalSeqnoBeforeTime time)
  time : ∀ seqno, LargestOf ((belowSeqno m seqno).map time) (m.getProximalTimeBeforeSeqno seqno)
  seqno_mono : ∀ time later, time ≤ later → m.getProximalSeqnoBeforeTime time ≤ m.getProximalSeqnoBeforeTime later
  time_mono : ∀ seqno later, seqno ≤ later → m.getProximalTimeBeforeSeqno seqno ≤ m.getProximalTimeBeforeSeqno later

def InOrder (m : SeqnoToTimeMapping) : Prop := m.enforced = true → Consistent m

/-- Where the time rises from one entry to the next, no later entry has an earlier time than the first of them. -/
def NoFallBack : List SeqnoTimePair → Prop
  | first :: second :: rest =>
    (first.time < second.time → ∀ later ∈ rest, first.time ≤ later.time) ∧ NoFallBack (second :: rest)
  | _ => True

/-- The earliest times of the sequence numbers, in their order, do not fall back. -/
def Steady (pairs : List SeqnoTimePair) : Prop :=
  NoFallBack ((pairs.mergeSort le).destutter (fun a b => a.seqno ≠ b.seqno))

def noted (pairs : List SeqnoTimePair) (pair : SeqnoTimePair) : List SeqnoTimePair :=
  match pairs.getLast? with
  | none => [pair]
  | some last =>
    if last.seqno ≤ pair.seqno then
      match last.merge pair with
      | some merged => pairs.dropLast ++ [merged]
      | none => pairs ++ [pair]
    else pairs ++ [pair]

/-- What keeps the entries in order: to the enforced ones, one is appended that is not earlier than the one before
    the last; and unenforced ones are steady when they are sorted. -/
def KeepsOrder (m : SeqnoToTimeMapping) : MappingCall → Prop
  | .append seqno time => m.capacity ≠ 0 →
    if m.enforced then ∀ earlier, m.pairs.dropLast.getLast? = some earlier → earlier.time ≤ time
    else Steady (if seqno = 0 then m.pairs else noted m.pairs ⟨seqno, time⟩)
  | .enforce _ => m.enforced = false → Steady m.pairs
  | _ => True

section

variable {pairs : List SeqnoTimePair} {values : List UInt64}

theorem LargestOf.le {others : List UInt64} {value other : UInt64} (largest : LargestOf values value)
    (larger : LargestOf others other) (subset : ∀ v ∈ values, v ∈ others) : value ≤ other := by
  rcases largest with ⟨_, rfl⟩ | ⟨member, _⟩
  · exact UInt64.zero_le
  · rcases larger with ⟨rfl, _⟩ | ⟨_, bound⟩
    · exact absurd (subset value member) not_mem_nil
    · exact bound value (subset value member)

theorem largestOf_getLast {f : SeqnoTimePair → UInt64} (ordered : pairs.Pairwise (fun a b => f a ≤ f b)) :
    LargestOf (pairs.map f) ((pairs.getLast?.map f).getD 0) := by
  rcases eq_nil_or_concat pairs with rfl | ⟨init, last, rfl⟩
  · exact .inl ⟨rfl, rfl⟩
  · rw [concat_eq_append] at ordered ⊢
    rw [getLast?_concat, map_append]
    refine .inr ⟨mem_append_right _ (mem_singleton.mpr rfl), ?_⟩
    intro other member
    rcases mem_append.mp member with earlier | here
    · obtain ⟨pair, inside, rfl⟩ := mem_map.mp earlier
      exact (pairwise_append.mp ordered).2.2 pair inside last (mem_singleton.mpr rfl)
    · rw [mem_singleton.mp here]
      exact UInt64.le_refl _

variable {m : SeqnoToTimeMapping}

theorem getProximalSeqnoBeforeTime_eq (ordered : Ordered m.pairs) (time : UInt64) :
    m.getProximalSeqnoBeforeTime time = ((upToTime m time).getLast?.map seqno).getD 0 := by
  have test : (fun pair : SeqnoTimePair => !decide (time < pair.time)) = (fun pair => decide (pair.time ≤ time)) := by
    funext pair
    rw [← decide_not]
    simp only [UInt64.not_lt]
  have partitioned : m.pairs.Pairwise
      (fun a b => decide (b.time ≤ time) = true → decide (a.time ≤ time) = true) := by
    apply ordered.imp
    intro a b both within
    exact decide_eq_true (UInt64.le_trans both.2 (of_decide_eq_true within))
  unfold getProximalSeqnoBeforeTime findGreaterTime upToTime
  rw [test, getLast?_filter_eq partitioned]
  cases partitionPoint (fun pair => decide (pair.time ≤ time)) m.pairs with
  | zero => rfl
  | succ it => rfl

theorem getProximalTimeBeforeSeqno_eq (ordered : Ordered m.pairs) (seqno : UInt64) :
    m.getProximalTimeBeforeSeqno seqno = ((belowSeqno m seqno).getLast?.map time).getD 0 := by
  have partitioned : m.pairs.Pairwise
      (fun a b => decide (b.seqno < seqno) = true → decide (a.seqno < seqno) = true) := by
    apply ordered.imp
    intro a b both below
    exact decide_eq_true (UInt64.lt_trans both.1 (of_decide_eq_true below))
  unfold getProximalTimeBeforeSeqno findGreaterEqSeqno belowSeqno
  rw [getLast?_filter_eq partitioned]
  cases partitionPoint (fun pair => decide (pair.seqno < seqno)) m.pairs with
  | zero => rfl
  | succ it => rfl

theorem consistent_of_ordered (ordered : Ordered m.pairs) : Consistent m := by
  have seqno : ∀ time,
      LargestOf ((upToTime m time).map seqno) (m.getProximalSeqnoBeforeTime time) := by
    intro time
    rw [getProximalSeqnoBeforeTime_eq ordered]
    apply largestOf_getLast
    apply (ordered.sublist filter_sublist).imp
    exact fun both => UInt64.le_of_lt both.1
  have time : ∀ seqno,
      LargestOf ((belowSeqno m seqno).map time) (m.getProximalTimeBeforeSeqno seqno) := by
    intro seqno
    rw [getProximalTimeBeforeSeqno_eq ordered]
    apply largestOf_getLast
    exact (ordered.sublist filter_sublist).imp And.right
  refine ⟨ordered, seqno, time, ?_, ?_⟩
  · intro early late before
    apply (seqno early).le (seqno late)
    intro value member
    obtain ⟨pair, inside, rfl⟩ := mem_map.mp member
    obtain ⟨listed, within⟩ := mem_filter.mp inside
    apply mem_map_of_mem
    exact mem_filter.mpr ⟨listed, decide_eq_true (UInt64.le_trans (of_decide_eq_true within) before)⟩
  · intro low high below
    apply (time low).le (time high)
    intro value member
    obtain ⟨pair, inside, rfl⟩ := mem_map.mp member
    obtain ⟨listed, within⟩ := mem_filter.mp inside
    apply mem_map_of_mem
    exact mem_filter.mpr ⟨listed, decide_eq_true (UInt64.lt_of_lt_of_le (of_decide_eq_true within) below)⟩

theorem dropBefore_sublist (cutoffTime : UInt64) (pairs : List SeqnoTimePair) :
    (dropBefore cutoffTime pairs).Sublist pairs := by
  induction pairs with
  | nil => exact List.Sublist.refl _
  | cons first rest ih =>
    cases rest with
    | nil => exact List.Sublist.refl _
    | cons second rest =>
      rw [dropBefore]
      split
      · exact ih.trans (sublist_cons_self _ _)
      · exact List.Sublist.refl _

theorem enforceMaxTimeSpan_sublist (m : SeqnoToTimeMapping) (now : UInt64) :
    (m.enforceMaxTimeSpan now).pairs.Sublist m.pairs := by
  unfold enforceMaxTimeSpan
  split
  · exact List.Sublist.refl _
  · generalize (if 0 < now then now else (m.pairs.getLast?.map time).getD 0) = newest
    dsimp only
    split
    · exact List.Sublist.refl _
    · exact dropBefore_sublist _ _

def kept (pairs : List SeqnoTimePair) : List SeqnoTimePair :=
  pairs.filter (fun pair => pair.time ≠ kUnknownTimeBeforeAll)

theorem kept_mark_sublist (pairs : List SeqnoTimePair) (position : Nat) :
    (kept (mark pairs position)).Sublist (kept pairs) := by
  induction pairs generalizing position with
  | nil =>
    rw [mark, modify_nil]
  | cons pair rest ih =>
    cases position with
    | zero =>
      change (kept rest).Sublist (kept (pair :: rest))
      exact (sublist_cons_self pair rest).filter _
    | succ position =>
      change (kept (pair :: mark rest position)).Sublist (kept (pair :: rest))
      simp only [kept, filter_cons]
      split
      · exact (ih position).cons_cons pair
      · exact ih position

theorem kept_removeBest_sublist (pairs : List SeqnoTimePair) (pq : List RemovalCandidate) (toRemoveCount : Nat) :
    (kept (removeBest pairs pq toRemoveCount)).Sublist (kept pairs) := by
  fun_induction removeBest pairs pq toRemoveCount with
  | case1 pairs pq => exact List.Sublist.refl _
  | case2 pairs pq toRemoveCount top => exact List.Sublist.refl _
  | case3 pairs pq toRemoveCount rc top gap ih => exact ih.trans (kept_mark_sublist _ _)
  | case4 pairs pq toRemoveCount rc top gap ih => exact ih

theorem enforceCapacity_sublist (m : SeqnoToTimeMapping) (strict : Bool) :
    (m.enforceCapacity strict).pairs.Sublist m.pairs := by
  unfold enforceCapacity
  split
  · exact nil_sublist _
  · split
    · exact List.Sublist.refl _
    · exact (kept_removeBest_sublist _ _ _).trans filter_sublist

theorem Ordered.prune {strict : Bool} {now : UInt64} (ordered : Ordered m.pairs) :
    Ordered ((m.enforceMaxTimeSpan now).enforceCapacity strict).pairs :=
  ordered.sublist ((enforceCapacity_sublist _ _).trans (enforceMaxTimeSpan_sublist _ _))

end

section

variable {entry pair : SeqnoTimePair} {rest : List SeqnoTimePair}

theorem le_iff {a b : SeqnoTimePair} :
    le a b = true ↔ a.seqno < b.seqno ∨ (a.seqno = b.seqno ∧ a.time ≤ b.time) := by
  simp only [le, Bool.or_eq_true, Bool.and_eq_true, decide_eq_true_eq]

theorem merge_cases (sorted : le entry pair = true) :
    (entry.seqno = pair.seqno ∧ entry.time ≤ pair.time ∧ entry.merge pair = some entry) ∨
    (entry.seqno < pair.seqno ∧ pair.time ≤ entry.time ∧ entry.merge pair = some pair) ∨
    (entry.seqno < pair.seqno ∧ entry.time < pair.time ∧ entry.merge pair = none) := by
  rcases le_iff.mp sorted with less | ⟨same, older⟩
  · have different : entry.seqno ≠ pair.seqno := UInt64.ne_of_lt less
    unfold SeqnoTimePair.merge
    rw [if_neg different]
    by_cases equal : entry.time = pair.time
    · refine .inr (.inl ⟨less, UInt64.le_of_eq equal.symm, ?_⟩)
      rw [if_pos equal, if_pos less, equal]
    · rw [if_neg equal]
      by_cases fell : pair.time < entry.time
      · rw [if_pos fell]
        exact .inr (.inl ⟨less, UInt64.le_of_lt fell, rfl⟩)
      · rw [if_neg fell]
        exact .inr (.inr ⟨less, UInt64.lt_of_le_of_ne (UInt64.not_lt.mp fell) equal, rfl⟩)
  · refine .inl ⟨same, older, ?_⟩
    unfold SeqnoTimePair.merge
    rw [if_pos same, if_neg (UInt64.not_lt.mpr older)]

def Sorted (pairs : List SeqnoTimePair) : Prop := pairs.Pairwise (fun a b => le a b = true)

theorem pair_le_trans {a b c : SeqnoTimePair} (first : le a b = true)
    (second : le b c = true) : le a c = true := by
  rw [le_iff] at first second ⊢
  simp only [UInt64.lt_iff_toNat_lt, UInt64.le_iff_toNat_le, ← UInt64.toNat_inj] at first second ⊢
  omega

theorem pair_le_total (a b : SeqnoTimePair) : (le a b || le b a) = true := by
  rw [Bool.or_eq_true, le_iff, le_iff]
  simp only [UInt64.lt_iff_toNat_lt, UInt64.le_iff_toNat_le, ← UInt64.toNat_inj]
  omega

theorem sorted_mergeSort (pairs : List SeqnoTimePair) : Sorted (pairs.mergeSort le) := by
  apply pairwise_mergeSort
  · exact fun a b c => pair_le_trans
  · exact pair_le_total

theorem skip_sublist (entry pair : SeqnoTimePair) (rest : List SeqnoTimePair) :
    (entry :: rest).Sublist (entry :: pair :: rest) := (sublist_cons_self pair rest).cons_cons entry

theorem mergeFrom_sublist (sorted : Sorted (entry :: rest)) : (mergeFrom entry rest).Sublist (entry :: rest) := by
  induction rest generalizing entry with
  | nil => exact List.Sublist.refl _
  | cons pair rest ih =>
    obtain ⟨first, others⟩ := pairwise_cons.mp sorted
    rw [mergeFrom]
    rcases merge_cases (first pair mem_cons_self) with ⟨_, _, merged⟩ | ⟨_, _, merged⟩ | ⟨_, _, merged⟩
    · rw [merged]
      have smaller := skip_sublist entry pair rest
      exact (ih (sorted.sublist smaller)).trans smaller
    · rw [merged]
      exact (ih others).trans (sublist_cons_self _ _)
    · rw [merged]
      exact (ih others).cons_cons entry

def firsts (entry : SeqnoTimePair) (rest : List SeqnoTimePair) : List SeqnoTimePair :=
  rest.destutter' (fun a b => a.seqno ≠ b.seqno) entry

theorem firsts_cons_same (same : entry.seqno = pair.seqno) : firsts entry (pair :: rest) = firsts entry rest := by
  unfold firsts
  rw [destutter'_cons_neg _ (not_not.mpr same)]

theorem firsts_cons_next (different : entry.seqno ≠ pair.seqno) :
    firsts entry (pair :: rest) = entry :: firsts pair rest := by
  unfold firsts
  rw [destutter'_cons, if_pos different]

theorem firsts_head (entry : SeqnoTimePair) (rest : List SeqnoTimePair) :
    ∃ later, firsts entry rest = entry :: later := by
  induction rest with
  | nil => exact ⟨[], rfl⟩
  | cons pair rest ih =>
    by_cases same : entry.seqno = pair.seqno
    · rw [firsts_cons_same same]
      exact ih
    · rw [firsts_cons_next same]
      exact ⟨_, rfl⟩

theorem firsts_earliest (sorted : Sorted (entry :: rest)) :
    ∀ pair ∈ entry :: rest, ∃ first ∈ firsts entry rest, first.time ≤ pair.time := by
  induction rest generalizing entry with
  | nil =>
    intro pair member
    rw [mem_singleton.mp member]
    exact ⟨entry, mem_singleton.mpr rfl, UInt64.le_refl _⟩
  | cons next rest ih =>
    obtain ⟨head, others⟩ := pairwise_cons.mp sorted
    have ordered := le_iff.mp (head next mem_cons_self)
    by_cases same : entry.seqno = next.seqno
    · have older : entry.time ≤ next.time := by
        rcases ordered with less | both
        · exact absurd same (UInt64.ne_of_lt less)
        · exact both.2
      rw [firsts_cons_same same]
      have shorter := ih (sorted.sublist (skip_sublist entry next rest))
      intro pair member
      rcases mem_cons.mp member with rfl | later
      · exact shorter _ mem_cons_self
      · rcases mem_cons.mp later with rfl | later
        · obtain ⟨first, listed, earlier⟩ := shorter entry mem_cons_self
          exact ⟨first, listed, UInt64.le_trans earlier older⟩
        · exact shorter pair (mem_cons_of_mem _ later)
    · rw [firsts_cons_next same]
      intro pair member
      rcases mem_cons.mp member with rfl | later
      · exact ⟨_, mem_cons_self, UInt64.le_refl _⟩
      · obtain ⟨first, listed, earlier⟩ := ih others pair later
        exact ⟨first, mem_cons_of_mem _ listed, earlier⟩

theorem seqno_le (sorted : Sorted (entry :: rest)) : ∀ pair ∈ entry :: rest, entry.seqno ≤ pair.seqno := by
  intro pair member
  rcases mem_cons.mp member with rfl | later
  · exact UInt64.le_refl _
  · rcases le_iff.mp ((pairwise_cons.mp sorted).1 pair later) with less | ⟨same, _⟩
    · exact UInt64.le_of_lt less
    · exact UInt64.le_of_eq same

theorem mergeFrom_ordered (sorted : Sorted (entry :: rest)) (steady : NoFallBack (firsts entry rest)) :
    Ordered (mergeFrom entry rest) := by
  induction rest generalizing entry with
  | nil => exact pairwise_singleton _ _
  | cons pair rest ih =>
    obtain ⟨head, others⟩ := pairwise_cons.mp sorted
    rw [mergeFrom]
    rcases merge_cases (head pair mem_cons_self) with ⟨same, _, merged⟩ | ⟨less, _, merged⟩ | ⟨less, rises, merged⟩
    · rw [firsts_cons_same same] at steady
      rw [merged]
      exact ih (sorted.sublist (skip_sublist entry pair rest)) steady
    · rw [firsts_cons_next (UInt64.ne_of_lt less)] at steady
      obtain ⟨later, next⟩ := firsts_head pair rest
      rw [merged]
      rw [next] at steady
      exact ih others (next ▸ steady.2)
    · rw [firsts_cons_next (UInt64.ne_of_lt less)] at steady
      obtain ⟨later, next⟩ := firsts_head pair rest
      rw [merged]
      rw [next] at steady
      apply pairwise_cons.mpr ⟨?_, ih others (next ▸ steady.2)⟩
      intro other member
      have listed := (mergeFrom_sublist others).subset member
      constructor
      · exact UInt64.lt_of_lt_of_le less (seqno_le others other listed)
      · obtain ⟨first, among, earlier⟩ := firsts_earliest others other listed
        rw [next] at among
        rcases mem_cons.mp among with rfl | after
        · exact UInt64.le_trans (UInt64.le_of_lt rises) earlier
        · exact UInt64.le_trans (steady.1 rises first after) earlier

theorem Steady.sortAndMerge {m : SeqnoToTimeMapping} (steady : Steady m.pairs) : Ordered m.sortAndMerge.pairs := by
  have sorted := sorted_mergeSort m.pairs
  unfold Steady at steady
  change Ordered (mergeSorted (m.pairs.mergeSort le))
  generalize m.pairs.mergeSort le = arranged at sorted steady ⊢
  cases arranged with
  | nil => exact List.Pairwise.nil
  | cons first rest => exact mergeFrom_ordered sorted steady

end

section

variable {init : List SeqnoTimePair} {last pair merged : SeqnoTimePair}

theorem ordered_concat_iff : Ordered (init ++ [last]) ↔
    Ordered init ∧ ∀ earlier ∈ init, earlier.seqno < last.seqno ∧ earlier.time ≤ last.time := by
  unfold Ordered
  rw [pairwise_append]
  constructor
  · rintro ⟨before, _, across⟩
    exact ⟨before, fun earlier member => across earlier member last (mem_singleton.mpr rfl)⟩
  · rintro ⟨before, across⟩
    refine ⟨before, pairwise_singleton _ _, ?_⟩
    intro earlier member other listed
    rw [mem_singleton.mp listed]
    exact across earlier member

theorem merge_bounds (after : last.seqno ≤ pair.seqno) (merges : last.merge pair = some merged) :
    last.seqno ≤ merged.seqno ∧ (merged.time = last.time ∨ merged.time = pair.time) := by
  unfold SeqnoTimePair.merge at merges
  split at merges
  · obtain rfl := Option.some.inj merges
    refine ⟨UInt64.le_refl _, ?_⟩
    dsimp only
    split
    · exact .inr rfl
    · exact .inl rfl
  · split at merges
    · obtain rfl := Option.some.inj merges
      refine ⟨?_, .inl rfl⟩
      dsimp only
      split
      · exact after
      · exact UInt64.le_refl _
    · split at merges
      · obtain rfl := Option.some.inj merges
        exact ⟨after, .inr rfl⟩
      · cases merges

theorem merge_none (after : last.seqno ≤ pair.seqno) (apart : last.merge pair = none) :
    last.seqno < pair.seqno ∧ last.time < pair.time := by
  unfold SeqnoTimePair.merge at apart
  split at apart
  · cases apart
  · rename_i different
    split at apart
    · cases apart
    · rename_i unequal
      split at apart
      · cases apart
      · rename_i rises
        exact ⟨UInt64.lt_of_le_of_ne after different, UInt64.lt_of_le_of_ne (UInt64.not_lt.mp rises) unequal⟩

theorem Ordered.merge_last (ordered : Ordered (init ++ [last])) (after : last.seqno ≤ pair.seqno)
    (merges : last.merge pair = some merged)
    (recent : ∀ earlier, init.getLast? = some earlier → earlier.time ≤ pair.time) : Ordered (init ++ [merged]) := by
  obtain ⟨before, across⟩ := ordered_concat_iff.mp ordered
  obtain ⟨higher, times⟩ := merge_bounds after merges
  have newer : ∀ earlier ∈ init, earlier.time ≤ pair.time := by
    rcases eq_nil_or_concat init with rfl | ⟨older, newest, rfl⟩
    · exact fun earlier none => absurd none not_mem_nil
    · rw [concat_eq_append] at before recent ⊢
      have bound := recent newest getLast?_concat
      intro earlier member
      rcases mem_append.mp member with old | here
      · exact UInt64.le_trans ((ordered_concat_iff.mp before).2 earlier old).2 bound
      · rw [mem_singleton.mp here]
        exact bound
  apply ordered_concat_iff.mpr ⟨before, ?_⟩
  intro earlier member
  refine ⟨UInt64.lt_of_lt_of_le (across earlier member).1 higher, ?_⟩
  rcases times with same | same
  · rw [same]
    exact (across earlier member).2
  · rw [same]
    exact newer earlier member

theorem Ordered.push_last (ordered : Ordered (init ++ [last])) (after : last.seqno ≤ pair.seqno)
    (apart : last.merge pair = none) : Ordered ((init ++ [last]) ++ [pair]) := by
  obtain ⟨less, rises⟩ := merge_none after apart
  obtain ⟨before, across⟩ := ordered_concat_iff.mp ordered
  apply ordered_concat_iff.mpr ⟨ordered, ?_⟩
  intro earlier member
  rcases mem_append.mp member with old | here
  · exact ⟨UInt64.lt_trans (across earlier old).1 less, UInt64.le_trans (across earlier old).2 (UInt64.le_of_lt rises)⟩
  · rw [mem_singleton.mp here]
    exact ⟨less, UInt64.le_of_lt rises⟩

end

section

variable {m : SeqnoToTimeMapping}

theorem appended_ordered (ordered : m.enforced = true → Ordered m.pairs)
    (steady : m.enforced = false → Steady m.pairs) : Ordered m.appended.pairs := by
  unfold appended
  apply Ordered.prune
  cases enforced : m.enforced with
  | true => exact ordered enforced
  | false => exact (steady enforced).sortAndMerge

theorem append_last {seqno time : UInt64} {last : SeqnoTimePair} (room : m.capacity ≠ 0) (nonzero : seqno ≠ 0)
    (newest : m.pairs.getLast? = some last) :
    (m.append seqno time).2 = appended { m with
      pairs := if m.enforced = true ∧ ¬ last.seqno ≤ seqno then m.pairs else noted m.pairs ⟨seqno, time⟩ } := by
  unfold append noted
  simp only [if_neg room, if_neg nonzero, newest]
  by_cases after : last.seqno ≤ seqno
  · simp only [after, not_true_eq_false, and_false, if_false, if_true]
    cases merges : last.merge ⟨seqno, time⟩ with
    | some merged => rfl
    | none =>
      obtain ⟨less, rises⟩ := merge_none after merges
      simp only [UInt64.not_le.mpr less, UInt64.not_le.mpr rises, decide_false, Bool.or_self, Bool.and_false,
        Bool.false_eq_true, if_false]
  · cases enforced : m.enforced with
    | true =>
      simp only [after, if_false, Bool.not_true, Bool.false_eq_true, not_false_eq_true, and_self, if_true]
      rw [← enforced]
    | false => simp only [after, if_false, Bool.not_false, if_true, Bool.false_eq_true, false_and]

theorem append_ordered {seqno time : UInt64} (ordered : m.enforced = true → Ordered m.pairs)
    (keeps : KeepsOrder m (.append seqno time)) (enforced : (m.append seqno time).2.enforced = true) :
    Ordered (m.append seqno time).2.pairs := by
  unfold KeepsOrder at keeps
  by_cases none : m.capacity = 0
  · unfold append at enforced ⊢
    rw [if_pos none] at enforced ⊢
    exact ordered enforced
  have keeps := keeps none
  by_cases zero : seqno = 0
  · unfold append
    rw [if_neg none, if_pos zero]
    apply appended_ordered ordered
    intro unenforced
    rw [unenforced, if_neg Bool.false_ne_true, if_pos zero] at keeps
    exact keeps
  rw [if_neg zero] at keeps
  rcases eq_nil_or_concat m.pairs with empty | ⟨init, last, entries⟩
  · unfold append
    rw [if_neg none, if_neg zero, empty]
    exact pairwise_singleton _ _
  rw [concat_eq_append] at entries
  have newest : m.pairs.getLast? = some last := by rw [entries, getLast?_concat]
  rw [append_last none zero newest]
  apply appended_ordered
  · intro enforced
    change m.enforced = true at enforced
    have before := ordered enforced
    rw [enforced, if_pos rfl, entries, dropLast_concat] at keeps
    change Ordered (if m.enforced = true ∧ ¬ last.seqno ≤ seqno then m.pairs else noted m.pairs ⟨seqno, time⟩)
    by_cases after : last.seqno ≤ seqno
    · rw [if_neg (fun both => both.2 after), noted, newest]
      simp only [after, if_true]
      rw [entries] at before
      cases merges : last.merge ⟨seqno, time⟩ with
      | some merged =>
        rw [entries, dropLast_concat]
        exact before.merge_last after merges keeps
      | none =>
        rw [entries]
        exact before.push_last after merges
    · rw [if_pos ⟨enforced, after⟩]
      exact before
  · intro unenforced
    change m.enforced = false at unenforced
    rw [unenforced, if_neg Bool.false_ne_true] at keeps
    simp only [unenforced, Bool.false_eq_true, false_and, if_false]
    exact keeps

theorem InOrder.step (ordered : InOrder m) (call : MappingCall) (keeps : KeepsOrder m call) :
    InOrder (m.step call) := by
  intro enforced
  apply consistent_of_ordered
  have before : m.enforced = true → Ordered m.pairs := fun held => (ordered held).ordered
  cases call with
  | addUnenforced seqno time =>
    change (m.addUnenforced seqno time).enforced = true at enforced
    change Ordered (m.addUnenforced seqno time).pairs
    unfold addUnenforced at enforced ⊢
    split at enforced
    · rename_i zero
      rw [if_pos zero]
      exact before enforced
    · cases enforced
  | append seqno time => exact append_ordered before keeps enforced
  | enforce now =>
    change Ordered (m.enforce now).pairs
    unfold enforce
    cases held : m.enforced with
    | true =>
      simp only [Bool.not_true, Bool.false_eq_true, if_false]
      split
      · exact (before held).prune
      · exact (before held).sublist (enforceCapacity_sublist _ _)
    | false =>
      have steady : Steady m.pairs := keeps held
      exact steady.sortAndMerge.prune
  | setMaxTimeSpan maxTimeSpan =>
    change (m.setMaxTimeSpan maxTimeSpan).enforced = true at enforced
    change Ordered (m.setMaxTimeSpan maxTimeSpan).pairs
    unfold setMaxTimeSpan at enforced ⊢
    cases held : m.enforced with
    | true =>
      exact (before held).sublist (enforceMaxTimeSpan_sublist _ _)
    | false => simp only [held, Bool.false_eq_true, if_false] at enforced
  | setCapacity capacity =>
    change (m.setCapacity capacity).enforced = true at enforced
    change Ordered (m.setCapacity capacity).pairs
    unfold setCapacity at enforced ⊢
    cases held : m.enforced with
    | true =>
      exact (before held).sublist (enforceCapacity_sublist _ _)
    | false => simp only [held, Bool.false_eq_true, if_false] at enforced

end

/-- In every run whose calls all keep the order, an enforced mapping is in order at all times. -/
theorem mapping_in_order (calls : List MappingCall) (keep : EachStep step KeepsOrder .new calls) :
    Throughout step InOrder .new calls := by
  apply throughout_of_step (fun m call ordered keeps => InOrder.step ordered call keeps) _ keep
  exact fun _ => consistent_of_ordered List.Pairwise.nil

def twoEntries : SeqnoToTimeMapping := (new.step (.append 1 10)).step (.append 2 20)

/-- The clock steps back to between the times of the last two entries. -/
theorem small_step_back_in_order :
    Throughout step InOrder .new [.append 1 10, .append 2 20, .append 3 15] := by
  apply mapping_in_order
  refine ⟨?_, ?_, ?_, trivial⟩
  · intro _ earlier found
    cases found
  · intro _ earlier found
    cases found
  · change KeepsOrder twoEntries (.append 3 15)
    have entries : twoEntries = ⟨UINT64_MAX, UINT64_MAX, [⟨1, 10⟩, ⟨2, 20⟩], true⟩ := by decide +kernel
    rw [entries]
    intro _ earlier found
    obtain rfl := Option.some.inj found
    decide

/-- The clock steps back behind the time of the entry before the last, which is not merged with the new one. -/
theorem large_step_back_out_of_order :
    ¬ Throughout step InOrder .new [.append 1 10, .append 2 20, .append 3 5] := by
  rintro ⟨_, _, _, last⟩
  change InOrder (twoEntries.step (.append 3 5)) at last
  have entries : twoEntries.step (.append 3 5) = ⟨UINT64_MAX, UINT64_MAX, [⟨1, 10⟩, ⟨3, 5⟩], true⟩ := by
    decide +kernel
  rw [entries] at last
  have both := (pairwise_cons.mp (last rfl).ordered).1 ⟨3, 5⟩ (mem_singleton.mpr rfl)
  exact absurd both.2 (by decide)

end SeqnoProof
