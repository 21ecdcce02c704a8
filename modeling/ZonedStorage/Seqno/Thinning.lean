import ZonedStorage.Seqno.InOrder

namespace SeqnoProof

open SeqnoModel SeqnoModel.SeqnoToTimeMapping List UInt64

/-- One pair between two others has been taken out, one for which these are closest in time, and among such pairs
    the oldest. -/
def RemovesBest (pairs pairs' : List SeqnoTimePair) : Prop :=
  ∃ init before pair after rest, pairs = init ++ before :: pair :: after :: rest ∧
    pairs' = init ++ before :: after :: rest ∧
    ∀ init' before' pair' after' rest', pairs = init' ++ before' :: pair' :: after' :: rest' →
      after.time - before.time < after'.time - before'.time ∨
        after.time - before.time = after'.time - before'.time ∧ pair.seqno ≤ pair'.seqno

inductive Thins : Nat → List SeqnoTimePair → List SeqnoTimePair → Prop where
  | done (pairs) : Thins 0 pairs pairs
  | next {count : Nat} {pairs pairs' pairs'' : List SeqnoTimePair} (removes : RemovesBest pairs pairs')
      (rest : Thins count pairs' pairs'') : Thins (count + 1) pairs pairs''

/-- The result is of this length, and has pairs of the original in their order with both ends. -/
structure KeepsEnds (count : Nat) (pairs pairs' : List SeqnoTimePair) : Prop where
  length : pairs'.length + count = pairs.length
  sublist : pairs'.Sublist pairs
  first : pairs'.head? = pairs.head?
  last : pairs'.getLast? = pairs.getLast?

theorem RemovesBest.keepsEnds {pairs pairs' : List SeqnoTimePair} (removes : RemovesBest pairs pairs') :
    KeepsEnds 1 pairs pairs' := by
  obtain ⟨init, before, pair, after, rest, rfl, rfl, _⟩ := removes
  refine ⟨by simp; omega, ?_, by cases init <;> rfl, by simp [getLast?_append, getLast?_cons]⟩
  exact ((sublist_cons_self pair _).cons_cons before).append_left init

theorem Thins.keepsEnds {count : Nat} {pairs pairs' : List SeqnoTimePair} (thins : Thins count pairs pairs') :
    KeepsEnds count pairs pairs' := by
  induction thins with
  | done pairs => exact ⟨rfl, List.Sublist.refl _, rfl, rfl⟩
  | next removes rest ih =>
    have step := removes.keepsEnds
    have length := step.length
    have later := ih.length
    exact ⟨by omega, ih.sublist.trans step.sublist, ih.first.trans step.first, ih.last.trans step.last⟩

section

variable {pairs : List SeqnoTimePair} {position other : Nat}

def keptBefore (pairs : List SeqnoTimePair) (position : Nat) : List SeqnoTimePair := kept (pairs.take position)

def keptAfter (pairs : List SeqnoTimePair) (position : Nat) : List SeqnoTimePair := kept (pairs.drop (position + 1))

def gapOf (before after : List SeqnoTimePair) : UInt64 :=
  (after.head?.map SeqnoTimePair.time).getD 0 - (before.getLast?.map SeqnoTimePair.time).getD 0

theorem actualGap_eq (pairs : List SeqnoTimePair) (position : Nat) :
    actualGap pairs position = gapOf (keptBefore pairs position) (keptAfter pairs position) := by
  have unmarked : (fun p : SeqnoTimePair => !decide (p.time = kUnknownTimeBeforeAll)) =
      fun p => decide (p.time ≠ kUnknownTimeBeforeAll) := by
    funext p
    exact (decide_not ..).symm
  rw [actualGap, gapOf, getLast?_eq_head?_reverse, keptBefore, keptAfter, kept, kept, ← filter_reverse,
    head?_filter, head?_filter, unmarked]

theorem gapOf_mono {before before' after after' : List SeqnoTimePair}
    (times : (before ++ after).Pairwise (fun a b => a.time < b.time)) (back : before'.Sublist before)
    (on : after'.Sublist after) (some_before : before' ≠ []) (some_after : after' ≠ []) :
    gapOf before after ≤ gapOf before' after' := by
  obtain ⟨init', b', rfl⟩ := (eq_nil_or_concat' before').resolve_left some_before
  obtain ⟨a', rest', rfl⟩ := exists_cons_of_ne_nil some_after
  have listed : b' ∈ before := back.subset (mem_append_right _ mem_cons_self)
  have listed' : a' ∈ after := on.subset mem_cons_self
  obtain ⟨init, b, rfl⟩ := (eq_nil_or_concat' before).resolve_left (ne_nil_of_mem listed)
  obtain ⟨a, rest, rfl⟩ := exists_cons_of_ne_nil (ne_nil_of_mem listed')
  obtain ⟨first, second, across⟩ := pairwise_append.mp times
  have between : b.time < a.time := across b (mem_append_right _ mem_cons_self) a mem_cons_self
  have earlier : b'.time ≤ b.time := by
    rcases mem_append.mp listed with before | same
    · exact UInt64.le_of_lt ((pairwise_append.mp first).2.2 b' before b mem_cons_self)
    · rw [mem_singleton.mp same]
      exact UInt64.le_refl _
  have later : a.time ≤ a'.time := by
    rcases mem_cons.mp listed' with same | after
    · rw [same]
      exact UInt64.le_refl _
    · exact UInt64.le_of_lt ((pairwise_cons.mp second).1 a' after)
  simp only [gapOf, getLast?_concat, head?_cons, Option.map_some, Option.getD_some]
  rw [lt_iff_toNat_lt] at between
  rw [le_iff_toNat_le] at earlier later ⊢
  rw [UInt64.toNat_sub_of_le _ _ (le_iff_toNat_le.mpr (by omega)),
    UInt64.toNat_sub_of_le _ _ (le_iff_toNat_le.mpr (by omega))]
  omega

structure Removable (pairs : List SeqnoTimePair) (position : Nat) : Prop where
  unmarked : ∃ pair, pairs[position]? = some pair ∧ pair.time ≠ 0
  before : keptBefore pairs position ≠ []
  after : keptAfter pairs position ≠ []

theorem kept_append (left right : List SeqnoTimePair) : kept (left ++ right) = kept left ++ kept right :=
  filter_append ..

theorem kept_cons_unmarked {pair : SeqnoTimePair} (unmarked : pair.time ≠ 0) (rest : List SeqnoTimePair) :
    kept (pair :: rest) = pair :: kept rest := by
  simp [kept, kUnknownTimeBeforeAll, unmarked]

theorem Removable.shape (removable : Removable pairs position) :
    ∃ init before pair after rest, pairs[position]? = some pair ∧
      kept pairs = init ++ before :: pair :: after :: rest ∧
      kept (mark pairs position) = init ++ before :: after :: rest ∧
      actualGap pairs position = after.time - before.time := by
  obtain ⟨pair, here, unmarked⟩ := removable.unmarked
  obtain ⟨init, before, left⟩ := (eq_nil_or_concat' _).resolve_left removable.before
  obtain ⟨after, rest, right⟩ := exists_cons_of_ne_nil removable.after
  obtain ⟨within, rfl⟩ := List.getElem?_eq_some_iff.mp here
  refine ⟨init, before, pairs[position], after, rest, here, ?_, ?_, ?_⟩
  · have split := congrArg kept (take_append_drop position pairs)
    rw [← getElem_cons_drop within, kept_append, kept_cons_unmarked unmarked,
      show kept (pairs.take position) = _ from left, show kept (pairs.drop (position + 1)) = _ from right,
      append_assoc] at split
    exact split.symm
  · rw [mark, modify_eq_take_cons_drop within, kept_append, show kept (pairs.take position) = _ from left,
      append_assoc]
    exact congrArg _ (congrArg _ right)
  · rw [actualGap_eq, left, right]
    simp [gapOf]

theorem removable_of_kept {init rest : List SeqnoTimePair} {before pair after : SeqnoTimePair}
    (shape : kept pairs = init ++ before :: pair :: after :: rest) :
    ∃ position, Removable pairs position ∧ pairs[position]? = some pair ∧
      actualGap pairs position = after.time - before.time := by
  rw [show init ++ before :: pair :: after :: rest = (init ++ [before]) ++ pair :: after :: rest by simp] at shape
  obtain ⟨first, second, rfl, front, back⟩ := filter_eq_append_iff.mp shape
  obtain ⟨skipped, right, rfl, marked, unmarked, tail⟩ := filter_eq_cons_iff.mp back
  have none : kept skipped = [] := filter_eq_nil_iff.mpr marked
  have here : (first ++ (skipped ++ pair :: right))[first.length + skipped.length]? = some pair := by simp
  have left : keptBefore (first ++ (skipped ++ pair :: right)) (first.length + skipped.length) = init ++ [before] := by
    rw [keptBefore, ← append_assoc, ← length_append, take_left, kept_append, none, append_nil]
    exact front
  have right : keptAfter (first ++ (skipped ++ pair :: right)) (first.length + skipped.length) = after :: rest := by
    rw [keptAfter, ← append_assoc, ← length_append, ← drop_drop, drop_left]
    exact tail
  refine ⟨first.length + skipped.length, ⟨⟨pair, here, of_decide_eq_true unmarked⟩, ?_, ?_⟩, here, ?_⟩
  · rw [left]
    simp
  · rw [right]
    exact cons_ne_nil _ _
  · rw [actualGap_eq, left, right]
    simp [gapOf]

theorem keptBefore_mark_sublist : (keptBefore (mark pairs position) other).Sublist (keptBefore pairs other) := by
  rw [keptBefore, mark, take_modify]
  exact kept_mark_sublist _ _

theorem keptAfter_mark_sublist : (keptAfter (mark pairs position) other).Sublist (keptAfter pairs other) := by
  rw [keptAfter, mark]
  by_cases below : position < other + 1
  · rw [drop_modify_of_lt _ _ _ _ below]
    exact List.Sublist.refl _
  · rw [drop_modify_of_ge _ _ _ _ (Nat.le_of_not_lt below)]
    exact kept_mark_sublist _ _

theorem keptBefore_mark (le : other ≤ position) : keptBefore (mark pairs position) other = keptBefore pairs other := by
  rw [keptBefore, mark, take_modify, modify_eq_self]
  · rfl
  · exact (length_take_le _ _).trans le

theorem keptAfter_mark (le : position ≤ other) : keptAfter (mark pairs position) other = keptAfter pairs other := by
  rw [keptAfter, mark, drop_modify_of_lt _ _ _ _ (Nat.lt_succ_of_le le)]
  rfl

theorem ne_nil_of_sublist {xs ys : List SeqnoTimePair} (sublist : xs.Sublist ys) (some_left : xs ≠ []) : ys ≠ [] := by
  rintro rfl
  exact some_left (sublist_nil.mp sublist)

theorem Removable.mark_iff (removable : Removable pairs position) :
    Removable (mark pairs position) other ↔ Removable pairs other ∧ other ≠ position := by
  constructor
  · rintro ⟨⟨pair, here, unmarked⟩, before, after⟩
    rw [mark, List.getElem?_modify] at here
    obtain ⟨original, there, rfl⟩ := Option.map_eq_some_iff.mp here
    have elsewhere : position ≠ other := by
      rintro rfl
      simp [kUnknownTimeBeforeAll] at unmarked
    rw [if_neg elsewhere] at unmarked
    exact ⟨⟨⟨original, there, unmarked⟩, ne_nil_of_sublist keptBefore_mark_sublist before,
      ne_nil_of_sublist keptAfter_mark_sublist after⟩, elsewhere.symm⟩
  · rintro ⟨⟨⟨pair, here, unmarked⟩, before, after⟩, elsewhere⟩
    refine ⟨⟨pair, ?_, unmarked⟩, ?_, ?_⟩
    · rw [mark, List.getElem?_modify_ne _ _ elsewhere.symm]
      exact here
    · rcases Nat.lt_or_gt_of_ne elsewhere with below | above
      · rwa [keptBefore_mark (Nat.le_of_lt below)]
      · refine ne_nil_of_sublist ?_ removable.before
        rw [← keptBefore_mark (Nat.le_refl position)]
        exact (take_sublist_take_left (Nat.le_of_lt above)).filter _
    · rcases Nat.lt_or_gt_of_ne elsewhere with below | above
      · refine ne_nil_of_sublist ?_ removable.after
        rw [← keptAfter_mark (Nat.le_refl position)]
        exact (drop_sublist_drop_left _ (Nat.succ_le_succ (Nat.le_of_lt below))).filter _
      · rwa [keptAfter_mark (Nat.le_of_lt above)]

theorem actualGap_mark (times : (kept pairs).Pairwise (fun a b => a.time < b.time))
    (still : Removable (mark pairs position) other) :
    actualGap pairs other ≤ actualGap (mark pairs position) other := by
  rw [actualGap_eq, actualGap_eq]
  refine gapOf_mono (times.sublist ?_) keptBefore_mark_sublist keptAfter_mark_sublist still.before still.after
  rw [keptBefore, keptAfter, ← kept_append]
  refine List.Sublist.filter _ ?_
  conv_rhs => rw [← take_append_drop other pairs]
  exact (drop_sublist_drop_left _ (Nat.le_succ other)).append_left _

end

section

variable {pairs : List SeqnoTimePair} {pq : List RemovalCandidate} {rc : RemovalCandidate}

theorem precedes_false_iff {a b : RemovalCandidate} : precedes pairs a b = false ↔
    b.newTimeGap < a.newTimeGap ∨
      b.newTimeGap = a.newTimeGap ∧ seqnoAt pairs b.position ≤ seqnoAt pairs a.position := by
  unfold precedes
  split
  · rename_i same
    simp [same]
  · rename_i differ
    simp only [decide_eq_false_iff_not, lt_iff_toNat_lt, ← UInt64.toNat_inj] at differ ⊢
    omega

theorem precedes_false_trans {a b c : RemovalCandidate} (first : precedes pairs a b = false)
    (second : precedes pairs b c = false) : precedes pairs a c = false := by
  simp only [precedes_false_iff, lt_iff_toNat_lt, le_iff_toNat_le, ← UInt64.toNat_inj] at first second ⊢
  omega

theorem precedes_choice (pairs : List SeqnoTimePair) (start next : RemovalCandidate) :
    precedes pairs start (if precedes pairs next start then next else start) = false ∧
      precedes pairs next (if precedes pairs next start then next else start) = false := by
  have irrefl : ∀ rc, precedes pairs rc rc = false := by
    intro rc
    simp [precedes]
  by_cases earlier : precedes pairs next start = true
  · rw [if_pos earlier]
    refine ⟨Bool.eq_false_iff.mpr (fun both => ?_), irrefl next⟩
    simp only [precedes, lt_iff_toNat_lt, ← UInt64.toNat_inj] at earlier both
    split at earlier <;> split at both <;> simp only [decide_eq_true_eq] at earlier both <;> omega
  · rw [if_neg earlier]
    exact ⟨irrefl start, Bool.eq_false_iff.mpr earlier⟩

theorem best_least (top : best pairs pq = some rc) : ∀ other ∈ pq, precedes pairs other rc = false := by
  have fold : ∀ (rest : List RemovalCandidate) (start : RemovalCandidate), ∀ other ∈ start :: rest,
      precedes pairs other (rest.foldl (fun top rc => if precedes pairs rc top then rc else top) start) = false := by
    intro rest
    induction rest with
    | nil =>
      intro start other listed
      rw [mem_singleton.mp listed]
      simp [precedes]
    | cons next rest ih =>
      intro start other listed
      rw [foldl_cons]
      have chosen := ih (if precedes pairs next start then next else start) _ mem_cons_self
      have choice := precedes_choice pairs start next
      rcases mem_cons.mp listed with rfl | listed
      · exact precedes_false_trans choice.1 chosen
      · rcases mem_cons.mp listed with rfl | listed
        · exact precedes_false_trans choice.2 chosen
        · exact ih _ other (mem_cons_of_mem _ listed)
  cases pq with
  | nil => cases top
  | cons first rest =>
    rw [← Option.some.inj top]
    exact fold rest first

structure Queues (pairs : List SeqnoTimePair) (pq : List RemovalCandidate) : Prop where
  times : (kept pairs).Pairwise (fun a b => a.time < b.time)
  distinct : (pq.map RemovalCandidate.position).Nodup
  positions : ∀ position, position ∈ pq.map RemovalCandidate.position ↔ Removable pairs position
  gaps : ∀ rc ∈ pq, rc.newTimeGap ≤ actualGap pairs rc.position

theorem Queues.removable (queues : Queues pairs pq) (listed : rc ∈ pq) : Removable pairs rc.position :=
  (queues.positions _).mp (mem_map_of_mem listed)

theorem positions_perm (listed : rc ∈ pq) : (pq.map RemovalCandidate.position).Perm
    (rc.position :: (pq.erase rc).map RemovalCandidate.position) :=
  (perm_cons_erase listed).map _

theorem Queues.refresh (queues : Queues pairs pq) (listed : rc ∈ pq) :
    Queues pairs (⟨actualGap pairs rc.position, rc.position⟩ :: pq.erase rc) := by
  have perm := positions_perm listed
  refine ⟨queues.times, perm.nodup_iff.mp queues.distinct, fun position => ?_, ?_⟩
  · rw [← queues.positions position]
    exact perm.mem_iff.symm
  · intro other listed'
    rcases mem_cons.mp listed' with rfl | listed'
    · exact UInt64.le_refl _
    · exact queues.gaps other (mem_of_mem_erase listed')

theorem Queues.mark (queues : Queues pairs pq) (listed : rc ∈ pq) : Queues (mark pairs rc.position) (pq.erase rc) := by
  have perm := positions_perm listed
  have removable := queues.removable listed
  have positions : ∀ position, position ∈ (pq.erase rc).map RemovalCandidate.position ↔
      Removable (SeqnoToTimeMapping.mark pairs rc.position) position := by
    intro position
    obtain ⟨fresh, _⟩ := nodup_cons.mp (perm.nodup_iff.mp queues.distinct)
    rw [removable.mark_iff, ← queues.positions position, perm.mem_iff, mem_cons]
    constructor
    · intro inside
      exact ⟨.inr inside, fun same => fresh (same ▸ inside)⟩
    · rintro ⟨same | inside, elsewhere⟩
      · exact absurd same elsewhere
      · exact inside
  refine ⟨queues.times.sublist (kept_mark_sublist _ _), ?_, positions, ?_⟩
  · exact (nodup_cons.mp (perm.nodup_iff.mp queues.distinct)).2
  · intro other listed'
    have before := mem_of_mem_erase listed'
    have still := (positions _).mp (mem_map_of_mem listed')
    exact UInt64.le_trans (queues.gaps other before) (actualGap_mark queues.times still)

theorem Queues.removesBest (queues : Queues pairs pq) (top : best pairs pq = some rc)
    (exact_gap : rc.newTimeGap = actualGap pairs rc.position) :
    RemovesBest (kept pairs) (kept (SeqnoToTimeMapping.mark pairs rc.position)) := by
  obtain ⟨init, before, pair, after, rest, here, shape, marked, gap⟩ := (queues.removable (best_mem top)).shape
  refine ⟨init, before, pair, after, rest, shape, marked, ?_⟩
  intro init' before' pair' after' rest' shape'
  obtain ⟨position, removable, there, gap'⟩ := removable_of_kept shape'
  obtain ⟨other, listed, rfl⟩ := mem_map.mp ((queues.positions position).mpr removable)
  have bound := queues.gaps other listed
  have least := precedes_false_iff.mp (best_least top other listed)
  rw [seqnoAt, seqnoAt, here, there, exact_gap, gap] at least
  rw [gap'] at bound
  simp only [Option.map_some, Option.getD_some, lt_iff_toNat_lt, le_iff_toNat_le,
    ← UInt64.toNat_inj] at least bound ⊢
  omega

theorem Queues.thins {toRemoveCount : Nat} (queues : Queues pairs pq) (enough : toRemoveCount ≤ pq.length) :
    Thins toRemoveCount (kept pairs) (kept (removeBest pairs pq toRemoveCount)) := by
  fun_induction removeBest pairs pq toRemoveCount with
  | case1 pairs pq => exact .done _
  | case2 pairs pq toRemoveCount top =>
    cases pq with
    | nil => cases enough
    | cons first rest => cases top
  | case3 pairs pq toRemoveCount rc top gap ih =>
    have listed := best_mem top
    refine .next (queues.removesBest top gap) (ih (queues.mark listed) ?_)
    rw [length_erase_of_mem listed]
    omega
  | case4 pairs pq toRemoveCount rc top gap ih =>
    have listed := best_mem top
    refine ih (queues.refresh listed) ?_
    rw [length_cons, length_erase_of_mem listed]
    omega

end

section

variable {pairs : List SeqnoTimePair}

def timeAt (pairs : List SeqnoTimePair) (position : Nat) : UInt64 := (pairs[position]?.map SeqnoTimePair.time).getD 0

theorem removalCandidates_eq (base : Nat) (pairs : List SeqnoTimePair) :
    removalCandidates base pairs = (range (pairs.length - 2)).map
      (fun i => ⟨timeAt pairs (i + 2) - timeAt pairs i, base + i + 1⟩) := by
  fun_induction removalCandidates base pairs with
  | case1 base before it after rest ih =>
    rw [show (before :: it :: after :: rest).length - 2 = (it :: after :: rest).length - 2 + 1 by simp,
      range_succ_eq_map, map_cons, map_map, ih]
    refine congrArg₂ _ rfl (map_congr_left ?_)
    intro i listed
    simp [timeAt, Nat.add_comm, Nat.add_left_comm]
  | case2 pairs base short =>
    match pairs with
    | [] => rfl
    | [_] => rfl
    | [_, _] => rfl
    | before :: it :: after :: rest => exact absurd rfl (short before it after rest)

theorem kept_eq_self (positive : ∀ pair ∈ pairs, 0 < pair.time) : kept pairs = pairs := by
  refine filter_eq_self.mpr (fun pair listed => decide_eq_true ?_)
  exact UInt64.pos_iff_ne_zero.mp (positive pair listed)

theorem queues_removalCandidates (times : pairs.Pairwise (fun a b => a.time < b.time))
    (positive : ∀ pair ∈ pairs, 0 < pair.time) : Queues pairs (removalCandidates 0 pairs) := by
  have before : ∀ position, keptBefore pairs position = pairs.take position := by
    intro position
    exact kept_eq_self (fun pair listed => positive pair (mem_of_mem_take listed))
  have after : ∀ position, keptAfter pairs position = pairs.drop (position + 1) := by
    intro position
    exact kept_eq_self (fun pair listed => positive pair (mem_of_mem_drop listed))
  have positions : (removalCandidates 0 pairs).map RemovalCandidate.position =
      (range (pairs.length - 2)).map (fun i => i + 1) := by
    rw [removalCandidates_eq, map_map]
    refine map_congr_left (fun i _ => ?_)
    exact congrArg (· + 1) (Nat.zero_add i)
  refine ⟨by rwa [kept_eq_self positive], ?_, ?_, ?_⟩
  · rw [positions]
    exact nodup_range.map (fun _ _ same => Nat.succ.inj same)
  · intro position
    rw [positions, mem_map]
    constructor
    · rintro ⟨i, inside, rfl⟩
      have inside := mem_range.mp inside
      have within : i + 1 < pairs.length := by omega
      refine ⟨⟨pairs[i + 1], List.getElem?_eq_getElem within,
        UInt64.pos_iff_ne_zero.mp (positive _ (getElem_mem within))⟩, ?_, ?_⟩
      · rw [before]
        refine ne_nil_of_length_pos ?_
        rw [length_take]
        omega
      · rw [after]
        refine ne_nil_of_length_pos ?_
        rw [length_drop]
        omega
    · intro removable
      have left := length_pos_of_ne_nil removable.before
      have right := length_pos_of_ne_nil removable.after
      rw [before, length_take] at left
      rw [after, length_drop] at right
      exact ⟨position - 1, mem_range.mpr (by omega), by omega⟩
  · intro rc listed
    rw [removalCandidates_eq] at listed
    obtain ⟨i, inside, rfl⟩ := mem_map.mp listed
    have inside := mem_range.mp inside
    have within : i < pairs.length := by omega
    rw [actualGap_eq, before, after, gapOf, Nat.zero_add, head?_drop, getLast?_take,
      if_neg (Nat.succ_ne_zero i), Nat.add_sub_cancel, List.getElem?_eq_getElem within, Option.some_or,
      ← List.getElem?_eq_getElem within]
    exact UInt64.le_refl _

/-- As many pairs as the capacity are left, in order and with both ends, by removals each of which takes the oldest of
    the pairs whose neighbours are closest. -/
theorem thins_to_capacity (m : SeqnoToTimeMapping) (times : m.pairs.Pairwise (fun a b => a.time < b.time))
    (positive : ∀ pair ∈ m.pairs, 0 < pair.time) (two : 2 ≤ m.capacity.toNat)
    (exceeds : m.capacity.toNat < m.pairs.length) :
    (m.enforceCapacity true).pairs.length = m.capacity.toNat ∧
      KeepsEnds (m.pairs.length - m.capacity.toNat) m.pairs (m.enforceCapacity true).pairs ∧
      Thins (m.pairs.length - m.capacity.toNat) m.pairs (m.enforceCapacity true).pairs := by
  have some_capacity : m.capacity ≠ 0 := by
    intro zero
    rw [zero] at two
    contradiction
  have strict : m.strictCap = m.capacity := by
    refine if_neg (fun one => ?_)
    rw [one] at two
    contradiction
  have effective : m.effectiveCap true = m.capacity := by
    simp [effectiveCap, strict]
  have result : (m.enforceCapacity true).pairs =
      kept (removeBest m.pairs (removalCandidates 0 m.pairs) (m.pairs.length - m.capacity.toNat)) := by
    rw [enforceCapacity, if_neg some_capacity, effective, if_neg (Nat.not_le_of_lt exceeds), strict]
    rfl
  have enough : m.pairs.length - m.capacity.toNat ≤ (removalCandidates 0 m.pairs).length := by
    rw [removalCandidates_eq, length_map, length_range]
    omega
  have thins := (queues_removalCandidates times positive).thins enough
  rw [← result, kept_eq_self positive] at thins
  have ends := thins.keepsEnds
  have length := ends.length
  exact ⟨by omega, ends, thins⟩

def crowded : SeqnoToTimeMapping := ⟨0, 3, [⟨1, 10⟩, ⟨2, 20⟩, ⟨3, 25⟩, ⟨4, 90⟩, ⟨5, 100⟩], true⟩

theorem crowded_thins : (crowded.enforceCapacity true).pairs.length = 3 ∧
    KeepsEnds 2 crowded.pairs (crowded.enforceCapacity true).pairs ∧
      Thins 2 crowded.pairs (crowded.enforceCapacity true).pairs :=
  thins_to_capacity crowded (by decide) (by decide) (by decide) (by decide)

end

end SeqnoProof
