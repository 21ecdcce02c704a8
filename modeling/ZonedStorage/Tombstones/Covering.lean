import Mathlib.Data.List.Pairwise
import ZonedStorage.Tombstones.Sweep

namespace TombstoneProof

open TombstoneModel Search List FragmentedRangeTombstoneList

/-- The largest sequence number, at most `upperBound`, of a tombstone that covers `k`; 0 if there is none. -/
def largestCovering {κ : Type} [LinearOrder κ] (input : List (Tombstone κ)) (k : κ) (upperBound : Nat) : Nat :=
  (((input.filter (fun t => decide (Covers t k ∧ t.seq ≤ upperBound))).map Tombstone.seq).max?).getD 0

/-- The upper bounds a list answers for: all of them, or those of the snapshots it was built for. -/
def Purpose.Answers (purpose : Purpose) (upperBound : Nat) : Prop :=
  purpose.forCompaction = false ∨ upperBound ∈ purpose.snapshots ∨ upperBound = kMaxSequenceNumber

section

variable {snapshots : List Nat} {seq upperBound : Nat}

theorem le_previous_snapshot (sorted : snapshots.Pairwise (· ≤ ·)) (listed : upperBound ∈ snapshots)
    (below : upperBound < seq) : ∃ upper,
      partitionPoint (fun snapshot => decide (snapshot < seq)) snapshots = upper + 1 ∧
        upperBound ≤ snapshots.getD upper 0 := by
  have ordered : snapshots.Pairwise (fun a b => decide (b < seq) = true → decide (a < seq) = true) := by
    apply sorted.imp
    intro a b ascending less
    exact decide_eq_true (ascending.trans_lt (of_decide_eq_true less))
  have found := mem_takeWhile ordered listed (decide_eq_true below)
  have last := getLast?_filter_eq ordered
  rw [filter_eq_takeWhile ordered, getLast?_eq_some_getLast (ne_nil_of_mem found)] at last
  cases point : partitionPoint (fun snapshot => decide (snapshot < seq)) snapshots with
  | zero =>
    rw [point] at last
    cases last
  | succ upper =>
    simp only [point] at last
    refine ⟨upper, rfl, ?_⟩
    rw [getD_eq_getElem?_getD, ← last]
    exact (sorted.sublist (takeWhile_sublist _)).rel_getLast found

theorem find?_seen (seqs : List Nat) (seen : seq ≤ upperBound) :
    (seq :: seqs).find? (fun seq => decide (seq ≤ upperBound)) = some seq := by
  rw [find?_cons, decide_eq_true seen]

theorem find?_unseen (seqs : List Nat) (unseen : ¬seq ≤ upperBound) :
    (seq :: seqs).find? (fun seq => decide (seq ≤ upperBound)) = seqs.find? (fun seq => decide (seq ≤ upperBound)) := by
  rw [find?_cons, decide_eq_false unseen]

theorem find?_preserved (sorted : snapshots.Pairwise (· ≤ ·)) {nextSnapshot : Nat} (seqs : List Nat)
    (low : upperBound ≤ nextSnapshot) (asked : upperBound ∈ snapshots ∨ upperBound = nextSnapshot) :
    (preserved snapshots nextSnapshot seqs).find? (fun seq => decide (seq ≤ upperBound)) =
      seqs.find? (fun seq => decide (seq ≤ upperBound)) := by
  induction seqs generalizing nextSnapshot with
  | nil => rfl
  | cons seq seqs ih =>
    unfold preserved
    by_cases reaches : seq ≤ nextSnapshot
    · rw [if_pos reaches]
      by_cases seen : seq ≤ upperBound
      · rw [find?_seen seqs seen]
        split
        · exact find?_seen _ seen
        · exact find?_seen _ seen
      · have listed : upperBound ∈ snapshots := asked.resolve_right (fun same => seen (same ▸ reaches))
        obtain ⟨upper, point, previous⟩ := le_previous_snapshot sorted listed (not_le.mp seen)
        rw [point]
        simp only
        rw [find?_unseen _ seen, find?_unseen _ seen]
        exact ih previous (Or.inl listed)
    · rw [if_neg reaches, find?_unseen seqs (fun seen => reaches (seen.trans low))]
      exact ih low asked

theorem preserved_sublist (snapshots : List Nat) (nextSnapshot : Nat) (seqs : List Nat) :
    (preserved snapshots nextSnapshot seqs).Sublist seqs := by
  induction seqs generalizing nextSnapshot with
  | nil => exact List.Sublist.refl _
  | cons seq seqs ih =>
    unfold preserved
    split
    · split
      · exact (nil_sublist seqs).cons_cons seq
      · exact (ih _).cons_cons seq
    · exact (ih _).cons seq

end

section

variable {purpose : Purpose} {raw : List Nat} {upperBound : Nat}

theorem keep_sublist (purpose : Purpose) (raw : List Nat) : (purpose.keep raw).Sublist raw := by
  unfold Purpose.keep
  split
  · exact preserved_sublist _ _ _
  · exact List.Sublist.refl _

theorem keep_ne_nil (nonempty : raw ≠ []) (bounded : ∀ seq ∈ raw, seq ≤ kMaxSequenceNumber) :
    purpose.keep raw ≠ [] := by
  unfold Purpose.keep
  split
  · cases raw with
    | nil => exact absurd rfl nonempty
    | cons seq seqs =>
      unfold preserved
      rw [if_pos (bounded seq mem_cons_self)]
      split
      · exact cons_ne_nil _ _
      · exact cons_ne_nil _ _
  · exact nonempty

theorem find?_above {seqs : List Nat} (bounded : ∀ seq ∈ seqs, seq ≤ kMaxSequenceNumber)
    (above : kMaxSequenceNumber ≤ upperBound) :
    seqs.find? (fun seq => decide (seq ≤ upperBound)) = seqs.find? (fun seq => decide (seq ≤ kMaxSequenceNumber)) := by
  cases seqs with
  | nil => rfl
  | cons seq seqs =>
    have first : seq ≤ kMaxSequenceNumber := bounded seq mem_cons_self
    rw [find?_seen seqs first, find?_seen seqs (first.trans above)]

theorem find?_keep (sorted : purpose.forCompaction = true → purpose.snapshots.Pairwise (· ≤ ·))
    (bounded : ∀ seq ∈ raw, seq ≤ kMaxSequenceNumber) (asked : Purpose.Answers purpose upperBound) :
    (purpose.keep raw).find? (fun seq => decide (seq ≤ upperBound)) =
      raw.find? (fun seq => decide (seq ≤ upperBound)) := by
  have boundedKept : ∀ seq ∈ purpose.keep raw, seq ≤ kMaxSequenceNumber :=
    fun seq listed => bounded seq ((keep_sublist purpose raw).subset listed)
  by_cases compaction : purpose.forCompaction = true
  · have keeps : purpose.keep raw = preserved purpose.snapshots kMaxSequenceNumber raw := if_pos compaction
    rw [keeps] at boundedKept ⊢
    rcases lt_or_ge upperBound kMaxSequenceNumber with below | above
    · apply find?_preserved (sorted compaction) raw below.le
      rcases asked with reads | listed | largest
      · rw [compaction] at reads
        cases reads
      · exact Or.inl listed
      · exact Or.inr largest
    · rw [find?_above boundedKept above, find?_above bounded above]
      exact find?_preserved (sorted compaction) raw le_rfl (Or.inr rfl)
  · unfold Purpose.keep
    rw [if_neg compaction]

theorem find?_eq_max? (descending : raw.Pairwise (fun a b => b ≤ a)) {candidates : List Nat}
    (same : ∀ seq, seq ∈ candidates ↔ seq ∈ raw ∧ seq ≤ upperBound) :
    raw.find? (fun seq => decide (seq ≤ upperBound)) = candidates.max? := by
  cases found : raw.find? (fun seq => decide (seq ≤ upperBound)) with
  | none =>
    symm
    apply max?_eq_none_iff.mpr
    apply eq_nil_iff_forall_not_mem.mpr
    intro seq listed
    obtain ⟨inRaw, small⟩ := (same seq).mp listed
    exact find?_eq_none.mp found seq inRaw (decide_eq_true small)
  | some largest =>
    obtain ⟨small, before, after, parts, larger⟩ := find?_eq_some_iff_append.mp found
    symm
    apply max?_eq_some_iff.mpr
    constructor
    · exact (same largest).mpr ⟨mem_of_find?_eq_some found, of_decide_eq_true small⟩
    · intro seq listed
      obtain ⟨inRaw, least⟩ := (same seq).mp listed
      rw [parts] at inRaw descending
      rcases mem_append.mp inRaw with earlier | later
      · have tooLarge := larger seq earlier
        rw [decide_eq_true least] at tooLarge
        cases tooLarge
      · rcases mem_cons.mp later with rfl | below
        · exact le_rfl
        · exact rel_of_pairwise_cons (pairwise_append.mp descending).2.1 below

end

section

variable {κ : Type} [LinearOrder κ] {purpose : Purpose} {input : List (Tombstone κ)}
  {list : FragmentedRangeTombstoneList κ} {pos : RangeTombstoneStack κ} {k : κ} {upperBound : Nat} {raw : List Nat}

theorem mem_candidates {seq : Nat} :
    seq ∈ (input.filter (fun t => decide (Covers t k ∧ t.seq ≤ upperBound))).map Tombstone.seq ↔
      CoveredBy input k seq ∧ seq ≤ upperBound := by
  rw [mem_map]
  constructor
  · rintro ⟨t, listed, rfl⟩
    obtain ⟨inInput, found⟩ := mem_filter.mp listed
    have found := of_decide_eq_true found
    exact ⟨⟨t, inInput, found.1, rfl⟩, found.2⟩
  · rintro ⟨⟨t, inInput, covers, rfl⟩, small⟩
    exact ⟨t, mem_filter.mpr ⟨inInput, decide_eq_true ⟨covers, small⟩⟩, rfl⟩

theorem largestCovering_none (uncovered : ∀ seq, ¬CoveredBy input k seq) : largestCovering input k upperBound = 0 := by
  unfold largestCovering
  have empty : (input.filter (fun t => decide (Covers t k ∧ t.seq ≤ upperBound))).map Tombstone.seq = [] := by
    apply eq_nil_iff_forall_not_mem.mpr
    exact fun seq listed => uncovered seq (mem_candidates.mp listed).1
  rw [empty]
  rfl

theorem Stacked.bounded {startKey endKey : κ} {seqs : List Nat}
    (stack : Stacked purpose input startKey endKey raw seqs) (proper : startKey < endKey) :
    ∀ seq ∈ raw, seq ≤ kMaxSequenceNumber := by
  intro seq listed
  obtain ⟨t, _, _, same⟩ := (stack.exact startKey le_rfl proper seq).mp listed
  rw [← same]
  exact t.bounded

theorem Stacked.visible (stack : Stacked purpose input pos.startKey pos.endKey raw (list.seqsOf pos))
    (sorted : purpose.forCompaction = true → purpose.snapshots.Pairwise (· ≤ ·))
    (asked : Purpose.Answers purpose upperBound) (low : pos.startKey ≤ k) (high : k < pos.endKey) :
    ((list.visible upperBound pos).head?).getD 0 = largestCovering input k upperBound := by
  have descending : (list.seqsOf pos).Pairwise (fun a b => b ≤ a) := by
    rw [stack.kept]
    exact stack.descending.sublist (keep_sublist purpose raw)
  have ordered : (list.seqsOf pos).Pairwise
      (fun a b => decide (upperBound < b) = true → decide (upperBound < a) = true) := by
    apply descending.imp
    intro a b below less
    exact decide_eq_true ((of_decide_eq_true less).trans_le below)
  have seen : (fun seq => !decide (upperBound < seq)) = fun seq => decide (seq ≤ upperBound) := by
    funext seq
    rw [← decide_not, decide_eq_decide]
    exact not_lt
  unfold FragmentedRangeTombstoneList.visible
  rw [head?_drop_partitionPoint ordered, seen, stack.kept,
    find?_keep sorted (stack.bounded (low.trans_lt high)) asked]
  unfold largestCovering
  rw [find?_eq_max? stack.descending]
  intro seq
  rw [mem_candidates, stack.exact k low high]

theorem Fragmented.seek (fragmented : Fragmented purpose input list) (k : κ) :
    list.seekToCoveringTombstone k = list.tombstones.find? (fun stack => decide (k < stack.endKey)) := by
  have ordered : list.tombstones.Pairwise
      (fun a b => decide (b.endKey ≤ k) = true → decide (a.endKey ≤ k) = true) := by
    apply fragmented.apart.imp_of_mem
    intro a b _ listed apart ends
    exact decide_eq_true ((apart.trans (fragmented.proper b listed).le).trans (of_decide_eq_true ends))
  unfold seekToCoveringTombstone
  rw [getElem?_partitionPoint ordered]
  congr 1
  funext stack
  rw [← decide_not, decide_eq_decide]
  exact not_le

theorem Fragmented.only (fragmented : Fragmented purpose input list)
    (found : list.seekToCoveringTombstone k = some pos) {other : RangeTombstoneStack κ}
    (listed : other ∈ list.tombstones) (low : other.startKey ≤ k) (high : k < other.endKey) : other = pos := by
  rw [fragmented.seek] at found
  obtain ⟨ends, before, after, parts, passed⟩ := find?_eq_some_iff_append.mp found
  have apart := fragmented.apart
  rw [parts] at listed apart
  rcases mem_append.mp listed with earlier | later
  · have tooLow := passed other earlier
    rw [decide_eq_true high] at tooLow
    cases tooLow
  · rcases mem_cons.mp later with same | following
    · exact same
    · have beyond := rel_of_pairwise_cons (pairwise_append.mp apart).2.1 following
      exact absurd ((of_decide_eq_true ends).trans_le (beyond.trans low)) (lt_irrefl k)

theorem maxCovering_found (found : list.seekToCoveringTombstone k = some pos) :
    list.maxCoveringTombstoneSeqnum upperBound k =
      if pos.startKey ≤ k then ((list.visible upperBound pos).head?).getD 0 else 0 := by
  unfold maxCoveringTombstoneSeqnum
  simp only [found]
  cases list.visible upperBound pos with
  | nil => exact (ite_self 0).symm
  | cons seq seqs => rfl

theorem Fragmented.maxCovering (fragmented : Fragmented purpose input list)
    (sorted : purpose.forCompaction = true → purpose.snapshots.Pairwise (· ≤ ·))
    (asked : Purpose.Answers purpose upperBound) :
    list.maxCoveringTombstoneSeqnum upperBound k = largestCovering input k upperBound := by
  cases found : list.seekToCoveringTombstone k with
  | none =>
    unfold maxCoveringTombstoneSeqnum
    rw [found]
    symm
    apply largestCovering_none
    intro seq covered
    obtain ⟨pos, listed, _, high⟩ := fragmented.complete k seq covered
    rw [fragmented.seek] at found
    exact find?_eq_none.mp found pos listed (decide_eq_true high)
  | some pos =>
    have listed : pos ∈ list.tombstones := mem_of_getElem? found
    have high : k < pos.endKey := by
      rw [fragmented.seek] at found
      have ends := find?_some found
      exact of_decide_eq_true ends
    rw [maxCovering_found found]
    by_cases low : pos.startKey ≤ k
    · obtain ⟨raw, stack⟩ := fragmented.stacked pos listed
      rw [if_pos low, stack.visible sorted asked low high]
    · have uncovered : ∀ seq, ¬CoveredBy input k seq := by
        intro seq covered
        obtain ⟨other, inList, starts, ends⟩ := fragmented.complete k seq covered
        exact low (fragmented.only found inList starts ends ▸ starts)
      rw [if_neg low, largestCovering_none uncovered]

end

section

variable {κ : Type} [LinearOrder κ]

theorem keyLe_trans (a b c : Tombstone κ) (first : keyLe a b) (second : keyLe b c) : keyLe a c := by
  rcases first with less | ⟨same, newer⟩
  · rcases second with less' | ⟨same', _⟩
    · exact Or.inl (less.trans less')
    · exact Or.inl (same' ▸ less)
  · rcases second with less' | ⟨same', newer'⟩
    · exact Or.inl (same ▸ less')
    · exact Or.inr ⟨same.trans same', newer'.trans newer⟩

theorem keyLe_total (a b : Tombstone κ) : keyLe a b ∨ keyLe b a := by
  rcases lt_trichotomy a.startKey b.startKey with less | same | greater
  · exact Or.inl (Or.inl less)
  · rcases Nat.le_total b.seq a.seq with newer | older
    · exact Or.inl (Or.inr ⟨same, newer⟩)
    · exact Or.inr (Or.inr ⟨same.symm, older⟩)
  · exact Or.inr (Or.inl greater)

/-- A merge sort is one way to sort the vector. -/
def VectorSort.merge (κ : Type) [LinearOrder κ] : VectorSort κ where
  sort tombstones := tombstones.mergeSort (fun a b => decide (keyLe a b))
  perm tombstones := mergeSort_perm tombstones _
  sorted tombstones := by
    have sorted := @List.pairwise_mergeSort (Tombstone κ) (fun a b => decide (keyLe a b))
      (fun a b c first second => decide_eq_true (keyLe_trans a b c (of_decide_eq_true first) (of_decide_eq_true second)))
      (fun a b => by simpa using keyLe_total a b) tombstones
    exact sorted.imp of_decide_eq_true

theorem fragmentation_is_faithful [Inhabited κ] (sorting : VectorSort κ) (purpose : Purpose)
    (sorted : purpose.forCompaction = true → purpose.snapshots.Pairwise (· ≤ ·)) (input : List (Tombstone κ)) :
    let list := new sorting purpose input
    (∀ pos ∈ list.tombstones, pos.startKey < pos.endKey ∧ list.seqsOf pos ≠ []) ∧
      list.tombstones.Pairwise (fun a b => a.endKey ≤ b.startKey) ∧
      ∀ k upperBound, Purpose.Answers purpose upperBound →
        list.maxCoveringTombstoneSeqnum upperBound k = largestCovering input k upperBound := by
  intro list
  have fragmented : Fragmented purpose input list := new_fragmented sorting purpose input
  refine ⟨?_, fragmented.apart, fun k upperBound asked => fragmented.maxCovering sorted asked⟩
  intro pos listed
  have proper := fragmented.proper pos listed
  obtain ⟨raw, stack⟩ := fragmented.stacked pos listed
  refine ⟨proper, ?_⟩
  rw [stack.kept]
  exact keep_ne_nil stack.nonempty (stack.bounded proper)

def overlapping : List (Tombstone Nat) :=
  [⟨4, 6, 9, by decide, by decide⟩, ⟨1, 8, 5, by decide, by decide⟩, ⟨3, 3, 7, by decide, by decide⟩]

theorem nested_tombstone_hidden_from_snapshot :
    (new (VectorSort.merge Nat) ⟨true, [6]⟩ overlapping).maxCoveringTombstoneSeqnum 6 4 = 5 ∧
      (new (VectorSort.merge Nat) ⟨true, [6]⟩ overlapping).maxCoveringTombstoneSeqnum
        kMaxSequenceNumber 4 = 9 := by
  have faithful := fragmentation_is_faithful (VectorSort.merge Nat) ⟨true, [6]⟩
    (fun _ => pairwise_singleton _ _) overlapping
  constructor
  · exact (faithful.2.2 4 6 (Or.inr (Or.inl (mem_singleton_self _)))).trans (by decide)
  · exact (faithful.2.2 4 kMaxSequenceNumber (Or.inr (Or.inr rfl))).trans (by decide)

end

end TombstoneProof
