import ZonedStorage.Tombstones.Fragmenter

namespace TombstoneProof

open TombstoneModel List FragmentedRangeTombstoneList List.Pairwise

variable {κ : Type} [LinearOrder κ] {purpose : Purpose} {input : List (Tombstone κ)}
  {reached next stop : κ} {keys : List (EndKey κ)} {list : FragmentedRangeTombstoneList κ}

def Covers (t : Tombstone κ) (k : κ) : Prop := t.startKey ≤ k ∧ k < t.endKey

instance (t : Tombstone κ) (k : κ) : Decidable (Covers t k) := inferInstanceAs (Decidable (_ ∧ _))

def CoveredBy (input : List (Tombstone κ)) (k : κ) (seq : Nat) : Prop := ∃ t ∈ input, Covers t k ∧ t.seq = seq

structure Stacked (purpose : Purpose) (input : List (Tombstone κ)) (startKey endKey : κ) (raw seqs : List Nat) :
    Prop where
  kept : seqs = purpose.keep raw
  nonempty : raw ≠ []
  descending : raw.Pairwise (fun a b => b ≤ a)
  exact : ∀ k, startKey ≤ k → k < endKey → ∀ seq, seq ∈ raw ↔ CoveredBy input k seq

structure Swept (purpose : Purpose) (input : List (Tombstone κ)) (reached : κ) (keys : List (EndKey κ))
    (list : FragmentedRangeTombstoneList κ) : Prop where
  within : ∀ pos ∈ list.tombstones, pos.seqEndIdx ≤ list.tombstoneSeqs.length
  proper : ∀ pos ∈ list.tombstones, pos.startKey < pos.endKey
  behind : ∀ pos ∈ list.tombstones, pos.endKey ≤ reached
  apart : list.tombstones.Pairwise (fun a b => a.endKey ≤ b.startKey)
  stacked : ∀ pos ∈ list.tombstones, ∃ raw, Stacked purpose input pos.startKey pos.endKey raw (list.seqsOf pos)
  complete : ∀ k < reached, ∀ seq, CoveredBy input k seq →
    ∃ pos ∈ list.tombstones, pos.startKey ≤ k ∧ k < pos.endKey
  ascending : keys.Pairwise (fun a b => a.userKey ≤ b.userKey)
  ahead : ∀ key ∈ keys, reached ≤ key.userKey
  running : ∀ k, reached ≤ k → ∀ seq, (∃ key ∈ keys, k < key.userKey ∧ key.sequence = seq) ↔ CoveredBy input k seq

theorem mem_emplace {key other : EndKey κ} : other ∈ emplace key keys ↔ other = key ∨ other ∈ keys := by
  induction keys with
  | nil =>
    unfold emplace
    exact mem_cons
  | cons first keys ih =>
    unfold emplace
    split
    · exact mem_cons
    · split
      · rename_i same
        rw [mem_cons, ← same]
        exact ⟨Or.inr, fun found => found.elim Or.inl id⟩
      · rw [mem_cons, mem_cons, ih]
        exact or_left_comm

theorem emplace_ascending (key : EndKey κ) (ascending : keys.Pairwise (fun a b => a.userKey ≤ b.userKey)) :
    (emplace key keys).Pairwise (fun a b => a.userKey ≤ b.userKey) := by
  induction keys with
  | nil => exact pairwise_singleton _ _
  | cons first keys ih =>
    obtain ⟨least, rest⟩ := pairwise_cons.mp ascending
    unfold emplace
    split
    · rename_i earlier
      have below : key.userKey ≤ first.userKey := earlier.elim le_of_lt (fun tied => le_of_eq tied.1)
      apply pairwise_cons.mpr ⟨?_, ascending⟩
      intro other listed
      rcases mem_cons.mp listed with rfl | later
      · exact below
      · exact below.trans (least other later)
    · rename_i notEarlier
      split
      · exact ascending
      · apply pairwise_cons.mpr ⟨?_, ih rest⟩
        intro other listed
        rcases mem_emplace.mp listed with rfl | later
        · exact not_lt.mp (fun less => notEarlier (Or.inl less))
        · exact least other later

omit [LinearOrder κ] in
theorem seqsOf_append (more : List Nat) (tombstones : List (RangeTombstoneStack κ)) {pos : RangeTombstoneStack κ}
    (within : pos.seqEndIdx ≤ list.tombstoneSeqs.length) :
    seqsOf ⟨tombstones, list.tombstoneSeqs ++ more⟩ pos = list.seqsOf pos := by
  unfold seqsOf
  rcases Nat.le_total pos.seqStartIdx pos.seqEndIdx with forward | backward
  · rw [drop_append_of_le_length (by omega), take_append_of_le_length]
    rw [length_drop]
    omega
  · rw [Nat.sub_eq_zero_of_le backward, take_zero, take_zero]

omit [LinearOrder κ] in
theorem seqsOf_last (seqs more : List Nat) (tombstones : List (RangeTombstoneStack κ)) (startKey endKey : κ) :
    seqsOf ⟨tombstones, seqs ++ more⟩
      ⟨startKey, endKey, seqs.length, seqs.length + more.length⟩ = more := by
  unfold seqsOf
  rw [drop_left, Nat.add_sub_cancel_left, take_length]

theorem sorted_descending (seqs : List Nat) :
    (seqs.mergeSort (fun a b => decide (b ≤ a))).Pairwise (fun a b => b ≤ a) := by
  have sorted := @List.pairwise_mergeSort Nat (fun a b => decide (b ≤ a))
    (fun a b c first second => decide_eq_true ((of_decide_eq_true second).trans (of_decide_eq_true first)))
    (fun a b => by simpa using Nat.le_total b a) seqs
  exact sorted.imp of_decide_eq_true

theorem Swept.stack (swept : Swept purpose input reached keys list) (nonempty : keys ≠ [])
    (upto : ∀ key ∈ keys, stop ≤ key.userKey) :
    Stacked purpose input reached stop ((keys.map EndKey.sequence).mergeSort (fun a b => decide (b ≤ a)))
      (purpose.keep ((keys.map EndKey.sequence).mergeSort (fun a b => decide (b ≤ a)))) where
  kept := rfl
  nonempty empty := by
    have length := congrArg length empty
    rw [length_mergeSort, length_map] at length
    exact nonempty (eq_nil_of_length_eq_zero length)
  descending := sorted_descending _
  exact k low high seq := by
    rw [mem_mergeSort, mem_map, ← swept.running k low seq]
    constructor
    · rintro ⟨key, listed, same⟩
      exact ⟨key, listed, high.trans_le (upto key listed), same⟩
    · rintro ⟨key, listed, _, same⟩
      exact ⟨key, listed, same⟩

theorem Swept.emit (swept : Swept purpose input reached keys list) (nonempty : keys ≠ []) (forward : reached < stop)
    (upto : ∀ key ∈ keys, stop ≤ key.userKey) :
    Swept purpose input stop keys (list.emit purpose reached stop keys) := by
  have stack := swept.stack nonempty upto
  unfold FragmentedRangeTombstoneList.emit
  generalize purpose.keep _ = seqs at stack
  constructor
  case within =>
    intro pos listed
    rw [length_append]
    rcases mem_append.mp listed with earlier | last
    · have := swept.within pos earlier
      omega
    · rw [mem_singleton.mp last]
  case proper =>
    intro pos listed
    rcases mem_append.mp listed with earlier | last
    · exact swept.proper pos earlier
    · rw [mem_singleton.mp last]
      exact forward
  case behind =>
    intro pos listed
    rcases mem_append.mp listed with earlier | last
    · exact (swept.behind pos earlier).trans forward.le
    · rw [mem_singleton.mp last]
  case apart =>
    apply pairwise_append.mpr
    refine ⟨swept.apart, pairwise_singleton _ _, ?_⟩
    intro pos earlier last listed
    rw [mem_singleton.mp listed]
    exact swept.behind pos earlier
  case stacked =>
    intro pos listed
    rcases mem_append.mp listed with earlier | last
    · rw [seqsOf_append _ _ (swept.within pos earlier)]
      exact swept.stacked pos earlier
    · rw [mem_singleton.mp last, seqsOf_last]
      exact ⟨_, stack⟩
  case complete =>
    intro k below seq covered
    rcases lt_or_ge k reached with before | after
    · obtain ⟨pos, listed, inside⟩ := swept.complete k before seq covered
      exact ⟨pos, mem_append_left _ listed, inside⟩
    · exact ⟨_, mem_append_right _ (mem_singleton_self _), after, below⟩
  case ascending => exact swept.ascending
  case ahead => exact upto
  case running => exact fun k after => swept.running k (forward.le.trans after)

theorem Swept.pass {key : EndKey κ} (swept : Swept purpose input reached (key :: keys) list)
    (ends : key.userKey = reached) : Swept purpose input reached keys list := by
  constructor
  case within => exact swept.within
  case proper => exact swept.proper
  case behind => exact swept.behind
  case apart => exact swept.apart
  case stacked => exact swept.stacked
  case complete => exact swept.complete
  case ascending => exact swept.ascending.of_cons
  case ahead => exact fun other listed => swept.ahead other (mem_cons_of_mem _ listed)
  case running =>
    intro k after seq
    rw [← swept.running k after seq]
    constructor
    · rintro ⟨other, listed, found⟩
      exact ⟨other, mem_cons_of_mem _ listed, found⟩
    · rintro ⟨other, listed, below, same⟩
      rcases mem_cons.mp listed with rfl | later
      · exact absurd (ends ▸ below) (not_lt.mpr after)
      · exact ⟨other, later, below, same⟩

theorem Swept.gap (swept : Swept purpose input reached [] list) (forward : reached ≤ next) :
    Swept purpose input next [] list := by
  constructor
  case within => exact swept.within
  case proper => exact swept.proper
  case behind => exact fun pos listed => (swept.behind pos listed).trans forward
  case apart => exact swept.apart
  case stacked => exact swept.stacked
  case complete =>
    intro k _ seq covered
    rcases lt_or_ge k reached with before | after
    · exact swept.complete k before seq covered
    · obtain ⟨key, listed, _⟩ := (swept.running k after seq).mpr covered
      cases listed
  case ascending => exact nil
  case ahead => exact fun key listed => absurd listed not_mem_nil
  case running => exact fun k after => swept.running k (forward.trans after)

theorem Swept.flushLoop (swept : Swept purpose input reached keys list) (forward : reached ≤ next)
    (ends : reached = next → ∀ key ∈ keys, key.userKey = reached) :
    Swept purpose input next (TombstoneModel.flushLoop purpose next reached keys list).2
      (TombstoneModel.flushLoop purpose next reached keys list).1 := by
  induction keys generalizing reached list with
  | nil => exact swept.gap forward
  | cons key keys ih =>
    unfold TombstoneModel.flushLoop
    have ahead : reached ≤ key.userKey := swept.ahead key mem_cons_self
    split
    · rename_i same
      apply ih (swept.pass same.symm) forward
      exact fun met other listed => ends met other (mem_cons_of_mem _ listed)
    · rename_i different
      have least : ∀ other ∈ key :: keys, key.userKey ≤ other.userKey := by
        intro other listed
        rcases mem_cons.mp listed with rfl | later
        · exact le_rfl
        · exact rel_of_pairwise_cons swept.ascending later
      split
      · rename_i reaches
        have further : reached < next := by
          apply lt_of_le_of_ne forward
          intro met
          exact different (ends met key mem_cons_self).symm
        exact swept.emit (cons_ne_nil _ _) further (fun other listed => reaches.trans (least other listed))
      · rename_i short
        have short := not_le.mp short
        have emitted := swept.emit (cons_ne_nil _ _) (lt_of_le_of_ne ahead different) least
        exact ih (emitted.pass rfl) short.le (fun met => absurd met short.ne)

theorem Swept.flushCurrentTombstones {s : Sweep κ}
    (swept : Swept purpose input s.curStartKey s.curEndKeys s.list) (forward : s.curStartKey ≤ next)
    (ends : s.curStartKey = next → ∀ key ∈ s.curEndKeys, key.userKey = s.curStartKey) :
    Swept purpose input next (s.flushCurrentTombstones purpose next).curEndKeys
      (s.flushCurrentTombstones purpose next).list := swept.flushLoop forward ends

section

theorem swept_nil (purpose : Purpose) (reached : κ) : Swept purpose [] reached [] ⟨[], []⟩ where
  within _ listed := absurd listed not_mem_nil
  proper _ listed := absurd listed not_mem_nil
  behind _ listed := absurd listed not_mem_nil
  apart := nil
  stacked _ listed := absurd listed not_mem_nil
  complete _ _ _ := fun ⟨_, listed, _⟩ => absurd listed not_mem_nil
  ascending := nil
  ahead _ listed := absurd listed not_mem_nil
  running _ _ _ := ⟨fun ⟨_, listed, _⟩ => absurd listed not_mem_nil,
    fun ⟨_, listed, _⟩ => absurd listed not_mem_nil⟩

variable {t : Tombstone κ}

theorem coveredBy_append {k : κ} {seq : Nat} :
    CoveredBy (input ++ [t]) k seq ↔ CoveredBy input k seq ∨ Covers t k ∧ t.seq = seq := by
  unfold CoveredBy
  constructor
  · rintro ⟨other, listed, found⟩
    rcases mem_append.mp listed with earlier | last
    · exact Or.inl ⟨other, earlier, found⟩
    · exact Or.inr (mem_singleton.mp last ▸ found)
  · rintro (⟨other, listed, found⟩ | found)
    · exact ⟨other, mem_append_left _ listed, found⟩
    · exact ⟨t, mem_append_right _ (mem_singleton_self _), found⟩

theorem coveredBy_below {k : κ} {seq : Nat} (below : k < t.startKey) :
    CoveredBy (input ++ [t]) k seq ↔ CoveredBy input k seq := by
  rw [coveredBy_append]
  exact or_iff_left (fun found => absurd found.1.1 (not_le.mpr below))

theorem Swept.insert (swept : Swept purpose input t.startKey keys list) :
    Swept purpose (input ++ [t]) t.startKey (emplace ⟨t.endKey, t.seq⟩ keys) list := by
  constructor
  case within => exact swept.within
  case proper => exact swept.proper
  case behind => exact swept.behind
  case apart => exact swept.apart
  case stacked =>
    intro pos listed
    obtain ⟨raw, stack⟩ := swept.stacked pos listed
    refine ⟨raw, stack.kept, stack.nonempty, stack.descending, ?_⟩
    intro k low high seq
    rw [coveredBy_below (high.trans_le (swept.behind pos listed))]
    exact stack.exact k low high seq
  case complete =>
    intro k below seq covered
    exact swept.complete k below seq ((coveredBy_below below).mp covered)
  case ascending => exact emplace_ascending _ swept.ascending
  case ahead =>
    intro key listed
    rcases mem_emplace.mp listed with rfl | earlier
    · exact t.ordered
    · exact swept.ahead key earlier
  case running =>
    intro k after seq
    rw [coveredBy_append, ← swept.running k after seq]
    constructor
    · rintro ⟨key, listed, below, same⟩
      rcases mem_emplace.mp listed with rfl | earlier
      · exact Or.inr ⟨⟨after, below⟩, same⟩
      · exact Or.inl ⟨key, earlier, below, same⟩
    · rintro (⟨key, listed, found⟩ | ⟨covers, same⟩)
      · exact ⟨key, mem_emplace.mpr (Or.inr listed), found⟩
      · exact ⟨_, mem_emplace.mpr (Or.inl rfl), covers.2, same⟩

structure Sweeping (purpose : Purpose) (input : List (Tombstone κ)) (s : Sweep κ) : Prop where
  swept : Swept purpose input s.curStartKey s.curEndKeys s.list
  nonempty : s.curEndKeys ≠ []

theorem emplace_ne_nil (key : EndKey κ) (keys : List (EndKey κ)) : emplace key keys ≠ [] :=
  ne_nil_of_mem (mem_emplace.mpr (Or.inl rfl))

theorem Sweeping.add {s : Sweep κ} (sweeping : Sweeping purpose input s)
    (sorted : s.curStartKey ≤ t.startKey) : Sweeping purpose (input ++ [t]) (s.add purpose t) := by
  refine ⟨?_, emplace_ne_nil _ _⟩
  unfold Sweep.add
  by_cases same : s.curStartKey = t.startKey
  · rw [if_neg (fun moved => moved.2 same)]
    apply Swept.insert
    exact same ▸ sweeping.swept
  · rw [if_pos ⟨sweeping.nonempty, same⟩]
    apply Swept.insert
    exact sweeping.swept.flushCurrentTombstones sorted (fun met => absurd met same)

theorem Sweeping.fold {s : Sweep κ} (sweeping : Sweeping purpose input s) {tombstones : List (Tombstone κ)}
    (sorted : tombstones.Pairwise (fun a b => a.startKey ≤ b.startKey))
    (ahead : ∀ t ∈ tombstones, s.curStartKey ≤ t.startKey) :
    Sweeping purpose (input ++ tombstones) (tombstones.foldl (Sweep.add purpose) s) := by
  induction tombstones generalizing input s with
  | nil =>
    rw [append_nil]
    exact sweeping
  | cons t tombstones ih =>
    obtain ⟨least, rest⟩ := pairwise_cons.mp sorted
    have added := ih (sweeping.add (ahead t mem_cons_self)) rest least
    rw [append_assoc] at added
    exact added

end

structure Fragmented (purpose : Purpose) (input : List (Tombstone κ)) (list : FragmentedRangeTombstoneList κ) :
    Prop where
  within : ∀ pos ∈ list.tombstones, pos.seqEndIdx ≤ list.tombstoneSeqs.length
  proper : ∀ pos ∈ list.tombstones, pos.startKey < pos.endKey
  apart : list.tombstones.Pairwise (fun a b => a.endKey ≤ b.startKey)
  stacked : ∀ pos ∈ list.tombstones, ∃ raw, Stacked purpose input pos.startKey pos.endKey raw (list.seqsOf pos)
  complete : ∀ k seq, CoveredBy input k seq → ∃ pos ∈ list.tombstones, pos.startKey ≤ k ∧ k < pos.endKey

theorem Sweeping.finish {s : Sweep κ} (sweeping : Sweeping purpose input s) {last : EndKey κ}
    (isLast : s.curEndKeys.getLast? = some last) :
    Fragmented purpose input (s.flushCurrentTombstones purpose last.userKey).list := by
  have swept := sweeping.swept
  have listed : last ∈ s.curEndKeys := mem_of_getLast? isLast
  have greatest : ∀ key ∈ s.curEndKeys, key.userKey ≤ last.userKey := by
    obtain ⟨before, parts⟩ := getLast?_eq_some_iff.mp isLast
    have ascending := swept.ascending
    rw [parts] at ascending ⊢
    intro key found
    rcases mem_append.mp found with earlier | same
    · exact (pairwise_append.mp ascending).2.2 key earlier last (mem_singleton_self _)
    · rw [mem_singleton.mp same]
  have flushed := swept.flushCurrentTombstones (swept.ahead last listed)
    (fun met key found => le_antisymm (met ▸ greatest key found) (swept.ahead key found))
  refine ⟨flushed.within, flushed.proper, flushed.apart, flushed.stacked, ?_⟩
  intro k seq covered
  have below : k < last.userKey := by
    rcases lt_or_ge k s.curStartKey with before | after
    · exact before.trans_le (swept.ahead last listed)
    · obtain ⟨key, found, less, _⟩ := (swept.running k after seq).mpr covered
      exact less.trans_le (greatest key found)
  exact flushed.complete k below seq covered

theorem fragmented_nil (purpose : Purpose) : Fragmented purpose ([] : List (Tombstone κ)) ⟨[], []⟩ where
  within _ listed := absurd listed not_mem_nil
  proper _ listed := absurd listed not_mem_nil
  apart := nil
  stacked _ listed := absurd listed not_mem_nil
  complete _ _ := fun ⟨_, listed, _⟩ => absurd listed not_mem_nil

theorem fragmentTombstones_fragmented [Inhabited κ] {tombstones : List (Tombstone κ)}
    (sorted : tombstones.Pairwise (fun a b => a.startKey ≤ b.startKey)) :
    Fragmented purpose tombstones (fragmentTombstones purpose tombstones) := by
  cases tombstones with
  | nil => exact fragmented_nil purpose
  | cons t tombstones =>
    obtain ⟨least, rest⟩ := pairwise_cons.mp sorted
    have first : Sweeping purpose [t] (Sweep.add purpose ⟨default, [], ⟨[], []⟩⟩ t) := by
      refine ⟨?_, emplace_ne_nil _ _⟩
      unfold Sweep.add
      rw [if_neg (fun moved => moved.1 rfl)]
      exact (swept_nil purpose t.startKey).insert
    have sweeping := first.fold rest least
    unfold fragmentTombstones
    simp only [foldl_cons]
    split
    · rename_i last isLast
      exact sweeping.finish isLast
    · rename_i none
      exact absurd (getLast?_eq_none_iff.mp none) sweeping.nonempty

theorem keyLe_startKey {a b : Tombstone κ} (ordered : keyLe a b) : a.startKey ≤ b.startKey :=
  ordered.elim le_of_lt (fun tied => le_of_eq tied.1)

theorem pairwise_of_isSorted {tombstones : List (Tombstone κ)} (sorted : isSorted tombstones = true) :
    tombstones.Pairwise (fun a b => a.startKey ≤ b.startKey) := by
  induction tombstones with
  | nil => exact nil
  | cons a tombstones ih =>
    cases tombstones with
    | nil => exact pairwise_singleton _ _
    | cons b rest =>
      unfold isSorted at sorted
      obtain ⟨ordered, later⟩ := Bool.and_eq_true_iff.mp sorted
      have below := keyLe_startKey (of_decide_eq_true ordered)
      have tail := ih later
      apply pairwise_cons.mpr ⟨?_, tail⟩
      intro t listed
      rcases mem_cons.mp listed with rfl | found
      · exact below
      · exact below.trans (rel_of_pairwise_cons tail found)

theorem Fragmented.of_perm {other : List (Tombstone κ)} (fragmented : Fragmented purpose other list)
    (perm : other.Perm input) : Fragmented purpose input list := by
  have same : ∀ k seq, CoveredBy input k seq ↔ CoveredBy other k seq := by
    intro k seq
    unfold CoveredBy
    simp only [perm.mem_iff]
  refine ⟨fragmented.within, fragmented.proper, fragmented.apart, ?_, ?_⟩
  · intro pos listed
    obtain ⟨raw, stack⟩ := fragmented.stacked pos listed
    refine ⟨raw, stack.kept, stack.nonempty, stack.descending, ?_⟩
    intro k low high seq
    rw [same]
    exact stack.exact k low high seq
  · intro k seq covered
    exact fragmented.complete k seq ((same k seq).mp covered)

theorem new_fragmented [Inhabited κ] (sorting : VectorSort κ) (purpose : Purpose) (input : List (Tombstone κ)) :
    Fragmented purpose input (new sorting purpose input) := by
  unfold new
  split
  · rename_i sorted
    exact fragmentTombstones_fragmented (pairwise_of_isSorted sorted)
  · have sorted := (sorting.sorted input).imp keyLe_startKey
    exact (fragmentTombstones_fragmented sorted).of_perm (sorting.perm input)

end TombstoneProof
