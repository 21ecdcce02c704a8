import Mathlib.Data.List.MinMax
import ZonedStorage.Compaction.Fates

namespace CompactionProof

open CompactionModel CompactionIterator List Parameters

variable {κ β : Type}

theorem prepareOutput_key (p : Parameters κ) (e : Entry κ β) : (p.prepareOutput e).userKey = e.userKey := by
  rw [prepareOutput]
  split <;> rfl

theorem prepareOutput_value (p : Parameters κ) (e : Entry κ β) : (p.prepareOutput e).value = e.value := by
  rw [prepareOutput]
  split <;> rfl

theorem prepareOutput_cases (p : Parameters κ) (e : Entry κ β) : p.prepareOutput e = e ∨
      (p.prepareOutput e).sequence = 0 ∧ e.sequence ≤ p.earliestSnapshot ∧ p.bottommostLevel = true := by
  rw [prepareOutput]
  split
  · rename_i squashed
    rw [squashes] at squashed
    split at squashed
    · cases squashed
    · simp only [Bool.and_eq_true, decide_eq_true_iff] at squashed
      exact .inr ⟨rfl, squashed.1.2, squashed.1.1.2⟩
  · exact .inl rfl

theorem prepareOutput_le (p : Parameters κ) (e : Entry κ β) : (p.prepareOutput e).sequence ≤ e.sequence := by
  rcases prepareOutput_cases p e with same | ⟨zero, _⟩
  · rw [same]
  · rw [zero]
    exact Fin.zero_le _

theorem value_none_iff {e : Entry κ β} : e.value = none ↔ e.isDeletion = true := by
  cases e with
  | mk userKey sequence content =>
    cases content with
    | typeDeletion => simp [Entry.value, Entry.isDeletion]
    | typeValue value => simp [Entry.value, Entry.isDeletion]

variable [LinearOrder κ]

def visible (k : κ) (s : SequenceNumber) (e : Entry κ β) : Bool := e.userKey = k && e.sequence ≤ s

/-- What a read of a key at a snapshot returns: the value of the newest version visible there. -/
def readAt (entries : List (Entry κ β)) (k : κ) (s : SequenceNumber) : Option β :=
  ((entries.filter (visible k s)).argmax Entry.sequence).bind Entry.value

/-- A compaction with the levels below its output. The oracle is right about them, and there is nothing of the input
    in them at the bottommost level. -/
structure CompactionJob (κ β : Type) [LinearOrder κ] where
  parameters : Parameters κ
  input : List (Entry κ β)
  deeper : List (Entry κ β)
  snapshots_sorted : parameters.snapshots.Pairwise (· < ·)
  input_sorted : input.Pairwise Entry.Before
  distinct : (input ++ deeper).Pairwise (fun a b => a.userKey = b.userKey → a.sequence ≠ b.sequence)
  oracle_right : ∀ compaction, parameters.compaction = some compaction →
    ∀ k, compaction.keyNotExistsBeyondOutputLevel k = true → ∀ d ∈ deeper, d.userKey ≠ k
  nothing_below : parameters.bottommostLevel = true → ∀ e ∈ input, ∀ d ∈ deeper, d.userKey ≠ e.userKey

/-- Every read gives the same after the compaction, and the output is in order. -/
structure PreservesReads (job : CompactionJob κ β) : Prop where
  reads : ∀ k s, Readable job.parameters s →
    readAt (compact job.parameters job.input ++ job.deeper) k s = readAt (job.input ++ job.deeper) k s
  sorted : (compact job.parameters job.input).Pairwise Entry.Before

/-- If there is a snapshot zero, then every value with number zero has a newer version in the input, and at the
    bottommost level the newest version that snapshot zero is the last one before is not a deletion. -/
def ZeroSafe (p : Parameters κ) (input : List (Entry κ β)) : Prop :=
  (0 : SequenceNumber) ∈ p.snapshots → ∀ v ∈ input, v.sequence = 0 → v.isDeletion = false →
    (∃ w ∈ input, w.userKey = v.userKey ∧ 0 < w.sequence) ∧
      (p.bottommostLevel = true → ∀ d ∈ input, d.userKey = v.userKey → 0 < d.sequence →
        (∀ t ∈ p.snapshots, t < d.sequence → t = 0) →
        (∀ w ∈ input, w.userKey = v.userKey → d.sequence < w.sequence →
          ∃ t ∈ p.snapshots, d.sequence ≤ t ∧ t < w.sequence) →
        d.isDeletion = false)

section

variable {entries : List (Entry κ β)} {k : κ} {s : SequenceNumber} {e : Entry κ β}

theorem visible_iff : visible k s e = true ↔ e.userKey = k ∧ e.sequence ≤ s := by
  simp [visible]

theorem readAt_of_newest (inside : e ∈ entries) (seen : visible k s e = true)
    (newest : ∀ a ∈ entries, visible k s a = true → a = e ∨ a.sequence < e.sequence) :
    readAt entries k s = e.value := by
  have among : e ∈ entries.filter (visible k s) := mem_filter.mpr ⟨inside, seen⟩
  rw [readAt]
  cases found : (entries.filter (visible k s)).argmax Entry.sequence with
  | none =>
    rw [argmax_eq_none.mp found] at among
    exact absurd among not_mem_nil
  | some a =>
    obtain ⟨here, shown⟩ := mem_filter.mp (argmax_mem found)
    rcases newest a here shown with rfl | older
    · rfl
    · exact absurd (le_of_mem_argmax among found) (not_le.mpr older)

theorem readAt_none (absent : ∀ a ∈ entries, visible k s a = true → a.value = none) : readAt entries k s = none := by
  rw [readAt]
  cases found : (entries.filter (visible k s)).argmax Entry.sequence with
  | none => rfl
  | some a =>
    obtain ⟨here, shown⟩ := mem_filter.mp (argmax_mem found)
    exact absent a here shown

theorem readAt_cases (entries : List (Entry κ β)) (k : κ) (s : SequenceNumber) :
    (∀ a ∈ entries, visible k s a ≠ true) ∨ ∃ e ∈ entries, visible k s e = true ∧
      (∀ a ∈ entries, visible k s a = true → a.sequence ≤ e.sequence) ∧ readAt entries k s = e.value := by
  cases found : (entries.filter (visible k s)).argmax Entry.sequence with
  | none =>
    refine .inl (fun a here shown => ?_)
    have among := mem_filter.mpr ⟨here, shown⟩
    rw [argmax_eq_none.mp found] at among
    exact not_mem_nil among
  | some e =>
    obtain ⟨here, shown⟩ := mem_filter.mp (argmax_mem found)
    refine .inr ⟨e, here, shown, fun a inside seen => ?_, ?_⟩
    · exact le_of_mem_argmax (mem_filter.mpr ⟨inside, seen⟩) found
    · rw [readAt, found]
      rfl

end

section

variable {p : Parameters κ} {e : Entry κ β} {k : κ} {s : SequenceNumber}

theorem visible_of_prepareOutput (sorted : p.snapshots.Pairwise (· < ·)) (readable : Readable p s)
    (seen : visible k s (p.prepareOutput e) = true) : visible k s e = true := by
  rcases prepareOutput_cases p e with same | ⟨_, early, _⟩
  · rw [same] at seen
    exact seen
  · rw [visible_iff, prepareOutput_key] at seen
    exact visible_iff.mpr ⟨seen.1, early.trans (earliest_le sorted readable)⟩

theorem visible_prepareOutput (seen : visible k s e = true) : visible k s (p.prepareOutput e) = true := by
  rw [visible_iff] at seen
  rw [visible_iff, prepareOutput_key]
  exact ⟨seen.1, (prepareOutput_le p e).trans seen.2⟩

end

namespace CompactionJob

variable {job : CompactionJob κ β} {a b d e v : Entry κ β} {out : List (Entry κ β)}

theorem same_version (among : a ∈ job.input ++ job.deeper) (here : b ∈ job.input ++ job.deeper)
    (keys : a.userKey = b.userKey) (numbers : a.sequence = b.sequence) : a = b := by
  refine Classical.not_not.mp (fun different => ?_)
  have symmetric : Std.Symm (fun a b : Entry κ β => a.userKey = b.userKey → a.sequence ≠ b.sequence) :=
    ⟨fun _ _ apart same => (apart same.symm).symm⟩
  exact job.distinct.forall among here different keys numbers

theorem deeper_differs (inside : e ∈ job.input) (below : d ∈ job.deeper) (keys : e.userKey = d.userKey) :
    e.sequence ≠ d.sequence :=
  (pairwise_append.mp job.distinct).2.2 e inside d below keys

theorem ordered (job : CompactionJob κ β) : Ordered job.parameters ⟨none, 0⟩ job.input := by
  refine ⟨job.snapshots_sorted, ?_, fun _ nothing => absurd nothing (by simp)⟩
  have both := job.input_sorted.and (pairwise_append.mp job.distinct).1
  refine both.imp (fun {a b} pair => ?_)
  rcases pair.1 with before | ⟨same, packed⟩
  · exact .inl before
  · refine .inr ⟨same, ?_⟩
    have different := Fin.val_ne_of_ne (pair.2 same)
    rw [Entry.packed, Entry.packed] at packed
    rw [Fin.lt_def]
    split at packed <;> split at packed <;> omega

variable {k : κ} {s : SequenceNumber}

theorem top_of_newest (readable : Readable job.parameters s) (seen : visible k s v = true)
    (greatest : ∀ a ∈ job.input, visible k s a = true → a.sequence ≤ v.sequence) : Top job.parameters job.input v := by
  intro w inside same newer together
  obtain ⟨key, reach⟩ := visible_iff.mp seen
  have shown : visible k s w = true := by
    refine visible_iff.mpr ⟨same.trans key, (le_stripe job.parameters w.sequence).trans ?_⟩
    rw [together]
    exact stripe_le_of_le job.snapshots_sorted readable reach
  exact absurd (greatest w inside shown) (not_le.mpr newer)

theorem skipper_iff : Skipper job.parameters ⟨none, 0⟩ job.input v d ↔
      d ∈ job.input ∧ d.userKey = v.userKey ∧ 0 < d.sequence ∧
        (∀ t ∈ job.parameters.snapshots, t < d.sequence → t = 0) ∧
        (∀ w ∈ job.input, w.userKey = v.userKey → d.sequence < w.sequence →
          ∃ t ∈ job.parameters.snapshots, d.sequence ≤ t ∧ t < w.sequence) ∧ d.isDeletion = true := by
  have sorted := job.snapshots_sorted
  constructor
  · rintro ⟨here, same, deletion, positive, first, top, _⟩
    refine ⟨here, same, positive, fun t listed less => ?_, fun w among keys newer => ?_, deletion⟩
    · exact le_antisymm ((le_prev sorted listed less).trans_eq first) (Fin.zero_le _)
    · exact (stripe_ne_iff sorted newer).mp (top w among (keys.trans same.symm) newer)
  · rintro ⟨here, same, positive, first, tops, deletion⟩
    refine ⟨here, same, deletion, positive, ?_, fun w among keys newer => ?_, fun nothing => absurd nothing (by simp)⟩
    · rcases prev_lt_or_zero job.parameters d.sequence with zero | ⟨listed, less⟩
      · exact zero
      · exact first _ listed less
    · exact (stripe_ne_iff sorted newer).mpr (tops w among (keys.trans same) newer)

theorem hasNewer_iff : HasNewer ⟨none, 0⟩ job.input v ↔
    ∃ w ∈ job.input, w.userKey = v.userKey ∧ 0 < w.sequence := by
  simp [HasNewer]

section

variable (survives : Survives job.parameters ⟨none, 0⟩ job.input out)

include survives

theorem prepareOutput_whole (other : b ∈ out) (survivor : a ∈ out) (keys : b.userKey = a.userKey)
    (older : b.sequence < a.sequence) : job.parameters.prepareOutput a = a := by
  have symmetric : Std.Symm (fun a b : Entry κ β => a.userKey = b.userKey →
      stripe job.parameters b.sequence ≠ stripe job.parameters a.sequence) :=
    ⟨fun _ _ apart same => (apart same.symm).symm⟩
  have different : b ≠ a := fun same => ne_of_lt older (congrArg _ same)
  refine (prepareOutput_cases job.parameters a).resolve_right ?_
  rintro ⟨_, early, _⟩
  have first := stripe_of_le_earliest job.snapshots_sorted early
  have second := stripe_of_le_earliest job.snapshots_sorted ((le_of_lt older).trans early)
  exact (survives.one_per_stripe job.ordered).2.forall other survivor different keys (first.trans second.symm)

theorem output_sorted : (out.map job.parameters.prepareOutput).Pairwise Entry.Before := by
  refine pairwise_map.mpr ((job.ordered.sorted.sublist survives.sublist).imp_of_mem ?_)
  intro a b here there before
  rw [Entry.Before, prepareOutput_key, prepareOutput_key]
  rcases before with before | ⟨same, older⟩
  · exact .inl before
  · refine .inr ⟨same, ?_⟩
    have less := Fin.lt_def.mp (lt_of_le_of_lt (prepareOutput_le job.parameters b) older)
    rw [prepareOutput_whole survives there here same.symm older, Entry.packed, Entry.packed]
    split <;> split <;> omega

theorem visible_after (readable : Readable job.parameters s)
    (among : a ∈ out.map job.parameters.prepareOutput ++ job.deeper) (shown : visible k s a = true) :
    a ∈ job.deeper ∨ ∃ o ∈ out, o ∈ job.input ∧ visible k s o = true ∧ a = job.parameters.prepareOutput o := by
  rcases mem_append.mp among with above | below
  · obtain ⟨o, other, rfl⟩ := mem_map.mp above
    exact .inr ⟨o, other, survives.sublist.mem other,
      visible_of_prepareOutput job.snapshots_sorted readable shown, rfl⟩
  · exact .inl below

variable (readable : Readable job.parameters s) (seen : visible k s v = true)
  (greatest : ∀ a ∈ job.input ++ job.deeper, visible k s a = true → a.sequence ≤ v.sequence)

include readable seen greatest

theorem read_survivor (survivor : v ∈ out) :
    readAt (out.map job.parameters.prepareOutput ++ job.deeper) k s = v.value := by
  have inside : v ∈ job.input := survives.sublist.mem survivor
  have key := (visible_iff.mp seen).1
  rw [← prepareOutput_value job.parameters v]
  refine readAt_of_newest (mem_append_left _ (mem_map_of_mem survivor)) (visible_prepareOutput seen) ?_
  intro a among shown
  rcases visible_after survives readable among shown with below | ⟨o, other, in_input, shown', rfl⟩
  · have keys : v.userKey = a.userKey := key.trans (visible_iff.mp shown).1.symm
    have older : a.sequence < v.sequence :=
      lt_of_le_of_ne (greatest a (mem_append_right _ below) shown) (deeper_differs inside below keys).symm
    rcases prepareOutput_cases job.parameters v with whole | ⟨_, _, bottommost⟩
    · rw [whole]
      exact .inr older
    · exact absurd keys.symm (job.nothing_below bottommost v inside a below)
  · have keys : o.userKey = v.userKey := (visible_iff.mp shown').1.trans key.symm
    have in_both := mem_append_left job.deeper in_input
    by_cases same : o = v
    · exact .inl (congrArg _ same)
    · have older : o.sequence < v.sequence := lt_of_le_of_ne (greatest o in_both shown')
        (fun numbers => same (same_version in_both (mem_append_left _ inside) keys numbers))
      rw [prepareOutput_whole survives other survivor keys older]
      exact .inr (lt_of_le_of_lt (prepareOutput_le job.parameters o) older)

theorem read_given_up (inside : v ∈ job.input) (given_up : GivenUp job.parameters out v) :
    readAt (out.map job.parameters.prepareOutput ++ job.deeper) k s = none := by
  obtain ⟨_, why, newer⟩ := given_up
  have key := (visible_iff.mp seen).1
  refine readAt_none (fun a among shown => ?_)
  rcases visible_after survives readable among shown with below | ⟨o, other, in_input, shown', rfl⟩
  · have keys : a.userKey = v.userKey := (visible_iff.mp shown).1.trans key.symm
    rcases why with gone | bottommost
    · rw [obsolete] at gone
      split at gone
      · cases gone
      · rename_i compaction here
        simp only [Bool.and_eq_true] at gone
        exact absurd keys (job.oracle_right compaction here v.userKey gone.2 a below)
    · exact absurd keys (job.nothing_below bottommost v inside a below)
  · have keys : o.userKey = v.userKey := (visible_iff.mp shown').1.trans key.symm
    exact absurd (newer o other keys) (not_lt.mpr (greatest o (mem_append_left _ in_input) shown'))

theorem read_zero_deletion (inside : v ∈ job.input) (zero : v.sequence = 0) (deletion : v.isDeletion = true) :
    readAt (out.map job.parameters.prepareOutput ++ job.deeper) k s = none := by
  have key := (visible_iff.mp seen).1
  have only_zero : ∀ a ∈ job.input ++ job.deeper, visible k s a = true → a.sequence = v.sequence := by
    intro a among shown
    have least := greatest a among shown
    rw [zero] at least ⊢
    exact le_antisymm least (Fin.zero_le _)
  refine readAt_none (fun a among shown => ?_)
  rcases visible_after survives readable among shown with below | ⟨o, other, in_input, shown', rfl⟩
  · have keys : v.userKey = a.userKey := key.trans (visible_iff.mp shown).1.symm
    exact absurd (only_zero a (mem_append_right _ below) shown).symm (deeper_differs inside below keys)
  · have in_both := mem_append_left job.deeper in_input
    have same := same_version in_both (mem_append_left _ inside) ((visible_iff.mp shown').1.trans key.symm)
      (only_zero o in_both shown')
    rw [prepareOutput_value, same]
    exact value_none_iff.mpr deletion

theorem read_deeper (below : v ∈ job.deeper) :
    readAt (out.map job.parameters.prepareOutput ++ job.deeper) k s = v.value := by
  have key := (visible_iff.mp seen).1
  refine readAt_of_newest (mem_append_right _ below) seen (fun a among shown => ?_)
  rcases visible_after survives readable among shown with here | ⟨o, other, in_input, shown', rfl⟩
  · have in_both := mem_append_right job.input here
    rcases lt_or_eq_of_le (greatest a in_both shown) with older | numbers
    · exact .inr older
    · exact .inl (same_version in_both (mem_append_right _ below) ((visible_iff.mp shown).1.trans key.symm) numbers)
  · have least := greatest o (mem_append_left _ in_input) shown'
    have different := deeper_differs in_input below ((visible_iff.mp shown').1.trans key.symm)
    exact .inr (lt_of_le_of_lt (prepareOutput_le job.parameters o) (lt_of_le_of_ne least different))

end

theorem zeroSafe_iff (survives : Survives job.parameters ⟨none, 0⟩ job.input out) :
    ZeroSafe job.parameters job.input ↔ ((0 : SequenceNumber) ∈ job.parameters.snapshots →
      ∀ v ∈ job.input, v.sequence = 0 → v.isDeletion = false → v ∈ out) := by
  refine forall_congr' (fun listed => forall₂_congr (fun v inside => forall₂_congr (fun zero holds_value => ?_)))
  rw [survives.zero_iff job.ordered listed inside zero holds_value, Spared, hasNewer_iff]
  refine and_congr_right (fun _ => forall₂_congr (fun bottommost d => ?_))
  rw [skipper_iff]
  simp only [not_and, Bool.not_eq_true]

theorem reads_same (safe : ZeroSafe job.parameters job.input)
    (survives : Survives job.parameters ⟨none, 0⟩ job.input out) (k : κ) (readable : Readable job.parameters s) :
    readAt (out.map job.parameters.prepareOutput ++ job.deeper) k s = readAt (job.input ++ job.deeper) k s := by
  rcases readAt_cases (job.input ++ job.deeper) k s with nothing | ⟨v, among, seen, greatest, reads⟩
  · rw [readAt_none (fun a here shown => absurd shown (nothing a here))]
    refine readAt_none (fun a here shown => ?_)
    rcases visible_after survives readable here shown with below | ⟨o, _, in_input, shown', _⟩
    · exact absurd shown (nothing a (mem_append_right _ below))
    · exact absurd shown' (nothing o (mem_append_left _ in_input))
  · rw [reads]
    rcases mem_append.mp among with inside | below
    · by_cases at_zero : stripe job.parameters v.sequence = 0
      · have zero : v.sequence = 0 :=
          le_antisymm ((le_stripe job.parameters v.sequence).trans_eq at_zero) (Fin.zero_le _)
        cases deletion : v.isDeletion with
        | true =>
          rw [read_zero_deletion survives readable seen greatest inside zero deletion]
          exact (value_none_iff.mpr deletion).symm
        | false =>
          have listed : (0 : SequenceNumber) ∈ job.parameters.snapshots := by
            rcases stripe_readable job.parameters v.sequence with here | last
            · rw [at_zero] at here
              exact here
            · rw [at_zero] at last
              exact absurd last (by decide)
          exact read_survivor survives readable seen greatest ((zeroSafe_iff survives).mp safe listed v inside zero deletion)
      · have top := top_of_newest readable seen (fun a here => greatest a (mem_append_left _ here))
        rcases survives.top_fate job.ordered inside top (fun nothing => absurd nothing (by simp)) at_zero with
          survivor | given_up
        · exact read_survivor survives readable seen greatest survivor
        · rw [read_given_up survives readable seen greatest inside given_up]
          exact (value_none_iff.mpr given_up.1).symm
    · exact read_deeper survives readable seen greatest below

theorem survivor_of_read (survives : Survives job.parameters ⟨none, 0⟩ job.input out) (inside : v ∈ job.input)
    (listed : (0 : SequenceNumber) ∈ job.parameters.snapshots) (zero : v.sequence = 0)
    (holds_value : v.isDeletion = false)
    (reads : readAt (out.map job.parameters.prepareOutput ++ job.deeper) v.userKey 0 =
      readAt (job.input ++ job.deeper) v.userKey 0) : v ∈ out := by
  refine Classical.not_not.mp (fun lost => ?_)
  have only : ∀ a : Entry κ β, visible v.userKey 0 a = true → a.userKey = v.userKey ∧ v.sequence = a.sequence := by
    intro a shown
    obtain ⟨key, least⟩ := visible_iff.mp shown
    exact ⟨key, zero.trans (le_antisymm least (Fin.zero_le _)).symm⟩
  have both := mem_append_left job.deeper inside
  have before : readAt (job.input ++ job.deeper) v.userKey 0 = v.value :=
    readAt_of_newest both (visible_iff.mpr ⟨rfl, le_of_eq zero⟩)
      (fun a among shown => .inl (same_version among both (only a shown).1 (only a shown).2.symm))
  have after : readAt (out.map job.parameters.prepareOutput ++ job.deeper) v.userKey 0 = none := by
    refine readAt_none (fun a among shown => ?_)
    rcases visible_after survives (.inl listed) among shown with below | ⟨o, other, in_input, shown', rfl⟩
    · exact absurd (only a shown).2 (deeper_differs inside below (only a shown).1.symm)
    · have same := same_version (mem_append_left _ in_input) both (only o shown').1 (only o shown').2.symm
      rw [same] at other
      exact absurd other lost
  rw [before, after] at reads
  rw [value_none_iff.mp reads.symm] at holds_value
  cases holds_value

end CompactionJob

/-- Compaction preserves every read, and writes its output in order, exactly if no value with number zero is lost to
    the marker for no snapshot being zero as well. -/
theorem compaction_preserves_reads_iff (job : CompactionJob κ β) :
    PreservesReads job ↔ ZeroSafe job.parameters job.input := by
  obtain ⟨out, survives, written⟩ := compact_survives job.parameters job.input
  constructor
  · intro preserves
    refine (CompactionJob.zeroSafe_iff survives).mpr (fun listed v inside zero holds_value => ?_)
    have reads := preserves.reads v.userKey 0 (.inl listed)
    rw [written] at reads
    exact CompactionJob.survivor_of_read survives inside listed zero holds_value reads
  · intro safe
    refine ⟨fun k s readable => ?_, ?_⟩
    · rw [written]
      exact CompactionJob.reads_same safe survives k readable
    · rw [written]
      exact CompactionJob.output_sorted survives

def zeroJob : CompactionJob Nat Nat where
  parameters := ⟨[0], some ⟨false, false, fun _ => false⟩, kMaxSequenceNumber⟩
  input := [⟨7, 0, .typeValue 42⟩]
  deeper := []
  snapshots_sorted := pairwise_singleton _ _
  input_sorted := pairwise_singleton _ _
  distinct := pairwise_singleton _ _
  oracle_right := fun _ _ _ _ _ below => absurd below not_mem_nil
  nothing_below := fun _ _ _ _ below => absurd below not_mem_nil

/-- The value is gone at once, in the snapshot and in the newest state. -/
theorem value_at_zero_is_lost : ¬ PreservesReads zeroJob ∧
    readAt (zeroJob.input ++ zeroJob.deeper) 7 kMaxSequenceNumber = some 42 ∧
    readAt (compact zeroJob.parameters zeroJob.input ++ zeroJob.deeper) 7 kMaxSequenceNumber = none := by
  have before : readAt (zeroJob.input ++ zeroJob.deeper) 7 kMaxSequenceNumber = some 42 := by decide +kernel
  have after : readAt (compact zeroJob.parameters zeroJob.input ++ zeroJob.deeper) 7 kMaxSequenceNumber = none := by
    decide +kernel
  refine ⟨fun preserves => ?_, before, after⟩
  have same := preserves.reads 7 kMaxSequenceNumber (.inr rfl)
  rw [before, after] at same
  cases same

end CompactionProof
