import ZonedStorage.Compaction.Survivors

namespace CompactionProof

open CompactionModel CompactionIterator List Memory

variable {κ β : Type} [LinearOrder κ] {p : Parameters κ} {m : Memory κ} {e v : Entry κ β}
  {input rest out : List (Entry κ β)}

def Precedes (a b : Entry κ β) : Prop :=
  a.userKey < b.userKey ∨ a.userKey = b.userKey ∧ b.sequence < a.sequence

structure Ordered (p : Parameters κ) (m : Memory κ) (input : List (Entry κ β)) : Prop where
  snapshots : p.snapshots.Pairwise (· < ·)
  sorted : input.Pairwise Precedes
  follows : ∀ k, m.userKey = some k → ∀ w ∈ input, k ≤ w.userKey ∧
    (w.userKey = k → stripe p w.sequence ≤ m.snapshot)

def Top (p : Parameters κ) (input : List (Entry κ β)) (v : Entry κ β) : Prop :=
  ∀ w ∈ input, w.userKey = v.userKey → v.sequence < w.sequence → stripe p w.sequence ≠ stripe p v.sequence

def Apart (p : Parameters κ) (m : Memory κ) (v : Entry κ β) : Prop :=
  m.userKey = some v.userKey → stripe p v.sequence ≠ m.snapshot

theorem remaining_sublist (p : Parameters κ) (m : Memory κ) (e : Entry κ β) (rest : List (Entry κ β)) :
    (remaining p m e rest).Sublist rest := by
  rw [remaining]
  split
  · exact dropWhile_sublist _
  · exact List.Sublist.refl _

theorem Survives.sublist (survives : Survives p m input out) : out.Sublist input := by
  induction survives with
  | nil m => exact List.Sublist.refl _
  | drop _ _ ih => exact (ih.trans (remaining_sublist _ _ _ _)).cons _
  | keep _ _ ih => exact (ih.trans (remaining_sublist _ _ _ _)).cons_cons _

section

variable (ordered : Ordered p m (e :: rest))

include ordered

theorem Ordered.older (later : v ∈ rest) (same : v.userKey = e.userKey) : v.sequence < e.sequence := by
  rcases rel_of_pairwise_cons ordered.sorted later with before | ⟨_, older⟩
  · exact absurd same.symm (ne_of_lt before)
  · exact older

theorem Ordered.key_le (later : v ∈ rest) : e.userKey ≤ v.userKey := by
  rcases rel_of_pairwise_cons ordered.sorted later with before | ⟨same, _⟩
  · exact le_of_lt before
  · exact le_of_eq same

theorem Ordered.step : Ordered p (after p e) (remaining p m e rest) := by
  have fewer := remaining_sublist p m e rest
  refine ⟨ordered.snapshots, (pairwise_cons.mp ordered.sorted).2.sublist fewer, ?_⟩
  intro k at_key w inside
  cases at_key
  have later := fewer.mem inside
  refine ⟨ordered.key_le later, fun same => ?_⟩
  exact stripe_mono ordered.snapshots (le_of_lt (ordered.older later same))

theorem Ordered.same_key (later : v ∈ rest)
    (remembered : m.userKey = some v.userKey) : e.userKey = v.userKey :=
  le_antisymm (ordered.key_le later) (ordered.follows _ remembered e mem_cons_self).1

theorem Ordered.not_shadowed_iff : Shadowed p m e = false ↔
    Apart p m e ∧ (m.userKey ≠ some e.userKey → stripe p e.sequence ≠ 0) := by
  rw [Shadowed, last, hiddenByNewer, Apart]
  by_cases remembered : m.userKey = some e.userKey
  · have reach := (ordered.follows _ remembered e mem_cons_self).2 rfl
    simp only [if_pos remembered, Bool.or_eq_false_iff, decide_eq_false_iff_not, Bool.and_eq_false_iff, not_lt]
    constructor
    · rintro ⟨different, _⟩
      exact ⟨fun _ same => different same.symm, fun other => absurd remembered other⟩
    · rintro ⟨different, _⟩
      exact ⟨fun same => different remembered same.symm, .inr reach⟩
  · simp only [if_neg remembered, Bool.or_eq_false_iff, decide_eq_false_iff_not, Bool.and_eq_false_iff, not_lt]
    constructor
    · rintro ⟨different, _⟩
      exact ⟨fun here => absurd here remembered, fun _ same => different same.symm⟩
    · rintro ⟨_, different⟩
      exact ⟨fun same => different remembered same.symm, .inl (le_refl _)⟩

end

theorem Reaches.cases (reaches : Reaches p m e = true) :
    Shadowed p m e = false ∧ p.obsolete e = false ∧ e.isDeletion = true ∧ p.bottommostLevel = true := by
  simpa [Reaches, and_assoc] using reaches

theorem mem_remaining_or (later : v ∈ rest) : v ∈ remaining p m e rest ∨
    Reaches p m e = true ∧ v.userKey = e.userKey ∧ (prev p e.sequence = 0 ∨ prev p e.sequence < v.sequence) := by
  rw [remaining]
  split
  · rename_i reaches
    rw [← takeWhile_append_dropWhile (p := skipped e.userKey (prev p e.sequence)) (l := rest)] at later
    rcases mem_append.mp later with gone | here
    · have in_reach := mem_takeWhile_imp gone
      simp only [skipped, Bool.and_eq_true, decide_eq_true_iff, Bool.or_eq_true] at in_reach
      exact .inr ⟨reaches, in_reach.1, in_reach.2⟩
    · exact .inl here
  · exact .inl later

theorem not_kept (dropped : Kept p m e rest = false) : Shadowed p m e = true ∨ p.obsolete e = true ∨
    Reaches p m e = true ∧ ∀ n, (remaining p m e rest).head? = some n → n.userKey ≠ e.userKey := by
  cases shadowed : Shadowed p m e with
  | true => exact .inl rfl
  | false =>
    cases gone : p.obsolete e with
    | true => exact .inr (.inl rfl)
    | false =>
      have ends : (e.isDeletion && p.bottommostLevel) = true ∧
          (remaining p m e rest).head?.any (fun n => decide (n.userKey = e.userKey)) = false := by
        simpa [Kept, shadowed, gone] using dropped
      refine .inr (.inr ⟨by simp [Reaches, shadowed, gone, ends.1], fun n first same => ?_⟩)
      rw [first] at ends
      exact absurd ends.2 (by simp [same])

theorem kept_cases (kept : Kept p m e rest = true) : Shadowed p m e = false ∧ p.obsolete e = false := by
  have both := kept
  rw [Kept, Bool.and_eq_true, Bool.and_eq_true, Bool.not_eq_true', Bool.not_eq_true'] at both
  exact both.1

theorem Ordered.apart_of_later (ordered : Ordered p m (e :: rest)) (later : v ∈ rest)
    (apart : Apart p (after p e) v) : Apart p m v := by
  intro remembered
  have same := ordered.same_key later remembered
  have below : stripe p v.sequence < stripe p e.sequence :=
    lt_of_le_of_ne (stripe_mono ordered.snapshots (le_of_lt (ordered.older later same.symm)))
      (apart (congrArg some same))
  exact ne_of_lt (lt_of_lt_of_le below ((ordered.follows _ remembered e mem_cons_self).2 same))

theorem Survives.one_per_stripe (survives : Survives p m input out) (ordered : Ordered p m input) :
    (∀ o ∈ out, Apart p m o) ∧
      out.Pairwise (fun a b => a.userKey = b.userKey → stripe p b.sequence ≠ stripe p a.sequence) := by
  induction survives with
  | nil m => exact ⟨fun _ inside => absurd inside not_mem_nil, .nil⟩
  | @drop m e rest out dropped later ih =>
    obtain ⟨apart, pairs⟩ := ih ordered.step
    refine ⟨fun o inside => ?_, pairs⟩
    exact ordered.apart_of_later ((later.sublist.trans (remaining_sublist _ _ _ _)).mem inside) (apart o inside)
  | @keep m e rest out kept later ih =>
    obtain ⟨apart, pairs⟩ := ih ordered.step
    refine ⟨fun o inside => ?_, pairwise_cons.mpr ⟨fun o inside same => ?_, pairs⟩⟩
    · rcases mem_cons.mp inside with rfl | after
      · exact (ordered.not_shadowed_iff.mp (kept_cases kept).1).1
      · exact ordered.apart_of_later ((later.sublist.trans (remaining_sublist _ _ _ _)).mem after) (apart o after)
    · exact apart o inside (congrArg some same)

theorem Ordered.reach (ordered : Ordered p m (e :: rest)) (later : v ∈ rest) (same : v.userKey = e.userKey)
    (in_reach : prev p e.sequence = 0 ∨ prev p e.sequence < v.sequence) :
    stripe p e.sequence = stripe p v.sequence ∨
      (0 : SequenceNumber) ∈ p.snapshots ∧ v.sequence = 0 ∧ prev p e.sequence = 0 := by
  refine or_iff_not_imp_left.mpr (fun different => ?_)
  obtain ⟨t, listed, reaches, before⟩ := (stripe_ne_iff ordered.snapshots (ordered.older later same)).mp different
  have at_most : v.sequence ≤ prev p e.sequence := reaches.trans (le_prev ordered.snapshots listed before)
  have zero : prev p e.sequence = 0 := in_reach.resolve_right (not_lt.mpr at_most)
  have t_zero : t = 0 := le_antisymm ((le_prev ordered.snapshots listed before).trans_eq zero) (Fin.zero_le _)
  rw [t_zero] at listed
  rw [zero] at at_most
  exact ⟨listed, le_antisymm at_most (Fin.zero_le _), zero⟩

theorem Ordered.none_left (ordered : Ordered p m (e :: rest))
    (ends : ∀ n, (remaining p m e rest).head? = some n → n.userKey ≠ e.userKey) (left : v ∈ remaining p m e rest) :
    v.userKey ≠ e.userKey := by
  have sorted := ordered.step.sorted
  cases first : remaining p m e rest with
  | nil =>
    rw [first] at left
    exact absurd left not_mem_nil
  | cons n ns =>
    rw [first] at left sorted ends
    have other := ends n rfl
    have in_rest : n ∈ rest := (remaining_sublist p m e rest).mem (by rw [first]; exact mem_cons_self)
    have beyond : e.userKey < n.userKey := lt_of_le_of_ne (ordered.key_le in_rest) other.symm
    rcases mem_cons.mp left with rfl | after
    · exact other
    · rcases rel_of_pairwise_cons sorted after with before | ⟨same, _⟩
      · exact ne_of_gt (beyond.trans before)
      · rw [← same]
        exact other

theorem Top.tail (top : Top p (e :: rest) v) : Top p (remaining p m e rest) v :=
  fun w inside same newer =>
    top w (mem_cons_of_mem _ ((remaining_sublist p m e rest).mem inside)) same newer

theorem Ordered.apart_after (ordered : Ordered p m (e :: rest)) (later : v ∈ rest) (top : Top p (e :: rest) v) :
    Apart p (after p e) v := by
  intro same
  have keys : e.userKey = v.userKey := Option.some.inj same
  exact (top e mem_cons_self keys (ordered.older later keys.symm)).symm

theorem Ordered.top_remains (ordered : Ordered p m (e :: rest)) (later : v ∈ rest) (top : Top p (e :: rest) v)
    (nonzero : stripe p v.sequence ≠ 0) : v ∈ remaining p m e rest := by
  rcases mem_remaining_or later with left | ⟨_, same, in_reach⟩
  · exact left
  · rcases ordered.reach later same in_reach with together | ⟨listed, zero, _⟩
    · exact absurd together (top e mem_cons_self same.symm (ordered.older later same))
    · refine absurd ?_ nonzero
      rw [zero]
      exact stripe_zero ordered.snapshots listed

def GivenUp (p : Parameters κ) (out : List (Entry κ β)) (v : Entry κ β) : Prop :=
  v.isDeletion = true ∧ (p.obsolete v = true ∨ p.bottommostLevel = true) ∧
    ∀ o ∈ out, o.userKey = v.userKey → v.sequence < o.sequence

theorem Ordered.head_fate (ordered : Ordered p m (e :: rest)) (apart : Apart p m e)
    (nonzero : stripe p e.sequence ≠ 0) (dropped : Kept p m e rest = false)
    (later : Survives p (after p e) (remaining p m e rest) out) : GivenUp p out e := by
  have seen : Shadowed p m e = false := ordered.not_shadowed_iff.mpr ⟨apart, fun _ => nonzero⟩
  rcases not_kept dropped with shadowed | gone | ⟨reaches, ends⟩
  · rw [seen] at shadowed
    cases shadowed
  · have parts := obsolete_parts gone
    refine ⟨parts.1, .inl gone, fun o inside same => ?_⟩
    have in_rest := (later.sublist.trans (remaining_sublist p m e rest)).mem inside
    have older := ordered.older in_rest same
    have here := stripe_of_le_earliest ordered.snapshots parts.2
    have there := stripe_of_le_earliest ordered.snapshots ((le_of_lt older).trans parts.2)
    exact absurd (there.trans here.symm) ((later.one_per_stripe ordered.step).1 o inside (congrArg some same.symm))
  · obtain ⟨_, _, deletion, bottommost⟩ := Reaches.cases reaches
    refine ⟨deletion, .inr bottommost, fun o inside same => ?_⟩
    exact absurd same (ordered.none_left ends (later.sublist.mem inside))

theorem Survives.top_fate (survives : Survives p m input out) (ordered : Ordered p m input) (inside : v ∈ input)
    (top : Top p input v) (apart : Apart p m v) (nonzero : stripe p v.sequence ≠ 0) :
    v ∈ out ∨ GivenUp p out v := by
  induction survives with
  | nil m => exact absurd inside not_mem_nil
  | @drop m e rest out dropped later ih =>
    rcases mem_cons.mp inside with rfl | in_rest
    · exact .inr (ordered.head_fate apart nonzero dropped later)
    · have left : v ∈ remaining p m e rest := ordered.top_remains in_rest top nonzero
      exact ih ordered.step left top.tail (ordered.apart_after in_rest top)
  | @keep m e rest out kept later ih =>
    rcases mem_cons.mp inside with rfl | in_rest
    · exact .inl mem_cons_self
    · have left : v ∈ remaining p m e rest := ordered.top_remains in_rest top nonzero
      rcases ih ordered.step left top.tail (ordered.apart_after in_rest top) with here | ⟨deletion, why, newer⟩
      · exact .inl (mem_cons_of_mem _ here)
      · refine .inr ⟨deletion, why, fun o among same => ?_⟩
        rcases mem_cons.mp among with rfl | after
        · exact ordered.older in_rest same.symm
        · exact newer o after same

def Skipper (p : Parameters κ) (m : Memory κ) (input : List (Entry κ β)) (v d : Entry κ β) : Prop :=
  d ∈ input ∧ d.userKey = v.userKey ∧ d.isDeletion = true ∧ 0 < d.sequence ∧ prev p d.sequence = 0 ∧
    Top p input d ∧ Apart p m d

def HasNewer (m : Memory κ) (input : List (Entry κ β)) (v : Entry κ β) : Prop :=
  (m.userKey = some v.userKey ∧ m.snapshot ≠ 0) ∨ ∃ w ∈ input, w.userKey = v.userKey ∧ 0 < w.sequence

section

variable (ordered : Ordered p m (e :: rest))

include ordered

theorem Ordered.skipper_of_tail {d : Entry κ β}
    (skipper : Skipper p (after p e) (remaining p m e rest) v d) : Skipper p m (e :: rest) v d := by
  obtain ⟨inside, same, deletion, positive, first, top, apart⟩ := skipper
  have in_rest := (remaining_sublist p m e rest).mem inside
  refine ⟨mem_cons_of_mem _ in_rest, same, deletion, positive, first, fun w among keys newer => ?_,
    ordered.apart_of_later in_rest apart⟩
  rcases mem_cons.mp among with rfl | after
  · exact (apart (congrArg some keys)).symm
  · rcases mem_remaining_or after with left | ⟨_, here, in_reach⟩
    · exact top w left keys newer
    · rcases ordered.reach after here in_reach with together | ⟨_, zero, _⟩
      · rw [← together]
        exact (apart (congrArg some (here.symm.trans keys))).symm
      · rw [zero] at newer
        exact absurd (Fin.zero_le _) (not_le.mpr newer)

theorem Ordered.skipper_tail {d : Entry κ β} (in_rest : d ∈ rest)
    (skipper : Skipper p m (e :: rest) v d) : Skipper p (after p e) (remaining p m e rest) v d := by
  obtain ⟨_, same, deletion, positive, first, top, _⟩ := skipper
  exact ⟨ordered.top_remains in_rest top (stripe_ne_zero positive), same, deletion, positive, first, top.tail,
    ordered.apart_after in_rest top⟩

theorem Ordered.head_top : Top p (e :: rest) e := by
  intro w among same newer
  rcases mem_cons.mp among with rfl | after
  · exact absurd newer (lt_irrefl _)
  · exact absurd newer (not_lt.mpr (le_of_lt (ordered.older after same)))

def Spared (p : Parameters κ) (m : Memory κ) (input : List (Entry κ β)) (v : Entry κ β) : Prop :=
  HasNewer m input v ∧ (p.bottommostLevel = true → ∀ d, ¬ Skipper p m input v d)

theorem Ordered.positive (later : v ∈ rest) (same : v.userKey = e.userKey) : 0 < e.sequence :=
  lt_of_le_of_lt (Fin.zero_le _) (ordered.older later same)

theorem Ordered.spared_tail (zero : v.sequence = 0) (in_rest : v ∈ rest)
    (spared : Spared p m (e :: rest) v) :
    v ∈ remaining p m e rest ∧ Spared p (after p e) (remaining p m e rest) v := by
  obtain ⟨newer, unskipped⟩ := spared
  refine ⟨?_, ?_, fun bottommost d skipper => unskipped bottommost d (ordered.skipper_of_tail skipper)⟩
  · rcases mem_remaining_or in_rest with left | ⟨reaches, same, in_reach⟩
    · exact left
    · obtain ⟨seen, _, deletion, bottommost⟩ := Reaches.cases reaches
      have first : prev p e.sequence = 0 := by
        rw [zero] at in_reach
        exact in_reach.resolve_right (not_lt.mpr (Fin.zero_le _))
      exact absurd ⟨mem_cons_self, same.symm, deletion, ordered.positive in_rest same, first, ordered.head_top,
        (ordered.not_shadowed_iff.mp seen).1⟩ (unskipped bottommost e)
  · by_cases same : e.userKey = v.userKey
    · exact .inl ⟨congrArg some same, stripe_ne_zero (ordered.positive in_rest same.symm)⟩
    · rcases newer with ⟨remembered, _⟩ | ⟨w, among, keys, positive⟩
      · exact absurd (ordered.same_key in_rest remembered) same
      · rcases mem_cons.mp among with rfl | after
        · exact absurd keys same
        · rcases mem_remaining_or (p := p) (m := m) (e := e) after with left | ⟨_, here, _⟩
          · exact .inr ⟨w, left, keys, positive⟩
          · exact absurd (here.symm.trans keys) same

theorem Ordered.spared_of_tail (listed : (0 : SequenceNumber) ∈ p.snapshots)
    (left : v ∈ remaining p m e rest) (spared : Spared p (after p e) (remaining p m e rest) v) :
    Spared p m (e :: rest) v := by
  obtain ⟨newer, unskipped⟩ := spared
  have in_rest := (remaining_sublist p m e rest).mem left
  refine ⟨.inr ?_, fun bottommost d skipper => ?_⟩
  · by_cases same : e.userKey = v.userKey
    · exact ⟨e, mem_cons_self, same, ordered.positive in_rest same.symm⟩
    · rcases newer with ⟨remembered, _⟩ | ⟨w, among, keys, positive⟩
      · exact absurd (Option.some.inj remembered) same
      · exact ⟨w, mem_cons_of_mem _ ((remaining_sublist p m e rest).mem among), keys, positive⟩
  · rcases mem_cons.mp skipper.1 with rfl | after
    · obtain ⟨_, same, deletion, positive, first, _, apart⟩ := skipper
      have seen : Shadowed p m d = false := ordered.not_shadowed_iff.mpr ⟨apart, fun _ => stripe_ne_zero positive⟩
      have current : p.obsolete d = false := by
        refine Bool.eq_false_iff.mpr (fun gone => ?_)
        have early := (obsolete_parts gone).2
        rw [earliest_zero ordered.snapshots listed] at early
        exact absurd early (not_le.mpr positive)
      have reaches : Reaches p m d = true := by simp [Reaches, seen, current, deletion, bottommost]
      have ends : ∀ n, (remaining p m d rest).head? = some n → n.userKey ≠ d.userKey := by
        intro n head keys
        rw [remaining, if_pos reaches] at head
        have stops := head?_dropWhile_not (skipped d.userKey (prev p d.sequence)) rest
        rw [head] at stops
        simp [skipped, first, keys] at stops
      exact ordered.none_left ends left same.symm
    · exact unskipped bottommost d (ordered.skipper_tail after skipper)

end

theorem Ordered.kept_iff (ordered : Ordered p m (v :: rest)) (listed : (0 : SequenceNumber) ∈ p.snapshots)
    (zero : v.sequence = 0) (holds_value : v.isDeletion = false) :
    Kept p m v rest = true ↔ Spared p m (v :: rest) v := by
  have none_newer : ∀ w ∈ v :: rest, w.userKey = v.userKey → ¬ 0 < w.sequence := by
    intro w among keys positive
    rcases mem_cons.mp among with rfl | behind
    · exact absurd zero (ne_of_gt positive)
    · have older := ordered.older behind keys
      rw [zero] at older
      exact absurd older (lt_asymm positive)
  have current : p.obsolete v = false := by
    refine Bool.eq_false_iff.mpr (fun gone => ?_)
    rw [(obsolete_parts gone).1] at holds_value
    cases holds_value
  have kept : Kept p m v rest = true ↔ Shadowed p m v = false := by simp [Kept, current, holds_value]
  rw [kept, ordered.not_shadowed_iff, Apart, zero, stripe_zero ordered.snapshots listed]
  constructor
  · rintro ⟨apart, fresh⟩
    have remembered : m.userKey = some v.userKey := Classical.not_not.mp (fun other => fresh other rfl)
    refine ⟨.inl ⟨remembered, (apart remembered).symm⟩, fun _ d skipper => ?_⟩
    exact none_newer d skipper.1 skipper.2.1 skipper.2.2.2.1
  · rintro ⟨⟨remembered, nonzero⟩ | ⟨w, among, keys, positive⟩, _⟩
    · exact ⟨fun _ => nonzero.symm, fun other => absurd remembered other⟩
    · exact absurd positive (none_newer w among keys)

theorem Survives.zero_iff (survives : Survives p m input out) (ordered : Ordered p m input)
    (listed : (0 : SequenceNumber) ∈ p.snapshots) (inside : v ∈ input) (zero : v.sequence = 0)
    (holds_value : v.isDeletion = false) : v ∈ out ↔ Spared p m input v := by
  induction survives with
  | nil m => exact absurd inside not_mem_nil
  | @drop m e rest out dropped later ih =>
    have behind : v ∈ out → v ∈ remaining p m e rest := later.sublist.mem
    rcases mem_cons.mp inside with rfl | in_rest
    · rw [← ordered.kept_iff listed zero holds_value, dropped]
      refine iff_of_false (fun survivor => ?_) Bool.false_ne_true
      exact lt_irrefl _ (ordered.older ((remaining_sublist p m v rest).mem (behind survivor)) rfl)
    · constructor
      · intro survivor
        exact ordered.spared_of_tail listed (behind survivor) ((ih ordered.step (behind survivor)).mp survivor)
      · intro spared
        obtain ⟨left, spared⟩ := ordered.spared_tail zero in_rest spared
        exact (ih ordered.step left).mpr spared
  | @keep m e rest out kept later ih =>
    rcases mem_cons.mp inside with rfl | in_rest
    · exact iff_of_true mem_cons_self ((ordered.kept_iff listed zero holds_value).mp kept)
    · constructor
      · intro survivor
        rcases mem_cons.mp survivor with rfl | after
        · exact (ordered.kept_iff listed zero holds_value).mp kept
        · have left := later.sublist.mem after
          exact ordered.spared_of_tail listed left ((ih ordered.step left).mp after)
      · intro spared
        obtain ⟨left, spared⟩ := ordered.spared_tail zero in_rest spared
        exact mem_cons_of_mem _ ((ih ordered.step left).mpr spared)

end CompactionProof
