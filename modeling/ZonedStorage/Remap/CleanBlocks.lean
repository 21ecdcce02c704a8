import ZonedStorage.Remap.SlidingWindow

namespace RbcProof

open Rbc SlidingWindowDetector List UInt64

/-- The pairs follow one another from a position of their block up to its end. -/
def Covers : Nat → List KVMetadata → Prop
  | pos, [] => pos = 4096
  | pos, pair :: rest => pair.offset.toNat = pos ∧ Covers (pos + pair.length.toNat) rest

structure Tiles (window : List KVMetadata) : Prop where
  block : ∃ blockId, ∀ pair ∈ window, pair.blockId = blockId
  whole : Covers 0 window

def windowAt (kvPairs : KVPairs) (size pos : Nat) : List KVMetadata := (kvPairs.val.drop pos).take size

def CleanAt (kvPairs : KVPairs) (size pos : Nat) : Prop :=
  pos + size ≤ kvPairs.val.length ∧ Tiles (windowAt kvPairs size pos)

def FirstFrom (holds : Nat → Prop) (stop start pos : Nat) : Prop :=
  (start ≤ pos ∧ holds pos ∧ ∀ before, start ≤ before → before < pos → ¬ holds before) ∨
    (pos = stop ∧ ∀ other, start ≤ other → ¬ holds other)

def FindsClean (kvPairs : KVPairs) (size start : Nat) (result : Option UInt64) : Prop :=
  ∃ pos, result = some pos ∧ FirstFrom (CleanAt kvPairs size) kvPairs.val.length start pos.toNat

/-- The end of the first window does not wrap round to a position in the vector. -/
def EndsWithin (kvPairs : KVPairs) (size start : Nat) : Prop :=
  start + size < 2 ^ 64 ∨ kvPairs.val.length < start + size - 2 ^ 64

/-- Each pair begins where the previous one ends, and the end of the last one does not wrap round. -/
def Follow : List KVMetadata → Prop
  | [] => True
  | [last] => last.offset.toNat + last.length.toNat < 2 ^ 64
  | pair :: next :: rest => next.offset.toNat = pair.offset.toNat + pair.length.toNat ∧ Follow (next :: rest)

def accepts (window : List KVMetadata) : Bool :=
  match window.head?, window.getLast? with
  | some first, some last =>
    window.all (fun pair => pair.blockId = first.blockId) && first.offset = 0 && last.offset + last.length = BLOCK_SIZE
  | _, _ => false

def AcceptedAt (kvPairs : KVPairs) (size pos : Nat) : Prop :=
  pos + size ≤ kvPairs.val.length ∧ accepts (windowAt kvPairs size pos) = true

section

theorem covers_cons_iff (pos : Nat) (pair : KVMetadata) (rest : List KVMetadata) :
    Covers pos (pair :: rest) ↔ pair.offset.toNat = pos ∧ Follow (pair :: rest) ∧
      ∀ last, (pair :: rest).getLast? = some last → last.offset + last.length = BLOCK_SIZE := by
  induction rest generalizing pos pair with
  | nil =>
    have size : BLOCK_SIZE.toNat = 4096 := rfl
    simp only [Covers, Follow, getLast?_singleton, Option.some.injEq, forall_eq']
    rw [← UInt64.toNat_inj, UInt64.toNat_add, size]
    have bound := pair.length.toNat_lt
    constructor
    · rintro ⟨rfl, whole⟩
      exact ⟨rfl, by omega, by omega⟩
    · rintro ⟨rfl, fits, whole⟩
      exact ⟨rfl, by omega⟩
  | cons next rest ih =>
    rw [Covers, ih, Follow, getLast?_cons_cons]
    constructor
    · rintro ⟨rfl, follows, later, ends⟩
      exact ⟨rfl, ⟨follows, later⟩, ends⟩
    · rintro ⟨rfl, ⟨follows, later⟩, ends⟩
      exact ⟨rfl, follows, later, ends⟩

theorem tiles_iff {window : List KVMetadata} (some : window ≠ []) :
    Tiles window ↔ accepts window = true ∧ Follow window := by
  obtain ⟨pair, rest, rfl⟩ := exists_cons_of_ne_nil some
  obtain ⟨last, ends⟩ : ∃ last, (pair :: rest).getLast? = Option.some last :=
    ⟨_, getLast?_eq_some_getLast some⟩
  have same : (∃ blockId, ∀ other ∈ pair :: rest, other.blockId = blockId) ↔
      ∀ other ∈ pair :: rest, other.blockId = pair.blockId := by
    constructor
    · rintro ⟨blockId, all⟩ other member
      rw [all other member, all pair mem_cons_self]
    · exact fun all => ⟨_, all⟩
  have parts : Tiles (pair :: rest) ↔
      (∃ blockId, ∀ other ∈ pair :: rest, other.blockId = blockId) ∧ Covers 0 (pair :: rest) :=
    ⟨fun tiles => ⟨tiles.block, tiles.whole⟩, fun both => ⟨both.1, both.2⟩⟩
  have start : pair.offset.toNat = 0 ↔ pair.offset = 0 := by
    rw [← UInt64.toNat_inj]
    rfl
  rw [parts, same, covers_cons_iff, ends, start]
  simp only [accepts, head?_cons, ends, Bool.and_eq_true, all_eq_true, decide_eq_true_eq,
    Option.some.injEq, forall_eq']
  constructor
  · rintro ⟨block, first, follow, whole⟩
    exact ⟨⟨⟨block, first⟩, whole⟩, follow⟩
  · rintro ⟨⟨⟨block, first⟩, whole⟩, follow⟩
    exact ⟨block, first, follow, whole⟩

variable {kvPairs : KVPairs} {size pos : Nat}

theorem windowAt_length (inside : pos + size ≤ kvPairs.val.length) : (windowAt kvPairs size pos).length = size := by
  rw [windowAt, length_take, length_drop]
  omega

theorem cleanAt_iff (positive : 0 < size) :
    CleanAt kvPairs size pos ↔ AcceptedAt kvPairs size pos ∧ Follow (windowAt kvPairs size pos) := by
  unfold CleanAt AcceptedAt
  rw [and_assoc]
  apply and_congr_right
  intro inside
  apply tiles_iff
  intro empty
  have length := windowAt_length inside
  rw [empty, length_nil] at length
  omega

theorem windowAt_cons (inside : pos < kvPairs.val.length) :
    windowAt kvPairs (size + 1) pos = kvPairs.val[pos] :: windowAt kvPairs size (pos + 1) := by
  rw [windowAt, drop_eq_getElem_cons inside, take_succ_cons]
  rfl

theorem windowAt_getLast? (positive : 0 < size) (inside : pos + size ≤ kvPairs.val.length) :
    (windowAt kvPairs size pos).getLast? = kvPairs.val[pos + size - 1]? := by
  rw [getLast?_eq_getElem?, windowAt_length inside, windowAt, List.getElem?_take_of_lt (by omega),
    List.getElem?_drop]
  congr 1
  omega

end

section

variable {detector : SlidingWindowDetector} {kvPairs : KVPairs} {pos : UInt64}

theorem size_toNat (kvPairs : KVPairs) : kvPairs.size.toNat = kvPairs.val.length := by
  have bound := kvPairs.property
  apply toNat_ofNat_of_lt'
  change _ < 2 ^ 64
  omega

theorem windowSize_toNat (detector : SlidingWindowDetector) :
    detector.windowSize.toUInt64.toNat = detector.windowSize.toNat := UInt32.toNat_toUInt64 _

theorem stop_toNat (inside : pos.toNat + detector.windowSize.toNat ≤ kvPairs.val.length) :
    (pos + detector.windowSize.toUInt64).toNat = pos.toNat + detector.windowSize.toNat := by
  have bound := kvPairs.property
  rw [UInt64.toNat_add, windowSize_toNat]
  omega

theorem succ_toNat (inside : pos.toNat < kvPairs.val.length) : (pos + 1).toNat = pos.toNat + 1 := by
  have bound := kvPairs.property
  rw [UInt64.toNat_add]
  change (pos.toNat + 1) % 2 ^ 64 = _
  omega

theorem sameBlock_eq (blockId : UInt32) {stop : UInt64} (inside : stop.toNat ≤ kvPairs.val.length) (rounds : Nat)
    (order : pos.toNat ≤ stop.toNat) (enough : stop.toNat - pos.toNat < rounds) :
    sameBlock kvPairs blockId stop rounds pos =
      some ((windowAt kvPairs (stop.toNat - pos.toNat) pos.toNat).all (fun pair => pair.blockId = blockId)) := by
  induction rounds generalizing pos with
  | zero => omega
  | succ rounds ih =>
    rw [sameBlock]
    by_cases more : pos < stop
    · have less := lt_iff_toNat_lt.mp more
      have next := succ_toNat (Nat.lt_of_lt_of_le less inside)
      have found : kvPairs.get? pos = some (kvPairs.val[pos.toNat]) := List.getElem?_eq_getElem (by omega)
      have length : stop.toNat - pos.toNat = (stop.toNat - (pos + 1).toNat) + 1 := by omega
      rw [if_pos more, found, length, windowAt_cons (by omega), all_cons]
      change (if kvPairs.val[pos.toNat].blockId ≠ blockId then _ else _) = _
      by_cases same : kvPairs.val[pos.toNat].blockId = blockId
      · rw [if_neg (not_not.mpr same), ih (by omega) (by omega), decide_eq_true same, Bool.true_and, next]
      · rw [if_pos same, decide_eq_false same, Bool.false_and]
    · have done : stop.toNat - pos.toNat = 0 := by
        rw [lt_iff_toNat_lt] at more
        omega
      rw [if_neg more, done]
      rfl

variable {first last : KVMetadata}

section

variable (positive : 0 < detector.windowSize.toNat)

include positive

theorem windowAt_first (found : kvPairs.get? pos = some first) : windowAt kvPairs detector.windowSize.toNat pos.toNat =
      first :: windowAt kvPairs (detector.windowSize.toNat - 1) (pos.toNat + 1) := by
  obtain ⟨within, value⟩ := List.getElem?_eq_some_iff.mp found
  obtain ⟨rest, size⟩ := Nat.exists_eq_add_of_lt positive
  rw [size, Nat.zero_add, windowAt_cons within, value]
  rfl

theorem checkBlockIntegrity_eq
    (inside : pos.toNat + detector.windowSize.toNat ≤ kvPairs.val.length) (found : kvPairs.get? pos = some first) :
    detector.checkBlockIntegrity kvPairs pos = some
      ((windowAt kvPairs detector.windowSize.toNat pos.toNat).all (fun pair => pair.blockId = first.blockId)) := by
  have stop := stop_toNat inside
  have next : (pos + 1).toNat = pos.toNat + 1 := succ_toNat (show pos.toNat < kvPairs.val.length by omega)
  have fits : ¬ kvPairs.size < pos + detector.windowSize.toUInt64 := by
    rw [lt_iff_toNat_lt, size_toNat, stop]
    omega
  have rest : (pos + detector.windowSize.toUInt64).toNat - (pos + 1).toNat = detector.windowSize.toNat - 1 := by
    omega
  simp only [checkBlockIntegrity, if_neg fits, found]
  change sameBlock _ _ _ _ _ = _
  rw [sameBlock_eq first.blockId (by omega) _ (by omega) (by omega), rest, next, windowAt_first positive found,
    all_cons, decide_eq_true rfl, Bool.true_and]

theorem checkBoundaryAlignment_eq
    (inside : pos.toNat + detector.windowSize.toNat ≤ kvPairs.val.length) (found : kvPairs.get? pos = some first)
    (ends : kvPairs.val[pos.toNat + detector.windowSize.toNat - 1]? = some last) :
    detector.checkBoundaryAlignment kvPairs pos =
      some (decide (first.offset = 0) && decide (last.offset + last.length = BLOCK_SIZE)) := by
  have bound := kvPairs.property
  have last_pos : (pos + detector.windowSize.toUInt64 - 1).toNat = pos.toNat + detector.windowSize.toNat - 1 := by
    rw [UInt64.toNat_sub, stop_toNat inside]
    change (2 ^ 64 - 1 + _) % 2 ^ 64 = _
    omega
  unfold checkBoundaryAlignment
  rw [found]
  change (if first.offset ≠ 0 then _ else _) = _
  by_cases start : first.offset = 0
  · have read : kvPairs.get? (pos + detector.windowSize.toUInt64 - 1) = some last := by
      rw [KVPairs.get?, last_pos, ends]
    rw [if_neg (not_not.mpr start), read, decide_eq_true start, Bool.true_and]
    rfl
  · rw [if_pos start, decide_eq_false start, Bool.false_and]

theorem isCleanBlock_eq
    (inside : pos.toNat + detector.windowSize.toNat ≤ kvPairs.val.length) :
    detector.isCleanBlock kvPairs pos = some (accepts (windowAt kvPairs detector.windowSize.toNat pos.toNat)) := by
  obtain ⟨first, found⟩ : ∃ first, kvPairs.get? pos = some first :=
    ⟨_, List.getElem?_eq_getElem (show pos.toNat < kvPairs.val.length by omega)⟩
  obtain ⟨last, ends⟩ : ∃ last, kvPairs.val[pos.toNat + detector.windowSize.toNat - 1]? = some last :=
    ⟨_, List.getElem?_eq_getElem (by omega)⟩
  have decided : accepts (windowAt kvPairs detector.windowSize.toNat pos.toNat) =
      ((windowAt kvPairs detector.windowSize.toNat pos.toNat).all (fun pair => pair.blockId = first.blockId) &&
        (decide (first.offset = 0) && decide (last.offset + last.length = BLOCK_SIZE))) := by
    rw [accepts, windowAt_getLast? positive inside, ends, windowAt_first positive found, head?_cons]
    exact Bool.and_assoc _ _ _
  unfold isCleanBlock
  rw [checkBlockIntegrity_eq positive inside found, checkBoundaryAlignment_eq positive inside found ends, decided]
  cases (windowAt kvPairs detector.windowSize.toNat pos.toNat).all (fun pair => pair.blockId = first.blockId) with
  | true => rfl
  | false => rfl

end

end

section

variable {detector : SlidingWindowDetector} {kvPairs : KVPairs} {pos start : UInt64}

theorem FirstFrom.back {holds : Nat → Prop} {stop start pos : Nat} (first : FirstFrom holds stop (start + 1) pos)
    (skipped : ¬ holds start) : FirstFrom holds stop start pos := by
  have other_than : ∀ other, start ≤ other → holds other → start + 1 ≤ other := by
    intro other after hit
    rcases Nat.eq_or_lt_of_le after with rfl | later
    · exact absurd hit skipped
    · exact later
  rcases first with ⟨after, hit, before⟩ | ⟨ends, never⟩
  · exact .inl ⟨by omega, hit, fun other from_start less held =>
      before other (other_than other from_start held) less held⟩
  · exact .inr ⟨ends, fun other from_start held => never other (other_than other from_start held) held⟩

theorem FirstFrom.eq {holds : Nat → Prop} {stop start pos other : Nat} (first : FirstFrom holds stop start pos)
    (after : start ≤ other) (held : holds other)
    (before : ∀ earlier, start ≤ earlier → earlier < other → ¬ holds earlier) : pos = other := by
  rcases first with ⟨from_start, hit, earlier⟩ | ⟨_, never⟩
  · rcases Nat.lt_trichotomy pos other with less | same | greater
    · exact absurd hit (before pos from_start less)
    · exact same
    · exact absurd held (earlier other after greater)
  · exact absurd held (never other after)

theorem beyond_not_accepted {size start : Nat} (beyond : kvPairs.val.length < start + size) :
    FirstFrom (AcceptedAt kvPairs size) kvPairs.val.length start kvPairs.val.length := by
  refine .inr ⟨rfl, fun other after accepted => ?_⟩
  have inside := accepted.1
  omega

theorem findFrom_beyond (rounds : Nat) (ends : kvPairs.size < pos + detector.windowSize.toUInt64)
    (beyond : kvPairs.val.length < pos.toNat + detector.windowSize.toNat) :
    ∃ result, detector.findFrom kvPairs (rounds + 1) pos = some result ∧
      FirstFrom (AcceptedAt kvPairs detector.windowSize.toNat) kvPairs.val.length pos.toNat result.toNat := by
  rw [findFrom, if_neg (UInt64.not_le.mpr ends)]
  refine ⟨_, rfl, ?_⟩
  rw [size_toNat]
  exact beyond_not_accepted beyond

theorem findFrom_first (positive : 0 < detector.windowSize.toNat) (rounds : Nat)
    (enough : kvPairs.val.length ≤ pos.toNat + rounds) (unwrapped : pos.toNat + detector.windowSize.toNat < 2 ^ 64) :
    ∃ result, detector.findFrom kvPairs (rounds + 1) pos = some result ∧
      FirstFrom (AcceptedAt kvPairs detector.windowSize.toNat) kvPairs.val.length pos.toNat result.toNat := by
  have stop : (pos + detector.windowSize.toUInt64).toNat = pos.toNat + detector.windowSize.toNat := by
    rw [UInt64.toNat_add, windowSize_toNat, Nat.mod_eq_of_lt unwrapped]
  have beyond : kvPairs.val.length < pos.toNat + detector.windowSize.toNat →
      kvPairs.size < pos + detector.windowSize.toUInt64 := by
    intro outside
    rw [lt_iff_toNat_lt, size_toNat, stop]
    exact outside
  induction rounds generalizing pos with
  | zero => exact findFrom_beyond 0 (beyond (by omega)) (by omega)
  | succ rounds ih =>
    by_cases outside : kvPairs.val.length < pos.toNat + detector.windowSize.toNat
    · exact findFrom_beyond _ (beyond outside) outside
    have inside : pos.toNat + detector.windowSize.toNat ≤ kvPairs.val.length := Nat.not_lt.mp outside
    have fits : pos + detector.windowSize.toUInt64 ≤ kvPairs.size := by
      rw [le_iff_toNat_le, size_toNat, stop]
      exact inside
    rw [findFrom, if_pos fits, isCleanBlock_eq positive inside]
    cases clean : accepts (windowAt kvPairs detector.windowSize.toNat pos.toNat) with
    | true =>
      refine ⟨pos, rfl, .inl ⟨Nat.le_refl _, ⟨inside, clean⟩, ?_⟩⟩
      intro before after less
      omega
    | false =>
      have bound := kvPairs.property
      have next : (pos + 1).toNat = pos.toNat + 1 := succ_toNat (show pos.toNat < kvPairs.val.length by omega)
      have skipped : ¬ AcceptedAt kvPairs detector.windowSize.toNat pos.toNat := by
        intro accepted
        rw [accepted.2] at clean
        cases clean
      have stop' : (pos + 1 + detector.windowSize.toUInt64).toNat = (pos + 1).toNat + detector.windowSize.toNat := by
        rw [UInt64.toNat_add, windowSize_toNat]
        omega
      obtain ⟨result, found, first⟩ := ih (by omega) (by omega) stop' (by
        intro outside
        rw [lt_iff_toNat_lt, size_toNat, stop']
        exact outside)
      rw [next] at first
      exact ⟨result, found, first.back skipped⟩

theorem findNextCleanBlock_first (positive : 0 < detector.windowSize.toNat)
    (ends : EndsWithin kvPairs detector.windowSize.toNat start.toNat) :
    ∃ result, detector.findNextCleanBlock kvPairs start = some result ∧
      FirstFrom (AcceptedAt kvPairs detector.windowSize.toNat) kvPairs.val.length start.toNat result.toNat := by
  by_cases unwrapped : start.toNat + detector.windowSize.toNat < 2 ^ 64
  · exact findFrom_first positive _ (by omega) unwrapped
  · have bound := kvPairs.property
    have small := detector.windowSize.toNat_lt
    have large := start.toNat_lt
    have past := ends.resolve_left unwrapped
    apply findFrom_beyond
    · rw [lt_iff_toNat_lt, size_toNat, UInt64.toNat_add, windowSize_toNat]
      omega
    · omega

theorem findNextCleanBlock_undefined (wraps : ¬ EndsWithin kvPairs detector.windowSize.toNat start.toNat) :
    detector.findNextCleanBlock kvPairs start = none := by
  obtain ⟨past, within⟩ := not_or.mp wraps
  have bound := kvPairs.property
  have small := detector.windowSize.toNat_lt
  have large := start.toNat_lt
  have stop : (start + detector.windowSize.toUInt64).toNat = start.toNat + detector.windowSize.toNat - 2 ^ 64 := by
    rw [UInt64.toNat_add, windowSize_toNat]
    omega
  have fits : start + detector.windowSize.toUInt64 ≤ kvPairs.size := by
    rw [le_iff_toNat_le, size_toNat, stop]
    omega
  have unread : kvPairs.get? start = none := List.getElem?_eq_none (by omega)
  have undefined : detector.isCleanBlock kvPairs start = none := by
    simp only [isCleanBlock, checkBlockIntegrity,
      if_neg (UInt64.not_lt.mpr fits), unread]
    rfl
  rw [findNextCleanBlock, findFrom, if_pos fits, undefined]
  rfl

end

/-- The first window that the detector accepts, if there is one, has no gap and no overlap in its inside. -/
def NoInnerGap (kvPairs : KVPairs) (size start : Nat) : Prop :=
  ∀ pos, start ≤ pos → AcceptedAt kvPairs size pos →
    (∀ before, start ≤ before → before < pos → ¬ AcceptedAt kvPairs size before) →
    Follow (windowAt kvPairs size pos)

/-- The search finds the first clean block exactly if the first window it accepts is free of gaps, and its first
    window does not wrap round. -/
theorem finds_clean_block_iff (detector : SlidingWindowDetector) (kvPairs : KVPairs) (start : UInt64)
    (positive : 0 < detector.windowSize.toNat) :
    FindsClean kvPairs detector.windowSize.toNat start.toNat (detector.findNextCleanBlock kvPairs start) ↔
      EndsWithin kvPairs detector.windowSize.toNat start.toNat ∧
        NoInnerGap kvPairs detector.windowSize.toNat start.toNat := by
  by_cases ends : EndsWithin kvPairs detector.windowSize.toNat start.toNat
  swap
  · rw [findNextCleanBlock_undefined ends]
    apply iff_of_false
    · rintro ⟨pos, found, _⟩
      cases found
    · exact fun both => ends both.1
  obtain ⟨result, found, first⟩ := findNextCleanBlock_first positive ends
  rw [found]
  constructor
  · rintro ⟨pos, same, clean⟩
    obtain rfl := Option.some.inj same
    refine ⟨ends, fun other after accepted before => ?_⟩
    have same := first.eq after accepted before
    rw [same] at clean
    rcases clean with ⟨_, clean, _⟩ | ⟨last, _⟩
    · exact ((cleanAt_iff positive).mp clean).2
    · have inside := accepted.1
      omega
  · rintro ⟨_, follows⟩
    refine ⟨result, rfl, ?_⟩
    rcases first with ⟨after, accepted, before⟩ | ⟨last, never⟩
    · refine .inl ⟨after, (cleanAt_iff positive).mpr ⟨accepted, follows _ after accepted before⟩, ?_⟩
      intro other from_start less clean
      exact before other from_start less ((cleanAt_iff positive).mp clean).1
    · exact .inr ⟨last, fun other after clean => never other after ((cleanAt_iff positive).mp clean).1⟩

def tiled : KVPairs := ⟨[⟨1, 5, 0, 1024⟩, ⟨2, 5, 1024, 1024⟩, ⟨3, 5, 2048, 1024⟩, ⟨4, 5, 3072, 1024⟩], by decide⟩

def thirdRemoved : KVPairs := ⟨[⟨1, 5, 0, 1024⟩, ⟨2, 5, 1024, 1024⟩, ⟨4, 5, 3072, 1024⟩], by decide⟩

theorem tiled_block_found : FindsClean tiled 4 0 (findNextCleanBlock ⟨4⟩ tiled 0) := by
  apply (finds_clean_block_iff ⟨4⟩ tiled 0 (by decide)).mpr
  refine ⟨.inl (by decide), fun pos _ accepted _ => ?_⟩
  have inside : pos + 4 ≤ 4 := accepted.1
  obtain rfl : pos = 0 := by omega
  refine ⟨rfl, rfl, rfl, ?_⟩
  change 3072 + 1024 < 2 ^ 64
  decide

theorem removed_pair_unnoticed : findNextCleanBlock ⟨3⟩ thirdRemoved 0 = some 0 ∧
    ¬ FindsClean thirdRemoved 3 0 (findNextCleanBlock ⟨3⟩ thirdRemoved 0) := by
  have found : findNextCleanBlock ⟨3⟩ thirdRemoved 0 = some 0 := by decide
  refine ⟨found, ?_⟩
  rw [found]
  rintro ⟨pos, same, clean⟩
  obtain rfl := Option.some.inj same
  rcases clean with ⟨_, clean, _⟩ | ⟨last, _⟩
  · obtain ⟨_, _, gap, _⟩ := clean.2.whole
    exact absurd gap (by decide)
  · exact absurd last (by decide)

end RbcProof
