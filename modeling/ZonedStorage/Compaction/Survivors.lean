import Mathlib.Data.List.Pairwise
import ZonedStorage.Compaction.Iterator
import ZonedStorage.Search.PartitionPoint

namespace CompactionProof

open CompactionModel

section

open List Parameters

variable {κ : Type} {p : Parameters κ} {x y t : SequenceNumber}

def Readable (p : Parameters κ) (t : SequenceNumber) : Prop := t ∈ p.snapshots ∨ t = kMaxSequenceNumber

def stripe (p : Parameters κ) (x : SequenceNumber) : SequenceNumber := (p.visibility x).1

def prev (p : Parameters κ) (x : SequenceNumber) : SequenceNumber := (p.visibility x).2

theorem le_kMax (x : SequenceNumber) : x ≤ kMaxSequenceNumber := by
  rw [Fin.le_def]
  exact Nat.le_of_lt_succ x.isLt

theorem visibility_eq (p : Parameters κ) (x : SequenceNumber) : p.visibility x = p.findEarliestVisibleSnapshot x := by
  rw [visibility]
  split
  · rename_i tip
    have none_listed : p.snapshots = [] := isEmpty_iff.mp tip
    rw [findEarliestVisibleSnapshot, earliestSnapshot, none_listed]
    rfl
  · rfl

theorem stripe_eq (p : Parameters κ) (x : SequenceNumber) :
    stripe p x = (p.snapshots.dropWhile (· < x)).head?.getD kMaxSequenceNumber := by
  rw [stripe, visibility_eq, findEarliestVisibleSnapshot]

theorem prev_eq (p : Parameters κ) (x : SequenceNumber) :
    prev p x = (p.snapshots.takeWhile (· < x)).getLast?.getD 0 := by
  rw [prev, visibility_eq, findEarliestVisibleSnapshot]

theorem stripe_readable (p : Parameters κ) (x : SequenceNumber) : Readable p (stripe p x) := by
  rw [stripe_eq]
  cases later : p.snapshots.dropWhile (· < x) with
  | nil => exact .inr rfl
  | cons t ts =>
    have inside : t ∈ p.snapshots.dropWhile (· < x) := by
      rw [later]
      exact mem_cons_self
    exact .inl ((dropWhile_sublist _).mem inside)

theorem le_stripe (p : Parameters κ) (x : SequenceNumber) : x ≤ stripe p x := by
  rw [stripe_eq]
  cases later : p.snapshots.dropWhile (· < x) with
  | nil => exact le_kMax x
  | cons t ts =>
    have stops := head?_dropWhile_not (· < x) p.snapshots
    rw [later] at stops
    simpa using stops

theorem stripe_ne_zero (positive : 0 < x) : stripe p x ≠ 0 := ne_of_gt (lt_of_lt_of_le positive (le_stripe p x))

section

variable (sorted : p.snapshots.Pairwise (· < ·))

include sorted

theorem stripe_le_of_le (readable : Readable p t) (visible : x ≤ t) : stripe p x ≤ t := by
  rcases readable with listed | rfl
  · have late : t ∈ p.snapshots.dropWhile (· < x) := Search.mem_dropWhile listed (decide_eq_false (not_lt.mpr visible))
    rw [stripe_eq, head?_eq_some_head (ne_nil_of_mem late)]
    exact ((sorted.imp le_of_lt).sublist (dropWhile_sublist _)).rel_head late
  · exact le_kMax _

theorem stripe_mono (less : x ≤ y) : stripe p x ≤ stripe p y :=
  stripe_le_of_le sorted (stripe_readable p y) (less.trans (le_stripe p y))

theorem stripe_ne_iff (less : x < y) : stripe p y ≠ stripe p x ↔ ∃ t ∈ p.snapshots, x ≤ t ∧ t < y := by
  constructor
  · intro different
    have below : stripe p x < stripe p y := lt_of_le_of_ne (stripe_mono sorted (le_of_lt less)) different.symm
    have before : stripe p x < y := by
      refine lt_of_not_ge (fun reach => ?_)
      exact absurd (stripe_le_of_le sorted (stripe_readable p x) reach) (not_le.mpr below)
    rcases stripe_readable p x with listed | last
    · exact ⟨stripe p x, listed, le_stripe p x, before⟩
    · rw [last] at before
      exact absurd (le_kMax y) (not_le.mpr before)
  · rintro ⟨t, listed, reach, before⟩ same
    have early := stripe_le_of_le sorted (.inl listed) reach
    have late := le_stripe p y
    rw [same] at late
    exact absurd (late.trans early) (not_le.mpr before)

theorem le_prev (listed : t ∈ p.snapshots) (less : t < x) : t ≤ prev p x := by
  have before : p.snapshots.Pairwise (fun a b => decide (b < x) = true → decide (a < x) = true) :=
    sorted.imp (fun earlier later => decide_eq_true (earlier.trans (of_decide_eq_true later)))
  have early : t ∈ p.snapshots.takeWhile (· < x) := Search.mem_takeWhile before listed (decide_eq_true less)
  rw [prev_eq, getLast?_eq_some_getLast (ne_nil_of_mem early)]
  exact ((sorted.imp le_of_lt).sublist (takeWhile_sublist _)).rel_getLast early

theorem earliest_le (readable : Readable p t) : p.earliestSnapshot ≤ t := by
  rcases readable with listed | rfl
  · rw [earliestSnapshot, head?_eq_some_head (ne_nil_of_mem listed)]
    exact (sorted.imp le_of_lt).rel_head listed
  · exact le_kMax _

theorem stripe_of_le_earliest (early : x ≤ p.earliestSnapshot) : stripe p x = p.earliestSnapshot := by
  have readable : Readable p p.earliestSnapshot := by
    rw [earliestSnapshot]
    cases all : p.snapshots with
    | nil => exact .inr rfl
    | cons s ss =>
      refine .inl ?_
      rw [all]
      exact mem_cons_self
  exact le_antisymm (stripe_le_of_le sorted readable early) (earliest_le sorted (stripe_readable p x))

theorem stripe_zero (listed : (0 : SequenceNumber) ∈ p.snapshots) : stripe p 0 = 0 :=
  le_antisymm (stripe_le_of_le sorted (.inl listed) (le_refl _)) (Fin.zero_le _)

theorem earliest_zero (listed : (0 : SequenceNumber) ∈ p.snapshots) : p.earliestSnapshot = 0 :=
  le_antisymm (earliest_le sorted (.inl listed)) (Fin.zero_le _)

end

theorem prev_lt_or_zero (p : Parameters κ) (x : SequenceNumber) :
    prev p x = 0 ∨ prev p x ∈ p.snapshots ∧ prev p x < x := by
  rw [prev_eq]
  cases final : (p.snapshots.takeWhile (fun s => decide (s < x))).getLast? with
  | none => exact .inl rfl
  | some t =>
    have inside := mem_of_getLast? final
    have less := mem_takeWhile_imp inside
    exact .inr ⟨(takeWhile_sublist _).mem inside, of_decide_eq_true less⟩

theorem obsolete_parts {β : Type} {e : Entry κ β} (gone : p.obsolete e = true) :
    e.isDeletion = true ∧ e.sequence ≤ p.earliestSnapshot := by
  rw [obsolete] at gone
  split at gone
  · cases gone
  · simp only [Bool.and_eq_true, decide_eq_true_iff] at gone
    exact gone.1

end

open CompactionIterator

variable {κ β : Type} [LinearOrder κ] {p : Parameters κ}

structure Memory (κ : Type) where
  userKey : Option κ
  snapshot : SequenceNumber

def Memory.last (m : Memory κ) (userKey : κ) : SequenceNumber :=
  if m.userKey = some userKey then m.snapshot else 0

def Memory.after (p : Parameters κ) (e : Entry κ β) : Memory κ := ⟨some e.userKey, stripe p e.sequence⟩

def Shadowed (p : Parameters κ) (m : Memory κ) (e : Entry κ β) : Bool :=
  hiddenByNewer (m.last e.userKey) (stripe p e.sequence)

def Reaches (p : Parameters κ) (m : Memory κ) (e : Entry κ β) : Bool :=
  !Shadowed p m e && !p.obsolete e && (e.isDeletion && p.bottommostLevel)

def remaining (p : Parameters κ) (m : Memory κ) (e : Entry κ β) (rest : List (Entry κ β)) : List (Entry κ β) :=
  if Reaches p m e then rest.dropWhile (skipped e.userKey (prev p e.sequence)) else rest

def Kept (p : Parameters κ) (m : Memory κ) (e : Entry κ β) (rest : List (Entry κ β)) : Bool :=
  !Shadowed p m e && !p.obsolete e &&
    (!(e.isDeletion && p.bottommostLevel) || (remaining p m e rest).head?.any (fun n => n.userKey = e.userKey))

inductive Survives (p : Parameters κ) : Memory κ → List (Entry κ β) → List (Entry κ β) → Prop
  | nil (m : Memory κ) : Survives p m [] []
  | drop {m : Memory κ} {e : Entry κ β} {rest out : List (Entry κ β)} (dropped : Kept p m e rest = false)
      (later : Survives p (Memory.after p e) (remaining p m e rest) out) : Survives p m (e :: rest) out
  | keep {m : Memory κ} {e : Entry κ β} {rest out : List (Entry κ β)} (kept : Kept p m e rest = true)
      (later : Survives p (Memory.after p e) (remaining p m e rest) out) : Survives p m (e :: rest) (e :: out)

def memory (it : CompactionIterator κ β) : Memory κ := ⟨it.currentUserKey, it.currentUserKeySnapshot⟩

def continuing (it : CompactionIterator κ β) : List (Entry κ β) := if it.atNext then it.input else it.input.tail

theorem remaining_length (p : Parameters κ) (m : Memory κ) (e : Entry κ β) (rest : List (Entry κ β)) :
    (remaining p m e rest).length ≤ rest.length := by
  rw [remaining]
  split
  · exact (List.dropWhile_sublist _).length_le
  · exact Nat.le_refl _

def seen (p : Parameters κ) (it : CompactionIterator κ β) (e : Entry κ β) : CompactionIterator κ β :=
  { it with currentUserKey := some e.userKey, currentUserKeySnapshot := stripe p e.sequence }

theorem turn_eq (it : CompactionIterator κ β) (e : Entry κ β) (rest : List (Entry κ β)) : it.turn p e rest =
      if Shadowed p (memory it) e then { seen p it e with input := rest }
      else if p.obsolete e then { seen p it e with input := rest }
      else if e.isDeletion && p.bottommostLevel then
        if (rest.dropWhile (skipped e.userKey (prev p e.sequence))).head?.any (fun n => n.userKey = e.userKey) then
          { seen p it e with
            input := rest.dropWhile (skipped e.userKey (prev p e.sequence)), current := some e, atNext := true }
        else { seen p it e with input := rest.dropWhile (skipped e.userKey (prev p e.sequence)) }
      else { seen p it e with current := some e } := rfl

theorem turn_spec (it : CompactionIterator κ β) (e : Entry κ β) (rest : List (Entry κ β))
    (here : it.input = e :: rest) (fresh : it.current = none) (behind : it.atNext = false) :
    memory (it.turn p e rest) = Memory.after p e ∧
      (Kept p (memory it) e rest = true → (it.turn p e rest).current = some e ∧
        continuing (it.turn p e rest) = remaining p (memory it) e rest) ∧
      (Kept p (memory it) e rest = false → (it.turn p e rest).current = none ∧
        (it.turn p e rest).atNext = false ∧ (it.turn p e rest).input = remaining p (memory it) e rest) := by
  rw [turn_eq]
  cases shadowed : Shadowed p (memory it) e with
  | true =>
    have dropped : Kept p (memory it) e rest = false := by simp [Kept, shadowed]
    have all : remaining p (memory it) e rest = rest := by simp [remaining, Reaches, shadowed]
    rw [dropped, all]
    exact ⟨rfl, fun kept => absurd kept Bool.false_ne_true, fun _ => ⟨fresh, behind, rfl⟩⟩
  | false =>
    cases gone : p.obsolete e with
    | true =>
      have dropped : Kept p (memory it) e rest = false := by simp [Kept, gone]
      have all : remaining p (memory it) e rest = rest := by simp [remaining, Reaches, gone]
      rw [dropped, all]
      exact ⟨rfl, fun kept => absurd kept Bool.false_ne_true, fun _ => ⟨fresh, behind, rfl⟩⟩
    | false =>
      cases deletes : e.isDeletion && p.bottommostLevel with
      | false =>
        have kept : Kept p (memory it) e rest = true := by simp only [Kept, shadowed, gone, deletes]; rfl
        have all : remaining p (memory it) e rest = rest := by simp only [remaining, Reaches, deletes]; simp
        rw [kept, all]
        refine ⟨rfl, fun _ => ⟨rfl, ?_⟩, fun dropped => absurd dropped.symm Bool.false_ne_true⟩
        change (if it.atNext then it.input else it.input.tail) = rest
        rw [behind, here]
        rfl
      | true =>
        have skips : remaining p (memory it) e rest = rest.dropWhile (skipped e.userKey (prev p e.sequence)) := by
          simp only [remaining, Reaches, shadowed, gone, deletes]
          rfl
        have same : Kept p (memory it) e rest =
            (rest.dropWhile (skipped e.userKey (prev p e.sequence))).head?.any (fun n => n.userKey = e.userKey) := by
          simp only [Kept, shadowed, gone, deletes, skips]
          rfl
        rw [same, skips]
        cases (rest.dropWhile (skipped e.userKey (prev p e.sequence))).head?.any (fun n => n.userKey = e.userKey) with
        | true => exact ⟨rfl, fun _ => ⟨rfl, rfl⟩, fun dropped => absurd dropped.symm Bool.false_ne_true⟩
        | false => exact ⟨rfl, fun kept => absurd kept Bool.false_ne_true, fun _ => ⟨fresh, behind, rfl⟩⟩

theorem loop_of_current {it : CompactionIterator κ β} {e : Entry κ β} (found : it.current = some e) (turns : Nat) :
    loop p turns it = it := by
  cases turns with
  | zero => rfl
  | succ turns => rw [loop, found, Option.isSome_some, if_pos rfl]

theorem loop_survives (turns : Nat) (it : CompactionIterator κ β) (fresh : it.current = none)
    (behind : it.atNext = false) (enough : it.input.length < turns) :
    ((loop p turns it).current = none ∧ Survives p (memory it) it.input []) ∨
      ∃ e, (loop p turns it).current = some e ∧
        (continuing (loop p turns it)).length < it.input.length ∧
        ∀ out, Survives p (memory (loop p turns it)) (continuing (loop p turns it)) out →
          Survives p (memory it) it.input (e :: out) := by
  induction turns generalizing it with
  | zero => exact absurd enough (Nat.not_lt_zero _)
  | succ turns ih =>
    cases here : it.input with
    | nil =>
      have stays : loop p (turns + 1) it = it := by
        rw [loop, fresh, here]
        rfl
      rw [stays]
      exact .inl ⟨fresh, .nil _⟩
    | cons e rest =>
      have goes : loop p (turns + 1) it = loop p turns (it.turn p e rest) := by
        rw [loop, fresh, here]
        rfl
      obtain ⟨remembers, keeps, drops⟩ := turn_spec (p := p) it e rest here fresh behind
      have shorter := remaining_length p (memory it) e rest
      rw [here, List.length_cons] at enough
      rw [goes, List.length_cons]
      cases kept : Kept p (memory it) e rest with
      | true =>
        obtain ⟨found, goes_on⟩ := keeps kept
        rw [loop_of_current found, goes_on, remembers]
        exact .inr ⟨e, found, by omega, fun out later => .keep kept later⟩
      | false =>
        obtain ⟨none_yet, still_behind, goes_on⟩ := drops kept
        have later := ih (it.turn p e rest) none_yet still_behind (by rw [goes_on]; omega)
        rw [goes_on, remembers] at later
        rcases later with ⟨ended, nothing⟩ | ⟨e', found, less, survives⟩
        · exact .inl ⟨ended, .drop kept nothing⟩
        · exact .inr ⟨e', found, by omega, fun out rest_out => .drop kept (survives out rest_out)⟩

theorem outputs_survive (rounds : Nat) (it : CompactionIterator κ β) (enough : it.input.length < rounds) :
    ∃ out, Survives p (memory it) it.input out ∧ outputs p rounds (it.nextFromInput p) = out.map p.prepareOutput := by
  induction rounds generalizing it with
  | zero => exact absurd enough (Nat.not_lt_zero _)
  | succ rounds ih =>
    have ends := loop_survives (p := p) (it.input.length + 1) { it with atNext := false, current := none } rfl rfl
      (Nat.lt_succ_self _)
    change ((it.nextFromInput p).current = none ∧ Survives p (memory it) it.input []) ∨
      ∃ e, (it.nextFromInput p).current = some e ∧ (continuing (it.nextFromInput p)).length < it.input.length ∧
        ∀ out, Survives p (memory (it.nextFromInput p)) (continuing (it.nextFromInput p)) out →
          Survives p (memory it) it.input (e :: out) at ends
    rcases ends with ⟨ended, nothing⟩ | ⟨e, found, less, survives⟩
    · refine ⟨[], nothing, ?_⟩
      rw [outputs, ended]
      rfl
    · have moves : (it.nextFromInput p).next p =
          { it.nextFromInput p with input := continuing (it.nextFromInput p) }.nextFromInput p := by
        rw [next, continuing]
        split <;> rfl
      obtain ⟨out, later, written⟩ := ih { it.nextFromInput p with input := continuing (it.nextFromInput p) }
        (Nat.lt_of_lt_of_le less (Nat.le_of_lt_succ enough))
      refine ⟨e :: out, survives out later, ?_⟩
      rw [outputs, found, List.map_cons, ← written, ← moves]

theorem compact_survives (p : Parameters κ) (input : List (Entry κ β)) :
    ∃ out, Survives p ⟨none, 0⟩ input out ∧ compact p input = out.map p.prepareOutput :=
  outputs_survive (input.length + 1) (CompactionIterator.new input) (Nat.lt_succ_self _)

end CompactionProof
