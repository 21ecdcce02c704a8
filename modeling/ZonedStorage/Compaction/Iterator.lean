import Mathlib.Algebra.Ring.Nat
import Mathlib.Order.Fin.Basic

namespace CompactionModel

abbrev SequenceNumber := Fin (2 ^ 56)

instance range_ne_zero : NeZero (2 ^ 56) := ⟨by decide⟩

def kMaxSequenceNumber : SequenceNumber := ⟨2 ^ 56 - 1, by decide⟩

inductive Content (β : Type) where
  | typeDeletion
  | typeValue (value : β)
  deriving DecidableEq

structure Entry (κ β : Type) where
  userKey : κ
  sequence : SequenceNumber
  content : Content β
  deriving DecidableEq

namespace Entry

variable {κ β : Type}

def isDeletion (e : Entry κ β) : Bool :=
  match e.content with
  | .typeDeletion => true
  | .typeValue _ => false

def value (e : Entry κ β) : Option β :=
  match e.content with
  | .typeDeletion => none
  | .typeValue value => some value

/-- The sequence number and the type of an internal key, packed in one number. -/
def packed (e : Entry κ β) : Nat := e.sequence.val * 256 + if e.isDeletion then 0 else 1

/-- The order of internal keys: the user keys up, the versions of one key down. -/
def Before [LT κ] (a b : Entry κ β) : Prop :=
  a.userKey < b.userKey ∨ a.userKey = b.userKey ∧ b.packed < a.packed

end Entry

structure CompactionProxy (κ : Type) where
  bottommostLevel : Bool
  allowIngestBehind : Bool
  keyNotExistsBeyondOutputLevel : κ → Bool

structure Parameters (κ : Type) where
  snapshots : List SequenceNumber
  compaction : Option (CompactionProxy κ)
  preserveTimeMinSeqno : SequenceNumber

namespace Parameters

variable {κ β : Type} (p : Parameters κ)

def bottommostLevel : Bool :=
  match p.compaction with
  | none => false
  | some compaction => compaction.bottommostLevel && !compaction.allowIngestBehind

def visibleAtTip : Bool := p.snapshots.isEmpty

def earliestSnapshot : SequenceNumber := p.snapshots.head?.getD kMaxSequenceNumber

/-- The earliest snapshot an entry is visible in, and the snapshot before that, or zero. -/
def findEarliestVisibleSnapshot (sequence : SequenceNumber) : SequenceNumber × SequenceNumber :=
  ((p.snapshots.dropWhile (· < sequence)).head?.getD kMaxSequenceNumber,
    (p.snapshots.takeWhile (· < sequence)).getLast?.getD 0)

def visibility (sequence : SequenceNumber) : SequenceNumber × SequenceNumber :=
  if p.visibleAtTip then (p.earliestSnapshot, 0) else p.findEarliestVisibleSnapshot sequence

def obsolete (e : Entry κ β) : Bool :=
  match p.compaction with
  | none => false
  | some compaction => e.isDeletion && e.sequence ≤ p.earliestSnapshot &&
    compaction.keyNotExistsBeyondOutputLevel e.userKey

def squashes (e : Entry κ β) : Bool :=
  match p.compaction with
  | none => false
  | some compaction => !compaction.allowIngestBehind && p.bottommostLevel &&
    e.sequence ≤ p.earliestSnapshot && e.sequence < p.preserveTimeMinSeqno

def prepareOutput (e : Entry κ β) : Entry κ β := if p.squashes e then { e with sequence := 0 } else e

end Parameters

structure CompactionIterator (κ β : Type) where
  input : List (Entry κ β)
  /-- `current_user_key_`, if `has_current_user_key_`. -/
  currentUserKey : Option κ
  currentUserKeySnapshot : SequenceNumber
  atNext : Bool
  current : Option (Entry κ β)

namespace CompactionIterator

variable {κ β : Type} [DecidableEq κ] (p : Parameters κ)

def new (input : List (Entry κ β)) : CompactionIterator κ β := ⟨input, none, 0, false, none⟩

def lastSnapshot (it : CompactionIterator κ β) (userKey : κ) : SequenceNumber :=
  if it.currentUserKey = some userKey then it.currentUserKeySnapshot else 0

/-- A version in the reach of a deletion at the bottommost level, given the snapshot before the deletion. -/
def skipped (userKey : κ) (prevSnapshot : SequenceNumber) (e : Entry κ β) : Bool :=
  e.userKey = userKey && (prevSnapshot = 0 || prevSnapshot < e.sequence)

/-- Rule (A): a newer version is seen instead in the same snapshots. -/
def hiddenByNewer (lastSnapshot snapshot : SequenceNumber) : Bool :=
  lastSnapshot = snapshot || (0 < lastSnapshot && lastSnapshot < snapshot)

def turn (it : CompactionIterator κ β) (e : Entry κ β) (rest : List (Entry κ β)) : CompactionIterator κ β :=
  let snapshot := (p.visibility e.sequence).1
  let prevSnapshot := (p.visibility e.sequence).2
  let seen := { it with currentUserKey := some e.userKey, currentUserKeySnapshot := snapshot }
  if hiddenByNewer (it.lastSnapshot e.userKey) snapshot then { seen with input := rest }
  else if p.obsolete e then { seen with input := rest }
  else if e.isDeletion && p.bottommostLevel then
    let next := rest.dropWhile (skipped e.userKey prevSnapshot)
    if next.head?.any (fun n => n.userKey = e.userKey) then
      { seen with input := next, current := some e, atNext := true }
    else { seen with input := next }
  else { seen with current := some e }

def loop : Nat → CompactionIterator κ β → CompactionIterator κ β
  | 0, it => it
  | turns + 1, it =>
    if it.current.isSome then it
    else match it.input with
      | [] => it
      | e :: rest => loop turns (it.turn p e rest)

/-- Every turn takes an entry from the input or ends the loop. -/
def nextFromInput (it : CompactionIterator κ β) : CompactionIterator κ β :=
  loop p (it.input.length + 1) { it with atNext := false, current := none }

def seekToFirst (it : CompactionIterator κ β) : CompactionIterator κ β := it.nextFromInput p

def next (it : CompactionIterator κ β) : CompactionIterator κ β :=
  if it.atNext then it.nextFromInput p else { it with input := it.input.tail }.nextFromInput p

def outputs : Nat → CompactionIterator κ β → List (Entry κ β)
  | 0, _ => []
  | rounds + 1, it =>
    match it.current with
    | none => []
    | some e => p.prepareOutput e :: outputs rounds (it.next p)

end CompactionIterator

def compact {κ β : Type} [DecidableEq κ] (p : Parameters κ) (input : List (Entry κ β)) : List (Entry κ β) :=
  CompactionIterator.outputs p (input.length + 1) ((CompactionIterator.new input).seekToFirst p)

end CompactionModel
