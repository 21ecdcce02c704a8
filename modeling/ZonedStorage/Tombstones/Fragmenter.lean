import Mathlib.Algebra.Group.Nat.Defs
import Mathlib.Order.Lattice
import ZonedStorage.Compaction.Iterator
import ZonedStorage.Search.PartitionPoint

namespace TombstoneModel

open Search

def kMaxSequenceNumber : Nat := CompactionModel.kMaxSequenceNumber

/-- A range tombstone: its start key and sequence number are the internal key of an entry, its end key the value. -/
structure Tombstone (κ : Type) [LinearOrder κ] where
  startKey : κ
  endKey : κ
  seq : Nat
  ordered : startKey ≤ endKey
  bounded : seq ≤ kMaxSequenceNumber

/-- `ParsedInternalKey` of an end key, with the type for range deletions. -/
structure EndKey (κ : Type) where
  userKey : κ
  sequence : Nat
  deriving DecidableEq

structure RangeTombstoneStack (κ : Type) where
  startKey : κ
  endKey : κ
  seqStartIdx : Nat
  seqEndIdx : Nat
  deriving DecidableEq

structure FragmentedRangeTombstoneList (κ : Type) where
  tombstones : List (RangeTombstoneStack κ)
  tombstoneSeqs : List Nat
  deriving DecidableEq

section

variable {κ : Type} [LinearOrder κ]

/-- `ParsedInternalKeyComparator`: ascending user keys, descending sequence numbers. -/
def EndKey.before (a b : EndKey κ) : Prop := a.userKey < b.userKey ∨ a.userKey = b.userKey ∧ b.sequence < a.sequence

instance (a b : EndKey κ) : Decidable (a.before b) := inferInstanceAs (Decidable (_ ∨ _))

def emplace (key : EndKey κ) : List (EndKey κ) → List (EndKey κ)
  | [] => [key]
  | other :: keys =>
    if key.before other then key :: other :: keys
    else if other = key then other :: keys
    else other :: emplace key keys

structure Purpose where
  forCompaction : Bool
  snapshots : List Nat

/-- The sequence numbers that are preserved by a snapshot, of a descending list. -/
def preserved (snapshots : List Nat) : Nat → List Nat → List Nat
  | _, [] => []
  | nextSnapshot, seq :: seqs =>
    if seq ≤ nextSnapshot then
      match partitionPoint (fun snapshot => decide (snapshot < seq)) snapshots with
      | 0 => [seq]
      | upper + 1 => seq :: preserved snapshots (snapshots.getD upper 0) seqs
    else preserved snapshots nextSnapshot seqs

def Purpose.keep (purpose : Purpose) (seqnumsToFlush : List Nat) : List Nat :=
  if purpose.forCompaction then preserved purpose.snapshots kMaxSequenceNumber seqnumsToFlush else seqnumsToFlush

/-- A fragment is flushed, with the sequence numbers of the tombstones that are still open. -/
def FragmentedRangeTombstoneList.emit (list : FragmentedRangeTombstoneList κ) (purpose : Purpose) (startKey endKey : κ)
    (keys : List (EndKey κ)) : FragmentedRangeTombstoneList κ :=
  let seqs := purpose.keep ((keys.map EndKey.sequence).mergeSort (fun a b => decide (b ≤ a)))
  ⟨list.tombstones ++ [⟨startKey, endKey, list.tombstoneSeqs.length, list.tombstoneSeqs.length + seqs.length⟩],
    list.tombstoneSeqs ++ seqs⟩

/-- The loop of `flush_current_tombstones`, with what it leaves of the end keys. -/
def flushLoop (purpose : Purpose) (nextStartKey : κ) : κ → List (EndKey κ) → FragmentedRangeTombstoneList κ →
    FragmentedRangeTombstoneList κ × List (EndKey κ)
  | _, [], list => (list, [])
  | curStartKey, it :: keys, list =>
    if curStartKey = it.userKey then flushLoop purpose nextStartKey curStartKey keys list
    else if nextStartKey ≤ it.userKey then (list.emit purpose curStartKey nextStartKey (it :: keys), it :: keys)
    else flushLoop purpose nextStartKey it.userKey keys (list.emit purpose curStartKey it.userKey (it :: keys))

structure Sweep (κ : Type) where
  curStartKey : κ
  curEndKeys : List (EndKey κ)
  list : FragmentedRangeTombstoneList κ

def Sweep.flushCurrentTombstones (s : Sweep κ) (purpose : Purpose) (nextStartKey : κ) : Sweep κ :=
  let (list, keys) := flushLoop purpose nextStartKey s.curStartKey s.curEndKeys s.list
  ⟨nextStartKey, keys, list⟩

def Sweep.add (purpose : Purpose) (s : Sweep κ) (t : Tombstone κ) : Sweep κ :=
  let s := if s.curEndKeys ≠ [] ∧ s.curStartKey ≠ t.startKey then s.flushCurrentTombstones purpose t.startKey else s
  { s with curStartKey := t.startKey, curEndKeys := emplace ⟨t.endKey, t.seq⟩ s.curEndKeys }

/-- The default key is the null slice before the first tombstone. -/
def fragmentTombstones [Inhabited κ] (purpose : Purpose) (tombstones : List (Tombstone κ)) :
    FragmentedRangeTombstoneList κ :=
  let s := tombstones.foldl (Sweep.add purpose) ⟨default, [], ⟨[], []⟩⟩
  match s.curEndKeys.getLast? with
  | some lastEndKey => (s.flushCurrentTombstones purpose lastEndKey.userKey).list
  | none => s.list

/-- The order of the internal keys: ascending start keys, descending sequence numbers. -/
def keyLe (a b : Tombstone κ) : Prop := a.startKey < b.startKey ∨ a.startKey = b.startKey ∧ b.seq ≤ a.seq

instance (a b : Tombstone κ) : Decidable (keyLe a b) := inferInstanceAs (Decidable (_ ∨ _))

def isSorted : List (Tombstone κ) → Bool
  | a :: b :: rest => decide (keyLe a b) && isSorted (b :: rest)
  | _ => true

/-- How `VectorIterator` sorts; the order of equal keys is not specified. -/
structure VectorSort (κ : Type) [LinearOrder κ] where
  sort : List (Tombstone κ) → List (Tombstone κ)
  perm : ∀ tombstones, (sort tombstones).Perm tombstones
  sorted : ∀ tombstones, (sort tombstones).Pairwise keyLe

def FragmentedRangeTombstoneList.new [Inhabited κ] (sorting : VectorSort κ) (purpose : Purpose)
    (unfragmented : List (Tombstone κ)) : FragmentedRangeTombstoneList κ :=
  if isSorted unfragmented then fragmentTombstones purpose unfragmented
  else fragmentTombstones purpose (sorting.sort unfragmented)

def FragmentedRangeTombstoneList.seqsOf (list : FragmentedRangeTombstoneList κ) (pos : RangeTombstoneStack κ) :
    List Nat :=
  (list.tombstoneSeqs.drop pos.seqStartIdx).take (pos.seqEndIdx - pos.seqStartIdx)

/-- `SetMaxVisibleSeqAndTimestamp` without timestamps: what stands from the position on. -/
def FragmentedRangeTombstoneList.visible (list : FragmentedRangeTombstoneList κ) (upperBound : Nat)
    (pos : RangeTombstoneStack κ) : List Nat :=
  let seqs := list.seqsOf pos
  seqs.drop (partitionPoint (fun seq => decide (upperBound < seq)) seqs)

def FragmentedRangeTombstoneList.seekToCoveringTombstone (list : FragmentedRangeTombstoneList κ) (target : κ) :
    Option (RangeTombstoneStack κ) :=
  list.tombstones[partitionPoint (fun stack => decide (stack.endKey ≤ target)) list.tombstones]?

def FragmentedRangeTombstoneList.maxCoveringTombstoneSeqnum (list : FragmentedRangeTombstoneList κ) (upperBound : Nat)
    (targetUserKey : κ) : Nat :=
  match list.seekToCoveringTombstone targetUserKey with
  | none => 0
  | some pos =>
    match list.visible upperBound pos with
    | seq :: _ => if pos.startKey ≤ targetUserKey then seq else 0
    | [] => 0

end

end TombstoneModel
