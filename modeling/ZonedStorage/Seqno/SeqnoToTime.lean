import Mathlib.Data.List.Basic
import ZonedStorage.Search.PartitionPoint

namespace SeqnoModel

open Search List

structure SeqnoTimePair where
  seqno : UInt64
  time : UInt64
  deriving DecidableEq

def UINT64_MAX : UInt64 := 0xffffffffffffffff

def kUnknownTimeBeforeAll : UInt64 := 0

def kUnknownSeqnoBeforeAll : UInt64 := 0

namespace SeqnoTimePair

def merge (pair other : SeqnoTimePair) : Option SeqnoTimePair :=
  if pair.seqno = other.seqno then
    some { pair with time := if other.time < pair.time then other.time else pair.time }
  else if pair.time = other.time then
    some { pair with seqno := if pair.seqno < other.seqno then other.seqno else pair.seqno }
  else if other.time < pair.time then some other
  else none

def le (a b : SeqnoTimePair) : Bool := a.seqno < b.seqno || (a.seqno = b.seqno && a.time ≤ b.time)

end SeqnoTimePair

structure SeqnoToTimeMapping where
  maxTimeSpan : UInt64
  capacity : UInt64
  pairs : List SeqnoTimePair
  enforced : Bool
  deriving DecidableEq

structure RemovalCandidate where
  newTimeGap : UInt64
  position : Nat
  deriving DecidableEq

namespace SeqnoToTimeMapping

def new : SeqnoToTimeMapping := ⟨UINT64_MAX, UINT64_MAX, [], true⟩

/-- The loop of `SortAndMerge` over sorted entries, the first of which is at `to_it`. -/
def mergeFrom (entry : SeqnoTimePair) : List SeqnoTimePair → List SeqnoTimePair
  | [] => [entry]
  | pair :: rest =>
    match entry.merge pair with
    | some merged => mergeFrom merged rest
    | none => entry :: mergeFrom pair rest

def mergeSorted : List SeqnoTimePair → List SeqnoTimePair
  | [] => []
  | first :: rest => mergeFrom first rest

def sortAndMerge (m : SeqnoToTimeMapping) : SeqnoToTimeMapping :=
  { m with pairs := mergeSorted (m.pairs.mergeSort SeqnoTimePair.le), enforced := true }

def dropBefore (cutoffTime : UInt64) : List SeqnoTimePair → List SeqnoTimePair
  | first :: second :: rest =>
    if first.time ≤ cutoffTime ∧ second.time ≤ cutoffTime then dropBefore cutoffTime (second :: rest)
    else first :: second :: rest
  | pairs => pairs

def enforceMaxTimeSpan (m : SeqnoToTimeMapping) (now : UInt64) : SeqnoToTimeMapping :=
  if m.pairs.length ≤ 1 then m
  else
    let newest := if 0 < now then now else (m.pairs.getLast?.map SeqnoTimePair.time).getD 0
    if newest < m.maxTimeSpan then m
    else { m with pairs := dropBefore (newest - m.maxTimeSpan) m.pairs }

/-- The candidates for removal are the entries that are neither the first nor the last. -/
def removalCandidates : Nat → List SeqnoTimePair → List RemovalCandidate
  | position, before :: it :: after :: rest =>
    ⟨after.time - before.time, position + 1⟩ :: removalCandidates (position + 1) (it :: after :: rest)
  | _, _ => []

def seqnoAt (pairs : List SeqnoTimePair) (position : Nat) : UInt64 :=
  (pairs[position]?.map SeqnoTimePair.seqno).getD 0

/-- A candidate that is removed before another: the one with the smaller gap, then the older one. -/
def precedes (pairs : List SeqnoTimePair) (a b : RemovalCandidate) : Bool :=
  if a.newTimeGap = b.newTimeGap then seqnoAt pairs a.position < seqnoAt pairs b.position
  else a.newTimeGap < b.newTimeGap

def best (pairs : List SeqnoTimePair) : List RemovalCandidate → Option RemovalCandidate
  | [] => none
  | first :: rest => some (rest.foldl (fun top rc => if precedes pairs rc top then rc else top) first)

/-- The gap that a removal leaves between its neighbours that are not marked for deletion. -/
def actualGap (pairs : List SeqnoTimePair) (position : Nat) : UInt64 :=
  let marked (pair : SeqnoTimePair) : Bool := pair.time = kUnknownTimeBeforeAll
  let afterTime := (((pairs.drop (position + 1)).find? (fun pair => !marked pair)).map SeqnoTimePair.time).getD 0
  let beforeTime := (((pairs.take position).reverse.find? (fun pair => !marked pair)).map SeqnoTimePair.time).getD 0
  afterTime - beforeTime

def mark (pairs : List SeqnoTimePair) (position : Nat) : List SeqnoTimePair :=
  pairs.modify position (fun pair => { pair with time := kUnknownTimeBeforeAll })

/-- A candidate whose gap has grown since it was put in the queue. -/
def stale (pairs : List SeqnoTimePair) (rc : RemovalCandidate) : Bool :=
  rc.newTimeGap ≠ actualGap pairs rc.position

theorem best_mem {pairs : List SeqnoTimePair} {pq : List RemovalCandidate} {rc : RemovalCandidate}
    (top : best pairs pq = some rc) : rc ∈ pq := by
  cases pq with
  | nil => cases top
  | cons first rest =>
    have kept : ∀ (rest : List RemovalCandidate) (start : RemovalCandidate),
        rest.foldl (fun top rc => if precedes pairs rc top then rc else top) start ∈ start :: rest := by
      intro rest
      induction rest with
      | nil => exact fun start => mem_cons_self
      | cons next rest ih =>
        intro start
        rw [foldl_cons]
        rcases mem_cons.mp (ih (if precedes pairs next start then next else start)) with same | later
        · rw [same]
          split
          · exact mem_cons_of_mem _ mem_cons_self
          · exact mem_cons_self
        · exact mem_cons_of_mem _ (mem_cons_of_mem _ later)
    rw [← Option.some.inj top]
    exact kept rest first

theorem countP_stale_lt {pairs : List SeqnoTimePair} {pq : List RemovalCandidate} {rc : RemovalCandidate}
    (top : best pairs pq = some rc) (outdated : rc.newTimeGap ≠ actualGap pairs rc.position) :
    (⟨actualGap pairs rc.position, rc.position⟩ :: pq.erase rc).countP (stale pairs) < pq.countP (stale pairs) := by
  have old : stale pairs rc = true := decide_eq_true outdated
  have fresh : stale pairs ⟨actualGap pairs rc.position, rc.position⟩ = false := by
    simp only [stale, ne_eq, not_true_eq_false, decide_false]
  have split := (perm_cons_erase (best_mem top)).countP_eq (stale pairs)
  rw [split, countP_cons, countP_cons, old, fresh]
  simp

/-- The greedy removal. It marks the entries it removes with the time 0. -/
def removeBest (pairs : List SeqnoTimePair) (pq : List RemovalCandidate) : Nat → List SeqnoTimePair
  | 0 => pairs
  | toRemoveCount + 1 =>
    match top : best pairs pq with
    | none => pairs
    | some rc =>
      if gap : rc.newTimeGap = actualGap pairs rc.position then
        removeBest (mark pairs rc.position) (pq.erase rc) toRemoveCount
      else removeBest pairs (⟨actualGap pairs rc.position, rc.position⟩ :: pq.erase rc) (toRemoveCount + 1)
termination_by toRemoveCount => (toRemoveCount, pq.countP (stale pairs))
decreasing_by
  · exact Prod.Lex.left _ _ (Nat.lt_succ_self _)
  · exact Prod.Lex.right _ (countP_stale_lt top gap)

def strictCap (m : SeqnoToTimeMapping) : UInt64 := if m.capacity = 1 then 2 else m.capacity

def effectiveCap (m : SeqnoToTimeMapping) (strict : Bool) : UInt64 :=
  let cap := m.strictCap + (if strict then 0 else m.strictCap / 8)
  if cap < m.strictCap then UINT64_MAX else cap

def enforceCapacity (m : SeqnoToTimeMapping) (strict : Bool) : SeqnoToTimeMapping :=
  if m.capacity = 0 then { m with pairs := [] }
  else if m.pairs.length ≤ (m.effectiveCap strict).toNat then m
  else
    let toRemoveCount := m.pairs.length - m.strictCap.toNat
    let marked := removeBest m.pairs (removalCandidates 0 m.pairs) toRemoveCount
    { m with pairs := marked.filter (fun pair => pair.time ≠ kUnknownTimeBeforeAll) }

def setMaxTimeSpan (m : SeqnoToTimeMapping) (maxTimeSpan : UInt64) : SeqnoToTimeMapping :=
  let m := { m with maxTimeSpan := maxTimeSpan }
  if m.enforced then m.enforceMaxTimeSpan 0 else m

def setCapacity (m : SeqnoToTimeMapping) (capacity : UInt64) : SeqnoToTimeMapping :=
  let m := { m with capacity := capacity }
  if m.enforced then m.enforceCapacity true else m

def enforce (m : SeqnoToTimeMapping) (now : UInt64) : SeqnoToTimeMapping :=
  let m := if !m.enforced then m.sortAndMerge.enforceMaxTimeSpan now
    else if 0 < now then m.enforceMaxTimeSpan now
    else m
  m.enforceCapacity true

def addUnenforced (m : SeqnoToTimeMapping) (seqno time : UInt64) : SeqnoToTimeMapping :=
  if seqno = 0 then m else { m with enforced := false, pairs := m.pairs ++ [⟨seqno, time⟩] }

def appended (m : SeqnoToTimeMapping) : SeqnoToTimeMapping :=
  let m := if !m.enforced then m.sortAndMerge else m
  (m.enforceMaxTimeSpan 0).enforceCapacity false

def append (m : SeqnoToTimeMapping) (seqno time : UInt64) : Bool × SeqnoToTimeMapping :=
  if m.capacity = 0 then (false, m)
  else if seqno = 0 then (false, m.appended)
  else
    match m.pairs.getLast? with
    | none => (true, { m with enforced := true, pairs := [⟨seqno, time⟩] })
    | some last =>
      let pushed : SeqnoToTimeMapping := { m with pairs := m.pairs ++ [⟨seqno, time⟩] }
      if last.seqno ≤ seqno then
        match last.merge ⟨seqno, time⟩ with
        | some merged => (false, appended { m with pairs := m.pairs.dropLast ++ [merged] })
        | none =>
          if m.enforced && (seqno ≤ last.seqno || time ≤ last.time) then (false, m.appended)
          else (true, pushed.appended)
      else if !m.enforced then (true, pushed.appended)
      else (false, m.appended)

def findGreaterTime (m : SeqnoToTimeMapping) (time : UInt64) : Nat :=
  partitionPoint (fun pair => !decide (time < pair.time)) m.pairs

def findGreaterEqSeqno (m : SeqnoToTimeMapping) (seqno : UInt64) : Nat :=
  partitionPoint (fun pair => decide (pair.seqno < seqno)) m.pairs

def getProximalTimeBeforeSeqno (m : SeqnoToTimeMapping) (seqno : UInt64) : UInt64 :=
  match m.findGreaterEqSeqno seqno with
  | 0 => kUnknownTimeBeforeAll
  | it + 1 => (m.pairs[it]?.map SeqnoTimePair.time).getD 0

def getProximalSeqnoBeforeTime (m : SeqnoToTimeMapping) (time : UInt64) : UInt64 :=
  match m.findGreaterTime time with
  | 0 => kUnknownSeqnoBeforeAll
  | it + 1 => (m.pairs[it]?.map SeqnoTimePair.seqno).getD 0

end SeqnoToTimeMapping

end SeqnoModel
