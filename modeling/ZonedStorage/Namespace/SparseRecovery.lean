import Mathlib.Logic.Relation
import ZonedStorage.MetaLog.Records
import ZonedStorage.Namespace.Recovery

namespace ZenFSModel

open ByteString

/-- A device as recovery sees it: what a read of a whole block at a position gives, if it does not fail. -/
structure SparseDevice where
  blockSz : UInt32
  block : Nat → Option Bytes
  header_le : 8 ≤ blockSz.toNat
  block_length : ∀ position buffer, block position = some buffer → buffer.length = blockSz.toNat

structure Recovering where
  extents : List ZoneExtent
  usedCapacity : Nat

namespace SparseDevice

def extentLength (buffer : Bytes) : Nat := valueOf (buffer.take 8)

def recover (s : Recovering) (ext : ZoneExtent) : Recovering where
  extents := s.extents ++ [ext]
  usedCapacity := (s.usedCapacity + ext.length) % 2 ^ 64

def extentAt (position zone length : Nat) : ZoneExtent where
  start := (position + ZenFS.SPARSE_HEADER_SIZE) % 2 ^ 64
  length := length
  zone := zone

/-- Where the segment after one of `extentLength` bytes starts, computed in `uint64_t`. -/
def nextSegment (blockSz start extentLength : Nat) : Nat :=
  let size := (extentLength + ZenFS.SPARSE_HEADER_SIZE) % 2 ^ 64
  let extentBlocks := if size % blockSz ≠ 0 then size / blockSz + 1 else size / blockSz
  (start + extentBlocks * blockSz) % 2 ^ 64

def recoverSegments (dev : SparseDevice) (zone last : Nat) : Nat → Nat → Recovering →
    Option (Except Status Unit × Recovering)
  | 0, _, _ => none
  | rounds + 1, position, s =>
    if position < last then
      match dev.block position with
      | none => some (.error (Status.ioError "Unexpected read error while recovering"), s)
      | some buffer =>
        if extentLength buffer = 0 then
          some (.error (Status.ioError "Unexpected extent length while recovering"), s)
        else
          dev.recoverSegments zone last rounds (nextSegment dev.blockSz.toNat position (extentLength buffer))
            (recover s (extentAt position zone (extentLength buffer)))
    else some (.ok (), s)

def recoverSparseExtents (dev : SparseDevice) (rounds : Nat) (start last : UInt64) (zone : Nat) (s : Recovering) :
    Option (Except Status Unit × Recovering) := dev.recoverSegments zone last.toNat rounds start.toNat s

end SparseDevice

end ZenFSModel

namespace ZenFSProof

open ZenFSModel ZenFSModel.SparseDevice ZenFSModel.ZenMetaLog ByteString List Relation

def Within (start last : Nat) (ext : ZoneExtent) : Prop := start ≤ ext.start ∧ ext.start + ext.length ≤ last

/-- A loop ends after some number of rounds, and has added extents within the bounds only. -/
def EndsWithin (start last : Nat) (s : Recovering) (loop : Nat → Option (Except Status Unit × Recovering)) : Prop :=
  ∃ rounds status s' added, loop rounds = some (status, s') ∧ s'.extents = s.extents ++ added ∧
    ∀ ext ∈ added, Within start last ext

def RecoversWithin (dev : SparseDevice) (start last : UInt64) (zone : Nat) (s : Recovering) : Prop :=
  EndsWithin start.toNat last.toNat s (fun rounds => dev.recoverSparseExtents rounds start last zone s)

/-- The block at a position can be read and begins with the length of a segment. -/
def Announces (dev : SparseDevice) (position length : Nat) : Prop :=
  length ≠ 0 ∧ ∃ buffer, dev.block position = some buffer ∧ extentLength buffer = length

/-- The segment announced at a position takes up all blocks before the next position. -/
def NextHeader (dev : SparseDevice) (last position next : Nat) : Prop :=
  position < last ∧ ∃ length, Announces dev position length ∧
    next = position + alignUp dev.blockSz.toNat (length + ZenFS.SPARSE_HEADER_SIZE)

/-- No header that is come to from the start on announces a segment beyond the end. -/
def NoneTorn (dev : SparseDevice) (start last : Nat) : Prop :=
  ∀ position length, ReflTransGen (NextHeader dev last) start position → position < last →
    Announces dev position length → position + ZenFS.SPARSE_HEADER_SIZE + length ≤ last

section

variable {dev : SparseDevice} {start last zone position length : Nat}

theorem nextSegment_eq (room : last + dev.blockSz.toNat ≤ 2 ^ 64)
    (fits : position + ZenFS.SPARSE_HEADER_SIZE + length ≤ last) :
    nextSegment dev.blockSz.toNat position length =
      position + alignUp dev.blockSz.toNat (length + ZenFS.SPARSE_HEADER_SIZE) := by
  have positive : 0 < dev.blockSz.toNat := Nat.lt_of_lt_of_le (by decide) dev.header_le
  have close := alignUp_lt positive (length + ZenFS.SPARSE_HEADER_SIZE)
  have small : (length + ZenFS.SPARSE_HEADER_SIZE) % 2 ^ 64 = length + ZenFS.SPARSE_HEADER_SIZE :=
    Nat.mod_eq_of_lt (by omega)
  have upper : position + (length + ZenFS.SPARSE_HEADER_SIZE) ≤ last := by omega
  simp only [nextSegment, small]
  generalize length + ZenFS.SPARSE_HEADER_SIZE = size at close upper
  have whole := Nat.div_add_mod' size dev.blockSz.toNat
  have below := Nat.mod_lt size positive
  have blocks : (if size % dev.blockSz.toNat ≠ 0 then size / dev.blockSz.toNat + 1 else size / dev.blockSz.toNat) *
      dev.blockSz.toNat = alignUp dev.blockSz.toNat size := by
    simp only [alignUp]
    split
    · rw [Nat.succ_mul]
      omega
    · omega
  rw [blocks, Nat.mod_eq_of_lt (by omega)]

theorem recoverSegments_announced (inside : position < last) (here : Announces dev position length) (rounds : Nat)
    (s : Recovering) :
    dev.recoverSegments zone last (rounds + 1) position s =
      dev.recoverSegments zone last rounds (nextSegment dev.blockSz.toNat position length)
        (recover s (extentAt position zone length)) := by
  obtain ⟨some_length, buffer, found, rfl⟩ := here
  rw [recoverSegments, if_pos inside]
  simp only [found, if_neg some_length]

theorem recoverSegments_stops (stops : position < last → ∀ length, ¬ Announces dev position length) (rounds : Nat)
    (s : Recovering) : ∃ status, dev.recoverSegments zone last (rounds + 1) position s = some (status, s) := by
  rw [recoverSegments]
  by_cases inside : position < last
  · rw [if_pos inside]
    cases found : dev.block position with
    | none => exact ⟨_, rfl⟩
    | some buffer =>
      have zero : extentLength buffer = 0 := by
        by_contra some_length
        exact stops inside _ ⟨some_length, buffer, found, rfl⟩
      simp only [zero]
      exact ⟨_, rfl⟩
  · rw [if_neg inside]
    exact ⟨_, rfl⟩

theorem recoverSegments_grows {rounds : Nat} {s s' : Recovering} {status : Except Status Unit}
    (done : dev.recoverSegments zone last rounds position s = some (status, s')) :
    ∃ added, s'.extents = s.extents ++ added := by
  induction rounds generalizing position s with
  | zero => cases done
  | succ rounds ih =>
    by_cases goes : position < last ∧ ∃ length, Announces dev position length
    · obtain ⟨inside, length, here⟩ := goes
      rw [recoverSegments_announced inside here] at done
      obtain ⟨added, grown⟩ := ih done
      exact ⟨_, grown.trans (append_assoc _ _ _)⟩
    · obtain ⟨_, stopped⟩ := @recoverSegments_stops dev last zone position (fun inside length here =>
        goes ⟨inside, length, here⟩) rounds s
      rw [stopped] at done
      cases done
      exact ⟨[], (append_nil _).symm⟩

theorem noneTorn_of_recovers (room : last + dev.blockSz.toNat ≤ 2 ^ 64) {rounds : Nat} {s s' : Recovering}
    {status : Except Status Unit} {added : List ZoneExtent}
    (done : dev.recoverSegments zone last rounds position s = some (status, s'))
    (grown : s'.extents = s.extents ++ added) (within : ∀ ext ∈ added, Within start last ext) :
    NoneTorn dev position last := by
  induction rounds generalizing position s added with
  | zero => cases done
  | succ rounds ih =>
    -- A header that is come to now has added an extent, and the loop goes on behind its segment.
    have segment : ∀ length, position < last → Announces dev position length →
        position + ZenFS.SPARSE_HEADER_SIZE + length ≤ last ∧
          NoneTorn dev (nextSegment dev.blockSz.toNat position length) last := by
      intro length inside here
      rw [recoverSegments_announced inside here] at done
      obtain ⟨later, rest⟩ := recoverSegments_grows done
      have split : added = extentAt position zone length :: later := by
        refine append_cancel_left ((grown.symm.trans rest).trans ?_)
        exact append_assoc _ _ _
      rw [split] at within
      refine ⟨?_, ih done rest (fun ext member => within ext (mem_cons_of_mem _ member))⟩
      have upper := (within _ mem_cons_self).2
      have header := dev.header_le
      have eight : ZenFS.SPARSE_HEADER_SIZE = 8 := rfl
      simp only [extentAt, Nat.mod_eq_of_lt (show position + ZenFS.SPARSE_HEADER_SIZE < 2 ^ 64 by omega)] at upper
      exact upper
    intro reached length chain below announced
    rcases chain.cases_head with rfl | ⟨next, ⟨inside, first, here, rfl⟩, onward⟩
    · exact (segment length below announced).1
    · obtain ⟨fits, rest⟩ := segment first inside here
      rw [nextSegment_eq room fits] at rest
      exact rest reached length onward below announced

theorem recovers_of_noneTorn (room : last + dev.blockSz.toNat ≤ 2 ^ 64) (low : start ≤ position)
    (intact : NoneTorn dev position last) (s : Recovering) :
    EndsWithin start last s (fun rounds => dev.recoverSegments zone last rounds position s) := by
  induction gap : last - position using Nat.strong_induction_on generalizing position s with
  | _ _ ih =>
    by_cases goes : position < last ∧ ∃ length, Announces dev position length
    · obtain ⟨inside, length, here⟩ := goes
      have fits := intact position length .refl inside here
      have forward := alignUp_ge dev.blockSz.toNat (length + ZenFS.SPARSE_HEADER_SIZE)
      have header := dev.header_le
      have eight : ZenFS.SPARSE_HEADER_SIZE = 8 := rfl
      have behind : NoneTorn dev (position + alignUp dev.blockSz.toNat (length + ZenFS.SPARSE_HEADER_SIZE)) last :=
        fun reached length' chain => intact reached length' (.head ⟨inside, length, here, rfl⟩ chain)
      obtain ⟨rounds, status, s', added, done, grown, within⟩ :=
        ih _ (by omega) (by omega) behind (recover s (extentAt position zone length)) rfl
      refine ⟨rounds + 1, status, s', extentAt position zone length :: added, ?_, ?_, ?_⟩
      · change dev.recoverSegments zone last (rounds + 1) position s = some (status, s')
        rw [recoverSegments_announced inside here, nextSegment_eq room fits]
        exact done
      · rw [grown]
        exact append_assoc _ _ _
      · intro ext member
        rcases mem_cons.mp member with rfl | later
        · simp only [Within, extentAt, Nat.mod_eq_of_lt (show position + ZenFS.SPARSE_HEADER_SIZE < 2 ^ 64 by omega)]
          omega
        · exact within ext later
    · obtain ⟨status, once⟩ := @recoverSegments_stops dev last zone position (fun inside length here =>
        goes ⟨inside, length, here⟩) 0 s
      exact ⟨1, status, s, [], once, (append_nil _).symm, fun ext none => absurd none not_mem_nil⟩

end

def headersOf (header : Nat → UInt64) : SparseDevice where
  blockSz := 4096
  block position := some (littleEndian 8 (header position).toNat ++ replicate 4088 0)
  header_le := by decide
  block_length := by
    intro position buffer found
    obtain rfl := Option.some.inj found
    rw [length_append, littleEndian_length, length_replicate]
    rfl

theorem headersOf_announces {header : Nat → UInt64} {position length : Nat} :
    Announces (headersOf header) position length ↔ length ≠ 0 ∧ (header position).toNat = length := by
  have stored : extentLength (littleEndian 8 (header position).toNat ++ replicate 4088 0) = (header position).toNat := by
    rw [extentLength, take_left' (littleEndian_length _ _), valueOf_littleEndian_of_lt (header position).toNat_lt]
  refine and_congr_right (fun _ => ⟨?_, fun same => ⟨_, rfl, stored.trans same⟩⟩)
  rintro ⟨_, ⟨⟩, same⟩
  exact stored.symm.trans same

/-- Two segments, of which the first takes two blocks, and nothing behind them. -/
def twoSegments (position : Nat) : UInt64 := if position = 0 then 5000 else if position = 8192 then 100 else 0

end ZenFSProof
