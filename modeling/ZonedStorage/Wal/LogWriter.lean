import ZonedStorage.Coding.Coding
import ZonedStorage.Coding.Crc32c

namespace WalLog

open ByteString ZenFSModel

@[match_pattern] abbrev kZeroType : Nat := 0
@[match_pattern] abbrev kFullType : Nat := 1
@[match_pattern] abbrev kFirstType : Nat := 2
@[match_pattern] abbrev kMiddleType : Nat := 3
@[match_pattern] abbrev kLastType : Nat := 4
@[match_pattern] abbrev kRecyclableFullType : Nat := 5
@[match_pattern] abbrev kRecyclableFirstType : Nat := 6
@[match_pattern] abbrev kRecyclableMiddleType : Nat := 7
@[match_pattern] abbrev kRecyclableLastType : Nat := 8
@[match_pattern] abbrev kSetCompressionType : Nat := 9
@[match_pattern] abbrev kUserDefinedTimestampSizeType : Nat := 10
@[match_pattern] abbrev kRecyclableUserDefinedTimestampSizeType : Nat := 11

def kBlockSize : Nat := 32768

def kHeaderSize : Nat := 4 + 2 + 1

def kRecyclableHeaderSize : Nat := 4 + 2 + 1 + 4

structure LogWriter where
  dest : Bytes
  blockOffset : Nat
  logNumber : UInt64
  recycleLogFiles : Bool

namespace LogWriter

def new (logNumber : UInt64) (recycleLogFiles : Bool) : LogWriter := ⟨[], 0, logNumber, recycleLogFiles⟩

def append (w : LogWriter) (data : Bytes) : LogWriter := { w with dest := w.dest ++ data }

def headerSize (w : LogWriter) : Nat := if w.recycleLogFiles then kRecyclableHeaderSize else kHeaderSize

/-- The first bytes of the header, and for the recyclable types the low half of the log number. -/
def numbered (w : LogWriter) (t : Nat) : Bytes :=
  if t < kRecyclableFullType ∨ t = kSetCompressionType ∨ t = kUserDefinedTimestampSizeType then []
  else littleEndian 4 w.logNumber.toNat

def emitPhysicalRecord [Checksum] (w : LogWriter) (t : Nat) (payload : Bytes) : LogWriter :=
  let n := payload.length
  let typed := Checksum.extend (Checksum.extend 0 [UInt8.ofNat t]) (w.numbered t)
  let crc := Checksum.combine typed (Checksum.extend 0 payload) n
  let buf := littleEndian 4 (Checksum.mask crc) ++ [UInt8.ofNat n, UInt8.ofNat (n >>> 8), UInt8.ofNat t] ++ w.numbered t
  { (w.append buf).append payload with blockOffset := w.blockOffset + (buf.length + n) }

/-- A block that has no room for a header is filled up with zeros. -/
def switchBlock (w : LogWriter) : LogWriter :=
  let leftover := kBlockSize - w.blockOffset
  if leftover < w.headerSize then { w.append (List.replicate leftover 0) with blockOffset := 0 } else w

def avail (w : LogWriter) : Nat := kBlockSize - w.blockOffset - w.headerSize

def fragmentType (w : LogWriter) (begin final : Bool) : Nat :=
  if begin && final then (if w.recycleLogFiles then kRecyclableFullType else kFullType)
  else if begin then (if w.recycleLogFiles then kRecyclableFirstType else kFirstType)
  else if final then (if w.recycleLogFiles then kRecyclableLastType else kLastType)
  else (if w.recycleLogFiles then kRecyclableMiddleType else kMiddleType)

/-- One turn of the loop of `AddRecord`, with what is left of the record. -/
def addFragment [Checksum] (w : LogWriter) (begin : Bool) (left : Bytes) : LogWriter :=
  let w := w.switchBlock
  let fragmentLength := if left.length < w.avail then left.length else w.avail
  w.emitPhysicalRecord (w.fragmentType begin (left.length = fragmentLength)) (left.take fragmentLength)

def rest (w : LogWriter) (left : Bytes) : Bytes := left.drop w.switchBlock.avail

/-- A turn in which the block had only just room for a header takes nothing of the record. -/
def turns (w : LogWriter) (left : Bytes) : Nat := 2 * left.length + if w.switchBlock.avail = 0 then 1 else 0

@[simp] theorem switchBlock_headerSize (w : LogWriter) : w.switchBlock.headerSize = w.headerSize := by
  simp only [switchBlock]
  split <;> rfl

theorem headerSize_le (w : LogWriter) : w.headerSize ≤ 11 := by
  simp only [headerSize, kRecyclableHeaderSize, kHeaderSize]
  split <;> omega

theorem headerSize_pos (w : LogWriter) : 0 < w.headerSize := by
  simp only [headerSize, kRecyclableHeaderSize, kHeaderSize]
  split <;> omega

theorem numbered_fragmentType (w : LogWriter) (begin final : Bool) : w.numbered (w.fragmentType begin final) =
    if w.recycleLogFiles then littleEndian 4 w.logNumber.toNat else [] := by
  obtain ⟨dest, blockOffset, logNumber, recycled⟩ := w
  cases recycled <;> cases begin <;> cases final <;> rfl

theorem numbered_length (w : LogWriter) (begin final : Bool) :
    7 + (w.numbered (w.fragmentType begin final)).length = w.headerSize := by
  rw [numbered_fragmentType, headerSize]
  split
  · rw [littleEndian_length, kRecyclableHeaderSize]
  · rfl

theorem addFragment_headerSize [Checksum] (w : LogWriter) (begin : Bool) (left : Bytes) :
    (w.addFragment begin left).headerSize = w.headerSize :=
  w.switchBlock_headerSize

theorem addFragment_blockOffset [Checksum] (w : LogWriter) (begin : Bool) (left : Bytes)
    (more : w.rest left ≠ []) : kBlockSize ≤ (w.addFragment begin left).blockOffset := by
  have longer : w.switchBlock.avail < left.length := by
    by_contra fits
    exact more (List.drop_eq_nil_of_le (Nat.le_of_not_lt fits))
  have whole : ¬ left.length < w.switchBlock.avail := by omega
  have header := w.switchBlock.numbered_length begin (left.length = w.switchBlock.avail)
  have taken : (left.take w.switchBlock.avail).length = w.switchBlock.avail := by
    rw [List.length_take]
    omega
  simp only [addFragment, if_neg whole, emitPhysicalRecord, append, List.length_append, littleEndian_length,
    List.length_cons, List.length_nil, taken]
  simp only [avail] at *
  omega

theorem turns_decrease [Checksum] (w : LogWriter) (begin : Bool) (left : Bytes) (more : w.rest left ≠ []) :
    (w.addFragment begin left).turns (w.rest left) < w.turns left := by
  have full := w.addFragment_blockOffset begin left more
  have small := w.headerSize_le
  have positive := w.headerSize_pos
  have emptied : (w.addFragment begin left).switchBlock.avail = kBlockSize - w.headerSize := by
    have short : kBlockSize - (w.addFragment begin left).blockOffset < (w.addFragment begin left).headerSize := by
      rw [addFragment_headerSize]
      omega
    rw [avail, switchBlock_headerSize, addFragment_headerSize, switchBlock]
    simp only [if_pos short, Nat.sub_zero]
  have longer : w.switchBlock.avail < left.length := by
    by_contra fits
    exact more (List.drop_eq_nil_of_le (Nat.le_of_not_lt fits))
  have block : kBlockSize = 32768 := rfl
  have roomy : kBlockSize - w.headerSize ≠ 0 := by omega
  rw [turns, turns, emptied, if_neg roomy, rest, List.length_drop]
  split <;> omega

def addRecordLoop [Checksum] (w : LogWriter) (begin : Bool) (left : Bytes) : LogWriter :=
  if w.rest left = [] then w.addFragment begin left
  else (w.addFragment begin left).addRecordLoop false (w.rest left)
termination_by w.turns left
decreasing_by
  rename_i more
  exact w.turns_decrease begin left more

def addRecord [Checksum] (w : LogWriter) (slice : Bytes) : LogWriter := w.addRecordLoop true slice

def addRecords [Checksum] (w : LogWriter) (slices : List Bytes) : LogWriter := slices.foldl addRecord w

end LogWriter

end WalLog
