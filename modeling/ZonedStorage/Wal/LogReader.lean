import ZonedStorage.Tables.Table
import ZonedStorage.Wal.LogWriter

namespace WalLog

open ByteString KeyedTable ZenFSModel

@[match_pattern] abbrev kEof : Nat := 12
@[match_pattern] abbrev kBadRecord : Nat := 13
@[match_pattern] abbrev kBadHeader : Nat := 14
@[match_pattern] abbrev kOldRecord : Nat := 15
@[match_pattern] abbrev kBadRecordLen : Nat := 16
@[match_pattern] abbrev kBadRecordChecksum : Nat := 17

inductive WALRecoveryMode where
  | kTolerateCorruptedTailRecords
  | kAbsoluteConsistency
  | kPointInTimeRecovery
  | kSkipAnyCorruptedRecords
  deriving DecidableEq

/-- What is left of a file, and how many reads succeed before one fails, if one does. -/
structure SequentialFile where
  unread : Bytes
  failIn : Option Nat

def SequentialFile.read (file : SequentialFile) (n : Nat) : Option (Bytes × SequentialFile) :=
  match file.failIn with
  | some 0 => none
  | left => some (file.unread.take n, ⟨file.unread.drop n, left.map (· - 1)⟩)

inductive Reason where
  | corruption (text : String)
  | ioError
  deriving DecidableEq

/-- A reader in a build without ZSTD: there is nothing to uncompress. -/
structure LogReader where
  file : SequentialFile
  checksum : Bool
  buffer : Bytes
  eof : Bool
  readError : Bool
  eofOffset : Nat
  lastRecordOffset : Nat
  endOfBufferOffset : Nat
  logNumber : UInt64
  recycled : Bool
  firstRecordRead : Bool
  compressionTypeRecordRead : Bool
  recordedCfToTsSz : Table Nat Nat
  reports : List (Nat × Reason)

structure Physical where
  type : Nat
  fragment : Bytes
  dropSize : Nat

namespace LogReader

def new (file : SequentialFile) (checksum : Bool) (logNum : UInt64) : LogReader :=
  ⟨file, checksum, [], false, false, 0, 0, 0, logNum, false, false, false, ∅, []⟩

def reportDrop (r : LogReader) (bytes : Nat) (reason : Reason) : LogReader :=
    { r with reports := r.reports ++ [(bytes, reason)] }

def reportCorruption (r : LogReader) (bytes : Nat) (reason : String) : LogReader := r.reportDrop bytes
    (.corruption reason)

def reportIf (r : LogReader) (condition : Bool) (bytes : Nat) (reason : String) : LogReader :=
  if condition then r.reportCorruption bytes reason else r

/-- `*error` and `*drop_size` where `ReadMore` returns false. -/
def readMore (r : LogReader) : Except Physical Unit × LogReader :=
  if !r.eof && !r.readError then
    match r.file.read kBlockSize with
    | none => (.error ⟨kEof, [], 0⟩, { { r with buffer := [] }.reportDrop kBlockSize .ioError with readError := true })
    | some (data, file) =>
      let r := { r with file := file, buffer := data, endOfBufferOffset := r.endOfBufferOffset + data.length }
      (.ok (), if data.length < kBlockSize then { r with eof := true, eofOffset := data.length } else r)
  else if r.buffer.length ≠ 0 then (.error ⟨kBadHeader, [], r.buffer.length⟩, { r with buffer := [] })
  else (.error ⟨kEof, [], 0⟩, { r with buffer := [] })

/-- The type is a signed character that has been converted to an unsigned integer. -/
def headerType (header : Bytes) : Nat :=
  let byte := (header.getD 6 0).toNat
  if byte < 128 then byte else 2 ^ 32 - 256 + byte

def headerLength (header : Bytes) : Nat := (header.getD 4 0).toNat ||| ((header.getD 5 0).toNat <<< 8)

def isRecyclableType (type : Nat) : Bool :=
  (kRecyclableFullType ≤ type && type ≤ kRecyclableLastType) || type == kRecyclableUserDefinedTimestampSizeType

def headerSize (header : Bytes) : Nat :=
  if isRecyclableType (headerType header) then kRecyclableHeaderSize else kHeaderSize

def wantsMore (r : LogReader) : Bool :=
  r.buffer.length < kHeaderSize || (isRecyclableType (headerType r.buffer) && r.buffer.length < kRecyclableHeaderSize)

def noteRecycled (r : LogReader) : LogReader :=
  if kHeaderSize ≤ r.buffer.length && isRecyclableType (headerType r.buffer) && r.endOfBufferOffset - r.buffer.length == 0 then
    { r with recycled := true }
  else r

/-- The rest of a turn of the loop of `ReadPhysicalRecord`, once the header is in the buffer. -/
def parseRecord [Checksum] (r : LogReader) : Physical × LogReader :=
  let header := r.buffer
  let type := headerType header
  let size := headerSize header + headerLength header
  if size > r.buffer.length then (⟨kBadRecordLen, [], r.buffer.length⟩, { r with buffer := [] })
  else if isRecyclableType type && valueOf ((header.drop 7).take 4) != r.logNumber.toNat then
    (⟨kOldRecord, [], 0⟩, { r with buffer := r.buffer.drop size })
  else if type == kZeroType && headerLength header == 0 then (⟨kBadRecord, [], 0⟩, { r with buffer := [] })
  else if r.checksum && Checksum.extend 0 ((header.drop 6).take (size - 6)) !=
      Checksum.unmask (valueOf (header.take 4)) then
    (⟨kBadRecordChecksum, [], r.buffer.length⟩, { r with buffer := [] })
  else
    (⟨type, (header.drop (headerSize header)).take (headerLength header), 0⟩, { r with buffer := r.buffer.drop size })

/-- The bytes of the file that have not been read, and whether the end has not been seen. -/
def ahead (r : LogReader) : Nat := r.file.unread.length + if r.eof || r.readError then 0 else 1

theorem noteRecycled_same (r : LogReader) : r.noteRecycled = { r with recycled := r.noteRecycled.recycled } := by
  simp only [noteRecycled]
  split <;> rfl

variable {r r' : LogReader} {locals locals' : Locals} {offset : Nat}

theorem readMore_ahead (more : r.readMore = (.ok (), r')) :
    r'.ahead + r'.buffer.length ≤ r.ahead ∧ r'.ahead < r.ahead := by
  have block : kBlockSize = 32768 := rfl
  simp only [readMore] at more
  split at more
  · rename_i open_file
    simp only [Bool.and_eq_true, Bool.not_eq_true'] at open_file
    split at more
    · cases more
    · rename_i data file read
      simp only [SequentialFile.read] at read
      split at read
      · cases read
      · simp only [Option.some.injEq, Prod.mk.injEq] at read
        obtain ⟨rfl, rfl⟩ := read
        simp only [Prod.mk.injEq, true_and] at more
        subst more
        split
        · rename_i short
          simp only [List.length_take] at short
          simp only [ahead, open_file, List.length_drop, List.length_take, Bool.true_or, Bool.or_self, if_true,
            Bool.false_eq_true, if_false]
          omega
        · rename_i full
          simp only [List.length_take] at full
          simp only [ahead, open_file, List.length_drop, List.length_take, Bool.or_self, Bool.false_eq_true, if_false]
          omega
  · split at more <;> cases more

set_option linter.unusedVariables false in
def readPhysicalRecord [Checksum] (r : LogReader) : Physical × LogReader :=
  if r.wantsMore then
    match more : r.noteRecycled.readMore with
    | (.error physical, r') => (physical, r')
    | (.ok (), r') => r'.readPhysicalRecord
  else r.noteRecycled.parseRecord
termination_by r.ahead
decreasing_by
  have smaller := (readMore_ahead more).2
  rw [noteRecycled_same] at smaller
  exact smaller

structure Locals where
  inFragmentedRecord : Bool
  prospectiveRecordOffset : Nat
  scratch : Bytes

inductive Verdict where
  | found (record : Bytes) (r : LogReader)
  | stopped (r : LogReader)
  | again (locals : Locals) (r : LogReader)

def strict (mode : WALRecoveryMode) : Bool := mode == .kAbsoluteConsistency || mode == .kPointInTimeRecovery

def atEof (mode : WALRecoveryMode) (locals : Locals) (r : LogReader) : Verdict :=
  .stopped (r.reportIf (locals.inFragmentedRecord && strict mode) locals.scratch.length "error reading trailing data")

def giveUp (locals : Locals) (r : LogReader) : Verdict :=
  if locals.inFragmentedRecord then
    .again { locals with inFragmentedRecord := false, scratch := [] }
      (r.reportCorruption locals.scratch.length "error in middle of record")
  else .again locals r

def badChecksum (mode : WALRecoveryMode) (locals : Locals) (dropSize : Nat) (reason : String) (r : LogReader) :
    Verdict :=
  if r.recycled && mode == .kTolerateCorruptedTailRecords then .stopped r
  else giveUp locals (r.reportCorruption dropSize reason)

def setCompressionType (locals : Locals) (offset : Nat) (fragment : Bytes) (r : LogReader) : Verdict :=
  let r := r.reportIf r.compressionTypeRecordRead fragment.length "read multiple SetCompressionType records"
  let r := r.reportIf r.firstRecordRead fragment.length "SetCompressionType not the first record"
  let r := { r with lastRecordOffset := offset }
  let locals := { locals with prospectiveRecordOffset := offset, scratch := [] }
  match getFixed32 fragment with
  | none => .again locals (r.reportCorruption fragment.length "could not decode SetCompressionType record")
  | some (value, left) =>
    .again locals ({ r with compressionTypeRecordRead := r.compressionTypeRecordRead || value % 256 == 0 }.reportIf
      (value % 256 != 0) left.length "could not decode SetCompressionType record")

def decodeTimestampSizes : Nat → Bytes → List (Nat × Nat)
  | 0, _ => []
  | n + 1, src => (valueOf (src.take 4), valueOf ((src.drop 4).take 2)) :: decodeTimestampSizes n (src.drop 6)

/-- The text is that of the status where it is not OK. -/
def updateRecordedTimestampSize (recorded : Table Nat Nat) : List (Nat × Nat) → Option String × Table Nat Nat
  | [] => (none, recorded)
  | (cf, tsSz) :: rest =>
    if tsSz = 0 then (some "User-defined timestamp size record contains zero timestamp size.", recorded)
    else if (recorded.lookup cf).isSome then
      (some "User-defined timestamp size record contains update to recorded column family.", recorded)
    else updateRecordedTimestampSize (recorded.insert cf tsSz) rest

def userDefinedTimestampSize (locals : Locals) (offset : Nat) (fragment : Bytes) (r : LogReader) : Verdict :=
  let r := r.reportIf (locals.inFragmentedRecord && locals.scratch.length != 0) locals.scratch.length
    "user-defined timestamp size record interspersed partial record"
  let r := { r with lastRecordOffset := offset }
  let locals := { locals with prospectiveRecordOffset := offset, scratch := [] }
  if fragment.length % 6 ≠ 0 then
    .again locals (r.reportCorruption fragment.length "could not decode user-defined timestamp size record")
  else
    let (status, recorded) :=
      updateRecordedTimestampSize r.recordedCfToTsSz (decodeTimestampSizes (fragment.length / 6) fragment)
    .again locals ({ r with recordedCfToTsSz := recorded }.reportIf status.isSome 0 (status.getD ""))

def judge (mode : WALRecoveryMode) (locals : Locals) (offset : Nat) (physical : Physical) (r : LogReader) : Verdict :=
  let fragment := physical.fragment
  let open_record := locals.inFragmentedRecord && locals.scratch.length != 0
  match physical.type with
  | kFullType | kRecyclableFullType =>
    .found fragment { r.reportIf open_record locals.scratch.length "partial record without end(1)" with
      lastRecordOffset := offset, firstRecordRead := true }
  | kFirstType | kRecyclableFirstType =>
    .again ⟨true, offset, fragment⟩ (r.reportIf open_record locals.scratch.length "partial record without end(2)")
  | kMiddleType | kRecyclableMiddleType =>
    if locals.inFragmentedRecord then .again { locals with scratch := locals.scratch ++ fragment } r
    else .again locals (r.reportCorruption fragment.length "missing start of fragmented record(1)")
  | kLastType | kRecyclableLastType =>
    if locals.inFragmentedRecord then
      .found (locals.scratch ++ fragment)
        { r with lastRecordOffset := locals.prospectiveRecordOffset, firstRecordRead := true }
    else .again locals (r.reportCorruption fragment.length "missing start of fragmented record(2)")
  | kSetCompressionType => setCompressionType locals offset fragment r
  | kUserDefinedTimestampSizeType | kRecyclableUserDefinedTimestampSizeType =>
    userDefinedTimestampSize locals offset fragment r
  | kBadHeader => atEof mode locals (r.reportIf (strict mode) physical.dropSize "truncated header")
  | kEof => atEof mode locals r
  | kOldRecord => if mode = .kSkipAnyCorruptedRecords then giveUp locals r else atEof mode locals r
  | kBadRecord => giveUp locals r
  | kBadRecordLen =>
    if r.eof then .stopped (r.reportIf (strict mode) physical.dropSize "truncated record body")
    else badChecksum mode locals physical.dropSize "bad record length" r
  | kBadRecordChecksum => badChecksum mode locals physical.dropSize "checksum mismatch" r
  | type =>
    .again { locals with inFragmentedRecord := false, scratch := [] } (r.reportCorruption
      (fragment.length + if locals.inFragmentedRecord then locals.scratch.length else 0)
      ("unknown record type " ++ toString type))

def remaining (r : LogReader) : Nat := r.ahead + r.buffer.length

theorem parseRecord_remaining [Checksum] (header : kHeaderSize ≤ r.buffer.length) :
    r.parseRecord.2.remaining < r.remaining := by
  have seven : kHeaderSize = 7 := rfl
  have eleven : kRecyclableHeaderSize = 11 := rfl
  have fewer : ∀ left : Bytes, left.length < r.buffer.length →
      ({ r with buffer := left } : LogReader).remaining < r.remaining := by
    intro left shorter
    simp only [remaining, ahead]
    omega
  have cut : ∀ k, 7 ≤ k → (r.buffer.drop k).length < r.buffer.length := by
    intro k long
    rw [List.length_drop]
    omega
  have none_left : ([] : Bytes).length < r.buffer.length := by
    rw [List.length_nil]
    omega
  have whole : 7 ≤ headerSize r.buffer + headerLength r.buffer := by
    rw [headerSize]
    split <;> omega
  simp only [parseRecord]
  split
  · exact fewer _ none_left
  · split
    · exact fewer _ (cut _ whole)
    · split
      · exact fewer _ none_left
      · split
        · exact fewer _ none_left
        · exact fewer _ (cut _ whole)

theorem readMore_error {physical : Physical} (failed : r.readMore = (.error physical, r')) :
    physical.type = kEof ∨ physical.type = kBadHeader := by
  simp only [readMore] at failed
  split at failed
  · split at failed
    · cases failed
      exact Or.inl rfl
    · cases failed
  · split at failed <;> cases failed
    · exact Or.inr rfl
    · exact Or.inl rfl

theorem readPhysicalRecord_more [Checksum] (wants : r.wantsMore = true)
    (more : r.noteRecycled.readMore = (.ok (), r')) : r.readPhysicalRecord = r'.readPhysicalRecord := by
  rw [readPhysicalRecord, if_pos wants]
  split <;> rename_i same <;> rw [more] at same <;> cases same
  rfl

theorem readPhysicalRecord_end [Checksum] {physical : Physical} (wants : r.wantsMore = true)
    (ended : r.noteRecycled.readMore = (.error physical, r')) : r.readPhysicalRecord = (physical, r') := by
  rw [readPhysicalRecord, if_pos wants]
  split <;> rename_i same <;> rw [ended] at same <;> cases same
  rfl

theorem readPhysicalRecord_remaining [Checksum] (r : LogReader) :
    r.readPhysicalRecord.1.type = kEof ∨ r.readPhysicalRecord.1.type = kBadHeader ∨
      r.readPhysicalRecord.2.remaining < r.remaining := by
  induction r using readPhysicalRecord.induct with
  | case1 r wants physical r' more =>
    rw [readPhysicalRecord_end wants more]
    exact (readMore_error more).imp_right Or.inl
  | case2 r wants r' more ih =>
    rw [readPhysicalRecord_more wants more]
    refine ih.imp_right (Or.imp_right (fun fewer => Nat.lt_of_lt_of_le fewer ?_))
    have smaller := (readMore_ahead more).1
    rw [noteRecycled_same] at smaller
    exact Nat.le_trans smaller (Nat.le_add_right _ _)
  | case3 r complete =>
    refine Or.inr (Or.inr ?_)
    rw [readPhysicalRecord, if_neg complete]
    have header : kHeaderSize ≤ r.noteRecycled.buffer.length := by
      rw [noteRecycled_same]
      simp only [wantsMore, Bool.or_eq_true, decide_eq_true_eq, not_or] at complete
      exact Nat.le_of_not_lt complete.1
    have fewer := parseRecord_remaining header
    nth_rewrite 2 [noteRecycled_same] at fewer
    exact fewer

theorem reportIf_remaining (r : LogReader) (condition : Bool) (bytes : Nat) (reason : String) :
    (r.reportIf condition bytes reason).remaining = r.remaining := by
  rw [reportIf]
  split <;> rfl

theorem giveUp_again (again : giveUp locals r = .again locals' r') : r'.remaining = r.remaining := by
  rw [giveUp] at again
  split at again <;> cases again <;> rfl

theorem badChecksum_again {mode : WALRecoveryMode} {dropSize : Nat} {reason : String}
    (again : badChecksum mode locals dropSize reason r = .again locals' r') :
    r'.remaining = r.remaining := by
  rw [badChecksum] at again
  split at again
  · cases again
  · rw [giveUp_again again]
    rfl

theorem setCompressionType_again {fragment : Bytes}
    (again : setCompressionType locals offset fragment r = .again locals' r') : r'.remaining = r.remaining := by
  have noted : ((r.reportIf r.compressionTypeRecordRead fragment.length
      "read multiple SetCompressionType records").reportIf
      (r.reportIf r.compressionTypeRecordRead fragment.length "read multiple SetCompressionType records").firstRecordRead
      fragment.length "SetCompressionType not the first record").remaining = r.remaining := by
    rw [reportIf_remaining, reportIf_remaining]
  simp only [setCompressionType] at again
  split at again <;> cases again
  · exact noted
  · rw [reportIf_remaining]
    exact noted

theorem userDefinedTimestampSize_again {fragment : Bytes}
    (again : userDefinedTimestampSize locals offset fragment r = .again locals' r') :
    r'.remaining = r.remaining := by
  have noted := r.reportIf_remaining (locals.inFragmentedRecord && locals.scratch.length != 0) locals.scratch.length
    "user-defined timestamp size record interspersed partial record"
  simp only [userDefinedTimestampSize] at again
  split at again <;> cases again
  · exact noted
  · rw [reportIf_remaining]
    exact noted

theorem judge_again {mode : WALRecoveryMode} {physical : Physical}
    (again : judge mode locals offset physical r = .again locals' r') :
    r'.remaining = r.remaining ∧ physical.type ≠ kEof ∧ physical.type ≠ kBadHeader := by
  have inside : physical.type ≠ kEof := by
    intro ended
    simp only [judge, ended, atEof] at again
    cases again
  have header : physical.type ≠ kBadHeader := by
    intro ended
    simp only [judge, ended, atEof] at again
    cases again
  refine ⟨?_, inside, header⟩
  simp only [judge] at again
  split at again
  case h_1 | h_2 | h_12 | h_13 => cases again
  case h_3 | h_4 =>
    cases again
    exact r.reportIf_remaining ..
  case h_5 | h_6 => split at again <;> cases again <;> rfl
  case h_7 | h_8 =>
    split at again <;> cases again
    rfl
  case h_9 => exact setCompressionType_again again
  case h_10 | h_11 => exact userDefinedTimestampSize_again again
  case h_14 =>
    split at again
    · exact giveUp_again again
    · cases again
  case h_15 => exact giveUp_again again
  case h_16 =>
    split at again
    · cases again
    · exact badChecksum_again again
  case h_17 => exact badChecksum_again again
  case h_18 =>
    cases again
    rfl

set_option linter.unusedVariables false in
/-- What `ReadRecord` returns: the record, or nothing where it returns false. -/
def readRecordLoop [Checksum] (mode : WALRecoveryMode) (locals : Locals) (r : LogReader) : Option Bytes × LogReader :=
  match verdict : judge mode locals (r.endOfBufferOffset - r.buffer.length) r.readPhysicalRecord.1 r.readPhysicalRecord.2 with
  | .found record r' => (some record, r')
  | .stopped r' => (none, r')
  | .again locals' r' => readRecordLoop mode locals' r'
termination_by r.remaining
decreasing_by
  obtain ⟨same, inside, header⟩ := judge_again verdict
  rw [same]
  exact ((readPhysicalRecord_remaining r).resolve_left inside).resolve_left header

def readRecord [Checksum] (mode : WALRecoveryMode) (r : LogReader) : Option Bytes × LogReader :=
  readRecordLoop mode ⟨false, 0, []⟩ r

end LogReader

end WalLog
