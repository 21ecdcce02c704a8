import ZonedStorage.Wal.RoundTrip

namespace WalProof

open ByteString WalLog WalLog.LogReader ZenFSModel List

theorem headerType_take (header : Bytes) {k : Nat} (enough : 7 ≤ k) : headerType
    (header.take k) = headerType header := by
  have kept : (header.take k).getD 6 0 = header.getD 6 0 := by
    rw [getD_eq_getElem?_getD, getD_eq_getElem?_getD, getElem?_take_of_lt (by omega)]
  rw [headerType, headerType, kept]

theorem headerLength_take (header : Bytes) {k : Nat} (enough : 7 ≤ k) :
    headerLength (header.take k) = headerLength header := by
  have low : (header.take k).getD 4 0 = header.getD 4 0 := by
    rw [getD_eq_getElem?_getD, getD_eq_getElem?_getD, getElem?_take_of_lt (by omega)]
  have high : (header.take k).getD 5 0 = header.getD 5 0 := by
    rw [getD_eq_getElem?_getD, getD_eq_getElem?_getD, getElem?_take_of_lt (by omega)]
  rw [headerLength, headerLength, low, high]

section

variable [Checksum] {w w' : LogWriter} {begin : Bool} {left out s payload : Bytes} {locals : Locals} {r : LogReader} {t k : Nat}

def CutOff (physical : Physical) (r : LogReader) : Prop :=
  physical.type = kEof ∨ physical.type = kBadHeader ∨ physical.type = kBadRecordLen ∧ r.eof = true

theorem readRecordLoop_cutOff {r' : LogReader} {physical : Physical} (read : r.readPhysicalRecord = (physical, r'))
    (cut : CutOff physical r') : readRecordLoop .kTolerateCorruptedTailRecords locals r = (none, r') := by
  have tolerant : (locals.inFragmentedRecord && strict .kTolerateCorruptedTailRecords) = false := by
    rw [Bool.and_eq_false_iff]
    exact Or.inr rfl
  refine readRecordLoop_stopped read ?_
  rcases cut with ended | torn | ⟨long, ended⟩
  · rw [judge, ended]
    exact atEof_unreported tolerant
  · rw [judge, torn]
    exact atEof_unreported tolerant
  · rw [judge, long]
    simp only [ended, if_true]
    rfl

theorem At.torn_record {o : Nat} (here : At o ((physicalRecord w t payload).take k) r) (emitted : Emitted t)
    (legacy : isRecyclableType t = false)
    (short : payload.length < 65536) (cut : k < (physicalRecord w t payload).length)
    (within : o + (physicalRecord w t payload).length ≤ kBlockSize) :
    ∃ physical r', r.readPhysicalRecord = (physical, r') ∧ CutOff physical r' ∧ Quiet r r' := by
  have size : ((physicalRecord w t payload).take k).length = k := by
    rw [length_take]
    omega
  have ends : o + ((physicalRecord w t payload).take k).length < kBlockSize := by omega
  by_cases header : k < kHeaderSize
  · obtain ⟨r', read, quiet⟩ := here.torn_header ends (by omega)
    refine ⟨_, r', read, ?_, quiet⟩
    split
    · exact Or.inl rfl
    · exact Or.inr (Or.inl rfl)
  · have enough : 7 ≤ k := Nat.le_of_not_lt header
    obtain ⟨noted, quiet⟩ := here.noteRecycled
    have buffer : r.buffer = (physicalRecord w t payload).take k := by
      rw [here.buffer, take_of_length_le (by omega)]
    have type : headerType r.buffer = t := by
      have whole := @headerType_physicalRecord _ w t payload [] emitted
      rw [buffer, headerType_take _ enough]
      rwa [append_nil] at whole
    have length : headerLength r.buffer = payload.length := by
      have whole := @headerLength_physicalRecord _ w t payload [] short
      rw [buffer, headerLength_take _ enough]
      rwa [append_nil] at whole
    have unnumbered : w.numbered t = [] := by
      rw [numbered_eq w emitted, legacy]
      rfl
    have whole : r.wantsMore = false := by
      have long : ¬ r.buffer.length < kHeaderSize := by
        rw [buffer, size]
        exact header
      simp only [wantsMore, type, legacy, long, decide_false, Bool.false_and, Bool.or_self]
    have missing : headerSize r.buffer + headerLength r.buffer > r.buffer.length := by
      rw [physicalRecord_length, unnumbered, length_nil] at cut
      rw [headerSize, type, legacy, length, buffer, size]
      exact cut
    refine ⟨⟨kBadRecordLen, [], r.buffer.length⟩, { r.noteRecycled with buffer := [] }, ?_, Or.inr (Or.inr ⟨rfl, ?_⟩),
      quiet.sizes, quiet.logNumber, quiet.reports⟩
    · rw [readPhysicalRecord_parse whole, parseRecord, noteRecycled_buffer, if_pos missing]
    · exact noted.eof.trans (decide_eq_true ends)

theorem At.torn_fragment (old : w.recycleLogFiles = false)
    (here : At w.blockOffset ((trailer w ++ fragmentBytes w begin left).take k) r)
    (cut : k < (trailer w ++ fragmentBytes w begin left).length) :
    ∃ r', readRecordLoop .kTolerateCorruptedTailRecords locals r = (none, r') ∧ Quiet r r' := by
  have within := fragmentBytes_within w begin left
  have emitted := nextType_emitted w begin left
  have legacy := (recyclable_nextType w begin left).trans old
  have short := take_room_short w left
  have inside := here.inside
  have header : w.headerSize = kHeaderSize := by
    rw [LogWriter.headerSize, old]
    rfl
  by_cases full : kBlockSize - w.blockOffset < w.headerSize
  · have zeros : trailer w = replicate (kBlockSize - w.blockOffset) 0 := if_pos full
    have starts : fragmentStart w = 0 := if_pos full
    rw [zeros] at here cut
    rw [length_append, length_replicate] at cut
    by_cases early : k < kBlockSize - w.blockOffset
    · have size : ((replicate (kBlockSize - w.blockOffset) 0 ++ fragmentBytes w begin left).take k).length = k := by
        rw [length_take, length_append, length_replicate]
        omega
      obtain ⟨r', read, quiet⟩ := here.torn_header (by omega) (by omega)
      refine ⟨r', readRecordLoop_cutOff read ?_, quiet⟩
      split
      · exact Or.inl rfl
      · exact Or.inr (Or.inl rfl)
    · have behind : (replicate (kBlockSize - w.blockOffset) 0 ++ fragmentBytes w begin left).take k =
          replicate (kBlockSize - w.blockOffset) 0 ++
            (fragmentBytes w begin left).take (k - (kBlockSize - w.blockOffset)) := by
        rw [take_append, length_replicate, take_of_length_le (by rw [length_replicate]; omega)]
      rw [behind] at here
      obtain ⟨r₁, same, next, quiet, _⟩ := here.skip (by omega) (by rw [length_append, length_replicate]; omega)
      rw [drop_left' (length_replicate ..)] at next
      rw [starts] at within
      have late : k - (kBlockSize - w.blockOffset) < (fragmentBytes w begin left).length := by omega
      obtain ⟨physical, r', read, torn, still⟩ := next.torn_record emitted legacy short late within
      exact ⟨r', readRecordLoop_cutOff (same.trans read) torn, quiet.trans still⟩
  · have none_there : trailer w = [] := if_neg full
    have starts : fragmentStart w = w.blockOffset := if_neg full
    rw [none_there, nil_append] at here cut
    rw [starts] at within
    obtain ⟨physical, r', read, torn, quiet⟩ := here.torn_record emitted legacy short cut within
    exact ⟨r', readRecordLoop_cutOff read torn, quiet⟩

theorem Emits.torn (emits : Emits w begin left out w') (old : w.recycleLogFiles = false)
    (placed : locals.inFragmentedRecord = !begin) (start : begin = true → locals.scratch = [])
    (filled : begin = false → trailer w = []) (here : At w.blockOffset (out.take k) r) (cut : k < out.length) :
    ∃ r', readRecordLoop .kTolerateCorruptedTailRecords locals r = (none, r') ∧ Quiet r r' := by
  induction emits generalizing locals r k with
  | @last w begin left _ => exact here.torn_fragment old cut
  | @more w w' begin left out longer emits ih =>
    rw [← append_assoc] at here cut
    rw [take_append] at here
    by_cases early : k < (trailer w ++ fragmentBytes w begin left).length
    · rw [Nat.sub_eq_zero_of_le (Nat.le_of_lt early), take_zero, append_nil] at here
      exact here.torn_fragment old early
    · have late := Nat.le_of_not_lt early
      rw [length_append] at cut
      rw [take_of_length_le late, append_assoc] at here
      have own : ¬ Foreign w (nextType w begin left) r := fun foreign =>
        Bool.false_ne_true (((recyclable_nextType w begin left).trans old).symm.trans foreign.1)
      obtain ⟨r₁, reads, there, quiet⟩ := @At.reads_on _ .kTolerateCorruptedTailRecords _ _ _ _ _ _ placed start filled own here
      rw [ReadsOn, if_neg (Nat.not_le.mpr longer)] at reads
      obtain ⟨locals', same, opened, _⟩ := reads
      have old' : (w.addFragment begin left).recycleLogFiles = false := by
        rw [addFragment_eq]
        exact old
      obtain ⟨r', stops, still⟩ := ih old' opened (fun first => by cases first) (fun _ => trailer_addFragment longer)
        there (by omega)
      exact ⟨r', same.trans stops, quiet.trans still⟩

end

section

variable [Checksum]

/-- The records that a writer completes within the first `k` bytes of its file. -/
def completeRecords (w : LogWriter) (k : Nat) : List Bytes → List Bytes
  | [] => []
  | record :: records =>
    if (w.addRecord record).dest.length ≤ k then record :: completeRecords (w.addRecord record) k records else []

theorem addRecords_torn (records : List Bytes) (w : LogWriter) (old : w.recycleLogFiles = false) :
    ∃ out, (w.addRecords records).dest = w.dest ++ out ∧ ∀ k r, r.reports = [] → At w.blockOffset (out.take k) r →
      Delivers .kTolerateCorruptedTailRecords r (completeRecords w (w.dest.length + k) records) := by
  induction records generalizing w with
  | nil =>
    refine ⟨[], (append_nil _).symm, ?_⟩
    intro k r unreported here
    rw [take_nil] at here
    obtain ⟨r', ended, quiet⟩ := @At.none_left _ .kTolerateCorruptedTailRecords ⟨false, 0, []⟩ r _ here rfl
    exact ⟨r', ended, quiet.reports.trans unreported⟩
  | cons record records ih =>
    obtain ⟨out, emits⟩ := addRecordLoop_emits w true record
    obtain ⟨dest, number, recycled, _⟩ := emits.appends
    obtain ⟨later, dest', delivered⟩ := ih (w.addRecord record) (recycled.trans old)
    have size : (w.addRecord record).dest.length = w.dest.length + out.length := by
      rw [LogWriter.addRecord, dest, length_append]
    refine ⟨out ++ later, ?_, ?_⟩
    · rw [← append_assoc, ← dest]
      exact dest'
    · intro k r unreported here
      rw [take_append] at here
      rw [completeRecords]
      by_cases whole : out.length ≤ k
      · rw [take_of_length_le whole] at here
        rw [if_pos (by omega)]
        have own : Own w r := by
          intro impossible
          rw [old] at impossible
          cases impossible
        obtain ⟨r', read, there, quiet⟩ := @Emits.read _ _ _ _ _ _ emits .kTolerateCorruptedTailRecords ⟨false, 0, []⟩ r _ rfl
          (fun _ => rfl) (fun first => by cases first) own here
        have none_yet := quiet.reports.trans unreported
        have rest := delivered (k - out.length) r' none_yet there
        have same : (w.addRecord record).dest.length + (k - out.length) = w.dest.length + k := by omega
        rw [same] at rest
        exact ⟨r', read, none_yet, rest⟩
      · have cut := Nat.lt_of_not_le whole
        rw [Nat.sub_eq_zero_of_le (Nat.le_of_lt cut), take_zero, append_nil] at here
        rw [if_neg (by omega)]
        obtain ⟨r', stops, quiet⟩ := @Emits.torn _ _ _ _ _ _ ⟨false, 0, []⟩ r _ emits old rfl (fun _ => rfl)
          (fun first => by cases first) here cut
        exact ⟨r', stops, quiet.reports.trans unreported⟩

/-- Wherever a log is cut off, the records before the cut come back and nothing is reported. -/
theorem truncated_wal_yields_complete_records (logNumber readerNumber : UInt64) (checksum : Bool) (records : List Bytes)
    (k : Nat) : Delivers .kTolerateCorruptedTailRecords
      (LogReader.new ⟨(written logNumber false records).take k, none⟩ checksum readerNumber)
      (completeRecords (LogWriter.new logNumber false) k records) := by
  obtain ⟨out, dest, delivered⟩ := addRecords_torn records (LogWriter.new logNumber false) rfl
  obtain ⟨r, same, here, quiet⟩ := readRecord_new .kTolerateCorruptedTailRecords ((written logNumber false records).take k)
    checksum readerNumber
  rw [written, dest] at here
  have delivers := delivered k r quiet.reports here
  rw [show (LogWriter.new logNumber false).dest.length + k = k from Nat.zero_add k] at delivers
  exact (delivers_congr same _).mpr delivers

end

end WalProof
