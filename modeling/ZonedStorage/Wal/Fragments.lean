import ZonedStorage.Wal.LogReader

namespace WalProof

open ByteString WalLog WalLog.LogReader ZenFSModel List

section

structure At (o : Nat) (s : Bytes) (r : LogReader) : Prop where
  inside : o ≤ kBlockSize
  buffer : r.buffer = s.take (kBlockSize - o)
  unread : r.file.unread = s.drop (kBlockSize - o)
  eof : r.eof = decide (o + s.length < kBlockSize)
  sound : r.readError = false
  healthy : r.file.failIn = none

structure Quiet (r r' : LogReader) : Prop where
  sizes : r'.recordedCfToTsSz = r.recordedCfToTsSz
  logNumber : r'.logNumber = r.logNumber
  reports : r'.reports = r.reports

theorem Quiet.refl (r : LogReader) : Quiet r r := ⟨rfl, rfl, rfl⟩

theorem Quiet.trans {r₁ r₂ r₃ : LogReader} (first : Quiet r₁ r₂) (second : Quiet r₂ r₃) : Quiet r₁ r₃ :=
  ⟨second.sizes.trans first.sizes, second.logNumber.trans first.logNumber, second.reports.trans first.reports⟩

theorem at_new (file : Bytes) (checksum : Bool) (logNum : UInt64) :
    At kBlockSize file (LogReader.new ⟨file, none⟩ checksum logNum) := by
  refine ⟨Nat.le_refl _, ?_, ?_, ?_, rfl, rfl⟩
  · rw [Nat.sub_self, take_zero]
    rfl
  · rw [Nat.sub_self, drop_zero]
    rfl
  · simp [LogReader.new]

variable {o : Nat} {s : Bytes} {r : LogReader}

theorem At.noteRecycled (here : At o s r) : At o s r.noteRecycled ∧ Quiet r r.noteRecycled := by
  rw [noteRecycled_same]
  exact ⟨⟨here.inside, here.buffer, here.unread, here.eof, here.sound, here.healthy⟩, rfl, rfl, rfl⟩

theorem noteRecycled_buffer (r : LogReader) : r.noteRecycled.buffer = r.buffer := by
  rw [noteRecycled_same]

theorem At.consume (here : At o s r) {n : Nat} (within : o + n ≤ kBlockSize) (known : n ≤ s.length) :
    At (o + n) (s.drop n) { r with buffer := r.buffer.drop n } := by
  have left : kBlockSize - (o + n) = kBlockSize - o - n := by omega
  have total : n + (kBlockSize - o - n) = kBlockSize - o := by omega
  refine ⟨within, ?_, ?_, ?_, here.sound, here.healthy⟩
  · rw [left, ← drop_take, ← here.buffer]
  · rw [left, drop_drop, total]
    exact here.unread
  · have same : o + n + (s.drop n).length = o + s.length := by
      rw [length_drop]
      omega
    rw [same]
    exact here.eof

theorem At.buffer_length (here : At o s r) : r.buffer.length = min (kBlockSize - o) s.length := by
  rw [here.buffer, length_take]

theorem At.readMore (here : At o s r) (complete : kBlockSize ≤ o + s.length) :
    ∃ r', r.readMore = (.ok (), r') ∧ At 0 (s.drop (kBlockSize - o)) r' ∧ Quiet r r' ∧
      r'.endOfBufferOffset - r'.buffer.length = r.endOfBufferOffset := by
  have going : r.eof = false := by
    rw [here.eof]
    simpa using complete
  have read : r.file.read kBlockSize = some (r.file.unread.take kBlockSize, ⟨r.file.unread.drop kBlockSize, none⟩) := by
    rw [SequentialFile.read, here.healthy]
    rfl
  simp only [LogReader.readMore, going, here.sound, Bool.not_false, Bool.and_self, if_true, read]
  refine ⟨_, rfl, ?_⟩
  rw [here.unread]
  generalize s.drop (kBlockSize - o) = later
  by_cases short : (later.take kBlockSize).length < kBlockSize
  · rw [if_pos short]
    rw [length_take] at short
    refine ⟨⟨Nat.zero_le _, rfl, rfl, ?_, rfl, rfl⟩, ⟨rfl, rfl, rfl⟩, Nat.add_sub_cancel ..⟩
    exact (decide_eq_true (by omega : 0 + later.length < kBlockSize)).symm
  · rw [if_neg short]
    rw [length_take] at short
    refine ⟨⟨Nat.zero_le _, rfl, rfl, ?_, rfl, rfl⟩, ⟨rfl, rfl, rfl⟩, Nat.add_sub_cancel ..⟩
    exact (decide_eq_false (by omega : ¬ 0 + later.length < kBlockSize)).symm

theorem At.readMore_end (here : At o s r) (short : o + s.length < kBlockSize) :
    ∃ r', r.readMore = (.error (if s = [] then ⟨kEof, [], 0⟩ else ⟨kBadHeader, [], s.length⟩), r') ∧ Quiet r r' := by
  have ended : r.eof = true := by
    rw [here.eof]
    simpa using short
  have buffer : r.buffer = s := by
    rw [here.buffer, take_of_length_le (by omega)]
  simp only [LogReader.readMore, ended, Bool.not_true, Bool.false_and, Bool.false_eq_true, if_false, buffer]
  by_cases none_left : s = []
  · simp only [none_left, length_nil, ne_eq, not_true_eq_false, if_false, if_true]
    exact ⟨_, rfl, rfl, rfl, rfl⟩
  · have some_left : s.length ≠ 0 := by simpa using none_left
    simp only [some_left, none_left, ne_eq, not_false_eq_true, if_true, if_false]
    exact ⟨_, rfl, rfl, rfl, rfl⟩

theorem wantsMore_short (short : r.buffer.length < kHeaderSize) : r.wantsMore = true := by
  simp only [wantsMore, short, decide_true, Bool.true_or]

end

section

variable [Checksum] {o : Nat} {s : Bytes} {r : LogReader}

theorem readPhysicalRecord_parse (whole : r.wantsMore = false) : r.readPhysicalRecord = r.noteRecycled.parseRecord := by
  rw [readPhysicalRecord, if_neg (by rw [whole]; decide)]

theorem At.skip (here : At o s r) (short : kBlockSize - o < kHeaderSize) (complete : kBlockSize ≤ o + s.length) :
    ∃ r', r.readPhysicalRecord = r'.readPhysicalRecord ∧ At 0 (s.drop (kBlockSize - o)) r' ∧ Quiet r r' ∧
      r'.endOfBufferOffset - r'.buffer.length = r.endOfBufferOffset := by
  have wants : r.wantsMore = true := by
    refine wantsMore_short ?_
    rw [here.buffer_length]
    omega
  obtain ⟨noted, quiet⟩ := here.noteRecycled
  obtain ⟨r', more, next, still, start⟩ := noted.readMore complete
  refine ⟨r', readPhysicalRecord_more wants more, next, quiet.trans still, start.trans ?_⟩
  rw [noteRecycled_same]

theorem At.torn_header (here : At o s r) (ends : o + s.length < kBlockSize) (short : s.length < kHeaderSize) :
    ∃ r', r.readPhysicalRecord = (if s = [] then ⟨kEof, [], 0⟩ else ⟨kBadHeader, [], s.length⟩, r') ∧ Quiet r r' := by
  have wants : r.wantsMore = true := by
    refine wantsMore_short ?_
    rw [here.buffer_length]
    omega
  obtain ⟨noted, quiet⟩ := here.noteRecycled
  obtain ⟨r', ended, still⟩ := noted.readMore_end ends
  exact ⟨r', readPhysicalRecord_end wants ended, quiet.trans still⟩

theorem At.finished (here : At o [] r) : ∃ r', r.readPhysicalRecord = (⟨kEof, [], 0⟩, r') ∧ Quiet r r' := by
  by_cases full : o = kBlockSize
  · subst full
    obtain ⟨r₁, same, next, quiet, _⟩ := here.skip (by rw [Nat.sub_self]; decide) (Nat.le_add_right _ _)
    rw [drop_nil] at next
    obtain ⟨r', ended, still⟩ := next.torn_header (by decide) (by decide)
    exact ⟨r', same.trans ended, quiet.trans still⟩
  · have inside := here.inside
    obtain ⟨r', ended, quiet⟩ := here.torn_header (by rw [length_nil]; omega) (by decide)
    exact ⟨r', ended, quiet⟩

theorem At.skip_zeros (here : At o (replicate (kBlockSize - o) 0 ++ s) r) (long : kHeaderSize ≤ kBlockSize - o) :
    ∃ r', r.readPhysicalRecord = (⟨kBadRecord, [], 0⟩, r') ∧ At kBlockSize s r' ∧ Quiet r r' := by
  obtain ⟨noted, quiet⟩ := here.noteRecycled
  have inside := here.inside
  have seven : kHeaderSize = 7 := rfl
  obtain ⟨k, length⟩ : ∃ k, kBlockSize - o = 7 + k := ⟨kBlockSize - o - 7, by omega⟩
  have buffer : r.buffer = replicate (7 + k) 0 := by
    rw [here.buffer, length, take_left' (length_replicate ..)]
  have zeros : r.buffer = 0 :: 0 :: 0 :: 0 :: 0 :: 0 :: 0 :: replicate k 0 := by
    rw [buffer, Nat.add_comm]
    rfl
  have type : headerType r.buffer = 0 := by
    rw [zeros]
    rfl
  have none_left : headerLength r.buffer = 0 := by
    simp [zeros, headerLength]
  have legacy : isRecyclableType 0 = false := rfl
  have size : r.buffer.length = 7 + k := by
    rw [buffer, length_replicate]
  have whole : r.wantsMore = false := by
    simp [wantsMore, type, legacy, size, seven]
  have next := noted.consume (by omega : o + (kBlockSize - o) ≤ kBlockSize) (by simp)
  rw [drop_left' (length_replicate ..), noteRecycled_buffer, buffer, length,
    drop_eq_nil_of_le (by rw [length_replicate])] at next
  have there : o + (7 + k) = kBlockSize := by omega
  rw [there] at next
  refine ⟨_, ?_, next, quiet.sizes, quiet.logNumber, quiet.reports⟩
  rw [readPhysicalRecord_parse whole, parseRecord]
  simp [noteRecycled_buffer, headerSize, legacy, none_left, type, size, seven]

end

open Checksum

section

def Emitted (t : Nat) : Prop := t ∈ [kFullType, kFirstType, kMiddleType, kLastType, kRecyclableFullType,
  kRecyclableFirstType, kRecyclableMiddleType, kRecyclableLastType, kUserDefinedTimestampSizeType,
  kRecyclableUserDefinedTimestampSizeType]

instance (t : Nat) : Decidable (Emitted t) := inferInstanceAs (Decidable (_ ∈ _))

theorem Emitted.lt {t : Nat} (emitted : Emitted t) : 0 < t ∧ t < 128 := by
  have bounds : ∀ t, Emitted t → 0 < t ∧ t < 128 := by
    simp only [Emitted]
    decide
  exact bounds t emitted

theorem numbered_eq (w : LogWriter) {t : Nat} (emitted : Emitted t) :
    w.numbered t = if isRecyclableType t then littleEndian 4 w.logNumber.toNat else [] := by
  have plain : ∀ t, Emitted t → ((t < kRecyclableFullType ∨ t = kSetCompressionType ∨
      t = kUserDefinedTimestampSizeType) ↔ isRecyclableType t = false) := by
    simp only [Emitted]
    decide
  rw [LogWriter.numbered]
  cases type : isRecyclableType t with
  | true => exact if_neg (fun other => by cases ((plain t emitted).mp other).symm.trans type)
  | false => exact if_pos ((plain t emitted).mpr type)

variable [Checksum] (w : LogWriter) (t : Nat) (payload rest : Bytes)

def physicalRecord : Bytes :=
  littleEndian 4 (mask (extend 0 (UInt8.ofNat t :: (w.numbered t ++ payload)))) ++
    (UInt8.ofNat payload.length :: UInt8.ofNat (payload.length >>> 8) :: UInt8.ofNat t :: (w.numbered t ++ payload))

theorem physicalRecord_length : (physicalRecord w t payload).length = 7 + (w.numbered t).length + payload.length := by
  simp only [physicalRecord, length_append, littleEndian_length, length_cons]
  omega

theorem emitPhysicalRecord_eq : w.emitPhysicalRecord t payload = { w with
    dest := w.dest ++ physicalRecord w t payload
    blockOffset := w.blockOffset + (physicalRecord w t payload).length } := by
  have size : 4 + ((w.numbered t).length + 1 + 1 + 1) + payload.length = 7 + (w.numbered t).length + payload.length := by
    omega
  rw [physicalRecord_length]
  simp only [LogWriter.emitPhysicalRecord, combine_extend, extend_extend, LogWriter.append, physicalRecord,
    length_append, littleEndian_length, length_cons, append_assoc, cons_append, nil_append, size]

variable {t payload}

theorem headerType_physicalRecord (emitted : Emitted t) : headerType (physicalRecord w t payload ++ rest) = t := by
  have small := emitted.lt.2
  have byte : (UInt8.ofNat t).toNat = t := by
    rw [UInt8.toNat_ofNat']
    exact Nat.mod_eq_of_lt (Nat.lt_trans small (by decide))
  have seventh : (physicalRecord w t payload ++ rest).getD 6 0 = UInt8.ofNat t := by
    simp [physicalRecord, littleEndian]
  rw [headerType, seventh, byte, if_pos small]

theorem headerLength_physicalRecord (short : payload.length < 65536) :
    headerLength (physicalRecord w t payload ++ rest) = payload.length := by
  have low : (physicalRecord w t payload ++ rest).getD 4 0 = UInt8.ofNat payload.length := by
    simp [physicalRecord, littleEndian]
  have high : (physicalRecord w t payload ++ rest).getD 5 0 = UInt8.ofNat (payload.length >>> 8) := by
    simp [physicalRecord, littleEndian]
  rw [headerLength, low, high, UInt8.toNat_ofNat', UInt8.toNat_ofNat', Nat.or_comm, Nat.shiftRight_eq_div_pow,
    Nat.shiftLeft_eq, Nat.mul_comm, ← Nat.two_pow_add_eq_or_of_lt (Nat.mod_lt _ (by decide))]
  omega

theorem headerSize_physicalRecord (emitted : Emitted t) :
    headerSize (physicalRecord w t payload ++ rest) = 7 + (w.numbered t).length := by
  rw [headerSize, headerType_physicalRecord w rest emitted, numbered_eq w emitted]
  split
  · rw [littleEndian_length]
    rfl
  · rfl

def Foreign (w : LogWriter) (t : Nat) (r : LogReader) : Prop :=
  isRecyclableType t = true ∧ w.logNumber.toNat % 2 ^ 32 ≠ r.logNumber.toNat

instance (w : LogWriter) (t : Nat) (r : LogReader) : Decidable (Foreign w t r) := inferInstanceAs (Decidable (_ ∧ _))

theorem parseRecord_physicalRecord {r : LogReader} (emitted : Emitted t)
    (short : payload.length < 65536) (starts : r.buffer = physicalRecord w t payload ++ rest) :
    r.parseRecord = (if Foreign w t r then ⟨kOldRecord, [], 0⟩ else ⟨t, payload, 0⟩, { r with buffer := rest }) := by
  have type := @headerType_physicalRecord _ w t payload rest emitted
  have length := @headerLength_physicalRecord _ w t payload rest short
  have size := @headerSize_physicalRecord _ w t payload rest emitted
  have whole : 7 + (w.numbered t).length + payload.length = (physicalRecord w t payload).length :=
    (physicalRecord_length w t payload).symm
  have fits : ¬ (physicalRecord w t payload).length > (physicalRecord w t payload ++ rest).length := by
    rw [length_append]
    omega
  have number : (isRecyclableType t && valueOf (((physicalRecord w t payload ++ rest).drop 7).take 4) != r.logNumber.toNat)
      = decide (Foreign w t r) := by
    cases recyclable : isRecyclableType t with
    | true =>
      have stored : ((physicalRecord w t payload ++ rest).drop 7).take 4 = littleEndian 4 w.logNumber.toNat := by
        simp [physicalRecord, numbered_eq w emitted, recyclable, littleEndian]
      rw [stored, valueOf_littleEndian]
      simp only [Foreign, recyclable, Bool.true_and, true_and, decide_not]
      rfl
    | false => simp [Foreign, recyclable]
  have checked : ((physicalRecord w t payload ++ rest).drop 6).take ((physicalRecord w t payload).length - 6) =
      UInt8.ofNat t :: (w.numbered t ++ payload) := by
    have behind : (physicalRecord w t payload ++ rest).drop 6 = UInt8.ofNat t :: (w.numbered t ++ payload) ++ rest := by
      simp [physicalRecord, littleEndian]
    rw [behind, take_left']
    rw [← whole, length_cons, length_append]
    omega
  have crc : (physicalRecord w t payload ++ rest).take 4 =
      littleEndian 4 (mask (extend 0 (UInt8.ofNat t :: (w.numbered t ++ payload)))) := by
    rw [physicalRecord, append_assoc, take_left' (littleEndian_length ..)]
  have sound : (extend 0 (UInt8.ofNat t :: (w.numbered t ++ payload)) !=
      unmask (valueOf ((physicalRecord w t payload ++ rest).take 4))) = false := by
    rw [crc, valueOf_littleEndian_of_lt (mask_lt _), unmask_mask (extend_lt (by decide) _)]
    exact bne_self_eq_false _
  have fragment : ((physicalRecord w t payload ++ rest).drop (7 + (w.numbered t).length)).take payload.length =
      payload := by
    have behind : physicalRecord w t payload ++ rest = littleEndian 4 (mask
        (extend 0 (UInt8.ofNat t :: (w.numbered t ++ payload)))) ++ (UInt8.ofNat payload.length ::
        UInt8.ofNat (payload.length >>> 8) :: UInt8.ofNat t :: w.numbered t) ++ (payload ++ rest) := by
      simp [physicalRecord]
    rw [behind, drop_left', take_left' rfl]
    rw [length_append, littleEndian_length, length_cons, length_cons, length_cons]
    omega
  have zero : (t == kZeroType) = false := beq_eq_false_iff_ne.mpr (Nat.ne_of_gt emitted.lt.1)
  simp only [parseRecord, starts, type, length, size, whole, if_neg fits, number, zero, Bool.false_and,
    Bool.false_eq_true, if_false, checked, sound, Bool.and_false, fragment, drop_left, decide_eq_true_eq]
  split <;> rfl

theorem At.read {o : Nat} {r : LogReader} (here : At o (physicalRecord w t payload ++ rest) r) (emitted : Emitted t)
    (short : payload.length < 65536)
    (within : o + (physicalRecord w t payload).length ≤ kBlockSize) :
    ∃ r', r.readPhysicalRecord = (if Foreign w t r then ⟨kOldRecord, [], 0⟩ else ⟨t, payload, 0⟩, r') ∧
      At (o + (physicalRecord w t payload).length) rest r' ∧ Quiet r r' := by
  obtain ⟨noted, quiet⟩ := here.noteRecycled
  have buffer : r.buffer = physicalRecord w t payload ++ rest.take
      (kBlockSize - o - (physicalRecord w t payload).length) := by
    rw [here.buffer, take_append, take_of_length_le (by omega)]
  have long : 7 + (w.numbered t).length ≤ r.buffer.length := by
    rw [buffer, length_append, physicalRecord_length]
    omega
  have whole : r.wantsMore = false := by
    have type : headerType r.buffer = t := by
      rw [buffer, headerType_physicalRecord w _ emitted]
    rw [numbered_eq w emitted] at long
    have some_header : ¬ r.buffer.length < 4 + 2 + 1 := by omega
    simp only [wantsMore, type, kHeaderSize, kRecyclableHeaderSize, some_header, decide_false, Bool.false_or]
    cases recyclable : isRecyclableType t with
    | true =>
      rw [if_pos recyclable, littleEndian_length] at long
      exact decide_eq_false (by omega)
    | false => rfl
  have next := noted.consume within (by rw [length_append]; omega)
  rw [drop_left, noteRecycled_buffer, buffer, drop_left] at next
  refine ⟨_, ?_, next, quiet.sizes, quiet.logNumber, quiet.reports⟩
  have same : Foreign w t r.noteRecycled ↔ Foreign w t r := by
    rw [Foreign, Foreign, quiet.logNumber]
  rw [readPhysicalRecord_parse whole, parseRecord_physicalRecord w _ emitted short ((noteRecycled_buffer r).trans buffer)]
  simp only [same]

theorem At.read_next {o : Nat} {r : LogReader} {z : Bytes} (here : At o (z ++ (physicalRecord w t payload ++ rest)) r)
    (fills : z.length = kBlockSize - o) (narrow : z.length < kHeaderSize) (emitted : Emitted t)
    (short : payload.length < 65536) (within : (physicalRecord w t payload).length ≤ kBlockSize) :
    ∃ r', r.readPhysicalRecord = (if Foreign w t r then ⟨kOldRecord, [], 0⟩ else ⟨t, payload, 0⟩, r') ∧
      At (physicalRecord w t payload).length rest r' ∧ Quiet r r' := by
  have complete : kBlockSize ≤ o + (z ++ (physicalRecord w t payload ++ rest)).length := by
    rw [length_append]
    omega
  obtain ⟨r₁, same, next, quiet, _⟩ := here.skip (by omega) complete
  rw [← fills, drop_left] at next
  obtain ⟨r', read, after, still⟩ := next.read w rest emitted short (by omega)
  have unchanged : Foreign w t r₁ ↔ Foreign w t r := by
    rw [Foreign, Foreign, quiet.logNumber]
  rw [Nat.zero_add] at after
  refine ⟨r', ?_, after, quiet.trans still⟩
  rw [same, read]
  simp only [unchanged]

end

section

def trailer (w : LogWriter) : Bytes :=
  if kBlockSize - w.blockOffset < w.headerSize then replicate (kBlockSize - w.blockOffset) 0 else []

def fragmentStart (w : LogWriter) : Nat := if kBlockSize - w.blockOffset < w.headerSize then 0 else w.blockOffset

def room (w : LogWriter) : Nat := kBlockSize - fragmentStart w - w.headerSize

theorem switchBlock_eq (w : LogWriter) :
    w.switchBlock = { w with dest := w.dest ++ trailer w, blockOffset := fragmentStart w } := by
  simp only [LogWriter.switchBlock, trailer, fragmentStart]
  split
  · rfl
  · rw [append_nil]

theorem switchBlock_avail (w : LogWriter) : w.switchBlock.avail = room w := by
  rw [switchBlock_eq]
  rfl

theorem rest_eq (w : LogWriter) (left : Bytes) : w.rest left = left.drop (room w) := by
  rw [LogWriter.rest, switchBlock_avail]

theorem take_room_short (w : LogWriter) (left : Bytes) : (left.take (room w)).length < 65536 := by
  have block : kBlockSize = 32768 := rfl
  rw [length_take, room]
  omega

def nextType (w : LogWriter) (begin : Bool) (left : Bytes) : Nat := w.fragmentType begin (decide (left.length ≤ room w))

theorem nextType_emitted (w : LogWriter) (begin : Bool) (left : Bytes) : Emitted (nextType w begin left) := by
  rw [nextType, LogWriter.fragmentType]
  cases w.recycleLogFiles <;> cases begin <;> cases decide (left.length ≤ room w) <;> decide

theorem recyclable_nextType (w : LogWriter) (begin : Bool) (left : Bytes) :
    isRecyclableType (nextType w begin left) = w.recycleLogFiles := by
  rw [nextType, LogWriter.fragmentType]
  cases w.recycleLogFiles <;> cases begin <;> cases decide (left.length ≤ room w) <;> rfl

variable [Checksum]

def fragmentBytes (w : LogWriter) (begin : Bool) (left : Bytes) : Bytes :=
  physicalRecord w (nextType w begin left) (left.take (room w))

theorem addFragment_eq (w : LogWriter) (begin : Bool) (left : Bytes) : w.addFragment begin left = { w with
    dest := w.dest ++ (trailer w ++ fragmentBytes w begin left)
    blockOffset := fragmentStart w + (fragmentBytes w begin left).length } := by
  have taken : left.take (if left.length < room w then left.length else room w) = left.take (room w) := by
    split
    · rename_i all
      rw [take_length, take_of_length_le (Nat.le_of_lt all)]
    · rfl
  have final : decide (left.length = if left.length < room w then left.length else room w) =
      decide (left.length ≤ room w) := by
    split
    · rename_i all
      exact (decide_eq_true rfl).trans (decide_eq_true (Nat.le_of_lt all)).symm
    · rename_i some_left
      exact decide_eq_decide.mpr ⟨fun same => Nat.le_of_eq same, fun below => by omega⟩
  simp only [LogWriter.addFragment, switchBlock_avail, taken, final]
  rw [emitPhysicalRecord_eq, switchBlock_eq]
  simp only [append_assoc]
  rfl

theorem fragmentBytes_length (w : LogWriter) (begin : Bool) (left : Bytes) :
    (fragmentBytes w begin left).length = w.headerSize + min (room w) left.length := by
  rw [fragmentBytes, physicalRecord_length, nextType, w.numbered_length, length_take]

theorem fragmentBytes_within (w : LogWriter) (begin : Bool) (left : Bytes) :
    fragmentStart w + (fragmentBytes w begin left).length ≤ kBlockSize := by
  have small := w.headerSize_le
  have positive := w.headerSize_pos
  have block : kBlockSize = 32768 := rfl
  rw [fragmentBytes_length, room, fragmentStart]
  split <;> omega

theorem addFragment_within (w : LogWriter) (begin : Bool) (left : Bytes) :
    (w.addFragment begin left).blockOffset ≤ kBlockSize := by
  rw [addFragment_eq]
  exact fragmentBytes_within w begin left

variable {w : LogWriter} {begin : Bool} {left s : Bytes} {r : LogReader}

def fragmentRead (w : LogWriter) (begin : Bool) (left : Bytes) (r : LogReader) : Physical :=
  if Foreign w (nextType w begin left) r then ⟨kOldRecord, [], 0⟩
  else ⟨nextType w begin left, left.take (room w), 0⟩

theorem At.read_fragment (here : At w.blockOffset (trailer w ++ (fragmentBytes w begin left ++ s)) r)
    (narrow : (trailer w).length < kHeaderSize) :
    ∃ r', r.readPhysicalRecord = (fragmentRead w begin left r, r') ∧ At (w.addFragment begin left).blockOffset s r' ∧
      Quiet r r' := by
  have within := fragmentBytes_within w begin left
  have emitted := nextType_emitted w begin left
  have short := take_room_short w left
  rw [addFragment_eq]
  rw [fragmentStart] at within ⊢
  rw [trailer] at here narrow
  split at here
  · rename_i full
    rw [if_pos full] at narrow within ⊢
    rw [Nat.zero_add] at within ⊢
    exact here.read_next w s (length_replicate ..) narrow emitted short within
  · rename_i fits
    rw [if_neg fits] at within ⊢
    rw [nil_append] at here
    exact here.read w s emitted short within

theorem At.read_trailer (here : At w.blockOffset (trailer w ++ s) r) (wide : kHeaderSize ≤ (trailer w).length) :
    ∃ r', r.readPhysicalRecord = (⟨kBadRecord, [], 0⟩, r') ∧ At kBlockSize s r' ∧ Quiet r r' := by
  rw [trailer] at here wide
  split at here
  · rename_i full
    rw [if_pos full, length_replicate] at wide
    exact here.skip_zeros wide
  · rename_i fits
    rw [if_neg fits] at wide
    cases wide

end

end WalProof
