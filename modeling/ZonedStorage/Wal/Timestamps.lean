import ZonedStorage.Runs.Throughout
import ZonedStorage.Wal.RoundTrip

namespace WalLog

open ByteString KeyedTable ZenFSModel

structure StampedWriter where
  log : LogWriter
  recordedCfToTsSz : Table Nat Nat

/-- The calls of a writer; a map is given in the order in which it is iterated over. -/
inductive WriterCall where
  | addRecord (slice : Bytes)
  | maybeAddUserDefinedTimestampSizeRecord (cfToTsSz : List (UInt32 × Nat))

namespace StampedWriter

def new (logNumber : UInt64) (recycleLogFiles : Bool) : StampedWriter := ⟨LogWriter.new logNumber recycleLogFiles, ∅⟩

def tsSzToRecord (recorded : Table Nat Nat) : List (UInt32 × Nat) → List (UInt32 × Nat) × Table Nat Nat
  | [] => ([], recorded)
  | (cfId, tsSz) :: rest =>
    if (recorded.lookup cfId.toNat).isSome then tsSzToRecord recorded rest
    else if tsSz ≠ 0 then
      let (later, all) := tsSzToRecord (recorded.insert cfId.toNat tsSz) rest
      ((cfId, tsSz) :: later, all)
    else tsSzToRecord recorded rest

def encodeTo (cfToTsSz : List (UInt32 × Nat)) : Bytes :=
  cfToTsSz.flatMap (fun entry => littleEndian 4 entry.1.toNat ++ littleEndian 2 entry.2)

def sizeType (w : LogWriter) : Nat :=
  if w.recycleLogFiles then kRecyclableUserDefinedTimestampSizeType else kUserDefinedTimestampSizeType

def maybeAddUserDefinedTimestampSizeRecord [Checksum] (s : StampedWriter) (cfToTsSz : List (UInt32 × Nat)) :
    StampedWriter :=
  let (toRecord, recorded) := tsSzToRecord s.recordedCfToTsSz cfToTsSz
  if toRecord = [] then { s with recordedCfToTsSz := recorded }
  else ⟨s.log.emitPhysicalRecord (sizeType s.log) (encodeTo toRecord), recorded⟩

def call [Checksum] (s : StampedWriter) : WriterCall → StampedWriter
  | .addRecord slice => { s with log := s.log.addRecord slice }
  | .maybeAddUserDefinedTimestampSizeRecord cfToTsSz => s.maybeAddUserDefinedTimestampSizeRecord cfToTsSz

end StampedWriter

end WalLog

namespace WalProof

open ByteString KeyedTable Runs WalLog WalLog.LogReader WalLog.StampedWriter ZenFSModel List LogWriter

section

variable [Checksum]

inductive LoopEmits : LogWriter → Bool → Bytes → LogWriter → Bytes → Prop
  | now {w : LogWriter} {begin : Bool} {left : Bytes} :
      LoopEmits w begin left w.switchBlock (left.take w.switchBlock.avail)
  | later {w w₁ : LogWriter} {begin : Bool} {left payload : Bytes} : w.rest left ≠ [] →
      LoopEmits (w.addFragment begin left) false (w.rest left) w₁ payload → LoopEmits w begin left w₁ payload

def CallEmits (s : StampedWriter) (w₁ : LogWriter) (payload : Bytes) : WriterCall → Prop
  | .addRecord slice => LoopEmits s.log true slice w₁ payload
  | .maybeAddUserDefinedTimestampSizeRecord cfToTsSz => (tsSzToRecord s.recordedCfToTsSz cfToTsSz).1 ≠ [] ∧
      w₁ = s.log ∧ payload = encodeTo (tsSzToRecord s.recordedCfToTsSz cfToTsSz).1

def InOneBlock (s : StampedWriter) (call : WriterCall) : Prop := ∀ w₁ payload, CallEmits s w₁ payload call →
  w₁.dest.length % kBlockSize + (w₁.headerSize + payload.length) ≤ kBlockSize

def added (calls : List WriterCall) : List Bytes := calls.filterMap (fun
  | .addRecord slice => some slice
  | .maybeAddUserDefinedTimestampSizeRecord _ => none)

/-- Successive calls return the records, then false, nothing is reported and in the end the sizes are recorded. -/
def DeliversFrom (mode : WALRecoveryMode) (sizes : Table Nat Nat) : Locals → LogReader → List Bytes → Prop
  | locals, r, [] => ∃ r', readRecordLoop mode locals r = (none, r') ∧ r'.reports = [] ∧ r'.recordedCfToTsSz = sizes
  | locals, r, record :: records => ∃ r', readRecordLoop mode locals r = (some record, r') ∧ r'.reports = [] ∧
      DeliversFrom mode sizes ⟨false, 0, []⟩ r' records

/-- The sizes a call has to record fit into what is left of the block. -/
def SizesFit (s : StampedWriter) : WriterCall → Prop
  | .addRecord _ => True
  | .maybeAddUserDefinedTimestampSizeRecord cfToTsSz => (tsSzToRecord s.recordedCfToTsSz cfToTsSz).1 = [] ∨
      s.log.blockOffset + (s.log.headerSize + 6 * (tsSzToRecord s.recordedCfToTsSz cfToTsSz).1.length) ≤ kBlockSize

def SizesEncoded : WriterCall → Prop
  | .addRecord _ => True
  | .maybeAddUserDefinedTimestampSizeRecord cfToTsSz => ∀ entry ∈ cfToTsSz, entry.2 < 2 ^ 16

end

section

variable {cfToTsSz : List (UInt32 × Nat)}

theorem encodeTo_length (cfToTsSz : List (UInt32 × Nat)) : (encodeTo cfToTsSz).length = 6 * cfToTsSz.length := by
  induction cfToTsSz with
  | nil => rfl
  | cons entry rest ih =>
    rw [encodeTo] at ih ⊢
    rw [flatMap_cons, length_append, length_append, littleEndian_length, littleEndian_length, ih,
      length_cons]
    omega

theorem decodeTimestampSizes_encodeTo (encoded : ∀ entry ∈ cfToTsSz, entry.2 < 2 ^ 16) :
    decodeTimestampSizes cfToTsSz.length (encodeTo cfToTsSz) = cfToTsSz.map (fun entry => (entry.1.toNat, entry.2)) := by
  induction cfToTsSz with
  | nil => rfl
  | cons entry rest ih =>
    have size := encoded entry mem_cons_self
    have later := ih (fun other listed => encoded other (mem_cons_of_mem _ listed))
    have split : encodeTo (entry :: rest) =
        littleEndian 4 entry.1.toNat ++ (littleEndian 2 entry.2 ++ encodeTo rest) := by
      rw [encodeTo, flatMap_cons, append_assoc, encodeTo]
    have behind : (encodeTo (entry :: rest)).drop 6 = encodeTo rest := by
      rw [split, ← append_assoc, drop_left' (by rw [length_append, littleEndian_length, littleEndian_length])]
    rw [length_cons, decodeTimestampSizes, behind, later, split, take_left' (littleEndian_length ..),
      drop_left' (littleEndian_length ..), take_left' (littleEndian_length ..),
      valueOf_littleEndian_of_lt (UInt32.toNat_lt entry.1), valueOf_littleEndian_of_lt size, map_cons]

theorem tsSzToRecord_encoded (encoded : ∀ entry ∈ cfToTsSz, entry.2 < 2 ^ 16) (recorded : Table Nat Nat) :
    ∀ entry ∈ (tsSzToRecord recorded cfToTsSz).1, entry.2 < 2 ^ 16 := by
  induction cfToTsSz generalizing recorded with
  | nil => exact fun entry listed => (not_mem_nil listed).elim
  | cons entry rest ih =>
    have later := ih (fun other listed => encoded other (mem_cons_of_mem _ listed))
    rw [tsSzToRecord]
    split
    · exact later _
    · split
      · intro other listed
        rcases mem_cons.mp listed with rfl | listed
        · exact encoded _ mem_cons_self
        · exact later _ other listed
      · exact later _

theorem updateRecorded_tsSzToRecord (recorded : Table Nat Nat) (cfToTsSz : List (UInt32 × Nat)) :
    updateRecordedTimestampSize recorded
        ((tsSzToRecord recorded cfToTsSz).1.map (fun entry => (entry.1.toNat, entry.2))) =
      (none, (tsSzToRecord recorded cfToTsSz).2) := by
  induction cfToTsSz generalizing recorded with
  | nil => rfl
  | cons entry rest ih =>
    rw [tsSzToRecord]
    split
    · exact ih recorded
    · rename_i fresh
      split
      · rename_i given
        rw [map_cons, updateRecordedTimestampSize, if_neg given, if_neg fresh]
        exact ih _
      · exact ih recorded

theorem sizeType_emitted (w : LogWriter) : Emitted (sizeType w) := by
  rw [sizeType]
  cases w.recycleLogFiles <;> decide

theorem recyclable_sizeType (w : LogWriter) : isRecyclableType (sizeType w) = w.recycleLogFiles := by
  rw [sizeType]
  cases w.recycleLogFiles <;> rfl

theorem numbered_sizeType (w : LogWriter) : 7 + (w.numbered (sizeType w)).length = w.headerSize := by
  rw [numbered_eq w (sizeType_emitted w), recyclable_sizeType, LogWriter.headerSize]
  split
  · rw [littleEndian_length]
    rfl
  · rfl

variable [Checksum] {mode : WALRecoveryMode} {locals : Locals} {w : LogWriter} {r : LogReader} {s : Bytes}

theorem sizeRecord_length (w : LogWriter) (toRecord : List (UInt32 × Nat)) :
    (physicalRecord w (sizeType w) (encodeTo toRecord)).length = w.headerSize + 6 * toRecord.length := by
  rw [physicalRecord_length, numbered_sizeType, encodeTo_length]

theorem At.read_sizes (closed : locals.inFragmentedRecord = false) (own : Own w r)
    (encoded : ∀ entry ∈ cfToTsSz, entry.2 < 2 ^ 16)
    (fits : w.blockOffset + (w.headerSize + 6 * (tsSzToRecord r.recordedCfToTsSz cfToTsSz).1.length) ≤ kBlockSize)
    (here : At w.blockOffset (physicalRecord w (sizeType w)
      (encodeTo (tsSzToRecord r.recordedCfToTsSz cfToTsSz).1) ++ s) r) :
    ∃ locals' r', readRecordLoop mode locals r = readRecordLoop mode locals' r' ∧
      locals'.inFragmentedRecord = false ∧ locals'.scratch = [] ∧
      At (w.blockOffset + (w.headerSize + 6 * (tsSzToRecord r.recordedCfToTsSz cfToTsSz).1.length)) s r' ∧
      r'.logNumber = r.logNumber ∧ r'.reports = r.reports ∧
      r'.recordedCfToTsSz = (tsSzToRecord r.recordedCfToTsSz cfToTsSz).2 := by
  generalize record : tsSzToRecord r.recordedCfToTsSz cfToTsSz = both at fits here ⊢
  have same : Foreign w (sizeType w) r ↔ ¬ Own w r := by
    rw [Foreign, recyclable_sizeType, Own, Classical.not_imp]
  have length := sizeRecord_length w both.1
  have short : (encodeTo both.1).length < 65536 := by
    have block : kBlockSize = 32768 := rfl
    rw [encodeTo_length]
    omega
  obtain ⟨r₁, read, next, quiet⟩ := here.read w s (sizeType_emitted w) short (by rw [length]; exact fits)
  rw [if_neg (fun foreign => same.mp foreign own)] at read
  rw [length] at next
  refine ⟨{ locals with prospectiveRecordOffset := r.endOfBufferOffset - r.buffer.length, scratch := [] },
    { r₁ with lastRecordOffset := r.endOfBufferOffset - r.buffer.length, recordedCfToTsSz := both.2 },
    readRecordLoop_again read ?_, closed, rfl,
    ⟨next.inside, next.buffer, next.unread, next.eof, next.sound, next.healthy⟩, quiet.logNumber, quiet.reports, rfl⟩
  have judged : ∀ offset, judge mode locals offset ⟨sizeType w, encodeTo both.1, 0⟩ r₁ =
      userDefinedTimestampSize locals offset (encodeTo both.1) r₁ := by
    intro offset
    rw [sizeType]
    cases w.recycleLogFiles <;> rfl
  have entries : 6 * both.1.length / 6 = both.1.length := Nat.mul_div_cancel_left _ (by decide)
  have taken : updateRecordedTimestampSize r.recordedCfToTsSz
      (both.1.map (fun entry => (entry.1.toNat, entry.2))) = (none, both.2) := by
    rw [← record]
    exact updateRecorded_tsSzToRecord r.recordedCfToTsSz cfToTsSz
  have bounded : ∀ entry ∈ both.1, entry.2 < 2 ^ 16 := by
    rw [← record]
    exact tsSzToRecord_encoded encoded r.recordedCfToTsSz
  rw [judged, userDefinedTimestampSize]
  simp only [closed, Bool.false_and, reportIf, Bool.false_eq_true, if_false, encodeTo_length, Nat.mul_mod_right,
    ne_eq, not_true_eq_false, entries, decodeTimestampSizes_encodeTo bounded, quiet.sizes, taken, Option.isSome_none]

end

section

structure Tracked (w : LogWriter) : Prop where
  within : w.blockOffset ≤ kBlockSize
  exact_end : w.dest.length % kBlockSize = w.blockOffset % kBlockSize

theorem switchBlock_tracked {w : LogWriter} (tracked : Tracked w) : Tracked w.switchBlock ∧
    w.switchBlock.blockOffset + w.headerSize ≤ kBlockSize := by
  obtain ⟨within, exact_end⟩ := tracked
  have small := w.headerSize_le
  simp only [switchBlock]
  split
  · refine ⟨⟨Nat.zero_le _, ?_⟩, Nat.le_trans (Nat.le_of_eq (Nat.zero_add _)) (Nat.le_trans small (by decide))⟩
    simp only [append, length_append, length_replicate]
    simp only [kBlockSize] at *
    omega
  · exact ⟨⟨within, exact_end⟩, by omega⟩

variable [Checksum]

theorem emitted_tracked {w : LogWriter} (tracked : Tracked w) {t : Nat} {payload : Bytes}
    (fits : w.blockOffset + (physicalRecord w t payload).length ≤ kBlockSize) :
    Tracked (w.emitPhysicalRecord t payload) := by
  rw [emitPhysicalRecord_eq]
  refine ⟨fits, ?_⟩
  simp only [length_append]
  rw [Nat.add_mod, tracked.exact_end, ← Nat.add_mod]

theorem addFragment_tracked {w : LogWriter} (tracked : Tracked w) (begin : Bool) (left : Bytes) :
    Tracked (w.addFragment begin left) := by
  have switched := (switchBlock_tracked tracked).1
  rw [switchBlock_eq] at switched
  have ends := switched.exact_end
  rw [addFragment_eq]
  refine ⟨fragmentBytes_within w begin left, ?_⟩
  simp only [length_append] at ends ⊢
  rw [← Nat.add_assoc, Nat.add_mod, ends, ← Nat.add_mod]

theorem Emits.tracked {w w' : LogWriter} {begin : Bool} {left out : Bytes} (emits : Emits w begin left out w')
    (tracked : Tracked w) : Tracked w' := by
  induction emits with
  | last _ => exact addFragment_tracked tracked _ _
  | more _ _ ih => exact ih (addFragment_tracked tracked _ _)

theorem LoopEmits.inside {w w₁ : LogWriter} {begin : Bool} {left payload : Bytes}
    (emits : LoopEmits w begin left w₁ payload) (tracked : Tracked w) :
    w₁.dest.length % kBlockSize + (w₁.headerSize + payload.length) ≤ kBlockSize := by
  induction emits with
  | @now w begin left =>
    obtain ⟨⟨_, exact_end⟩, fits⟩ := switchBlock_tracked tracked
    have positive := w.headerSize_pos
    have taken := length_take_le w.switchBlock.avail left
    rw [exact_end, Nat.mod_eq_of_lt (by omega), switchBlock_headerSize]
    simp only [avail, switchBlock_headerSize] at taken ⊢
    omega
  | later _ _ ih => exact ih (addFragment_tracked tracked _ _)

theorem call_tracked {s : StampedWriter} (tracked : Tracked s.log) {call : WriterCall} (fits : SizesFit s call) :
    Tracked (s.call call).log := by
  cases call with
  | addRecord slice =>
    obtain ⟨out, emits⟩ := addRecordLoop_emits s.log true slice
    exact emits.tracked tracked
  | maybeAddUserDefinedTimestampSizeRecord cfToTsSz =>
    simp only [StampedWriter.call, maybeAddUserDefinedTimestampSizeRecord]
    split
    · exact tracked
    · rename_i some_new
      exact emitted_tracked tracked (by rw [sizeRecord_length]; exact fits.resolve_left some_new)

theorem call_inOneBlock {s : StampedWriter} (tracked : Tracked s.log) {call : WriterCall} (fits : SizesFit s call) :
    InOneBlock s call := by
  intro w₁ payload emits
  cases call with
  | addRecord slice => exact emits.inside tracked
  | maybeAddUserDefinedTimestampSizeRecord cfToTsSz =>
    obtain ⟨some_new, rfl, rfl⟩ := emits
    have room := fits.resolve_left some_new
    have positive := s.log.headerSize_pos
    rw [tracked.exact_end, Nat.mod_eq_of_lt (by omega), encodeTo_length]
    exact room

theorem sizesFit_of_within {s : StampedWriter} {call : WriterCall}
    (within : (s.call call).log.blockOffset ≤ kBlockSize) :
    SizesFit s call := by
  cases call with
  | addRecord slice => trivial
  | maybeAddUserDefinedTimestampSizeRecord cfToTsSz =>
    rw [SizesFit, or_iff_not_imp_left]
    intro some_new
    simp only [StampedWriter.call, maybeAddUserDefinedTimestampSizeRecord, if_neg some_new, emitPhysicalRecord_eq,
      sizeRecord_length] at within
    exact within

end

section

variable [Checksum] {mode : WALRecoveryMode}

theorem DeliversFrom.congr {sizes : Table Nat Nat} {locals locals' : Locals} {r r' : LogReader} {records : List Bytes}
    (same : readRecordLoop mode locals r = readRecordLoop mode locals' r')
    (delivers : DeliversFrom mode sizes locals' r' records) : DeliversFrom mode sizes locals r records := by
  cases records with
  | nil => rwa [DeliversFrom, same]
  | cons record records => rwa [DeliversFrom, same]

theorem calls_delivered (calls : List WriterCall) (s : StampedWriter) (tracked : Tracked s.log)
    (fits : EachStep StampedWriter.call SizesFit s calls) (encoded : ∀ call ∈ calls, SizesEncoded call) :
    ∃ out, (calls.foldl StampedWriter.call s).log.dest = s.log.dest ++ out ∧
      ∀ locals r, locals.inFragmentedRecord = false → locals.scratch = [] → Own s.log r → r.reports = [] →
        r.recordedCfToTsSz = s.recordedCfToTsSz → At s.log.blockOffset out r →
        DeliversFrom mode (calls.foldl StampedWriter.call s).recordedCfToTsSz locals r (added calls) := by
  induction calls generalizing s with
  | nil =>
    refine ⟨[], (append_nil _).symm, ?_⟩
    intro locals r closed _ _ unreported recorded here
    obtain ⟨r', ended, quiet⟩ := @At.none_left _ mode locals r _ here closed
    exact ⟨r', ended, quiet.reports.trans unreported, quiet.sizes.trans recorded⟩
  | cons call calls ih =>
    obtain ⟨later, dest', delivered⟩ := ih (s.call call) (call_tracked tracked fits.1) fits.2
      (fun other listed => encoded other (mem_cons_of_mem _ listed))
    have known := encoded call mem_cons_self
    cases call with
    | addRecord slice =>
      obtain ⟨out, emits⟩ := addRecordLoop_emits s.log true slice
      obtain ⟨dest, number, recycled, _⟩ := emits.appends
      refine ⟨out ++ later, ?_, ?_⟩
      · rw [← append_assoc, ← dest]
        exact dest'
      · intro locals r closed blank own unreported recorded here
        obtain ⟨r', read, there, quiet⟩ := @Emits.read _ _ _ _ _ _ emits mode locals r later closed
          (fun _ => blank) (fun first => by cases first) own here
        rw [blank, nil_append] at read
        have none_yet := quiet.reports.trans unreported
        exact ⟨r', read, none_yet, delivered _ r' rfl rfl ((own_iff number recycled quiet.logNumber).mpr own) none_yet
          (quiet.sizes.trans recorded) there⟩
    | maybeAddUserDefinedTimestampSizeRecord cfToTsSz =>
      have fit := fits.1
      rw [SizesFit] at fit
      simp only [StampedWriter.call, maybeAddUserDefinedTimestampSizeRecord, foldl_cons] at dest' delivered ⊢
      by_cases nothing : (tsSzToRecord s.recordedCfToTsSz cfToTsSz).1 = []
      · have same : (tsSzToRecord s.recordedCfToTsSz cfToTsSz).2 = s.recordedCfToTsSz := by
          have update := updateRecorded_tsSzToRecord s.recordedCfToTsSz cfToTsSz
          rw [nothing] at update
          exact (congrArg Prod.snd update).symm
        rw [if_pos nothing] at dest' delivered ⊢
        refine ⟨later, dest', fun locals r closed blank own unreported recorded here => ?_⟩
        exact delivered locals r closed blank own unreported (recorded.trans same.symm) here
      · rw [if_neg nothing, emitPhysicalRecord_eq, sizeRecord_length] at dest' delivered ⊢
        refine ⟨_, dest'.trans (append_assoc ..), fun locals r closed blank own unreported recorded here => ?_⟩
        rw [← recorded] at here delivered ⊢
        obtain ⟨locals', r', same, closed', blank', there, number, reports, sizes⟩ := @At.read_sizes _ _ mode locals
          s.log r later closed own known (by rw [recorded]; exact fit.resolve_left nothing) here
        exact .congr same (delivered locals' r' closed' blank' ((own_iff rfl rfl number).mpr own)
          (reports.trans unreported) sizes there)

/-- Everything stays inside the blocks and comes back exactly if the sizes to record always fit into the block. -/
theorem wal_blocks_iff (mode : WALRecoveryMode) (logNumber : UInt64) (recycleLogFiles checksum : Bool)
    (known : recycleLogFiles = true → logNumber.toNat < 2 ^ 32) (calls : List WriterCall)
    (encoded : ∀ call ∈ calls, SizesEncoded call) :
    (Throughout StampedWriter.call (fun s => s.log.blockOffset ≤ kBlockSize) (.new logNumber recycleLogFiles) calls ∧
      EachStep StampedWriter.call InOneBlock (.new logNumber recycleLogFiles) calls ∧
      DeliversFrom mode (calls.foldl StampedWriter.call (.new logNumber recycleLogFiles)).recordedCfToTsSz ⟨false, 0, []⟩
        (LogReader.new ⟨(calls.foldl StampedWriter.call (.new logNumber recycleLogFiles)).log.dest, none⟩ checksum
          logNumber) (added calls)) ↔
      EachStep StampedWriter.call SizesFit (.new logNumber recycleLogFiles) calls := by
  have start : Tracked (StampedWriter.new logNumber recycleLogFiles).log := ⟨Nat.zero_le _, rfl⟩
  have within_iff := @throughout_iff _ _ StampedWriter.call (fun s => s.log.blockOffset ≤ kBlockSize)
    (fun s => Tracked s.log) SizesFit (fun s call tracked _ => ⟨sizesFit_of_within, fun fits => (call_tracked tracked fits).within⟩)
    (fun s call tracked fits => call_tracked tracked fits) _ start start.within calls
  refine ⟨fun good => within_iff.mp good.1, fun fits => ⟨within_iff.mpr fits, ?_, ?_⟩⟩
  · exact fits.of_inv (fun s call tracked fits => ⟨call_tracked tracked fits, call_inOneBlock tracked fits⟩) start
  · obtain ⟨out, dest, delivered⟩ := @calls_delivered _ mode calls _ start fits encoded
    obtain ⟨r, same, here, quiet⟩ := readRecord_new mode
      (calls.foldl StampedWriter.call (.new logNumber recycleLogFiles)).log.dest checksum logNumber
    rw [dest] at here
    exact .congr same (delivered ⟨false, 0, []⟩ r rfl rfl
      ((own_new_iff logNumber recycleLogFiles r quiet.logNumber).mpr known) quiet.reports quiet.sizes here)

end

theorem first_sizes_recorded : DeliversFrom .kAbsoluteConsistency (AList.insert 1 8 ∅) ⟨false, 0, []⟩
    (LogReader.new ⟨([.maybeAddUserDefinedTimestampSizeRecord [(1, 8)], .addRecord [3]].foldl StampedWriter.call
      (.new 5 true)).log.dest, none⟩ true 5) [[3]] :=
  ((wal_blocks_iff .kAbsoluteConsistency 5 true true (by decide)
    [.maybeAddUserDefinedTimestampSizeRecord [(1, 8)], .addRecord [3]] (by
      intro call listed
      rcases mem_cons.mp listed with rfl | listed
      · simp [SizesEncoded]
      · cases mem_singleton.mp listed
        trivial)).mpr ⟨.inr (by decide), trivial, trivial⟩).2.2

theorem not_within_of_length {record : Bytes} (length : record.length = 32750) :
    ¬ Throughout StampedWriter.call (fun s => s.log.blockOffset ≤ kBlockSize) (.new 5 false)
      [.addRecord record, .maybeAddUserDefinedTimestampSizeRecord [(1, 8)]] := by
  rintro ⟨_, _, beyond⟩
  have fit := sizesFit_of_within beyond
  have whole : (LogWriter.new 5 false).rest record = [] := by
    rw [rest_eq, drop_eq_nil_iff, length]
    decide
  have offset : ((LogWriter.new 5 false).addRecord record).blockOffset = 32757 := by
    rw [addRecord, addRecordLoop, if_pos whole, addFragment_eq]
    simp only [fragmentBytes_length, length]
    decide
  have header : ((LogWriter.new 5 false).addRecord record).headerSize = 7 := by
    rw [addRecord, addRecordLoop, if_pos whole, addFragment_headerSize]
    rfl
  rcases fit with none_new | fits
  · cases none_new
  · simp only [StampedWriter.call, StampedWriter.new, offset, header] at fits
    exact absurd fits (by decide)

theorem sizes_cross_block : ¬ Throughout StampedWriter.call (fun s => s.log.blockOffset ≤ kBlockSize) (.new 5 false)
      [.addRecord (replicate 32750 0), .maybeAddUserDefinedTimestampSizeRecord [(1, 8)]] :=
  not_within_of_length (length_replicate ..)

end WalProof
