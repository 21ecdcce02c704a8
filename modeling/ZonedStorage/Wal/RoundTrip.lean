import Mathlib.Data.UInt
import ZonedStorage.Wal.Fragments

namespace WalProof

open ByteString WalLog WalLog.LogReader ZenFSModel List LogWriter

section

variable {mode : WALRecoveryMode} {locals : Locals} {r : LogReader} {w : LogWriter} {begin : Bool}

theorem giveUp_closed (closed : locals.inFragmentedRecord = false) : giveUp locals r = .again locals r := by
  rw [giveUp, closed]
  rfl

theorem atEof_unreported (quiet : (locals.inFragmentedRecord && strict mode) = false) :
    atEof mode locals r = .stopped r := by
  rw [atEof, quiet]
  rfl

theorem judge_fragment (placed : locals.inFragmentedRecord = !begin) (start : begin = true → locals.scratch = [])
    (offset : Nat) (final : Bool) (fragment : Bytes) (r : LogReader) :
    ∃ locals' r', judge mode locals offset ⟨w.fragmentType begin final, fragment, 0⟩ r =
        (if final then .found (locals.scratch ++ fragment) r' else .again locals' r') ∧
      locals'.inFragmentedRecord = true ∧ locals'.scratch = locals.scratch ++ fragment ∧
      ∃ lastRecordOffset firstRecordRead,
        r' = { r with lastRecordOffset := lastRecordOffset, firstRecordRead := firstRecordRead } := by
  obtain ⟨inFragmentedRecord, prospectiveRecordOffset, scratch⟩ := locals
  obtain ⟨dest, blockOffset, logNumber, recycled⟩ := w
  cases begin with
  | true =>
    cases (placed : inFragmentedRecord = false)
    cases (start rfl : scratch = [])
    refine ⟨⟨true, offset, fragment⟩, if final then { r with lastRecordOffset := offset, firstRecordRead := true } else r,
      ?_, rfl, rfl, ?_⟩
    · cases recycled <;> cases final <;> rfl
    · cases final
      · exact ⟨_, _, rfl⟩
      · exact ⟨_, _, rfl⟩
  | false =>
    cases (placed : inFragmentedRecord = true)
    refine ⟨⟨true, prospectiveRecordOffset, scratch ++ fragment⟩, if final then
      { r with lastRecordOffset := prospectiveRecordOffset, firstRecordRead := true } else r, ?_, rfl, rfl, ?_⟩
    · cases recycled <;> cases final <;> rfl
    · cases final
      · exact ⟨_, _, rfl⟩
      · exact ⟨_, _, rfl⟩

end

section

variable [Checksum] {mode : WALRecoveryMode} {locals locals' : Locals} {r r₁ r' : LogReader} {physical : Physical}

theorem readRecordLoop_found {record : Bytes} (read : r.readPhysicalRecord = (physical, r₁))
    (verdict : judge mode locals (r.endOfBufferOffset - r.buffer.length) physical r₁ = .found record r') :
    readRecordLoop mode locals r = (some record, r') := by
  rw [readRecordLoop]
  split <;> rename_i same <;> rw [read, verdict] at same <;> cases same
  rfl

theorem readRecordLoop_stopped (read : r.readPhysicalRecord = (physical, r₁))
    (verdict : judge mode locals (r.endOfBufferOffset - r.buffer.length) physical r₁ = .stopped r') :
    readRecordLoop mode locals r = (none, r') := by
  rw [readRecordLoop]
  split <;> rename_i same <;> rw [read, verdict] at same <;> cases same
  rfl

theorem readRecordLoop_again (read : r.readPhysicalRecord = (physical, r₁))
    (verdict : judge mode locals (r.endOfBufferOffset - r.buffer.length) physical r₁ = .again locals' r') :
    readRecordLoop mode locals r = readRecordLoop mode locals' r' := by
  rw [readRecordLoop]
  split <;> rename_i same <;> rw [read, verdict] at same <;> cases same
  rfl

theorem At.none_left {o : Nat} (here : At o [] r) (closed : locals.inFragmentedRecord = false) :
    ∃ r', readRecordLoop mode locals r = (none, r') ∧ Quiet r r' := by
  obtain ⟨r', ended, quiet⟩ := here.finished
  refine ⟨r', readRecordLoop_stopped ended ?_, quiet⟩
  exact atEof_unreported (by rw [closed]; rfl)

variable {w : LogWriter} {begin : Bool} {left s : Bytes}

def ReadsOn (mode : WALRecoveryMode) (locals : Locals) (w : LogWriter) (left : Bytes) (r r' : LogReader) : Prop :=
  if left.length ≤ room w then readRecordLoop mode locals r = (some (locals.scratch ++ left), r')
  else ∃ locals', readRecordLoop mode locals r = readRecordLoop mode locals' r' ∧ locals'.inFragmentedRecord = true ∧
    locals'.scratch = locals.scratch ++ left.take (room w)

theorem readsOn_of_read (placed : locals.inFragmentedRecord = !begin) (start : begin = true → locals.scratch = [])
    (own : ¬ Foreign w (nextType w begin left) r) {o : Nat}
    (read : r.readPhysicalRecord = (fragmentRead w begin left r, r₁)) (next : At o s r₁) (quiet : Quiet r r₁) :
    ∃ r', ReadsOn mode locals w left r r' ∧ At o s r' ∧ Quiet r r' := by
  rw [fragmentRead, if_neg own] at read
  obtain ⟨locals', r', verdict, opened, extended, offset, flag, same⟩ := @judge_fragment mode locals w _ placed start
    (r.endOfBufferOffset - r.buffer.length) (decide (left.length ≤ room w)) (left.take (room w)) r₁
  have there : At o s r' ∧ Quiet r r' := by
    rw [same]
    exact ⟨⟨next.inside, next.buffer, next.unread, next.eof, next.sound, next.healthy⟩,
      quiet.sizes, quiet.logNumber, quiet.reports⟩
  refine ⟨r', ?_, there⟩
  rw [ReadsOn]
  by_cases last : left.length ≤ room w
  · rw [if_pos last]
    rw [if_pos (decide_eq_true last)] at verdict
    have found := readRecordLoop_found read verdict
    rw [take_of_length_le last] at found
    exact found
  · rw [if_neg last]
    rw [if_neg (by simpa using last)] at verdict
    exact ⟨locals', readRecordLoop_again read verdict, opened, extended⟩

theorem At.approach (between : locals.inFragmentedRecord = false ∨ trailer w = [])
    (here : At w.blockOffset (trailer w ++ (fragmentBytes w begin left ++ s)) r) :
    ∃ r₁ r₂, readRecordLoop mode locals r = readRecordLoop mode locals r₁ ∧ Quiet r r₁ ∧
      r₁.readPhysicalRecord = (fragmentRead w begin left r₁, r₂) ∧ At (w.addFragment begin left).blockOffset s r₂ ∧
      Quiet r₁ r₂ := by
  by_cases narrow : (trailer w).length < kHeaderSize
  · obtain ⟨r₂, read, next, quiet⟩ := here.read_fragment narrow
    exact ⟨r, r₂, rfl, .refl r, read, next, quiet⟩
  · have wide := Nat.le_of_not_lt narrow
    have closed : locals.inFragmentedRecord = false := by
      refine between.resolve_right (fun none_there => ?_)
      rw [none_there] at wide
      cases wide
    obtain ⟨r₁, read, next, quiet⟩ := here.read_trailer wide
    have full : kBlockSize - w.blockOffset < w.headerSize := by
      by_contra fits
      rw [trailer, if_neg fits] at wide
      cases wide
    have starts : fragmentStart w = 0 := if_pos full
    have within := fragmentBytes_within w begin left
    rw [starts, Nat.zero_add] at within
    obtain ⟨r₂, read', next', quiet'⟩ := @At.read_next _ w _ _ s _ r₁ [] next (by rw [Nat.sub_self]; rfl) (by decide)
      (nextType_emitted w begin left) (take_room_short w left) within
    rw [addFragment_eq, starts, Nat.zero_add]
    exact ⟨r₁, r₂, readRecordLoop_again read (giveUp_closed closed), quiet, read', next', quiet'⟩

theorem At.reads_on (placed : locals.inFragmentedRecord = !begin) (start : begin = true → locals.scratch = [])
    (filled : begin = false → trailer w = []) (own : ¬ Foreign w (nextType w begin left) r)
    (here : At w.blockOffset (trailer w ++ (fragmentBytes w begin left ++ s)) r) :
    ∃ r', ReadsOn mode locals w left r r' ∧ At (w.addFragment begin left).blockOffset s r' ∧ Quiet r r' := by
  have between : locals.inFragmentedRecord = false ∨ trailer w = [] := by
    cases begin with
    | true => exact Or.inl placed
    | false => exact Or.inr (filled rfl)
  obtain ⟨r₁, r₂, same, quiet, read, next, still⟩ := At.approach between here
  have own' : ¬ Foreign w (nextType w begin left) r₁ := by
    rw [Foreign, quiet.logNumber]
    exact own
  obtain ⟨r', reads, there, after⟩ := readsOn_of_read placed start own' read next still
  refine ⟨r', ?_, there, quiet.trans after⟩
  rw [ReadsOn, same]
  exact reads

end

section

variable {w w' : LogWriter} {r r' : LogReader}

def Own (w : LogWriter) (r : LogReader) :
    Prop := w.recycleLogFiles = true → w.logNumber.toNat % 2 ^ 32 = r.logNumber.toNat

theorem foreign_iff (begin : Bool) (left : Bytes) : Foreign w (nextType w begin left) r ↔ ¬ Own w r := by
  rw [Foreign, recyclable_nextType, Own, Classical.not_imp]

theorem own_iff (number : w'.logNumber = w.logNumber) (recycled : w'.recycleLogFiles = w.recycleLogFiles)
    (reader : r'.logNumber = r.logNumber) : Own w' r' ↔ Own w r := by
  rw [Own, Own, number, recycled, reader]

theorem own_addFragment_iff [Checksum] {begin : Bool} {left : Bytes} (quiet : Quiet r r') :
    Own (w.addFragment begin left) r' ↔ Own w r := by
  rw [addFragment_eq]
  exact own_iff rfl rfl quiet.logNumber

end

section

variable [Checksum]

inductive Emits : LogWriter → Bool → Bytes → Bytes → LogWriter → Prop
  | last {w : LogWriter} {begin : Bool} {left : Bytes} : left.length ≤ room w →
      Emits w begin left (trailer w ++ fragmentBytes w begin left) (w.addFragment begin left)
  | more {w w' : LogWriter} {begin : Bool} {left out : Bytes} : room w < left.length →
      Emits (w.addFragment begin left) false (left.drop (room w)) out w' →
      Emits w begin left (trailer w ++ (fragmentBytes w begin left ++ out)) w'

theorem addRecordLoop_emits (w : LogWriter) (begin : Bool) (left : Bytes) :
    ∃ out, Emits w begin left out (w.addRecordLoop begin left) := by
  induction w, begin, left using addRecordLoop.induct with
  | case1 w begin left done =>
    rw [addRecordLoop, if_pos done]
    rw [rest_eq, drop_eq_nil_iff] at done
    exact ⟨_, .last done⟩
  | case2 w begin left more ih =>
    rw [addRecordLoop, if_neg more]
    obtain ⟨out, emits⟩ := ih
    rw [rest_eq] at emits more ⊢
    rw [drop_eq_nil_iff, Nat.not_le] at more
    exact ⟨_, .more more emits⟩

theorem Emits.appends {w w' : LogWriter} {begin : Bool} {left out : Bytes} (emits : Emits w begin left out w') :
    w'.dest = w.dest ++ out ∧ w'.logNumber = w.logNumber ∧ w'.recycleLogFiles = w.recycleLogFiles ∧
      w'.blockOffset ≤ kBlockSize := by
  induction emits with
  | @last w begin left _ =>
    have within := addFragment_within w begin left
    rw [addFragment_eq] at within ⊢
    exact ⟨rfl, rfl, rfl, within⟩
  | @more w w' begin left out _ _ ih =>
    obtain ⟨dest, number, recycled, within⟩ := ih
    rw [addFragment_eq] at dest number recycled
    refine ⟨?_, number, recycled, within⟩
    rw [dest]
    simp only [append_assoc]

theorem trailer_addFragment {w : LogWriter} {begin : Bool} {left : Bytes} (longer : room w < left.length) :
    trailer (w.addFragment begin left) = [] := by
  have full := w.addFragment_blockOffset begin left (by
    rw [rest_eq]
    exact fun none_left => Nat.not_le.mpr longer (drop_eq_nil_iff.mp none_left))
  rw [trailer, Nat.sub_eq_zero_of_le full]
  split <;> rfl

theorem Emits.read {w w' : LogWriter} {begin : Bool} {left out : Bytes} (emits : Emits w begin left out w')
    {mode : WALRecoveryMode} {locals : Locals} {r : LogReader} {s : Bytes} (placed : locals.inFragmentedRecord = !begin)
    (start : begin = true → locals.scratch = []) (filled : begin = false → trailer w = []) (own : Own w r)
    (here : At w.blockOffset (out ++ s) r) :
    ∃ r', readRecordLoop mode locals r = (some (locals.scratch ++ left), r') ∧ At w'.blockOffset s r' ∧ Quiet r r' := by
  induction emits generalizing locals r with
  | @last w begin left fits =>
    rw [append_assoc] at here
    obtain ⟨r', reads, there, quiet⟩ :=
      At.reads_on placed start filled (fun foreign => (foreign_iff begin left).mp foreign own) here
    rw [ReadsOn, if_pos fits] at reads
    exact ⟨r', reads, there, quiet⟩
  | @more w w' begin left out longer emits ih =>
    rw [append_assoc, append_assoc] at here
    obtain ⟨r₁, reads, there, quiet⟩ :=
      At.reads_on placed start filled (fun foreign => (foreign_iff begin left).mp foreign own) here
    rw [ReadsOn, if_neg (Nat.not_le.mpr longer)] at reads
    obtain ⟨locals', same, opened, extended⟩ := reads
    obtain ⟨r', read, after, still⟩ := ih opened (fun first => by cases first) (fun _ => trailer_addFragment longer)
      ((own_addFragment_iff quiet).mpr own) there
    refine ⟨r', ?_, after, quiet.trans still⟩
    rw [same, read, extended, append_assoc, take_append_drop]

/-- Successive calls return the records one after the other, then false, and nothing is reported. -/
def Delivers (mode : WALRecoveryMode) : LogReader → List Bytes → Prop
  | r, [] => ∃ r', readRecord mode r = (none, r') ∧ r'.reports = []
  | r, record :: records => ∃ r', readRecord mode r = (some record, r') ∧ r'.reports = [] ∧ Delivers mode r' records

theorem addRecords_delivered (mode : WALRecoveryMode) (records : List Bytes) (w : LogWriter) :
    ∃ out, (w.addRecords records).dest = w.dest ++ out ∧ ∀ r, Own w r → r.reports = [] → At w.blockOffset out r →
      Delivers mode r records := by
  induction records generalizing w with
  | nil =>
    refine ⟨[], (append_nil _).symm, ?_⟩
    intro r _ unreported here
    obtain ⟨r', ended, quiet⟩ := @At.none_left _ mode ⟨false, 0, []⟩ r _ here rfl
    exact ⟨r', ended, quiet.reports.trans unreported⟩
  | cons record records ih =>
    obtain ⟨out, emits⟩ := addRecordLoop_emits w true record
    obtain ⟨dest, number, recycled, _⟩ := emits.appends
    obtain ⟨later, dest', delivered⟩ := ih (w.addRecord record)
    refine ⟨out ++ later, ?_, ?_⟩
    · rw [← append_assoc, ← dest]
      exact dest'
    · intro r own unreported here
      obtain ⟨r', read, there, quiet⟩ := @Emits.read _ _ _ _ _ _ emits mode ⟨false, 0, []⟩ r later rfl (fun _ => rfl)
        (fun first => by cases first) own here
      have none_yet := quiet.reports.trans unreported
      exact ⟨r', read, none_yet, delivered r' ((own_iff number recycled quiet.logNumber).mpr own) none_yet there⟩

end

section

variable [Checksum] {w w' : LogWriter} {begin : Bool} {left out s : Bytes} {mode : WALRecoveryMode} {locals : Locals}
  {r : LogReader}

theorem At.foreign (closed : locals.inFragmentedRecord = false) (foreign : Foreign w (nextType w begin left) r)
    (here : At w.blockOffset (trailer w ++ (fragmentBytes w begin left ++ s)) r) :
    ∃ r', readRecordLoop mode locals r = (if mode = .kSkipAnyCorruptedRecords then readRecordLoop mode locals r'
      else (none, r')) ∧ At (w.addFragment begin left).blockOffset s r' ∧ Quiet r r' := by
  obtain ⟨r₁, r', same, quiet, read, next, still⟩ := At.approach (Or.inl closed) here
  have foreign' : Foreign w (nextType w begin left) r₁ := by
    rw [Foreign, quiet.logNumber]
    exact foreign
  rw [fragmentRead, if_pos foreign'] at read
  refine ⟨r', ?_, next, quiet.trans still⟩
  rw [same]
  split
  · rename_i skips
    refine readRecordLoop_again read ?_
    rw [judge, if_pos skips]
    exact giveUp_closed closed
  · rename_i stops
    refine readRecordLoop_stopped read ?_
    rw [judge, if_neg stops]
    exact atEof_unreported (by rw [closed]; rfl)

theorem Emits.skipped (emits : Emits w begin left out w') (closed : locals.inFragmentedRecord = false)
    (alien : ¬ Own w r) (here : At w.blockOffset (out ++ s) r) :
    ∃ r', readRecordLoop .kSkipAnyCorruptedRecords locals r = readRecordLoop .kSkipAnyCorruptedRecords locals r' ∧
      At w'.blockOffset s r' ∧ Quiet r r' := by
  induction emits generalizing r with
  | @last w begin left fits =>
    rw [append_assoc] at here
    exact At.foreign closed ((foreign_iff begin left).mpr alien) here
  | @more w w' begin left out longer emits ih =>
    rw [append_assoc, append_assoc] at here
    obtain ⟨r₁, skips, there, quiet⟩ := @At.foreign _ _ _ _ _ .kSkipAnyCorruptedRecords _ _ closed
      ((foreign_iff begin left).mpr alien) here
    obtain ⟨r', rest, after, still⟩ := ih (fun own => alien ((own_addFragment_iff quiet).mp own)) there
    exact ⟨r', skips.trans rest, after, quiet.trans still⟩

theorem Emits.first (emits : Emits w begin left out w') : ∃ more, out = trailer w ++
    (fragmentBytes w begin left ++ more) := by
  cases emits with
  | last _ => exact ⟨[], by rw [append_nil]⟩
  | more _ _ => exact ⟨_, rfl⟩

theorem addRecords_lost (mode : WALRecoveryMode) (records : List Bytes) (w : LogWriter) :
    ∃ out, (w.addRecords records).dest = w.dest ++ out ∧ ∀ r, ¬ Own w r → At w.blockOffset out r →
      (readRecord mode r).1 = none := by
  induction records generalizing w with
  | nil =>
    refine ⟨[], (append_nil _).symm, ?_⟩
    intro r _ here
    obtain ⟨r', ended, _⟩ := @At.none_left _ mode ⟨false, 0, []⟩ r _ here rfl
    exact congrArg Prod.fst ended
  | cons record records ih =>
    obtain ⟨out, emits⟩ := addRecordLoop_emits w true record
    obtain ⟨dest, number, recycled, _⟩ := emits.appends
    obtain ⟨later, dest', lost⟩ := ih (w.addRecord record)
    refine ⟨out ++ later, ?_, ?_⟩
    · rw [← append_assoc, ← dest]
      exact dest'
    · intro r alien here
      by_cases skips : mode = .kSkipAnyCorruptedRecords
      · subst skips
        obtain ⟨r', same, there, quiet⟩ := @Emits.skipped _ _ _ _ _ _ later ⟨false, 0, []⟩ r emits rfl alien here
        rw [readRecord, same]
        exact lost r' (fun own => alien ((own_iff number recycled quiet.logNumber).mp own)) there
      · obtain ⟨more, rfl⟩ := emits.first
        rw [append_assoc, append_assoc] at here
        obtain ⟨r', stops, _⟩ := @At.foreign _ _ _ _ _ mode ⟨false, 0, []⟩ _ rfl ((foreign_iff true record).mpr alien) here
        rw [readRecord, stops, if_neg skips]

end

section

variable [Checksum]

def written (logNumber : UInt64) (recycleLogFiles : Bool) (records : List Bytes) : Bytes :=
  ((new logNumber recycleLogFiles).addRecords records).dest

theorem readRecord_new (mode : WALRecoveryMode) (file : Bytes) (checksum : Bool) (logNum : UInt64) :
    ∃ r, readRecord mode (LogReader.new ⟨file, none⟩ checksum logNum) = readRecord mode r ∧ At 0 file r ∧
      Quiet (LogReader.new ⟨file, none⟩ checksum logNum) r := by
  have here := at_new file checksum logNum
  obtain ⟨r, same, next, quiet, start⟩ := here.skip (by rw [Nat.sub_self]; decide) (Nat.le_add_right _ _)
  rw [Nat.sub_self, drop_zero] at next
  refine ⟨r, ?_, next, quiet⟩
  rw [readRecord, readRecordLoop, readRecord, readRecordLoop, same, start]
  rfl

theorem delivers_congr {mode : WALRecoveryMode} {r r' : LogReader} (same : readRecord mode r = readRecord mode r')
    (records : List Bytes) : Delivers mode r records ↔ Delivers mode r' records := by
  cases records with
  | nil => rw [Delivers, Delivers, same]
  | cons record records => rw [Delivers, Delivers, same]

variable (logNumber : UInt64) (recycleLogFiles checksum : Bool) (mode : WALRecoveryMode) (records : List Bytes)

def opened : LogReader := LogReader.new ⟨written logNumber recycleLogFiles records, none⟩ checksum logNumber

omit [Checksum] in
theorem own_new_iff (r : LogReader) (number : r.logNumber = logNumber) : Own (new logNumber recycleLogFiles) r ↔
    (recycleLogFiles = true → logNumber.toNat < 2 ^ 32) := by
  rw [Own, number]
  refine imp_congr_right (fun _ => ?_)
  change logNumber.toNat % 2 ^ 32 = logNumber.toNat ↔ _
  exact ⟨fun same => by omega, Nat.mod_eq_of_lt⟩

theorem wal_delivered (known : recycleLogFiles = true → logNumber.toNat < 2 ^ 32) :
    Delivers mode (opened logNumber recycleLogFiles checksum records) records := by
  obtain ⟨out, dest, delivered⟩ := addRecords_delivered mode records (new logNumber recycleLogFiles)
  obtain ⟨r, same, here, quiet⟩ := readRecord_new mode (written logNumber recycleLogFiles records) checksum logNumber
  rw [written, dest] at here
  exact (delivers_congr same records).mpr
    (delivered r ((own_new_iff logNumber recycleLogFiles r quiet.logNumber).mpr known) quiet.reports here)

theorem wal_lost (unknown : ¬ (recycleLogFiles = true → logNumber.toNat < 2 ^ 32)) :
    (readRecord mode (opened logNumber recycleLogFiles checksum records)).1 = none := by
  obtain ⟨out, dest, lost⟩ := addRecords_lost mode records (new logNumber recycleLogFiles)
  obtain ⟨r, same, here, quiet⟩ := readRecord_new mode (written logNumber recycleLogFiles records) checksum logNumber
  rw [written, dest] at here
  rw [opened, same]
  exact lost r (fun own => unknown ((own_new_iff logNumber recycleLogFiles r quiet.logNumber).mp own)) here

theorem not_delivers_of_none {r : LogReader} {record : Bytes} (none_found : (readRecord mode r).1 = none) :
    ¬ Delivers mode r (record :: records) := by
  rintro ⟨r', found, _⟩
  rw [found] at none_found
  cases none_found

/-- The records come back just if there are none or the log number can be told from the records. -/
theorem wal_round_trip_iff : Delivers mode (opened logNumber recycleLogFiles checksum records) records ↔
    (recycleLogFiles = true → logNumber.toNat < 2 ^ 32 ∨ records = []) := by
  by_cases known : recycleLogFiles = true → logNumber.toNat < 2 ^ 32
  · exact ⟨fun _ recycled => Or.inl (known recycled), fun _ => wal_delivered _ _ _ _ _ known⟩
  · have none_found := wal_lost logNumber recycleLogFiles checksum mode records known
    rw [Classical.not_imp] at known
    cases records with
    | nil =>
      refine ⟨fun _ _ => Or.inr rfl, fun _ => ?_⟩
      have here := at_new (written logNumber recycleLogFiles []) checksum logNumber
      obtain ⟨r', ended, quiet⟩ := @At.none_left _ mode ⟨false, 0, []⟩ _ _ here rfl
      exact ⟨r', ended, quiet.reports⟩
    | cons record records =>
      refine ⟨fun delivers => absurd delivers (not_delivers_of_none mode records none_found), fun condition => ?_⟩
      cases (condition known.1).resolve_left known.2

end

/-- The log number `2 ^ 32` is stored as zero, and the only record of the log passes for one of another log. -/
theorem large_log_number_is_not_found : ¬ Delivers .kAbsoluteConsistency (opened (2 ^ 32) true true [[7]]) [[7]] ∧
      (readRecord .kAbsoluteConsistency (opened (2 ^ 32) true true [[7]])).1 = none := by
  have none_found := wal_lost (2 ^ 32) true true .kAbsoluteConsistency [[7]] (by decide)
  exact ⟨not_delivers_of_none _ _ none_found, none_found⟩

end WalProof
