import ZonedStorage.Device.Open
import ZonedStorage.MetaLog.ReadRecord
import ZonedStorage.Resumption.Progress

namespace ZenFSProof

open ByteString Resumption Resumption.Prog ZenFSModel ZenFSModel.ZenMetaLog List Device

def refusal : Status := Status.noSpace "Not enough capacity for append"

structure LogCall where
  record : Bytes
  before : Device
  result : Except Status Unit
  after : Device

def acknowledged (calls : List LogCall) : List Bytes := (calls.filter (fun call => call.result.isOk)).map (·.record)

theorem acknowledged_append (calls : List LogCall) (call : LogCall) :
    acknowledged (calls ++ [call]) = acknowledged calls ++ if call.result.isOk then [call.record] else [] := by
  simp only [acknowledged, filter_append, map_append, filter_cons, filter_nil]
  split <;> rfl

def Refuses (i : Nat) (call : LogCall) : Prop :=
  (call.before.zones i).capacity < physSz call.before.geo.blockSz call.record.length →
    call.result = .error refusal ∧ call.after = call.before

/-- The record can be read as an `int` many bytes, or even the low 32 bits of its size are too much for the zone. -/
def Sizeable (i : Nat) (call : LogCall) : Prop :=
  call.record.length < 2 ^ 31 ∨
    (call.before.zones i).capacity < physSz call.before.geo.blockSz call.record.length % 2 ^ 32

theorem backendRead_length {size offset : Nat} {direct : Bool} {d : Device} {bytes : Bytes}
    (answered : (backendRead size offset direct d).1 = some bytes) : bytes.length ≤ size := by
  simp only [backendRead] at answered
  split at answered
  · cases answered
  · split at answered
    · cases answered
      rw [Memory.read_length]
      exact taken_le d size
    · simp only at answered
      split at answered
      · cases answered
        exact Nat.zero_le size
      · cases answered

theorem readLoop_length (direct : Bool) (rounds offset left : Nat) (buf : Bytes) (d : Device) :
    wp (fun _ => True) True (readLoop direct rounds offset left buf)
      (fun result _ => ∀ bytes, result = .ok (some bytes) → bytes.length ≤ buf.length + left) d := by
  induction rounds generalizing offset left buf d with
  | zero =>
    cases left with
    | zero =>
      rintro bytes ⟨⟩
      exact Nat.le_refl _
    | succ left => trivial
  | succ rounds ih =>
    cases left with
    | zero =>
      rintro bytes ⟨⟩
      exact Nat.le_refl _
    | succ left =>
      simp only [readLoop, wp_bind, wp_act, onOk_ok, true_and]
      rcases answered : (backendRead (left + 1) offset direct d).1 with _ | bytes
      · rintro bytes ⟨⟩
      · have within := backendRead_length answered
        rcases bytes with _ | ⟨byte, more⟩
        · rintro bytes ⟨⟩
          exact Nat.le_add_right _ _
        · refine wp_mono ?_ (ih _ _ _ _)
          intro result _ shorter bytes done
          have total := shorter bytes done
          rw [length_append] at total
          omega

theorem log_read_readable (log : ZenMetaLog) (n : Nat) (d : Device) :
    wp (fun _ => True) True (log.read n) (fun result _ => ∀ bytes log', result = .ok (bytes, log') → Readable bytes) d := by
  simp only [ZenMetaLog.read, zoneAt, wp_bind (Prog.read _), wp_read, onOk_ok, true_and]
  split
  · rintro bytes log' ⟨⟩
    exact Nat.two_pow_pos 31
  · split
    · rintro bytes log' ⟨⟩
    split
    · rintro bytes log' ⟨⟩
      exact Nat.two_pow_pos 31
    · rw [wp_bind]
      have length : wp (fun _ => True) True (Device.read log.readPos n false)
          (fun result _ => ∀ bytes, result = .ok (some bytes) → Readable bytes) d := by
        simp only [Device.read]
        split
        · rintro bytes ⟨⟩
        · refine wp_mono ?_ (readLoop_length false _ _ _ _ d)
          intro result _ shorter bytes done
          have within := shorter bytes done
          unfold Readable
          rw [length_nil] at within
          omega
      refine wp_mono ?_ length
      rintro (status | _ | bytes) d' short
      · rintro bytes log' ⟨⟩
      · rintro bytes log' ⟨⟩
      · simp only [onOk_ok]
        split
        · trivial
        · rintro _ log' ⟨⟩
          exact short bytes rfl

section

variable [Checksum]

/-- Calls of `AddRecord` one after the other on a zone, each of which has returned OK or `NoSpace`. -/
inductive LogRun (i : Nat) (d : Device) : List LogCall → Device → Prop where
  | start : LogRun i d [] d
  | call {calls : List LogCall} {now after : Device} {record : Bytes} {result : Except Status Unit}
    (earlier : LogRun i d calls now) (some_data : record ≠ []) (short : record.length < 2 ^ 32)
    (ran : (addRecord i record).run now = some (result, after))
    (settled : result = .ok () ∨ result = .error refusal) : LogRun i d (calls ++ [⟨record, now, result, after⟩]) after

def readRecords : Nat → ZenMetaLog → Proc Device (List Bytes)
  | 0, _ => pure []
  | n + 1, log => do
    let (record, log) ← readRecord log
    pure (record :: (← readRecords n log))

def ReadsBack (i : Nat) (d : Device) (records : List Bytes) : Prop :=
  ∃ d', (readRecords (records.length + 1) (open' d i)).run d = some (.ok (records ++ [[]]), d')

section

variable {i : Nat} {d d' : Device} {record : Bytes} {result : Except Status Unit}

theorem addRecord_fits (short : record.length < 2 ^ 32) (ran : (addRecord i record).run d = some (result, d'))
    (fits : physSz d.geo.blockSz record.length % 2 ^ 32 ≤ (d.zones i).capacity) : result ≠ .error refusal := by
  have size : (recordBuffer d.geo.blockSz record).length = _ := recordBuffer_length_of_lt short
  refine (wp_partial_iff _ (fun result _ => result ≠ .error refusal) d).mp ?_ _ _ ran
  simp only [addRecord, Zone.append, zoneAt, wp_bind, wp_read, onOk_ok, true_and]
  rw [if_neg (by rw [length_take, size]; omega)]
  refine wp_appendLoop _ (Nat.le_refl _) ⟨fun _ _ _ _ => trivial, ?_, ?_⟩
  · intro k c _ _ _ msg same
    cases same
  · intro c _ same
    cases same

theorem addRecord_refused (short : record.length < 2 ^ 32) (ran : (addRecord i record).run d = some (result, d'))
    (full : (d.zones i).capacity < physSz d.geo.blockSz record.length % 2 ^ 32) :
    result = .error refusal ∧ d' = d := by
  have size : (recordBuffer d.geo.blockSz record).length = _ := recordBuffer_length_of_lt short
  refine (wp_partial_iff _ (fun result d' => result = .error refusal ∧ d' = d) d).mp ?_ _ _ ran
  simp only [addRecord, Zone.append, zoneAt, wp_bind, wp_read, onOk_ok, true_and]
  rw [if_pos (by rw [length_take, size]; omega)]
  exact ⟨rfl, rfl⟩

theorem addRecord_written (readable : Readable record) (ran : (addRecord i record).run d = some (.ok (), d')) :
    physSz d.geo.blockSz record.length ≤ (d.zones i).capacity ∧
      ∃ c, d' = written d i (recordBuffer d.geo.blockSz record) c := by
  have sector := d.geo.sector_le
  have size : (recordBuffer d.geo.blockSz record).length = _ := recordBuffer_length readable
  have bound := physSz_lt readable (by omega : 0 < d.geo.blockSz) d.geo.block_lt
  refine (wp_partial_iff _ (fun result d' => result = .ok () → physSz d.geo.blockSz record.length ≤ (d.zones i).capacity ∧
    ∃ c, d' = written d i (recordBuffer d.geo.blockSz record) c) d).mp ?_ _ _ ran rfl
  simp only [addRecord, wp_bind, wp_read, onOk_ok, true_and]
  apply wp_append (by rw [size]; exact bound) trivial
  · intro _ done
    cases done
  · intro fits
    rw [size] at fits
    refine ⟨fun _ _ _ _ => trivial, ?_, ?_⟩
    · intro k c _ _ _ msg done
      cases done
    · exact fun c _ _ => ⟨fits, c, rfl⟩

end

theorem readRecord_readable (log : ZenMetaLog) (d : Device) : wp (fun _ => True) True (readRecord log)
      (fun result _ => ∀ record log', result = .ok (record, log') → Readable record) d := by
  rw [readRecord, wp_bind]
  refine wp_mono ?_ (log_read_readable log zMetaHeaderSize d)
  rintro (status | ⟨header, log₁⟩) d₁ short
  · rintro record log' ⟨⟩
  simp only [onOk_ok]
  split
  · rintro record log' ⟨⟩
    exact Nat.two_pow_pos 31
  · rw [wp_bind]
    refine wp_mono ?_ (log_read_readable log₁ _ d₁)
    rintro (status | ⟨body, log₂⟩) d₂ short
    · rintro record log' ⟨⟩
    simp only [onOk_ok]
    split
    · rintro record log' ⟨⟩
    · simp only [wp_bind, wp_read, onOk_ok, wp_pure, true_and]
      rintro record log' ⟨⟩
      exact short body log₂ rfl

theorem readRecords_readable (n : Nat) (log : ZenMetaLog) (d : Device) : wp (fun _ => True) True (readRecords n log)
      (fun result _ => ∀ records, result = .ok records → ∀ record ∈ records, Readable record) d := by
  induction n generalizing log d with
  | zero =>
    rintro records ⟨⟩ record among
    cases among
  | succ n ih =>
    rw [readRecords, wp_bind]
    refine wp_mono ?_ (readRecord_readable log d)
    rintro (status | ⟨first, log₁⟩) d₁ short
    · rintro records ⟨⟩
    simp only [onOk_ok, wp_bind]
    refine wp_mono ?_ (ih log₁ d₁)
    rintro (status | rest) d₂ others
    · rintro records ⟨⟩
    · rintro records ⟨⟩ record among
      rcases mem_cons.mp among with rfl | later
      · exact short record log₁ rfl
      · exact others rest rfl record later

theorem wp_readRecords {i : Nat} {d : Device} {pos : Nat} {records : List Bytes}
    (post : Except Status (List Bytes) → Prop) (healthy : Healthy d) (holds : Holds d pos records) (aligned : d.geo.blockSz ∣ pos)
    (below : pos + recordsLength d.geo.blockSz records ≤ (d.zones i).wp)
    (inside : pos + recordsLength d.geo.blockSz records ≤ (d.zones i).start + (d.zones i).maxCapacity)
    (last : ∀ c, wp (fun _ => True) False (readRecord ⟨i, pos + recordsLength d.geo.blockSz records⟩)
      (fun result _ => post (result.map (fun read => records ++ [read.1]))) (withCalls d c)) :
    wp (fun _ => True) False (readRecords (records.length + 1) ⟨i, pos⟩) (fun result _ => post result) d := by
  induction records generalizing pos d post with
  | nil =>
    rw [length_nil, readRecords, wp_bind]
    refine wp_mono ?_ (last d.calls)
    rintro (status | ⟨record, log⟩) d' done
    · exact done
    · exact done
  | cons record rest ih =>
    obtain ⟨readable, stored, later⟩ := holds
    have sector := d.geo.sector_le
    simp only [recordsLength] at below inside last
    rw [length_cons, readRecords, wp_bind]
    refine wp_readRecord_stored healthy readable (fun _ => trivial) stored aligned ?_ ?_ ?_
    · change pos + physSz d.geo.blockSz record.length ≤ (d.zones i).wp
      omega
    · change pos + physSz d.geo.blockSz record.length ≤ (d.zones i).start + (d.zones i).maxCapacity
      omega
    · intro c
      simp only [onOk_ok, wp_bind]
      have same : (withCalls d c).geo = d.geo := rfl
      have next : d.geo.blockSz ∣ pos + physSz d.geo.blockSz record.length :=
        Nat.dvd_add aligned (alignUp_dvd (by omega) _)
      have still : Holds (withCalls d c) (pos + physSz d.geo.blockSz record.length) rest :=
        later.congr same (fun _ _ _ => rfl)
      have reads := ih (fun result => post (result.map (record :: ·))) (d := withCalls d c) healthy still next
        (by rw [same, Nat.add_assoc]; exact below) (by rw [same, Nat.add_assoc]; exact inside) ?_
      · refine wp_mono ?_ reads
        rintro (status | others) d' done
        · exact done
        · exact done
      · intro c'
        rw [same, Nat.add_assoc]
        refine wp_mono ?_ (last c')
        rintro (status | read) d' done
        · exact done
        · exact done

section

variable {i : Nat} {d d' : Device} {calls : List LogCall}

structure Logged (i : Nat) (d d' : Device) (records : List Bytes) : Prop where
  geo : d'.geo = d.geo
  start : (d'.zones i).start = (d.zones i).start
  limit : (d'.zones i).maxCapacity = (d.zones i).maxCapacity
  stop : (d'.zones i).wp = (d.zones i).start + recordsLength d.geo.blockSz records
  room : (d'.zones i).wp + (d'.zones i).capacity = (d.zones i).start + (d.zones i).maxCapacity
  holds : Holds d' (d.zones i).start records

theorem Logged.add {records : List Bytes} {now after : Device} {record : Bytes} (logged : Logged i d now records)
    (readable : Readable record) (ran : (addRecord i record).run now = some (.ok (), after)) :
    Logged i d after (records ++ [record]) := by
  obtain ⟨fits, c, rfl⟩ := addRecord_written readable ran
  have size : (recordBuffer now.geo.blockSz record).length = _ := recordBuffer_length readable
  have zone : ∀ c, (written now i (recordBuffer now.geo.blockSz record) c).zones i = { now.zones i with
      wp := (now.zones i).wp + (recordBuffer now.geo.blockSz record).length
      capacity := (now.zones i).capacity - (recordBuffer now.geo.blockSz record).length } :=
    fun c => Function.update_self ..
  have room := logged.room
  have stop := logged.stop
  have geo := logged.geo
  refine ⟨geo, ?_, ?_, ?_, ?_, ?_⟩
  · rw [zone]
    exact logged.start
  · rw [zone]
    exact logged.limit
  · rw [zone, size, recordsLength_append, geo]
    simp only [recordsLength]
    omega
  · rw [zone, size]
    simp only
    omega
  · refine Holds.append.mpr ⟨?_, readable, ?_, trivial⟩
    · have same : (written now i (recordBuffer now.geo.blockSz record) c).geo = now.geo := rfl
      refine logged.holds.congr same ?_
      intro a _ below
      rw [geo] at below
      refine Memory.write_outside (Or.inl ?_)
      omega
    · simp only [written]
      rw [geo, ← stop, ← geo, ← size]
      exact Memory.read_write ..

theorem LogRun.settles (run : LogRun i d calls d') {call : LogCall} (among : call ∈ calls) :
    call.record.length < 2 ^ 32 ∧ (addRecord i call.record).run call.before = some (call.result, call.after) ∧
      (call.result = .ok () ∨ call.result = .error refusal) := by
  induction run with
  | start => cases among
  | call earlier some_data short ran settled ih =>
    rcases mem_append.mp among with before | last
    · exact ih before
    · cases mem_singleton.mp last
      exact ⟨short, ran, settled⟩

theorem LogRun.logged (run : LogRun i d calls d') (empty : (d.zones i).wp = (d.zones i).start)
    (whole : (d.zones i).capacity = (d.zones i).maxCapacity) (sizeable : ∀ call ∈ calls, Sizeable i call) :
    Logged i d d' (acknowledged calls) := by
  induction run with
  | start => exact ⟨rfl, rfl, rfl, empty, by rw [empty, whole], trivial⟩
  | @call calls now after record result earlier some_data short ran settled ih =>
    have logged := ih (fun call among => sizeable call (mem_append_left _ among))
    have last : Sizeable i ⟨record, now, result, after⟩ := sizeable _ (mem_append_right _ mem_cons_self)
    rw [acknowledged_append]
    rcases settled with rfl | rfl
    · have readable : Readable record := by
        rcases last with small | full
        · exact small
        · cases (addRecord_refused short ran full).1
      exact logged.add readable ran
    · have unchanged : after = now := by
        by_cases full : (now.zones i).capacity < physSz now.geo.blockSz record.length % 2 ^ 32
        · exact (addRecord_refused short ran full).2
        · exact absurd rfl (addRecord_fits short ran (by omega))
      rw [unchanged]
      simpa [Except.isOk, Except.toBool] using logged

theorem ReadsBack.readable {records : List Bytes} (reads : ReadsBack i d records) {record : Bytes}
    (among : record ∈ records) : Readable record := by
  obtain ⟨d', ran⟩ := reads
  have short := (wp_partial_iff _ _ _).mp (readRecords_readable (records.length + 1) (open' d i) d) _ _ ran
  exact short _ rfl record (mem_append_left _ among)

theorem LogRun.sizeable (run : LogRun i d calls d') (readable : ∀ record ∈ acknowledged calls, Readable record) :
    ∀ call ∈ calls, Sizeable i call := by
  intro call among
  obtain ⟨short, ran, settled⟩ := run.settles among
  by_cases full : (call.before.zones i).capacity < physSz call.before.geo.blockSz call.record.length % 2 ^ 32
  · exact Or.inr full
  · have accepted : call.result = .ok () := by
      rcases settled with accepted | refused
      · exact accepted
      · exact absurd refused (addRecord_fits short ran (by omega))
    refine Or.inl (readable call.record (mem_map.mpr ⟨call, mem_filter.mpr ⟨among, ?_⟩, rfl⟩))
    rw [accepted]
    rfl

theorem LogRun.refuses (run : LogRun i d calls d') (sizeable : ∀ call ∈ calls, Sizeable i call) :
    ∀ call ∈ calls, Refuses i call := by
  intro call among large
  obtain ⟨short, ran, _⟩ := run.settles among
  refine addRecord_refused short ran ?_
  rcases sizeable call among with small | full
  · have sector := call.before.geo.sector_le
    have bound := physSz_lt small (by omega : 0 < call.before.geo.blockSz) call.before.geo.block_lt
    rw [Nat.mod_eq_of_lt bound]
    exact large
  · exact full

end

section

variable {i : Nat} {d d' now : Device} {records : List Bytes}

structure Seen (i : Nat) (d now : Device) : Prop where
  geo : now.geo = d.geo
  mem : now.mem = d.mem
  start : (now.zones i).start = (d.zones i).start
  limit : (now.zones i).maxCapacity = (d.zones i).maxCapacity
  stop : (d.zones i).wp ≤ (now.zones i).wp

theorem Logged.readsBack_iff (logged : Logged i d d' records) (aligned : d.geo.blockSz ∣ (d.zones i).start)
    (seen : Seen i d' now) (healthy : Healthy now)
    (beyond : (d'.zones i).wp < (now.zones i).wp → (d'.zones i).wp = (d'.zones i).start + (d'.zones i).maxCapacity) :
    ReadsBack i now records ↔ (now.zones i).wp = (d'.zones i).wp := by
  have stop := logged.stop
  have room := logged.room
  have block : now.geo.blockSz = d.geo.blockSz := by rw [seen.geo, logged.geo]
  have place : open' now i = ⟨i, (d.zones i).start⟩ := by rw [open', seen.start, logged.start]
  have holds : Holds now (d.zones i).start records :=
    logged.holds.congr seen.geo (fun a _ _ => by rw [seen.mem])
  have limit : (now.zones i).start + (now.zones i).maxCapacity = (d.zones i).start + (d.zones i).maxCapacity := by
    rw [seen.start, seen.limit, logged.start, logged.limit]
  have below := seen.stop
  have inside : (d.zones i).start + recordsLength now.geo.blockSz records ≤
      (now.zones i).start + (now.zones i).maxCapacity := by
    rw [block, limit]
    omega
  have start : now.geo.blockSz ∣ (d.zones i).start := by
    rw [block]
    exact aligned
  have stored : (d.zones i).start + recordsLength now.geo.blockSz records = (d'.zones i).wp := by
    rw [block]
    exact stop.symm
  rw [ReadsBack, place]
  constructor
  · rintro ⟨after, ran⟩
    by_contra different
    have full := beyond (by omega)
    rw [logged.start, logged.limit] at full
    have fails : wp (fun _ => True) False (readRecords (records.length + 1) ⟨i, (d.zones i).start⟩)
        (fun result _ => result ≠ .ok (records ++ [[]])) now := by
      refine wp_readRecords (· ≠ .ok (records ++ [[]])) healthy holds start (by omega) inside ?_
      intro c
      simp only [readRecord, ZenMetaLog.read, zoneAt, wp_bind, wp_read, onOk_ok, true_and, withCalls, stored]
      rw [if_neg (by omega), if_pos (by rw [limit, full]; simp [zMetaHeaderSize])]
      exact fun same => by cases same
    obtain ⟨result, last, again, other⟩ := (wp_total_iff _ _ _).mp fails
    rw [ran] at again
    cases again
    exact other rfl
  · intro same
    have reads : wp (fun _ => True) False (readRecords (records.length + 1) ⟨i, (d.zones i).start⟩)
        (fun result _ => result = .ok (records ++ [[]])) now := by
      refine wp_readRecords (· = .ok (records ++ [[]])) healthy holds start (by omega) inside ?_
      intro c
      refine wp_readRecord_eof trivial ?_ rfl
      change (now.zones i).wp ≤ (d.zones i).start + recordsLength now.geo.blockSz records
      omega
    obtain ⟨result, last, ran, rfl⟩ := (wp_total_iff _ _ _).mp reads
    exact ⟨last, ran⟩

end

def withReplies (d : Device) (replies : Nat → Reply) : Device := { d with replies := replies }

theorem Logged.reopened_iff {i : Nat} {d d' : Device} {records : List Bytes} (logged : Logged i d d' records)
    (aligned : d.geo.blockSz ∣ (d.zones i).start) (limit : (d.zones i).maxCapacity ≤ d.geo.zoneSz)
    {replies : Nat → Reply} (healthy : ∀ n, (replies n).ok = true) :
    ReadsBack i (d'.reopen replies) records ↔ ((d'.zones i).capacity = 0 → (d.zones i).maxCapacity = d.geo.zoneSz) := by
  have room := logged.room
  have wp : ((d'.reopen replies).zones i).wp =
      if (d'.zones i).capacity = 0 then (d.zones i).start + d.geo.zoneSz else (d'.zones i).wp := by
    simp only [reopen, Zone.report, Zone.isFull, beq_iff_eq, logged.start, logged.geo]
  have seen : Seen i d' (d'.reopen replies) := by
    refine ⟨rfl, rfl, rfl, rfl, ?_⟩
    rw [wp]
    split <;> omega
  have beyond : (d'.zones i).wp < ((d'.reopen replies).zones i).wp →
      (d'.zones i).wp = (d'.zones i).start + (d'.zones i).maxCapacity := by
    rw [wp, logged.start, logged.limit]
    split <;> omega
  rw [logged.readsBack_iff aligned seen healthy beyond, wp]
  split <;> omega

/-- The log gives back what it has acknowledged, in order and with its end, and refuses what does not fit, if and
    only if no record is too long. Where the device has been opened again, the zone must not be full short of its
    end either. -/
theorem log_round_trip_iff {i : Nat} {d d' : Device} {calls : List LogCall}
    (aligned : d.geo.blockSz ∣ (d.zones i).start) (limit : (d.zones i).maxCapacity ≤ d.geo.zoneSz)
    (empty : (d.zones i).wp = (d.zones i).start) (whole : (d.zones i).capacity = (d.zones i).maxCapacity)
    (run : LogRun i d calls d') {replies : Nat → Reply} (healthy : ∀ n, (replies n).ok = true) :
    ((∀ call ∈ calls, Refuses i call) ∧ ReadsBack i (withReplies d' replies) (acknowledged calls) ↔
      ∀ call ∈ calls, Sizeable i call) ∧
    ((∀ call ∈ calls, Refuses i call) ∧ ReadsBack i (d'.reopen replies) (acknowledged calls) ↔
      (∀ call ∈ calls, Sizeable i call) ∧
        ((d'.zones i).capacity = 0 → (d.zones i).maxCapacity = d.geo.zoneSz)) := by
  have sized : ∀ {now : Device}, ReadsBack i now (acknowledged calls) → ∀ call ∈ calls, Sizeable i call :=
    fun reads => run.sizeable (fun _ among => reads.readable among)
  constructor
  · constructor
    · exact fun both => sized both.2
    · intro sizeable
      have seen : Seen i d' (withReplies d' replies) := ⟨rfl, rfl, rfl, rfl, Nat.le_refl _⟩
      have reads := (run.logged empty whole sizeable).readsBack_iff aligned seen healthy
        (fun beyond => absurd beyond (Nat.lt_irrefl _))
      exact ⟨run.refuses sizeable, reads.mpr rfl⟩
  · constructor
    · rintro ⟨_, reads⟩
      have sizeable := sized reads
      exact ⟨sizeable, ((run.logged empty whole sizeable).reopened_iff aligned limit healthy).mp reads⟩
    · rintro ⟨sizeable, ends⟩
      exact ⟨run.refuses sizeable, ((run.logged empty whole sizeable).reopened_iff aligned limit healthy).mpr ends⟩

theorem addRecord_taken {i : Nat} {d : Device} {record : Bytes} (healthy : Healthy d)
    (fits : (recordBuffer d.geo.blockSz record).length % 2 ^ 32 ≤ (d.zones i).capacity) :
    wp (fun _ => True) False (addRecord i record) (fun result _ => result = .ok ()) d := by
  simp only [addRecord, Zone.append, zoneAt, wp_bind, wp_read, onOk_ok, true_and]
  rw [if_neg (by rw [length_take]; omega)]
  refine wp_appendLoop _ (Nat.le_refl _) ⟨fun _ _ _ _ => trivial, ?_, fun _ _ => rfl⟩
  exact fun _ _ _ _ broken => absurd broken healthy.not_broken

theorem addRecord_accepts {i : Nat} {d : Device} {record : Bytes} (healthy : Healthy d)
    (short : record.length < 2 ^ 32)
    (fits : physSz d.geo.blockSz record.length % 2 ^ 32 ≤ (d.zones i).capacity) :
    ∃ d', (addRecord i record).run d = some (.ok (), d') := by
  rw [← recordBuffer_length_of_lt short] at fits
  obtain ⟨result, d', ran, rfl⟩ := (wp_total_iff _ _ _).mp (addRecord_taken healthy fits)
  exact ⟨d', ran⟩

end

def wideGeometry : Geometry where
  blockSz := 4096
  zoneSz := 2 ^ 32
  nrZones := 3
  sector_le := by decide
  block_lt := by decide
  block_dvd := by decide
  zone_pos := by decide
  zone_lt := by decide
  nrZones_lt := by decide
  device_lt := by decide

def wideDevice : Device where
  geo := wideGeometry
  count := 3
  zones i := ⟨i * 2 ^ 32, 2 ^ 32, 2 ^ 32, i * 2 ^ 32, .notSet, 0, false⟩
  offline _ := false
  mem := Memory.zero
  replies := alwaysOk
  calls := 0

/-- A record of two gigabytes is acknowledged and can not be read. -/
theorem long_record_is_lost : wideDevice.geo.blockSz ∣ (wideDevice.zones 0).start ∧
    (wideDevice.zones 0).wp = (wideDevice.zones 0).start ∧
    (wideDevice.zones 0).capacity = (wideDevice.zones 0).maxCapacity ∧
    ∃ calls d', LogRun 0 wideDevice calls d' ∧ acknowledged calls = [replicate (2 ^ 31) 0] ∧
      ¬ ReadsBack 0 (withReplies d' alwaysOk) (acknowledged calls) := by
  have length : (replicate (2 ^ 31) (0 : UInt8)).length = 2 ^ 31 := length_replicate
  have accepted : ∃ d', (addRecord 0 (replicate (2 ^ 31) 0)).run wideDevice = some (.ok (), d') :=
    addRecord_accepts (fun _ => rfl) (by rw [length]; decide) (by rw [length]; decide +kernel)
  obtain ⟨d', ran⟩ := accepted
  have run : LogRun 0 wideDevice [⟨replicate (2 ^ 31) 0, wideDevice, .ok (), d'⟩] d' := by
    refine .call .start ?_ (by rw [length]; decide) ran (Or.inl rfl)
    intro none_left
    rw [none_left] at length
    cases length
  refine ⟨Nat.dvd_zero _, rfl, rfl, _, d', run, rfl, fun reads => ?_⟩
  have short : Readable (replicate (2 ^ 31) 0) := reads.readable mem_cons_self
  rw [Readable, length] at short
  exact absurd short (Nat.lt_irrefl _)

def blockRecord : Bytes := replicate 504 7

def shortRecord : Bytes := [1, 2, 3]

def loggedOne : Device := ((addRecord 0 blockRecord).run (sampleDevice 0 3)).elim (sampleDevice 0 3) Prod.snd

def loggedTwo : Device := ((addRecord 0 shortRecord).run loggedOne).elim loggedOne Prod.snd

theorem two_records_are_read : ∃ calls, LogRun 0 (sampleDevice 0 3) calls loggedTwo ∧
    acknowledged calls = [blockRecord, shortRecord] ∧
    ReadsBack 0 (withReplies loggedTwo alwaysOk) (acknowledged calls) := by
  have first : LogRun 0 (sampleDevice 0 3) [⟨blockRecord, sampleDevice 0 3, .ok (), loggedOne⟩] loggedOne :=
    .call .start (by decide +kernel) (by decide +kernel) (run_eq_some (by decide +kernel)) (Or.inl rfl)
  have run : LogRun 0 (sampleDevice 0 3) [⟨blockRecord, sampleDevice 0 3, .ok (), loggedOne⟩,
      ⟨shortRecord, loggedOne, .ok (), loggedTwo⟩] loggedTwo :=
    first.call (by decide +kernel) (by decide +kernel) (run_eq_some (by decide +kernel)) (Or.inl rfl)
  have small : blockRecord.length < 2 ^ 31 ∧ shortRecord.length < 2 ^ 31 := by decide +kernel
  refine ⟨_, run, rfl, ?_⟩
  refine ((log_round_trip_iff (Nat.dvd_zero _) (Nat.le_refl _) rfl rfl run (fun _ => rfl)).1.mpr ?_).2
  simp only [mem_cons, not_mem_nil, or_false, forall_eq_or_imp, forall_eq]
  exact ⟨Or.inl small.1, Or.inl small.2⟩

end ZenFSProof
