import ZonedStorage.MetaLog.Records

namespace ZenFSProof

open ByteString Resumption.Prog ZenFSModel ZenFSModel.ZenMetaLog Checksum

def Healthy (d : Device) : Prop := ∀ n, (d.replies n).ok = true

theorem Healthy.not_broken {d : Device} (healthy : Healthy d) : ¬ Broken d := by
  rintro ⟨n, _, refused⟩
  rw [healthy n] at refused
  cases refused

section

variable {seen : Device → Prop} {stuck : Prop} {d : Device}

theorem wp_log_read {post : Except Status (Bytes × ZenMetaLog) → Device → Prop} {log : ZenMetaLog} {n : Nat}
    (healthy : Healthy d) (small : n < 2 ^ 31) (visited : ∀ c, seen (withCalls d c))
    (below : log.readPos < (d.zones log.zone).wp)
    (inside : log.readPos + n ≤ (d.zones log.zone).start + (d.zones log.zone).maxCapacity)
    (done : ∀ c, post (.ok (d.mem.read log.readPos n, { log with readPos := log.readPos + n })) (withCalls d c)) :
    wp seen stuck (log.read n) post d := by
  simp only [ZenMetaLog.read, Device.zoneAt, wp_bind, wp_read, onOk_ok]
  refine ⟨visited d.calls, ?_⟩
  rw [if_neg (by omega), if_neg (by omega)]
  by_cases empty : n = 0
  · subst empty
    exact done d.calls
  rw [if_neg empty, wp_bind]
  apply wp_deviceRead (Nat.pos_of_ne_zero empty) small (fun direct => by cases direct) visited
  · exact fun broken => (healthy.not_broken broken).elim
  · intro c _
    simp only [onOk_ok, Memory.read_length, Nat.lt_irrefl, if_false, wp_pure]
    exact done c

variable [Checksum]

theorem wp_readRecord_eof {post : Except Status (Bytes × ZenMetaLog) → Device → Prop} {log : ZenMetaLog}
    (here : seen d) (finished : (d.zones log.zone).wp ≤ log.readPos) (done : post (.ok ([], log)) d) :
    wp seen stuck log.readRecord post d := by
  simp only [readRecord, ZenMetaLog.read, Device.zoneAt, wp_bind, wp_read, onOk_ok]
  refine ⟨here, ?_⟩
  rw [if_pos finished]
  exact done

theorem buffer_header {pos : Nat} {record : Bytes} (readable : Readable record)
    (stored : d.mem.read pos (physSz d.geo.blockSz record.length) = recordBuffer d.geo.blockSz record) :
    d.mem.read pos zMetaHeaderSize =
      littleEndian 4 (mask (recordCrc record.length record)) ++ littleEndian 4 record.length := by
  have room : zMetaHeaderSize ≤ physSz d.geo.blockSz record.length :=
    Nat.le_trans (Nat.le_add_left _ _) (alignUp_ge _ _)
  have split : physSz d.geo.blockSz record.length =
      zMetaHeaderSize + (physSz d.geo.blockSz record.length - zMetaHeaderSize) := by omega
  rw [split, Memory.read_add, recordBuffer_parts readable, List.append_assoc] at stored
  refine (List.append_inj stored ?_).1
  simp [zMetaHeaderSize]

theorem buffer_record {pos : Nat} {record : Bytes} (readable : Readable record)
    (stored : d.mem.read pos (physSz d.geo.blockSz record.length) = recordBuffer d.geo.blockSz record) :
    d.mem.read (pos + zMetaHeaderSize) record.length = record := by
  have room : record.length + zMetaHeaderSize ≤ physSz d.geo.blockSz record.length := alignUp_ge _ _
  have split : physSz d.geo.blockSz record.length =
      (zMetaHeaderSize + record.length) +
        (physSz d.geo.blockSz record.length - (record.length + zMetaHeaderSize)) := by omega
  rw [split, Memory.read_add, Memory.read_add, recordBuffer_parts readable] at stored
  have head := (List.append_inj stored (by simp [zMetaHeaderSize]; omega)).1
  exact (List.append_inj head (by simp [zMetaHeaderSize])).2

end

section

def readAt (d : Device) (log : ZenMetaLog) (toRead : Nat) : Except Status (Bytes × ZenMetaLog) :=
  let z := d.zones log.zone
  if z.wp ≤ log.readPos then .ok ([], log)
  else if z.start + z.maxCapacity < log.readPos + toRead then .error (Status.ioError "Read across zone")
  else if 2 ^ 31 ≤ toRead then .error (Status.ioError "Read failed")
  else .ok (d.mem.read log.readPos toRead, { log with readPos := log.readPos + toRead })

theorem readAt_zone {d : Device} {log log' : ZenMetaLog} {toRead : Nat} {bytes : Bytes}
    (read : readAt d log toRead = .ok (bytes, log')) : log'.zone = log.zone ∧ log.readPos ≤ log'.readPos ∧
      bytes.length ≤ toRead := by
  simp only [readAt] at read
  split at read
  · cases read
    exact ⟨rfl, Nat.le_refl _, Nat.zero_le _⟩
  split at read
  · cases read
  split at read
  · cases read
  · cases read
    exact ⟨rfl, Nat.le_add_right _ _, Nat.le_of_eq (Memory.read_length ..)⟩

variable {seen : Device → Prop} {stuck : Prop} {d : Device} {post : Except Status (Bytes × ZenMetaLog) → Device → Prop}
  {log : ZenMetaLog}

theorem wp_readAt {toRead : Nat} (healthy : Healthy d) (short : toRead < 2 ^ 32) (visited : ∀ c, seen (withCalls d c))
    (done : ∀ c, post (readAt d log toRead) (withCalls d c)) : wp seen stuck (log.read toRead) post d := by
  have here := visited d.calls
  have still := done d.calls
  simp only [readAt] at done still
  by_cases finished : (d.zones log.zone).wp ≤ log.readPos
  · simp only [ZenMetaLog.read, Device.zoneAt, wp_bind, wp_read, onOk_ok, if_pos finished] at still ⊢
    exact ⟨here, still⟩
  by_cases across : (d.zones log.zone).start + (d.zones log.zone).maxCapacity < log.readPos + toRead
  · simp only [ZenMetaLog.read, Device.zoneAt, wp_bind, wp_read, onOk_ok, if_neg finished, if_pos across] at still ⊢
    exact ⟨here, still⟩
  simp only [if_neg finished, if_neg across] at done still
  by_cases negative : 2 ^ 31 ≤ toRead
  · have refused : Device.read log.readPos toRead false = pure none := by
      rw [Device.read, Nat.mod_eq_of_lt short, if_pos (Or.inr negative)]
    have some_left : toRead ≠ 0 := by omega
    simp only [ZenMetaLog.read, Device.zoneAt, wp_bind, wp_read, onOk_ok, if_neg finished, if_neg across, some_left,
      if_false, refused, wp_pure]
    rw [if_pos negative] at still
    exact ⟨here, still⟩
  · simp only [if_neg negative] at done
    exact wp_log_read healthy (Nat.lt_of_not_le negative) visited (Nat.lt_of_not_le finished)
      (Nat.le_of_not_lt across) done

variable [Checksum]

def recordAt (d : Device) (log : ZenMetaLog) : Except Status (Bytes × ZenMetaLog) := do
  let (header, log) ← readAt d log zMetaHeaderSize
  if header.length = 0 then pure ([], log)
  else
    let recordSz := valueOf (header.drop 4)
    let (record, log) ← readAt d log recordSz
    if recordCrc recordSz record ≠ unmask (valueOf (header.take 4)) then
      .error (Status.ioError "Not a valid record")
    else pure (record, { log with readPos := alignUp d.geo.blockSz log.readPos })

theorem wp_recordAt (healthy : Healthy d) (visited : ∀ c, seen (withCalls d c))
    (done : ∀ c, post (recordAt d log) (withCalls d c)) : wp seen stuck log.readRecord post d := by
  simp only [readRecord, wp_bind]
  refine wp_readAt healthy (by decide) visited (fun c => ?_)
  simp only [recordAt] at done
  rcases first : readAt d log zMetaHeaderSize with status | ⟨header, log₁⟩
  · rw [first] at done
    exact done c
  rw [first] at done
  simp only [onOk_ok]
  simp only [Bind.bind, Except.bind] at done
  split
  · rename_i none_read
    rw [if_pos none_read] at done
    exact done c
  · rename_i some_read
    rw [if_neg some_read] at done
    rw [wp_bind]
    have size : valueOf (header.drop 4) < 2 ^ 32 := by
      have width : (header.drop 4).length ≤ 4 := by
        rw [List.length_drop]
        exact Nat.sub_le_of_le_add (readAt_zone first).2.2
      exact Nat.lt_of_lt_of_le (valueOf_lt _) (Nat.pow_le_pow_right (by decide) width)
    refine wp_readAt (d := withCalls d c) healthy size visited (fun c' => ?_)
    have same : readAt (withCalls d c) log₁ (valueOf (header.drop 4)) = readAt d log₁ (valueOf (header.drop 4)) := rfl
    rw [same]
    rcases second : readAt d log₁ (valueOf (header.drop 4)) with status | ⟨record, log₂⟩
    · rw [second] at done
      exact done c'
    rw [second] at done
    simp only [onOk_ok]
    split
    · rename_i invalid
      simp only [if_pos invalid] at done
      exact done c'
    · rename_i valid
      simp only [if_neg valid] at done
      simp only [wp_bind, wp_read, onOk_ok, wp_pure]
      exact ⟨visited c', done c'⟩

variable {record : Bytes}

theorem recordAt_zone {log' : ZenMetaLog} (read : recordAt d log = .ok (record, log')) : log'.zone = log.zone := by
  simp only [recordAt] at read
  rcases first : readAt d log zMetaHeaderSize with status | ⟨header, log₁⟩
  · rw [first] at read
    cases read
  have zone₁ := (readAt_zone first).1
  rw [first] at read
  simp only [Bind.bind, Except.bind] at read
  split at read
  · cases read
    exact zone₁
  rcases second : readAt d log₁ (valueOf (header.drop 4)) with status | ⟨body, log₂⟩
  · rw [second] at read
    cases read
  have zone₂ := (readAt_zone second).1
  rw [second] at read
  simp only at read
  split at read
  · cases read
  · cases read
    exact zone₂.trans zone₁

theorem recordAt_eof (finished : (d.zones log.zone).wp ≤ log.readPos) : recordAt d log = .ok ([], log) := by
  rw [recordAt, readAt, if_pos finished]
  rfl

theorem recordAt_across (below : log.readPos < (d.zones log.zone).wp)
    (across : (d.zones log.zone).start + (d.zones log.zone).maxCapacity < log.readPos + zMetaHeaderSize) :
    recordAt d log = .error (Status.ioError "Read across zone") := by
  rw [recordAt, readAt, if_neg (by omega), if_pos across]
  rfl

theorem recordAt_begun (readable : Readable record)
    (stored : d.mem.read log.readPos (physSz d.geo.blockSz record.length) = recordBuffer d.geo.blockSz record)
    (aligned : d.geo.blockSz ∣ log.readPos) (begun : log.readPos + zMetaHeaderSize < (d.zones log.zone).wp)
    (inside : log.readPos + physSz d.geo.blockSz record.length ≤
      (d.zones log.zone).start + (d.zones log.zone).maxCapacity) :
    recordAt d log = .ok (record, { log with readPos := log.readPos + physSz d.geo.blockSz record.length }) := by
  have sector := d.geo.sector_le
  have room : record.length + zMetaHeaderSize ≤ physSz d.geo.blockSz record.length := alignUp_ge _ _
  have eight : zMetaHeaderSize = 8 := rfl
  have small : record.length < 2 ^ 31 := readable
  have header : readAt d log zMetaHeaderSize = .ok (littleEndian 4 (mask (recordCrc record.length record)) ++
      littleEndian 4 record.length, { log with readPos := log.readPos + zMetaHeaderSize }) := by
    rw [readAt, if_neg (by omega), if_neg (by omega), if_neg (by decide), buffer_header readable stored]
  have body : readAt d { log with readPos := log.readPos + zMetaHeaderSize } record.length =
      .ok (record, { log with readPos := log.readPos + zMetaHeaderSize + record.length }) := by
    simp only [readAt]
    rw [if_neg (by omega), if_neg (by omega), if_neg (by omega), buffer_record readable stored]
  have next : alignUp d.geo.blockSz (log.readPos + zMetaHeaderSize + record.length) =
      log.readPos + physSz d.geo.blockSz record.length := by
    rw [Nat.add_assoc, alignUp_shift aligned, physSz_eq_alignUp, Nat.add_comm zMetaHeaderSize]
  have filled : ¬ (littleEndian 4 (mask (recordCrc record.length record)) ++
      littleEndian 4 record.length).length = 0 := by
    rw [List.length_append, littleEndian_length, littleEndian_length]
    decide
  simp only [recordAt, header, Bind.bind, Except.bind, if_neg filled]
  rw [List.take_left' (littleEndian_length 4 _), List.drop_left' (littleEndian_length 4 _),
    valueOf_littleEndian_of_lt (by omega : record.length < 256 ^ 4),
    valueOf_littleEndian_of_lt (mask_lt _), unmask_mask (recordCrc_lt _ _), body]
  simp only [ne_eq, not_true_eq_false, if_false, next]
  rfl

theorem wp_readRecord_stored (healthy : Healthy d) (readable : Readable record) (visited : ∀ c, seen (withCalls d c))
    (stored : d.mem.read log.readPos (physSz d.geo.blockSz record.length) = recordBuffer d.geo.blockSz record)
    (aligned : d.geo.blockSz ∣ log.readPos)
    (below : log.readPos + physSz d.geo.blockSz record.length ≤ (d.zones log.zone).wp)
    (inside : log.readPos + physSz d.geo.blockSz record.length ≤
      (d.zones log.zone).start + (d.zones log.zone).maxCapacity)
    (done : ∀ c, post (.ok (record, { log with readPos := log.readPos + physSz d.geo.blockSz record.length }))
      (withCalls d c)) :
    wp seen stuck log.readRecord post d := by
  have sector := d.geo.sector_le
  have whole := physSz_ge_block (by omega : 0 < d.geo.blockSz) record.length
  have eight : zMetaHeaderSize = 8 := rfl
  refine wp_recordAt healthy visited (fun c => ?_)
  rw [recordAt_begun readable stored aligned (by omega) inside]
  exact done c

end

end ZenFSProof
