import ZonedStorage.Batch.WriteBatch
import ZonedStorage.Coding.Consume

namespace BatchModel

open ByteString ZenFSModel ZenFSProof ContentFlags

inductive Callback where
  | putCF (columnFamilyId : UInt32) (key value : Bytes)
  | deleteCF (columnFamilyId : UInt32) (key : Bytes)
  | singleDeleteCF (columnFamilyId : UInt32) (key : Bytes)
  | deleteRangeCF (columnFamilyId : UInt32) (beginKey endKey : Bytes)
  | mergeCF (columnFamilyId : UInt32) (key value : Bytes)
  | putBlobIndexCF (columnFamilyId : UInt32) (key value : Bytes)
  | putEntityCF (columnFamilyId : UInt32) (key entity : Bytes)
  | logData (blob : Bytes)
  | markBeginPrepare (unprepare : Bool)
  | markEndPrepare (xid : Bytes)
  | markCommit (xid : Bytes)
  | markCommitWithTimestamp (xid ts : Bytes)
  | markRollback (xid : Bytes)
  | markNoop (emptyBatch : Bool)
  deriving DecidableEq

inductive OptionState where
  | kUnknown
  | kDisabled
  | kEnabled
  deriving DecidableEq

structure Handler (σ : Type) where
  call : σ → Callback → BatchStatus × σ
  continues : σ → Bool × σ
  writeAfterCommit : OptionState
  writeBeforePrepare : OptionState

structure Record where
  tag : Nat
  columnFamily : UInt32
  key : Bytes
  value : Bytes
  blob : Bytes
  xid : Bytes
  deriving DecidableEq

def readOr {α : Type} (msg : String) (read : Option (α × Bytes))
    (next : α → Bytes → Except BatchStatus (Record × Bytes)) :
    Except BatchStatus (Record × Bytes) :=
  match read with
  | some (value, rest) => next value rest
  | none => .error (.corruption msg)

def readKey (msg : String) (tag : Nat) (columnFamily : UInt32) (input : Bytes) : Except BatchStatus (Record × Bytes) :=
  readOr msg (getLengthPrefixedSlice input) fun key rest => .ok (⟨tag, columnFamily, key, [], [], []⟩, rest)

def readKeyValue (msg : String) (tag : Nat) (columnFamily : UInt32) (input : Bytes) :
    Except BatchStatus (Record × Bytes) :=
  readOr msg (getLengthPrefixedSlice input) fun key rest =>
  readOr msg (getLengthPrefixedSlice rest) fun value rest => .ok (⟨tag, columnFamily, key, value, [], []⟩, rest)

def readColumnFamily (msg : String) (input : Bytes)
    (next : UInt32 → Bytes → Except BatchStatus (Record × Bytes)) : Except BatchStatus (Record × Bytes) :=
  readOr msg (getVarint32 input) fun columnFamily rest => next (UInt32.ofNat columnFamily) rest

def readXid (msg : String) (tag : Nat) (key input : Bytes) : Except BatchStatus (Record × Bytes) :=
  readOr msg (getLengthPrefixedSlice input) fun xid rest => .ok (⟨tag, 0, key, [], [], xid⟩, rest)

def readRecordFromWriteBatch (tag : Nat) (input : Bytes) : Except BatchStatus (Record × Bytes) :=
  match tag with
  | kTypeColumnFamilyValue => readColumnFamily "bad WriteBatch Put" input (readKeyValue "bad WriteBatch Put" tag)
  | kTypeValue => readKeyValue "bad WriteBatch Put" tag 0 input
  | kTypeColumnFamilyDeletion => readColumnFamily "bad WriteBatch Delete" input (readKey "bad WriteBatch Delete" tag)
  | kTypeColumnFamilySingleDeletion =>
    readColumnFamily "bad WriteBatch Delete" input (readKey "bad WriteBatch Delete" tag)
  | kTypeDeletion => readKey "bad WriteBatch Delete" tag 0 input
  | kTypeSingleDeletion => readKey "bad WriteBatch Delete" tag 0 input
  | kTypeColumnFamilyRangeDeletion =>
    readColumnFamily "bad WriteBatch DeleteRange" input (readKeyValue "bad WriteBatch DeleteRange" tag)
  | kTypeRangeDeletion => readKeyValue "bad WriteBatch DeleteRange" tag 0 input
  | kTypeColumnFamilyMerge => readColumnFamily "bad WriteBatch Merge" input (readKeyValue "bad WriteBatch Merge" tag)
  | kTypeMerge => readKeyValue "bad WriteBatch Merge" tag 0 input
  | kTypeColumnFamilyBlobIndex =>
    readColumnFamily "bad WriteBatch BlobIndex" input (readKeyValue "bad WriteBatch BlobIndex" tag)
  | kTypeBlobIndex => readKeyValue "bad WriteBatch BlobIndex" tag 0 input
  | kTypeLogData =>
    readOr "bad WriteBatch Blob" (getLengthPrefixedSlice input) fun blob rest => .ok (⟨tag, 0, [], [], blob, []⟩, rest)
  | kTypeNoop => .ok (⟨tag, 0, [], [], [], []⟩, input)
  | kTypeBeginPrepareXID => .ok (⟨tag, 0, [], [], [], []⟩, input)
  | kTypeBeginPersistedPrepareXID => .ok (⟨tag, 0, [], [], [], []⟩, input)
  | kTypeBeginUnprepareXID => .ok (⟨tag, 0, [], [], [], []⟩, input)
  | kTypeEndPrepareXID => readXid "bad EndPrepare XID" tag [] input
  | kTypeCommitXIDAndTimestamp =>
    readOr "bad commit timestamp" (getLengthPrefixedSlice input) fun key rest => readXid "bad Commit XID" tag key rest
  | kTypeCommitXID => readXid "bad Commit XID" tag [] input
  | kTypeRollbackXID => readXid "bad Rollback XID" tag [] input
  | kTypeColumnFamilyWideColumnEntity =>
    readColumnFamily "bad WriteBatch PutEntity" input (readKeyValue "bad WriteBatch PutEntity" tag)
  | kTypeWideColumnEntity => readKeyValue "bad WriteBatch PutEntity" tag 0 input
  | _ => .error (.corruption "unknown WriteBatch tag")

section

def ReadsWithin (bound : Nat) (outcome : Except BatchStatus (Record × Bytes)) : Prop :=
  ∀ record rest, outcome = .ok (record, rest) → rest.length ≤ bound

variable {bound : Nat} {input : Bytes}

theorem readsWithin_ok {record : Record} {rest : Bytes} (short : rest.length ≤ bound) :
    ReadsWithin bound (.ok (record, rest)) := by
  intro other tail same
  cases same
  exact short

variable {msg : String} {tag : Nat}

theorem readsWithin_readOr {α : Type} {read : Option (α × Bytes)}
    {next : α → Bytes → Except BatchStatus (Record × Bytes)}
    (later : ∀ value rest, read = some (value, rest) → ReadsWithin bound (next value rest)) :
    ReadsWithin bound (readOr msg read next) := by
  match read with
  | none =>
    intro record rest impossible
    cases impossible
  | some (value, rest) => exact later value rest rfl

theorem readsWithin_slice {next : Bytes → Bytes → Except BatchStatus (Record × Bytes)}
    (within : input.length ≤ bound) (later : ∀ value rest, rest.length ≤ bound → ReadsWithin bound (next value rest)) :
    ReadsWithin bound (readOr msg (getLengthPrefixedSlice input) next) :=
  readsWithin_readOr fun value rest found =>
    later value rest (Nat.le_trans (Nat.le_of_lt (getLengthPrefixedSlice_shorter found).1) within)

theorem readKey_within {columnFamily : UInt32} (within : input.length ≤ bound) :
    ReadsWithin bound (readKey msg tag columnFamily input) :=
  readsWithin_slice within fun _ _ => readsWithin_ok

theorem readKeyValue_within {columnFamily : UInt32} (within : input.length ≤ bound) :
    ReadsWithin bound (readKeyValue msg tag columnFamily input) :=
  readsWithin_slice within fun _ _ shorter => readsWithin_slice shorter fun _ _ => readsWithin_ok

theorem readXid_within {key : Bytes} (within : input.length ≤ bound) : ReadsWithin bound (readXid msg tag key input) :=
  readsWithin_slice within fun _ _ => readsWithin_ok

theorem readColumnFamily_within {next : UInt32 → Bytes → Except BatchStatus (Record × Bytes)}
    (within : input.length ≤ bound) (later : ∀ id rest, rest.length ≤ bound → ReadsWithin bound (next id rest)) :
    ReadsWithin bound (readColumnFamily msg input next) :=
  readsWithin_readOr fun _ rest found =>
    later _ rest (Nat.le_trans (Nat.le_of_lt (getVarint32_read found).1) within)

theorem readRecord_within (tag : Nat) (input : Bytes) :
    ReadsWithin input.length (readRecordFromWriteBatch tag input) := by
  have whole := Nat.le_refl input.length
  unfold readRecordFromWriteBatch
  split
  · exact readColumnFamily_within whole fun _ _ => readKeyValue_within
  · exact readKeyValue_within whole
  · exact readColumnFamily_within whole fun _ _ => readKey_within
  · exact readColumnFamily_within whole fun _ _ => readKey_within
  · exact readKey_within whole
  · exact readKey_within whole
  · exact readColumnFamily_within whole fun _ _ => readKeyValue_within
  · exact readKeyValue_within whole
  · exact readColumnFamily_within whole fun _ _ => readKeyValue_within
  · exact readKeyValue_within whole
  · exact readColumnFamily_within whole fun _ _ => readKeyValue_within
  · exact readKeyValue_within whole
  · exact readsWithin_slice whole fun _ _ => readsWithin_ok
  · exact readsWithin_ok whole
  · exact readsWithin_ok whole
  · exact readsWithin_ok whole
  · exact readsWithin_ok whole
  · exact readXid_within whole
  · exact readsWithin_slice whole fun _ _ => readXid_within
  · exact readXid_within whole
  · exact readXid_within whole
  · exact readColumnFamily_within whole fun _ _ => readKeyValue_within
  · exact readKeyValue_within whole
  · intro record rest impossible
    cases impossible

end

section

variable {σ : Type} (handler : Handler σ)

structure Progress (σ : Type) where
  status : BatchStatus
  emptyBatch : Bool
  found : UInt32
  state : σ

def Progress.update (p : Progress σ) (callback : Callback) : Progress σ :=
  match handler.call p.state callback with
  | (.ok, state) => ⟨.ok, false, p.found + 1, state⟩
  | (status, state) => { p with status := status, state := state }

def Progress.mark (p : Progress σ) (callback : Callback) (emptyBatch : Bool) : Progress σ :=
  let (status, state) := handler.call p.state callback
  { p with status := status, emptyBatch := emptyBatch, state := state }

def Progress.refuse (p : Progress σ) (wrong : Bool) (msg : String) : Progress σ :=
  if wrong then { p with status := .notSupported msg } else p

def Progress.dispatch (p : Progress σ) (record : Record) : Progress σ :=
  match record.tag with
  | kTypeColumnFamilyValue | kTypeValue => p.update handler (.putCF record.columnFamily record.key record.value)
  | kTypeColumnFamilyDeletion | kTypeDeletion => p.update handler (.deleteCF record.columnFamily record.key)
  | kTypeColumnFamilySingleDeletion | kTypeSingleDeletion =>
    p.update handler (.singleDeleteCF record.columnFamily record.key)
  | kTypeColumnFamilyRangeDeletion | kTypeRangeDeletion =>
    p.update handler (.deleteRangeCF record.columnFamily record.key record.value)
  | kTypeColumnFamilyMerge | kTypeMerge => p.update handler (.mergeCF record.columnFamily record.key record.value)
  | kTypeColumnFamilyBlobIndex | kTypeBlobIndex =>
    { p.update handler (.putBlobIndexCF record.columnFamily record.key record.value) with emptyBatch := p.emptyBatch }
  | kTypeLogData =>
    { p with status := .ok, emptyBatch := false, state := (handler.call p.state (.logData record.blob)).2 }
  | kTypeBeginPrepareXID =>
    ((p.mark handler (.markBeginPrepare false) false).refuse (handler.writeAfterCommit == .kDisabled)
      ("WriteCommitted txn tag when write_after_commit_ is disabled (in WritePrepared/WriteUnprepared mode). If it " ++
        "is not due to corruption, the WAL must be emptied before changing the WritePolicy.")).refuse
      (handler.writeBeforePrepare == .kEnabled)
      ("WriteCommitted txn tag when write_before_prepare_ is enabled (in WriteUnprepared mode). If it is not due to " ++
        "corruption, the WAL must be emptied before changing the WritePolicy.")
  | kTypeBeginPersistedPrepareXID =>
    (p.mark handler (.markBeginPrepare false) false).refuse (handler.writeAfterCommit == .kEnabled)
      ("WritePrepared/WriteUnprepared txn tag when write_after_commit_ is enabled (in default WriteCommitted mode). " ++
        "If it is not due to corruption, the WAL must be emptied before changing the WritePolicy.")
  | kTypeBeginUnprepareXID =>
    ((p.mark handler (.markBeginPrepare true) false).refuse (handler.writeAfterCommit == .kEnabled)
      ("WriteUnprepared txn tag when write_after_commit_ is enabled (in default WriteCommitted mode). If it is not " ++
        "due to corruption, the WAL must be emptied before changing the WritePolicy.")).refuse
      (handler.writeBeforePrepare == .kDisabled)
      ("WriteUnprepared txn tag when write_before_prepare_ is disabled (in WriteCommitted/WritePrepared mode). If " ++
        "it is not due to corruption, the WAL must be emptied before changing the WritePolicy.")
  | kTypeEndPrepareXID => p.mark handler (.markEndPrepare record.xid) true
  | kTypeCommitXID => p.mark handler (.markCommit record.xid) true
  | kTypeCommitXIDAndTimestamp =>
    match handler.call p.state (.markCommitWithTimestamp record.xid record.key) with
    | (.ok, state) => { p with status := .ok, emptyBatch := true, state := state }
    | (status, state) => { p with status := status, state := state }
  | kTypeRollbackXID => p.mark handler (.markRollback record.xid) true
  | kTypeNoop => p.mark handler (.markNoop p.emptyBatch) true
  | kTypeWideColumnEntity | kTypeColumnFamilyWideColumnEntity =>
    p.update handler (.putEntityCF record.columnFamily record.key record.value)
  | _ => { p with status := .corruption "unknown WriteBatch tag" }

set_option linter.unusedVariables false in
/-- The loop of `Iterate`, with what follows it. A record is delivered a second time if the handler asks for it; the
count is what the number of updates is compared with, if the whole batch is walked. -/
def iterateLoop (count : Option UInt32) (p : Progress σ) (input : Bytes) : BatchStatus × σ :=
  match input with
  | [] =>
    if count.any (· != p.found) then (.corruption "WriteBatch has wrong count", p.state) else (.ok, p.state)
  | tag :: input =>
    match handler.continues p.state with
    | (false, state) => (.ok, state)
    | (true, state) =>
      match taken : readRecordFromWriteBatch tag.toNat input with
      | .error status => (status, state)
      | .ok (record, rest) =>
        let first := Progress.dispatch handler { p with state := state } record
        match first.status with
        | .ok => iterateLoop count first rest
        | .tryAgain =>
          match handler.continues first.state with
          | (false, state) => (.tryAgain, state)
          | (true, state) =>
            let second := Progress.dispatch handler { first with status := .ok, state := state } record
            match second.status with
            | .ok => iterateLoop count second rest
            | .tryAgain =>
              match handler.continues second.state with
              | (false, state) => (.tryAgain, state)
              | (true, state) =>
                (.corruption ("two consecutive TryAgain in WriteBatch handler; this is either a " ++
                  "software bug or data corruption."), state)
            | status => (status, second.state)
        | status => (status, first.state)
termination_by input.length
decreasing_by
  all_goals
    have shorter := readRecord_within _ _ record rest taken
    rw [List.length_cons]
    omega

def WriteBatch.iterateRange (b : WriteBatch) (s : σ) (first last : Nat) : BatchStatus × σ :=
  if first > b.rep.length ∨ last > b.rep.length ∨ last < first then
    (.corruption "Invalid start/end bounds for Iterate", s)
  else
    iterateLoop handler (if first = kHeader ∧ last = b.rep.length then some b.count else none) ⟨.ok, true, 0, s⟩
      ((b.rep.drop first).take (last - first))

def WriteBatch.iterate (b : WriteBatch) (s : σ) : BatchStatus × σ :=
  if b.rep.length < kHeader then (.corruption "malformed WriteBatch (too small)", s)
  else b.iterateRange handler s kHeader b.rep.length

end

def batchContentClassifier : Handler UInt32 where
  call flags callback :=
    match callback with
    | .putCF .. => (.ok, flags ||| hasPut)
    | .putEntityCF .. => (.ok, flags ||| hasPutEntity)
    | .deleteCF .. => (.ok, flags ||| hasDelete)
    | .singleDeleteCF .. => (.ok, flags ||| hasSingleDelete)
    | .deleteRangeCF .. => (.ok, flags ||| hasDeleteRange)
    | .mergeCF .. => (.ok, flags ||| hasMerge)
    | .putBlobIndexCF .. => (.ok, flags ||| hasBlobIndex)
    | .markBeginPrepare unprepare =>
      (.ok, flags ||| hasBeginPrepare ||| if unprepare then hasBeginUnprepare else 0)
    | .markEndPrepare _ => (.ok, flags ||| hasEndPrepare)
    | .markCommit _ => (.ok, flags ||| hasCommit)
    | .markCommitWithTimestamp .. => (.ok, flags ||| hasCommit)
    | .markRollback _ => (.ok, flags ||| hasRollback)
    | .logData _ => (.ok, flags)
    | .markNoop _ => (.invalidArgument "MarkNoop() handler not defined.", flags)
  continues flags := (true, flags)
  writeAfterCommit := .kUnknown
  writeBeforePrepare := .kUnknown

namespace WriteBatch

def computeContentFlags (b : WriteBatch) : UInt32 :=
  if b.contentFlags &&& deferred ≠ 0 then (b.iterate batchContentClassifier 0).2 else b.contentFlags

def hasContent (b : WriteBatch) (flag : UInt32) : Bool := b.computeContentFlags &&& flag != 0

end WriteBatch

end BatchModel
