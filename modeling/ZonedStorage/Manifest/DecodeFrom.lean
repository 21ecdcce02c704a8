import ZonedStorage.Manifest.VersionEdit

namespace ManifestModel

open ByteString ZenFSModel ZenFSProof

/-- A corruption found by `DecodeFrom`, or the status of an entry of another module. -/
inductive Failure where
  | corruption (msg : String)
  | entry
  deriving DecidableEq

def getNumber64 (input : Bytes) : Option (UInt64 × Bytes) :=
  (getVarint64 input).map (fun read => (UInt64.ofNat read.1, read.2))

def getNumber32 (input : Bytes) : Option (UInt32 × Bytes) :=
  (getVarint32 input).map (fun read => (UInt32.ofNat read.1, read.2))

def getLevel (input : Bytes) : Option (Int32 × Bytes) :=
  (getNumber32 input).map (fun read => (read.1.toInt32, read.2))

def getInternalKey (input : Bytes) : Option (Bytes × Bytes) :=
  match getLengthPrefixedSlice input with
  | some (str, rest) => if internalKeyValid str then some (str, rest) else none
  | none => none

section

variable {input rest : Bytes}

theorem getNumber64_shorter {v : UInt64} (read : getNumber64 input = some (v, rest)) : rest.length < input.length := by
  obtain ⟨⟨number, tail⟩, found, same⟩ := Option.map_eq_some_iff.mp read
  cases same
  exact getVarint64_shorter found

theorem getNumber32_shorter {v : UInt32} (read : getNumber32 input = some (v, rest)) : rest.length < input.length := by
  obtain ⟨⟨number, tail⟩, found, same⟩ := Option.map_eq_some_iff.mp read
  cases same
  exact (getVarint32_read found).1

theorem getLevel_shorter {level : Int32} (read : getLevel input = some (level, rest)) : rest.length < input.length := by
  obtain ⟨⟨number, tail⟩, found, same⟩ := Option.map_eq_some_iff.mp read
  cases same
  exact getNumber32_shorter found

theorem getInternalKey_slice {key : Bytes} (read : getInternalKey input = some (key, rest)) :
    getLengthPrefixedSlice input = some (key, rest) := by
  rw [getInternalKey] at read
  split at read
  · rename_i str tail found
    split at read
    · cases read
      exact found
    · cases read
  · cases read

end

variable [ForeignEntries]

abbrev Outcome := Except Failure Bytes × VersionEdit

def reading {α : Type} (d : VersionEdit) (msg : String) (read : Option (α × Bytes)) (next : α → Bytes → Outcome) :
    Outcome :=
  match read with
  | some (value, rest) => next value rest
  | none => (.error (.corruption msg), d)

def readingEntry {α : Type} (d : VersionEdit) (read : Option (α × Bytes)) (next : α → Bytes → Outcome) : Outcome :=
  match read with
  | some (value, rest) => next value rest
  | none => (.error .entry, d)

def VersionEdit.raiseMaxLevel (d : VersionEdit) (level : Int32) : VersionEdit :=
  if d.maxLevel < level then { d with maxLevel := level } else d

section

open NewFileCustomTag

structure NewFile4 where
  edit : VersionEdit
  f : FileMetaData
  pathId : UInt32

def readingField (msg : String) (read : Option (UInt64 × Bytes)) (store : UInt64 → NewFile4) : Except String NewFile4 :=
  match read with
  | some (value, _) => .ok (store value)
  | none => .error msg

def readingByte (msg : String) (field : Bytes) (store : UInt8 → Except String NewFile4) : Except String NewFile4 :=
  match field with
  | [byte] => store byte
  | _ => .error msg

def decodeUniqueIdBytes (uniqueId : Bytes) : Option (UInt64 × UInt64) :=
  if uniqueId.length = 16 then
    some (UInt64.ofNat (valueOf (uniqueId.take 8)), UInt64.ofNat (valueOf (uniqueId.drop 8)))
  else none

def getFixedNumber64 (input : Bytes) : Option (UInt64 × Bytes) :=
  (getFixed64 input).map (fun read => (UInt64.ofNat read.1, read.2))

def NewFile4.customField (s : NewFile4) (customTag : Nat) (field : Bytes) : Except String NewFile4 :=
  match customTag with
  | kPathId =>
    readingByte "path_id field wrong size" field fun byte =>
      if byte > 3 then .error "path_id wrong vaue" else .ok { s with pathId := byte.toUInt32 }
  | kOldestAncesterTime =>
    readingField "invalid oldest ancester time" (getNumber64 field) fun v =>
      { s with f := { s.f with oldestAncesterTime := v } }
  | kFileCreationTime =>
    readingField "invalid file creation time" (getNumber64 field) fun v =>
      { s with f := { s.f with fileCreationTime := v } }
  | kEpochNumber =>
    readingField "invalid epoch number" (getNumber64 field) fun v => { s with f := { s.f with epochNumber := v } }
  | kFileChecksum => .ok { s with f := { s.f with fileChecksum := field } }
  | kFileChecksumFuncName => .ok { s with f := { s.f with fileChecksumFuncName := field } }
  | kNeedCompaction =>
    readingByte "need_compaction field wrong size" field fun byte =>
      .ok { s with f := { s.f with markedForCompaction := byte == 1 } }
  | kMinLogNumberToKeepHack =>
    readingField "deleted log number malformatted" (getFixedNumber64 field) fun v =>
      { s with edit := { s.edit with minLogNumberToKeep := v, hasMinLogNumberToKeep := true } }
  | kOldestBlobFileNumber =>
    readingField "invalid oldest blob file number" (getNumber64 field) fun v =>
      { s with f := { s.f with oldestBlobFileNumber := v } }
  | kTemperature =>
    readingByte "temperature field wrong size" field fun byte =>
      if byte ≤ kCold then .ok { s with f := { s.f with temperature := byte } } else .ok s
  | kUniqueId =>
    match decodeUniqueIdBytes field with
    | some uniqueId => .ok { s with f := { s.f with uniqueId := uniqueId } }
    | none => .error "invalid unique id"
  | kCompensatedRangeDeletionSize =>
    readingField "Invalid compensated range deletion size" (getNumber64 field) fun v =>
      { s with f := { s.f with compensatedRangeDeletionSize := v } }
  | kTailSize =>
    readingField "invalid tail start offset" (getNumber64 field) fun v => { s with f := { s.f with tailSize := v } }
  | kUserDefinedTimestampsPersisted =>
    readingByte "user-defined timestamps persisted field wrong size" field fun byte =>
      .ok { s with f := { s.f with userDefinedTimestampsPersisted := byte == 1 } }
  | customTag =>
    if customTag &&& kCustomTagNonSafeIgnoreMask ≠ 0 then .error "new-file4 custom field not supported" else .ok s

set_option linter.unusedVariables false in
def decodeCustomFields (s : NewFile4) (input : Bytes) : Except String Bytes × NewFile4 :=
  match tagRead : getVarint32 input with
  | none => (.error "new-file4 custom field", s)
  | some (customTag, afterTag) =>
    if customTag = kTerminate then (.ok afterTag, s)
    else
      match fieldRead : getLengthPrefixedSlice afterTag with
      | none => (.error "new-file4 custom field length prefixed slice error", s)
      | some (field, rest) =>
        match s.customField customTag field with
        | .error msg => (.error msg, s)
        | .ok s => decodeCustomFields s rest
termination_by input.length
decreasing_by
  have first := (getVarint32_read tagRead).1
  have second := (getLengthPrefixedSlice_shorter fieldRead).1
  omega

def VersionEdit.decodeNewFile4From (d : VersionEdit) (input : Bytes) : Outcome :=
  reading d "new-file4 entry" (getLevel input) fun level input =>
  let d := d.raiseMaxLevel level
  reading d "new-file4 entry" (getNumber64 input) fun number input =>
  reading d "new-file4 entry" (getNumber64 input) fun fileSize input =>
  reading d "new-file4 entry" (getInternalKey input) fun smallest input =>
  reading d "new-file4 entry" (getInternalKey input) fun largest input =>
  reading d "new-file4 entry" (getNumber64 input) fun smallestSeqno input =>
  reading d "new-file4 entry" (getNumber64 input) fun largestSeqno input =>
  match decodeCustomFields ⟨d, { FileMetaData.new with smallest := smallest, largest := largest }, 0⟩ input with
  | (.error msg, s) => (.error (.corruption msg), s.edit)
  | (.ok rest, s) =>
    let f := { s.f with fd := .new number s.pathId fileSize smallestSeqno largestSeqno }
    (.ok rest, { s.edit with newFiles := s.edit.newFiles ++ [(level, f)] })

end

namespace VersionEdit

/-- The entries of the formats before `kNewFile4`. -/
def decodeNewFile (d : VersionEdit) (input : Bytes) : Outcome :=
  reading d "new-file entry" (getLevel input) fun level input =>
  let d := d.raiseMaxLevel level
  reading d "new-file entry" (getNumber64 input) fun number input =>
  reading d "new-file entry" (getNumber64 input) fun fileSize input =>
  reading d "new-file entry" (getInternalKey input) fun smallest input =>
  reading d "new-file entry" (getInternalKey input) fun largest input =>
  let f := { FileMetaData.new with
    smallest := smallest, largest := largest, fd := .new number 0 fileSize kMaxSequenceNumber 0 }
  (.ok input, { d with newFiles := d.newFiles ++ [(level, f)] })

def decodeNewFile2 (d : VersionEdit) (input : Bytes) : Outcome :=
  reading d "new-file2 entry" (getLevel input) fun level input =>
  let d := d.raiseMaxLevel level
  reading d "new-file2 entry" (getNumber64 input) fun number input =>
  reading d "new-file2 entry" (getNumber64 input) fun fileSize input =>
  reading d "new-file2 entry" (getInternalKey input) fun smallest input =>
  reading d "new-file2 entry" (getInternalKey input) fun largest input =>
  reading d "new-file2 entry" (getNumber64 input) fun smallestSeqno input =>
  reading d "new-file2 entry" (getNumber64 input) fun largestSeqno input =>
  let f := { FileMetaData.new with
    smallest := smallest, largest := largest, fd := .new number 0 fileSize smallestSeqno largestSeqno }
  (.ok input, { d with newFiles := d.newFiles ++ [(level, f)] })

def decodeNewFile3 (d : VersionEdit) (input : Bytes) : Outcome :=
  reading d "new-file3 entry" (getLevel input) fun level input =>
  let d := d.raiseMaxLevel level
  reading d "new-file3 entry" (getNumber64 input) fun number input =>
  reading d "new-file3 entry" (getNumber32 input) fun pathId input =>
  reading d "new-file3 entry" (getNumber64 input) fun fileSize input =>
  reading d "new-file3 entry" (getInternalKey input) fun smallest input =>
  reading d "new-file3 entry" (getInternalKey input) fun largest input =>
  reading d "new-file3 entry" (getNumber64 input) fun smallestSeqno input =>
  reading d "new-file3 entry" (getNumber64 input) fun largestSeqno input =>
  let f := { FileMetaData.new with
    smallest := smallest, largest := largest, fd := .new number pathId fileSize smallestSeqno largestSeqno }
  (.ok input, { d with newFiles := d.newFiles ++ [(level, f)] })

def decodeTag (d : VersionEdit) (tag : Nat) (input : Bytes) : Outcome :=
  match tag with
  | kDbId =>
    reading d "db id" (getLengthPrefixedSlice input) fun str rest => (.ok rest, { d with dbId := str, hasDbId := true })
  | kComparator =>
    reading d "comparator name" (getLengthPrefixedSlice input) fun str rest =>
      (.ok rest, { d with comparator := str, hasComparator := true })
  | kLogNumber =>
    reading d "log number" (getNumber64 input) fun v rest => (.ok rest, { d with logNumber := v, hasLogNumber := true })
  | kPrevLogNumber =>
    reading d "previous log number" (getNumber64 input) fun v rest =>
      (.ok rest, { d with prevLogNumber := v, hasPrevLogNumber := true })
  | kNextFileNumber =>
    reading d "next file number" (getNumber64 input) fun v rest =>
      (.ok rest, { d with nextFileNumber := v, hasNextFileNumber := true })
  | kMaxColumnFamily =>
    reading d "max column family" (getNumber32 input) fun v rest =>
      (.ok rest, { d with maxColumnFamily := v, hasMaxColumnFamily := true })
  | kMinLogNumberToKeep =>
    reading d "min log number to kee" (getNumber64 input) fun v rest =>
      (.ok rest, { d with minLogNumberToKeep := v, hasMinLogNumberToKeep := true })
  | kLastSequence =>
    reading d "last sequence number" (getNumber64 input) fun v rest =>
      (.ok rest, { d with lastSequence := v, hasLastSequence := true })
  | kCompactCursor =>
    reading d "compaction cursor" (getLevel input) fun level rest =>
    let d := d.raiseMaxLevel level
    reading d "compaction cursor" (getInternalKey rest) fun key rest =>
      (.ok rest, { d with compactCursors := d.compactCursors ++ [(level, key)] })
  | kDeletedFile =>
    reading d "deleted file" (getLevel input) fun level rest =>
    let d := d.raiseMaxLevel level
    reading d "deleted file" (getNumber64 rest) fun number rest =>
      (.ok rest, { d with deletedFiles := d.deletedFiles.insert (level, number) })
  | kNewFile => d.decodeNewFile input
  | kNewFile2 => d.decodeNewFile2 input
  | kNewFile3 => d.decodeNewFile3 input
  | kNewFile4 => d.decodeNewFile4From input
  | kBlobFileAddition | kBlobFileAdditionDeprecated =>
    readingEntry d (ForeignEntries.blobFileAddition.decodeFrom input) fun entry rest =>
      (.ok rest, { d with blobFileAdditions := d.blobFileAdditions ++ [entry] })
  | kBlobFileGarbage | kBlobFileGarbageDeprecated =>
    readingEntry d (ForeignEntries.blobFileGarbage.decodeFrom input) fun entry rest =>
      (.ok rest, { d with blobFileGarbages := d.blobFileGarbages ++ [entry] })
  | kWalAddition =>
    readingEntry d (ForeignEntries.walAddition.decodeFrom input) fun entry rest =>
      (.ok rest, { d with walAdditions := d.walAdditions ++ [entry] })
  | kWalAddition2 =>
    reading d "WalAddition not prefixed by length" (getLengthPrefixedSlice input) fun encoded rest =>
    readingEntry d (ForeignEntries.walAddition.decodeFrom encoded) fun entry _ =>
      (.ok rest, { d with walAdditions := d.walAdditions ++ [entry] })
  | kWalDeletion =>
    readingEntry d (ForeignEntries.walDeletion.decodeFrom input) fun entry rest =>
      (.ok rest, { d with walDeletion := some entry })
  | kWalDeletion2 =>
    reading d "WalDeletion not prefixed by length" (getLengthPrefixedSlice input) fun encoded rest =>
    readingEntry d (ForeignEntries.walDeletion.decodeFrom encoded) fun entry _ =>
      (.ok rest, { d with walDeletion := some entry })
  | kColumnFamily =>
    reading d "set column family id" (getNumber32 input) fun v rest => (.ok rest, { d with columnFamily := v })
  | kColumnFamilyAdd =>
    reading d "column family add" (getLengthPrefixedSlice input) fun str rest =>
      (.ok rest, { d with isColumnFamilyAdd := true, columnFamilyName := str })
  | kColumnFamilyDrop => (.ok input, { d with isColumnFamilyDrop := true })
  | kInAtomicGroup =>
    let d := { d with isInAtomicGroup := true }
    reading d "remaining entries" (getNumber32 input) fun v rest => (.ok rest, { d with remainingEntries := v })
  | kFullHistoryTsLow =>
    reading d "full_history_ts_low" (getLengthPrefixedSlice input) fun str rest =>
      if str = [] then (.error (.corruption "full_history_ts_low: empty"), d)
      else (.ok rest, { d with fullHistoryTsLow := str })
  | kPersistUserDefinedTimestamps =>
    reading d "persist_user_defined_timestamps" (getLengthPrefixedSlice input) fun str rest =>
      match str with
      | [byte] =>
        (.ok rest, { d with persistUserDefinedTimestamps := byte == 1, hasPersistUserDefinedTimestamps := true })
      | _ => (.error (.corruption "persist_user_defined_timestamps field wrong size"), d)
  | tag =>
    if tag &&& kTagSafeIgnoreMask ≠ 0 then
      reading d "safely ignoreable tag length error" (getVarint32 input) fun fieldLen rest =>
        if fieldLen > rest.length then (.error (.corruption "safely ignoreable tag length error"), d)
        else (.ok (rest.drop fieldLen), d)
    else (.error (.corruption "unknown tag"), d)

end VersionEdit

section

variable {α : Type} {d : VersionEdit} {msg : String} {read : Option (α × Bytes)} {next : α → Bytes → Outcome}

theorem reading_of {P : Outcome → Prop} (failed : ∀ failure, P (.error failure, d))
    (found : ∀ value rest, read = some (value, rest) → P (next value rest)) : P (reading d msg read next) := by
  match read with
  | none => exact failed _
  | some (value, rest) => exact found value rest rfl

theorem readingEntry_of {P : Outcome → Prop} (failed : ∀ failure, P (.error failure, d))
    (found : ∀ value rest, read = some (value, rest) → P (next value rest)) : P (readingEntry d read next) := by
  match read with
  | none => exact failed _
  | some (value, rest) => exact found value rest rfl

end

end ManifestModel

namespace ManifestProof

open ByteString ZenFSModel ZenFSProof ManifestModel ManifestModel.VersionEdit NewFileCustomTag

theorem nil_short : ([] : Bytes).length < 2 ^ 32 := by decide

structure SoundFile (f : FileMetaData) : Prop where
  smallest : f.smallest.length < 2 ^ 32
  largest : f.largest.length < 2 ^ 32
  fileChecksum : f.fileChecksum.length < 2 ^ 32
  fileChecksumFuncName : f.fileChecksumFuncName.length < 2 ^ 32
  temperature : f.temperature ≤ kCold

theorem soundFile_new {smallest largest : Bytes} {fd : FileDescriptor} (first : smallest.length < 2 ^ 32)
    (last : largest.length < 2 ^ 32) :
    SoundFile { FileMetaData.new with smallest := smallest, largest := largest, fd := fd } :=
  ⟨first, last, nil_short, (by decide : kUnknownFileChecksumFuncName.length < 2 ^ 32), (by decide : (0 : UInt8) ≤ kCold)⟩

variable [ForeignEntries]

/-- What an object satisfies while it is decoded into: every text is as short as a length can say, and the flag for
user-defined timestamps is set if it was set before. -/
structure Sound (flagged : Prop) (d : VersionEdit) : Prop where
  dbId : d.dbId.length < 2 ^ 32
  comparator : d.comparator.length < 2 ^ 32
  compactCursors : ∀ cursor ∈ d.compactCursors, cursor.2.length < 2 ^ 32
  newFiles : ∀ file ∈ d.newFiles, SoundFile file.2
  columnFamilyName : d.columnFamilyName.length < 2 ^ 32
  fullHistoryTsLow : d.fullHistoryTsLow.length < 2 ^ 32
  timestamps : flagged → d.hasPersistUserDefinedTimestamps = true

variable {flagged : Prop} {d : VersionEdit} {bound : Nat} {input : Bytes} {msg : String}

theorem sound_clear (d : VersionEdit) : Sound (d.hasPersistUserDefinedTimestamps = true) d.clear where
  dbId := nil_short
  comparator := nil_short
  compactCursors := fun _ listed => absurd listed List.not_mem_nil
  newFiles := fun _ listed => absurd listed List.not_mem_nil
  columnFamilyName := nil_short
  fullHistoryTsLow := nil_short
  timestamps := id

namespace Sound

theorem raiseMaxLevel (sound : Sound flagged d) (level : Int32) : Sound flagged (d.raiseMaxLevel level) := by
  rw [VersionEdit.raiseMaxLevel]
  split
  · exact { sound with }
  · exact sound

theorem addFile (sound : Sound flagged d) {file : Int32 × FileMetaData} (held : SoundFile file.2) :
    Sound flagged { d with newFiles := d.newFiles ++ [file] } where
  __ := sound
  newFiles := by
    intro other listed
    rcases List.mem_append.mp listed with before | same
    · exact sound.newFiles other before
    · rw [List.mem_singleton.mp same]
      exact held

theorem addCursor (sound : Sound flagged d) {cursor : Int32 × Bytes} (short : cursor.2.length < 2 ^ 32) :
    Sound flagged { d with compactCursors := d.compactCursors ++ [cursor] } where
  __ := sound
  compactCursors := by
    intro other listed
    rcases List.mem_append.mp listed with before | same
    · exact sound.compactCursors other before
    · rw [List.mem_singleton.mp same]
      exact short

end Sound

section

/-- An entry that is read leaves at most so much of the input, and a sound object stays sound. -/
structure Leaves (flagged : Prop) (d : VersionEdit) (bound : Nat) (outcome : Outcome) : Prop where
  leaves : ∀ rest, outcome.1 = .ok rest → rest.length ≤ bound
  sound : Sound flagged d → Sound flagged outcome.2

variable {d' : VersionEdit}

theorem leaves_error (kept : Sound flagged d → Sound flagged d') (failure : Failure) :
    Leaves flagged d bound (.error failure, d') := by
  refine ⟨?_, kept⟩
  rintro rest ⟨⟩

theorem leaves_ok {rest : Bytes} (kept : Sound flagged d → Sound flagged d') (short : rest.length ≤ bound) :
    Leaves flagged d bound (.ok rest, d') := by
  refine ⟨?_, kept⟩
  rintro other ⟨⟩
  exact short

namespace Leaves

variable (kept : Sound flagged d → Sound flagged d') (within : input.length ≤ bound)

include kept within

theorem slice {next : Bytes → Bytes → Outcome}
    (later : ∀ str rest, str.length < 2 ^ 32 → rest.length ≤ bound → Leaves flagged d bound (next str rest)) :
    Leaves flagged d bound (reading d' msg (getLengthPrefixedSlice input) next) :=
  reading_of (leaves_error kept) fun str rest found =>
    have shorter := getLengthPrefixedSlice_shorter found
    later str rest shorter.2 (Nat.le_trans (Nat.le_of_lt shorter.1) within)

theorem key {next : Bytes → Bytes → Outcome}
    (later : ∀ key rest, key.length < 2 ^ 32 → rest.length ≤ bound → Leaves flagged d bound (next key rest)) :
    Leaves flagged d bound (reading d' msg (getInternalKey input) next) :=
  reading_of (leaves_error kept) fun key rest found =>
    have shorter := getLengthPrefixedSlice_shorter (getInternalKey_slice found)
    later key rest shorter.2 (Nat.le_trans (Nat.le_of_lt shorter.1) within)

theorem number64 {next : UInt64 → Bytes → Outcome}
    (later : ∀ v rest, rest.length ≤ bound → Leaves flagged d bound (next v rest)) :
    Leaves flagged d bound (reading d' msg (getNumber64 input) next) :=
  reading_of (leaves_error kept) fun v rest found =>
    later v rest (Nat.le_trans (Nat.le_of_lt (getNumber64_shorter found)) within)

theorem number32 {next : UInt32 → Bytes → Outcome}
    (later : ∀ v rest, rest.length ≤ bound → Leaves flagged d bound (next v rest)) :
    Leaves flagged d bound (reading d' msg (getNumber32 input) next) :=
  reading_of (leaves_error kept) fun v rest found =>
    later v rest (Nat.le_trans (Nat.le_of_lt (getNumber32_shorter found)) within)

theorem entry {codec : EntryCodec} {next : codec.Entry → Bytes → Outcome}
    (later : ∀ entry rest, rest.length ≤ bound → Leaves flagged d bound (next entry rest)) :
    Leaves flagged d bound (readingEntry d' (codec.decodeFrom input) next) :=
  readingEntry_of (leaves_error kept) fun entry rest found => later entry rest (Nat.le_trans (codec.shorter found) within)

omit kept

theorem level {next : Int32 → Bytes → Outcome}
    (later : ∀ level rest, (Sound flagged d → Sound flagged (d.raiseMaxLevel level)) → rest.length ≤ bound →
      Leaves flagged d bound (next level rest)) : Leaves flagged d bound (reading d msg (getLevel input) next) :=
  reading_of (leaves_error id) fun level rest found =>
    later level rest (fun sound => sound.raiseMaxLevel level) (Nat.le_trans (Nat.le_of_lt (getLevel_shorter found)) within)

end Leaves

end

theorem decodeCustomFields_shorter {s s' : NewFile4} {rest : Bytes}
    (decoded : decodeCustomFields s input = (.ok rest, s')) : rest.length < input.length := by
  fun_induction decodeCustomFields s input with
  | case1 => cases decoded
  | case2 s input afterTag tagRead =>
    cases decoded
    exact (getVarint32_read tagRead).1
  | case3 => cases decoded
  | case4 => cases decoded
  | case5 s input customTag afterTag tagRead _ field tail fieldRead s'' _ ih =>
    have first := (getVarint32_read tagRead).1
    have second := (getLengthPrefixedSlice_shorter fieldRead).1
    have third := ih decoded
    omega

section

variable {s s' : NewFile4}

structure SoundVariables (flagged : Prop) (s : NewFile4) : Prop where
  edit : Sound flagged s.edit
  f : SoundFile s.f

theorem readingField_sound {read : Option (UInt64 × Bytes)} {store : UInt64 → NewFile4}
    (stored : readingField msg read store = .ok s') (kept : ∀ v, SoundVariables flagged (store v)) :
    SoundVariables flagged s' := by
  match read, stored with
  | none, stored => cases stored
  | some (v, _), stored =>
    cases stored
    exact kept v

theorem readingByte_sound {field : Bytes} {store : UInt8 → Except String NewFile4}
    (stored : readingByte msg field store = .ok s') (kept : ∀ byte, store byte = .ok s' → SoundVariables flagged s') :
    SoundVariables flagged s' := by
  match field, stored with
  | [], stored => cases stored
  | [byte], stored => exact kept byte stored
  | _ :: _ :: _, stored => cases stored

theorem customField_sound {tag : Nat} {field : Bytes} (sound : SoundVariables flagged s) (short : field.length < 2 ^ 32)
    (stored : s.customField tag field = .ok s') : SoundVariables flagged s' := by
  obtain ⟨edit, f⟩ := sound
  unfold NewFile4.customField at stored
  split at stored
  · refine readingByte_sound stored fun byte kept => ?_
    split at kept
    · cases kept
    · cases kept
      exact ⟨edit, f⟩
  · exact readingField_sound stored fun v => ⟨edit, { f with }⟩
  · exact readingField_sound stored fun v => ⟨edit, { f with }⟩
  · exact readingField_sound stored fun v => ⟨edit, { f with }⟩
  · cases stored
    exact ⟨edit, { f with fileChecksum := short }⟩
  · cases stored
    exact ⟨edit, { f with fileChecksumFuncName := short }⟩
  · refine readingByte_sound stored fun byte kept => ?_
    cases kept
    exact ⟨edit, { f with }⟩
  · exact readingField_sound stored fun v => ⟨{ edit with }, f⟩
  · exact readingField_sound stored fun v => ⟨edit, { f with }⟩
  · refine readingByte_sound stored fun byte kept => ?_
    split at kept
    · rename_i known
      cases kept
      exact ⟨edit, { f with temperature := known }⟩
    · cases kept
      exact ⟨edit, f⟩
  · split at stored
    · cases stored
      exact ⟨edit, { f with }⟩
    · cases stored
  · exact readingField_sound stored fun v => ⟨edit, { f with }⟩
  · exact readingField_sound stored fun v => ⟨edit, { f with }⟩
  · refine readingByte_sound stored fun byte kept => ?_
    cases kept
    exact ⟨edit, { f with }⟩
  · split at stored
    · cases stored
    · cases stored
      exact ⟨edit, f⟩

theorem decodeCustomFields_sound (sound : SoundVariables flagged s) :
    SoundVariables flagged (decodeCustomFields s input).2 := by
  fun_induction decodeCustomFields s input with
  | case1 => exact sound
  | case2 => exact sound
  | case3 => exact sound
  | case4 => exact sound
  | case5 s input customTag afterTag tagRead _ field tail fieldRead s'' stored ih =>
    exact ih (customField_sound sound (getLengthPrefixedSlice_shorter fieldRead).2 stored)

theorem decodeNewFile4From_leaves : Leaves flagged d input.length (d.decodeNewFile4From input) := by
  refine .level (Nat.le_refl _) fun level _ raised within => ?_
  refine .number64 raised within fun number _ within => .number64 raised within fun fileSize _ within => ?_
  refine .key raised within fun smallest _ first within => .key raised within fun largest _ last within => ?_
  refine .number64 raised within fun _ _ within => .number64 raised within fun _ rest within => ?_
  have after : Sound flagged d → SoundVariables flagged (decodeCustomFields
      ⟨d.raiseMaxLevel level, { FileMetaData.new with smallest := smallest, largest := largest }, 0⟩ rest).2 :=
    fun sound => decodeCustomFields_sound ⟨raised sound, soundFile_new first last⟩
  split
  · rename_i decoded
    rw [decoded] at after
    exact leaves_error (fun sound => (after sound).edit) _
  · rename_i decoded
    rw [decoded] at after
    refine leaves_ok (fun sound => (after sound).edit.addFile { (after sound).f with }) ?_
    exact Nat.le_trans (Nat.le_of_lt (decodeCustomFields_shorter decoded)) within

end

theorem decodeNewFile_leaves : Leaves flagged d input.length (d.decodeNewFile input) := by
  refine .level (Nat.le_refl _) fun level _ raised within => ?_
  refine .number64 raised within fun number _ within => .number64 raised within fun fileSize _ within => ?_
  refine .key raised within fun smallest _ first within => .key raised within fun largest _ last => ?_
  exact leaves_ok fun sound => (raised sound).addFile (soundFile_new first last)

theorem decodeNewFile2_leaves : Leaves flagged d input.length (d.decodeNewFile2 input) := by
  refine .level (Nat.le_refl _) fun level _ raised within => ?_
  refine .number64 raised within fun number _ within => .number64 raised within fun fileSize _ within => ?_
  refine .key raised within fun smallest _ first within => .key raised within fun largest _ last within => ?_
  refine .number64 raised within fun _ _ within => .number64 raised within fun _ _ => ?_
  exact leaves_ok fun sound => (raised sound).addFile (soundFile_new first last)

theorem decodeNewFile3_leaves : Leaves flagged d input.length (d.decodeNewFile3 input) := by
  refine .level (Nat.le_refl _) fun level _ raised within => ?_
  refine .number64 raised within fun number _ within => .number32 raised within fun pathId _ within => ?_
  refine .number64 raised within fun fileSize _ within => ?_
  refine .key raised within fun smallest _ first within => .key raised within fun largest _ last within => ?_
  refine .number64 raised within fun _ _ within => .number64 raised within fun _ _ => ?_
  exact leaves_ok fun sound => (raised sound).addFile (soundFile_new first last)

theorem decodeTag_leaves (flagged : Prop) (d : VersionEdit) (tag : Nat) (input : Bytes) :
    Leaves flagged d input.length (d.decodeTag tag input) := by
  have whole := Nat.le_refl input.length
  unfold VersionEdit.decodeTag
  split
  · exact .slice id whole fun _ _ short => leaves_ok fun sound => { sound with dbId := short }
  · exact .slice id whole fun _ _ short => leaves_ok fun sound => { sound with comparator := short }
  · exact .number64 id whole fun _ _ => leaves_ok fun sound => { sound with }
  · exact .number64 id whole fun _ _ => leaves_ok fun sound => { sound with }
  · exact .number64 id whole fun _ _ => leaves_ok fun sound => { sound with }
  · exact .number32 id whole fun _ _ => leaves_ok fun sound => { sound with }
  · exact .number64 id whole fun _ _ => leaves_ok fun sound => { sound with }
  · exact .number64 id whole fun _ _ => leaves_ok fun sound => { sound with }
  · exact .level whole fun _ _ raised within => .key raised within fun _ _ short =>
      leaves_ok fun sound => (raised sound).addCursor short
  · exact .level whole fun _ _ raised within => .number64 raised within fun _ _ =>
      leaves_ok fun sound => { raised sound with }
  · exact decodeNewFile_leaves
  · exact decodeNewFile2_leaves
  · exact decodeNewFile3_leaves
  · exact decodeNewFile4From_leaves
  · exact .entry id whole fun _ _ => leaves_ok fun sound => { sound with }
  · exact .entry id whole fun _ _ => leaves_ok fun sound => { sound with }
  · exact .entry id whole fun _ _ => leaves_ok fun sound => { sound with }
  · exact .entry id whole fun _ _ => leaves_ok fun sound => { sound with }
  · exact .entry id whole fun _ _ => leaves_ok fun sound => { sound with }
  · exact .slice id whole fun _ _ _ within => readingEntry_of (leaves_error id) fun _ _ _ =>
      leaves_ok (fun sound => { sound with }) within
  · exact .entry id whole fun _ _ => leaves_ok fun sound => { sound with }
  · exact .slice id whole fun _ _ _ within => readingEntry_of (leaves_error id) fun _ _ _ =>
      leaves_ok (fun sound => { sound with }) within
  · exact .number32 id whole fun _ _ => leaves_ok fun sound => { sound with }
  · exact .slice id whole fun _ _ short => leaves_ok fun sound => { sound with columnFamilyName := short }
  · exact leaves_ok (fun sound => { sound with }) whole
  · refine .number32 (fun sound => ?_) whole fun _ _ => leaves_ok fun sound => ?_
    · exact { sound with }
    · exact { sound with }
  · refine .slice id whole fun _ _ short within => ?_
    split
    · exact leaves_error id _
    · exact leaves_ok (fun sound => { sound with fullHistoryTsLow := short }) within
  · refine .slice id whole fun _ _ _ within => ?_
    split
    · exact leaves_ok (fun sound => { sound with timestamps := fun _ => rfl }) within
    · exact leaves_error id _
  · split
    · refine reading_of (leaves_error id) fun fieldLen rest found => ?_
      split
      · exact leaves_error id _
      · have shorter := (getVarint32_read found).1
        exact leaves_ok id (by rw [List.length_drop]; omega)
    · exact leaves_error id _

end ManifestProof

namespace ManifestModel

open ByteString ZenFSModel ZenFSProof ManifestProof

variable [ForeignEntries]

namespace VersionEdit

set_option linter.unusedVariables false in
/-- The loop of `DecodeFrom`, with what follows it: nothing stands for a status of success. -/
def decodeLoop (d : VersionEdit) (input : Bytes) : Option Failure × VersionEdit :=
  match tagRead : getVarint32 input with
  | none => (if input = [] then none else some (.corruption "invalid tag"), d)
  | some (tag, afterTag) =>
    match entryRead : d.decodeTag tag afterTag with
    | (.error failure, d) => (some failure, d)
    | (.ok rest, d) => decodeLoop d rest
termination_by input.length
decreasing_by
  have first := (getVarint32_read tagRead).1
  have second := (decodeTag_leaves False _ tag afterTag).leaves rest (by rw [entryRead])
  omega

def decodeFrom (d : VersionEdit) (src : Bytes) : Option Failure × VersionEdit := d.clear.decodeLoop src

end VersionEdit

end ManifestModel

namespace ManifestProof

open ByteString ZenFSModel ManifestModel

variable [ForeignEntries] {flagged : Prop} {d : VersionEdit} {input : Bytes}

theorem decodeLoop_sound (sound : Sound flagged d) : Sound flagged (d.decodeLoop input).2 := by
  fun_induction VersionEdit.decodeLoop d input with
  | case1 => exact sound
  | case2 d input tag afterTag _ failure d' entryRead =>
    have after := (decodeTag_leaves flagged _ tag afterTag).sound sound
    rw [entryRead] at after
    exact after
  | case3 d input tag afterTag _ rest d' entryRead ih =>
    have after := (decodeTag_leaves flagged _ tag afterTag).sound sound
    rw [entryRead] at after
    exact ih after

end ManifestProof
