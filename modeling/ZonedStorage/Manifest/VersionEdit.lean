import ZonedStorage.Coding.Consume
import ZonedStorage.Compaction.Iterator

namespace ManifestModel

open ByteString ZenFSModel List

@[match_pattern] abbrev kComparator : Nat := 1
@[match_pattern] abbrev kLogNumber : Nat := 2
@[match_pattern] abbrev kNextFileNumber : Nat := 3
@[match_pattern] abbrev kLastSequence : Nat := 4
@[match_pattern] abbrev kCompactCursor : Nat := 5
@[match_pattern] abbrev kDeletedFile : Nat := 6
@[match_pattern] abbrev kNewFile : Nat := 7
@[match_pattern] abbrev kPrevLogNumber : Nat := 9
@[match_pattern] abbrev kMinLogNumberToKeep : Nat := 10
@[match_pattern] abbrev kNewFile2 : Nat := 100
@[match_pattern] abbrev kNewFile3 : Nat := 102
@[match_pattern] abbrev kNewFile4 : Nat := 103
@[match_pattern] abbrev kColumnFamily : Nat := 200
@[match_pattern] abbrev kColumnFamilyAdd : Nat := 201
@[match_pattern] abbrev kColumnFamilyDrop : Nat := 202
@[match_pattern] abbrev kMaxColumnFamily : Nat := 203
@[match_pattern] abbrev kInAtomicGroup : Nat := 300
@[match_pattern] abbrev kBlobFileAddition : Nat := 400
@[match_pattern] abbrev kBlobFileGarbage : Nat := 401
@[match_pattern] abbrev kTagSafeIgnoreMask : Nat := 8192
@[match_pattern] abbrev kDbId : Nat := 8193
@[match_pattern] abbrev kBlobFileAdditionDeprecated : Nat := 8194
@[match_pattern] abbrev kBlobFileGarbageDeprecated : Nat := 8195
@[match_pattern] abbrev kWalAddition : Nat := 8196
@[match_pattern] abbrev kWalDeletion : Nat := 8197
@[match_pattern] abbrev kFullHistoryTsLow : Nat := 8198
@[match_pattern] abbrev kWalAddition2 : Nat := 8199
@[match_pattern] abbrev kWalDeletion2 : Nat := 8200
@[match_pattern] abbrev kPersistUserDefinedTimestamps : Nat := 8201

namespace NewFileCustomTag

@[match_pattern] abbrev kTerminate : Nat := 1
@[match_pattern] abbrev kNeedCompaction : Nat := 2
@[match_pattern] abbrev kMinLogNumberToKeepHack : Nat := 3
@[match_pattern] abbrev kOldestBlobFileNumber : Nat := 4
@[match_pattern] abbrev kOldestAncesterTime : Nat := 5
@[match_pattern] abbrev kFileCreationTime : Nat := 6
@[match_pattern] abbrev kFileChecksum : Nat := 7
@[match_pattern] abbrev kFileChecksumFuncName : Nat := 8
@[match_pattern] abbrev kTemperature : Nat := 9
@[match_pattern] abbrev kUniqueId : Nat := 12
@[match_pattern] abbrev kEpochNumber : Nat := 13
@[match_pattern] abbrev kCompensatedRangeDeletionSize : Nat := 14
@[match_pattern] abbrev kTailSize : Nat := 15
@[match_pattern] abbrev kUserDefinedTimestampsPersisted : Nat := 16
@[match_pattern] abbrev kPathId : Nat := 65

def kCustomTagNonSafeIgnoreMask : Nat := 64

end NewFileCustomTag

def isValueType (t : Nat) : Bool := t ≤ 0x2 || t == 0x7 || t == 0x11 || t == 0x14 || t == 0x16

def isExtendedValueType (t : Nat) : Bool := isValueType t || t == 0xF || t == 0x18

/-- `InternalKey::Valid`: the key ends in eight bytes, the first of which is the type. -/
def internalKeyValid (rep : Bytes) : Bool := 8 ≤ rep.length && isExtendedValueType (rep.getD (rep.length - 8) 0).toNat

def stripTimestampFromInternalKey (key : Bytes) (tsSz : Nat) : Bytes :=
  key.take (key.length - tsSz - 8) ++ key.drop (key.length - 8)

section

def kFileNumberMask : UInt64 := 0x3FFFFFFFFFFFFFFF

def kMaxSequenceNumber : UInt64 := .ofNat CompactionModel.kMaxSequenceNumber

def packFileNumberAndPathId (number pathId : UInt64) : UInt64 := number ||| (pathId * (kFileNumberMask + 1))

structure FileDescriptor where
  packedNumberAndPathId : UInt64
  fileSize : UInt64
  smallestSeqno : UInt64
  largestSeqno : UInt64
  deriving DecidableEq

namespace FileDescriptor

def new (number : UInt64) (pathId : UInt32) (fileSize smallestSeqno largestSeqno : UInt64) : FileDescriptor :=
  ⟨packFileNumberAndPathId number pathId.toUInt64, fileSize, smallestSeqno, largestSeqno⟩

def getNumber (fd : FileDescriptor) : UInt64 := fd.packedNumberAndPathId &&& kFileNumberMask

def getPathId (fd : FileDescriptor) : UInt32 := (fd.packedNumberAndPathId / (kFileNumberMask + 1)).toUInt32

end FileDescriptor

def kCold : UInt8 := 0x0C

/-- The attributes of a file that are encoded. The temperature is the value of the enumerator. -/
structure FileMetaData where
  fd : FileDescriptor
  smallest : Bytes
  largest : Bytes
  compensatedRangeDeletionSize : UInt64
  markedForCompaction : Bool
  temperature : UInt8
  oldestBlobFileNumber : UInt64
  oldestAncesterTime : UInt64
  fileCreationTime : UInt64
  epochNumber : UInt64
  fileChecksum : Bytes
  fileChecksumFuncName : Bytes
  uniqueId : UInt64 × UInt64
  tailSize : UInt64
  userDefinedTimestampsPersisted : Bool
  deriving DecidableEq

def kUnknownFileChecksumFuncName : Bytes := [85, 110, 107, 110, 111, 119, 110]

def FileMetaData.new : FileMetaData :=
  ⟨.new 0 0 0 kMaxSequenceNumber 0, [], [], 0, false, 0, 0, 0, 0, 0, [], kUnknownFileChecksumFuncName, (0, 0), 0, true⟩

def fileBefore (a b : Int32 × UInt64) : Prop := a.1.toInt < b.1.toInt ∨ a.1 = b.1 ∧ a.2.toNat < b.2.toNat

instance (a b : Int32 × UInt64) : Decidable (fileBefore a b) := inferInstanceAs (Decidable (_ ∨ _))

variable {a b : Int32 × UInt64}

theorem fileBefore_trans {c : Int32 × UInt64} (first : fileBefore a b) (second : fileBefore b c) : fileBefore a c := by
  rcases first with less | ⟨same, less⟩ <;> rcases second with less' | ⟨same', less'⟩
  · exact Or.inl (by omega)
  · exact Or.inl (by rw [← same']; exact less)
  · exact Or.inl (by rw [same]; exact less')
  · exact Or.inr ⟨same.trans same', by omega⟩

theorem fileBefore_of_not (not_before : ¬ fileBefore a b) (different : a ≠ b) : fileBefore b a := by
  simp only [fileBefore, not_or, not_and, Int.not_lt, Nat.not_lt] at not_before ⊢
  by_cases same : a.1 = b.1
  · refine Or.inr ⟨same.symm, Nat.lt_of_le_of_ne (not_before.2 same) (fun equal => different ?_)⟩
    exact Prod.ext same (UInt64.toNat_inj.mp equal.symm)
  · refine Or.inl (Int.lt_iff_le_and_ne.mpr ⟨not_before.1, fun equal => same ?_⟩)
    exact Int32.toInt_inj.mp equal.symm

theorem not_fileBefore (before : fileBefore a b) : ¬ fileBefore b a ∧ a ≠ b := by
  constructor
  · intro back
    rcases before with less | ⟨same, less⟩ <;> rcases back with less' | ⟨same', less'⟩
    · omega
    · rw [same'] at less
      omega
    · rw [same] at less'
      omega
    · omega
  · rintro rfl
    rcases before with less | ⟨_, less⟩ <;> omega

def insertFile (file : Int32 × UInt64) : List (Int32 × UInt64) → List (Int32 × UInt64)
  | [] => [file]
  | other :: files =>
    if fileBefore file other then file :: other :: files
    else if other = file then other :: files
    else other :: insertFile file files

theorem mem_insertFile {file other : Int32 × UInt64} {files : List (Int32 × UInt64)}
    (listed : other ∈ insertFile file files) :
    other = file ∨ other ∈ files := by
  induction files with
  | nil => exact Or.inl (mem_singleton.mp listed)
  | cons first files ih =>
    rw [insertFile] at listed
    split at listed
    · exact mem_cons.mp listed
    · split at listed
      · exact Or.inr listed
      · rcases mem_cons.mp listed with same | later
        · exact Or.inr (mem_cons.mpr (Or.inl same))
        · exact (ih later).imp_right (mem_cons_of_mem _)

theorem insertFile_sorted (file : Int32 × UInt64) {files : List (Int32 × UInt64)} (sorted : files.Pairwise fileBefore) :
    (insertFile file files).Pairwise fileBefore := by
  induction files with
  | nil => exact pairwise_singleton _ _
  | cons first files ih =>
    obtain ⟨before, rest⟩ := pairwise_cons.mp sorted
    rw [insertFile]
    split
    · rename_i early
      refine pairwise_cons.mpr ⟨fun other listed => ?_, sorted⟩
      rcases mem_cons.mp listed with rfl | later
      · exact early
      · exact fileBefore_trans early (before other later)
    · rename_i late
      split
      · exact sorted
      · rename_i different
        refine pairwise_cons.mpr ⟨fun other listed => ?_, ih rest⟩
        rcases mem_insertFile listed with rfl | later
        · exact fileBefore_of_not late (Ne.symm different)
        · exact before other later

structure DeletedFiles where
  files : List (Int32 × UInt64)
  sorted : files.Pairwise fileBefore

namespace DeletedFiles

def empty : DeletedFiles := ⟨[], List.Pairwise.nil⟩

def insert (deleted : DeletedFiles) (file : Int32 × UInt64) : DeletedFiles :=
  ⟨insertFile file deleted.files, insertFile_sorted file deleted.sorted⟩

end DeletedFiles

end

structure EntryCodec where
  Entry : Type
  encodeTo : Entry → Bytes
  decodeFrom : Bytes → Option (Entry × Bytes)
  shorter : ∀ {input rest : Bytes} {entry : Entry}, decodeFrom input = some (entry, rest) → rest.length ≤ input.length

class ForeignEntries where
  blobFileAddition : EntryCodec
  blobFileGarbage : EntryCodec
  walAddition : EntryCodec
  walDeletion : EntryCodec

structure VersionEdit [ForeignEntries] where
  maxLevel : Int32
  dbId : Bytes
  comparator : Bytes
  logNumber : UInt64
  prevLogNumber : UInt64
  nextFileNumber : UInt64
  maxColumnFamily : UInt32
  minLogNumberToKeep : UInt64
  lastSequence : UInt64
  hasDbId : Bool
  hasComparator : Bool
  hasLogNumber : Bool
  hasPrevLogNumber : Bool
  hasNextFileNumber : Bool
  hasMaxColumnFamily : Bool
  hasMinLogNumberToKeep : Bool
  hasLastSequence : Bool
  hasPersistUserDefinedTimestamps : Bool
  compactCursors : List (Int32 × Bytes)
  deletedFiles : DeletedFiles
  newFiles : List (Int32 × FileMetaData)
  blobFileAdditions : List ForeignEntries.blobFileAddition.Entry
  blobFileGarbages : List ForeignEntries.blobFileGarbage.Entry
  walAdditions : List ForeignEntries.walAddition.Entry
  walDeletion : Option ForeignEntries.walDeletion.Entry
  columnFamily : UInt32
  isColumnFamilyDrop : Bool
  isColumnFamilyAdd : Bool
  columnFamilyName : Bytes
  isInAtomicGroup : Bool
  remainingEntries : UInt32
  fullHistoryTsLow : Bytes
  persistUserDefinedTimestamps : Bool

namespace VersionEdit

variable [ForeignEntries]

def new : VersionEdit :=
  ⟨0, [], [], 0, 0, 0, 0, 0, 0, false, false, false, false, false, false, false, false, false, [], .empty, [], [], [], [],
    none, 0, false, false, [], false, 0, [], true⟩

def clear (d : VersionEdit) : VersionEdit :=
  { d with
    maxLevel := 0, dbId := [], comparator := [], logNumber := 0, prevLogNumber := 0, nextFileNumber := 0
    maxColumnFamily := 0, minLogNumberToKeep := 0, lastSequence := 0, hasDbId := false, hasComparator := false
    hasLogNumber := false, hasPrevLogNumber := false, hasNextFileNumber := false, hasMaxColumnFamily := false
    hasMinLogNumberToKeep := false, hasLastSequence := false, compactCursors := [], deletedFiles := .empty
    newFiles := [], blobFileAdditions := [], blobFileGarbages := [], walAdditions := [], walDeletion := none
    columnFamily := 0, isColumnFamilyAdd := false, isColumnFamilyDrop := false, columnFamilyName := []
    isInAtomicGroup := false, remainingEntries := 0, fullHistoryTsLow := [] }

section

open NewFileCustomTag

def putTag (tag : Nat) : Bytes := putVarint32 [] tag

def putSlice (tag : Nat) (value : Bytes) : Bytes := putTag tag ++ putLengthPrefixedSlice [] value

def putNumber64 (tag : Nat) (value : UInt64) : Bytes := putTag tag ++ putVarint64 [] value.toNat

def putNumber32 (tag : Nat) (value : UInt32) : Bytes := putTag tag ++ putVarint32 [] value.toNat

def putLevel (level : Int32) : Bytes := putVarint32 [] level.toUInt32.toNat

def putVarintField (tag : Nat) (value : UInt64) : Bytes := putSlice tag (putVarint64 [] value.toNat)

def putByteField (tag : Nat) (value : UInt8) : Bytes := putSlice tag [value]

def encodeUniqueIdBytes (uniqueId : UInt64 × UInt64) : Bytes :=
  littleEndian 8 uniqueId.1.toNat ++ littleEndian 8 uniqueId.2.toNat

def encodeFileBoundaries (f : FileMetaData) (tsSz : Nat) : Bytes :=
  if tsSz = 0 ∨ f.userDefinedTimestampsPersisted = true then
    putLengthPrefixedSlice [] f.smallest ++ putLengthPrefixedSlice [] f.largest
  else putLengthPrefixedSlice [] (stripTimestampFromInternalKey f.smallest tsSz) ++
    putLengthPrefixedSlice [] (stripTimestampFromInternalKey f.largest tsSz)

/-- The customized fields of a file. The log number to keep is written with the first file only. -/
def encodeCustomFields (f : FileMetaData) (minLogNumberToKeep : Option UInt64) : Bytes :=
  putVarintField kOldestAncesterTime f.oldestAncesterTime ++
  (putVarintField kFileCreationTime f.fileCreationTime ++
  (putVarintField kEpochNumber f.epochNumber ++
  (putSlice kFileChecksum f.fileChecksum ++
  (putSlice kFileChecksumFuncName f.fileChecksumFuncName ++
  ((if f.fd.getPathId ≠ 0 then putByteField kPathId f.fd.getPathId.toUInt8 else []) ++
  ((if f.temperature ≠ 0 then putByteField kTemperature f.temperature else []) ++
  ((if f.markedForCompaction then putByteField kNeedCompaction 1 else []) ++
  ((match minLogNumberToKeep with
    | some number => putSlice kMinLogNumberToKeepHack (putFixed64 [] number.toNat)
    | none => []) ++
  ((if f.oldestBlobFileNumber ≠ 0 then putVarintField kOldestBlobFileNumber f.oldestBlobFileNumber else []) ++
  ((if f.uniqueId ≠ (0, 0) then putSlice kUniqueId (encodeUniqueIdBytes f.uniqueId) else []) ++
  ((if f.compensatedRangeDeletionSize ≠ 0 then
      putVarintField kCompensatedRangeDeletionSize f.compensatedRangeDeletionSize else []) ++
  ((if f.tailSize ≠ 0 then putVarintField kTailSize f.tailSize else []) ++
  ((if f.userDefinedTimestampsPersisted then [] else putByteField kUserDefinedTimestampsPersisted 0) ++
  putTag kTerminate)))))))))))))

def encodeNewFile (level : Int32) (f : FileMetaData) (tsSz : Nat) (minLogNumberToKeep : Option UInt64) : Bytes :=
  putTag kNewFile4 ++ (putLevel level ++ (putVarint64 [] f.fd.getNumber.toNat ++ (putVarint64 [] f.fd.fileSize.toNat ++
    (encodeFileBoundaries f tsSz ++ (putVarint64 [] f.fd.smallestSeqno.toNat ++
      (putVarint64 [] f.fd.largestSeqno.toNat ++ encodeCustomFields f minLogNumberToKeep))))))

/-- Nothing where `EncodeTo` returns false. -/
def encodeNewFiles (tsSz : Nat) : Option UInt64 → List (Int32 × FileMetaData) → Option Bytes
  | _, [] => some []
  | minLogNumberToKeep, (level, f) :: files =>
    if !internalKeyValid f.smallest || !internalKeyValid f.largest || f.epochNumber == 0 then none
    else (encodeNewFiles tsSz none files).map (encodeNewFile level f tsSz minLogNumberToKeep ++ ·)

def encodeNumbers (e : VersionEdit) : Bytes :=
  (if e.hasDbId then putSlice kDbId e.dbId else []) ++
  ((if e.hasComparator then putSlice kComparator e.comparator else []) ++
  ((if e.hasLogNumber then putNumber64 kLogNumber e.logNumber else []) ++
  ((if e.hasPrevLogNumber then putNumber64 kPrevLogNumber e.prevLogNumber else []) ++
  ((if e.hasNextFileNumber then putNumber64 kNextFileNumber e.nextFileNumber else []) ++
  ((if e.hasMaxColumnFamily then putNumber32 kMaxColumnFamily e.maxColumnFamily else []) ++
  ((if e.hasMinLogNumberToKeep then putNumber64 kMinLogNumberToKeep e.minLogNumberToKeep else []) ++
  (if e.hasLastSequence then putNumber64 kLastSequence e.lastSequence else [])))))))

def encodeCursor (cursor : Int32 × Bytes) : Bytes :=
  if internalKeyValid cursor.2 then putTag kCompactCursor ++ (putLevel cursor.1 ++ putLengthPrefixedSlice [] cursor.2)
  else []

def encodeDeletedFile (deleted : Int32 × UInt64) : Bytes :=
  putTag kDeletedFile ++ (putLevel deleted.1 ++ putVarint64 [] deleted.2.toNat)

def encodeForeign (e : VersionEdit) : Bytes :=
  e.blobFileAdditions.flatMap (fun entry => putTag kBlobFileAddition ++ EntryCodec.encodeTo _ entry) ++
  (e.blobFileGarbages.flatMap (fun entry => putTag kBlobFileGarbage ++ EntryCodec.encodeTo _ entry) ++
  (e.walAdditions.flatMap (fun entry => putSlice kWalAddition2 (EntryCodec.encodeTo _ entry)) ++
  (match e.walDeletion with
    | some entry => putSlice kWalDeletion2 (EntryCodec.encodeTo _ entry)
    | none => [])))

def encodeColumnFamily (e : VersionEdit) : Bytes :=
  (if e.columnFamily ≠ 0 then putNumber32 kColumnFamily e.columnFamily else []) ++
  ((if e.isColumnFamilyAdd then putSlice kColumnFamilyAdd e.columnFamilyName else []) ++
  ((if e.isColumnFamilyDrop then putTag kColumnFamilyDrop else []) ++
  ((if e.isInAtomicGroup then putNumber32 kInAtomicGroup e.remainingEntries else []) ++
  ((if e.fullHistoryTsLow ≠ [] then putSlice kFullHistoryTsLow e.fullHistoryTsLow else []) ++
  (if e.hasPersistUserDefinedTimestamps then
    putByteField kPersistUserDefinedTimestamps (if e.persistUserDefinedTimestamps then 1 else 0) else [])))))

def encodeTo (e : VersionEdit) (tsSz : Nat) : Option Bytes :=
  (encodeNewFiles tsSz (if e.hasMinLogNumberToKeep then some e.minLogNumberToKeep else none) e.newFiles).map
    (fun newFiles => e.encodeNumbers ++ (e.compactCursors.flatMap encodeCursor ++
      (e.deletedFiles.files.flatMap encodeDeletedFile ++ (newFiles ++ (e.encodeForeign ++ e.encodeColumnFamily)))))

end

end VersionEdit

end ManifestModel
