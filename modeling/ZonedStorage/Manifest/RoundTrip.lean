import ZonedStorage.Manifest.CustomFields

namespace ManifestProof

open ByteString ZenFSModel ZenFSProof ManifestModel ManifestModel.VersionEdit VersionEdit List

section

variable [ForeignEntries]

def storeFile (level : Int32) (f : FileMetaData) (minLogNumberToKeep : Option UInt64) (d : VersionEdit) : VersionEdit :=
  let d := d.raiseMaxLevel level
  let d := match minLogNumberToKeep with
    | some number => { d with minLogNumberToKeep := number, hasMinLogNumberToKeep := true }
    | none => d
  { d with newFiles := d.newFiles ++ [(level, f)] }

theorem customUpdate_new (f : FileMetaData) (minLogNumberToKeep : Option UInt64) (d : VersionEdit) :
    let s := customUpdate f minLogNumberToKeep
      ⟨d, { FileMetaData.new with smallest := f.smallest, largest := f.largest }, 0⟩
    { s.f with fd := .new f.fd.getNumber s.pathId f.fd.fileSize f.fd.smallestSeqno f.fd.largestSeqno } = f := by
  have written : ∀ {α : Type} [DecidableEq α] (value default : α), (if value ≠ default then value else default) = value := by
    intro α _ value default
    split
    · rfl
    · rename_i same
      exact (not_not.mp same).symm
  have default : FileMetaData.new.temperature = 0 ∧ FileMetaData.new.oldestBlobFileNumber = 0 ∧
      FileMetaData.new.uniqueId = (0, 0) ∧ FileMetaData.new.compensatedRangeDeletionSize = 0 ∧
      FileMetaData.new.tailSize = 0 ∧ FileMetaData.new.markedForCompaction = false ∧
      FileMetaData.new.userDefinedTimestampsPersisted = true := ⟨rfl, rfl, rfl, rfl, rfl, rfl, rfl⟩
  obtain ⟨temperature, blob, uniqueId, compensated, tail, marked, persisted⟩ := default
  simp only [customUpdate, temperature, blob, uniqueId, compensated, tail, marked, persisted, written,
    new_getNumber_getPathId, Bool.or_false, Bool.and_true]

theorem reads_newFile {level : Int32} {f : FileMetaData} (smallest : internalKeyValid f.smallest = true)
    (largest : internalKeyValid f.largest = true) (sound : SoundFile f) (minLogNumberToKeep : Option UInt64) :
    Reads (encodeNewFile level f 0 minLogNumberToKeep) (storeFile level f minLogNumberToKeep) := by
  refine reads_of_tag (by decide) fun d rest => ?_
  have bounds : encodeFileBoundaries f 0 = putLengthPrefixedSlice [] f.smallest ++ putLengthPrefixedSlice [] f.largest :=
    if_pos (Or.inl rfl)
  change d.decodeNewFile4From _ = _
  simp only [decodeNewFile4From, bounds, append_assoc, getLevel_put, reading, getNumber64_put,
    getInternalKey_put smallest sound.smallest, getInternalKey_put largest sound.largest,
    decodeCustomFields_encode sound.fileChecksum sound.fileChecksumFuncName sound.temperature]
  rw [customUpdate_new]
  cases minLogNumberToKeep <;> rfl

def storeFiles : Option UInt64 → List (Int32 × FileMetaData) → VersionEdit → VersionEdit
  | _, [], d => d
  | minLogNumberToKeep, (level, f) :: files, d => storeFiles none files (storeFile level f minLogNumberToKeep d)

theorem reads_newFiles {files : List (Int32 × FileMetaData)} (sound : ∀ file ∈ files, SoundFile file.2) :
    ∀ {minLogNumberToKeep : Option UInt64} {bytes : Bytes},
      encodeNewFiles 0 minLogNumberToKeep files = some bytes → Reads bytes (storeFiles minLogNumberToKeep files) := by
  induction files with
  | nil =>
    intro minLogNumberToKeep bytes encoded
    cases encoded
    exact Consumes.nothing
  | cons file files ih =>
    intro minLogNumberToKeep bytes encoded
    obtain ⟨level, f⟩ := file
    rw [encodeNewFiles] at encoded
    split at encoded
    · cases encoded
    · rename_i accepted
      simp only [Bool.or_eq_true, Bool.not_eq_true', not_or, Bool.not_eq_false] at accepted
      obtain ⟨tail, later, same⟩ := Option.map_eq_some_iff.mp encoded
      subst same
      have first : Reads (encodeNewFile level f 0 minLogNumberToKeep) (storeFile level f minLogNumberToKeep) :=
        reads_newFile accepted.1.1 accepted.1.2 (sound _ mem_cons_self) minLogNumberToKeep
      exact first.append (ih (fun other listed => sound other (mem_cons_of_mem _ listed)) later)

theorem raiseMaxLevel_eq (d : VersionEdit) (level : Int32) :
    ∃ maxLevel, d.raiseMaxLevel level = { d with maxLevel := maxLevel } := by
  rw [raiseMaxLevel]
  split
  · exact ⟨level, rfl⟩
  · exact ⟨d.maxLevel, rfl⟩

theorem storeFiles_eq (files : List (Int32 × FileMetaData)) (minLogNumberToKeep : Option UInt64) (d : VersionEdit)
    (known : ∀ number, minLogNumberToKeep = some number →
      d.minLogNumberToKeep = number ∧ d.hasMinLogNumberToKeep = true) :
    ∃ maxLevel, storeFiles minLogNumberToKeep files d =
      { d with maxLevel := maxLevel, newFiles := d.newFiles ++ files } := by
  induction files generalizing minLogNumberToKeep d with
  | nil => exact ⟨d.maxLevel, by rw [append_nil]; rfl⟩
  | cons file files ih =>
    obtain ⟨level, f⟩ := file
    obtain ⟨raised, level_eq⟩ := raiseMaxLevel_eq d level
    have stored : storeFile level f minLogNumberToKeep d =
        { d with maxLevel := raised, newFiles := d.newFiles ++ [(level, f)] } := by
      simp only [storeFile, level_eq]
      cases minLogNumberToKeep with
      | none => rfl
      | some number =>
        obtain ⟨same, present⟩ := known number rfl
        simp only [same.symm, present.symm]
    obtain ⟨maxLevel, later⟩ := ih none (storeFile level f minLogNumberToKeep d) (fun _ impossible => by cases impossible)
    refine ⟨maxLevel, ?_⟩
    rw [storeFiles, later, stored]
    simp only [append_assoc, singleton_append]

theorem reads_cursors {cursors : List (Int32 × Bytes)} (valid : ∀ cursor ∈ cursors, internalKeyValid cursor.2 = true)
    (short : ∀ cursor ∈ cursors, cursor.2.length < 2 ^ 32) (d : VersionEdit) :
    ∃ maxLevel, ∀ rest, decodeLoop d (cursors.flatMap encodeCursor ++ rest) =
      decodeLoop { d with maxLevel := maxLevel, compactCursors := d.compactCursors ++ cursors } rest := by
  induction cursors generalizing d with
  | nil => exact ⟨d.maxLevel, fun rest => by rw [append_nil]; rfl⟩
  | cons cursor cursors ih =>
    obtain ⟨raised, level_eq⟩ := raiseMaxLevel_eq d cursor.1
    have first := reads_cursor (valid cursor mem_cons_self) (short cursor mem_cons_self) d
    simp only [level_eq] at first
    obtain ⟨maxLevel, later⟩ := ih (fun other listed => valid other (mem_cons_of_mem _ listed))
      (fun other listed => short other (mem_cons_of_mem _ listed))
      { d with maxLevel := raised, compactCursors := d.compactCursors ++ [cursor] }
    refine ⟨maxLevel, fun rest => ?_⟩
    rw [flatMap_cons, append_assoc, first, later]
    simp only [append_assoc, singleton_append]

omit [ForeignEntries] in
theorem insertFile_last {file : Int32 × UInt64} {files : List (Int32 × UInt64)}
    (last : ∀ other ∈ files, fileBefore other file) : insertFile file files = files ++ [file] := by
  induction files with
  | nil => rfl
  | cons first files ih =>
    obtain ⟨late, different⟩ := not_fileBefore (last first mem_cons_self)
    rw [insertFile, if_neg late, if_neg different, ih fun other listed => last other (mem_cons_of_mem _ listed),
      cons_append]

theorem reads_deletedFiles {files : List (Int32 × UInt64)} (sorted : files.Pairwise fileBefore) (d : VersionEdit)
    (later : ∀ old ∈ d.deletedFiles.files, ∀ file ∈ files, fileBefore old file) :
    ∃ maxLevel deletedFiles, deletedFiles.files = d.deletedFiles.files ++ files ∧
      ∀ rest, decodeLoop d (files.flatMap encodeDeletedFile ++ rest) =
        decodeLoop { d with maxLevel := maxLevel, deletedFiles := deletedFiles } rest := by
  induction files generalizing d with
  | nil => exact ⟨d.maxLevel, d.deletedFiles, (append_nil _).symm, fun rest => rfl⟩
  | cons file files ih =>
    obtain ⟨before, tail_sorted⟩ := pairwise_cons.mp sorted
    obtain ⟨raised, level_eq⟩ := raiseMaxLevel_eq d file.1
    have first := reads_deletedFile file d
    simp only [level_eq] at first
    have inserted : (d.deletedFiles.insert file).files = d.deletedFiles.files ++ [file] :=
      insertFile_last fun old listed => later old listed file mem_cons_self
    obtain ⟨maxLevel, deletedFiles, same, rest_read⟩ := ih tail_sorted
      { d with maxLevel := raised, deletedFiles := d.deletedFiles.insert file } (by
        intro old listed other other_listed
        rw [inserted] at listed
        rcases mem_append.mp listed with old_listed | new_listed
        · exact later old old_listed other (mem_cons_of_mem _ other_listed)
        · rw [mem_singleton.mp new_listed]
          exact before other other_listed)
    refine ⟨maxLevel, deletedFiles, ?_, fun rest => ?_⟩
    · rw [same, inserted, append_assoc, singleton_append]
    · rw [flatMap_cons, append_assoc, first, rest_read]

section

structure Plain (e : VersionEdit) : Prop where
  blobFileAdditions : e.blobFileAdditions = []
  blobFileGarbages : e.blobFileGarbages = []
  walAdditions : e.walAdditions = []
  walDeletion : e.walDeletion = none

/-- Every persisted field of the object is that of the edit, and what the edit does not carry is as in a cleared
object. -/
structure HoldsEdit (d e : VersionEdit) : Prop where
  dbId : d.hasDbId = e.hasDbId ∧ d.dbId = if e.hasDbId then e.dbId else []
  comparator : d.hasComparator = e.hasComparator ∧ d.comparator = if e.hasComparator then e.comparator else []
  logNumber : d.hasLogNumber = e.hasLogNumber ∧ d.logNumber = if e.hasLogNumber then e.logNumber else 0
  prevLogNumber : d.hasPrevLogNumber = e.hasPrevLogNumber ∧
    d.prevLogNumber = if e.hasPrevLogNumber then e.prevLogNumber else 0
  nextFileNumber : d.hasNextFileNumber = e.hasNextFileNumber ∧
    d.nextFileNumber = if e.hasNextFileNumber then e.nextFileNumber else 0
  maxColumnFamily : d.hasMaxColumnFamily = e.hasMaxColumnFamily ∧
    d.maxColumnFamily = if e.hasMaxColumnFamily then e.maxColumnFamily else 0
  minLogNumberToKeep : d.hasMinLogNumberToKeep = e.hasMinLogNumberToKeep ∧
    d.minLogNumberToKeep = if e.hasMinLogNumberToKeep then e.minLogNumberToKeep else 0
  lastSequence : d.hasLastSequence = e.hasLastSequence ∧ d.lastSequence = if e.hasLastSequence then e.lastSequence else 0
  compactCursors : d.compactCursors = e.compactCursors
  deletedFiles : d.deletedFiles.files = e.deletedFiles.files
  newFiles : d.newFiles = e.newFiles
  plain : Plain d
  columnFamily : d.columnFamily = e.columnFamily
  columnFamilyAdd : d.isColumnFamilyAdd = e.isColumnFamilyAdd ∧
    d.columnFamilyName = if e.isColumnFamilyAdd then e.columnFamilyName else []
  columnFamilyDrop : d.isColumnFamilyDrop = e.isColumnFamilyDrop
  atomicGroup : d.isInAtomicGroup = e.isInAtomicGroup ∧
    d.remainingEntries = if e.isInAtomicGroup then e.remainingEntries else 0
  fullHistoryTsLow : d.fullHistoryTsLow = e.fullHistoryTsLow
  timestamps : d.hasPersistUserDefinedTimestamps = e.hasPersistUserDefinedTimestamps ∧
    (e.hasPersistUserDefinedTimestamps = true → d.persistUserDefinedTimestamps = e.persistUserDefinedTimestamps)

/-- Every text that is written has a length of 32 bits, and every temperature is a known one. -/
structure Legible (e : VersionEdit) : Prop where
  dbId : e.hasDbId = true → e.dbId.length < 2 ^ 32
  comparator : e.hasComparator = true → e.comparator.length < 2 ^ 32
  compactCursors : ∀ cursor ∈ e.compactCursors, cursor.2.length < 2 ^ 32
  newFiles : ∀ file ∈ e.newFiles, SoundFile file.2
  columnFamilyName : e.isColumnFamilyAdd = true → e.columnFamilyName.length < 2 ^ 32
  fullHistoryTsLow : e.fullHistoryTsLow.length < 2 ^ 32

def storeNumbers (e d : VersionEdit) : VersionEdit :=
  { d with
    dbId := if e.hasDbId then e.dbId else d.dbId
    hasDbId := e.hasDbId || d.hasDbId
    comparator := if e.hasComparator then e.comparator else d.comparator
    hasComparator := e.hasComparator || d.hasComparator
    logNumber := if e.hasLogNumber then e.logNumber else d.logNumber
    hasLogNumber := e.hasLogNumber || d.hasLogNumber
    prevLogNumber := if e.hasPrevLogNumber then e.prevLogNumber else d.prevLogNumber
    hasPrevLogNumber := e.hasPrevLogNumber || d.hasPrevLogNumber
    nextFileNumber := if e.hasNextFileNumber then e.nextFileNumber else d.nextFileNumber
    hasNextFileNumber := e.hasNextFileNumber || d.hasNextFileNumber
    maxColumnFamily := if e.hasMaxColumnFamily then e.maxColumnFamily else d.maxColumnFamily
    hasMaxColumnFamily := e.hasMaxColumnFamily || d.hasMaxColumnFamily
    minLogNumberToKeep := if e.hasMinLogNumberToKeep then e.minLogNumberToKeep else d.minLogNumberToKeep
    hasMinLogNumberToKeep := e.hasMinLogNumberToKeep || d.hasMinLogNumberToKeep
    lastSequence := if e.hasLastSequence then e.lastSequence else d.lastSequence
    hasLastSequence := e.hasLastSequence || d.hasLastSequence }

theorem reads_present {α : Type} (flag : Bool) (value : α) {bytes : Bytes}
    (store : α → Bool → VersionEdit → VersionEdit)
    (held : VersionEdit → α) (present : VersionEdit → Bool)
    (reads : flag = true → Reads bytes (store value true)) (unchanged : ∀ d, store (held d) (present d) d = d) :
    Reads (if flag then bytes else []) (fun d => store (if flag then value else held d) (flag || present d) d) := by
  cases flag with
  | true => exact reads rfl
  | false =>
    intro d rest
    change _ = decodeLoop (store (held d) (present d) d) rest
    rw [unchanged]
    rfl

variable {e d : VersionEdit}

theorem reads_numbers (short : Legible e) : Reads e.encodeNumbers (storeNumbers e) := by
  have dbId := reads_present e.hasDbId e.dbId (fun v present d => { d with dbId := v, hasDbId := present })
    (·.dbId) (·.hasDbId) (fun set => reads_slice kDbId (by decide) (fun d input => rfl) (short.dbId set)) (fun d => rfl)
  have comparator := reads_present e.hasComparator e.comparator
    (fun v present d => { d with comparator := v, hasComparator := present }) (·.comparator) (·.hasComparator)
    (fun set => reads_slice kComparator (by decide) (fun d input => rfl) (short.comparator set)) (fun d => rfl)
  have logNumber := reads_present e.hasLogNumber e.logNumber
    (fun v present d => { d with logNumber := v, hasLogNumber := present }) (·.logNumber) (·.hasLogNumber)
    (fun _ => reads_number64 kLogNumber (by decide) (fun d input => rfl) e.logNumber) (fun d => rfl)
  have prevLogNumber := reads_present e.hasPrevLogNumber e.prevLogNumber
    (fun v present d => { d with prevLogNumber := v, hasPrevLogNumber := present }) (·.prevLogNumber) (·.hasPrevLogNumber)
    (fun _ => reads_number64 kPrevLogNumber (by decide) (fun d input => rfl) e.prevLogNumber) (fun d => rfl)
  have nextFileNumber := reads_present e.hasNextFileNumber e.nextFileNumber
    (fun v present d => { d with nextFileNumber := v, hasNextFileNumber := present })
    (·.nextFileNumber) (·.hasNextFileNumber)
    (fun _ => reads_number64 kNextFileNumber (by decide) (fun d input => rfl) e.nextFileNumber) (fun d => rfl)
  have maxColumnFamily := reads_present e.hasMaxColumnFamily e.maxColumnFamily
    (fun v present d => { d with maxColumnFamily := v, hasMaxColumnFamily := present })
    (·.maxColumnFamily) (·.hasMaxColumnFamily)
    (fun _ => reads_number32 kMaxColumnFamily (by decide) (fun d input => rfl) e.maxColumnFamily) (fun d => rfl)
  have minLogNumberToKeep := reads_present e.hasMinLogNumberToKeep e.minLogNumberToKeep
    (fun v present d => { d with minLogNumberToKeep := v, hasMinLogNumberToKeep := present })
    (·.minLogNumberToKeep) (·.hasMinLogNumberToKeep)
    (fun _ => reads_number64 kMinLogNumberToKeep (by decide) (fun d input => rfl) e.minLogNumberToKeep) (fun d => rfl)
  have lastSequence := reads_present e.hasLastSequence e.lastSequence
    (fun v present d => { d with lastSequence := v, hasLastSequence := present }) (·.lastSequence) (·.hasLastSequence)
    (fun _ => reads_number64 kLastSequence (by decide) (fun d input => rfl) e.lastSequence) (fun d => rfl)
  exact dbId.append (comparator.append (logNumber.append (prevLogNumber.append (nextFileNumber.append
    (maxColumnFamily.append (minLogNumberToKeep.append lastSequence))))))

def storeColumnFamily (e d : VersionEdit) : VersionEdit :=
  { d with
    columnFamily := if e.columnFamily ≠ 0 then e.columnFamily else d.columnFamily
    columnFamilyName := if e.isColumnFamilyAdd then e.columnFamilyName else d.columnFamilyName
    isColumnFamilyAdd := e.isColumnFamilyAdd || d.isColumnFamilyAdd
    isColumnFamilyDrop := e.isColumnFamilyDrop || d.isColumnFamilyDrop
    remainingEntries := if e.isInAtomicGroup then e.remainingEntries else d.remainingEntries
    isInAtomicGroup := e.isInAtomicGroup || d.isInAtomicGroup
    fullHistoryTsLow := if e.fullHistoryTsLow ≠ [] then e.fullHistoryTsLow else d.fullHistoryTsLow
    persistUserDefinedTimestamps :=
      if e.hasPersistUserDefinedTimestamps then e.persistUserDefinedTimestamps else d.persistUserDefinedTimestamps
    hasPersistUserDefinedTimestamps := e.hasPersistUserDefinedTimestamps || d.hasPersistUserDefinedTimestamps }

theorem reads_columnFamilyId (id : UInt32) : Reads (if id ≠ 0 then putNumber32 kColumnFamily id else [])
      (fun d => { d with columnFamily := if id ≠ 0 then id else d.columnFamily }) := by
  refine Consumes.optional (fun nonzero => ?_) (fun zero d => ?_)
  · simp only [if_pos nonzero]
    exact reads_number32 kColumnFamily (by decide) (fun d input => rfl) id
  · rw [if_neg zero]

theorem reads_columnFamilyDrop : Reads (putTag kColumnFamilyDrop) (fun d => { d with isColumnFamilyDrop := true }) := by
  intro d rest
  exact decodeLoop_tag (by decide) rfl

theorem reads_atomicGroup (remaining : UInt32) : Reads (putNumber32 kInAtomicGroup remaining)
      (fun d => { d with isInAtomicGroup := true, remainingEntries := remaining }) := by
  refine reads_of_tag (by decide) fun d rest => ?_
  simp only [decodeTag, getNumber32_put, reading]

theorem reads_fullHistoryTsLow {ts : Bytes} (short : ts.length < 2 ^ 32) :
    Reads (if ts ≠ [] then putSlice kFullHistoryTsLow ts else [])
      (fun d => { d with fullHistoryTsLow := if ts ≠ [] then ts else d.fullHistoryTsLow }) := by
  refine Consumes.optional (fun filled => ?_) (fun empty d => ?_)
  · simp only [if_pos filled]
    refine reads_of_tag (by decide) fun d rest => ?_
    simp only [decodeTag, getLengthPrefixedSlice_put short, reading, if_neg filled]
  · rw [if_neg empty]

theorem reads_timestamps (persisted : Bool) :
    Reads (putByteField kPersistUserDefinedTimestamps (if persisted then 1 else 0))
      (fun d => { d with
        persistUserDefinedTimestamps := persisted, hasPersistUserDefinedTimestamps := true }) := by
  have short : [if persisted then (1 : UInt8) else 0].length < 2 ^ 32 := by simp
  refine reads_of_tag (by decide) fun d rest => ?_
  simp only [decodeTag, getLengthPrefixedSlice_put short, reading]
  cases persisted <;> rfl

theorem reads_encodeColumnFamily (short : Legible e) : Reads e.encodeColumnFamily (storeColumnFamily e) := by
  have added := reads_present e.isColumnFamilyAdd e.columnFamilyName
    (fun v present d => { d with isColumnFamilyAdd := present, columnFamilyName := v })
    (·.columnFamilyName) (·.isColumnFamilyAdd)
    (fun set => reads_slice kColumnFamilyAdd (by decide) (fun d input => rfl) (short.columnFamilyName set)) (fun d => rfl)
  have dropped := reads_present e.isColumnFamilyDrop () (fun _ present d => { d with isColumnFamilyDrop := present })
    (fun _ => ()) (·.isColumnFamilyDrop) (fun _ => reads_columnFamilyDrop) (fun d => rfl)
  have atomicGroup := reads_present e.isInAtomicGroup e.remainingEntries
    (fun v present d => { d with isInAtomicGroup := present, remainingEntries := v })
    (·.remainingEntries) (·.isInAtomicGroup) (fun _ => reads_atomicGroup e.remainingEntries) (fun d => rfl)
  have timestamps := reads_present e.hasPersistUserDefinedTimestamps e.persistUserDefinedTimestamps
    (fun v present d => { d with persistUserDefinedTimestamps := v, hasPersistUserDefinedTimestamps := present })
    (·.persistUserDefinedTimestamps) (·.hasPersistUserDefinedTimestamps)
    (fun _ => reads_timestamps e.persistUserDefinedTimestamps) (fun d => rfl)
  exact (reads_columnFamilyId e.columnFamily).append (added.append (dropped.append (atomicGroup.append
    ((reads_fullHistoryTsLow short.fullHistoryTsLow).append timestamps))))

theorem encodeForeign_plain (plain : Plain e) : e.encodeForeign = [] := by
  simp only [encodeForeign, plain.blobFileAdditions, plain.blobFileGarbages, plain.walAdditions, plain.walDeletion,
    flatMap_nil, append_nil]

theorem decodeLoop_nil (d : VersionEdit) : decodeLoop d [] = (none, d) := by
  rw [decodeLoop]
  rfl

theorem decodeFrom_encodeTo {bytes : Bytes} (encoded : e.encodeTo 0 = some bytes) (plain : Plain e)
    (cursors : ∀ cursor ∈ e.compactCursors, internalKeyValid cursor.2 = true) (short : Legible e) :
    ∃ maxLevel deletedFiles, deletedFiles.files = e.deletedFiles.files ∧
      d.decodeFrom bytes = (none, storeColumnFamily e { storeNumbers e d.clear with
        maxLevel := maxLevel, compactCursors := e.compactCursors, deletedFiles := deletedFiles
        newFiles := e.newFiles }) := by
  obtain ⟨newFiles, files_encoded, same⟩ := Option.map_eq_some_iff.mp encoded
  obtain ⟨cursorLevel, cursors_read⟩ := reads_cursors cursors short.compactCursors (storeNumbers e d.clear)
  obtain ⟨deletedLevel, deletedFiles, deleted_same, deleted_read⟩ := reads_deletedFiles e.deletedFiles.sorted
    { storeNumbers e d.clear with maxLevel := cursorLevel, compactCursors := [] ++ e.compactCursors }
    (fun old listed => absurd listed not_mem_nil)
  have files_read := reads_newFiles short.newFiles files_encoded
  obtain ⟨maxLevel, stored⟩ := storeFiles_eq e.newFiles
    (if e.hasMinLogNumberToKeep then some e.minLogNumberToKeep else none)
    { storeNumbers e d.clear with
      maxLevel := deletedLevel, compactCursors := [] ++ e.compactCursors, deletedFiles := deletedFiles } (by
      intro number present
      split at present
      · rename_i set
        cases present
        exact ⟨if_pos set, by rw [storeNumbers, set]; rfl⟩
      · cases present)
  refine ⟨maxLevel, deletedFiles, deleted_same, ?_⟩
  rw [decodeFrom, ← same, encodeForeign_plain plain, nil_append, reads_numbers short]
  refine (cursors_read _).trans ((deleted_read _).trans ?_)
  rw [files_read, stored]
  have last := reads_encodeColumnFamily short { storeNumbers e d.clear with
    maxLevel := maxLevel, compactCursors := [] ++ e.compactCursors, deletedFiles := deletedFiles
    newFiles := [] ++ e.newFiles } []
  rw [append_nil] at last
  exact last.trans (decodeLoop_nil _)

theorem holdsEdit_stored (flag : d.hasPersistUserDefinedTimestamps = true →
    e.hasPersistUserDefinedTimestamps = true) {maxLevel : Int32} {deletedFiles : DeletedFiles}
    (deleted : deletedFiles.files = e.deletedFiles.files) :
    HoldsEdit (storeColumnFamily e { storeNumbers e d.clear with
      maxLevel := maxLevel, compactCursors := e.compactCursors, deletedFiles := deletedFiles
      newFiles := e.newFiles }) e where
  dbId := ⟨Bool.or_false _, rfl⟩
  comparator := ⟨Bool.or_false _, rfl⟩
  logNumber := ⟨Bool.or_false _, rfl⟩
  prevLogNumber := ⟨Bool.or_false _, rfl⟩
  nextFileNumber := ⟨Bool.or_false _, rfl⟩
  maxColumnFamily := ⟨Bool.or_false _, rfl⟩
  minLogNumberToKeep := ⟨Bool.or_false _, rfl⟩
  lastSequence := ⟨Bool.or_false _, rfl⟩
  compactCursors := rfl
  deletedFiles := deleted
  newFiles := rfl
  plain := ⟨rfl, rfl, rfl, rfl⟩
  columnFamily := by
    change (if e.columnFamily ≠ 0 then e.columnFamily else 0) = e.columnFamily
    split
    · rfl
    · rename_i zero
      exact (not_not.mp zero).symm
  columnFamilyAdd := ⟨Bool.or_false _, rfl⟩
  columnFamilyDrop := Bool.or_false _
  atomicGroup := ⟨Bool.or_false _, rfl⟩
  fullHistoryTsLow := by
    change (if e.fullHistoryTsLow ≠ [] then e.fullHistoryTsLow else []) = e.fullHistoryTsLow
    split
    · rfl
    · rename_i empty
      exact (not_not.mp empty).symm
  timestamps := by
    refine ⟨?_, fun set => if_pos set⟩
    change (e.hasPersistUserDefinedTimestamps || d.hasPersistUserDefinedTimestamps) = e.hasPersistUserDefinedTimestamps
    cases before : d.hasPersistUserDefinedTimestamps with
    | false => exact Bool.or_false _
    | true => rw [flag before, Bool.or_true]

theorem HoldsEdit.legible {flagged : Prop} (holds : HoldsEdit d e) (sound : Sound flagged d) : Legible e where
  dbId := by
    intro set
    have same := holds.dbId.2
    rw [if_pos set] at same
    exact same ▸ sound.dbId
  comparator := by
    intro set
    have same := holds.comparator.2
    rw [if_pos set] at same
    exact same ▸ sound.comparator
  compactCursors := holds.compactCursors ▸ sound.compactCursors
  newFiles := holds.newFiles ▸ sound.newFiles
  columnFamilyName := by
    intro set
    have same := holds.columnFamilyAdd.2
    rw [if_pos set] at same
    exact same ▸ sound.columnFamilyName
  fullHistoryTsLow := holds.fullHistoryTsLow ▸ sound.fullHistoryTsLow

/-- An edit is read back into an object exactly if the object did not have the flag for user-defined timestamps without
the edit having it, every text has a length of 32 bits and every temperature is a known one. -/
theorem manifest_edit_round_trip_iff (d e : VersionEdit) {bytes : Bytes} (encoded : e.encodeTo 0 = some bytes)
    (plain : Plain e) (cursors : ∀ cursor ∈ e.compactCursors, internalKeyValid cursor.2 = true) :
    (∃ d', d.decodeFrom bytes = (none, d') ∧ HoldsEdit d' e) ↔
      (d.hasPersistUserDefinedTimestamps = true → e.hasPersistUserDefinedTimestamps = true) ∧ Legible e := by
  constructor
  · rintro ⟨d', decoded, holds⟩
    have sound : Sound _ (d.decodeFrom bytes).2 := decodeLoop_sound (sound_clear d)
    rw [decoded] at sound
    exact ⟨fun before => holds.timestamps.1 ▸ sound.timestamps before, holds.legible sound⟩
  · rintro ⟨flag, short⟩
    obtain ⟨maxLevel, deletedFiles, deleted, decoded⟩ := decodeFrom_encodeTo (d := d) encoded plain cursors short
    exact ⟨_, decoded, holdsEdit_stored flag deleted⟩

end

end

instance noEntries : ForeignEntries :=
  let codec : EntryCodec := ⟨Empty, Empty.elim, fun _ => none, fun impossible => by cases impossible⟩
  ⟨codec, codec, codec, codec⟩

def afterComparator : VersionEdit :=
  { new with
    comparator := [99], hasComparator := true, persistUserDefinedTimestamps := false
    hasPersistUserDefinedTimestamps := true }

/-- The flag of an earlier edit is still set after an edit without it was decoded. -/
theorem timestamps_flag_survives_decoding : new.encodeTo 0 = some [] ∧ Plain new ∧
      (∀ cursor ∈ new.compactCursors, internalKeyValid cursor.2 = true) ∧
      ¬ ∃ d', afterComparator.decodeFrom [] = (none, d') ∧ HoldsEdit d' new := by
  refine ⟨rfl, ⟨rfl, rfl, rfl, rfl⟩, fun cursor listed => absurd listed not_mem_nil, ?_⟩
  rintro ⟨d', decoded, holds⟩
  rw [decodeFrom, decodeLoop_nil] at decoded
  cases decoded
  exact absurd holds.timestamps.1 (by decide)

def smallFile : FileMetaData :=
  { FileMetaData.new with
    fd := .new 12 2 4096 5 9, smallest := [97, 1, 5, 0, 0, 0, 0, 0, 0], largest := [98, 1, 9, 0, 0, 0, 0, 0, 0]
    epochNumber := 3, temperature := 4, tailSize := 64 }

def flushEdit : VersionEdit :=
  { new with
    hasLogNumber := true, logNumber := 8, hasMinLogNumberToKeep := true, minLogNumberToKeep := 8
    deletedFiles := DeletedFiles.empty.insert (1, 7), newFiles := [(0, smallFile)] }

theorem flush_edit_is_read_back : ∃ bytes d', flushEdit.encodeTo 0 = some bytes ∧
    new.decodeFrom bytes = (none, d') ∧ HoldsEdit d' flushEdit := by
  have legible : Legible flushEdit := by
    refine ⟨fun _ => nil_short, fun _ => nil_short, fun _ listed => absurd listed not_mem_nil, ?_,
      fun _ => nil_short, nil_short⟩
    intro file listed
    rw [mem_singleton.mp listed]
    exact ⟨by decide, by decide, by decide, by decide, by decide⟩
  obtain ⟨d', decoded, holds⟩ := (manifest_edit_round_trip_iff new flushEdit rfl ⟨rfl, rfl, rfl, rfl⟩
    (fun _ listed => absurd listed not_mem_nil)).mpr ⟨fun set => absurd set (by decide), legible⟩
  exact ⟨_, d', rfl, decoded, holds⟩

end ManifestProof
