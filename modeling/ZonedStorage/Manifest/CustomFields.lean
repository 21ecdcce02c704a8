import ZonedStorage.Manifest.Entries

namespace ManifestProof

open ByteString ZenFSModel ZenFSProof ManifestModel ManifestModel.VersionEdit NewFileCustomTag Consumes

theorem encodeVarint64_length {k v : Nat} (small : v < 2 ^ (7 * (k + 1))) : (encodeVarint64 v).length ≤ k + 1 := by
  induction k generalizing v with
  | zero =>
    have last : v < 128 := small
    rw [encodeVarint64, if_pos last]
    exact Nat.le_refl _
  | succ k ih =>
    rw [encodeVarint64]
    split
    · exact Nat.le_add_left _ _
    · have later : v >>> 7 < 2 ^ (7 * (k + 1)) := by
        rw [Nat.shiftRight_eq_div_pow]
        refine Nat.div_lt_of_lt_mul ?_
        rw [← Nat.pow_add, Nat.add_comm]
        exact small
      exact Nat.succ_le_succ (ih later)

theorem putVarint64_short (v : UInt64) : (putVarint64 [] v.toNat).length < 2 ^ 32 := by
  rw [putVarint64, List.nil_append, Nat.mod_eq_of_lt v.toNat_lt]
  have bound : v.toNat < 2 ^ (7 * (9 + 1)) := Nat.lt_of_lt_of_le v.toNat_lt (by decide)
  exact Nat.lt_of_le_of_lt (encodeVarint64_length bound) (by decide)

theorem getNumber64_alone (v : UInt64) : getNumber64 (putVarint64 [] v.toNat) = some (v, []) := by
  have read := getNumber64_put v []
  rwa [List.append_nil] at read

theorem getPathId_toUInt8 (fd : FileDescriptor) :
    fd.getPathId.toUInt8.toUInt32 = fd.getPathId ∧ ¬ fd.getPathId.toUInt8 > 3 := by
  have bound := fd.packedNumberAndPathId.toNat_lt
  have small : fd.getPathId.toNat < 4 := by
    simp only [FileDescriptor.getPathId, UInt64.toNat_toUInt32, UInt64.toNat_div]
    refine Nat.lt_of_le_of_lt (Nat.mod_le _ _) ?_
    rw [show (kFileNumberMask + 1).toNat = 2 ^ 62 from rfl]
    omega
  have byte : fd.getPathId.toUInt8.toNat = fd.getPathId.toNat := by
    rw [UInt32.toNat_toUInt8]
    exact Nat.mod_eq_of_lt (by omega)
  constructor
  · apply UInt32.toNat_inj.mp
    rw [UInt8.toNat_toUInt32, byte]
  · rw [gt_iff_lt, UInt8.lt_iff_toNat_lt, byte]
    exact Nat.not_lt.mpr (Nat.le_of_lt_succ small)

variable [ForeignEntries]

abbrev ReadsField (bytes : Bytes) (update : NewFile4 → NewFile4) : Prop := Consumes decodeCustomFields bytes update

variable {tag : Nat} {msg : String}

theorem readsField_of {field : Bytes} {update : NewFile4 → NewFile4} (fits : tag < 2 ^ 32)
    (goes_on : tag ≠ kTerminate) (short : field.length < 2 ^ 32)
    (stored : ∀ s : NewFile4, s.customField tag field = .ok (update s)) : ReadsField (putSlice tag field) update := by
  intro s rest
  rw [putSlice, List.append_assoc, decodeCustomFields]
  split
  · rename_i unread
    rw [getVarint32_putTag fits] at unread
    cases unread
  · rename_i found afterTag read
    rw [getVarint32_putTag fits] at read
    cases read
    rw [if_neg goes_on]
    split
    · rename_i unread
      rw [getLengthPrefixedSlice_put short] at unread
      cases unread
    · rename_i found tail read
      rw [getLengthPrefixedSlice_put short] at read
      cases read
      rw [stored]

theorem decodeCustomFields_terminate (s : NewFile4) (rest : Bytes) :
    decodeCustomFields s (putTag kTerminate ++ rest) = (.ok rest, s) := by
  rw [decodeCustomFields]
  split
  · rename_i unread
    rw [getVarint32_putTag (by decide)] at unread
    cases unread
  · rename_i found afterTag read
    rw [getVarint32_putTag (by decide)] at read
    cases read
    rw [if_pos rfl]

theorem readsField_varint {store : UInt64 → NewFile4 → NewFile4} (fits : tag < 2 ^ 32) (goes_on : tag ≠ kTerminate)
    (field : ∀ (s : NewFile4) (bytes : Bytes),
      s.customField tag bytes = readingField msg (getNumber64 bytes) fun v => store v s)
    (v : UInt64) : ReadsField (putVarintField tag v) (store v) := by
  refine readsField_of fits goes_on (putVarint64_short v) fun s => ?_
  rw [field, getNumber64_alone]
  rfl

theorem readsField_nonzero {store : UInt64 → NewFile4 → NewFile4} {held : NewFile4 → UInt64}
    (fits : tag < 2 ^ 32) (goes_on : tag ≠ kTerminate) (field : ∀ (s : NewFile4) (bytes : Bytes),
      s.customField tag bytes = readingField msg (getNumber64 bytes) fun v => store v s)
    (unchanged : ∀ s, store (held s) s = s) (v : UInt64) :
    ReadsField (if v ≠ 0 then putVarintField tag v else []) (fun s => store (if v ≠ 0 then v else held s) s) := by
  refine optional (fun nonzero => ?_) (fun zero s => ?_)
  · simp only [if_pos nonzero]
    exact readsField_varint fits goes_on field v
  · rw [if_neg zero, unchanged]

theorem readsField_byte {store : UInt8 → NewFile4 → Except String NewFile4}
    {update : NewFile4 → NewFile4} {byte : UInt8} (fits : tag < 2 ^ 32) (goes_on : tag ≠ kTerminate)
    (field : ∀ (s : NewFile4) (bytes : Bytes), s.customField tag bytes = readingByte msg bytes fun byte => store byte s)
    (stored : ∀ s, store byte s = .ok (update s)) : ReadsField (putByteField tag byte) update := by
  refine readsField_of fits goes_on (by simp) fun s => ?_
  rw [field]
  exact stored s

def customUpdate (f : FileMetaData) (minLogNumberToKeep : Option UInt64) (s : NewFile4) : NewFile4 where
  edit := match minLogNumberToKeep with
    | some number => { s.edit with minLogNumberToKeep := number, hasMinLogNumberToKeep := true }
    | none => s.edit
  f := { f with
    fd := s.f.fd
    smallest := s.f.smallest
    largest := s.f.largest
    temperature := if f.temperature ≠ 0 then f.temperature else s.f.temperature
    markedForCompaction := f.markedForCompaction || s.f.markedForCompaction
    oldestBlobFileNumber := if f.oldestBlobFileNumber ≠ 0 then f.oldestBlobFileNumber else s.f.oldestBlobFileNumber
    uniqueId := if f.uniqueId ≠ (0, 0) then f.uniqueId else s.f.uniqueId
    compensatedRangeDeletionSize :=
      if f.compensatedRangeDeletionSize ≠ 0 then f.compensatedRangeDeletionSize else s.f.compensatedRangeDeletionSize
    tailSize := if f.tailSize ≠ 0 then f.tailSize else s.f.tailSize
    userDefinedTimestampsPersisted := f.userDefinedTimestampsPersisted && s.f.userDefinedTimestampsPersisted }
  pathId := if f.fd.getPathId ≠ 0 then f.fd.getPathId else s.pathId

theorem readsField_pathId (fd : FileDescriptor) :
    ReadsField (if fd.getPathId ≠ 0 then putByteField kPathId fd.getPathId.toUInt8 else [])
      (fun s => { s with pathId := if fd.getPathId ≠ 0 then fd.getPathId else s.pathId }) := by
  obtain ⟨back, allowed⟩ := getPathId_toUInt8 fd
  refine optional (fun nonzero => ?_) (fun zero s => ?_)
  · simp only [if_pos nonzero]
    refine readsField_byte (by decide) (by decide) (fun s bytes => rfl) (fun s => ?_)
    rw [if_neg allowed, back]
  · rw [if_neg zero]

theorem readsField_temperature {temperature : UInt8} (known : temperature ≤ kCold) :
    ReadsField (if temperature ≠ 0 then putByteField kTemperature temperature else [])
      (fun s => { s with f := { s.f with temperature := if temperature ≠ 0 then temperature else s.f.temperature } }) := by
  refine optional (fun nonzero => ?_) (fun zero s => ?_)
  · simp only [if_pos nonzero]
    exact readsField_byte (by decide) (by decide) (fun s bytes => rfl) (fun s => if_pos known)
  · rw [if_neg zero]

theorem readsField_needCompaction (marked : Bool) : ReadsField (if marked then putByteField kNeedCompaction 1 else [])
      (fun s => { s with f := { s.f with markedForCompaction := marked || s.f.markedForCompaction } }) := by
  refine optional (fun set => ?_) (fun unset s => ?_)
  · subst set
    exact readsField_byte (by decide) (by decide) (fun s bytes => rfl) (fun s => rfl)
  · rw [Bool.not_eq_true] at unset
    subst unset
    rfl

theorem readsField_minLogNumberToKeep (minLogNumberToKeep : Option UInt64) : ReadsField (match minLogNumberToKeep with
        | some number => putSlice kMinLogNumberToKeepHack (putFixed64 [] number.toNat)
        | none => [])
      (fun s => { s with edit := match minLogNumberToKeep with
        | some number => { s.edit with minLogNumberToKeep := number, hasMinLogNumberToKeep := true }
        | none => s.edit }) := by
  cases minLogNumberToKeep with
  | none => exact nothing
  | some number =>
    refine readsField_of (by decide) (by decide) (by simp [putFixed64]) fun s => ?_
    simp only [NewFile4.customField, getFixedNumber64_put]
    rfl

theorem readsField_uniqueId (uniqueId : UInt64 × UInt64) :
    ReadsField (if uniqueId ≠ (0, 0) then putSlice kUniqueId (encodeUniqueIdBytes uniqueId) else [])
      (fun s => { s with f := { s.f with uniqueId := if uniqueId ≠ (0, 0) then uniqueId else s.f.uniqueId } }) := by
  refine optional (fun nonzero => ?_) (fun zero s => ?_)
  · simp only [if_pos nonzero]
    refine readsField_of (by decide) (by decide) (by simp [encodeUniqueIdBytes]) fun s => ?_
    simp only [NewFile4.customField, decodeUniqueIdBytes_encode]
  · rw [if_neg zero]

theorem readsField_timestampsPersisted (persisted : Bool) :
    ReadsField (if persisted then [] else putByteField kUserDefinedTimestampsPersisted 0)
      (fun s => { s with f := { s.f with
        userDefinedTimestampsPersisted := persisted && s.f.userDefinedTimestampsPersisted } }) := by
  cases persisted with
  | true => exact nothing
  | false => exact readsField_byte (by decide) (by decide) (fun s bytes => rfl) (fun s => rfl)

theorem decodeCustomFields_encode {f : FileMetaData} (checksum : f.fileChecksum.length < 2 ^ 32)
    (funcName : f.fileChecksumFuncName.length < 2 ^ 32) (known : f.temperature ≤ kCold)
    (minLogNumberToKeep : Option UInt64) (s : NewFile4) (rest : Bytes) :
    decodeCustomFields s (encodeCustomFields f minLogNumberToKeep ++ rest) =
      (.ok rest, customUpdate f minLogNumberToKeep s) := by
  unfold encodeCustomFields
  refine (readsField_varint (by decide) (by decide) (fun s bytes => rfl) _).before ?_
  refine (readsField_varint (by decide) (by decide) (fun s bytes => rfl) _).before ?_
  refine (readsField_varint (by decide) (by decide) (fun s bytes => rfl) _).before ?_
  refine (readsField_of (by decide) (by decide) checksum (fun s => rfl)).before ?_
  refine (readsField_of (by decide) (by decide) funcName (fun s => rfl)).before ?_
  refine (readsField_pathId f.fd).before ?_
  refine (readsField_temperature known).before ?_
  refine (readsField_needCompaction f.markedForCompaction).before ?_
  refine (readsField_minLogNumberToKeep minLogNumberToKeep).before ?_
  refine (readsField_nonzero (by decide) (by decide) (fun s bytes => rfl)
    (fun s => (rfl : { s with f := { s.f with oldestBlobFileNumber := s.f.oldestBlobFileNumber } } = s)) _).before ?_
  refine (readsField_uniqueId f.uniqueId).before ?_
  refine (readsField_nonzero (by decide) (by decide) (fun s bytes => rfl)
    (fun s => (rfl :
      { s with f := { s.f with compensatedRangeDeletionSize := s.f.compensatedRangeDeletionSize } } = s)) _).before ?_
  refine (readsField_nonzero (by decide) (by decide) (fun s bytes => rfl)
    (fun s => (rfl : { s with f := { s.f with tailSize := s.f.tailSize } } = s)) _).before ?_
  refine (readsField_timestampsPersisted f.userDefinedTimestampsPersisted).before ?_
  rw [decodeCustomFields_terminate]
  rfl

end ManifestProof
