import ZonedStorage.Bytes.Consumes
import ZonedStorage.Coding.RoundTrip
import ZonedStorage.Manifest.DecodeFrom

namespace ManifestProof

open ByteString ZenFSModel ZenFSProof ManifestModel ManifestModel.VersionEdit List

theorem getVarint32_putTag {tag : Nat} (fits : tag < 2 ^ 32) (rest : Bytes) :
    getVarint32 (putTag tag ++ rest) = some (tag, rest) := by
  rw [putTag, putVarint32, nil_append, Nat.mod_eq_of_lt fits]
  exact getVarint32_put fits rest

theorem getNumber64_put (v : UInt64) (rest : Bytes) :
    getNumber64 (putVarint64 [] v.toNat ++ rest) = some (v, rest) := by
  rw [getNumber64, putVarint64, nil_append, Nat.mod_eq_of_lt v.toNat_lt, getVarint64_put v.toNat_lt,
    Option.map_some, UInt64.ofNat_toNat]

theorem getNumber32_put (v : UInt32) (rest : Bytes) :
    getNumber32 (putVarint32 [] v.toNat ++ rest) = some (v, rest) := by
  rw [getNumber32, putVarint32, nil_append, Nat.mod_eq_of_lt v.toNat_lt, getVarint32_put v.toNat_lt,
    Option.map_some, UInt32.ofNat_toNat]

theorem getLevel_put (level : Int32) (rest : Bytes) : getLevel (putLevel level ++ rest) = some (level, rest) := by
  rw [getLevel, putLevel, getNumber32_put, Option.map_some, Int32.toInt32_toUInt32]

theorem getInternalKey_put {key : Bytes} (valid : internalKeyValid key = true) (fits : key.length < 2 ^ 32)
    (rest : Bytes) : getInternalKey (putLengthPrefixedSlice [] key ++ rest) = some (key, rest) := by
  rw [getInternalKey, getLengthPrefixedSlice_put fits]
  exact if_pos valid

theorem getFixedNumber64_put (v : UInt64) : getFixedNumber64 (putFixed64 [] v.toNat) = some (v, []) := by
  have fits : v.toNat < 256 ^ 8 := v.toNat_lt
  have read := takeNumber_littleEndian 8 v.toNat []
  rw [append_nil, Nat.mod_eq_of_lt fits] at read
  rw [getFixedNumber64, putFixed64, nil_append, getFixed64, read, Option.map_some, UInt64.ofNat_toNat]

theorem decodeUniqueIdBytes_encode (uniqueId : UInt64 × UInt64) :
    decodeUniqueIdBytes (encodeUniqueIdBytes uniqueId) = some uniqueId := by
  have first : (littleEndian 8 uniqueId.1.toNat).length = 8 := littleEndian_length _ _
  rw [decodeUniqueIdBytes, encodeUniqueIdBytes, length_append, first, littleEndian_length, if_pos rfl,
    take_left' first, drop_left' first, valueOf_littleEndian_of_lt uniqueId.1.toNat_lt,
    valueOf_littleEndian_of_lt uniqueId.2.toNat_lt, UInt64.ofNat_toNat, UInt64.ofNat_toNat]

theorem new_getNumber_getPathId (fd : FileDescriptor) :
    FileDescriptor.new fd.getNumber fd.getPathId fd.fileSize fd.smallestSeqno fd.largestSeqno = fd := by
  have bound := fd.packedNumberAndPathId.toNat_lt
  have high : fd.packedNumberAndPathId.toNat / 2 ^ 62 < 4 := by omega
  have low : fd.packedNumberAndPathId.toNat % 2 ^ 62 < 2 ^ 62 := Nat.mod_lt _ (by decide)
  have path : fd.getPathId.toNat = fd.packedNumberAndPathId.toNat / 2 ^ 62 := by
    simp only [FileDescriptor.getPathId, UInt64.toNat_toUInt32, UInt64.toNat_div]
    exact Nat.mod_eq_of_lt (Nat.lt_of_lt_of_le high (by decide))
  have number : fd.getNumber.toNat = fd.packedNumberAndPathId.toNat % 2 ^ 62 := by
    rw [FileDescriptor.getNumber, UInt64.toNat_and, ← Nat.and_two_pow_sub_one_eq_mod]
    rfl
  have shifted : (fd.getPathId.toUInt64 * (kFileNumberMask + 1)).toNat =
      2 ^ 62 * (fd.packedNumberAndPathId.toNat / 2 ^ 62) := by
    rw [UInt64.toNat_mul, UInt32.toNat_toUInt64, path, show (kFileNumberMask + 1).toNat = 2 ^ 62 from rfl]
    omega
  have packed : packFileNumberAndPathId fd.getNumber fd.getPathId.toUInt64 = fd.packedNumberAndPathId := by
    apply UInt64.toNat_inj.mp
    rw [packFileNumberAndPathId, UInt64.toNat_or, number, shifted, Nat.or_comm, ← Nat.two_pow_add_eq_or_of_lt low]
    omega
  rw [FileDescriptor.new, packed]

variable [ForeignEntries]

abbrev Reads (bytes : Bytes) (update : VersionEdit → VersionEdit) : Prop := Consumes decodeLoop bytes update

theorem decodeLoop_tag {d d' : VersionEdit} {tag : Nat} (fits : tag < 2 ^ 32) {payload rest : Bytes}
    (entry : d.decodeTag tag payload = (.ok rest, d')) :
    decodeLoop d (putTag tag ++ payload) = decodeLoop d' rest := by
  rw [decodeLoop]
  split
  · rename_i unread
    rw [getVarint32_putTag fits] at unread
    cases unread
  · rename_i found afterTag read
    rw [getVarint32_putTag fits] at read
    cases read
    split
    · rename_i failure d'' failed
      rw [entry] at failed
      cases failed
    · rename_i tail d'' decoded
      rw [entry] at decoded
      cases decoded
      rfl

theorem reads_of_tag {tag : Nat} {payload : Bytes} {update : VersionEdit → VersionEdit} (fits : tag < 2 ^ 32)
    (entry : ∀ d rest, d.decodeTag tag (payload ++ rest) = (.ok rest, update d)) :
    Reads (putTag tag ++ payload) update := by
  intro d rest
  rw [append_assoc]
  exact decodeLoop_tag fits (entry d rest)

variable {msg : String}

theorem reads_number64 (tag : Nat) {store : UInt64 → VersionEdit → VersionEdit} (fits : tag < 2 ^ 32)
    (entry : ∀ d input, d.decodeTag tag input = reading d msg (getNumber64 input) fun v rest => (.ok rest, store v d))
    (v : UInt64) : Reads (putNumber64 tag v) (store v) := by
  refine reads_of_tag fits fun d rest => ?_
  rw [entry, getNumber64_put]
  rfl

theorem reads_number32 (tag : Nat) {store : UInt32 → VersionEdit → VersionEdit} (fits : tag < 2 ^ 32)
    (entry : ∀ d input, d.decodeTag tag input = reading d msg (getNumber32 input) fun v rest => (.ok rest, store v d))
    (v : UInt32) : Reads (putNumber32 tag v) (store v) := by
  refine reads_of_tag fits fun d rest => ?_
  rw [entry, getNumber32_put]
  rfl

theorem reads_slice (tag : Nat) {store : Bytes → VersionEdit → VersionEdit} (fits : tag < 2 ^ 32)
    (entry : ∀ d input, d.decodeTag tag input =
      reading d msg (getLengthPrefixedSlice input) fun str rest => (.ok rest, store str d))
    {str : Bytes} (short : str.length < 2 ^ 32) : Reads (putSlice tag str) (store str) := by
  refine reads_of_tag fits fun d rest => ?_
  rw [entry, getLengthPrefixedSlice_put short]
  rfl

theorem reads_cursor {cursor : Int32 × Bytes} (valid : internalKeyValid cursor.2 = true)
    (short : cursor.2.length < 2 ^ 32) :
    Reads (encodeCursor cursor) (fun d =>
      let d := d.raiseMaxLevel cursor.1
      { d with compactCursors := d.compactCursors ++ [cursor] }) := by
  rw [encodeCursor, if_pos valid]
  refine reads_of_tag (by decide) fun d rest => ?_
  change reading d _ (getLevel _) _ = _
  rw [append_assoc, getLevel_put]
  change reading (d.raiseMaxLevel cursor.1) _ (getInternalKey _) _ = _
  rw [getInternalKey_put valid short]
  rfl

theorem reads_deletedFile (deleted : Int32 × UInt64) : Reads (encodeDeletedFile deleted) (fun d =>
      let d := d.raiseMaxLevel deleted.1
      { d with deletedFiles := d.deletedFiles.insert deleted }) := by
  refine reads_of_tag (by decide) fun d rest => ?_
  change reading d _ (getLevel _) _ = _
  rw [append_assoc, getLevel_put]
  change reading (d.raiseMaxLevel deleted.1) _ (getNumber64 _) _ = _
  rw [getNumber64_put]
  rfl

end ManifestProof
