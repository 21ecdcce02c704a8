import ZonedStorage.File.ZoneFile
import ZonedStorage.Coding.RoundTrip

namespace ZenFSProof

open ByteString ZenFSModel ZenFSModel.ZoneFile ZenFSModel.ZoneFileTag List

/-- Every number of the file is one of its C++ type, and every extent lies in its zone. -/
structure Fits (getIOZone : Nat → Option Nat) (f : ZoneFile) : Prop where
  fileId : f.fileId < 2 ^ 64
  fileSize : f.fileSize < 2 ^ 64
  mTime : f.mTime < 2 ^ 64
  extentStart : f.extentStart < 2 ^ 64
  count : f.extents.length < 2 ^ 32
  start : ∀ e ∈ f.extents, e.start < 2 ^ 64
  length : ∀ e ∈ f.extents, e.length < 2 ^ 64
  zone : ∀ e ∈ f.extents, getIOZone e.start = some e.zone
  named : ∀ name ∈ f.linkFiles, name ≠ []

def tagBytes (tag : ZoneFileTag) : Bytes := littleEndian 4 tag.code

def extentBytes (e : ZoneExtent) : Bytes := tagBytes kExtent ++ putLengthPrefixedSlice [] e.encodeTo

def linkBytes (name : Name) : Bytes := tagBytes kLinkedFilename ++ putLengthPrefixedSlice [] name

def sparseBytes (f : ZoneFile) : Bytes := if f.isSparse then tagBytes kIsSparse else []

theorem putLengthPrefixedSlice_append (output value : Bytes) :
    putLengthPrefixedSlice output value = output ++ putLengthPrefixedSlice [] value := by
  simp only [putLengthPrefixedSlice, putVarint32, nil_append, append_assoc]

theorem putLengthPrefixedSlice_length (value : Bytes) : value.length ≤ (putLengthPrefixedSlice [] value).length := by
  simp only [putLengthPrefixedSlice, length_append]
  omega

theorem encodeExtents_eq (output : Bytes) (extents : List ZoneExtent) :
    encodeExtents output extents = output ++ extents.flatMap extentBytes := by
  induction extents generalizing output with
  | nil => simp [encodeExtents]
  | cons e rest ih =>
    have step : encodeExtents output (e :: rest) =
        encodeExtents (putLengthPrefixedSlice (putTag output kExtent) e.encodeTo) rest := rfl
    rw [step, ih, putLengthPrefixedSlice_append]
    simp only [putTag, putFixed32, flatMap_cons, extentBytes, tagBytes, append_assoc]

theorem encodeLinks_eq (output : Bytes) (names : List Name) :
    encodeLinks output names = output ++ names.flatMap linkBytes := by
  induction names generalizing output with
  | nil => simp [encodeLinks]
  | cons name rest ih =>
    have step : encodeLinks output (name :: rest) =
        encodeLinks (putLengthPrefixedSlice (putTag output kLinkedFilename) name) rest := rfl
    rw [step, ih, putLengthPrefixedSlice_append]
    simp only [putTag, putFixed32, flatMap_cons, linkBytes, tagBytes, append_assoc]

theorem encodeTo_eq (f : ZoneFile) (s : Nat) : f.encodeTo s = tagBytes kFileID ++ (littleEndian 8 f.fileId ++
      (tagBytes kFileSize ++ (littleEndian 8 f.fileSize ++
      (tagBytes kWriteLifeTimeHint ++ (littleEndian 4 f.lifetime.value.toNat ++
      ((f.extents.drop s).flatMap extentBytes ++
      (tagBytes kModificationTime ++ (littleEndian 8 f.mTime ++
      (tagBytes kActiveExtentStart ++ (littleEndian 8 f.extentStart ++
      (sparseBytes f ++ f.linkFiles.flatMap linkBytes))))))))))) := by
  simp only [encodeTo, encodeLinks_eq, encodeExtents_eq, putTag, putFixed64, putFixed32, tagBytes, sparseBytes]
  split <;> simp only [nil_append, append_assoc]

section

variable {getIOZone : Nat → Option Nat} (k : Nat) (f : ZoneFile) (rest : Bytes)

theorem getFixed32_tag (tag : ZoneFileTag) : getFixed32 (tagBytes tag ++ rest) = some (tag.code, rest) := by
  rw [tagBytes, getFixed32_put]
  cases tag <;> rfl

theorem ofCode_code (tag : ZoneFileTag) : ofCode tag.code = some tag := by
  cases tag <;> rfl

theorem decodeLoop_fileSize {size : Nat} (fits : size < 2 ^ 64) :
    decodeLoop getIOZone (k + 1) f (tagBytes kFileSize ++ (littleEndian 8 size ++ rest)) =
      decodeLoop getIOZone k { f with fileSize := size } rest := by
  rw [decodeLoop, getFixed32_tag]
  simp only [ofCode_code, getFixed64_put, Nat.mod_eq_of_lt fits]

theorem decodeLoop_lifetime (lifetime : WriteLifeTimeHint) : decodeLoop getIOZone (k + 1) f
        (tagBytes kWriteLifeTimeHint ++ (littleEndian 4 lifetime.value.toNat ++ rest)) =
      decodeLoop getIOZone k { f with lifetime := lifetime } rest := by
  have same : UInt32.ofNat (lifetime.value.toNat % 2 ^ 32) = lifetime.value := by
    rw [Nat.mod_eq_of_lt lifetime.value.toNat_lt, UInt32.ofNat_toNat]
  rw [decodeLoop, getFixed32_tag]
  simp only [ofCode_code, getFixed32_put, same]

theorem decodeLoop_mTime {mTime : Nat} (fits : mTime < 2 ^ 64) :
    decodeLoop getIOZone (k + 1) f (tagBytes kModificationTime ++ (littleEndian 8 mTime ++ rest)) =
      decodeLoop getIOZone k { f with mTime := mTime } rest := by
  rw [decodeLoop, getFixed32_tag]
  simp only [ofCode_code, getFixed64_put, Nat.mod_eq_of_lt fits]

theorem decodeLoop_extentStart {start : Nat} (fits : start < 2 ^ 64) :
    decodeLoop getIOZone (k + 1) f (tagBytes kActiveExtentStart ++ (littleEndian 8 start ++ rest)) =
      decodeLoop getIOZone k { f with extentStart := start } rest := by
  rw [decodeLoop, getFixed32_tag]
  simp only [ofCode_code, getFixed64_put, Nat.mod_eq_of_lt fits]

theorem decodeLoop_sparse : decodeLoop getIOZone (k + 1) f (tagBytes kIsSparse ++ rest) =
      decodeLoop getIOZone k { f with isSparse := true } rest := by
  rw [decodeLoop, getFixed32_tag]
  simp only [ofCode_code]

theorem extent_decode_encode {e : ZoneExtent} (start : e.start < 2 ^ 64) (length : e.length < 2 ^ 64) :
    ZoneExtent.decodeFrom e.encodeTo = .ok (e.start, e.length) := by
  have size : e.encodeTo.length = 16 := by
    simp [ZoneExtent.encodeTo, putFixed64]
  simp only [ZoneExtent.decodeFrom, size, ne_eq, not_true_eq_false, if_false]
  simp only [ZoneExtent.encodeTo, putFixed64, nil_append]
  rw [take_left' (littleEndian_length 8 _), drop_left' (littleEndian_length 8 _),
    valueOf_littleEndian_of_lt (Nat.lt_of_lt_of_le start (by decide)),
    valueOf_littleEndian_of_lt (Nat.lt_of_lt_of_le length (by decide))]

theorem decodeLoop_extent {e : ZoneExtent} (start : e.start < 2 ^ 64) (length : e.length < 2 ^ 64)
    (zone : getIOZone e.start = some e.zone) :
    decodeLoop getIOZone (k + 1) f (extentBytes e ++ rest) =
      decodeLoop getIOZone k { f with extents := f.extents ++ [e] } rest := by
  have size : e.encodeTo.length < 2 ^ 32 := by
    simp [ZoneExtent.encodeTo, putFixed64]
  rw [extentBytes, append_assoc, decodeLoop, getFixed32_tag]
  simp only [ofCode_code, getLengthPrefixedSlice_put size, Option.getD_some,
    extent_decode_encode start length, zone]

theorem decodeLoop_link {name : Name} (size : name.length < 2 ^ 32) (named : name ≠ []) :
    decodeLoop getIOZone (k + 1) f (linkBytes name ++ rest) =
      decodeLoop getIOZone k { f with linkFiles := f.linkFiles ++ [name] } rest := by
  have filled : ¬ name.length = 0 := fun empty => named (length_eq_zero_iff.mp empty)
  rw [linkBytes, append_assoc, decodeLoop, getFixed32_tag]
  simp only [ofCode_code, getLengthPrefixedSlice_put size, if_neg filled]

theorem decodeLoop_extents (extents : List ZoneExtent) (start : ∀ e ∈ extents, e.start < 2 ^ 64)
    (length : ∀ e ∈ extents, e.length < 2 ^ 64) (zone : ∀ e ∈ extents, getIOZone e.start = some e.zone) :
    decodeLoop getIOZone (extents.length + k) f (extents.flatMap extentBytes ++ rest) =
      decodeLoop getIOZone k { f with extents := f.extents ++ extents } rest := by
  induction extents generalizing f with
  | nil => simp
  | cons e tail ih =>
    rw [length_cons, Nat.succ_add, flatMap_cons, append_assoc,
      decodeLoop_extent _ _ _ (start e (by simp)) (length e (by simp)) (zone e (by simp)),
      ih _ (fun e member => start e (by simp [member])) (fun e member => length e (by simp [member]))
        (fun e member => zone e (by simp [member]))]
    simp only [append_assoc, cons_append, nil_append]

theorem decodeLoop_links (names : List Name) (size : ∀ name ∈ names, name.length < 2 ^ 32)
    (named : ∀ name ∈ names, name ≠ []) :
    decodeLoop getIOZone (names.length + k) f (names.flatMap linkBytes ++ rest) =
      decodeLoop getIOZone k { f with linkFiles := f.linkFiles ++ names } rest := by
  induction names generalizing f with
  | nil => simp
  | cons name tail ih =>
    rw [length_cons, Nat.succ_add, flatMap_cons, append_assoc,
      decodeLoop_link _ _ _ (size name (by simp)) (named name (by simp)),
      ih _ (fun name member => size name (by simp [member])) (fun name member => named name (by simp [member]))]
    simp only [append_assoc, cons_append, nil_append]

theorem decodeLoop_end : decodeLoop getIOZone (k + 1) f [] = (f.metadataSynced, none) := rfl

end

/-- The object `DecodeFrom` builds from the encoding of `f` from its extent `s` on. -/
def updateOf (f : ZoneFile) (s : Nat) : ZoneFile :=
  { ZoneFile.new f.fileId with
    fileSize := f.fileSize
    lifetime := f.lifetime
    extents := f.extents.drop s
    mTime := f.mTime
    extentStart := f.extentStart
    isSparse := f.isSparse
    linkFiles := f.linkFiles
    nrSyncedExtents := (f.extents.drop s).length % 2 ^ 32 }

theorem length_le_flatMap {α : Type} (bytes : α → Bytes) {items : List α} {item : α} (member : item ∈ items) :
    (bytes item).length ≤ (items.flatMap bytes).length := by
  induction items with
  | nil => cases member
  | cons first rest ih =>
    rw [flatMap_cons, length_append]
    rcases mem_cons.mp member with rfl | member
    · omega
    · have inside := ih member
      omega

variable {f : ZoneFile} {getIOZone : Nat → Option Nat}

theorem name_length_le {name : Name} (s : Nat) (member : name ∈ f.linkFiles) : name.length ≤ (f.encodeTo s).length := by
  have part := length_le_flatMap linkBytes member
  have slice := putLengthPrefixedSlice_length name
  have field : (putLengthPrefixedSlice [] name).length ≤ (linkBytes name).length := by
    simp only [linkBytes, length_append]
    omega
  rw [encodeTo_eq]
  simp only [length_append]
  omega

theorem count_le_flatMap {α : Type} (bytes : α → Bytes) (items : List α) (filled : ∀ item, bytes item ≠ []) :
    items.length ≤ (items.flatMap bytes).length := by
  induction items with
  | nil => exact Nat.le_refl _
  | cons first rest ih =>
    have some_bytes := length_pos_iff.mpr (filled first)
    rw [flatMap_cons, length_append, length_cons]
    omega

theorem decodeLoop_sparseBytes (k : Nat) (g f : ZoneFile) (rest : Bytes) (unset : g.isSparse = false) :
    decodeLoop getIOZone (f.isSparse.toNat + k) g (sparseBytes f ++ rest) =
      decodeLoop getIOZone k { g with isSparse := f.isSparse } rest := by
  cases sparse : f.isSparse with
  | false =>
    have same : { g with isSparse := false } = g := by rw [← unset]
    rw [sparseBytes, sparse, same]
    simp only [Bool.toNat_false, Nat.zero_add, Bool.false_eq_true, if_false, nil_append]
  | true =>
    rw [sparseBytes, sparse, if_pos rfl, Bool.toNat_true, Nat.add_comm 1 k]
    exact decodeLoop_sparse k g rest

structure Decodable (getIOZone : Nat → Option Nat) (f : ZoneFile) : Prop where
  fileId : f.fileId < 2 ^ 64
  fileSize : f.fileSize < 2 ^ 64
  mTime : f.mTime < 2 ^ 64
  extentStart : f.extentStart < 2 ^ 64
  start : ∀ e ∈ f.extents, e.start < 2 ^ 64
  length : ∀ e ∈ f.extents, e.length < 2 ^ 64
  zone : ∀ e ∈ f.extents, getIOZone e.start = some e.zone
  named : ∀ name ∈ f.linkFiles, name ≠ []
  short : ∀ name ∈ f.linkFiles, name.length < 2 ^ 32

theorem Fits.decodable (fits : Fits getIOZone f)
    (short : ∀ name ∈ f.linkFiles, name.length < 2 ^ 32) : Decodable getIOZone f :=
  ⟨fits.fileId, fits.fileSize, fits.mTime, fits.extentStart, fits.start, fits.length, fits.zone, fits.named, short⟩

theorem decodeFrom_new (fits : Decodable getIOZone f) (id s : Nat) :
    decodeFrom getIOZone (ZoneFile.new id) (f.encodeTo s) = (updateOf f s, none) := by
  have tail : ∀ e, e ∈ f.extents.drop s → e ∈ f.extents := fun e member => mem_of_mem_drop member
  have extentCount := count_le_flatMap extentBytes (f.extents.drop s)
    (fun e => by simp [extentBytes, tagBytes, littleEndian])
  have linkCount := count_le_flatMap linkBytes f.linkFiles (fun name => by simp [linkBytes, tagBytes, littleEndian])
  have sparseCount : f.isSparse.toNat ≤ (sparseBytes f).length := by
    cases sparse : f.isSparse <;> simp [sparseBytes, sparse, tagBytes, littleEndian]
  rw [encodeTo_eq, decodeFrom, getFixed32_tag]
  simp only [ne_eq, not_true_eq_false, if_false, getFixed64_put, Nat.mod_eq_of_lt fits.fileId]
  generalize size : (tagBytes kFileSize ++ _ : Bytes).length = total
  have rounds : (f.extents.drop s).length + (f.isSparse.toNat + (f.linkFiles.length + 4)) ≤ total := by
    rw [← size]
    simp only [length_append, tagBytes, littleEndian_length]
    omega
  obtain ⟨spare, fuel⟩ := Nat.exists_eq_add_of_le rounds
  have enough : total + 1 = ((f.extents.drop s).length +
      (((f.isSparse.toNat + (f.linkFiles.length + (spare + 1))) + 1) + 1)) + 1 + 1 := by omega
  rw [enough, decodeLoop_fileSize _ _ _ fits.fileSize, decodeLoop_lifetime,
    decodeLoop_extents _ _ _ _ (fun e member => fits.start e (tail e member))
      (fun e member => fits.length e (tail e member)) (fun e member => fits.zone e (tail e member)),
    decodeLoop_mTime _ _ _ fits.mTime, decodeLoop_extentStart _ _ _ fits.extentStart,
    decodeLoop_sparseBytes _ _ _ _ rfl]
  have links := @decodeLoop_links getIOZone (spare + 1)
    { ZoneFile.new f.fileId with
      fileSize := f.fileSize
      lifetime := f.lifetime
      extents := f.extents.drop s
      mTime := f.mTime
      extentStart := f.extentStart
      isSparse := f.isSparse } [] f.linkFiles fits.short fits.named
  rw [append_nil, decodeLoop_end] at links
  exact links

theorem decodeFrom_encodeTo (fits : Fits getIOZone f) (s : Nat) (short : (f.encodeTo s).length < 2 ^ 32) :
    decodeFrom getIOZone (ZoneFile.new 0) (f.encodeTo s) = (updateOf f s, none) := by
  apply decodeFrom_new
  apply fits.decodable
  intro name member
  exact Nat.lt_of_le_of_lt (name_length_le s member) short

end ZenFSProof
