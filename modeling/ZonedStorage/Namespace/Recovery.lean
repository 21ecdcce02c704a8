import ZonedStorage.Namespace.Operations

namespace ZenFSModel.ZenFS

open ByteString ZenFSTag Status

/-- A new file object, decoded from `input`. Its extents are charged to their zones, and on an
    error the object is destroyed again. -/
def decodeFile (input : Bytes) : Proc ZenFS Ref := do
  let (status, r) ← .act (fun fs =>
    let decoded := ZoneFile.decodeFrom (getIOZone fs.zbd.dev) (ZoneFile.new 0) input
    ((decoded.2, fs.nextRef),
      { (fs.setObject fs.nextRef decoded.1).chargeExtents decoded.1.extents with nextRef := fs.nextRef + 1 }))
  match status with
  | none => pure r
  | some status =>
    .update (fun fs => fs.clearExtents r)
    .fail status

def countFileId (id : Nat) : Proc ZenFS Unit := .update (fun fs =>
  if fs.nextFileId ≤ id then { fs with nextFileId := (id + 1) % 2 ^ 64 } else fs)

def fileWithId (fs : ZenFS) (id : Nat) : Option Ref :=
  (fs.files.toList.find? (fun entry => (fs.objects entry.2).fileId == id)).map (·.2)

def eraseLinks (keep : Ref) : List Name → Proc ZenFS Unit
  | [] => pure ()
  | name :: rest => do
    if (← .read (fun fs => fs.files.contains name)) then
      .update (fun fs => fs.eraseFile name keep)
      eraseLinks keep rest
    else .fail (corruption "DecodeFileUpdateFrom: missing link file" "")

/-- `MergeUpdate` with the used counters, then the temporary update object is destroyed. -/
def mergeUpdate (fs : ZenFS) (r update : Ref) (replace : Bool) : ZenFS :=
  let cleared := if replace then fs.clearExtents r else fs
  let extents := (fs.objects update).extents
  let merged := (cleared.chargeExtents extents).setObject r
    ((fs.objects r).mergeUpdate (fs.objects update) replace)
  merged.clearExtents update

def insertLinks (fs : ZenFS) (r : Ref) : ZenFS :=
  (fs.objects r).linkFiles.foldl (fun fs name => fs.insertFile name r) fs

def decodeFileUpdateFrom (slice : Bytes) (replace : Bool) : Proc ZenFS Unit := do
  let update ← decodeFile slice
  let id := (← object update).fileId
  countFileId id
  match ← .read (fun fs => fs.fileWithId id) with
  | some r =>
    match ← (eraseLinks r (← object r).linkFiles).attempt with
    | .ok () =>
      .update (fun fs => fs.mergeUpdate r update replace)
      .update (fun fs => fs.insertLinks r)
    | .error status =>
      .update (fun fs => (fs.clearExtents update).dropUnowned r)
      .fail status
  | none =>
    .update (fun fs => (fs.insertFile (fs.objects update).getFilename update).dropUnowned update)

def decodeSnapshotLoop : Nat → Bytes → Proc ZenFS Unit
  | 0, _ => .hang
  | rounds + 1, input => do
    match getLengthPrefixedSlice input with
    | none => pure ()
    | some (slice, input) =>
      let r ← decodeFile slice
      countFileId (← object r).fileId
      .update (fun fs => (fs.insertLinks r).dropUnowned r)
      decodeSnapshotLoop rounds input

def decodeSnapshotFrom (input : Bytes) : Proc ZenFS Unit := decodeSnapshotLoop (input.length + 1) input

def decodeFileDeletionFrom (input : Bytes) : Proc ZenFS Unit := do
  match getFixed64 input with
  | none => .fail (corruption "Zone file deletion: file id missing" "")
  | some (fileID, input) =>
    match getLengthPrefixedSlice input with
    | none => .fail (corruption "Zone file deletion: file name missing" "")
    | some (fileName, _) =>
      match ← .read (fun fs => fs.files[fileName]?) with
      | none => .fail (corruption "Zone file deletion: no such file" "")
      | some r =>
        if (← object r).fileId ≠ fileID then
          .fail (corruption "Zone file deletion: file ID missmatch" "")
        else
          .update (fun fs => fs.eraseFile fileName r)
          match (← object r).removeLinkName fileName with
          | .error _ =>
            .update (fun fs => fs.dropUnowned r)
            .fail (corruption "Zone file deletion: file links missmatch" "")
          | .ok f =>
            .update (fun fs => (fs.setObject r f).dropUnowned r)

def clearFiles : Proc ZenFS Unit := .update (fun fs =>
  fs.files.toList.foldl (fun fs entry => fs.eraseFile entry.1 fs.nextRef) fs)

/-- One record of the log applied to the files; the answer says whether it was a snapshot. -/
def recoverRecord (tag : Nat) (data : Bytes) : Proc ZenFS Bool := do
  match ofCode tag with
  | some kCompleteFilesSnapshot =>
    clearFiles
    decodeSnapshotFrom data
    pure true
  | some kFileUpdate =>
    decodeFileUpdateFrom data false
    pure false
  | some kFileReplace =>
    decodeFileUpdateFrom data true
    pure false
  | some kFileDeletion =>
    decodeFileDeletionFrom data
    pure false
  | _ => .fail (corruption "ZenFS" "Unexpected tag")

/-- The loop of `RecoverFrom` over what reads a record; it answers the log and whether a snapshot has been seen. -/
def recoverLoop (readRecord : ZenMetaLog → Proc Device (Bytes × ZenMetaLog)) :
    Nat → ZenMetaLog → Bool → Proc ZenFS (Bool × ZenMetaLog)
  | 0, _, _ => .hang
  | rounds + 1, log, atLeastOneSnapshot => do
    match ← (onMeta (readRecord log)).attempt with
    | .error _ => .fail (corruption "ZenFS" "Metadata corruption")
    | .ok (record, log) =>
      match getFixed32 record with
      | none => pure (atLeastOneSnapshot, log)
      | some (tag, record) =>
        if tag = kEndRecord.code then pure (atLeastOneSnapshot, log)
        else
          match getLengthPrefixedSlice record with
          | none => .fail (corruption "ZenFS" "No recovery record data")
          | some (data, _) =>
            let snapshot ← recoverRecord tag data
            recoverLoop readRecord rounds log (atLeastOneSnapshot || snapshot)

/-- A record takes at least one block, so a zone has no more records than blocks. -/
def recoverRounds (geo : Geometry) : Nat := geo.zoneSz / geo.blockSz + 1

def recoverFromWith (readRecord : ZenMetaLog → Proc Device (Bytes × ZenMetaLog)) (rounds : Nat) (log : ZenMetaLog) :
    Proc ZenFS ZenMetaLog := do
  let (atLeastOneSnapshot, log) ← recoverLoop readRecord rounds log false
  if atLeastOneSnapshot then pure log
  else .fail (notFound "ZenFS" "No snapshot found")

def recoverFrom (log : ZenMetaLog) : Proc ZenFS ZenMetaLog := do
  recoverFromWith ZenMetaLog.readRecord (← .read (fun fs => recoverRounds fs.md.geo)) log

end ZenFSModel.ZenFS
