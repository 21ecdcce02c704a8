import ZonedStorage.Coding.Coding
import ZonedStorage.Device.ZonedBlockDevice

namespace ZenFSModel

open ByteString

abbrev Name := Bytes

-- Membership of names is decided by this instance in every module, whichever others are in scope there.
instance : LawfulBEq Name := inferInstance

structure ZoneExtent where
  start : Nat
  length : Nat
  zone : Nat
deriving DecidableEq, Repr

def NO_EXTENT : Nat := 0xffffffffffffffff

structure ZoneFile where
  extents : List ZoneExtent
  linkFiles : List Name
  activeZone : Option Nat
  extentStart : Nat
  extentFilepos : Nat
  lifetime : WriteLifeTimeHint
  ioType : IOType
  fileSize : Nat
  fileId : Nat
  nrSyncedExtents : Nat
  openForWr : Bool
  mTime : Nat
  isSparse : Bool
  isDeleted : Bool
deriving DecidableEq, Repr

namespace ZoneExtent

def encodeTo (e : ZoneExtent) : Bytes := putFixed64 (putFixed64 [] e.start) e.length

def decodeFrom (input : Bytes) : Except Status (Nat × Nat) :=
  if input.length ≠ 16 then .error (Status.corruption "ZoneExtent" "Error: length missmatch")
  else .ok (valueOf (input.take 8), valueOf (input.drop 8))

end ZoneExtent

inductive ZoneFileTag where
  | kFileID
  | kFileNameDeprecated
  | kFileSize
  | kWriteLifeTimeHint
  | kExtent
  | kModificationTime
  | kActiveExtentStart
  | kIsSparse
  | kLinkedFilename
deriving DecidableEq, Repr

namespace ZoneFileTag

def code : ZoneFileTag → Nat
  | kFileID => 1
  | kFileNameDeprecated => 2
  | kFileSize => 3
  | kWriteLifeTimeHint => 4
  | kExtent => 5
  | kModificationTime => 6
  | kActiveExtentStart => 7
  | kIsSparse => 8
  | kLinkedFilename => 9

def ofCode : Nat → Option ZoneFileTag
  | 1 => some kFileID
  | 2 => some kFileNameDeprecated
  | 3 => some kFileSize
  | 4 => some kWriteLifeTimeHint
  | 5 => some kExtent
  | 6 => some kModificationTime
  | 7 => some kActiveExtentStart
  | 8 => some kIsSparse
  | 9 => some kLinkedFilename
  | _ => none

end ZoneFileTag

namespace ZoneFile

open ZoneFileTag

def new (fileId : Nat) : ZoneFile where
  extents := []
  linkFiles := []
  activeZone := none
  extentStart := NO_EXTENT
  extentFilepos := 0
  lifetime := WriteLifeTimeHint.notSet
  ioType := .kUnknown
  fileSize := 0
  fileId := fileId
  nrSyncedExtents := 0
  openForWr := false
  mTime := 0
  isSparse := false
  isDeleted := false

def putTag (output : Bytes) (tag : ZoneFileTag) : Bytes := putFixed32 output tag.code

def encodeExtents (output : Bytes) (extents : List ZoneExtent) : Bytes :=
  extents.foldl (fun output e => putLengthPrefixedSlice (putTag output kExtent) e.encodeTo) output

def encodeLinks (output : Bytes) (names : List Name) : Bytes :=
  names.foldl (fun output name => putLengthPrefixedSlice (putTag output kLinkedFilename) name) output

def encodeTo (f : ZoneFile) (extentStart : Nat) : Bytes :=
  let output := putFixed64 (putTag [] kFileID) f.fileId
  let output := putFixed64 (putTag output kFileSize) f.fileSize
  let output := putFixed32 (putTag output kWriteLifeTimeHint) f.lifetime.value.toNat
  let output := encodeExtents output (f.extents.drop extentStart)
  let output := putFixed64 (putTag output kModificationTime) f.mTime
  let output := putFixed64 (putTag output kActiveExtentStart) f.extentStart
  let output := if f.isSparse then putTag output kIsSparse else output
  encodeLinks output f.linkFiles

def encodeUpdateTo (f : ZoneFile) : Bytes := f.encodeTo f.nrSyncedExtents

def encodeSnapshotTo (f : ZoneFile) : Bytes := f.encodeTo 0

def metadataSynced (f : ZoneFile) : ZoneFile := { f with nrSyncedExtents := f.extents.length % 2 ^ 32 }

def metadataUnsynced (f : ZoneFile) : ZoneFile := { f with nrSyncedExtents := 0 }

def corrupt (reason : String) : Option Status := some (Status.corruption "ZoneFile" reason)

/-- The loop of `DecodeFrom`. The extents decoded before an error stay in the object. -/
def decodeLoop (getIOZone : Nat → Option Nat) : Nat → ZoneFile → Bytes → ZoneFile × Option Status
  | 0, f, _ => (f, none)
  | rounds + 1, f, input =>
    match getFixed32 input with
    | none => (f.metadataSynced, none)
    | some (tag, input) =>
      match ofCode tag with
      | some kFileSize =>
        match getFixed64 input with
        | none => (f, corrupt "Missing file size")
        | some (size, input) => decodeLoop getIOZone rounds { f with fileSize := size } input
      | some kWriteLifeTimeHint =>
        match getFixed32 input with
        | none => (f, corrupt "Missing life time hint")
        | some (lt, input) =>
          decodeLoop getIOZone rounds { f with lifetime := ⟨UInt32.ofNat lt⟩ } input
      | some kExtent =>
        let (slice, input) := (getLengthPrefixedSlice input).getD ([], input)
        match ZoneExtent.decodeFrom slice with
        | .error status => (f, some status)
        | .ok (start, length) =>
          match getIOZone start with
          | none => (f, corrupt "Invalid zone extent")
          | some zone =>
            decodeLoop getIOZone rounds { f with extents := f.extents ++ [⟨start, length, zone⟩] } input
      | some kModificationTime =>
        match getFixed64 input with
        | none => (f, corrupt "Missing creation time")
        | some (ct, input) => decodeLoop getIOZone rounds { f with mTime := ct } input
      | some kActiveExtentStart =>
        match getFixed64 input with
        | none => (f, corrupt "Active extent start")
        | some (es, input) => decodeLoop getIOZone rounds { f with extentStart := es } input
      | some kIsSparse => decodeLoop getIOZone rounds { f with isSparse := true } input
      | some kLinkedFilename =>
        match getLengthPrefixedSlice input with
        | none => (f, corrupt "LinkFilename missing")
        | some (slice, input) =>
          if slice.length = 0 then (f, corrupt "Zero length Linkfilename")
          else decodeLoop getIOZone rounds { f with linkFiles := f.linkFiles ++ [slice] } input
      | _ => (f, corrupt "Unexpected tag")

def decodeFrom (getIOZone : Nat → Option Nat) (f : ZoneFile) (input : Bytes) : ZoneFile × Option Status :=
  match getFixed32 input with
  | none => (f, corrupt "File ID missing")
  | some (tag, input) =>
    if tag ≠ kFileID.code then (f, corrupt "File ID missing")
    else
      match getFixed64 input with
      | none => (f, corrupt "File ID missing")
      | some (id, input) => decodeLoop getIOZone (input.length + 1) { f with fileId := id } input

def mergeUpdate (f update : ZoneFile) (replace : Bool) : ZoneFile :=
  let kept := if replace then [] else f.extents
  { f with
    fileSize := update.fileSize
    lifetime := update.lifetime
    mTime := update.mTime
    extents := kept ++ update.extents
    extentStart := update.extentStart
    isSparse := update.isSparse
    nrSyncedExtents := (kept ++ update.extents).length % 2 ^ 32
    linkFiles := update.linkFiles }

def getFilename (f : ZoneFile) : Name := f.linkFiles.headD []

def getNrLinks (f : ZoneFile) : Nat := f.linkFiles.length

def addLinkName (f : ZoneFile) (linkf : Name) : ZoneFile := { f with linkFiles := f.linkFiles ++ [linkf] }

def renameLink (f : ZoneFile) (src dest : Name) : Except Status ZoneFile :=
  if src ∈ f.linkFiles then .ok { f with linkFiles := f.linkFiles.erase src ++ [dest] }
  else .error (Status.ioError "RenameLink: Failed to find the linked file")

def removeLinkName (f : ZoneFile) (linkf : Name) : Except Status ZoneFile :=
  if linkf ∈ f.linkFiles then .ok { f with linkFiles := f.linkFiles.erase linkf }
  else .error (Status.ioError "RemoveLinkInfo: Failed to find the link file")

end ZoneFile

end ZenFSModel
