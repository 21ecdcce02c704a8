import ZonedStorage.MetaLog.MetaLog
import ZonedStorage.MetaLog.Superblock
import ZonedStorage.File.ZoneFile

namespace ZenFSModel

open ByteString Resumption

structure Answer where
  status : Option Status
  children : List Name
  isDir : Bool
  time : UInt64

/-- A `ZonedWritableFile`. `sparseBuffer` is the allocation, the data starts `dataOffset` into it. -/
structure Writer where
  file : Nat
  buffered : Bool
  wp : Nat
  bufferSz : Nat
  dataOffset : Nat
  buffer : Memory
  bufferPos : Nat
  isOpen : Bool

/-- What a `PersistRecord` call finds: the snapshot that a roll would write, and the room that is
    left in the metadata zone. -/
structure PersistAttempt where
  record : Bytes
  snapshot : Bytes
  left : Nat
deriving DecidableEq, Repr

inductive PersistOutcome where
  | appended
  | rolled
  | failed
deriving DecidableEq, Repr

structure PersistEvent where
  record : Bytes
  outcome : PersistOutcome
deriving DecidableEq, Repr

abbrev Ref := Nat

abbrev FileMap := Std.TreeMap Name Ref

/-- The file system. The last four fields are history variables that no code reads: each file as it
    was when the last metadata record about it was written, the persists that have been started and
    that have come to an end, and the link lists that `GetFilename` was called on, last one first. -/
structure ZenFS where
  zbd : ZonedBlockDevice
  md : Device
  metaLog : ZenMetaLog
  superblock : Superblock
  files : FileMap
  objects : Ref → ZoneFile
  nextRef : Ref
  handles : Ref → Nat
  writers : Nat → Writer
  nextWriter : Nat
  nextFileId : Nat
  answers : Nat → Answer
  asked : Nat
  persisted : Ref → ZoneFile
  attempts : List PersistAttempt
  persists : List PersistEvent
  filenameReads : List (List Name) := []

namespace ZenFS

def zbdLens : Lens ZenFS ZonedBlockDevice where
  get := ZenFS.zbd
  put zbd fs := { fs with zbd := zbd }
  get_put _ _ := rfl
  put_put _ _ _ := rfl
  put_get _ := rfl

def mdLens : Lens ZenFS Device where
  get := ZenFS.md
  put md fs := { fs with md := md }
  get_put _ _ := rfl
  put_put _ _ _ := rfl
  put_get _ := rfl

def onZbd {α : Type} (p : Proc ZonedBlockDevice α) : Proc ZenFS α := p.zoom zbdLens

def onMeta {α : Type} (p : Proc Device α) : Proc ZenFS α := p.zoom mdLens

def onIo {α : Type} (p : Proc Device α) : Proc ZenFS α := onZbd (ZonedBlockDevice.onDev p)

def setObject (fs : ZenFS) (r : Ref) (f : ZoneFile) : ZenFS :=
  { fs with objects := Function.update fs.objects r f }

def modifyObject (r : Ref) (change : ZoneFile → ZoneFile) : Proc ZenFS Unit :=
  .update (fun fs => fs.setObject r (change (fs.objects r)))

def setPersisted (fs : ZenFS) (r : Ref) (f : ZoneFile) : ZenFS :=
  { fs with persisted := Function.update fs.persisted r f }

def object (r : Ref) : Proc ZenFS ZoneFile := .read (fun fs => fs.objects r)

/-- `GetFilename`, which indexes the link list without a look at its length. -/
def getFilename (r : Ref) : Proc ZenFS Name := .act (fun fs =>
  ((fs.objects r).getFilename, { fs with filenameReads := (fs.objects r).linkFiles :: fs.filenameReads }))

/-- The next answer from outside: the auxiliary file system or `time(0)`. -/
def ask : Proc ZenFS Answer := .act (fun fs => (fs.answers fs.asked, { fs with asked := fs.asked + 1 }))

def target : Proc ZenFS Unit := do
  match (← ask).status with
  | none => pure ()
  | some status => .fail status

def getIOZone (d : Device) (offset : Nat) : Option Nat :=
  (List.range d.count).find? (fun i =>
    decide ((d.zones i).start ≤ offset ∧ offset < (d.zones i).start + d.geo.zoneSz))

def addUsed (d : Device) (e : ZoneExtent) : Device :=
  d.setZone e.zone { d.zones e.zone with usedCapacity := (d.zones e.zone).usedCapacity + e.length }

def subUsed (d : Device) (e : ZoneExtent) : Device :=
  d.setZone e.zone { d.zones e.zone with usedCapacity := (d.zones e.zone).usedCapacity - e.length }

def chargeExtents (fs : ZenFS) (extents : List ZoneExtent) : ZenFS :=
  { fs with zbd := { fs.zbd with dev := extents.foldl addUsed fs.zbd.dev } }

def dischargeExtents (fs : ZenFS) (extents : List ZoneExtent) : ZenFS :=
  { fs with zbd := { fs.zbd with dev := extents.foldl subUsed fs.zbd.dev } }

def clearExtents (fs : ZenFS) (r : Ref) : ZenFS :=
  (fs.dischargeExtents (fs.objects r).extents).setObject r { fs.objects r with extents := [] }

def bound (fs : ZenFS) (r : Ref) : Bool := fs.files.toList.any (fun entry => entry.2 == r)

/-- The last owner of a file object is gone: its destructor clears the extents. -/
def dropUnowned (fs : ZenFS) (r : Ref) : ZenFS :=
  if fs.bound r || fs.handles r != 0 then fs else fs.clearExtents r

end ZenFS

inductive ZenFSTag where
  | kCompleteFilesSnapshot
  | kFileUpdate
  | kFileDeletion
  | kEndRecord
  | kFileReplace
deriving DecidableEq, Repr

namespace ZenFSTag

def code : ZenFSTag → Nat
  | kCompleteFilesSnapshot => 1
  | kFileUpdate => 2
  | kFileDeletion => 3
  | kEndRecord => 4
  | kFileReplace => 5

def ofCode : Nat → Option ZenFSTag
  | 1 => some kCompleteFilesSnapshot
  | 2 => some kFileUpdate
  | 3 => some kFileDeletion
  | 4 => some kEndRecord
  | 5 => some kFileReplace
  | _ => none

end ZenFSTag

open ZenFSTag

def taggedRecord (tag : ZenFSTag) (data : Bytes) : Bytes :=
  putLengthPrefixedSlice (putFixed32 [] tag.code) data

def allocateMetaZoneFrom : List Nat → Proc Device Nat
  | [] => .fail (Status.noSpace "Out of metadata zones")
  | i :: rest => do
    if ← Zone.acquire i then
      let z ← Device.zoneAt i
      if z.isUsed then allocateMetaZoneFrom rest
      else if z.isEmpty then pure i
      else
        match ← (Zone.reset i).attempt with
        | .ok () => pure i
        | .error _ =>
          Zone.checkRelease i
          allocateMetaZoneFrom rest
    else allocateMetaZoneFrom rest

def allocateMetaZone : Proc Device Nat := do
  allocateMetaZoneFrom (← .read (fun d => List.range d.count))

def writeEndRecord (zone : Nat) : Proc Device Unit :=
  ZenMetaLog.addRecord zone (putFixed32 [] kEndRecord.code)

/-- The end record goes into the old zone and the zone is finished, each only while it has room.
    What the calls return is ignored. -/
def closeOldMetaZone (zone : Nat) : Proc Device Unit := do
  if 0 < (← Device.zoneAt zone).capacity then
    let _ ← (writeEndRecord zone).attempt
  if 0 < (← Device.zoneAt zone).capacity then
    let _ ← (Zone.finish zone).attempt

namespace ZenFS

def encodeSnapshotTo (fs : ZenFS) : Bytes :=
  taggedRecord kCompleteFilesSnapshot
    (fs.files.toList.foldl (fun files entry =>
      putLengthPrefixedSlice files (fs.objects entry.2).encodeSnapshotTo) [])

def fileRecord (f : ZoneFile) (replace : Bool) : Bytes :=
  taggedRecord (if replace then kFileReplace else kFileUpdate) f.encodeUpdateTo

def encodeFileDeletionTo (f : ZoneFile) (linkf : Name) : Bytes :=
  taggedRecord kFileDeletion (putLengthPrefixedSlice (putFixed64 [] f.fileId) linkf)

/-- The log has the file as it is: its record was appended, or the snapshot of a roll has it. -/
def logged (fs : ZenFS) (r : Ref) : Bool :=
  match fs.persists with
  | ⟨_, .appended⟩ :: _ => true
  | _ => fs.bound r

def synced (fs : ZenFS) (r : Ref) : ZenFS :=
  let f := (fs.objects r).metadataSynced
  (fs.setObject r f).setPersisted r (if fs.logged r then f else fs.persisted r)

def writeSnapshotLocked (zone : Nat) : Proc ZenFS Unit := do
  let snapshot ← .read encodeSnapshotTo
  onMeta (ZenMetaLog.addRecord zone snapshot)
  .update (fun fs => fs.files.toList.foldl (fun fs entry => fs.synced entry.2) fs)

def rollMetaZoneLocked : Proc ZenFS Unit := do
  let newMetaZone ← onMeta allocateMetaZone
  let oldMetaZone ← .act (fun fs =>
    (fs.metaLog.zone, { fs with metaLog := ZenMetaLog.open' fs.md newMetaZone }))
  onMeta (closeOldMetaZone oldMetaZone)
  let superString ← .act (fun fs =>
    (fs.superblock.encodeTo.1, { fs with superblock := fs.superblock.encodeTo.2 }))
  match ← (onMeta (ZenMetaLog.addRecord newMetaZone superString)).attempt with
  | .error _ =>
    let _ ← onMeta (Zone.release oldMetaZone)
    .fail (Status.ioError "Failed writing a new superblock")
  | .ok () =>
    match ← (writeSnapshotLocked newMetaZone).attempt with
    | .error status =>
      let _ ← onMeta (Zone.release oldMetaZone)
      .fail status
    | .ok () =>
      let _ ← (onMeta (Zone.reset oldMetaZone)).attempt
      let _ ← onMeta (Zone.release oldMetaZone)

def attempt (fs : ZenFS) (record : Bytes) : PersistAttempt :=
  ⟨record, fs.encodeSnapshotTo, (fs.md.zones fs.metaLog.zone).capacity⟩

def attempted (fs : ZenFS) (record : Bytes) : ZenFS := { fs with attempts := fs.attempt record :: fs.attempts }

def noted (fs : ZenFS) (record : Bytes) (outcome : PersistOutcome) : ZenFS :=
  { fs with persists := ⟨record, outcome⟩ :: fs.persists }

def persistRecord (record : Bytes) : Proc ZenFS Unit := do
  let zone ← .act (fun fs => (fs.metaLog.zone, fs.attempted record))
  match ← (onMeta (ZenMetaLog.addRecord zone record)).attempt with
  | .ok () => .update (fun fs => fs.noted record .appended)
  | .error status =>
    if status.same (Status.noSpace "") then
      match ← rollMetaZoneLocked.attempt with
      | .ok () => .update (fun fs => fs.noted record .rolled)
      | .error status =>
        .update (fun fs => fs.noted record .failed)
        .fail status
    else
      .update (fun fs => fs.noted record .failed)
      .fail status

def setMTime (r : Ref) : Proc ZenFS Unit := do
  let now ← ask
  modifyObject r (fun f => { f with mTime := now.time.toNat })

def syncFileMetadataNoLock (r : Ref) (replace : Bool) : Proc ZenFS Unit := do
  if (← object r).isDeleted then
    let _ ← getFilename r
  else
    if !replace then setMTime r
    let output ← .read (fun fs => fileRecord (fs.objects r) replace)
    persistRecord output
    .update (fun fs => fs.synced r)

def syncFileMetadata (r : Ref) (replace : Bool) : Proc ZenFS Unit := syncFileMetadataNoLock r replace

end ZenFS

end ZenFSModel
