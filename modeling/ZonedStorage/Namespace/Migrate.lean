import ZonedStorage.Device.MigrateData
import ZonedStorage.Namespace.Operations

namespace ZenFSModel.ZenFS

structure ZoneExtentSnapshot where
  start : Nat
  length : Nat
deriving DecidableEq, Repr

def selected (migrateExts : List ZoneExtentSnapshot) (ext : ZoneExtent) : Bool :=
  migrateExts.any (fun snapshot => snapshot.start == ext.start && snapshot.length == ext.length)

/-- The copy of one extent to the target zone, with its header if the file is sparse. What
    `MigrateData` returns is dropped. -/
def copyExtent (sparse : Bool) (ext : ZoneExtent) (targetZone : Nat) : Proc ZenFS Unit := do
  let header := if sparse then SPARSE_HEADER_SIZE else 0
  let _ ← (onIo (Device.migrateData (ext.start - header) (ext.length + header) targetZone)).attempt

/-- Where `MigrateFileExtents` goes on with the next extent, and where it leaves its loop. -/
inductive Migrated where
  | next (ext : ZoneExtent)
  | gone
deriving DecidableEq, Repr

def releaseMigrateZone (zone : Option Nat) : Proc ZenFS Unit := do
  let _ ← (onZbd (ZonedBlockDevice.releaseMigrateZone zone)).attempt

def migrateExtent (fname : Name) (r : Ref) (ext : ZoneExtent) : Proc ZenFS Migrated := do
  let f ← object r
  match ← (onZbd (ZonedBlockDevice.takeMigrateZone f.lifetime ext.length)).attempt with
  | .error _ => pure (.next ext)
  | .ok none =>
    releaseMigrateZone none
    pure (.next ext)
  | .ok (some targetZone) =>
    let wp ← .read (fun fs => (fs.zbd.dev.zones targetZone).wp)
    copyExtent f.isSparse ext targetZone
    match ← getFileNoLock fname with
    | none =>
      releaseMigrateZone (some targetZone)
      pure .gone
    | some _ =>
      let moved : ZoneExtent := ⟨if f.isSparse then wp + SPARSE_HEADER_SIZE else wp, ext.length, targetZone⟩
      .update (fun fs => fs.chargeExtents [moved])
      releaseMigrateZone (some targetZone)
      pure (.next moved)

def migrateExtents (fname : Name) (r : Ref) (migrateExts : List ZoneExtentSnapshot) :
    List ZoneExtent → Proc ZenFS (List ZoneExtent)
  | [] => pure []
  | ext :: rest => do
    if selected migrateExts ext then
      match ← migrateExtent fname r ext with
      | .gone => pure (ext :: rest)
      | .next moved => pure (moved :: (← migrateExtents fname r migrateExts rest))
    else pure (ext :: (← migrateExtents fname r migrateExts rest))

def tryAcquireWRLock (r : Ref) : Proc ZenFS Bool := .act (fun fs =>
  if (fs.objects r).openForWr then (false, fs)
  else (true, fs.setObject r { fs.objects r with openForWr := true }))

def releaseWRLock (r : Ref) : Proc ZenFS Unit := modifyObject r (fun f => { f with openForWr := false })

def migrateFileExtents (fname : Name) (migrateExts : List ZoneExtentSnapshot) : Proc ZenFS Unit := do
  match ← getFileNoLock fname with
  | none => pure ()
  | some r =>
    if ← tryAcquireWRLock r then
      let extents := (← object r).extents
      let newExtentList ← migrateExtents fname r migrateExts extents
      let _ ← (syncFileExtents r newExtentList).attempt
      releaseWRLock r
    else pure ()

def snapshotExtents (r : Ref) : List ZoneExtent → Proc ZenFS (List (Name × ZoneExtentSnapshot))
  | [] => pure []
  | ext :: rest => do
    let fname ← getFilename r
    pure ((fname, ⟨ext.start, ext.length⟩) :: (← snapshotExtents r rest))

/-- Files open for writing are left out. The first name is that of the `ZoneFileSnapshot`. -/
def snapshotFiles : List Ref → Proc ZenFS (List (Name × ZoneExtentSnapshot))
  | [] => pure []
  | r :: rest => do
    if ← tryAcquireWRLock r then
      let _ ← getFilename r
      let extents ← snapshotExtents r (← object r).extents
      releaseWRLock r
      pure (extents ++ (← snapshotFiles rest))
    else snapshotFiles rest

def getZenFSSnapshot : Proc ZenFS (List (Name × ZoneExtentSnapshot)) := do
  snapshotFiles (← .read (fun fs => fs.files.toList.map (·.2)))

def dotSst : Name := [0x2e, 0x73, 0x73, 0x74]

/-- The extents of table files, grouped by their filename. -/
def fileExtents (extents : List (Name × ZoneExtentSnapshot)) : Std.TreeMap Name (List ZoneExtentSnapshot) :=
  (extents.filter (fun ext => endsWith ext.1 dotSst)).foldl
    (fun groups ext => groups.insert ext.1 (groups.getD ext.1 [] ++ [ext.2])) ∅

def migrateFiles : List (Name × List ZoneExtentSnapshot) → Proc ZenFS Unit
  | [] => pure ()
  | (fname, migrateExts) :: rest => do
    migrateFileExtents fname migrateExts
    resetUnusedIOZones
    migrateFiles rest

def migrateTableExtents (extents : List (Name × ZoneExtentSnapshot)) : Proc ZenFS Unit :=
  migrateFiles (fileExtents extents).toList

end ZenFSModel.ZenFS
