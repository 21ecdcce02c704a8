import ZonedStorage.Device.Allocate
import ZonedStorage.Namespace.Path
import ZonedStorage.Namespace.Persist

namespace ZenFSModel.ZenFS

open ByteString

def getFileNoLock (fname : Name) : Proc ZenFS (Option Ref) :=
  .read (fun fs => fs.files[formatPathLexically fname]?)

/-- `files_.erase(name)` while the caller holds `keep`: another file may lose its last owner. -/
def eraseFile (fs : ZenFS) (name : Name) (keep : Ref) : ZenFS :=
  let erased := { fs with files := fs.files.erase name }
  match fs.files[name]? with
  | none => erased
  | some r => if r = keep then erased else erased.dropUnowned r

def insertFile (fs : ZenFS) (name : Name) (r : Ref) : ZenFS :=
  { fs with files := fs.files.insertIfNew name r }

/-- The key of `std::make_pair(name.c_str(), ...)`: what stands before the first NUL byte. -/
def cStr (name : Name) : Name := name.takeWhile (· ≠ 0)

def resetUnusedIOZones : Proc ZenFS Unit := onZbd ZonedBlockDevice.resetUnusedIOZones

/-- A deletion record leaves a file as it was persisted, without the deleted name. -/
def unlinked (fs : ZenFS) (r : Ref) (fname : Name) : ZenFS :=
  fs.setPersisted r { fs.persisted r with linkFiles := (fs.persisted r).linkFiles.erase fname }

def deleteFileNoLock (path : Name) : Proc ZenFS Unit := do
  let fname := formatPathLexically path
  match ← getFileNoLock fname with
  | none => target
  | some r =>
    .update (fun fs => fs.eraseFile fname r)
    match (← object r).removeLinkName fname with
    | .error status => .fail status
    | .ok f =>
      .update (fun fs => fs.setObject r f)
      match ← (persistRecord (encodeFileDeletionTo f fname)).attempt with
      | .error status =>
        .update (fun fs => fs.insertFile (cStr fname) r)
        modifyObject r (fun f => f.addLinkName fname)
        .fail status
      | .ok () =>
        .update (fun fs => fs.unlinked r fname)
        if 0 < f.getNrLinks then pure ()
        else
          modifyObject r (fun f => { f with isDeleted := true })
          .update (fun fs => fs.dropUnowned r)

def deleteFile (fname : Name) : Proc ZenFS Unit := do
  deleteFileNoLock fname
  resetUnusedIOZones

def acquireWRLock (r : Ref) : Proc ZenFS Unit := .await (fun fs =>
  if (fs.objects r).openForWr then none
  else some ((), fs.setObject r { fs.objects r with openForWr := true }))

def SPARSE_HEADER_SIZE : Nat := 8

def makeWriter (blockSz : Nat) (r : Ref) (f : ZoneFile) (buffered : Bool) : Writer where
  file := r
  buffered := buffered
  wp := f.fileSize
  bufferSz := if f.isSparse then 1024 * 1024 + blockSz - SPARSE_HEADER_SIZE - blockSz else 1024 * 1024
  dataOffset := if f.isSparse then SPARSE_HEADER_SIZE else 0
  buffer := Memory.zero
  bufferPos := 0
  isOpen := true

def newWritableFile (r : Ref) (buffered : Bool) : Proc ZenFS Nat := .act (fun fs =>
  (fs.nextWriter, { fs with
    writers := Function.update fs.writers fs.nextWriter
      (makeWriter fs.zbd.dev.geo.blockSz r (fs.objects r) buffered)
    nextWriter := fs.nextWriter + 1
    handles := Function.update fs.handles r (fs.handles r + 1) }))

def endsWith (value ending : Name) : Bool := ending.isSuffixOf value

def dotLog : Name := [0x2e, 0x6c, 0x6f, 0x67]

def makeFile (fname : Name) (useDirectWrites : Bool) (time : Nat) (fileId : Nat) : ZoneFile :=
  let f := { ZoneFile.new fileId with mTime := time }.addLinkName fname
  if endsWith fname dotLog then { f with ioType := .kWAL, isSparse := !useDirectWrites }
  else { f with ioType := .kUnknown }

def createFile (fname : Name) (useDirectWrites : Bool) : Proc ZenFS Ref := do
  let now ← ask
  .act (fun fs => (fs.nextRef,
    { fs.setObject fs.nextRef (makeFile fname useDirectWrites now.time.toNat fs.nextFileId) with
      nextRef := fs.nextRef + 1
      nextFileId := (fs.nextFileId + 1) % 2 ^ 64 }))

def openWritableFile (filename : Name) (useDirectWrites reopen : Bool) : Proc ZenFS Nat := do
  let fname := formatPathLexically filename
  match ← getFileNoLock fname, reopen with
  | some r, true =>
    acquireWRLock r
    newWritableFile r (!useDirectWrites)
  | existing, _ =>
    if existing.isSome then deleteFileNoLock fname
    let r ← createFile fname useDirectWrites
    syncFileMetadataNoLock r false
    acquireWRLock r
    .update (fun fs => fs.insertFile (cStr fname) r)
    let writer ← newWritableFile r (!useDirectWrites)
    if existing.isSome then resetUnusedIOZones
    pure writer

def linkFile (file link : Name) : Proc ZenFS Unit := do
  let fname := formatPathLexically file
  let lname := formatPathLexically link
  if (← getFileNoLock lname).isSome then
    .fail (Status.invalidArgument "Failed to create link, target exists")
  else
    match ← getFileNoLock fname with
    | none => target
    | some r =>
      modifyObject r (fun f => f.addLinkName lname)
      .update (fun fs => fs.insertFile lname r)
      match ← (syncFileMetadataNoLock r false).attempt with
      | .ok () => pure ()
      | .error _ =>
        let f ← .ofExcept ((← object r).removeLinkName lname)
        .update (fun fs => fs.setObject r f)
        .update (fun fs => fs.eraseFile lname r)

def dischargeReplaced (fs : ZenFS) (oldExtents newExtents : List ZoneExtent) : ZenFS :=
  fs.dischargeExtents (((oldExtents.zip newExtents).filter (fun pair => pair.1.start != pair.2.start)).map (·.1))

def syncFileExtents (r : Ref) (newExtents : List ZoneExtent) : Proc ZenFS Unit := do
  let oldExtents := (← object r).extents
  modifyObject r (fun f => { f with extents := newExtents })
  modifyObject r ZoneFile.metadataUnsynced
  syncFileMetadata r true
  .update (fun fs => fs.dischargeReplaced oldExtents newExtents)

open ZenFSModel.Path

def withSeparatorAtEnd (p : Name) : Name := lexicallyNormal (Path.append p [])

/-- `GetZenFSChildrenNoLock` with grandchildren, as a directory rename calls it. -/
def getZenFSChildrenNoLock (fs : ZenFS) (dir : Name) : List Name :=
  let dirWithSeparator := withSeparatorAtEnd dir
  (fs.files.toList.filter (fun entry =>
    dirWithSeparator.isPrefixOf (withSeparatorAtEnd (parentPath entry.1)))).map
      (fun entry => entry.1.drop dirWithSeparator.length)

/-- The link change of a rename, with the roll back of a failed persist. -/
def renameLinkNoLock (r : Ref) (sourcePath destPath : Name) : Proc ZenFS Unit := do
  let renamed ← .ofExcept ((← object r).renameLink sourcePath destPath)
  .update (fun fs => fs.setObject r renamed)
  .update (fun fs => fs.eraseFile sourcePath r)
  .update (fun fs => fs.insertFile destPath r)
  match ← (syncFileMetadataNoLock r false).attempt with
  | .ok () => pure ()
  | .error _ =>
    .update (fun fs => fs.eraseFile destPath r)
    let restored ← .ofExcept ((← object r).renameLink destPath sourcePath)
    .update (fun fs => fs.setObject r restored)
    .update (fun fs => fs.insertFile sourcePath r)

section

variable (renameFileNoLock : Name → Name → Proc ZenFS Unit)

def renameChildNoLock (sourceDir destDir child : Name) : Proc ZenFS Unit :=
  renameFileNoLock (Path.append sourceDir child) (Path.append destDir child)

def rollbackAuxDirRenameNoLock (sourcePath destPath : Name) : List Name → Proc ZenFS Unit
  | [] => do
    match ← target.attempt with
    | .ok () => pure ()
    | .error _ => .fail (Status.corruption
        "RollbackAuxDirRenameNoLock: Failed to roll back auxiliary path renaming" "")
  | child :: rest => do
    match ← (renameChildNoLock renameFileNoLock destPath sourcePath child).attempt with
    | .ok () => rollbackAuxDirRenameNoLock sourcePath destPath rest
    | .error _ => .fail (Status.corruption
        "RollbackAuxDirRenameNoLock: Failed to roll back directory rename" "")

def renameChildrenNoLock (sourcePath destPath : Name) : List Name → List Name → Proc ZenFS Unit
  | _, [] => pure ()
  | renamedChildren, child :: rest => do
    match ← (renameChildNoLock renameFileNoLock sourcePath destPath child).attempt with
    | .ok () => renameChildrenNoLock sourcePath destPath (renamedChildren ++ [child]) rest
    | .error failedRename =>
      rollbackAuxDirRenameNoLock renameFileNoLock sourcePath destPath renamedChildren
      .fail failedRename

def renameAuxPathNoLock (sourcePath destPath : Name) : Proc ZenFS Unit := do
  target
  let children ← .read (fun fs => fs.getZenFSChildrenNoLock sourcePath)
  renameChildrenNoLock renameFileNoLock sourcePath destPath [] children

end

/-- `depth` bounds how deep renames of directories can nest. -/
def renameFileNoLock : Nat → Name → Name → Proc ZenFS Unit
  | 0, _, _ => .hang
  | depth + 1, srcPath, dstPath => do
    let sourcePath := formatPathLexically srcPath
    let destPath := formatPathLexically dstPath
    match ← getFileNoLock sourcePath with
    | none => renameAuxPathNoLock (renameFileNoLock depth) sourcePath destPath
    | some r =>
      if (← getFileNoLock destPath).isSome then deleteFileNoLock destPath
      renameLinkNoLock r sourcePath destPath

def renameFile (depth : Nat) (sourcePath destPath : Name) : Proc ZenFS Unit := do
  renameFileNoLock depth sourcePath destPath
  resetUnusedIOZones

end ZenFSModel.ZenFS
