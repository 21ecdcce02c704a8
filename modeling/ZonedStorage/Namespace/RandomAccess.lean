import ZonedStorage.Namespace.Operations

namespace ZenFSModel

open Resumption

/-- `files_` with the keys that the subscript operator has given a null file. -/
structure NameMap where
  fs : ZenFS
  nulls : List Name

/-- What `NewRandomAccessFile` returns with OK: a handle on a file of the map, which may be null, or
    one of the auxiliary file system. -/
inductive RandomAccess where
  | zoned (zoneFile : Option Ref)
  | auxiliary
deriving DecidableEq, Repr

namespace NameMap

def fsLens : Lens NameMap ZenFS where
  get := NameMap.fs
  put fs m := { m with fs := fs }
  get_put _ _ := rfl
  put_put _ _ _ := rfl
  put_get _ := rfl

/-- `files_[fname]`: a key that is not there is added with a null file. -/
def subscript (m : NameMap) (fname : Name) : Option Ref × NameMap :=
  match m.fs.files[fname]? with
  | some r => (some r, m)
  | none => (none, { m with nulls := m.nulls.insert fname })

def getFile (fname : Name) : Proc NameMap (Option Ref) := (ZenFS.getFileNoLock fname).zoom fsLens

def openAuxiliary : Proc NameMap RandomAccess := do
  match (← ZenFS.ask.zoom fsLens).status with
  | none => pure .auxiliary
  | some status => .fail status

/-- The constructor of `ZonedRandomAccessFile` asks the file whether it is sparse, but only for direct
    reads. With a null file it does not come back then. -/
def openZoned (fname : Name) (useDirectReads : Bool) : Proc NameMap RandomAccess := do
  match ← .act (fun m => m.subscript fname) with
  | some r => pure (.zoned (some r))
  | none => if useDirectReads then .hang else pure (.zoned none)

def newRandomAccessFile (filename : Name) (useDirectReads : Bool) : Proc NameMap RandomAccess := do
  let fname := formatPathLexically filename
  match ← getFile fname with
  | none => openAuxiliary
  | some _ => openZoned fname useDirectReads

end NameMap

end ZenFSModel
