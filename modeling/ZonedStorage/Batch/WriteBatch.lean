import ZonedStorage.Coding.Coding

namespace BatchModel

open ByteString ZenFSModel

@[match_pattern] abbrev kTypeDeletion : Nat := 0x0
@[match_pattern] abbrev kTypeValue : Nat := 0x1
@[match_pattern] abbrev kTypeMerge : Nat := 0x2
@[match_pattern] abbrev kTypeLogData : Nat := 0x3
@[match_pattern] abbrev kTypeColumnFamilyDeletion : Nat := 0x4
@[match_pattern] abbrev kTypeColumnFamilyValue : Nat := 0x5
@[match_pattern] abbrev kTypeColumnFamilyMerge : Nat := 0x6
@[match_pattern] abbrev kTypeSingleDeletion : Nat := 0x7
@[match_pattern] abbrev kTypeColumnFamilySingleDeletion : Nat := 0x8
@[match_pattern] abbrev kTypeBeginPrepareXID : Nat := 0x9
@[match_pattern] abbrev kTypeEndPrepareXID : Nat := 0xA
@[match_pattern] abbrev kTypeCommitXID : Nat := 0xB
@[match_pattern] abbrev kTypeRollbackXID : Nat := 0xC
@[match_pattern] abbrev kTypeNoop : Nat := 0xD
@[match_pattern] abbrev kTypeColumnFamilyRangeDeletion : Nat := 0xE
@[match_pattern] abbrev kTypeRangeDeletion : Nat := 0xF
@[match_pattern] abbrev kTypeColumnFamilyBlobIndex : Nat := 0x10
@[match_pattern] abbrev kTypeBlobIndex : Nat := 0x11
@[match_pattern] abbrev kTypeBeginPersistedPrepareXID : Nat := 0x12
@[match_pattern] abbrev kTypeBeginUnprepareXID : Nat := 0x13
@[match_pattern] abbrev kTypeCommitXIDAndTimestamp : Nat := 0x15
@[match_pattern] abbrev kTypeWideColumnEntity : Nat := 0x16
@[match_pattern] abbrev kTypeColumnFamilyWideColumnEntity : Nat := 0x17

namespace ContentFlags

def deferred : UInt32 := 1
def hasPut : UInt32 := 2
def hasDelete : UInt32 := 4
def hasSingleDelete : UInt32 := 8
def hasMerge : UInt32 := 16
def hasBeginPrepare : UInt32 := 32
def hasEndPrepare : UInt32 := 64
def hasCommit : UInt32 := 128
def hasRollback : UInt32 := 256
def hasDeleteRange : UInt32 := 512
def hasBlobIndex : UInt32 := 1024
def hasBeginUnprepare : UInt32 := 2048
def hasPutEntity : UInt32 := 4096

end ContentFlags

inductive BatchStatus where
  | ok
  | tryAgain
  | notFound
  | memoryLimit
  | invalidArgument (msg : String)
  | corruption (msg : String)
  | notSupported (msg : String)
  deriving DecidableEq

structure SavePoint where
  size : Nat
  count : UInt32
  contentFlags : UInt32
  deriving DecidableEq

/-- `ProtectionInfo64().ProtectKVO(key, value, op_type).ProtectC(column_family_id)` -/
class Protection where
  protectKVOC : Bytes → Bytes → Nat → UInt32 → UInt64

/-- The top of the stack of save points is its head. -/
structure WriteBatch where
  savePoints : List SavePoint
  contentFlags : UInt32
  maxBytes : Nat
  protInfo : Option (List UInt64)
  rep : Bytes
  deriving DecidableEq

def kHeader : Nat := 12

def resize {α : Type} (fill : α) (size : Nat) (items : List α) : List α :=
  items.take size ++ List.replicate (size - items.length) fill

def valueBytes : Option Bytes → Bytes
  | some value => putLengthPrefixedSlice [] value
  | none => []

/-- The bytes of a record, with the tag for the default column family or the one for any other. -/
def recordBytes (tag columnFamilyTag : Nat) (columnFamilyId : UInt32) (key : Bytes) (value : Option Bytes) : Bytes :=
  (if columnFamilyId = 0 then [UInt8.ofNat tag]
    else UInt8.ofNat columnFamilyTag :: putVarint32 [] columnFamilyId.toNat) ++
  (putLengthPrefixedSlice [] key ++ valueBytes value)

namespace WriteBatch

def new (maxBytes protectionBytesPerKey : Nat) : WriteBatch :=
  ⟨[], 0, maxBytes, if protectionBytesPerKey ≠ 0 then some [] else none, List.replicate kHeader 0⟩

def count (b : WriteBatch) : UInt32 := UInt32.ofNat (valueOf ((b.rep.drop 8).take 4))

def setCount (b : WriteBatch) (n : UInt32) : WriteBatch :=
  { b with rep := b.rep.take 8 ++ (littleEndian 4 n.toNat ++ b.rep.drop kHeader) }

def savePoint (b : WriteBatch) : SavePoint := ⟨b.rep.length, b.count, b.contentFlags⟩

def truncate (b : WriteBatch) (save : SavePoint) : WriteBatch :=
  { setCount { b with rep := resize 0 save.size b.rep } save.count with
    protInfo := b.protInfo.map (resize 0 save.count.toNat), contentFlags := save.contentFlags }

def commit (b : WriteBatch) (save : SavePoint) : BatchStatus × WriteBatch :=
  if b.maxBytes ≠ 0 ∧ b.rep.length > b.maxBytes then (.memoryLimit, b.truncate save) else (.ok, b)

def clear (b : WriteBatch) : WriteBatch :=
  { b with
    rep := List.replicate kHeader 0, contentFlags := 0, savePoints := [], protInfo := b.protInfo.map (fun _ => []) }

section

variable [Protection] (b : WriteBatch) (columnFamilyId : UInt32) (key value : Bytes)

def update (tag columnFamilyTag : Nat) (value : Option Bytes) (flag : UInt32) : BatchStatus × WriteBatch :=
  let save := b.savePoint
  let b := b.setCount (b.count + 1)
  commit
    { b with
      rep := b.rep ++ recordBytes tag columnFamilyTag columnFamilyId key value
      contentFlags := b.contentFlags ||| flag
      protInfo := b.protInfo.map (· ++ [Protection.protectKVOC key (value.getD []) tag columnFamilyId]) }
    save

def checkedUpdate (tag columnFamilyTag : Nat) (flag : UInt32) : BatchStatus × WriteBatch :=
  if key.length > 2 ^ 32 - 1 then (.invalidArgument "key is too large", b)
  else if value.length > 2 ^ 32 - 1 then (.invalidArgument "value is too large", b)
  else b.update columnFamilyId key tag columnFamilyTag (some value) flag

def put : BatchStatus × WriteBatch :=
  b.checkedUpdate columnFamilyId key value kTypeValue kTypeColumnFamilyValue ContentFlags.hasPut

def delete : BatchStatus × WriteBatch :=
  b.update columnFamilyId key kTypeDeletion kTypeColumnFamilyDeletion none ContentFlags.hasDelete

def singleDelete : BatchStatus × WriteBatch :=
  b.update columnFamilyId key kTypeSingleDeletion kTypeColumnFamilySingleDeletion none ContentFlags.hasSingleDelete

/-- The end key is treated as the value. -/
def deleteRange (beginKey endKey : Bytes) : BatchStatus × WriteBatch :=
  b.update columnFamilyId beginKey kTypeRangeDeletion kTypeColumnFamilyRangeDeletion (some endKey)
    ContentFlags.hasDeleteRange

def merge : BatchStatus × WriteBatch :=
  b.checkedUpdate columnFamilyId key value kTypeMerge kTypeColumnFamilyMerge ContentFlags.hasMerge

end

def putLogData (b : WriteBatch) (blob : Bytes) : BatchStatus × WriteBatch :=
  commit { b with rep := b.rep ++ (UInt8.ofNat kTypeLogData :: putLengthPrefixedSlice [] blob) } b.savePoint

def setSavePoint (b : WriteBatch) : WriteBatch := { b with savePoints := b.savePoint :: b.savePoints }

def rollbackToSavePoint (b : WriteBatch) : BatchStatus × WriteBatch :=
  match b.savePoints with
  | [] => (.notFound, b)
  | save :: savePoints =>
    let b := { b with savePoints := savePoints }
    if save.size = b.rep.length then (.ok, b)
    else if save.size = 0 then (.ok, b.clear)
    else (.ok, b.truncate save)

def popSavePoint (b : WriteBatch) : BatchStatus × WriteBatch :=
  match b.savePoints with
  | [] => (.notFound, b)
  | _ :: savePoints => (.ok, { b with savePoints := savePoints })

end WriteBatch

end BatchModel
