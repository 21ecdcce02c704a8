import ZonedStorage.Floats.Rounding
import ZonedStorage.Tables.Table

namespace Rbc

open Floats KeyedTable

structure RemapEntry where
  logicalAddr : UInt64
  physicalAddr : UInt64
  size : UInt32
  refCount : UInt32
  lastAccess : UInt64
  deriving DecidableEq

/-- The order in which an iterator walks through a table, which the container leaves open. -/
structure Walk where
  order : Table UInt64 RemapEntry → List (Σ _ : UInt64, RemapEntry)
  perm : ∀ t, (order t).Perm t.entries

structure RemapTable where
  table : Table UInt64 RemapEntry
  maxEntries : UInt64
  totalRemappedBlocks : UInt64
  totalLookups : UInt64
  cacheHits : UInt64
  deriving DecidableEq

namespace RemapTable

def new : RemapTable := ⟨∅, 0, 0, 0, 0⟩

def init (t : RemapTable) (maxEntries : UInt64) : RemapTable := { t with maxEntries := maxEntries }

def older (oldest e : Σ _ : UInt64, RemapEntry) : Σ _ : UInt64, RemapEntry :=
  if e.2.lastAccess < oldest.2.lastAccess then e else oldest

/-- The entry that has to go for a new one. There is none to look at in an empty table. -/
def oldest (walk : Walk) (t : RemapTable) : Option (Σ _ : UInt64, RemapEntry) :=
  match walk.order t.table with
  | [] => none
  | first :: rest => some ((first :: rest).foldl older first)

def put (t : RemapTable) (now logicalAddr physicalAddr : UInt64) (size : UInt32) : RemapTable :=
  { t with
    table := t.table.insert logicalAddr ⟨logicalAddr, physicalAddr, size, 1, now⟩
    totalRemappedBlocks := t.totalRemappedBlocks + 1 }

/-- `none` where the first iterator of an empty table is dereferenced. -/
def addRemapping (walk : Walk) (t : RemapTable) (now logicalAddr physicalAddr : UInt64) (size : UInt32) :
    Option RemapTable :=
  if t.maxEntries.toNat ≤ Table.size t.table then
    (t.oldest walk).map (fun oldest =>
      { t with table := t.table.erase oldest.1 }.put now logicalAddr physicalAddr size)
  else some (t.put now logicalAddr physicalAddr size)

def lookup (t : RemapTable) (now logicalAddr : UInt64) : Option (UInt64 × UInt32) × RemapTable :=
  match t.table.lookup logicalAddr with
  | some entry => (some (entry.physicalAddr, entry.size),
    { t with
      table := t.table.insert logicalAddr { entry with lastAccess := now }
      totalLookups := t.totalLookups + 1
      cacheHits := t.cacheHits + 1 })
  | none => (none, { t with totalLookups := t.totalLookups + 1 })

def removeRemapping (t : RemapTable) (logicalAddr : UInt64) : Bool × RemapTable :=
  if logicalAddr ∈ t.table then
    (true, { t with
      table := t.table.erase logicalAddr
      totalRemappedBlocks := t.totalRemappedBlocks - 1 })
  else (false, t)

end RemapTable

def capacityOf (rounding : Rounding) (totalDataSize : UInt64) : UInt64 :=
  .ofNat (rounding.double (rounding.double ((totalDataSize / (4 * 1024)).toNat : ℚ) *
    rounding.double (4 / 1000))).floor.toNat

inductive RemapOp where
  | add (now logicalAddr physicalAddr : UInt64) (size : UInt32)
  | lookup (now logicalAddr : UInt64)
  | remove (logicalAddr : UInt64)

def RemapTable.step (walk : Walk) (t : RemapTable) : RemapOp → Option RemapTable
  | .add now logicalAddr physicalAddr size => t.addRemapping walk now logicalAddr physicalAddr size
  | .lookup now logicalAddr => some (t.lookup now logicalAddr).2
  | .remove logicalAddr => some (t.removeRemapping logicalAddr).2

end Rbc
