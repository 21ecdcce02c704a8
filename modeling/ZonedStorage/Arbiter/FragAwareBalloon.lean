import ZonedStorage.Floats.Rounding
import ZonedStorage.Tables.Table

namespace EznsRbc

open Floats KeyedTable

structure UnifiedMetadata where
  namespaceId : UInt32
  stripeWidth : UInt32
  essentialAllocated : UInt32
  spareAllocated : UInt32
  remappedBlocks : List UInt32
  totalBlocks : UInt32
  fragmentationRatio : ℚ
  borrowCount : UInt32
  totalReadLatency : UInt64
  readIoCount : UInt32
  deriving DecidableEq

namespace UnifiedMetadata

def getAvgReadLatency (rounding : Rounding) (record : UnifiedMetadata) : ℚ :=
  if record.readIoCount = 0 then 0
  else rounding.single (rounding.single record.totalReadLatency.toNat / rounding.single record.readIoCount.toNat)

def updateFragmentation (rounding : Rounding) (record : UnifiedMetadata) : UnifiedMetadata :=
  { record with fragmentationRatio :=
      if 0 < record.totalBlocks then
        rounding.single (rounding.single record.remappedBlocks.length / rounding.single record.totalBlocks.toNat)
      else 0 }

def addRemappedBlock (rounding : Rounding) (blockId : UInt32) (record : UnifiedMetadata) : UnifiedMetadata :=
  { record with remappedBlocks := record.remappedBlocks ++ [blockId] }.updateFragmentation rounding

def removeRemappedBlock (rounding : Rounding) (blockId : UInt32) (record : UnifiedMetadata) : UnifiedMetadata :=
  if blockId ∈ record.remappedBlocks then
    { record with remappedBlocks := record.remappedBlocks.erase blockId }.updateFragmentation rounding
  else record

end UnifiedMetadata

structure UnifiedMetadataManager where
  metadataMap : Table UInt32 UnifiedMetadata
  /-- The counter of `create_metadata`. It is static, so that it may have been moved on by other managers. -/
  nextVzoneId : UInt32
  deriving DecidableEq

namespace UnifiedMetadataManager

def new (nextVzoneId : UInt32) : UnifiedMetadataManager := ⟨∅, nextVzoneId⟩

def getMetadata (mgr : UnifiedMetadataManager) (vzoneId : UInt32) : Option UnifiedMetadata :=
  mgr.metadataMap.lookup vzoneId

def modify (mgr : UnifiedMetadataManager) (vzoneId : UInt32) (change : UnifiedMetadata → UnifiedMetadata) :
    UnifiedMetadataManager :=
  match mgr.getMetadata vzoneId with
  | none => mgr
  | some record => { mgr with metadataMap := mgr.metadataMap.insert vzoneId (change record) }

def created (namespaceId stripeWidth : UInt32) : UnifiedMetadata where
  namespaceId := namespaceId
  stripeWidth := stripeWidth
  essentialAllocated := 2
  spareAllocated := 0
  remappedBlocks := []
  totalBlocks := 1024
  fragmentationRatio := 0
  borrowCount := 0
  totalReadLatency := 0
  readIoCount := 0

def createMetadata (mgr : UnifiedMetadataManager) (namespaceId stripeWidth : UInt32) :
    UInt32 × UnifiedMetadataManager :=
  (mgr.nextVzoneId,
    { metadataMap := mgr.metadataMap.insert mgr.nextVzoneId (created namespaceId stripeWidth)
      nextVzoneId := mgr.nextVzoneId + 1 })

/-- `update_access` for a read. The other kinds of access change nothing. -/
def updateAccess (mgr : UnifiedMetadataManager) (vzoneId : UInt32) (latencyUs : UInt64) : UnifiedMetadataManager :=
  mgr.modify vzoneId (fun record =>
    { record with totalReadLatency := record.totalReadLatency + latencyUs, readIoCount := record.readIoCount + 1 })

def recordBorrow (mgr : UnifiedMetadataManager) (vzoneId amount : UInt32) : UnifiedMetadataManager :=
  mgr.modify vzoneId (fun record =>
    { record with borrowCount := record.borrowCount + 1, spareAllocated := record.spareAllocated + amount })

def addRemappedBlock (rounding : Rounding) (mgr : UnifiedMetadataManager) (vzoneId blockId : UInt32) :
    UnifiedMetadataManager := mgr.modify vzoneId (UnifiedMetadata.addRemappedBlock rounding blockId)

def removeRemappedBlock (rounding : Rounding) (mgr : UnifiedMetadataManager) (vzoneId blockId : UInt32) :
    UnifiedMetadataManager := mgr.modify vzoneId (UnifiedMetadata.removeRemappedBlock rounding blockId)

end UnifiedMetadataManager

def FRAG_THRESHOLD (rounding : Rounding) : ℚ := rounding.single (3 / 10)

def BORROW_REDUCTION_FACTOR (rounding : Rounding) : ℚ := rounding.single (7 / 10)

structure BorrowRequest where
  namespaceId : UInt32
  requestedWidth : UInt32

structure BorrowResult where
  allocatedWidth : UInt32
  newFragRatio : ℚ
  thresholdExceeded : Bool
  message : String
  deriving DecidableEq

structure TenantAlloc where
  essential : UInt32
  spare : UInt32
  deriving DecidableEq

structure FragAwareBalloon where
  totalEssential : UInt32
  totalSpare : UInt32
  usedEssential : UInt32
  usedSpare : UInt32
  tenantAlloc : Table UInt32 TenantAlloc
  fragThreshold : ℚ
  borrowReductionFactor : ℚ
  deriving DecidableEq

/-- Where the metadata of a tenant is taken to be. -/
def primaryVzone (namespaceId : UInt32) : UInt32 := namespaceId * 100 + 1

namespace FragAwareBalloon

def new (rounding : Rounding) : FragAwareBalloon :=
  ⟨0, 0, 0, 0, ∅, FRAG_THRESHOLD rounding, BORROW_REDUCTION_FACTOR rounding⟩

def init (b : FragAwareBalloon) (totalEssential totalSpare : UInt32) : FragAwareBalloon :=
  { b with totalEssential := totalEssential, totalSpare := totalSpare, usedEssential := 0, usedSpare := 0 }

def setFragThreshold (b : FragAwareBalloon) (threshold : ℚ) : FragAwareBalloon :=
  { b with fragThreshold := threshold }

def setBorrowReduction (b : FragAwareBalloon) (factor : ℚ) : FragAwareBalloon :=
  { b with borrowReductionFactor := factor }

def reducedWidth (rounding : Rounding) (b : FragAwareBalloon) (originalWidth : UInt32) : UInt32 :=
  let newWidth : UInt32 :=
    .ofNat (rounding.single (rounding.single originalWidth.toNat * b.borrowReductionFactor)).floor.toNat
  if newWidth < 1 then 1 else newWidth

def availableSpare (b : FragAwareBalloon) : UInt32 := b.totalSpare - b.usedSpare

def allocOf (b : FragAwareBalloon) (namespaceId : UInt32) : TenantAlloc :=
  (b.tenantAlloc.lookup namespaceId).getD ⟨0, 0⟩

def grantedWidth (rounding : Rounding) (b : FragAwareBalloon) (currentFrag : ℚ) (requestedWidth : UInt32) : UInt32 :=
  let width := if b.fragThreshold < currentFrag then b.reducedWidth rounding requestedWidth else requestedWidth
  if b.availableSpare < width then b.availableSpare else width

def charge (b : FragAwareBalloon) (namespaceId width : UInt32) : FragAwareBalloon :=
  { b with
    usedSpare := b.usedSpare + width
    tenantAlloc := b.tenantAlloc.insert namespaceId
      { b.allocOf namespaceId with spare := (b.allocOf namespaceId).spare + width } }

/-- The metadata that a request is decided by, created if there is none. -/
def tenantMetadata (mgr : UnifiedMetadataManager) (namespaceId : UInt32) : UnifiedMetadata × UnifiedMetadataManager :=
  match mgr.getMetadata (primaryVzone namespaceId) with
  | some record => (record, mgr)
  | none => (UnifiedMetadataManager.created namespaceId 4, (mgr.createMetadata namespaceId 4).2)

def borrowZones (rounding : Rounding) (b : FragAwareBalloon) (mgr : UnifiedMetadataManager) (request : BorrowRequest) :
    BorrowResult × FragAwareBalloon × UnifiedMetadataManager :=
  let found := tenantMetadata mgr request.namespaceId
  let currentFrag := found.1.fragmentationRatio
  let width := b.grantedWidth rounding currentFrag request.requestedWidth
  let exceeded : Bool := b.fragThreshold < currentFrag
  if 0 < width then
    (⟨width, currentFrag, exceeded, "Success"⟩, b.charge request.namespaceId width,
      found.2.recordBorrow (primaryVzone request.namespaceId) width)
  else (⟨width, currentFrag, exceeded, "No available spare zones"⟩, b, found.2)

def returnZones (b : FragAwareBalloon) (namespaceId width : UInt32) : Bool × FragAwareBalloon :=
  match b.tenantAlloc.lookup namespaceId with
  | none => (false, b)
  | some alloc =>
    if alloc.spare < width then (false, b)
    else (true, { b with
      usedSpare := b.usedSpare - width
      tenantAlloc := b.tenantAlloc.insert namespaceId { alloc with spare := alloc.spare - width } })

/-- What the thread does that a request may start. It runs at some later time. -/
def triggerReorganization (rounding : Rounding) (mgr : UnifiedMetadataManager) (vzoneId : UInt32) :
    UnifiedMetadataManager :=
  mgr.modify vzoneId (fun record => { record with remappedBlocks := [] }.updateFragmentation rounding)

end FragAwareBalloon

end EznsRbc
