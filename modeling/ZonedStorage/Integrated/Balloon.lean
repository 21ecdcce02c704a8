import ZonedStorage.Floats.Rounding
import ZonedStorage.Tables.Table

namespace EznsRbcIntegrated

open Floats KeyedTable

def FRAG_THRESHOLD (rounding : Rounding) : ℚ := rounding.single (3 / 10)

def BORROW_REDUCTION_FACTOR (rounding : Rounding) : ℚ := rounding.single (7 / 10)

def MIN_STRIPE_WIDTH : UInt32 := 2

structure BorrowRequest where
  namespaceId : UInt32
  requestedWidth : UInt32

structure Allocation where
  allocatedWidth : UInt32
  allocatedEssential : UInt32
  allocatedSpare : UInt32
  /-- `none` where the computation divides by zero. -/
  newStripeSize : Option UInt32
  newFragRatio : ℚ
  deriving DecidableEq

structure BorrowResult where
  allocation : Option Allocation
  thresholdExceeded : Bool
  message : String
  deriving DecidableEq

structure TenantAlloc where
  essential : UInt32
  spare : UInt32
  activeVzones : List UInt32
  deriving DecidableEq

structure FragAwareBalloon where
  totalEssential : UInt32
  totalSpare : UInt32
  usedEssential : UInt32
  usedSpare : UInt32
  tenantAlloc : Table UInt32 TenantAlloc
  fragThreshold : ℚ
  borrowReductionFactor : ℚ
  deriving DecidableEq

namespace FragAwareBalloon

def new (rounding : Rounding) : FragAwareBalloon :=
  ⟨0, 0, 0, 0, ∅, FRAG_THRESHOLD rounding, BORROW_REDUCTION_FACTOR rounding⟩

def init (b : FragAwareBalloon) (totalEssential totalSpare : UInt32) : FragAwareBalloon :=
  { b with totalEssential := totalEssential, totalSpare := totalSpare, usedEssential := 0, usedSpare := 0 }

def calculateEssentialPerVzone (b : FragAwareBalloon) : UInt32 := max 1 (b.totalEssential / 4 / 1)

def adjustStripeSize (width : UInt32) : Option UInt32 :=
  if width / 2 = 0 then none else some (max (32 * 1024 / (width / 2)) (4 * 1024))

def adjustedWidth (rounding : Rounding) (b : FragAwareBalloon) (currentFrag : ℚ) (requestedWidth : UInt32) : UInt32 :=
  if b.fragThreshold < currentFrag then
    max (.ofNat (rounding.single (rounding.single requestedWidth.toNat * b.borrowReductionFactor)).floor.toNat)
      MIN_STRIPE_WIDTH
  else requestedWidth

def availableSpare (b : FragAwareBalloon) : UInt32 := b.totalSpare - b.usedSpare

def allocatableSpare (rounding : Rounding) (b : FragAwareBalloon) (currentFrag : ℚ) (requestedWidth : UInt32) :
    UInt32 :=
  min (b.adjustedWidth rounding currentFrag requestedWidth - b.calculateEssentialPerVzone) b.availableSpare

def allocOf (b : FragAwareBalloon) (namespaceId : UInt32) : TenantAlloc :=
  (b.tenantAlloc.lookup namespaceId).getD ⟨0, 0, []⟩

def charge (b : FragAwareBalloon) (namespaceId essential spare : UInt32) : FragAwareBalloon :=
  { b with
    usedSpare := b.usedSpare + spare
    tenantAlloc := b.tenantAlloc.insert namespaceId
      { essential := (b.allocOf namespaceId).essential + essential
        spare := (b.allocOf namespaceId).spare + spare
        activeVzones := (b.allocOf namespaceId).activeVzones ++ [namespaceId * 100 + 1] } }

/-- `vzone` is the fragmentation of the tenant's vzone, if the metadata manager finds one. -/
def borrowZones (rounding : Rounding) (b : FragAwareBalloon) (vzone : Option ℚ) (request : BorrowRequest) :
    BorrowResult × FragAwareBalloon :=
  match vzone with
  | none => (⟨none, false, "VZone not found"⟩, b)
  | some currentFrag =>
    let exceeded : Bool := b.fragThreshold < currentFrag
    let essential := b.calculateEssentialPerVzone
    let spare := b.allocatableSpare rounding currentFrag request.requestedWidth
    if 0 < spare then
      (⟨some
          { allocatedWidth := essential + spare
            allocatedEssential := essential
            allocatedSpare := spare
            newStripeSize := adjustStripeSize (essential + spare)
            newFragRatio := rounding.single (currentFrag +
              rounding.single (rounding.single (1 / 100) * rounding.single spare.toNat)) },
        exceeded, "Success"⟩, b.charge request.namespaceId essential spare)
    else (⟨none, exceeded, "Insufficient spare zones"⟩, b)

def returnSpareZones (b : FragAwareBalloon) (namespaceId numSpares : UInt32) : Bool × FragAwareBalloon :=
  match b.tenantAlloc.lookup namespaceId with
  | none => (false, b)
  | some alloc =>
    if alloc.spare < numSpares then (false, b)
    else (true, { b with
      usedSpare := b.usedSpare - numSpares
      tenantAlloc := b.tenantAlloc.insert namespaceId { alloc with spare := alloc.spare - numSpares } })

end FragAwareBalloon

inductive BalloonCall where
  | init (totalEssential totalSpare : UInt32)
  | borrowZones (vzone : Option ℚ) (namespaceId requestedWidth : UInt32)
  | returnSpareZones (namespaceId numSpares : UInt32)
  | setFragThreshold (threshold : ℚ)
  | setBorrowReduction (factor : ℚ)

namespace FragAwareBalloon

def step (rounding : Rounding) (b : FragAwareBalloon) : BalloonCall → FragAwareBalloon
  | .init totalEssential totalSpare => b.init totalEssential totalSpare
  | .borrowZones vzone ns width => (b.borrowZones rounding vzone ⟨ns, width⟩).2
  | .returnSpareZones ns numSpares => (b.returnSpareZones ns numSpares).2
  | .setFragThreshold threshold => { b with fragThreshold := threshold }
  | .setBorrowReduction factor => { b with borrowReductionFactor := factor }

def wraps (rounding : Rounding) (b : FragAwareBalloon) : BalloonCall → Bool
  | .borrowZones (some currentFrag) ns width =>
    let spare := (b.allocatableSpare rounding currentFrag width).toNat
    0 < spare && (2 ^ 32 ≤ b.usedSpare.toNat + spare || 2 ^ 32 ≤ (b.allocOf ns).spare.toNat + spare ||
      2 ^ 32 ≤ (b.allocOf ns).essential.toNat + b.calculateEssentialPerVzone.toNat)
  | .returnSpareZones ns numSpares => (b.returnSpareZones ns numSpares).1 && b.usedSpare < numSpares
  | _ => false

end FragAwareBalloon

/-- A balloon with the history of its counters: whether one of them has ever wrapped. -/
structure Accounting where
  balloon : FragAwareBalloon
  wrapped : Bool
  deriving DecidableEq

namespace Accounting

def start (rounding : Rounding) : Accounting := ⟨FragAwareBalloon.new rounding, false⟩

def step (rounding : Rounding) (s : Accounting) (call : BalloonCall) : Accounting :=
  ⟨s.balloon.step rounding call, s.wrapped || s.balloon.wraps rounding call⟩

end Accounting

end EznsRbcIntegrated
