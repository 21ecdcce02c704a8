import ZonedStorage.Arbiter.TenantIsolation
import ZonedStorage.Runs.Throughout

namespace EznsRbc

open Floats

structure ZoneArbiter where
  metadataMgr : UnifiedMetadataManager
  balloon : FragAwareBalloon
  isolation : TenantIsolation
  deriving DecidableEq

namespace ZoneArbiter

def new (rounding : Rounding) (nextVzoneId : UInt32) : ZoneArbiter :=
  ⟨UnifiedMetadataManager.new nextVzoneId, FragAwareBalloon.new rounding, TenantIsolation.new⟩

def defaultTenant (rounding : Rounding) (totalEssential totalSpare ns : UInt32) : TenantConfig where
  namespaceId := ns
  maxFragmentation := FRAG_THRESHOLD rounding
  minEssentialZones := totalEssential / 4
  maxSpareZones := totalSpare / 2
  latencySlaUs := if ns ≤ 2 then 2000 else 500

def init (rounding : Rounding) (arbiter : ZoneArbiter) (maxActiveZones : UInt32) : ZoneArbiter :=
  let totalEssential := min 80 (maxActiveZones / 2)
  let totalSpare := maxActiveZones - totalEssential
  { arbiter with
    balloon := arbiter.balloon.init totalEssential totalSpare
    isolation := [1, 2, 3, 4].foldl (fun iso ns =>
      (iso.registerTenant rounding (defaultTenant rounding totalEssential totalSpare ns)).2) arbiter.isolation }

def permits (rounding : Rounding) (arbiter : ZoneArbiter) (namespaceId requestedWidth : UInt32) : Bool :=
  (arbiter.isolation.checkBorrowPermission rounding arbiter.metadataMgr namespaceId namespaceId requestedWidth).allowed

def requestZones (rounding : Rounding) (arbiter : ZoneArbiter) (namespaceId requestedWidth : UInt32) :
    BorrowResult × FragAwareBalloon × UnifiedMetadataManager :=
  arbiter.balloon.borrowZones rounding (arbiter.metadataMgr.createMetadata namespaceId requestedWidth).2
    ⟨namespaceId, requestedWidth⟩

def allocateVzone (rounding : Rounding) (arbiter : ZoneArbiter) (namespaceId requestedWidth : UInt32) :
    UInt32 × ZoneArbiter :=
  if arbiter.permits rounding namespaceId requestedWidth then
    let vzoneId := (arbiter.metadataMgr.createMetadata namespaceId requestedWidth).1
    let (result, balloon, metadataMgr) := arbiter.requestZones rounding namespaceId requestedWidth
    (vzoneId, { arbiter with
      balloon := balloon
      metadataMgr :=
        if 0 < result.allocatedWidth then
          metadataMgr.modify vzoneId (fun record =>
            { record with spareAllocated := result.allocatedWidth, essentialAllocated := 2 })
        else metadataMgr })
  else (0, arbiter)

def freeVzone (arbiter : ZoneArbiter) (vzoneId : UInt32) : Bool × ZoneArbiter :=
  match arbiter.metadataMgr.getMetadata vzoneId with
  | none => (false, arbiter)
  | some record =>
    (true, if 0 < record.spareAllocated then
      { arbiter with balloon := (arbiter.balloon.returnZones record.namespaceId record.spareAllocated).2 }
    else arbiter)

def handleRead (arbiter : ZoneArbiter) (vzoneId : UInt32) (latencyUs : UInt64) : ZoneArbiter :=
  { arbiter with metadataMgr := arbiter.metadataMgr.updateAccess vzoneId latencyUs }

def triggerReorganization (rounding : Rounding) (arbiter : ZoneArbiter) (vzoneId : UInt32) : ZoneArbiter :=
  { arbiter with metadataMgr := FragAwareBalloon.triggerReorganization rounding arbiter.metadataMgr vzoneId }

end ZoneArbiter

/-- The calls on an arbiter and on the components it gives access to. A reorganization also stands for the
    thread that a borrow may start, whenever it comes to run. -/
inductive ArbiterCall where
  | registerTenant (config : TenantConfig)
  | allocateVzone (namespaceId requestedWidth : UInt32)
  | freeVzone (vzoneId : UInt32)
  | handleRead (vzoneId : UInt32) (latencyUs : UInt64)
  | triggerReorganization (vzoneId : UInt32)
  | addRemappedBlock (vzoneId blockId : UInt32)
  | removeRemappedBlock (vzoneId blockId : UInt32)
  | throttleTenant (namespaceId : UInt32) (reason : String)
  | unthrottleTenant (namespaceId : UInt32)
  | setFragThreshold (threshold : ℚ)
  | setBorrowReduction (factor : ℚ)

structure Vzone where
  vzoneId : UInt32
  namespaceId : UInt32
  spare : UInt32
  deriving DecidableEq

/-- An arbiter with the history of its calls: the vzones allocated and not yet freed. -/
structure Arbitration where
  arbiter : ZoneArbiter
  live : List Vzone

namespace Arbitration

def start (rounding : Rounding) (nextVzoneId maxActiveZones : UInt32) : Arbitration :=
  ⟨(ZoneArbiter.new rounding nextVzoneId).init rounding maxActiveZones, []⟩

def withManager (s : Arbitration) (change : UnifiedMetadataManager → UnifiedMetadataManager) : Arbitration :=
  { s with arbiter := { s.arbiter with metadataMgr := change s.arbiter.metadataMgr } }

def withIsolation (s : Arbitration) (change : TenantIsolation → TenantIsolation) : Arbitration :=
  { s with arbiter := { s.arbiter with isolation := change s.arbiter.isolation } }

def withBalloon (s : Arbitration) (change : FragAwareBalloon → FragAwareBalloon) : Arbitration :=
  { s with arbiter := { s.arbiter with balloon := change s.arbiter.balloon } }

def step (rounding : Rounding) (s : Arbitration) : ArbiterCall → Arbitration
  | .registerTenant config => s.withIsolation (fun iso => (iso.registerTenant rounding config).2)
  | .allocateVzone ns width =>
    { arbiter := (s.arbiter.allocateVzone rounding ns width).2
      live :=
        if s.arbiter.permits rounding ns width then
          ⟨(s.arbiter.allocateVzone rounding ns width).1, ns,
            (s.arbiter.requestZones rounding ns width).1.allocatedWidth⟩ :: s.live
        else s.live }
  | .freeVzone vzoneId =>
    { arbiter := (s.arbiter.freeVzone vzoneId).2
      live := s.live.eraseP (fun v => v.vzoneId = vzoneId) }
  | .handleRead vzoneId latencyUs => { s with arbiter := s.arbiter.handleRead vzoneId latencyUs }
  | .triggerReorganization vzoneId => { s with arbiter := s.arbiter.triggerReorganization rounding vzoneId }
  | .addRemappedBlock vzoneId blockId => s.withManager (fun mgr => mgr.addRemappedBlock rounding vzoneId blockId)
  | .removeRemappedBlock vzoneId blockId =>
    s.withManager (fun mgr => mgr.removeRemappedBlock rounding vzoneId blockId)
  | .throttleTenant ns reason => s.withIsolation (fun iso => iso.throttleTenant ns reason)
  | .unthrottleTenant ns => s.withIsolation (fun iso => iso.unthrottleTenant ns)
  | .setFragThreshold threshold => s.withBalloon (fun b => b.setFragThreshold threshold)
  | .setBorrowReduction factor => s.withBalloon (fun b => b.setBorrowReduction factor)

end Arbitration

end EznsRbc
