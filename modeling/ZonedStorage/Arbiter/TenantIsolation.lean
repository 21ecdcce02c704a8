import ZonedStorage.Arbiter.FragAwareBalloon
import ZonedStorage.Floats.Sums

namespace EznsRbc

open Floats KeyedTable

structure TenantConfig where
  namespaceId : UInt32
  maxFragmentation : ℚ
  minEssentialZones : UInt32
  maxSpareZones : UInt32
  latencySlaUs : UInt64
  deriving DecidableEq

structure BorrowDecision where
  allowed : Bool
  maxBorrow : UInt32
  reason : String
  deriving DecidableEq

structure TenantIsolation where
  tenantConfigs : Table UInt32 TenantConfig
  throttledTenants : Table UInt32 String
  deriving DecidableEq

namespace TenantIsolation

def new : TenantIsolation := ⟨∅, ∅⟩

def completed (rounding : Rounding) (config : TenantConfig) : TenantConfig where
  namespaceId := config.namespaceId
  maxFragmentation := if config.maxFragmentation ≤ 0 then FRAG_THRESHOLD rounding else config.maxFragmentation
  minEssentialZones := if config.minEssentialZones = 0 then 2 else config.minEssentialZones
  maxSpareZones := if config.maxSpareZones = 0 then 8 else config.maxSpareZones
  latencySlaUs := if config.latencySlaUs = 0 then 1000 else config.latencySlaUs

def registerTenant (rounding : Rounding) (iso : TenantIsolation) (config : TenantConfig) : Bool × TenantIsolation :=
  if config.namespaceId ∈ iso.tenantConfigs then (false, iso)
  else (true, { iso with
    tenantConfigs := iso.tenantConfigs.insert config.namespaceId (completed rounding config) })

def currentFragmentation (mgr : UnifiedMetadataManager) (namespaceId : UInt32) : ℚ :=
  match mgr.getMetadata (primaryVzone namespaceId) with
  | none => 0
  | some record => record.fragmentationRatio

def avgReadLatencyUs (rounding : Rounding) (mgr : UnifiedMetadataManager) (namespaceId : UInt32) : UInt64 :=
  match mgr.getMetadata (primaryVzone namespaceId) with
  | none => 0
  | some record => .ofNat (record.getAvgReadLatency rounding).floor.toNat

def predictFragImpact (rounding : Rounding) (borrowAmount : UInt32) : ℚ :=
  rounding.single (rounding.single borrowAmount.toNat * rounding.single (5 / 1000))

def checkLatencySla (rounding : Rounding) (iso : TenantIsolation) (mgr : UnifiedMetadataManager)
    (namespaceId : UInt32) : Bool :=
  match iso.tenantConfigs.lookup namespaceId with
  | none => true
  | some cfg => rounding.double (avgReadLatencyUs rounding mgr namespaceId).toNat <
      rounding.double (rounding.double cfg.latencySlaUs.toNat * rounding.double (8 / 10))

def checkBorrowPermission (rounding : Rounding) (iso : TenantIsolation) (mgr : UnifiedMetadataManager)
    (lenderId borrowerId requestedWidth : UInt32) : BorrowDecision :=
  match iso.tenantConfigs.lookup lenderId with
  | none => ⟨false, requestedWidth, "Lender not registered"⟩
  | some lenderCfg =>
    if borrowerId ∉ iso.tenantConfigs then ⟨false, requestedWidth, "Borrower not registered"⟩
    else if lenderId ∈ iso.throttledTenants then ⟨false, requestedWidth, "Lender is throttled"⟩
    else
      let newFrag := rounding.single (lenderCfg.maxFragmentation + predictFragImpact rounding requestedWidth)
      if rounding.double (lenderCfg.maxFragmentation * rounding.double (12 / 10)) < newFrag then
        ⟨false,
          .ofNat (rounding.single (rounding.single requestedWidth.toNat *
            rounding.single (lenderCfg.maxFragmentation / newFrag))).floor.toNat,
          "Fragmentation impact too high"⟩
      else if !checkLatencySla rounding iso mgr lenderId then
        ⟨false, requestedWidth, "Lender latency SLA violation risk"⟩
      else ⟨true, requestedWidth, "OK"⟩

/-- `tenants` are the registered tenants in the order in which their map is walked through. -/
def calculateFairnessIndex (rounding : Rounding) (mgr : UnifiedMetadataManager) (tenants : List UInt32) : ℚ :=
  if tenants = [] then 1
  else rounding.fairness (tenants.map (fun ns =>
    rounding.double (1 / rounding.double (currentFragmentation mgr ns + rounding.double (1 / 10)))))

def throttleTenant (iso : TenantIsolation) (namespaceId : UInt32) (reason : String) : TenantIsolation :=
  { iso with throttledTenants := iso.throttledTenants.insert namespaceId reason }

def unthrottleTenant (iso : TenantIsolation) (namespaceId : UInt32) : TenantIsolation :=
  { iso with throttledTenants := iso.throttledTenants.erase namespaceId }

end TenantIsolation

end EznsRbc
