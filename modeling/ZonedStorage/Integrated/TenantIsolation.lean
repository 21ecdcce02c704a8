import ZonedStorage.Floats.Sums
import ZonedStorage.Tables.Table

namespace EznsRbcIntegrated

open Floats KeyedTable

structure UnifiedVZoneMeta where
  fragmentationRatio : ℚ
  totalReadLatency : UInt64
  readIoCount : UInt32
  deriving DecidableEq

def UnifiedVZoneMeta.getAvgReadLatency (rounding : Rounding) (record : UnifiedVZoneMeta) : ℚ :=
  if record.readIoCount = 0 then 0
  else rounding.double (rounding.double record.totalReadLatency.toNat / rounding.double record.readIoCount.toNat)

structure TenantConfig where
  namespaceId : UInt32
  maxFragmentation : ℚ
  latencySlaUs : UInt64
  deriving DecidableEq

structure BorrowDecision where
  allowed : Bool
  /-- `none` where a number is converted that its type cannot hold. -/
  maxBorrow : Option UInt32
  reason : String
  deriving DecidableEq

/-- `get_tenant_status` leaves these members as they are if the tenant has no vzone. -/
structure Uninitialised where
  currentFragmentation : ℚ
  avgReadLatencyUs : UInt64

structure TenantIsolation where
  tenantConfigs : Table UInt32 TenantConfig
  throttledTenants : Table UInt32 String
  deriving DecidableEq

/-- The conversion of a float, which is undefined out of range. -/
def toUInt32 (q : ℚ) : Option UInt32 := if -1 < q ∧ q < 2 ^ 32 then some (.ofNat q.floor.toNat) else none

namespace TenantIsolation

def new : TenantIsolation := ⟨∅, ∅⟩

def registerTenant (iso : TenantIsolation) (config : TenantConfig) : Bool × TenantIsolation :=
  if config.namespaceId ∈ iso.tenantConfigs then (false, iso)
  else (true, { iso with tenantConfigs := iso.tenantConfigs.insert config.namespaceId config })

section

variable (rounding : Rounding) (getVzone : UInt32 → Option UnifiedVZoneMeta) (left : Uninitialised)

def currentFragmentation (namespaceId : UInt32) : ℚ :=
  match getVzone (namespaceId * 100 + 1) with
  | none => left.currentFragmentation
  | some record => record.fragmentationRatio

def avgReadLatencyUs (namespaceId : UInt32) : UInt64 :=
  match getVzone (namespaceId * 100 + 1) with
  | none => left.avgReadLatencyUs
  | some record => .ofNat (record.getAvgReadLatency rounding).floor.toNat

def predictFragImpact (amount : UInt32) : ℚ :=
  rounding.single (rounding.single amount.toNat * rounding.single (1 / 100))

def checkLatencySla (iso : TenantIsolation) (namespaceId : UInt32) : Bool :=
  match iso.tenantConfigs.lookup namespaceId with
  | none => true
  | some cfg => avgReadLatencyUs rounding getVzone left namespaceId < cfg.latencySlaUs

def checkBorrowPermission (iso : TenantIsolation) (lenderId borrowerId requestedWidth : UInt32) : BorrowDecision :=
  if lenderId ∈ iso.throttledTenants then ⟨false, some requestedWidth, "Lender is throttled"⟩
  else
    match iso.tenantConfigs.lookup lenderId, iso.tenantConfigs.lookup borrowerId with
    | some lender, some _ =>
      let served : BorrowDecision :=
        if !checkLatencySla rounding getVzone left iso lenderId then
          ⟨false, some requestedWidth, "Latency SLA violation risk"⟩
        else ⟨true, some requestedWidth, "OK"⟩
      match getVzone (lenderId * 100 + 1) with
      | none => served
      | some record =>
        let newFrag := rounding.single (record.fragmentationRatio + predictFragImpact rounding requestedWidth)
        if lender.maxFragmentation < newFrag then
          let allowedIncrease := rounding.single (lender.maxFragmentation - record.fragmentationRatio)
          let allowedBorrow := toUInt32 (rounding.single (allowedIncrease * 100))
          ⟨false, allowedBorrow.map (min requestedWidth), "Would exceed max fragmentation"⟩
        else served
    | _, _ => ⟨false, some requestedWidth, "Tenant not registered"⟩

end

/-- `tenants` are the registered tenants in the order in which their map is walked through. Each of them may find other
    members left uninitialised. -/
def calculateFairnessIndex (rounding : Rounding) (getVzone : UInt32 → Option UnifiedVZoneMeta)
    (left : Nat → Uninitialised) (tenants : List UInt32) : ℚ :=
  if tenants = [] then 1
  else rounding.fairness (tenants.mapIdx (fun turn ns =>
    rounding.double (1 / rounding.double (currentFragmentation getVzone (left turn) ns + rounding.double (1 / 10)))))

end TenantIsolation

end EznsRbcIntegrated
