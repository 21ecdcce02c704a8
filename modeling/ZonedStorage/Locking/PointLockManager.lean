import Mathlib.Logic.Function.Basic
import ZonedStorage.Bytes.LittleEndian
import ZonedStorage.Tables.Table

namespace PointLocking

open ByteString KeyedTable

abbrev TransactionID := UInt64
abbrev Key := Bytes

inductive LockStatus where
  | ok
  | lockTimeout
  | lockLimit
  deriving DecidableEq

structure LockInfo where
  exclusive : Bool
  txnIds : List TransactionID
  expirationTime : UInt64
  deriving DecidableEq

def LockInfo.new (id : TransactionID) (time : UInt64) (ex : Bool) : LockInfo := ⟨ex, [id], time⟩

structure LockMapStripe where
  keys : Table Key LockInfo
  deriving DecidableEq

structure LockMap (numStripes : Nat) where
  lockCnt : Int
  lockMapStripes : Fin numStripes → LockMapStripe

structure PessimisticTransaction where
  id : TransactionID
  expirationTime : UInt64

/-- What is asked of the clock and of the owners of expired locks. -/
structure Env where
  nowMicros : UInt64
  tryStealingExpiredTransactionLocks : TransactionID → Bool

def fastRange64 (hash : UInt64) (range : Nat) [NeZero range] : Fin range :=
  ⟨hash.toNat * range / 2 ^ 64,
    Nat.div_lt_of_lt_mul (Nat.mul_lt_mul_of_pos_right hash.toNat_lt (Nat.pos_of_neZero range))⟩

variable {n : Nat}

namespace LockMap

def new (numStripes : Nat) : LockMap numStripes := ⟨0, fun _ => ⟨∅⟩⟩

def getStripe (hash : Key → UInt64) [NeZero n] (_ : LockMap n) (key : Key) : Fin n := fastRange64 (hash key) n

def setKeys (lockMap : LockMap n) (stripe : Fin n) (keys : Table Key LockInfo) : LockMap n :=
  { lockMap with lockMapStripes := Function.update lockMap.lockMapStripes stripe ⟨keys⟩ }

def addCnt (lockMap : LockMap n) (change : Int) : LockMap n := { lockMap with lockCnt := lockMap.lockCnt + change }

end LockMap

/-- The second component is what is left in `*expire_time`. -/
def isLockExpired (env : Env) (txnId : TransactionID) (lockInfo : LockInfo) (expireTime : UInt64) : Bool × UInt64 :=
  if lockInfo.expirationTime = 0 then (false, 0)
  else if env.nowMicros < lockInfo.expirationTime then (false, lockInfo.expirationTime)
  else if lockInfo.txnIds.all (fun id => txnId == id || env.tryStealingExpiredTransactionLocks id) then (true, expireTime)
  else (false, 0)

structure Attempt (n : Nat) where
  status : LockStatus
  lockMap : LockMap n
  expireTime : UInt64
  txnIds : List TransactionID

def acquireLocked (maxNumLocks : Int) (env : Env) (lockMap : LockMap n) (stripe : Fin n) (key : Key)
    (txn : PessimisticTransaction) (exclusive : Bool) (expireTime : UInt64) (txnIds : List TransactionID) : Attempt n :=
  let txnLockInfo := LockInfo.new txn.id txn.expirationTime exclusive
  let keys := (lockMap.lockMapStripes stripe).keys
  match keys.lookup key with
  | some lockInfo =>
    if lockInfo.exclusive || txnLockInfo.exclusive then
      if lockInfo.txnIds = txnLockInfo.txnIds then
        let taken := { lockInfo with
          exclusive := txnLockInfo.exclusive, expirationTime := txnLockInfo.expirationTime }
        ⟨.ok, lockMap.setKeys stripe (keys.insert key taken), expireTime, txnIds⟩
      else
        let (expired, expireTime) := isLockExpired env txn.id lockInfo expireTime
        if expired then ⟨.ok, lockMap.setKeys stripe (keys.insert key txnLockInfo), expireTime, txnIds⟩
        else ⟨.lockTimeout, lockMap, expireTime, lockInfo.txnIds⟩
    else
      let shared := { lockInfo with
        txnIds := lockInfo.txnIds ++ txnLockInfo.txnIds
        expirationTime := max lockInfo.expirationTime txnLockInfo.expirationTime }
      ⟨.ok, lockMap.setKeys stripe (keys.insert key shared), expireTime, txnIds⟩
  | none =>
    if 0 < maxNumLocks ∧ maxNumLocks ≤ lockMap.lockCnt then ⟨.lockLimit, lockMap, expireTime, txnIds⟩
    else
      let acquired := lockMap.setKeys stripe (keys.insert key txnLockInfo)
      ⟨.ok, if maxNumLocks ≠ 0 then acquired.addCnt 1 else acquired, expireTime, txnIds⟩

/-- The last element takes the place of the first occurrence. -/
def swapRemove (txns : List TransactionID) (txnId : TransactionID) : List TransactionID :=
  (txns.set (txns.idxOf txnId) (txns.getLastD txnId)).dropLast

def unLockKey (maxNumLocks : Int) (txnId : TransactionID) (key : Key) (stripe : Fin n) (lockMap : LockMap n) :
    LockMap n :=
  let keys := (lockMap.lockMapStripes stripe).keys
  match keys.lookup key with
  | some lockInfo =>
    if txnId ∈ lockInfo.txnIds then
      let left :=
        if lockInfo.txnIds.length = 1 then keys.erase key
        else keys.insert key { lockInfo with txnIds := swapRemove lockInfo.txnIds txnId }
      let released := lockMap.setKeys stripe left
      if 0 < maxNumLocks then released.addCnt (-1) else released
    else lockMap
  | none => lockMap

/-- The keys that a transaction has locked in the column family, in the order in which the stripes are visited. -/
structure PointLockTracker where
  keys : List Key
  nodup : keys.Nodup

section

variable (hash : Key → UInt64) (maxNumLocks : Int) [NeZero n]

/-- `TryLock` of a transaction that does not wait, after the lock map of the column family has been found. -/
def tryLock (env : Env) (lockMap : LockMap n) (txn : PessimisticTransaction) (key : Key) (exclusive : Bool) :
    LockStatus × LockMap n :=
  let attempt := acquireLocked maxNumLocks env lockMap (lockMap.getStripe hash key) key txn exclusive 0 []
  (attempt.status, attempt.lockMap)

def unLock (lockMap : LockMap n) (txn : PessimisticTransaction) (key : Key) : LockMap n :=
  unLockKey maxNumLocks txn.id key (lockMap.getStripe hash key) lockMap

def unLockTracked (lockMap : LockMap n) (txn : PessimisticTransaction) (tracker : PointLockTracker) : LockMap n :=
  tracker.keys.foldl (fun lockMap key => unLock hash maxNumLocks lockMap txn key) lockMap

inductive LockCall where
  | tryLock (env : Env) (txn : PessimisticTransaction) (key : Key) (exclusive : Bool)
  | unLock (txn : PessimisticTransaction) (key : Key)
  | unLockTracked (txn : PessimisticTransaction) (tracker : PointLockTracker)

def LockMap.step (lockMap : LockMap n) : LockCall → LockMap n
  | .tryLock env txn key exclusive => (PointLocking.tryLock hash maxNumLocks env lockMap txn key exclusive).2
  | .unLock txn key => PointLocking.unLock hash maxNumLocks lockMap txn key
  | .unLockTracked txn tracker => PointLocking.unLockTracked hash maxNumLocks lockMap txn tracker

end

end PointLocking
