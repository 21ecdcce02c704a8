import Mathlib.Algebra.BigOperators.Fin
import ZonedStorage.Locking.PointLockManager
import ZonedStorage.Runs.Throughout

namespace PointLockProof

open KeyedTable PointLocking Runs LockMap Int Finset Table

section

variable {n : Nat}

theorem setKeys_self (lockMap : LockMap n) (stripe : Fin n) (keys : Table Key LockInfo) :
    ((lockMap.setKeys stripe keys).lockMapStripes stripe).keys = keys :=
  congrArg LockMapStripe.keys (Function.update_self ..)

theorem setKeys_ne (lockMap : LockMap n) {stripe other : Fin n} (different : other ≠ stripe)
    (keys : Table Key LockInfo) :
    (lockMap.setKeys stripe keys).lockMapStripes other = lockMap.lockMapStripes other :=
  Function.update_of_ne different ..

def lockedKeys (lockMap : LockMap n) : Nat := ∑ stripe, Table.size (lockMap.lockMapStripes stripe).keys

def uncounted (lockMap : LockMap n) : Int := lockedKeys lockMap - lockMap.lockCnt

theorem lockedKeys_setKeys (lockMap : LockMap n) (stripe : Fin n) (keys : Table Key LockInfo) :
    lockedKeys (lockMap.setKeys stripe keys) + size (lockMap.lockMapStripes stripe).keys =
      lockedKeys lockMap + size keys := by
  have elsewhere : ∀ other ∈ univ.erase stripe,
      size ((lockMap.setKeys stripe keys).lockMapStripes other).keys =
        size (lockMap.lockMapStripes other).keys := by
    intro other listed
    rw [setKeys_ne lockMap (ne_of_mem_erase listed)]
  rw [lockedKeys, lockedKeys, ← add_sum_erase _ _ (mem_univ stripe),
    ← add_sum_erase _ _ (mem_univ stripe), sum_congr rfl elsewhere, setKeys_self]
  omega

variable {lockMap : LockMap n} {stripe : Fin n} {key : Key}

theorem uncounted_replace {lockInfo : LockInfo}
    (found : (lockMap.lockMapStripes stripe).keys.lookup key = some lockInfo)
    (replacement : LockInfo) :
    uncounted (lockMap.setKeys stripe ((lockMap.lockMapStripes stripe).keys.insert key replacement)) =
      uncounted lockMap := by
  have listed : key ∈ (lockMap.lockMapStripes stripe).keys := AList.lookup_isSome.mp (Option.isSome_iff_exists.mpr ⟨_, found⟩)
  have moved := lockedKeys_setKeys lockMap stripe ((lockMap.lockMapStripes stripe).keys.insert key replacement)
  rw [size_insert_mem listed] at moved
  simp only [uncounted, setKeys] at moved ⊢
  omega

theorem uncounted_addCnt (lockMap : LockMap n) (change : Int) :
    uncounted (lockMap.addCnt change) = uncounted lockMap - change := by
  simp only [uncounted, addCnt, lockedKeys]
  omega

theorem uncounted_insert (fresh : (lockMap.lockMapStripes stripe).keys.lookup key = none) (lockInfo : LockInfo) :
    uncounted (lockMap.setKeys stripe ((lockMap.lockMapStripes stripe).keys.insert key lockInfo)) =
      uncounted lockMap + 1 := by
  have moved := lockedKeys_setKeys lockMap stripe ((lockMap.lockMapStripes stripe).keys.insert key lockInfo)
  rw [size_insert_new (AList.lookup_eq_none.mp fresh)] at moved
  simp only [uncounted, setKeys] at moved ⊢
  omega

theorem uncounted_erase {lockInfo : LockInfo}
    (found : (lockMap.lockMapStripes stripe).keys.lookup key = some lockInfo) :
    uncounted (lockMap.setKeys stripe ((lockMap.lockMapStripes stripe).keys.erase key)) = uncounted lockMap - 1 := by
  have listed : key ∈ (lockMap.lockMapStripes stripe).keys := AList.lookup_isSome.mp (Option.isSome_iff_exists.mpr ⟨_, found⟩)
  have moved := lockedKeys_setKeys lockMap stripe ((lockMap.lockMapStripes stripe).keys.erase key)
  have erased := size_erase_mem listed
  simp only [uncounted, setKeys] at moved ⊢
  omega

end

section

variable {n : Nat} [NeZero n] {hash : Key → UInt64} {maxNumLocks : Int}

def lockInfo? (hash : Key → UInt64) (lockMap : LockMap n) (key : Key) : Option LockInfo :=
  (lockMap.lockMapStripes (lockMap.getStripe hash key)).keys.lookup key

def Sole (hash : Key → UInt64) (lockMap : LockMap n) (txn : PessimisticTransaction) (key : Key) : Prop :=
  ∀ lockInfo ∈ lockInfo? hash lockMap key, txn.id ∈ lockInfo.txnIds → lockInfo.txnIds.length = 1

instance (lockMap : LockMap n) (txn : PessimisticTransaction) (key : Key) : Decidable (Sole hash lockMap txn key) :=
  inferInstanceAs (Decidable (∀ lockInfo ∈ lockInfo? hash lockMap key, _))

theorem tryLock_counts (limited : 0 < maxNumLocks) (env : Env) (lockMap : LockMap n) (txn : PessimisticTransaction)
    (key : Key) (exclusive : Bool) :
    uncounted (tryLock hash maxNumLocks env lockMap txn key exclusive).2 = uncounted lockMap ∧
      (lockMap.lockCnt ≤ maxNumLocks →
        (tryLock hash maxNumLocks env lockMap txn key exclusive).2.lockCnt ≤ maxNumLocks) ∧
      (lockInfo? hash lockMap key = none →
        ((tryLock hash maxNumLocks env lockMap txn key exclusive).1 = .lockLimit ↔ maxNumLocks ≤ lockMap.lockCnt)) := by
  cases found : lockInfo? hash lockMap key with
  | some lockInfo =>
    have replaced := uncounted_replace found
    simp only [lockInfo?] at found
    simp only [tryLock, acquireLocked, found]
    refine ⟨?_, ?_, fun absent => by cases absent⟩
    · split
      · split
        · exact replaced _
        · split
          · exact replaced _
          · rfl
      · exact replaced _
    · intro bounded
      split
      · split
        · exact bounded
        · split <;> exact bounded
      · exact bounded
  | none =>
    have inserted := uncounted_insert found
    simp only [lockInfo?] at found
    have counting : maxNumLocks ≠ 0 := by omega
    simp only [tryLock, acquireLocked, found, limited, true_and, if_pos counting]
    by_cases full : maxNumLocks ≤ lockMap.lockCnt
    · simp only [if_pos full, true_iff]
      exact ⟨trivial, id, fun _ => full⟩
    · simp only [if_neg full]
      refine ⟨?_, ?_, ?_⟩
      · rw [uncounted_addCnt, inserted]
        omega
      · intro _
        simp only [addCnt, setKeys]
        omega
      · simp only [reduceCtorEq, full, implies_true]

theorem unLock_lockCnt_le (lockMap : LockMap n) (txn : PessimisticTransaction) (key : Key) :
    (unLock hash maxNumLocks lockMap txn key).lockCnt ≤ lockMap.lockCnt := by
  simp only [unLock, unLockKey]
  split
  · split
    · split
      · simp only [addCnt, setKeys]
        omega
      · exact le_refl _
    · exact le_refl _
  · exact le_refl _

theorem unLock_uncounted (limited : 0 < maxNumLocks) (lockMap : LockMap n) (txn : PessimisticTransaction) (key : Key) :
    uncounted (unLock hash maxNumLocks lockMap txn key) =
      uncounted lockMap + if Sole hash lockMap txn key then 0 else 1 := by
  cases found : lockInfo? hash lockMap key with
  | none =>
    have alone : Sole hash lockMap txn key := by
      intro lockInfo held
      rw [found] at held
      cases held
    rw [if_pos alone, add_zero]
    simp only [lockInfo?] at found
    simp only [unLock, unLockKey, found]
  | some lockInfo =>
    have replaced := uncounted_replace found
    have erased := uncounted_erase found
    have alone : Sole hash lockMap txn key ↔ (txn.id ∈ lockInfo.txnIds → lockInfo.txnIds.length = 1) := by
      simp only [Sole, found, Option.mem_some_iff, forall_eq']
    simp only [lockInfo?] at found
    simp only [unLock, unLockKey, found, limited, if_true, alone]
    by_cases holds : txn.id ∈ lockInfo.txnIds
    · by_cases single : lockInfo.txnIds.length = 1
      · simp only [holds, single, if_true, uncounted_addCnt, erased, implies_true]
        omega
      · simp only [holds, single, if_true, if_false, uncounted_addCnt, replaced, forall_const]
        omega
    · simp only [holds, if_false, false_implies, if_true, add_zero]

theorem unLock_other {lockMap : LockMap n} {txn : PessimisticTransaction} {key other : Key} (different : other ≠ key) :
    lockInfo? hash (unLock hash maxNumLocks lockMap txn key) other = lockInfo? hash lockMap other := by
  have replaced : ∀ keys : Table Key LockInfo,
      keys.lookup other = (lockMap.lockMapStripes (lockMap.getStripe hash key)).keys.lookup other →
      lockInfo? hash (lockMap.setKeys (lockMap.getStripe hash key) keys) other = lockInfo? hash lockMap other := by
    intro keys same
    simp only [lockInfo?, getStripe] at same ⊢
    by_cases together : fastRange64 (hash other) n = fastRange64 (hash key) n
    · rw [together, setKeys_self, same]
    · rw [setKeys_ne lockMap together]
  simp only [unLock, unLockKey]
  split
  · split
    · rename_i lockInfo _ _
      have kept := replaced (if lockInfo.txnIds.length = 1 then
          (lockMap.lockMapStripes (lockMap.getStripe hash key)).keys.erase key
        else (lockMap.lockMapStripes (lockMap.getStripe hash key)).keys.insert key
          { lockInfo with txnIds := swapRemove lockInfo.txnIds txn.id }) (by
        split
        · exact AList.lookup_erase_ne different
        · exact AList.lookup_insert_ne different)
      split
      · exact kept
      · exact kept
    · rfl
  · rfl

theorem unLockTracked_uncounted (limited : 0 < maxNumLocks) (txn : PessimisticTransaction) (keys : List Key)
    (nodup : keys.Nodup) (lockMap : LockMap n) :
    uncounted lockMap ≤ uncounted (keys.foldl (fun lockMap key => unLock hash maxNumLocks lockMap txn key) lockMap) ∧
      (uncounted (keys.foldl (fun lockMap key => unLock hash maxNumLocks lockMap txn key) lockMap) = uncounted lockMap ↔
        ∀ key ∈ keys, Sole hash lockMap txn key) := by
  induction keys generalizing lockMap with
  | nil => exact ⟨le_refl _, by simp⟩
  | cons key keys ih =>
    obtain ⟨absent, nodup⟩ := List.nodup_cons.mp nodup
    obtain ⟨grows, same⟩ := ih nodup (unLock hash maxNumLocks lockMap txn key)
    have first := @unLock_uncounted n _ hash _ limited lockMap txn key
    have later : ∀ other ∈ keys,
        (Sole hash (unLock hash maxNumLocks lockMap txn key) txn other ↔ Sole hash lockMap txn other) := by
      intro other listed
      have different : other ≠ key := fun equal => absent (equal ▸ listed)
      rw [Sole, Sole, unLock_other different]
    rw [List.foldl_cons, List.forall_mem_cons, ← forall₂_congr later, ← same]
    by_cases alone : Sole hash lockMap txn key
    · rw [if_pos alone, add_zero] at first
      rw [first] at grows ⊢
      exact ⟨grows, by simp only [alone, true_and]⟩
    · rw [if_neg alone] at first
      simp only [alone, false_and, iff_false]
      omega

theorem unLockTracked_lockCnt_le (txn : PessimisticTransaction) (keys : List Key) (lockMap : LockMap n) :
    (keys.foldl (fun lockMap key => unLock hash maxNumLocks lockMap txn key) lockMap).lockCnt ≤ lockMap.lockCnt := by
  induction keys generalizing lockMap with
  | nil => exact le_refl _
  | cons key keys ih => exact le_trans (ih _) (unLock_lockCnt_le lockMap txn key)

/-- The count is the number of locked keys and within the limit, and the limit is what it is compared with. -/
structure CountsKeys (hash : Key → UInt64) (maxNumLocks : Int) (lockMap : LockMap n) : Prop where
  counted : lockMap.lockCnt = lockedKeys lockMap
  nonneg : 0 ≤ lockMap.lockCnt
  bounded : lockMap.lockCnt ≤ maxNumLocks
  limit : ∀ env txn key exclusive, lockInfo? hash lockMap key = none →
    ((tryLock hash maxNumLocks env lockMap txn key exclusive).1 = .lockLimit ↔ lockedKeys lockMap = maxNumLocks)

theorem countsKeys_iff (limited : 0 < maxNumLocks) {lockMap : LockMap n} :
    CountsKeys hash maxNumLocks lockMap ↔ uncounted lockMap = 0 ∧ lockMap.lockCnt ≤ maxNumLocks := by
  constructor
  · intro counts
    have counted := counts.counted
    rw [uncounted]
    exact ⟨by omega, counts.bounded⟩
  · rintro ⟨counted, bounded⟩
    rw [uncounted] at counted
    refine ⟨by omega, by omega, bounded, ?_⟩
    intro env txn key exclusive absent
    rw [(tryLock_counts limited env lockMap txn key exclusive).2.2 absent]
    omega

/-- Nothing is released of a key that is shared with another transaction. -/
def ReleasesAlone (hash : Key → UInt64) (lockMap : LockMap n) : LockCall → Prop
  | .tryLock .. => True
  | .unLock txn key => Sole hash lockMap txn key
  | .unLockTracked txn tracker => ∀ key ∈ tracker.keys, Sole hash lockMap txn key

instance (lockMap : LockMap n) (call : LockCall) : Decidable (ReleasesAlone hash lockMap call) :=
  match call with
  | .tryLock .. => inferInstanceAs (Decidable True)
  | .unLock txn key => inferInstanceAs (Decidable (Sole hash lockMap txn key))
  | .unLockTracked txn tracker => inferInstanceAs (Decidable (∀ key ∈ tracker.keys, Sole hash lockMap txn key))

theorem step_countsKeys_iff (limited : 0 < maxNumLocks) (lockMap : LockMap n) (call : LockCall)
    (counts : CountsKeys hash maxNumLocks lockMap) :
    CountsKeys hash maxNumLocks (lockMap.step hash maxNumLocks call) ↔ ReleasesAlone hash lockMap call := by
  obtain ⟨counted, bounded⟩ := (countsKeys_iff limited).mp counts
  rw [countsKeys_iff limited]
  cases call with
  | tryLock env txn key exclusive =>
    obtain ⟨same, below, _⟩ := @tryLock_counts n _ hash _ limited env lockMap txn key exclusive
    exact ⟨fun _ => trivial, fun _ => ⟨same.trans counted, below bounded⟩⟩
  | unLock txn key =>
    have changed := @unLock_uncounted n _ hash _ limited lockMap txn key
    have below := le_trans (@unLock_lockCnt_le n _ hash maxNumLocks lockMap txn key) bounded
    simp only [step, ReleasesAlone, changed, counted, below, and_true]
    by_cases alone : Sole hash lockMap txn key
    · simp only [alone, if_true, add_zero]
    · simp only [alone, if_false, iff_false]
      omega
  | unLockTracked txn tracker =>
    have changed := (@unLockTracked_uncounted n _ hash _ limited txn tracker.keys tracker.nodup lockMap).2
    have below := le_trans (@unLockTracked_lockCnt_le n _ hash maxNumLocks txn tracker.keys lockMap) bounded
    rw [counted] at changed
    simp only [step, unLockTracked, ReleasesAlone, below, and_true]
    exact changed

theorem new_countsKeys (limited : 0 < maxNumLocks) : CountsKeys hash maxNumLocks (new n) := by
  refine (countsKeys_iff limited).mpr ⟨?_, le_of_lt limited⟩
  simp [uncounted, lockedKeys, new]

/-- The count is right at all times of a run just if every release is made by the only holder of the key. -/
theorem lock_limit_counts_keys_iff (limited : 0 < maxNumLocks) (calls : List LockCall) :
    Throughout (step hash maxNumLocks) (CountsKeys hash maxNumLocks) (new n) calls ↔
      EachStep (step hash maxNumLocks) (ReleasesAlone hash) (new n) calls :=
  @throughout_iff _ _ _ _ (fun _ => True) _ (fun lockMap call _ => step_countsKeys_iff limited lockMap call)
    (fun _ _ _ _ => trivial) _ trivial (new_countsKeys limited) calls

end

def lasting (id : TransactionID) : PessimisticTransaction := ⟨id, 0⟩

def clock : Env := ⟨0, fun _ => false⟩

/-- No lock expires, and a key is locked again only to upgrade it. -/
def Upgrades (hash : Key → UInt64) {n : Nat} [NeZero n] (lockMap : LockMap n) : LockCall → Prop
  | .tryLock _ txn key exclusive => txn.expirationTime = 0 ∧ ∀ lockInfo ∈ lockInfo? hash lockMap key,
      txn.id ∈ lockInfo.txnIds → lockInfo.exclusive = false ∧ exclusive = true
  | .unLock txn _ => txn.expirationTime = 0
  | .unLockTracked txn _ => txn.expirationTime = 0

instance (hash : Key → UInt64) {n : Nat} [NeZero n] (lockMap : LockMap n) (call : LockCall) :
    Decidable (Upgrades hash lockMap call) :=
  match call with
  | .tryLock _ txn key exclusive => inferInstanceAs (Decidable (txn.expirationTime = 0 ∧
      ∀ lockInfo ∈ lockInfo? hash lockMap key, txn.id ∈ lockInfo.txnIds → lockInfo.exclusive = false ∧ exclusive = true))
  | .unLock txn _ => inferInstanceAs (Decidable (txn.expirationTime = 0))
  | .unLockTracked txn _ => inferInstanceAs (Decidable (txn.expirationTime = 0))

def sharedByTwo : List LockCall :=
  [.tryLock clock (lasting 1) [7] false, .tryLock clock (lasting 2) [7] false, .unLock (lasting 1) [7],
    .tryLock clock (lasting 3) [8] true]

def runLocks (maxNumLocks : Int) (calls : List LockCall) : LockMap 1 :=
  calls.foldl (step (fun _ => 0) maxNumLocks) (new 1)

/-- With a limit of one key, two keys get locked: the first of two readers to leave takes the count of the key along. -/
theorem shared_release_miscounts :
    EachStep (step (fun _ => 0) 1) (Upgrades (fun _ => 0)) (new 1) sharedByTwo ∧
      ¬ Throughout (step (fun _ => 0) 1) (CountsKeys (fun _ => 0) 1) (new 1) sharedByTwo ∧
      lockedKeys (runLocks 1 sharedByTwo) = 2 ∧ (runLocks 1 sharedByTwo).lockCnt = 1 := by
  refine ⟨by decide, ?_, by decide, by decide⟩
  rintro ⟨_, _, _, counts, _⟩
  exact absurd counts.counted (by decide)

def upgradedByOne : List LockCall :=
  [.tryLock clock (lasting 1) [7] false, .tryLock clock (lasting 1) [8] true, .tryLock clock (lasting 2) [9] true,
    .tryLock clock (lasting 1) [7] true, .unLockTracked (lasting 1) ⟨[[8], [7]], by decide⟩]

theorem upgrade_is_counted_once :
    Throughout (step (fun _ => 0) 2) (CountsKeys (fun _ => 0) 2) (new 1) upgradedByOne ∧
      (runLocks 2 upgradedByOne).lockCnt = 0 := by
  exact ⟨(lock_limit_counts_keys_iff (by decide) upgradedByOne).mpr (by decide), by decide⟩

end PointLockProof
