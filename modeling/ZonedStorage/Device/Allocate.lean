import ZonedStorage.Device.ZonedBlockDevice

namespace ZenFSModel.ZonedBlockDevice

/-- `while (!GetActiveIOZoneTokenIfAvailable()) FinishCheapestIOZone()`, for at most `rounds` turns. -/
def finishUntilActiveToken : Nat → Proc ZonedBlockDevice Unit
  | 0 => .hang
  | rounds + 1 => do
    if ← getActiveIOZoneTokenIfAvailable then pure ()
    else
      match ← finishCheapestIOZone.attempt with
      | .ok () => finishUntilActiveToken rounds
      | .error status =>
        putOpenIOZoneToken
        .fail status

def setLifetime (i : Nat) (lifetime : WriteLifeTimeHint) : Proc ZonedBlockDevice Unit :=
  onDev (.update (fun d => d.setZone i { d.zones i with lifetime := lifetime }))

def openNewZone (rounds : Nat) (gotToken : Bool) (fileLifetime : WriteLifeTimeHint) :
    Proc ZonedBlockDevice (Option Nat) := do
  if !gotToken then finishUntilActiveToken rounds
  match ← allocateEmptyZone.attempt with
  | .error status =>
    putActiveIOZoneToken
    putOpenIOZoneToken
    .fail status
  | .ok none =>
    putActiveIOZoneToken
    pure none
  | .ok (some i) =>
    setLifetime i fileLifetime
    pure (some i)

def matchOrNewZone (rounds : Nat) (fileLifetime : WriteLifeTimeHint) (best : Match) :
    Proc ZonedBlockDevice (Option Nat) := do
  let gotToken ← getActiveIOZoneTokenIfAvailable
  match best.zone with
  | none => openNewZone rounds gotToken fileLifetime
  | some i =>
    if !gotToken && best.bestDiff == LIFETIME_DIFF_COULD_BE_WORSE then pure (some i)
    else
      match ← (onDev (Zone.checkRelease i)).attempt with
      | .ok () => openNewZone rounds gotToken fileLifetime
      | .error status =>
        putOpenIOZoneToken
        if gotToken then putActiveIOZoneToken
        .fail status

def allocateIOZone (rounds : Nat) (fileLifetime : WriteLifeTimeHint) (ioType : IOType) :
    Proc ZonedBlockDevice (Option Nat) := do
  match ← .read (fun zbd => zbd.zoneDeferredStatus) with
  | some status => .fail status
  | none =>
    if ioType != .kWAL then applyFinishThreshold
    waitForOpenIOZoneToken (ioType == .kWAL)
    match ← (getBestOpenZoneMatch fileLifetime 0).attempt with
    | .error status =>
      putOpenIOZoneToken
      .fail status
    | .ok best =>
      let allocated ← if best.bestDiff < LIFETIME_DIFF_COULD_BE_WORSE then pure best.zone
        else matchOrNewZone rounds fileLifetime best
      match allocated with
      | some i => pure (some i)
      | none =>
        putOpenIOZoneToken
        pure none

def setZoneDeferredStatus (status : Status) : Proc ZonedBlockDevice Unit := .update (fun zbd =>
  if zbd.zoneDeferredStatus.isSome then { zbd with zoneDeferredStatus := some status } else zbd)

def releaseMigrateZone (zone : Option Nat) : Proc ZonedBlockDevice Unit := do
  .update (fun zbd => { zbd with migrating := false })
  match zone with
  | none => pure ()
  | some i => onDev (Zone.checkRelease i)

def takeMigrateZone (fileLifetime : WriteLifeTimeHint) (minCapacity : Nat) :
    Proc ZonedBlockDevice (Option Nat) := do
  .await (fun zbd => if zbd.migrating then none else some ((), { zbd with migrating := true }))
  match ← (getBestOpenZoneMatch fileLifetime (minCapacity % 2 ^ 32)).attempt with
  | .ok ⟨_, some i⟩ => pure (some i)
  | .ok ⟨_, none⟩ =>
    .update (fun zbd => { zbd with migrating := false })
    pure none
  | .error status =>
    .update (fun zbd => { zbd with migrating := false })
    .fail status

end ZenFSModel.ZonedBlockDevice
