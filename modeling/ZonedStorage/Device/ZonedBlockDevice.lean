import ZonedStorage.Device.Zone

namespace ZenFSModel

open Resumption Zone

inductive IOType where
  | kWAL
  | kUnknown
deriving DecidableEq, Repr

/-- The IO zones with the counters that share them out. -/
structure ZonedBlockDevice where
  dev : Device
  activeIoZones : Int
  openIoZones : Int
  maxNrActiveIoZones : Nat
  maxNrOpenIoZones : Nat
  finishThreshold : Nat
  migrating : Bool
  zoneDeferredStatus : Option Status

def ioLens : Lens ZonedBlockDevice Device where
  get := ZonedBlockDevice.dev
  put dev zbd := { zbd with dev := dev }
  get_put _ _ := rfl
  put_put _ _ _ := rfl
  put_get _ := rfl

def LIFETIME_DIFF_NOT_GOOD : Nat := 100

def LIFETIME_DIFF_COULD_BE_WORSE : Nat := 50

def getLifeTimeDiff (zoneLifetime fileLifetime : WriteLifeTimeHint) : Nat :=
  if fileLifetime = .notSet ∨ fileLifetime = .none then
    if fileLifetime = zoneLifetime then 0 else LIFETIME_DIFF_NOT_GOOD
  else if fileLifetime.value < zoneLifetime.value then (zoneLifetime.value - fileLifetime.value).toNat
  else if zoneLifetime = fileLifetime then LIFETIME_DIFF_COULD_BE_WORSE
  else LIFETIME_DIFF_NOT_GOOD

namespace ZonedBlockDevice

def onDev {α : Type} (p : Proc Device α) : Proc ZonedBlockDevice α := p.zoom ioLens

def ioZones : Proc ZonedBlockDevice (List Nat) := .read (fun zbd => List.range zbd.dev.count)

def zoneAt (i : Nat) : Proc ZonedBlockDevice Zone := onDev (Device.zoneAt i)

def putOpenIOZoneToken : Proc ZonedBlockDevice Unit :=
  .update (fun zbd => { zbd with openIoZones := zbd.openIoZones - 1 })

def putActiveIOZoneToken : Proc ZonedBlockDevice Unit :=
  .update (fun zbd => { zbd with activeIoZones := zbd.activeIoZones - 1 })

/-- The limit is computed in `unsigned int`, so a maximum of zero wraps for the others. -/
def allocatorOpenLimit (maxNrOpenIoZones : Nat) (prioritized : Bool) : Int :=
  if prioritized then maxNrOpenIoZones else ((maxNrOpenIoZones + (2 ^ 32 - 1)) % 2 ^ 32 : Nat)

def waitForOpenIOZoneToken (prioritized : Bool) : Proc ZonedBlockDevice Unit := .await (fun zbd =>
  if zbd.openIoZones < allocatorOpenLimit zbd.maxNrOpenIoZones prioritized then
    some ((), { zbd with openIoZones := zbd.openIoZones + 1 })
  else none)

def getActiveIOZoneTokenIfAvailable : Proc ZonedBlockDevice Bool := .act (fun zbd =>
  if zbd.activeIoZones < zbd.maxNrActiveIoZones then
    (true, { zbd with activeIoZones := zbd.activeIoZones + 1 })
  else (false, zbd))

def resetUnusedIOZone (i : Nat) : Proc ZonedBlockDevice Unit := do
  if ← onDev (acquire i) then
    let z ← zoneAt i
    if !z.isEmpty && !z.isUsed then
      let resetStatus ← (onDev (reset i)).attempt
      let releaseStatus ← (onDev (checkRelease i)).attempt
      .ofExcept resetStatus
      .ofExcept releaseStatus
      if z.isFull then pure () else putActiveIOZoneToken
    else onDev (checkRelease i)
  else pure ()

def resetUnusedIOZones : Proc ZonedBlockDevice Unit := do
  (← ioZones).forM resetUnusedIOZone

def withinFinishThreshold (z : Zone) (finishThreshold : Nat) : Bool :=
  decide (z.capacity < z.maxCapacity * finishThreshold / 100)

def applyFinishThresholdTo (finishThreshold i : Nat) : Proc ZonedBlockDevice Unit := do
  if ← onDev (acquire i) then
    let z ← zoneAt i
    if !(z.isEmpty || z.isFull) && withinFinishThreshold z finishThreshold then
      match ← (onDev (finish i)).attempt with
      | .error status =>
        let _ ← onDev (release i)
        .fail status
      | .ok () =>
        onDev (checkRelease i)
        putActiveIOZoneToken
    else onDev (checkRelease i)
  else pure ()

def applyFinishThreshold : Proc ZonedBlockDevice Unit := do
  let finishThreshold ← .read (fun zbd => zbd.finishThreshold)
  if finishThreshold = 0 then pure () else (← ioZones).forM (applyFinishThresholdTo finishThreshold)

def cheaperVictim (finishVictim : Option Nat) (i : Nat) : Proc ZonedBlockDevice (Option Nat) := do
  if ← onDev (acquire i) then
    let z ← zoneAt i
    if z.isEmpty || z.isFull then
      onDev (checkRelease i)
      pure finishVictim
    else
      match finishVictim with
      | none => pure (some i)
      | some victim =>
        if z.capacity < (← zoneAt victim).capacity then
          onDev (checkRelease victim)
          pure (some i)
        else
          onDev (checkRelease i)
          pure (some victim)
  else pure finishVictim

def finishCheapestIOZone : Proc ZonedBlockDevice Unit := do
  match ← (← ioZones).foldlM cheaperVictim none with
  | none => pure ()
  | some victim =>
    let finishStatus ← (onDev (finish victim)).attempt
    let releaseStatus ← (onDev (checkRelease victim)).attempt
    match finishStatus with
    | .ok () => putActiveIOZoneToken
    | .error _ => pure ()
    .ofExcept releaseStatus
    .ofExcept finishStatus

/-- The best zone so far, held busy, and how well its lifetime fits. -/
structure Match where
  bestDiff : Nat
  zone : Option Nat
deriving DecidableEq, Repr

def releaseMatch (i : Nat) : Option Nat → Proc ZonedBlockDevice Unit
  | none => pure ()
  | some previous => do
    match ← (onDev (checkRelease previous)).attempt with
    | .ok () => pure ()
    | .error status =>
      onDev (checkRelease i)
      .fail status

def betterMatch (fileLifetime : WriteLifeTimeHint) (minCapacity : Nat) (best : Match) (i : Nat) :
    Proc ZonedBlockDevice Match := do
  if ← onDev (acquire i) then
    let z ← zoneAt i
    if z.isUsed && !z.isFull && decide (minCapacity ≤ z.capacity) then
      let diff := getLifeTimeDiff z.lifetime fileLifetime
      if diff ≤ best.bestDiff then
        releaseMatch i best.zone
        pure ⟨diff, some i⟩
      else
        onDev (checkRelease i)
        pure best
    else
      onDev (checkRelease i)
      pure best
  else pure best

def getBestOpenZoneMatch (fileLifetime : WriteLifeTimeHint) (minCapacity : Nat) :
    Proc ZonedBlockDevice Match := do
  (← ioZones).foldlM (betterMatch fileLifetime minCapacity) ⟨LIFETIME_DIFF_NOT_GOOD, none⟩

def allocateEmptyZoneFrom : List Nat → Proc ZonedBlockDevice (Option Nat)
  | [] => pure none
  | i :: rest => do
    if ← onDev (acquire i) then
      if (← zoneAt i).isEmpty then pure (some i)
      else
        onDev (checkRelease i)
        allocateEmptyZoneFrom rest
    else allocateEmptyZoneFrom rest

def allocateEmptyZone : Proc ZonedBlockDevice (Option Nat) := do
  allocateEmptyZoneFrom (← ioZones)

end ZonedBlockDevice

end ZenFSModel
