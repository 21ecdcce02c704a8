import ZonedStorage.Device.Allocate
import ZonedStorage.Resumption.Progress

namespace ZenFSProof

open Resumption Resumption.Prog ZenFSModel ZonedBlockDevice Keeps

structure Marks (R : Device → Device → Prop) : Prop where
  refl : ∀ d, R d d
  answered : ∀ d, R d d.answered
  mark : ∀ d i busy lifetime used,
    R d (d.setZone i { d.zones i with busy := busy, lifetime := lifetime, usedCapacity := used })

structure Finishes (R : Device → Device → Prop) : Prop extends Marks R where
  finished : ∀ d i, R d (Device.backendFinish i d).2

structure Resets (R : Device → Device → Prop) : Prop extends Marks R where
  cleared : ∀ d i, R d (Device.backendReset i d).2

structure Behind (R : Device → Device → Prop) (zbd zbd' : ZonedBlockDevice) : Prop where
  dev : R zbd.dev zbd'.dev
  migrating : zbd'.migrating = zbd.migrating
  deferred : zbd'.zoneDeferredStatus = zbd.zoneDeferredStatus

theorem Marks.any : Marks (fun _ _ => True) := ⟨fun _ => trivial, fun _ => trivial, fun _ _ _ _ _ => trivial⟩

theorem Finishes.any : Finishes (fun _ _ => True) := ⟨.any, fun _ _ => trivial⟩

theorem Resets.any : Resets (fun _ _ => True) := ⟨.any, fun _ _ => trivial⟩

theorem Behind.trans {R : Device → Device → Prop} (compose : ∀ d d' d'', R d d' → R d' d'' → R d d'')
    (zbd zbd' zbd'' : ZonedBlockDevice) (first : Behind R zbd zbd') (second : Behind R zbd' zbd'') :
    Behind R zbd zbd'' :=
  ⟨compose _ _ _ first.dev second.dev, second.migrating.trans first.migrating,
    second.deferred.trans first.deferred⟩

namespace Marks

variable {R : Device → Device → Prop}

theorem check (answer : Option Status) : (Device.check answer).Keeps R := by
  cases answer <;> trivial

variable {α : Type}

theorem onDev {p : Proc Device α} (keeps : p.Keeps R) : (ZonedBlockDevice.onDev p).Keeps (Behind R) :=
  keeps.zoom ioLens (fun _ _ moved => ⟨moved, rfl, rfl⟩)

variable (marks : Marks R)

include marks

theorem read (view : Device → α) : (Prog.read view : Proc Device α).Keeps R :=
  ofRead marks.refl view

theorem acquire (i : Nat) : (Zone.acquire i).Keeps R := by
  refine ofAct ?_
  intro d
  dsimp only
  split
  · exact marks.refl d
  · exact marks.mark d i true (d.zones i).lifetime (d.zones i).usedCapacity

theorem release (i : Nat) : (Zone.release i).Keeps R := by
  refine ofAct ?_
  intro d
  dsimp only
  split
  · exact marks.mark d i false (d.zones i).lifetime (d.zones i).usedCapacity
  · exact marks.refl d

theorem checkRelease (i : Nat) : (Zone.checkRelease i).Keeps R := by
  refine (marks.release i).bind (fun released => ?_)
  split
  · trivial
  · exact (marks.read _).bind (fun _ => trivial)

theorem close (i : Nat) : (Zone.close i).Keeps R := by
  refine (marks.read _).bind (fun z => ?_)
  split
  · trivial
  · refine (ofAct ?_).bind (fun answer => check answer)
    intro d
    simp only [Device.backendClose]
    split
    · exact marks.answered d
    · exact marks.answered d

theorem still (zbd : ZonedBlockDevice) : Behind R zbd zbd := ⟨marks.refl _, rfl, rfl⟩

theorem readZbd (view : ZonedBlockDevice → α) : (Prog.read view : Proc ZonedBlockDevice α).Keeps (Behind R) :=
  ofRead marks.still view

theorem zoneAt (i : Nat) : (zoneAt i).Keeps (Behind R) := onDev (marks.read _)

theorem putOpenIOZoneToken : putOpenIOZoneToken.Keeps (Behind R) :=
  ofUpdate (fun zbd => ⟨marks.refl zbd.dev, rfl, rfl⟩)

theorem putActiveIOZoneToken : putActiveIOZoneToken.Keeps (Behind R) :=
  ofUpdate (fun zbd => ⟨marks.refl zbd.dev, rfl, rfl⟩)

theorem waitForOpenIOZoneToken (prioritized : Bool) :
    (waitForOpenIOZoneToken prioritized).Keeps (Behind R) := by
  refine ofAwait ?_
  intro zbd answer zbd' moved
  split at moved
  · cases moved
    exact ⟨marks.refl _, rfl, rfl⟩
  · cases moved

theorem getActiveIOZoneTokenIfAvailable : getActiveIOZoneTokenIfAvailable.Keeps (Behind R) := by
  refine ofAct ?_
  intro zbd
  split
  · exact ⟨marks.refl _, rfl, rfl⟩
  · exact marks.still zbd

theorem cheaperVictim (finishVictim : Option Nat) (i : Nat) :
    (cheaperVictim finishVictim i).Keeps (Behind R) := by
  have release : ∀ j, (ZonedBlockDevice.onDev (Zone.checkRelease j)).Keeps (Behind R) :=
    fun j => onDev (marks.checkRelease j)
  refine (onDev (marks.acquire i)).bind (fun acquired => ?_)
  split
  · refine (marks.zoneAt i).bind (fun z => ?_)
    split
    · exact (release i).bind (fun _ => trivial)
    · cases finishVictim with
      | none => trivial
      | some victim =>
        refine (marks.zoneAt victim).bind (fun v => ?_)
        split
        · exact (release victim).bind (fun _ => trivial)
        · exact (release i).bind (fun _ => trivial)
  · trivial

theorem releaseMatch (i : Nat) (previous : Option Nat) :
    (releaseMatch i previous).Keeps (Behind R) := by
  cases previous with
  | none => trivial
  | some previous =>
    refine (onDev (marks.checkRelease previous)).attempt.bind (fun released => ?_)
    cases released with
    | ok _ => trivial
    | error status => exact (onDev (marks.checkRelease i)).bind (fun _ => trivial)

theorem setLifetime (i : Nat) (lifetime : WriteLifeTimeHint) :
    (setLifetime i lifetime).Keeps (Behind R) :=
  onDev (ofUpdate (fun d => marks.mark d i (d.zones i).busy lifetime (d.zones i).usedCapacity))

theorem betterMatch (fileLifetime : WriteLifeTimeHint) (minCapacity : Nat) (best : Match) (i : Nat) :
    (betterMatch fileLifetime minCapacity best i).Keeps (Behind R) := by
  have release : (ZonedBlockDevice.onDev (Zone.checkRelease i)).Keeps (Behind R) := onDev (marks.checkRelease i)
  refine (onDev (marks.acquire i)).bind (fun acquired => ?_)
  split
  · refine (marks.zoneAt i).bind (fun z => ?_)
    dsimp only
    split
    · split
      · exact (marks.releaseMatch i best.zone).bind (fun _ => trivial)
      · exact release.bind (fun _ => trivial)
    · exact release.bind (fun _ => trivial)
  · trivial

theorem getBestOpenZoneMatch (fileLifetime : WriteLifeTimeHint) (minCapacity : Nat) :
    (getBestOpenZoneMatch fileLifetime minCapacity).Keeps (Behind R) :=
  (marks.readZbd _).bind (fun zones => foldlM zones (marks.betterMatch fileLifetime minCapacity) _)

theorem allocateEmptyZone : allocateEmptyZone.Keeps (Behind R) := by
  refine (marks.readZbd _).bind (fun zones => ?_)
  induction zones with
  | nil => trivial
  | cons i rest ih =>
    refine (onDev (marks.acquire i)).bind (fun acquired => ?_)
    split
    · refine (marks.zoneAt i).bind (fun z => ?_)
      split
      · trivial
      · exact (onDev (marks.checkRelease i)).bind (fun _ => ih)
    · exact ih

end Marks

namespace Finishes

variable {R : Device → Device → Prop} (finishes : Finishes R)

include finishes

theorem finish (i : Nat) : (Zone.finish i).Keeps R :=
  (ofAct (fun d => finishes.finished d i)).bind (fun answer => Marks.check answer)

theorem applyFinishThresholdTo (finishThreshold i : Nat) :
    (applyFinishThresholdTo finishThreshold i).Keeps (Behind R) := by
  have release : (ZonedBlockDevice.onDev (Zone.checkRelease i)).Keeps (Behind R) :=
    Marks.onDev (finishes.checkRelease i)
  refine (Marks.onDev (finishes.acquire i)).bind (fun acquired => ?_)
  split
  · refine (finishes.zoneAt i).bind (fun z => ?_)
    split
    · refine (Marks.onDev (finishes.finish i)).attempt.bind (fun finished => ?_)
      cases finished with
      | error status => exact (Marks.onDev (finishes.release i)).bind (fun _ => trivial)
      | ok _ => exact release.bind (fun _ => finishes.putActiveIOZoneToken)
    · exact release
  · trivial

theorem applyFinishThreshold : applyFinishThreshold.Keeps (Behind R) := by
  refine (finishes.readZbd _).bind (fun finishThreshold => ?_)
  split
  · trivial
  · refine (finishes.readZbd _).bind (fun zones => ?_)
    exact forM zones (finishes.applyFinishThresholdTo finishThreshold)

theorem finishCheapestIOZone : finishCheapestIOZone.Keeps (Behind R) := by
  refine (finishes.readZbd _).bind (fun zones => ?_)
  refine (foldlM zones finishes.cheaperVictim none).bind (fun finishVictim => ?_)
  cases finishVictim with
  | none => trivial
  | some victim =>
    refine (Marks.onDev (finishes.finish victim)).attempt.bind (fun finishStatus => ?_)
    refine (Marks.onDev (finishes.checkRelease victim)).attempt.bind (fun releaseStatus => ?_)
    cases finishStatus with
    | ok _ =>
      refine finishes.putActiveIOZoneToken.bind (fun _ => ?_)
      exact (Keeps.ofExcept releaseStatus).bind (fun _ => trivial)
    | error status => exact (Keeps.ofExcept releaseStatus).bind (fun _ => trivial)

theorem finishUntilActiveToken (rounds : Nat) : (finishUntilActiveToken rounds).Keeps (Behind R) := by
  induction rounds with
  | zero => exact ofHang
  | succ rounds ih =>
    refine finishes.getActiveIOZoneTokenIfAvailable.bind (fun available => ?_)
    split
    · trivial
    · refine finishes.finishCheapestIOZone.attempt.bind (fun finished => ?_)
      cases finished with
      | ok _ => exact ih
      | error status => exact finishes.putOpenIOZoneToken.bind (fun _ => trivial)

theorem openNewZone (rounds : Nat) (gotToken : Bool) (fileLifetime : WriteLifeTimeHint) :
    (openNewZone rounds gotToken fileLifetime).Keeps (Behind R) := by
  rw [ZonedBlockDevice.openNewZone]
  refine ite_bind (finishes.finishUntilActiveToken rounds) ?_
  refine finishes.allocateEmptyZone.attempt.bind (fun allocated => ?_)
  rcases allocated with status | _ | i
  · exact finishes.putActiveIOZoneToken.bind (fun _ => finishes.putOpenIOZoneToken.bind (fun _ => trivial))
  · exact finishes.putActiveIOZoneToken.bind (fun _ => trivial)
  · exact (finishes.setLifetime i fileLifetime).bind (fun _ => trivial)

theorem matchOrNewZone (rounds : Nat) (fileLifetime : WriteLifeTimeHint) (best : Match) :
    (matchOrNewZone rounds fileLifetime best).Keeps (Behind R) := by
  refine finishes.getActiveIOZoneTokenIfAvailable.bind (fun gotToken => ?_)
  cases best.zone with
  | none => exact finishes.openNewZone rounds gotToken fileLifetime
  | some i =>
    dsimp only
    split
    · trivial
    · refine (Marks.onDev (finishes.checkRelease i)).attempt.bind (fun released => ?_)
      cases released with
      | ok _ => exact finishes.openNewZone rounds gotToken fileLifetime
      | error status =>
        exact finishes.putOpenIOZoneToken.bind (fun _ => ite_bind finishes.putActiveIOZoneToken trivial)

theorem allocateIOZone (rounds : Nat) (fileLifetime : WriteLifeTimeHint) (ioType : IOType) :
    (allocateIOZone rounds fileLifetime ioType).Keeps (Behind R) := by
  refine (finishes.readZbd _).bind (fun deferred => ?_)
  cases deferred with
  | some status => trivial
  | none =>
    have token : (do putOpenIOZoneToken; pure none : Proc ZonedBlockDevice (Option Nat)).Keeps (Behind R) :=
      finishes.putOpenIOZoneToken.bind (fun _ => trivial)
    refine ite_bind finishes.applyFinishThreshold ((finishes.waitForOpenIOZoneToken _).bind (fun _ => ?_))
    refine (finishes.getBestOpenZoneMatch fileLifetime 0).attempt.bind (fun matched => ?_)
    cases matched with
    | error status => exact finishes.putOpenIOZoneToken.bind (fun _ => trivial)
    | ok best =>
      dsimp only
      split
      · generalize best.zone = allocated
        cases allocated with
        | some i => trivial
        | none => exact token
      · refine (finishes.matchOrNewZone rounds fileLifetime best).bind (fun allocated => ?_)
        cases allocated with
        | some i => trivial
        | none => exact token

end Finishes

namespace Resets

variable {R : Device → Device → Prop} (resets : Resets R)

include resets

theorem reset (i : Nat) : (Zone.reset i).Keeps R :=
  (ofAct (fun d => resets.cleared d i)).bind (fun answer => Marks.check answer)

theorem resetUnusedIOZone (i : Nat) : (resetUnusedIOZone i).Keeps (Behind R) := by
  refine (Marks.onDev (resets.acquire i)).bind (fun acquired => ?_)
  split
  · refine (resets.zoneAt i).bind (fun z => ?_)
    split
    · refine (Marks.onDev (resets.reset i)).attempt.bind (fun resetStatus => ?_)
      refine (Marks.onDev (resets.checkRelease i)).attempt.bind (fun releaseStatus => ?_)
      refine (Keeps.ofExcept resetStatus).bind (fun _ => (Keeps.ofExcept releaseStatus).bind (fun _ => ?_))
      split
      · trivial
      · exact resets.putActiveIOZoneToken
    · exact Marks.onDev (resets.checkRelease i)
  · trivial

theorem resetUnusedIOZones : resetUnusedIOZones.Keeps (Behind R) :=
  (resets.readZbd _).bind (fun zones => forM zones resets.resetUnusedIOZone)

end Resets

def Undeferred (zbd zbd' : ZonedBlockDevice) : Prop :=
  zbd.zoneDeferredStatus = none → zbd'.zoneDeferredStatus = none

namespace Undeferred

theorem of {α : Type} {p : Proc ZonedBlockDevice α} (keeps : p.Keeps (Behind (fun _ _ => True))) :
    p.Keeps Undeferred :=
  keeps.mono (fun _ _ behind => behind.deferred.trans)

theorem takeMigrateZone (fileLifetime : WriteLifeTimeHint) (minCapacity : Nat) :
    (takeMigrateZone fileLifetime minCapacity).Keeps Undeferred := by
  refine bind (ofAwait ?_) (fun _ => bind (of (Marks.any.getBestOpenZoneMatch fileLifetime _)).attempt (fun best => ?_))
  · intro zbd answer zbd' taken
    split at taken
    · cases taken
    · cases taken
      exact id
  · rcases best with status | ⟨_, _ | zone⟩
    · exact bind (ofUpdate (fun _ => id)) (fun _ => trivial)
    · exact bind (ofUpdate (fun _ => id)) (fun _ => trivial)
    · trivial

theorem releaseMigrateZone (zone : Option Nat) :
    (releaseMigrateZone zone).Keeps Undeferred := by
  refine bind (ofUpdate (fun _ => id)) (fun _ => ?_)
  cases zone with
  | none => trivial
  | some i => exact of (Marks.onDev (all _))

/-- The deferred status is stored only if there is one already. -/
theorem setZoneDeferredStatus (status : Status) :
    (setZoneDeferredStatus status).Keeps Undeferred := by
  refine ofUpdate (fun zbd unset => ?_)
  rw [unset]
  exact unset

end Undeferred

theorem total_check (status : Option Status) : (Device.check status).Total := by
  cases status with
  | none => exact Total.ofRet _
  | some status => exact Total.ofFail status

theorem total_reset (i : Nat) : (Zone.reset i).Total := (Total.ofAct _).bind total_check

theorem total_finish (i : Nat) : (Zone.finish i).Total := (Total.ofAct _).bind total_check

theorem total_checkRelease (i : Nat) : (Zone.checkRelease i).Total := by
  refine (Total.ofAct _).bind (fun released => ?_)
  cases released with
  | true => exact Total.ofRet _
  | false => exact (Total.ofRead _).bind (fun _ => Total.ofFail _)

end ZenFSProof
