import Mathlib.Logic.Relation
import ZonedStorage.Device.MigrateData
import ZonedStorage.Device.Open
import ZonedStorage.Device.Passes

namespace ZenFSModel

open Resumption ZonedBlockDevice

/-- Where a caller of `MigrateFileExtents` stands: before its next `TakeMigrateZone`, after one that
    found no zone, or with the zone that it has taken. -/
inductive Caller where
  | ready
  | refused
  | holding (zone : Nat)
deriving DecidableEq, Repr

def Caller.took : Except Status (Option Nat) → Caller
  | .error _ => .ready
  | .ok none => .refused
  | .ok (some zone) => .holding zone

structure Callers where
  zbd : ZonedBlockDevice
  callers : Nat → Caller

def Callers.move (m : Callers) (t : Nat) (caller : Caller) (zbd : ZonedBlockDevice) : Callers :=
  ⟨zbd, Function.update m.callers t caller⟩

/-- One atomic step of a caller. `release` is where a caller without a zone may call `ReleaseMigrateZone`,
    and `other` is a step of anyone who is not migrating. -/
inductive CallerStep (release : Callers → Prop) (m : Callers) : Callers → Prop where
  | take (t : Nat) (lifetime : WriteLifeTimeHint) (minCapacity : Nat) (result : Except Status (Option Nat))
    (zbd : ZonedBlockDevice) (ready : m.callers t = .ready)
    (ran : (takeMigrateZone lifetime minCapacity).run m.zbd = some (result, zbd)) :
    CallerStep release m (m.move t (.took result) zbd)
  | giveUp (t : Nat) (result : Except Status Unit) (zbd : ZonedBlockDevice) (refused : m.callers t = .refused)
    (allowed : release m) (ran : (releaseMigrateZone none).run m.zbd = some (result, zbd)) :
    CallerStep release m (m.move t .ready zbd)
  | copy (t zone offset length : Nat) (result : Except Status Unit) (zbd : ZonedBlockDevice)
    (holds : m.callers t = .holding zone)
    (ran : (onDev (Device.migrateData offset length zone)).run m.zbd = some (result, zbd)) :
    CallerStep release m (m.move t (.holding zone) zbd)
  | giveBack (t zone : Nat) (result : Except Status Unit) (zbd : ZonedBlockDevice)
    (holds : m.callers t = .holding zone)
    (ran : (releaseMigrateZone (some zone)).run m.zbd = some (result, zbd)) :
    CallerStep release m (m.move t .ready zbd)
  | other (zbd : ZonedBlockDevice) (same : zbd.migrating = m.zbd.migrating) :
    CallerStep release m ⟨zbd, m.callers⟩

abbrev CallerRun (release : Callers → Prop) : Callers → Callers → Prop := Relation.ReflTransGen (CallerStep release)

end ZenFSModel

namespace ZenFSProof

open Resumption Resumption.Prog ZenFSModel ZenFSModel.ZonedBlockDevice ZonedBlockDevice

theorem Behind.sameMigrating {α : Type} {p : Proc ZonedBlockDevice α} (keeps : p.Keeps (Behind (fun _ _ => True)))
    {zbd zbd' : ZonedBlockDevice} {result : Except Status α} (ran : p.run zbd = some (result, zbd')) :
    zbd'.migrating = zbd.migrating := by
  have moves := keeps.wp_of Marks.any.still (Behind.trans (fun _ _ _ _ _ => trivial)) zbd
  exact ((wp_partial_iff _ _ _).mp (wp_weaken (fun _ _ => trivial) id moves) result zbd' ran).migrating

theorem takeMigrateZone_migrating {lifetime : WriteLifeTimeHint} {minCapacity : Nat} {zbd zbd' : ZonedBlockDevice}
    {result : Except Status (Option Nat)} (ran : (takeMigrateZone lifetime minCapacity).run zbd = some (result, zbd')) :
    zbd.migrating = false ∧ (zbd'.migrating = true ↔ ∃ zone, result = .ok (some zone)) := by
  cases free : zbd.migrating with
  | true =>
    rw [takeMigrateZone, run_bind] at ran
    simp only [await, run, free, if_true] at ran
    cases ran
  | false =>
    refine ⟨rfl, ?_⟩
    rw [takeMigrateZone, run_bind] at ran
    simp only [await, run, free, Bool.false_eq_true, if_false, run_bind, run_attempt] at ran
    cases found : (getBestOpenZoneMatch lifetime (minCapacity % 2 ^ 32)).run { zbd with migrating := true } with
    | none =>
      rw [found] at ran
      cases ran
    | some outcome =>
      have kept := Behind.sameMigrating (Marks.any.getBestOpenZoneMatch lifetime (minCapacity % 2 ^ 32)) found
      rw [found] at ran
      obtain ⟨answer, zbd₁⟩ := outcome
      cases answer with
      | error status =>
        cases ran
        simp
      | ok best =>
        obtain ⟨bestDiff, zone⟩ := best
        cases zone with
        | none =>
          cases ran
          simp
        | some zone =>
          cases ran
          exact ⟨fun _ => ⟨zone, rfl⟩, fun _ => kept⟩

def NoHolder (m : Callers) : Prop := ∀ t zone, m.callers t ≠ .holding zone

def OneHolder (m : Callers) : Prop :=
  ∀ t u i j, m.callers t = .holding i → m.callers u = .holding j → t = u

structure Guarded (m : Callers) : Prop where
  covered : ∀ t zone, m.callers t = .holding zone → m.zbd.migrating = true
  one : OneHolder m

section

variable {m : Callers} {t : Nat} {zbd : ZonedBlockDevice}

theorem move_self (m : Callers) (t : Nat) (caller : Caller) (zbd : ZonedBlockDevice) :
    (m.move t caller zbd).callers t = caller := Function.update_self ..

theorem move_other (m : Callers) {u : Nat} (caller : Caller) (zbd : ZonedBlockDevice) (other : u ≠ t) :
    (m.move t caller zbd).callers u = m.callers u := Function.update_of_ne other ..

theorem NoHolder.guarded (none : NoHolder m) : Guarded m :=
  ⟨fun t zone holds => absurd holds (none t zone), fun t _ i _ holds => absurd holds (none t i)⟩

theorem NoHolder.move (none : NoHolder m) {caller : Caller} (idle : ∀ zone, caller ≠ .holding zone) :
    NoHolder (m.move t caller zbd) := by
  intro u zone holds
  by_cases same : u = t
  · subst same
    rw [move_self] at holds
    exact idle zone holds
  · rw [move_other m caller zbd same] at holds
    exact none u zone holds

theorem NoHolder.took (none : NoHolder m) (zone : Nat) (covered : zbd.migrating = true) :
    Guarded (m.move t (.holding zone) zbd) := by
  have only : ∀ u i, (m.move t (.holding zone) zbd).callers u = .holding i → u = t := by
    intro u i holds
    by_cases same : u = t
    · exact same
    · rw [move_other m _ zbd same] at holds
      exact absurd holds (none u i)
  exact ⟨fun _ _ _ => covered, fun u v i j first second => (only u i first).trans (only v j second).symm⟩

theorem Guarded.gives (guarded : Guarded m) {zone : Nat} (holds : m.callers t = .holding zone) :
    NoHolder (m.move t .ready zbd) := by
  intro u i held
  by_cases same : u = t
  · subst same
    rw [move_self] at held
    cases held
  · rw [move_other m _ zbd same] at held
    exact same (guarded.one u t i zone held holds)

theorem Guarded.idle (guarded : Guarded m) (free : m.zbd.migrating = false) : NoHolder m := by
  intro t zone holds
  have busy := guarded.covered t zone holds
  rw [free] at busy
  cases busy

theorem guarded_step {m' : Callers} (step : CallerStep NoHolder m m') (guarded : Guarded m) : Guarded m' := by
  cases step with
  | take t lifetime minCapacity result zbd ready ran =>
    obtain ⟨free, flag⟩ := takeMigrateZone_migrating ran
    have none := guarded.idle free
    cases result with
    | error status => exact (none.move (fun _ holds => by cases holds)).guarded
    | ok found =>
      cases found with
      | none => exact (none.move (fun _ holds => by cases holds)).guarded
      | some zone => exact none.took zone (flag.mpr ⟨zone, rfl⟩)
  | giveUp t result zbd refused allowed ran =>
    exact (allowed.move (fun _ holds => by cases holds)).guarded
  | copy t zone offset length result zbd holds ran =>
    have kept : zbd.migrating = m.zbd.migrating := Behind.sameMigrating (Marks.onDev (Keeps.all _)) ran
    have same : m.move t (.holding zone) zbd = ⟨zbd, m.callers⟩ := by
      rw [Callers.move, ← holds, Function.update_eq_self]
    rw [same]
    exact ⟨fun u i held => kept.trans (guarded.covered u i held), guarded.one⟩
  | giveBack t zone result zbd holds ran => exact (guarded.gives holds).guarded
  | other zbd same => exact ⟨fun u i held => same.trans (guarded.covered u i held), guarded.one⟩

end

/-- In every interleaving in which a caller without a zone calls `ReleaseMigrateZone` only while nobody
    holds a migration zone, at most one caller holds one. -/
theorem at_most_one_migration_zone {m m' : Callers} (start : NoHolder m) (run : CallerRun NoHolder m m') :
    OneHolder m' := by
  have guarded : Guarded m' := by
    induction run with
    | refl => exact start.guarded
    | tail _ step ih => exact guarded_step step ih
  exact guarded.one

def twoOpenZones : ZonedBlockDevice where
  dev := { sampleDevice 0 2 with
    zones := fun i => { sampleZone i with
      capacity := 8192, wp := i * 16384 + 8192, lifetime := .medium, usedCapacity := 4096 } }
  activeIoZones := 2
  openIoZones := 0
  maxNrActiveIoZones := 4
  maxNrOpenIoZones := 4
  finishThreshold := 0
  migrating := false
  zoneDeferredStatus := none

def allReady : Callers := ⟨twoOpenZones, fun _ => .ready⟩

/-- The first caller asks for more room than there is, the second takes a zone, the first gives up,
    and the third takes a zone. -/
def firstRefused : Callers :=
  allReady.move 0 .refused (((takeMigrateZone .medium 16384).run twoOpenZones).elim twoOpenZones (·.2))

def secondHolds : Callers :=
  firstRefused.move 1 (.holding 1) (((takeMigrateZone .medium 4096).run firstRefused.zbd).elim twoOpenZones (·.2))

def firstGaveUp : Callers :=
  secondHolds.move 0 .ready (((releaseMigrateZone none).run secondHolds.zbd).elim twoOpenZones (·.2))

def thirdHolds : Callers :=
  firstGaveUp.move 2 (.holding 0) (((takeMigrateZone .medium 4096).run firstGaveUp.zbd).elim twoOpenZones (·.2))

theorem allReady_noHolder : NoHolder allReady := by
  intro t zone holds
  cases holds

/-- Two callers hold a migration zone at the same time. -/
theorem two_migration_zones : NoHolder allReady ∧ allReady.zbd.migrating = false ∧
    CallerRun (fun _ => True) allReady thirdHolds ∧ ¬ OneHolder thirdHolds := by
  refine ⟨allReady_noHolder, rfl, ?_, ?_⟩
  · have refused : CallerStep (fun _ => True) allReady firstRefused :=
      .take 0 .medium 16384 (.ok none) _ rfl (run_eq_some (by decide +kernel))
    have held : CallerStep (fun _ => True) firstRefused secondHolds :=
      .take 1 .medium 4096 (.ok (some 1)) _ rfl (run_eq_some (by decide +kernel))
    have released : CallerStep (fun _ => True) secondHolds firstGaveUp :=
      .giveUp 0 (.ok ()) _ rfl trivial (run_eq_some (by decide +kernel))
    have again : CallerStep (fun _ => True) firstGaveUp thirdHolds :=
      .take 2 .medium 4096 (.ok (some 0)) _ rfl (run_eq_some (by decide +kernel))
    exact (((Relation.ReflTransGen.single refused).tail held).tail released).tail again
  · intro one
    have same := one 1 2 1 0 rfl rfl
    cases same

def gaveUpFirst : Callers :=
  firstRefused.move 0 .ready (((releaseMigrateZone none).run firstRefused.zbd).elim twoOpenZones (·.2))

def holdsAfterwards : Callers :=
  gaveUpFirst.move 1 (.holding 1) (((takeMigrateZone .medium 4096).run gaveUpFirst.zbd).elim twoOpenZones (·.2))

/-- The first caller gives up before the second one takes its zone. -/
theorem one_migration_zone : holdsAfterwards.callers 1 = .holding 1 ∧ OneHolder holdsAfterwards := by
  have nobody : NoHolder firstRefused := allReady_noHolder.move (fun _ => Caller.noConfusion)
  have refused : CallerStep NoHolder allReady firstRefused :=
    .take 0 .medium 16384 (.ok none) _ rfl (run_eq_some (by decide +kernel))
  have released : CallerStep NoHolder firstRefused gaveUpFirst :=
    .giveUp 0 (.ok ()) _ rfl nobody (run_eq_some (by decide +kernel))
  have held : CallerStep NoHolder gaveUpFirst holdsAfterwards :=
    .take 1 .medium 4096 (.ok (some 1)) _ rfl (run_eq_some (by decide +kernel))
  exact ⟨rfl, at_most_one_migration_zone allReady_noHolder
    (((Relation.ReflTransGen.single refused).tail released).tail held)⟩

end ZenFSProof
