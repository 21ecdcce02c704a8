import ZonedStorage.Names.Mentions

namespace ZenFSProof

open Resumption.Prog ZenFSModel ZenFSModel.ZenFS ZonedWritableFile

def closeFailure (rounds w : Nat) (fs : ZenFS) : Option Status :=
  match (closeInternal rounds w).run fs with
  | some (.error status, _) => some status
  | _ => none

/-- A call of `AllocateIOZone`: the status of the first implicit close that had failed before, the state it was made
    in, its arguments and its result. -/
structure ZoneRequest where
  failure : Option Status
  before : ZenFS
  lifetime : WriteLifeTimeHint
  ioType : IOType
  result : Except Status (Option Nat)

/-- A file system in use, with the status of the first implicit close that has failed and the zones asked for. -/
structure Deferral where
  fs : ZenFS
  failure : Option Status
  requests : List ZoneRequest

/-- Destructors and allocations one after the other. Anything else may happen between them, so the allocations made
    by an append are steps of a run as well. -/
inductive DeferralRun (rounds : Nat) (start : ZenFS) : Deferral → Prop where
  | start : DeferralRun rounds start ⟨start, none, []⟩
  | destroy {s : Deferral} {w : Nat} {result : Except Status Unit} {fs : ZenFS} (before : DeferralRun rounds start s)
    (ran : (ZonedWritableFile.destroy rounds w).run s.fs = some (result, fs)) :
    DeferralRun rounds start { s with fs := fs, failure := s.failure <|> closeFailure rounds w s.fs }
  | allocate {s : Deferral} {lifetime : WriteLifeTimeHint} {ioType : IOType} {result : Except Status (Option Nat)}
    {fs : ZenFS} (before : DeferralRun rounds start s)
    (ran : (onZbd (ZonedBlockDevice.allocateIOZone rounds lifetime ioType)).run s.fs = some (result, fs)) :
    DeferralRun rounds start
      { s with fs := fs, requests := ⟨s.failure, s.fs, lifetime, ioType, result⟩ :: s.requests }
  | other {s : Deferral} (fs : ZenFS) (before : DeferralRun rounds start s)
    (same : fs.zbd.zoneDeferredStatus = s.fs.zbd.zoneDeferredStatus) : DeferralRun rounds start { s with fs := fs }

/-- Every allocation after a failed close has returned the status of the first one. -/
def Surfaces (s : Deferral) : Prop :=
  ∀ request ∈ s.requests, ∀ status, request.failure = some status → request.result = .error status

def undeferred (fs : ZenFS) : ZenFS := { fs with zbd := { fs.zbd with zoneDeferredStatus := none } }

/-- The allocation fails with the status also where no error is deferred. -/
def FailsAlone (rounds : Nat) (request : ZoneRequest) (status : Status) : Prop :=
  ∃ fs, (onZbd (ZonedBlockDevice.allocateIOZone rounds request.lifetime request.ioType)).run
    (undeferred request.before) = some (.error status, fs)

variable {rounds : Nat}

theorem destroy_undeferred {w : Nat} {result : Except Status Unit} {fs fs' : ZenFS}
    (ran : (ZonedWritableFile.destroy rounds w).run fs = some (result, fs')) : Undeferred fs.zbd fs'.zbd :=
  have mentions : IfDone (ZonedWritableFile.destroy rounds w) (fun _ fs' => Mentions (fun _ => True) fs fs') fs :=
    Mentions.destroy (fun _ => trivial) rounds
  ((wp_partial_iff _ _ _).mp mentions _ _ ran).deferred

theorem allocate_undeferred {lifetime : WriteLifeTimeHint} {ioType : IOType} {result : Except Status (Option Nat)}
    {fs fs' : ZenFS} (ran : (onZbd (ZonedBlockDevice.allocateIOZone rounds lifetime ioType)).run fs = some (result, fs')) :
    Undeferred fs.zbd fs'.zbd :=
  have keeps : (onZbd (ZonedBlockDevice.allocateIOZone rounds lifetime ioType)).Keeps (Mentions (fun _ => True)) :=
    Mentions.onBehind (Finishes.any.allocateIOZone rounds lifetime ioType)
  ((wp_partial_iff _ _ _).mp (Mentions.ifDone keeps fs) _ _ ran).deferred

/-- The status was OK when the zone was asked for, and the result is that of the allocation then. -/
structure Undisturbed (rounds : Nat) (request : ZoneRequest) : Prop where
  unset : request.before.zbd.zoneDeferredStatus = none
  ran : ∃ fs, (onZbd (ZonedBlockDevice.allocateIOZone rounds request.lifetime request.ioType)).run request.before =
    some (request.result, fs)

theorem Undisturbed.result_iff {request : ZoneRequest} (undisturbed : Undisturbed rounds request) (status : Status) :
    request.result = .error status ↔ FailsAlone rounds request status := by
  have same : undeferred request.before = request.before := by
    rw [undeferred, ← undisturbed.unset]
  obtain ⟨fs, ran⟩ := undisturbed.ran
  rw [FailsAlone, same, ran]
  simp

/-- No run that starts with an OK status ever stores another one. -/
theorem DeferralRun.undisturbed {start : ZenFS} {s : Deferral} (unset : start.zbd.zoneDeferredStatus = none)
    (run : DeferralRun rounds start s) :
    s.fs.zbd.zoneDeferredStatus = none ∧ ∀ request ∈ s.requests, Undisturbed rounds request := by
  induction run with
  | start => exact ⟨unset, fun _ among => absurd among List.not_mem_nil⟩
  | destroy before ran ih => exact ⟨destroy_undeferred ran ih.1, ih.2⟩
  | allocate before ran ih =>
    refine ⟨allocate_undeferred ran ih.1, fun request among => ?_⟩
    rcases List.mem_cons.mp among with rfl | earlier
    · exact ⟨ih.1, _, ran⟩
    · exact ih.2 request earlier
  | other fs before same ih => exact ⟨same.trans ih.1, ih.2⟩

theorem DeferralRun.failed_then_allocate {w : Nat} {start gone fs : ZenFS} {status : Status}
    {closed : Except Status Unit}
    {lifetime : WriteLifeTimeHint} {ioType : IOType} {result : Except Status (Option Nat)}
    (failure : closeFailure rounds w start = some status)
    (destroys : (ZonedWritableFile.destroy rounds w).run start = some (closed, gone))
    (allocates : (onZbd (ZonedBlockDevice.allocateIOZone rounds lifetime ioType)).run gone = some (result, fs)) :
    DeferralRun rounds start ⟨fs, some status, [⟨some status, gone, lifetime, ioType, result⟩]⟩ := by
  have run : DeferralRun rounds start _ := .allocate (.destroy .start destroys) allocates
  simp only [failure] at run
  exact run

def refusing : ZenFS := (oneBlockZones (fun _ => ⟨false, 1000, false, false⟩) []).fs

def destroyed (fs : ZenFS) : Option (Except Status Unit × ZenFS) := (ZonedWritableFile.destroy 8 0).run fs

def allocation (fs : ZenFS) : Option (Except Status (Option Nat) × ZenFS) :=
  (onZbd (ZonedBlockDevice.allocateIOZone 8 .medium .kWAL)).run fs

/-- The one zone that may be active is in use, and the device refuses to finish it. -/
def starved : ZenFS :=
  { sampleZenFS with
    zbd := ZonedBlockDevice.openDevice { sampleDevice 3 4 with
      zones := Function.update (sampleDevice 3 4).zones 0 { sampleZone 3 with capacity := 15872, wp := 49664 }
      replies := fun _ => ⟨false, 0, false, false⟩ } 3 0
    writers := fun w => { sampleZenFS.writers w with bufferPos := 512 } }

end ZenFSProof
