import Mathlib.Data.List.Sort
import ZonedStorage.Device.Open
import ZonedStorage.Namespace.Recovery

namespace ZenFSModel.ZenFS

/-- A metadata zone that starts with a superblock, and its log behind that record. -/
structure Candidate where
  superblock : Superblock
  log : ZenMetaLog

def readSuperblock (zone : Nat) : Proc ZenFS (Option Candidate) := do
  let log ← .read (fun fs => ZenMetaLog.open' fs.md zone)
  match ← (onMeta log.readRecord).attempt with
  | .error _ =>
    let _ ← onMeta (Zone.release zone)
    pure none
  | .ok ([], _) =>
    let _ ← onMeta (Zone.release zone)
    pure none
  | .ok (superRecord, log) =>
    let superblock ← .ofExcept (Superblock.decodeFrom superRecord)
    let geo ← .read (fun fs => fs.md.geo)
    .ofExcept (superblock.compatibleWith geo)
    pure (some ⟨superblock, log⟩)

def findSuperblocks : List Nat → Proc ZenFS (List Candidate)
  | [] => pure []
  | zone :: rest => do
    if ← onMeta (Zone.acquire zone) then
      let found ← readSuperblock zone
      let more ← findSuperblocks rest
      pure (found.toList ++ more)
    else
      let nr ← .read (fun fs => Zone.getZoneNr fs.md (fs.md.zones zone))
      .fail (Status.aborted ("Could not aquire busy flag of zone" ++ toString nr))

/-- By descending sequence number, and among equal ones the later zone first. -/
def bySequence (candidates : List Candidate) : List Candidate :=
  (candidates.zipIdx.insertionSort (fun a b =>
    b.1.superblock.sequence < a.1.superblock.sequence ∨
      b.1.superblock.sequence = a.1.superblock.sequence ∧ b.2 ≤ a.2)).map (·.1)

def recoverFirst : List Candidate → Proc ZenFS (Candidate × List Candidate)
  | [] => .fail (Status.ioError "Failed to mount filesystem")
  | candidate :: rest => do
    match ← (recoverFrom candidate.log).attempt with
    | .ok log => pure (⟨candidate.superblock, log⟩, rest)
    | .error status =>
      if status.isNotFound then
        let _ ← onMeta (Zone.release candidate.log.zone)
        recoverFirst rest
      else .fail status

/-- The first half of `Mount`: find the superblocks and recover from the newest zone that has a
    snapshot. -/
def mountRecover : Proc ZenFS Unit := do
  let zones ← .read (fun fs => fs.md.onlineZones)
  if zones.length < 2 then .fail (Status.notSupported "")
  else
    let candidates ← findSuperblocks zones
    if candidates.isEmpty then .fail (Status.notFound "No valid superblock found" "")
    else
      let (chosen, others) ← recoverFirst (bySequence candidates)
      .update (fun fs =>
        { fs with
          metaLog := chosen.log
          superblock := chosen.superblock
          zbd := { fs.zbd with finishThreshold := chosen.superblock.finishTreshold.toNat }
          persisted := fs.objects })
      target
      others.forM (fun candidate => do
        let _ ← onMeta (Zone.release candidate.log.zone))

/-- A new `ZenFS` object in a new process, over the device as the last one left it. -/
def restart (fs : ZenFS) (metaReplies ioReplies : Nat → Reply) (maxNrActiveZones maxNrOpenZones : Nat) : ZenFS :=
  { fs with
    zbd := ZonedBlockDevice.openDevice (fs.zbd.dev.reopen ioReplies) maxNrActiveZones maxNrOpenZones
    md := fs.md.reopen metaReplies
    files := ∅
    objects := fun _ => ZoneFile.new 0
    nextRef := 0
    handles := fun _ => 0
    nextWriter := 0
    nextFileId := 1
    persisted := fun _ => ZoneFile.new 0
    attempts := []
    persists := [] }

end ZenFSModel.ZenFS
