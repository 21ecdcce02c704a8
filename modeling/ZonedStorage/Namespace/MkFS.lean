import ZonedStorage.Namespace.Mount

namespace ZenFSModel

open ByteString

namespace Superblock

/-- `strncpy` into a zeroed character array, which keeps one zero at the end. -/
def chars (size : Nat) (text : Bytes) : Bytes :=
  text.take (size - 1) ++ List.replicate (size - (text.take (size - 1)).length) 0

theorem chars_length {size : Nat} (positive : 0 < size) (text : Bytes) : (chars size text).length = size := by
  have short : (text.take (size - 1)).length ≤ size - 1 := List.length_take_le _ _
  simp only [chars, List.length_append, List.length_replicate]
  omega

def make (geo : Geometry) (uuid auxFsPath zenfsVersion : Bytes) (finishThreshold : UInt32) (enableGC : Bool) :
    Superblock where
  magic := MAGIC
  uuid := chars 37 uuid
  sequence := 0
  superblockVersion := CURRENT_SUPERBLOCK_VERSION
  flags := if enableGC then FLAGS_ENABLE_GC else 0
  blockSize := UInt32.ofNat geo.blockSz
  zoneSize := UInt32.ofNat (geo.zoneSz / geo.blockSz)
  nrZones := UInt32.ofNat geo.nrZones
  finishTreshold := finishThreshold
  auxFsPath := chars 256 auxFsPath
  zenfsVersion := chars 64 zenfsVersion
  reserved := List.replicate 123 0
  uuid_length := chars_length (by decide) uuid
  auxFsPath_length := chars_length (by decide) auxFsPath
  zenfsVersion_length := chars_length (by decide) zenfsVersion
  reserved_length := List.length_replicate ..

end Superblock

namespace ZenFS

/-- Reset all metadata zones; the first one that works becomes the zone of the log. -/
def resetMetaZones : List Nat → Option Nat → Proc Device (Option Nat)
  | [], metaZone => pure metaZone
  | mz :: rest, metaZone => do
    if ← Zone.acquire mz then
      let metaZone ← match ← (Zone.reset mz).attempt with
        | .ok () => pure (metaZone.orElse (fun _ => some mz))
        | .error _ => pure metaZone
      if metaZone = some mz then resetMetaZones rest metaZone
      else if ← Zone.release mz then resetMetaZones rest metaZone
      else
        let nr ← .read (fun d => Zone.getZoneNr d (d.zones mz))
        .fail (Status.aborted ("Could not unset busy flag of zone " ++ toString nr))
    else
      let nr ← .read (fun d => Zone.getZoneNr d (d.zones mz))
      .fail (Status.aborted ("Could not aquire busy flag of zone " ++ toString nr))

def mkFS (auxFsP uuid zenfsVersion : Bytes) (finishThreshold : UInt32) (enableGC : Bool) : Proc ZenFS Unit := do
  let auxFsPath := formatPathLexically auxFsP
  if 255 < auxFsPath.length then
    .fail (Status.invalidArgument "Aux filesystem path must be less than 256 bytes\n")
  else
    clearFiles
    resetUnusedIOZones
    let zones ← .read (fun fs => List.range fs.md.count)
    match ← onMeta (resetMetaZones zones none) with
    | none => .fail (Status.ioError "Not available meta zones\n")
    | some metaZone =>
      let geo ← .read (fun fs => fs.md.geo)
      let super := Superblock.make geo uuid auxFsPath zenfsVersion finishThreshold enableGC
      match ← (onMeta (ZenMetaLog.addRecord metaZone super.encodeTo.1)).attempt with
      | .error status =>
        let _ ← onMeta (Zone.release metaZone)
        .fail status
      | .ok () =>
        match ← (writeSnapshotLocked metaZone).attempt with
        | .error _ =>
          let _ ← onMeta (Zone.release metaZone)
          .fail (Status.ioError "Failed persist snapshot")
        | .ok () =>
          let _ ← onMeta (Zone.release metaZone)

end ZenFS

end ZenFSModel

namespace ZenFSProof

open ByteString ZenFSModel ZenFSModel.ZenFS
open ZenFSModel.ZenMetaLog (recordBuffer)

def path (text : String) : Name := text.toUTF8.toList

def sampleSuperblock : Superblock := (Superblock.make sampleGeometry [] [] [] 0 false).next

def sampleMeta : Device :=
  { sampleDevice 0 3 with
    zones := Function.update (sampleDevice 0 3).zones 0 { sampleZone 0 with capacity := 14848, wp := 1536, busy := true }
    mem := (Memory.zero.write 0 (recordBuffer 512 sampleSuperblock.encode)).write 1024
      (recordBuffer 512 (taggedRecord .kCompleteFilesSnapshot [])) }

/-- A new file system that has just been mounted. -/
def sampleZenFS : ZenFS where
  zbd := ZonedBlockDevice.openDevice (sampleDevice 3 4) 0 0
  md := sampleMeta
  metaLog := ⟨0, 0⟩
  superblock := sampleSuperblock
  files := ∅
  objects _ := ZoneFile.new 0
  nextRef := 0
  handles _ := 0
  writers _ := makeWriter 512 0 (ZoneFile.new 0) true
  nextWriter := 0
  nextFileId := 1
  answers _ := ⟨none, [], false, 0⟩
  asked := 0
  persisted _ := ZoneFile.new 0
  attempts := []
  persists := []

end ZenFSProof
