import ZonedStorage.Coding.Coding
import ZonedStorage.Coding.Crc32c
import ZonedStorage.Device.Zone

namespace ZenFSModel

open ByteString

structure ZenMetaLog where
  zone : Nat
  readPos : Nat
deriving DecidableEq, Repr

namespace ZenMetaLog

def zMetaHeaderSize : Nat := 8

def physSz (bs recordSz : Nat) : Nat :=
  let size := recordSz + zMetaHeaderSize
  if size % bs ≠ 0 then size + (bs - size % bs) else size

variable [Checksum]

def recordCrc (recordSz : Nat) (data : Bytes) : Nat :=
  Checksum.extend (Checksum.extend 0 (littleEndian 4 recordSz)) data

/-- The block-aligned buffer `AddRecord` hands to the zone. -/
def recordBuffer (bs : Nat) (slice : Bytes) : Bytes :=
  let recordSz := slice.length % 2 ^ 32
  let data := slice.take recordSz
  littleEndian 4 (Checksum.mask (recordCrc recordSz data)) ++ littleEndian 4 recordSz ++ data ++
    List.replicate (physSz bs recordSz - (recordSz + zMetaHeaderSize)) 0

def open' (d : Device) (zone : Nat) : ZenMetaLog := ⟨zone, (d.zones zone).start⟩

def addRecord (zone : Nat) (slice : Bytes) : Proc Device Unit := do
  let bs ← .read (fun d => d.geo.blockSz)
  Zone.append zone (recordBuffer bs slice)

/-- While the backend reports the end of the device, the loop of `Read` goes on for ever. -/
def read (log : ZenMetaLog) (toRead : Nat) : Proc Device (Bytes × ZenMetaLog) := do
  let z ← Device.zoneAt log.zone
  if z.wp ≤ log.readPos then pure ([], log)
  else if z.start + z.maxCapacity < log.readPos + toRead then .fail (Status.ioError "Read across zone")
  else if toRead = 0 then pure ([], log)
  else
    match ← Device.read log.readPos toRead false with
    | none => .fail (Status.ioError "Read failed")
    | some bytes =>
      if bytes.length < toRead then .hang else pure (bytes, { log with readPos := log.readPos + toRead })

def alignUp (bs pos : Nat) : Nat := if pos % bs ≠ 0 then pos + (bs - pos % bs) else pos

def readRecord (log : ZenMetaLog) : Proc Device (Bytes × ZenMetaLog) := do
  let (header, log) ← log.read zMetaHeaderSize
  if header.length = 0 then pure ([], log)
  else
    let recordCrc := valueOf (header.take 4)
    let recordSz := valueOf (header.drop 4)
    let (record, log) ← log.read recordSz
    if ZenMetaLog.recordCrc recordSz record ≠ Checksum.unmask recordCrc then
      .fail (Status.ioError "Not a valid record")
    else
      let bs ← .read (fun d => d.geo.blockSz)
      pure (record, { log with readPos := alignUp bs log.readPos })

end ZenMetaLog

end ZenFSModel
