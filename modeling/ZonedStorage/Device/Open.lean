import ZonedStorage.Device.ZonedBlockDevice

namespace ZenFSModel

/-- The `Zone` object made from the zone report. The device reports the write pointer of a full zone
    as the end of the zone, also where the capacity ends before it. -/
def Zone.report (geo : Geometry) (z : Zone) : Zone where
  start := z.start
  capacity := if z.isFull then 0 else z.maxCapacity - (z.wp - z.start)
  maxCapacity := z.maxCapacity
  wp := if z.isFull then z.start + geo.zoneSz else z.wp
  lifetime := WriteLifeTimeHint.notSet
  usedCapacity := 0
  busy := false

def Device.reopen (d : Device) (replies : Nat → Reply) : Device :=
  { d with zones := fun i => (d.zones i).report d.geo, replies := replies, calls := 0 }

/-- `Open` makes no `Zone` object for a zone that is offline. -/
def Device.onlineZones (d : Device) : List Nat := (List.range d.count).filter (fun i => !d.offline i)

namespace ZonedBlockDevice

/-- Two zones are reserved, one for metadata and one for migration, in `unsigned int`. -/
def ioZoneLimit (nrZones limit : Nat) : Nat := if limit = 0 then nrZones else (limit + (2 ^ 32 - 2)) % 2 ^ 32

def isActive (z : Zone) : Bool := !z.isEmpty && !z.isFull

def openDevice (dev : Device) (maxNrActiveZones maxNrOpenZones : Nat) : ZonedBlockDevice where
  dev := dev
  activeIoZones := ((List.range dev.count).filter (fun i => isActive (dev.zones i))).length
  openIoZones := 0
  maxNrActiveIoZones := ioZoneLimit dev.geo.nrZones maxNrActiveZones
  maxNrOpenIoZones := ioZoneLimit dev.geo.nrZones maxNrOpenZones
  finishThreshold := 0
  migrating := false
  zoneDeferredStatus := none

end ZonedBlockDevice

end ZenFSModel

namespace ZenFSProof

open ByteString ZenFSModel

def sampleGeometry : Geometry where
  blockSz := 512
  zoneSz := 16384
  nrZones := 32
  sector_le := by decide
  block_lt := by decide
  block_dvd := by decide
  zone_pos := by decide
  zone_lt := by decide
  nrZones_lt := by decide
  device_lt := by decide

def sampleZone (i : Nat) : Zone := ⟨i * 16384, 16384, 16384, i * 16384, .notSet, 0, false⟩

def sampleDevice (first count : Nat) : Device where
  geo := sampleGeometry
  count := count
  zones i := sampleZone (first + i)
  offline _ := false
  mem := Memory.zero
  replies _ := ⟨true, 1000, false, false⟩
  calls := 0

def alwaysOk : Nat → Reply := fun _ => ⟨true, 1000, false, false⟩

end ZenFSProof
