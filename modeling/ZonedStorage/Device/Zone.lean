import ZonedStorage.Device.Status
import ZonedStorage.Bytes.Memory

namespace ZenFSModel

open ByteString

structure WriteLifeTimeHint where
  value : UInt32
deriving DecidableEq, Repr

namespace WriteLifeTimeHint

def notSet : WriteLifeTimeHint := ⟨0⟩

def none : WriteLifeTimeHint := ⟨1⟩

def medium : WriteLifeTimeHint := ⟨3⟩

end WriteLifeTimeHint

/-- What the backend reports about itself when it is opened. -/
structure Geometry where
  blockSz : Nat
  zoneSz : Nat
  nrZones : Nat
  sector_le : 512 ≤ blockSz
  block_lt : blockSz < 2 ^ 31
  block_dvd : blockSz ∣ zoneSz
  zone_pos : 0 < zoneSz
  zone_lt : zoneSz / blockSz < 2 ^ 32
  nrZones_lt : nrZones < 2 ^ 32
  device_lt : nrZones * zoneSz < 2 ^ 63

structure Zone where
  start : Nat
  capacity : Nat
  maxCapacity : Nat
  wp : Nat
  lifetime : WriteLifeTimeHint
  usedCapacity : Nat
  busy : Bool
deriving DecidableEq, Repr

namespace Zone

def isUsed (z : Zone) : Bool := decide (0 < z.usedCapacity)

def isFull (z : Zone) : Bool := z.capacity == 0

def isEmpty (z : Zone) : Bool := z.wp == z.start

end Zone

/-- How the backend answers one call. A write that succeeds takes at least one block and may
    take fewer than it was given, so a crash can fall after any block of an append. A read that
    does not succeed fails, or at `eof` it ends before its first byte. -/
structure Reply where
  ok : Bool
  moreBlocks : Nat
  offline : Bool
  eof : Bool
deriving DecidableEq, Repr

/-- A set of zones on the backend with the bytes below their write pointers. -/
structure Device where
  geo : Geometry
  count : Nat
  zones : Nat → Zone
  offline : Nat → Bool
  mem : Memory
  replies : Nat → Reply
  calls : Nat

namespace Device

def reply (d : Device) : Reply := d.replies d.calls

def answered (d : Device) : Device := { d with calls := d.calls + 1 }

def setZone (d : Device) (i : Nat) (z : Zone) : Device := { d with zones := Function.update d.zones i z }

def taken (d : Device) (size : Nat) : Nat := min ((d.reply.moreBlocks + 1) * d.geo.blockSz) size

def backendWrite (i : Nat) (data : Bytes) (d : Device) : Option Nat × Device :=
  if d.reply.ok then
    let z := d.zones i
    let n := d.taken data.length
    (some n, ({ d with mem := d.mem.write z.wp (data.take n) }.setZone i
      { z with wp := z.wp + n, capacity := z.capacity - n }).answered)
  else (none, d.answered)

def backendRead (size offset : Nat) (direct : Bool) (d : Device) : Option Bytes × Device :=
  if direct && !(offset % d.geo.blockSz == 0 && size % d.geo.blockSz == 0) then (none, d)
  else if d.reply.ok then (some (d.mem.read offset (d.taken size)), d.answered)
  else (if d.reply.eof then some [] else none, d.answered)

def backendReset (i : Nat) (d : Device) : Option Status × Device :=
  if d.reply.ok then
    let z := d.zones i
    let cleared := { d with
      mem := d.mem.clear z.start (z.start + d.geo.zoneSz)
      offline := Function.update d.offline i d.reply.offline }
    let capacity := if d.reply.offline then 0 else z.maxCapacity
    (none, (cleared.setZone i
      { z with capacity := capacity, wp := z.start, lifetime := WriteLifeTimeHint.notSet }).answered)
  else (some (Status.ioError "Zone reset failed\n"), d.answered)

def backendFinish (i : Nat) (d : Device) : Option Status × Device :=
  if d.reply.ok then
    let z := d.zones i
    (none, (d.setZone i { z with capacity := 0, wp := z.start + d.geo.zoneSz }).answered)
  else (some (Status.ioError "Zone finish failed\n"), d.answered)

def backendClose (d : Device) : Option Status × Device :=
  if d.reply.ok then (none, d.answered) else (some (Status.ioError "Zone close failed\n"), d.answered)

def check : Option Status → Proc Device Unit
  | none => pure ()
  | some status => .fail status

def zoneAt (i : Nat) : Proc Device Zone := .read (fun d => d.zones i)

end Device

open Device

namespace Zone

def reset (i : Nat) : Proc Device Unit := do
  check (← .act (backendReset i))

def finish (i : Nat) : Proc Device Unit := do
  check (← .act (backendFinish i))

def close (i : Nat) : Proc Device Unit := do
  let z ← zoneAt i
  if z.isEmpty || z.isFull then pure () else check (← .act backendClose)

def appendLoop (i : Nat) : Nat → Bytes → Proc Device Unit
  | _, [] => pure ()
  | 0, _ :: _ => .hang
  | rounds + 1, data => do
    match ← .act (backendWrite i data) with
    | none => .fail (Status.ioError "strerror(errno)")
    | some ret => appendLoop i rounds (data.drop ret)

def append (i : Nat) (buffer : Bytes) : Proc Device Unit := do
  let data := buffer.take (buffer.length % 2 ^ 32)
  let z ← zoneAt i
  if z.capacity < data.length then .fail (Status.noSpace "Not enough capacity for append")
  else appendLoop i data.length data

def acquire (i : Nat) : Proc Device Bool := .act (fun d =>
  let z := d.zones i
  if z.busy then (false, d) else (true, d.setZone i { z with busy := true }))

def release (i : Nat) : Proc Device Bool := .act (fun d =>
  let z := d.zones i
  if z.busy then (true, d.setZone i { z with busy := false }) else (false, d))

def getZoneNr (d : Device) (z : Zone) : Nat := z.start / d.geo.zoneSz

def checkRelease (i : Nat) : Proc Device Unit := do
  if ← release i then pure ()
  else
    let nr ← .read (fun d => getZoneNr d (d.zones i))
    .fail (Status.corruption ("Failed to unset busy flag of zone " ++ toString nr) "")

end Zone

namespace Device

def readLoop (direct : Bool) : Nat → Nat → Nat → Bytes → Proc Device (Option Bytes)
  | _, _, 0, buf => pure (some buf)
  | 0, _, _ + 1, _ => .hang
  | rounds + 1, offset, left + 1, buf => do
    match ← .act (backendRead (left + 1) offset direct) with
    | none => pure none
    | some [] => pure (some buf)
    | some bytes => readLoop direct rounds (offset + bytes.length) (left + 1 - bytes.length) (buf ++ bytes)

/-- `Read` takes its size as an `int`: from `2^31` on it is negative and the backend refuses it. With nothing to read it
    fails. The answer is short if the backend reports the end of the device. -/
def read (offset n : Nat) (direct : Bool) : Proc Device (Option Bytes) :=
  if n % 2 ^ 32 = 0 ∨ 2 ^ 31 ≤ n % 2 ^ 32 then pure none
  else readLoop direct (n % 2 ^ 32) offset (n % 2 ^ 32) []

end Device

end ZenFSModel
