import ZonedStorage.Device.Zone

namespace ZenFSModel.Device

def MIGRATE_STEP : Nat := 128 * 1024

def padSz (blockSz size : Nat) : Nat := if size % blockSz = 0 then 0 else blockSz - size % blockSz

/-- The copy loop of `MigrateData`. What `Append` returns is dropped, and a read that ends early is
    appended as far as it went. -/
def migrateLoop (targetZone : Nat) : Nat → Nat → Nat → Proc Device Unit
  | _, _, 0 => pure ()
  | 0, _, _ + 1 => .hang
  | rounds + 1, offset, length + 1 => do
    let readSz := min (length + 1) MIGRATE_STEP
    let blockSz ← .read (fun d => d.geo.blockSz)
    match ← read offset (readSz + padSz blockSz readSz) true with
    | none => .fail (Status.ioError "strerror(errno)")
    | some bytes =>
      let _ ← (Zone.append targetZone bytes).attempt
      migrateLoop targetZone rounds (offset + bytes.length) (length + 1 - readSz)

/-- `length` is a `uint32_t`. -/
def migrateData (offset length targetZone : Nat) : Proc Device Unit := do
  let blockSz ← .read (fun d => d.geo.blockSz)
  if offset % blockSz ≠ 0 then .fail (Status.ioError "MigrateData offset is not aligned!\n")
  else migrateLoop targetZone (length % 2 ^ 32) offset (length % 2 ^ 32)

end ZenFSModel.Device
