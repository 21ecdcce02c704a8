import ZonedStorage.Coding.RoundTrip
import ZonedStorage.Device.Zone

namespace ZenFSModel

open ByteString

/-- The on-disk record that opens a metadata zone. The character arrays have fixed sizes. -/
structure Superblock where
  magic : UInt32
  uuid : Bytes
  sequence : UInt32
  superblockVersion : UInt32
  flags : UInt32
  blockSize : UInt32
  zoneSize : UInt32
  nrZones : UInt32
  finishTreshold : UInt32
  auxFsPath : Bytes
  zenfsVersion : Bytes
  reserved : Bytes
  uuid_length : uuid.length = 37
  auxFsPath_length : auxFsPath.length = 256
  zenfsVersion_length : zenfsVersion.length = 64
  reserved_length : reserved.length = 123

namespace Superblock

def MAGIC : UInt32 := 0x5a454e46

def ENCODED_SIZE : Nat := 512

def CURRENT_SUPERBLOCK_VERSION : UInt32 := 2

def FLAGS_ENABLE_GC : UInt32 := 1

def putUInt32 (output : Bytes) (value : UInt32) : Bytes := putFixed32 output value.toNat

def getUInt32 (input : Bytes) : UInt32 × Bytes := (UInt32.ofNat (valueOf (input.take 4)), input.drop 4)

def getChars (size : Nat) (input : Bytes) : Bytes × Bytes := (input.take size, input.drop size)

/-- The encoding of the fields as they stand. `EncodeTo` counts the sequence up before it. -/
def encode (superblock : Superblock) : Bytes :=
  let output := putUInt32 [] superblock.magic ++ superblock.uuid
  let output := putUInt32 output superblock.sequence
  let output := putUInt32 output superblock.superblockVersion
  let output := putUInt32 output superblock.flags
  let output := putUInt32 output superblock.blockSize
  let output := putUInt32 output superblock.zoneSize
  let output := putUInt32 output superblock.nrZones
  let output := putUInt32 output superblock.finishTreshold
  output ++ superblock.auxFsPath ++ superblock.zenfsVersion ++ superblock.reserved

def next (superblock : Superblock) : Superblock := { superblock with sequence := superblock.sequence + 1 }

def encodeTo (superblock : Superblock) : Bytes × Superblock := (superblock.next.encode, superblock.next)

def decodeFrom (input : Bytes) : Except Status Superblock :=
  if size : input.length = ENCODED_SIZE then
    let magic := getUInt32 input
    let uuid := getChars 37 magic.2
    let sequence := getUInt32 uuid.2
    let superblockVersion := getUInt32 sequence.2
    let flags := getUInt32 superblockVersion.2
    let blockSize := getUInt32 flags.2
    let zoneSize := getUInt32 blockSize.2
    let nrZones := getUInt32 zoneSize.2
    let finishTreshold := getUInt32 nrZones.2
    let auxFsPath := getChars 256 finishTreshold.2
    let zenfsVersion := getChars 64 auxFsPath.2
    let reserved := getChars 123 zenfsVersion.2
    have aux_left : finishTreshold.2.length = 443 := by
      simp [finishTreshold, nrZones, zoneSize, blockSize, flags, superblockVersion, sequence, uuid, magic,
        getChars, getUInt32, size, ENCODED_SIZE]
    let superblock : Superblock := {
      magic := magic.1
      uuid := uuid.1
      sequence := sequence.1
      superblockVersion := superblockVersion.1
      flags := flags.1
      blockSize := blockSize.1
      zoneSize := zoneSize.1
      nrZones := nrZones.1
      finishTreshold := finishTreshold.1
      auxFsPath := auxFsPath.1
      zenfsVersion := zenfsVersion.1
      reserved := reserved.1
      uuid_length := by simp [uuid, magic, getChars, getUInt32, size, ENCODED_SIZE]
      auxFsPath_length := by simp [auxFsPath, getChars, aux_left]
      zenfsVersion_length := by simp [zenfsVersion, auxFsPath, getChars, aux_left]
      reserved_length := by simp [reserved, zenfsVersion, auxFsPath, getChars, aux_left] }
    if superblock.magic ≠ MAGIC then
      .error (Status.corruption "ZenFS Superblock" "Error: Magic missmatch")
    else if superblock.superblockVersion ≠ CURRENT_SUPERBLOCK_VERSION then
      .error (Status.corruption "ZenFS Superblock"
        ("Error: Incompatible ZenFS on-disk format version, " ++
          "please migrate data or switch to previously used ZenFS version. " ++
          "See the ZenFS README for instructions."))
    else .ok superblock
  else .error (Status.corruption "ZenFS Superblock" "Error: Superblock size missmatch")

def compatibleWith (superblock : Superblock) (geo : Geometry) : Except Status Unit :=
  if superblock.blockSize.toNat ≠ geo.blockSz then
    .error (Status.corruption "ZenFS Superblock" "Error: block size missmatch")
  else if superblock.zoneSize.toNat ≠ geo.zoneSz / superblock.blockSize.toNat then
    .error (Status.corruption "ZenFS Superblock" "Error: zone size missmatch")
  else if superblock.nrZones.toNat > geo.nrZones then
    .error (Status.corruption "ZenFS Superblock" "Error: nr of zones missmatch")
  else .ok ()

end Superblock

end ZenFSModel

namespace ZenFSProof

open ByteString ZenFSModel ZenFSModel.Superblock

theorem superblock_encode_length (superblock : Superblock) : superblock.encode.length = ENCODED_SIZE := by
  simp [encode, putUInt32, putFixed32, superblock.uuid_length, superblock.auxFsPath_length,
    superblock.zenfsVersion_length, superblock.reserved_length, ENCODED_SIZE]

@[simp] theorem getUInt32_put (value : UInt32) (rest : Bytes) :
    getUInt32 (littleEndian 4 value.toNat ++ rest) = (value, rest) := by
  simp only [getUInt32]
  rw [List.take_left' (littleEndian_length 4 _), List.drop_left' (littleEndian_length 4 _),
    valueOf_littleEndian_of_lt (Nat.lt_of_lt_of_le value.toNat_lt (by decide)), UInt32.ofNat_toNat]

theorem getChars_put {size : Nat} {field : Bytes} (width : field.length = size) (rest : Bytes) :
    getChars size (field ++ rest) = (field, rest) := by
  simp only [getChars]
  rw [List.take_left' width, List.drop_left' width]

theorem superblock_decode_encode {superblock : Superblock} (magic : superblock.magic = MAGIC)
    (version : superblock.superblockVersion = CURRENT_SUPERBLOCK_VERSION) :
    decodeFrom superblock.encode = .ok superblock := by
  have size := superblock_encode_length superblock
  have last : getChars 123 superblock.reserved = (superblock.reserved, []) := by
    simpa only [List.append_nil] using getChars_put superblock.reserved_length []
  rw [decodeFrom, dif_pos size]
  simp only [encode, putUInt32, putFixed32, List.nil_append, List.append_assoc, getUInt32_put,
    getChars_put superblock.uuid_length, getChars_put superblock.auxFsPath_length,
    getChars_put superblock.zenfsVersion_length, last]
  rw [if_neg (not_not.mpr magic), if_neg (not_not.mpr version)]

end ZenFSProof
