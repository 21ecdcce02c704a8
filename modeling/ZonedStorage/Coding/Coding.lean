import ZonedStorage.Bytes.LittleEndian

namespace ZenFSModel

open ByteString

def putFixed32 (output : Bytes) (value : Nat) : Bytes := output ++ littleEndian 4 value

def putFixed64 (output : Bytes) (value : Nat) : Bytes := output ++ littleEndian 8 value

def encodeVarint32 (v : Nat) : Bytes :=
  if v < 1 <<< 7 then [UInt8.ofNat v]
  else if v < 1 <<< 14 then [UInt8.ofNat (v ||| 128), UInt8.ofNat (v >>> 7)]
  else if v < 1 <<< 21 then
    [UInt8.ofNat (v ||| 128), UInt8.ofNat (v >>> 7 ||| 128), UInt8.ofNat (v >>> 14)]
  else if v < 1 <<< 28 then
    [UInt8.ofNat (v ||| 128), UInt8.ofNat (v >>> 7 ||| 128), UInt8.ofNat (v >>> 14 ||| 128),
      UInt8.ofNat (v >>> 21)]
  else
    [UInt8.ofNat (v ||| 128), UInt8.ofNat (v >>> 7 ||| 128), UInt8.ofNat (v >>> 14 ||| 128),
      UInt8.ofNat (v >>> 21 ||| 128), UInt8.ofNat (v >>> 28)]

def putVarint32 (output : Bytes) (v : Nat) : Bytes := output ++ encodeVarint32 (v % 2 ^ 32)

def putLengthPrefixedSlice (output value : Bytes) : Bytes := putVarint32 output value.length ++ value

def getFixed32 (input : Bytes) : Option (Nat × Bytes) := takeNumber 4 input

def getFixed64 (input : Bytes) : Option (Nat × Bytes) := takeNumber 8 input

def getVarint32PtrFallback : Nat → Nat → Nat → Bytes → Option (Nat × Bytes)
  | 0, _, _, _ => none
  | _ + 1, _, _, [] => none
  | rounds + 1, shift, result, byte :: rest =>
    if byte.toNat &&& 128 ≠ 0 then
      getVarint32PtrFallback rounds (shift + 7) (result ||| ((byte.toNat &&& 127) <<< shift) % 2 ^ 32) rest
    else some (result ||| (byte.toNat <<< shift) % 2 ^ 32, rest)

def getVarint32Ptr : Bytes → Option (Nat × Bytes)
  | [] => getVarint32PtrFallback 5 0 0 []
  | byte :: rest =>
    if byte.toNat &&& 128 = 0 then some (byte.toNat, rest)
    else getVarint32PtrFallback 5 0 0 (byte :: rest)

def getVarint32 (input : Bytes) : Option (Nat × Bytes) := getVarint32Ptr input

def getLengthPrefixedSlice (input : Bytes) : Option (Bytes × Bytes) :=
  match getVarint32 input with
  | none => none
  | some (len, rest) => if len ≤ rest.length then some (rest.take len, rest.drop len) else none

def encodeVarint64 (v : Nat) : Bytes :=
  if v < 128 then [UInt8.ofNat v] else UInt8.ofNat (v &&& 127 ||| 128) :: encodeVarint64 (v >>> 7)
termination_by v
decreasing_by
  rw [Nat.shiftRight_eq_div_pow]
  omega

def putVarint64 (output : Bytes) (v : Nat) : Bytes := output ++ encodeVarint64 (v % 2 ^ 64)

def getVarint64Ptr : Nat → Nat → Nat → Bytes → Option (Nat × Bytes)
  | 0, _, _, _ => none
  | _ + 1, _, _, [] => none
  | rounds + 1, shift, result, byte :: rest =>
    if byte.toNat &&& 128 ≠ 0 then
      getVarint64Ptr rounds (shift + 7) (result ||| ((byte.toNat &&& 127) <<< shift) % 2 ^ 64) rest
    else some (result ||| (byte.toNat <<< shift) % 2 ^ 64, rest)

def getVarint64 (input : Bytes) : Option (Nat × Bytes) := getVarint64Ptr 10 0 0 input

end ZenFSModel
