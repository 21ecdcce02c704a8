import Mathlib.Algebra.Group.Nat.Defs
import Mathlib.Data.List.Basic

namespace Rbc

structure KVMetadata where
  key : UInt64
  blockId : UInt32
  offset : UInt64
  length : UInt64
  deriving DecidableEq

/-- A vector of pairs, of 32 bytes each, which has at most `max_size()` of them. -/
def KVPairs : Type := { pairs : List KVMetadata // pairs.length < 2 ^ 58 }

namespace KVPairs

def size (kvPairs : KVPairs) : UInt64 := .ofNat kvPairs.val.length

def get? (kvPairs : KVPairs) (pos : UInt64) : Option KVMetadata := kvPairs.val[pos.toNat]?

end KVPairs

def BLOCK_SIZE : UInt64 := 4 * 1024

structure SlidingWindowDetector where
  windowSize : UInt32

namespace SlidingWindowDetector

def sameBlock (kvPairs : KVPairs) (expectedBlockId : UInt32) (stop : UInt64) : Nat → UInt64 → Option Bool
  | 0, _ => none
  | rounds + 1, i =>
    if i < stop then do
      let pair ← kvPairs.get? i
      if pair.blockId ≠ expectedBlockId then some false
      else sameBlock kvPairs expectedBlockId stop rounds (i + 1)
    else some true

/-- The checks return nothing where they read beyond the end of the vector. -/
def checkBlockIntegrity (detector : SlidingWindowDetector) (kvPairs : KVPairs) (startPos : UInt64) : Option Bool :=
  let stop := startPos + detector.windowSize.toUInt64
  if kvPairs.size < stop then some false
  else do
    let first ← kvPairs.get? startPos
    sameBlock kvPairs first.blockId stop (detector.windowSize.toNat + 1) (startPos + 1)

def checkBoundaryAlignment (detector : SlidingWindowDetector) (kvPairs : KVPairs) (startPos : UInt64) :
    Option Bool := do
  let first ← kvPairs.get? startPos
  if first.offset ≠ 0 then some false
  else do
    let last ← kvPairs.get? (startPos + detector.windowSize.toUInt64 - 1)
    some (last.offset + last.length = BLOCK_SIZE)

def isCleanBlock (detector : SlidingWindowDetector) (kvPairs : KVPairs) (startPos : UInt64) : Option Bool := do
  let intact ← detector.checkBlockIntegrity kvPairs startPos
  if intact then detector.checkBoundaryAlignment kvPairs startPos else some false

def findFrom (detector : SlidingWindowDetector) (kvPairs : KVPairs) : Nat → UInt64 → Option UInt64
  | 0, _ => none
  | rounds + 1, i =>
    if i + detector.windowSize.toUInt64 ≤ kvPairs.size then do
      let clean ← detector.isCleanBlock kvPairs i
      if clean then some i else detector.findFrom kvPairs rounds (i + 1)
    else some kvPairs.size

def findNextCleanBlock (detector : SlidingWindowDetector) (kvPairs : KVPairs) (startPos : UInt64) : Option UInt64 :=
  detector.findFrom kvPairs (kvPairs.val.length + 1) startPos

end SlidingWindowDetector

end Rbc
