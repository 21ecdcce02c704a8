import ZonedStorage.Device.Zones
import ZonedStorage.Namespace.Operations

namespace ZenFSProof

open ByteString ZenFSModel ZenFSModel.ZenFS

def contents (d : Device) (extents : List ZoneExtent) : Bytes :=
  extents.flatMap (fun e => d.mem.read e.start e.length)

def headerOf (f : ZoneFile) : Nat := if f.isSparse then SPARSE_HEADER_SIZE else 0

def Stored (d : Device) (extents : List ZoneExtent) : Prop := ∀ e ∈ extents, Lies d e.zone e.start e.length

theorem contents_cons (d : Device) (e : ZoneExtent) (rest : List ZoneExtent) :
    contents d (e :: rest) = d.mem.read e.start e.length ++ contents d rest := List.flatMap_cons

theorem contents_append (d : Device) (first second : List ZoneExtent) :
    contents d (first ++ second) = contents d first ++ contents d second := List.flatMap_append

variable {d : Device} {e : ZoneExtent} {rest : List ZoneExtent}

theorem Stored.head (stored : Stored d (e :: rest)) : Lies d e.zone e.start e.length := stored e List.mem_cons_self

theorem Stored.tail (stored : Stored d (e :: rest)) :
    Stored d rest := fun other listed => stored other (List.mem_cons_of_mem e listed)

theorem Retains.stored {d' : Device} (retains : Retains d d') (laid : Laid d) {extents : List ZoneExtent}
    (stored : Stored d extents) : Stored d' extents := fun e listed => retains.lies laid (stored e listed)

theorem Retains.contents {d' : Device} (retains : Retains d d') (laid : Laid d) {extents : List ZoneExtent}
    (stored : Stored d extents) : contents d' extents = contents d extents := by
  induction extents with
  | nil => rfl
  | cons e rest ih => rw [contents_cons, contents_cons, retains.read laid stored.head, ih stored.tail]

end ZenFSProof
