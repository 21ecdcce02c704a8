import Mathlib.Data.List.Forall2
import ZonedStorage.Coding.Consume
import ZonedStorage.File.Codec
import ZonedStorage.File.InvalidateCache

namespace ZenFSModel.ZoneFile

open ByteString ZoneFileTag

def eachFrom {α : Type} (put : Bytes → α → Bytes) (items : List α) : Nat → UInt32 → Bytes → Option Bytes
  | 0, _, _ => none
  | rounds + 1, i, output =>
    match items[i.toNat]? with
    | some item => eachFrom put items rounds (i + 1) (put output item)
    | none => some output

def putExtent (output : Bytes) (e : ZoneExtent) : Bytes := putLengthPrefixedSlice (putTag output kExtent) e.encodeTo

def putLink (output : Bytes) (name : Name) : Bytes := putLengthPrefixedSlice (putTag output kLinkedFilename) name

def putHead (f : ZoneFile) : Bytes :=
  let output := putFixed64 (putTag [] kFileID) f.fileId
  let output := putFixed64 (putTag output kFileSize) f.fileSize
  putFixed32 (putTag output kWriteLifeTimeHint) f.lifetime.value.toNat

def putTimes (f : ZoneFile) (output : Bytes) : Bytes :=
  let output := putFixed64 (putTag output kModificationTime) f.mTime
  let output := putFixed64 (putTag output kActiveExtentStart) f.extentStart
  if f.isSparse then putTag output kIsSparse else output

/-- `EncodeTo` with its loops, each of which is given so many rounds. -/
def encodeWithin (rounds : Nat) (f : ZoneFile) (extentStart : UInt32) : Option Bytes := do
  let output ← eachFrom putExtent f.extents rounds extentStart f.putHead
  eachFrom putLink f.linkFiles rounds 0 (f.putTimes output)

def charge (used : Nat → UInt64) (e : ZoneExtent) : Nat → UInt64 :=
  Function.update used e.zone (used e.zone + UInt64.ofNat e.length)

/-- The file that `DecodeFrom` leaves in a fresh object, its status and the used capacity of the zones. -/
def decodeFresh (getIOZone : Nat → Option Nat) (used : Nat → UInt64) (id : Nat) (input : Bytes) :
    ZoneFile × Option Status × (Nat → UInt64) :=
  let (decoded, status) := decodeFrom getIOZone (new id) input
  (decoded, status, decoded.extents.foldl charge used)

end ZenFSModel.ZoneFile

namespace ZenFSProof

open ByteString ZenFSModel ZenFSModel.ZoneFile List

structure Typed (f : ZoneFile) : Prop where
  fileId : f.fileId < 2 ^ 64
  fileSize : f.fileSize < 2 ^ 64
  mTime : f.mTime < 2 ^ 64
  extentStart : f.extentStart < 2 ^ 64
  start : ∀ e ∈ f.extents, e.start < 2 ^ 64
  length : ∀ e ∈ f.extents, e.length < 2 ^ 64

def SameExtent (getIOZone : Nat → Option Nat) (e decoded : ZoneExtent) : Prop :=
  decoded.start = e.start ∧ decoded.length = e.length ∧ getIOZone e.start = some decoded.zone

structure RecordRestored (getIOZone : Nat → Option Nat) (f : ZoneFile) (from_extent : Nat) (decoded : ZoneFile) :
    Prop where
  fileId : decoded.fileId = f.fileId
  fileSize : decoded.fileSize = f.fileSize
  lifetime : decoded.lifetime = f.lifetime
  mTime : decoded.mTime = f.mTime
  extentStart : decoded.extentStart = f.extentStart
  isSparse : decoded.isSparse = f.isSparse
  linkFiles : decoded.linkFiles = f.linkFiles
  extents : List.Forall₂ (SameExtent getIOZone) (f.extents.drop from_extent) decoded.extents

def lengthIn (zone : Nat) (extents : List ZoneExtent) : Nat :=
  totalLength (extents.filter (fun e => e.zone = zone))

/-- The record is written, and reading it gives the file back and charges its zones. -/
def RecordRoundTrips (getIOZone : Nat → Option Nat) (used : Nat → UInt64) (f : ZoneFile) (extentStart : UInt32)
    (id : Nat) : Prop :=
  ∃ rounds output, f.encodeWithin rounds extentStart = some output ∧
    let (decoded, status, after) := decodeFresh getIOZone used id output
    status = none ∧ RecordRestored getIOZone f extentStart.toNat decoded ∧
      ∀ zone, (after zone).toNat = (used zone).toNat + lengthIn zone decoded.extents

/-- The counters of the loops, the lengths of the names and the used capacities do not overflow. -/
structure Overflowless (getIOZone : Nat → Option Nat) (used : Nat → UInt64) (f : ZoneFile) (extentStart : UInt32) :
    Prop where
  extents : f.extents.length < 2 ^ 32
  links : f.linkFiles.length < 2 ^ 32
  names : ∀ name ∈ f.linkFiles, name.length < 2 ^ 32
  capacity : ∀ zone, (used zone).toNat + (((f.extents.drop extentStart.toNat).filter (fun e =>
    getIOZone e.start = some zone)).map ZoneExtent.length).sum < 2 ^ 64

section

variable {α : Type} {put : Bytes → α → Bytes} {items : List α}

variable {i : UInt32} {output : Bytes}

theorem eachFrom_eq (countable : items.length < 2 ^ 32) (rounds : Nat) (enough : items.length - i.toNat < rounds) :
    eachFrom put items rounds i output = some ((items.drop i.toNat).foldl put output) := by
  induction rounds generalizing i output with
  | zero => omega
  | succ rounds ih =>
    rw [eachFrom]
    by_cases more : i.toNat < items.length
    · have next : (i + 1).toNat = i.toNat + 1 := by
        rw [UInt32.toNat_add]
        change (i.toNat + 1) % 2 ^ 32 = _
        omega
      rw [getElem?_eq_getElem more, drop_eq_getElem_cons more, foldl_cons, ← next]
      exact ih (by omega)
    · rw [getElem?_eq_none (Nat.not_lt.mp more), drop_eq_nil_of_le (Nat.not_lt.mp more)]
      rfl

theorem eachFrom_endless (uncountable : 2 ^ 32 ≤ items.length) (rounds : Nat) (i : UInt32) (output : Bytes) :
    eachFrom put items rounds i output = none := by
  induction rounds generalizing i output with
  | zero => rfl
  | succ rounds ih =>
    have more : i.toNat < items.length := Nat.lt_of_lt_of_le i.toNat_lt uncountable
    rw [eachFrom, getElem?_eq_getElem more]
    exact ih _ _

theorem eachFrom_more {rounds : Nat} {result : Bytes} (done : eachFrom put items rounds i output = some result) :
    eachFrom put items (rounds + 1) i output = some result := by
  induction rounds generalizing i output with
  | zero => cases done
  | succ rounds ih =>
    rw [eachFrom] at done ⊢
    split at done
    · exact ih done
    · exact done

theorem eachFrom_some {rounds : Nat} {result : Bytes} (done : eachFrom put items rounds i output = some result) :
    items.length < 2 ^ 32 ∧ result = (items.drop i.toNat).foldl put output := by
  have countable : items.length < 2 ^ 32 := by
    apply Nat.not_le.mp
    intro endless
    rw [eachFrom_endless endless] at done
    cases done
  have later : ∀ extra, eachFrom put items (rounds + extra) i output = some result := by
    intro extra
    induction extra with
    | zero => exact done
    | succ extra ih => exact eachFrom_more ih
  have whole := later (items.length + 1)
  rw [eachFrom_eq countable _ (by omega)] at whole
  exact ⟨countable, (Option.some.inj whole).symm⟩

end

section

variable {f : ZoneFile} {extentStart : UInt32}

theorem encodeWithin_eq (extents : f.extents.length < 2 ^ 32) (links : f.linkFiles.length < 2 ^ 32) :
    f.encodeWithin (f.extents.length + f.linkFiles.length + 1) extentStart = some (f.encodeTo extentStart.toNat) := by
  unfold encodeWithin
  rw [eachFrom_eq extents _ (by omega), Option.bind_eq_bind, Option.bind_some, eachFrom_eq links _ (by omega)]
  rfl

theorem encodeWithin_some {rounds : Nat} {output : Bytes} (encoded : f.encodeWithin rounds extentStart = some output) :
    f.extents.length < 2 ^ 32 ∧ f.linkFiles.length < 2 ^ 32 ∧ output = f.encodeTo extentStart.toNat := by
  unfold encodeWithin at encoded
  obtain ⟨between, first, second⟩ := Option.bind_eq_some_iff.mp encoded
  obtain ⟨extents, rfl⟩ := eachFrom_some first
  obtain ⟨links, rfl⟩ := eachFrom_some second
  exact ⟨extents, links, rfl⟩

end

section

variable {getIOZone : Nat → Option Nat} {f : ZoneFile}

def attach (getIOZone : Nat → Option Nat) (e : ZoneExtent) : ZoneExtent :=
  { e with zone := (getIOZone e.start).getD e.zone }

def attached (getIOZone : Nat → Option Nat) (f : ZoneFile) : ZoneFile :=
  { f with extents := f.extents.map (attach getIOZone) }

theorem encodeTo_attached (getIOZone : Nat → Option Nat) (f : ZoneFile) (s : Nat) :
    (attached getIOZone f).encodeTo s = f.encodeTo s := by
  have same : ((f.extents.map (attach getIOZone)).drop s).flatMap extentBytes =
      (f.extents.drop s).flatMap extentBytes := by
    rw [← map_drop, flatMap_map]
    rfl
  rw [encodeTo_eq, encodeTo_eq]
  change _ ++ (_ ++ (_ ++ (_ ++ (_ ++ (_ ++
    (((f.extents.map (attach getIOZone)).drop s).flatMap extentBytes ++ _)))))) = _
  rw [same]
  rfl

theorem attached_decodable (typed : Typed f) (zones : ∀ e ∈ f.extents, ∃ zone, getIOZone e.start = some zone)
    (named : ∀ name ∈ f.linkFiles, name ≠ []) (short : ∀ name ∈ f.linkFiles, name.length < 2 ^ 32) :
    Decodable getIOZone (attached getIOZone f) where
  fileId := typed.fileId
  fileSize := typed.fileSize
  mTime := typed.mTime
  extentStart := typed.extentStart
  start := by
    intro e member
    obtain ⟨e, inside, rfl⟩ := mem_map.mp member
    exact typed.start e inside
  length := by
    intro e member
    obtain ⟨e, inside, rfl⟩ := mem_map.mp member
    exact typed.length e inside
  zone := by
    intro e member
    obtain ⟨e, inside, rfl⟩ := mem_map.mp member
    obtain ⟨zone, found⟩ := zones e inside
    simp only [attach, found, Option.getD_some]
  named := named
  short := short

theorem restored_attached (zones : ∀ e ∈ f.extents, ∃ zone, getIOZone e.start = some zone) (s : Nat) :
    RecordRestored getIOZone f s (updateOf (attached getIOZone f) s) where
  fileId := rfl
  fileSize := rfl
  lifetime := rfl
  mTime := rfl
  extentStart := rfl
  isSparse := rfl
  linkFiles := rfl
  extents := by
    change List.Forall₂ _ _ ((f.extents.map (attach getIOZone)).drop s)
    rw [← map_drop, forall₂_map_right_iff, forall₂_same]
    intro e member
    obtain ⟨zone, found⟩ := zones e (mem_of_mem_drop member)
    refine ⟨rfl, rfl, ?_⟩
    simp only [attach, found, Option.getD_some]

end

section

variable {getIOZone : Nat → Option Nat}

theorem lengthIn_cons (zone : Nat) (e : ZoneExtent) (extents : List ZoneExtent) :
    lengthIn zone (e :: extents) = (if e.zone = zone then e.length else 0) + lengthIn zone extents := by
  unfold lengthIn
  by_cases same : e.zone = zone
  · rw [filter_cons, decide_eq_true same, if_pos same, if_pos rfl, totalLength_cons]
  · rw [filter_cons, decide_eq_false same, if_neg same, if_neg Bool.false_ne_true, Nat.zero_add]

theorem charged_toNat (used : Nat → UInt64) (extents : List ZoneExtent) (zone : Nat) :
    (extents.foldl charge used zone).toNat = ((used zone).toNat + lengthIn zone extents) % 2 ^ 64 := by
  induction extents generalizing used with
  | nil =>
    exact (Nat.mod_eq_of_lt (used zone).toNat_lt).symm
  | cons e extents ih =>
    rw [foldl_cons, ih, lengthIn_cons, charge]
    by_cases same : e.zone = zone
    · rw [if_pos same, same, Function.update_self, UInt64.toNat_add, UInt64.toNat_ofNat']
      omega
    · rw [if_neg same, Function.update_of_ne (fun equal => same equal.symm), Nat.zero_add]

theorem charged_exactly_iff (used : Nat → UInt64) (extents : List ZoneExtent) (zone : Nat) :
    (extents.foldl charge used zone).toNat = (used zone).toNat + lengthIn zone extents ↔
      (used zone).toNat + lengthIn zone extents < 2 ^ 64 := by
  rw [charged_toNat]
  constructor
  · intro exactly
    rw [← exactly]
    exact Nat.mod_lt _ (by decide)
  · exact Nat.mod_eq_of_lt

theorem lengthIn_restored {extents decoded : List ZoneExtent}
    (same : List.Forall₂ (SameExtent getIOZone) extents decoded) (zone : Nat) :
    lengthIn zone decoded =
      ((extents.filter (fun e => getIOZone e.start = some zone)).map ZoneExtent.length).sum := by
  induction same with
  | nil => rfl
  | @cons e d extents decoded first rest ih =>
    obtain ⟨_, length, attached⟩ := first
    rw [lengthIn_cons, ih, length]
    by_cases here : d.zone = zone
    · have starts : getIOZone e.start = some zone := by rw [attached, here]
      rw [filter_cons, decide_eq_true starts, if_pos here, if_pos rfl, map_cons, sum_cons]
    · have elsewhere : ¬ getIOZone e.start = some zone := by
        rw [attached]
        exact fun equal => here (Option.some.inj equal)
      rw [filter_cons, decide_eq_false elsewhere, if_neg here, if_neg Bool.false_ne_true, Nat.zero_add]

def ShortNames (f : ZoneFile) : Prop := ∀ name ∈ f.linkFiles, name.length < 2 ^ 32

theorem decodeLoop_shortNames (rounds : Nat) {f : ZoneFile} {input : Bytes} (short : ShortNames f) :
    ShortNames (decodeLoop getIOZone rounds f input).1 := by
  induction rounds generalizing f input with
  | zero => exact short
  | succ rounds ih =>
    rw [decodeLoop]
    split
    · exact short
    · rename_i tag rest _
      split
      · split
        · exact short
        · exact ih short
      · split
        · exact short
        · exact ih short
      · dsimp only
        split
        · exact short
        · split
          · exact short
          · exact ih short
      · split
        · exact short
        · exact ih short
      · split
        · exact short
        · exact ih short
      · exact ih short
      · split
        · exact short
        · rename_i slice later found
          split
          · exact short
          · apply ih
            intro name member
            rcases mem_append.mp member with old | new
            · exact short name old
            · rw [mem_singleton.mp new]
              exact (getLengthPrefixedSlice_shorter found).2
      · exact short

theorem decodeFrom_shortNames (id : Nat) (input : Bytes) :
    ShortNames (decodeFrom getIOZone (ZoneFile.new id) input).1 := by
  have fresh : ∀ id, ShortNames (ZoneFile.new id) := fun id name member => absurd member not_mem_nil
  unfold decodeFrom
  split
  · exact fresh id
  · split
    · exact fresh id
    · split
      · exact fresh id
      · exact decodeLoop_shortNames _ (fresh _)

end

/-- A file record round trips exactly if no counter, length or capacity overflows. -/
theorem record_round_trip_iff (getIOZone : Nat → Option Nat) (used : Nat → UInt64) (f : ZoneFile)
    (extentStart : UInt32) (id : Nat) (typed : Typed f)
    (zones : ∀ e ∈ f.extents, ∃ zone, getIOZone e.start = some zone) (named : ∀ name ∈ f.linkFiles, name ≠ []) :
    RecordRoundTrips getIOZone used f extentStart id ↔ Overflowless getIOZone used f extentStart := by
  constructor
  · rintro ⟨rounds, output, encoded, status, restored, exactly⟩
    obtain ⟨extents, links, rfl⟩ := encodeWithin_some encoded
    refine ⟨extents, links, ?_, ?_⟩
    · rw [← restored.linkFiles]
      exact decodeFrom_shortNames id _
    · intro zone
      rw [← lengthIn_restored restored.extents]
      exact (charged_exactly_iff _ _ _).mp (exactly zone)
  · intro overflowless
    have decoded := decodeFrom_new (attached_decodable typed zones named overflowless.names) id extentStart.toNat
    rw [encodeTo_attached] at decoded
    have restored := restored_attached zones extentStart.toNat
    refine ⟨_, _, encodeWithin_eq overflowless.extents overflowless.links, ?_⟩
    simp only [decodeFresh, decoded]
    refine ⟨trivial, restored, fun zone => (charged_exactly_iff _ _ _).mpr ?_⟩
    rw [lengthIn_restored restored.extents]
    exact overflowless.capacity zone

def twoExtents : ZoneFile :=
  { ZoneFile.new 7 with
    fileSize := 300
    extents := [⟨4096, 100, 1⟩, ⟨8192, 200, 1⟩]
    linkFiles := [[97], [98, 99]]
    isSparse := true }

theorem twoExtents_round_trips :
    RecordRoundTrips (fun start => if start < 65536 then some 1 else none) (fun _ => 5) twoExtents 1 0 := by
  apply (record_round_trip_iff _ _ twoExtents 1 0 ?_ ?_ ?_).mpr
  · refine ⟨by decide, by decide, by decide, fun zone => ?_⟩
    by_cases one : 1 = zone
    · subst one
      decide
    · have elsewhere : (twoExtents.extents.drop 1).filter
          (fun e => (if e.start < 65536 then some 1 else none) = some zone) = [] := by
        simp [twoExtents, one]
      change 5 + (map _ ((twoExtents.extents.drop 1).filter _)).sum < 2 ^ 64
      rw [elsewhere]
      decide
  · constructor <;> decide
  · intro e member
    refine ⟨1, if_pos ?_⟩
    revert e
    decide
  · decide

def longName : Name := replicate (2 ^ 32) 97

/-- A name of 4 GiB is written with the length 0. -/
theorem long_name_lost :
    ¬ RecordRoundTrips (fun _ => some 1) (fun _ => 0) { ZoneFile.new 7 with linkFiles := [longName] } 0 0 := by
  rintro ⟨rounds, output, _, _, restored, _⟩
  have short := @decodeFrom_shortNames (fun _ => some 1) 0 output longName
  have decoded : (decodeFrom (fun _ => some 1) (ZoneFile.new 0) output).1.linkFiles = [longName] := restored.linkFiles
  have length : longName.length = 2 ^ 32 := length_replicate
  rw [decoded, length] at short
  exact Nat.lt_irrefl _ (short mem_cons_self)

end ZenFSProof
