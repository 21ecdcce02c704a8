import Mathlib.Algebra.Group.Nat.Defs
import Mathlib.Order.Nat
import ZonedStorage.Device.Status
import ZonedStorage.Runs.Throughout

namespace ZenFSModel

structure ZoneReport where
  start : UInt64
  maxCapacity : UInt64
  wp : UInt64
  writable : Bool

/-- The words of a zone that its calls move, and the bytes written to its device. -/
structure ZoneCounters where
  start : UInt64
  maxCapacity : UInt64
  wp : UInt64
  capacity : UInt64
  bytesWritten : UInt64

/-- What a write of the backend returns, and how many bytes the device has taken by then. A backend that writes in
    several steps returns the error of a later one, whatever the earlier ones have written. -/
structure BackendWrite where
  returned : Int
  accepted : Nat

/-- A call on a zone, with what the backend returns to it. -/
inductive ZoneCall where
  | append (size : UInt32) (writes : List BackendWrite)
  | finish (ok : Bool)
  | reset (ok offline : Bool) (maxCapacity : UInt64)

namespace ZoneCounters

def ofReport (report : ZoneReport) (bytesWritten : UInt64) : ZoneCounters where
  start := report.start
  maxCapacity := report.maxCapacity
  wp := report.wp
  capacity := if report.writable then report.maxCapacity - (report.wp - report.start) else 0
  bytesWritten := bytesWritten

def wrote (zone : ZoneCounters) (ret : Nat) : ZoneCounters :=
  { zone with
    wp := zone.wp + .ofNat ret
    capacity := zone.capacity - .ofNat ret
    bytesWritten := zone.bytesWritten + .ofNat ret }

/-- The loop of `append`, with no status as long as the backend has not returned. -/
def appendLoop (left : UInt32) (writes : List BackendWrite) (zone : ZoneCounters) :
    Option (Except Status Unit) × ZoneCounters :=
  if left = 0 then (some (.ok ()), zone)
  else match writes with
    | [] => (none, zone)
    | write :: writes =>
      if write.returned < 0 then (some (.error (.ioError "strerror(errno)")), zone)
      else appendLoop (left - .ofNat write.returned.toNat) writes (zone.wrote write.returned.toNat)

def append (zone : ZoneCounters) (size : UInt32) (writes : List BackendWrite) :
    Option (Except Status Unit) × ZoneCounters :=
  if zone.capacity < size.toUInt64 then (some (.error (.noSpace "Not enough capacity for append")), zone)
  else appendLoop size writes zone

def finish (zoneSz : UInt64) (zone : ZoneCounters) (ok : Bool) : ZoneCounters :=
  if ok then { zone with capacity := 0, wp := zone.start + zoneSz } else zone

def reset (zone : ZoneCounters) (ok offline : Bool) (maxCapacity : UInt64) : ZoneCounters :=
  if !ok then zone
  else if offline then { zone with capacity := 0, wp := zone.start }
  else { zone with maxCapacity := maxCapacity, capacity := maxCapacity, wp := zone.start }

def call (zoneSz : UInt64) (zone : ZoneCounters) : ZoneCall → ZoneCounters
  | .append size writes => (zone.append size writes).2
  | .finish ok => zone.finish zoneSz ok
  | .reset ok offline maxCapacity => zone.reset ok offline maxCapacity

end ZoneCounters

end ZenFSModel

namespace ZenFSProof

open ZenFSModel Runs ZoneCounters UInt64

structure ConsistentReport (zoneSz : UInt64) (report : ZoneReport) : Prop where
  addressed : report.start.toNat + zoneSz.toNat < 2 ^ 64
  lower : report.start.toNat ≤ report.wp.toNat
  upper : report.wp.toNat ≤ report.start.toNat + zoneSz.toNat
  limit : report.maxCapacity.toNat ≤ zoneSz.toNat
  room : report.writable = true → report.wp.toNat ≤ report.start.toNat + report.maxCapacity.toNat

/-- Each write returns between one byte and what it was asked to write, and has written so much, or it fails. -/
def WritesReturn : UInt32 → List BackendWrite → Prop
  | _, [] => True
  | left, write :: writes => left = 0 ∨ write.returned < 0 ∧ write.accepted ≤ left.toNat ∨
    0 < write.returned ∧ write.returned ≤ left.toNat ∧ write.accepted = write.returned.toNat ∧
      WritesReturn (left - .ofNat write.returned.toNat) writes

def BackendReturns (zoneSz : UInt64) : ZoneCall → Prop
  | .append size writes => WritesReturn size writes
  | .finish _ => True
  | .reset ok offline maxCapacity => ok = true → offline = false → maxCapacity.toNat ≤ zoneSz.toNat

def acceptedBytes : UInt32 → List BackendWrite → Nat
  | _, [] => 0
  | left, write :: writes =>
    if left = 0 then 0
    else if write.returned < 0 then write.accepted
    else write.accepted + acceptedBytes (left - .ofNat write.returned.toNat) writes

/-- What the device has taken of the write that fails, if one does. -/
def lostBytes : UInt32 → List BackendWrite → Nat
  | _, [] => 0
  | left, write :: writes =>
    if left = 0 then 0
    else if write.returned < 0 then write.accepted
    else lostBytes (left - .ofNat write.returned.toNat) writes

structure ZoneSound (zoneSz : UInt64) (zone : ZoneCounters) : Prop where
  lower : zone.start.toNat ≤ zone.wp.toNat
  upper : zone.wp.toNat ≤ zone.start.toNat + zoneSz.toNat
  filled : zone.capacity.toNat = 0 ∨
    zone.capacity.toNat + (zone.wp.toNat - zone.start.toNat) = zone.maxCapacity.toNat

structure Took (zone : ZoneCounters) (bytes : Nat) (after : ZoneCounters) : Prop where
  start : after.start = zone.start
  maxCapacity : after.maxCapacity = zone.maxCapacity
  wp : after.wp.toNat = zone.wp.toNat + bytes
  capacity : after.capacity.toNat + bytes = zone.capacity.toNat
  bytesWritten : after.bytesWritten = zone.bytesWritten + .ofNat bytes

/-- An append moves the zone and the counter of the device by what the backend accepted, whatever it returns. -/
def AppendExact (zoneSz : UInt64) (zone : ZoneCounters) : ZoneCall → Prop
  | .append size writes =>
    Took zone (if zone.capacity < size.toUInt64 then 0 else acceptedBytes size writes)
      (zone.call zoneSz (.append size writes))
  | _ => True

/-- The append is rejected, or a write that fails has written nothing. -/
def NothingLost (zone : ZoneCounters) : ZoneCall → Prop
  | .append size writes => zone.capacity < size.toUInt64 ∨ lostBytes size writes = 0
  | _ => True

variable {zoneSz : UInt64} {zone middle after : ZoneCounters} {call : ZoneCall}

theorem Took.nothing : Took zone 0 zone := ⟨rfl, rfl, rfl, rfl, (UInt64.add_zero _).symm⟩

theorem Took.trans {first second : Nat} (before : Took zone first middle) (rest : Took middle second after) :
    Took zone (first + second) after where
  start := rest.start.trans before.start
  maxCapacity := rest.maxCapacity.trans before.maxCapacity
  wp := by rw [rest.wp, before.wp, Nat.add_assoc]
  capacity := by rw [← before.capacity, ← rest.capacity]; omega
  bytesWritten := by rw [rest.bytesWritten, before.bytesWritten, ofNat_add, UInt64.add_assoc]

theorem took_wrote {ret : Nat} (room : ret ≤ zone.capacity.toNat) (addressed : zone.wp.toNat + ret < 2 ^ 64) :
    Took zone ret (zone.wrote ret) := by
  have value : (ofNat ret).toNat = ret := toNat_ofNat_of_lt' (by rw [size]; omega)
  refine ⟨rfl, rfl, ?_, ?_, rfl⟩
  · rw [wrote, UInt64.toNat_add, value, Nat.mod_eq_of_lt addressed]
  · rw [wrote, UInt64.toNat_sub_of_le _ _ (le_iff_toNat_le.mpr (value.trans_le room)), value]
    omega

theorem Took.unique {first second : Nat} (one : Took zone first after) (other : Took zone second after) :
    first = second :=
  Nat.add_left_cancel (one.wp.symm.trans other.wp)

theorem appendLoop_took {left : UInt32} {writes : List BackendWrite} (returned : WritesReturn left writes)
    (room : left.toNat ≤ zone.capacity.toNat) (addressed : zone.wp.toNat + left.toNat < 2 ^ 64) :
    ∃ bytes, Took zone bytes (appendLoop left writes zone).2 ∧
      acceptedBytes left writes = bytes + lostBytes left writes := by
  induction writes generalizing left zone with
  | nil =>
    rw [appendLoop, acceptedBytes, lostBytes]
    split <;> exact ⟨0, .nothing, rfl⟩
  | cons write writes ih =>
    rw [appendLoop, acceptedBytes, lostBytes]
    by_cases done : left = 0
    · simp only [if_pos done]
      exact ⟨0, .nothing, rfl⟩
    simp only [if_neg done]
    by_cases failed : write.returned < 0
    · simp only [if_pos failed]
      exact ⟨0, .nothing, (Nat.zero_add _).symm⟩
    simp only [if_neg failed]
    obtain ⟨_, requested, written, rest⟩ := (returned.resolve_left done).resolve_left (fun fails => failed fails.1)
    have counted : write.returned.toNat ≤ left.toNat := by omega
    have value : (UInt32.ofNat write.returned.toNat).toNat = write.returned.toNat :=
      UInt32.toNat_ofNat_of_lt' (Nat.lt_of_le_of_lt counted left.toNat_lt)
    have remaining := UInt32.toNat_sub_of_le left _ (UInt32.le_iff_toNat_le.mpr (value.trans_le counted))
    have first := @took_wrote zone write.returned.toNat (counted.trans room) (by omega)
    have moved := first.wp
    have shrunk := first.capacity
    obtain ⟨bytes, later, sum⟩ := @ih (zone.wrote write.returned.toNat) _ rest (by omega) (by omega)
    exact ⟨_, first.trans later, by rw [written, sum, Nat.add_assoc]⟩

/-- What keeps the words of a zone from wrapping. -/
structure ZoneBounded (zoneSz : UInt64) (zone : ZoneCounters) : Prop extends ZoneSound zoneSz zone where
  addressed : zone.start.toNat + zoneSz.toNat < 2 ^ 64
  limit : zone.maxCapacity.toNat ≤ zoneSz.toNat

theorem ConsistentReport.bounded {report : ZoneReport} (consistent : ConsistentReport zoneSz report)
    (bytesWritten : UInt64) : ZoneBounded zoneSz (.ofReport report bytesWritten) := by
  refine ⟨⟨consistent.lower, consistent.upper, ?_⟩, consistent.addressed, consistent.limit⟩
  by_cases writable : report.writable = true
  · have room := consistent.room writable
    have lower := consistent.lower
    have used := UInt64.toNat_sub_of_le _ _ (le_iff_toNat_le.mpr lower)
    have within : report.wp - report.start ≤ report.maxCapacity := le_iff_toNat_le.mpr (by omega)
    have free := UInt64.toNat_sub_of_le _ _ within
    simp only [ofReport, if_pos writable]
    exact .inr (by omega)
  · exact .inl (congrArg toNat (if_neg writable))

theorem ZoneBounded.append_took {size : UInt32} {writes : List BackendWrite} (bounded : ZoneBounded zoneSz zone)
    (returned : WritesReturn size writes) :
    ∃ bytes, Took zone bytes (zone.call zoneSz (.append size writes)) ∧
      (if zone.capacity < size.toUInt64 then 0 else acceptedBytes size writes) =
        bytes + if zone.capacity < size.toUInt64 then 0 else lostBytes size writes := by
  rw [ZoneCounters.call, append]
  by_cases rejected : zone.capacity < size.toUInt64
  · simp only [if_pos rejected]
    exact ⟨0, .nothing, rfl⟩
  simp only [if_neg rejected]
  have room : size.toNat ≤ zone.capacity.toNat := by
    rw [lt_iff_toNat_lt, UInt32.toNat_toUInt64] at rejected
    omega
  obtain ⟨⟨lower, upper, filled⟩, addressed, limit⟩ := bounded
  refine appendLoop_took returned room ?_
  rcases filled with full | filled <;> omega

theorem ZoneBounded.append_exact_iff (bounded : ZoneBounded zoneSz zone) (returned : BackendReturns zoneSz call) :
    AppendExact zoneSz zone call ↔ NothingLost zone call := by
  cases call with
  | append size writes =>
    obtain ⟨bytes, moved, sum⟩ := bounded.append_took returned
    rw [AppendExact, NothingLost, sum]
    by_cases rejected : zone.capacity < size.toUInt64
    · simp only [if_pos rejected, Nat.add_zero]
      exact iff_of_true moved (.inl rejected)
    simp only [if_neg rejected]
    constructor
    · intro all
      have same := all.unique moved
      exact .inr (by omega)
    · intro none_lost
      rw [none_lost.resolve_left rejected]
      exact moved
  | finish ok => exact Iff.rfl
  | reset ok offline maxCapacity => exact Iff.rfl

theorem ZoneBounded.took {bytes : Nat} (bounded : ZoneBounded zoneSz zone) (moved : Took zone bytes after) :
    ZoneBounded zoneSz after := by
  obtain ⟨⟨lower, upper, filled⟩, addressed, limit⟩ := bounded
  obtain ⟨start, maxCapacity, wp, capacity, _⟩ := moved
  rw [← start] at lower upper filled addressed
  rw [← maxCapacity] at filled limit
  refine ⟨⟨by omega, ?_, ?_⟩, addressed, limit⟩ <;> rcases filled with full | filled <;> omega

theorem ZoneBounded.step (bounded : ZoneBounded zoneSz zone) (returned : BackendReturns zoneSz call) :
    ZoneBounded zoneSz (zone.call zoneSz call) := by
  cases call with
  | append size writes =>
    obtain ⟨bytes, moved, _⟩ := bounded.append_took returned
    exact bounded.took moved
  | finish ok =>
    cases ok with
    | false => exact bounded
    | true =>
      have wp : (zone.start + zoneSz).toNat = zone.start.toNat + zoneSz.toNat := by
        rw [UInt64.toNat_add, Nat.mod_eq_of_lt bounded.addressed]
      exact ⟨⟨wp ▸ Nat.le_add_right _ _, wp.le, .inl rfl⟩, bounded.addressed, bounded.limit⟩
  | reset ok offline maxCapacity =>
    have at_start := Nat.le_add_right zone.start.toNat zoneSz.toNat
    cases ok with
    | false => exact bounded
    | true =>
      cases offline with
      | true => exact ⟨⟨le_rfl, at_start, .inl rfl⟩, bounded.addressed, bounded.limit⟩
      | false =>
        have empty : maxCapacity.toNat + (zone.start.toNat - zone.start.toNat) = maxCapacity.toNat := by omega
        exact ⟨⟨le_rfl, at_start, .inr empty⟩, bounded.addressed, returned rfl rfl⟩

/-- In every run the words of a zone keep their bounds, and an append counts exactly what the backend accepted just if
    no write that fails has written anything. -/
theorem zone_arithmetic {report : ZoneReport} (consistent : ConsistentReport zoneSz report)
    (bytesWritten : UInt64) {calls : List ZoneCall} (returned : ∀ call ∈ calls, BackendReturns zoneSz call) :
    Throughout (ZoneCounters.call zoneSz) (ZoneSound zoneSz) (.ofReport report bytesWritten) calls ∧
      EachStep (ZoneCounters.call zoneSz) (fun zone call => AppendExact zoneSz zone call ↔ NothingLost zone call)
        (.ofReport report bytesWritten) calls := by
  have start := consistent.bounded bytesWritten
  generalize ofReport report bytesWritten = zone at start
  induction calls generalizing zone with
  | nil => exact ⟨start.toZoneSound, trivial⟩
  | cons call calls ih =>
    obtain ⟨answered, later⟩ := List.forall_mem_cons.mp returned
    obtain ⟨sound, exact_rest⟩ := ih later _ (start.step answered)
    exact ⟨⟨start.toZoneSound, sound⟩, start.append_exact_iff answered, exact_rest⟩

theorem zone_arithmetic_partial_write :
    ZoneSound 16 (ZoneCounters.call 16 (.ofReport ⟨0, 8, 2, true⟩ 0) (.append 4 [⟨2, 2⟩, ⟨-1, 0⟩])) ∧
      AppendExact 16 (.ofReport ⟨0, 8, 2, true⟩ 0) (.append 4 [⟨2, 2⟩, ⟨-1, 0⟩]) := by
  have consistent : ConsistentReport 16 ⟨0, 8, 2, true⟩ := by constructor <;> decide
  have returned : ∀ call ∈ [ZoneCall.append 4 [⟨2, 2⟩, ⟨-1, 0⟩]], BackendReturns 16 call := by
    intro call one
    rw [List.mem_singleton.mp one]
    exact .inr (.inr ⟨by decide, by decide, rfl, .inr (.inl ⟨by decide, by decide⟩)⟩)
  obtain ⟨sound, exact_if⟩ := zone_arithmetic consistent 0 returned
  exact ⟨sound.2, exact_if.1.mpr (.inr rfl)⟩

/-- The backend writes two of the four bytes and then fails. -/
theorem torn_write_uncounted : BackendReturns 16 (.append 4 [⟨-1, 2⟩]) ∧
    ¬ AppendExact 16 (.ofReport ⟨0, 8, 0, true⟩ 0) (.append 4 [⟨-1, 2⟩]) := by
  refine ⟨.inr (.inl ⟨by decide, by decide⟩), fun counted => ?_⟩
  exact absurd counted.wp (by decide)

end ZenFSProof
