import ZonedStorage.Journal.Create
import ZonedStorage.Journal.Superblocks
import ZonedStorage.MetaLog.RoundTrip

namespace ZenFSProof

open ByteString Resumption Resumption.Prog ZenFSModel ZenFSModel.ZenFS ZenFSModel.ZenFSTag Function Device List
open ZenFSModel.ZenMetaLog (physSz recordBuffer zMetaHeaderSize addRecord)

structure Elsewhere (d d' : Device) (i : Nat) : Prop where
  geo : d'.geo = d.geo
  count : d'.count = d.count
  replies : d'.replies = d.replies
  zones : ∀ j, j ≠ i → d'.zones j = d.zones j
  start : (d'.zones i).start = (d.zones i).start
  maxCapacity : (d'.zones i).maxCapacity = (d.zones i).maxCapacity
  mem : ∀ a, a < (d.zones i).start ∨ (d.zones i).start + d.geo.zoneSz ≤ a → d'.mem a = d.mem a

namespace Elsewhere

variable {d d' d'' : Device} {i : Nat}

theorem trans (first : Elsewhere d d' i) (second : Elsewhere d' d'' i) : Elsewhere d d'' i := by
  refine ⟨second.geo.trans first.geo, second.count.trans first.count, second.replies.trans first.replies, ?_,
    second.start.trans first.start, second.maxCapacity.trans first.maxCapacity, ?_⟩
  · intro j other
    rw [second.zones j other, first.zones j other]
  · intro a outside
    rw [second.mem a (by rw [first.start, first.geo]; exact outside), first.mem a outside]

end Elsewhere

theorem setBusy_elsewhere (d : Device) (i : Nat) (busy : Bool) : Elsewhere d (setBusy d i busy) i := by
  refine ⟨rfl, rfl, rfl, fun j other => setBusy_other d busy other, ?_, ?_, fun _ _ => rfl⟩ <;>
    simp only [setBusy, setZone, update_self]

theorem written_zone (d : Device) (i : Nat) (bytes : Bytes) (calls : Nat) : (written d i bytes calls).zones i =
    { d.zones i with
      wp := (d.zones i).wp + bytes.length
      capacity := (d.zones i).capacity - bytes.length } := update_self ..

structure Partitioned (d : Device) : Prop where
  aligned : ∀ i, i < d.count → d.geo.blockSz ∣ (d.zones i).start
  limit : ∀ i, i < d.count → (d.zones i).maxCapacity ≤ d.geo.zoneSz
  apart : ∀ i j, i < d.count → j < d.count → i ≠ j →
    (d.zones i).start + d.geo.zoneSz ≤ (d.zones j).start ∨ (d.zones j).start + d.geo.zoneSz ≤ (d.zones i).start

section

variable {d d' : Device} {i : Nat}

theorem Elsewhere.place (moved : Elsewhere d d' i) (j : Nat) : (d'.zones j).start = (d.zones j).start ∧
    (d'.zones j).maxCapacity = (d.zones j).maxCapacity := by
  by_cases same : j = i
  · subst same
    exact ⟨moved.start, moved.maxCapacity⟩
  · rw [moved.zones j same]
    exact ⟨rfl, rfl⟩

theorem Elsewhere.partitioned (moved : Elsewhere d d' i) (parted : Partitioned d) : Partitioned d' := by
  refine ⟨?_, ?_, ?_⟩
  · intro j below
    rw [moved.geo, (moved.place j).1]
    exact parted.aligned j (moved.count ▸ below)
  · intro j below
    rw [moved.geo, (moved.place j).2]
    exact parted.limit j (moved.count ▸ below)
  · intro j k below below' other
    rw [moved.geo, (moved.place j).1, (moved.place k).1]
    exact parted.apart j k (moved.count ▸ below) (moved.count ▸ below') other

theorem Elsewhere.other (moved : Elsewhere d d' i) (parted : Partitioned d) (below : i < d.count) {j : Nat}
    (inside : j < d.count) (different : j ≠ i) : SameZone d d' j := by
  have limit := parted.limit j inside
  have apart := parted.apart i j below inside different.symm
  refine ⟨moved.geo, ?_, ?_⟩
  · rw [moved.zones j different]
  · intro a low high
    refine moved.mem a ?_
    omega

theorem backendReset_elsewhere (d : Device) (i : Nat) : Elsewhere d (backendReset i d).2 i := by
  simp only [backendReset]
  split
  · refine ⟨rfl, rfl, rfl, fun j other => update_of_ne other .., ?_, ?_, ?_⟩
    · simp only [answered, setZone, update_self]
    · simp only [answered, setZone, update_self]
    · intro a outside
      exact Memory.clear_outside outside
  · exact ⟨rfl, rfl, rfl, fun _ _ => rfl, rfl, rfl, fun _ _ => rfl⟩

end

structure Wiped (d d' : Device) (i : Nat) (offline : Bool) : Prop where
  geo : d'.geo = d.geo
  start : (d'.zones i).start = (d.zones i).start
  limit : (d'.zones i).maxCapacity = (d.zones i).maxCapacity
  wp : (d'.zones i).wp = (d.zones i).start
  room : (d'.zones i).capacity = if offline then 0 else (d.zones i).maxCapacity

theorem Wiped.trans {d d' d'' : Device} {i : Nat} {offline : Bool} (wiped : Wiped d d' i offline)
    (same : SameZone d' d'' i) : Wiped d d'' i offline := by
  obtain ⟨start, limit, stop⟩ := same.place
  refine ⟨same.geo.trans wiped.geo, start.trans wiped.start, limit.trans wiped.limit, stop.trans wiped.wp, ?_⟩
  rw [same.zone]
  exact wiped.room

theorem SameZone.wiped {d d' d'' : Device} {i : Nat} {offline : Bool} (same : SameZone d d' i)
    (wiped : Wiped d' d'' i offline) : Wiped d d'' i offline := by
  obtain ⟨start, limit, _⟩ := same.place
  refine ⟨wiped.geo.trans same.geo, wiped.start.trans start, wiped.limit.trans limit, wiped.wp.trans start, ?_⟩
  rw [← limit]
  exact wiped.room

structure ResetPass (d d' : Device) (base a n : Nat) : Prop where
  geo : d'.geo = d.geo
  count : d'.count = d.count
  replies : d'.replies = d.replies
  kept : ∀ i, i < d.count → (a ≤ i → i < a + n → (d.replies (base + i)).ok = false) → SameZone d d' i
  wiped : ∀ i, a ≤ i → i < a + n → (d.replies (base + i)).ok = true → Wiped d d' i (d.replies (base + i)).offline
  offline : ∀ i, d'.offline i =
    if a ≤ i ∧ i < a + n ∧ (d.replies (base + i)).ok = true then (d.replies (base + i)).offline else d.offline i

section

variable {d : Device} {i : Nat}

theorem reset_kept (refused : d.reply.ok = false) : SameZone d (backendReset i d).2 i := by
  simp only [backendReset, refused, Bool.false_eq_true, if_false]
  exact ⟨rfl, rfl, fun _ _ _ => rfl⟩

theorem reset_wiped (fine : d.reply.ok = true) : Wiped d (backendReset i d).2 i d.reply.offline := by
  simp only [backendReset, fine, if_true]
  constructor
  · rfl
  all_goals simp only [answered, setZone, update_self]

theorem backendReset_offline (d : Device) (i j : Nat) : (backendReset i d).2.offline j =
    if j = i ∧ d.reply.ok = true then d.reply.offline else d.offline j := by
  cases fine : d.reply.ok with
  | true =>
    simp only [backendReset, fine, if_true, and_true]
    exact update_apply ..
  | false =>
    simp only [backendReset, fine, Bool.false_eq_true, if_false, and_false]
    rfl

variable {base : Nat}

theorem ResetPass.first {n : Nat} {d₁ d' : Device} (calls : d.calls = base + i) (parted : Partitioned d)
    (fits : i + (n + 1) ≤ d.count) (busy : Bool) (zone : d₁ = (backendReset i (setBusy d i true)).2 ∨
      d₁ = setBusy (backendReset i (setBusy d i true)).2 i busy)
    (rest : ResetPass d₁ d' base (i + 1) n) : ResetPass d d' base i (n + 1) := by
  have below : i < d.count := by omega
  have acquired := setBusy_elsewhere d i true
  have moved := acquired.trans (backendReset_elsewhere (setBusy d i true) i)
  have last : SameZone (backendReset i (setBusy d i true)).2 d₁ i := by
    rcases zone with rfl | rfl
    · exact ⟨rfl, rfl, fun _ _ _ => rfl⟩
    · exact (setBusy_media _ i busy).zone i
  have all : Elsewhere d d₁ i := by
    rcases zone with rfl | rfl
    · exact moved
    · exact moved.trans (setBusy_elsewhere _ i busy)
  have reply : (setBusy d i true).reply = d.replies (base + i) := by
    rw [← calls]
    rfl
  have begun : SameZone d (setBusy d i true) i := (setBusy_media d i true).zone i
  refine ⟨rest.geo.trans all.geo, rest.count.trans all.count, rest.replies.trans all.replies, ?_, ?_, ?_⟩
  · intro j inside refused
    have later : SameZone d₁ d' j := by
      refine rest.kept j (all.count ▸ inside) (fun low high => ?_)
      rw [all.replies]
      exact refused (by omega) (by omega)
    by_cases here : j = i
    · subst here
      have failed : (setBusy d j true).reply.ok = false := by
        rw [reply]
        exact refused (Nat.le_refl _) (by omega)
      exact ((begun.trans (reset_kept failed)).trans last).trans later
    · exact (all.other parted below inside here).trans later
  · intro j low high fine
    by_cases here : j = i
    · subst here
      have later : SameZone d₁ d' j := by
        refine rest.kept j (all.count ▸ below) (fun behind _ => ?_)
        omega
      have reset := @reset_wiped (setBusy d j true) j (by rw [reply]; exact fine)
      rw [reply] at reset
      exact (begun.wiped reset).trans (last.trans later)
    · have later := rest.wiped j (by omega) (by omega) (by rw [all.replies]; exact fine)
      rw [all.replies] at later
      exact (all.other parted below (by omega) here).wiped later
  · intro j
    have first : d₁.offline j = if j = i ∧ (d.replies (base + i)).ok = true then (d.replies (base + i)).offline
        else d.offline j := by
      rw [← reply]
      rcases zone with rfl | rfl
      · exact backendReset_offline _ i j
      · exact backendReset_offline _ i j
    rw [rest.offline j, first, all.replies]
    by_cases here : j = i
    · subst here
      rw [if_neg (by omega)]
      simp
    · have low : i + 1 ≤ j ↔ i ≤ j := by omega
      have high : j < i + 1 + n ↔ j < i + (n + 1) := by omega
      simp only [here, false_and, if_false, low, high]

theorem ResetPass.partitioned {d' : Device} (pass : ResetPass d d' base 0 d.count) (parted : Partitioned d) :
    Partitioned d' := by
  have place : ∀ j, j < d.count → (d'.zones j).start = (d.zones j).start ∧
      (d'.zones j).maxCapacity = (d.zones j).maxCapacity := by
    intro j below
    cases fine : (d.replies (base + j)).ok with
    | true =>
      have wiped := pass.wiped j (Nat.zero_le j) (by omega) fine
      exact ⟨wiped.start, wiped.limit⟩
    | false =>
      obtain ⟨start, limit, _⟩ := (pass.kept j below (fun _ _ => fine)).place
      exact ⟨start, limit⟩
  refine ⟨?_, ?_, ?_⟩
  · intro j below
    rw [pass.count] at below
    rw [pass.geo, (place j below).1]
    exact parted.aligned j below
  · intro j below
    rw [pass.count] at below
    rw [pass.geo, (place j below).2]
    exact parted.limit j below
  · intro j k below below' other
    rw [pass.count] at below below'
    rw [pass.geo, (place j below).1, (place k below').1]
    exact parted.apart j k below below' other

theorem backendReset_calls (d : Device) (i : Nat) : (backendReset i d).2.calls = d.calls + 1 := by
  simp only [backendReset]
  split
  · rfl
  · rfl

theorem done_resetMetaZones (n a : Nat) (metaZone : Option Nat) (calls : d.calls = base + a)
    (parted : Partitioned d) (fits : a + n ≤ d.count) (earlier : ∀ z, metaZone = some z → z < a) :
    IfDone (resetMetaZones (range' a n) metaZone) (fun result d' => ∀ final, result = .ok final →
      final = metaZone.or ((range' a n).find? (fun i => (d.replies (base + i)).ok)) ∧ ResetPass d d' base a n) d := by
  induction n generalizing a metaZone d with
  | zero =>
    rintro _ ⟨⟩
    refine ⟨by simp, rfl, rfl, rfl, fun i _ _ => ⟨rfl, rfl, fun _ _ _ => rfl⟩, fun i low high => ?_, fun i => ?_⟩
    · omega
    · rw [if_neg (by omega)]
  | succ n ih =>
    have reply : (setBusy d a true).reply = d.replies (base + a) := by
      rw [← calls]
      rfl
    have moved := (setBusy_elsewhere d a true).trans (backendReset_elsewhere (setBusy d a true) a)
    have counted : (backendReset a (setBusy d a true)).2.calls = base + (a + 1) := by
      rw [backendReset_calls]
      exact congrArg (· + 1) calls
    rw [range'_succ]
    simp only [resetMetaZones, wp_bind]
    cases busy : (d.zones a).busy with
    | true =>
      simp only [Zone.acquire, wp_act, busy, if_true, onOk_ok, Bool.false_eq_true, if_false, true_and, wp_bind, wp_read,
        wp_fail]
      rintro final ⟨⟩
    | false =>
      apply wp_acquire busy trivial
      simp only [onOk_ok, if_true, wp_bind]
      rw [wp_attempt]
      -- The pass over the later zones starts from the device with or without the busy flag.
      have onward : ∀ (chosen : Option Nat) (d₁ : Device), (∀ z, chosen = some z → z < a + 1) →
          (d₁ = (backendReset a (setBusy d a true)).2 ∨
            d₁ = setBusy (backendReset a (setBusy d a true)).2 a false) →
          IfDone (resetMetaZones (range' (a + 1) n) chosen) (fun result d' => ∀ final, result = .ok final →
            final = chosen.or ((range' (a + 1) n).find? (fun i => (d.replies (base + i)).ok)) ∧
              ResetPass d d' base a (n + 1)) d₁ := by
        intro chosen d₁ before zone
        have all : Elsewhere d d₁ a ∧ d₁.calls = base + (a + 1) := by
          rcases zone with rfl | rfl
          · exact ⟨moved, counted⟩
          · exact ⟨moved.trans (setBusy_elsewhere _ a false), counted⟩
        have rest := ih (a + 1) chosen all.2 (all.1.partitioned parted) (by rw [all.1.count]; omega) before
        refine wp_mono ?_ rest
        intro result d' pass final done
        obtain ⟨same, pass⟩ := pass final done
        rw [all.1.replies] at same
        exact ⟨same, pass.first calls parted (by omega) false zone⟩
      have release : ∀ chosen, (∀ z, chosen = some z → z < a) →
          IfDone (do
            if ← Zone.release a then resetMetaZones (range' (a + 1) n) chosen
            else
              let nr ← .read (fun d => Zone.getZoneNr d (d.zones a))
              .fail (Status.aborted ("Could not unset busy flag of zone " ++ toString nr)))
            (fun result d' => ∀ final, result = .ok final →
              final = chosen.or ((range' (a + 1) n).find? (fun i => (d.replies (base + i)).ok)) ∧
                ResetPass d d' base a (n + 1)) (backendReset a (setBusy d a true)).2 := by
        intro chosen before
        refine (wp_bind _ _ _ _).mpr (wp_release trivial (fun released => ?_))
        cases released with
        | true => exact onward chosen _ (fun z same => Nat.lt_succ_of_lt (before z same)) (Or.inr rfl)
        | false =>
          refine ⟨trivial, ?_⟩
          rintro final ⟨⟩
      have other : ∀ chosen, (∀ z, chosen = some z → z < a) → ¬ chosen = some a :=
        fun chosen before same => Nat.lt_irrefl a (before a same)
      simp only [Zone.reset, wp_bind, wp_act, onOk_ok, true_and]
      cases fine : (d.replies (base + a)).ok with
      | false =>
        have answer : (backendReset a (setBusy d a true)).1 = some (Status.ioError "Zone reset failed\n") := by
          simp only [backendReset, reply, fine, Bool.false_eq_true, if_false]
        simp only [answer, check, wp_fail, pure_bind, if_neg (other metaZone earlier)]
        refine wp_mono ?_ (release metaZone earlier)
        intro result d' pass final done
        obtain ⟨same, pass⟩ := pass final done
        rw [find?_cons, fine]
        exact ⟨same, pass⟩
      | true =>
        have answer : (backendReset a (setBusy d a true)).1 = none := by
          simp only [backendReset, reply, fine, if_true]
        simp only [answer, check, wp_pure, pure_bind]
        rw [find?_cons, fine]
        cases metaZone with
        | none =>
          rw [Option.orElse_none, if_pos rfl]
          refine wp_mono ?_ (onward (some a) _ (fun z same => by cases same; omega) (Or.inl rfl))
          intro result d' pass final done
          exact pass final done
        | some z =>
          rw [Option.orElse_some, if_neg (other (some z) earlier)]
          refine wp_mono ?_ (release (some z) earlier)
          intro result d' pass final done
          exact pass final done

end

section

def emptySnapshot : Bytes := taggedRecord kCompleteFilesSnapshot []

theorem emptySnapshot_readable : Readable emptySnapshot := by decide

theorem emptySnapshot_block (geo : Geometry) : physSz geo.blockSz emptySnapshot.length = geo.blockSz := by
  have sector := geo.sector_le
  have size : emptySnapshot.length + zMetaHeaderSize = 13 := rfl
  have small : (emptySnapshot.length + zMetaHeaderSize) % geo.blockSz = 13 := Nat.mod_eq_of_lt (by omega)
  rw [physSz_eq_alignUp, ZenMetaLog.alignUp, small, if_pos (by decide)]
  change 13 + (geo.blockSz - 13) = geo.blockSz
  omega

theorem files_toList_nil {fs : ZenFS} (empty : ∀ n : Name, fs.files[n]? = none) : fs.files.toList = [] := by
  refine eq_nil_iff_forall_not_mem.mpr (fun entry listed => ?_)
  have held := mem_files_iff.mp listed
  rw [empty] at held
  cases held

def freshZone (d : Device) : Option Nat := (range d.count).find? (fun i => (d.replies (d.calls + i)).ok)

/-- Whether the zone is offline after its reset. -/
def gone (d : Device) (i : Nat) : Bool :=
  if (d.replies (d.calls + i)).ok then (d.replies (d.calls + i)).offline else d.offline i

structure Made (d d' : Device) (z : Nat) (superblock : Superblock) : Prop where
  count : d'.count = d.count
  below : z < d.count
  kept : ∀ i, i < d.count → (d.replies (d.calls + i)).ok = false → SameZone d d' i
  wiped : ∀ i, i < d.count → (d.replies (d.calls + i)).ok = true → i ≠ z →
    Wiped d d' i (d.replies (d.calls + i)).offline
  offline : ∀ i, i < d.count → d'.offline i = gone d i
  online : gone d z = false
  logged : Logged z d d' [superblock.encode, emptySnapshot]

variable {d now : Device} {z : Nat} {records : List Bytes} {record : Bytes}

theorem written_elsewhere_logged (logged : Logged z d now records) (limit : (d.zones z).maxCapacity ≤ d.geo.zoneSz)
    {bytes : Bytes} (fits : bytes.length ≤ (now.zones z).capacity) (calls : Nat) :
    Elsewhere now (written now z bytes calls) z := by
  have start := logged.start
  have stop := logged.stop
  have room := logged.room
  have geo := logged.geo
  refine ⟨rfl, rfl, rfl, fun j other => update_of_ne other .., ?_, ?_, ?_⟩
  · rw [written_zone]
  · rw [written_zone]
  · intro a outside
    rw [geo] at outside
    exact Memory.write_outside (by omega)

theorem done_addRecord (logged : Logged z d now records) (limit : (d.zones z).maxCapacity ≤ d.geo.zoneSz)
    (readable : Readable record) : IfDone (addRecord z record) (fun result after => result = .ok () →
      Logged z d after (records ++ [record]) ∧ Elsewhere now after z ∧ after.offline = now.offline) now := by
  refine (wp_partial_iff _ _ _).mpr ?_
  rintro _ after ran rfl
  refine ⟨logged.add readable ran, ?_⟩
  obtain ⟨fits, calls, rfl⟩ := addRecord_written readable ran
  refine ⟨written_elsewhere_logged logged limit ?_ calls, rfl⟩
  rw [recordBuffer_length readable]
  exact fits

theorem done_addRecord_first {offline : Bool} (wiped : Wiped d now z offline)
    (limit : (d.zones z).maxCapacity ≤ d.geo.zoneSz)
    (readable : Readable record) : IfDone (addRecord z record) (fun result after => result = .ok () →
      offline = false ∧ Logged z d after [record] ∧ Elsewhere now after z ∧ after.offline = now.offline) now := by
  refine (wp_partial_iff _ _ _).mpr ?_
  rintro _ after ran rfl
  obtain ⟨fits, _⟩ := addRecord_written readable ran
  have sector := now.geo.sector_le
  have positive := physSz_ge_block (by omega : 0 < now.geo.blockSz) record.length
  have room := wiped.room
  cases offline with
  | true =>
    rw [if_pos rfl] at room
    omega
  | false =>
    have logged : Logged z d now [] := by
      refine ⟨wiped.geo, wiped.start, wiped.limit, wiped.wp, ?_, trivial⟩
      rw [wiped.wp, room]
      rfl
    exact ⟨rfl, (wp_partial_iff _ _ _).mp (done_addRecord logged limit readable) _ _ ran rfl⟩

end

section

variable {fs : ZenFS} {d : Device} {z : Nat}

theorem done_release (fs : ZenFS) (z : Nat) : IfDone (onMeta (Zone.release z)) (fun _ fs' =>
    Elsewhere fs.md fs'.md z ∧ SameZone fs.md fs'.md z ∧ fs'.md.offline = fs.md.offline) fs :=
  (wp_zoom mdLens _ _ _).mpr (wp_release trivial (fun _ =>
    ⟨setBusy_elsewhere fs.md z false, (setBusy_media fs.md z false).zone z, rfl⟩))

theorem Logged.same {d' d'' : Device} {records : List Bytes} (logged : Logged z d d' records)
    (same : SameZone d' d'' z) : Logged z d d'' records := by
  obtain ⟨start, limit, stop⟩ := same.place
  have capacity : (d''.zones z).capacity = (d'.zones z).capacity := by rw [same.zone]
  have wp := logged.stop
  have room := logged.room
  refine ⟨same.geo.trans logged.geo, start.trans logged.start, limit.trans logged.limit, stop.trans wp, ?_, ?_⟩
  · rw [stop, capacity]
    exact room
  · refine logged.holds.congr same.geo (fun a low high => same.mem a ?_ ?_)
    · rw [logged.start]
      exact low
    · rw [logged.start, logged.limit]
      rw [logged.geo] at high
      omega

theorem done_format {offline : Bool} (superblock : Superblock) (wiped : Wiped d fs.md z offline)
    (limit : (d.zones z).maxCapacity ≤ d.geo.zoneSz) (empty : ∀ n : Name, fs.files[n]? = none) : IfDone (do
      match ← (onMeta (addRecord z superblock.encode)).attempt with
      | .error status =>
        let _ ← onMeta (Zone.release z)
        .fail status
      | .ok () =>
        match ← (writeSnapshotLocked z).attempt with
        | .error _ =>
          let _ ← onMeta (Zone.release z)
          .fail (Status.ioError "Failed persist snapshot")
        | .ok () =>
          let _ ← onMeta (Zone.release z)) (fun result fs' => result = .ok () →
      offline = false ∧ Logged z d fs'.md [superblock.encode, emptySnapshot] ∧ Elsewhere fs.md fs'.md z ∧
        fs'.md.offline = fs.md.offline) fs := by
  refine (wp_bind _ _ _ _).mpr ?_
  rw [wp_attempt]
  refine (wp_zoom mdLens _ _ _).mpr (wp_mono ?_ (done_addRecord_first wiped limit (superblock_readable superblock)))
  rintro (status | _) d₁ added
  · refine (wp_bind _ _ _ _).mpr (wp_mono ?_ (done_release _ z))
    rintro (_ | _) _ _ ⟨⟩
  obtain ⟨online, logged, moved, same₁⟩ := added rfl
  refine (wp_bind _ _ _ _).mpr ?_
  rw [wp_attempt]
  have nothing : fs.files.toList = [] := files_toList_nil empty
  have snapshot : encodeSnapshotTo (mdLens.put d₁ fs) = emptySnapshot := by
    rw [encodeSnapshotTo]
    change taggedRecord _ (fs.files.toList.foldl _ []) = _
    rw [nothing]
    rfl
  simp only [writeSnapshotLocked, wp_bind, wp_read, onOk_ok, true_and, snapshot]
  refine (wp_zoom mdLens _ _ _).mpr (wp_mono ?_ (done_addRecord logged limit emptySnapshot_readable))
  rintro (status | _) d₂ added
  · refine (wp_bind _ _ _ _).mpr (wp_mono ?_ (done_release _ z))
    rintro (_ | _) _ _ ⟨⟩
  obtain ⟨logged, moved', same₂⟩ := added rfl
  rw [onOk_ok, wp_update]
  have still : (mdLens.put d₂ (mdLens.put d₁ fs)).files.toList = [] := nothing
  refine ⟨trivial, ?_⟩
  rw [still]
  refine (wp_bind _ _ _ _).mpr (wp_mono ?_ (done_release _ z))
  rintro (_ | _) fs' ⟨last, same, same₃⟩
  · rintro ⟨⟩
  · rintro _
    exact ⟨online, logged.same same, (moved.trans moved').trans last, same₃.trans (same₂.trans same₁)⟩

theorem done_mkFS {auxFsP uuid zenfsVersion : Bytes} {finishThreshold : UInt32} {enableGC : Bool}
    (parted : Partitioned fs.md) : IfDone (mkFS auxFsP uuid zenfsVersion finishThreshold enableGC) (fun result fs' =>
      result = .ok () → ∃ z, freshZone fs.md = some z ∧ Made fs.md fs'.md z (Superblock.make fs.md.geo uuid
        (formatPathLexically auxFsP) zenfsVersion finishThreshold enableGC).next) fs := by
  simp only [mkFS]
  split
  · rintro ⟨⟩
  simp only [clearFiles, wp_bind (Prog.update _), wp_update, onOk_ok, true_and]
  have md := (clearFiles_frame fs.files.toList fs).md
  have empty := clearFiles_unbound fs
  generalize fs.files.toList.foldl (fun fs entry => fs.eraseFile entry.1 fs.nextRef) fs = fs₁ at md empty
  have keeps : resetUnusedIOZones.Keeps (fun fs fs' : ZenFS => fs'.md = fs.md ∧ fs'.files = fs.files) :=
    (Keeps.all ZonedBlockDevice.resetUnusedIOZones).zoom zbdLens (fun _ _ _ => ⟨rfl, rfl⟩)
  refine (wp_bind _ _ _ _).mpr (wp_mono ?_ (wp_weaken (fun _ _ => trivial) id (keeps.wp_of (fun _ => ⟨rfl, rfl⟩)
    (fun _ _ _ first second => ⟨second.1.trans first.1, second.2.trans first.2⟩) fs₁)))
  rintro (status | _) fs₂ ⟨md₂, files₂⟩
  · rintro ⟨⟩
  rw [md] at md₂
  rw [← files₂] at empty
  simp only [onOk_ok, wp_bind (Prog.read _), wp_read, true_and]
  refine (wp_bind _ _ _ _).mpr ((wp_zoom mdLens _ _ _).mpr ?_)
  change wp _ _ (resetMetaZones (range fs₂.md.count) none) _ fs₂.md
  rw [md₂, range_eq_range']
  refine wp_mono ?_ (done_resetMetaZones fs.md.count 0 none (Nat.add_zero _).symm parted (by omega) (by simp))
  rintro (status | final) d₃ pass
  · rintro ⟨⟩
  obtain ⟨first, resets⟩ := pass final rfl
  rw [onOk_ok]
  cases final with
  | none => rintro ⟨⟩
  | some z =>
    have found := first.symm
    rw [Option.none_or] at found
    have fine := find?_some found
    have below : z < fs.md.count := by
      have member := mem_of_find?_eq_some found
      rw [← range_eq_range'] at member
      exact mem_range.mp member
    have wiped := resets.wiped z (Nat.zero_le z) (by omega) fine
    simp only [wp_bind (Prog.read _), wp_read, onOk_ok, true_and]
    have geo : (mdLens.put d₃ fs₂).md.geo = fs.md.geo := resets.geo
    rw [geo]
    refine wp_mono ?_ (done_format _ wiped (parted.limit z below) empty)
    intro result fs' made done
    obtain ⟨online, logged, moved, same⟩ := made done
    refine ⟨z, ?_, ?_⟩
    · rw [freshZone, range_eq_range']
      exact found
    · have again := resets.partitioned parted
      refine ⟨moved.count.trans resets.count, below, ?_, ?_, ?_, ?_, logged⟩
      · intro i inside refused
        have other : i ≠ z := by
          rintro rfl
          rw [refused] at fine
          cases fine
        exact (resets.kept i inside (fun _ _ => refused)).trans
          (moved.other again (resets.count ▸ below) (resets.count ▸ inside) other)
      · intro i inside reset other
        exact (resets.wiped i (Nat.zero_le i) (by omega) reset).trans
          (moved.other again (resets.count ▸ below) (resets.count ▸ inside) other)
      · intro i inside
        have after := resets.offline i
        simp only [Nat.zero_le, Nat.zero_add, inside, true_and] at after
        exact (congrFun same i).trans after
      · rw [gone, if_pos fine]
        exact online

end

end ZenFSProof
