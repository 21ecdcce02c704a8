import ZonedStorage.Journal.Recover
import ZonedStorage.MetaLog.RoundTrip
import ZonedStorage.Namespace.MkFS

namespace ZenFSProof

open ByteString Resumption.Prog ZenFSModel ZenFSModel.ZenFS ZenFSModel.ZenMetaLog

/-- A file system on the device recovers from every part of the records that carries a snapshot and what follows it. -/
def Recovers (i : Nat) (now : Device) (records : List Bytes) : Prop :=
  ∀ (fs : ZenFS) (first rest : List Bytes) (entries : List Entry) (c : FileCatalog), fs.md = now →
    records = first ++ rest → List.Forall₂ (Carries (getIOZone fs.zbd.dev)) entries rest → Replayed fs c →
    AppliesAll c entries → entries.any isSnapshot = true →
    Ensures (recoverFrom ⟨i, (now.zones i).start + recordsLength now.geo.blockSz first⟩)
      (fun result _ => ∃ log, result = .ok log) fs

theorem recovers_of_stop {i : Nat} {now : Device} {records : List Bytes} (healthy : Healthy now)
    (aligned : now.geo.blockSz ∣ (now.zones i).start) (limit : (now.zones i).maxCapacity ≤ now.geo.zoneSz)
    (holds : Holds now (now.zones i).start records)
    (filled : recordsLength now.geo.blockSz records = (now.zones i).maxCapacity)
    (stop : (now.zones i).wp = (now.zones i).start + (now.zones i).maxCapacity) : Recovers i now records := by
  rintro fs first rest entries c rfl rfl carried replayed applies snapshot
  have block : 0 < fs.md.geo.blockSz := Nat.lt_of_lt_of_le (by decide) fs.md.geo.sector_le
  rw [recordsLength_append] at filled
  have few := count_le_recordsLength block rest
  have enough : rest.length < recoverRounds fs.md.geo := by
    have blocks : rest.length ≤ fs.md.geo.zoneSz / fs.md.geo.blockSz := (Nat.le_div_iff_mul_le block).mpr (by omega)
    exact Nat.lt_succ_of_le blocks
  have stored : LogAt fs.md i ((fs.md.zones i).start + recordsLength fs.md.geo.blockSz first) rest :=
    { aligned := Nat.dvd_add aligned (recordsLength_dvd block first)
      holds := (Holds.append.mp holds).2
      below := by omega
      inside := by omega
      stop := .eof (by omega) }
  simp only [recoverFrom, recoverFromWith, wp_bind, wp_read, onOk_ok, true_and]
  refine wp_mono ?_ (ensures_recoverLoop carried rfl enough healthy stored replayed applies)
  rintro _ fs' ⟨log, k, rfl, _, _, _⟩
  simp only [onOk_ok, Bool.false_or, snapshot, if_true, wp_pure]
  exact ⟨log, rfl⟩

/-- A zone that was filled to its last block is read to its end, and recovered from, by a process that opens the
    device again if and only if its capacity is the zone size and no record is too long to be read. -/
theorem full_zone_recovers_iff {i : Nat} {d d' : Device} {calls : List LogCall}
    (aligned : d.geo.blockSz ∣ (d.zones i).start) (limit : (d.zones i).maxCapacity ≤ d.geo.zoneSz)
    (empty : (d.zones i).wp = (d.zones i).start) (whole : (d.zones i).capacity = (d.zones i).maxCapacity)
    (run : LogRun i d calls d') (full : (d'.zones i).capacity = 0) {replies : Nat → Reply}
    (healthy : ∀ n, (replies n).ok = true) :
    (ReadsBack i (d'.reopen replies) (acknowledged calls) ∧ Recovers i (d'.reopen replies) (acknowledged calls)) ↔
      (∀ record ∈ acknowledged calls, Readable record) ∧ (d.zones i).maxCapacity = d.geo.zoneSz := by
  constructor
  · rintro ⟨reads, _⟩
    have readable : ∀ record ∈ acknowledged calls, Readable record := fun _ among => reads.readable among
    have logged := run.logged empty whole (run.sizeable readable)
    exact ⟨readable, (logged.reopened_iff aligned limit healthy).mp reads full⟩
  · rintro ⟨readable, same⟩
    have logged := run.logged empty whole (run.sizeable readable)
    refine ⟨(logged.reopened_iff aligned limit healthy).mpr (fun _ => same), ?_⟩
    have stop := logged.stop
    have room := logged.room
    have pointer : ((d'.reopen replies).zones i).wp = (d'.zones i).start + d'.geo.zoneSz := by
      simp [Device.reopen, Zone.report, Zone.isFull, full]
    have geo : (d'.reopen replies).geo = d'.geo := rfl
    have start : ((d'.reopen replies).zones i).start = (d'.zones i).start := rfl
    have maximum : ((d'.reopen replies).zones i).maxCapacity = (d'.zones i).maxCapacity := rfl
    refine recovers_of_stop healthy ?_ ?_ ?_ ?_ ?_
    · rw [geo, start, logged.geo, logged.start]
      exact aligned
    · rw [geo, maximum, logged.geo, logged.limit]
      exact limit
    · rw [start, logged.start]
      exact Holds.congr (d := d') rfl (fun _ _ _ => rfl) logged.holds
    · rw [geo, maximum, logged.geo, logged.limit]
      omega
    · rw [pointer, start, maximum, logged.geo, logged.limit, same]

def noFilesRecord : Bytes := taggedRecord .kCompleteFilesSnapshot []

def oneBlockOfZone : Device :=
  { sampleDevice 0 3 with zones := fun i => { sampleZone i with capacity := 512, maxCapacity := 512 } }

def blockGeometry : Geometry where
  blockSz := 512
  zoneSz := 512
  nrZones := 32
  sector_le := sampleGeometry.sector_le
  block_lt := sampleGeometry.block_lt
  block_dvd := by decide
  zone_pos := by decide
  zone_lt := by decide
  nrZones_lt := sampleGeometry.nrZones_lt
  device_lt := by decide

def blockSizedZones : Device := { oneBlockOfZone with geo := blockGeometry }

def filled (d : Device) : Device := ((addRecord 0 noFilesRecord).run d).elim d (·.2)

theorem logRun_filled {d : Device} (healthy : Healthy d)
    (fits : physSz d.geo.blockSz noFilesRecord.length % 2 ^ 32 ≤ (d.zones 0).capacity) :
    LogRun 0 d [⟨noFilesRecord, d, .ok (), filled d⟩] (filled d) := by
  have accepted : ∃ d', (addRecord 0 noFilesRecord).run d = some (.ok (), d') :=
    addRecord_accepts healthy (by decide +kernel) fits
  obtain ⟨d', ran⟩ := accepted
  have same : filled d = d' := by rw [filled, ran]; rfl
  exact .call .start (by decide +kernel) (by decide +kernel) (same ▸ ran) (Or.inl rfl)

theorem noFilesRecord_readable : ∀ record ∈ [noFilesRecord], Readable record := by decide +kernel

/-- The snapshot fills its zone, and the zone neither reads back nor recovers. -/
theorem short_zone_not_recovered : ∃ calls, LogRun 0 oneBlockOfZone calls (filled oneBlockOfZone) ∧
    acknowledged calls = [noFilesRecord] ∧ ((filled oneBlockOfZone).zones 0).capacity = 0 ∧
    ¬ ReadsBack 0 ((filled oneBlockOfZone).reopen alwaysOk) (acknowledged calls) ∧
    ((recoverFrom ⟨0, 0⟩).run { sampleZenFS with md := (filled oneBlockOfZone).reopen alwaysOk }).map (·.1.isOk) =
      some false := by
  have run := logRun_filled (d := oneBlockOfZone) (fun _ => rfl) (by decide +kernel)
  have full : ((filled oneBlockOfZone).zones 0).capacity = 0 := by decide +kernel
  have logged := run.logged rfl rfl (run.sizeable noFilesRecord_readable)
  refine ⟨_, run, rfl, full, fun reads => ?_, by decide +kernel⟩
  have ends := (logged.reopened_iff (Nat.dvd_zero _) (by decide) (fun _ => rfl)).mp reads full
  exact absurd ends (by decide)

theorem whole_zone_recovered : ∃ calls, LogRun 0 blockSizedZones calls (filled blockSizedZones) ∧
    acknowledged calls = [noFilesRecord] ∧ ((filled blockSizedZones).zones 0).capacity = 0 ∧
    ReadsBack 0 ((filled blockSizedZones).reopen alwaysOk) (acknowledged calls) ∧
    Recovers 0 ((filled blockSizedZones).reopen alwaysOk) (acknowledged calls) := by
  have run := logRun_filled (d := blockSizedZones) (fun _ => rfl) (by decide +kernel)
  have full : ((filled blockSizedZones).zones 0).capacity = 0 := by decide +kernel
  exact ⟨_, run, rfl, full, (full_zone_recovers_iff (Nat.dvd_zero _) (Nat.le_refl _) rfl rfl run full
    (fun _ => rfl)).mpr ⟨noFilesRecord_readable, rfl⟩⟩

end ZenFSProof
