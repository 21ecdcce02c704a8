import ZonedStorage.Device.Selection
import ZonedStorage.Device.Allocation
import ZonedStorage.Migration.Callers
import ZonedStorage.Migration.Copy
import ZonedStorage.Namespace.Migrate
import ZonedStorage.Namespace.MkFS

namespace ZenFSProof

open ByteString Resumption Resumption.Prog ZenFSModel ZenFSModel.Device ZenFSModel.ZenFS ZenFSModel.ZenMetaLog Nat
  ZenFSModel.ZonedBlockDevice

/-- What `MigrateFileExtents` has `MigrateData` copy for an extent: with the header, if the file is sparse. -/
def amount (sparse : Bool) (length : Nat) : Nat := length + (if sparse then SPARSE_HEADER_SIZE else 0)

/-- The bytes are at the former write pointer of the target, which has gone on by whole blocks. -/
structure CopiedTo (d : Device) (target offset length : Nat) (d' : Device) : Prop where
  bytes : d'.mem.read (d.zones target).wp length = d.mem.read offset length
  pointer : (d'.zones target).wp = (d.zones target).wp + alignUp d.geo.blockSz length

def CopiesFaithfully (d : Device) (target offset length : Nat) : Prop :=
  ∃ d', (migrateData offset length target).run d = some (.ok (), d') ∧ CopiedTo d target offset length d'

/-- A zone that `TakeMigrateZone` gives out for an extent has room for what is copied, on every device of the
    block size. -/
def CheckSuffices (blockSz : Nat) (sparse : Bool) (length : Nat) : Prop :=
  ∀ zbd zbd' lifetime i, zbd.dev.geo.blockSz = blockSz → Laid zbd.dev →
    (takeMigrateZone lifetime length).run zbd = some (.ok (some i), zbd') →
    alignUp blockSz (amount sparse length) ≤ (zbd'.dev.zones i).capacity

section

variable {d : Device} {target offset length : Nat}

theorem Copied.copiedTo {result : Except Status Unit} {d' : Device} (copied : Copied d target offset length result d') :
    CopiedTo d target offset length d' := by
  obtain ⟨_, c, _, same⟩ := copied
  have fits : 0 + length ≤ alignUp d.geo.blockSz length := by
    rw [zero_add]
    exact alignUp_ge d.geo.blockSz length
  rw [same]
  refine ⟨?_, ?_⟩
  · have whole : (written d target (d.mem.read offset (alignUp d.geo.blockSz length)) c).mem.read (d.zones target).wp
        (alignUp d.geo.blockSz length) = d.mem.read offset (alignUp d.geo.blockSz length) := by
      have stored := @Memory.read_write d.mem (d.zones target).wp
        (d.mem.read offset (alignUp d.geo.blockSz length))
      rwa [Memory.read_length] at stored
    have first := congrArg (fun bytes => (bytes.drop 0).take length) whole
    simpa only [Memory.read_drop_take _ fits, add_zero] using first
  · simp only [written, Function.update_self, Memory.read_length]

theorem Source.shorter {less : Nat} (source : Source d offset length) (le : less ≤ length) : Source d offset less := by
  have block : 0 < d.geo.blockSz := lt_of_lt_of_le (by decide) d.geo.sector_le
  have fewer : alignUp d.geo.blockSz less ≤ alignUp d.geo.blockSz length :=
    alignUp_le block (le_trans le (alignUp_ge _ _)) (alignUp_dvd block length)
  obtain ⟨zone, lies⟩ := source.lies
  have below := lies.below
  exact ⟨source.dvd, zone, lies.inside, lies.above, by omega⟩

theorem run_migrateData (laid : Laid d) (fine : ¬ Broken d) (blocks : d.geo.blockSz ∣ MIGRATE_STEP)
    (inside : target < d.count) (source : Source d offset length)
    (fits : alignUp d.geo.blockSz length ≤ (d.zones target).capacity) :
    ∃ d', (migrateData offset length target).run d = some (.ok (), d') ∧
      CopiedTo d target offset (length % 2 ^ 32) d' := by
  have block : 0 < d.geo.blockSz := lt_of_lt_of_le (by decide) d.geo.sector_le
  have le : length % 2 ^ 32 ≤ length := mod_le _ _
  have fewer : alignUp d.geo.blockSz (length % 2 ^ 32) ≤ alignUp d.geo.blockSz length :=
    alignUp_le block (le_trans le (alignUp_ge _ _)) (alignUp_dvd block length)
  have copies : wp (fun _ => True) False (migrateData offset length target)
      (Copied d target offset (length % 2 ^ 32)) d := by
    simp only [migrateData, wp_bind, wp_read, onOk_ok]
    refine ⟨trivial, ?_⟩
    rw [if_neg (fun odd => odd (mod_eq_zero_of_dvd source.dvd))]
    exact wp_migrateLoop target _ (le_refl _) laid fine blocks inside (source.shorter le) (le_trans fewer fits)
  obtain ⟨result, d', ran, copied⟩ := (wp_total_iff _ _ _).mp copies
  refine ⟨d', ?_, copied.copiedTo⟩
  rw [ran, copied.1]

theorem copiesFaithfully_iff (laid : Laid d) (fine : ¬ Broken d) (blocks : d.geo.blockSz ∣ MIGRATE_STEP)
    (inside : target < d.count) (source : Source d offset length)
    (fits : alignUp d.geo.blockSz length ≤ (d.zones target).capacity) :
    CopiesFaithfully d target offset length ↔ length < 2 ^ 32 := by
  obtain ⟨d', ran, copied⟩ := run_migrateData laid fine blocks inside source fits
  constructor
  · rintro ⟨d'', ran', whole⟩
    rw [ran] at ran'
    cases ran'
    -- the write pointer has gone on by less than the length
    have block : 0 < d.geo.blockSz := lt_of_lt_of_le (by decide) d.geo.sector_le
    have small : d.geo.blockSz ≤ MIGRATE_STEP := le_of_dvd (by decide) blocks
    have step : MIGRATE_STEP ≤ 2 ^ 32 := by decide
    have same := whole.pointer.symm.trans copied.pointer
    have least := alignUp_ge d.geo.blockSz length
    have most := alignUp_lt block (length % 2 ^ 32)
    omega
  · intro short
    rw [mod_eq_of_lt short] at copied
    exact ⟨d', ran, copied⟩

end

section

theorem run_takeMigrateZone (lifetime : WriteLifeTimeHint) (length : Nat) {zbd : ZonedBlockDevice}
    (idle : zbd.migrating = false) :
    ∃ best, BestOf zbd lifetime (length % 2 ^ 32) (List.range zbd.dev.count) best ∧
      (takeMigrateZone lifetime length).run zbd =
        some (.ok best.zone, holding { zbd with migrating := best.zone.isSome } best.zone) := by
  obtain ⟨best, ran, known⟩ := run_getBestOpenZoneMatch { zbd with migrating := true } lifetime (length % 2 ^ 32)
  refine ⟨best, ⟨known.picked, known.good, known.least, known.none⟩, ?_⟩
  simp only [takeMigrateZone, await, bind_def, Prog.bind, run, idle, Bool.false_eq_true, if_false]
  rw [← bind_def, run_bind, run_attempt, ran]
  obtain ⟨bestDiff, zone⟩ := best
  cases zone with
  | none => rfl
  | some i => rfl

variable {length blockSz : Nat}

theorem takeMigrateZone_found {lifetime : WriteLifeTimeHint} {i : Nat} {zbd zbd' : ZonedBlockDevice}
    (ran : (takeMigrateZone lifetime length).run zbd = some (.ok (some i), zbd')) :
    i < zbd.dev.count ∧ Eligible (length % 2 ^ 32) (zbd.dev.zones i) ∧
      (zbd'.dev.zones i).capacity = (zbd.dev.zones i).capacity := by
  cases idle : zbd.migrating with
  | true =>
    simp only [takeMigrateZone, await, bind_def, Prog.bind, run, idle, if_true] at ran
    cases ran
  | false =>
    obtain ⟨best, known, took⟩ := run_takeMigrateZone lifetime length idle
    rw [took] at ran
    obtain ⟨bestDiff, zone⟩ := best
    cases ran
    obtain ⟨listed, eligible, _⟩ := known.picked i rfl
    refine ⟨List.mem_range.mp listed, eligible, ?_⟩
    rw [holding, markBusy_zones]

theorem roundedUp_le {capacity : Nat} (block : 0 < blockSz) (whole : blockSz ∣ capacity)
    (room : capacity ≠ 0) (enough : length ≤ capacity) : max blockSz (alignUp blockSz length) ≤ capacity :=
  Nat.max_le.mpr ⟨le_of_dvd (pos_of_ne_zero room) whole, alignUp_le block enough whole⟩

def oneZone (blockSz capacity : Nat) (sector : 512 ≤ blockSz) (blocks : blockSz ∣ MIGRATE_STEP) : ZonedBlockDevice where
  dev :=
    { geo :=
        { blockSz := blockSz
          zoneSz := 2 ^ 33
          nrZones := 2
          sector_le := sector
          block_lt := Nat.lt_of_le_of_lt (Nat.le_of_dvd (by decide) blocks) (by decide)
          block_dvd := Nat.dvd_trans blocks (by decide)
          zone_pos := by decide
          zone_lt := Nat.div_lt_of_lt_mul (by omega)
          nrZones_lt := by decide
          device_lt := by decide }
      count := 1
      zones := fun _ => ⟨0, capacity, 2 ^ 33, 2 ^ 33 - capacity, .notSet, 1, false⟩
      offline := fun _ => false
      mem := Memory.zero
      replies := fun _ => ⟨true, 0, false, false⟩
      calls := 0 }
  activeIoZones := 1
  openIoZones := 0
  maxNrActiveIoZones := 1
  maxNrOpenIoZones := 1
  finishThreshold := 0
  migrating := false
  zoneDeferredStatus := none

theorem oneZone_laid {capacity : Nat} (sector : 512 ≤ blockSz) (blocks : blockSz ∣ MIGRATE_STEP)
    (whole : blockSz ∣ capacity) (fits : capacity ≤ 2 ^ 33) : Laid (oneZone blockSz capacity sector blocks).dev where
  apart first second different := (different (by have : _ < 1 := first; have : _ < 1 := second; omega)).elim
  begun _ := zero_le _
  room _ := by
    simp only [oneZone]
    omega
  start_dvd _ := dvd_zero _
  wp_dvd _ := dvd_sub (dvd_trans blocks (by decide)) whole
  capacity_dvd _ := whole

theorem checkSuffices_iff (sector : 512 ≤ blockSz) (blocks : blockSz ∣ MIGRATE_STEP) (sparse : Bool)
    (short : length < 2 ^ 32) :
    CheckSuffices blockSz sparse length ↔ alignUp blockSz (amount sparse length) ≤ max blockSz (alignUp blockSz length) := by
  have block : 0 < blockSz := lt_of_lt_of_le (by decide) sector
  have step : blockSz ≤ MIGRATE_STEP := le_of_dvd (by decide) blocks
  have bound : MIGRATE_STEP ≤ 2 ^ 32 := by decide
  constructor
  · intro guaranteed
    have close := alignUp_lt block length
    have whole : blockSz ∣ max blockSz (alignUp blockSz length) := by
      rcases le_total blockSz (alignUp blockSz length) with le | le
      · rw [max_eq_right le]
        exact alignUp_dvd block length
      · rw [max_eq_left le]
    have fits : max blockSz (alignUp blockSz length) ≤ 2 ^ 33 := by omega
    have covers : length ≤ max blockSz (alignUp blockSz length) :=
      le_trans (alignUp_ge blockSz length) (le_max_right _ _)
    have positive : 0 < max blockSz (alignUp blockSz length) := lt_of_lt_of_le block (le_max_left _ _)
    generalize max blockSz (alignUp blockSz length) = capacity at whole fits covers positive ⊢
    obtain ⟨best, known, took⟩ := run_takeMigrateZone .notSet length
      (rfl : (oneZone blockSz capacity sector blocks).migrating = false)
    have eligible : Eligible (length % 2 ^ 32) ((oneZone blockSz capacity sector blocks).dev.zones 0) := by
      rw [mod_eq_of_lt short]
      exact ⟨rfl, one_pos, ne_of_gt positive, covers⟩
    cases zone : best.zone with
    | none =>
      have good := (known.none zone).2 0 (List.mem_range.mpr one_pos) eligible
      have diff : ¬ LIFETIME_DIFF_NOT_GOOD < getLifeTimeDiff .notSet .notSet := by decide
      exact (diff good).elim
    | some i =>
      rw [zone] at took
      have enough := guaranteed _ _ _ i rfl (oneZone_laid sector blocks whole fits) took
      rwa [(takeMigrateZone_found took).2.2] at enough
  · rintro enough zbd zbd' lifetime i rfl laid ran
    obtain ⟨inside, eligible, same⟩ := takeMigrateZone_found ran
    have checked := eligible.enough
    rw [mod_eq_of_lt short] at checked
    rw [same]
    exact le_trans enough (roundedUp_le block (laid.capacity_dvd inside) eligible.notFull checked)

end

/-- The copy is faithful and the check sufficient for exactly the extents whose length, with its header, fits a
    `uint32_t` and is not made longer by the header when it is rounded up to blocks. -/
theorem migration_faithful_iff (d : Device) (target offset length : Nat) (sparse : Bool) (laid : Laid d)
    (fine : ¬ Broken d) (blocks : d.geo.blockSz ∣ MIGRATE_STEP) (inside : target < d.count)
    (source : Source d offset (amount sparse length))
    (fits : alignUp d.geo.blockSz (amount sparse length) ≤ (d.zones target).capacity) :
    (CopiesFaithfully d target offset (amount sparse length) ∧ CheckSuffices d.geo.blockSz sparse length) ↔
      amount sparse length < 2 ^ 32 ∧
        alignUp d.geo.blockSz (amount sparse length) ≤ max d.geo.blockSz (alignUp d.geo.blockSz length) := by
  have copies := copiesFaithfully_iff laid fine blocks inside source fits
  have le : length ≤ amount sparse length := Nat.le_add_right _ _
  constructor
  · rintro ⟨copied, checked⟩
    have short := copies.mp copied
    exact ⟨short, (checkSuffices_iff d.geo.sector_le blocks sparse (Nat.lt_of_le_of_lt le short)).mp checked⟩
  · rintro ⟨short, rounded⟩
    exact ⟨copies.mpr short,
      (checkSuffices_iff d.geo.sector_le blocks sparse (Nat.lt_of_le_of_lt le short)).mpr rounded⟩

def oneByteFile (reply : Reply) : ZenFS :=
  { sampleZenFS with
    zbd := { twoOpenZones with
      dev := { twoOpenZones.dev with mem := Memory.zero.write 0 [0x61], replies := fun _ => reply } }
    files := (∅ : FileMap).insertIfNew (path "/a") 0
    objects := fun _ => { ZoneFile.new 1 with
      extents := [⟨0, 1, 0⟩], fileSize := 1, linkFiles := [path "/a"], lifetime := .medium } }

theorem oneByteFile_laid (reply : Reply) : Laid (oneByteFile reply).zbd.dev := by
  have zones : ∀ i, (oneByteFile reply).zbd.dev.zones i = ⟨i * 16384, 8192, 16384, i * 16384 + 8192, .medium, 4096, false⟩ :=
    fun _ => rfl
  have geo : (oneByteFile reply).zbd.dev.geo = sampleGeometry := rfl
  constructor
  all_goals simp only [zones, geo, sampleGeometry]
  · intro i j _ _ other
    omega
  all_goals intro i _
  all_goals omega

theorem oneByteFile_migrated :
    CopiesFaithfully (oneByteFile ⟨true, 0, false, false⟩).zbd.dev 1 0 (amount false 1) ∧ CheckSuffices 512 false 1 := by
  have fine : ¬ Broken (oneByteFile ⟨true, 0, false, false⟩).zbd.dev := by
    rintro ⟨n, _, refused⟩
    cases refused
  exact (migration_faithful_iff _ 1 0 1 false (oneByteFile_laid _) fine (by decide) (by decide)
    ⟨by decide, 0, by decide, by decide, by decide⟩ (by decide)).mpr ⟨by decide, by decide⟩

theorem sector_le_page : 512 ≤ 4096 := by decide

def largeZones : Device :=
  { (oneZone 4096 0 sector_le_page (by decide)).dev with
    count := 2
    zones := fun i => ⟨i * 2 ^ 33, 2 ^ 32, 2 ^ 33, i * 2 ^ 33 + 2 ^ 32, .notSet, 1, false⟩ }

theorem largeZones_laid : Laid largeZones := by
  have zones : ∀ i, largeZones.zones i = ⟨i * 2 ^ 33, 2 ^ 32, 2 ^ 33, i * 2 ^ 33 + 2 ^ 32, .notSet, 1, false⟩ :=
    fun _ => rfl
  have block : largeZones.geo.blockSz = 4096 := rfl
  have size : largeZones.geo.zoneSz = 2 ^ 33 := rfl
  constructor
  all_goals simp only [zones, block, size]
  · intro i j _ _ other
    omega
  all_goals intro i _
  all_goals omega

/-- An extent of 4 GiB fits the other zone, but nothing of it is copied there. -/
theorem four_gigabytes_not_copied : Laid largeZones ∧ ¬ Broken largeZones ∧ Source largeZones 0 (2 ^ 32) ∧
    alignUp largeZones.geo.blockSz (2 ^ 32) ≤ (largeZones.zones 1).capacity ∧
    (migrateData 0 (2 ^ 32) 1).run largeZones = some (.ok (), largeZones) ∧
    ¬ CopiesFaithfully largeZones 1 0 (2 ^ 32) := by
  have ran : (migrateData 0 (2 ^ 32) 1).run largeZones = some (.ok (), largeZones) := rfl
  refine ⟨largeZones_laid, ?_, ⟨by decide, 0, by decide, by decide, by decide⟩, by decide, ran, ?_⟩
  · rintro ⟨n, _, refused⟩
    cases refused
  · rintro ⟨d', again, copied⟩
    rw [ran] at again
    cases again
    exact absurd copied.pointer (by decide)

end ZenFSProof
