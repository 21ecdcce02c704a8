import ZonedStorage.Device.MigrateData
import ZonedStorage.Device.Zones
import ZonedStorage.MetaLog.Records

namespace ZenFSProof

open ByteString Resumption.Prog ZenFSModel ZenFSModel.Device ZenFSModel.ZenMetaLog Memory

theorem add_padSz (blockSz size : Nat) : size + padSz blockSz size = alignUp blockSz size := by
  simp only [padSz, alignUp, ne_eq, ite_not]
  split
  · rfl
  · rfl

section

variable {stuck : Prop}

/-- What a copy reads: it starts on a block, and it lies below a write pointer up to the end of its
    last block. -/
structure Source (d : Device) (offset length : Nat) : Prop where
  dvd : d.geo.blockSz ∣ offset
  lies : ∃ zone, Lies d zone offset (alignUp d.geo.blockSz length)

def Copied (d : Device) (target offset length : Nat) (result : Except Status Unit) (d' : Device) : Prop :=
  result = .ok () ∧ ∃ c, d.calls ≤ c ∧ d' = written d target (d.mem.read offset (alignUp d.geo.blockSz length)) c

theorem Copied.nothing (d : Device) (target offset : Nat) : Copied d target offset 0 (.ok ()) d := by
  refine ⟨rfl, d.calls, Nat.le_refl _, ?_⟩
  rw [show alignUp d.geo.blockSz 0 = 0 by simp [alignUp]]
  exact (written_nil d target).symm

variable {d : Device} {offset length target : Nat}

theorem Source.rest {step : Nat} (source : Source d offset (step + length))
    (whole : d.geo.blockSz ∣ step) : Source d (offset + step) length := by
  obtain ⟨zone, lies⟩ := source.lies
  rw [alignUp_shift whole] at lies
  refine ⟨Nat.dvd_add source.dvd whole, zone, lies.inside, ?_, ?_⟩
  · exact Nat.le_trans lies.above (Nat.le_add_right _ _)
  · rw [Nat.add_assoc]
    exact lies.below

theorem Source.retained {d' : Device} (source : Source d offset length) (laid : Laid d)
    (retains : Retains d d') : Source d' offset length := by
  obtain ⟨zone, lies⟩ := source.lies
  refine ⟨?_, zone, ?_⟩
  · rw [retains.layout.geo]
    exact source.dvd
  · rw [retains.layout.geo]
    exact retains.lies laid lies

theorem Copied.next {d' : Device} {step c : Nat} {result : Except Status Unit} (laid : Laid d)
    (later : d.calls ≤ c) (source : Source d offset (step + length)) (whole : d.geo.blockSz ∣ step)
    (retains : Retains d (written d target (d.mem.read offset step) c))
    (copied : Copied (written d target (d.mem.read offset step) c) target (offset + step) length result d') :
    Copied d target offset (step + length) result d' := by
  obtain ⟨ok, c', after, same⟩ := copied
  obtain ⟨zone, lies⟩ := (source.rest whole).lies
  refine ⟨ok, c', Nat.le_trans later after, ?_⟩
  have unread := retains.read laid lies
  have geo : (written d target (d.mem.read offset step) c).geo = d.geo := rfl
  rw [same, geo, unread, written_written, ← read_add, alignUp_shift whole]

theorem wp_migrateLoop_succ {rounds : Nat}
    {post : Except Status Unit → Device → Prop} (fine : ¬ Broken d) (blocks : d.geo.blockSz ∣ MIGRATE_STEP)
    (dvd : d.geo.blockSz ∣ offset)
    (fits : alignUp d.geo.blockSz (min (length + 1) MIGRATE_STEP) ≤ (d.zones target).capacity)
    (done : ∀ c, d.calls ≤ c →
      wp (fun _ => True) stuck
        (migrateLoop target rounds (offset + alignUp d.geo.blockSz (min (length + 1) MIGRATE_STEP))
          (length + 1 - min (length + 1) MIGRATE_STEP)) post
        (written d target (d.mem.read offset (alignUp d.geo.blockSz (min (length + 1) MIGRATE_STEP))) c)) :
    wp (fun _ => True) stuck (migrateLoop target (rounds + 1) offset (length + 1)) post d := by
  have block : 0 < d.geo.blockSz := Nat.lt_of_lt_of_le (by decide) d.geo.sector_le
  have step : alignUp d.geo.blockSz (min (length + 1) MIGRATE_STEP) ≤ MIGRATE_STEP :=
    alignUp_le block (Nat.min_le_right _ _) blocks
  have short : MIGRATE_STEP < 2 ^ 31 := by decide
  have some_left : 0 < min (length + 1) MIGRATE_STEP := Nat.lt_min.mpr ⟨Nat.succ_pos _, by decide⟩
  simp only [migrateLoop, wp_bind, wp_read, onOk_ok, add_padSz]
  refine ⟨trivial, ?_⟩
  apply wp_deviceRead (Nat.lt_of_lt_of_le some_left (alignUp_ge _ _)) (Nat.lt_of_le_of_lt step short) (fun _ => ⟨dvd, alignUp_dvd block _⟩) (fun _ => trivial)
  · exact fun broken => (fine broken).elim
  · intro c later
    simp only [onOk_ok, wp_bind, wp_attempt, read_length]
    refine wp_append (by rw [read_length]; omega) trivial ?_ ?_
    · intro small
      rw [read_length] at small
      exact absurd fits (Nat.not_le_of_lt small)
    · intro _
      refine ⟨fun _ _ _ _ => trivial, ?_, ?_⟩
      · exact fun _ _ _ _ broken => (fine (broken.earlier later rfl)).elim
      · exact fun c' after => done c' (Nat.le_trans later after)

theorem wp_migrateLoop (target rounds : Nat) (enough : length ≤ rounds)
    (laid : Laid d) (fine : ¬ Broken d) (blocks : d.geo.blockSz ∣ MIGRATE_STEP) (inside : target < d.count)
    (source : Source d offset length) (fits : alignUp d.geo.blockSz length ≤ (d.zones target).capacity) :
    wp (fun _ => True) stuck (migrateLoop target rounds offset length) (Copied d target offset length) d := by
  induction rounds generalizing d offset length with
  | zero =>
    have empty : length = 0 := by omega
    subst empty
    exact Copied.nothing d target offset
  | succ rounds ih =>
    cases length with
    | zero => exact Copied.nothing d target offset
    | succ length =>
      have block : 0 < d.geo.blockSz := Nat.lt_of_lt_of_le (by decide) d.geo.sector_le
      by_cases last : length + 1 ≤ MIGRATE_STEP
      · have whole : min (length + 1) MIGRATE_STEP = length + 1 := Nat.min_eq_left last
        refine wp_migrateLoop_succ fine blocks source.dvd (by rw [whole]; exact fits) (fun c later => ?_)
        rw [whole, Nat.sub_self]
        simp only [migrateLoop, wp_pure]
        exact ⟨rfl, c, later, rfl⟩
      · have whole : min (length + 1) MIGRATE_STEP = MIGRATE_STEP := Nat.min_eq_right (by omega)
        have size : alignUp d.geo.blockSz MIGRATE_STEP = MIGRATE_STEP := by
          have same := alignUp_shift blocks 0
          simpa [alignUp] using same
        obtain ⟨rest, split⟩ : ∃ rest, length + 1 = MIGRATE_STEP + rest := Nat.exists_eq_add_of_le (by omega)
        have left : length + 1 - MIGRATE_STEP = rest := by omega
        have positive : 0 < MIGRATE_STEP := by decide
        rw [split] at source fits
        rw [alignUp_shift blocks] at fits
        refine wp_migrateLoop_succ fine blocks source.dvd (by rw [whole, size]; omega) (fun c later => ?_)
        rw [whole, size, left]
        have retains : Retains d (written d target (d.mem.read offset MIGRATE_STEP) c) := by
          apply Retains.written c
          · rw [read_length]
            omega
          · exact inside
          · rw [read_length]
            exact blocks
        have room : alignUp d.geo.blockSz rest ≤
            ((written d target (d.mem.read offset MIGRATE_STEP) c).zones target).capacity := by
          simp only [written, Function.update_self, read_length]
          omega
        refine wp_mono ?_ (ih (by omega) (retains.laid laid) (fun broken => fine (broken.earlier later rfl)) blocks
          inside ((source.rest blocks).retained laid retains) room)
        intro result d' copied
        rw [split]
        exact copied.next laid later source blocks retains

end

end ZenFSProof
