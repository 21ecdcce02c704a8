import ZonedStorage.Journal.Recovering
import ZonedStorage.MetaLog.ZoneFs

namespace ZenFSProof

open ByteString Resumption.Prog ZenFSModel ZenFSModel.ZenFS ZenFSModel.ZoneFsBackend

/-- The positions at which `ReadRecord` is called for a log that is read from `first` on. -/
def Begun (d : Device) (zone first pos : Nat) : Prop := Relation.ReflTransGen (NextRecord d zone) first pos

variable {d : Device}

theorem NextRecord.lt {zone pos next : Nat} (next_record : NextRecord d zone pos next) :
    pos < next ∧ pos < (d.zones zone).wp := by
  obtain ⟨below, _, _, _, rfl⟩ := next_record
  have aligned := alignUp_ge d.geo.blockSz (pos + 8 + announced d pos)
  exact ⟨by omega, below⟩

theorem ensures_zoneFsLoop (more : Nat) {rounds : Nat} {fs : ZenFS} {log : ZenMetaLog} {seen : Bool}
    (same : fs.md = d) (layout : FileZone d log.zone) (low : (d.zones log.zone).start ≤ log.readPos)
    (intact : ∀ pos, Begun d log.zone log.readPos pos → ¬ Torn d log.zone pos)
    (enough : (d.zones log.zone).wp - log.readPos < rounds) :
    Ensures (recoverLoop (readRecord (more + 4)) rounds log seen) (fun _ _ => True) fs := by
  induction rounds generalizing fs log seen with
  | zero => exact absurd enough (Nat.not_lt_zero _)
  | succ rounds ih =>
    obtain ⟨result, ran, what⟩ := FileZone.readRecord_returns log layout more low (intact _ .refl)
    simp only [recoverLoop, wp_bind]
    rw [wp_attempt]
    refine (wp_zoom mdLens _ _ _).mpr ((wp_total_iff _ _ _).mpr ⟨result, d, same ▸ ran, ?_⟩)
    have still : mdLens.put d fs = fs := same ▸ mdLens.put_get fs
    rw [still]
    rcases result with status | ⟨record, log'⟩
    · trivial
    simp only [onOk_ok]
    split
    · trivial
    rename_i tag rest decoded
    split
    · trivial
    split
    · trivial
    rename_i data _ _
    rcases what record log' rfl with rfl | ⟨zone, next_record⟩
    · cases decoded
    obtain ⟨forward, below⟩ := next_record.lt
    have framed := (replays_recoverRecord tag data).keeps.wp_of Frame.refl (fun _ _ _ => Frame.trans) fs
    rw [wp_bind]
    refine wp_mono ?_ ((replays_recoverRecord tag data).total.wp (wp_weaken (fun _ _ => trivial) id framed))
    intro answer fs' frame
    cases answer with
    | error status => trivial
    | ok snapshot =>
      rw [← zone] at layout low intact next_record below enough
      have later : ∀ pos, Begun d log'.zone log'.readPos pos → ¬ Torn d log'.zone pos :=
        fun pos begun => intact pos (.head next_record begun)
      exact ih (frame.md.trans same) layout (by omega) later (by omega)

/-- `ReadRecord` returns wherever it is called on the log, and so does `RecoverFrom`. -/
def ReadingEnds (fs : ZenFS) (log : ZenMetaLog) : Prop :=
  (∀ pos, Begun fs.md log.zone log.readPos pos →
    ∃ rounds, ((readRecord rounds ⟨log.zone, pos⟩).run fs.md).isSome) ∧
  ∃ rounds, ((recoverFromWith (readRecord rounds) rounds log).run fs).isSome

theorem Begun.from {zone first pos : Nat} (begun : Begun d zone first pos) : first ≤ pos := by
  induction begun with
  | refl => exact Nat.le_refl _
  | tail _ next_record ih => exact Nat.le_trans ih (Nat.le_of_lt next_record.lt.1)

/-- Reading a log on a zone file comes to an end if and only if no record of it has been cut off. -/
theorem reading_ends_iff {fs : ZenFS} {log : ZenMetaLog} (layout : FileZone fs.md log.zone)
    (low : (fs.md.zones log.zone).start ≤ log.readPos) :
    ReadingEnds fs log ↔ ∀ pos, Begun fs.md log.zone log.readPos pos → ¬ Torn fs.md log.zone pos := by
  constructor
  · rintro ⟨returns, _⟩ pos begun torn
    obtain ⟨rounds, some_answer⟩ := returns pos begun
    rw [FileZone.readRecord_torn ⟨log.zone, pos⟩ layout rounds (Nat.le_trans low begun.from) torn] at some_answer
    cases some_answer
  · intro intact
    constructor
    · intro pos begun
      obtain ⟨result, ran, _⟩ := FileZone.readRecord_returns ⟨log.zone, pos⟩ layout 0
        (Nat.le_trans low begun.from) (intact pos begun)
      exact ⟨4, by rw [ran]; rfl⟩
    · let rounds := (fs.md.zones log.zone).wp + 4
      refine ⟨rounds, ?_⟩
      have loop : Ensures (recoverFromWith (readRecord rounds) rounds log) (fun _ _ => True) fs := by
        simp only [recoverFromWith, wp_bind]
        refine wp_mono ?_ (ensures_zoneFsLoop _ rfl layout low intact (by omega))
        intro result fs' _
        rcases result with status | ⟨seen, log'⟩
        · trivial
        · simp only [onOk_ok]
          split <;> trivial
      obtain ⟨result, fs', ran, _⟩ := (wp_total_iff _ _ _).mp loop
      rw [ran]
      rfl

def tornMeta : Device :=
  { sampleDevice 0 3 with
    zones := Function.update (sampleDevice 0 3).zones 0 { sampleZone 0 with capacity := 15872, wp := 512 }
    mem := Memory.zero.write 4 (littleEndian 4 600) }

theorem tornMeta_layout : FileZone tornMeta 0 := by
  refine ⟨?_, ?_, ?_⟩ <;> decide +kernel

theorem torn_record_not_read : (∀ rounds, (readRecord rounds ⟨0, 0⟩).run tornMeta = none) ∧
    ∀ rounds, (recoverFromWith (readRecord rounds) rounds ⟨0, 0⟩).run { sampleZenFS with md := tornMeta } = none := by
  have torn : Torn tornMeta 0 0 := by decide +kernel
  have stuck : ∀ rounds, (readRecord rounds ⟨0, 0⟩).run tornMeta = none :=
    fun rounds => FileZone.readRecord_torn ⟨0, 0⟩ tornMeta_layout rounds (Nat.zero_le _) torn
  refine ⟨stuck, fun rounds => ?_⟩
  cases rounds with
  | zero => rfl
  | succ rounds =>
    cases ran : (recoverFromWith (readRecord (rounds + 1)) (rounds + 1) ⟨0, 0⟩).run
        { sampleZenFS with md := tornMeta } with
    | none => rfl
    | some answer =>
      have ends := (wp_total_iff _ (fun _ _ => True) _).mpr ⟨answer.1, answer.2, ran, trivial⟩
      simp only [recoverFromWith, recoverLoop, wp_bind] at ends
      rw [wp_attempt] at ends
      obtain ⟨_, _, read, _⟩ := (wp_total_iff _ _ _).mp ((wp_zoom mdLens _ _ _).mp ends)
      rw [show mdLens.get { sampleZenFS with md := tornMeta } = tornMeta from rfl, stuck] at read
      cases read

/-- The log of a new file system, behind its superblock, holds a snapshot and ends there. -/
theorem new_log_read : ReadingEnds sampleZenFS ⟨0, 1024⟩ := by
  have only : ∀ pos, Begun sampleMeta 0 1024 pos → pos = 1024 ∨ pos = 1536 := by
    intro pos begun
    induction begun with
    | refl => exact Or.inl rfl
    | tail _ next_record ih =>
      rcases ih with rfl | rfl
      · exact Or.inr (next_record.2.2.2.2.trans (by decide +kernel))
      · exact absurd next_record.1 (by decide +kernel)
  refine (reading_ends_iff ⟨by decide +kernel, by decide +kernel, by decide +kernel⟩ (by decide +kernel)).mpr ?_
  intro pos begun
  rcases only pos begun with rfl | rfl
  · decide +kernel
  · decide +kernel

end ZenFSProof
