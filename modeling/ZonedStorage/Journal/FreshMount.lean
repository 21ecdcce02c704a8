import Mathlib.Data.List.Pairwise
import Mathlib.Data.List.TakeWhile
import ZonedStorage.Journal.Format
import ZonedStorage.Journal.Recovering

namespace ZenFSProof

open ByteString Resumption Resumption.Prog ZenFSModel ZenFSModel.ZenFS ZenFSModel.ZenFSTag Function List Zone Keeps Memory
open ZenFSModel.ZenMetaLog (physSz recordBuffer zMetaHeaderSize)

def Before (a b : Candidate × Nat) : Prop :=
  b.1.superblock.sequence < a.1.superblock.sequence ∨
    b.1.superblock.sequence = a.1.superblock.sequence ∧ b.2 ≤ a.2

instance : DecidableRel Before := fun _ _ => inferInstanceAs (Decidable (_ ∨ _))

theorem bySequence_eq (candidates : List Candidate) :
    bySequence candidates = (candidates.zipIdx.insertionSort Before).map (·.1) := rfl

abbrev reported (d : Device) : Device := d.reopen d.replies

section

theorem ensures_releaseAll (candidates : List Candidate) (fs : ZenFS) : Ensures (candidates.forM (fun candidate => do
      let _ ← onMeta (release candidate.log.zone))) (fun result fs' => result = .ok () ∧ OnlyMedia fs fs') fs := by
  induction candidates generalizing fs with
  | nil => exact ⟨rfl, OnlyMedia.refl fs⟩
  | cons candidate rest ih =>
    simp only [List.forM, wp_bind]
    refine wp_mono ?_ (ensures_release fs _)
    rintro _ fs₁ ⟨⟨released, rfl⟩, only, _⟩
    simp only [onOk_ok, wp_pure]
    refine wp_mono ?_ (ih fs₁)
    rintro result fs' ⟨done, only'⟩
    exact ⟨done, only.trans only'⟩

def released (fs : ZenFS) (i : Nat) : ZenFS := { fs with md := setBusy fs.md i false }

variable {fs : ZenFS}

theorem ensures_release_iff {i : Nat} {post : Except Status Bool → ZenFS → Prop} :
    Ensures (onMeta (release i)) post fs ↔ post (.ok (fs.md.zones i).busy) (released fs i) := by
  refine (wp_zoom mdLens _ _ _).trans ?_
  change wp _ _ _ _ fs.md ↔ _
  cases busy : (fs.md.zones i).busy with
  | true =>
    simp only [release, wp_act, busy, if_true, true_and]
    exact Iff.rfl
  | false =>
    have unchanged : released fs i = fs := by
      rw [released, setBusy, ← busy]
      exact congrArg (fun zones => { fs with md := { fs.md with zones := zones } }) (update_eq_self i fs.md.zones)
    rw [unchanged]
    simp only [release, wp_act, busy, Bool.false_eq_true, if_false, true_and]
    exact Iff.rfl

/-- `RecoverFrom` finds no snapshot in any of the logs, one after the other. -/
def PassesOver : List Candidate → ZenFS → Prop
  | [], _ => True
  | candidate :: rest, fs => Ensures (recoverFrom candidate.log) (fun result fs' =>
      (∃ status, result = .error status ∧ status.isNotFound = true) ∧ PassesOver rest (released fs' candidate.log.zone)) fs

variable {d : Device} {new : Candidate} {rest : List Candidate}

def RecoversEmpty (d : Device) (log : ZenMetaLog) : Prop :=
  ∀ fs, SameMedia d fs.md → Ensures (recoverFrom log) (fun result fs' =>
    (∃ log', result = .ok log') ∧ ∀ n : Name, fs'.files[n]? = none) fs

theorem ensures_recoverFirst_empty (rivals : List Candidate) (same : SameMedia d fs.md)
    (healthy : Healthy d) (recovers : RecoversEmpty d new.log) (passes : PassesOver rivals fs) :
    Ensures (recoverFirst (rivals ++ new :: rest)) (fun result fs' => (∃ log, result = .ok (⟨new.superblock, log⟩, rest) ∧
      log.zone = new.log.zone) ∧ (∀ n : Name, fs'.files[n]? = none) ∧ SameMedia d fs'.md ∧
      fs'.answers = fs.answers ∧ fs'.asked = fs.asked) fs := by
  induction rivals generalizing fs with
  | nil =>
    simp only [nil_append, recoverFirst, wp_bind]
    rw [wp_attempt]
    obtain ⟨result, fs', ran, ⟨log, rfl⟩, empty⟩ := (wp_total_iff _ _ _).mp (recovers fs same)
    obtain ⟨replaying, zone⟩ := (wp_partial_iff _ _ _).mp (done_recoverFrom new.log (same.healthy healthy)) _ _ ran
    refine (wp_total_iff _ _ _).mpr ⟨_, _, ran, ?_⟩
    exact ⟨⟨log, rfl, zone log rfl⟩, empty, same.trans replaying.media, replaying.questions⟩
  | cons candidate rivals ih =>
    simp only [cons_append, recoverFirst, wp_bind]
    rw [wp_attempt]
    obtain ⟨result, fs₁, ran, ⟨status, rfl, absent⟩, onward⟩ := (wp_total_iff _ _ _).mp passes
    obtain ⟨replaying, _⟩ := (wp_partial_iff _ _ _).mp (done_recoverFrom _ (same.healthy healthy)) _ _ ran
    refine (wp_total_iff _ _ _).mpr ⟨_, _, ran, ?_⟩
    simp only [onOk_ok, absent, if_true, wp_bind]
    refine ensures_release_iff.mpr ?_
    have media := (same.trans replaying.media).trans (setBusy_media fs₁.md candidate.log.zone false)
    refine wp_mono ?_ (ih media onward)
    rintro result fs' ⟨found, empty, media', answers, asked⟩
    exact ⟨found, empty, media', answers.trans replaying.questions.1, asked.trans replaying.questions.2⟩

theorem passesOver_of_recoverFirst (rivals : List Candidate) (same : SameMedia d fs.md)
    (healthy : Healthy d) (others : ∀ candidate ∈ rivals, candidate.log.zone ≠ new.log.zone)
    (found : Ensures (recoverFirst (rivals ++ new :: rest)) (fun result _ =>
      ∃ answer, result = .ok answer ∧ answer.1.log.zone = new.log.zone) fs) :
    PassesOver rivals fs ∧ ∃ fs', SameMedia d fs'.md ∧ Ensures (recoverFirst (new :: rest)) (fun result _ =>
      ∃ answer, result = .ok answer ∧ answer.1.log.zone = new.log.zone) fs' := by
  induction rivals generalizing fs with
  | nil => exact ⟨trivial, fs, same, found⟩
  | cons candidate rivals ih =>
    simp only [cons_append, recoverFirst, wp_bind] at found
    rw [wp_attempt] at found
    obtain ⟨result, fs₁, ran, body⟩ := (wp_total_iff _ _ _).mp found
    obtain ⟨replaying, zone⟩ := (wp_partial_iff _ _ _).mp (done_recoverFrom _ (same.healthy healthy)) _ _ ran
    rcases result with status | log
    · simp only [onOk_ok] at body
      split at body
      · rename_i absent
        rw [wp_bind] at body
        have onward := ensures_release_iff.mp body
        have media := (same.trans replaying.media).trans (setBusy_media fs₁.md candidate.log.zone false)
        obtain ⟨passes, last⟩ := ih media (fun other listed => others other (mem_cons_of_mem _ listed)) onward
        exact ⟨(wp_total_iff _ _ _).mpr ⟨_, _, ran, ⟨status, rfl, absent⟩, passes⟩, last⟩
      · obtain ⟨answer, impossible, _⟩ := body
        cases impossible
    · obtain ⟨answer, same_answer, chosen⟩ := body
      cases same_answer
      exact absurd ((zone log rfl).symm.trans chosen) (others candidate mem_cons_self)

theorem Twins.released {twin : ZenFS} (twins : Twins fs twin) (i : Nat) :
    Twins (ZenFSProof.released fs i) (ZenFSProof.released twin i) := by
  refine ⟨twins.healthy, ?_, ?_⟩
  · exact (setBusy_media fs.md i false).symm.trans (twins.only.media.trans (setBusy_media twin.md i false))
  · rw [ZenFSProof.released, twins.only.rest]
    rfl

theorem twins_passesOver (rivals : List Candidate) {twin : ZenFS} (twins : Twins fs twin)
    (passes : PassesOver rivals fs) : PassesOver rivals twin := by
  induction rivals generalizing fs twin with
  | nil => trivial
  | cons candidate rest ih =>
    refine (twins_recoverFrom candidate.log).wp twins passes ?_
    rintro result fs' twin' twins' ⟨absent, onward⟩
    refine ⟨absent, ih ?_ onward⟩
    exact twins'.released candidate.log.zone

end

section

variable {d : Device} {new : Candidate} {m : ZenFS}

/-- A mount recovers from the zone of the superblock and finds no files. -/
def MountsFresh (new : Candidate) (m : ZenFS) : Prop :=
  Ensures mountRecover (fun result m' => result = .ok () ∧ m'.metaLog.zone = new.log.zone ∧
    m'.superblock = new.superblock ∧ ∀ n : Name, m'.files[n]? = none) m

def triedBefore (i : Nat) (candidates : List Candidate) : List Candidate :=
  (bySequence candidates).takeWhile (fun candidate => candidate.log.zone ≠ i)

variable {candidates : List Candidate}

theorem mem_bySequence {candidate : Candidate} : candidate ∈ bySequence candidates ↔ candidate ∈ candidates := by
  rw [bySequence_eq, mem_map]
  constructor
  · rintro ⟨entry, listed, rfl⟩
    exact fst_mem_of_mem_zipIdx ((mem_insertionSort Before).mp listed)
  · intro listed
    obtain ⟨k, below, at_k⟩ := mem_iff_getElem.mp listed
    refine ⟨(candidate, k), (mem_insertionSort Before).mpr ?_, rfl⟩
    rw [mem_zipIdx_iff_getElem?, getElem?_eq_getElem below, at_k]

theorem takeWhile_zone (listed : new ∈ candidates)
    (unique : ∀ candidate ∈ candidates, candidate.log.zone = new.log.zone → candidate = new) :
    ∃ rest, candidates = candidates.takeWhile (fun candidate => candidate.log.zone ≠ new.log.zone) ++ new :: rest := by
  induction candidates with
  | nil => cases listed
  | cons candidate more ih =>
    by_cases here : candidate.log.zone = new.log.zone
    · have same := unique candidate mem_cons_self here
      subst same
      refine ⟨more, ?_⟩
      rw [takeWhile_cons_of_neg (by simp), nil_append]
    · have later : new ∈ more := by
        rcases mem_cons.mp listed with rfl | later
        · exact absurd rfl here
        · exact later
      obtain ⟨rest, split⟩ := ih later (fun other member => unique other (mem_cons_of_mem _ member))
      refine ⟨rest, ?_⟩
      rw [takeWhile_cons_of_pos (by simpa using here), cons_append, ← split]

theorem bySequence_split (listed : new ∈ candidates)
    (unique : ∀ candidate ∈ candidates, candidate.log.zone = new.log.zone → candidate = new) :
    ∃ rest, bySequence candidates = triedBefore new.log.zone candidates ++ new :: rest :=
  takeWhile_zone (mem_bySequence.mpr listed) (fun other member => unique other (mem_bySequence.mp member))

theorem candidateAt_zone {i : Nat} {candidate : Candidate} (found : candidateAt d i = .ok (some candidate)) :
    candidate.log.zone = i := by
  simp only [candidateAt] at found
  split at found
  · cases found
  · cases found
  · rename_i record log _ read
    simp only [Bind.bind, Except.bind] at found
    split at found
    · cases found
    split at found
    · cases found
    · cases found
      exact recordAt_zone read

theorem candidatesAt_ok {zones : List Nat} (found : candidatesAt d zones = .ok candidates) :
    ∀ i ∈ zones, ∃ head, candidateAt d i = .ok head := by
  induction zones generalizing candidates with
  | nil =>
    intro i impossible
    cases impossible
  | cons i rest ih =>
    simp only [candidatesAt, Bind.bind, Except.bind] at found
    rcases first : candidateAt d i with status | head
    · rw [first] at found
      cases found
    rcases others : candidatesAt d rest with status | more
    · rw [first, others] at found
      cases found
    intro j listed
    rcases mem_cons.mp listed with rfl | later
    · exact ⟨head, first⟩
    · exact ih others j later

theorem mem_candidatesAt {zones : List Nat} (found : candidatesAt d zones = .ok candidates)
    (candidate : Candidate) : candidate ∈ candidates ↔ ∃ i ∈ zones, candidateAt d i = .ok (some candidate) := by
  have known := candidatesAt_ok found
  have each : ∀ i ∈ zones, candidateAt d i = .ok (candidateAt d i).toOption.join := by
    intro i listed
    obtain ⟨head, held⟩ := known i listed
    rw [held]
    rfl
  rw [candidatesAt_eq zones each] at found
  cases found
  rw [mem_filterMap]
  refine exists_congr (fun i => and_congr_right (fun listed => ?_))
  obtain ⟨head, held⟩ := known i listed
  rw [held]
  exact ⟨congrArg Except.ok, Except.ok.inj⟩

theorem keeps_metaLog (others : List Candidate) : Keeps (fun fs fs' : ZenFS => fs'.metaLog = fs.metaLog) (do
    target
    others.forM (fun candidate => do
      let _ ← onMeta (release candidate.log.zone))) := by
  have released : ∀ i, (onMeta (release i)).Keeps (fun fs fs' : ZenFS => fs'.metaLog = fs.metaLog) :=
    fun i => (all (release i)).zoom mdLens (fun _ _ _ => rfl)
  refine bind ?_ (fun _ => forM others (fun candidate => ?_))
  · refine bind (ofAct (fun _ => rfl)) (fun answer => ?_)
    cases answer.status with
    | none => exact ofPure ()
    | some status => exact ofFail status
  · exact (released candidate.log.zone).bind (fun _ => ofPure ())

theorem mountsFresh_iff (healthy : Healthy m.md) (free : ∀ i, i < m.md.count → (m.md.zones i).busy = false)
    (exists_target : (m.answers m.asked).status = none) (online : new.log.zone ∈ m.md.onlineZones)
    (head : candidateAt m.md new.log.zone = .ok (some new)) (recovers : Prop)
    (fresh : recovers → RecoversEmpty m.md new.log)
    (spoilt : ¬ recovers → ∀ fs, SameMedia m.md fs.md → Ensures (recoverFrom new.log) (fun result _ =>
      ∃ status, result = .error status ∧ status.isNotFound = false) fs) :
    MountsFresh new m ↔ 2 ≤ m.md.onlineZones.length ∧ recovers ∧ ∃ candidates,
      candidatesAt m.md m.md.onlineZones = .ok candidates ∧ PassesOver (triedBefore new.log.zone candidates) m := by
  obtain ⟨_, m₁, ran, rfl, only⟩ := (wp_total_iff _ _ _).mp (ensures_findSuperblocks m.md.onlineZones
    (SameMedia.refl m.md) healthy (nodup_range.filter _) (fun i listed => free i (mem_range.mp (mem_of_mem_filter listed))))
  have twins : Twins m m₁ := ⟨healthy, only⟩
  simp only [MountsFresh, mountRecover, wp_bind (Prog.read _), wp_read, onOk_ok, true_and]
  by_cases few : m.md.onlineZones.length < 2
  · simp only [if_pos few, wp_fail, reduceCtorEq, false_and, false_iff]
    rintro ⟨two, _⟩
    omega
  rw [if_neg few, wp_bind, wp_total_of_run ran]
  rcases found : candidatesAt m.md m.md.onlineZones with status | candidates
  · simp
  have listed : new ∈ candidates := (mem_candidatesAt found new).mpr ⟨_, online, head⟩
  have unique : ∀ candidate ∈ candidates, candidate.log.zone = new.log.zone → candidate = new := by
    intro candidate member same
    obtain ⟨i, _, held⟩ := (mem_candidatesAt found candidate).mp member
    have zone := candidateAt_zone held
    rw [← zone, same, head] at held
    cases held
    rfl
  obtain ⟨rest, split⟩ := bySequence_split listed unique
  have some_found : ¬ candidates.isEmpty = true := by
    cases candidates with
    | nil => cases listed
    | cons _ _ => exact Bool.false_ne_true
  simp only [onOk_ok, if_neg some_found, split]
  rw [wp_bind]
  constructor
  · intro mounted
    have chosen : Ensures (recoverFirst (triedBefore new.log.zone candidates ++ new :: rest)) (fun result _ =>
        ∃ answer, result = .ok answer ∧ answer.1.log.zone = new.log.zone) m₁ := by
      refine wp_mono ?_ mounted
      rintro (status | ⟨answer, remaining⟩) fs' after
      · exact absurd after.1 (by simp)
      · rw [onOk_ok, wp_bind, wp_update] at after
        obtain ⟨_, last, ran', _, zone, _⟩ := (wp_total_iff _ _ _).mp after.2
        have kept := (wp_partial_iff _ _ _).mp (wp_weaken (fun _ _ => trivial) id
          ((keeps_metaLog remaining).wp_of (fun _ => rfl) (fun _ _ _ first second => second.trans first) _)) _ _ ran'
        refine ⟨_, rfl, ?_⟩
        rw [kept] at zone
        exact zone
    have others : ∀ candidate ∈ triedBefore new.log.zone candidates, candidate.log.zone ≠ new.log.zone := by
      intro candidate member
      simpa using mem_takeWhile_imp member
    obtain ⟨passes, fs', media, last⟩ := passesOver_of_recoverFirst _ only.media healthy others chosen
    refine ⟨Nat.le_of_not_lt few, ?_, candidates, rfl, twins_passesOver _ twins.symm passes⟩
    by_contra unrecovered
    obtain ⟨_, fs'', failed, status, rfl, other⟩ := (wp_total_iff _ _ _).mp (spoilt unrecovered fs' media)
    simp only [recoverFirst, wp_bind] at last
    rw [wp_attempt, wp_total_of_run failed] at last
    simp only [onOk_ok, other, Bool.false_eq_true, if_false, wp_fail, reduceCtorEq, false_and, exists_false] at last
  · rintro ⟨_, recovered, _, ⟨⟩, passes⟩
    refine wp_mono ?_ (ensures_recoverFirst_empty _ only.media healthy (fresh recovered) (twins_passesOver _ twins passes))
    rintro _ fs' ⟨⟨log, rfl, zone⟩, empty, media, answers, asked⟩
    have answer : (fs'.answers fs'.asked).status = none := by
      rw [answers, asked, only.rest]
      exact exists_target
    simp only [onOk_ok, target, ask, wp_bind, wp_update, wp_act, true_and, answer, wp_pure]
    refine wp_mono ?_ (ensures_releaseAll rest _)
    rintro _ m' ⟨rfl, only'⟩
    rw [only'.rest]
    exact ⟨rfl, zone, rfl, empty⟩

end

section

variable {d : Device} {z : Nat}

structure Accepted (geo : Geometry) (superblock : Superblock) : Prop where
  magic : superblock.magic = Superblock.MAGIC
  version : superblock.superblockVersion = Superblock.CURRENT_SUPERBLOCK_VERSION
  compatible : superblock.compatibleWith geo = .ok ()

structure Formatted (d : Device) (z : Nat) (superblock : Superblock) : Prop where
  headed : Headed d z superblock
  snapshot : recordAt d ⟨z, logStart d z⟩ = .ok (emptySnapshot, ⟨z, logStart d z + d.geo.blockSz⟩)

theorem ensures_recoverFrom_snapshot {superblock : Superblock} {fs : ZenFS} {stop : Except Status ZenMetaLog}
    (begins : Formatted d z superblock) (healthy : Healthy d) (same : SameMedia d fs.md)
    (behind : recordAt d ⟨z, logStart d z + d.geo.blockSz⟩ = stop.map (fun log => ([], log))) :
    Ensures (recoverFrom ⟨z, logStart d z⟩) (fun result fs' =>
      (∀ log, stop = .ok log → result = .ok log ∧ ∀ n : Name, fs'.files[n]? = none) ∧
      ∀ status, stop = .error status → result = .error (Status.corruption "ZenFS" "Metadata corruption")) fs := by
  have two : ∃ more, recoverRounds fs.md.geo = more + 2 := by
    have positive := fs.md.geo.zone_pos
    have sector := fs.md.geo.sector_le
    have whole := Nat.div_pos (Nat.le_of_dvd positive fs.md.geo.block_dvd) (by omega)
    exact ⟨fs.md.geo.zoneSz / fs.md.geo.blockSz - 1, by rw [recoverRounds]; omega⟩
  obtain ⟨more, rounds⟩ := two
  simp only [recoverFrom, recoverFromWith, wp_bind, wp_read, onOk_ok, true_and, rounds, recoverLoop]
  rw [wp_attempt]
  refine wp_mono ?_ (ensures_meta_recordAt _ (same.healthy healthy))
  rintro _ _ ⟨rfl, calls, rfl⟩
  rw [same.recordAt, begins.snapshot]
  have tag : getFixed32 emptySnapshot = some (kCompleteFilesSnapshot.code, [0]) := by decide
  have ongoing : ¬ kCompleteFilesSnapshot.code = kEndRecord.code := by decide
  have data : getLengthPrefixedSlice [0] = some ([], []) := by decide
  have known : ofCode kCompleteFilesSnapshot.code = some kCompleteFilesSnapshot := rfl
  have finished : getLengthPrefixedSlice [] = none := by decide
  simp only [onOk_ok, tag, if_neg ongoing, data, wp_bind, recoverRecord, known, clearFiles, wp_update, true_and,
    decodeSnapshotFrom, decodeSnapshotLoop, finished, wp_pure]
  have frame := clearFiles_frame (withMdCalls fs calls).files.toList (withMdCalls fs calls)
  have empty := clearFiles_unbound (withMdCalls fs calls)
  generalize (withMdCalls fs calls).files.toList.foldl (fun fs entry => fs.eraseFile entry.1 fs.nextRef)
    (withMdCalls fs calls) = fs₁ at frame empty
  have media : SameMedia d fs₁.md := by
    rw [frame.md]
    exact same.trans (SameMedia.withCalls fs.md calls)
  rw [wp_attempt]
  refine wp_mono ?_ (ensures_meta_recordAt _ (media.healthy healthy))
  rintro _ _ ⟨rfl, calls', rfl⟩
  rw [media.recordAt, behind]
  cases stop with
  | ok log =>
    refine ⟨?_, ?_⟩
    · rintro _ ⟨⟩
      exact ⟨rfl, empty⟩
    · rintro status ⟨⟩
  | error status =>
    refine ⟨?_, ?_⟩
    · rintro log ⟨⟩
    · rintro _ ⟨⟩
      rfl

end

section

variable {d d' : Device} {i z : Nat} {superblock : Superblock}

theorem SameZone.reopen (same : SameZone d d' i) (replies : Nat → Reply) : SameZone (reported d)
    (d'.reopen replies) i := by
  refine ⟨same.geo, ?_, same.mem⟩
  simp only [Device.reopen, same.geo]
  rw [same.zone]
  rfl

theorem Wiped.candidateAt (wiped : Wiped d d' i false) (replies : Nat → Reply) :
    ZenFSProof.candidateAt (d'.reopen replies) i = .ok none := by
  have wiped_start := wiped.start
  have wiped_limit := wiped.limit
  have wiped_wp := wiped.wp
  have room : (d'.zones i).capacity = (d.zones i).maxCapacity := wiped.room
  by_cases full : (d'.zones i).capacity = 0
  · -- A zone without any capacity is reported as full, and the first header does not fit into it.
    have wp : ((d'.reopen replies).zones i).wp = (d'.zones i).start + d'.geo.zoneSz := by
      simp only [Device.reopen, report, isFull, full, beq_self_eq_true, if_true]
    have start : ((d'.reopen replies).zones i).start = (d'.zones i).start := rfl
    have limit : ((d'.reopen replies).zones i).maxCapacity = (d'.zones i).maxCapacity := rfl
    have eight : zMetaHeaderSize = 8 := rfl
    have sector := d'.geo.sector_le
    have size := Nat.le_of_dvd d'.geo.zone_pos d'.geo.block_dvd
    have across := @recordAt_across (d'.reopen replies) ⟨i, (d'.zones i).start⟩ _ (by dsimp only; omega)
      (by dsimp only; omega)
    rw [ZenFSProof.candidateAt, ZenMetaLog.open', start, across]
  · refine candidateAt_empty ?_
    simp only [Device.reopen, report, isFull, beq_iff_eq, full, if_false]
    omega

theorem make_accepted (geo : Geometry) (uuid auxFsPath zenfsVersion : Bytes) (finishThreshold : UInt32)
    (enableGC : Bool) :
    Accepted geo (Superblock.make geo uuid auxFsPath zenfsVersion finishThreshold enableGC).next := by
  refine ⟨rfl, rfl, ?_⟩
  have sector := geo.sector_le
  have block : (UInt32.ofNat geo.blockSz).toNat = geo.blockSz := UInt32.toNat_ofNat_of_lt' (by
    have bound := geo.block_lt
    rw [UInt32.size]
    omega)
  have zone : (UInt32.ofNat (geo.zoneSz / geo.blockSz)).toNat = geo.zoneSz / geo.blockSz :=
    UInt32.toNat_ofNat_of_lt' geo.zone_lt
  have count : (UInt32.ofNat geo.nrZones).toNat = geo.nrZones := UInt32.toNat_ofNat_of_lt' geo.nrZones_lt
  simp only [Superblock.compatibleWith, Superblock.next, Superblock.make, block, zone, count, ne_eq, not_true_eq_false,
    if_false, gt_iff_lt, Nat.lt_irrefl]

/-- The zone has room left behind the two records of a new file system, or its capacity is its size. -/
def Spacious (d : Device) (z : Nat) : Prop :=
  physSz d.geo.blockSz Superblock.ENCODED_SIZE + d.geo.blockSz < (d.zones z).maxCapacity ∨
    (d.zones z).maxCapacity = d.geo.zoneSz

section

variable (logged : Logged z d d' [superblock.encode, emptySnapshot]) (replies : Nat → Reply)

include logged

theorem Logged.places : logStart (d'.reopen replies) z = logStart d z ∧ (d'.reopen replies).geo = d.geo ∧
    ((d'.reopen replies).zones z).start = (d.zones z).start ∧
    ((d'.reopen replies).zones z).maxCapacity = (d.zones z).maxCapacity := by
  refine ⟨?_, logged.geo, logged.start, logged.limit⟩
  have geo : (d'.reopen replies).geo = d.geo := logged.geo
  have start : ((d'.reopen replies).zones z).start = (d.zones z).start := logged.start
  rw [logStart, logStart, geo, start]

theorem Logged.filled : physSz d.geo.blockSz Superblock.ENCODED_SIZE + d.geo.blockSz ≤ (d.zones z).maxCapacity ∧
    ((d'.reopen replies).zones z).wp =
      if physSz d.geo.blockSz Superblock.ENCODED_SIZE + d.geo.blockSz = (d.zones z).maxCapacity
      then (d.zones z).start + d.geo.zoneSz else logStart d z + d.geo.blockSz := by
  have total : recordsLength d.geo.blockSz [superblock.encode, emptySnapshot] =
      physSz d.geo.blockSz Superblock.ENCODED_SIZE + d.geo.blockSz := by
    simp only [recordsLength, superblock_encode_length, emptySnapshot_block, Nat.add_zero]
  have stop := logged.stop
  have room := logged.room
  rw [total] at stop
  refine ⟨by omega, ?_⟩
  have full : ((d'.zones z).capacity = 0) =
      (physSz d.geo.blockSz Superblock.ENCODED_SIZE + d.geo.blockSz = (d.zones z).maxCapacity) := by
    refine propext ⟨fun none => ?_, fun whole => ?_⟩
    · omega
    · omega
  have geo := logged.geo
  have start := logged.start
  simp only [Device.reopen, report, isFull, beq_iff_eq, full, geo, start, stop, logStart, Nat.add_assoc]

theorem Logged.eof (spacious : Spacious d z) : recordAt (d'.reopen replies) ⟨z, logStart d z + d.geo.blockSz⟩ =
    .ok ([], ⟨z, logStart d z + d.geo.blockSz⟩) := by
  refine recordAt_eof ?_
  obtain ⟨fits, stop⟩ := logged.filled replies
  dsimp only
  rw [stop]
  unfold Spacious at spacious
  simp only [logStart]
  split
  · omega
  · omega

variable (most : (d.zones z).maxCapacity ≤ d.geo.zoneSz)

include most

theorem Logged.across (narrow : ¬ Spacious d z) :
    recordAt (d'.reopen replies) ⟨z, logStart d z + d.geo.blockSz⟩ = .error (Status.ioError "Read across zone") := by
  obtain ⟨fits, stop⟩ := logged.filled replies
  obtain ⟨_, _, start, limit⟩ := logged.places replies
  unfold Spacious at narrow
  have whole : physSz d.geo.blockSz Superblock.ENCODED_SIZE + d.geo.blockSz = (d.zones z).maxCapacity := by omega
  have eight : zMetaHeaderSize = 8 := rfl
  rw [if_pos whole] at stop
  refine recordAt_across ?_ ?_
  · dsimp only
    rw [stop, logStart]
    omega
  · dsimp only
    rw [start, limit, logStart]
    omega

theorem Logged.formatted (aligned : d.geo.blockSz ∣ (d.zones z).start) (accepted : Accepted d.geo superblock) :
    Formatted (d'.reopen replies) z superblock := by
  obtain ⟨pos, geo, start, limit⟩ := logged.places replies
  obtain ⟨fits, stop⟩ := logged.filled replies
  obtain ⟨_, stored, readable, stored', _⟩ := logged.holds
  have sector := d.geo.sector_le
  have large := physSz_ge_block (by omega : 0 < d.geo.blockSz) Superblock.ENCODED_SIZE
  have eight : zMetaHeaderSize = 8 := rfl
  have value : logStart d z = (d.zones z).start + physSz d.geo.blockSz Superblock.ENCODED_SIZE := rfl
  have behind : logStart d z + d.geo.blockSz ≤ ((d'.reopen replies).zones z).wp := by
    rw [stop]
    split
    · omega
    · omega
  rw [logged.geo, superblock_encode_length] at stored stored'
  refine ⟨⟨accepted.magic, accepted.version, ?_, ?_, ?_, ?_, ?_⟩, ?_⟩
  · rw [geo]
    exact accepted.compatible
  · rw [geo, start]
    exact stored
  · rw [start]
    omega
  · rw [geo, limit]
    omega
  · rw [geo, start]
    exact aligned
  · have read := @recordAt_begun (d'.reopen replies) ⟨z, logStart (d'.reopen replies) z⟩ _ emptySnapshot readable
      (by simp only [geo, pos]; exact stored')
      (by simp only [geo, pos]; exact Nat.dvd_add aligned (alignUp_dvd (by omega) _))
      (by simp only [pos]; omega) (by simp only [geo, pos, start, limit, emptySnapshot_block]; omega)
    rw [read, geo, emptySnapshot_block]

end

end

section

variable {d d' : Device} {z : Nat} {superblock : Superblock}

/-- The metadata zones that are left when the device is opened again. -/
def zonesLeft (d : Device) : List Nat := (range d.count).filter (fun i => !gone d i)

def prior (d : Device) (i : Nat) : Except Status (Option Candidate) :=
  if (d.replies (d.calls + i)).ok then .ok none else candidateAt (reported d) i

def remaining (d : Device) (new : Candidate) : List Candidate :=
  (zonesLeft d).filterMap (fun i => if i = new.log.zone then some new else (prior d i).toOption.join)

def rivals (d : Device) (new : Candidate) : List Candidate := triedBefore new.log.zone (remaining d new)

def remounted (fs : ZenFS) (metaReplies ioReplies : Nat → Reply) (maxActive maxOpen : Nat) (answers : Nat → Answer) :
    ZenFS :=
  { fs.restart metaReplies ioReplies maxActive maxOpen with answers := answers, asked := 0 }

theorem mem_zonesLeft {i : Nat} : i ∈ zonesLeft d ↔ i < d.count ∧ gone d i = false := by
  simp [zonesLeft]

theorem Made.onlineZones (made : Made d d' z superblock) (replies : Nat → Reply) :
    (d'.reopen replies).onlineZones = zonesLeft d := by
  rw [Device.onlineZones, zonesLeft]
  change (range d'.count).filter (fun i => !d'.offline i) = _
  rw [made.count]
  refine filter_congr (fun i listed => ?_)
  rw [made.offline i (mem_range.mp listed)]

theorem Made.prior (made : Made d d' z superblock) (replies : Nat → Reply) {i : Nat} (left : i ∈ zonesLeft d)
    (other : i ≠ z) :
    candidateAt (d'.reopen replies) i = ZenFSProof.prior d i := by
  obtain ⟨below, online⟩ := mem_zonesLeft.mp left
  rw [ZenFSProof.prior]
  cases fine : (d.replies (d.calls + i)).ok with
  | true =>
    have wiped := made.wiped i below fine other
    rw [gone, if_pos fine] at online
    rw [online] at wiped
    exact wiped.candidateAt replies
  | false => exact ((made.kept i below fine).reopen replies).candidateAt

theorem Made.candidates (made : Made d d' z superblock) (replies : Nat → Reply) {new : Candidate}
    (zone : new.log.zone = z)
    (fine : ∃ head, ZenFSProof.prior d z = .ok head) (head : candidateAt (d'.reopen replies) z = .ok (some new))
    (candidates : List Candidate) : candidatesAt (d'.reopen replies) (zonesLeft d) = .ok candidates ↔
      (∀ i ∈ zonesLeft d, ∃ head, ZenFSProof.prior d i = .ok head) ∧ candidates = remaining d new := by
  have search : (∀ i ∈ zonesLeft d, ∃ head, ZenFSProof.prior d i = .ok head) →
      candidatesAt (d'.reopen replies) (zonesLeft d) = .ok (remaining d new) := by
    intro legible
    refine candidatesAt_eq _ (fun i left => ?_)
    by_cases here : i = z
    · subst here
      rw [if_pos zone.symm, head]
    · obtain ⟨found, known⟩ := legible i left
      rw [if_neg (by rw [zone]; exact here), made.prior replies left here, known]
      rfl
  constructor
  · intro found
    have legible : ∀ i ∈ zonesLeft d, ∃ head, ZenFSProof.prior d i = .ok head := by
      intro i left
      by_cases here : i = z
      · rw [here]
        exact fine
      · rw [← made.prior replies left here]
        exact candidatesAt_ok found i left
    rw [search legible] at found
    cases found
    exact ⟨legible, rfl⟩
  · rintro ⟨legible, rfl⟩
    exact search legible

theorem Made.mountsFresh_iff {fs' : ZenFS} (made : Made d fs'.md z superblock) (parted : Partitioned d)
    (first : freshZone d = some z) (accepted : Accepted d.geo superblock) {metaReplies : Nat → Reply}
    (ioReplies : Nat → Reply) (maxActive maxOpen : Nat) {answers : Nat → Answer} (healthy : ∀ n, (metaReplies n).ok = true)
    (exists_target : ∀ n, (answers n).status = none) :
    MountsFresh ⟨superblock, ⟨z, logStart d z⟩⟩ (remounted fs' metaReplies ioReplies maxActive maxOpen answers) ↔
      2 ≤ (zonesLeft d).length ∧ Spacious d z ∧ (∀ i ∈ zonesLeft d, ∃ head, ZenFSProof.prior d i = .ok head) ∧
        PassesOver (rivals d ⟨superblock, ⟨z, logStart d z⟩⟩)
          (remounted fs' metaReplies ioReplies maxActive maxOpen answers) := by
  have most := parted.limit z made.below
  have begins := made.logged.formatted metaReplies most (parted.aligned z made.below) accepted
  obtain ⟨pos, geo, _, _⟩ := made.logged.places metaReplies
  have head : candidateAt (fs'.md.reopen metaReplies) z = .ok (some ⟨superblock, ⟨z, logStart d z⟩⟩) := by
    rw [begins.headed.candidateAt, pos]
  have fine : ∃ head, ZenFSProof.prior d z = .ok head := by
    have reset : (d.replies (d.calls + z)).ok = true := by
      simpa using find?_some first
    exact ⟨none, by rw [ZenFSProof.prior, if_pos reset]⟩
  have fresh : Spacious d z → RecoversEmpty (fs'.md.reopen metaReplies) ⟨z, logStart d z⟩ := by
    intro spacious m media
    have behind := made.logged.eof metaReplies spacious
    rw [← pos, ← geo] at behind
    rw [← pos]
    have recovered := @ensures_recoverFrom_snapshot _ _ _ m (.ok _) begins healthy media behind
    refine wp_mono ?_ recovered
    rintro result m' ⟨done, _⟩
    obtain ⟨rfl, empty⟩ := done _ rfl
    exact ⟨⟨_, rfl⟩, empty⟩
  have spoilt : ¬ Spacious d z → ∀ m : ZenFS, SameMedia (fs'.md.reopen metaReplies) m.md →
      Ensures (recoverFrom ⟨z, logStart d z⟩) (fun result _ => ∃ status, result = .error status ∧
        status.isNotFound = false) m := by
    intro narrow m media
    have behind := made.logged.across metaReplies most narrow
    rw [← pos, ← geo] at behind
    rw [← pos]
    have refused := @ensures_recoverFrom_snapshot _ _ _ m (.error _) begins healthy media behind
    refine wp_mono ?_ refused
    rintro result m' ⟨_, failed⟩
    exact ⟨_, failed _ rfl, rfl⟩
  have zones : (remounted fs' metaReplies ioReplies maxActive maxOpen answers).md.onlineZones = zonesLeft d :=
    made.onlineZones metaReplies
  have mounts := @ZenFSProof.mountsFresh_iff ⟨superblock, ⟨z, logStart d z⟩⟩
    (remounted fs' metaReplies ioReplies maxActive maxOpen answers) healthy (fun _ _ => rfl) (exists_target 0)
    (zones ▸ mem_zonesLeft.mpr ⟨made.below, made.online⟩) head (Spacious d z) fresh spoilt
  rw [mounts, zones]
  have found := made.candidates metaReplies rfl fine head
  refine and_congr_right (fun _ => and_congr_right (fun _ => ?_))
  constructor
  · rintro ⟨candidates, listed, passes⟩
    obtain ⟨legible, rfl⟩ := (found candidates).mp listed
    exact ⟨legible, passes⟩
  · rintro ⟨legible, passes⟩
    exact ⟨_, (found _).mpr ⟨legible, rfl⟩, passes⟩

def madeCandidate (geo : Geometry) (pos : Nat) (auxFsP uuid zenfsVersion : Bytes) (finishThreshold : UInt32)
    (enableGC : Bool) (z : Nat) : Candidate :=
  ⟨(Superblock.make geo uuid (formatPathLexically auxFsP) zenfsVersion finishThreshold enableGC).next, ⟨z, pos⟩⟩

def present : Nat → Answer := fun _ => ⟨none, [], false, 0⟩

/-- A new device with three metadata zones and what it answers to their resets. -/
def blankZenFS (resets : Nat → Reply) : ZenFS := { sampleZenFS with md := { sampleDevice 0 3 with replies := resets } }

def madeSample (z : Nat) : Candidate := madeCandidate sampleGeometry (z * 16384 + 1024) [] [] [] 0 false z

def twoOffline : Nat → Reply := fun n => ⟨true, 1000, n == 1 || n == 2, false⟩

def firstResetRefused : Nat → Reply := fun n => ⟨n != 0, 1000, false, false⟩

end

end ZenFSProof
