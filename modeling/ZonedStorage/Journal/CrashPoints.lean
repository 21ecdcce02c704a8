import ZonedStorage.Journal.Reproduces

namespace ZenFSProof

open HardLinks Resumption.Prog ZenFSModel ZenFSModel.ZenFS

/-- The call that began in `base` has written `k` records and is not writing another, and the log
    leads to `c`. -/
structure Reached (base : ZenFS) (pos : Nat) (fs : ZenFS) (k : Nat) (c : FileCatalog) : Prop where
  attempts : fs.attempts.length = base.attempts.length + k
  persists : fs.persists.length = base.persists.length + k
  journaled : Journaled fs pos noFiles c

def Between (base fs : ZenFS) : Prop :=
  fs.attempts.length + base.persists.length = base.attempts.length + fs.persists.length

instance (base fs : ZenFS) : Decidable (Between base fs) := inferInstanceAs (Decidable (_ = _))

section

variable {base fs fs' : ZenFS} {pos k : Nat} {c : FileCatalog} {stage : Nat → FileCatalog → Prop}

theorem Reached.quiet (reached : Reached base pos fs k c) (still : Quiet fs fs') : Reached base pos fs' k c where
  attempts := by rw [still.attempts]; exact reached.attempts
  persists := by rw [still.persists]; exact reached.persists
  journaled := reached.journaled.congr still.md (by rw [still.metaLog]) still.zones

def Staged (base : ZenFS) (pos : Nat) (stage : Nat → FileCatalog → Prop) (md : Device) (zone : Nat)
    (attempts : List PersistAttempt) (persists : List PersistEvent) (zones : Nat → Option Nat) : Prop :=
  (∃ event ∈ persists, ¬ Clean event) ∨
    attempts.length + base.persists.length ≠ base.attempts.length + persists.length ∨
    ∃ k c, stage k c ∧ persists.length = base.persists.length + k ∧ Journal md zone zones pos noFiles c

def staging (base : ZenFS) (pos : Nat) (stage : Nat → FileCatalog → Prop) : Ledger where
  tells fs c := ∃ k, stage k c ∧ Reached base pos fs k c
  safe := Staged base pos stage
  allows c e := ∀ k, stage k c → stage (k + 1) (applyEntry c e)
  given_up dirty := Or.inl dirty
  stands := by
    rintro fs c ⟨k, here, reached⟩
    exact Or.inr (Or.inr ⟨k, c, here, reached.persists, reached.journaled⟩)
  quiet := by
    rintro fs fs' c still ⟨k, here, reached⟩
    exact ⟨k, here, reached.quiet still⟩
  persist := by
    rintro fs c e record post ⟨k, here, reached⟩ writes allows dirty appended
    refine wp_persistRecord_clean ?_ (fun result fs' gone => ⟨Or.inl gone, dirty result fs' gone⟩) ?_
    · intro fs' persisting
      obtain ⟨attempts, persists⟩ := Prod.mk.inj persisting
      have started := reached.attempts
      have ended := reached.persists
      have one : fs'.attempts.length = fs.attempts.length + 1 := congrArg List.length attempts
      have none_more : fs'.persists.length = fs.persists.length := congrArg List.length persists
      exact Or.inr (Or.inl (by omega))
    · intro readable room calls
      have after : Reached base pos (recorded fs record calls) (k + 1) (applyEntry c e) :=
        ⟨congrArg (· + 1) reached.attempts, congrArg (· + 1) reached.persists,
          reached.journaled.record (writes.carries readable) writes.applies room calls⟩
      have next := allows k here
      exact ⟨Or.inr (Or.inr ⟨_, _, next, after.persists, after.journaled⟩), appended calls ⟨_, next, after⟩⟩

end

def RenameStage (src dst : Name) (old new : Nat) (k : Nat) (c : FileCatalog) : Prop :=
  (k = 0 ∧ c.names dst = some old ∧ c.names src = some new) ∨ (k = 1 ∧ c.names dst = none) ∨
    (k = 2 ∧ c.names dst = some new ∧ c.names src = none)

variable {c : FileCatalog}

theorem staged_renameFile {fs : ZenFS} {pos : Nat} {r q : Ref} {src dst : Name} (live : Live fs c)
    (journaled : Journaled fs pos noFiles c) (different : src ≠ dst) (source : formatPathLexically src = src)
    (dest : formatPathLexically dst = dst) (held : fs.files[src]? = some r) (existing : fs.files[dst]? = some q)
    (depth : Nat) : (staging fs pos (RenameStage src dst (fs.objects q).fileId (fs.objects r).fileId)).Under
      (renameFile (depth + 1) src dst) (fun _ _ => True) fs := by
  have bound := (live.names_iff existing).mpr existing
  have named := (live.names_iff held).mpr held
  generalize stages : RenameStage src dst (fs.objects q).fileId (fs.objects r).fileId = stage
  have tells : (staging fs pos stage).tells fs c := ⟨0, stages ▸ Or.inl ⟨rfl, bound, named⟩, rfl, rfl, journaled⟩
  have removes : ∀ k, stage k c → stage (k + 1) (c.remove (fs.objects q).fileId dst) := by
    subst stages
    rintro k (⟨rfl, _⟩ | ⟨_, absent⟩ | ⟨_, _, absent⟩)
    · exact Or.inr (Or.inl ⟨rfl, Function.update_self ..⟩)
    · cases bound.symm.trans absent
    · cases named.symm.trans absent
  have filled : dst ≠ [] := by
    rw [← dest]
    exact formatPathLexically_ne_nil dst
  have here : (staging fs pos stage).Seen fs := (staging fs pos stage).stands tells
  simp only [renameFile, renameFileNoLock, getFileNoLock, source, dest, wp_bind, wp_read, onOk_ok, held, existing,
    Option.isSome_some, if_true]
  refine ⟨here, here, ?_⟩
  refine wp_mono ?_ (under_deleteBound live tells existing removes dest dest)
  rintro result fs₁ (dirty | ⟨rfl, unlinked, tells₁⟩)
  · cases result with
    | error status => trivial
    | ok _ =>
      refine wp_mono ?_ (dirty.run (Grows.covers.renameLinkNoLock r trivial trivial))
      intro result fs₂ still
      cases result with
      | error status => trivial
      | ok _ => exact wp_mono (fun _ _ _ => trivial) (still.run Grows.covers.resetUnusedIOZones)
  · have live₁ := live.remove existing unlinked
    have held₁ : fs₁.files[src]? = some r := unlinked.kept_name different held
    have unbound : fs₁.files[dst]? = none := by
      rw [unlinked.files, Function.update_self]
    have id : (fs₁.objects r).fileId = (fs.objects r).fileId := by
      by_cases same : r = q
      · subst same
        rw [unlinked.object ⟨src, held₁⟩]
      · rw [unlinked.others r same]
    have puts : ∀ f, Stamped ((moved fs₁ r src dst).objects r) f → ∀ k,
        stage k (c.remove (fs.objects q).fileId dst) →
        stage (k + 1) (applyEntry (c.remove (fs.objects q).fileId dst) (updateEntry f false)) := by
      subst stages
      intro f stamped k reached
      have absent := (live₁.shows.unbound_iff dst).mpr unbound
      have recordable := live₁.recordable_moved held₁ unbound filled
      have free := (recordable.replaces.stamp stamped).free_names live₁
      have links : ∀ m, m ∈ f.linkFiles ↔ (m ≠ src ∧ fs₁.files[m]? = some r) ∨ m = dst := by
        obtain ⟨time, rfl, _⟩ := stamped
        intro m
        rw [moved_object]
        exact live₁.move_links held₁ dst m
      have same : f.fileId = (fs.objects r).fileId := by
        obtain ⟨time, rfl, _⟩ := stamped
        rw [← id, moved_object]
      rw [recordable.put stamped]
      rcases reached with ⟨_, present, _⟩ | ⟨rfl, _⟩ | ⟨_, present, _⟩
      · cases absent.symm.trans present
      · refine Or.inr (Or.inr ⟨rfl, ?_, ?_⟩)
        · rw [← same]
          exact (Catalog.put_names_self free dst).mpr ((links dst).mpr (Or.inr rfl))
        · have unlisted : src ∉ f.linkFiles := fun listed => by simp [links, different] at listed
          have before := (live₁.names_iff held₁).mpr held₁
          rw [id, ← same] at before
          simp only [Catalog.put, nodeOf, before, if_true]
          exact if_neg unlisted
      · cases absent.symm.trans present
    refine wp_mono ?_ (under_renameLinkNoLock live₁ tells₁ held₁ unbound filled puts)
    rintro (status | _) fs₂ kept
    · trivial
    · rcases kept with dirty | tracks
      · exact wp_mono (fun _ _ _ => trivial) (dirty.run Grows.covers.resetUnusedIOZones)
      · exact wp_mono (fun _ _ _ => trivial) (keeping_resetUnusedIOZones tracks)

def BoundTo (fs : ZenFS) (n : Name) (ids : List Nat) : Prop :=
  ∃ r, fs.files[n]? = some r ∧ (fs.objects r).fileId ∈ ids

theorem Replayed.boundTo_iff {fs : ZenFS} (replayed : Replayed fs c) (n : Name) (ids : List Nat) :
    BoundTo fs n ids ↔ ∃ id ∈ ids, c.names n = some id := by
  rw [replayed.shows.names]
  constructor
  · rintro ⟨r, held, member⟩
    exact ⟨_, member, by rw [held]; rfl⟩
  · rintro ⟨id, member, named⟩
    obtain ⟨r, held, rfl⟩ := Option.map_eq_some_iff.mp named
    exact ⟨r, held, member⟩

theorem RenameStage.bound_iff {src dst : Name} {old new k : Nat} (stage : RenameStage src dst old new k c) :
    (∃ id ∈ [old, new], c.names dst = some id) ↔ k ≠ 1 := by
  rcases stage with ⟨rfl, named, _⟩ | ⟨rfl, absent⟩ | ⟨rfl, named, _⟩
  · exact ⟨fun _ => by decide, fun _ => ⟨old, by simp, named⟩⟩
  · constructor
    · rintro ⟨id, _, named⟩
      rw [absent] at named
      cases named
    · exact fun other => absurd rfl other
  · exact ⟨fun _ => by decide, fun _ => ⟨new, by simp, named⟩⟩

/-- A rename onto an existing file that is cut off between two records keeps the destination bound
    to the old or to the moved file, if and only if it has not written exactly one record. -/
theorem rename_crash_binds_destination_iff {fs₀ fs mid : ZenFS} {pos : Nat} {src dst : Name} {r q : Ref}
    (start : Snapshotted fs₀ pos) (run : Run (fun fs op => op.Regular fs) fs₀ fs) (different : src ≠ dst)
    (source : formatPathLexically src = src) (dest : formatPathLexically dst = dst)
    (held : fs.files[src]? = some r) (existing : fs.files[dst]? = some q) {depth n : Nat}
    (cut : (renameFile (depth + 1) src dst).after n fs = some mid) (between : Between fs mid)
    (clean : ∀ event ∈ mid.persists, Clean event) (reported : Reported mid) {metaReplies : Nat → Reply}
    (healthy : ∀ n, (metaReplies n).ok = true) (ioReplies : Nat → Reply) (maxActive maxOpen : Nat) :
    Ensures (recoverFrom ⟨mid.metaLog.zone, pos⟩)
      (fun result fs' => (∃ log, result = .ok log) ∧
        (BoundTo fs' dst [(fs.objects q).fileId, (fs.objects r).fileId] ↔
          mid.persists.length ≠ fs.persists.length + 1))
      (mid.restart metaReplies ioReplies maxActive maxOpen) := by
  have grows := (Operation.rename (depth + 1) src dst).grows.wp_of Grows.refl (fun _ _ _ => Grows.trans) fs
  have grown := wp_after (Grows.refl fs) grows cut
  obtain ⟨c, live, journaled⟩ := run.tracked start (fun event member => (clean event (grown.2.mem member)).1)
    (fun event member => (clean event (grown.2.mem member)).2)
  have named := (live.names_iff held).mpr held
  have here : (staging fs pos (RenameStage src dst (fs.objects q).fileId (fs.objects r).fileId)).Seen fs :=
    Or.inr (Or.inr ⟨0, c, Or.inl ⟨rfl, (live.names_iff existing).mpr existing, named⟩, rfl, journaled⟩)
  rcases wp_after here (staged_renameFile live journaled different source dest held existing depth) cut with
    ⟨event, member, unclean⟩ | under_way | ⟨k, c', stage, ended, journal⟩
  · exact absurd (clean event member) unclean
  · exact absurd between under_way
  · refine wp_mono ?_ (ensures_recoverFrom_replayed journal reported healthy ioReplies maxActive maxOpen)
    rintro result fs' ⟨ok, replayed, _⟩
    refine ⟨ok, ?_⟩
    rw [replayed.boundTo_iff, stage.bound_iff, ended]
    omega

def twoFiles : ZenFS := (afterAll createdOne [.create (path "/a") true false]).getD createdOne

theorem twoFiles_run : Run (fun fs op => op.Regular fs) sampleZenFS twoFiles := by
  have first : Run (fun fs op => op.Regular fs) sampleZenFS createdOne :=
    .single (createdOne_step createdOne_regular)
  exact first.tail (afterAll_step (.create (path "/a") true false) trivial
    ⟨Or.inl (by decide +kernel), by decide +kernel, by decide +kernel⟩ (some_getD (by decide +kernel) createdOne))

def renameCut (n : Nat) : ZenFS := ((renameFile 1 (path "/a") (path "/b")).after n twoFiles).getD twoFiles

/-- After the deletion record of `/b` has been written nothing has the name. -/
theorem renameCut_loses_destination : Snapshotted sampleZenFS 1024 ∧
    Run (fun fs op => op.Regular fs) sampleZenFS twoFiles ∧
    twoFiles.files[path "/a"]? = some 1 ∧ twoFiles.files[path "/b"]? = some 0 ∧
    (renameFile 1 (path "/a") (path "/b")).after 11 twoFiles = some (renameCut 11) ∧
    (renameCut 11).persists.length = twoFiles.persists.length + 1 ∧ Between twoFiles (renameCut 11) ∧
    ((recoverFrom ⟨(renameCut 11).metaLog.zone, 1024⟩).run ((renameCut 11).restart alwaysOk alwaysOk 0 0)).map
      (fun outcome => (outcome.1.isOk, objectId outcome.2 (path "/a"), objectId outcome.2 (path "/b"))) =
        some (true, some 2, none) := by
  exact ⟨sample_snapshotted, twoFiles_run, by decide +kernel, by decide +kernel, some_getD (by decide +kernel) twoFiles,
    by decide +kernel, by decide +kernel, by decide +kernel⟩

/-- After both records the destination is the moved file. -/
theorem renameCut_binds_destination : (renameCut 27).persists.length = twoFiles.persists.length + 2 ∧
    Ensures (recoverFrom ⟨(renameCut 27).metaLog.zone, 1024⟩) (fun result fs' => (∃ log, result = .ok log) ∧
      (BoundTo fs' (path "/b") [(twoFiles.objects 0).fileId, (twoFiles.objects 1).fileId] ↔
        (renameCut 27).persists.length ≠ twoFiles.persists.length + 1))
      ((renameCut 27).restart alwaysOk alwaysOk 0 0) := by
  have cut : (renameFile 1 (path "/a") (path "/b")).after 27 twoFiles = some (renameCut 27) :=
    some_getD (by decide +kernel) twoFiles
  exact ⟨by decide +kernel, rename_crash_binds_destination_iff sample_snapshotted twoFiles_run (by decide +kernel)
    (by decide +kernel) (by decide +kernel) (by decide +kernel) (by decide +kernel) cut (by decide +kernel)
    (by decide +kernel) (by decide +kernel) (fun _ => rfl) alwaysOk 0 0⟩

def recordsFrom (fs₀ : ZenFS) (persists : List PersistEvent) : List ByteString.Bytes :=
  fs₀.encodeSnapshotTo :: (persists.map (·.record)).reverse

theorem recordsFrom_cons (fs₀ : ZenFS) (event : PersistEvent) (persists : List PersistEvent) :
    recordsFrom fs₀ (event :: persists) = recordsFrom fs₀ persists ++ [event.record] := by
  simp [recordsFrom]

theorem Between.begun {base fs fs' : ZenFS} (between : Between base fs)
    (attempts : fs'.attempts.length = fs.attempts.length + 1) (persists : fs'.persists.length = fs.persists.length) :
    ¬ Between base fs' := by
  unfold Between at *
  omega

theorem Between.recorded {base fs : ZenFS} (between : Between base fs) (record : ByteString.Bytes) (calls : Nat) :
    Between base (recorded fs record calls) := by
  simp only [Between, ZenFSProof.recorded, List.length_cons] at *
  omega

/-- Whenever no record is under way, the log has the snapshot of `fs₀` and all records since. -/
def chronicle (fs₀ : ZenFS) (pos : Nat) : Ledger where
  tells fs c := getIOZone fs.zbd.dev = getIOZone fs₀.zbd.dev ∧ Between fs₀ fs ∧
    Logs fs.md fs.metaLog.zone pos (recordsFrom fs₀ fs.persists) ∧
    Reads (getIOZone fs₀.zbd.dev) noFiles (recordsFrom fs₀ fs.persists) c
  safe md zone attempts persists zones := (∃ event ∈ persists, ¬ Clean event) ∨
    attempts.length + fs₀.persists.length ≠ fs₀.attempts.length + persists.length ∨
    zones = getIOZone fs₀.zbd.dev ∧ Logs md zone pos (recordsFrom fs₀ persists) ∧
      ∃ c, Reads zones noFiles (recordsFrom fs₀ persists) c
  allows _ _ := True
  given_up dirty := Or.inl dirty
  stands := by
    rintro fs c ⟨layout, _, logs, reads⟩
    exact Or.inr (Or.inr ⟨layout, logs, c, layout ▸ reads⟩)
  quiet := by
    rintro fs fs' c still ⟨layout, between, logs, reads⟩
    rw [Between, still.zones, still.md, still.metaLog, still.attempts, still.persists]
    exact ⟨layout, between, logs, reads⟩
  persist := by
    rintro fs c e record post ⟨layout, between, logs, reads⟩ writes _ dirty appended
    refine wp_persistRecord_clean ?_ (fun result fs' gone => ⟨Or.inl gone, dirty result fs' gone⟩) ?_
    · intro fs' persisting
      obtain ⟨attempts, persists⟩ := Prod.mk.inj persisting
      exact Or.inr (Or.inl (between.begun (congrArg List.length attempts) (congrArg List.length persists)))
    · intro readable room calls
      have carries := writes.carries readable
      have logs' := logs.record readable room calls
      have reads' := reads.record (layout ▸ carries) writes.applies
      rw [← recordsFrom_cons fs₀ ⟨record, .appended⟩] at logs' reads'
      exact ⟨Or.inr (Or.inr ⟨layout, logs', _, layout ▸ reads'⟩),
        appended calls ⟨layout, between.recorded record calls, logs', reads'⟩⟩

/-- The device comes back, the log of `mid` is replayed, and what has been recovered is as wanted. -/
def RecoversTo (mid : ZenFS) (pos : Nat) (wanted : ZenFS → Prop) : Prop :=
  ∀ metaReplies ioReplies maxActive maxOpen, (∀ n, (metaReplies n).ok = true) →
    Ensures (recoverFrom ⟨mid.metaLog.zone, pos⟩) (fun result fs' => (∃ log, result = .ok log) ∧ wanted fs')
      (mid.restart metaReplies ioReplies maxActive maxOpen)

section

variable {fs₀ fs mid : ZenFS} {pos : Nat} (start : Snapshotted fs₀ pos)

include start

theorem Run.chronicled (run : Run (fun fs op => op.Regular fs) fs₀ fs) (clean : ∀ event ∈ fs.persists, Clean event) :
    (chronicle fs₀ pos).Tracks fs := by
  have only : recordsFrom fs₀ fs₀.persists = [fs₀.encodeSnapshotTo] := by
    rw [start.history]
    rfl
  have tracks : (chronicle fs₀ pos).Tracks fs₀ :=
    ⟨_, start.live noFiles, rfl, rfl, only ▸ start.logs, only ▸ start.reads noFiles⟩
  refine (Run.keeps (fun _ _ => trivial) run tracks).resolve_left ?_
  rintro ⟨event, member, unclean⟩
  exact unclean (clean event member)

variable (run : Run (fun fs op => op.Regular fs) fs₀ fs) (op : Operation) (possible : op.Possible fs)
  (regular : op.Regular fs) {n : Nat} (cut : op.program.after n fs = some mid) (between : Between fs mid)
  (clean : ∀ event ∈ mid.persists, Clean event)

include run possible regular cut between clean

theorem logged_after : getIOZone mid.zbd.dev = getIOZone fs₀.zbd.dev ∧
    Logs mid.md mid.metaLog.zone pos (recordsFrom fs₀ mid.persists) ∧
    ∃ c, Reads (getIOZone mid.zbd.dev) noFiles (recordsFrom fs₀ mid.persists) c := by
  have grown := wp_after (Grows.refl fs) (op.grows.wp_of Grows.refl (fun _ _ _ => Grows.trans) fs) cut
  have tracks := run.chronicled start (fun event member => clean event (grown.2.mem member))
  rcases wp_after tracks.seen (op.keeping (fun _ _ => trivial) tracks possible regular) cut with
    ⟨event, member, unclean⟩ | under_way | logged
  · exact absurd (clean event member) unclean
  · obtain ⟨_, _, _, before, _⟩ := tracks
    unfold Between at between before
    omega
  · exact logged

variable (reported : Reported mid)

include reported

theorem recovers_done {done : ZenFS} (again : Run (fun fs op => op.Regular fs) fs₀ done)
    (same : done.persists = mid.persists) : RecoversTo mid pos (Reproduces done) := by
  intro metaReplies ioReplies maxActive maxOpen healthy
  obtain ⟨layout, logs, _⟩ := logged_after start run op possible regular cut between clean
  obtain ⟨c, live, _, _, _, reads⟩ := again.chronicled start (same ▸ clean)
  refine wp_mono ?_ (ensures_recoverFrom_replayed (journal_iff.mpr ⟨_, logs, same ▸ layout ▸ reads⟩) reported healthy
    ioReplies maxActive maxOpen)
  rintro _ fs' ⟨ok, replayed, _⟩
  exact ⟨ok, replayed.reproduces live⟩

/-- Whatever operation a crash comes into, between two records, the log can be replayed, and the result is any state a
    run can come to with the same records. -/
theorem crash_recovers_state_of_records : RecoversTo mid pos (fun _ => True) ∧
    ∀ done, Run (fun fs op => op.Regular fs) fs₀ done → done.persists = mid.persists →
      RecoversTo mid pos (Reproduces done) := by
  refine ⟨?_, fun done => recovers_done start run op possible regular cut between clean reported⟩
  intro metaReplies ioReplies maxActive maxOpen healthy
  obtain ⟨_, logs, c, reads⟩ := logged_after start run op possible regular cut between clean
  exact wp_mono (fun _ _ outcome => ⟨outcome.1, trivial⟩) (ensures_recoverFrom_replayed
    (journal_iff.mpr ⟨_, logs, reads⟩) reported healthy ioReplies maxActive maxOpen)

/-- An operation of at most one record is all or nothing to a crash. -/
theorem one_record_operation_is_crash_atomic {result : Except Status Unit} {fs₁ : ZenFS}
    (ran : op.program.run fs = some (result, fs₁)) (one : fs₁.persists.length ≤ fs.persists.length + 1) :
    RecoversTo mid pos (Reproduces fs) ∨ RecoversTo mid pos (Reproduces fs₁) := by
  have grown := wp_after (Grows.refl fs) (op.grows.wp_of Grows.refl (fun _ _ _ => Grows.trans) fs) cut
  have keeps : op.program.Keeps (fun a b => ¬ a.persists <:+ fs₁.persists → ¬ b.persists <:+ fs₁.persists) :=
    op.grows.mono (fun _ _ grows late later => late (grows.2.trans later))
  have ahead := not_not.mp (keeps.avoids ran (not_not.mpr (List.suffix_refl _)) n mid cut)
  have recovers := @recovers_done fs₀ fs mid pos start run op possible regular n cut between clean reported
  have before := grown.2.length_le
  by_cases written : fs.persists.length = mid.persists.length
  · exact Or.inl (recovers run (grown.2.eq_of_length written))
  · exact Or.inr (recovers (run.tail (.operate op possible regular result ran))
      (ahead.eq_of_length (Nat.le_antisymm ahead.length_le (by omega))).symm)

end

def creation : Operation := .create (path "/b") true false

def creationDone : ZenFS := (creation.program.run sampleZenFS).elim sampleZenFS Prod.snd

/-- The record of the file has been written, and the file has no writer yet. -/
def creationCut : ZenFS := (creation.program.after 12 sampleZenFS).getD sampleZenFS

theorem creation_facts : (creation.program.run sampleZenFS = some (.ok (), creationDone) ∧
    creation.program.after 12 sampleZenFS = some creationCut ∧ creation.Regular sampleZenFS) ∧
    creationDone.persists = creationCut.persists ∧ creationDone.persists.length ≤ sampleZenFS.persists.length + 1 ∧
    Between sampleZenFS creationCut ∧ (∀ event ∈ creationCut.persists, Clean event) ∧ Reported creationCut :=
  ⟨⟨run_eq_some (by decide +kernel), some_getD (by decide +kernel) sampleZenFS, createdOne_regular⟩,
    by decide +kernel⟩

theorem creation_is_recovered : RecoversTo creationCut 1024 (Reproduces creationDone) := by
  obtain ⟨⟨ran, cut, regular⟩, same, one, between, clean, reported⟩ := creation_facts
  exact (crash_recovers_state_of_records sample_snapshotted .refl creation trivial regular cut between clean reported).2 _
    (.single (.operate creation trivial regular _ ran)) same

theorem creation_is_crash_atomic :
    RecoversTo creationCut 1024 (Reproduces sampleZenFS) ∨ RecoversTo creationCut 1024 (Reproduces creationDone) := by
  obtain ⟨⟨ran, cut, regular⟩, same, one, between, clean, reported⟩ := creation_facts
  exact one_record_operation_is_crash_atomic sample_snapshotted .refl creation trivial regular cut between clean reported
    ran one

end ZenFSProof
