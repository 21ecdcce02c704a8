import ZonedStorage.Journal.Move

namespace ZenFSProof

open HardLinks Resumption Resumption.Prog ZenFSModel ZenFSModel.ZenFS Function ZenFS

def created (fs : ZenFS) (f : ZoneFile) : ZenFS :=
  { fs.setObject fs.nextRef f with
    nextRef := fs.nextRef + 1
    nextFileId := (fs.nextFileId + 1) % 2 ^ 64
    asked := fs.asked + 1 }

section

variable {L : Ledger} {fs : ZenFS} {c : FileCatalog} {fname : Name}

theorem makeFile_eq (fname : Name) (useDirectWrites : Bool) (time fileId : Nat) :
    ∃ ioType isSparse, makeFile fname useDirectWrites time fileId =
      { ZoneFile.new fileId with mTime := time, linkFiles := [fname], ioType := ioType, isSparse := isSparse } := by
  simp only [makeFile]
  split
  · exact ⟨_, _, rfl⟩
  · exact ⟨_, _, rfl⟩

theorem Live.nextRef_unbound (live : Live fs c) (n : Name) : fs.files[n]? ≠ some fs.nextRef :=
  fun held => Nat.lt_irrefl _ (live.bounded held)

theorem Live.replaces_new (live : Live fs c) (unbound : fs.files[fname]? = none) (filled : fname ≠ [])
    (useDirectWrites : Bool) {time : Nat} (small : time < 2 ^ 64) :
    Replaces fs fs.nextRef (makeFile fname useDirectWrites time fs.nextFileId) := by
  obtain ⟨ioType, isSparse, shape⟩ := makeFile_eq fname useDirectWrites time fs.nextFileId
  rw [shape]
  constructor
  · exact fun held => absurd held (live.nextRef_unbound _)
  · exact fun held _ => Nat.ne_of_lt (live.counted held)
  · intro n member
    rw [List.mem_singleton.mp member]
    exact Or.inl unbound
  · simp
  · exact List.cons_ne_nil fname []
  · refine ⟨live.ids, ?_, small, ?_, ?_, ?_, ?_, ?_, ?_⟩
    · exact Nat.two_pow_pos 64
    · exact (by decide : NO_EXTENT < 2 ^ 64)
    · exact Nat.two_pow_pos 32
    · exact fun e member => by cases member
    · exact fun e member => by cases member
    · exact fun e member => by cases member
    · intro n member
      rw [List.mem_singleton.mp member]
      exact filled
  · rfl

theorem Live.continues_new (live : Live fs c) (fname : Name) (useDirectWrites : Bool) (time : Nat) :
    Continues fs fs.nextRef (makeFile fname useDirectWrites time fs.nextFileId) false := by
  obtain ⟨ioType, isSparse, shape⟩ := makeFile_eq fname useDirectWrites time fs.nextFileId
  rw [shape]
  exact ⟨fun held => absurd held (live.nextRef_unbound _), fun _ => ⟨rfl, fname, rfl⟩⟩

def opened (fs : ZenFS) (r : Ref) (fname : Name) (buffered : Bool) : ZenFS :=
  let fs := (fs.setObject r { fs.objects r with openForWr := true }).insertFile fname r
  { fs with
    writers := update fs.writers fs.nextWriter
      (makeWriter fs.zbd.dev.geo.blockSz r (fs.objects r) buffered)
    nextWriter := fs.nextWriter + 1
    handles := update fs.handles r (fs.handles r + 1) }

theorem opened_quiet (fs : ZenFS) (r : Ref) (fname : Name) (buffered : Bool) : Quiet fs (opened fs r fname buffered) :=
  ⟨rfl, rfl, rfl, rfl, rfl, rfl⟩

theorem Live.recorded_new (live : Live fs c) (ids : fs.nextFileId + 1 < 2 ^ 64)
    {g f : ZoneFile} (links : f.linkFiles = [fname]) (buffered : Bool) (asked calls : Nat) :
    Recorded fs (opened (filed (created fs g) fs.nextRef f false asked calls) fs.nextRef fname buffered)
      fs.nextRef f := by
  constructor
  · intro m
    rw [links]
    change (fs.files.insertIfNew fname fs.nextRef)[m]? = _
    rw [insertIfNew_lookup]
    cases bound : fs.files[m]? with
    | none => simp [rebind, bound]
    | some q =>
      have different : q ≠ fs.nextRef := by
        rintro rfl
        exact live.nextRef_unbound m bound
      exact (rebind_other different bound).symm
  · refine ⟨true, ?_⟩
    simp only [opened, insertFile, setObject, filed_objects, update_self]
  · intro q different _
    simp only [opened, insertFile, setObject, filed_objects, created]
    rw [update_of_ne different, update_of_ne different, update_of_ne different]
  · exact filed_persisted (created fs g) fs.nextRef f false asked calls
  · exact Nat.le_succ _
  · change fs.nextFileId ≤ (fs.nextFileId + 1) % 2 ^ 64
    rw [Nat.mod_eq_of_lt ids]
    exact Nat.le_succ _
  · change (fs.nextFileId + 1) % 2 ^ 64 < 2 ^ 64
    rw [Nat.mod_eq_of_lt ids]
    exact ids
  · rfl
  · exact fun q different => update_of_ne different ..

theorem keeping_handOut (fs : ZenFS) {r : Ref} {buffered : Bool} (free : (fs.objects r).openForWr = false)
    (tracks : L.Tracks (opened fs r fname buffered)) (existed : Bool) : L.Keeping (do
      acquireWRLock r
      Prog.update (fun fs => fs.insertFile fname r)
      let writer ← newWritableFile r buffered
      if existed then resetUnusedIOZones
      pure writer) fs := by
  have here : L.Seen fs := tracks.seen
  simp only [acquireWRLock, wp_bind, wp_await, free, Bool.false_eq_true, if_false, onOk_ok, wp_update,
    newWritableFile, wp_act]
  refine ⟨here, here, here, ?_⟩
  cases existed with
  | false => exact Or.inr tracks
  | true => exact (keeping_resetUnusedIOZones tracks).bind (fun _ _ kept => Or.inr kept) (fun _ => trivial)

variable (free : ∀ c e, L.allows c e)

include free

theorem keeping_create (tracks : L.Tracks fs) (unbound : fs.files[fname]? = none) (filled : fname ≠ [])
    (whole : 0 ∉ fname) (ids : fs.nextFileId + 1 < 2 ^ 64) (useDirectWrites existed : Bool) :
    L.Keeping (do
      let r ← createFile fname useDirectWrites
      syncFileMetadataNoLock r false
      acquireWRLock r
      Prog.update (fun fs => fs.insertFile (cStr fname) r)
      let writer ← newWritableFile r (!useDirectWrites)
      if existed then resetUnusedIOZones
      pure writer) fs := by
  rw [cStr_eq_self_iff.mpr whole]
  have here := tracks.seen
  obtain ⟨c, live, tells⟩ := tracks
  have time : (fs.answers fs.asked).time.toNat < 2 ^ 64 := (fs.answers fs.asked).time.toNat_lt
  have replaces := live.replaces_new unbound filled useDirectWrites time
  have continues := live.continues_new fname useDirectWrites (fs.answers fs.asked).time.toNat
  obtain ⟨ioType, isSparse, shape⟩ :=
    makeFile_eq fname useDirectWrites (fs.answers fs.asked).time.toNat fs.nextFileId
  generalize made : makeFile fname useDirectWrites (fs.answers fs.asked).time.toNat fs.nextFileId = g
    at replaces continues shape
  have object : (created fs g).objects fs.nextRef = g := update_self ..
  have links : ∀ {f}, Stamped g f → f.linkFiles = [fname] ∧ f.fileId = fs.nextFileId ∧ f.openForWr = false := by
    rintro f ⟨stamp, same, _⟩
    rw [same, shape]
    exact ⟨rfl, rfl, rfl⟩
  simp only [createFile, ask, wp_bind, wp_act, onOk_ok, made]
  refine ⟨here, here, ?_⟩
  simp only [← wp_bind]
  change L.Under (syncFileMetadataNoLock fs.nextRef false >>= _) _ (created fs g)
  rw [Ledger.Under, wp_bind]
  apply under_syncFileMetadataNoLock (c := c) (by rw [object]; exact replaces.kept)
  · have quiet : Quiet fs (created fs g) := ⟨rfl, rfl, rfl, rfl, rfl, rfl⟩
    exact L.quiet quiet tells
  · intro f asked stamped
    rw [object] at stamped
    have written := replaces.stamp stamped
    refine ⟨fun readable => ?_, applies_update live written (continues.stamp stamped)⟩
    exact carries_fileRecord readable written.fits (by rw [(links stamped).2.1]; exact ids) written.linked
  · exact fun _ _ => free _ _
  · intro result fs' dirty
    cases result with
    | error status => exact Or.inl dirty
    | ok _ => exact dirty.keeping (Grows.covers.handOut fs.nextRef fname (!useDirectWrites) existed)
  · intro f asked calls stamped told
    rw [object] at stamped
    have written := replaces.stamp stamped
    have next := continues.stamp stamped
    obtain ⟨linked, id, unlocked⟩ := links stamped
    have recorded := live.recorded_new ids linked (g := g) (!useDirectWrites) asked calls
    have put : applyEntry c (updateEntry f false) = c.put (nodeOf f) := applyUpdate_put live written next
    rw [put] at told
    refine keeping_handOut (filed (created fs g) fs.nextRef f false asked calls) ?_
      ⟨c.put (nodeOf f), ?_, L.quiet (opened_quiet _ _ _ _) told⟩ existed
    · rw [filed_objects, update_self]
      exact unlocked
    · refine live.put written recorded (Nat.lt_succ_self fs.nextRef) ?_
      change f.fileId < (fs.nextFileId + 1) % 2 ^ 64
      rw [id, Nat.mod_eq_of_lt ids]
      exact Nat.lt_succ_self _

omit free in
theorem keeping_reopen (tracks : L.Tracks fs) {r : Ref} (held : fs.files[fname]? = some r) (buffered : Bool) :
    L.Keeping (do
      acquireWRLock r
      newWritableFile r buffered) fs := by
  have fits : Fits (getIOZone fs.zbd.dev) (fs.objects r) := by
    obtain ⟨c, live, _⟩ := tracks
    exact live.fits held
  have below : r < fs.nextRef := by
    obtain ⟨c, live, _⟩ := tracks
    exact live.bounded held
  have here := tracks.seen
  simp only [acquireWRLock, wp_bind, wp_await]
  cases locked : (fs.objects r).openForWr with
  | true => simp only [if_true]
  | false =>
    simp only [Bool.false_eq_true, if_false, onOk_ok, newWritableFile, wp_act]
    refine ⟨here, here, Or.inr (tracks.grown (r := r) ?_ (fun _ => below) (fun _ => Or.inl ⟨fname, held⟩))⟩
    constructor
    · simp only [setObject, update_self]
      exact ⟨rfl, rfl, rfl, rfl, List.prefix_rfl⟩
    · simp only [setObject, update_self]
      exact { fits with }
    · exact fun q different => update_of_ne different ..
    · rfl
    · rfl
    · rfl
    · rfl
    · exact ⟨rfl, rfl, rfl, rfl, rfl, rfl⟩
    · exact fun q different => update_of_ne different ..

theorem keeping_openWritableFile (tracks : L.Tracks fs) {filename : Name} (settled : Settled fs filename)
    (whole : 0 ∉ formatPathLexically filename) (ids : fs.nextFileId + 1 < 2 ^ 64) (useDirectWrites reopen : Bool) :
    L.Keeping (openWritableFile filename useDirectWrites reopen) fs := by
  have here := tracks.seen
  have filled := formatPathLexically_ne_nil filename
  simp only [openWritableFile, getFileNoLock, wp_bind, wp_read, onOk_ok]
  refine ⟨here, ?_⟩
  cases held : fs.files[formatPathLexically (formatPathLexically filename)]? with
  | none =>
    have unbound : fs.files[formatPathLexically filename]? = none := by
      rcases settled with same | unbound
      · rwa [same] at held
      · exact unbound
    exact keeping_create free tracks unbound filled whole ids useDirectWrites false
  | some r =>
    cases reopen with
    | true => exact keeping_reopen tracks held (!useDirectWrites)
    | false =>
      simp only [Option.isSome_some, if_true]
      rw [wp_bind]
      refine wp_mono ?_ (under_deleteFileNoLock free tracks (Or.inl (formatPathLexically_twice filename)))
      rintro result fs' (dirty | ⟨kept, removed⟩)
      · cases result with
        | error status => exact Or.inl dirty
        | ok _ =>
          refine dirty.keeping ((Grows.covers.createFile _ useDirectWrites).bind (fun q => ?_))
          exact (Grows.covers.syncFileMetadataNoLock q false).bind
            (fun _ => Grows.covers.handOut q _ (!useDirectWrites) true)
      · cases result with
        | error status => exact Or.inr kept
        | ok _ =>
          have gone := removed rfl
          have unbound : fs'.files[formatPathLexically filename]? = none := by
            by_cases same : formatPathLexically filename = formatPathLexically (formatPathLexically filename)
            · rw [same]
              refine gone.absent ?_
              rw [formatPathLexically_twice, held]
              exact Option.some_ne_none r
            · rw [gone.names _ same]
              exact settled.resolve_left (fun equal => same equal.symm)
          exact keeping_create free kept unbound filled whole (by rw [gone.ids]; exact ids) useDirectWrites true

omit free

def replaced (fs : ZenFS) (r : Ref) (newExtents : List ZoneExtent) : ZenFS :=
  fs.setObject r { fs.objects r with extents := newExtents, nrSyncedExtents := 0 }

theorem replaced_object (fs : ZenFS) (r : Ref) (newExtents : List ZoneExtent) : (replaced fs r newExtents).objects r =
    { fs.objects r with extents := newExtents, nrSyncedExtents := 0 } := update_self ..

theorem Live.recordable_replaced (live : Live fs c) {n : Name} {r : Ref} (held : fs.files[n]? = some r)
    {newExtents : List ZoneExtent}
    (fits : Fits (getIOZone fs.zbd.dev) { fs.objects r with extents := newExtents }) :
    Recordable fs (replaced fs r newExtents) c r true := by
  refine ⟨⟨?_, by rw [replaced_object]; rfl⟩, live, ?_, ?_, live.bounded held, ?_⟩
  · rw [replaced_object]
    exact live.rebind_links held
  · rw [replaced_object]
    exact live.replaces held rfl rfl { fits with } (live.kept held)
  · rw [replaced_object]
    exact ⟨fun _ => rfl, fun unbound => absurd held (unbound n)⟩
  · rw [replaced_object]
    exact live.counted held

theorem keeping_syncFileExtents {r : Ref} (free : ∀ c e, L.allows c e) (tracks : L.Tracks fs)
    (attached : Attached fs r) {newExtents : List ZoneExtent}
    (fits : Fits (getIOZone fs.zbd.dev) { fs.objects r with extents := newExtents }) :
    L.Keeping (syncFileExtents r newExtents) fs := by
  have here := tracks.seen
  have state : ((fs.setObject r { fs.objects r with extents := newExtents }).setObject r
      (ZoneFile.metadataUnsynced ((fs.setObject r { fs.objects r with extents := newExtents }).objects r))) =
      replaced fs r newExtents := by
    simp only [replaced, setObject, update_self, update_idem, ZoneFile.metadataUnsynced]
  have discharge : ∀ fs', L.Tracks fs' →
      L.Tracks (fs'.dischargeReplaced (fs.objects r).extents newExtents) := by
    intro fs' kept
    exact kept.congr (fun _ => rfl) (fun _ _ _ => rfl) (fun _ => rfl) (Frame.discharge fs' _).dev.getIOZone rfl
  simp only [syncFileExtents, object, modifyObject, wp_bind, wp_read, wp_update, onOk_ok, state,
    syncFileMetadata]
  refine ⟨here, here, here, ?_⟩
  rcases attached with ⟨n, held⟩ | deleted
  · obtain ⟨c, live, tells⟩ := tracks
    refine wp_mono ?_ ((live.recordable_replaced held fits).under_sync tells (fun _ _ => free _ _))
    rintro result fs' (dirty | ⟨rfl, kept⟩)
    · cases result with
      | error status => exact Or.inl dirty
      | ok _ =>
        have still : Dirty (fs'.dischargeReplaced (fs.objects r).extents newExtents) := dirty.same rfl
        exact ⟨L.given_up still, Or.inl still⟩
    · have tidy := discharge fs' kept
      exact ⟨tidy.seen, Or.inr tidy⟩
  · have gone : ((replaced fs r newExtents).objects r).isDeleted = true := by
      rw [replaced_object]
      exact deleted
    have kept : L.Tracks (replaced fs r newExtents) := by
      refine tracks.congr (fun _ => rfl) ?_ ?_ rfl rfl
      · intro n q held
        obtain ⟨c, live, _⟩ := tracks
        have different : q ≠ r := by
          rintro rfl
          rw [live.kept held] at deleted
          cases deleted
        exact update_of_ne different ..
      · intro q
        by_cases same : q = r
        · subst same
          rw [gone, deleted]
        · simp only [replaced, setObject]
          rw [update_of_ne same]
    have tidy := fun reads => discharge _ (kept.reads reads)
    simp only [syncFileMetadataNoLock, object, getFilename, wp_bind, wp_read, wp_act, onOk_ok, gone, if_true,
      wp_pure]
    exact ⟨here, (kept.reads _).seen, (tidy _).seen, Or.inr (tidy _)⟩

end

open ByteString Uncounted
open ZenFSModel.ZenMetaLog (physSz recordBuffer)

abbrev IfDone {ε σ α : Type} (p : Prog ε σ α) (post : Except ε α → σ → Prop) (s : σ) : Prop :=
  wp (fun _ => True) True p post s

theorem noted_dirty (fs : ZenFS) {record : Bytes} {outcome : PersistOutcome}
    (unclean : ¬ Clean ⟨record, outcome⟩) : Dirty (fs.noted record outcome) :=
  ⟨⟨record, outcome⟩, List.mem_cons_self, unclean⟩

section

variable {fs : ZenFS} {record : Bytes} {seen : ZenFS → Prop} {post : Except Status Unit → ZenFS → Prop}

def Persisting (fs : ZenFS) (record : Bytes) (fs' : ZenFS) : Prop := history fs' = history (fs.attempted record)

theorem wp_rolled (pending : ∀ fs', Persisting fs record fs' → seen fs')
    (dirty : ∀ result fs', Dirty fs' → seen fs' ∧ post result fs') (status : Status) {fs' : ZenFS}
    (persisting : Persisting fs record fs') :
    wp seen True (do
      if status.same (Status.noSpace "") then
        match ← rollMetaZoneLocked.attempt with
        | .ok () => .update (fun fs => fs.noted record .rolled)
        | .error status =>
          .update (fun fs => fs.noted record .failed)
          .fail status
      else
        .update (fun fs => fs.noted record .failed)
        .fail status) post fs' := by
  have unclean : ∀ outcome, outcome ≠ .appended → ¬ Clean ⟨record, outcome⟩ :=
    fun outcome other clean => other clean.1
  have fails : ∀ (status : Status) (fs' : ZenFS), wp seen True (do
      Prog.update (fun fs => fs.noted record .failed)
      (Prog.fail status : Proc ZenFS Unit)) post fs' := by
    intro status fs'
    simp only [wp_bind, wp_update, onOk_ok, wp_fail]
    exact dirty _ _ (noted_dirty _ (unclean _ (by decide)))
  split
  · have rolls := admits.rollMetaZoneLocked.wp_of refl (fun _ _ _ => trans) fs'
    simp only [wp_bind]
    rw [wp_attempt]
    refine wp_mono ?_ (wp_weaken (fun fs₁ same => pending fs₁ (Eq.trans same persisting)) id rolls)
    intro result fs₁ _
    cases result with
    | ok _ => exact dirty _ _ (noted_dirty _ (unclean _ (by decide)))
    | error status => exact fails status fs₁
  · exact fails status fs'

theorem wp_persistRecord_clean (pending : ∀ fs', Persisting fs record fs' → seen fs')
    (dirty : ∀ result fs', Dirty fs' → seen fs' ∧ post result fs')
    (appended : Readable record → Room fs record → ∀ calls,
      seen (recorded fs record calls) ∧ post (.ok ()) (recorded fs record calls)) :
    wp seen True (persistRecord record) post fs := by
  simp only [persistRecord, wp_bind, wp_act, onOk_ok]
  refine ⟨pending _ rfl, ?_⟩
  rw [wp_attempt]
  by_cases readable : Readable record
  · have size : (recordBuffer fs.md.geo.blockSz record).length = physSz fs.md.geo.blockSz record.length :=
      recordBuffer_length readable
    have sector := fs.md.geo.sector_le
    have short : (recordBuffer fs.md.geo.blockSz record).length < 2 ^ 32 := by
      rw [size]
      exact physSz_lt readable (by omega) fs.md.geo.block_lt
    refine (wp_zoom mdLens _ _ _).mpr ?_
    simp only [ZenMetaLog.addRecord, wp_bind, wp_read, onOk_ok]
    refine ⟨pending _ rfl, ?_⟩
    apply wp_append short (pending _ rfl)
    · exact fun _ => wp_rolled pending dirty _ rfl
    · intro room
      refine ⟨fun _ _ _ _ => pending _ rfl, fun k c _ _ _ msg => wp_rolled pending dirty _ rfl, fun c _ => ?_⟩
      exact appended readable (by rw [Room, ← size]; exact room) c
  · have adds := (admits.onMeta (ZenMetaLog.addRecord fs.metaLog.zone record)).wp_of refl
      (fun _ _ _ => trans) (fs.attempted record)
    refine wp_mono ?_ (wp_weaken pending id adds)
    intro result fs' persisting
    cases result with
    | ok _ => exact dirty _ _ (noted_dirty _ (fun clean => readable clean.2))
    | error status => exact wp_rolled pending dirty _ persisting

end

def appending (pos : Nat) (c₀ : FileCatalog) : Ledger where
  tells fs c := Journaled fs pos c₀ c
  safe _ _ _ _ _ := True
  allows _ _ := True
  given_up _ := trivial
  stands _ := trivial
  quiet still journaled := journaled.congr still.md (by rw [still.metaLog]) still.zones
  persist journaled writes _ dirty appended := by
    refine wp_persistRecord_clean (fun _ _ => trivial) (fun result fs' gone => ⟨trivial, dirty result fs' gone⟩) ?_
    intro readable room calls
    exact ⟨trivial, appended calls (journaled.record (writes.carries readable) writes.applies room calls)⟩

end ZenFSProof
