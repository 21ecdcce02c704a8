import Mathlib.Logic.Relation
import ZonedStorage.Journal.Create

namespace ZenFSProof

open ByteString HardLinks Resumption Resumption.Prog ZenFSModel ZenFSModel.ZenFS
open ZenFSModel.ZenMetaLog (physSz recordBuffer)

/-- A consistent file system whose writers all have a file that is named or deleted. -/
structure WellFormed (fs : ZenFS) : Prop extends Consistent fs where
  reserved : ∀ {r}, fs.handles r ≠ 0 → r < fs.nextRef
  attached : ∀ {r}, fs.handles r ≠ 0 → Attached fs r

/-- A well-formed state whose complete snapshot is the first record behind `pos` in the current
    metadata zone, and nothing has been persisted since. -/
structure Snapshotted (fs : ZenFS) (pos : Nat) : Prop where
  wellFormed : WellFormed fs
  persisted : ∀ {n : Name} {r}, fs.files[n]? = some r → fs.persisted r = fs.objects r
  synced : ∀ {n : Name} {r}, fs.files[n]? = some r →
    (fs.objects r).nrSyncedExtents = (fs.objects r).extents.length
  readable : Readable fs.encodeSnapshotTo
  stored : fs.md.mem.read pos (physSz fs.md.geo.blockSz fs.encodeSnapshotTo.length) =
    recordBuffer fs.md.geo.blockSz fs.encodeSnapshotTo
  stop : (fs.md.zones fs.metaLog.zone).wp = pos + physSz fs.md.geo.blockSz fs.encodeSnapshotTo.length
  room : (fs.md.zones fs.metaLog.zone).wp + (fs.md.zones fs.metaLog.zone).capacity =
    (fs.md.zones fs.metaLog.zone).start + (fs.md.zones fs.metaLog.zone).maxCapacity
  limit : (fs.md.zones fs.metaLog.zone).maxCapacity ≤ fs.md.geo.zoneSz
  begins : (fs.md.zones fs.metaLog.zone).start ≤ pos
  aligned : fs.md.geo.blockSz ∣ pos
  history : fs.persists = []

/-- The operations of a run, as the calls of the file system that make them. -/
inductive Operation where
  | create (filename : Name) (useDirectWrites reopen : Bool)
  | sync (r : Ref)
  | rename (depth : Nat) (src dst : Name)
  | link (file dst : Name)
  | delete (path : Name)
  | replace (r : Ref) (newExtents : List ZoneExtent)

namespace Operation

def program : Operation → Proc ZenFS Unit
  | create filename useDirectWrites reopen => do
    let _ ← openWritableFile filename useDirectWrites reopen
  | sync r => syncFileMetadata r false
  | rename depth src dst => renameFile depth src dst
  | link file dst => linkFile file dst
  | delete path => deleteFile path
  | replace r newExtents => syncFileExtents r newExtents

/-- A call on a file object takes one that exists, and extents that are ranges of IO zones. -/
def Possible (fs : ZenFS) : Operation → Prop
  | sync r => Attached fs r
  | replace r newExtents =>
    Attached fs r ∧ Fits (getIOZone fs.zbd.dev) { fs.objects r with extents := newExtents }
  | _ => True

/-- The path under which a name is added or removed is settled. File ids do not run out, and the name of a new
    file has no NUL byte. -/
def Regular (fs : ZenFS) : Operation → Prop
  | create filename _ _ =>
    Settled fs filename ∧ 0 ∉ formatPathLexically filename ∧ fs.nextFileId + 1 < 2 ^ 64
  | rename _ _ dst => Settled fs dst
  | link _ dst => Settled fs dst
  | delete path => Settled fs path
  | _ => True

end Operation

/-- One step of a run: the data path grows a file that has a writer, or an operation runs to its end. -/
inductive Step (allowed : ZenFS → Operation → Prop) (fs fs' : ZenFS) : Prop where
  | grow (r : Ref) (writer : fs.handles r ≠ 0) (grown : Grown fs fs' r) (same : fs'.handles r = fs.handles r)
  | operate (op : Operation) (possible : op.Possible fs) (ok : allowed fs op) (result : Except Status Unit)
    (ran : op.program.run fs = some (result, fs'))

abbrev Run (allowed : ZenFS → Operation → Prop) : ZenFS → ZenFS → Prop := Relation.ReflTransGen (Step allowed)

theorem Step.mono {allowed allowed' : ZenFS → Operation → Prop} {fs fs' : ZenFS} (step : Step allowed fs fs')
    (weaken : ∀ fs op, allowed fs op → allowed' fs op) : Step allowed' fs fs' := by
  cases step with
  | grow r writer grown same => exact .grow r writer grown same
  | operate op possible ok result ran => exact .operate op possible (weaken fs op ok) result ran

theorem Run.mono {allowed allowed' : ZenFS → Operation → Prop} {fs fs' : ZenFS} (run : Run allowed fs fs')
    (weaken : ∀ fs op, allowed fs op → allowed' fs op) : Run allowed' fs fs' :=
  Relation.ReflTransGen.mono (fun _ _ step => Step.mono step weaken) fs fs' run

/-- The recovered files have the names, the sharing and the data of the files as last persisted. -/
def Reproduces (fs fs' : ZenFS) : Prop :=
  (∀ n : Name, (fs'.files[n]?).map (fun r => nodeOf (fs'.objects r)) =
    (fs.files[n]?).map (fun r => nodeOf (fs.persisted r))) ∧
  (∀ (n m : Name) r q r' q', fs.files[n]? = some r → fs.files[m]? = some q →
    fs'.files[n]? = some r' → fs'.files[m]? = some q' → (r' = q' ↔ r = q))

section

variable {fs : ZenFS} {pos : Nat}

theorem Snapshotted.live (start : Snapshotted fs pos) (c₀ : FileCatalog) :
    Live fs (applyEntry c₀ (snapshotEntry fs)) where
  shows := by
    refine (start.wellFormed.shows c₀).congr (fun _ => rfl) ?_
    intro n r held
    rw [start.persisted held]
  coherent := start.wellFormed.coherent c₀
  ids := start.wellFormed.ids
  bounded := start.wellFormed.bounded
  counted := start.wellFormed.counted
  synced held := by
    rw [start.persisted held]
    refine ⟨rfl, rfl, Nat.le_of_eq (start.synced held), ?_⟩
    rw [start.synced held, List.take_length]
  fits := start.wellFormed.fits
  kept := start.wellFormed.kept
  reserved := start.wellFormed.reserved
  attached := start.wellFormed.attached

theorem Snapshotted.logs (start : Snapshotted fs pos) : Logs fs.md fs.metaLog.zone pos [fs.encodeSnapshotTo] :=
  ⟨start.room, start.limit, start.begins, start.aligned, ⟨start.readable, start.stored, trivial⟩, start.stop⟩

theorem Snapshotted.reads (start : Snapshotted fs pos) (c₀ : FileCatalog) :
    Reads (getIOZone fs.zbd.dev) c₀ [fs.encodeSnapshotTo] (applyEntry c₀ (snapshotEntry fs)) :=
  ⟨[snapshotEntry fs], .cons (start.wellFormed.carries start.readable) .nil, rfl, ⟨start.wellFormed.applies c₀, trivial⟩, rfl⟩

theorem Snapshotted.journaled (start : Snapshotted fs pos) (c₀ : FileCatalog) :
    Journaled fs pos c₀ (applyEntry c₀ (snapshotEntry fs)) := journal_iff.mpr ⟨_, start.logs, start.reads c₀⟩

end

section

variable {L : Ledger} {fs fs' : ZenFS}

def Operation.Within (names : Name → Prop) : Operation → Prop
  | create filename _ _ => names (formatPathLexically (formatPathLexically filename))
  | sync _ => True
  | rename _ _ _ => ∀ n, names n
  | link _ dst => names (formatPathLexically dst)
  | delete path => names (formatPathLexically path)
  | replace _ _ => True

theorem Operation.keeps {R : ZenFS → ZenFS → Prop} {names : Name → Prop} (covers : Covers R names) (op : Operation)
    (within : op.Within names) : op.program.Keeps R := by
  cases op with
  | create filename useDirectWrites reopen =>
    exact (covers.openWritableFile within useDirectWrites reopen).bind (fun _ => trivial)
  | sync r => exact covers.syncFileMetadataNoLock r false
  | rename depth src dst =>
    exact (covers.renameFileNoLock within depth src dst).bind (fun _ => covers.resetUnusedIOZones)
  | link file dst => exact covers.linkFile file within
  | delete path => exact (covers.deleteFileNoLock within).bind (fun _ => covers.resetUnusedIOZones)
  | replace r newExtents => exact covers.syncFileExtents r newExtents

theorem Operation.grows (op : Operation) : op.program.Keeps Grows := by
  refine op.keeps Grows.covers ?_
  cases op <;> simp [Within]

variable (free : ∀ c e, L.allows c e)

include free

theorem Operation.keeping (op : Operation) (tracks : L.Tracks fs) (possible : op.Possible fs)
    (regular : op.Regular fs) : L.Keeping op.program fs := by
  cases op with
  | create filename useDirectWrites reopen =>
    exact (keeping_openWritableFile free tracks regular.1 regular.2.1 regular.2.2 useDirectWrites reopen).bind
      (fun _ _ kept => Or.inr kept) (fun _ => trivial)
  | sync r => exact keeping_syncFileMetadata free tracks possible
  | rename depth src dst => exact keeping_renameFile free depth tracks regular
  | link file dst => exact keeping_linkFile free tracks regular
  | delete path => exact keeping_deleteFile free tracks regular
  | replace r newExtents => exact keeping_syncFileExtents free tracks possible.1 possible.2

theorem Step.keeps (step : Step (fun fs op => op.Regular fs) fs fs') (kept : Dirty fs ∨ L.Tracks fs) :
    Dirty fs' ∨ L.Tracks fs' := by
  have finished : ∀ {p : Proc ZenFS Unit} {post : Except Status Unit → ZenFS → Prop} {result : Except Status Unit},
      L.Under p post fs → p.run fs = some (result, fs') → post result fs' := by
    intro p post result under ran
    exact (wp_partial_iff _ _ _).mp (wp_weaken (fun _ _ => trivial) id under) result fs' ran
  cases step with
  | grow r writer grown same =>
    rcases kept with dirty | tracks
    · exact Or.inl (dirty.same (by rw [history, grown.quiet.attempts, grown.quiet.persists]; rfl))
    · refine Or.inr (tracks.grown grown (fun _ => ?_) (fun _ => ?_))
      · obtain ⟨c, live, _⟩ := tracks
        exact live.reserved writer
      · obtain ⟨c, live, _⟩ := tracks
        exact live.attached writer
  | operate op possible regular result ran =>
    rcases kept with dirty | tracks
    · exact Or.inl (finished (dirty.run op.grows) ran)
    · exact finished (op.keeping free tracks possible regular) ran

theorem Run.keeps (run : Run (fun fs op => op.Regular fs) fs fs') (tracks : L.Tracks fs) :
    Dirty fs' ∨ L.Tracks fs' := by
  induction run with
  | refl => exact Or.inr tracks
  | tail _ step ih => exact step.keeps free ih

end

section

variable {fs : ZenFS} {pos : Nat}

/-- The zone report gives the write pointer of the metadata zone as it is. -/
def Reported (fs : ZenFS) : Prop :=
  (fs.md.zones fs.metaLog.zone).capacity ≠ 0 ∨ (fs.md.zones fs.metaLog.zone).maxCapacity = fs.md.geo.zoneSz

instance (fs : ZenFS) : Decidable (Reported fs) := inferInstanceAs (Decidable (_ ∨ _))

theorem reopen_wp {d : Device} {i : Nat} (replies : Nat → Reply)
    (room : (d.zones i).wp + (d.zones i).capacity = (d.zones i).start + (d.zones i).maxCapacity)
    (reported : (d.zones i).capacity ≠ 0 ∨ (d.zones i).maxCapacity = d.geo.zoneSz) :
    ((d.reopen replies).zones i).wp = (d.zones i).wp := by
  simp only [Device.reopen, Zone.report]
  split
  · rename_i full
    have empty : (d.zones i).capacity = 0 := by simpa [Zone.isFull] using full
    rcases reported with left | whole
    · exact absurd empty left
    · omega
  · rfl

variable {c : FileCatalog}

theorem Journaled.reopened {c₀ : FileCatalog} (journaled : Journaled fs pos c₀ c) (reported : Reported fs)
    (replies : Nat → Reply) : ∃ entries records, List.Forall₂ (Carries (getIOZone fs.zbd.dev)) entries records ∧
      LogAt (fs.md.reopen replies) fs.metaLog.zone pos records ∧ records.length < recoverRounds fs.md.geo ∧
      entries.any isSnapshot = true ∧ AppliesAll c₀ entries ∧ applyAll c₀ entries = c := by
  obtain ⟨room, limit, begins, aligned, entries, records, carried, holds, stop, complete, follows, result⟩ := journaled
  have wp := reopen_wp replies room reported
  have sector := fs.md.geo.sector_le
  have count := count_le_recordsLength (by omega : 0 < fs.md.geo.blockSz) records
  refine ⟨entries, records, carried, ?_, ?_, complete, follows, result⟩
  · refine ⟨aligned, Holds.congr (d := fs.md) rfl (fun _ _ _ => rfl) holds, ?_, ?_, .eof ?_⟩
    · rw [wp, stop]
      exact Nat.le_refl _
    · change pos + recordsLength fs.md.geo.blockSz records ≤
        (fs.md.zones fs.metaLog.zone).start + (fs.md.zones fs.metaLog.zone).maxCapacity
      omega
    · rw [wp, stop]
      exact Nat.le_refl _
  · have fits : records.length * fs.md.geo.blockSz ≤ fs.md.geo.zoneSz := by omega
    have blocks := (Nat.le_div_iff_mul_le (by omega : 0 < fs.md.geo.blockSz)).mpr fits
    exact Nat.lt_succ_of_le blocks

theorem ensures_recoverFrom_replayed (journaled : Journaled fs pos noFiles c) (reported : Reported fs)
    {metaReplies : Nat → Reply} (healthy : ∀ n, (metaReplies n).ok = true) (ioReplies : Nat → Reply)
    (maxActive maxOpen : Nat) : Ensures (recoverFrom ⟨fs.metaLog.zone, pos⟩)
      (fun result fs' => (∃ log, result = .ok log) ∧ Replayed fs' c ∧ fs'.handles = fun _ => 0)
      (fs.restart metaReplies ioReplies maxActive maxOpen) := by
  obtain ⟨entries, records, carried, stored, enough, complete, follows, result⟩ :=
    journaled.reopened reported metaReplies
  have empty : Replayed (fs.restart metaReplies ioReplies maxActive maxOpen) noFiles :=
    replayed_empty (fun n => Std.TreeMap.getElem?_emptyc) _ _
  have loop : Ensures (recoverLoop ZenMetaLog.readRecord (recoverRounds fs.md.geo) ⟨fs.metaLog.zone, pos⟩ false) _
      (fs.restart metaReplies ioReplies maxActive maxOpen) :=
    ensures_recoverLoop carried rfl enough healthy stored empty follows
  simp only [recoverFrom, recoverFromWith, wp_bind, wp_read, onOk_ok, true_and]
  refine wp_mono ?_ loop
  rintro _ fs' ⟨log, k, rfl, _, frame, replayed⟩
  rw [result] at replayed
  simp only [onOk_ok, Bool.false_or, complete, if_true, wp_pure]
  refine ⟨⟨log, rfl⟩, replayed, ?_⟩
  rw [frame.rest]
  rfl

theorem Replayed.reproduces {fs' : ZenFS} (replayed : Replayed fs' c) (live : Live fs c) : Reproduces fs fs' := by
  obtain ⟨nodes, sharing⟩ := replayed.shows.agree live.shows
  refine ⟨nodes, ?_⟩
  intro n m r q r' q' first second first' second'
  exact sharing n m r' q' r q first' second' first second

theorem ensures_recoverFrom (live : Live fs c) (journaled : Journaled fs pos noFiles c) (reported : Reported fs)
    {metaReplies : Nat → Reply} (healthy : ∀ n, (metaReplies n).ok = true) (ioReplies : Nat → Reply)
    (maxActive maxOpen : Nat) : Ensures (recoverFrom ⟨fs.metaLog.zone, pos⟩)
      (fun result fs' => (∃ log, result = .ok log) ∧ Reproduces fs fs')
      (fs.restart metaReplies ioReplies maxActive maxOpen) := by
  refine wp_mono ?_ (ensures_recoverFrom_replayed journaled reported healthy ioReplies maxActive maxOpen)
  rintro result fs' ⟨ok, replayed, _⟩
  exact ⟨ok, replayed.reproduces live⟩

theorem Run.tracked {fs₀ : ZenFS} (start : Snapshotted fs₀ pos) (run : Run (fun fs op => op.Regular fs) fs₀ fs)
    (appended : ∀ event ∈ fs.persists, event.outcome = .appended)
    (readable : ∀ event ∈ fs.persists, Readable event.record) :
    ∃ c, Live fs c ∧ Journaled fs pos noFiles c := by
  have tracks : (appending pos noFiles).Tracks fs₀ := ⟨_, start.live noFiles, start.journaled noFiles⟩
  rcases Run.keeps (L := appending pos noFiles) (fun _ _ => trivial) run tracks with
    ⟨event, member, unclean⟩ | ⟨c, live, journaled⟩
  · exact absurd ⟨appended event member, readable event member⟩ unclean
  · exact ⟨c, live, journaled⟩

end

/-- Replay reproduces the namespace in every run of regular operations whose persists all append
    records that can be read back. -/
theorem recoverFrom_reproduces_namespace {fs₀ fs : ZenFS} {pos : Nat} (start : Snapshotted fs₀ pos)
    (run : Run (fun fs op => op.Regular fs) fs₀ fs) (appended : ∀ event ∈ fs.persists, event.outcome = .appended)
    (readable : ∀ event ∈ fs.persists, Readable event.record) (reported : Reported fs)
    {metaReplies : Nat → Reply} (healthy : ∀ n, (metaReplies n).ok = true) (ioReplies : Nat → Reply)
    (maxActive maxOpen : Nat) : Ensures (recoverFrom ⟨fs.metaLog.zone, pos⟩)
      (fun result fs' => (∃ log, result = .ok log) ∧ Reproduces fs fs')
      (fs.restart metaReplies ioReplies maxActive maxOpen) := by
  obtain ⟨c, live, journaled⟩ := run.tracked start appended readable
  exact ensures_recoverFrom live journaled reported healthy ioReplies maxActive maxOpen

section

theorem sample_unbound (n : Name) : sampleZenFS.files[n]? = none := Std.TreeMap.getElem?_emptyc

theorem sample_wellFormed : WellFormed sampleZenFS where
  linked held := by rw [sample_unbound] at held; cases held
  complete held := by rw [sample_unbound] at held; cases held
  nodup held := by rw [sample_unbound] at held; cases held
  unique held := by rw [sample_unbound] at held; cases held
  ids := by decide
  bounded held := by rw [sample_unbound] at held; cases held
  counted held := by rw [sample_unbound] at held; cases held
  fits held := by rw [sample_unbound] at held; cases held
  kept held := by rw [sample_unbound] at held; cases held
  reserved writer := absurd rfl writer
  attached writer := absurd rfl writer

theorem sample_snapshotted : Snapshotted sampleZenFS 1024 := by
  have snapshot : sampleZenFS.encodeSnapshotTo = taggedRecord .kCompleteFilesSnapshot [] := rfl
  have readable : Readable (taggedRecord .kCompleteFilesSnapshot []) := by decide
  constructor
  · exact sample_wellFormed
  · intro n r held
    rw [sample_unbound] at held
    cases held
  · intro n r held
    rw [sample_unbound] at held
    cases held
  · exact readable
  · rw [snapshot, ← recordBuffer_length readable]
    exact Memory.read_write ..
  · rfl
  · rfl
  · exact Nat.le_refl 16384
  · exact Nat.zero_le 1024
  · exact (by decide : 512 ∣ 1024)
  · rfl

def afterAll (fs : ZenFS) : List Operation → Option ZenFS
  | [] => some fs
  | op :: rest => (op.program.run fs).bind (fun outcome => afterAll outcome.2 rest)

variable {allowed : ZenFS → Operation → Prop} {fs fs' : ZenFS}

theorem afterAll_run {ops : List Operation}
    (possible : ∀ op ∈ ops, ∀ fs, op.Possible fs) (ok : ∀ op ∈ ops, ∀ fs, allowed fs op)
    (after : afterAll fs ops = some fs') : Run allowed fs fs' := by
  induction ops generalizing fs with
  | nil =>
    cases after
    exact .refl
  | cons op rest ih =>
    obtain ⟨⟨result, next⟩, ran, later⟩ := Option.bind_eq_some_iff.mp after
    have step : Step allowed fs next := .operate op (possible op (by simp) fs) (ok op (by simp) fs) result ran
    exact .head step (ih (fun op member => possible op (List.mem_cons_of_mem _ member))
      (fun op member => ok op (List.mem_cons_of_mem _ member)) later)

theorem afterAll_step (op : Operation) (possible : op.Possible fs)
    (ok : allowed fs op) (after : afterAll fs [op] = some fs') : Step allowed fs fs' := by
  obtain ⟨⟨result, next⟩, ran, last⟩ := Option.bind_eq_some_iff.mp after
  cases last
  exact .operate op possible ok result ran

theorem some_getD {α : Type} {o : Option α} (present : o.isSome = true) (default : α) : o = some (o.getD default) := by
  cases o with
  | none => cases present
  | some value => rfl

/-- Two files are linked to one path `../a`: the check of the second link looks for `/a`, and the map
    keeps `/../a` for the first file. -/
def linkTwice : List Operation := [.create (path "/b") true false, .create (path "/c") true false,
  .link (path "/b") (path "../a"), .link (path "/c") (path "../a")]

def linkedTwice : ZenFS := (afterAll sampleZenFS linkTwice).getD sampleZenFS

def syncedAgain : ZenFS := (afterAll linkedTwice [.sync 1]).getD linkedTwice

def persistedId (fs : ZenFS) (n : Name) : Option Nat := (fs.files[n]?).map (fun r => (fs.persisted r).fileId)

def objectId (fs : ZenFS) (n : Name) : Option Nat := (fs.files[n]?).map (fun r => (fs.objects r).fileId)

theorem Reproduces.id (reproduces : Reproduces fs fs') (n : Name) : objectId fs' n = persistedId fs n := by
  have node := congrArg (Option.map Node.id) (reproduces.1 n)
  rw [Option.map_map, Option.map_map] at node
  exact node

theorem syncedAgain_run : Run (fun _ _ => True) sampleZenFS syncedAgain := by
  have linked : Run (fun _ _ => True) sampleZenFS linkedTwice := by
    refine afterAll_run ?_ (fun _ _ _ => trivial) (some_getD (by decide +kernel) sampleZenFS)
    simp [linkTwice, Operation.Possible]
  have bound : linkedTwice.files[path "/c"]? = some 1 := by decide +kernel
  exact linked.tail (afterAll_step (.sync 1) (Or.inl ⟨path "/c", bound⟩) trivial (some_getD (by decide +kernel) linkedTwice))

/-- Replay gives the name `/../a` to the second file, which the file system keeps for the first. -/
theorem syncedAgain_not_reproduced : Snapshotted sampleZenFS 1024 ∧ Run (fun _ _ => True) sampleZenFS syncedAgain ∧
    (∀ event ∈ syncedAgain.persists, event.outcome = .appended ∧ Readable event.record) ∧ Reported syncedAgain ∧
    ¬ Ensures (recoverFrom ⟨syncedAgain.metaLog.zone, 1024⟩)
      (fun result fs' => (∃ log, result = .ok log) ∧ Reproduces syncedAgain fs')
      (syncedAgain.restart alwaysOk alwaysOk 0 0) := by
  refine ⟨sample_snapshotted, syncedAgain_run, by decide +kernel, by decide +kernel, ?_⟩
  intro ensures
  obtain ⟨result, fs', ran, _, reproduces⟩ := (wp_total_iff _ _ _).mp ensures
  have first : persistedId syncedAgain (path "/../a") = some 1 := by decide +kernel
  have second : ((recoverFrom ⟨syncedAgain.metaLog.zone, 1024⟩).run (syncedAgain.restart alwaysOk alwaysOk 0 0)).map
      (fun outcome => objectId outcome.2 (path "/../a")) = some (some 2) := by decide +kernel
  rw [ran, Option.map_some, reproduces.id, first] at second
  cases second

def createdOne : ZenFS := (afterAll sampleZenFS [.create (path "/b") true false]).getD sampleZenFS

theorem createdOne_step
    (ok : allowed sampleZenFS (.create (path "/b") true false)) : Step allowed sampleZenFS createdOne :=
  afterAll_step (.create (path "/b") true false) trivial ok (some_getD (by decide +kernel) sampleZenFS)

theorem createdOne_regular : (Operation.create (path "/b") true false).Regular sampleZenFS :=
  ⟨Or.inl (by decide +kernel), by decide +kernel, by decide +kernel⟩

def movedOne : ZenFS :=
  (afterAll createdOne [.link (path "/b") (path "/c"), .delete (path "/b")]).getD createdOne

theorem movedOne_reproduced : movedOne.persists.length = 3 ∧ Ensures (recoverFrom ⟨movedOne.metaLog.zone, 1024⟩)
    (fun result fs' => (∃ log, result = .ok log) ∧ Reproduces movedOne fs')
    (movedOne.restart alwaysOk alwaysOk 0 0) := by
  have moved : Run (fun fs op => op.Regular fs) createdOne movedOne := by
    refine afterAll_run ?_ ?_ (some_getD (by decide +kernel) createdOne)
    · simp [Operation.Possible]
    · simp only [List.mem_cons, List.not_mem_nil, or_false, forall_eq_or_imp, forall_eq]
      exact ⟨fun _ => Or.inl (by decide +kernel), fun _ => Or.inl (by decide +kernel)⟩
  have run : Run (fun fs op => op.Regular fs) sampleZenFS movedOne := .head (createdOne_step createdOne_regular) moved
  exact ⟨by decide +kernel, recoverFrom_reproduces_namespace sample_snapshotted run (by decide +kernel)
    (by decide +kernel) (by decide +kernel) (fun _ => rfl) alwaysOk 0 0⟩

end

end ZenFSProof
