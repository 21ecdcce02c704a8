import ZonedStorage.MetaLog.Records
import ZonedStorage.Namespace.Lookup
import ZonedStorage.Resumption.Keeps

namespace ZenFSProof

open ByteString Resumption Resumption.Prog ZenFSModel ZenFSModel.ZenFS Function ZenFS Keeps

def history (fs : ZenFS) : List PersistAttempt × List PersistEvent := (fs.attempts, fs.persists)

structure Rolls (fs fs' : ZenFS) : Prop where
  objects : ∀ r, ∃ synced, fs'.objects r = { fs.objects r with nrSyncedExtents := synced }
  rest : fs' = { fs with
    md := fs'.md, metaLog := fs'.metaLog, superblock := fs'.superblock, objects := fs'.objects
    persisted := fs'.persisted }

namespace Rolls

theorem refl (fs : ZenFS) : Rolls fs fs := ⟨fun r => ⟨(fs.objects r).nrSyncedExtents, rfl⟩, rfl⟩

variable {fs fs' : ZenFS}

theorem trans {fs'' : ZenFS} (first : Rolls fs fs') (second : Rolls fs' fs'') : Rolls fs fs'' := by
  refine ⟨?_, ?_⟩
  · intro r
    obtain ⟨_, now⟩ := first.objects r
    obtain ⟨synced, later⟩ := second.objects r
    exact ⟨synced, by rw [later, now]⟩
  · rw [second.rest, first.rest]

theorem synced (fs : ZenFS) (r : Ref) : Rolls fs (fs.synced r) := by
  refine ⟨?_, rfl⟩
  intro q
  simp only [ZenFS.synced, ZenFS.setObject, ZenFS.setPersisted]
  by_cases same : q = r
  · subst same
    exact ⟨_, update_self ..⟩
  · exact ⟨_, update_of_ne same ..⟩

theorem synced_all (entries : List (Name × Ref)) (fs : ZenFS) :
    Rolls fs (entries.foldl (fun fs entry => fs.synced entry.2) fs) := by
  induction entries generalizing fs with
  | nil => exact refl fs
  | cons entry rest ih => exact (synced fs entry.2).trans (ih (fs.synced entry.2))

theorem onMeta {α : Type} (p : Proc Device α) : (onMeta p).Keeps Rolls :=
  (all p).zoom mdLens (fun fs _ _ => ⟨fun r => ⟨(fs.objects r).nrSyncedExtents, rfl⟩, rfl⟩)

theorem writeSnapshotLocked (zone : Nat) : (writeSnapshotLocked zone).Keeps Rolls :=
  (ofRead refl _).bind (fun _ => (onMeta _).bind (fun _ => ofUpdate (fun fs => synced_all _ fs)))

theorem rollMetaZoneLocked : rollMetaZoneLocked.Keeps Rolls := by
  have same : ∀ fs : ZenFS, ∀ r, ∃ synced, fs.objects r = { fs.objects r with nrSyncedExtents := synced } :=
    fun fs r => ⟨(fs.objects r).nrSyncedExtents, rfl⟩
  refine (onMeta _).bind (fun newMetaZone => ?_)
  refine (ofAct (fun fs => ⟨same fs, rfl⟩)).bind (fun oldMetaZone => ?_)
  refine (onMeta _).bind (fun _ => ?_)
  refine (ofAct (fun fs => ⟨same fs, rfl⟩)).bind (fun superString => ?_)
  refine (onMeta _).attempt.bind (fun added => ?_)
  cases added with
  | error status => exact (onMeta _).bind (fun _ => trivial)
  | ok _ =>
    refine (writeSnapshotLocked _).attempt.bind (fun snapshot => ?_)
    cases snapshot with
    | error status => exact (onMeta _).bind (fun _ => trivial)
    | ok _ => exact (onMeta _).attempt.bind (fun _ => (onMeta _).bind (fun _ => trivial))

theorem files (rolls : Rolls fs fs') : fs'.files = fs.files := by
  rw [rolls.rest]

theorem history (rolls : Rolls fs fs') : ZenFSProof.history fs' = ZenFSProof.history fs := by
  rw [rolls.rest]
  rfl

end Rolls

theorem keeps_persistRecord {R : ZenFS → ZenFS → Prop} {record : Bytes} (attempted : ∀ fs, R fs (fs.attempted record))
    (noted : ∀ fs outcome, R fs (fs.noted record outcome)) (rolls : ∀ fs fs', Rolls fs fs' → R fs fs') :
    (persistRecord record).Keeps R := by
  have note : ∀ outcome, (Prog.update (fun fs => fs.noted record outcome) : Proc ZenFS Unit).Keeps R :=
    fun outcome => ofUpdate (fun fs => noted fs outcome)
  refine bind (ofAct attempted) (fun zone => ?_)
  refine ((Rolls.onMeta _).mono rolls).attempt.bind (fun added => ?_)
  cases added with
  | ok _ => exact note .appended
  | error status =>
    dsimp only
    split
    · refine (Rolls.rollMetaZoneLocked.mono rolls).attempt.bind (fun rolled => ?_)
      cases rolled with
      | ok _ => exact note .rolled
      | error status => exact (note .failed).bind (fun _ => trivial)
    · exact (note .failed).bind (fun _ => trivial)

/-- What writing a record may change: the metadata side, the history, and of a file object how much of it
    is synced and when it was modified. -/
structure Recording (fs fs' : ZenFS) : Prop where
  objects : ∀ r, ∃ synced time, fs'.objects r = { fs.objects r with nrSyncedExtents := synced, mTime := time }
  rest : fs' = { fs with
    md := fs'.md, metaLog := fs'.metaLog, superblock := fs'.superblock, objects := fs'.objects
    asked := fs'.asked, persisted := fs'.persisted, attempts := fs'.attempts, persists := fs'.persists
    filenameReads := fs'.filenameReads }

namespace Recording

theorem same (fs : ZenFS) (r : Ref) :
    ∃ synced time, fs.objects r = { fs.objects r with nrSyncedExtents := synced, mTime := time } :=
  ⟨(fs.objects r).nrSyncedExtents, (fs.objects r).mTime, rfl⟩

theorem refl (fs : ZenFS) : Recording fs fs := ⟨same fs, rfl⟩

variable {fs fs' : ZenFS}

theorem trans {fs'' : ZenFS} (first : Recording fs fs') (second : Recording fs' fs'') : Recording fs fs'' := by
  refine ⟨?_, ?_⟩
  · intro r
    obtain ⟨_, _, now⟩ := first.objects r
    obtain ⟨synced, time, later⟩ := second.objects r
    exact ⟨synced, time, by rw [later, now]⟩
  · rw [second.rest, first.rest]

theorem ofRolls (rolls : Rolls fs fs') : Recording fs fs' := by
  refine ⟨?_, ?_⟩
  · intro r
    obtain ⟨synced, now⟩ := rolls.objects r
    exact ⟨synced, (fs.objects r).mTime, now⟩
  · rw [rolls.rest]

theorem persistRecord (record : Bytes) : (ZenFS.persistRecord record).Keeps Recording :=
  keeps_persistRecord (fun fs => ⟨same fs, rfl⟩) (fun fs _ => ⟨same fs, rfl⟩) (fun _ _ => ofRolls)

theorem setMTime (r : Ref) : (setMTime r).Keeps Recording := by
  refine (ofAct (fun fs => ⟨same fs, rfl⟩)).bind (fun now => ofUpdate (fun fs => ⟨?_, rfl⟩))
  intro q
  simp only [ZenFS.setObject]
  by_cases this : q = r
  · subst this
    exact ⟨_, _, update_self ..⟩
  · exact ⟨_, _, update_of_ne this ..⟩

theorem getFilename (r : Ref) : (getFilename r).Keeps Recording := ofAct (fun fs => ⟨same fs, rfl⟩)

theorem syncFileMetadata (r : Ref) (replace : Bool) : (syncFileMetadata r replace).Keeps Recording := by
  refine (ofRead refl _).bind (fun f => ?_)
  split
  · exact (getFilename r).bind (fun _ => trivial)
  · refine ite_bind (setMTime r) ((ofRead refl _).bind (fun output => ?_))
    exact (persistRecord output).bind (fun _ => ofUpdate (fun fs => ofRolls (Rolls.synced fs r)))

theorem zbd (recording : Recording fs fs') : fs'.zbd = fs.zbd := by
  rw [recording.rest]

end Recording

structure Admits (R : ZenFS → ZenFS → Prop) : Prop where
  quiet : ∀ {fs fs'}, fs'.files = fs.files → history fs' = history fs → R fs fs'

structure Covers (R : ZenFS → ZenFS → Prop) (names : Name → Prop) : Prop extends Admits R where
  erase : ∀ fs {n} keep, names n → R fs (fs.eraseFile n keep)
  insert : ∀ fs n r, R fs (fs.insertFile n r)
  attempted : ∀ fs record, R fs (fs.attempted record)
  noted : ∀ fs record outcome, R fs (fs.noted record outcome)

theorem dropUnowned_history (fs : ZenFS) (r : Ref) : history (fs.dropUnowned r) = history fs := by
  simp only [dropUnowned]
  split <;> rfl

theorem eraseFile_history (fs : ZenFS) (name : Name) (keep : Ref) : history (fs.eraseFile name keep) = history fs := by
  simp only [eraseFile]
  split
  · rfl
  · split
    · rfl
    · exact dropUnowned_history _ _

namespace Admits

variable {R : ZenFS → ZenFS → Prop} (admits : Admits R)

include admits

theorem refl (fs : ZenFS) : R fs fs := admits.quiet rfl rfl

variable {α : Type}

theorem onMeta (p : Proc Device α) : (onMeta p).Keeps R :=
  (all p).zoom mdLens (fun _ _ _ => admits.quiet rfl rfl)

theorem onZbd (p : Proc ZonedBlockDevice α) : (onZbd p).Keeps R :=
  (all p).zoom zbdLens (fun _ _ _ => admits.quiet rfl rfl)

theorem update {change : ZenFS → ZenFS} (files : ∀ fs, (change fs).files = fs.files)
    (same : ∀ fs, history (change fs) = history fs) : (Prog.update change : Proc ZenFS Unit).Keeps R :=
  ofUpdate (fun fs => admits.quiet (files fs) (same fs))

theorem act {action : ZenFS → α × ZenFS} (files : ∀ fs, (action fs).2.files = fs.files)
    (same : ∀ fs, history (action fs).2 = history fs) : (Prog.act action : Proc ZenFS α).Keeps R :=
  ofAct (fun fs => admits.quiet (files fs) (same fs))

theorem read (view : ZenFS → α) : (Prog.read view : Proc ZenFS α).Keeps R :=
  ofRead admits.refl view

theorem ask : ask.Keeps R := admits.act (fun _ => rfl) (fun _ => rfl)

theorem target : target.Keeps R := by
  refine admits.ask.bind (fun answer => ?_)
  cases answer.status <;> trivial

theorem object (r : Ref) : (object r).Keeps R := admits.read _

theorem getFilename (r : Ref) : (getFilename r).Keeps R := admits.act (fun _ => rfl) (fun _ => rfl)

theorem modifyObject (r : Ref) (change : ZoneFile → ZoneFile) : (modifyObject r change).Keeps R :=
  admits.update (fun _ => rfl) (fun _ => rfl)

theorem rollMetaZoneLocked : rollMetaZoneLocked.Keeps R :=
  Rolls.rollMetaZoneLocked.mono (fun _ _ rolls => admits.quiet rolls.files rolls.history)

theorem setMTime (r : Ref) : (setMTime r).Keeps R := admits.ask.bind (fun _ => admits.modifyObject r _)

theorem getFileNoLock (fname : Name) : (getFileNoLock fname).Keeps R := admits.read _

theorem setObject (r : Ref) (f : ZoneFile) : (Prog.update (fun fs => fs.setObject r f) : Proc ZenFS Unit).Keeps R :=
  admits.update (fun _ => rfl) (fun _ => rfl)

theorem acquireWRLock (r : Ref) : (acquireWRLock r).Keeps R := by
  refine ofAwait ?_
  intro fs answer fs' acquired
  split at acquired
  · cases acquired
  · cases acquired
    exact admits.quiet rfl rfl

theorem newWritableFile (r : Ref) (buffered : Bool) : (newWritableFile r buffered).Keeps R :=
  admits.act (fun _ => rfl) (fun _ => rfl)

theorem createFile (fname : Name) (useDirectWrites : Bool) : (createFile fname useDirectWrites).Keeps R :=
  admits.ask.bind (fun _ => admits.act (fun _ => rfl) (fun _ => rfl))

theorem resetUnusedIOZones : resetUnusedIOZones.Keeps R := admits.onZbd _

end Admits

def Uncounted (fs fs' : ZenFS) : Prop := history fs' = history fs

namespace Uncounted

theorem refl (fs : ZenFS) : Uncounted fs fs := rfl

theorem trans {fs fs' fs'' : ZenFS} (first : Uncounted fs fs') (second : Uncounted fs' fs'') : Uncounted fs fs'' :=
  Eq.trans second first

theorem admits : Admits Uncounted := ⟨fun _ same => same⟩

end Uncounted

structure RenameParts (C : ∀ {α : Type}, Proc ZenFS α → Prop) : Prop where
  done : C (pure () : Proc ZenFS Unit)
  fail : ∀ status, C (.fail status : Proc ZenFS Unit)
  read : ∀ f : ZenFS → List Name, C (.read f)
  attempt : ∀ {p : Proc ZenFS Unit}, C p → C p.attempt
  bind : ∀ {α : Type} {p : Proc ZenFS α} {k : α → Proc ZenFS Unit}, C p → (∀ a, C (k a)) → C (p >>= k)
  target : C target

theorem RenameParts.rollbackAuxDirRenameNoLock {C : ∀ {α : Type}, Proc ZenFS α → Prop} (parts : RenameParts C)
    {rename : Name → Name → Proc ZenFS Unit} {source dest : Name} {children : List Name}
    (returns : ∀ child ∈ children, C (rename (Path.append dest child) (Path.append source child))) :
    C (rollbackAuxDirRenameNoLock rename source dest children) := by
  induction children with
  | nil =>
    refine parts.bind (parts.attempt parts.target) (fun moved => ?_)
    cases moved with
    | ok _ => exact parts.done
    | error status => exact parts.fail _
  | cons child rest ih =>
    refine parts.bind (parts.attempt (returns child List.mem_cons_self)) (fun renamed => ?_)
    cases renamed with
    | ok _ => exact ih (fun child later => returns child (List.mem_cons_of_mem _ later))
    | error status => exact parts.fail _

theorem RenameParts.renameChildrenNoLock {C : ∀ {α : Type}, Proc ZenFS α → Prop} (parts : RenameParts C)
    {rename : Name → Name → Proc ZenFS Unit} {source dest : Name} {done rest : List Name}
    (renames : ∀ child ∈ rest, C (rename (Path.append source child) (Path.append dest child)))
    (returns : ∀ child ∈ done ++ rest, C (rename (Path.append dest child) (Path.append source child))) :
    C (renameChildrenNoLock rename source dest done rest) := by
  induction rest generalizing done with
  | nil => exact parts.done
  | cons child rest ih =>
    refine parts.bind (parts.attempt (renames child List.mem_cons_self)) (fun renamed => ?_)
    cases renamed with
    | ok _ =>
      have regroup : done ++ child :: rest = done ++ [child] ++ rest := by simp
      rw [regroup] at returns
      exact ih (fun child later => renames child (List.mem_cons_of_mem _ later)) returns
    | error status =>
      have back := parts.rollbackAuxDirRenameNoLock (fun child among => returns child (List.mem_append_left _ among))
      exact parts.bind back (fun _ => parts.fail _)

theorem RenameParts.renameAuxPathNoLock {C : ∀ {α : Type}, Proc ZenFS α → Prop} (parts : RenameParts C)
    {rename : Name → Name → Proc ZenFS Unit} {source dest : Name}
    (renames : ∀ child, C (rename (Path.append source child) (Path.append dest child)))
    (returns : ∀ child, C (rename (Path.append dest child) (Path.append source child))) :
    C (renameAuxPathNoLock rename source dest) :=
  parts.bind parts.target (fun _ => parts.bind (parts.read _) (fun _ =>
    parts.renameChildrenNoLock (fun child _ => renames child) (fun child _ => returns child)))

namespace Covers

variable {R : ZenFS → ZenFS → Prop} {names : Name → Prop} (covers : Covers R names)

include covers

theorem persistRecord (record : Bytes) : (ZenFS.persistRecord record).Keeps R :=
  keeps_persistRecord (fun fs => covers.attempted fs record) (fun fs => covers.noted fs record)
    (fun _ _ rolls => covers.quiet rolls.files rolls.history)

theorem syncFileMetadataNoLock (r : Ref) (replace : Bool) : (syncFileMetadataNoLock r replace).Keeps R := by
  refine (covers.object r).bind (fun f => ?_)
  split
  · exact (covers.getFilename r).bind (fun _ => trivial)
  · have record : (Prog.read (fun fs => fileRecord (fs.objects r) replace) >>= fun output => do
        ZenFS.persistRecord output
        Prog.update (fun fs => fs.synced r)).Keeps R := by
      refine (covers.read _).bind (fun output => (covers.persistRecord output).bind (fun _ => ?_))
      exact covers.update (fun _ => rfl) (fun _ => rfl)
    split
    · exact (covers.setMTime r).bind (fun _ => record)
    · exact record

theorem eraseFile {name : Name} (named : names name) (keep : Ref) :
    (Prog.update (fun fs => fs.eraseFile name keep) : Proc ZenFS Unit).Keeps R :=
  ofUpdate (fun fs => covers.erase fs keep named)

theorem insertFile (name : Name) (r : Ref) :
    (Prog.update (fun fs => fs.insertFile name r) : Proc ZenFS Unit).Keeps R :=
  ofUpdate (fun fs => covers.insert fs name r)

theorem deleteFileNoLock {path : Name} (named : names (formatPathLexically path)) :
    (deleteFileNoLock path).Keeps R := by
  refine (covers.getFileNoLock _).bind (fun found => ?_)
  cases found with
  | none => exact covers.target
  | some r =>
    refine (covers.eraseFile named r).bind (fun _ => (covers.object r).bind (fun f => ?_))
    split
    · trivial
    · refine (covers.setObject r _).bind (fun _ => (covers.persistRecord _).attempt.bind (fun persisted => ?_))
      cases persisted with
      | error status => exact (covers.insertFile _ r).bind (fun _ => (covers.modifyObject r _).bind (fun _ => trivial))
      | ok _ =>
        have unlinks : (Prog.update (fun fs => fs.unlinked r (formatPathLexically path)) : Proc ZenFS Unit).Keeps R :=
          covers.update (fun _ => rfl) (fun _ => rfl)
        refine unlinks.bind (fun _ => ?_)
        split
        · trivial
        · exact (covers.modifyObject r _).bind (fun _ =>
            covers.update (fun fs => dropUnowned_files fs r) (fun fs => dropUnowned_history fs r))

theorem handOut (r : Ref) (fname : Name) (buffered existed : Bool) : (do
      acquireWRLock r
      Prog.update (fun fs => fs.insertFile fname r)
      let writer ← newWritableFile r buffered
      if existed then resetUnusedIOZones
      pure writer : Proc ZenFS Nat).Keeps R := by
  refine (covers.acquireWRLock r).bind (fun _ => (covers.insertFile fname r).bind (fun _ => ?_))
  refine (covers.newWritableFile r buffered).bind (fun writer => ?_)
  split
  · exact covers.resetUnusedIOZones.bind (fun _ => trivial)
  · trivial

theorem openWritableFile {filename : Name}
    (deletes : names (formatPathLexically (formatPathLexically filename))) (useDirectWrites reopen : Bool) :
    (openWritableFile filename useDirectWrites reopen).Keeps R := by
  refine (covers.getFileNoLock _).bind (fun found => ?_)
  split
  · exact (covers.acquireWRLock _).bind (fun _ => covers.newWritableFile _ _)
  · have rest := fun existed => (covers.createFile (formatPathLexically filename) useDirectWrites).bind (fun r =>
      (covers.syncFileMetadataNoLock r false).bind (fun _ =>
        covers.handOut r (cStr (formatPathLexically filename)) (!useDirectWrites) existed))
    split
    · exact (covers.deleteFileNoLock deletes).bind (fun _ => rest true)
    · exact rest false

theorem linkFile (file : Name) {link : Name} (named : names (formatPathLexically link)) :
    (linkFile file link).Keeps R := by
  refine (covers.getFileNoLock _).bind (fun existing => ?_)
  split
  · trivial
  · refine (covers.getFileNoLock _).bind (fun found => ?_)
    split
    · exact covers.target
    · refine (covers.modifyObject _ _).bind (fun _ => (covers.insertFile _ _).bind (fun _ => ?_))
      refine (covers.syncFileMetadataNoLock _ false).attempt.bind (fun persisted => ?_)
      split
      · trivial
      · refine (covers.object _).bind (fun f => (Keeps.ofExcept _).bind (fun f => ?_))
        exact (covers.setObject _ f).bind (fun _ => covers.eraseFile named _)

theorem syncFileExtents (r : Ref) (newExtents : List ZoneExtent) : (syncFileExtents r newExtents).Keeps R := by
  refine (covers.object r).bind (fun f => (covers.modifyObject r _).bind (fun _ => ?_))
  refine (covers.modifyObject r _).bind (fun _ => (covers.syncFileMetadataNoLock r true).bind (fun _ => ?_))
  exact covers.update (fun _ => rfl) (fun _ => rfl)

theorem renameLinkNoLock (r : Ref) {sourcePath destPath : Name} (source : names sourcePath) (dest : names destPath) :
    (renameLinkNoLock r sourcePath destPath).Keeps R := by
  refine (covers.object r).bind (fun f => (Keeps.ofExcept _).bind (fun renamed => ?_))
  refine (covers.setObject r _).bind (fun _ => (covers.eraseFile source r).bind (fun _ => ?_))
  refine (covers.insertFile _ r).bind (fun _ => (covers.syncFileMetadataNoLock r false).attempt.bind
    (fun persisted => ?_))
  cases persisted with
  | ok _ => trivial
  | error status =>
    refine (covers.eraseFile dest r).bind (fun _ => (covers.object r).bind (fun f => ?_))
    refine (Keeps.ofExcept _).bind (fun restored => ?_)
    exact (covers.setObject r _).bind (fun _ => covers.insertFile _ r)

theorem renameParts : RenameParts (fun p => p.Keeps R) :=
  ⟨trivial, fun _ => trivial, covers.read, Keeps.attempt, Keeps.bind, covers.target⟩

theorem renameFileNoLock (all : ∀ n, names n) (depth : Nat) (srcPath dstPath : Name) :
    (renameFileNoLock depth srcPath dstPath).Keeps R := by
  induction depth generalizing srcPath dstPath with
  | zero => exact ofHang
  | succ depth ih =>
    refine (covers.getFileNoLock _).bind (fun found => ?_)
    cases found with
    | none =>
      exact covers.renameParts.renameAuxPathNoLock (fun _ => ih _ _) (fun _ => ih _ _)
    | some r =>
      refine (covers.getFileNoLock _).bind (fun existing => ?_)
      dsimp only
      split
      · exact (covers.deleteFileNoLock (all _)).bind (fun _ => covers.renameLinkNoLock r (all _) (all _))
      · exact covers.renameLinkNoLock r (all _) (all _)

end Covers

def Grows (fs fs' : ZenFS) : Prop := fs.attempts <:+ fs'.attempts ∧ fs.persists <:+ fs'.persists

namespace Grows

theorem refl (fs : ZenFS) : Grows fs fs := ⟨List.suffix_refl _, List.suffix_refl _⟩

theorem trans {fs fs' fs'' : ZenFS} (first : Grows fs fs') (second : Grows fs' fs'') : Grows fs fs'' :=
  ⟨first.1.trans second.1, first.2.trans second.2⟩

theorem of_eq {fs fs' : ZenFS} (same : history fs' = history fs) : Grows fs fs' := by
  obtain ⟨attempts, persists⟩ := Prod.mk.injEq .. ▸ same
  exact ⟨⟨[], attempts.symm⟩, ⟨[], persists.symm⟩⟩

theorem covers : Covers Grows (fun _ => True) where
  quiet _ same := of_eq same
  erase fs n keep _ := of_eq (eraseFile_history fs n keep)
  insert _ _ _ := of_eq rfl
  attempted _ _ := ⟨List.suffix_cons _ _, List.suffix_refl _⟩
  noted _ _ _ := ⟨List.suffix_refl _, List.suffix_cons _ _⟩

end Grows

end ZenFSProof
