import ZonedStorage.Names.Mentions
import ZonedStorage.Namespace.PathNormal

namespace ZenFSProof

open Resumption Resumption.Prog ZenFSModel ZenFSModel.ZenFS Function Prog List

/-- Every name in the map is among the links of its file and has no NUL byte, and no empty link list has been
    read. -/
structure Named (fs : ZenFS) : Prop where
  bounded : ∀ {n : Name} {r}, fs.files[n]? = some r → r < fs.nextRef
  listed : ∀ {n : Name} {r}, fs.files[n]? = some r → n ∈ (fs.objects r).linkFiles
  whole : ∀ {n : Name} {r}, fs.files[n]? = some r → 0 ∉ n
  reads : ∀ links ∈ fs.filenameReads, links ≠ []

namespace Named

variable {fs fs' : ZenFS} {r : Ref} {name : Name}

theorem entries (named : Named fs) (held : fs.files[name]? = some r) :
    r < fs.nextRef ∧ name ∈ (fs.objects r).linkFiles ∧ 0 ∉ name :=
  ⟨named.bounded held, named.listed held, named.whole held⟩

theorem of_entries (entries : ∀ {n : Name} {r}, fs.files[n]? = some r →
    r < fs.nextRef ∧ n ∈ (fs.objects r).linkFiles ∧ 0 ∉ n) (reads : ∀ links ∈ fs.filenameReads, links ≠ []) : Named fs :=
  ⟨fun held => (entries held).1, fun held => (entries held).2.1, fun held => (entries held).2.2, reads⟩

theorem linked (named : Named fs) (held : fs.files[name]? = some r) : (fs.objects r).linkFiles ≠ [] :=
  ne_nil_of_mem (named.listed held)

theorem mentions {who : Ref → Prop} (named : Named fs) (mentions : Mentions who fs fs')
    (linked : ∀ q, who q → (fs.objects q).linkFiles ≠ []) : Named fs' := by
  refine of_entries (fun held => ?_) (fun links among => ?_)
  · rw [mentions.files] at held
    rw [mentions.refs, mentions.links]
    exact named.entries held
  · rcases mentions.reads links among with earlier | ⟨q, mentioned, same⟩
    · exact named.reads links earlier
    · rw [same]
      exact linked q mentioned

theorem still (named : Named fs) (mentions : Mentions (fun _ => False) fs fs') : Named fs' :=
  named.mentions mentions (fun _ mentioned => mentioned.elim)

theorem eraseFile_still (fs : ZenFS) (name : Name) (keep : Ref) :
    Mentions (fun _ => False) { fs with files := fs.files.erase name } (fs.eraseFile name keep) := by
  simp only [ZenFS.eraseFile]
  split
  · exact Mentions.refl _
  · split
    · exact Mentions.refl _
    · exact Mentions.dropUnowned _ _

theorem erased (fs : ZenFS) (keep : Ref) (entries : ∀ {n : Name} {r}, fs.files[n]? = some r → n ≠ name →
      r < fs.nextRef ∧ n ∈ (fs.objects r).linkFiles ∧ 0 ∉ n) (reads : ∀ links ∈ fs.filenameReads, links ≠ []) :
    Named (fs.eraseFile name keep) := by
  have gone : Named { fs with files := fs.files.erase name } := by
    refine of_entries (fun held => ?_) reads
    simp only [erase_lookup] at held
    split at held
    · cases held
    · exact entries held (by assumption)
  exact gone.still (eraseFile_still fs name keep)

theorem eraseFile (named : Named fs) (name : Name) (keep : Ref) : Named (fs.eraseFile name keep) :=
  erased fs keep (fun held _ => named.entries held) named.reads

theorem setObject_entry {f : ZoneFile} {q : Ref} (entry : q < fs.nextRef ∧ name ∈ (fs.objects q).linkFiles ∧ 0 ∉ name)
    (kept : q = r → name ∈ f.linkFiles) :
    q < fs.nextRef ∧ name ∈ ((fs.setObject r f).objects q).linkFiles ∧ 0 ∉ name := by
  refine ⟨entry.1, ?_, entry.2.2⟩
  simp only [ZenFS.setObject]
  by_cases mine : q = r
  · rw [mine, update_self]
    exact kept mine
  · rw [update_of_ne mine]
    exact entry.2.1

theorem setObject (named : Named fs) {f : ZoneFile}
    (kept : ∀ {n : Name}, fs.files[n]? = some r → n ∈ f.linkFiles) : Named (fs.setObject r f) :=
  of_entries (fun held => setObject_entry (named.entries held) (fun mine => kept (mine ▸ held))) named.reads

theorem unlink (named : Named fs) {f : ZoneFile}
    (kept : ∀ {n : Name}, fs.files[n]? = some r → n ≠ name → n ∈ f.linkFiles) :
    Named ((fs.setObject r f).eraseFile name r) :=
  erased (fs.setObject r f) r
    (fun held other => setObject_entry (named.entries held) (fun mine => kept (mine ▸ held) other)) named.reads

theorem insertFile (named : Named fs) (below : r < fs.nextRef) (listed : name ∈ (fs.objects r).linkFiles)
    (whole : 0 ∉ name) : Named (fs.insertFile name r) := by
  refine of_entries (fun {n q} held => ?_) named.reads
  rw [insertFile_lookup] at held
  cases before : fs.files[n]? with
  | some p =>
    rw [before] at held
    cases held
    exact named.entries before
  | none =>
    rw [before] at held
    dsimp only at held
    split at held
    · rename_i same
      cases held
      exact ⟨below, same ▸ listed, same ▸ whole⟩
    · cases held

end Named

section

variable {f g : ZoneFile} {src dst n : Name}

theorem removeLinkName_links (removed : f.removeLinkName src = .ok g) : g.linkFiles = f.linkFiles.erase src := by
  simp only [ZoneFile.removeLinkName] at removed
  split at removed
  · cases removed
    rfl
  · cases removed

theorem renameLink_links (renamed : f.renameLink src dst = .ok g) : g.linkFiles = f.linkFiles.erase src ++ [dst] := by
  simp only [ZoneFile.renameLink] at renamed
  split at renamed
  · cases renamed
    rfl
  · cases renamed

theorem renameLink_kept (renamed : f.renameLink src dst = .ok g) (listed : n ∈ f.linkFiles) (other : n ≠ src) :
    n ∈ g.linkFiles := by
  rw [renameLink_links renamed]
  exact mem_append_left _ ((mem_erase_of_ne other).mpr listed)

theorem renameLink_new (renamed : f.renameLink src dst = .ok g) : dst ∈ g.linkFiles := by
  rw [renameLink_links renamed]
  exact mem_append_right _ mem_cons_self

theorem addLinkName_new (fs : ZenFS) (r : Ref) (n : Name) :
    n ∈ ((fs.setObject r ((fs.objects r).addLinkName n)).objects r).linkFiles := by
  simp only [ZenFS.setObject, update_self]
  exact mem_append_right _ mem_cons_self

end

def KeepsNamed {α : Type} (p : Proc ZenFS α) : Prop := ∀ fs, Named fs → IfDone p (fun _ fs' => Named fs') fs

section

variable {α β : Type}

variable {p : Proc ZenFS α} {fs : ZenFS}

theorem KeepsNamed.of_still (keeps : p.Keeps (Mentions (fun _ => False))) : KeepsNamed p :=
  fun fs named => wp_mono (fun _ _ mentions => named.still mentions) (Mentions.ifDone keeps fs)

theorem KeepsNamed.of_pure (value : α) : KeepsNamed (pure value : Proc ZenFS α) := fun _ named => named

theorem KeepsNamed.of_fail (status : Status) : KeepsNamed (fail status : Proc ZenFS α) := fun _ named => named

theorem KeepsNamed.bind {k : α → Proc ZenFS β} (first : KeepsNamed p)
    (next : ∀ value, KeepsNamed (k value)) : KeepsNamed (p >>= k) := by
  intro fs named
  refine (wp_bind _ _ _ _).mpr (wp_mono ?_ (first fs named))
  rintro (status | value) fs' there
  · exact there
  · exact next value fs' there

theorem KeepsNamed.attempt (keeps : KeepsNamed p) : KeepsNamed p.attempt :=
  fun fs named => (wp_attempt _ _ _).mpr (keeps fs named)

theorem keepsNamed_reset : KeepsNamed resetUnusedIOZones := KeepsNamed.of_still
    (Mentions.onBehind Resets.any.resetUnusedIOZones)

theorem Named.sync (named : Named fs) {r : Ref} (linked : (fs.objects r).linkFiles ≠ []) :
    IfDone (syncFileMetadataNoLock r false) (fun _ fs' => Named fs' ∧ Mentions (· = r) fs fs') fs := by
  have syncs : (syncFileMetadataNoLock r false).Keeps (Mentions (· = r)) :=
    Mentions.syncFileMetadata (by rfl) false
  refine wp_mono ?_ (Mentions.ifDone syncs fs)
  intro _ fs' mentions
  refine ⟨named.mentions mentions ?_, mentions⟩
  rintro q rfl
  exact linked

theorem Named.delete (named : Named fs) {path : Name} (whole : 0 ∉ formatPathLexically path) :
    IfDone (deleteFileNoLock path) (fun _ fs' => Named fs' ∧ fs'.nextRef = fs.nextRef) fs := by
  simp only [deleteFileNoLock, cStr_eq_self_iff.mpr whole, getFileNoLock, wp_bind (read _), wp_read, onOk_ok, true_and]
  generalize formatPathLexically path = name at whole ⊢
  cases held : fs.files[formatPathLexically name]? with
  | none =>
    have asks : target.Keeps (Mentions (fun _ => False)) := Mentions.target
    exact wp_mono (fun _ _ mentions => ⟨named.still mentions, mentions.refs⟩) (Mentions.ifDone asks fs)
  | some r =>
    simp only [ZenFS.object, wp_bind (update _), wp_update, wp_bind (read _), wp_read, onOk_ok, true_and]
    have erased := named.eraseFile name r
    have still := Named.eraseFile_still fs name r
    cases removed : ((fs.eraseFile name r).objects r).removeLinkName name with
    | error status => exact ⟨erased, still.refs⟩
    | ok f =>
      have unlinked : Named ((fs.eraseFile name r).setObject r f) := by
        refine erased.setObject ?_
        intro n mine
        have listed := erased.listed mine
        rw [eraseFile_lookup] at mine
        split at mine
        · cases mine
        · rw [removeLinkName_links removed]
          exact (mem_erase_of_ne (by assumption)).mpr listed
      simp only [wp_bind (update _), wp_update, onOk_ok, true_and]
      rw [wp_bind, wp_attempt]
      have persists : (persistRecord (encodeFileDeletionTo f name)).Keeps (Mentions (fun _ => False)) :=
        Mentions.persistRecord _
      refine wp_mono ?_ (Mentions.ifDone persists _)
      rintro (status | _) fs₁ mentions
      · simp only [onOk_ok, modifyObject, wp_bind, wp_update, wp_fail, true_and]
        have here := unlinked.still mentions
        have refs : fs₁.nextRef = fs.nextRef := mentions.refs.trans still.refs
        have below : r < fs₁.nextRef := Nat.lt_of_lt_of_eq (named.bounded held) refs.symm
        have relinked : Named (fs₁.setObject r ((fs₁.objects r).addLinkName name)) :=
          here.setObject (fun mine => mem_append_left _ (here.listed mine))
        exact ⟨relinked.insertFile below (addLinkName_new fs₁ r name) whole, refs⟩
      · have refs : fs₁.nextRef = fs.nextRef := mentions.refs.trans still.refs
        have here : Named (fs₁.unlinked r name) := by
          refine (unlinked.still mentions).still ?_
          exact Mentions.silent rfl rfl (fun _ => rfl) (fun _ => rfl) rfl id
        simp only [onOk_ok, wp_bind (update _), wp_update, true_and]
        split
        · exact ⟨here, refs⟩
        · simp only [modifyObject, wp_bind, wp_update, onOk_ok, true_and]
          have marked : Named ((fs₁.unlinked r name).setObject r
              { (fs₁.unlinked r name).objects r with isDeleted := true }) :=
            here.still (Mentions.setObject _ rfl)
          have dropped : ∀ fs : ZenFS, Mentions (fun _ => False) fs (fs.dropUnowned r) :=
            fun fs => Mentions.dropUnowned fs r
          exact ⟨marked.still (dropped _), (dropped _).refs.trans refs⟩

theorem keepsNamed_deleteFileNoLock {path : Name} (whole : 0 ∉ formatPathLexically path) :
    KeepsNamed (deleteFileNoLock path) :=
  fun _ named => wp_mono (fun _ _ kept => kept.1) (named.delete whole)

theorem keepsNamed_linkFile (file : Name) {link : Name} (whole : 0 ∉ formatPathLexically link) :
    KeepsNamed (linkFile file link) := by
  intro fs named
  simp only [linkFile, getFileNoLock, wp_bind (read _), wp_read, onOk_ok, true_and]
  generalize formatPathLexically link = name at whole ⊢
  split
  · exact named
  · simp only [wp_bind (read _), wp_read, onOk_ok, true_and]
    cases held : fs.files[formatPathLexically (formatPathLexically file)]? with
    | none => exact KeepsNamed.of_still Mentions.target fs named
    | some r =>
      simp only [modifyObject, wp_bind (update _), wp_update, onOk_ok, true_and]
      have added : Named (fs.setObject r ((fs.objects r).addLinkName name)) :=
        named.setObject (fun mine => mem_append_left _ (named.listed mine))
      have new := addLinkName_new fs r name
      have linked := added.insertFile (named.bounded held) new whole
      rw [wp_bind, wp_attempt]
      refine wp_mono ?_ (linked.sync (ne_nil_of_mem new))
      rintro (status | _) fs₁ ⟨here, _⟩
      · simp only [onOk_ok, ZenFS.object, wp_bind (read _), wp_read, true_and]
        rw [wp_bind, wp_ofExcept]
        cases removed : (fs₁.objects r).removeLinkName name with
        | error status => exact here
        | ok f =>
          simp only [onOk_ok, wp_bind, wp_update, true_and]
          refine here.unlink ?_
          intro n held other
          rw [removeLinkName_links removed]
          exact (mem_erase_of_ne other).mpr (here.listed held)
      · exact here

theorem Named.renameLink (named : Named fs) {r : Ref} (below : r < fs.nextRef) {src dst : Name} (source : 0 ∉ src)
    (dest : 0 ∉ dst) : IfDone (renameLinkNoLock r src dst) (fun _ fs' => Named fs') fs := by
  simp only [renameLinkNoLock, ZenFS.object, wp_bind (read _), wp_read, onOk_ok, true_and]
  rw [wp_bind, wp_ofExcept]
  cases renamed : (fs.objects r).renameLink src dst with
  | error status => exact named
  | ok f =>
    simp only [onOk_ok, wp_bind (update _), wp_update, true_and]
    have still := Named.eraseFile_still (fs.setObject r f) src r
    have erased : Named ((fs.setObject r f).eraseFile src r) :=
      named.unlink (fun held other => renameLink_kept renamed (named.listed held) other)
    have new : dst ∈ (((fs.setObject r f).eraseFile src r).objects r).linkFiles := by
      rw [still.links]
      simp only [ZenFS.setObject, update_self]
      exact renameLink_new renamed
    have bound : r < ((fs.setObject r f).eraseFile src r).nextRef := Nat.lt_of_lt_of_eq below still.refs.symm
    have inserted := erased.insertFile bound new dest
    rw [wp_bind, wp_attempt]
    refine wp_mono ?_ (inserted.sync (ne_nil_of_mem new))
    rintro (status | _) fs₁ ⟨here, mentions⟩
    · simp only [onOk_ok, wp_bind (update _), wp_update, wp_bind (read _), wp_read, true_and]
      rw [wp_bind, wp_ofExcept]
      have undone := here.eraseFile dst r
      cases restored : ((fs₁.eraseFile dst r).objects r).renameLink dst src with
      | error status => exact undone
      | ok g =>
        simp only [onOk_ok, wp_bind, wp_update, true_and]
        have relinked : Named ((fs₁.eraseFile dst r).setObject r g) := by
          refine undone.setObject ?_
          intro n mine
          have listed := undone.listed mine
          rw [eraseFile_lookup] at mine
          split at mine
          · cases mine
          · exact renameLink_kept restored listed (by assumption)
        refine relinked.insertFile ?_ ?_ source
        · refine Nat.lt_of_lt_of_eq bound ?_
          exact ((Named.eraseFile_still fs₁ dst r).refs.trans mentions.refs).symm
        · simp only [ZenFS.setObject, update_self]
          exact renameLink_new restored
    · exact here

theorem makeFile_links (fname : Name) (useDirectWrites : Bool) (time fileId : Nat) :
    (makeFile fname useDirectWrites time fileId).linkFiles = [fname] := by
  simp only [makeFile]
  split <;> rfl

theorem Named.create (named : Named fs) (fname : Name) (useDirectWrites : Bool) :
    IfDone (createFile fname useDirectWrites)
      (fun result fs' => Named fs' ∧ ∀ r, result = .ok r → r < fs'.nextRef ∧ (fs'.objects r).linkFiles = [fname]) fs := by
  simp only [createFile, ask, wp_bind, wp_act, onOk_ok, true_and]
  refine ⟨Named.of_entries (fun held => ?_) named.reads, ?_⟩
  · obtain ⟨below, listed, whole⟩ := named.entries held
    simp only [ZenFS.setObject, update_of_ne (Nat.ne_of_lt below)]
    exact ⟨Nat.lt_succ_of_lt below, listed, whole⟩
  · rintro r ⟨⟩
    refine ⟨Nat.lt_succ_self _, ?_⟩
    simp only [ZenFS.setObject, update_self]
    exact makeFile_links ..

theorem keepsNamed_newWritableFile (r : Ref) (buffered : Bool) : KeepsNamed (newWritableFile r buffered) :=
  fun _ named => ⟨trivial, named.bounded, named.listed, named.whole, named.reads⟩

theorem keepsNamed_openWritableFile {filename : Name} (whole : 0 ∉ formatPathLexically filename)
    (useDirectWrites reopen : Bool) : KeepsNamed (openWritableFile filename useDirectWrites reopen) := by
  have creates : ∀ existed : Bool, KeepsNamed (do
      let r ← createFile (formatPathLexically filename) useDirectWrites
      syncFileMetadataNoLock r false
      acquireWRLock r
      update (fun fs => fs.insertFile (formatPathLexically filename) r)
      let writer ← newWritableFile r (!useDirectWrites)
      if existed then resetUnusedIOZones
      pure writer) := by
    intro existed fs named
    rw [IfDone, wp_bind]
    refine wp_mono ?_ (named.create (formatPathLexically filename) useDirectWrites)
    rintro (status | r) fs₁ ⟨named₁, made⟩
    · exact named₁
    obtain ⟨below, links⟩ := made r rfl
    rw [onOk_ok, wp_bind]
    refine wp_mono ?_ (named₁.sync (by rw [links]; exact cons_ne_nil _ _))
    rintro (status | _) fs₂ ⟨named₂, synced⟩
    · exact named₂
    rw [onOk_ok, wp_bind]
    have locks : (acquireWRLock r).Keeps (Mentions (fun _ => False)) := Mentions.acquireWRLock r
    refine wp_mono ?_ (Mentions.ifDone locks fs₂)
    rintro (status | _) fs₃ locked
    · exact named₂.still locked
    have inserted : Named (fs₃.insertFile (formatPathLexically filename) r) := by
      refine (named₂.still locked).insertFile ?_ ?_ whole
      · rw [locked.refs, synced.refs]
        exact below
      · rw [locked.links, synced.links, links]
        exact mem_cons_self
    rw [onOk_ok, wp_bind]
    refine ⟨trivial, (keepsNamed_newWritableFile r _).bind (fun writer => ?_) _ inserted⟩
    split
    · exact keepsNamed_reset.bind (fun _ => KeepsNamed.of_pure writer)
    · exact KeepsNamed.of_pure writer
  intro fs named
  simp only [openWritableFile, cStr_eq_self_iff.mpr whole, getFileNoLock, wp_bind (read _), wp_read, onOk_ok, true_and]
  split
  · exact (KeepsNamed.of_still (Mentions.acquireWRLock _)).bind (fun _ => keepsNamed_newWritableFile _ _) fs named
  · split
    · exact (keepsNamed_deleteFileNoLock (nul_notMem_formatPathLexically whole)).bind (fun _ => creates true) fs named
    · exact creates false fs named

end

theorem KeepsNamed.renameParts : RenameParts KeepsNamed :=
  ⟨.of_pure (), .of_fail, fun _ => .of_still (Mentions.read _), .attempt, .bind, .of_still Mentions.target⟩

theorem keepsNamed_renameFileNoLock (depth : Nat) {src dst : Name} (source : 0 ∉ formatPathLexically src)
    (dest : 0 ∉ formatPathLexically dst) : KeepsNamed (renameFileNoLock depth src dst) := by
  induction depth generalizing src dst with
  | zero => exact fun _ _ => trivial
  | succ depth ih =>
    intro fs named
    simp only [renameFileNoLock, getFileNoLock, wp_bind (read _), wp_read, onOk_ok, true_and]
    cases held : fs.files[formatPathLexically (formatPathLexically src)]? with
    | none =>
      refine (wp_bind _ _ _ _).mpr (wp_mono ?_ (KeepsNamed.of_still Mentions.target fs named))
      rintro (status | _) fs' named'
      · exact named'
      · have whole : ∀ child ∈ fs'.getZenFSChildrenNoLock (formatPathLexically src), 0 ∉ child :=
          fun child => nul_notMem_children (fun n r held => named'.whole held)
        refine ⟨trivial, KeepsNamed.renameParts.renameChildrenNoLock (fun child among => ?_) (fun child among => ?_)
          fs' named'⟩
        · exact ih (nul_notMem_child source (whole child among)) (nul_notMem_child dest (whole child among))
        · exact ih (nul_notMem_child dest (whole child among)) (nul_notMem_child source (whole child among))
    | some r =>
      simp only [wp_bind (read _), wp_read, onOk_ok, true_and]
      split
      · rw [wp_bind]
        refine wp_mono ?_ (named.delete (nul_notMem_formatPathLexically dest))
        rintro (status | _) fs₁ ⟨there, refs⟩
        · exact there
        · exact there.renameLink (Nat.lt_of_lt_of_eq (named.bounded held) refs.symm) source dest
      · exact named.renameLink (named.bounded held) source dest

theorem keepsNamed_migrateFileExtents (fname : Name) (migrateExts : List ZoneExtentSnapshot) :
    KeepsNamed (migrateFileExtents fname migrateExts) := by
  intro fs named
  simp only [migrateFileExtents, getFileNoLock, wp_bind (read _), wp_read, onOk_ok, true_and]
  cases held : fs.files[formatPathLexically fname]? with
  | none => exact named
  | some r =>
    have moves : (do
        if ← tryAcquireWRLock r then
          let extents := (← object r).extents
          let newExtentList ← migrateExtents fname r migrateExts extents
          let _ ← (syncFileExtents r newExtentList).attempt
          releaseWRLock r
        else pure () : Proc ZenFS Unit).Keeps (Mentions (fun q => q = r)) := by
      refine (Mentions.tryAcquireWRLock r).bind (fun acquired => ?_)
      split
      · refine (Mentions.read _).bind (fun f => (Mentions.migrateExtents fname migrateExts _).bind (fun extents => ?_))
        exact (Mentions.syncFileExtents (by rfl) extents).attempt.bind (fun _ => Mentions.releaseWRLock r)
      · trivial
    refine wp_mono ?_ (Mentions.ifDone moves fs)
    intro _ fs' mentions
    refine named.mentions mentions ?_
    rintro q rfl
    exact named.linked held

theorem keepsNamed_migrateFiles (groups : List (Name × List ZoneExtentSnapshot)) : KeepsNamed
    (migrateFiles groups) := by
  induction groups with
  | nil => exact KeepsNamed.of_pure _
  | cons group rest ih => exact (keepsNamed_migrateFileExtents _ _).bind (fun _ => keepsNamed_reset.bind (fun _ => ih))

theorem keepsNamed_getZenFSSnapshot : KeepsNamed getZenFSSnapshot := by
  intro fs named
  simp only [getZenFSSnapshot, wp_bind (read _), wp_read, onOk_ok, true_and]
  have looks : (snapshotFiles (fs.files.toList.map (·.2))).Keeps (Mentions (· ∈ fs.files.toList.map (·.2))) :=
    Mentions.snapshotFiles (fun _ among => among)
  refine wp_mono ?_ (Mentions.ifDone looks fs)
  intro _ fs' mentions
  refine named.mentions mentions ?_
  intro q among
  obtain ⟨⟨n, r⟩, member, rfl⟩ := mem_map.mp among
  exact named.linked (mem_files_iff.mp member)

/-- The calls of a run, on the file system, on a writer, and those of the garbage collector. -/
inductive FileCall where
  | create (filename : Name) (useDirectWrites reopen : Bool)
  | write (w : Nat) (call : WriterCall)
  | link (file dst : Name)
  | rename (depth : Nat) (src dst : Name)
  | delete (path : Name)
  | snapshot
  | migrate (extents : List (Name × ZoneExtentSnapshot))

namespace FileCall

def prog (rounds : Nat) : FileCall → Proc ZenFS Unit
  | create filename useDirectWrites reopen => do
    let _ ← openWritableFile filename useDirectWrites reopen
  | write w call => call.prog rounds w
  | link file dst => linkFile file dst
  | rename depth src dst => renameFile depth src dst
  | delete path => deleteFile path
  | snapshot => do
    let _ ← getZenFSSnapshot
  | migrate extents => migrateTableExtents extents

/-- A call on a writer comes while its file still has a name, unless it closes a writer that is closed. -/
def Linked (fs : ZenFS) : FileCall → Prop
  | write w call => ((fs.writers w).isOpen = true ∨ call ≠ .close ∧ call ≠ .destroy) →
    0 < (fs.objects (fs.writers w).file).getNrLinks
  | _ => True

/-- No name that the call looks up to change has a NUL byte. -/
def Whole : FileCall → Prop
  | create filename _ _ => 0 ∉ formatPathLexically filename
  | link _ dst => 0 ∉ formatPathLexically dst
  | rename _ src dst => 0 ∉ formatPathLexically src ∧ 0 ∉ formatPathLexically dst
  | delete path => 0 ∉ formatPathLexically path
  | _ => True

end FileCall

inductive FileRun (allowed : ZenFS → FileCall → Prop) (rounds : Nat) (start : ZenFS) : ZenFS → Prop where
  | start : FileRun allowed rounds start start
  | call {fs fs' : ZenFS} {call : FileCall} {result : Except Status Unit} (before : FileRun allowed rounds start fs)
    (ok : allowed fs call) (ran : (call.prog rounds).run fs = some (result, fs')) : FileRun allowed rounds start fs'

theorem FileCall.keepsNamed (rounds : Nat) {fs : ZenFS} (named : Named fs) {call : FileCall} (linked : call.Linked fs)
    (whole : call.Whole) : IfDone (call.prog rounds) (fun _ fs' => Named fs') fs := by
  cases call with
  | create filename useDirectWrites reopen =>
    exact (keepsNamed_openWritableFile whole useDirectWrites reopen).bind (fun _ => KeepsNamed.of_pure _) fs named
  | write w call =>
    have looks : IfDone (call.prog rounds w)
        (fun _ fs' => Mentions (fun q => 0 < (fs.objects q).getNrLinks) fs fs') fs :=
      Mentions.writerCall call (fun used => linked used) rounds
    refine wp_mono ?_ looks
    intro _ fs' mentions
    exact named.mentions mentions (fun q some_left => ne_nil_of_length_pos some_left)
  | link file dst => exact keepsNamed_linkFile file whole fs named
  | rename depth src dst =>
    exact (keepsNamed_renameFileNoLock depth whole.1 whole.2).bind (fun _ => keepsNamed_reset) fs named
  | delete path => exact (keepsNamed_deleteFileNoLock whole).bind (fun _ => keepsNamed_reset) fs named
  | snapshot => exact keepsNamed_getZenFSSnapshot.bind (fun _ => KeepsNamed.of_pure _) fs named
  | migrate extents => exact keepsNamed_migrateFiles _ fs named

/-- As long as writers are only used while their file has a name, and names have no NUL byte, `GetFilename` is only
    called on files that have one. -/
theorem filename_read_of_linked {rounds : Nat} {start fs : ZenFS} (named : Named start)
    (run : FileRun (fun fs call => call.Linked fs ∧ call.Whole) rounds start fs) :
    ∀ links ∈ fs.filenameReads, links ≠ [] := by
  have reached : Named fs := by
    induction run with
    | start => exact named
    | call before ok ran ih => exact (wp_partial_iff _ _ _).mp (FileCall.keepsNamed rounds ih ok.1 ok.2) _ _ ran
  exact reached.reads

theorem sampleZenFS_named : Named sampleZenFS := by
  refine Named.of_entries (fun held => ?_) (fun links among => ?_)
  · cases held
  · cases among

instance (fs : ZenFS) : (call : FileCall) → Decidable (call.Linked fs)
  | .write _ _ => inferInstanceAs (Decidable (_ → _))
  | .create _ _ _ | .link _ _ | .rename _ _ _ | .delete _ | .snapshot | .migrate _ => isTrue trivial

instance : (call : FileCall) → Decidable call.Whole
  | .create _ _ _ | .link _ _ | .delete _ => inferInstanceAs (Decidable (_ ∉ _))
  | .rename _ _ _ => inferInstanceAs (Decidable (_ ∧ _))
  | .write _ _ | .snapshot | .migrate _ => isTrue trivial

def afterCalls (allowed : ZenFS → FileCall → Bool) (fs : ZenFS) : List FileCall → Option ZenFS
  | [] => some fs
  | call :: rest =>
    if allowed fs call then ((call.prog 8).run fs).bind (fun outcome => afterCalls allowed outcome.2 rest) else none

theorem afterCalls_run {allowed : ZenFS → FileCall → Bool} {start fs fs' : ZenFS} {calls : List FileCall}
    (run : FileRun (fun fs call => allowed fs call) 8 start fs) (ran : afterCalls allowed fs calls = some fs') :
    FileRun (fun fs call => allowed fs call) 8 start fs' := by
  induction calls generalizing fs with
  | nil =>
    cases ran
    exact run
  | cons call rest ih =>
    simp only [afterCalls] at ran
    split at ran
    · obtain ⟨⟨result, fs₁⟩, first, others⟩ := Option.bind_eq_some_iff.mp ran
      exact ih (run.call (by assumption) first) others
    · cases ran

theorem FileRun.mono {allowed allowed' : ZenFS → FileCall → Prop} {rounds : Nat} {start fs : ZenFS}
    (run : FileRun allowed rounds start fs) (weaken : ∀ fs call, allowed fs call → allowed' fs call) :
    FileRun allowed' rounds start fs := by
  induction run with
  | start => exact .start
  | call before ok ran ih => exact .call ih (weaken _ _ ok) ran

def syncAfterDelete : List FileCall :=
  [.create (path "/a") false false, .delete (path "/a"), .write 0 .sync]

theorem nameless_file_is_logged : Named sampleZenFS ∧ ∃ fs, FileRun (fun _ _ => True) 8 sampleZenFS fs ∧
    ¬ ∀ links ∈ fs.filenameReads, links ≠ [] := by
  have logs : (afterCalls (fun _ _ => true) sampleZenFS syncAfterDelete).map (fun fs => decide ([] ∈ fs.filenameReads)) =
      some true := by decide +kernel
  obtain ⟨fs, ran, empty⟩ := Option.map_eq_some_iff.mp logs
  refine ⟨sampleZenFS_named, fs, (afterCalls_run .start ran).mono (fun _ _ _ => trivial), fun linked => ?_⟩
  exact linked [] (of_decide_eq_true empty) rfl

def closeBeforeDelete : List FileCall :=
  [.create (path "/a") false false, .write 0 (.append [1, 2, 3]), .write 0 .sync, .snapshot, .write 0 .close,
    .link (path "/a") (path "/b"), .rename 1 (path "/b") (path "/c"), .delete (path "/a"), .delete (path "/c"),
    .write 0 .destroy]

theorem closed_before_deleted : ∃ fs, FileRun (fun fs call => call.Linked fs ∧ call.Whole) 8 sampleZenFS fs ∧
    fs.filenameReads ≠ [] ∧ ∀ links ∈ fs.filenameReads, links ≠ [] := by
  have looks : (afterCalls (fun fs call => decide (call.Linked fs ∧ call.Whole)) sampleZenFS closeBeforeDelete).map
      (fun fs => fs.filenameReads.isEmpty) = some false := by decide +kernel
  obtain ⟨fs, ran, some_read⟩ := Option.map_eq_some_iff.mp looks
  have run : FileRun (fun fs call => call.Linked fs ∧ call.Whole) 8 sampleZenFS fs :=
    (afterCalls_run .start ran).mono (fun _ _ => of_decide_eq_true)
  refine ⟨fs, run, ?_, filename_read_of_linked sampleZenFS_named run⟩
  intro unread
  rw [unread] at some_read
  cases some_read

end ZenFSProof
