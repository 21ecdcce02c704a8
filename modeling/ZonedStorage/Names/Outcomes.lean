import ZonedStorage.Names.Persist

namespace ZenFSProof

open ByteString HardLinks Resumption.Prog ZenFSModel ZenFSModel.ZenFS ZenFSModel.ZenFSTag Function NameState

def recordTag (record : Bytes) : Option Nat := (getFixed32 record).map Prod.fst

theorem recordTag_tagged (tag : ZenFSTag) (data : Bytes) : recordTag (taggedRecord tag data) = some tag.code := by
  rw [taggedRecord, putLengthPrefixedSlice_append, recordTag, putFixed32, List.nil_append, getFixed32_put]
  cases tag <;> rfl

def Noted (fs fs' : ZenFS) (tag : ZenFSTag) (ok : Bool) : Prop :=
  ∃ event : PersistEvent, fs'.persists = event :: fs.persists ∧ recordTag event.record = some tag.code ∧
    (event.outcome = .failed ↔ ok = false)

variable {fs : ZenFS} {n : Name} {r : Ref}

theorem Persists.noted {fs₀ fs' : ZenFS} {record : Bytes} {result : Except Status Unit} {tag : ZenFSTag}
    (persists : Persists fs₀ record result fs') (before : fs₀.persists = fs.persists)
    (tagged : recordTag record = some tag.code) : Noted fs fs' tag result.isOk := by
  obtain ⟨outcome, noted, failed⟩ := persists.event
  rw [before] at noted
  exact ⟨⟨record, outcome⟩, noted, tagged, failed⟩

theorem Noted.congr {fs' fs'' : ZenFS} {tag : ZenFSTag} {ok : Bool} (noted : Noted fs fs' tag ok)
    (same : fs''.persists = fs'.persists) : Noted fs fs'' tag ok := by
  obtain ⟨event, added, rest⟩ := noted
  exact ⟨event, same.trans added, rest⟩

theorem dropUnowned_persists (fs : ZenFS) (r : Ref) : (fs.dropUnowned r).persists = fs.persists := by
  simp only [ZenFS.dropUnowned]
  split <;> rfl

theorem eraseFile_persists (fs : ZenFS) (n : Name) (r : Ref) : (fs.eraseFile n r).persists = fs.persists := by
  simp only [ZenFS.eraseFile]
  split
  · rfl
  · split
    · rfl
    · exact dropUnowned_persists _ _

section

variable {fs : ZenFS} {r : Ref} {n : Name}

variable {s : NameState}

theorem files_none (names : nameState fs = s) (free : s.table.lookup n = none) : fs.files[n]? = none := by
  rw [← names] at free
  exact free

theorem files_some (names : nameState fs = s) (held : s.table.lookup n = some r) : fs.files[n]? = some r := by
  rw [← names] at held
  exact held

theorem links_eq (names : nameState fs = s) : (fs.objects r).linkFiles = s.table.links r := by
  rw [← names]
  rfl

theorem nameState_erased (held : fs.files[n]? = some r) : nameState ((fs.eraseFile n r).setObject r
      { fs.objects r with linkFiles := (fs.objects r).linkFiles.erase n }) = (nameState fs).unlink r n := by
  have object : (fs.eraseFile n r).objects = fs.objects := by rw [eraseFile_own (Or.inl held)]
  have links := nameState_setLinks (fs.eraseFile n r) r ((fs.objects r).linkFiles.erase n)
  rw [object, nameState_eraseFile held] at links
  exact links

theorem nameState_unlinkedFirst (held : fs.files[n]? = some r) :
    nameState ((fs.setObject r { fs.objects r with linkFiles := (fs.objects r).linkFiles.erase n }).eraseFile n r) =
      (nameState fs).unlink r n := by
  have erased := @nameState_eraseFile
    (fs.setObject r { fs.objects r with linkFiles := (fs.objects r).linkFiles.erase n }) r n held
  rw [nameState_setLinks] at erased
  exact erased

theorem nameState_added (free : fs.files[n]? = none) :
    nameState ((fs.setObject r ((fs.objects r).addLinkName n)).insertFile n r) = (nameState fs).link r n := by
  have inserted := @nameState_insertFile (fs.setObject r ((fs.objects r).addLinkName n)) r n free
  rw [ZoneFile.addLinkName, nameState_setLinks] at inserted
  exact inserted

theorem nameState_addedLast (free : fs.files[n]? = none) :
    nameState ((fs.insertFile n r).setObject r ((fs.objects r).addLinkName n)) = (nameState fs).link r n := by
  have links := nameState_setLinks (fs.insertFile n r) r ((fs.objects r).linkFiles ++ [n])
  rw [nameState_insertFile free] at links
  exact links

theorem nameState_discarded (fs : ZenFS) (r : Ref) :
    nameState ((fs.setObject r { fs.objects r with isDeleted := true }).dropUnowned r) =
      { nameState fs with deleted := update (nameState fs).deleted r true } := by
  rw [nameState_dropUnowned, nameState_setObject]
  simp only [nameState, update_eq_self]

end

/-- How a deletion can end. A persist that fails brings the name back, if `c_str()` keeps it whole. -/
inductive DeleteOutcome (fs : ZenFS) (r : Ref) (n : Name) : Except Status Unit → ZenFS → Prop
  | failed {status fs'} (names : 0 ∉ n → nameState fs' = ((nameState fs).unlink r n).link r n)
    (noted : Noted fs fs' kFileDeletion false) : DeleteOutcome fs r n (.error status) fs'
  | done {fs'} (names : nameState fs' = ((nameState fs).unlink r n).discard r)
    (noted : Noted fs fs' kFileDeletion true) : DeleteOutcome fs r n (.ok ()) fs'

theorem ensures_deleteFileNoLock {path : Name} (once : formatPathLexically path = n)
    (twice : formatPathLexically n = n) (held : fs.files[n]? = some r) (listed : n ∈ (fs.objects r).linkFiles) :
    Ensures (deleteFileNoLock path) (DeleteOutcome fs r n) fs := by
  have object : (fs.eraseFile n r).objects = fs.objects := by rw [eraseFile_own (Or.inl held)]
  have history : (fs.eraseFile n r).persists = fs.persists := eraseFile_persists fs n r
  have names := nameState_erased held
  simp only [deleteFileNoLock, getFileNoLock, ZenFS.object, once, twice, held, wp_bind, wp_read, wp_update, onOk_ok,
    true_and, object, ZoneFile.removeLinkName, listed, if_true]
  rw [wp_attempt]
  refine wp_mono ?_ (ensures_persistRecord _ _)
  intro result fs₁ persists
  have names₁ := persists.names.trans names
  cases result with
  | error status =>
    have noted : Noted fs fs₁ kFileDeletion false :=
      persists.noted history (recordTag_tagged _ _)
    have free : fs₁.files[n]? = none := files_none names₁ (Table.unlink_lookup_self ..)
    simp only [onOk_ok, wp_bind, wp_update, modifyObject, wp_fail, true_and]
    refine .failed (fun whole => ?_) noted
    rw [cStr_eq_self_iff.mpr whole]
    have added := nameState_addedLast (r := r) free
    rw [names₁] at added
    exact added
  | ok _ =>
    have noted : Noted fs fs₁ kFileDeletion true :=
      persists.noted history (recordTag_tagged _ _)
    simp only [onOk_ok, wp_bind, wp_update, modifyObject, true_and]
    split
    · rename_i left
      refine .done ?_ noted
      have some_left : ((nameState fs).unlink r n).table.links r ≠ [] := by
        rw [unlink, Table.unlink_links_self]
        exact List.length_pos_iff.mp left
      rw [NameState.discard, if_neg some_left]
      exact names₁
    · rename_i left
      simp only [wp_bind, wp_update, onOk_ok, true_and]
      refine .done ?_ (noted.congr (dropUnowned_persists _ r))
      have none_left : ((nameState fs).unlink r n).table.links r = [] := by
        rw [unlink, Table.unlink_links_self]
        exact List.length_eq_zero_iff.mp (Nat.eq_zero_of_not_pos left)
      rw [NameState.discard, if_pos none_left]
      have discarded := nameState_discarded (fs₁.unlinked r n) r
      have same : nameState (fs₁.unlinked r n) = nameState fs₁ := rfl
      rw [same, names₁] at discarded
      exact discarded

structure SyncOutcome (fs : ZenFS) (result : Except Status Unit) (fs' : ZenFS) : Prop where
  names : nameState fs' = nameState fs
  noted : Noted fs fs' kFileUpdate result.isOk

theorem ensures_syncFileMetadataNoLock (kept : (fs.objects r).isDeleted = false) :
    Ensures (syncFileMetadataNoLock r false) (SyncOutcome fs) fs := by
  simp only [syncFileMetadataNoLock, ZenFS.object, setMTime, ask, modifyObject, wp_bind, wp_read, wp_act, wp_update,
    onOk_ok, kept, Bool.false_eq_true, if_false, Bool.not_false, if_true, true_and]
  refine wp_mono ?_ (ensures_persistRecord _ _)
  intro result fs₁ persists
  have names : nameState fs₁ = nameState fs := by
    refine persists.names.trans ?_
    exact nameState_setData { fs with asked := fs.asked + 1 } r rfl kept.symm rfl rfl
  have noted : Noted fs fs₁ kFileUpdate result.isOk := persists.noted rfl (recordTag_tagged _ _)
  cases result with
  | error status => exact ⟨names, noted⟩
  | ok _ => exact ⟨(nameState_synced fs₁ r).trans names, noted.congr rfl⟩

/-- How a new name `n` for `r` can end. A persist that fails takes the name back. -/
inductive LinkOutcome (fs : ZenFS) (r : Ref) (n : Name) : Except Status Unit → ZenFS → Prop
  | failed {fs'} (names : nameState fs' = ((nameState fs).link r n).unlink r n)
    (noted : Noted fs fs' kFileUpdate false) : LinkOutcome fs r n (.ok ()) fs'
  | done {fs'} (names : nameState fs' = (nameState fs).link r n)
    (noted : Noted fs fs' kFileUpdate true) : LinkOutcome fs r n (.ok ()) fs'

theorem ensures_linkFile {file target m : Name} (source : formatPathLexically file = m)
    (sourceTwice : formatPathLexically m = m) (dest : formatPathLexically target = n)
    (destTwice : formatPathLexically n = n) (held : fs.files[m]? = some r) (free : fs.files[n]? = none)
    (kept : (fs.objects r).isDeleted = false) : Ensures (linkFile file target) (LinkOutcome fs r n) fs := by
  have names := nameState_added (r := r) free
  simp only [linkFile, getFileNoLock, source, sourceTwice, dest, destTwice, held, free, wp_bind, wp_read, onOk_ok,
    Option.isSome_none, Bool.false_eq_true, if_false, modifyObject, wp_update, true_and]
  rw [wp_attempt]
  have object : ((fs.setObject r ((fs.objects r).addLinkName n)).insertFile n r).objects r =
      (fs.objects r).addLinkName n := update_self ..
  refine wp_mono ?_ (ensures_syncFileMetadataNoLock (by rw [object]; exact kept))
  intro result fs₁ outcome
  have names₁ := outcome.names.trans names
  have noted : Noted fs fs₁ kFileUpdate result.isOk := outcome.noted
  cases result with
  | ok _ => exact .done names₁ noted
  | error status =>
    have mine : fs₁.files[n]? = some r := files_some names₁ Table.link_lookup_self
    have listed : n ∈ (fs₁.objects r).linkFiles := by
      rw [links_eq names₁, link, Table.link_links_self]
      simp
    simp only [ZenFS.object, onOk_ok, wp_bind, wp_read, wp_ofExcept, ZoneFile.removeLinkName, listed, if_true, wp_update,
      true_and]
    refine .failed ?_ (noted.congr ?_)
    · rw [nameState_unlinkedFirst mine, names₁]
    · exact eraseFile_persists _ n r

section

variable {fs : ZenFS} {r : Ref} {a b : Name}

theorem table_move (t : Table Name Ref) (r : Ref) (a b : Name) : (t.unlink r a).link r b =
    ⟨update (update t.lookup a none) b (some r),
      update t.links r ((t.links r).erase a ++ [b])⟩ := by
  ext1
  · rfl
  · simp only [Table.link, Table.unlink, update_self, update_idem]

theorem eraseFile_free (free : fs.files[b]? = none) (a : Name) (r : Ref) : (fs.eraseFile a r).files[b]? = none := by
  rw [eraseFile_lookup]
  split
  · rfl
  · exact free

theorem nameState_moved (held : fs.files[a]? = some r) (free : fs.files[b]? = none) :
    nameState (((fs.setObject r { fs.objects r with linkFiles := (fs.objects r).linkFiles.erase a ++ [b] }).eraseFile
      a r).insertFile b r) = ((nameState fs).unlink r a).link r b := by
  have erased := @nameState_eraseFile
    (fs.setObject r { fs.objects r with linkFiles := (fs.objects r).linkFiles.erase a ++ [b] }) r a held
  have unbound : ((fs.setObject r { fs.objects r with
      linkFiles := (fs.objects r).linkFiles.erase a ++ [b] }).eraseFile a r).files[b]? = none :=
    @eraseFile_free (fs.setObject r _) b free a r
  rw [nameState_insertFile unbound, erased, nameState_setLinks]
  simp only [link, unlink, table_move]
  rfl

theorem nameState_movedBack (held : fs.files[a]? = some r) (free : fs.files[b]? = none) :
    nameState (((fs.eraseFile a r).setObject r
      { fs.objects r with linkFiles := (fs.objects r).linkFiles.erase a ++ [b] }).insertFile b r) =
        ((nameState fs).unlink r a).link r b := by
  have object : (fs.eraseFile a r).objects = fs.objects := by rw [eraseFile_own (Or.inl held)]
  have links := nameState_setLinks (fs.eraseFile a r) r ((fs.objects r).linkFiles.erase a ++ [b])
  have unbound : (fs.eraseFile a r).files[b]? = none := eraseFile_free free a r
  have inserted := @nameState_insertFile ((fs.eraseFile a r).setObject r
    { fs.objects r with linkFiles := (fs.objects r).linkFiles.erase a ++ [b] }) r b unbound
  rw [object, nameState_eraseFile held] at links
  rw [inserted, links]
  simp only [link, unlink, table_move]
  rfl

end

/-- How moving `r` from one name to another can end. A persist that fails moves it back. -/
inductive MoveOutcome (fs : ZenFS) (r : Ref) (src dst : Name) : Except Status Unit → ZenFS → Prop
  | failed {fs'} (names : nameState fs' = ((((nameState fs).unlink r src).link r dst).unlink r dst).link r src)
    (noted : Noted fs fs' kFileUpdate false) : MoveOutcome fs r src dst (.ok ()) fs'
  | done {fs'} (names : nameState fs' = ((nameState fs).unlink r src).link r dst)
    (noted : Noted fs fs' kFileUpdate true) : MoveOutcome fs r src dst (.ok ()) fs'

theorem ensures_renameLinkNoLock {src dst : Name} (held : fs.files[src]? = some r)
    (listed : src ∈ (fs.objects r).linkFiles) (free : fs.files[dst]? = none) (kept : (fs.objects r).isDeleted = false) :
    Ensures (renameLinkNoLock r src dst) (MoveOutcome fs r src dst) fs := by
  have names := nameState_moved held free
  have different : src ≠ dst := by
    rintro rfl
    rw [held] at free
    cases free
  simp only [renameLinkNoLock, ZenFS.object, ZoneFile.renameLink, listed, if_true, wp_bind, wp_read, wp_ofExcept, wp_update,
    onOk_ok, true_and]
  rw [wp_attempt]
  generalize moved : ((fs.setObject r { fs.objects r with
    linkFiles := (fs.objects r).linkFiles.erase src ++ [dst] }).eraseFile src r).insertFile dst r = fs₀ at names ⊢
  have deleted : (fs₀.objects r).isDeleted = false := by
    have same := congrFun (congrArg deleted names) r
    exact same.trans kept
  have history : fs₀.persists = fs.persists := by
    rw [← moved]
    exact eraseFile_persists (fs.setObject r _) src r
  refine wp_mono ?_ (ensures_syncFileMetadataNoLock deleted)
  intro result fs₁ outcome
  have names₁ := outcome.names.trans names
  have noted : Noted fs fs₁ kFileUpdate result.isOk := by
    obtain ⟨event, added, rest⟩ := outcome.noted
    exact ⟨event, by rw [added, history], rest⟩
  cases result with
  | ok _ => exact .done names₁ noted
  | error status =>
    have mine : fs₁.files[dst]? = some r := files_some names₁ Table.link_lookup_self
    have given_up : fs₁.files[src]? = none := by
      refine files_none names₁ ?_
      simp only [link, unlink]
      rw [Table.link_lookup_other different, Table.unlink_lookup_self]
    have listed₁ : dst ∈ (fs₁.objects r).linkFiles := by
      rw [links_eq names₁, link, Table.link_links_self]
      simp
    have object : (fs₁.eraseFile dst r).objects = fs₁.objects := by rw [eraseFile_own (Or.inl mine)]
    simp only [onOk_ok, wp_bind, wp_read, wp_ofExcept, object, listed₁, if_true, wp_update,
      true_and]
    refine .failed ?_ (noted.congr ?_)
    · rw [nameState_movedBack mine given_up, names₁]
    · exact eraseFile_persists fs₁ dst r

namespace NameState

def draft (s : NameState) (n : Name) : NameState :=
  { s.create with table := ⟨s.table.lookup, update s.table.links s.nextRef [n]⟩ }

theorem draft_named (s : NameState) (n : Name) : { s.draft n with
      table := ⟨update s.table.lookup n (some s.nextRef), (s.draft n).table.links⟩
      locked := update (s.draft n).locked s.nextRef true
      handles := update s.handles s.nextRef (s.handles s.nextRef + 1) } =
        (s.create.link s.nextRef n).opened s.nextRef := by
  ext1
  · ext1
    · rfl
    · simp only [draft, create, link, opened, Table.link, Table.born, update_self, update_idem,
        List.nil_append]
  · rfl
  · simp only [draft, create, link, opened, update_idem]
  · rfl
  · rfl
  · rfl
  · rfl

end NameState

theorem nameState_locked (fs : ZenFS) (r : Ref) : nameState (fs.setObject r { fs.objects r with openForWr := true }) =
      { nameState fs with locked := update (nameState fs).locked r true } := by
  rw [nameState_setObject]
  simp only [nameState, update_eq_self]

inductive CreateOutcome (fs : ZenFS) (n : Name) : Except Status Nat → ZenFS → Prop
  | failed {status fs'} (names : nameState fs' = (nameState fs).draft n)
    (noted : Noted fs fs' kFileUpdate false) : CreateOutcome fs n (.error status) fs'
  | done {writer fs'} (names : nameState fs' = ((nameState fs).create.link fs.nextRef n).opened fs.nextRef)
    (noted : Noted fs fs' kFileUpdate true) (handed : (fs'.writers writer).file = fs.nextRef) :
    CreateOutcome fs n (.ok writer) fs'

def createAndOpen (fname : Name) (useDirectWrites : Bool) : Proc ZenFS Nat := do
  let r ← createFile fname useDirectWrites
  syncFileMetadataNoLock r false
  acquireWRLock r
  .update (fun fs => fs.insertFile (cStr fname) r)
  newWritableFile r (!useDirectWrites)

theorem makeFile_fields (fname : Name) (useDirectWrites : Bool) (time id : Nat) :
    (makeFile fname useDirectWrites time id).linkFiles = [fname] ∧
      (makeFile fname useDirectWrites time id).isDeleted = false ∧
      (makeFile fname useDirectWrites time id).openForWr = false ∧
      (makeFile fname useDirectWrites time id).fileId = id := by
  simp only [makeFile]
  split <;> exact ⟨rfl, rfl, rfl, rfl⟩

theorem ensures_createAndOpen (free : fs.files[n]? = none) (whole : 0 ∉ n) (useDirectWrites : Bool) :
    Ensures (createAndOpen n useDirectWrites) (CreateOutcome fs n) fs := by
  obtain ⟨links, kept, unlocked, id⟩ :=
    makeFile_fields n useDirectWrites (fs.answers fs.asked).time.toNat fs.nextFileId
  simp only [createAndOpen, cStr_eq_self_iff.mpr whole, createFile, ask, wp_bind, wp_act, onOk_ok, true_and]
  generalize created : ({ ({ fs with asked := fs.asked + 1 } : ZenFS).setObject fs.nextRef
      (makeFile n useDirectWrites (fs.answers fs.asked).time.toNat fs.nextFileId) with
    nextRef := fs.nextRef + 1, nextFileId := (fs.nextFileId + 1) % 2 ^ 64 } : ZenFS) = fs₀
  have names : nameState fs₀ = (nameState fs).draft n := by
    have object := nameState_setObject { fs with asked := fs.asked + 1 } fs.nextRef
      (makeFile n useDirectWrites (fs.answers fs.asked).time.toNat fs.nextFileId)
    rw [links, kept, unlocked, id] at object
    have counters : nameState fs₀ =
        { nameState (({ fs with asked := fs.asked + 1 } : ZenFS).setObject fs.nextRef
            (makeFile n useDirectWrites (fs.answers fs.asked).time.toNat fs.nextFileId)) with
          nextRef := fs.nextRef + 1
          nextFileId := (fs.nextFileId + 1) % 2 ^ 64 } := by
      rw [← created]
      rfl
    rw [counters, object]
    rfl
  have history : fs₀.persists = fs.persists := by
    rw [← created]
    rfl
  have deleted : (fs₀.objects fs.nextRef).isDeleted = false := by
    have same := congrFun (congrArg deleted names) fs.nextRef
    exact same.trans (update_self ..)
  refine wp_mono ?_ (ensures_syncFileMetadataNoLock deleted)
  intro result fs₁ outcome
  have names₁ := outcome.names.trans names
  have noted : Noted fs fs₁ kFileUpdate result.isOk := by
    obtain ⟨event, added, rest⟩ := outcome.noted
    exact ⟨event, by rw [added, history], rest⟩
  cases result with
  | error status => exact .failed names₁ noted
  | ok _ =>
    have free₁ : fs₁.files[n]? = none := files_none names₁ free
    have open_ : (fs₁.objects fs.nextRef).openForWr = false := by
      have same := congrFun (congrArg locked names₁) fs.nextRef
      exact same.trans (update_self ..)
    have locked := nameState_locked fs₁ fs.nextRef
    simp only [onOk_ok, acquireWRLock, wp_await, open_, Bool.false_eq_true, if_false, wp_update, newWritableFile,
      wp_act, true_and]
    refine .done ?_ noted ?_
    · have inserted := @nameState_insertFile
        (fs₁.setObject fs.nextRef { fs₁.objects fs.nextRef with openForWr := true }) fs.nextRef n free₁
      rw [locked, names₁] at inserted
      have handles : fs₁.handles = fs.handles := congrArg NameState.handles names₁
      refine (congrArg (fun s : NameState => { s with
        handles := update fs₁.handles fs.nextRef (fs₁.handles fs.nextRef + 1) }) inserted).trans ?_
      rw [handles]
      exact (nameState fs).draft_named n
    · simp only [update_self]
      rfl

end ZenFSProof
