import ZonedStorage.Journal.Replay

namespace ZenFSProof

open HardLinks Resumption.Prog ZenFSModel ZenFSModel.ZenFS

variable {fs : ZenFS} {c : FileCatalog}

theorem Replayed.known_iff (replayed : Replayed fs c) (id : Nat) :
    c.Known id ↔ ∃ (n : Name) (r : Ref), fs.files[n]? = some r ∧ (fs.objects r).fileId = id := by
  constructor
  · rintro ⟨n, named⟩
    rw [replayed.shows.names] at named
    obtain ⟨r, held, same⟩ := Option.map_eq_some_iff.mp named
    exact ⟨n, r, held, same⟩
  · rintro ⟨n, r, held, rfl⟩
    exact ⟨n, replayed.shows.name_of held⟩

theorem relinked_lookup (replayed : Replayed fs c) {r : Ref} {m : Name} (held : fs.files[m]? = some r)
    (links : List Name) (n : Name) :
    (insertNames (eraseNames fs.files (fs.objects r).linkFiles) links r)[n]? =
      rebind (fun n : Name => fs.files[n]?) r links n := by
  have mine : n ∈ (fs.objects r).linkFiles ↔ fs.files[n]? = some r :=
    replayed.shows.member_iff replayed.coherent held
  rw [insertNames_lookup, eraseNames_lookup]
  simp only [rebind]
  cases bound : fs.files[n]? with
  | none =>
    have outside : n ∉ (fs.objects r).linkFiles := by
      rw [mine, bound]
      simp
    simp [outside]
  | some q =>
    by_cases same : q = r
    · subst same
      have inside := mine.mpr bound
      simp [inside]
    · have outside : n ∉ (fs.objects r).linkFiles := by
        rw [mine, bound]
        simpa using same
      simp [outside, same]

variable {f : ZoneFile}

theorem merged_idle {u : ZoneFile} (replace : Bool) (idle : Idle f) : Idle (f.mergeUpdate u replace) :=
  ⟨rfl, idle.kept, idle.closed, idle.inactive⟩

theorem updateOf_idle (f : ZoneFile) (s : Nat) : Idle (updateOf f s) := ⟨rfl, rfl, rfl, rfl⟩

theorem replayed_known_update (replayed : Replayed fs c) {s : Nat} {replace : Bool} {r u : Ref}
    {m : Name} (held : fs.files[m]? = some r) (same : (fs.objects r).fileId = f.fileId)
    (fresh : ∀ n : Name, fs.files[n]? ≠ some u) (loaded : fs.objects u = updateOf f s)
    (applies : Applies c (.update (nodeOf (updateOf f s)) replace)) (counted : f.fileId < fs.nextFileId) :
    Replayed ((({ fs with files := eraseNames fs.files (fs.objects r).linkFiles }).mergeUpdate r u
      replace).insertLinks r) (applyUpdate c (nodeOf (updateOf f s)) replace) := by
  obtain ⟨free, nodup, _, _⟩ := applies
  have known : c.Known f.fileId := ⟨m, same ▸ replayed.shows.name_of held⟩
  have different : r ≠ u := fun equal => fresh m (equal ▸ held)
  have body : c.body f.fileId = bodyOf (fs.objects r) := same ▸ replayed.shows.body held
  rw [applyUpdate_known replace known]
  change Replayed _ (c.put { nodeOf (updateOf f s) with
    body := mergeBody (c.body f.fileId) (bodyOf (updateOf f s)) replace })
  generalize erased : eraseNames fs.files (fs.objects r).linkFiles = files
  have self := mergeUpdate_object { fs with files := files } replace different
  have links : (({ fs with files := files }).mergeUpdate r u replace |>.objects r).linkFiles = f.linkFiles := by
    rw [self]
    simp only [loaded]
    rfl
  rw [insertLinks_eq, links, mergeUpdate_files, ← erased]
  refine replayed.put (r := r) (relinked_lookup replayed held f.linkFiles) ?_ ?_ ?_ ?_ free nodup ?_ ?_ ?_ ?_ ?_
  · rw [erased, self, nodeOf_mergeUpdate replace (by simp only [loaded]; exact same)]
    simp only [loaded, body]
  · intro n q bound apart
    rw [erased]
    exact mergeUpdate_other _ replace apart (fun equal => fresh n (equal ▸ bound))
  · exact fun _ _ => same
  · intro n q bound apart equal
    exact apart (replayed.shows.unique bound held (equal.trans same.symm))
  · rw [(mergeUpdate_counters _ r u replace).1]
    exact replayed.bounded held
  · rw [(mergeUpdate_counters _ r u replace).1]
  · rw [(mergeUpdate_counters _ r u replace).2]
  · rw [(mergeUpdate_counters _ r u replace).2]
    exact counted
  · rw [erased, self]
    exact merged_idle replace (replayed.idle held)

theorem replayed_new_update (replayed : Replayed fs c) {s : Nat} {replace : Bool} {u : Ref}
    (missing : ∀ (n : Name) q, fs.files[n]? = some q → (fs.objects q).fileId ≠ f.fileId)
    (fresh : ∀ n : Name, fs.files[n]? ≠ some u) (loaded : fs.objects u = updateOf f s) (below : u < fs.nextRef)
    (applies : Applies c (.update (nodeOf (updateOf f s)) replace)) (counted : f.fileId < fs.nextFileId) :
    Replayed ((fs.insertFile (fs.objects u).getFilename u).dropUnowned u)
      (applyUpdate c (nodeOf (updateOf f s)) replace) := by
  obtain ⟨free, nodup, _, single⟩ := applies
  have unknown : ¬ c.Known f.fileId := by
    rw [replayed.known_iff]
    rintro ⟨n, q, held, same⟩
    exact missing n q held same
  obtain ⟨name, links⟩ := single unknown
  have links : f.linkFiles = [name] := links
  have filename : (fs.objects u).getFilename = name := by
    rw [loaded]
    simp only [updateOf, ZoneFile.getFilename, links, List.headD_cons]
  have unbound : fs.files[name]? = none := by
    rcases free name (by rw [show (nodeOf (updateOf f s)).links = [name] from links]; simp) with unbound | taken
    · exact (replayed.shows.unbound_iff name).mp unbound
    · exact absurd ⟨name, taken⟩ unknown
  have inserted : (fs.insertFile name u).files[name]? = some u := by
    rw [insertFile_lookup, unbound]
    simp
  have object : ((fs.insertFile name u).dropUnowned u).objects u = fs.objects u := dropUnowned_object inserted u
  rw [applyUpdate_new replace unknown, filename]
  have counters : ((fs.insertFile name u).dropUnowned u).nextRef = fs.nextRef ∧
      ((fs.insertFile name u).dropUnowned u).nextFileId = fs.nextFileId := by
    simp only [ZenFS.dropUnowned]
    split <;> exact ⟨rfl, rfl⟩
  refine replayed.put (r := u) ?_ ?_ ?_ ?_ ?_ free nodup ?_ ?_ ?_ ?_ ?_
  · intro n
    have single : (nodeOf (updateOf f s)).links = [name] := links
    rw [dropUnowned_files, insertFile_lookup]
    simp only [rebind, single, List.mem_singleton]
    cases bound : fs.files[n]? with
    | none => rfl
    | some q =>
      have other : q ≠ u := fun equal => fresh n (equal ▸ bound)
      simp [other]
  · rw [object, loaded]
  · intro n q bound _
    have kept : (fs.insertFile name u).files[n]? = some q := by
      rw [insertFile_lookup, bound]
    exact dropUnowned_object kept u
  · exact fun n bound => absurd bound (fresh n)
  · exact fun n q bound _ => missing n q bound
  · rw [counters.1]
    exact below
  · rw [counters.1]
  · rw [counters.2]
  · rw [counters.2]
    exact counted
  · rw [object, loaded]
    exact updateOf_idle f s

theorem Writable.frame {fs' : ZenFS} {f : ZoneFile} {s : Nat} (frame : Frame fs fs')
    (writable : Writable (getIOZone fs.zbd.dev) f s) : Writable (getIOZone fs'.zbd.dev) f s := by
  rw [frame.dev.getIOZone]
  exact writable

variable {id : Nat}

theorem wp_countFileId {seen : ZenFS → Prop} {stuck : Prop} {post : Except Status Unit → ZenFS → Prop} :
    wp seen stuck (countFileId id) post fs ↔ seen (counted fs id) ∧ post (.ok ()) (counted fs id) := Iff.rfl

theorem ensures_decodeFileUpdateFrom (replayed : Replayed fs c) {f : ZoneFile} {s : Nat} {replace : Bool}
    (writable : Writable (getIOZone fs.zbd.dev) f s)
    (applies : Applies c (.update (nodeOf (updateOf f s)) replace)) :
    Ensures (decodeFileUpdateFrom (f.encodeTo s) replace)
      (fun result fs' => result = .ok () ∧ Frame fs fs' ∧
        Replayed fs' (applyUpdate c (nodeOf (updateOf f s)) replace)) fs := by
  have start := loaded_frame fs (updateOf f s)
  have ready := (replayed.loaded (updateOf f s)).count f.fileId writable.counted
  have step : Frame fs (counted (loaded fs (updateOf f s)) f.fileId) := start.trans (counted_frame _ _)
  have mapped : ∀ n : Name, (counted (loaded fs (updateOf f s)) f.fileId).files[n]? = fs.files[n]? := by
    intro n
    rw [counted_eq]
    rfl
  have fresh : ∀ n : Name, (counted (loaded fs (updateOf f s)) f.fileId).files[n]? ≠ some fs.nextRef := by
    intro n held
    rw [mapped] at held
    exact absurd (replayed.bounded held) (Nat.lt_irrefl _)
  have object : (counted (loaded fs (updateOf f s)) f.fileId).objects fs.nextRef = updateOf f s := by
    rw [counted_eq]
    exact loaded_object fs _
  have below : fs.nextRef < (counted (loaded fs (updateOf f s)) f.fileId).nextRef := by
    rw [counted_eq]
    exact Nat.lt_succ_self _
  have fileId : f.fileId < (counted (loaded fs (updateOf f s)) f.fileId).nextFileId :=
    (counted_nextFileId _ writable.counted).1
  simp only [decodeFileUpdateFrom, wp_bind]
  apply wp_decodeFile writable.fits (Nat.lt_trans writable.short (by decide)) trivial
  have id : (updateOf f s).fileId = f.fileId := rfl
  simp only [onOk_ok, ZenFS.object, wp_read, loaded_object, true_and, id, wp_countFileId]
  generalize counted (loaded fs (updateOf f s)) f.fileId = fs₂ at *
  cases found : fs₂.fileWithId f.fileId with
  | none =>
    simp only [wp_update, true_and]
    refine ⟨step.trans ((Frame.ofFiles _ _).trans (Frame.drop _ _)), ?_⟩
    exact replayed_new_update ready (fun _ _ held => fileWithId_none found held) fresh object below applies fileId
  | some r =>
    obtain ⟨m, held, same⟩ := fileWithId_some found
    have names : ∀ n ∈ (fs₂.objects r).linkFiles, fs₂.files[n]? = some r := fun n member =>
      (ready.shows.member_iff ready.coherent held).mp member
    have nodup : (fs₂.objects r).linkFiles.Nodup := by
      have distinct := ready.coherent.nodup (ready.shows.name_of held)
      rwa [ready.shows.links held] at distinct
    simp only [wp_bind, wp_read, onOk_ok, true_and]
    rw [wp_attempt]
    apply wp_eraseLinks nodup names (fun _ => trivial)
    simp only [onOk_ok, wp_bind, wp_update, true_and]
    refine ⟨?_, replayed_known_update ready held same fresh object applies fileId⟩
    rw [insertLinks_eq]
    exact step.trans ((Frame.ofFiles _ _).trans ((mergeUpdate_frame _ _ _ _).trans (Frame.ofFiles _ _)))

theorem getFixed64_deletion {name : Name} (fits : id < 2 ^ 64) :
    getFixed64 (putLengthPrefixedSlice (putFixed64 [] id) name) = some (id, putLengthPrefixedSlice [] name) := by
  rw [putLengthPrefixedSlice_append]
  simp only [putFixed64, List.nil_append]
  rw [getFixed64_put, Nat.mod_eq_of_lt fits]

theorem ensures_decodeFileDeletionFrom (replayed : Replayed fs c) {name : Name} (fits : id < 2 ^ 64)
    (short : name.length < 2 ^ 31) (applies : Applies c (.deletion id name)) :
    Ensures (decodeFileDeletionFrom (putLengthPrefixedSlice (putFixed64 [] id) name))
      (fun result fs' => result = .ok () ∧ Frame fs fs' ∧ Replayed fs' (c.remove id name)) fs := by
  have named : c.names name = some id := applies
  obtain ⟨r, held, rfl⟩ : ∃ r, fs.files[name]? = some r ∧ (fs.objects r).fileId = id := by
    rw [replayed.shows.names] at named
    obtain ⟨r, held, same⟩ := Option.map_eq_some_iff.mp named
    exact ⟨r, held, same⟩
  have slice := getLengthPrefixedSlice_put (Nat.lt_trans short (by decide) : name.length < 2 ^ 32) []
  rw [List.append_nil] at slice
  have member : name ∈ (fs.objects r).linkFiles :=
    (replayed.shows.member_iff replayed.coherent held).mpr held
  have erased : fs.eraseFile name r = { fs with files := fs.files.erase name } := eraseFile_own (Or.inl held)
  simp only [decodeFileDeletionFrom, getFixed64_deletion fits, slice, wp_bind, wp_read, onOk_ok, held,
    ZenFS.object, ne_eq, not_true_eq_false, if_false, wp_update, erased, true_and,
    ZoneFile.removeLinkName, member, if_true]
  generalize erasedFiles : fs.files.erase name = files
  generalize unlinked : { fs.objects r with linkFiles := (fs.objects r).linkFiles.erase name } = f
  have lookup : ∀ n : Name, files[n]? = if n = name then none else fs.files[n]? := by
    intro n
    rw [← erasedFiles, erase_lookup]
  refine ⟨(Frame.ofFiles fs files).trans ((Frame.setObject _ r f).trans (Frame.drop _ r)), ?_⟩
  have counters : ((({ fs with files := files }).setObject r f).dropUnowned r).nextRef = fs.nextRef ∧
      ((({ fs with files := files }).setObject r f).dropUnowned r).nextFileId = fs.nextFileId := by
    simp only [ZenFS.dropUnowned]
    split <;> exact ⟨rfl, rfl⟩
  refine replayed.remove held ?_ ?_ ?_ ?_ ?_
  · intro n
    rw [dropUnowned_files]
    exact lookup n
  · intro n kept
    rw [dropUnowned_files] at kept
    rw [dropUnowned_object kept r, unlinked]
    exact Function.update_self ..
  · intro n q kept different
    rw [dropUnowned_files] at kept
    rw [dropUnowned_object kept r]
    exact Function.update_of_ne different ..
  · rw [counters.1]
  · rw [counters.2]

open ByteString

structure Listed (c : FileCatalog) (node : FileNode) : Prop where
  copy : c.Known node.id → c.links node.id = node.links
  new : ¬ c.Known node.id → ∀ n ∈ node.links, c.names n = none
  nodup : node.links.Nodup

variable {node : FileNode}

theorem listed_empty (links : Nat → List Name) (body : Nat → FileBody)
    (nodup : node.links.Nodup) : Listed (Catalog.empty links body) node where
  copy := by
    rintro ⟨n, named⟩
    cases named
  new := fun _ _ _ => rfl
  nodup := nodup

theorem Listed.free (listed : Listed c node) (unknown : ¬ c.Known node.id) :
    c.Free node.id node.links := fun n member => Or.inl (listed.new unknown n member)

theorem known_put {j : Nat} (other : j ≠ node.id) : (c.put node).Known j ↔ c.Known j := by
  simp only [Catalog.Known, Catalog.put_names_other other]

theorem Listed.next {first : FileNode} (listed : Listed c first) (later : Listed c node)
    (apart : first = node ∨ first.id ≠ node.id ∧ ∀ n ∈ first.links, n ∉ node.links) :
    Listed (applyPresent c first) node := by
  by_cases known : c.Known first.id
  · rw [applyPresent_known known]
    exact later
  · rw [applyPresent_new known]
    rcases apart with rfl | ⟨ids, links⟩
    · refine ⟨fun _ => Function.update_self .., ?_, later.nodup⟩
      intro unknown n member
      exact absurd ⟨n, (Catalog.put_names_self (listed.free known) n).mpr member⟩ unknown
    · refine ⟨?_, ?_, later.nodup⟩
      · intro known'
        rw [known_put ids.symm] at known'
        rw [← later.copy known']
        exact Function.update_of_ne ids.symm ..
      · intro unknown n member
        rw [known_put ids.symm] at unknown
        have unbound := later.new unknown n member
        have outside : n ∉ first.links := fun inside => links n inside member
        simp only [Catalog.put, unbound, if_neg outside]

theorem replayed_present (replayed : Replayed fs c) {f : ZoneFile} {u : Ref}
    (fresh : ∀ n : Name, fs.files[n]? ≠ some u) (loaded : fs.objects u = updateOf f 0) (below : u < fs.nextRef)
    (listed : Listed c (nodeOf f)) (linked : f.linkFiles ≠ []) (counted : f.fileId < fs.nextFileId) :
    Replayed ((fs.insertLinks u).dropUnowned u) (applyPresent c (nodeOf f)) := by
  have links : (fs.objects u).linkFiles = f.linkFiles := by
    rw [loaded]
    rfl
  have lookup : ∀ n : Name, ((fs.insertLinks u).dropUnowned u).files[n]? =
      rebind (fun n : Name => fs.files[n]?) u f.linkFiles n := by
    intro n
    rw [dropUnowned_files, insertLinks_eq, links, insertNames_lookup]
    simp only [rebind]
    cases held : fs.files[n]? with
    | none => simp
    | some q =>
      have other : q ≠ u := fun equal => fresh n (equal ▸ held)
      simp [other]
  have keep : ∀ {n : Name} {q}, (fs.insertLinks u).files[n]? = some q →
      ((fs.insertLinks u).dropUnowned u).objects q = fs.objects q := by
    intro n q held
    rw [dropUnowned_object held u, insertLinks_eq]
  have kept : ∀ {n : Name} {q}, fs.files[n]? = some q → (fs.insertLinks u).files[n]? = some q := by
    intro n q held
    rw [insertLinks_eq, insertNames_lookup, held]
  have counters : ((fs.insertLinks u).dropUnowned u).nextRef = fs.nextRef ∧
      ((fs.insertLinks u).dropUnowned u).nextFileId = fs.nextFileId := by
    rw [insertLinks_eq]
    simp only [ZenFS.dropUnowned]
    split <;> exact ⟨rfl, rfl⟩
  by_cases known : c.Known (nodeOf f).id
  · rw [applyPresent_known known]
    refine replayed.congr ?_ (fun n q held => keep (kept held)) (by rw [counters.1]) (by rw [counters.2])
    intro n
    rw [lookup]
    simp only [rebind]
    cases held : fs.files[n]? with
    | some q =>
      have other : q ≠ u := fun equal => fresh n (equal ▸ held)
      simp [other]
    | none =>
      have outside : n ∉ f.linkFiles := by
        intro member
        obtain ⟨m, named⟩ := known
        have copied : n ∈ c.links (nodeOf f).id := by
          rw [listed.copy ⟨m, named⟩]
          exact member
        have bound := replayed.coherent.complete named n copied
        rw [(replayed.shows.unbound_iff n).mpr held] at bound
        cases bound
      simp [outside]
  · have missing : ∀ (n : Name) q, fs.files[n]? = some q → (fs.objects q).fileId ≠ (nodeOf f).id := by
      intro n q held same
      exact known ((replayed.known_iff _).mpr ⟨n, q, held, same⟩)
    rw [applyPresent_new known]
    have object : ((fs.insertLinks u).dropUnowned u).objects u = updateOf f 0 := by
      obtain ⟨name, member⟩ := List.exists_mem_of_ne_nil _ linked
      have unbound := (replayed.shows.unbound_iff name).mp (listed.new known name member)
      have taken : (fs.insertLinks u).files[name]? = some u := by
        rw [insertLinks_eq, links, insertNames_lookup, unbound]
        simp [member]
      rw [keep taken, loaded]
    have self : nodeOf (((fs.insertLinks u).dropUnowned u).objects u) = nodeOf f := by
      rw [object, nodeOf_updateOf_zero]
    have idle : Idle (((fs.insertLinks u).dropUnowned u).objects u) := by
      rw [object]
      exact updateOf_idle f 0
    refine replayed.put (r := u) lookup self (fun n q held _ => keep (kept held))
      (fun n held => absurd held (fresh n)) (fun n q held _ => missing n q held)
      (listed.free known) listed.nodup ?_ ?_ ?_ ?_ idle
    · rw [counters.1]
      exact below
    · rw [counters.1]
    · rw [counters.2]
    · rw [counters.2]
      exact counted

def snapshotBytes (files : List ZoneFile) : Bytes :=
  files.flatMap (fun f => putLengthPrefixedSlice [] (f.encodeTo 0))

theorem ensures_decodeSnapshotLoop (files : List ZoneFile) {rounds : Nat} (enough : files.length < rounds)
    (replayed : Replayed fs c) (writable : ∀ f ∈ files, Writable (getIOZone fs.zbd.dev) f 0)
    (listed : ∀ f ∈ files, Listed c (nodeOf f))
    (apart : ∀ f ∈ files, ∀ g ∈ files, nodeOf f = nodeOf g ∨
      (nodeOf f).id ≠ (nodeOf g).id ∧ ∀ n ∈ (nodeOf f).links, n ∉ (nodeOf g).links) :
    Ensures (decodeSnapshotLoop rounds (snapshotBytes files))
      (fun result fs' => result = .ok () ∧ Frame fs fs' ∧
        Replayed fs' ((files.map nodeOf).foldl applyPresent c)) fs := by
  induction files generalizing fs c rounds with
  | nil =>
    cases rounds with
    | zero => cases enough
    | succ rounds => exact ⟨rfl, Frame.refl fs, replayed⟩
  | cons f rest ih =>
    cases rounds with
    | zero => cases enough
    | succ rounds =>
      have first := writable f (by simp)
      have slice : getLengthPrefixedSlice (snapshotBytes (f :: rest)) =
          some (f.encodeTo 0, snapshotBytes rest) :=
        getLengthPrefixedSlice_put (Nat.lt_trans first.short (by decide)) _
      have ready := (replayed.loaded (updateOf f 0)).count f.fileId first.counted
      have step : Frame fs (counted (loaded fs (updateOf f 0)) f.fileId) :=
        (loaded_frame fs _).trans (counted_frame _ _)
      have fresh : ∀ n : Name, (counted (loaded fs (updateOf f 0)) f.fileId).files[n]? ≠ some fs.nextRef := by
        intro n held
        rw [counted_eq] at held
        exact absurd (replayed.bounded held) (Nat.lt_irrefl _)
      have object : (counted (loaded fs (updateOf f 0)) f.fileId).objects fs.nextRef = updateOf f 0 := by
        rw [counted_eq]
        exact loaded_object fs _
      have below : fs.nextRef < (counted (loaded fs (updateOf f 0)) f.fileId).nextRef := by
        rw [counted_eq]
        exact Nat.lt_succ_self _
      have fileId : f.fileId < (counted (loaded fs (updateOf f 0)) f.fileId).nextFileId :=
        (counted_nextFileId _ first.counted).1
      have id : (updateOf f 0).fileId = f.fileId := rfl
      simp only [decodeSnapshotLoop, slice, wp_bind]
      apply wp_decodeFile first.fits (Nat.lt_trans first.short (by decide)) trivial
      simp only [onOk_ok, ZenFS.object, wp_read, loaded_object, true_and, id, wp_countFileId, wp_update]
      generalize counted (loaded fs (updateOf f 0)) f.fileId = fs₂ at *
      have next := replayed_present ready fresh object below (listed f (by simp)) first.linked fileId
      have through : Frame fs ((fs₂.insertLinks fs.nextRef).dropUnowned fs.nextRef) := by
        rw [insertLinks_eq]
        exact step.trans ((Frame.ofFiles _ _).trans (Frame.drop _ _))
      have tail := ih (Nat.lt_of_succ_lt_succ enough) next
        (fun g member => (writable g (by simp [member])).frame through)
        (fun g member => (listed f (by simp)).next (listed g (by simp [member]))
          (apart f (by simp) g (by simp [member])))
        (fun g member h member' => apart g (by simp [member]) h (by simp [member']))
      refine wp_mono ?_ tail
      rintro result fs' ⟨ok, frame, done⟩
      exact ⟨ok, through.trans frame, done⟩

end ZenFSProof
