import ZonedStorage.Journal.Delete

namespace ZenFSProof

open HardLinks Resumption Resumption.Prog ZenFSModel ZenFSModel.ZenFS

section

variable {L : Ledger} {fs : ZenFS} {c : FileCatalog} {n : Name} {r : Ref}

theorem Live.replaces_links (live : Live fs c) (held : fs.files[n]? = some r) {links : List Name}
    (free : ∀ m ∈ links, fs.files[m]? = none ∨ fs.files[m]? = some r) (nodup : links.Nodup) (linked : links ≠ [])
    (named : ∀ m ∈ links, m ≠ []) : Replaces fs r { fs.objects r with linkFiles := links } where
  mine _ := rfl
  others second different := live.id_ne held second different
  free := free
  nodup := nodup
  linked := linked
  fits := { live.fits held with named := named }
  kept := live.kept held

theorem Live.continues_links (live : Live fs c) (held : fs.files[n]? = some r) (links : List Name) :
    Continues fs r { fs.objects r with linkFiles := links } false :=
  ⟨fun _ => (live.synced held).extents, fun unbound => absurd held (unbound n)⟩

variable {name : Name}

theorem Live.add_link (live : Live fs c) (held : fs.files[n]? = some r)
    (unbound : fs.files[name]? = none) (filled : name ≠ []) :
    Replaces fs r ((fs.objects r).addLinkName name) := by
  have fresh : name ∉ (fs.objects r).linkFiles := by
    intro member
    have bound := (live.member_iff held).mp member
    rw [unbound] at bound
    cases bound
  refine live.replaces_links held ?_ ?_ (by simp) ?_
  · intro m member
    rcases List.mem_append.mp member with before | new
    · exact Or.inr ((live.member_iff held).mp before)
    · rw [List.mem_singleton.mp new]
      exact Or.inl unbound
  · exact List.nodup_append.mpr ⟨live.nodup held, by simp, by
      intro m member other new same
      rw [List.mem_singleton.mp new] at same
      subst same
      exact fresh member⟩
  · intro m member
    rcases List.mem_append.mp member with before | new
    · exact (live.fits held).named m before
    · rw [List.mem_singleton.mp new]
      exact filled

theorem Live.relinked_add (live : Live fs c) (held : fs.files[n]? = some r) (unbound : fs.files[name]? = none) :
    Relinked fs ((fs.setObject r ((fs.objects r).addLinkName name)).insertFile name r) r := by
  have object : ((fs.setObject r ((fs.objects r).addLinkName name)).insertFile name r).objects r =
      (fs.objects r).addLinkName name := Function.update_self ..
  refine ⟨?_, ?_⟩
  · intro m
    have files : (fs.setObject r ((fs.objects r).addLinkName name)).files = fs.files := rfl
    rw [object, insertFile_lookup, files]
    have listed : m ∈ ((fs.objects r).addLinkName name).linkFiles ↔ fs.files[m]? = some r ∨ m = name := by
      rw [← live.member_iff held]
      simp [ZoneFile.addLinkName]
    cases bound : fs.files[m]? with
    | none =>
      rw [bound] at listed
      by_cases same : m = name
      · subst same
        simp [rebind, bound, listed]
      · simp [rebind, bound, listed, same]
    | some q =>
      rw [bound] at listed
      by_cases same : q = r
      · subst same
        simp [rebind, bound, listed]
      · exact (rebind_other same bound).symm
  · rw [object]
    rfl

theorem Live.recordable_add (live : Live fs c) (held : fs.files[n]? = some r)
    (unbound : fs.files[name]? = none) (filled : name ≠ []) : Recordable fs
      ((fs.setObject r ((fs.objects r).addLinkName name)).insertFile name r) c r false := by
  have object : ((fs.setObject r ((fs.objects r).addLinkName name)).insertFile name r).objects r =
      (fs.objects r).addLinkName name := Function.update_self ..
  refine ⟨live.relinked_add held unbound, live, ?_, ?_, live.bounded held, ?_⟩
  · rw [object]
    exact live.add_link held unbound filled
  · rw [object]
    exact live.continues_links held _
  · rw [object]
    exact live.counted held

theorem keeping_linkFile (free : ∀ c e, L.allows c e) {file link : Name} (tracks : L.Tracks fs)
    (settled : Settled fs link) : L.Keeping (linkFile file link) fs := by
  have here := tracks.seen
  simp only [linkFile, getFileNoLock, wp_bind, wp_read, onOk_ok]
  refine ⟨here, ?_⟩
  split
  · exact Or.inr tracks
  · rename_i missing
    have absent : fs.files[formatPathLexically (formatPathLexically link)]? = none := by
      simpa using missing
    have unbound : fs.files[formatPathLexically link]? = none := by
      rcases settled with same | unbound
      · rwa [same] at absent
      · exact unbound
    simp only [wp_bind, wp_read, onOk_ok]
    refine ⟨here, ?_⟩
    cases held : fs.files[formatPathLexically (formatPathLexically file)]? with
    | none => exact keeping_target tracks
    | some r =>
      obtain ⟨c, live, tells⟩ := tracks
      have recordable := live.recordable_add held unbound (formatPathLexically_ne_nil link)
      have sync := recordable.under_sync tells (fun _ _ => free _ _)
      simp only [modifyObject, wp_bind, wp_update, onOk_ok]
      refine ⟨here, here, ?_⟩
      rw [wp_attempt]
      refine wp_mono ?_ sync
      rintro result fs' (dirty | ⟨rfl, kept⟩)
      · cases result with
        | ok _ => exact Or.inl dirty
        | error status =>
          refine dirty.keeping ?_
          refine (Grows.covers.object r).bind (fun f => (Keeps.ofExcept _).bind (fun f => ?_))
          exact (Grows.covers.setObject r f).bind (fun _ => Grows.covers.eraseFile trivial r)
      · exact Or.inr kept

end

open Grows

def moved (fs : ZenFS) (r : Ref) (src dst : Name) : ZenFS :=
  { fs.setObject r { fs.objects r with linkFiles := (fs.objects r).linkFiles.erase src ++ [dst] } with
    files := (fs.files.erase src).insertIfNew dst r }

section

variable {L : Ledger} {fs : ZenFS} {c : FileCatalog} {r : Ref} {src dst : Name}

theorem moved_object (fs : ZenFS) (r : Ref) (src dst : Name) : (moved fs r src dst).objects r =
    { fs.objects r with linkFiles := (fs.objects r).linkFiles.erase src ++ [dst] } := Function.update_self ..

theorem Live.move_links (live : Live fs c) (held : fs.files[src]? = some r) (dst m : Name) :
    m ∈ (fs.objects r).linkFiles.erase src ++ [dst] ↔ (m ≠ src ∧ fs.files[m]? = some r) ∨ m = dst := by
  rw [List.mem_append, List.mem_singleton, (live.nodup held).mem_erase_iff, live.member_iff held]

theorem Live.replaces_moved (live : Live fs c) (held : fs.files[src]? = some r) (unbound : fs.files[dst]? = none)
    (filled : dst ≠ []) : Replaces fs r ((moved fs r src dst).objects r) := by
  have listed := live.move_links held dst
  have fresh : dst ∉ (fs.objects r).linkFiles.erase src := by
    intro member
    have bound := (live.member_iff held).mp (List.mem_of_mem_erase member)
    rw [unbound] at bound
    cases bound
  rw [moved_object]
  refine live.replaces_links held ?_ ?_ (by simp) ?_
  · intro m member
    rcases (listed m).mp member with ⟨_, before⟩ | rfl
    · exact Or.inr before
    · exact Or.inl unbound
  · exact List.nodup_append.mpr ⟨(live.nodup held).erase _, by simp, by
      intro m member other new same
      rw [List.mem_singleton.mp new] at same
      subst same
      exact fresh member⟩
  · intro m member
    rcases (listed m).mp member with ⟨_, before⟩ | rfl
    · exact (live.fits held).named m ((live.member_iff held).mpr before)
    · exact filled

theorem Live.relinked_moved (live : Live fs c) (held : fs.files[src]? = some r) (unbound : fs.files[dst]? = none) :
    Relinked fs (moved fs r src dst) r := by
  have listed := live.move_links held dst
  refine ⟨?_, ?_⟩
  · intro m
    rw [moved_object]
    change ((fs.files.erase src).insertIfNew dst r)[m]? = _
    rw [insertIfNew_lookup, erase_lookup]
    by_cases source : m = src
    · subst source
      have different : m ≠ dst := by
        rintro rfl
        rw [held] at unbound
        cases unbound
      have given_up : m ∉ (fs.objects r).linkFiles.erase m ++ [dst] := by
        rw [listed]
        simp [different]
      simp [rebind, held, given_up, different]
    · rw [if_neg source]
      cases bound : fs.files[m]? with
      | none =>
        have only : m ∈ (fs.objects r).linkFiles.erase src ++ [dst] ↔ m = dst := by
          rw [listed, bound]
          simp
        simp only [rebind, bound, only]
      | some q =>
        by_cases same : q = r
        · subst same
          have kept : m ∈ (fs.objects q).linkFiles.erase src ++ [dst] := (listed m).mpr (Or.inl ⟨source, bound⟩)
          simp only [rebind, bound, kept, if_true]
        · exact (rebind_other same bound).symm
  · rw [moved_object]
    rfl

theorem Live.recordable_moved (live : Live fs c) (held : fs.files[src]? = some r)
    (unbound : fs.files[dst]? = none) (filled : dst ≠ []) :
    Recordable fs (moved fs r src dst) c r false := by
  refine ⟨live.relinked_moved held unbound, live, live.replaces_moved held unbound filled, ?_, live.bounded held, ?_⟩
  · rw [moved_object]
    exact live.continues_links held _
  · rw [moved_object]
    exact live.counted held

theorem under_renameLinkNoLock (live : Live fs c) (tells : L.tells fs c) (held : fs.files[src]? = some r)
    (unbound : fs.files[dst]? = none) (filled : dst ≠ [])
    (allows : ∀ f, Stamped ((moved fs r src dst).objects r) f → L.allows c (updateEntry f false)) :
    L.Keeping (renameLinkNoLock r src dst) fs := by
  have here : L.Seen fs := L.stands tells
  have member : src ∈ (fs.objects r).linkFiles := (live.member_iff held).mpr held
  have erased : (fs.setObject r { fs.objects r with
        linkFiles := (fs.objects r).linkFiles.erase src ++ [dst] }).eraseFile src r =
      { fs.setObject r { fs.objects r with linkFiles := (fs.objects r).linkFiles.erase src ++ [dst] } with
        files := fs.files.erase src } := eraseFile_own (Or.inl held)
  simp only [renameLinkNoLock, ZenFS.object, ZoneFile.renameLink, member, if_true, wp_bind, wp_read, wp_update,
    wp_ofExcept, onOk_ok, erased]
  refine ⟨here, here, here, here, ?_⟩
  rw [wp_attempt]
  refine wp_mono ?_ ((live.recordable_moved held unbound filled).under_sync tells allows)
  rintro result fs' (dirty | ⟨rfl, kept⟩)
  · cases result with
    | ok _ => exact Or.inl dirty
    | error status =>
      refine dirty.keeping ?_
      refine (covers.eraseFile trivial r).bind (fun _ => (covers.object r).bind (fun f => ?_))
      refine (Keeps.ofExcept _).bind (fun restored => ?_)
      exact (covers.setObject r restored).bind (fun _ => covers.insertFile _ r)
  · exact Or.inr kept

theorem keeping_renameLinkNoLock (free : ∀ c e, L.allows c e) (tracks : L.Tracks fs) (unbound : fs.files[dst]? = none)
    (filled : dst ≠ []) (named : (∃ n : Name, fs.files[n]? = some r) ∨ (fs.objects r).linkFiles = []) :
    L.Keeping (renameLinkNoLock r src dst) fs := by
  by_cases member : src ∈ (fs.objects r).linkFiles
  · obtain ⟨c, live, tells⟩ := tracks
    have held : fs.files[src]? = some r := by
      rcases named with ⟨n, bound⟩ | empty
      · exact (live.member_iff bound).mp member
      · rw [empty] at member
        cases member
    exact under_renameLinkNoLock live tells held unbound filled (fun _ _ => free _ _)
  · simp only [renameLinkNoLock, ZenFS.object, ZoneFile.renameLink, member, if_false, wp_bind, wp_read,
      wp_ofExcept, onOk_ok, onOk_error]
    exact ⟨tracks.seen, Or.inr tracks⟩

end

theorem keeping_renameParts {L : Ledger} :
    RenameParts (fun p => p.Keeps Grows ∧ ∀ fs, L.Tracks fs → L.Keeping p fs) where
  done := ⟨trivial, fun _ tracks => Or.inr tracks⟩
  fail _ := ⟨trivial, fun _ tracks => Or.inr tracks⟩
  read f := ⟨covers.read f, fun _ tracks => ⟨tracks.seen, Or.inr tracks⟩⟩
  attempt keeps := by
    refine ⟨keeps.1.attempt, fun fs tracks => ?_⟩
    rw [Ledger.Keeping, Ledger.Under, wp_attempt]
    exact keeps.2 fs tracks
  bind first next := ⟨first.1.bind (fun a => (next a).1), fun fs tracks =>
    (first.2 fs tracks).bind (fun a => (next a).2) (fun a => (next a).1)⟩
  target := ⟨covers.target, fun _ => keeping_target⟩

theorem keeping_renameFileNoLock {L : Ledger} (free : ∀ c e, L.allows c e) (depth : Nat) {fs : ZenFS}
    {src dst : Name} (tracks : L.Tracks fs) (settled : Settled fs dst) :
    L.Keeping (renameFileNoLock depth src dst) fs := by
  induction depth generalizing fs src dst with
  | zero => trivial
  | succ depth ih =>
    have here := tracks.seen
    simp only [renameFileNoLock, getFileNoLock, wp_bind, wp_read, onOk_ok]
    refine ⟨here, ?_⟩
    cases held : fs.files[formatPathLexically (formatPathLexically src)]? with
    | none =>
      have grows := covers.renameFileNoLock (fun _ => trivial) depth
      have keeps (path child : Name) {now source} (kept : L.Tracks now) :
          L.Keeping (renameFileNoLock depth source (Path.append (formatPathLexically path) child)) now :=
        ih kept (Or.inl (formatPathLexically_absolute (append_isAbsolute (formatPathLexically_isAbsolute path) child)))
      exact (keeping_renameParts.renameAuxPathNoLock (fun child => ⟨grows _ _, fun _ => keeps dst child⟩)
        (fun child => ⟨grows _ _, fun _ => keeps src child⟩)).2 fs tracks
    | some r =>
      simp only [wp_bind, wp_read, onOk_ok]
      refine ⟨here, ?_⟩
      split
      · rename_i existing
        have present : fs.files[formatPathLexically (formatPathLexically dst)]? ≠ none :=
          Option.isSome_iff_ne_none.mp existing
        simp only [wp_bind]
        refine wp_mono ?_ (under_deleteFileNoLock free tracks (Or.inl (formatPathLexically_twice dst)))
        rintro result fs' (dirty | ⟨kept, removed⟩)
        · cases result with
          | error status => exact Or.inl dirty
          | ok _ => exact dirty.keeping (covers.renameLinkNoLock r trivial trivial)
        · cases result with
          | error status => exact Or.inr kept
          | ok _ =>
            have gone := removed rfl
            have unbound : fs'.files[formatPathLexically dst]? = none := by
              by_cases same : formatPathLexically dst = formatPathLexically (formatPathLexically dst)
              · rw [same]
                exact gone.absent (by rw [formatPathLexically_twice]; exact present)
              · rw [gone.names _ same]
                exact settled.resolve_left (fun equal => same equal.symm)
            exact keeping_renameLinkNoLock free kept unbound (formatPathLexically_ne_nil dst) (gone.links _ r held)
      · rename_i missing
        have absent : fs.files[formatPathLexically (formatPathLexically dst)]? = none := by simpa using missing
        have unbound : fs.files[formatPathLexically dst]? = none := by
          rcases settled with same | unbound
          · rwa [same] at absent
          · exact unbound
        exact keeping_renameLinkNoLock free tracks unbound (formatPathLexically_ne_nil dst) (Or.inl ⟨_, held⟩)

theorem keeping_renameFile {L : Ledger} (free : ∀ c e, L.allows c e) (depth : Nat) {fs : ZenFS}
    {src dst : Name} (tracks : L.Tracks fs) (settled : Settled fs dst) :
    L.Keeping (renameFile depth src dst) fs :=
  (keeping_renameFileNoLock free depth tracks settled).bind (fun _ _ kept => keeping_resetUnusedIOZones kept)
    (fun _ => covers.resetUnusedIOZones)

end ZenFSProof
