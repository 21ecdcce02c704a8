import ZonedStorage.Journal.Ledger
import ZonedStorage.Namespace.PathNormal

namespace ZenFSProof

open Resumption Resumption.Prog ZenFSModel ZenFSModel.ZenFS Function ZenFS

/-- The state after a deletion record: `r` has lost the name `n`, and if that was its last one it
    is marked as deleted. -/
structure Unlinked (fs fs' : ZenFS) (r : Ref) (n : Name) : Prop where
  files : ∀ m : Name, fs'.files[m]? = update (fun m : Name => fs.files[m]?) n none m
  object : (∃ m : Name, fs'.files[m]? = some r) →
    fs'.objects r = { fs.objects r with linkFiles := (fs.objects r).linkFiles.erase n }
  gone : (∀ m : Name, fs'.files[m]? ≠ some r) → (fs'.objects r).isDeleted = true
  links : (fs'.objects r).linkFiles = (fs.objects r).linkFiles.erase n
  others : ∀ q, q ≠ r → fs'.objects q = fs.objects q
  persisted : fs'.persisted = update fs.persisted r
    { fs.persisted r with linkFiles := (fs.persisted r).linkFiles.erase n }
  refs : fs'.nextRef = fs.nextRef
  ids : fs'.nextFileId = fs.nextFileId
  zones : getIOZone fs'.zbd.dev = getIOZone fs.zbd.dev
  handles : fs'.handles = fs.handles

namespace Unlinked

variable {fs fs' : ZenFS} {r : Ref} {n : Name}

theorem lookup (unlinked : Unlinked fs fs' r n) {m : Name} {q : Ref} (held : fs'.files[m]? = some q) :
    m ≠ n ∧ fs.files[m]? = some q := by
  rw [unlinked.files] at held
  by_cases same : m = n
  · subst same
    rw [update_self] at held
    cases held
  · rw [update_of_ne same] at held
    exact ⟨same, held⟩

theorem kept_name (unlinked : Unlinked fs fs' r n) {m : Name} {q : Ref} (other : m ≠ n)
    (held : fs.files[m]? = some q) : fs'.files[m]? = some q := by
  rw [unlinked.files, update_of_ne other]
  exact held

end Unlinked

section

variable {fs fs' : ZenFS} {r : Ref} {n : Name} {c : FileCatalog}

theorem erase_synced {f last : ZoneFile} (synced : Synced f last) (name : Name) :
    Synced { f with linkFiles := f.linkFiles.erase name } { last with linkFiles := last.linkFiles.erase name } :=
  ⟨synced.id, by rw [synced.links], synced.within, synced.extents⟩

theorem erase_fits {zones : Nat → Option Nat} {f : ZoneFile} (fits : Fits zones f) (name : Name) :
    Fits zones { f with linkFiles := f.linkFiles.erase name } :=
  { fits with named := fun other member => fits.named other (List.mem_of_mem_erase member) }

theorem Live.remove (live : Live fs c) (held : fs.files[n]? = some r) (unlinked : Unlinked fs fs' r n) :
    Live fs' (c.remove (fs.objects r).fileId n) := by
  have object : ∀ {m : Name} {q}, fs'.files[m]? = some q →
      (q = r ∧ fs'.objects q = { fs.objects r with linkFiles := (fs.objects r).linkFiles.erase n }) ∨
      (q ≠ r ∧ fs'.objects q = fs.objects q) := by
    intro m q found
    by_cases same : q = r
    · subst same
      exact Or.inl ⟨rfl, unlinked.object ⟨m, found⟩⟩
    · exact Or.inr ⟨same, unlinked.others q same⟩
  have named := live.shows.name_of held
  rw [← (live.synced held).id]
  constructor
  · refine (live.shows.remove held).congr unlinked.files ?_
    intro m q _
    rw [unlinked.persisted]
    by_cases same : q = r
    · subst same
      rw [update_self, update_self]
      simp [nodeOf, bodyOf]
    · rw [update_of_ne same, update_of_ne same]
  · exact live.coherent.remove named
  · rw [unlinked.ids]
    exact live.ids
  · intro m q found
    rw [unlinked.refs]
    exact live.bounded (unlinked.lookup found).2
  · intro m q found
    rw [unlinked.ids]
    have before := live.counted (unlinked.lookup found).2
    rcases object found with ⟨rfl, now⟩ | ⟨_, now⟩
    · rw [now]
      exact before
    · rw [now]
      exact before
  · intro m q found
    have before := live.synced (unlinked.lookup found).2
    rw [unlinked.persisted]
    rcases object found with ⟨rfl, now⟩ | ⟨different, now⟩
    · rw [now, update_self]
      exact erase_synced before n
    · rw [now, update_of_ne different]
      exact before
  · intro m q found
    have before := live.fits (unlinked.lookup found).2
    rw [unlinked.zones]
    rcases object found with ⟨rfl, now⟩ | ⟨_, now⟩
    · rw [now]
      exact erase_fits before n
    · rw [now]
      exact before
  · intro m q found
    have before := live.kept (unlinked.lookup found).2
    rcases object found with ⟨rfl, now⟩ | ⟨_, now⟩
    · rw [now]
      exact before
    · rw [now]
      exact before
  · intro q open_
    rw [unlinked.handles] at open_
    rw [unlinked.refs]
    exact live.reserved open_
  · intro q open_
    rw [unlinked.handles] at open_
    by_cases same : q = r
    · subst same
      by_cases bound : ∃ m : Name, fs'.files[m]? = some q
      · exact Or.inl bound
      · exact Or.inr (unlinked.gone (fun m found => bound ⟨m, found⟩))
    · rcases live.attached open_ with ⟨m, found⟩ | deleted
      · have other : m ≠ n := by
          rintro rfl
          rw [held] at found
          exact same (Option.some.inj found).symm
        exact Or.inl ⟨m, unlinked.kept_name other found⟩
      · refine Or.inr ?_
        rw [unlinked.others q same]
        exact deleted

end

theorem carries_deletion {zones : Nat → Option Nat} {f : ZoneFile} {name : Name}
    (readable : Readable (encodeFileDeletionTo f name)) (fits : f.fileId < 2 ^ 64) :
    Carries zones (.deletion f.fileId name) (encodeFileDeletionTo f name) := by
  have inside := tagged_length .kFileDeletion (putLengthPrefixedSlice (putFixed64 [] f.fileId) name)
  have slice := putLengthPrefixedSlice_length name
  rw [putLengthPrefixedSlice_append, List.length_append] at inside
  have short : name.length < 2 ^ 31 := by
    have whole : (encodeFileDeletionTo f name).length < 2 ^ 31 := readable
    simp only [encodeFileDeletionTo] at whole
    rw [putLengthPrefixedSlice_append] at whole
    omega
  exact ⟨readable, _, _, rfl, .deletion f.fileId name fits short⟩

/-- The name behind the path is the one that the look-up finds, or nothing has it. -/
def Settled (fs : ZenFS) (path : Name) : Prop :=
  formatPathLexically (formatPathLexically path) = formatPathLexically path ∨
    fs.files[formatPathLexically path]? = none

instance (fs : ZenFS) (path : Name) : Decidable (Settled fs path) := inferInstanceAs (Decidable (_ ∨ _))

def erased (fs : ZenFS) (r : Ref) (fname : Name) : ZenFS :=
  { fs with files := fs.files.erase fname }.setObject r
    { fs.objects r with linkFiles := (fs.objects r).linkFiles.erase fname }

def deletion (fs : ZenFS) (r : Ref) (fname : Name) (calls : Nat) : ZenFS :=
  (recorded (erased fs r fname) (encodeFileDeletionTo ((erased fs r fname).objects r) fname) calls).unlinked r fname

section

variable {fs : ZenFS} {r : Ref} {fname : Name}

theorem erased_object (fs : ZenFS) (r : Ref) (fname : Name) : (erased fs r fname).objects r =
    { fs.objects r with linkFiles := (fs.objects r).linkFiles.erase fname } := update_self ..

theorem erased_lookup (fs : ZenFS) (r : Ref) (fname : Name) (m : Name) :
    (erased fs r fname).files[m]? = update (fun m : Name => fs.files[m]?) fname none m := by
  change (fs.files.erase fname)[m]? = _
  rw [erase_lookup]
  by_cases same : m = fname
  · subst same
    rw [update_self, if_pos rfl]
  · rw [update_of_ne same, if_neg same]

theorem erased_quiet (fs : ZenFS) (r : Ref) (fname : Name) : Quiet fs (erased fs r fname) :=
  ⟨rfl, rfl, rfl, rfl, rfl, rfl⟩

theorem deletion_lookup (fs : ZenFS) (r : Ref) (fname : Name) (calls : Nat) (m : Name) :
    (deletion fs r fname calls).files[m]? = update (fun m : Name => fs.files[m]?) fname none m :=
  erased_lookup fs r fname m

theorem deletion_object (fs : ZenFS) (r : Ref) (fname : Name) (calls : Nat) : (deletion fs r fname calls).objects r =
      { fs.objects r with linkFiles := (fs.objects r).linkFiles.erase fname } := erased_object fs r fname

theorem unlinked_deletion (calls : Nat) (left : ∃ m : Name, (deletion fs r fname calls).files[m]? = some r) :
    Unlinked fs (deletion fs r fname calls) r fname where
  files := deletion_lookup fs r fname calls
  object _ := deletion_object fs r fname calls
  gone none_left := by
    obtain ⟨m, found⟩ := left
    exact absurd found (none_left m)
  links := by rw [deletion_object]
  others q different := update_of_ne different ..
  persisted := rfl
  refs := rfl
  ids := rfl
  zones := rfl
  handles := rfl

def discarded (fs : ZenFS) (r : Ref) : ZenFS :=
  (fs.setObject r { fs.objects r with isDeleted := true }).dropUnowned r

theorem discarded_frame (fs : ZenFS) (r : Ref) : Frame fs (discarded fs r) :=
  (Frame.setObject fs r _).trans (Frame.drop _ r)

theorem discarded_files (fs : ZenFS) (r : Ref) : (discarded fs r).files = fs.files := dropUnowned_files _ _

theorem discarded_object (fs : ZenFS) (r : Ref) :
    ((discarded fs r).objects r).isDeleted = true ∧ ((discarded fs r).objects r).linkFiles = (fs.objects r).linkFiles := by
  simp only [discarded, dropUnowned]
  split
  · simp [setObject]
  · simp [clearExtents, setObject, dischargeExtents]

theorem discarded_other (fs : ZenFS) {q : Ref} (different : q ≠ r) : (discarded fs r).objects q = fs.objects q := by
  simp only [discarded, dropUnowned]
  split
  · exact update_of_ne different ..
  · simp only [clearExtents, setObject, dischargeExtents]
    rw [update_of_ne different, update_of_ne different]

theorem discarded_ids (fs : ZenFS) (r : Ref) : (discarded fs r).nextFileId = fs.nextFileId := by
  simp only [discarded, dropUnowned]
  split <;> rfl

theorem discarded_refs (fs : ZenFS) (r : Ref) : (discarded fs r).nextRef = fs.nextRef := by
  simp only [discarded, dropUnowned]
  split <;> rfl

theorem unlinked_discarded (calls : Nat) (none_left : ∀ m : Name, (deletion fs r fname calls).files[m]? ≠ some r) :
    Unlinked fs (discarded (deletion fs r fname calls) r) r fname := by
  have frame := discarded_frame (deletion fs r fname calls) r
  have rest := frame.rest
  constructor
  · intro m
    rw [discarded_files]
    exact deletion_lookup fs r fname calls m
  · rintro ⟨m, found⟩
    rw [discarded_files] at found
    exact absurd found (none_left m)
  · exact fun _ => (discarded_object _ r).1
  · rw [(discarded_object _ r).2, deletion_object]
  · intro q different
    rw [discarded_other _ different]
    exact update_of_ne different ..
  · rw [rest]
    rfl
  · rw [discarded_refs]
    rfl
  · rw [discarded_ids]
    rfl
  · rw [frame.dev.getIOZone]
    rfl
  · rw [rest]
    rfl

end

structure Removed (fs fs' : ZenFS) (fname : Name) : Prop where
  names : ∀ m : Name, m ≠ fname → fs'.files[m]? = fs.files[m]?
  absent : fs.files[formatPathLexically fname]? ≠ none → fs'.files[fname]? = none
  links : ∀ (n : Name) r, fs.files[n]? = some r →
    (∃ m : Name, fs'.files[m]? = some r) ∨ (fs'.objects r).linkFiles = []
  ids : fs'.nextFileId = fs.nextFileId

theorem Unlinked.removed {fs fs' : ZenFS} {c : FileCatalog} {r : Ref} {fname : Name}
    (unlinked : Unlinked fs fs' r fname) (live : Live fs c) (held : fs.files[fname]? = some r) :
    Removed fs fs' fname where
  names m other := by rw [unlinked.files, update_of_ne other]
  absent _ := by rw [unlinked.files, update_self]
  links n q found := by
    by_cases same : q = r
    · subst same
      by_cases empty : (fs.objects q).linkFiles.erase fname = []
      · exact Or.inr (unlinked.links.trans empty)
      · obtain ⟨m, member⟩ := List.exists_mem_of_ne_nil _ empty
        obtain ⟨other, before⟩ := (live.nodup held).mem_erase_iff.mp member
        exact Or.inl ⟨m, unlinked.kept_name other ((live.member_iff held).mp before)⟩
    · have other : n ≠ fname := by
        rintro rfl
        rw [held] at found
        exact same (Option.some.inj found).symm
      exact Or.inl ⟨n, unlinked.kept_name other found⟩
  ids := unlinked.ids

section

variable {fs : ZenFS} {r : Ref} {fname : Name} {c : FileCatalog}

theorem writes_deletion (live : Live fs c) (held : fs.files[fname]? = some r) :
    Writes (erased fs r fname) c (.deletion (fs.objects r).fileId fname)
      (encodeFileDeletionTo ((erased fs r fname).objects r) fname) := by
  refine ⟨fun readable => ?_, (live.names_iff held).mpr held⟩
  rw [erased_object] at readable ⊢
  exact carries_deletion (f := { fs.objects r with linkFiles := (fs.objects r).linkFiles.erase fname }) readable
    (live.fits held).fileId

theorem erased_links (live : Live fs c) (held : fs.files[fname]? = some r) :
    (∃ m : Name, (erased fs r fname).files[m]? = some r) ↔ 0 < ((fs.objects r).linkFiles.erase fname).length := by
  constructor
  · rintro ⟨m, found⟩
    rw [erased_lookup] at found
    by_cases here : m = fname
    · subst here
      rw [update_self] at found
      cases found
    · rw [update_of_ne here] at found
      exact List.length_pos_of_mem ((live.nodup held).mem_erase_iff.mpr ⟨here, (live.member_iff held).mpr found⟩)
  · intro left
    obtain ⟨m, listed⟩ := List.exists_mem_of_length_pos left
    obtain ⟨other, before⟩ := (live.nodup held).mem_erase_iff.mp listed
    refine ⟨m, ?_⟩
    rw [erased_lookup, update_of_ne other]
    exact (live.member_iff held).mp before

end

section

variable {L : Ledger} {fs : ZenFS} {c : FileCatalog} {r : Ref} {fname path : Name}

theorem Frame.quiet {fs' : ZenFS} (frame : Frame fs fs') : Quiet fs fs' := by
  have rest := frame.rest
  exact ⟨frame.md, by rw [rest], by rw [rest], by rw [rest], by rw [rest], frame.dev.getIOZone⟩

theorem unlinked_quiet (fs : ZenFS) (r : Ref) (fname : Name) : Quiet fs (fs.unlinked r fname) :=
  ⟨rfl, rfl, rfl, rfl, rfl, rfl⟩

theorem under_deleteRecord (live : Live fs c) (tells : L.tells fs c) (held : fs.files[fname]? = some r)
    (allows : L.allows c (.deletion (fs.objects r).fileId fname)) {f : ZoneFile}
    (object : (erased fs r fname).objects r = f) :
    L.Under (do
      match ← (persistRecord (encodeFileDeletionTo f fname)).attempt with
      | .error status =>
        Prog.update (fun fs => fs.insertFile (cStr fname) r)
        modifyObject r (fun f => f.addLinkName fname)
        (Prog.fail status : Proc ZenFS Unit)
      | .ok () =>
        Prog.update (fun fs => fs.unlinked r fname)
        if 0 < f.getNrLinks then pure ()
        else
          modifyObject r (fun f => { f with isDeleted := true })
          Prog.update (fun fs => fs.dropUnowned r)) (fun result fs' => Dirty fs' ∨ result = .ok () ∧
      Unlinked fs fs' r fname ∧ L.tells fs' (c.remove (fs.objects r).fileId fname)) (erased fs r fname) := by
  have links : (∃ m : Name, (erased fs r fname).files[m]? = some r) ↔ 0 < f.getNrLinks := by
    rw [← object, erased_object]
    exact erased_links live held
  have writes := writes_deletion live held
  rw [object] at writes
  rw [Ledger.Under, wp_bind, wp_attempt]
  refine L.persist (L.quiet (erased_quiet fs r fname) tells) writes allows ?_ ?_
  · intro result fs' gone
    cases result with
    | error status =>
      simp only [onOk_ok, wp_bind, wp_update, modifyObject, wp_fail]
      exact ⟨L.given_up (gone.same rfl), L.given_up (gone.same rfl), Or.inl (gone.same rfl)⟩
    | ok _ =>
      have unlinks : (Prog.update (fun fs => fs.unlinked r fname) : Proc ZenFS Unit).Keeps Grows :=
        Grows.covers.update (fun _ => rfl) (fun _ => rfl)
      refine wp_mono (fun _ _ still => Or.inl still) (gone.run (unlinks.bind (fun _ => ?_)))
      split
      · trivial
      · exact (Grows.covers.modifyObject r _).bind (fun _ =>
          Grows.covers.update (fun fs => dropUnowned_files fs r) (fun fs => dropUnowned_history fs r))
  · intro calls told
    have state : (recorded (erased fs r fname) (encodeFileDeletionTo f fname) calls).unlinked r fname =
        deletion fs r fname calls := by rw [deletion, object]
    have journal : L.tells (deletion fs r fname calls) (c.remove (fs.objects r).fileId fname) := by
      rw [← state]
      exact L.quiet (unlinked_quiet _ r fname) told
    have here : L.Seen (deletion fs r fname calls) := L.stands journal
    simp only [onOk_ok, wp_bind, wp_update, modifyObject, state]
    refine ⟨here, ?_⟩
    split
    · rename_i left
      exact Or.inr ⟨rfl, unlinked_deletion calls (links.mpr left), journal⟩
    · rename_i last
      have final : L.tells (discarded (deletion fs r fname calls) r) _ := L.quiet (discarded_frame _ r).quiet journal
      simp only [wp_bind, wp_update, onOk_ok]
      exact ⟨here, L.stands final, Or.inr ⟨trivial,
        unlinked_discarded calls (fun m found => last (links.mp ⟨m, found⟩)), final⟩⟩

theorem under_deleteBound (live : Live fs c) (tells : L.tells fs c) (held : fs.files[fname]? = some r)
    (allows : L.allows c (.deletion (fs.objects r).fileId fname)) (same : formatPathLexically fname = fname)
    (format : formatPathLexically path = fname) :
    L.Under (deleteFileNoLock path) (fun result fs' => Dirty fs' ∨ result = .ok () ∧
      Unlinked fs fs' r fname ∧ L.tells fs' (c.remove (fs.objects r).fileId fname)) fs := by
  have here : L.Seen fs := L.stands tells
  have member : fname ∈ (fs.objects r).linkFiles := (live.member_iff held).mpr held
  have found : fs.files[formatPathLexically fname]? = some r := by rw [same, held]
  have record := under_deleteRecord live tells held allows (erased_object fs r fname)
  simp only [deleteFileNoLock, getFileNoLock, object, format, wp_bind, wp_read, wp_update, onOk_ok,
    found, eraseFile_own (Or.inl held), ZoneFile.removeLinkName, member, if_true]
  simp only [Ledger.Under, wp_bind] at record
  exact ⟨here, here, here, here, record⟩

variable (free : ∀ c e, L.allows c e)

include free

theorem under_deleteFileNoLock (tracks : L.Tracks fs) (settled : Settled fs path) :
    L.Under (deleteFileNoLock path) (fun result fs' => Dirty fs' ∨
      L.Tracks fs' ∧ (result = .ok () → Removed fs fs' (formatPathLexically path))) fs := by
  have here := tracks.seen
  cases found : fs.files[formatPathLexically (formatPathLexically path)]? with
  | none =>
    have asked : L.Tracks { fs with asked := fs.asked + 1 } :=
      tracks.congr (fun _ => rfl) (fun _ _ _ => rfl) (fun _ => rfl) rfl rfl
    have removed : Removed fs { fs with asked := fs.asked + 1 } (formatPathLexically path) :=
      ⟨fun _ _ => rfl, fun present => absurd found present, fun n r held => Or.inl ⟨n, held⟩, rfl⟩
    simp only [deleteFileNoLock, getFileNoLock, target, ask, wp_bind, wp_read, wp_act, onOk_ok, found]
    refine ⟨here, here, ?_⟩
    cases (fs.answers fs.asked).status with
    | none => exact Or.inr ⟨asked, fun _ => removed⟩
    | some status => exact Or.inr ⟨asked, fun impossible => by cases impossible⟩
  | some r =>
    rcases settled with same | unbound
    · obtain ⟨c, live, tells⟩ := tracks
      rw [same] at found
      refine wp_mono ?_ (under_deleteBound live tells found (free _ _) same rfl)
      rintro result fs' (dirty | ⟨rfl, unlinked, told⟩)
      · exact Or.inl dirty
      · exact Or.inr ⟨⟨_, live.remove found unlinked, told⟩, fun _ => unlinked.removed live found⟩
    · have missing : formatPathLexically path ∉ (fs.objects r).linkFiles := by
        intro member
        obtain ⟨c, live, _⟩ := tracks
        have held := (live.member_iff found).mp member
        rw [unbound] at held
        cases held
      simp only [deleteFileNoLock, getFileNoLock, object, wp_bind, wp_read, wp_update, onOk_ok,
        found, eraseFile_own (Or.inr unbound), ZoneFile.removeLinkName, missing, if_false, wp_fail]
      refine ⟨here, here, here, Or.inr ⟨tracks.congr ?_ (fun _ _ _ => rfl) (fun _ => rfl) rfl rfl,
        fun impossible => by cases impossible⟩⟩
      intro m
      rw [erase_lookup]
      split
      · rename_i same
        rw [same, unbound]
      · rfl

theorem keeping_deleteFile (tracks : L.Tracks fs) (settled : Settled fs path) : L.Keeping (deleteFile path) fs := by
  have deleted : L.Keeping (deleteFileNoLock path) fs := by
    refine wp_mono ?_ (under_deleteFileNoLock free tracks settled)
    rintro result fs' (dirty | ⟨kept, _⟩)
    · exact Or.inl dirty
    · exact Or.inr kept
  exact deleted.bind (fun _ _ kept => keeping_resetUnusedIOZones kept) (fun _ => Grows.covers.resetUnusedIOZones)

end

end ZenFSProof
