import Mathlib.Data.List.Forall2
import ZonedStorage.Names.Sound
import ZonedStorage.Namespace.MkFS

namespace ZenFSProof

open HardLinks Resumption.Prog ZenFSModel ZenFSModel.ZenFS ZenFSModel.ZenFSTag List NameState

section

def newEvents (fs fs' : ZenFS) : List PersistEvent := fs'.persists.take (fs'.persists.length - fs.persists.length)

def PersistFailed (fs fs' : ZenFS) : Prop := ∃ event ∈ newEvents fs fs', event.outcome = .failed

/-- The record of a file, as a create, a link or a rename writes it, has not been persisted. -/
def UpdateFailed (fs fs' : ZenFS) : Prop :=
  ∃ event ∈ newEvents fs fs', event.outcome = .failed ∧ recordTag event.record = some kFileUpdate.code

def Ended (fs fs' : ZenFS) (story : List (ZenFSTag × Bool)) : Prop :=
  List.Forall₂ (fun (event : PersistEvent) entry => recordTag event.record = some entry.1.code ∧
    (event.outcome = .failed ↔ entry.2 = false)) (newEvents fs fs') story ∧
  fs'.persists = newEvents fs fs' ++ fs.persists

variable {fs fs₁ fs' : ZenFS} {story : List (ZenFSTag × Bool)} {tag : ZenFSTag} {ok : Bool}

theorem newEvents_eq {events : List PersistEvent} (added : fs'.persists = events ++ fs.persists) :
    newEvents fs fs' = events := by
  rw [newEvents, added, length_append, Nat.add_sub_cancel, take_left]

theorem Ended.none (same : fs'.persists = fs.persists) : Ended fs fs' [] := by
  have empty : newEvents fs fs' = [] := newEvents_eq same
  rw [Ended, empty]
  exact ⟨.nil, same⟩

theorem Ended.next (ended : Ended fs fs₁ story) (noted : Noted fs₁ fs' tag ok) : Ended fs fs' ((tag, ok) :: story) := by
  obtain ⟨event, added, tagged, failed⟩ := noted
  obtain ⟨matching, earlier⟩ := ended
  have whole : fs'.persists = (event :: newEvents fs fs₁) ++ fs.persists := by
    rw [added, cons_append, ← earlier]
  have events := newEvents_eq whole
  rw [Ended, events]
  exact ⟨.cons ⟨tagged, failed⟩ matching, whole⟩

theorem Ended.one (noted : Noted fs fs' tag ok) : Ended fs fs' [(tag, ok)] := (Ended.none rfl).next noted

theorem Ended.quiet (ended : Ended fs fs₁ story) (same : fs'.persists = fs₁.persists) : Ended fs fs' story := by
  have events : newEvents fs fs' = newEvents fs fs₁ := by rw [newEvents, newEvents, same]
  rw [Ended, events, same]
  exact ended

theorem forall₂_mem_left {α β : Type} {R : α → β → Prop} {l : List α} {m : List β} (related : List.Forall₂ R l m)
    {a : α}
    (member : a ∈ l) : ∃ b ∈ m, R a b := by
  induction related with
  | nil => cases member
  | cons here _ ih =>
    rcases mem_cons.mp member with rfl | member
    · exact ⟨_, mem_cons_self, here⟩
    · obtain ⟨b, inside, holds⟩ := ih member
      exact ⟨b, mem_cons_of_mem _ inside, holds⟩

theorem code_injective {tag tag' : ZenFSTag} (same : tag.code = tag'.code) : tag = tag' := by
  cases tag <;> cases tag' <;> first | rfl | cases same

theorem Ended.persistFailed (ended : Ended fs fs' story) (failed : PersistFailed fs fs') : ∃ tag,
    (tag, false) ∈ story := by
  obtain ⟨event, member, outcome⟩ := failed
  obtain ⟨⟨tag, ok⟩, inside, _, ends⟩ := forall₂_mem_left ended.1 member
  have wrong : ok = false := ends.mp outcome
  rw [wrong] at inside
  exact ⟨tag, inside⟩

theorem Ended.persistFailed_of (ended : Ended fs fs' story) (failed : (tag, false) ∈ story) : PersistFailed fs fs' := by
  obtain ⟨event, member, _, ends⟩ := forall₂_mem_left ended.1.flip failed
  exact ⟨event, member, ends.mpr rfl⟩

theorem Ended.updateFailed (ended : Ended fs fs' story) (failed : UpdateFailed fs fs') :
    (kFileUpdate, false) ∈ story := by
  obtain ⟨event, member, outcome, tagged⟩ := failed
  obtain ⟨⟨tag, ok⟩, inside, other, ends⟩ := forall₂_mem_left ended.1 member
  have wrong : ok = false := ends.mp outcome
  rw [tagged] at other
  have same := code_injective (Option.some.inj other)
  change kFileUpdate = tag at same
  rw [wrong, ← same] at inside
  exact inside

theorem Ended.updateFailed_of (ended : Ended fs fs' story) (failed : (kFileUpdate, false) ∈ story) :
    UpdateFailed fs fs' := by
  obtain ⟨event, member, tagged, ends⟩ := forall₂_mem_left ended.1.flip failed
  exact ⟨event, member, ends.mpr rfl, tagged⟩

theorem UpdateFailed.persistFailed (failed : UpdateFailed fs fs') : PersistFailed fs fs' := by
  obtain ⟨event, member, outcome, _⟩ := failed
  exact ⟨event, member, outcome⟩

end

inductive NamespaceCall where
  | renameFile (src dst : Name)
  | linkFile (file link : Name)
  | deleteFile (path : Name)
  | openWritableFile (filename : Name) (useDirectWrites reopen : Bool)

namespace NamespaceCall

def program (depth : Nat) : NamespaceCall → Proc ZenFS (Option Nat)
  | renameFile src dst => do
    ZenFS.renameFile depth src dst
    pure none
  | linkFile file link => do
    ZenFS.linkFile file link
    pure none
  | deleteFile path => do
    ZenFS.deleteFile path
    pure none
  | openWritableFile filename useDirectWrites reopen => do
    let writer ← ZenFS.openWritableFile filename useDirectWrites reopen
    pure (some writer)

/-- The paths are settled, the file the call is about is one of ZenFS, and its lock is free. A name that a
    call deletes or creates has no NUL byte. -/
def Ready (fs : ZenFS) : NamespaceCall → Prop
  | renameFile src dst =>
    Normal src ∧ Normal dst ∧ 0 ∉ formatPathLexically dst ∧ fs.files[formatPathLexically src]? ≠ none
  | linkFile file link => Normal file ∧ Normal link ∧ fs.files[formatPathLexically file]? ≠ none
  | deleteFile path => Normal path ∧ 0 ∉ formatPathLexically path ∧ fs.files[formatPathLexically path]? ≠ none
  | openWritableFile filename _ reopen => Normal filename ∧ 0 ∉ formatPathLexically filename ∧ (reopen = true →
      ∀ r, fs.files[formatPathLexically filename]? = some r → (fs.objects r).openForWr = false)

def Effect (fs fs' : ZenFS) (value : Option Nat) : NamespaceCall → Prop
  | renameFile src dst => fs'.files[formatPathLexically dst]? = fs.files[formatPathLexically src]? ∧
    (formatPathLexically src ≠ formatPathLexically dst → fs'.files[formatPathLexically src]? = none)
  | linkFile file link => fs'.files[formatPathLexically link]? = fs.files[formatPathLexically file]?
  | deleteFile path => fs'.files[formatPathLexically path]? = none
  | openWritableFile filename _ _ => ∃ writer, value = some writer ∧
    fs'.files[formatPathLexically filename]? = some (fs'.writers writer).file

/-- A call that a failed persist of a file record takes by surprise: it forgets the failure, or it has
    deleted the old file by then. -/
def Exposed (fs : ZenFS) : NamespaceCall → Prop
  | renameFile _ _ => True
  | linkFile _ _ => True
  | deleteFile _ => False
  | openWritableFile filename _ reopen => fs.files[formatPathLexically filename]? ≠ none ∧ reopen = false

end NamespaceCall

/-- The map, and the link names and the deleted flag of every file, are what they were. -/
structure SameNames (fs fs' : ZenFS) : Prop where
  files : ∀ n : Name, fs'.files[n]? = fs.files[n]?
  links : ∀ r, r < fs.nextRef → ∀ n, n ∈ (fs'.objects r).linkFiles ↔ n ∈ (fs.objects r).linkFiles
  deleted : ∀ r, r < fs.nextRef → (fs'.objects r).isDeleted = (fs.objects r).isDeleted

/-- A call whose persists do not all succeed reports failure and changes nothing, and a call that
    returns OK has had its effect. -/
structure AllOrNothing (call : NamespaceCall) (fs : ZenFS) (result : Except Status (Option Nat)) (fs' : ZenFS) :
    Prop where
  failed : PersistFailed fs fs' → result.isOk = false ∧ SameNames fs fs'
  effect : ∀ value, result = .ok value → call.Effect fs fs' value

section

variable {call : NamespaceCall} {fs fs' : ZenFS} {result : Except Status (Option Nat)} {story : List (ZenFSTag × Bool)}

def Verdict (call : NamespaceCall) (fs : ZenFS) (result : Except Status (Option Nat)) (fs' : ZenFS) : Prop :=
  (¬ (call.Exposed fs ∧ UpdateFailed fs fs') → AllOrNothing call fs result fs') ∧
  (call.Exposed fs → UpdateFailed fs fs' → AllOrNothing call fs result fs' → result.isOk = false ∧
    ∃ src dst, call = .renameFile src dst ∧ fs.files[formatPathLexically dst]? = none)

theorem verdict_fine (ended : Ended fs fs' story) (fine : ∀ tag, (tag, false) ∉ story)
    (effect : ∀ value, result = .ok value → call.Effect fs fs' value) : Verdict call fs result fs' := by
  have none_failed : ¬ PersistFailed fs fs' := by
    intro failed
    obtain ⟨tag, member⟩ := ended.persistFailed failed
    exact fine tag member
  exact ⟨fun _ => ⟨fun failed => absurd failed none_failed, effect⟩,
    fun _ update _ => absurd update.persistFailed none_failed⟩

theorem verdict_refused (error : result.isOk = false) (same : SameNames fs fs')
    (other : call.Exposed fs → ¬ UpdateFailed fs fs') : Verdict call fs result fs' := by
  refine ⟨fun _ => ⟨fun _ => ⟨error, same⟩, ?_⟩, fun exposed update => absurd update (other exposed)⟩
  rintro value rfl
  cases error

theorem verdict_exposed (exposed : call.Exposed fs) (update : UpdateFailed fs fs')
    (breaks : result.isOk = false → SameNames fs fs' →
      ∃ src dst, call = .renameFile src dst ∧ fs.files[formatPathLexically dst]? = none) :
    Verdict call fs result fs' := by
  refine ⟨fun safe => absurd ⟨exposed, update⟩ safe, fun _ _ holds => ?_⟩
  obtain ⟨error, same⟩ := holds.failed update.persistFailed
  exact ⟨error, breaks error same⟩

end

section

variable {fs fs₁ fs' : ZenFS} {alive : Ref → Prop} {r q : Ref} {n m : Name}

theorem sameNames_relinked (well : WellNamed (nameState fs) alive) (held : fs.files[n]? = some r)
    (names : nameState fs' = ((nameState fs).unlink r n).link r n) : SameNames fs fs' where
  files m := by
    have lookup := congrFun (congrArg (fun s => s.table.lookup) names) m
    refine lookup.trans ?_
    exact congrFun (Table.Paired.unlink_link held) m
  links q _ m := by
    rw [links_eq names]
    exact well.paired.unlink_link_mem held q m
  deleted q _ := congrFun (congrArg deleted names) q

theorem sameNames_draft (names : nameState fs' = (nameState fs).draft n) : SameNames fs fs' where
  files m := congrFun (congrArg (fun s => s.table.lookup) names) m
  links q below m := by
    rw [links_eq names]
    exact iff_of_eq (congrArg (m ∈ ·) (Function.update_of_ne (Nat.ne_of_lt below) ..))
  deleted q below := (congrFun (congrArg deleted names) q).trans
    (Function.update_of_ne (Nat.ne_of_lt below) ..)

theorem DeleteOutcome.unbound (deleted : DeleteOutcome fs q m (.ok ()) fs') : fs'.files[m]? = none := by
  refine files_none deleted.names_done ?_
  rw [discard_table, unlink, Table.unlink_lookup_self]

theorem DeleteOutcome.ended {result : Except Status Unit} (deleted : DeleteOutcome fs q m result fs') :
    Ended fs fs' [(kFileDeletion, result.isOk)] := by
  cases deleted with
  | failed names noted => exact .one noted
  | done names noted => exact .one noted

theorem DeleteOutcome.sameNames {status : Status} (well : WellNamed (nameState fs) alive) (held : fs.files[m]? = some q)
    (whole : 0 ∉ m) (deleted : DeleteOutcome fs q m (.error status) fs') : SameNames fs fs' := by
  cases deleted with
  | failed names noted => exact sameNames_relinked well held (names whole)

theorem Unnoted.lookup (quiet : Unnoted fs fs') (n : Name) : fs'.files[n]? = fs.files[n]? :=
  congrFun (congrArg (fun s => s.table.lookup) quiet.1) n

end

section

variable {fs : ZenFS} {alive : Ref → Prop}

theorem verdict_deleteFile (well : WellNamed (nameState fs) alive) {path : Name} (normal : Normal path)
    (whole : 0 ∉ formatPathLexically path) {r : Ref} (held : fs.files[formatPathLexically path]? = some r) (depth : Nat) :
    Ensures ((NamespaceCall.deleteFile path).program depth) (Verdict (.deleteFile path) fs) fs := by
  simp only [NamespaceCall.program, ZenFS.deleteFile, wp_bind]
  refine wp_mono ?_ (ensures_deleteFileNoLock rfl normal held (well.listed held))
  intro result fs₁ deleted
  cases result with
  | error status => exact verdict_refused rfl (deleted.sameNames well held whole) (fun exposed => exposed.elim)
  | ok _ =>
    refine wp_mono ?_ (ensures_resetUnusedIOZones fs₁)
    rintro result fs' ⟨quiet, _⟩
    have gone : fs'.files[formatPathLexically path]? = none := (quiet.lookup _).trans deleted.unbound
    have fine : ∀ tag, (tag, false) ∉ [(kFileDeletion, (Except.ok () : Except Status Unit).isOk)] := by
      intro tag member
      cases mem_singleton.mp member
    cases result with
    | error status => exact verdict_fine (deleted.ended.quiet quiet.2) fine (fun value equal => by cases equal)
    | ok _ => exact verdict_fine (deleted.ended.quiet quiet.2) fine (fun _ _ => gone)

theorem verdict_linkFile (well : WellNamed (nameState fs) alive) {file link : Name} (source : Normal file)
    (dest : Normal link) {r : Ref} (held : fs.files[formatPathLexically file]? = some r) (depth : Nat) :
    Ensures ((NamespaceCall.linkFile file link).program depth) (Verdict (.linkFile file link) fs) fs := by
  cases free : fs.files[formatPathLexically link]? with
  | some q =>
    unfold Normal at dest
    simp only [NamespaceCall.program, ZenFS.linkFile, getFileNoLock, dest, free, wp_bind, wp_read, onOk_ok,
      Option.isSome_some, if_true, wp_fail, onOk_error, true_and]
    exact verdict_fine (.none rfl) (fun _ member => by cases member) (fun value equal => by cases equal)
  | none =>
    simp only [NamespaceCall.program, wp_bind]
    refine wp_mono ?_ (ensures_linkFile rfl source rfl dest held free (well.kept held))
    intro result fs' outcome
    cases outcome with
    | failed names noted =>
      have update := (Ended.one noted).updateFailed_of (by simp)
      exact verdict_exposed trivial update (fun error _ => by cases error)
    | done names noted =>
      have bound : fs'.files[formatPathLexically link]? = some r := files_some names Table.link_lookup_self
      refine verdict_fine (.one noted) (fun tag member => by simp at member) ?_
      intro _ _
      exact bound.trans held.symm

theorem MoveOutcome.ok {r : Ref} {n m : Name} {result : Except Status Unit} {fs' : ZenFS}
    (move : MoveOutcome fs r n m result fs') : result = .ok () := by
  cases move <;> rfl

theorem MoveOutcome.verdict {fs₁ fs₂ fs' : ZenFS} {r : Ref} {src dst : Name} {story : List (ZenFSTag × Bool)}
    {moved result : Except Status Unit} (held : fs.files[formatPathLexically src]? = some r)
    (different : formatPathLexically src ≠ formatPathLexically dst) (earlier : Ended fs fs₁ story)
    (fine : ∀ tag, (tag, false) ∉ story)
    (move : MoveOutcome fs₁ r (formatPathLexically src) (formatPathLexically dst) moved fs₂) (quiet : Unnoted fs₂ fs') :
    Verdict (.renameFile src dst) fs (result.map (fun _ => none)) fs' := by
  cases move with
  | failed names noted =>
    have ended := (earlier.next noted).quiet quiet.2
    refine verdict_exposed trivial (ended.updateFailed_of (by simp)) ?_
    intro _ same
    refine ⟨src, dst, rfl, ?_⟩
    rw [← same.files, quiet.lookup]
    refine files_none names ?_
    simp only [link, unlink]
    rw [Table.link_lookup_other different.symm, Table.unlink_lookup_self]
  | done names noted =>
    have ended := (earlier.next noted).quiet quiet.2
    refine verdict_fine ended ?_ ?_
    · intro tag member
      rcases mem_cons.mp member with equal | member
      · cases equal
      · exact fine tag member
    · intro _ _
      refine ⟨?_, fun _ => ?_⟩
      · rw [quiet.lookup, held]
        exact files_some names Table.link_lookup_self
      · rw [quiet.lookup]
        refine files_none names ?_
        simp only [link, unlink]
        rw [Table.link_lookup_other different, Table.unlink_lookup_self]

theorem verdict_renameFile (well : WellNamed (nameState fs) alive) {src dst : Name} (source : Normal src)
    (dest : Normal dst) (whole : 0 ∉ formatPathLexically dst) {r : Ref}
    (held : fs.files[formatPathLexically src]? = some r) (depth : Nat) :
    Ensures ((NamespaceCall.renameFile src dst).program (depth + 1)) (Verdict (.renameFile src dst) fs) fs := by
  have not_update : ∀ {fs' : ZenFS} {ok : Bool}, Ended fs fs' [(kFileDeletion, ok)] → ¬ UpdateFailed fs fs' := by
    intro fs' ok ended failed
    have member := ended.updateFailed failed
    simp at member
  have finish : ∀ {fs₁ fs₂ : ZenFS} {story : List (ZenFSTag × Bool)} {moved : Except Status Unit},
      formatPathLexically src ≠ formatPathLexically dst → Ended fs fs₁ story → (∀ tag, (tag, false) ∉ story) →
      MoveOutcome fs₁ r (formatPathLexically src) (formatPathLexically dst) moved fs₂ →
      Ensures (resetUnusedIOZones >>= fun _ => pure none) (Verdict (.renameFile src dst) fs) fs₂ := by
    intro fs₁ fs₂ story moved different earlier fine move
    simp only [wp_bind]
    refine wp_mono ?_ (ensures_resetUnusedIOZones fs₂)
    rintro result fs' ⟨quiet, _⟩
    have verdict := @MoveOutcome.verdict fs fs₁ fs₂ fs' r src dst story moved result held different earlier fine move quiet
    cases result with
    | error status => exact verdict
    | ok _ => exact verdict
  simp only [NamespaceCall.program, ZenFS.renameFile, LawfulMonad.bind_assoc, wp_bind]
  refine wp_mono ?_ (ensures_renameFileNoLock well depth source dest held)
  intro result fs₁ outcome
  cases outcome with
  | refused target deleted =>
    exact verdict_refused rfl (deleted.sameNames well target whole) (fun _ => not_update deleted.ended)
  | lost same deleted =>
    refine verdict_fine deleted.ended ?_ (fun value equal => by cases equal)
    intro tag member
    cases mem_singleton.mp member
  | moved free move =>
    have different : formatPathLexically src ≠ formatPathLexically dst := by
      intro same
      rw [same, free] at held
      cases held
    have next := finish different (.none rfl) (fun _ member => by cases member) move
    cases move.ok
    simp only [wp_bind] at next
    exact next
  | replaced target different deleted move =>
    have next := finish different deleted.ended (fun tag member => by cases mem_singleton.mp member) move
    cases move.ok
    simp only [wp_bind] at next
    exact next

theorem verdict_openWritableFile (well : WellNamed (nameState fs) alive) {filename : Name} (normal : Normal filename)
    (whole : 0 ∉ formatPathLexically filename) (useDirectWrites reopen : Bool) (unlocked : reopen = true → ∀ r,
      fs.files[formatPathLexically filename]? = some r → (fs.objects r).openForWr = false) (depth : Nat) :
    Ensures ((NamespaceCall.openWritableFile filename useDirectWrites reopen).program depth)
      (Verdict (.openWritableFile filename useDirectWrites reopen) fs) fs := by
  simp only [NamespaceCall.program, wp_bind]
  refine wp_mono ?_ (ensures_openWritableFile well normal whole useDirectWrites reopen unlocked)
  intro result fs' outcome
  have named : ∀ {fs₁ fs₂ : ZenFS} {writer : Nat}, CreateOutcome fs₁ (formatPathLexically filename) (.ok writer) fs₂ →
      fs₂.files[formatPathLexically filename]? = some (fs₂.writers writer).file := by
    intro fs₁ fs₂ writer create
    cases create with
    | done names noted handed =>
      rw [handed]
      exact files_some names Table.link_lookup_self
  cases outcome with
  | reopened held again names history handed =>
    refine verdict_fine (.none history) (fun _ member => by cases member) ?_
    rintro value ⟨rfl⟩
    refine ⟨_, rfl, ?_⟩
    rw [handed]
    exact files_some names held
  | created free create =>
    cases result with
    | error status =>
      cases create with
      | failed names noted =>
        exact verdict_refused rfl (sameNames_draft names) (fun exposed => absurd free exposed.1)
    | ok writer =>
      have bound := named create
      cases create with
      | done names noted handed =>
        refine verdict_fine (.one noted) (fun tag member => by simp at member) ?_
        rintro value ⟨rfl⟩
        exact ⟨writer, rfl, bound⟩
  | refused held fresh deleted =>
    refine verdict_refused rfl (deleted.sameNames well held whole) (fun _ failed => ?_)
    have member := deleted.ended.updateFailed failed
    simp at member
  | unrecorded held fresh deleted create =>
    cases create with
    | failed names noted =>
      have ended := deleted.ended.next noted
      refine verdict_exposed ⟨by rw [held]; exact Option.some_ne_none _, fresh⟩ (ended.updateFailed_of (by simp)) ?_
      intro _ same
      have gone : fs'.files[formatPathLexically filename]? = none := files_none names deleted.unbound
      rw [same.files, held] at gone
      cases gone
  | replaced held fresh deleted create quiet writers value =>
    have bound := named create
    cases create with
    | done names noted handed =>
      have ended := (deleted.ended.next noted).quiet quiet.2
      have fine : ∀ tag, (tag, false) ∉
          [(kFileUpdate, true), (kFileDeletion, (Except.ok () : Except Status Unit).isOk)] := by
        intro tag member
        simp [Except.isOk, Except.toBool] at member
      cases result with
      | error status => exact verdict_fine ended fine (fun value equal => by cases equal)
      | ok writer =>
        refine verdict_fine ended fine ?_
        rintro other ⟨rfl⟩
        refine ⟨writer, rfl, ?_⟩
        rw [quiet.lookup, writers, bound, value writer rfl]

end

/-- A namespace call whose persists do not all succeed reports failure and changes nothing, and one that
    returns OK has had its effect, unless it is a link, a rename or the replacement of a file and the
    record of the file is what fails. -/
theorem namespace_call_all_or_nothing (fs : ZenFS) (well : WellNamed (nameState fs) (nameState fs).Owned)
    (call : NamespaceCall) (ready : call.Ready fs) (depth : Nat) :
    Ensures (call.program (depth + 1)) (fun result fs' =>
      (¬ (call.Exposed fs ∧ UpdateFailed fs fs') → AllOrNothing call fs result fs') ∧
      (call.Exposed fs → UpdateFailed fs fs' → AllOrNothing call fs result fs' → result.isOk = false ∧
        ∃ src dst, call = .renameFile src dst ∧ fs.files[formatPathLexically dst]? = none)) fs := by
  cases call with
  | renameFile src dst =>
    obtain ⟨source, dest, whole, present⟩ := ready
    obtain ⟨r, held⟩ := Option.ne_none_iff_exists'.mp present
    exact verdict_renameFile well source dest whole held depth
  | linkFile file link =>
    obtain ⟨source, dest, present⟩ := ready
    obtain ⟨r, held⟩ := Option.ne_none_iff_exists'.mp present
    exact verdict_linkFile well source dest held (depth + 1)
  | deleteFile path =>
    obtain ⟨normal, whole, present⟩ := ready
    obtain ⟨r, held⟩ := Option.ne_none_iff_exists'.mp present
    exact verdict_deleteFile well normal whole held (depth + 1)
  | openWritableFile filename useDirectWrites reopen =>
    obtain ⟨normal, whole, unlocked⟩ := ready
    exact verdict_openWritableFile well normal whole useDirectWrites reopen unlocked (depth + 1)

def refusingAfter (count : Nat) : ZenFS :=
  { sampleZenFS with md := { sampleMeta with replies := fun n => ⟨decide (n < count), 1000, false, false⟩ } }

def oneCreated : ZenFS :=
  ((openWritableFile (path "/a") false false).run (refusingAfter 1)).elim sampleZenFS Prod.snd

def linkRefused : ZenFS :=
  (((NamespaceCall.linkFile (path "/a") (path "/b")).program 1).run oneCreated).elim sampleZenFS Prod.snd

/-- The link is taken back, and the call returns OK. -/
theorem refused_link_returns_ok :
    (openWritableFile (path "/a") false false).run (refusingAfter 1) = some (.ok 0, oneCreated) ∧
    (NamespaceCall.linkFile (path "/a") (path "/b")).Ready oneCreated ∧
    ((NamespaceCall.linkFile (path "/a") (path "/b")).program 1).run oneCreated = some (.ok none, linkRefused) ∧
    ¬ AllOrNothing (.linkFile (path "/a") (path "/b")) oneCreated (.ok none) linkRefused := by
  refine ⟨run_eq_some (by decide +kernel), ⟨by decide +kernel, by decide +kernel, by decide +kernel⟩,
    run_eq_some (by decide +kernel), ?_⟩
  intro holds
  have failed : (newEvents oneCreated linkRefused).map PersistEvent.outcome = [.failed] := by decide +kernel
  have member : PersistOutcome.failed ∈ (newEvents oneCreated linkRefused).map PersistEvent.outcome := by
    rw [failed]
    exact mem_singleton.mpr rfl
  obtain ⟨event, inside, outcome⟩ := mem_map.mp member
  cases (holds.failed ⟨event, inside, outcome⟩).1

theorem unowned_empty (r : Ref) : ¬ (nameState sampleZenFS).Owned r := by
  rintro (⟨n, held⟩ | writer)
  · have unbound : sampleZenFS.files[n]? = none := Std.TreeMap.getElem?_emptyc
    change sampleZenFS.files[n]? = some r at held
    rw [unbound] at held
    cases held
  · exact writer rfl

theorem sample_wellNamed : WellNamed (nameState sampleZenFS) (nameState sampleZenFS).Owned where
  paired := ⟨fun held => Or.inl ⟨_, held⟩, fun known => absurd known (unowned_empty _),
    fun known => absurd known (unowned_empty _)⟩
  kept held := absurd (Or.inl ⟨_, held⟩) (unowned_empty _)
  unique known := absurd known (unowned_empty _)
  counted known := absurd known (unowned_empty _)
  bounded known := absurd known (unowned_empty _)

theorem sample_sound : Sound sampleZenFS where
  toWellNamed := sample_wellNamed
  whole _ _ held := absurd (Or.inl ⟨_, held⟩) (unowned_empty _)

theorem oneCreated_sound : Sound oneCreated := by
  have ran : (openWritableFile (path "/a") false false).run (refusingAfter 1) = some (.ok 0, oneCreated) :=
    run_eq_some (by decide +kernel)
  have sound : Sound (refusingAfter 1) := sample_sound.of_names rfl
  exact (wp_partial_iff _ _ _).mp
    (keepsSound_openWritableFile sound (by decide +kernel) (by decide +kernel) (by decide +kernel) false false) _ _ ran

def overwriteRefused : ZenFS :=
  (((NamespaceCall.openWritableFile (path "/a") false false).program 1).run oneCreated).elim sampleZenFS Prod.snd

/-- The device refuses the deletion record of the old file. -/
theorem refused_overwrite_changes_nothing : ∃ status fs',
    ((NamespaceCall.openWritableFile (path "/a") false false).program 1).run oneCreated = some (.error status, fs') ∧
    PersistFailed oneCreated fs' ∧ SameNames oneCreated fs' := by
  have ready : (NamespaceCall.openWritableFile (path "/a") false false).Ready oneCreated :=
    ⟨by decide +kernel, by decide +kernel, fun again => by cases again⟩
  have ensures := namespace_call_all_or_nothing oneCreated oneCreated_sound.toWellNamed _ ready 0
  obtain ⟨result, fs', ran, holds, _⟩ := (wp_total_iff _ _ _).mp ensures
  have state : fs' = overwriteRefused := by
    rw [overwriteRefused, ran]
    rfl
  have events : (newEvents oneCreated overwriteRefused).map (fun event => (event.outcome, recordTag event.record)) =
      [(.failed, some kFileDeletion.code)] := by decide +kernel
  rw [← state] at events
  have only : ∀ event ∈ newEvents oneCreated fs', recordTag event.record = some kFileDeletion.code := by
    intro event inside
    have member := mem_map_of_mem (f := fun event => (event.outcome, recordTag event.record)) inside
    rw [events, mem_singleton] at member
    exact congrArg Prod.snd member
  have failed : PersistFailed oneCreated fs' := by
    have member : (PersistOutcome.failed, some kFileDeletion.code) ∈
        (newEvents oneCreated fs').map (fun event => (event.outcome, recordTag event.record)) := by
      rw [events]
      exact mem_singleton_self _
    obtain ⟨event, inside, ends⟩ := mem_map.mp member
    exact ⟨event, inside, congrArg Prod.fst ends⟩
  have recorded : ¬ UpdateFailed oneCreated fs' := by
    rintro ⟨event, inside, _, tagged⟩
    rw [only event inside] at tagged
    cases tagged
  obtain ⟨error, same⟩ := (holds (fun exposed => recorded exposed.2)).failed failed
  cases result with
  | ok value => cases error
  | error status => exact ⟨status, fs', ran, failed, same⟩

end ZenFSProof
