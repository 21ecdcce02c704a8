import ZonedStorage.Journal.Reproduces
import ZonedStorage.Names.Calls

namespace ZenFSProof

open HardLinks Resumption Resumption.Prog ZenFSModel ZenFSModel.ZenFS Function

/-- No name in the map has a NUL byte. -/
def NameState.Whole (s : NameState) : Prop := ∀ n r, s.table.lookup n = some r → 0 ∉ n

namespace NameState.Whole

variable {s : NameState} {n : Name}

theorem unlink (whole : s.Whole) (r : Ref) (n : Name) : (s.unlink r n).Whole := by
  intro m q held
  by_cases same : m = n
  · subst same
    rw [NameState.unlink, Table.unlink_lookup_self] at held
    cases held
  · rw [NameState.unlink, Table.unlink_lookup_other same] at held
    exact whole m q held

theorem link (whole : s.Whole) (r : Ref) (named : 0 ∉ n) : (s.link r n).Whole := by
  intro m q held
  by_cases same : m = n
  · rw [same]
    exact named
  · rw [NameState.link, Table.link_lookup_other same] at held
    exact whole m q held

theorem discard (whole : s.Whole) (r : Ref) : (s.discard r).Whole := by
  intro m q held
  rw [discard_table] at held
  exact whole m q held

end NameState.Whole

/-- Names, links, ids and counters fit together for all files that have a name or a writer, and no name has a
    NUL byte. -/
structure Sound (fs : ZenFS) : Prop extends WellNamed (nameState fs) (nameState fs).Owned where
  whole : (nameState fs).Whole

section

variable {fs fs' : ZenFS} {r q : Ref} {n m : Name}

theorem WellNamed.sound {alive : Ref → Prop} (well : WellNamed (nameState fs') alive) (whole : (nameState fs').Whole)
    (handles : ∀ r, fs'.handles r ≠ 0 → alive r) : Sound fs' := by
  refine ⟨well.shrink ?_, whole⟩
  rintro r (⟨n, held⟩ | writer)
  · exact well.alive_of held
  · exact handles r writer

theorem WellNamed.sound_after {s : NameState} (well : WellNamed s (nameState fs).Owned) (whole : s.Whole)
    (names : nameState fs' = s) (handles : s.handles = fs.handles) : Sound fs' := by
  rw [← names] at well whole handles
  refine well.sound whole (fun r writer => Or.inr ?_)
  have same : fs'.handles = fs.handles := handles
  rw [same] at writer
  exact writer

theorem Sound.of_names (sound : Sound fs) (names : nameState fs' = nameState fs) : Sound fs' :=
  sound.toWellNamed.sound_after sound.whole names rfl

theorem Sound.quiet (sound : Sound fs) (quiet : Unnoted fs fs') : Sound fs' := sound.of_names quiet.1

variable {result : Except Status Unit}

theorem DeleteOutcome.sound (sound : Sound fs) (held : fs.files[n]? = some r)
    (deleted : DeleteOutcome fs r n result fs') : Sound fs' := by
  have gone := sound.whole.unlink r n
  cases deleted with
  | failed names noted =>
    have named := sound.whole n r held
    exact (sound.relink held).sound_after (gone.link r named) (names named) rfl
  | done names noted =>
    refine ((sound.unlink held).discard (sound.alive_of held)).sound_after (gone.discard r) names ?_
    unfold NameState.discard
    split <;> rfl

theorem LinkOutcome.sound (sound : Sound fs) (held : fs.files[m]? = some r)
    (free : fs.files[n]? = none) (named : 0 ∉ n) (linked : LinkOutcome fs r n result fs') : Sound fs' := by
  have well := sound.link free (sound.alive_of held) (sound.kept held)
  have whole := sound.whole.link r named
  cases linked with
  | failed names noted => exact (well.unlink Table.link_lookup_self).sound_after (whole.unlink r n) names rfl
  | done names noted => exact well.sound_after whole names rfl

theorem MoveOutcome.sound (sound : Sound fs) (held : fs.files[n]? = some r)
    (free : fs.files[m]? = none) (named : 0 ∉ m) (move : MoveOutcome fs r n m result fs') : Sound fs' := by
  have whole := (sound.whole.unlink r n).link r named
  cases move with
  | failed names noted =>
    exact (sound.move_back held free).sound_after ((whole.unlink r m).link r (sound.whole n r held)) names rfl
  | done names noted => exact (sound.move held free).sound_after whole names rfl

theorem RenameOutcome.sound (sound : Sound fs) (held : fs.files[n]? = some r) (named : 0 ∉ m)
    (renamed : RenameOutcome fs r n m result fs') : Sound fs' := by
  cases renamed with
  | moved free move => exact move.sound sound held free named
  | refused target deleted => exact deleted.sound sound target
  | lost same deleted =>
    rw [same] at held
    exact deleted.sound sound held
  | replaced target different deleted move =>
    obtain ⟨held₁, free₁, _⟩ := deleted.still sound.toWellNamed held target different
    exact move.sound (deleted.sound sound target) held₁ free₁ named

theorem CreateOutcome.sound {result : Except Status Nat} (sound : Sound fs) (more : fs.nextFileId + 1 < 2 ^ 64)
    (free : fs.files[n]? = none) (named : 0 ∉ n) (create : CreateOutcome fs n result fs') : Sound fs' := by
  cases create with
  | failed names noted => exact (sound.draft more n).sound_after sound.whole names rfl
  | done names noted handed =>
    have well := (sound.create more).link free (Or.inr rfl) (update_self ..)
    have opened := well.opened fs.nextRef
    have whole : (((nameState fs).create.link (nameState fs).nextRef n).opened fs.nextRef).Whole :=
      NameState.Whole.link (s := (nameState fs).create) sound.whole fs.nextRef named
    have handles : fs'.handles = update fs.handles fs.nextRef (fs.handles fs.nextRef + 1) :=
      congrArg NameState.handles names
    change nameState fs' = ((nameState fs).create.link (nameState fs).nextRef n).opened fs.nextRef at names
    rw [← names] at opened whole
    refine opened.sound whole (fun r writer => ?_)
    rw [handles] at writer
    by_cases new : r = fs.nextRef
    · exact Or.inr new
    · rw [update_of_ne new] at writer
      exact Or.inl (Or.inr writer)

theorem OpenOutcome.sound {result : Except Status Nat} {reopen : Bool} (sound : Sound fs)
    (more : fs.nextFileId + 1 < 2 ^ 64) (named : 0 ∉ n) (opened : OpenOutcome fs n reopen result fs') : Sound fs' := by
  have after : ∀ {q : Ref} {fs₁ : ZenFS}, fs.files[n]? = some q → DeleteOutcome fs q n (.ok ()) fs₁ →
      Sound fs₁ ∧ fs₁.nextFileId + 1 < 2 ^ 64 ∧ fs₁.files[n]? = none := by
    intro q fs₁ held deleted
    have ids : fs₁.nextFileId = fs.nextFileId := by
      have same := congrArg NameState.nextFileId deleted.names_done
      refine same.trans ?_
      unfold NameState.discard
      split <;> rfl
    refine ⟨deleted.sound sound held, by rw [ids]; exact more, files_none deleted.names_done ?_⟩
    rw [discard_table, NameState.unlink, Table.unlink_lookup_self]
  cases opened with
  | reopened held again names history handed =>
    rename_i r writer
    have well := WellNamed.opened sound.toWellNamed r
    have whole : ((nameState fs).opened r).Whole := sound.whole
    have handles : fs'.handles = update fs.handles r (fs.handles r + 1) := congrArg NameState.handles names
    rw [← names] at well whole
    refine well.sound whole (fun q writer => ?_)
    rw [handles] at writer
    by_cases mine : q = r
    · rw [mine]
      exact sound.alive_of held
    · rw [update_of_ne mine] at writer
      exact Or.inr writer
  | created free create => exact create.sound sound more free named
  | refused held fresh deleted => exact deleted.sound sound held
  | unrecorded held fresh deleted create =>
    obtain ⟨sound₁, more₁, free₁⟩ := after held deleted
    exact create.sound sound₁ more₁ free₁ named
  | replaced held fresh deleted create quiet writers value =>
    obtain ⟨sound₁, more₁, free₁⟩ := after held deleted
    exact (create.sound sound₁ more₁ free₁ named).quiet quiet

end

abbrev KeepsSound {α : Type} (p : Proc ZenFS α) (fs : ZenFS) : Prop := IfDone p (fun _ fs' => Sound fs') fs

section

variable {fs : ZenFS}

variable {α : Type} {p : Proc ZenFS α}

theorem KeepsSound.of_quiet (keeps : p.Keeps Unnoted) (sound : Sound fs) : KeepsSound p fs := by
  have moves := keeps.wp_of Unnoted.refl (fun _ _ _ => Unnoted.trans) fs
  refine wp_mono ?_ (wp_weaken (fun _ _ => trivial) id moves)
  exact fun _ fs' quiet => sound.quiet quiet

theorem KeepsSound.bind {β : Type} {k : α → Proc ZenFS β} (first : KeepsSound p fs)
    (next : ∀ value fs', Sound fs' → KeepsSound (k value) fs') : KeepsSound (p >>= k) fs := by
  refine (wp_bind _ _ _ _).mpr (wp_mono ?_ first)
  intro result fs' sound
  cases result with
  | error status => exact sound
  | ok value => exact next value fs' sound

theorem KeepsSound.attempt (holds : KeepsSound p fs) : KeepsSound p.attempt fs :=
  (wp_attempt _ _ _).mpr holds

theorem keepsSound_reset (sound : Sound fs) : KeepsSound resetUnusedIOZones fs := .of_quiet (Unnoted.onZbd _) sound

theorem keepsSound_target (sound : Sound fs) : KeepsSound target fs := .of_quiet Unnoted.target sound

theorem keepsSound_deleteFileNoLock (sound : Sound fs) {path : Name} (normal : Normal path) :
    KeepsSound (deleteFileNoLock path) fs := by
  cases held : fs.files[formatPathLexically path]? with
  | none =>
    unfold Normal at normal
    simp only [deleteFileNoLock, getFileNoLock, normal, held, wp_bind, wp_read, onOk_ok, true_and]
    exact keepsSound_target sound
  | some r =>
    have outcome := ensures_deleteFileNoLock rfl normal held (sound.listed held)
    refine wp_mono ?_ (wp_weaken (fun _ _ => trivial) False.elim outcome)
    exact fun result fs' deleted => deleted.sound sound held

theorem keepsSound_linkFile (sound : Sound fs) {file link : Name} (source : Normal file) (dest : Normal link)
    (named : 0 ∉ formatPathLexically link) : KeepsSound (linkFile file link) fs := by
  cases free : fs.files[formatPathLexically link]? with
  | some q =>
    unfold Normal at dest
    simp only [linkFile, getFileNoLock, dest, free, wp_bind, wp_read, onOk_ok, Option.isSome_some, if_true, wp_fail,
      true_and]
    exact sound
  | none =>
    cases held : fs.files[formatPathLexically file]? with
    | none =>
      unfold Normal at source dest
      simp only [linkFile, getFileNoLock, source, dest, free, held, wp_bind, wp_read, onOk_ok, Option.isSome_none,
        Bool.false_eq_true, if_false, true_and]
      exact keepsSound_target sound
    | some r =>
      have outcome := ensures_linkFile rfl source rfl dest held free (sound.kept held)
      refine wp_mono ?_ (wp_weaken (fun _ _ => trivial) False.elim outcome)
      exact fun result fs' linked => linked.sound sound held free named

theorem keepsSound_openWritableFile (sound : Sound fs) {filename : Name} (normal : Normal filename)
    (named : 0 ∉ formatPathLexically filename) (more : fs.nextFileId + 1 < 2 ^ 64) (useDirectWrites reopen : Bool) :
    KeepsSound (openWritableFile filename useDirectWrites reopen) fs := by
  by_cases unlocked : reopen = true → ∀ r, fs.files[formatPathLexically filename]? = some r →
      (fs.objects r).openForWr = false
  · have outcome := ensures_openWritableFile sound.toWellNamed normal named useDirectWrites reopen unlocked
    refine wp_mono ?_ (wp_weaken (fun _ _ => trivial) False.elim outcome)
    exact fun result fs' opened => opened.sound sound more named
  · obtain ⟨rfl, locked⟩ := Classical.not_imp.mp unlocked
    simp only [not_forall] at locked
    obtain ⟨r, held, locked⟩ := locked
    have taken : (fs.objects r).openForWr = true := by simpa using locked
    unfold Normal at normal
    simp only [openWritableFile, getFileNoLock, normal, held, acquireWRLock, taken, wp_bind, wp_read, wp_await, onOk_ok,
      if_true, true_and]

end

theorem normal_of_absolute {path : Name} (absolute : Path.isAbsolute path = true) : Normal path :=
  formatPathLexically_absolute absolute

theorem keepsSound_renameParts : RenameParts (fun p => ∀ fs, Sound fs → KeepsSound p fs) where
  done _ sound := sound
  fail _ _ sound := sound
  read _ _ sound := ⟨trivial, sound⟩
  attempt keeps fs sound := (keeps fs sound).attempt
  bind first next fs sound := (first fs sound).bind next
  target _ := keepsSound_target

theorem keepsSound_renameFileNoLock (depth : Nat) {fs : ZenFS} {src dst : Name} (sound : Sound fs)
    (source : Normal src) (dest : Normal dst) (from_named : 0 ∉ formatPathLexically src)
    (to_named : 0 ∉ formatPathLexically dst) : KeepsSound (renameFileNoLock depth src dst) fs := by
  induction depth generalizing fs src dst with
  | zero => trivial
  | succ depth ih =>
    cases held : fs.files[formatPathLexically src]? with
    | some r =>
      have outcome := ensures_renameFileNoLock sound.toWellNamed depth source dest held
      refine wp_mono ?_ (wp_weaken (fun _ _ => trivial) False.elim outcome)
      exact fun result fs' renamed => renamed.sound sound held to_named
    | none =>
      unfold Normal at source
      simp only [renameFileNoLock, getFileNoLock, source, held, wp_bind, wp_read, onOk_ok, true_and, renameAuxPathNoLock]
      have child (path name) : Normal (Path.append (formatPathLexically path) name) :=
        normal_of_absolute (append_isAbsolute (formatPathLexically_isAbsolute path) name)
      refine wp_mono ?_ (keepsSound_target sound)
      rintro (status | _) fs' sound'
      · exact sound'
      · -- The children are names of the map, so the rename of each of them has paths without a NUL byte.
        refine keepsSound_renameParts.renameChildrenNoLock (fun name among _ sound => ?_)
          (fun name among _ sound => ?_) fs' sound'
        · have named := nul_notMem_children sound'.whole among
          exact ih sound (child src name) (child dst name) (nul_notMem_child from_named named)
            (nul_notMem_child to_named named)
        · have named := nul_notMem_children sound'.whole among
          exact ih sound (child dst name) (child src name) (nul_notMem_child to_named named)
            (nul_notMem_child from_named named)

end ZenFSProof
