import ZonedStorage.Names.AllOrNothing
import ZonedStorage.Names.Sound

namespace ZenFSProof

open Resumption Resumption.Prog ZenFSModel ZenFSModel.ZenFS KeepsSound

/-- The map binds a name to a file if and only if the file lists the name, no file lists a name twice,
    ids are distinct, and the counter is above all of them. -/
structure NamesAgree (fs : ZenFS) : Prop where
  paired : ∀ r, (nameState fs).Owned r → ∀ n : Name, fs.files[n]? = some r ↔ n ∈ (fs.objects r).linkFiles
  nodup : ∀ r, (nameState fs).Owned r → (fs.objects r).linkFiles.Nodup
  unique : ∀ {n m : Name} {r q}, fs.files[n]? = some r → fs.files[m]? = some q →
    (fs.objects r).fileId = (fs.objects q).fileId → r = q
  counted : ∀ {n : Name} {r}, fs.files[n]? = some r → (fs.objects r).fileId < fs.nextFileId

variable {fs : ZenFS}

theorem Sound.namesAgree (sound : Sound fs) : NamesAgree fs where
  paired _ known := sound.paired.listed known
  nodup _ known := sound.paired.nodup known
  unique first second := sound.unique (sound.alive_of first) (sound.alive_of second)
  counted held := sound.counted (sound.alive_of held)

/-- An absolute path in normal form, without a NUL byte. -/
structure Clear (path : Name) : Prop where
  canonical : formatPathLexically path = path
  whole : 0 ∉ path

instance (path : Name) : Decidable (Clear path) :=
  decidable_of_iff (formatPathLexically path = path ∧ 0 ∉ path)
    ⟨fun holds => ⟨holds.1, holds.2⟩, fun clear => ⟨clear.1, clear.2⟩⟩

theorem Clear.named {path : Name} (clear : Clear path) : 0 ∉ formatPathLexically path := by
  rw [clear.canonical]
  exact clear.whole

theorem Clear.normal {path : Name} (clear : Clear path) : Normal path := by
  rw [Normal, clear.canonical, clear.canonical]

/-- The paths are clear, and file ids do not run out. -/
def Operation.Canonical (fs : ZenFS) : Operation → Prop
  | create filename _ _ => Clear filename ∧ fs.nextFileId + 1 < 2 ^ 64
  | rename _ src dst => Clear src ∧ Clear dst
  | link file dst => Clear file ∧ Clear dst
  | delete path => Clear path
  | _ => True

theorem Operation.Canonical.regular {op : Operation} (canonical : op.Canonical fs) : op.Regular fs := by
  cases op with
  | create filename useDirectWrites reopen =>
    exact ⟨Or.inl canonical.1.normal, canonical.1.named, canonical.2⟩
  | sync r => trivial
  | rename depth src dst => exact Or.inl canonical.2.normal
  | link file dst => exact Or.inl canonical.2.normal
  | delete path => exact Or.inl canonical.normal
  | replace r newExtents => trivial

section

variable {fs fs' : ZenFS}

theorem keepsSound_syncFileMetadata (sound : Sound fs) (r : Ref) (replace : Bool) :
    KeepsSound (syncFileMetadataNoLock r replace) fs := by
  have persist : ∀ fs', Sound fs' → KeepsSound (do
      let output ← Prog.read (fun fs => fileRecord (fs.objects r) replace)
      persistRecord output
      Prog.update (fun fs => fs.synced r)) fs' := by
    intro fs' sound
    simp only [wp_bind, wp_read, onOk_ok, true_and]
    refine wp_mono ?_ (wp_weaken (fun _ _ => trivial) False.elim (ensures_persistRecord fs' _))
    intro result fs₁ persists
    have sound₁ : Sound fs₁ := sound.of_names persists.names
    cases result with
    | error status => exact sound₁
    | ok _ => exact ⟨trivial, sound₁.quiet ⟨nameState_synced fs₁ r, rfl⟩⟩
  refine bind (.of_quiet (Keeps.ofRead Unnoted.refl _) sound) ?_
  intro f fs' sound
  split
  · refine bind (.of_quiet (Keeps.ofAct (fun fs => ⟨rfl, rfl⟩)) sound) ?_
    exact fun _ fs' sound => sound
  · split
    · refine bind ?_ (fun _ fs' sound => persist fs' sound)
      refine .of_quiet (Unnoted.ask.bind (fun now => Keeps.ofUpdate (fun fs => ?_))) sound
      exact ⟨nameState_setData fs r rfl rfl rfl rfl, rfl⟩
    · exact persist fs' sound

theorem keepsSound_syncFileExtents (sound : Sound fs) (r : Ref) (newExtents : List ZoneExtent) :
    KeepsSound (syncFileExtents r newExtents) fs := by
  have data : ∀ change : ZoneFile → ZoneFile, (∀ f, (change f).linkFiles = f.linkFiles) →
      (∀ f, (change f).isDeleted = f.isDeleted) → (∀ f, (change f).openForWr = f.openForWr) →
      (∀ f, (change f).fileId = f.fileId) → (modifyObject r change).Keeps Unnoted :=
    fun change links deleted locked id => Keeps.ofUpdate (fun fs =>
      ⟨nameState_setData fs r (links _) (deleted _) (locked _) (id _), rfl⟩)
  refine bind (.of_quiet (Keeps.ofRead Unnoted.refl _) sound) ?_
  intro f fs' sound
  refine bind (.of_quiet (data _ (fun _ => rfl) (fun _ => rfl) (fun _ => rfl) (fun _ => rfl)) sound) ?_
  intro _ fs' sound
  refine bind (.of_quiet (data _ (fun _ => rfl) (fun _ => rfl) (fun _ => rfl) (fun _ => rfl)) sound) ?_
  intro _ fs' sound
  refine bind (keepsSound_syncFileMetadata sound r true) ?_
  intro _ fs' sound
  exact .of_quiet (Keeps.ofUpdate Unnoted.refl) sound

theorem Operation.keepsSound (op : Operation) (sound : Sound fs) (canonical : op.Canonical fs) :
    KeepsSound op.program fs := by
  cases op with
  | create filename useDirectWrites reopen =>
    exact (keepsSound_openWritableFile sound canonical.1.normal canonical.1.named canonical.2 useDirectWrites reopen).bind
      (fun _ _ sound => sound)
  | sync r => exact keepsSound_syncFileMetadata sound r false
  | rename depth src dst =>
    exact (keepsSound_renameFileNoLock depth sound canonical.1.normal canonical.2.normal canonical.1.named
      canonical.2.named).bind (fun _ _ sound => keepsSound_reset sound)
  | link file dst => exact keepsSound_linkFile sound canonical.1.normal canonical.2.normal canonical.2.named
  | delete path =>
    exact (keepsSound_deleteFileNoLock sound canonical.normal).bind (fun _ _ sound => keepsSound_reset sound)
  | replace r newExtents => exact keepsSound_syncFileExtents sound r newExtents

theorem Sound.grown {r : Ref} (sound : Sound fs) (grown : Grown fs fs' r) (same : fs'.handles r = fs.handles r) :
    Sound fs' := by
  have fields : ∀ {α : Type} (field : ZoneFile → α), field (fs'.objects r) = field (fs.objects r) →
      ∀ q, field (fs'.objects q) = field (fs.objects q) := by
    intro α field equal q
    by_cases mine : q = r
    · rw [mine]
      exact equal
    · rw [grown.others q mine]
  have handles : fs'.handles = fs.handles := by
    funext q
    by_cases mine : q = r
    · rw [mine]
      exact same
    · exact grown.handles q mine
  have names : nameState fs' = { nameState fs with locked := (nameState fs').locked } := by
    ext1
    · ext1
      · funext n
        exact congrArg (fun files : FileMap => files[n]?) grown.files
      · funext q
        exact fields ZoneFile.linkFiles grown.object.links q
    · funext q
      exact fields ZoneFile.isDeleted grown.object.deleted q
    · rfl
    · funext q
      exact fields ZoneFile.fileId grown.object.id q
    · exact handles
    · exact grown.refs
    · exact grown.ids
  have well : WellNamed { nameState fs with locked := (nameState fs').locked } (nameState fs).Owned :=
    ⟨sound.paired, sound.kept, sound.unique, sound.counted, sound.bounded⟩
  exact well.sound_after sound.whole names rfl

theorem Step.sound (step : Step (fun fs op => op.Canonical fs) fs fs') (sound : Sound fs) : Sound fs' := by
  cases step with
  | grow r writer grown same => exact sound.grown grown same
  | operate op possible canonical result ran =>
    exact (wp_partial_iff _ _ _).mp (op.keepsSound sound canonical) result fs' ran

theorem Run.sound (run : Run (fun fs op => op.Canonical fs) fs fs') (sound : Sound fs) : Sound fs' := by
  induction run with
  | refl => exact sound
  | tail _ step ih => exact step.sound ih

end

theorem Replayed.namesAgree {c : FileCatalog} (replayed : Replayed fs c)
    (unopened : fs.handles = fun _ => 0) : NamesAgree fs := by
  have named : ∀ {r}, (nameState fs).Owned r → ∃ n : Name, fs.files[n]? = some r := by
    rintro r (named | writer)
    · exact named
    · change fs.handles r ≠ 0 at writer
      rw [unopened] at writer
      exact absurd rfl writer
  constructor
  · intro r known n
    obtain ⟨m, held⟩ := named known
    exact (replayed.shows.member_iff replayed.coherent held).symm
  · intro r known
    obtain ⟨m, held⟩ := named known
    have distinct := replayed.coherent.nodup (replayed.shows.name_of held)
    rw [replayed.shows.links held] at distinct
    exact distinct
  · exact fun first second same => replayed.shows.unique first second same
  · exact replayed.counted

/-- The name map and the link lists agree in every state of a run over clear paths, whatever persists fail, and after the
    log of such a run has been replayed. -/
theorem names_and_links_agree {fs₀ fs : ZenFS} (sound : Sound fs₀) (run : Run (fun fs op => op.Canonical fs) fs₀ fs) :
    NamesAgree fs ∧
    ∀ {pos : Nat}, Snapshotted fs₀ pos → (∀ event ∈ fs.persists, event.outcome = .appended) →
      (∀ event ∈ fs.persists, Readable event.record) → Reported fs →
      ∀ {metaReplies : Nat → Reply}, (∀ n, (metaReplies n).ok = true) → ∀ ioReplies maxActive maxOpen,
      Ensures (recoverFrom ⟨fs.metaLog.zone, pos⟩) (fun result fs' => (∃ log, result = .ok log) ∧ NamesAgree fs')
        (fs.restart metaReplies ioReplies maxActive maxOpen) := by
  refine ⟨(run.sound sound).namesAgree, ?_⟩
  intro pos start appended readable reported metaReplies healthy ioReplies maxActive maxOpen
  have regular : Run (fun fs op => op.Regular fs) fs₀ fs := run.mono (fun _ _ canonical => canonical.regular)
  obtain ⟨c, _, journaled⟩ := regular.tracked start appended readable
  refine wp_mono ?_ (ensures_recoverFrom_replayed journaled reported healthy ioReplies maxActive maxOpen)
  rintro result fs' ⟨ok, replayed, unopened⟩
  exact ⟨ok, replayed.namesAgree unopened⟩

def lastFileId : ZenFS := { sampleZenFS with nextFileId := 2 ^ 64 - 1 }

theorem lastFileId_sound : Sound lastFileId where
  paired := sample_wellNamed.paired
  kept := sample_wellNamed.kept
  unique := sample_wellNamed.unique
  counted known := absurd known (unowned_empty _)
  bounded := sample_wellNamed.bounded
  whole := sample_sound.whole

def nulName : Name := path "/a" ++ 0 :: path "b"

def createdUnder (n : Name) (fs : ZenFS) : ZenFS := ((Operation.create n true false).program.run fs).elim fs Prod.snd

theorem createdUnder_sound (sound : Sound fs) {n : Name} (clear : Clear n) (more : fs.nextFileId + 1 < 2 ^ 64) :
    Sound (createdUnder n fs) := by
  unfold createdUnder
  cases ran : (Operation.create n true false).program.run fs with
  | none => exact sound
  | some outcome =>
    exact (wp_partial_iff _ _ _).mp ((Operation.create n true false).keepsSound sound ⟨clear, more⟩) _ _ ran

/-- A file whose name has a NUL byte is in the map under what is before it. The last file id is given away with the
    counter wrapped to zero. -/
theorem created_file_disagrees :
    (Sound sampleZenFS ∧ formatPathLexically nulName = nulName ∧
      (Operation.create nulName true false).program.run sampleZenFS = some (.ok (), createdUnder nulName sampleZenFS) ∧
      ¬ NamesAgree (createdUnder nulName sampleZenFS)) ∧
    (Sound lastFileId ∧ formatPathLexically (path "/a") = path "/a" ∧
      (Operation.create (path "/a") true false).program.run lastFileId =
        some (.ok (), createdUnder (path "/a") lastFileId) ∧
      ¬ NamesAgree (createdUnder (path "/a") lastFileId)) := by
  refine ⟨⟨sample_sound, by decide +kernel, run_eq_some (by decide +kernel), fun agree => ?_⟩,
    ⟨lastFileId_sound, by decide +kernel, run_eq_some (by decide +kernel), fun agree => ?_⟩⟩
  · have held : (createdUnder nulName sampleZenFS).files[path "/a"]? = some 0 ∧
        path "/a" ∉ ((createdUnder nulName sampleZenFS).objects 0).linkFiles := by decide +kernel
    exact held.2 ((agree.paired 0 (Or.inl ⟨_, held.1⟩) _).mp held.1)
  · have held : (createdUnder (path "/a") lastFileId).files[path "/a"]? = some 0 ∧
        ¬ ((createdUnder (path "/a") lastFileId).objects 0).fileId <
          (createdUnder (path "/a") lastFileId).nextFileId := by decide +kernel
    exact held.2 (agree.counted held.1)

def linkedOne : ZenFS := (afterAll createdOne [.link (path "/b") (path "/c")]).getD createdOne

theorem linkedOne_run : Run (fun fs op => op.Canonical fs) sampleZenFS linkedOne := by
  have first : Run (fun fs op => op.Canonical fs) sampleZenFS createdOne :=
    .single (createdOne_step ⟨by decide +kernel, by decide⟩)
  exact first.tail (afterAll_step (.link (path "/b") (path "/c")) trivial ⟨by decide +kernel, by decide +kernel⟩
    (some_getD (by decide +kernel) createdOne))

theorem linkedOne_agrees : linkedOne.files[path "/c"]? = linkedOne.files[path "/b"]? ∧ NamesAgree linkedOne ∧
    Ensures (recoverFrom ⟨linkedOne.metaLog.zone, 1024⟩) (fun result fs' => (∃ log, result = .ok log) ∧ NamesAgree fs')
      (linkedOne.restart alwaysOk alwaysOk 0 0) := by
  obtain ⟨agree, recovered⟩ := names_and_links_agree sample_sound linkedOne_run
  exact ⟨by decide +kernel, agree, recovered sample_snapshotted (by decide +kernel) (by decide +kernel)
    (by decide +kernel) (fun _ => rfl) alwaysOk 0 0⟩

end ZenFSProof
