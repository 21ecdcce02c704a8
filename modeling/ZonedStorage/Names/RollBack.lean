import ZonedStorage.Names.Subtree

namespace ZenFSProof

open Resumption.Prog ZenFSModel ZenFSModel.ZenFS ZenFSModel.ZenFSTag List

def DeletionEnded (fs fs' : ZenFS) (ok : Bool) : Prop :=
  ∃ event ∈ newEvents fs fs', recordTag event.record = some kFileDeletion.code ∧ (event.outcome = .failed ↔ ok = false)

/-- A rename of a directory that fails leaves the names as they were, unless it says that the rollback has failed too,
    and one that loses the record of a file fails. -/
structure RollsBack (fs : ZenFS) (result : Except Status Unit) (fs' : ZenFS) : Prop where
  restored : result.isOk = false → ¬ RollbackFailed result → SameNames fs fs'
  reported : UpdateFailed fs fs' → result.isOk = false

variable {fs fs' : ZenFS} {source dest : Name} {moved children : List Name} {story : List (ZenFSTag × Bool)}
  {result : Except Status Unit}

theorem Ended.deletionEnded_iff (ended : Ended fs fs' story) (ok : Bool) :
    DeletionEnded fs fs' ok ↔ (kFileDeletion, ok) ∈ story := by
  constructor
  · rintro ⟨event, member, tagged, ends⟩
    obtain ⟨⟨tag, ok'⟩, inside, other, ends'⟩ := forall₂_mem_left ended.1 member
    rw [tagged] at other
    have same : kFileDeletion = tag := code_injective (Option.some.inj other)
    have agreed : ok = ok' := by
      rw [Bool.eq_iff_iff, ← Bool.not_eq_false, ← ends, ends', Bool.not_eq_false]
    rw [same, agreed]
    exact inside
  · intro member
    obtain ⟨event, inside, tagged, ends⟩ := forall₂_mem_left ended.1.flip member
    exact ⟨event, inside, tagged, ends⟩

theorem Stage.sameNames (well : WellNamed (nameState fs) (nameState fs).Owned)
    (stage : Stage fs (nameState fs).Owned source dest moved [] story fs')
    (kept : (kFileDeletion, true) ∉ story) (free : ∀ child ∈ moved, fs.files[below dest child]? = none) :
    SameNames fs fs' := by
  have lookup : (nameState fs').table.lookup = (nameState fs).table.lookup := by
    rw [stage.lookup]
    funext n
    by_cases arrived : n ∈ moved.map (withSeparatorAtEnd dest ++ ·)
    · obtain ⟨child, member, rfl⟩ := mem_map.mp arrived
      have unbound : (nameState fs).table.lookup (withSeparatorAtEnd dest ++ child) = none := free child member
      simp only [placed, arrived, map_nil, not_mem_nil, if_false, if_true, unbound]
    · simp only [placed, arrived, map_nil, not_mem_nil, if_false]
  refine ⟨fun n => congrFun lookup n, fun r _ n => ?_, fun r _ => congrFun (stage.deleted kept) r⟩
  by_cases owned : (nameState fs).Owned r
  · have now := stage.well.paired.listed owned n
    rw [lookup, well.paired.listed owned n] at now
    exact now.symm
  · have links := stage.links r owned
    change (fs'.objects r).linkFiles = (fs.objects r).linkFiles at links
    rw [links]

theorem Renamed.rollsBack_iff (well : WellNamed (nameState fs) (nameState fs).Owned) (recorded : ¬ UpdateFailed fs fs')
    (renamed : Renamed fs (nameState fs).Owned source dest children result fs') :
    RollsBack fs result fs' ↔ RollbackFailed result ∨ ¬ (DeletionEnded fs fs' true ∧ DeletionEnded fs fs' false) := by
  cases renamed with
  | all stage clean =>
    have none_refused : ¬ DeletionEnded fs fs' false :=
      fun refused => clean ((stage.ended.deletionEnded_iff _).mp refused)
    exact ⟨fun _ => Or.inr (fun both => none_refused both.2), fun _ => ⟨nofun, fun lost => absurd lost recorded⟩⟩
  | undone stage refused failed replaced =>
    rw [stage.ended.deletionEnded_iff, stage.ended.deletionEnded_iff]
    obtain ⟨status, rfl⟩ := failed
    constructor
    · intro back
      by_contra! broken
      obtain ⟨_, member, bound⟩ := replaced.mp broken.2.1
      refine bound ?_
      rw [← (back.restored rfl broken.1).files]
      refine (congrFun stage.lookup _).trans ?_
      simp only [placed, map_nil, not_mem_nil, mem_map_of_mem member, if_false, if_true]
    · intro condition
      refine ⟨fun _ undone => ?_, fun lost => absurd lost recorded⟩
      have kept := fun persisted => (condition.resolve_left undone) ⟨persisted, refused⟩
      refine stage.sameNames well kept (fun child member => ?_)
      by_contra bound
      exact kept (replaced.mpr ⟨child, member, bound⟩)

section

variable {now next : ZenFS} {alive : Ref → Prop} {r q : Ref} {n m k : Name} {done rest : List Name}

theorem MoveOutcome.lookup_other (move : MoveOutcome now r n m result next) (first : k ≠ n) (second : k ≠ m) :
    next.files[k]? = now.files[k]? := by
  have linked : ((((nameState now).unlink r n).link r m)).table.lookup k = (nameState now).table.lookup k :=
    (HardLinks.Table.link_lookup_other second).trans (HardLinks.Table.unlink_lookup_other first)
  cases move with
  | done names noted => exact (congrFun (congrArg (fun s => s.table.lookup) names) k).trans linked
  | failed names noted =>
    refine (congrFun (congrArg (fun s => s.table.lookup) names) k).trans ?_
    exact (HardLinks.Table.link_lookup_other first).trans ((HardLinks.Table.unlink_lookup_other second).trans linked)

theorem MoveOutcome.well (well : WellNamed (nameState now) alive) (held : now.files[n]? = some r)
    (free : now.files[m]? = none) (move : MoveOutcome now r n m result next) : WellNamed (nameState next) alive := by
  cases move with
  | done names noted => exact names ▸ well.move held free
  | failed names noted => exact names ▸ well.move_back held free

theorem DeleteOutcome.lookup_other (deleted : DeleteOutcome now q m (.ok ()) next) (other : k ≠ m) :
    next.files[k]? = now.files[k]? := by
  refine (congrFun (congrArg (fun s => s.table.lookup) deleted.names_done) k).trans ?_
  rw [discard_table]
  exact HardLinks.Table.unlink_lookup_other other

/-- The children that are still to be renamed have their names, whatever has become of the others. -/
structure Left (alive : Ref → Prop) (source : Name) (rest : List Name) (now : ZenFS) : Prop where
  well : WellNamed (nameState now) alive
  files : Files now source rest

theorem Left.ensures_child {child : Name} (left : Left alive source (child :: rest) now) (fresh : child ∉ rest)
    (apart : SideBySide source dest) (depth : Nat) :
    Ensures (renameChildNoLock (renameFileNoLock (depth + 1)) source dest child) (fun result next =>
      result = .ok () ∧ Left alive source rest next ∨ (∃ status, result = .error status) ∧ DeletionEnded now next false)
      now := by
  obtain ⟨settled, r, held⟩ := left.files child mem_cons_self
  have others : ∀ next : ZenFS, (∀ k, k ≠ below source child → k ≠ below dest child → next.files[k]? = now.files[k]?) →
      Files next source rest := by
    intro next same other later
    obtain ⟨canonical, q, bound⟩ := left.files other (mem_cons_of_mem _ later)
    refine ⟨canonical, q, (same _ (fun equal => ?_) (apart.ne other child)).trans bound⟩
    rw [append_cancel_left equal] at later
    exact fresh later
  refine wp_mono ?_ (ensures_renameChild left.well apart depth settled held)
  intro result next outcome
  cases outcome with
  | moved free move =>
    exact Or.inl ⟨move.ok, move.well left.well held free, others next (fun k => move.lookup_other)⟩
  | refused target deleted =>
    refine Or.inr ⟨⟨_, rfl⟩, (deleted.ended.deletionEnded_iff false).mpr mem_cons_self⟩
  | lost same deleted => exact absurd same (apart.ne child child)
  | replaced target different deleted move =>
    obtain ⟨held₁, free₁, well₁⟩ := deleted.still left.well held target different
    refine Or.inl ⟨move.ok, move.well well₁ held₁ free₁, others next (fun k first second => ?_)⟩
    exact (move.lookup_other first second).trans (deleted.lookup_other second)

theorem DeletionEnded.grows {ok : Bool} (ended : DeletionEnded fs now ok) (grows : Grows now next) :
    DeletionEnded fs next ok := by
  obtain ⟨event, member, rest⟩ := ended
  exact ⟨event, grows.newEvents_later member, rest⟩

/-- A lost record of a child does not stop the loop: it ends with OK, unless a deletion is refused. -/
theorem Left.ifDone_children (left : Left alive source rest now) (once : rest.Nodup) (grown : Grows fs now)
    (apart : SideBySide source dest) (depth : Nat) :
    IfDone (renameChildrenNoLock (renameFileNoLock (depth + 1)) source dest done rest)
      (fun result fs' => result = .ok () ∨ DeletionEnded fs fs' false) now := by
  induction rest generalizing now done with
  | nil => exact Or.inl rfl
  | cons child rest ih =>
    obtain ⟨fresh, once⟩ := nodup_cons.mp once
    have renames := fun src dst => Grows.covers.renameFileNoLock (fun _ => trivial) (depth + 1) src dst
    have moves : IfDone (renameChildNoLock (renameFileNoLock (depth + 1)) source dest child)
        (fun _ next => Grows now next) now :=
      wp_weaken (fun _ _ => trivial) id ((renames _ _).wp_of Grows.refl (fun _ _ _ => Grows.trans) now)
    have steps := left.ensures_child fresh apart depth
    rw [renameChildrenNoLock, IfDone, wp_bind, wp_attempt]
    refine wp_mono ?_ (wp_and moves (wp_weaken (fun _ _ => trivial) False.elim steps))
    rintro result next ⟨grows, ⟨rfl, left'⟩ | ⟨⟨status, rfl⟩, refused⟩⟩
    · exact ih left' once (grown.trans grows)
    · obtain ⟨event, member, tagged⟩ := refused
      have ended : DeletionEnded fs next false := ⟨event, grown.newEvents_earlier member, tagged⟩
      have back : (rollbackAuxDirRenameNoLock (renameFileNoLock (depth + 1)) source dest done >>= fun _ =>
          (.fail status : Proc ZenFS Unit)).Keeps Grows :=
        (Grows.covers.renameParts.rollbackAuxDirRenameNoLock (fun _ _ => renames _ _)).bind (fun _ => trivial)
      refine wp_mono ?_ (wp_weaken (fun _ _ => trivial) id (back.wp_of Grows.refl (fun _ _ _ => Grows.trans) next))
      exact fun _ _ later => Or.inr (ended.grows later)

end

theorem newEvents_asked (fs : ZenFS) (count : Nat) : newEvents fs { fs with asked := count } = [] := by simp [newEvents]

theorem returns_ok_of_lost (sound : Sound fs) (canonical : ∀ n r, fs.files[n]? = some r → Canonical n)
    (apart : SideBySide source dest) (depth : Nat)
    (ran : (renameAuxPathNoLock (renameFileNoLock (depth + 1)) source dest).run fs = some (result, fs'))
    (lost : UpdateFailed fs fs') : result = .ok () ∨ DeletionEnded fs fs' false := by
  have asked := run_target fs
  rw [renameAuxPathNoLock, run_bind, asked] at ran
  cases answer : answered fs with
  | error status =>
    rw [answer] at ran
    cases ran
    obtain ⟨event, member, _⟩ := lost
    rw [newEvents_asked] at member
    cases member
  | ok _ =>
    rw [answer] at ran
    simp only [run_bind, run_read] at ran
    have left : Left (nameState fs).Owned source (fs.getZenFSChildrenNoLock source) { fs with asked := fs.asked + 1 } := by
      refine ⟨sound.toWellNamed, fun child member => ?_⟩
      obtain ⟨r, held⟩ := (mem_children apart canonical).mp member
      exact ⟨canonical _ r held, r, held⟩
    have grown : Grows fs { fs with asked := fs.asked + 1 } := Grows.of_eq rfl
    exact (wp_partial_iff _ _ _).mp
      (left.ifDone_children (children_nodup apart canonical) grown apart depth) result fs' ran

/-- What the device may do to make a rename of a directory end badly: lose the record of a file, or refuse a deletion
    after it has taken another one, which nothing undoes. -/
def Spoilt (fs fs' : ZenFS) : Prop := UpdateFailed fs fs' ∨ DeletionEnded fs fs' true ∧ DeletionEnded fs fs' false

/-- The rename of a directory rolls back unless the device spoils it. If it does, the property is broken, except where
    the call says that the rollback has failed, or fails because a deletion was refused besides a lost record. -/
theorem directory_rename_rolls_back {fs : ZenFS} {source dest : Name} (apart : SideBySide source dest) (depth : Nat)
    (sound : Sound fs) (canonical : ∀ n r, fs.files[n]? = some r → Canonical n) :
    ((renameAuxPathNoLock (renameFileNoLock (depth + 1)) source dest).Avoids (UpdateFailed fs) fs →
      ∃ result fs', (renameAuxPathNoLock (renameFileNoLock (depth + 1)) source dest).run fs = some (result, fs')) ∧
    ∀ result fs', (renameAuxPathNoLock (renameFileNoLock (depth + 1)) source dest).run fs = some (result, fs') →
      (¬ Spoilt fs fs' → RollsBack fs result fs') ∧
      (Spoilt fs fs' → RollsBack fs result fs' → RollbackFailed result ∨
        result.isOk = false ∧ UpdateFailed fs fs' ∧ DeletionEnded fs fs' false) := by
  have faults : Faults fs (UpdateFailed fs) := ⟨id, fun _ => Or.inr sound.whole⟩
  refine ⟨fun recorded => ?_, fun result fs' ran => ?_⟩
  · obtain ⟨result, fs', ran, _⟩ := run_renameAux sound.toWellNamed canonical apart depth faults recorded
    exact ⟨result, fs', ran⟩
  by_cases lost : UpdateFailed fs fs'
  · refine ⟨fun safe => absurd (Or.inl lost) safe, fun _ back => Or.inr ⟨back.reported lost, lost, ?_⟩⟩
    refine (returns_ok_of_lost sound canonical apart depth ran lost).resolve_left ?_
    rintro rfl
    cases back.reported lost
  · have recorded : (renameAuxPathNoLock (renameFileNoLock (depth + 1)) source dest).Avoids (UpdateFailed fs) fs := by
      refine ((grows_renameAux (depth + 1) source dest).mono ?_).avoids ran lost
      rintro mid next grows ⟨event, member, rest⟩
      exact ⟨event, grows.newEvents_later member, rest⟩
    obtain ⟨_, _, ran', outcome⟩ := run_renameAux sound.toWellNamed canonical apart depth faults recorded
    rw [ran] at ran'
    cases ran'
    have rolls : RollsBack fs result fs' ↔
        RollbackFailed result ∨ ¬ (DeletionEnded fs fs' true ∧ DeletionEnded fs fs' false) := by
      rcases outcome with ⟨_, _, rfl⟩ | ⟨_, renamed⟩
      · refine ⟨fun _ => Or.inr ?_, fun _ => ⟨fun _ _ => ⟨fun _ => rfl, fun _ _ _ => Iff.rfl, fun _ _ => rfl⟩, ?_⟩⟩
        · rintro ⟨⟨event, member, _⟩, _⟩
          rw [newEvents_asked] at member
          cases member
        · exact fun lost' => absurd lost' lost
      · exact renamed.rollsBack_iff sound.toWellNamed lost
    refine ⟨fun safe => rolls.mpr (Or.inr (fun both => safe (Or.inr both))), ?_⟩
    exact fun spoilt back => Or.inl ((rolls.mp back).resolve_right (not_not.mpr (spoilt.resolve_left lost)))

/-- The deletion of `/b/f` is refused after `/a/d/g` has been moved, and everything is as it was. -/
theorem refused_deletion_rolls_back :
    (renameAuxPathNoLock (renameFileNoLock 1) (path "/a") (path "/b")).run (nested 4) =
      some (.error (Status.ioError "Failed writing a new superblock"), renamedNested 4) ∧
    (newEvents (nested 4) (renamedNested 4)).map (fun event => (recordTag event.record, event.outcome)) =
      [(some kFileUpdate.code, .appended), (some kFileDeletion.code, .failed), (some kFileUpdate.code, .appended)] ∧
    SameNames (nested 4) (renamedNested 4) := by
  have made : ((createdUnder (path "/a/f") (refusingFrom 4)).nextFileId = 2 ∧
      (createdUnder (path "/a/d/g") (createdUnder (path "/a/f") (refusingFrom 4))).nextFileId = 3) ∧
      (nested 4).files.toList = [(path "/a/d/g", 1), (path "/a/f", 0), (path "/b/f", 2)] ∧
      (newEvents (nested 4) (renamedNested 4)).map (fun event => (recordTag event.record, event.outcome)) =
        [(some kFileUpdate.code, .appended), (some kFileDeletion.code, .failed), (some kFileUpdate.code, .appended)] := by
    decide +kernel
  obtain ⟨ids, files, events⟩ := made
  have ran : (renameAuxPathNoLock (renameFileNoLock 1) (path "/a") (path "/b")).run (nested 4) =
      some (.error (Status.ioError "Failed writing a new superblock"), renamedNested 4) :=
    run_eq_some (by decide +kernel)
  have each : ∀ event ∈ newEvents (nested 4) (renamedNested 4), (recordTag event.record, event.outcome) ∈
      [(some kFileUpdate.code, .appended), (some kFileDeletion.code, .failed), (some kFileUpdate.code, .appended)] := by
    intro event inside
    rw [← events]
    exact mem_map_of_mem inside
  have safe : ¬ Spoilt (nested 4) (renamedNested 4) := by
    rintro (⟨event, inside, failed, tagged⟩ | ⟨⟨event, inside, tagged, ends⟩, _⟩)
    · have member := each event inside
      rw [failed, tagged] at member
      revert member
      decide
    · have member := each event inside
      have taken : event.outcome ≠ .failed := fun failed => by cases ends.mp failed
      rw [tagged] at member
      simp [taken, ZenFSTag.code] at member
  have back := ((directory_rename_rolls_back directories_sideBySide 0 (nested_sound ids) (nested_canonical files)).2
    _ _ ran).1 safe
  exact ⟨ran, events, back.restored rfl (by rintro (equal | equal) <;> cases equal)⟩

def nestedAlone : ZenFS :=
  ((openWritableFile (path "/a/f") false false).run (refusingAfter 1)).elim sampleZenFS Prod.snd

def movedAlone : ZenFS :=
  ((renameAuxPathNoLock (renameFileNoLock 1) (path "/a") (path "/b")).run nestedAlone).elim sampleZenFS Prod.snd

/-- The record of the file in the directory is refused, and the rename of the directory returns OK. -/
theorem refused_child_returns_ok :
    (renameAuxPathNoLock (renameFileNoLock 1) (path "/a") (path "/b")).run nestedAlone = some (.ok (), movedAlone) ∧
    ¬ RollsBack nestedAlone (.ok ()) movedAlone := by
  refine ⟨run_eq_some (by decide +kernel), fun back => ?_⟩
  have refused : (newEvents nestedAlone movedAlone).map (fun event => (event.outcome, recordTag event.record)) =
      [(.failed, some kFileUpdate.code)] := by decide +kernel
  have member : (PersistOutcome.failed, some kFileUpdate.code) ∈
      (newEvents nestedAlone movedAlone).map (fun event => (event.outcome, recordTag event.record)) := by
    rw [refused]
    exact mem_singleton_self _
  obtain ⟨event, inside, ends⟩ := mem_map.mp member
  cases back.reported ⟨event, inside, congrArg Prod.fst ends, congrArg Prod.snd ends⟩

end ZenFSProof
