import ZonedStorage.Coding.Consume
import ZonedStorage.Journal.Create
import ZonedStorage.Journal.Superblocks
import ZonedStorage.Resumption.Mirrors

namespace ZenFSProof

open ByteString Resumption Resumption.Prog ZenFSModel ZenFSModel.ZenFS ZenFSProof.Frame

section

def withMd (fs : ZenFS) (md : Device) : ZenFS := { fs with md := md }

structure Local (change : ZenFS → ZenFS) : Prop where
  frame : ∀ fs, Frame fs (change fs)
  blind : ∀ fs md, change (withMd fs md) = withMd (change fs) md

namespace Local

theorem comp {change next : ZenFS → ZenFS} (first : Local change) (second : Local next) :
    Local (fun fs => next (change fs)) where
  frame fs := (first.frame fs).trans (second.frame _)
  blind fs md := by rw [first.blind, second.blind]

theorem foldl {β : Type} {change : ZenFS → β → ZenFS} (each : ∀ item, Local (fun fs => change fs item))
    (items : List β) : Local (fun fs => items.foldl change fs) := by
  induction items with
  | nil => exact ⟨refl, fun _ _ => rfl⟩
  | cons item rest ih => exact (each item).comp ih

variable (r : Ref)

theorem clearExtents : Local (fun fs => fs.clearExtents r) := ⟨fun fs => clear fs r, fun _ _ => rfl⟩

theorem dropUnowned : Local (fun fs => fs.dropUnowned r) where
  frame fs := drop fs r
  blind fs md := by
    have test : (withMd fs md).bound r = fs.bound r := rfl
    have handles : (withMd fs md).handles r = fs.handles r := rfl
    simp only [ZenFS.dropUnowned, test, handles]
    split <;> rfl

theorem eraseFile (name : Name) : Local (fun fs => fs.eraseFile name r) where
  frame fs := erase fs name r
  blind fs md := by
    have files : (withMd fs md).files = fs.files := rfl
    simp only [ZenFS.eraseFile, files]
    split
    · rfl
    · split
      · rfl
      · exact (dropUnowned _).blind { fs with files := fs.files.erase name } md

theorem insertLinks : Local (fun fs => fs.insertLinks r) := by
  have each : ∀ name, Local (fun fs => fs.insertFile name r) := fun name => ⟨fun fs => ofFiles fs _, fun _ _ => rfl⟩
  exact ⟨fun fs => (foldl each _).frame fs, fun fs md => (foldl each _).blind fs md⟩

theorem mergeUpdate (update : Ref) (replace : Bool) : Local (fun fs => fs.mergeUpdate r update replace) where
  frame fs := mergeUpdate_frame fs r update replace
  blind fs md := by cases replace <;> rfl

end Local

variable {α β : Type}

/-- Every action answers, keeps the frame, and does not depend on the metadata zones. -/
def Replays : Proc ZenFS α → Prop
  | .ret _ => True
  | .fail _ => True
  | .step action next => (∀ fs, ∃ answer fs', action fs = some (answer, fs') ∧ Frame fs fs' ∧
      ∀ md, action (withMd fs md) = some (answer, withMd fs' md)) ∧ ∀ answer, Replays (next answer)

namespace Replays

theorem read {view : ZenFS → α} (blind : ∀ fs md, view (withMd fs md) = view fs) :
    Replays (Prog.read view : Proc ZenFS α) :=
  ⟨fun fs => ⟨view fs, fs, rfl, refl fs, fun md => congrArg (fun value => some (value, _)) (blind fs md)⟩,
    fun _ => trivial⟩

theorem update {change : ZenFS → ZenFS} (within : Local change) : Replays (Prog.update change : Proc ZenFS Unit) :=
  ⟨fun fs => ⟨(), change fs, rfl, within.frame fs, fun md => congrArg (fun fs' => some ((), fs')) (within.blind fs md)⟩,
    fun _ => trivial⟩

variable {p : Proc ZenFS α}

theorem bind {k : α → Proc ZenFS β} (first : Replays p) (rest : ∀ value, Replays (k value)) : Replays (p >>= k) := by
  rw [bind_def]
  induction p with
  | ret value => exact rest value
  | fail status => trivial
  | step action next ih => exact ⟨first.1, fun answer => ih answer (first.2 answer)⟩

theorem attempt (replays : Replays p) : Replays p.attempt := by
  induction p with
  | ret value => trivial
  | fail status => trivial
  | step action next ih => exact ⟨replays.1, fun answer => ih answer (replays.2 answer)⟩

theorem keeps (replays : Replays p) : p.Keeps Frame := by
  induction p with
  | ret value => trivial
  | fail status => trivial
  | step action next ih =>
    refine ⟨fun fs answer fs' moved => ?_, fun answer => ih answer (replays.2 answer)⟩
    obtain ⟨_, _, acted, frame, _⟩ := replays.1 fs
    cases acted.symm.trans moved
    exact frame

theorem total (replays : Replays p) : p.Total := by
  induction p with
  | ret value => exact Total.ofRet value
  | fail status => exact Total.ofFail status
  | step action next ih =>
    intro fs
    obtain ⟨answer, fs', acted, _⟩ := replays.1 fs
    simp only [wp, acted]
    exact ⟨trivial, ih answer (replays.2 answer) fs'⟩

end Replays

theorem replays_object (r : Ref) : Replays (object r) := .read (fun _ _ => rfl)

theorem replays_decodeFile (input : Bytes) : Replays (decodeFile input) := by
  refine Replays.bind ⟨fun fs => ⟨_, _, rfl, ?_, fun _ => rfl⟩, fun _ => trivial⟩ (fun answer => ?_)
  · exact loaded_frame fs _
  · obtain ⟨status, r⟩ := answer
    cases status with
    | none => trivial
    | some status => exact (Replays.update (.clearExtents r)).bind (fun _ => trivial)

theorem replays_countFileId (id : Nat) : Replays (countFileId id) := by
  refine .update ⟨fun fs => counted_frame fs id, fun fs md => ?_⟩
  have next : (withMd fs md).nextFileId = fs.nextFileId := rfl
  simp only [next]
  split <;> rfl

theorem replays_eraseLinks (keep : Ref) (names : List Name) : Replays (eraseLinks keep names) := by
  induction names with
  | nil => trivial
  | cons name rest ih =>
    refine Replays.bind (.read (fun _ _ => rfl)) (fun known => ?_)
    split
    · exact (Replays.update (.eraseFile keep name)).bind (fun _ => ih)
    · trivial

theorem replays_decodeFileUpdateFrom (slice : Bytes) (replace : Bool) :
    Replays (decodeFileUpdateFrom slice replace) := by
  refine (replays_decodeFile slice).bind (fun update => (replays_object update).bind (fun f => ?_))
  refine (replays_countFileId _).bind (fun _ => Replays.bind (.read (fun _ _ => rfl)) (fun known => ?_))
  cases known with
  | none =>
    have inserted : Local (fun fs => fs.insertFile (fs.objects update).getFilename update) :=
      ⟨fun fs => ofFiles fs _, fun _ _ => rfl⟩
    exact .update (inserted.comp (.dropUnowned update))
  | some r =>
    refine (replays_object r).bind (fun f => (replays_eraseLinks r _).attempt.bind (fun erased => ?_))
    rcases erased with status | _
    · exact (Replays.update ((Local.clearExtents update).comp (.dropUnowned r))).bind (fun _ => trivial)
    · exact (Replays.update (.mergeUpdate r update replace)).bind (fun _ => .update (.insertLinks r))

theorem replays_decodeSnapshotLoop {rounds : Nat} {input : Bytes} (enough : input.length < rounds) :
    Replays (decodeSnapshotLoop rounds input) := by
  induction rounds generalizing input with
  | zero => exact absurd enough (Nat.not_lt_zero _)
  | succ rounds ih =>
    simp only [decodeSnapshotLoop]
    split
    · trivial
    · rename_i slice rest read
      have shorter := getLengthPrefixedSlice_shorter read
      refine (replays_decodeFile slice).bind (fun r => (replays_object r).bind (fun f => ?_))
      refine (replays_countFileId _).bind (fun _ => ?_)
      exact (Replays.update ((Local.insertLinks r).comp (.dropUnowned r))).bind (fun _ => ih (by omega))

theorem replays_decodeFileDeletionFrom (input : Bytes) : Replays (decodeFileDeletionFrom input) := by
  simp only [decodeFileDeletionFrom]
  split
  · trivial
  split
  · trivial
  refine Replays.bind (.read (fun _ _ => rfl)) (fun known => ?_)
  cases known with
  | none => trivial
  | some r =>
    refine (replays_object r).bind (fun f => ?_)
    split
    · trivial
    · refine (Replays.update (.eraseFile r _)).bind (fun _ => (replays_object r).bind (fun f => ?_))
      split
      · exact (Replays.update (.dropUnowned r)).bind (fun _ => trivial)
      · rename_i g _
        have stored : Local (fun fs => fs.setObject r g) := ⟨fun fs => setObject fs r g, fun _ _ => rfl⟩
        exact .update (stored.comp (.dropUnowned r))

theorem replays_recoverRecord (tag : Nat) (data : Bytes) : Replays (recoverRecord tag data) := by
  simp only [recoverRecord]
  split
  · have each : ∀ entry : Name × Ref, Local (fun fs => fs.eraseFile entry.1 fs.nextRef) := fun entry =>
      ⟨fun fs => erase fs _ _, fun fs md => (Local.eraseFile fs.nextRef entry.1).blind fs md⟩
    have cleared : Replays clearFiles := .update ⟨fun fs => clearFiles_frame _ fs,
      fun fs md => (Local.foldl each _).blind fs md⟩
    exact cleared.bind (fun _ => (replays_decodeSnapshotLoop (Nat.lt_succ_self _)).bind (fun _ => trivial))
  · exact (replays_decodeFileUpdateFrom data false).bind (fun _ => trivial)
  · exact (replays_decodeFileUpdateFrom data true).bind (fun _ => trivial)
  · exact (replays_decodeFileDeletionFrom data).bind (fun _ => trivial)
  · trivial

end

section

def Replaying (fs fs' : ZenFS) : Prop := ∃ calls, Frame (withMdCalls fs calls) fs'

namespace Replaying

variable {fs fs' : ZenFS}

theorem trans {fs'' : ZenFS} (first : Replaying fs fs') (second : Replaying fs' fs'') : Replaying fs fs'' := by
  obtain ⟨calls, frame⟩ := first
  obtain ⟨calls', frame'⟩ := second
  have through : Frame (withMdCalls fs calls') (withMdCalls fs' calls') := by
    refine ⟨frame.dev, ?_⟩
    rw [frame.rest]
    rfl
  exact ⟨calls', through.trans frame'⟩

theorem media (replaying : Replaying fs fs') : SameMedia fs.md fs'.md := by
  obtain ⟨calls, frame⟩ := replaying
  rw [frame.md]
  exact SameMedia.withCalls fs.md calls

theorem questions (replaying : Replaying fs fs') : fs'.answers = fs.answers ∧ fs'.asked = fs.asked := by
  obtain ⟨calls, frame⟩ := replaying
  rw [frame.rest]
  exact ⟨rfl, rfl⟩

end Replaying

theorem done_recoverLoop (rounds : Nat) (log : ZenMetaLog) (seen : Bool) {fs : ZenFS} (healthy : Healthy fs.md) :
    IfDone (recoverLoop ZenMetaLog.readRecord rounds log seen) (fun result fs' => Replaying fs fs' ∧
      ∀ answer, result = .ok answer → answer.2.zone = log.zone) fs := by
  induction rounds generalizing log seen fs with
  | zero => trivial
  | succ rounds ih =>
    simp only [recoverLoop, wp_bind]
    rw [wp_attempt]
    refine (wp_zoom mdLens _ _ _).mpr (wp_recordAt healthy (fun _ => trivial) (fun calls => ?_))
    change onOk _ _ (.ok (recordAt fs.md log)) (withMdCalls fs calls)
    have here : Replaying fs (withMdCalls fs calls) := ⟨calls, refl _⟩
    rcases read : recordAt fs.md log with status | ⟨record, log₁⟩
    · refine ⟨here, ?_⟩
      rintro answer ⟨⟩
    have zone := recordAt_zone read
    have stopped : Replaying fs (withMdCalls fs calls) ∧ ∀ answer : Bool × ZenMetaLog,
        (Except.ok (seen, log₁) : Except Status _) = .ok answer → answer.2.zone = log.zone := by
      refine ⟨here, ?_⟩
      rintro answer ⟨⟩
      exact zone
    simp only [onOk_ok]
    split
    · exact stopped
    split
    · exact stopped
    split
    · refine ⟨here, ?_⟩
      rintro answer ⟨⟩
    rw [wp_bind]
    refine wp_mono ?_ (wp_weaken (fun _ _ => trivial) id
      ((replays_recoverRecord _ _).keeps.wp_of refl (fun _ _ _ => trans) _))
    rintro (status | snapshot) fs₁ frame
    · refine ⟨⟨calls, frame⟩, ?_⟩
      rintro answer ⟨⟩
    have there : Replaying fs fs₁ := ⟨calls, frame⟩
    refine wp_mono ?_ (ih log₁ _ (there.media.healthy healthy))
    intro result fs' ⟨onward, kept⟩
    exact ⟨there.trans onward, fun answer done => (kept answer done).trans zone⟩

theorem done_recoverFrom (log : ZenMetaLog) {fs : ZenFS} (healthy : Healthy fs.md) :
    IfDone (recoverFrom log) (fun result fs' => Replaying fs fs' ∧ ∀ log', result = .ok log' → log'.zone = log.zone)
      fs := by
  simp only [recoverFrom, recoverFromWith, wp_bind, wp_read, onOk_ok, true_and]
  refine wp_mono ?_ (done_recoverLoop _ log false healthy)
  rintro (status | ⟨seen, log₁⟩) fs' ⟨replaying, zone⟩
  · refine ⟨replaying, ?_⟩
    rintro log' ⟨⟩
  · simp only [onOk_ok]
    split
    · refine ⟨replaying, ?_⟩
      rintro log' ⟨⟩
      exact zone _ rfl
    · refine ⟨replaying, ?_⟩
      rintro log' ⟨⟩

end

structure Twins (fs twin : ZenFS) : Prop where
  healthy : Healthy fs.md
  only : OnlyMedia fs twin

theorem Twins.symm {fs twin : ZenFS} (twins : Twins fs twin) : Twins twin fs := by
  have media := twins.only.media
  refine ⟨media.healthy twins.healthy, media.symm, ?_⟩
  rw [twins.only.rest]

theorem Replays.mirrors {α : Type} {p : Proc ZenFS α} (replays : Replays p) : p.Mirrors Twins := by
  induction p with
  | ret value => exact Mirrors.ofPure value
  | fail status => exact Mirrors.ofFail status
  | step action next ih =>
    intro fs twin result last twins ran
    obtain ⟨answer, fs', acted, frame, blind⟩ := replays.1 fs
    have parted : twin = withMd fs twin.md := twins.only.rest
    have acted' : action twin = some (answer, withMd fs' twin.md) := parted ▸ blind twin.md
    have still : Twins fs' (withMd fs' twin.md) :=
      ⟨frame.md ▸ twins.healthy, frame.md ▸ twins.only.media, rfl⟩
    simp only [run, acted, acted'] at ran ⊢
    exact ih answer (replays.2 answer) _ _ _ _ still ran

theorem ensures_meta_recordAt (log : ZenMetaLog) {fs : ZenFS} (healthy : Healthy fs.md) :
    Ensures (onMeta log.readRecord) (fun result fs' => result = recordAt fs.md log ∧
      ∃ calls, fs' = withMdCalls fs calls) fs :=
  (wp_zoom mdLens _ _ _).mpr (wp_recordAt healthy (fun _ => trivial) (fun calls => ⟨rfl, calls, rfl⟩))

theorem twins_readRecord (log : ZenMetaLog) : (onMeta log.readRecord).Mirrors Twins := by
  intro fs twin result fs' twins ran
  obtain ⟨rfl, calls, rfl⟩ := (wp_run (ensures_meta_recordAt log twins.healthy)).2 _ _ ran
  have healthy := twins.only.media.healthy twins.healthy
  obtain ⟨_, _, ran', rfl, calls', rfl⟩ := (wp_total_iff _ _ _).mp (ensures_meta_recordAt log healthy)
  rw [twins.only.media.recordAt] at ran'
  refine ⟨_, ran', twins.healthy, ?_, ?_⟩
  · exact (twins.only.media.trans (SameMedia.withCalls _ calls')).of_calls calls
  · rw [twins.only.rest]
    rfl

theorem twins_recoverLoop (rounds : Nat) (log : ZenMetaLog) (seen : Bool) :
    (recoverLoop ZenMetaLog.readRecord rounds log seen).Mirrors Twins := by
  induction rounds generalizing log seen with
  | zero => exact Mirrors.ofHang
  | succ rounds ih =>
    refine (twins_readRecord log).attempt.bind (fun read => ?_)
    rcases read with status | ⟨record, log⟩
    · exact Mirrors.ofFail _
    simp only
    split
    · exact Mirrors.ofPure _
    split
    · exact Mirrors.ofPure _
    split
    · exact Mirrors.ofFail _
    · exact (replays_recoverRecord _ _).mirrors.bind (fun snapshot => ih log _)

theorem twins_recoverFrom (log : ZenMetaLog) : (recoverFrom log).Mirrors Twins := by
  refine Mirrors.bind (Mirrors.ofRead ?_) (fun rounds => ?_)
  · intro fs twin twins
    rw [twins.only.media.geo]
  · refine (twins_recoverLoop rounds log false).bind (fun answer => ?_)
    obtain ⟨seen, log⟩ := answer
    simp only
    split
    · exact Mirrors.ofPure _
    · exact Mirrors.ofFail _

end ZenFSProof
