import ZonedStorage.Namespace.MkFS
import ZonedStorage.Writing.Calls

namespace ZenFSProof

open ByteString Resumption Resumption.Prog ZenFSModel ZenFSModel.ZenFS List

inductive WriterCall where
  | append (slice : Bytes)
  | sync
  | fsync
  | rangeSync (offset nbytes : Nat)
  | close
  | destroy
  deriving DecidableEq

namespace WriterCall

def prog (rounds w : Nat) : WriterCall → Proc ZenFS Unit
  | append slice => ZonedWritableFile.append rounds w slice
  | sync => ZonedWritableFile.sync rounds w
  | fsync => ZonedWritableFile.fsync rounds w
  | rangeSync offset nbytes => ZonedWritableFile.rangeSync rounds w offset nbytes
  | close => ZonedWritableFile.close rounds w
  | destroy => ZonedWritableFile.destroy rounds w

def slice : WriterCall → Bytes
  | append slice => slice
  | _ => []

def Writes (this : Writer) : WriterCall → Prop
  | append slice => this.bufferSz < this.bufferPos + slice.length
  | _ => 0 < this.bufferPos

end WriterCall

/-- A writer in use, and the slices of the calls that were acknowledged. -/
structure Session where
  fs : ZenFS
  accepted : Bytes

/-- A buffered writer that has just been constructed on a file with the contents `accepted`. -/
structure Begins (w : Nat) (r : Ref) (s : Session) : Prop where
  writer : s.fs.writers w = makeWriter s.fs.zbd.dev.geo.blockSz r (s.fs.objects r) true
  laid : Laid s.fs.zbd.dev
  roomy : Roomy s.fs.zbd.dev
  stored : Stored s.fs.zbd.dev (s.fs.objects r).extents
  active : (viewOf w r s.fs).Active
  contents : contents s.fs.zbd.dev (s.fs.objects r).extents = s.accepted
  size : (s.fs.objects r).fileSize = s.accepted.length

/-- The call comes when no flush has been given up halfway: the file and the buffer are together as long as
    what was acknowledged, and what is to be written goes to where the extent was begun. -/
structure Resumes (w : Nat) (r : Ref) (s : Session) (call : WriterCall) : Prop where
  whole : (s.fs.objects r).fileSize + (s.fs.writers w).bufferPos = s.accepted.length
  placed : call.Writes (s.fs.writers w) → (viewOf w r s.fs).Placed
  short : call.slice.length < 2 ^ 32

def Session.returned (s : Session) (call : WriterCall) (result : Except Status Unit) (fs : ZenFS) : Session :=
  ⟨fs, match result with
    | .ok _ => s.accepted ++ call.slice
    | .error _ => s.accepted⟩

/-- The calls one after the other, whether they succeed or not. Nothing comes after the destructor. -/
inductive Calls (allowed : Session → WriterCall → Prop) (rounds w : Nat) (start : Session) : Session → Prop where
  | start : Calls allowed rounds w start start
  | call {s : Session} {call : WriterCall} {result : Except Status Unit} {fs : ZenFS}
    (before : Calls allowed rounds w start s) (lasts : call ≠ .destroy) (ok : allowed s call)
    (ran : (call.prog rounds w).run s.fs = some (result, fs)) : Calls allowed rounds w start (s.returned call result fs)

def Shows (w : Nat) (r : Ref) (target : Bytes) (fs : ZenFS) : Prop := (viewOf w r fs).held <+: target

variable {w : Nat} {r : Ref}

theorem makeWriter_small (blockSz : Nat) (f : ZoneFile) (buffered : Bool) :
    (makeWriter blockSz r f buffered).bufferSz + headerOf f = 2 ^ 20 := by
  simp only [makeWriter, headerOf, SPARSE_HEADER_SIZE]
  split
  · omega
  · rfl

variable {s : Session}

theorem Begins.holds (begins : Begins w r s) : (viewOf w r s.fs).Holds s.accepted := by
  have writer : (viewOf w r s.fs).writer = makeWriter s.fs.zbd.dev.geo.blockSz r (s.fs.objects r) true := begins.writer
  refine ⟨⟨begins.laid, begins.roomy, begins.stored, ?_, ?_, ?_, ?_, ?_⟩, begins.active, ?_, ?_, ?_⟩
  · rw [writer]
    rfl
  · rw [writer]
    rfl
  · rw [writer]
    rfl
  · rw [writer]
    exact makeWriter_small _ _ _
  · rw [writer]
    exact Nat.zero_le _
  · simp only [View.held, viewOf, begins.contents, begins.size, take_length]
  · simp only [View.pending, writer]
    simp only [viewOf, begins.size, drop_length]
    rfl
  · rw [writer]
    exact begins.size

theorem dropUnowned_shown {fs : ZenFS} {stream : Bytes} (shown : Shows w r stream fs) :
    Shows w r stream (fs.dropUnowned r) := by
  simp only [dropUnowned]
  split
  · exact shown
  · have none_left : ((fs.clearExtents r).objects r).extents = [] := by
      simp only [clearExtents, setObject, Function.update_self]
    simp only [Shows, View.held, viewOf, none_left]
    exact nil_prefix

theorem wp_destroy (rounds : Nat) {stream : Bytes} {fs : ZenFS} (holds : (viewOf w r fs).Holds stream)
    (placed : 0 < (fs.writers w).bufferPos → (viewOf w r fs).Placed) :
    wp (Shows w r stream) True (ZonedWritableFile.destroy rounds w) (fun _ _ => True) fs := by
  have here : Shows w r stream fs := View.shown holds.level.held
  have file : (fs.writers w).file = r := holds.kept.file
  simp only [ZonedWritableFile.destroy, ZonedWritableFile.writer, wp_bind (Prog.read _), wp_read, onOk_ok, file]
  refine ⟨here, ?_⟩
  rw [wp_bind, wp_attempt]
  refine wp_mono ?_ (wp_seen here (wp_closeInternal (fun _ => id) rounds holds placed))
  rintro (status | _) closed ⟨_, shown⟩
  · simp only [onOk_ok, wp_bind]
    refine wp_onZbd.mpr ?_
    have deferred : Shows w r stream { closed with zbd := (if closed.zbd.zoneDeferredStatus.isSome then
        { closed.zbd with zoneDeferredStatus := some status } else closed.zbd) } := by
      split
      · exact shown
      · exact shown
    exact ⟨deferred, dropUnowned_shown deferred, trivial⟩
  · exact ⟨dropUnowned_shown shown, trivial⟩

theorem wp_call (rounds : Nat) {call : WriterCall} (safe : (viewOf w r s.fs).Safe s.accepted)
    (resumes : Resumes w r s call) :
    wp (Shows w r (s.accepted ++ call.slice)) True (call.prog rounds w)
      (fun result fs' => call ≠ .destroy → Leaves w r s.accepted call.slice result fs') s.fs := by
  have holds : (viewOf w r s.fs).Holds s.accepted := ⟨safe.kept, safe.active, safe.level resumes.whole⟩
  have settled : ∀ {p : Proc ZenFS Unit}, wp (Shows w r s.accepted) True p
      (Settles w r s.accepted) s.fs → wp (Shows w r (s.accepted ++ [])) True p
        (fun result fs' => call ≠ .destroy → Leaves w r s.accepted [] result fs') s.fs := by
    intro p settles
    rw [append_nil]
    refine wp_mono ?_ settles
    rintro (status | _) fs' done _
    · exact done
    · simp only [Leaves, append_nil]
      exact View.Holds.safe done
  cases call with
  | append slice =>
    have all : slice.take (slice.length % 2 ^ 32) = slice := by
      have short : slice.length < 2 ^ 32 := resumes.short
      rw [Nat.mod_eq_of_lt short, take_length]
    have buffered : (s.fs.writers w).buffered = true := holds.kept.buffered
    have placed : (s.fs.writers w).bufferPos + slice.length ≤ (s.fs.writers w).bufferSz ∨ (viewOf w r s.fs).Placed := by
      by_cases fits : (s.fs.writers w).bufferPos + slice.length ≤ (s.fs.writers w).bufferSz
      · exact Or.inl fits
      · exact Or.inr (resumes.placed (Nat.lt_of_not_le fits))
    simp only [WriterCall.prog, WriterCall.slice, ZonedWritableFile.append, ZonedWritableFile.bufferedWrite,
      ZonedWritableFile.writer, wp_bind (Prog.read _), wp_read, onOk_ok, if_pos buffered, all]
    refine ⟨(View.shown holds.level.held).trans (prefix_append _ _), ?_⟩
    refine wp_mono ?_ (wp_bufferedLoop (fun _ => id) rounds slice.length holds (prefix_refl _) placed)
    exact fun _ _ leaves _ => leaves
  | sync => exact settled (wp_dataSync (fun _ => id) rounds holds resumes.placed)
  | fsync => exact settled (wp_fsync (fun _ => id) rounds holds resumes.placed)
  | rangeSync offset nbytes => exact settled (wp_rangeSync (fun _ => id) rounds holds resumes.placed offset nbytes)
  | close => exact settled (wp_closeInternal (fun _ => id) rounds holds resumes.placed)
  | destroy =>
    simp only [WriterCall.slice, append_nil]
    refine wp_mono ?_ (wp_destroy rounds holds resumes.placed)
    exact fun _ _ _ last => (last rfl).elim

theorem Calls.safe {rounds : Nat} {start : Session} (begins : Begins w r start)
    (calls : Calls (Resumes w r) rounds w start s) : (viewOf w r s.fs).Safe s.accepted := by
  induction calls with
  | start => exact begins.holds.safe
  | call before lasts ok ran ih =>
    have leaves := (wp_run (wp_weaken (fun _ _ => trivial) id (wp_call rounds ih ok))).2 _ _ ran lasts
    rename_i result fs
    cases result with
    | error status => exact leaves
    | ok _ => exact leaves

/-- As long as no call comes on top of a flush that was given up halfway, whatever fails, the file holds at
    every moment a part of what was appended, from its first byte on. -/
theorem file_never_repeats {rounds : Nat} {start s : Session} {call : WriterCall} {n : Nat} {mid : ZenFS}
    (begins : Begins w r start)
    (calls : Calls (Resumes w r) rounds w start s) (resumes : Resumes w r s call)
    (cut : (call.prog rounds w).after n s.fs = some mid) :
    contents mid.zbd.dev (mid.objects r).extents <+: s.accepted ++ call.slice := by
  have safe := calls.safe begins
  have here : Shows w r (s.accepted ++ call.slice) s.fs :=
    (View.shown (safe.level resumes.whole).held).trans (prefix_append _ _)
  have shown : Shows w r (s.accepted ++ call.slice) mid := wp_after here (wp_call rounds safe resumes) cut
  exact shown

def oneBlockZones (persists : Nat → Reply) (names : List Name) : Session where
  fs := { sampleZenFS with
    zbd := ZonedBlockDevice.openDevice { sampleDevice 3 4 with
      zones := fun i => { sampleZone (3 + i) with capacity := 512, maxCapacity := 512 } } 0 0
    md := { sampleMeta with replies := persists }
    files := names.foldl (fun files name => files.insertIfNew name 0) ∅
    objects := fun _ => { ZoneFile.new 0 with linkFiles := names } }
  accepted := []

theorem oneBlockZones_begins (persists : Nat → Reply) (names : List Name) :
    Begins 0 0 (oneBlockZones persists names) := by
  have zones : ∀ i, (oneBlockZones persists names).fs.zbd.dev.zones i =
      ⟨(3 + i) * 16384, 512, 512, (3 + i) * 16384, .notSet, 0, false⟩ := fun _ => rfl
  have geo : (oneBlockZones persists names).fs.zbd.dev.geo = sampleGeometry := rfl
  refine ⟨rfl, ?_, ?_, ?_, ?_, rfl, rfl⟩
  · constructor
    all_goals simp only [zones, geo, sampleGeometry]
    · intro i j _ _ other
      omega
    all_goals intro i _
    all_goals omega
  · intro i _ _
    simp only [zones]
    decide
  · intro e listed
    cases listed
  · intro zone active
    cases active

def Session.next (s : Session) (call : WriterCall) : Session :=
  match (call.prog 8 0).run s.fs with
  | none => s
  | some (result, fs) => s.returned call result fs

theorem Calls.next {allowed : Session → WriterCall → Prop} {start s : Session} {call : WriterCall}
    (before : Calls allowed 8 0 start s) (lasts : call ≠ .destroy) (ok : allowed s call)
    (returns : ((call.prog 8 0).run s.fs).isSome) : Calls allowed 8 0 start (s.next call) := by
  simp only [Session.next]
  cases ran : (call.prog 8 0).run s.fs with
  | none =>
    rw [ran] at returns
    cases returns
  | some outcome => exact .call before lasts ok ran

def refusedOnce : Session := oneBlockZones (fun n => ⟨n = 0 || 5 ≤ n, 1000, false, false⟩) []

def syncedTwice : Session := ((refusedOnce.next (.append [0x61])).next .sync).next .sync

/-- The zone is full after the first byte, and the metadata of the next one cannot be written. The sync that
    is tried again, and succeeds, writes the byte a second time. -/
theorem sync_again_repeats : Begins 0 0 refusedOnce ∧ Calls (fun _ _ => True) 8 0 refusedOnce syncedTwice ∧
    contents syncedTwice.fs.zbd.dev (syncedTwice.fs.objects 0).extents = [0x61, 0x61] ∧
    syncedTwice.accepted = [0x61] := by
  refine ⟨oneBlockZones_begins _ _, ?_, by decide +kernel, by decide +kernel⟩
  have appended : Calls (fun _ _ => True) 8 0 refusedOnce (refusedOnce.next (.append [0x61])) :=
    Calls.start.next (by decide) trivial (by decide +kernel)
  have refused : Calls (fun _ _ => True) 8 0 refusedOnce ((refusedOnce.next (.append [0x61])).next .sync) :=
    appended.next (by decide) trivial (by decide +kernel)
  exact refused.next (by decide) trivial (by decide +kernel)

def namedFile : Session := oneBlockZones alwaysOk [path "/a"]

def threeBytes : Session := namedFile.next (.append [0x61, 0x62, 0x63])

theorem threeBytes_calls : Calls (Resumes 0 0) 8 0 namedFile threeBytes ∧ Resumes 0 0 threeBytes .sync := by
  have first : Resumes 0 0 namedFile (.append [0x61, 0x62, 0x63]) := by
    refine ⟨rfl, ?_, by decide⟩
    intro _ zone active
    cases active
  have idle : (threeBytes.fs.objects 0).activeZone = none := by decide +kernel
  refine ⟨Calls.start.next (by decide) first (by decide +kernel), by decide +kernel, ?_, by decide⟩
  intro _ zone active
  cases idle.symm.trans active

/-- The sync is cut off after its write. -/
theorem threeBytes_never_repeat : ∃ mid, (WriterCall.sync.prog 8 0).after 48 threeBytes.fs = some mid ∧
    contents mid.zbd.dev (mid.objects 0).extents ≠ [] ∧
    contents mid.zbd.dev (mid.objects 0).extents <+: [0x61, 0x62, 0x63] := by
  obtain ⟨calls, resumes⟩ := threeBytes_calls
  have reaches : ((WriterCall.sync.prog 8 0).after 48 threeBytes.fs).map (fun mid =>
      decide (contents mid.zbd.dev (mid.objects 0).extents = [])) = some false ∧
      threeBytes.accepted ++ WriterCall.sync.slice = [0x61, 0x62, 0x63] := by decide +kernel
  obtain ⟨mid, cut, written⟩ := Option.map_eq_some_iff.mp reaches.1
  refine ⟨mid, cut, of_decide_eq_false written, ?_⟩
  rw [← reaches.2]
  exact file_never_repeats (oneBlockZones_begins alwaysOk _) calls resumes cut

theorem wp_persisted (r : Ref) (fs : ZenFS) : wp (fun _ => True) True (ZoneFile.persistMetadata r) (fun result fs' =>
    result = .ok () → (fs'.objects r).isDeleted = false → fs'.bound r = true → fs'.persisted r = fs'.objects r) fs := by
  simp only [ZoneFile.persistMetadata, getFilename, syncFileMetadata, syncFileMetadataNoLock, setMTime, ask, object,
    modifyObject, Bool.not_false, if_true, wp_bind (Prog.act _), wp_bind (Prog.read _), wp_act, wp_read, onOk_ok, true_and]
  split
  · rename_i deleted
    simp [wp_bind, deleted, -bind_pure_comp]
  · simp only [wp_bind, wp_act, wp_update, onOk_ok, true_and, wp_read]
    refine wp_mono ?_ ((wp_partial_iff _ (fun _ _ => True) _).mpr (fun _ _ _ => trivial))
    rintro (status | _) last _
    · rintro ⟨⟩
    · intro _ _ bound
      have logged : last.logged r = true := by
        unfold logged
        split
        · rfl
        · exact bound
      simp only [synced, logged, setPersisted, setObject, Function.update_self, if_true]

theorem wp_dataSync_done (rounds : Nat) {stream : Bytes} {fs : ZenFS} (holds : (viewOf w r fs).Holds stream)
    (placed : 0 < (fs.writers w).bufferPos → (viewOf w r fs).Placed) :
    wp (fun _ => True) True (ZonedWritableFile.dataSync rounds w) (fun result fs' => result = .ok () →
      contents fs'.zbd.dev (fs'.objects r).extents = stream ∧
        ((fs'.objects r).isSparse = false → (fs'.objects r).isDeleted = false → fs'.bound r = true →
          fs'.persisted r = fs'.objects r)) fs := by
  have file : (fs.writers w).file = r := holds.kept.file
  have buffered : (fs.writers w).buffered = true := holds.kept.buffered
  simp only [ZonedWritableFile.dataSync, ZonedWritableFile.writer, object, wp_bind (Prog.read _), wp_read, onOk_ok, file,
    if_pos buffered, wp_bind (ZonedWritableFile.flushBuffer _ _), true_and]
  refine wp_mono ?_ (wp_flushBuffer (fun _ _ => trivial) rounds holds placed)
  rintro (status | _) flushed done
  · rintro ⟨⟩
  · have level := done.level
    have whole : (viewOf w r flushed).held = stream := by
      rw [level.held, take_of_length_le]
      rw [← level.size, done.empty]
      exact Nat.le_refl _
    rw [onOk_ok]
    split
    · rename_i sparse
      refine fun _ => ⟨whole, fun plain => ?_⟩
      cases sparse.symm.trans plain
    · have spared := wp_weaken (fun _ _ => trivial) id (wp_persistMetadata (w := w) (Sparing.refl (r := r) flushed))
      refine wp_mono ?_ (wp_and (wp_persisted r flushed) spared)
      rintro result last ⟨persisted, sparing, _⟩ ok
      exact ⟨(sparing.held done.kept).trans whole, fun _ => persisted ok⟩

end ZenFSProof
