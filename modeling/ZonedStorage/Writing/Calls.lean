import ZonedStorage.Writing.FlushBuffer

namespace ZenFSProof

open ByteString Resumption Resumption.Prog ZenFSModel ZenFSModel.ZenFS ZonedWritableFile List

namespace View

variable {v v' : View} {stream : Bytes}

theorem Holds.spared (holds : v.Holds stream) (spares : Spares v v') (active : v'.Active) : v'.Holds stream :=
  ⟨spares.kept holds.kept, active, spares.level holds.kept holds.level⟩

theorem Holds.buffered (holds : v.Holds stream) {data : Bytes}
    (fits : v.writer.bufferPos + data.length ≤ v.writer.bufferSz) :
    View.Holds { v with writer := toBuffer data v.writer } (stream ++ data) := by
  have kept := holds.kept
  have size := holds.level.size
  refine ⟨⟨kept.laid, kept.roomy, kept.stored, kept.file, kept.buffered, kept.header, kept.small, fits⟩, holds.active,
    ?_, ?_, ?_⟩
  · rw [take_append_of_le_length (by simp only; omega)]
    exact holds.level.held
  · rw [drop_append_of_le_length (by simp only; omega), ← holds.level.pending]
    simp only [View.pending, toBuffer]
    rw [Memory.read_add, Memory.read_write, Memory.read_write_outside (Or.inl (Nat.le_refl _))]
  · rw [length_append]
    simp only [toBuffer]
    omega

end View

def Leaves (w : Nat) (r : Ref) (accepted slice : Bytes) : Except Status Unit → ZenFS → Prop
  | .ok _, fs => (viewOf w r fs).Safe (accepted ++ slice)
  | .error _, fs => (viewOf w r fs).Safe accepted

section

variable {w : Nat} {r : Ref} {target : Bytes} {seen : ZenFS → Prop}
  (shows : ∀ fs', (viewOf w r fs').held <+: target → seen fs')

include shows

omit shows in
theorem Leaves.rest {stream first rest : Bytes} {result : Except Status Unit} {fs : ZenFS}
    (leaves : Leaves w r (stream ++ first) rest result fs) : Leaves w r stream (first ++ rest) result fs := by
  cases result with
  | error status => exact View.Safe.earlier leaves
  | ok _ =>
    simp only [Leaves, append_assoc] at leaves
    exact leaves

theorem wp_bufferedLoop (rounds turns : Nat) {stream data : Bytes} {fs : ZenFS} (holds : (viewOf w r fs).Holds stream)
    (part : stream ++ data <+: target)
    (placed : (fs.writers w).bufferPos + data.length ≤ (fs.writers w).bufferSz ∨ (viewOf w r fs).Placed) :
    wp seen True (bufferedLoop rounds w turns data) (Leaves w r stream data) fs := by
  induction turns generalizing stream data fs with
  | zero =>
    cases data with
    | nil =>
      refine View.Holds.safe ?_
      rw [append_nil]
      exact holds
    | cons byte rest => trivial
  | succ turns ih =>
    cases data with
    | nil =>
      refine View.Holds.safe ?_
      rw [append_nil]
      exact holds
    | cons byte more =>
      have file : (fs.writers w).file = r := holds.kept.file
      have here : seen fs := shows fs ((View.shown holds.level.held).trans ((prefix_append _ _).trans part))
      have turn : ∀ {fs' : ZenFS} {room : Nat}, (viewOf w r fs').Holds stream →
          room = (fs'.writers w).bufferSz - (fs'.writers w).bufferPos →
          ((fs'.writers w).bufferPos + (byte :: more).length ≤ (fs'.writers w).bufferSz ∨ (viewOf w r fs').Placed) →
          wp seen True (ZoneFile.modifyWriter w (toBuffer ((byte :: more).take room)) >>= fun _ =>
            bufferedLoop rounds w turns ((byte :: more).drop room))
            (Leaves w r stream (byte :: more)) fs' := by
        intro fs' room holds' left placed'
        have chunk : ((byte :: more).take room).length = min room (byte :: more).length := length_take ..
        have within : (fs'.writers w).bufferPos ≤ (fs'.writers w).bufferSz := holds'.kept.filled
        refine wp_modifyWriter_bind (r := r) (fun fs'' view => ?_)
        have writer : fs''.writers w = toBuffer ((byte :: more).take room) (fs'.writers w) :=
          congrArg View.writer view
        have next : (viewOf w r fs'').Holds (stream ++ (byte :: more).take room) := by
          rw [view]
          exact holds'.buffered (by simp only [viewOf]; omega)
        have whole : stream ++ (byte :: more).take room ++ (byte :: more).drop room = stream ++ (byte :: more) := by
          rw [append_assoc, take_append_drop]
        have placed'' : (fs''.writers w).bufferPos + ((byte :: more).drop room).length ≤ (fs''.writers w).bufferSz ∨
            (viewOf w r fs'').Placed := by
          rcases placed' with fits | placed'
          · left
            rw [writer, length_drop]
            simp only [toBuffer]
            omega
          · right
            rw [view]
            exact placed'
        refine ⟨shows _ ((View.shown next.level.held).trans ?_), ?_⟩
        · exact (prefix_append _ ((byte :: more).drop room)).trans (whole ▸ part)
        · refine wp_mono (fun result last leaves => ?_) (ih next (whole ▸ part) placed'')
          have all := Leaves.rest leaves
          rw [take_append_drop] at all
          exact all
      simp only [bufferedLoop, writer, wp_bind (Prog.read _), wp_read, onOk_ok]
      refine ⟨here, ?_⟩
      by_cases full : (fs.writers w).bufferSz - (fs.writers w).bufferPos = 0
      · simp only [if_pos full]
        have begun : (viewOf w r fs).Placed := by
          refine placed.resolve_left (fun fits => ?_)
          simp only [length_cons] at fits
          omega
        rw [wp_bind]
        refine wp_mono ?_ (wp_flushBuffer (fun fs' held => shows fs' (held.trans ((prefix_append _ _).trans part)))
          rounds holds (fun _ => begun))
        rintro (status | _) fs' flushed
        · exact flushed
        · refine turn flushed.toHolds ?_ (Or.inr (flushed.placed begun))
          have size : (fs'.writers w).bufferSz = (fs.writers w).bufferSz := flushed.size
          have empty : (fs'.writers w).bufferPos = 0 := flushed.empty
          omega
      · simp only [if_neg full]
        exact turn holds rfl placed

end

def Settles (w : Nat) (r : Ref) (stream : Bytes) : Except Status Unit → ZenFS → Prop
  | .ok _, fs => (viewOf w r fs).Holds stream
  | .error _, fs => (viewOf w r fs).Safe stream

theorem View.Holds.settles {w : Nat} {r : Ref} {stream : Bytes} {fs : ZenFS} (holds : (viewOf w r fs).Holds stream) :
    ∀ result, Settles w r stream result fs
  | .ok _ => holds
  | .error _ => holds.safe

section

variable {w : Nat} {r : Ref} {stream : Bytes} {seen : ZenFS → Prop} {fs : ZenFS}
  (shows : ∀ fs', (viewOf w r fs').held <+: stream → seen fs')

include shows

theorem wp_persist (holds : (viewOf w r fs).Holds stream) :
    wp seen True (ZoneFile.persistMetadata r) (fun _ fs' => (viewOf w r fs').Holds stream) fs := by
  refine wp_mono ?_ (wp_weaken ?_ id (wp_persistMetadata (w := w) (Sparing.refl fs)))
  · rintro _ fs' ⟨sparing, recording⟩
    refine holds.spared sparing ?_
    obtain ⟨_, _, same⟩ := recording.objects r
    simp only [View.Active, viewOf, recording.zbd, same]
    exact holds.active
  · intro fs' sparing
    exact shows fs' (View.shown (Spares.level sparing holds.kept holds.level).held)

theorem wp_modifyObject_bind {α : Type} {change : ZoneFile → ZoneFile} {k : Unit → Proc ZenFS α}
    {post : Except Status α → ZenFS → Prop} (holds : (viewOf w r fs).Holds stream)
    (extents : ∀ f, (change f).extents = f.extents) (size : ∀ f, (change f).fileSize = f.fileSize)
    (sparse : ∀ f, (change f).isSparse = f.isSparse) (zone : ∀ f, (change f).activeZone = f.activeZone)
    (rest : ∀ fs', (viewOf w r fs').Holds stream → wp seen True (k ()) post fs') :
    wp seen True (modifyObject r change >>= k) post fs := by
  have changed : (viewOf w r (fs.setObject r (change (fs.objects r)))).Holds stream := by
    refine holds.spared (Sparing.setObject (extents _) (size _) (sparse _)) ?_
    rw [viewOf_setObject]
    simp only [View.Active, zone]
    exact holds.active
  exact (wp_bind _ _ _ _).mpr ⟨shows _ (View.shown changed.level.held), rest _ changed⟩

theorem wp_closeWR (holds : (viewOf w r fs).Holds stream) :
    wp seen True (ZoneFile.closeWR r) (fun _ fs' => (viewOf w r fs').Holds stream) fs := by
  refine wp_modifyObject_bind shows holds ?_ ?_ ?_ ?_ (fun ended holds => ?_)
  · exact fun _ => rfl
  · exact fun _ => rfl
  · exact fun _ => rfl
  · exact fun _ => rfl
  rw [wp_bind]
  refine wp_mono ?_ (wp_persist shows holds)
  rintro (status | _) persisted holds
  · exact holds
  · rw [onOk_ok]
    refine wp_modifyObject_bind shows holds ?_ ?_ ?_ ?_ (fun released holds => ?_)
    · exact fun _ => rfl
    · exact fun _ => rfl
    · exact fun _ => rfl
    · exact fun _ => rfl
    refine wp_mono ?_ (wp_weaken ?_ id (wp_closeActiveZone (w := w) (Sparing.refl released)))
    · rintro _ fs' ⟨sparing, idle⟩
      exact holds.spared sparing (Opened.none idle).active
    · intro fs' sparing
      exact shows fs' (View.shown (Spares.level sparing holds.kept holds.level).held)

variable (rounds : Nat) (holds : (viewOf w r fs).Holds stream)
  (placed : 0 < (fs.writers w).bufferPos → (viewOf w r fs).Placed)

include holds placed

theorem wp_dataSync : wp seen True (dataSync rounds w) (Settles w r stream) fs := by
  have here : seen fs := shows fs (View.shown holds.level.held)
  have file : (fs.writers w).file = r := holds.kept.file
  have buffered : (fs.writers w).buffered = true := holds.kept.buffered
  simp only [dataSync, writer, object, wp_bind (Prog.read _), wp_read, onOk_ok, file,
    if_pos buffered]
  refine ⟨here, ?_⟩
  rw [wp_bind]
  refine wp_mono ?_ (wp_flushBuffer shows rounds holds placed)
  rintro (status | _) fs' flushed
  · exact flushed
  · simp only [onOk_ok, wp_bind (Prog.read _), wp_read]
    refine ⟨shows _ (View.shown flushed.level.held), ?_⟩
    split
    · exact flushed.toHolds
    · exact wp_mono (fun result _ holds' => holds'.settles result) (wp_persist shows flushed.toHolds)

theorem wp_fsync : wp seen True (fsync rounds w) (Settles w r stream) fs := by
  have here : seen fs := shows fs (View.shown holds.level.held)
  have file : (fs.writers w).file = r := holds.kept.file
  simp only [fsync, writer, object, wp_bind (Prog.read _), wp_read, onOk_ok, file]
  refine ⟨here, ?_⟩
  rw [wp_bind]
  refine wp_mono ?_ (wp_dataSync shows rounds holds placed)
  rintro (status | _) synced settled
  · exact settled
  · have holds' : (viewOf w r synced).Holds stream := settled
    simp only [onOk_ok, wp_bind (Prog.read _), wp_read]
    refine ⟨shows _ (View.shown holds'.level.held), ?_⟩
    split
    · exact holds'
    · exact wp_mono (fun result _ holds'' => holds''.settles result) (wp_persist shows holds')

theorem wp_rangeSync (offset nbytes : Nat) :
    wp seen True (rangeSync rounds w offset nbytes) (Settles w r stream) fs := by
  simp only [rangeSync, writer, wp_bind (Prog.read _), wp_read, onOk_ok]
  refine ⟨shows fs (View.shown holds.level.held), ?_⟩
  split
  · exact wp_dataSync shows rounds holds placed
  · exact holds

theorem wp_closeInternal : wp seen True (closeInternal rounds w) (Settles w r stream) fs := by
  have file : (fs.writers w).file = r := holds.kept.file
  simp only [closeInternal, writer, wp_bind (Prog.read _), wp_read, onOk_ok, file]
  refine ⟨shows fs (View.shown holds.level.held), ?_⟩
  split
  · exact holds
  · rw [wp_bind]
    refine wp_mono ?_ (wp_dataSync shows rounds holds placed)
    rintro (status | _) synced settled
    · exact settled
    · have holds' : (viewOf w r synced).Holds stream := settled
      rw [onOk_ok, wp_bind]
      refine wp_mono ?_ (wp_closeWR shows holds')
      rintro (status | _) closed holds''
      · exact holds''.safe
      · rw [onOk_ok]
        refine wp_modifyWriter (r := r) (fun fs' view => ?_)
        have last : (viewOf w r fs').Holds stream := by
          rw [view]
          have kept := holds''.kept
          exact ⟨⟨kept.laid, kept.roomy, kept.stored, kept.file, kept.buffered, kept.header, kept.small, kept.filled⟩,
            holds''.active, holds''.level.held, holds''.level.pending, holds''.level.size⟩
        exact ⟨shows _ (View.shown last.level.held), last⟩

end

end ZenFSProof
