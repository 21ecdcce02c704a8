import ZonedStorage.Writing.Flush

namespace ZenFSProof

open ByteString Resumption Resumption.Prog ZenFSModel ZenFSModel.ZenFS ZenFSModel.ZenMetaLog Function ZoneFile Prog View

def Ends (w : Nat) (r : Ref) (header : Nat) (stream : Bytes) : Except Status Unit → ZenFS → Prop
  | .ok _, fs => Flushing (viewOf w r fs) stream 0 ∧ headerOf (fs.objects r) = header
  | .error _, fs => (viewOf w r fs).Safe stream

section

variable {w : Nat} {r : Ref} {stream : Bytes} {seen : ZenFS → Prop} {fs : ZenFS}

theorem wp_modifyWriter {stuck : Prop} {change : Writer → Writer} {post : Except Status Unit → ZenFS → Prop}
    (rest : ∀ fs', viewOf w r fs' = { viewOf w r fs with writer := change (fs.writers w) } →
      seen fs' ∧ post (.ok ()) fs') :
    wp seen stuck (modifyWriter w change) post fs := by
  have view : viewOf w r { fs with writers := update fs.writers w (change (fs.writers w)) } =
      { viewOf w r fs with writer := change (fs.writers w) } := by
    simp only [viewOf, update_self]
  exact rest _ view

theorem wp_modifyWriter_bind {α : Type} {stuck : Prop} {change : Writer → Writer} {k : Unit → Proc ZenFS α}
    {post : Except Status α → ZenFS → Prop}
    (rest : ∀ fs', viewOf w r fs' = { viewOf w r fs with writer := change (fs.writers w) } →
      seen fs' ∧ wp seen stuck (k ()) post fs') :
    wp seen stuck (modifyWriter w change >>= k) post fs :=
  (wp_bind _ _ _ _).mpr (wp_modifyWriter rest)

theorem viewOf_setObject (w : Nat) (r : Ref) (fs : ZenFS) (f : ZoneFile) :
    viewOf w r (fs.setObject r f) = { viewOf w r fs with file := f } := by
  simp only [viewOf, setObject, update_self]

theorem viewOf_published (w : Nat) (r : Ref) (fs : ZenFS) (e : ZoneExtent) :
    viewOf w r (published r e fs) = { viewOf w r fs with
      dev := addUsed (viewOf w r fs).dev e
      file := { (viewOf w r fs).file with
        extentStart := ((viewOf w r fs).dev.zones e.zone).wp
        fileSize := (viewOf w r fs).file.fileSize + e.length } } := by
  rw [published, viewOf_setObject]
  rfl

theorem Marked.charged (d : Device) (e : ZoneExtent) : Marked d (addUsed d e) :=
  Marked.marks.mark d e.zone _ _ _

variable (shows : ∀ fs', (viewOf w r fs').held <+: stream → seen fs')

include shows

variable {header left : Nat}

theorem wp_turnOver_bind {rounds zone wrSize : Nat} {k : Unit → Proc ZenFS Unit}
    (turned : Turned (viewOf w r fs) stream zone wrSize left) (same : headerOf (fs.objects r) = header)
    (rest : ∀ fs', Flushing (viewOf w r fs') stream left → headerOf (fs'.objects r) = header →
      wp seen True (k ()) (Ends w r header stream) fs') :
    wp seen True (closeActiveZone r >>= fun _ =>
      modifyWriter w (fun writer =>
        { writer with buffer := writer.buffer.write header (writer.buffer.read wrSize left) }) >>= fun _ =>
      allocateNewZone rounds r >>= k) (Ends w r header stream) fs := by
  have divides := turned.toDivides
  rw [wp_bind]
  refine wp_mono ?_ (wp_weaken (fun fs' sparing => shows fs' (divides.shown sparing)) id
    (wp_closeActiveZone (Sparing.refl fs)))
  rintro (status | _) closed ⟨sparing, idle⟩
  · refine (divides.spared sparing).failed ?_ (Opened.none idle).active
    rw [sparing.writer]
    exact turned.begun
  · have begun : left < (closed.writers w).bufferPos := by
      have writer : closed.writers w = fs.writers w := sparing.writer
      rw [writer]
      exact turned.begun
    have header' : headerOf (closed.objects r) = header := (Spares.headerOf sparing).trans same
    have front := (divides.spared sparing).moved header
    rw [onOk_ok]
    refine wp_modifyWriter_bind (r := r) (fun shifted view => ?_)
    have there : Divides (viewOf w r shifted) stream header left := by
      rw [view]
      exact front
    have file : shifted.objects r = closed.objects r := congrArg file view
    have waits : left < (shifted.writers w).bufferPos := by
      have writer := congrArg writer view
      simp only [viewOf] at writer
      rw [writer]
      exact begun
    refine ⟨shows _ (there.shown (Spares.refl _)), ?_⟩
    rw [wp_bind]
    refine wp_mono ?_ (wp_weaken (fun fs' sparing => shows fs' (there.shown sparing)) id
      (wp_allocateNewZone rounds (Sparing.refl shifted) there.kept.laid there.kept.roomy ?_))
    · rintro (status | _) allocated ⟨sparing', opened, zone', _⟩
      · refine (there.spared sparing').failed ?_ opened.active
        rw [sparing'.writer]
        exact waits
      · have header'' : headerOf (allocated.objects r) = header := by
          refine (Spares.headerOf sparing').trans ?_
          simp only [viewOf, file]
          exact header'
        refine rest allocated ⟨?_, opened, zone' rfl, ?_⟩ header''
        · simp only [viewOf, header'']
          exact there.spared sparing'
        · rw [sparing'.writer]
          exact Nat.le_of_lt waits
    · rw [file]
      exact idle

theorem wp_push_bind {zone wrSize extentLength : Nat} {k : Unit → Proc ZenFS Unit}
    (flushing : Flushing (viewOf w r fs) stream left) (active : (fs.objects r).activeZone = some zone)
    (same : headerOf (fs.objects r) = header)
    (portion : Portion fs.zbd.dev.geo.blockSz header left (fs.zbd.dev.zones zone).capacity wrSize extentLength)
    (rest : ∀ fs', Turned (viewOf w r fs') stream zone wrSize (left - extentLength) →
      headerOf (fs'.objects r) = header → wp seen True (k ()) (Ends w r header stream) fs') :
    wp seen True (read (fun fs' => (fs'.writers w).buffer.read 0
        (wrSize + Device.padSz fs.zbd.dev.geo.blockSz wrSize)) >>= fun bytes =>
      onIo (Zone.append zone bytes) >>= fun _ => read (fun fs' => fs'.objects r) >>= fun f =>
      pushBack r ⟨f.extentStart + header, extentLength, zone⟩ >>= fun _ =>
      update (published r ⟨f.extentStart + header, extentLength, zone⟩) >>= k) (Ends w r header stream) fs := by
  subst same
  obtain ⟨inside, _⟩ := flushing.opened.active zone active
  have here : seen fs := shows fs (flushing.shown (Spares.refl _))
  have block := fs.zbd.dev.geo.sector_le
  have fits := portion.fits
  rw [add_padSz]
  simp only [wp_bind (read _), wp_read, onOk_ok]
  refine ⟨here, ?_⟩
  generalize filled : (fs.writers w).buffer.read 0 (alignUp fs.zbd.dev.geo.blockSz wrSize) = bytes
  have data : bytes = (viewOf w r fs).writer.buffer.read 0 (alignUp fs.zbd.dev.geo.blockSz wrSize) := filled.symm
  have size : bytes.length = alignUp fs.zbd.dev.geo.blockSz wrSize := by rw [data, Memory.read_length]
  have dvd : fs.zbd.dev.geo.blockSz ∣ bytes.length := by
    rw [size]
    exact alignUp_dvd (by omega) wrSize
  have short : bytes.length < 2 ^ 32 := by
    have write := portion.write
    have part := portion.part
    have within : left ≤ (fs.writers w).bufferPos := flushing.within
    have filled : (fs.writers w).bufferPos ≤ (fs.writers w).bufferSz := flushing.kept.filled
    have small : (fs.writers w).bufferSz + headerOf (fs.objects r) = 2 ^ 20 := flushing.kept.small
    have close : alignUp fs.zbd.dev.geo.blockSz wrSize < wrSize + fs.zbd.dev.geo.blockSz := alignUp_lt (by omega) wrSize
    have limit := fs.zbd.dev.geo.block_lt
    omega
  rw [wp_bind]
  refine wp_onIo.mpr (wp_append short here ?_ (fun room => ⟨?_, ?_, ?_⟩))
  · intro full
    omega
  · intro count c part aligned
    refine shows _ (flushing.shown ⟨rfl, Retains.written c ?_ inside ?_, rfl, rfl, rfl, rfl⟩)
    · rw [List.length_take]
      exact Nat.le_trans (Nat.min_le_right _ _) room
    · rw [List.length_take, Nat.min_eq_left part]
      rcases aligned with aligned | whole
      · exact aligned
      · rw [whole]
        exact dvd
  · intro count c part aligned _ _
    exact flushing.broken active room part aligned c
  · intro c _
    have pushed := flushing.pushed active portion data c
    simp only [onOk_ok, pushBack, modifyObject, wp_bind (read _), wp_bind (update _), wp_read, wp_update]
    have marked := Marked.charged (written fs.zbd.dev zone bytes c)
      ⟨(fs.objects r).extentStart + headerOf (fs.objects r), extentLength, zone⟩
    have turned := flushing.turned active portion data c marked
    rw [marked.wp] at turned
    refine ⟨?_, ?_, ?_, ?_⟩
    · refine shows _ (flushing.shown ⟨rfl, flushing.retains active portion data c, rfl, rfl, rfl, rfl⟩)
    · refine shows _ ?_
      rw [viewOf_setObject]
      exact shown pushed
    · refine shows _ ?_
      rw [viewOf_published, viewOf_setObject]
      exact shown turned.held
    · have view := viewOf_published w r ((withIo fs (written fs.zbd.dev zone bytes c)).setObject r
        { fs.objects r with extents := (fs.objects r).extents ++
            [⟨(fs.objects r).extentStart + headerOf (fs.objects r), extentLength, zone⟩] })
        ⟨(fs.objects r).extentStart + headerOf (fs.objects r), extentLength, zone⟩
      rw [viewOf_setObject] at view
      refine rest _ ?_ ?_
      · exact view ▸ turned
      · exact congrArg (fun v => headerOf v.file) view

theorem wp_bufferLoop (rounds : Nat) (flushing : Flushing (viewOf w r fs) stream left)
    (same : headerOf (fs.objects r) = header) :
    wp seen True (bufferLoop header w r rounds left) (Ends w r header stream) fs := by
  induction rounds generalizing fs left with
  | zero =>
    cases left with
    | zero => exact ⟨flushing, same⟩
    | succ left => trivial
  | succ rounds ih =>
    cases left with
    | zero => exact ⟨flushing, same⟩
    | succ left =>
      obtain ⟨zone, active⟩ := flushing.zone
      have here : seen fs := shows fs (flushing.shown (Spares.refl _))
      have current : (fs.objects r).activeZone = some zone := active
      simp only [bufferLoop, object, wp_bind (read _), wp_read, onOk_ok, current]
      refine ⟨here, wp_ioRead_bind here ?_⟩
      rw [wp_bind (read _), wp_read, onOk_ok]
      refine ⟨here, ?_⟩
      obtain ⟨inside, room⟩ := flushing.opened.active zone active
      have within : left + 1 ≤ (fs.writers w).bufferPos := flushing.within
      have fill : (fs.writers w).bufferPos ≤ (fs.writers w).bufferSz := flushing.kept.filled
      have small : (fs.writers w).bufferSz + headerOf (fs.objects r) = 2 ^ 20 := flushing.kept.small
      have shape := headerOf_cases (fs.objects r)
      rw [same] at small shape
      have portion := Portion.of fs.zbd.dev.geo.sector_le shape (Nat.succ_pos left) (by omega) room
        (flushing.kept.laid.capacity_dvd inside)
      simp only [viewOf] at portion
      generalize (min ((left + 1 + header) % 2 ^ 32) (fs.zbd.dev.zones zone).capacity) = wrSize at portion ⊢
      generalize (wrSize + 2 ^ 32 - header) % 2 ^ 32 = extentLength at portion ⊢
      have part := portion.part
      have remains : (left + 1 + 2 ^ 32 - extentLength) % 2 ^ 32 = left + 1 - extentLength := by
        have shift : left + 1 + 2 ^ 32 - extentLength = left + 1 - extentLength + 2 ^ 32 := by omega
        rw [shift, Nat.add_mod_right, Nat.mod_eq_of_lt (by omega)]
      rw [remains]
      refine wp_modifyWriter_bind (r := r) (fun full view => ?_)
      have filled : Flushing (viewOf w r full) stream (left + 1) := by
        rw [view]
        exact same ▸ flushing.filled (same ▸ portion)
      have dev : full.zbd.dev = fs.zbd.dev := congrArg dev view
      have file : full.objects r = fs.objects r := congrArg file view
      refine ⟨shows _ (filled.shown (Spares.refl _)), ?_⟩
      rw [← dev] at portion ⊢
      refine wp_push_bind shows filled (by rw [file]; exact current) (by rw [file]; exact same) portion ?_
      intro pushed turned header'
      refine wp_ioRead_bind (shows _ (turned.shown (Spares.refl _))) ?_
      split
      · exact wp_turnOver_bind shows turned header' (fun fs' flushing' same' => ih flushing' same')
      · exact ih (turned.finished ‹_›) header'

theorem wp_appendBuffer (rounds : Nat) (kept : (viewOf w r fs).Kept) (opened : Opened (viewOf w r fs))
    (level : (viewOf w r fs).Level stream) (same : headerOf (fs.objects r) = header)
    (all : left = (fs.writers w).bufferPos) :
    wp seen True (appendBuffer header rounds w r left) (Ends w r header stream) fs := by
  have here : seen fs := shows fs (shown level.held)
  have start : ∀ {fs'}, Sparing w r fs fs' → Opened (viewOf w r fs') →
      (∃ zone, (fs'.objects r).activeZone = some zone) → Flushing (viewOf w r fs') stream left := by
    intro fs' sparing opened' zone
    have level' := Spares.level sparing kept level
    have kept' := Spares.kept sparing kept
    have position : (viewOf w r fs').writer.bufferPos = left := by rw [sparing.writer, all]; rfl
    refine ⟨⟨kept', level'.held, ?_, ?_⟩, opened', zone, Nat.le_of_eq position.symm⟩
    · rw [← position]
      exact level'.size
    · rw [← position, ← kept'.header]
      exact level'.pending
  simp only [appendBuffer, object, wp_bind (read _), wp_read, onOk_ok]
  refine ⟨here, ?_⟩
  split
  · rename_i idle
    rw [wp_bind]
    refine wp_mono ?_ (wp_weaken (fun fs' sparing => shows fs' (shown (Spares.level sparing kept level).held)) id
      (wp_allocateNewZone rounds (Sparing.refl fs) kept.laid kept.roomy (Option.isNone_iff_eq_none.mp idle)))
    rintro (status | _) allocated ⟨sparing, opened', zone, _⟩
    · exact View.Holds.safe ⟨Spares.kept sparing kept, opened'.active, Spares.level sparing kept level⟩
    · exact wp_bufferLoop shows rounds (start sparing opened' (zone rfl)) ((Spares.headerOf sparing).trans same)
  · rename_i busy
    refine wp_bufferLoop shows rounds (start (Sparing.refl fs) opened ?_) same
    exact Option.ne_none_iff_exists'.mp (fun idle => busy (Option.isNone_iff_eq_none.mpr idle))

end

structure Flushed (v v' : View) (stream : Bytes) : Prop extends v'.Holds stream where
  empty : v'.writer.bufferPos = 0
  size : v'.writer.bufferSz = v.writer.bufferSz
  placed : v.Placed → v'.Placed

def Flushes (w : Nat) (r : Ref) (v : View) (stream : Bytes) : Except Status Unit → ZenFS → Prop
  | .ok _, fs => Flushed v (viewOf w r fs) stream
  | .error _, fs => (viewOf w r fs).Safe stream

theorem Flushing.flushed {v before : View} {stream : Bytes} (flushing : Flushing v stream 0) (kept : before.Kept)
    (same : headerOf v.file = headerOf before.file) :
    Flushed before { v with writer := { v.writer with wp := v.writer.wp + v.writer.bufferPos, bufferPos := 0 } }
      stream where
  kept := by
    have kept := flushing.kept
    exact ⟨kept.laid, kept.roomy, kept.stored, kept.file, kept.buffered, kept.header, kept.small, Nat.zero_le _⟩
  active := flushing.opened.active
  level := by
    have size := flushing.size
    have nothing : stream.drop v.file.fileSize = [] := List.drop_of_length_le (by omega)
    exact ⟨flushing.held, nothing.symm, size⟩
  empty := rfl
  size := by
    have small := flushing.kept.small
    rw [same, ← kept.small] at small
    exact Nat.add_right_cancel small
  placed _ := flushing.opened.placed

theorem wp_flushBuffer {w : Nat} {r : Ref} {stream : Bytes} {seen : ZenFS → Prop} {fs : ZenFS}
    (shows : ∀ fs', (viewOf w r fs').held <+: stream → seen fs') (rounds : Nat) (holds : (viewOf w r fs).Holds stream)
    (placed : 0 < (fs.writers w).bufferPos → (viewOf w r fs).Placed) :
    wp seen True (ZonedWritableFile.flushBuffer rounds w) (Flushes w r (viewOf w r fs) stream) fs := by
  obtain ⟨kept, active, level⟩ := holds
  have here : seen fs := shows fs (shown level.held)
  have file : (fs.writers w).file = r := kept.file
  simp only [ZonedWritableFile.flushBuffer, ZonedWritableFile.writer, object, wp_bind (read _), wp_read, onOk_ok, file]
  refine ⟨here, ?_⟩
  split
  · rename_i empty
    exact ⟨⟨kept, active, level⟩, empty, rfl, id⟩
  · rename_i some
    have opened : Opened (viewOf w r fs) := ⟨active, placed (Nat.pos_of_ne_zero some)⟩
    have emptied : ∀ header, headerOf (fs.objects r) = header →
        wp seen True (appendBuffer header rounds w r (fs.writers w).bufferPos >>= fun _ =>
          modifyWriter w (fun this => { this with wp := this.wp + this.bufferPos, bufferPos := 0 }))
          (Flushes w r (viewOf w r fs) stream) fs := by
      intro header same
      rw [wp_bind]
      refine wp_mono ?_ (wp_appendBuffer shows rounds kept opened level same rfl)
      rintro (status | _) written ends
      · exact ends
      · rw [onOk_ok]
        refine wp_modifyWriter (r := r) (fun fs' view => ?_)
        have flushed : Flushed (viewOf w r fs) (viewOf w r fs') stream := by
          rw [view]
          exact ends.1.flushed kept (ends.2.trans same.symm)
        exact ⟨shows _ (shown flushed.level.held), flushed⟩
    simp only [wp_bind (read _), wp_read, onOk_ok]
    refine ⟨here, ?_⟩
    split
    · rename_i sparse
      refine emptied SPARSE_HEADER_SIZE ?_
      rw [headerOf, if_pos sparse]
    · rename_i dense
      refine emptied 0 ?_
      rw [headerOf, if_neg dense]

end ZenFSProof
