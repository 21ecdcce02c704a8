import ZonedStorage.Device.Allocation
import ZonedStorage.File.Contents
import ZonedStorage.Journal.Frame
import ZonedStorage.Journal.Grows
import ZonedStorage.Namespace.Write

namespace ZenFSProof

open ByteString Resumption.Prog ZenFSModel ZenFSModel.ZenFS

structure View where
  ref : Ref
  dev : Device
  file : ZoneFile
  writer : Writer

def viewOf (w : Nat) (r : Ref) (fs : ZenFS) : View := ⟨r, fs.zbd.dev, fs.objects r, fs.writers w⟩

namespace View

def held (v : View) : Bytes := contents v.dev v.file.extents

variable {v : View} {stream : Bytes}

theorem shown {size : Nat} (held : v.held = stream.take size) : v.held <+: stream := by
  rw [held]
  exact List.take_prefix _ _

def pending (v : View) : Bytes := v.writer.buffer.read v.writer.dataOffset v.writer.bufferPos

def Placed (v : View) : Prop := ∀ zone, v.file.activeZone = some zone → v.file.extentStart = (v.dev.zones zone).wp

def Active (v : View) : Prop :=
  ∀ zone, v.file.activeZone = some zone → zone < v.dev.count ∧ 0 < (v.dev.zones zone).capacity

structure Kept (v : View) : Prop where
  laid : Laid v.dev
  roomy : Roomy v.dev
  stored : Stored v.dev v.file.extents
  file : v.writer.file = v.ref
  buffered : v.writer.buffered = true
  header : v.writer.dataOffset = headerOf v.file
  small : v.writer.bufferSz + headerOf v.file = 2 ^ 20
  filled : v.writer.bufferPos ≤ v.writer.bufferSz

structure Level (v : View) (stream : Bytes) : Prop where
  held : v.held = stream.take v.file.fileSize
  pending : v.pending = stream.drop v.file.fileSize
  size : v.file.fileSize + v.writer.bufferPos = stream.length

structure Holds (v : View) (stream : Bytes) : Prop where
  kept : v.Kept
  active : v.Active
  level : v.Level stream

structure Safe (v : View) (stream : Bytes) : Prop where
  kept : v.Kept
  active : v.Active
  ahead : stream.length ≤ v.file.fileSize + v.writer.bufferPos
  level : v.file.fileSize + v.writer.bufferPos = stream.length → v.Level stream

theorem Safe.excess (kept : v.Kept) (active : v.Active)
    (more : stream.length < v.file.fileSize + v.writer.bufferPos) : v.Safe stream := by
  refine ⟨kept, active, Nat.le_of_lt more, fun size => ?_⟩
  omega

theorem Holds.safe (holds : v.Holds stream) : v.Safe stream :=
  ⟨holds.kept, holds.active, Nat.le_of_eq holds.level.size.symm, fun _ => holds.level⟩

theorem Safe.earlier {more : Bytes} (safe : v.Safe (stream ++ more)) : v.Safe stream := by
  have ahead := safe.ahead
  rw [List.length_append] at ahead
  refine ⟨safe.kept, safe.active, by omega, fun size => ?_⟩
  have nothing : more = [] := List.length_eq_zero_iff.mp (by omega)
  have level := safe.level (by rw [List.length_append]; omega)
  rw [nothing, List.append_nil] at level
  exact level

end View

open Resumption Function ZoneFile

theorem Recording.persistMetadata (r : Ref) : (persistMetadata r).Keeps Recording :=
  (Recording.getFilename r).bind (fun _ => Recording.syncFileMetadata r false)

structure Spares (v v' : View) : Prop where
  ref : v'.ref = v.ref
  dev : Retains v.dev v'.dev
  extents : v'.file.extents = v.file.extents
  size : v'.file.fileSize = v.file.fileSize
  sparse : v'.file.isSparse = v.file.isSparse
  writer : v'.writer = v.writer

namespace Spares

theorem refl (v : View) : Spares v v := ⟨rfl, Retains.refl _, rfl, rfl, rfl, rfl⟩

theorem trans {v v' v'' : View} (first : Spares v v') (second : Spares v' v'') : Spares v v'' :=
  ⟨second.ref.trans first.ref, first.dev.trans second.dev, second.extents.trans first.extents, second.size.trans first.size,
    second.sparse.trans first.sparse, second.writer.trans first.writer⟩

variable {v v' : View} (spares : Spares v v')

include spares

theorem held (kept : v.Kept) : v'.held = v.held := by
  simp only [View.held, spares.extents]
  exact spares.dev.contents kept.laid kept.stored

theorem headerOf : headerOf v'.file = headerOf v.file := by
  simp only [ZenFSProof.headerOf, spares.sparse]

theorem level (kept : v.Kept) {stream : Bytes} (level : v.Level stream) : v'.Level stream := by
  refine ⟨?_, ?_, ?_⟩
  · rw [spares.held kept, spares.size]
    exact level.held
  · simp only [View.pending, spares.writer, spares.size]
    exact level.pending
  · rw [spares.size, spares.writer]
    exact level.size

theorem kept (kept : v.Kept) : v'.Kept where
  laid := spares.dev.laid kept.laid
  roomy := spares.dev.roomy kept.laid kept.roomy
  stored := by
    rw [spares.extents]
    exact spares.dev.stored kept.laid kept.stored
  file := by
    rw [spares.writer, spares.ref]
    exact kept.file
  buffered := by
    rw [spares.writer]
    exact kept.buffered
  header := by
    rw [spares.writer, spares.headerOf]
    exact kept.header
  small := by
    rw [spares.writer, spares.headerOf]
    exact kept.small
  filled := by
    rw [spares.writer]
    exact kept.filled

end Spares

def Sparing (w : Nat) (r : Ref) (fs fs' : ZenFS) : Prop := Spares (viewOf w r fs) (viewOf w r fs')

namespace Sparing

variable {w : Nat} {r : Ref}

theorem refl (fs : ZenFS) : Sparing w r fs fs := Spares.refl _

variable {fs : ZenFS} {α : Type}

theorem trans {fs' fs'' : ZenFS} (first : Sparing w r fs fs') (second : Sparing w r fs' fs'') :
    Sparing w r fs fs'' := Spares.trans first second

theorem onZbd {p : Proc ZonedBlockDevice α} (keeps : p.Keeps (Behind Retains)) : (ZenFS.onZbd p).Keeps (Sparing w r) :=
  keeps.zoom zbdLens (fun _ _ behind => ⟨rfl, behind.dev, rfl, rfl, rfl, rfl⟩)

theorem onIo {p : Proc Device α} (keeps : p.Keeps Retains) : (ZenFS.onIo p).Keeps (Sparing w r) :=
  onZbd (Marks.onDev keeps)

theorem recording {fs' : ZenFS} (recording : Recording fs fs') : Sparing w r fs fs' := by
  obtain ⟨_, _, same⟩ := recording.objects r
  refine ⟨rfl, ?_, ?_, ?_, ?_, ?_⟩
  · simp only [viewOf, recording.zbd]
    exact Retains.refl _
  · simp only [viewOf, same]
  · simp only [viewOf, same]
  · simp only [viewOf, same]
  · simp only [viewOf]
    rw [recording.rest]

theorem setObject {f : ZoneFile} (extents : f.extents = (fs.objects r).extents)
    (size : f.fileSize = (fs.objects r).fileSize) (sparse : f.isSparse = (fs.objects r).isSparse) :
    Sparing w r fs (fs.setObject r f) := by
  have file : (fs.setObject r f).objects r = f := update_self ..
  refine ⟨rfl, Retains.refl _, ?_, ?_, ?_, rfl⟩
  · simp only [viewOf, file]
    exact extents
  · simp only [viewOf, file]
    exact size
  · simp only [viewOf, file]
    exact sparse

theorem withIo {now : ZenFS} (sparing : Sparing w r fs now) {d : Device} (retains : Retains now.zbd.dev d) :
    Sparing w r fs (withIo now d) := sparing.trans ⟨rfl, retains, rfl, rfl, rfl, rfl⟩

theorem wp {p : Proc ZenFS α} (keeps : p.Keeps (Sparing w r)) {now : ZenFS} (sparing : Sparing w r fs now) :
    Prog.wp (Sparing w r fs) True p (fun _ fs' => Sparing w r fs fs') now :=
  keeps.wp_from (fun _ _ _ => trans) sparing

end Sparing

section

variable {w : Nat} {r : Ref} {fs now : ZenFS}

variable {β : Type} {post : Except Status β → ZenFS → Prop}

theorem wp_ioRead_bind {α : Type} {view : Device → α} {k : α → Proc ZenFS β} {seen : ZenFS → Prop} {stuck : Prop}
    (here : seen now)
    (rest : wp seen stuck (k (view now.zbd.dev)) post now) :
    wp seen stuck (onIo (Prog.read view) >>= k) post now :=
  (wp_bind _ _ _ _).mpr (wp_onIo.mpr ⟨here, rest⟩)

theorem wp_ioAct_bind {α : Type} {action : Device → α × Device} {k : α → Proc ZenFS β}
    (keeps : (Prog.act action : Proc Device α).Keeps Retains)
    (sparing : Sparing w r fs now)
    (rest : ∀ answer d, Sparing w r fs (withIo now d) → wp (Sparing w r fs) True (k answer) post (withIo now d)) :
    wp (Sparing w r fs) True (onIo (Prog.act action) >>= k) post now := by
  have moved := sparing.withIo (keeps.1 now.zbd.dev (action now.zbd.dev).1 (action now.zbd.dev).2 rfl)
  exact (wp_bind _ _ _ _).mpr (wp_onIo.mpr ⟨moved, rest _ _ moved⟩)

theorem wp_releaseActiveZone_bind {zone : Nat} {k : Unit → Proc ZenFS β} (sparing : Sparing w r fs now)
    (rest : ∀ fs', Sparing w r fs fs' → (fs'.objects r).activeZone = none →
      wp (Sparing w r fs) True (k ()) post fs') :
    wp (Sparing w r fs) True (releaseActiveZone r zone >>= k) post now := by
  rw [releaseActiveZone, LawfulMonad.bind_assoc]
  refine wp_ioAct_bind (Retains.finishes.release zone) sparing (fun _ d released => ?_)
  have done : Sparing w r fs ((withIo now d).setObject r { (withIo now d).objects r with activeZone := none }) :=
    released.trans (Sparing.setObject rfl rfl rfl)
  rw [wp_bind]
  exact ⟨done, rest _ done (by simp only [setObject, update_self])⟩

theorem wp_token_bind {change : ZonedBlockDevice → ZonedBlockDevice} {k : Unit → Proc ZenFS β}
    (same : ∀ zbd, (change zbd).dev = zbd.dev) (sparing : Sparing w r fs now)
    (rest : ∀ fs', Sparing w r fs fs' → fs'.objects = now.objects → wp (Sparing w r fs) True (k ()) post fs') :
    wp (Sparing w r fs) True (onZbd (Prog.update change) >>= k) post now := by
  have counted : Sparing w r fs { now with zbd := change now.zbd } := by
    refine sparing.trans ⟨rfl, ?_, rfl, rfl, rfl, rfl⟩
    simp only [viewOf, same]
    exact Retains.refl _
  exact (wp_bind _ _ _ _).mpr (wp_onZbd.mpr ⟨counted, rest _ counted rfl⟩)

theorem wp_closeActiveZone (sparing : Sparing w r fs now) : wp (Sparing w r fs) True (closeActiveZone r)
      (fun _ fs' => Sparing w r fs fs' ∧ (fs'.objects r).activeZone = none) now := by
  simp only [closeActiveZone, object, wp_bind (Prog.read _), wp_read, onOk_ok]
  refine ⟨sparing, ?_⟩
  cases active : (now.objects r).activeZone with
  | none => exact ⟨sparing, active⟩
  | some zone =>
    refine wp_ioRead_bind sparing ?_
    rw [wp_bind, wp_attempt]
    refine wp_mono ?_ (Sparing.wp (Sparing.onIo (Retains.finishes.close zone)) sparing)
    intro closed closing there
    refine wp_releaseActiveZone_bind there (fun released there empty => ?_)
    rw [wp_bind, wp_ofExcept]
    cases closed with
    | error status => exact ⟨there, empty⟩
    | ok _ =>
      rw [onOk_ok]
      refine wp_token_bind ?_ there (fun returned there same => ?_)
      · exact fun _ => rfl
      have still : (returned.objects r).activeZone = none := by
        rw [same]
        exact empty
      split
      · refine wp_onZbd.mpr ⟨?_, ?_, still⟩
        · exact there.trans ⟨rfl, Retains.refl _, rfl, rfl, rfl, rfl⟩
        · exact there.trans ⟨rfl, Retains.refl _, rfl, rfl, rfl, rfl⟩
      · exact ⟨there, still⟩

structure Opened (v : View) : Prop where
  active : v.Active
  placed : v.Placed

theorem Opened.none {v : View} (idle : v.file.activeZone = none) : Opened v := by
  refine ⟨?_, ?_⟩
  · intro zone active
    rw [idle] at active
    cases active
  · intro zone active
    rw [idle] at active
    cases active

theorem Opened.recorded {fs' : ZenFS} (opened : Opened (viewOf w r fs)) (recording : Recording fs fs') :
    Opened (viewOf w r fs') := by
  obtain ⟨_, _, same⟩ := recording.objects r
  refine ⟨?_, ?_⟩
  · simp only [View.Active, viewOf, recording.zbd, same]
    exact opened.active
  · simp only [View.Placed, viewOf, recording.zbd, same]
    exact opened.placed

theorem wp_persistMetadata (sparing : Sparing w r fs now) : wp (Sparing w r fs) True (persistMetadata r)
      (fun _ fs' => Sparing w r fs fs' ∧ Recording now fs') now := by
  have records := (Recording.persistMetadata r).wp_of Recording.refl (fun _ _ _ => Recording.trans) now
  refine wp_mono ?_ (wp_weaken (fun _ recording => sparing.trans (Sparing.recording recording)) id records)
  exact fun _ _ recording => ⟨sparing.trans (Sparing.recording recording), recording⟩

theorem wp_allocateNewZone (rounds : Nat) (sparing : Sparing w r fs now) (laid : Laid now.zbd.dev)
    (roomy : Roomy now.zbd.dev) (idle : (now.objects r).activeZone = none) :
    wp (Sparing w r fs) True (allocateNewZone rounds r)
      (fun result fs' => Sparing w r fs fs' ∧ Opened (viewOf w r fs') ∧
        (result = .ok () → ∃ zone, (fs'.objects r).activeZone = some zone) ∧
        (result = .ok () → (fs'.objects r).extentFilepos = (fs'.objects r).fileSize)) now := by
  simp only [allocateNewZone, object, wp_bind, wp_read, onOk_ok]
  refine ⟨sparing, wp_onZbd.mpr ?_⟩
  have allocates := wp_allocateIOZone rounds (now.objects r).lifetime (now.objects r).ioType
    (Retains.finishes.still now.zbd)
  have seen : ∀ zbd', Keeping now.zbd zbd' → Sparing w r fs { now with zbd := zbd' } :=
    fun zbd' keeping => sparing.trans ⟨rfl, keeping.dev, rfl, rfl, rfl, rfl⟩
  refine wp_mono ?_ (wp_weaken seen id allocates)
  rintro result zbd' ⟨keeping, allots⟩
  have there := seen zbd' keeping
  rcases result with status | allocated | zone
  · exact ⟨there, Opened.none idle, by simp, by simp⟩
  · exact ⟨there, Opened.none idle, by simp, by simp⟩
  · obtain ⟨inside, room⟩ := allots zone rfl
    have file : (activate r zone { now with zbd := zbd' }).objects r = { now.objects r with
        activeZone := some zone, extentStart := (zbd'.dev.zones zone).wp
        extentFilepos := (now.objects r).fileSize } := update_self ..
    have activated : Sparing w r fs (activate r zone { now with zbd := zbd' }) :=
      there.trans (Sparing.setObject rfl rfl rfl)
    have opened : Opened (viewOf w r (activate r zone { now with zbd := zbd' })) := by
      refine ⟨?_, ?_⟩
      · intro other active
        simp only [viewOf, file] at active ⊢
        cases active
        refine ⟨?_, room laid roomy⟩
        have count : zbd'.dev.count = now.zbd.dev.count := keeping.dev.layout.count
        exact Nat.lt_of_lt_of_eq inside count.symm
      · intro other active
        simp only [viewOf, file] at active ⊢
        cases active
        rfl
    simp only [onOk_ok, wp_bind, wp_update]
    refine ⟨activated, wp_mono ?_ (wp_persistMetadata activated)⟩
    rintro result fs' ⟨sparing', recording⟩
    obtain ⟨_, _, same⟩ := recording.objects r
    refine ⟨sparing', opened.recorded recording, fun _ => ⟨zone, ?_⟩, fun _ => ?_⟩
    · rw [same, file]
    · rw [same, file]

end

end ZenFSProof
