import ZonedStorage.Device.Layout
import ZonedStorage.Journal.Snapshot

namespace ZenFSProof

open ByteString Resumption Resumption.Prog ZenFSModel ZenFSModel.ZenFS

structure Writes (fs : ZenFS) (c : FileCatalog) (e : Entry) (record : Bytes) : Prop where
  carries : Readable record → Carries (getIOZone fs.zbd.dev) e record
  applies : Applies c e

/-- The persist has appended a record that can be read back. -/
def Clean (event : PersistEvent) : Prop := event.outcome = .appended ∧ Readable event.record

instance (event : PersistEvent) : Decidable (Clean event) := inferInstanceAs (Decidable (_ ∧ _))

def Dirty (fs : ZenFS) : Prop := ∃ event ∈ fs.persists, ¬ Clean event

/-- A way of keeping the metadata log, as long as it is clean. `tells` is what the log stands for, `safe`
    what holds of the metadata zone at every moment, and `allows` which entries may be written. -/
structure Ledger where
  tells : ZenFS → FileCatalog → Prop
  safe : Device → Nat → List PersistAttempt → List PersistEvent → (Nat → Option Nat) → Prop
  allows : FileCatalog → Entry → Prop
  given_up : ∀ {fs}, Dirty fs → safe fs.md fs.metaLog.zone fs.attempts fs.persists (getIOZone fs.zbd.dev)
  stands : ∀ {fs c}, tells fs c → safe fs.md fs.metaLog.zone fs.attempts fs.persists (getIOZone fs.zbd.dev)
  quiet : ∀ {fs fs' c}, Quiet fs fs' → tells fs c → tells fs' c
  persist : ∀ {fs c e record} {post : Except Status Unit → ZenFS → Prop}, tells fs c → Writes fs c e record →
    allows c e → (∀ result fs', Dirty fs' → post result fs') →
    (∀ calls, tells (recorded fs record calls) (applyEntry c e) → post (.ok ()) (recorded fs record calls)) →
    wp (fun fs => safe fs.md fs.metaLog.zone fs.attempts fs.persists (getIOZone fs.zbd.dev)) True
      (persistRecord record) post fs

namespace Ledger

variable (L : Ledger) {α : Type}

def Seen (fs : ZenFS) : Prop := L.safe fs.md fs.metaLog.zone fs.attempts fs.persists (getIOZone fs.zbd.dev)

abbrev Under (p : Proc ZenFS α) (post : Except Status α → ZenFS → Prop) (fs : ZenFS) : Prop :=
  wp L.Seen True p post fs

def Tracks (fs : ZenFS) : Prop := ∃ c, Live fs c ∧ L.tells fs c

abbrev Keeping (p : Proc ZenFS α) (fs : ZenFS) : Prop :=
  L.Under p (fun _ fs' => Dirty fs' ∨ L.Tracks fs') fs

end Ledger

section

variable {L : Ledger} {α β : Type} {fs fs' : ZenFS} {p : Proc ZenFS α}

theorem Dirty.grown (dirty : Dirty fs) (grows : Grows fs fs') : Dirty fs' := by
  obtain ⟨event, member, unclean⟩ := dirty
  exact ⟨event, grows.2.mem member, unclean⟩

theorem Dirty.same (dirty : Dirty fs) (same : history fs' = history fs) : Dirty fs' := dirty.grown (Grows.of_eq same)

theorem Dirty.run (dirty : Dirty fs) (keeps : p.Keeps Grows) : L.Under p (fun _ fs' => Dirty fs') fs := by
  have moves := keeps.wp_of Grows.refl (fun _ _ _ => Grows.trans) fs
  exact wp_mono (fun _ _ grows => dirty.grown grows) (wp_weaken (fun _ grows => L.given_up (dirty.grown grows)) id moves)

theorem Dirty.keeping (dirty : Dirty fs) (keeps : p.Keeps Grows) : L.Keeping p fs :=
  wp_mono (fun _ _ still => Or.inl still) (dirty.run keeps)

namespace Ledger

theorem Tracks.seen (tracks : L.Tracks fs) : L.Seen fs := by
  obtain ⟨c, _, tells⟩ := tracks
  exact L.stands tells

theorem Keeping.bind {k : α → Proc ZenFS β} (first : L.Keeping p fs)
    (next : ∀ value fs', L.Tracks fs' → L.Keeping (k value) fs')
    (grows : ∀ value, (k value).Keeps Grows) : L.Keeping (p >>= k) fs := by
  rw [Keeping, Under, wp_bind]
  refine wp_mono ?_ first
  intro result fs' kept
  cases result with
  | error status => exact kept
  | ok value =>
    rcases kept with dirty | tracks
    · exact dirty.keeping (grows value)
    · exact next value fs' tracks

theorem Tracks.congr (tracks : L.Tracks fs) (files : ∀ n : Name, fs'.files[n]? = fs.files[n]?)
    (objects : ∀ (n : Name) r, fs.files[n]? = some r → fs'.objects r = fs.objects r)
    (deleted : ∀ r, (fs'.objects r).isDeleted = (fs.objects r).isDeleted)
    (zones : getIOZone fs'.zbd.dev = getIOZone fs.zbd.dev)
    (rest : fs' = { fs with
      files := fs'.files, objects := fs'.objects, zbd := fs'.zbd, asked := fs'.asked
      filenameReads := fs'.filenameReads }) : L.Tracks fs' := by
  obtain ⟨c, live, tells⟩ := tracks
  have still : Quiet fs fs' := ⟨by rw [rest], by rw [rest], by rw [rest], by rw [rest], by rw [rest], zones⟩
  refine ⟨c, live.congr files objects deleted ?_ ?_ ?_ zones ?_, L.quiet still tells⟩
  · rw [rest]
  · rw [rest]
  · rw [rest]
  · rw [rest]

theorem Tracks.reads (tracks : L.Tracks fs) (reads : List (List Name)) : L.Tracks { fs with filenameReads := reads } :=
  tracks.congr (fun _ => rfl) (fun _ _ _ => rfl) (fun _ => rfl) rfl rfl

theorem Tracks.grown {r : Ref} (tracks : L.Tracks fs) (grown : Grown fs fs' r)
    (below : fs'.handles r ≠ 0 → r < fs.nextRef) (attached : fs'.handles r ≠ 0 → Attached fs r) : L.Tracks fs' := by
  obtain ⟨c, live, tells⟩ := tracks
  exact ⟨c, live.grown grown below attached, L.quiet grown.quiet tells⟩

end Ledger

end

theorem SameLayout.getIOZone {d d' : Device} (same : SameLayout d d') : ZenFS.getIOZone d' = ZenFS.getIOZone d := by
  funext offset
  simp only [ZenFS.getIOZone, same.start, same.geo, same.count]

section

variable {L : Ledger} {fs : ZenFS}

theorem keeping_target (tracks : L.Tracks fs) : L.Keeping target fs := by
  have asked : L.Tracks { fs with asked := fs.asked + 1 } :=
    tracks.congr (fun _ => rfl) (fun _ _ _ => rfl) (fun _ => rfl) rfl rfl
  simp only [target, ask, wp_bind, wp_act, onOk_ok]
  refine ⟨asked.seen, ?_⟩
  cases (fs.answers fs.asked).status with
  | none => exact Or.inr asked
  | some status => exact Or.inr asked

theorem keeping_resetUnusedIOZones (tracks : L.Tracks fs) : L.Keeping resetUnusedIOZones fs := by
  have moved : ∀ zbd, SameZbdLayout fs.zbd zbd → L.Tracks { fs with zbd := zbd } := fun zbd same =>
    tracks.congr (fun _ => rfl) (fun _ _ _ => rfl) (fun _ => rfl) same.getIOZone rfl
  refine (wp_zoom zbdLens _ _ _).mpr ?_
  have layout := SameZbdLayout.resetUnusedIOZones.wp_of SameZbdLayout.refl
    (fun _ _ _ first second => SameLayout.trans first second) fs.zbd
  refine wp_mono ?_ (wp_weaken (fun zbd same => (moved zbd same).seen) id layout)
  exact fun result zbd same => Or.inr (moved zbd same)

end

open Function ZenFS

def Stamped (g f : ZoneFile) : Prop := ∃ time, f = { g with mTime := time } ∧ (time < 2 ^ 64 ∨ time = g.mTime)

theorem Stamped.refl (f : ZoneFile) : Stamped f f := ⟨f.mTime, rfl, Or.inr rfl⟩

def touched (fs : ZenFS) (r : Ref) (f : ZoneFile) (asked : Nat) : ZenFS :=
  { fs with objects := update fs.objects r f, asked := asked }

theorem touched_object (fs : ZenFS) (r : Ref) (f : ZoneFile) (asked : Nat) : (touched fs r f asked).objects r = f :=
  update_self ..

def filed (fs : ZenFS) (r : Ref) (f : ZoneFile) (replace : Bool) (asked calls : Nat) : ZenFS :=
  (recorded (touched fs r f asked) (fileRecord f replace) calls).synced r

theorem filed_objects (fs : ZenFS) (r : Ref) (f : ZoneFile) (replace : Bool) (asked calls : Nat) :
    (filed fs r f replace asked calls).objects = update fs.objects r f.metadataSynced := by
  simp only [filed, synced, recorded, touched, setObject, setPersisted, update_self,
    update_idem]

theorem filed_persisted (fs : ZenFS) (r : Ref) (f : ZoneFile) (replace : Bool) (asked calls : Nat) :
    (filed fs r f replace asked calls).persisted = update fs.persisted r f.metadataSynced := by
  simp only [filed, synced, logged, recorded, touched, setObject, setPersisted, update_self, if_true]

theorem touched_quiet (fs : ZenFS) (r : Ref) (f : ZoneFile) (asked : Nat) : Quiet fs (touched fs r f asked) :=
  ⟨rfl, rfl, rfl, rfl, rfl, rfl⟩

theorem synced_quiet (fs : ZenFS) (r : Ref) : Quiet fs (fs.synced r) := ⟨rfl, rfl, rfl, rfl, rfl, rfl⟩

def updateEntry (f : ZoneFile) (replace : Bool) : Entry := .update (nodeOf (updateOf f f.nrSyncedExtents)) replace

section

variable {L : Ledger} {fs : ZenFS} {r : Ref} {c : FileCatalog} {replace : Bool}
  {post : Except Status Unit → ZenFS → Prop}

theorem under_writeFileRecord {f : ZoneFile} {asked : Nat} (tells : L.tells (touched fs r f asked) c)
    (writes : Writes (touched fs r f asked) c (updateEntry f replace) (fileRecord f replace))
    (allows : L.allows c (updateEntry f replace)) (dirty : ∀ result fs', Dirty fs' → post result fs')
    (appended : ∀ calls, L.tells (filed fs r f replace asked calls) (applyEntry c (updateEntry f replace)) →
      post (.ok ()) (filed fs r f replace asked calls)) :
    L.Under (do
      let output ← Prog.read (fun fs => fileRecord (fs.objects r) replace)
      persistRecord output
      Prog.update (fun fs => fs.synced r)) post (touched fs r f asked) := by
  simp only [wp_bind, wp_read, onOk_ok, touched_object]
  refine ⟨L.stands tells, L.persist tells writes allows ?_ ?_⟩
  · intro result fs' gone
    cases result with
    | error status => exact dirty _ _ gone
    | ok _ =>
      have still : Dirty (fs'.synced r) := gone.same rfl
      exact ⟨L.given_up still, dirty _ _ still⟩
  · intro calls told
    have still := L.quiet (synced_quiet _ r) told
    exact ⟨L.stands still, appended calls still⟩

theorem under_syncFileMetadataNoLock (kept : (fs.objects r).isDeleted = false) (tells : L.tells fs c)
    (writes : ∀ f asked, Stamped (fs.objects r) f →
      Writes (touched fs r f asked) c (updateEntry f replace) (fileRecord f replace))
    (allows : ∀ f, Stamped (fs.objects r) f → L.allows c (updateEntry f replace))
    (dirty : ∀ result fs', Dirty fs' → post result fs')
    (appended : ∀ f asked calls, Stamped (fs.objects r) f →
      L.tells (filed fs r f replace asked calls) (applyEntry c (updateEntry f replace)) →
      post (.ok ()) (filed fs r f replace asked calls)) :
    L.Under (syncFileMetadataNoLock r replace) post fs := by
  have rule : ∀ f asked, Stamped (fs.objects r) f → L.Under (do
      let output ← Prog.read (fun fs => fileRecord (fs.objects r) replace)
      persistRecord output
      Prog.update (fun fs => fs.synced r)) post (touched fs r f asked) := fun f asked stamped =>
    under_writeFileRecord (L.quiet (touched_quiet fs r f asked) tells) (writes f asked stamped) (allows f stamped) dirty
      (fun calls => appended f asked calls stamped)
  have here : L.Seen fs := L.stands tells
  simp only [syncFileMetadataNoLock, object, wp_bind, wp_read, onOk_ok, kept, Bool.false_eq_true, if_false]
  refine ⟨here, ?_⟩
  cases replace with
  | true =>
    have unchanged : touched fs r (fs.objects r) fs.asked = fs := by
      simp only [touched, update_eq_self]
    have written := rule (fs.objects r) fs.asked (Stamped.refl _)
    rw [unchanged] at written
    exact written
  | false =>
    have written := rule { fs.objects r with mTime := (fs.answers fs.asked).time.toNat } (fs.asked + 1)
      ⟨_, rfl, Or.inl (fs.answers fs.asked).time.toNat_lt⟩
    simp only [Bool.not_false, if_true, setMTime, ask, modifyObject, wp_bind, wp_act, wp_update, onOk_ok]
    simp only [wp_bind, wp_update] at written
    exact ⟨here, here, written⟩

end

section

variable {fs : ZenFS} {c : FileCatalog} {r : Ref} {f g : ZoneFile} {replace : Bool}

structure Continues (fs : ZenFS) (r : Ref) (f : ZoneFile) (replace : Bool) : Prop where
  known : ∀ {n : Name}, fs.files[n]? = some r →
    if replace then f.nrSyncedExtents = 0 else (fs.persisted r).extents = f.extents.take f.nrSyncedExtents
  fresh : (∀ n : Name, fs.files[n]? ≠ some r) → f.nrSyncedExtents = 0 ∧ ∃ name, f.linkFiles = [name]

theorem Replaces.stamp (replaces : Replaces fs r g) (stamped : Stamped g f) : Replaces fs r f := by
  obtain ⟨time, rfl, fitting⟩ := stamped
  have small : time < 2 ^ 64 := by
    rcases fitting with fitting | same
    · exact fitting
    · rw [same]
      exact replaces.fits.mTime
  exact { replaces with fits := { replaces.fits with mTime := small } }

theorem Continues.stamp (continues : Continues fs r g replace) (stamped : Stamped g f) : Continues fs r f replace := by
  obtain ⟨time, rfl, _⟩ := stamped
  exact ⟨continues.known, continues.fresh⟩

theorem carries_fileRecord {zones : Nat → Option Nat} (readable : Readable (fileRecord f replace))
    (fits : Fits zones f) (counted : f.fileId + 1 < 2 ^ 64) (linked : f.linkFiles ≠ []) :
    Carries zones (updateEntry f replace) (fileRecord f replace) := by
  have inside := tagged_length (if replace then .kFileReplace else .kFileUpdate) f.encodeUpdateTo
  have writable : Writable zones f f.nrSyncedExtents :=
    ⟨fits, Nat.lt_of_le_of_lt inside readable, counted, linked⟩
  refine ⟨readable, _, _, rfl, ?_⟩
  cases replace with
  | true => exact .replace f _ writable
  | false => exact .update f _ writable

theorem Replaces.unknown (live : Live fs c) (replaces : Replaces fs r f) (unbound : ∀ n : Name, fs.files[n]? ≠ some r) :
    ¬ c.Known f.fileId := by
  rintro ⟨n, named⟩
  rw [live.shows.names] at named
  obtain ⟨q, held, same⟩ := Option.map_eq_some_iff.mp named
  have different : q ≠ r := by
    rintro rfl
    exact unbound n held
  have id := (live.synced held).id
  exact replaces.others held different (id.symm.trans same)

theorem applyUpdate_put (live : Live fs c) (replaces : Replaces fs r f) (continues : Continues fs r f replace) :
    applyUpdate c (nodeOf (updateOf f f.nrSyncedExtents)) replace = c.put (nodeOf f) := by
  by_cases bound : ∃ n : Name, fs.files[n]? = some r
  · obtain ⟨n, held⟩ := bound
    have id : (fs.persisted r).fileId = f.fileId := (live.synced held).id.trans (replaces.mine held)
    have named : c.names n = some f.fileId := by
      rw [← id]
      exact live.shows.name_of held
    have body : c.body f.fileId = bodyOf (fs.persisted r) := by
      rw [← id]
      exact live.shows.body held
    have merged : mergeBody (c.body f.fileId) (bodyOf (updateOf f f.nrSyncedExtents)) replace = bodyOf f := by
      have before := continues.known held
      rw [body]
      cases replace with
      | true =>
        simp only [if_true] at before
        simp only [mergeBody, bodyOf, updateOf, if_true, List.nil_append, before, List.drop_zero]
      | false =>
        simp only [Bool.false_eq_true, if_false] at before
        simp only [mergeBody, bodyOf, updateOf, Bool.false_eq_true, if_false, before, List.take_append_drop]
    have known : c.Known (nodeOf (updateOf f f.nrSyncedExtents)).id := ⟨n, named⟩
    rw [applyUpdate_known replace known]
    exact congrArg (fun body => c.put ⟨f.fileId, f.linkFiles, body⟩) merged
  · have unbound : ∀ n : Name, fs.files[n]? ≠ some r := fun n held => bound ⟨n, held⟩
    rw [applyUpdate_new replace (replaces.unknown live unbound), (continues.fresh unbound).1,
      nodeOf_updateOf_zero]

theorem applies_update (live : Live fs c) (replaces : Replaces fs r f) (continues : Continues fs r f replace) :
    Applies c (updateEntry f replace) := by
  refine ⟨replaces.free_names live, replaces.nodup, replaces.linked, ?_⟩
  intro unknown
  have unbound : ∀ n : Name, fs.files[n]? ≠ some r := by
    intro n held
    refine unknown ⟨n, ?_⟩
    have id : (fs.persisted r).fileId = f.fileId := (live.synced held).id.trans (replaces.mine held)
    change c.names n = some f.fileId
    rw [← id]
    exact live.shows.name_of held
  exact (continues.fresh unbound).2

end

open HardLinks Function

structure Relinked (fs fs₁ : ZenFS) (r : Ref) : Prop where
  files : ∀ n : Name, fs₁.files[n]? = rebind (fun n : Name => fs.files[n]?) r (fs₁.objects r).linkFiles n
  rest : fs₁ = { fs with files := fs₁.files, objects := update fs.objects r (fs₁.objects r) }

structure Recordable (fs fs₁ : ZenFS) (c : FileCatalog) (r : Ref) (replace : Bool) : Prop where
  relinked : Relinked fs fs₁ r
  live : Live fs c
  replaces : Replaces fs r (fs₁.objects r)
  continues : Continues fs r (fs₁.objects r) replace
  below : r < fs.nextRef
  counted : (fs₁.objects r).fileId < fs.nextFileId

namespace Relinked

variable {fs fs₁ : ZenFS} {r : Ref}

theorem quiet (relinked : Relinked fs fs₁ r) : Quiet fs fs₁ := by
  have rest := relinked.rest
  exact ⟨by rw [rest], by rw [rest], by rw [rest], by rw [rest], by rw [rest], by rw [rest]⟩

theorem recorded (relinked : Relinked fs fs₁ r) {f : ZoneFile} (stamped : Stamped (fs₁.objects r) f)
    (counter : fs.nextFileId < 2 ^ 64) (replace : Bool) (asked calls : Nat) :
    Recorded fs (filed fs₁ r f replace asked calls) r f := by
  obtain ⟨time, rfl, _⟩ := stamped
  have rest := relinked.rest
  constructor
  · exact relinked.files
  · exact ⟨(fs₁.objects r).openForWr, by rw [filed_objects, update_self]; rfl⟩
  · intro q different _
    rw [filed_objects, update_of_ne different, rest]
    exact update_of_ne different ..
  · rw [filed_persisted, rest]
  · exact Nat.le_of_eq (by rw [rest]; rfl)
  · exact Nat.le_of_eq (by rw [rest]; rfl)
  · change fs₁.nextFileId < 2 ^ 64
    rw [rest]
    exact counter
  · exact relinked.quiet.zones
  · intro q _
    change fs₁.handles q = fs.handles q
    rw [rest]

end Relinked

namespace Recordable

variable {fs fs₁ : ZenFS} {c : FileCatalog} {r : Ref} {replace : Bool} {f : ZoneFile}

theorem live_filed (recordable : Recordable fs fs₁ c r replace) (stamped : Stamped (fs₁.objects r) f)
    (asked calls : Nat) : Live (filed fs₁ r f replace asked calls) (c.put (nodeOf f)) := by
  have id : f.fileId = (fs₁.objects r).fileId := by
    obtain ⟨time, rfl, _⟩ := stamped
    rfl
  have rest := recordable.relinked.rest
  refine recordable.live.put (recordable.replaces.stamp stamped)
    (recordable.relinked.recorded stamped recordable.live.ids replace asked calls) ?_ ?_
  · change r < fs₁.nextRef
    rw [rest]
    exact recordable.below
  · have ids : fs₁.nextFileId = fs.nextFileId := by rw [rest]
    change f.fileId < fs₁.nextFileId
    rw [id, ids]
    exact recordable.counted

theorem writes (recordable : Recordable fs fs₁ c r replace) (stamped : Stamped (fs₁.objects r) f) (asked : Nat) :
    Writes (touched fs₁ r f asked) c (updateEntry f replace) (fileRecord f replace) := by
  have replaces := recordable.replaces.stamp stamped
  have id : f.fileId = (fs₁.objects r).fileId := by
    obtain ⟨time, rfl, _⟩ := stamped
    rfl
  refine ⟨fun readable => ?_, applies_update recordable.live replaces (recordable.continues.stamp stamped)⟩
  have fits := replaces.fits
  have counted := recordable.counted
  have ids := recordable.live.ids
  rw [← recordable.relinked.quiet.zones] at fits
  exact carries_fileRecord readable fits (by omega) replaces.linked

end Recordable

variable {L : Ledger} {fs : ZenFS} {r : Ref}

theorem Recordable.put {fs₁ : ZenFS} {c : FileCatalog} {replace : Bool} {f : ZoneFile}
    (recordable : Recordable fs fs₁ c r replace) (stamped : Stamped (fs₁.objects r) f) :
    applyEntry c (updateEntry f replace) = c.put (nodeOf f) :=
  applyUpdate_put recordable.live (recordable.replaces.stamp stamped) (recordable.continues.stamp stamped)

theorem Recordable.under_sync {fs₁ : ZenFS} {c : FileCatalog} {replace : Bool}
    (recordable : Recordable fs fs₁ c r replace) (tells : L.tells fs c)
    (allows : ∀ f, Stamped (fs₁.objects r) f → L.allows c (updateEntry f replace)) :
    L.Under (syncFileMetadataNoLock r replace) (fun result fs' => Dirty fs' ∨ result = .ok () ∧ L.Tracks fs') fs₁ := by
  refine under_syncFileMetadataNoLock recordable.replaces.kept (L.quiet recordable.relinked.quiet tells)
    (fun f asked stamped => recordable.writes stamped asked) allows (fun _ _ dirty => Or.inl dirty) ?_
  intro f asked calls stamped told
  rw [recordable.put stamped] at told
  exact Or.inr ⟨rfl, c.put (nodeOf f), recordable.live_filed stamped asked calls, told⟩

section

variable {fs : ZenFS} {c : FileCatalog}

theorem Live.rebind_links (live : Live fs c) {n : Name} {r : Ref} (held : fs.files[n]? = some r) (m : Name) :
    fs.files[m]? = rebind (fun n : Name => fs.files[n]?) r (fs.objects r).linkFiles m := by
  by_cases member : m ∈ (fs.objects r).linkFiles
  · have mine := (live.member_iff held).mp member
    rw [mine]
    exact (rebind_self (fun k listed => Or.inr ((live.member_iff held).mp listed)) member).symm
  · exact (rebind_unlisted member (fun mine => member ((live.member_iff held).mpr mine))).symm

theorem Live.replaces (live : Live fs c) {n : Name} {r : Ref} {f : ZoneFile}
    (held : fs.files[n]? = some r) (id : f.fileId = (fs.objects r).fileId)
    (links : f.linkFiles = (fs.objects r).linkFiles) (fits : Fits (getIOZone fs.zbd.dev) f)
    (kept : f.isDeleted = false) : Replaces fs r f where
  mine _ := id.symm
  others second different := by
    rw [id]
    exact live.id_ne held second different
  free m member := by
    rw [links] at member
    exact Or.inr ((live.member_iff held).mp member)
  nodup := by
    rw [links]
    exact live.nodup held
  linked := by
    rw [links]
    exact List.ne_nil_of_mem ((live.member_iff held).mpr held)
  fits := fits
  kept := kept

end

theorem keeping_syncFileMetadata (free : ∀ c e, L.allows c e) (tracks : L.Tracks fs) (attached : Attached fs r) :
    L.Keeping (syncFileMetadata r false) fs := by
  rcases attached with ⟨n, held⟩ | deleted
  · obtain ⟨c, live, tells⟩ := tracks
    have recordable : Recordable fs fs c r false := by
      refine ⟨⟨live.rebind_links held, by rw [update_eq_self]⟩, live,
        live.replaces held rfl rfl (live.fits held) (live.kept held), ?_, live.bounded held, live.counted held⟩
      exact ⟨fun _ => (live.synced held).extents, fun unbound => absurd held (unbound n)⟩
    refine wp_mono ?_ (recordable.under_sync tells (fun _ _ => free _ _))
    rintro result fs' (dirty | ⟨_, kept⟩)
    · exact Or.inl dirty
    · exact Or.inr kept
  · simp only [syncFileMetadata, syncFileMetadataNoLock, ZenFS.object, ZenFS.getFilename, wp_bind, wp_read, wp_act,
      onOk_ok, deleted, if_true, wp_pure]
    exact ⟨tracks.seen, (tracks.reads _).seen, Or.inr (tracks.reads _)⟩

end ZenFSProof
