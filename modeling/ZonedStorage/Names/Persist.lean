import ZonedStorage.Journal.Grows
import ZonedStorage.Names.Table
import ZonedStorage.Device.Passes
import ZonedStorage.Journal.Frame

namespace ZenFSProof

open HardLinks Resumption Resumption.Prog ZenFSModel ZenFSModel.ZenFS Function

/-- What the file system knows about the names of its files, and about who owns them. -/
@[ext] structure NameState where
  table : Table Name Ref
  deleted : Ref → Bool
  locked : Ref → Bool
  id : Ref → Nat
  handles : Ref → Nat
  nextRef : Ref
  nextFileId : Nat

namespace NameState

open ZenFS

def unlink (s : NameState) (r : Ref) (n : Name) : NameState := { s with table := s.table.unlink r n }

def link (s : NameState) (r : Ref) (n : Name) : NameState := { s with table := s.table.link r n }

def discard (s : NameState) (r : Ref) : NameState :=
  if s.table.links r = [] then { s with deleted := update s.deleted r true } else s

def create (s : NameState) : NameState where
  table := s.table.born s.nextRef
  deleted := update s.deleted s.nextRef false
  locked := update s.locked s.nextRef false
  id := update s.id s.nextRef s.nextFileId
  handles := s.handles
  nextRef := s.nextRef + 1
  nextFileId := (s.nextFileId + 1) % 2 ^ 64

def opened (s : NameState) (r : Ref) : NameState :=
  { s with
    locked := update s.locked r true
    handles := update s.handles r (s.handles r + 1) }

end NameState

def nameState (fs : ZenFS) : NameState where
  table := ⟨fun n => fs.files[n]?, fun r => (fs.objects r).linkFiles⟩
  deleted r := (fs.objects r).isDeleted
  locked r := (fs.objects r).openForWr
  id r := (fs.objects r).fileId
  handles := fs.handles
  nextRef := fs.nextRef
  nextFileId := fs.nextFileId

section

variable (fs : ZenFS) (r : Ref) (n : Name)

theorem field_update {α : Type} (field : ZoneFile → α) (objects : Ref → ZoneFile) (r : Ref) (f : ZoneFile) :
    (fun q => field (update objects r f q)) = update (fun q => field (objects q)) r (field f) := by
  funext q
  by_cases same : q = r
  · subst same
    rw [update_self, update_self]
  · rw [update_of_ne same, update_of_ne same]

theorem nameState_setObject (f : ZoneFile) : nameState (fs.setObject r f) =
    { nameState fs with
      table := ⟨(nameState fs).table.lookup, update (nameState fs).table.links r f.linkFiles⟩
      deleted := update (nameState fs).deleted r f.isDeleted
      locked := update (nameState fs).locked r f.openForWr
      id := update (nameState fs).id r f.fileId } := by
  simp only [nameState, setObject, field_update]

theorem nameState_setData {f : ZoneFile} (links : f.linkFiles = (fs.objects r).linkFiles)
    (deleted : f.isDeleted = (fs.objects r).isDeleted) (locked : f.openForWr = (fs.objects r).openForWr)
    (id : f.fileId = (fs.objects r).fileId) : nameState (fs.setObject r f) = nameState fs := by
  rw [nameState_setObject, links, deleted, locked, id]
  simp only [nameState, update_eq_self]

theorem nameState_setLinks (links : List Name) : nameState (fs.setObject r { fs.objects r with linkFiles := links }) =
      { nameState fs with
        table := ⟨(nameState fs).table.lookup, update (nameState fs).table.links r links⟩ } := by
  rw [nameState_setObject]
  simp only [nameState, update_eq_self]

theorem nameState_dropUnowned : nameState (fs.dropUnowned r) = nameState fs := by
  simp only [dropUnowned]
  split
  · rfl
  · exact nameState_setData (fs.dischargeExtents _) r rfl rfl rfl rfl

theorem nameState_synced : nameState (fs.synced r) = nameState fs :=
  nameState_setData fs r (f := (fs.objects r).metadataSynced) rfl rfl rfl rfl

theorem lookup_erase : (fun m : Name => (fs.files.erase n)[m]?) =
    update (fun m : Name => fs.files[m]?) n none := by
  funext m
  rw [erase_lookup]
  by_cases same : m = n
  · rw [same, update_self, if_pos rfl]
  · rw [update_of_ne same, if_neg same]

variable {fs r n}

theorem lookup_insert (free : fs.files[n]? = none) : (fun m : Name => (fs.files.insertIfNew n r)[m]?) =
    update (fun m : Name => fs.files[m]?) n (some r) := by
  funext m
  rw [insertIfNew_lookup]
  by_cases same : m = n
  · subst same
    rw [update_self, free]
    exact if_pos rfl
  · rw [update_of_ne same]
    cases fs.files[m]? with
    | none => exact if_neg same
    | some q => rfl

theorem nameState_eraseFile (held : fs.files[n]? = some r) : nameState (fs.eraseFile n r) =
    { nameState fs with
      table := ⟨update (nameState fs).table.lookup n none, (nameState fs).table.links⟩ } := by
  rw [eraseFile_own (Or.inl held)]
  simp only [nameState, lookup_erase]

theorem nameState_insertFile (free : fs.files[n]? = none) : nameState (fs.insertFile n r) =
    { nameState fs with
      table := ⟨update (nameState fs).table.lookup n (some r), (nameState fs).table.links⟩ } := by
  simp only [nameState, insertFile, lookup_insert free]

end

def Unnoted (fs fs' : ZenFS) : Prop := nameState fs' = nameState fs ∧ fs'.persists = fs.persists

namespace Unnoted

theorem refl (fs : ZenFS) : Unnoted fs fs := ⟨rfl, rfl⟩

theorem trans {fs fs' fs'' : ZenFS} (first : Unnoted fs fs') (second : Unnoted fs' fs'') : Unnoted fs fs'' :=
  ⟨second.1.trans first.1, second.2.trans first.2⟩

variable {α : Type}

theorem onMeta (p : Proc Device α) : (onMeta p).Keeps Unnoted :=
  (Keeps.all p).zoom mdLens (fun fs _ _ => refl fs)

theorem onZbd (p : Proc ZonedBlockDevice α) : (onZbd p).Keeps Unnoted :=
  (Keeps.all p).zoom zbdLens (fun fs _ _ => refl fs)

theorem act {action : ZenFS → α × ZenFS} (same : ∀ fs, Unnoted fs (action fs).2) :
    (Prog.act action : Proc ZenFS α).Keeps Unnoted := Keeps.ofAct same

theorem ask : ask.Keeps Unnoted := act refl

theorem target : target.Keeps Unnoted := by
  refine ask.bind (fun answer => ?_)
  cases answer.status <;> trivial

theorem of_rolls {fs fs' : ZenFS} (rolls : Rolls fs fs') : Unnoted fs fs' := by
  have objects : ∀ {α : Type} (field : ZoneFile → α), (∀ f synced, field { f with nrSyncedExtents := synced } = field f) →
      (fun r => field (fs'.objects r)) = fun r => field (fs.objects r) := by
    intro α field blind
    funext r
    obtain ⟨synced, now⟩ := rolls.objects r
    rw [now, blind]
  have rest := rolls.rest
  refine ⟨?_, by rw [rest]⟩
  ext1
  · ext1
    · exact congrArg (fun (files : FileMap) (n : Name) => files[n]?) rolls.files
    · exact objects ZoneFile.linkFiles (fun _ _ => rfl)
  · exact objects ZoneFile.isDeleted (fun _ _ => rfl)
  · exact objects ZoneFile.openForWr (fun _ _ => rfl)
  · exact objects ZoneFile.fileId (fun _ _ => rfl)
  · change fs'.handles = fs.handles
    rw [rest]
  · change fs'.nextRef = fs.nextRef
    rw [rest]
  · change fs'.nextFileId = fs.nextFileId
    rw [rest]

theorem rollMetaZoneLocked : rollMetaZoneLocked.Keeps Unnoted :=
  Rolls.rollMetaZoneLocked.mono (fun _ _ => of_rolls)

end Unnoted

open ByteString Total

theorem total_append (i : Nat) (buffer : Bytes) : (Zone.append i buffer).Total := by
  refine (ofRead _).bind (fun z => ?_)
  split
  · exact ofFail _
  · intro d
    refine wp_appendLoop _ (Nat.le_refl _) ⟨fun _ _ _ _ => trivial, fun _ _ _ _ _ _ => trivial, fun _ _ => trivial⟩

theorem total_addRecord (zone : Nat) (slice : Bytes) : (ZenMetaLog.addRecord zone slice).Total :=
  (ofRead _).bind (fun _ => total_append _ _)

theorem total_allocateMetaZoneFrom (zones : List Nat) : (allocateMetaZoneFrom zones).Total := by
  induction zones with
  | nil => exact ofFail _
  | cons i rest ih =>
    refine (ofAct _).bind (fun acquired => ?_)
    cases acquired with
    | false => exact ih
    | true =>
      refine (ofRead _).bind (fun z => ?_)
      split
      · exact ih
      · split
        · exact ofRet _
        · refine (total_reset i).attempt.bind (fun cleared => ?_)
          cases cleared with
          | ok _ => exact ofRet _
          | error status => exact (total_checkRelease i).bind (fun _ => ih)

theorem total_closeOldMetaZone (zone : Nat) : (closeOldMetaZone zone).Total := by
  have finish : (Device.zoneAt zone >>= fun z => if 0 < z.capacity then
      (Zone.finish zone).attempt >>= fun _ => pure () else pure ()).Total := by
    refine (ofRead _).bind (fun z => ?_)
    split
    · exact (total_finish zone).attempt.bind (fun _ => ofRet _)
    · exact ofRet _
  refine (ofRead _).bind (fun z => ?_)
  split
  · exact (total_addRecord zone _).attempt.bind (fun _ => finish)
  · exact finish

theorem total_writeSnapshotLocked (zone : Nat) : (writeSnapshotLocked zone).Total :=
  (ofRead _).bind (fun _ => (total_addRecord zone _).zoom mdLens |>.bind (fun _ => ofUpdate _))

theorem total_rollMetaZoneLocked : rollMetaZoneLocked.Total := by
  have release : ∀ (zone : Nat) {next : Bool → Proc ZenFS Unit}, (∀ released, (next released).Total) →
      (onMeta (Zone.release zone) >>= next).Total :=
    fun zone next rest => ((ofAct _).zoom mdLens).bind rest
  have allocate : allocateMetaZone.Total := (ofRead _).bind total_allocateMetaZoneFrom
  refine (allocate.zoom mdLens).bind (fun newMetaZone => (ofAct _).bind (fun oldMetaZone => ?_))
  refine ((total_closeOldMetaZone oldMetaZone).zoom mdLens).bind (fun _ => (ofAct _).bind (fun superString => ?_))
  refine ((total_addRecord newMetaZone superString).zoom mdLens).attempt.bind (fun added => ?_)
  cases added with
  | error status => exact release _ (fun _ => ofFail _)
  | ok _ =>
    refine (total_writeSnapshotLocked newMetaZone).attempt.bind (fun snapshot => ?_)
    cases snapshot with
    | error status => exact release _ (fun _ => ofFail _)
    | ok _ => exact ((total_reset oldMetaZone).zoom mdLens).attempt.bind (fun _ => release _ (fun _ => ofRet _))

theorem total_resetUnusedIOZones : resetUnusedIOZones.Total := by
  refine zoom zbdLens ((ofRead _).bind (fun zones => forM zones (fun i => ?_)))
  have onDev : ∀ {α : Type} {p : Proc Device α}, p.Total → (ZonedBlockDevice.onDev p).Total :=
    fun total => total.zoom ioLens
  have except : ∀ result : Except Status Unit, (Prog.ofExcept result : Proc ZonedBlockDevice Unit).Total := by
    intro result
    cases result with
    | ok value => exact ofRet value
    | error status => exact ofFail status
  refine (onDev (ofAct _)).bind (fun acquired => ?_)
  cases acquired with
  | false => exact ofRet _
  | true =>
    refine (onDev (ofRead _)).bind (fun z => ?_)
    split
    · refine (onDev (total_reset i)).attempt.bind (fun cleared => (onDev (total_checkRelease i)).attempt.bind
        (fun released => (except cleared).bind (fun _ => (except released).bind (fun _ => ?_))))
      split
      · exact ofRet _
      · exact ofUpdate _
    · exact onDev (total_checkRelease i)

structure Persists (fs : ZenFS) (record : Bytes) (result : Except Status Unit) (fs' : ZenFS) : Prop where
  names : nameState fs' = nameState fs
  event : ∃ outcome, fs'.persists = ⟨record, outcome⟩ :: fs.persists ∧ (outcome = .failed ↔ result.isOk = false)

theorem ensures_persistRecord (fs : ZenFS) (record : Bytes) :
    Ensures (persistRecord record) (Persists fs record) fs := by
  have unnoted : ∀ {α : Type} {p : Proc ZenFS α}, p.Total → p.Keeps Unnoted → ∀ fs',
      Ensures p (fun _ fs'' => Unnoted fs' fs'') fs' := by
    intro α p total keeps fs'
    have moves := keeps.wp_of Unnoted.refl (fun _ _ _ => Unnoted.trans) fs'
    exact total.wp (wp_weaken (fun _ _ => trivial) id moves)
  have noted : ∀ {fs' : ZenFS}, Unnoted (fs.attempted record) fs' → ∀ outcome result,
      (outcome = .failed ↔ result.isOk = false) → Persists fs record result (fs'.noted record outcome) := by
    intro fs' same outcome result failed
    refine ⟨same.1, outcome, ?_, failed⟩
    change _ :: fs'.persists = _
    rw [same.2]
    rfl
  have fails : ∀ {fs' : ZenFS}, Unnoted (fs.attempted record) fs' → ∀ status,
      Ensures (Prog.update (fun fs => fs.noted record .failed) >>= fun _ => (Prog.fail status : Proc ZenFS Unit))
        (Persists fs record) fs' := by
    intro fs' same status
    simp only [wp_bind, wp_update, onOk_ok, wp_fail, true_and]
    exact noted same .failed _ (by simp [Except.isOk, Except.toBool])
  simp only [persistRecord, wp_bind, wp_act, onOk_ok, true_and]
  rw [wp_attempt]
  refine wp_mono ?_ (unnoted ((total_addRecord _ record).zoom mdLens) (Unnoted.onMeta _) (fs.attempted record))
  intro result fs₁ first
  cases result with
  | ok _ => exact ⟨trivial, noted first .appended _ (by simp [Except.isOk, Except.toBool])⟩
  | error status =>
    rw [onOk_ok]
    dsimp only
    split
    · simp only [wp_bind]
      rw [wp_attempt]
      refine wp_mono ?_ (unnoted total_rollMetaZoneLocked Unnoted.rollMetaZoneLocked fs₁)
      intro result fs₂ second
      cases result with
      | ok _ => exact ⟨trivial, noted (first.trans second) .rolled _ (by simp [Except.isOk, Except.toBool])⟩
      | error status => exact fails (first.trans second) status
    · exact fails first status

end ZenFSProof
