import ZonedStorage.Journal.Create
import ZonedStorage.Writing.Prefix

namespace ZenFSProof

open ByteString Resumption Resumption.Prog ZenFSModel ZenFSModel.ZenFS Function ZonedWritableFile Keeps ZoneFile

structure Mentions (who : Ref → Prop) (fs fs' : ZenFS) : Prop where
  files : fs'.files = fs.files
  refs : fs'.nextRef = fs.nextRef
  links : ∀ q, (fs'.objects q).linkFiles = (fs.objects q).linkFiles
  writers : ∀ w, (fs'.writers w).file = (fs.writers w).file
  reads : ∀ links ∈ fs'.filenameReads, links ∈ fs.filenameReads ∨ ∃ q, who q ∧ links = (fs.objects q).linkFiles
  deferred : Undeferred fs.zbd fs'.zbd

namespace Mentions

variable {who : Ref → Prop} {fs fs' fs'' : ZenFS}

theorem silent (files : fs'.files = fs.files) (refs : fs'.nextRef = fs.nextRef)
    (links : ∀ q, (fs'.objects q).linkFiles = (fs.objects q).linkFiles)
    (writers : ∀ w, (fs'.writers w).file = (fs.writers w).file) (reads : fs'.filenameReads = fs.filenameReads)
    (deferred : Undeferred fs.zbd fs'.zbd) : Mentions who fs fs' :=
  ⟨files, refs, links, writers, fun links among => Or.inl (by rwa [reads] at among), deferred⟩

theorem refl (fs : ZenFS) : Mentions who fs fs := silent rfl rfl (fun _ => rfl) (fun _ => rfl) rfl id

theorem trans (first : Mentions who fs fs') (second : Mentions who fs' fs'') : Mentions who fs fs'' where
  files := second.files.trans first.files
  refs := second.refs.trans first.refs
  links q := (second.links q).trans (first.links q)
  writers w := (second.writers w).trans (first.writers w)
  reads := by
    intro links among
    rcases second.reads links among with earlier | ⟨q, mentioned, same⟩
    · exact first.reads links earlier
    · exact Or.inr ⟨q, mentioned, same.trans (first.links q)⟩
  deferred unset := second.deferred (first.deferred unset)

theorem setObject (fs : ZenFS) {r : Ref} {f : ZoneFile} (same : f.linkFiles = (fs.objects r).linkFiles) :
    Mentions who fs (fs.setObject r f) := by
  refine silent rfl rfl ?_ (fun _ => rfl) rfl id
  intro q
  simp only [ZenFS.setObject]
  by_cases this : q = r
  · rw [this, update_self]
    exact same
  · rw [update_of_ne this]

theorem clearExtents (fs : ZenFS) (r : Ref) : Mentions who fs (fs.clearExtents r) := by
  refine trans (silent rfl rfl (fun _ => rfl) (fun _ => rfl) rfl id : Mentions who fs
    (fs.dischargeExtents (fs.objects r).extents)) (setObject _ rfl)

theorem dropUnowned (fs : ZenFS) (r : Ref) : Mentions who fs (fs.dropUnowned r) := by
  simp only [ZenFS.dropUnowned]
  split
  · exact refl fs
  · exact clearExtents fs r

theorem ofRolls (rolls : Rolls fs fs') : Mentions who fs fs' := by
  refine silent rolls.files ?_ ?_ ?_ ?_ ?_
  · rw [rolls.rest]
  · intro q
    obtain ⟨_, same⟩ := rolls.objects q
    rw [same]
  · intro w
    rw [rolls.rest]
  · rw [rolls.rest]
  · rw [rolls.rest]
    exact id

section

variable {r : Ref} {α : Type}

theorem read (view : ZenFS → α) : (Prog.read view : Proc ZenFS α).Keeps (Mentions who) := ofRead refl view

theorem modifyObject {change : ZoneFile → ZoneFile} (same : ∀ f, (change f).linkFiles = f.linkFiles) :
    (ZenFS.modifyObject r change).Keeps (Mentions who) :=
  ofUpdate (fun fs => setObject fs (same _))

theorem onZbd {p : Proc ZonedBlockDevice α} (deferred : p.Keeps Undeferred) : (ZenFS.onZbd p).Keeps (Mentions who) :=
  deferred.zoom zbdLens (fun _ _ unset => silent rfl rfl (fun _ => rfl) (fun _ => rfl) rfl unset)

theorem onBehind {p : Proc ZonedBlockDevice α} (keeps : p.Keeps (Behind (fun _ _ => True))) :
    (ZenFS.onZbd p).Keeps (Mentions who) :=
  onZbd (Undeferred.of keeps)

theorem onIo (p : Proc Device α) : (ZenFS.onIo p).Keeps (Mentions who) := onBehind (Marks.onDev (all p))

theorem ask : ZenFS.ask.Keeps (Mentions who) :=
  ofAct (fun _ => silent rfl rfl (fun _ => rfl) (fun _ => rfl) rfl id)

theorem target : ZenFS.target.Keeps (Mentions who) := by
  refine ask.bind (fun answer => ?_)
  cases answer.status <;> trivial

theorem acquireWRLock (r : Ref) : (ZenFS.acquireWRLock r).Keeps (Mentions who) := by
  refine ofAwait ?_
  intro fs answer fs' acquired
  split at acquired
  · cases acquired
  · cases acquired
    exact setObject fs rfl

theorem tryAcquireWRLock (r : Ref) : (ZenFS.tryAcquireWRLock r).Keeps (Mentions who) := by
  refine ofAct ?_
  intro fs
  split
  · exact refl fs
  · exact setObject fs rfl

theorem releaseWRLock (r : Ref) : (ZenFS.releaseWRLock r).Keeps (Mentions who) := modifyObject (fun _ => rfl)

theorem chargeExtents (fs : ZenFS) (extents : List ZoneExtent) : Mentions who fs (fs.chargeExtents extents) :=
  silent rfl rfl (fun _ => rfl) (fun _ => rfl) rfl id

theorem getFilename (mentioned : who r) : (ZenFS.getFilename r).Keeps (Mentions who) := by
  refine ofAct (fun fs => ⟨rfl, rfl, fun _ => rfl, fun _ => rfl, ?_, id⟩)
  intro links among
  rcases List.mem_cons.mp among with mine | earlier
  · exact Or.inr ⟨r, mentioned, mine⟩
  · exact Or.inl earlier

end

section

variable {r : Ref}

theorem persistRecord (record : Bytes) : (ZenFS.persistRecord record).Keeps (Mentions who) :=
  keeps_persistRecord (fun _ => silent rfl rfl (fun _ => rfl) (fun _ => rfl) rfl id)
    (fun _ _ => silent rfl rfl (fun _ => rfl) (fun _ => rfl) rfl id) (fun _ _ => ofRolls)

theorem syncFileMetadata (mentioned : who r) (replace : Bool) :
    (ZenFS.syncFileMetadata r replace).Keeps (Mentions who) := by
  refine (read _).bind (fun f => ?_)
  split
  · exact (getFilename mentioned).bind (fun _ => trivial)
  · refine ite_bind (ask.bind (fun _ => modifyObject (fun _ => rfl))) ?_
    refine (read _).bind (fun output => (persistRecord output).bind (fun _ => ofUpdate (fun fs => ?_)))
    exact ofRolls (Rolls.synced fs r)

theorem persistMetadata (mentioned : who r) : (persistMetadata r).Keeps (Mentions who) :=
  (getFilename mentioned).bind (fun _ => syncFileMetadata mentioned false)

end

section

variable {r : Ref} {w : Nat} {change : Writer → Writer}

theorem modifyWriter (same : ∀ writer, (change writer).file = writer.file) :
    (ZoneFile.modifyWriter w change).Keeps (Mentions who) := by
  refine ofUpdate (fun fs => silent rfl rfl (fun _ => rfl) ?_ rfl id)
  intro v
  by_cases this : v = w
  · rw [this]
    simp only [update_self]
    exact same _
  · simp only [update_of_ne this]

theorem closeActiveZone : (closeActiveZone r).Keeps (Mentions who) := by
  refine (read _).bind (fun f => ?_)
  cases f.activeZone with
  | none => trivial
  | some zone =>
    refine (onIo _).bind (fun z => (onIo _).attempt.bind (fun closed => ?_))
    have released : (releaseActiveZone r zone).Keeps (Mentions who) :=
      (onIo _).bind (fun _ => modifyObject (fun _ => rfl))
    refine released.bind (fun _ => (Keeps.ofExcept closed).bind (fun _ =>
      (onBehind Marks.any.putOpenIOZoneToken).bind (fun _ => ?_)))
    split
    · exact onBehind Marks.any.putActiveIOZoneToken
    · trivial

theorem pushExtent : (pushExtent r).Keeps (Mentions who) := by
  refine (read _).bind (fun f => ?_)
  cases f.activeZone with
  | none => trivial
  | some zone =>
    dsimp only
    split
    · trivial
    · refine (modifyObject (by exact fun _ => rfl)).bind (fun _ => ofUpdate (fun fs => ?_))
      exact (chargeExtents fs _).trans (setObject _ rfl)

theorem allocateNewZone (mentioned : who r) (rounds : Nat) :
    (ZoneFile.allocateNewZone rounds r).Keeps (Mentions who) := by
  refine (read _).bind (fun f => (onBehind (Finishes.any.allocateIOZone _ _ _)).bind (fun allocated => ?_))
  cases allocated with
  | none => trivial
  | some zone =>
    refine bind (ofUpdate (fun fs => ?_)) (fun _ => persistMetadata mentioned)
    exact setObject fs rfl

theorem bufferLoop (mentioned : who r) (header rounds left : Nat) :
    (bufferLoop header w r rounds left).Keeps (Mentions who) := by
  induction rounds generalizing left with
  | zero =>
    cases left with
    | zero => trivial
    | succ left => exact ofHang
  | succ rounds ih =>
    cases left with
    | zero => trivial
    | succ left =>
      refine (read _).bind (fun f => ?_)
      cases f.activeZone with
      | none => exact ofHang
      | some zone =>
        refine (onIo _).bind (fun z => (read _).bind (fun blockSz => ?_))
        refine (modifyWriter (by exact fun _ => rfl)).bind (fun _ => (read _).bind (fun bytes => (onIo _).bind (fun _ => ?_)))
        refine (read _).bind (fun f => (modifyObject (by exact fun _ => rfl)).bind (fun _ => ?_))
        refine bind (ofUpdate (fun fs => ?_)) (fun _ => (onIo _).bind (fun z => ?_))
        · exact (chargeExtents fs _).trans (setObject _ rfl)
        split
        · exact closeActiveZone.bind (fun _ => (modifyWriter (by exact fun _ => rfl)).bind (fun _ =>
            (allocateNewZone mentioned rounds).bind (fun _ => ih _)))
        · exact ih _

theorem appendBuffer (mentioned : who r) (header rounds dataSize : Nat) :
    (appendBuffer header rounds w r dataSize).Keeps (Mentions who) :=
  (read _).bind (fun _ => ite_bind (allocateNewZone mentioned rounds) (bufferLoop mentioned header rounds dataSize))

theorem directWrite {rounds : Nat} (later : ∀ data, (ZoneFile.directLoop r rounds data).Keeps (Mentions who))
    (data : Bytes) : (do
      match (← ZenFS.object r).activeZone with
      | none => .hang
      | some zone =>
        let wrSize := min data.length (← ZenFS.onIo (Device.zoneAt zone)).capacity
        ZenFS.onIo (Zone.append zone (data.take wrSize))
        ZenFS.modifyObject r (fun f => { f with fileSize := f.fileSize + wrSize })
        ZoneFile.directLoop r rounds (data.drop wrSize) : Proc ZenFS Unit).Keeps (Mentions who) := by
  refine (read _).bind (fun f => ?_)
  cases f.activeZone with
  | none => exact ofHang
  | some zone =>
    exact (onIo _).bind (fun z => (onIo _).bind (fun _ => (modifyObject (by exact fun _ => rfl)).bind (fun _ => later _)))

theorem directLoop (mentioned : who r) (rounds : Nat) (data : Bytes) :
    (ZoneFile.directLoop r rounds data).Keeps (Mentions who) := by
  induction rounds generalizing data with
  | zero =>
    cases data with
    | nil => trivial
    | cons byte rest => exact ofHang
  | succ rounds ih =>
    cases data with
    | nil => trivial
    | cons byte rest =>
      refine (read _).bind (fun f => ?_)
      cases f.activeZone with
      | none => exact ofHang
      | some full =>
        have writes := directWrite ih (byte :: rest)
        refine (onIo _).bind (fun z => ?_)
        split
        · exact pushExtent.bind (fun _ => closeActiveZone.bind (fun _ =>
            (allocateNewZone mentioned rounds).bind (fun _ => writes)))
        · exact writes

theorem append (mentioned : who r) (rounds : Nat) (data : Bytes) :
    (ZoneFile.append rounds r data).Keeps (Mentions who) :=
  (read _).bind (fun _ => ite_bind (allocateNewZone mentioned rounds) (directLoop mentioned rounds _))

theorem closeWR (mentioned : who r) : (closeWR r).Keeps (Mentions who) :=
  (modifyObject (by exact fun _ => rfl)).bind (fun _ => (persistMetadata mentioned).bind (fun _ =>
    (releaseWRLock r).bind (fun _ => closeActiveZone)))

end

section

variable {r : Ref}

theorem migrateExtent (fname : Name) (ext : ZoneExtent) : (ZenFS.migrateExtent fname r ext).Keeps (Mentions who) := by
  have release : ∀ zone, (ZenFS.releaseMigrateZone zone).Keeps (Mentions who) :=
    fun zone => (onZbd (Undeferred.releaseMigrateZone zone)).attempt.bind (fun _ => trivial)
  refine (read _).bind (fun f => (onZbd (Undeferred.takeMigrateZone _ _)).attempt.bind (fun taken => ?_))
  rcases taken with status | _ | zone
  · trivial
  · exact (release none).bind (fun _ => trivial)
  · refine (read _).bind (fun wp => bind ?_ (fun _ => (read _).bind (fun found => ?_)))
    · exact (onIo _).attempt.bind (fun _ => trivial)
    cases found with
    | none => exact (release _).bind (fun _ => trivial)
    | some _ => exact (ofUpdate (fun fs => chargeExtents fs _)).bind (fun _ => (release _).bind (fun _ => trivial))

theorem migrateExtents (fname : Name) (migrateExts : List ZoneExtentSnapshot) (extents : List ZoneExtent) :
    (ZenFS.migrateExtents fname r migrateExts extents).Keeps (Mentions who) := by
  induction extents with
  | nil => trivial
  | cons ext rest ih =>
    simp only [ZenFS.migrateExtents]
    split
    · refine (migrateExtent fname ext).bind (fun migrated => ?_)
      cases migrated with
      | gone => trivial
      | next moved => exact ih.bind (fun _ => trivial)
    · exact ih.bind (fun _ => trivial)

theorem syncFileExtents (mentioned : who r) (newExtents : List ZoneExtent) :
    (ZenFS.syncFileExtents r newExtents).Keeps (Mentions who) := by
  refine (read _).bind (fun f => (modifyObject (by exact fun _ => rfl)).bind (fun _ => ?_))
  refine (modifyObject (by exact fun _ => rfl)).bind (fun _ => (syncFileMetadata mentioned true).bind (fun _ => ?_))
  exact ofUpdate (fun _ => silent rfl rfl (fun _ => rfl) (fun _ => rfl) rfl id)

theorem snapshotExtents (mentioned : who r) (extents : List ZoneExtent) :
    (ZenFS.snapshotExtents r extents).Keeps (Mentions who) := by
  induction extents with
  | nil => trivial
  | cons ext rest ih => exact (getFilename mentioned).bind (fun _ => ih.bind (fun _ => trivial))

theorem snapshotFiles {refs : List Ref} (mentioned : ∀ r ∈ refs, who r) :
    (ZenFS.snapshotFiles refs).Keeps (Mentions who) := by
  induction refs with
  | nil => trivial
  | cons r rest ih =>
    have mine : who r := mentioned r List.mem_cons_self
    have others := ih (fun q among => mentioned q (List.mem_cons_of_mem r among))
    refine (tryAcquireWRLock r).bind (fun acquired => ?_)
    split
    · refine (getFilename mine).bind (fun _ => (read _).bind (fun f => (snapshotExtents mine _).bind (fun extents => ?_)))
      exact (releaseWRLock r).bind (fun _ => others.bind (fun _ => trivial))
    · exact others

end

section

variable {w : Nat} {α β : Type}

theorem ifDone {p : Proc ZenFS α} (keeps : p.Keeps (Mentions who)) (fs : ZenFS) :
    IfDone p (fun _ fs' => Mentions who fs fs') fs :=
  wp_weaken (fun _ _ => trivial) id (keeps.wp_of refl (fun _ _ _ => trans) fs)

theorem bind {p : Proc ZenFS α} {k : α → Proc ZenFS β} (first : IfDone p (fun _ fs' => Mentions who fs fs') fs)
    (next : ∀ value fs', Mentions who fs fs' → IfDone (k value) (fun _ fs'' => Mentions who fs' fs'') fs') :
    IfDone (p >>= k) (fun _ fs' => Mentions who fs fs') fs := by
  refine (wp_bind _ _ _ _).mpr (wp_mono ?_ first)
  rintro (status | value) fs' there
  · exact there
  · exact wp_mono (fun _ _ further => there.trans further) (next value fs' there)

theorem flushBuffer (mentioned : who (fs.writers w).file) (rounds : Nat) :
    IfDone (ZonedWritableFile.flushBuffer rounds w) (fun _ fs' => Mentions who fs fs') fs := by
  simp only [ZonedWritableFile.flushBuffer, ZonedWritableFile.writer, wp_bind (Prog.read _), wp_read, onOk_ok, true_and]
  split
  · exact refl fs
  · refine ifDone ((read _).bind (fun f => ?_)) fs
    have emptied : (ZoneFile.modifyWriter w (fun this =>
        { this with wp := this.wp + this.bufferPos, bufferPos := 0 })).Keeps (Mentions who) :=
      modifyWriter (fun _ => rfl)
    split
    · exact (appendBuffer mentioned _ rounds _).bind (fun _ => emptied)
    · exact (appendBuffer mentioned _ rounds _).bind (fun _ => emptied)

theorem bufferedLoop (mentioned : who (fs.writers w).file) (rounds turns : Nat) (data : Bytes) :
    IfDone (bufferedLoop rounds w turns data) (fun _ fs' => Mentions who fs fs') fs := by
  induction turns generalizing fs data with
  | zero =>
    cases data with
    | nil => exact refl fs
    | cons byte rest => trivial
  | succ turns ih =>
    cases data with
    | nil => exact refl fs
    | cons byte rest =>
      have fills : ∀ bufferLeft fs₁, Mentions who fs fs₁ → IfDone (do
          ZoneFile.modifyWriter w (toBuffer ((byte :: rest).take bufferLeft))
          bufferedLoop rounds w turns ((byte :: rest).drop bufferLeft))
          (fun _ fs' => Mentions who fs₁ fs') fs₁ := by
        intro bufferLeft fs₁ there
        refine bind (ifDone (modifyWriter (by exact fun _ => rfl)) fs₁) (fun _ fs₂ further => ih ?_ _)
        rw [(there.trans further).writers w]
        exact mentioned
      simp only [bufferedLoop, ZonedWritableFile.writer, wp_bind (Prog.read _), wp_read, onOk_ok,
        true_and]
      split
      · exact bind (flushBuffer mentioned rounds) (fun _ fs₁ there => fills _ fs₁ there)
      · exact fills _ fs (refl fs)

theorem dataSync (mentioned : who (fs.writers w).file) (rounds : Nat) :
    IfDone (ZonedWritableFile.dataSync rounds w) (fun _ fs' => Mentions who fs fs') fs := by
  simp only [ZonedWritableFile.dataSync, ZonedWritableFile.writer, wp_bind (Prog.read _), wp_read, onOk_ok, true_and]
  split
  · refine bind (flushBuffer mentioned rounds) (fun _ fs₁ _ => ifDone ((read _).bind (fun f => ?_)) fs₁)
    split
    · trivial
    · exact persistMetadata mentioned
  · exact ifDone pushExtent fs

theorem closeInternal (mentioned : (fs.writers w).isOpen = true → who (fs.writers w).file) (rounds : Nat) :
    IfDone (ZonedWritableFile.closeInternal rounds w) (fun _ fs' => Mentions who fs fs') fs := by
  simp only [ZonedWritableFile.closeInternal, ZonedWritableFile.writer, wp_bind (Prog.read _), wp_read, onOk_ok, true_and]
  cases opened : (fs.writers w).isOpen with
  | false => exact refl fs
  | true =>
    refine bind (dataSync (mentioned opened) rounds) (fun _ fs₁ _ => ifDone ?_ fs₁)
    exact (closeWR (mentioned opened)).bind (fun _ => modifyWriter (fun _ => rfl))

theorem destroy (mentioned : (fs.writers w).isOpen = true → who (fs.writers w).file) (rounds : Nat) :
    IfDone (ZonedWritableFile.destroy rounds w) (fun _ fs' => Mentions who fs fs') fs := by
  simp only [ZonedWritableFile.destroy, ZonedWritableFile.writer, wp_bind (Prog.read _), wp_read, onOk_ok, true_and]
  refine bind ((wp_attempt _ _ _).mpr (closeInternal mentioned rounds)) (fun closed fs₁ _ => ifDone ?_ fs₁)
  have shared : ∀ (fs₁ : ZenFS) handles,
      Mentions who fs₁ ({ fs₁ with handles := handles }.dropUnowned (fs.writers w).file) := by
    intro fs₁ handles
    have counted : Mentions who fs₁ { fs₁ with handles := handles } := silent rfl rfl (fun _ => rfl) (fun _ => rfl) rfl id
    exact counted.trans (dropUnowned _ _)
  cases closed with
  | ok _ => exact ofUpdate (fun fs₁ => shared fs₁ _)
  | error status => exact (onZbd (Undeferred.setZoneDeferredStatus status)).bind (fun _ => ofUpdate (fun fs₁ => shared fs₁ _))

theorem writerCall (call : WriterCall) (mentioned : ((fs.writers w).isOpen = true ∨ call ≠ .close ∧ call ≠ .destroy) →
    who (fs.writers w).file) (rounds : Nat) :
    IfDone (call.prog rounds w) (fun _ fs' => Mentions who fs fs') fs := by
  cases call with
  | append slice =>
    have mine := mentioned (Or.inr ⟨by simp, by simp⟩)
    simp only [WriterCall.prog, ZonedWritableFile.append, ZonedWritableFile.writer, wp_bind (Prog.read _), wp_read,
      onOk_ok, true_and]
    split
    · exact bufferedLoop mine rounds _ _
    · exact ifDone ((append mine rounds slice).bind (fun _ => modifyWriter (by exact fun _ => rfl))) fs
  | sync => exact dataSync (mentioned (Or.inr ⟨by simp, by simp⟩)) rounds
  | fsync =>
    have mine := mentioned (Or.inr ⟨by simp, by simp⟩)
    simp only [WriterCall.prog, fsync, ZonedWritableFile.writer, wp_bind (Prog.read _), wp_read,
      onOk_ok, true_and]
    refine bind (dataSync mine rounds) (fun _ fs₁ _ => ifDone ((read _).bind (fun f => ?_)) fs₁)
    split
    · trivial
    · exact persistMetadata mine
  | rangeSync offset nbytes =>
    simp only [WriterCall.prog, rangeSync, ZonedWritableFile.writer, wp_bind (Prog.read _), wp_read,
      onOk_ok, true_and]
    split
    · exact dataSync (mentioned (Or.inr ⟨by simp, by simp⟩)) rounds
    · exact refl fs
  | close => exact closeInternal (fun opened => mentioned (Or.inl opened)) rounds
  | destroy => exact destroy (fun opened => mentioned (Or.inl opened)) rounds

end

end Mentions

end ZenFSProof
