import Mathlib.Data.List.Forall2
import ZonedStorage.Journal.Grows
import ZonedStorage.Journal.Recover

namespace ZenFSProof

open ByteString Resumption.Prog ZenFSModel ZenFSModel.ZenFS Function
open ZenFSModel.ZenMetaLog (physSz recordBuffer)

def recorded (fs : ZenFS) (record : Bytes) (calls : Nat) : ZenFS :=
  { fs with
    md := written fs.md fs.metaLog.zone (recordBuffer fs.md.geo.blockSz record) calls
    attempts := fs.attempt record :: fs.attempts
    persists := ⟨record, .appended⟩ :: fs.persists }

def Room (fs : ZenFS) (record : Bytes) : Prop :=
  physSz fs.md.geo.blockSz record.length ≤ (fs.md.zones fs.metaLog.zone).capacity

/-- The metadata zone holds, from `pos` to its write pointer, the records that lead from one
    catalog to the other. -/
structure Journal (md : Device) (zone : Nat) (zones : Nat → Option Nat) (pos : Nat) (c₀ c : FileCatalog) : Prop where
  room : (md.zones zone).wp + (md.zones zone).capacity = (md.zones zone).start + (md.zones zone).maxCapacity
  limit : (md.zones zone).maxCapacity ≤ md.geo.zoneSz
  begins : (md.zones zone).start ≤ pos
  aligned : md.geo.blockSz ∣ pos
  log : ∃ entries records, List.Forall₂ (Carries zones) entries records ∧ Holds md pos records ∧
    (md.zones zone).wp = pos + recordsLength md.geo.blockSz records ∧
    entries.any isSnapshot = true ∧ AppliesAll c₀ entries ∧ applyAll c₀ entries = c

abbrev Journaled (fs : ZenFS) (pos : Nat) (c₀ c : FileCatalog) : Prop :=
  Journal fs.md fs.metaLog.zone (getIOZone fs.zbd.dev) pos c₀ c

structure Logs (md : Device) (zone pos : Nat) (records : List Bytes) : Prop where
  room : (md.zones zone).wp + (md.zones zone).capacity = (md.zones zone).start + (md.zones zone).maxCapacity
  limit : (md.zones zone).maxCapacity ≤ md.geo.zoneSz
  begins : (md.zones zone).start ≤ pos
  aligned : md.geo.blockSz ∣ pos
  holds : Holds md pos records
  stop : (md.zones zone).wp = pos + recordsLength md.geo.blockSz records

def Reads (zones : Nat → Option Nat) (c₀ : FileCatalog) (records : List Bytes) (c : FileCatalog) : Prop :=
  ∃ entries, List.Forall₂ (Carries zones) entries records ∧ entries.any isSnapshot = true ∧ AppliesAll c₀ entries ∧
    applyAll c₀ entries = c

variable {fs fs' : ZenFS} {pos : Nat} {c₀ c : FileCatalog}

theorem journal_iff {md : Device} {zone : Nat} {zones : Nat → Option Nat} :
    Journal md zone zones pos c₀ c ↔ ∃ records, Logs md zone pos records ∧ Reads zones c₀ records c := by
  constructor
  · rintro ⟨room, limit, begins, aligned, entries, records, carried, holds, stop, read⟩
    exact ⟨records, ⟨room, limit, begins, aligned, holds, stop⟩, entries, carried, read⟩
  · rintro ⟨records, ⟨room, limit, begins, aligned, holds, stop⟩, entries, carried, read⟩
    exact ⟨room, limit, begins, aligned, entries, records, carried, holds, stop, read⟩

theorem Logs.record {records : List Bytes} {record : Bytes} (logs : Logs fs.md fs.metaLog.zone pos records)
    (readable : Readable record) (fits : Room fs record) (calls : Nat) :
    Logs (recorded fs record calls).md fs.metaLog.zone pos (records ++ [record]) := by
  obtain ⟨room, limit, begins, aligned, holds, stop⟩ := logs
  have size : (recordBuffer fs.md.geo.blockSz record).length = physSz fs.md.geo.blockSz record.length :=
    recordBuffer_length readable
  unfold Room at fits
  constructor
  · simp only [recorded, written, update_self, size]
    omega
  · simp only [recorded, written, update_self]
    exact limit
  · simp only [recorded, written, update_self]
    exact begins
  · exact aligned
  · refine Holds.append.mpr ⟨?_, readable, ?_, trivial⟩
    · refine Holds.congr (d := fs.md) rfl ?_ holds
      intro a low high
      exact Memory.write_outside (by omega)
    · simp only [recorded, written]
      rw [← stop, ← size, Memory.read_write]
  · simp only [recorded, written, update_self, size]
    rw [recordsLength_append, stop, Nat.add_assoc]
    rfl

theorem Reads.record {zones : Nat → Option Nat} {records : List Bytes} {record : Bytes} {e : Entry}
    (reads : Reads zones c₀ records c) (carries : Carries zones e record) (applies : Applies c e) :
    Reads zones c₀ (records ++ [record]) (applyEntry c e) := by
  obtain ⟨entries, carried, complete, follows, rfl⟩ := reads
  refine ⟨entries ++ [e], List.rel_append carried (.cons carries .nil), ?_, ?_, applyAll_append _ _ _⟩
  · rw [List.any_append, complete, Bool.true_or]
  · exact AppliesAll.append.mpr ⟨follows, applies, trivial⟩

namespace Journaled

theorem congr (journaled : Journaled fs pos c₀ c) (md : fs'.md = fs.md) (zone : fs'.metaLog.zone = fs.metaLog.zone)
    (zones : getIOZone fs'.zbd.dev = getIOZone fs.zbd.dev) : Journaled fs' pos c₀ c := by
  rw [Journaled, md, zone, zones]
  exact journaled

theorem record (journaled : Journaled fs pos c₀ c) {e : Entry} {record : Bytes}
    (carries : Carries (getIOZone fs.zbd.dev) e record) (applies : Applies c e) (fits : Room fs record)
    (calls : Nat) : Journaled (recorded fs record calls) pos c₀ (applyEntry c e) := by
  obtain ⟨records, logs, reads⟩ := journal_iff.mp journaled
  exact journal_iff.mpr ⟨_, logs.record carries.1 fits calls, reads.record carries applies⟩

end Journaled

open HardLinks

structure Synced (f last : ZoneFile) : Prop where
  id : last.fileId = f.fileId
  links : last.linkFiles = f.linkFiles
  within : f.nrSyncedExtents ≤ f.extents.length
  extents : last.extents = f.extents.take f.nrSyncedExtents

variable {f : ZoneFile} {fs : ZenFS} {c : FileCatalog} {r : Ref}

def Attached (fs : ZenFS) (r : Ref) : Prop := (∃ n : Name, fs.files[n]? = some r) ∨ (fs.objects r).isDeleted = true

structure Live (fs : ZenFS) (c : FileCatalog) : Prop where
  shows : Shows (fun n : Name => fs.files[n]?) (fun r => nodeOf (fs.persisted r)) c
  coherent : c.Coherent
  ids : fs.nextFileId < 2 ^ 64
  bounded : ∀ {n : Name} {r}, fs.files[n]? = some r → r < fs.nextRef
  counted : ∀ {n : Name} {r}, fs.files[n]? = some r → (fs.objects r).fileId < fs.nextFileId
  synced : ∀ {n : Name} {r}, fs.files[n]? = some r → Synced (fs.objects r) (fs.persisted r)
  fits : ∀ {n : Name} {r}, fs.files[n]? = some r → Fits (getIOZone fs.zbd.dev) (fs.objects r)
  kept : ∀ {n : Name} {r}, fs.files[n]? = some r → (fs.objects r).isDeleted = false
  reserved : ∀ {r}, fs.handles r ≠ 0 → r < fs.nextRef
  attached : ∀ {r}, fs.handles r ≠ 0 → Attached fs r

namespace Live

variable {fs fs' : ZenFS} {c : FileCatalog} {n m : Name} {r : Ref}

theorem member_iff (live : Live fs c) (held : fs.files[n]? = some r) :
    m ∈ (fs.objects r).linkFiles ↔ fs.files[m]? = some r := by
  rw [← (live.synced held).links]
  exact live.shows.member_iff live.coherent held

theorem nodup (live : Live fs c) (held : fs.files[n]? = some r) : (fs.objects r).linkFiles.Nodup := by
  have links := live.shows.links held
  have distinct := live.coherent.nodup (live.shows.name_of held)
  rw [links] at distinct
  rw [← (live.synced held).links]
  exact distinct

theorem names_iff (live : Live fs c) (held : fs.files[n]? = some r) :
    c.names m = some (fs.objects r).fileId ↔ fs.files[m]? = some r := by
  rw [← (live.synced held).id]
  exact live.shows.name_iff held

theorem id_ne (live : Live fs c) {q : Ref} (first : fs.files[n]? = some r)
    (second : fs.files[m]? = some q) (different : q ≠ r) : (fs.objects q).fileId ≠ (fs.objects r).fileId := by
  intro same
  rw [← (live.synced first).id, ← (live.synced second).id] at same
  exact different (live.shows.unique second first same)

theorem congr (live : Live fs c) (files : ∀ n : Name, fs'.files[n]? = fs.files[n]?)
    (objects : ∀ (n : Name) r, fs.files[n]? = some r → fs'.objects r = fs.objects r)
    (deleted : ∀ r, (fs'.objects r).isDeleted = (fs.objects r).isDeleted)
    (persisted : fs'.persisted = fs.persisted) (refs : fs'.nextRef = fs.nextRef)
    (ids : fs'.nextFileId = fs.nextFileId) (zones : getIOZone fs'.zbd.dev = getIOZone fs.zbd.dev)
    (handles : fs'.handles = fs.handles) : Live fs' c := by
  have object : ∀ {n : Name} {r}, fs'.files[n]? = some r →
      fs.files[n]? = some r ∧ fs'.objects r = fs.objects r := by
    intro n r held
    rw [files] at held
    exact ⟨held, objects n r held⟩
  constructor
  · exact live.shows.congr files (fun n r _ => by rw [persisted])
  · exact live.coherent
  · rw [ids]
    exact live.ids
  · intro n r held
    rw [refs]
    exact live.bounded (object held).1
  · intro n r held
    rw [(object held).2, ids]
    exact live.counted (object held).1
  · intro n r held
    rw [(object held).2, persisted]
    exact live.synced (object held).1
  · intro n r held
    rw [(object held).2, zones]
    exact live.fits (object held).1
  · intro n r held
    rw [(object held).2]
    exact live.kept (object held).1
  · intro r open_
    rw [handles] at open_
    rw [refs]
    exact live.reserved open_
  · intro r open_
    rw [handles] at open_
    rcases live.attached open_ with ⟨n, held⟩ | before
    · exact Or.inl ⟨n, by rw [files]; exact held⟩
    · refine Or.inr ?_
      rw [deleted]
      exact before

end Live

structure Extends (f g : ZoneFile) : Prop where
  id : g.fileId = f.fileId
  links : g.linkFiles = f.linkFiles
  synced : g.nrSyncedExtents = f.nrSyncedExtents
  deleted : g.isDeleted = f.isDeleted
  extents : f.extents <+: g.extents

/-- Nothing has happened to the metadata zones, and the IO zones are where they were. -/
structure Quiet (fs fs' : ZenFS) : Prop where
  md : fs'.md = fs.md
  metaLog : fs'.metaLog = fs.metaLog
  superblock : fs'.superblock = fs.superblock
  attempts : fs'.attempts = fs.attempts
  persists : fs'.persists = fs.persists
  zones : getIOZone fs'.zbd.dev = getIOZone fs.zbd.dev

/-- The data path has worked on the object `r`: no name and no record has changed. -/
structure Grown (fs fs' : ZenFS) (r : Ref) : Prop where
  object : Extends (fs.objects r) (fs'.objects r)
  fits : Fits (getIOZone fs.zbd.dev) (fs'.objects r)
  others : ∀ q, q ≠ r → fs'.objects q = fs.objects q
  files : fs'.files = fs.files
  persisted : fs'.persisted = fs.persisted
  refs : fs'.nextRef = fs.nextRef
  ids : fs'.nextFileId = fs.nextFileId
  quiet : Quiet fs fs'
  handles : ∀ q, q ≠ r → fs'.handles q = fs.handles q

theorem Extends.synced_with {g last : ZoneFile} (extends_ : Extends f g) (synced : Synced f last) : Synced g last := by
  obtain ⟨more, whole⟩ := extends_.extents
  refine ⟨synced.id.trans extends_.id.symm, synced.links.trans extends_.links.symm, ?_, ?_⟩
  · rw [extends_.synced, ← whole, List.length_append]
    exact Nat.le_trans synced.within (Nat.le_add_right _ _)
  · rw [extends_.synced, ← whole, List.take_append_of_le_length synced.within]
    exact synced.extents

theorem Live.grown {fs' : ZenFS} (live : Live fs c) (grown : Grown fs fs' r)
    (below : fs'.handles r ≠ 0 → r < fs.nextRef) (attached : fs'.handles r ≠ 0 → Attached fs r) : Live fs' c := by
  have object : ∀ q, q = r ∧ Extends (fs.objects q) (fs'.objects q) ∨ fs'.objects q = fs.objects q := by
    intro q
    by_cases same : q = r
    · subst same
      exact Or.inl ⟨rfl, grown.object⟩
    · exact Or.inr (grown.others q same)
  constructor
  · refine live.shows.congr (fun n => by rw [grown.files]) ?_
    intro n q _
    rw [grown.persisted]
  · exact live.coherent
  · rw [grown.ids]
    exact live.ids
  · intro n q held
    rw [grown.files] at held
    rw [grown.refs]
    exact live.bounded held
  · intro n q held
    rw [grown.files] at held
    rw [grown.ids]
    rcases object q with ⟨_, extends_⟩ | same
    · rw [extends_.id]
      exact live.counted held
    · rw [same]
      exact live.counted held
  · intro n q held
    rw [grown.files] at held
    rw [grown.persisted]
    rcases object q with ⟨_, extends_⟩ | same
    · exact extends_.synced_with (live.synced held)
    · rw [same]
      exact live.synced held
  · intro n q held
    rw [grown.files] at held
    rw [grown.quiet.zones]
    rcases object q with ⟨rfl, _⟩ | same
    · exact grown.fits
    · rw [same]
      exact live.fits held
  · intro n q held
    rw [grown.files] at held
    rcases object q with ⟨_, extends_⟩ | same
    · rw [extends_.deleted]
      exact live.kept held
    · rw [same]
      exact live.kept held
  · intro q open_
    rw [grown.refs]
    by_cases same : q = r
    · subst same
      exact below open_
    · rw [grown.handles q same] at open_
      exact live.reserved open_
  · intro q open_
    have before : Attached fs q := by
      by_cases same : q = r
      · subst same
        exact attached open_
      · rw [grown.handles q same] at open_
        exact live.attached open_
    rcases before with ⟨n, held⟩ | deleted
    · exact Or.inl ⟨n, by rw [grown.files]; exact held⟩
    · refine Or.inr ?_
      rcases object q with ⟨_, extends_⟩ | same
      · rw [extends_.deleted]
        exact deleted
      · rw [same]
        exact deleted

structure Recorded (fs fs' : ZenFS) (r : Ref) (f : ZoneFile) : Prop where
  files : ∀ n : Name, fs'.files[n]? = rebind (fun n : Name => fs.files[n]?) r f.linkFiles n
  object : ∃ locked, fs'.objects r = { f.metadataSynced with openForWr := locked }
  others : ∀ q, q ≠ r → (∃ n : Name, fs.files[n]? = some q) ∨ fs.handles q ≠ 0 → fs'.objects q = fs.objects q
  persisted : fs'.persisted = update fs.persisted r f.metadataSynced
  refs : fs.nextRef ≤ fs'.nextRef
  ids : fs.nextFileId ≤ fs'.nextFileId
  counter : fs'.nextFileId < 2 ^ 64
  zones : getIOZone fs'.zbd.dev = getIOZone fs.zbd.dev
  handles : ∀ q, q ≠ r → fs'.handles q = fs.handles q

structure Replaces (fs : ZenFS) (r : Ref) (f : ZoneFile) : Prop where
  mine : ∀ {n : Name}, fs.files[n]? = some r → (fs.objects r).fileId = f.fileId
  others : ∀ {n : Name} {q}, fs.files[n]? = some q → q ≠ r → (fs.objects q).fileId ≠ f.fileId
  free : ∀ n ∈ f.linkFiles, fs.files[n]? = none ∨ fs.files[n]? = some r
  nodup : f.linkFiles.Nodup
  linked : f.linkFiles ≠ []
  fits : Fits (getIOZone fs.zbd.dev) f
  kept : f.isDeleted = false

theorem metadataSynced_count (small : f.extents.length < 2 ^ 32) :
    f.metadataSynced.nrSyncedExtents = f.metadataSynced.extents.length := Nat.mod_eq_of_lt small

theorem synced_metadataSynced (small : f.extents.length < 2 ^ 32) : Synced f.metadataSynced f.metadataSynced := by
  have count := metadataSynced_count small
  refine ⟨rfl, rfl, Nat.le_of_eq count, ?_⟩
  rw [count, List.take_length]

theorem Replaces.free_names (replaces : Replaces fs r f) (live : Live fs c) : c.Free f.fileId f.linkFiles := by
  intro n member
  rcases replaces.free n member with unbound | held
  · exact Or.inl ((live.shows.unbound_iff n).mpr unbound)
  · refine Or.inr ?_
    rw [← replaces.mine held]
    exact (live.names_iff held).mpr held

theorem Live.put {fs' : ZenFS} (live : Live fs c) (replaces : Replaces fs r f) (recorded : Recorded fs fs' r f)
    (below : r < fs'.nextRef) (counted : f.fileId < fs'.nextFileId) : Live fs' (c.put (nodeOf f)) := by
  have small := replaces.fits.count
  obtain ⟨locked, object⟩ := recorded.object
  have cases_of : ∀ {n : Name} {q}, fs'.files[n]? = some q → (q = r ∧ n ∈ f.linkFiles) ∨
      (q ≠ r ∧ fs.files[n]? = some q) := by
    intro n q held
    rw [recorded.files] at held
    exact rebind_cases held
  have other : ∀ {n : Name} {q}, q ≠ r → fs.files[n]? = some q → fs'.objects q = fs.objects q :=
    fun different held => recorded.others _ different (Or.inl ⟨_, held⟩)
  constructor
  · have shows := live.shows.put (r := r) (nodeOf f)
      (fun n held => (live.synced held).id.trans (replaces.mine held))
      (fun n q held different => by
        change (fs.persisted q).fileId ≠ f.fileId
        rw [(live.synced held).id]
        exact replaces.others held different)
    refine shows.congr recorded.files ?_
    intro n q _
    rw [recorded.persisted]
    by_cases same : q = r
    · subst same
      rw [update_self, update_self]
      rfl
    · rw [update_of_ne same, update_of_ne same]
  · exact live.coherent.put (replaces.free_names live) replaces.nodup
  · exact recorded.counter
  · intro n q held
    rcases cases_of held with ⟨rfl, _⟩ | ⟨_, before⟩
    · exact below
    · exact Nat.lt_of_lt_of_le (live.bounded before) recorded.refs
  · intro n q held
    rcases cases_of held with ⟨rfl, _⟩ | ⟨different, before⟩
    · rw [object]
      exact counted
    · rw [other different before]
      exact Nat.lt_of_lt_of_le (live.counted before) recorded.ids
  · intro n q held
    rcases cases_of held with ⟨rfl, _⟩ | ⟨different, before⟩
    · have whole := synced_metadataSynced small
      rw [object, recorded.persisted, update_self]
      exact ⟨whole.id, whole.links, whole.within, whole.extents⟩
    · rw [other different before, recorded.persisted, update_of_ne different]
      exact live.synced before
  · intro n q held
    rw [recorded.zones]
    rcases cases_of held with ⟨rfl, _⟩ | ⟨different, before⟩
    · rw [object]
      exact { replaces.fits with }
    · rw [other different before]
      exact live.fits before
  · intro n q held
    rcases cases_of held with ⟨rfl, _⟩ | ⟨different, before⟩
    · rw [object]
      exact replaces.kept
    · rw [other different before]
      exact live.kept before
  · intro q open_
    by_cases same : q = r
    · subst same
      exact below
    · rw [recorded.handles q same] at open_
      exact Nat.lt_of_lt_of_le (live.reserved open_) recorded.refs
  · intro q open_
    by_cases same : q = r
    · subst same
      obtain ⟨name, member⟩ := List.exists_mem_of_ne_nil _ replaces.linked
      refine Or.inl ⟨name, ?_⟩
      rw [recorded.files]
      exact rebind_self replaces.free member
    · rw [recorded.handles q same] at open_
      rcases live.attached open_ with ⟨n, held⟩ | deleted
      · refine Or.inl ⟨n, ?_⟩
        rw [recorded.files]
        exact rebind_other same held
      · refine Or.inr ?_
        rw [recorded.others q same (Or.inr open_)]
        exact deleted

end ZenFSProof
