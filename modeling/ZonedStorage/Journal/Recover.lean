import ZonedStorage.Journal.ReplayRecord
import ZonedStorage.MetaLog.ReadRecord

namespace ZenFSProof

open ByteString HardLinks Resumption.Prog ZenFSModel ZenFSModel.ZenFS ZenFSModel.ZenFSTag
open ZenFSModel.ZenMetaLog (physSz)

variable {fs : ZenFS} {c : FileCatalog}

theorem clearFiles_lookup (entries : List (Name × Ref)) (fs : ZenFS) (n : Name) :
    (entries.foldl (fun fs entry => fs.eraseFile entry.1 fs.nextRef) fs).files[n]? =
      if n ∈ entries.map (·.1) then none else fs.files[n]? := by
  induction entries generalizing fs with
  | nil => simp
  | cons entry rest ih =>
    rw [List.foldl_cons, ih, eraseFile_lookup]
    by_cases same : n = entry.1
    · simp [same]
    · by_cases member : n ∈ rest.map (·.1) <;> simp [same, member]

theorem clearFiles_unbound (fs : ZenFS) (n : Name) :
    (fs.files.toList.foldl (fun fs entry => fs.eraseFile entry.1 fs.nextRef) fs).files[n]? = none := by
  rw [clearFiles_lookup]
  split
  · rfl
  · rename_i outside
    cases held : fs.files[n]? with
    | none => rfl
    | some r =>
      have member := List.mem_map_of_mem (f := Prod.fst) (mem_files_iff.mpr held)
      exact absurd member outside

theorem clearFiles_frame (entries : List (Name × Ref)) (fs : ZenFS) :
    Frame fs (entries.foldl (fun fs entry => fs.eraseFile entry.1 fs.nextRef) fs) := by
  induction entries generalizing fs with
  | nil => exact Frame.refl fs
  | cons entry rest ih => exact (Frame.erase fs entry.1 fs.nextRef).trans (ih _)

theorem replayed_empty (unbound : ∀ n : Name, fs.files[n]? = none) (links : Nat → List Name)
    (body : Nat → FileBody) : Replayed fs (Catalog.empty links body) where
  shows := by
    refine ⟨?_, ?_, ?_, ?_⟩
    · intro n
      simp only [unbound, Option.map_none]
      rfl
    · intro n r held
      rw [unbound] at held
      cases held
    · intro n r held
      rw [unbound] at held
      cases held
    · intro n m r q held
      rw [unbound] at held
      cases held
  coherent := Catalog.empty_coherent links body
  bounded held := by rw [unbound] at held; cases held
  counted held := by rw [unbound] at held; cases held
  idle held := by rw [unbound] at held; cases held

theorem ensures_clearFiles (links : Nat → List Name) (body : Nat → FileBody) :
    Ensures clearFiles (fun result fs' => result = .ok () ∧ Frame fs fs' ∧
      Replayed fs' (Catalog.empty links body)) fs :=
  ⟨trivial, rfl, clearFiles_frame _ fs, replayed_empty (clearFiles_unbound fs) links body⟩

def isSnapshot : Entry → Bool
  | .snapshot _ => true
  | _ => false

theorem ensures_recoverRecord (replayed : Replayed fs c) {e : Entry} {tag : ZenFSTag} {data : Bytes}
    (encodes : Encodes (getIOZone fs.zbd.dev) e tag data) (applies : Applies c e) :
    Ensures (recoverRecord tag.code data)
      (fun result fs' => result = .ok (isSnapshot e) ∧ Frame fs fs' ∧ Replayed fs' (applyEntry c e)) fs := by
  have known : ofCode tag.code = some tag := by cases tag <;> rfl
  simp only [recoverRecord, known]
  cases encodes with
  | update f s writable =>
    simp only [wp_bind]
    refine wp_mono ?_ (ensures_decodeFileUpdateFrom replayed writable applies)
    rintro result fs' ⟨rfl, frame, done⟩
    exact ⟨rfl, frame, done⟩
  | replace f s writable =>
    simp only [wp_bind]
    refine wp_mono ?_ (ensures_decodeFileUpdateFrom replayed writable applies)
    rintro result fs' ⟨rfl, frame, done⟩
    exact ⟨rfl, frame, done⟩
  | deletion id name fits short =>
    simp only [wp_bind]
    refine wp_mono ?_ (ensures_decodeFileDeletionFrom replayed fits short applies)
    rintro result fs' ⟨rfl, frame, done⟩
    exact ⟨rfl, frame, done⟩
  | snapshot files writable =>
    simp only [wp_bind]
    refine wp_mono ?_ (ensures_clearFiles c.links c.body)
    rintro result fs₁ ⟨rfl, cleared, empty⟩
    rw [onOk_ok]
    obtain ⟨nodup, apart⟩ := applies
    have count := count_le_flatMap (fun f : ZoneFile => putLengthPrefixedSlice [] (f.encodeTo 0)) files
      (fun f => putLengthPrefixedSlice_ne_nil _)
    have loop := ensures_decodeSnapshotLoop files (Nat.lt_succ_of_le count) empty
      (fun f member => (writable f member).frame cleared)
      (fun f member => listed_empty _ _ (nodup (nodeOf f) (List.mem_map_of_mem member)))
      (fun f member g member' => apart (nodeOf f) (List.mem_map_of_mem member) (nodeOf g)
        (List.mem_map_of_mem member'))
    refine wp_mono ?_ loop
    rintro result fs' ⟨rfl, frame, done⟩
    exact ⟨rfl, cleared.trans frame, done⟩

def Carries (getIOZone : Nat → Option Nat) (e : Entry) (record : Bytes) : Prop :=
  Readable record ∧ ∃ tag data, record = taggedRecord tag data ∧ Encodes getIOZone e tag data

theorem getFixed32_tagged (tag : ZenFSTag) (data : Bytes) :
    getFixed32 (taggedRecord tag data) = some (tag.code, putLengthPrefixedSlice [] data) := by
  rw [taggedRecord, putLengthPrefixedSlice_append]
  simp only [putFixed32, List.nil_append]
  rw [getFixed32_put]
  cases tag <;> rfl

theorem tagged_length (tag : ZenFSTag) (data : Bytes) : data.length ≤ (taggedRecord tag data).length := by
  rw [taggedRecord, putLengthPrefixedSlice_append, List.length_append]
  have slice := putLengthPrefixedSlice_length data
  omega

theorem tagged_slice {tag : ZenFSTag} {data : Bytes} (readable : Readable (taggedRecord tag data)) :
    getLengthPrefixedSlice (putLengthPrefixedSlice [] data) = some (data, []) := by
  have inside := tagged_length tag data
  have short : data.length < 2 ^ 32 := by
    unfold Readable at readable
    omega
  have read := getLengthPrefixedSlice_put short []
  rwa [List.append_nil] at read

inductive LogEnd (d : Device) (zone pos : Nat) : Prop
  | eof (finished : (d.zones zone).wp ≤ pos)
  | ended (stored : d.mem.read pos (physSz d.geo.blockSz 4) =
        ZenMetaLog.recordBuffer d.geo.blockSz (putFixed32 [] kEndRecord.code))
      (below : pos + physSz d.geo.blockSz 4 ≤ (d.zones zone).wp)
      (inside : pos + physSz d.geo.blockSz 4 ≤ (d.zones zone).start + (d.zones zone).maxCapacity)

def withMdCalls (fs : ZenFS) (calls : Nat) : ZenFS := { fs with md := withCalls fs.md calls }

structure LogAt (d : Device) (zone pos : Nat) (records : List Bytes) : Prop where
  aligned : d.geo.blockSz ∣ pos
  holds : Holds d pos records
  below : pos + recordsLength d.geo.blockSz records ≤ (d.zones zone).wp
  inside : pos + recordsLength d.geo.blockSz records ≤ (d.zones zone).start + (d.zones zone).maxCapacity
  stop : LogEnd d zone (pos + recordsLength d.geo.blockSz records)

theorem LogAt.tail {d : Device} {zone pos : Nat} {record : Bytes} {rest : List Bytes}
    (log : LogAt d zone pos (record :: rest)) : LogAt d zone (pos + physSz d.geo.blockSz record.length) rest := by
  have sector := d.geo.sector_le
  have size : recordsLength d.geo.blockSz (record :: rest) =
      physSz d.geo.blockSz record.length + recordsLength d.geo.blockSz rest := rfl
  have below := log.below
  have inside := log.inside
  have stop := log.stop
  rw [size, ← Nat.add_assoc] at below inside stop
  exact ⟨Nat.dvd_add log.aligned (alignUp_dvd (by omega) _), log.holds.2.2, below, inside, stop⟩

theorem LogAt.withCalls {d : Device} {zone pos : Nat} {records : List Bytes} (log : LogAt d zone pos records)
    (calls : Nat) : LogAt (withCalls d calls) zone pos records := by
  refine ⟨log.aligned, Holds.congr (d := d) rfl (fun _ _ _ => rfl) log.holds, log.below, log.inside, ?_⟩
  cases log.stop with
  | eof finished => exact .eof finished
  | ended stored below inside => exact .ended stored below inside

section

variable {post : Except Status (Bytes × ZenMetaLog) → ZenFS → Prop} {log : ZenMetaLog}

theorem ensures_meta_read_stored {record : Bytes} (healthy : Healthy fs.md) (readable : Readable record)
    (stored : fs.md.mem.read log.readPos (physSz fs.md.geo.blockSz record.length) =
      ZenMetaLog.recordBuffer fs.md.geo.blockSz record)
    (aligned : fs.md.geo.blockSz ∣ log.readPos)
    (below : log.readPos + physSz fs.md.geo.blockSz record.length ≤ (fs.md.zones log.zone).wp)
    (inside : log.readPos + physSz fs.md.geo.blockSz record.length ≤
      (fs.md.zones log.zone).start + (fs.md.zones log.zone).maxCapacity)
    (done : ∀ k, post (.ok (record,
      { log with readPos := log.readPos + physSz fs.md.geo.blockSz record.length })) (withMdCalls fs k)) :
    Ensures (onMeta log.readRecord) post fs := by
  exact (wp_zoom mdLens _ _ _).mpr
    (wp_readRecord_stored healthy readable (fun _ => trivial) stored aligned below inside done)

theorem ensures_meta_read_eof (finished : (fs.md.zones log.zone).wp ≤ log.readPos)
    (done : post (.ok ([], log)) fs) : Ensures (onMeta log.readRecord) post fs := by
  exact (wp_zoom mdLens _ _ _).mpr (wp_readRecord_eof trivial finished done)

end

theorem ensures_recoverStop {fs : ZenFS} {log : ZenMetaLog} {seen : Bool} {rounds : Nat}
    (healthy : Healthy fs.md) (aligned : fs.md.geo.blockSz ∣ log.readPos)
    (stop : LogEnd fs.md log.zone log.readPos) :
    Ensures (recoverLoop ZenMetaLog.readRecord (rounds + 1) log seen)
      (fun result fs' => ∃ log' k, result = .ok (seen, log') ∧ log'.zone = log.zone ∧ fs' = withMdCalls fs k) fs := by
  simp only [recoverLoop, wp_bind]
  rw [wp_attempt]
  cases stop with
  | eof finished =>
    apply ensures_meta_read_eof finished
    exact ⟨log, fs.md.calls, rfl, rfl, rfl⟩
  | ended stored below inside =>
    have short : Readable (putFixed32 [] kEndRecord.code) := by decide
    apply ensures_meta_read_stored healthy short stored aligned below inside
    intro k
    have tag : getFixed32 (putFixed32 [] kEndRecord.code) = some (kEndRecord.code, []) := by decide
    simp only [onOk_ok, tag, if_true, wp_pure]
    exact ⟨_, k, rfl, rfl, rfl⟩

theorem ensures_recoverLoop {entries : List Entry} {records : List Bytes} {fs : ZenFS} {c : FileCatalog}
    {log : ZenMetaLog} {seen : Bool} {rounds : Nat} {zones : Nat → Option Nat}
    (carried : List.Forall₂ (Carries zones) entries records) (lookup : getIOZone fs.zbd.dev = zones)
    (enough : records.length < rounds) (healthy : Healthy fs.md) (stored : LogAt fs.md log.zone log.readPos records)
    (replayed : Replayed fs c) (applies : AppliesAll c entries) :
    Ensures (recoverLoop ZenMetaLog.readRecord rounds log seen)
      (fun result fs' => ∃ log' k, result = .ok (seen || entries.any isSnapshot, log') ∧ log'.zone = log.zone ∧
        Frame (withMdCalls fs k) fs' ∧ Replayed fs' (applyAll c entries)) fs := by
  induction carried generalizing fs c log seen rounds with
  | nil =>
    cases rounds with
    | zero => cases enough
    | succ rounds =>
      refine wp_mono ?_ (ensures_recoverStop healthy stored.aligned stored.stop)
      rintro result fs' ⟨log', k, rfl, zone, rfl⟩
      refine ⟨log', k, by simp, zone, Frame.refl _, ?_⟩
      exact replayed.congr (fun _ => rfl) (fun _ _ _ => rfl) (Nat.le_refl _) (Nat.le_refl _)
  | @cons e record entries records carries _ ih =>
    cases rounds with
    | zero => cases enough
    | succ rounds =>
      obtain ⟨readable, tag, data, rfl, encodes⟩ := carries
      obtain ⟨first, rest⟩ := applies
      have size : recordsLength fs.md.geo.blockSz (taggedRecord tag data :: records) =
          physSz fs.md.geo.blockSz (taggedRecord tag data).length +
            recordsLength fs.md.geo.blockSz records := rfl
      have below := stored.below
      have inside := stored.inside
      have ongoing : ¬ tag.code = kEndRecord.code := by cases encodes <;> decide
      simp only [recoverLoop, wp_bind]
      rw [wp_attempt]
      apply ensures_meta_read_stored healthy readable stored.holds.2.1 stored.aligned (by omega) (by omega)
      intro k
      simp only [onOk_ok, getFixed32_tagged, if_neg ongoing, tagged_slice readable, wp_bind]
      have here : Replayed (withMdCalls fs k) c :=
        replayed.congr (fun _ => rfl) (fun _ _ _ => rfl) (Nat.le_refl _) (Nat.le_refl _)
      rw [← lookup] at encodes
      refine wp_mono ?_ (ensures_recoverRecord here encodes first)
      rintro result fs₁ ⟨rfl, frame, next⟩
      have md : fs₁.md = withCalls fs.md k := frame.md
      have later : Healthy fs₁.md := by
        rw [md]
        exact healthy
      have remaining : LogAt fs₁.md log.zone
          (log.readPos + physSz fs.md.geo.blockSz (taggedRecord tag data).length) records := by
        rw [md]
        exact stored.tail.withCalls k
      have tail := @ih fs₁ _
        ⟨log.zone, log.readPos + physSz fs.md.geo.blockSz (taggedRecord tag data).length⟩ (seen || isSnapshot e) _
        (frame.dev.getIOZone.trans lookup)
        (Nat.lt_of_succ_lt_succ enough) later remaining next rest
      refine wp_mono ?_ tail
      rintro result fs' ⟨log', k', rfl, zone, frame', done⟩
      refine ⟨log', k', by simp [Bool.or_assoc], zone, ?_, done⟩
      have through : Frame (withMdCalls (withMdCalls fs k) k') (withMdCalls fs₁ k') :=
        ⟨frame.dev, by rw [frame.rest]; rfl⟩
      exact through.trans frame'

end ZenFSProof
