import ZonedStorage.Journal.Snapshot

namespace ZenFSProof

open ByteString Resumption.Prog ZenFSModel ZenFSModel.ZenFS ZenFSModel.Superblock Function ZenMetaLog Zone
open ZenFSModel.ZenMetaLog (physSz recordBuffer zMetaHeaderSize)

def logStart (d : Device) (i : Nat) : Nat := (d.zones i).start + physSz d.geo.blockSz ENCODED_SIZE

structure Headed (d : Device) (i : Nat) (superblock : Superblock) : Prop where
  magic : superblock.magic = MAGIC
  version : superblock.superblockVersion = CURRENT_SUPERBLOCK_VERSION
  compatible : superblock.compatibleWith d.geo = .ok ()
  stored : d.mem.read (d.zones i).start (physSz d.geo.blockSz ENCODED_SIZE) =
    recordBuffer d.geo.blockSz superblock.encode
  begun : (d.zones i).start + zMetaHeaderSize < (d.zones i).wp
  inside : physSz d.geo.blockSz ENCODED_SIZE ≤ (d.zones i).maxCapacity
  aligned : d.geo.blockSz ∣ (d.zones i).start

structure SameZone (d d' : Device) (i : Nat) : Prop where
  geo : d'.geo = d.geo
  zone : d'.zones i = { d.zones i with busy := (d'.zones i).busy }
  mem : ∀ a, (d.zones i).start ≤ a → a < (d.zones i).start + (d.zones i).maxCapacity → d'.mem a = d.mem a

namespace SameZone

variable {d d' : Device} {i : Nat}

theorem place (same : SameZone d d' i) : (d'.zones i).start = (d.zones i).start ∧
    (d'.zones i).maxCapacity = (d.zones i).maxCapacity ∧ (d'.zones i).wp = (d.zones i).wp := by
  rw [same.zone]
  exact ⟨rfl, rfl, rfl⟩

theorem trans {d'' : Device} (first : SameZone d d' i) (second : SameZone d' d'' i) : SameZone d d'' i := by
  obtain ⟨start, limit, _⟩ := first.place
  refine ⟨second.geo.trans first.geo, ?_, ?_⟩
  · rw [second.zone, first.zone]
  · intro a low high
    rw [second.mem a (by rw [start]; exact low) (by rw [start, limit]; exact high), first.mem a low high]

end SameZone

structure SameMedia (d d' : Device) : Prop where
  geo : d'.geo = d.geo
  count : d'.count = d.count
  mem : d'.mem = d.mem
  replies : d'.replies = d.replies
  zones : ∀ i, d'.zones i = { d.zones i with busy := (d'.zones i).busy }

namespace SameMedia

variable {d d' d'' : Device}

theorem refl (d : Device) : SameMedia d d := ⟨rfl, rfl, rfl, rfl, fun _ => rfl⟩

theorem trans (first : SameMedia d d') (second : SameMedia d' d'') : SameMedia d d'' := by
  refine ⟨second.geo.trans first.geo, second.count.trans first.count, second.mem.trans first.mem,
    second.replies.trans first.replies, fun i => ?_⟩
  rw [second.zones i, first.zones i]

theorem symm (same : SameMedia d d') : SameMedia d' d := by
  refine ⟨same.geo.symm, same.count.symm, same.mem.symm, same.replies.symm, fun i => ?_⟩
  rw [same.zones i]

theorem withCalls (d : Device) (calls : Nat) : SameMedia d (withCalls d calls) := ⟨rfl, rfl, rfl, rfl, fun _ => rfl⟩

theorem of_calls (same : SameMedia d d') (calls : Nat) : SameMedia (ZenFSProof.withCalls d calls) d' :=
  ⟨same.geo, same.count, same.mem, same.replies, same.zones⟩

theorem zone (same : SameMedia d d') (i : Nat) : SameZone d d' i :=
  ⟨same.geo, same.zones i, fun _ _ _ => by rw [same.mem]⟩

theorem healthy (same : SameMedia d d') (healthy : Healthy d) : Healthy d' := by
  intro n
  rw [same.replies]
  exact healthy n

end SameMedia

structure OnlyMedia (fs fs' : ZenFS) : Prop where
  media : SameMedia fs.md fs'.md
  rest : fs' = { fs with md := fs'.md }

namespace OnlyMedia

theorem refl (fs : ZenFS) : OnlyMedia fs fs := ⟨.refl _, rfl⟩

theorem trans {fs fs' fs'' : ZenFS} (first : OnlyMedia fs fs') (second : OnlyMedia fs' fs'') : OnlyMedia fs fs'' := by
  refine ⟨first.media.trans second.media, ?_⟩
  rw [second.rest, first.rest]

theorem calls (fs : ZenFS) (calls : Nat) : OnlyMedia fs (withMdCalls fs calls) := ⟨.withCalls _ _, rfl⟩

end OnlyMedia

section

def setBusy (d : Device) (i : Nat) (busy : Bool) : Device := d.setZone i { d.zones i with busy := busy }

theorem setBusy_other (d : Device) {i j : Nat} (busy : Bool) (other : j ≠ i) : (setBusy d i busy).zones j = d.zones j :=
  update_of_ne other ..

theorem setBusy_media (d : Device) (i : Nat) (busy : Bool) : SameMedia d (setBusy d i busy) := by
  refine ⟨rfl, rfl, rfl, rfl, fun j => ?_⟩
  by_cases same : j = i
  · subst same
    simp only [setBusy, Device.setZone, update_self]
  · rw [setBusy_other d busy same]

variable {seen : Device → Prop} {stuck : Prop} {post : Except Status Bool → Device → Prop} {d : Device} {i : Nat}

theorem wp_release (visited : seen (setBusy d i false)) (done : ∀ released, post (.ok released) (setBusy d i false)) :
    wp seen stuck (release i) post d := by
  cases busy : (d.zones i).busy with
  | true =>
    simp only [release, wp_act, busy, if_true]
    exact ⟨visited, done true⟩
  | false =>
    have unchanged : setBusy d i false = d := by
      rw [setBusy, ← busy]
      exact congrArg (fun zones => { d with zones := zones }) (update_eq_self i d.zones)
    rw [unchanged] at visited done
    simp only [release, wp_act, busy, Bool.false_eq_true, if_false]
    exact ⟨visited, done false⟩

theorem wp_acquire (free : (d.zones i).busy = false) (visited : seen (setBusy d i true))
    (done : post (.ok true) (setBusy d i true)) : wp seen stuck (acquire i) post d := by
  simp only [acquire, wp_act, free, Bool.false_eq_true, if_false]
  exact ⟨visited, done⟩

theorem ensures_release (fs : ZenFS) (i : Nat) : Ensures (onMeta (release i)) (fun result fs' =>
    (∃ released, result = .ok released) ∧ OnlyMedia fs fs' ∧ ∀ j, j ≠ i → (fs'.md.zones j).busy = (fs.md.zones j).busy)
      fs := by
  refine (wp_zoom mdLens _ _ _).mpr (wp_release trivial (fun released => ?_))
  exact ⟨⟨released, rfl⟩, ⟨setBusy_media fs.md i false, rfl⟩,
    fun j other => congrArg busy (setBusy_other fs.md false other)⟩

theorem ensures_acquire {fs : ZenFS} {i : Nat} (free : (fs.md.zones i).busy = false) :
    Ensures (onMeta (acquire i)) (fun result fs' => result = .ok true ∧ OnlyMedia fs fs' ∧
      ∀ j, j ≠ i → (fs'.md.zones j).busy = (fs.md.zones j).busy) fs := by
  refine (wp_zoom mdLens _ _ _).mpr (wp_acquire free trivial ?_)
  exact ⟨rfl, ⟨setBusy_media fs.md i true, rfl⟩, fun j other => congrArg busy (setBusy_other fs.md true other)⟩

end

section

/-- What a mount makes of the zone if the backend answers every call: an error, nothing or a candidate. -/
def candidateAt (d : Device) (i : Nat) : Except Status (Option Candidate) :=
  match recordAt d (open' d i) with
  | .error _ => .ok none
  | .ok ([], _) => .ok none
  | .ok (superRecord, log) => do
    let superblock ← decodeFrom superRecord
    superblock.compatibleWith d.geo
    pure (some ⟨superblock, log⟩)

def candidatesAt (d : Device) : List Nat → Except Status (List Candidate)
  | [] => .ok []
  | i :: rest => do
    let found ← candidateAt d i
    let more ← candidatesAt d rest
    pure (found.toList ++ more)

variable {fs : ZenFS} {d : Device} {heads : Nat → Option Superblock}

variable {d' : Device} {i : Nat}

theorem SameZone.readAt {log : ZenMetaLog} (same : SameZone d d' log.zone)
    (begins : (d.zones log.zone).start ≤ log.readPos) (toRead : Nat) :
    ZenFSProof.readAt d' log toRead = ZenFSProof.readAt d log toRead := by
  obtain ⟨start, limit, stop⟩ := same.place
  simp only [ZenFSProof.readAt, start, limit, stop]
  by_cases across : (d.zones log.zone).start + (d.zones log.zone).maxCapacity < log.readPos + toRead
  · simp only [if_pos across]
  · have bytes : d'.mem.read log.readPos toRead = d.mem.read log.readPos toRead :=
      Memory.read_congr (fun a low high => same.mem a (by omega) (by omega))
    rw [bytes]

theorem SameZone.recordAt {log : ZenMetaLog} (same : SameZone d d' log.zone)
    (begins : (d.zones log.zone).start ≤ log.readPos) :
    ZenFSProof.recordAt d' log = ZenFSProof.recordAt d log := by
  simp only [ZenFSProof.recordAt, same.readAt begins, same.geo]
  rcases first : ZenFSProof.readAt d log zMetaHeaderSize with status | ⟨header, log₁⟩
  · rfl
  obtain ⟨zone, further, _⟩ := readAt_zone first
  rw [← zone] at same begins
  simp only [Bind.bind, Except.bind, same.readAt (Nat.le_trans begins further)]

theorem SameMedia.readAt (same : SameMedia d d') (log : ZenMetaLog) (toRead : Nat) :
    ZenFSProof.readAt d' log toRead = ZenFSProof.readAt d log toRead := by
  obtain ⟨start, limit, stop⟩ := (same.zone log.zone).place
  simp only [ZenFSProof.readAt, start, limit, stop, same.mem]

theorem SameMedia.recordAt (same : SameMedia d d') (log : ZenMetaLog) :
    ZenFSProof.recordAt d' log = ZenFSProof.recordAt d log := by
  simp only [ZenFSProof.recordAt, same.readAt, same.geo]

theorem SameZone.candidateAt (same : SameZone d d' i) : ZenFSProof.candidateAt d' i = ZenFSProof.candidateAt d i := by
  have opened : open' d' i = open' d i := by
    rw [open', open', same.place.1]
  have read : ZenFSProof.recordAt d' (open' d i) = ZenFSProof.recordAt d (open' d i) :=
    SameZone.recordAt same (Nat.le_refl _)
  rw [ZenFSProof.candidateAt, opened, read, same.geo]
  rfl

theorem superblock_readable (superblock : Superblock) : Readable superblock.encode := by
  rw [Readable, superblock_encode_length]
  decide

theorem ensures_readSuperblock (healthy : Healthy fs.md) :
    Ensures (readSuperblock i) (fun result fs' => result = candidateAt fs.md i ∧ OnlyMedia fs fs' ∧
      ∀ j, j ≠ i → (fs'.md.zones j).busy = (fs.md.zones j).busy) fs := by
  simp only [readSuperblock, wp_bind, wp_read, onOk_ok, true_and]
  rw [wp_attempt]
  refine (wp_zoom mdLens _ _ _).mpr (wp_recordAt healthy (fun _ => trivial) (fun calls => ?_))
  change onOk _ _ (.ok (recordAt fs.md (open' fs.md i))) (withMdCalls fs calls)
  have nothing : Ensures (onMeta (release i) >>= fun _ => pure (none : Option Candidate))
      (fun result fs' => result = .ok none ∧ OnlyMedia fs fs' ∧
        ∀ j, j ≠ i → (fs'.md.zones j).busy = (fs.md.zones j).busy) (withMdCalls fs calls) := by
    refine (wp_bind _ _ _ _).mpr (wp_mono ?_ (ensures_release (withMdCalls fs calls) i))
    rintro _ fs' ⟨⟨released, rfl⟩, only, others⟩
    simp only [onOk_ok, wp_pure, true_and]
    exact ⟨(OnlyMedia.calls fs calls).trans only, others⟩
  rcases read : recordAt fs.md (open' fs.md i) with status | ⟨_ | ⟨byte, rest⟩, log⟩
  · simp only [candidateAt, read]
    exact nothing
  · simp only [candidateAt, read]
    exact nothing
  · simp only [candidateAt, read, onOk_ok, wp_bind, wp_ofExcept, wp_read, true_and]
    rcases decodeFrom (byte :: rest) with status | superblock
    · exact ⟨rfl, OnlyMedia.calls fs calls, fun _ _ => rfl⟩
    · change onOk _ _ (superblock.compatibleWith fs.md.geo) _
      simp only [Bind.bind, Except.bind]
      rcases superblock.compatibleWith fs.md.geo with status | _
      · exact ⟨rfl, OnlyMedia.calls fs calls, fun _ _ => rfl⟩
      · exact ⟨rfl, OnlyMedia.calls fs calls, fun _ _ => rfl⟩

theorem candidateAt_empty (empty : (d.zones i).wp ≤ (d.zones i).start) : candidateAt d i = .ok none := by
  have read : recordAt d (open' d i) = .ok ([], open' d i) := recordAt_eof empty
  rw [candidateAt, read]

theorem Headed.candidateAt {superblock : Superblock} (headed : Headed d i superblock) :
    ZenFSProof.candidateAt d i = .ok (some ⟨superblock, ⟨i, logStart d i⟩⟩) := by
  have size := superblock_encode_length superblock
  have decoded := superblock_decode_encode headed.magic headed.version
  have readable := superblock_readable superblock
  have stored := headed.stored
  have inside := headed.inside
  have pos : logStart d i = (d.zones i).start + physSz d.geo.blockSz superblock.encode.length := by
    rw [size]
    rfl
  rw [← size] at stored inside
  rw [pos]
  generalize superblock.encode = bytes at size decoded readable stored inside
  have read := @recordAt_begun d (open' d i) _ _ readable stored headed.aligned headed.begun
    (Nat.add_le_add_left inside _)
  rw [ZenFSProof.candidateAt, read]
  cases bytes with
  | nil => cases size
  | cons byte rest =>
    simp only [decoded, headed.compatible, Bind.bind, Except.bind]
    rfl

theorem candidatesAt_eq {found : Nat → Option Candidate} (zones : List Nat)
    (each : ∀ i ∈ zones, candidateAt d i = .ok (found i)) : candidatesAt d zones = .ok (zones.filterMap found) := by
  induction zones with
  | nil => rfl
  | cons i rest ih =>
    rw [candidatesAt, each i List.mem_cons_self, ih (fun j member => each j (List.mem_cons_of_mem i member)),
      List.filterMap_cons]
    cases found i <;> rfl

theorem ensures_findSuperblocks (zones : List Nat) (same : SameMedia d fs.md) (healthy : Healthy d)
    (distinct : zones.Nodup) (free : ∀ i ∈ zones, (fs.md.zones i).busy = false) :
    Ensures (findSuperblocks zones) (fun result fs' => result = candidatesAt d zones ∧ OnlyMedia fs fs') fs := by
  induction zones generalizing fs with
  | nil => exact ⟨rfl, OnlyMedia.refl fs⟩
  | cons i rest ih =>
    obtain ⟨fresh, later⟩ := List.nodup_cons.mp distinct
    simp only [findSuperblocks, wp_bind]
    refine wp_mono ?_ (ensures_acquire (free i List.mem_cons_self))
    rintro _ fs₁ ⟨rfl, only, others⟩
    have same₁ := same.trans only.media
    simp only [onOk_ok, if_true, wp_bind, candidatesAt, ← (same₁.zone i).candidateAt]
    refine wp_mono ?_ (ensures_readSuperblock (same₁.healthy healthy))
    rintro result fs₂ ⟨rfl, only', others'⟩
    rcases candidateAt fs₁.md i with status | found
    · exact ⟨rfl, only.trans only'⟩
    simp only [onOk_ok]
    have still : ∀ j ∈ rest, (fs₂.md.zones j).busy = false := by
      intro j member
      have other : j ≠ i := by
        rintro rfl
        exact fresh member
      rw [others' j other, others j other]
      exact free j (List.mem_cons_of_mem i member)
    refine wp_mono ?_ (ih (same₁.trans only'.media) later still)
    rintro result fs' ⟨rfl, only''⟩
    have all := (only.trans only').trans only''
    rcases candidatesAt d rest with status | more
    · exact ⟨rfl, all⟩
    · exact ⟨rfl, all⟩

end

end ZenFSProof
