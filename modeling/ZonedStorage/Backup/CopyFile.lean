import ZonedStorage.Bytes.LittleEndian
import ZonedStorage.Device.Status

namespace ZenFSModel

open ByteString

/-- How a `Read` and the `Append` after it are answered: with how many bytes at most, and if the append fails,
    with how many of them stored. -/
structure CopyTurn where
  read : Except Status Nat
  append : Except (Status × Nat) Unit

/-- How the two file systems answer the calls of a copy. -/
structure CopyCalls where
  getFileSize : Except Status Nat
  newSequentialFile : Except Status Unit
  newWritableFile : Except Status Unit
  buffer : Bool
  turns : Nat → CopyTurn
  fsync : Except Status Unit

/-- A copy under way: what is left of the recorded size, how far the source has been read, what the destination
    holds, and the status of the last call. -/
structure Copy where
  toCopy : Nat
  position : Nat
  dest : Bytes
  status : Except Status Unit

namespace CopyCalls

variable (calls : CopyCalls) (content : Bytes)

def bufferSz : Nat := 1024 * 1024

def chunkSlice (c : Copy) (count : Nat) : Bytes :=
  (content.drop c.position).take (min count (min c.toCopy bufferSz))

def appended (chunk : Bytes) : Except (Status × Nat) Unit → Bytes × Except Status Unit
  | .ok () => (chunk, .ok ())
  | .error (status, stored) => (chunk.take stored, .error status)

def copyChunk (turn : Nat) (c : Copy) : Except Status Copy := do
  let count ← (calls.turns turn).read
  let chunk := chunkSlice content c count
  let answer := appended chunk (calls.turns turn).append
  pure ⟨c.toCopy - chunk.length, c.position + chunk.length, c.dest ++ answer.1, answer.2⟩

def copyLoop : Nat → Nat → Copy → Option (Except Status Unit × Bytes)
  | rounds, turn, c =>
    if c.toCopy = 0 then some (c.status, c.dest)
    else match rounds with
      | 0 => none
      | rounds + 1 =>
        match calls.copyChunk content turn c with
        | .error status => some (.error status, c.dest)
        | .ok c => copyLoop rounds (turn + 1) c

def openFiles : Except Status Nat := do
  let toCopy ← calls.getFileSize
  calls.newSequentialFile
  calls.newWritableFile
  if calls.buffer then pure toCopy else .error (Status.ioError "Failed to allocate copy buffer")

def zenfsToolCopyFile (rounds : Nat) : Option (Except Status Unit × Bytes) :=
  match calls.openFiles with
  | .error status => some (.error status, [])
  | .ok toCopy => (calls.copyLoop content rounds 0 ⟨toCopy, 0, [], .ok ()⟩).map (fun (status, dest) =>
      (status.bind (fun _ => calls.fsync), dest))

end CopyCalls

end ZenFSModel

namespace ZenFSProof

open ByteString ZenFSModel ZenFSModel.CopyCalls List

/-- The copy comes to an end, and if it ends well the destination holds what the source does. -/
def CopiesExactly (calls : CopyCalls) (content : Bytes) : Prop :=
  (∃ rounds, (calls.zenfsToolCopyFile content rounds).isSome = true) ∧
    ∀ rounds dest, calls.zenfsToolCopyFile content rounds = some (.ok (), dest) → dest = content

def granted (calls : CopyCalls) (turn : Nat) : Nat :=
  match (calls.turns turn).read with
  | .ok count => min count bufferSz
  | .error _ => 0

/-- What the reads of the first turns have been answered with, a buffer at most each. -/
def readBy (calls : CopyCalls) : Nat → Nat
  | 0 => 0
  | turn + 1 => readBy calls turn + granted calls turn

def Failing (calls : CopyCalls) (turn : Nat) : Prop := ∃ status, (calls.turns turn).read = .error status

/-- A copy of a source whose recorded size may be wrong. -/
structure Transfer where
  calls : CopyCalls
  content : Bytes
  size : Nat

namespace Transfer

variable (t : Transfer)

/-- Where the source has been read to. -/
def readTo (turn : Nat) : Nat := min (min t.size t.content.length) (readBy t.calls turn)

/-- The source is as long as recorded and the reads get to its end, or one of them fails. -/
def Arrives : Prop :=
  (∃ turn, Failing t.calls turn) ∨ t.size ≤ t.content.length ∧ ∃ turns, t.size ≤ readBy t.calls turns

def StoresAll (turns : Nat) : Prop :=
  ∀ turn < turns, ∀ status stored, (t.calls.turns turn).append = .error (status, stored) →
    t.readTo (turn + 1) - t.readTo turn ≤ stored

/-- If the recorded size is read in some turns, of which the last append succeeds, and the sync succeeds, then the
    recorded size is that of the source and no append before has stored less than it was given. -/
def ReportsLoss : Prop :=
  ∀ turns, t.size ≤ t.content.length → t.size ≤ readBy t.calls turns →
    (∀ turn < turns, readBy t.calls turn < t.size ∧ ¬ Failing t.calls turn) →
    (∀ last, turns = last + 1 → (t.calls.turns last).append = .ok ()) → t.calls.fsync = .ok () →
      t.size = t.content.length ∧ t.StoresAll turns

theorem readTo_le (turn : Nat) :
    t.readTo turn ≤ t.readTo (turn + 1) ∧ t.readTo turn ≤ t.size ∧ t.readTo turn ≤ t.content.length := by
  simp only [readTo, readBy]
  omega

def chunk (turn : Nat) : Bytes :=
  (t.content.drop (t.readTo turn)).take (t.readTo (turn + 1) - t.readTo turn)

def stored : Nat → Bytes
  | 0 => []
  | turn + 1 => stored turn ++ (appended (t.chunk turn) (t.calls.turns turn).append).1

def appendStatus : Nat → Except Status Unit
  | 0 => .ok ()
  | turn + 1 => (appended [] (t.calls.turns turn).append).2

/-- The copy after some turns in none of which a read has failed. -/
def copied (turn : Nat) : Copy where
  toCopy := t.size - t.readTo turn
  position := t.readTo turn
  dest := t.stored turn
  status := t.appendStatus turn

theorem chunk_length (turn : Nat) : (t.chunk turn).length = t.readTo (turn + 1) - t.readTo turn := by
  have first := t.readTo_le turn
  have next := t.readTo_le (turn + 1)
  rw [chunk, length_take, length_drop]
  omega

variable {t}

theorem copyChunk_copied {turn count : Nat} (read : (t.calls.turns turn).read = .ok count) :
    t.calls.copyChunk t.content turn (t.copied turn) = .ok (t.copied (turn + 1)) := by
  have moved : t.readTo (turn + 1) - t.readTo turn =
      min (min count (min (t.size - t.readTo turn) bufferSz)) (t.content.length - t.readTo turn) := by
    simp only [readTo, readBy, granted, read]
    omega
  have slice : chunkSlice t.content (t.copied turn) count = t.chunk turn := by
    rw [chunkSlice, chunk, moved, ← length_drop]
    exact take_eq_take_min
  have first := t.readTo_le turn
  have next := t.readTo_le (turn + 1)
  have status : (appended (t.chunk turn) (t.calls.turns turn).append).2 = t.appendStatus (turn + 1) := by
    rw [appendStatus]
    cases (t.calls.turns turn).append <;> rfl
  rw [copyChunk, read]
  change Except.ok (Copy.mk (_ - length (chunkSlice _ _ _)) (_ + length (chunkSlice _ _ _)) _ _) = _
  rw [slice, chunk_length, status]
  simp only [copied, stored, Except.ok.injEq, Copy.mk.injEq, and_true]
  omega

/-- From a turn on no read fails before the turn at which the recorded size has been read. -/
def EndsAt (turn turns : Nat) : Prop :=
  turn ≤ turns ∧ t.size ≤ t.readTo turns ∧
    ∀ early, turn ≤ early → early < turns → t.readTo early < t.size ∧ ¬ Failing t.calls early

theorem endsAt_self {turn turns : Nat} (ended : t.size ≤ t.readTo turn) :
    t.EndsAt turn turns ↔ turns = turn := by
  constructor
  · rintro ⟨from_here, _, before⟩
    rcases Nat.eq_or_lt_of_le from_here with same | later
    · exact same.symm
    · exact absurd (before turn (Nat.le_refl _) later).1 (Nat.not_lt.mpr ended)
  · rintro rfl
    exact ⟨Nat.le_refl _, ended, fun early behind before => absurd before (Nat.not_lt.mpr behind)⟩

theorem endsAt_next {turn turns : Nat} (going : ¬ t.size ≤ t.readTo turn) :
    t.EndsAt turn turns ↔ ¬ Failing t.calls turn ∧ t.EndsAt (turn + 1) turns := by
  constructor
  · rintro ⟨from_here, ended, before⟩
    have later : turn < turns := by
      refine Nat.lt_of_le_of_ne from_here ?_
      rintro rfl
      exact going ended
    exact ⟨(before turn (Nat.le_refl _) later).2, later, ended,
      fun early behind => before early (Nat.le_of_succ_le behind)⟩
  · rintro ⟨fine, from_next, ended, before⟩
    refine ⟨Nat.le_of_succ_le from_next, ended, fun early behind sooner => ?_⟩
    rcases Nat.eq_or_lt_of_le behind with rfl | later
    · exact ⟨Nat.not_le.mp going, fine⟩
    · exact before early later sooner

theorem endsAt_start {turns : Nat} : t.EndsAt 0 turns ↔ t.size ≤ t.content.length ∧ t.size ≤ readBy t.calls turns ∧
    ∀ turn < turns, readBy t.calls turn < t.size ∧ ¬ Failing t.calls turn := by
  have ended : ∀ turn, t.size ≤ t.readTo turn ↔ t.size ≤ t.content.length ∧ t.size ≤ readBy t.calls turn := by
    intro turn
    simp only [readTo]
    omega
  simp only [EndsAt, ended, ← Nat.not_le, Nat.zero_le, true_and, true_implies, and_assoc]
  refine and_congr_right (fun long => and_congr_right (fun _ => ?_))
  simp only [long, true_and]

theorem copyLoop_ended {turn : Nat} (ended : t.size ≤ t.readTo turn) (rounds : Nat) :
    t.calls.copyLoop t.content rounds turn (t.copied turn) = some (t.appendStatus turn, t.stored turn) := by
  unfold copyLoop
  exact if_pos (Nat.sub_eq_zero_of_le ended)

theorem copied_going {turn : Nat} (going : ¬ t.size ≤ t.readTo turn) : (t.copied turn).toCopy ≠ 0 :=
  fun done => going (Nat.le_of_sub_eq_zero done)

theorem copyLoop_failing {turn : Nat} (going : ¬ t.size ≤ t.readTo turn) {status : Status}
    (failed : (t.calls.turns turn).read = .error status) (rounds : Nat) :
    t.calls.copyLoop t.content (rounds + 1) turn (t.copied turn) = some (.error status, t.stored turn) := by
  unfold copyLoop
  rw [if_neg (copied_going going), copyChunk, failed]
  rfl

theorem copyLoop_going {turn : Nat} (going : ¬ t.size ≤ t.readTo turn) {count : Nat}
    (read : (t.calls.turns turn).read = .ok count) (rounds : Nat) :
    t.calls.copyLoop t.content (rounds + 1) turn (t.copied turn) =
      t.calls.copyLoop t.content rounds (turn + 1) (t.copied (turn + 1)) := by
  conv_lhs => unfold copyLoop
  rw [if_neg (copied_going going), copyChunk_copied read]

theorem copyLoop_spent {turn : Nat} (going : ¬ t.size ≤ t.readTo turn) :
    t.calls.copyLoop t.content 0 turn (t.copied turn) = none := by
  unfold copyLoop
  exact if_neg (copied_going going)

theorem copyLoop_ok_iff (rounds turn : Nat) (dest : Bytes) :
    t.calls.copyLoop t.content rounds turn (t.copied turn) = some (.ok (), dest) ↔
      ∃ turns ≤ turn + rounds, t.EndsAt turn turns ∧ t.appendStatus turns = .ok () ∧ t.stored turns = dest := by
  induction rounds generalizing turn with
  | zero =>
    by_cases ended : t.size ≤ t.readTo turn
    · rw [copyLoop_ended ended]
      simp [endsAt_self ended]
    · rw [copyLoop_spent ended]
      simp only [reduceCtorEq, false_iff]
      rintro ⟨turns, most, here, _⟩
      obtain rfl := Nat.le_antisymm most here.1
      exact ended here.2.1
  | succ rounds ih =>
    by_cases ended : t.size ≤ t.readTo turn
    · rw [copyLoop_ended ended]
      simp [endsAt_self ended]
    · cases read : (t.calls.turns turn).read with
      | error status =>
        rw [copyLoop_failing ended read]
        simp [endsAt_next ended, Failing, read]
      | ok count =>
        rw [copyLoop_going ended read, ih, Nat.add_right_comm]
        simp [endsAt_next ended, Failing, read, Nat.add_assoc]

theorem copyLoop_isSome (rounds turn : Nat) :
    (t.calls.copyLoop t.content rounds turn (t.copied turn)).isSome = true ↔
      t.size ≤ t.readTo (turn + rounds) ∨
        ∃ failed, turn ≤ failed ∧ failed < turn + rounds ∧ Failing t.calls failed := by
  induction rounds generalizing turn with
  | zero =>
    have none_between : ¬ ∃ failed, turn ≤ failed ∧ failed < turn ∧ Failing t.calls failed := by
      rintro ⟨failed, low, high, _⟩
      omega
    by_cases ended : t.size ≤ t.readTo turn
    · simp [copyLoop_ended ended, ended]
    · simp only [copyLoop_spent ended, none_between, or_false, Nat.add_zero, ended, Option.isSome_none,
        Bool.false_eq_true]
  | succ rounds ih =>
    by_cases ended : t.size ≤ t.readTo turn
    · have later : t.readTo turn ≤ t.readTo (turn + (rounds + 1)) :=
        monotone_nat_of_le_succ (fun turn => (t.readTo_le turn).1) (Nat.le_add_right _ _)
      rw [copyLoop_ended ended]
      exact iff_of_true rfl (.inl (Nat.le_trans ended later))
    · cases read : (t.calls.turns turn).read with
      | error status =>
        rw [copyLoop_failing ended read]
        exact iff_of_true rfl (.inr ⟨turn, Nat.le_refl _, by omega, status, read⟩)
      | ok count =>
        rw [copyLoop_going ended read, ih, Nat.add_right_comm, Nat.add_assoc]
        refine or_congr_right (exists_congr (fun failed => ?_))
        constructor
        · exact fun ⟨low, rest⟩ => ⟨Nat.le_of_succ_le low, rest⟩
        · rintro ⟨low, high, status, failed_read⟩
          refine ⟨Nat.lt_of_le_of_ne low ?_, high, status, failed_read⟩
          rintro rfl
          rw [read] at failed_read
          cases failed_read

theorem appended_whole_iff (part : Bytes) (reply : Except (Status × Nat) Unit) :
    (appended part reply).1.length ≤ part.length ∧ ((appended part reply).1.length = part.length ↔
      ∀ status stored, reply = .error (status, stored) → part.length ≤ stored) ∧
    ((appended part reply).1.length = part.length → (appended part reply).1 = part) := by
  rcases reply with ⟨status, count⟩ | _
  · simp only [appended, length_take, Except.error.injEq, Prod.mk.injEq]
    refine ⟨by omega, ⟨?_, fun all => ?_⟩, fun _ => take_of_length_le (by omega)⟩
    · rintro short _ _ ⟨rfl, rfl⟩
      omega
    · have enough := all status count ⟨rfl, rfl⟩
      omega
  · simp [appended]

theorem stored_whole (turns : Nat) :
    (t.stored turns).length ≤ t.readTo turns ∧
    ((t.stored turns).length = t.readTo turns ↔ t.StoresAll turns) ∧
    ((t.stored turns).length = t.readTo turns → t.stored turns = t.content.take (t.readTo turns)) := by
  induction turns with
  | zero =>
    have none_yet : t.StoresAll 0 := fun _ early => absurd early (Nat.not_lt_zero _)
    have start : t.readTo 0 = 0 := by simp [readTo, readBy]
    simp [stored, start, none_yet]
  | succ turn ih =>
    obtain ⟨most, whole, same⟩ := ih
    obtain ⟨short, all, kept⟩ := appended_whole_iff (t.chunk turn) (t.calls.turns turn).append
    have forward := (t.readTo_le turn).1
    rw [chunk_length] at short all kept
    have split : t.StoresAll (turn + 1) ↔ t.StoresAll turn ∧
        ∀ status stored, (t.calls.turns turn).append = .error (status, stored) →
          t.readTo (turn + 1) - t.readTo turn ≤ stored :=
      Nat.forall_lt_succ_right
    simp only [stored, length_append]
    refine ⟨by omega, ?_, fun both => ?_⟩
    · rw [split, ← whole, ← all]
      omega
    · rw [same (by omega), kept (by omega), chunk, ← take_add]
      congr 1
      omega

theorem stored_eq_iff {turns : Nat} (ended : t.EndsAt 0 turns) :
    t.stored turns = t.content ↔ t.size = t.content.length ∧ t.StoresAll turns := by
  obtain ⟨most, whole, same⟩ := t.stored_whole turns
  have below := t.readTo_le turns
  have reached := ended.2.1
  rw [← whole]
  constructor
  · intro all
    rw [all] at most ⊢
    omega
  · rintro ⟨equal, all⟩
    rw [same all, take_of_length_le (by omega)]

theorem appendStatus_ok_iff (turns : Nat) :
    t.appendStatus turns = .ok () ↔ ∀ last, turns = last + 1 → (t.calls.turns last).append = .ok () := by
  cases turns with
  | zero => simp [appendStatus]
  | succ turn =>
    rw [appendStatus]
    rcases answer : (t.calls.turns turn).append with ⟨status, count⟩ | _
    · simp [appended, answer]
    · simp [appended, answer]

theorem ends_iff_arrives :
    (∃ rounds, (t.calls.copyLoop t.content rounds 0 (t.copied 0)).isSome = true) ↔ t.Arrives := by
  simp only [copyLoop_isSome, Nat.zero_add, Nat.zero_le, true_and]
  constructor
  · rintro ⟨rounds, reached | ⟨failed, _, fails⟩⟩
    · simp only [readTo] at reached
      exact .inr ⟨by omega, rounds, by omega⟩
    · exact .inl ⟨failed, fails⟩
  · rintro (⟨failed, fails⟩ | ⟨long, turns, reached⟩)
    · exact ⟨failed + 1, .inr ⟨failed, Nat.lt_succ_self _, fails⟩⟩
    · refine ⟨turns, .inl ?_⟩
      simp only [readTo]
      omega

theorem exact_iff_reportsLoss :
    (∀ rounds dest, t.calls.copyLoop t.content rounds 0 (t.copied 0) = some (.ok (), dest) → t.calls.fsync = .ok () →
      dest = t.content) ↔ t.ReportsLoss := by
  simp only [copyLoop_ok_iff, Nat.zero_add, appendStatus_ok_iff]
  constructor
  · intro right turns long reached before good synced
    have ended := endsAt_start.mpr ⟨long, reached, before⟩
    exact (stored_eq_iff ended).mp (right turns _ ⟨turns, Nat.le_refl _, ended, good, rfl⟩ synced)
  · rintro reports rounds dest ⟨turns, _, ended, good, rfl⟩ synced
    obtain ⟨long, reached, before⟩ := endsAt_start.mp ended
    exact (stored_eq_iff ended).mpr (reports turns long reached before good synced)

end Transfer

/-- The copy ends and is exact if it ends well, just if the reads get to the recorded size or fail, and what an
    append loses, or the recorded size leaves out, does not go unreported. -/
theorem copies_exactly_iff (calls : CopyCalls) (content : Bytes) : CopiesExactly calls content ↔
    ∀ size, calls.openFiles = .ok size →
      Transfer.Arrives ⟨calls, content, size⟩ ∧ Transfer.ReportsLoss ⟨calls, content, size⟩ := by
  cases opened : calls.openFiles with
  | error status => simp [CopiesExactly, zenfsToolCopyFile, opened]
  | ok size =>
    let t : Transfer := ⟨calls, content, size⟩
    have start : (⟨size, 0, [], .ok ()⟩ : Copy) = t.copied 0 := by
      simp [t, Transfer.copied, Transfer.readTo, readBy, Transfer.stored, Transfer.appendStatus]
    have answers : ∀ rounds, calls.zenfsToolCopyFile content rounds =
        (calls.copyLoop content rounds 0 (t.copied 0)).map (fun (status, dest) =>
          (status.bind (fun _ => calls.fsync), dest)) := by
      intro rounds
      rw [zenfsToolCopyFile, opened, ← start]
    have returned : ∀ rounds dest, calls.zenfsToolCopyFile content rounds = some (.ok (), dest) ↔
        calls.copyLoop content rounds 0 (t.copied 0) = some (.ok (), dest) ∧ calls.fsync = .ok () := by
      intro rounds dest
      rw [answers, Option.map_eq_some_iff]
      constructor
      · rintro ⟨⟨status | _, dest'⟩, answer, same⟩
        · cases same
        · obtain ⟨synced, rfl⟩ := Prod.mk.inj same
          exact ⟨answer, synced⟩
      · rintro ⟨answer, synced⟩
        exact ⟨_, answer, congrArg (·, dest) synced⟩
    simp only [CopiesExactly, returned, and_imp, Except.ok.injEq, forall_eq']
    simp only [answers, Option.isSome_map]
    exact and_congr (@Transfer.ends_iff_arrives t) (@Transfer.exact_iff_reportsLoss t)

/-- Reads return one byte each while there is one, and only the appends of the turns listed fail. -/
def byteByByte (size : Nat) (failing : List Nat) : CopyCalls where
  getFileSize := .ok size
  newSequentialFile := .ok ()
  newWritableFile := .ok ()
  buffer := true
  turns turn := ⟨.ok 1, if turn ∈ failing then .error (Status.ioError "append", 0) else .ok ()⟩
  fsync := .ok ()

/-- A failed append is forgotten when a later one succeeds, and a recorded size that is too large is waited for
    for ever. -/
theorem lossy_and_endless_copies : (byteByByte 2 [0]).zenfsToolCopyFile [0x61, 0x62] 2 = some (.ok (), [0x62]) ∧
      ∀ rounds, (byteByByte 2 []).zenfsToolCopyFile [0x61] rounds = none := by
  refine ⟨rfl, fun rounds => ?_⟩
  have waits : ∀ rounds turn, (byteByByte 2 []).copyLoop [0x61] rounds turn ⟨1, 1, [0x61], .ok ()⟩ = none := by
    intro rounds
    induction rounds with
    | zero => exact fun _ => rfl
    | succ rounds ih => exact fun turn => ih (turn + 1)
  cases rounds with
  | zero => rfl
  | succ rounds =>
    have loop := waits rounds 1
    exact congrArg (Option.map _) loop

end ZenFSProof
