import ZonedStorage.Device.Open
import ZonedStorage.Device.Read
import ZonedStorage.File.Contents
import ZonedStorage.File.InvalidateCache
import ZonedStorage.Runs.Throughout

namespace ZenFSModel

open ByteString

namespace ZoneFile

/-- The loop of `PositionedRead`; a direct read of part of a block asks for the whole block. -/
def preadLoop (f : ZoneFile) (direct : Bool) (blockSz offset rSz : Nat) : Nat → Nat → Nat → Bytes → Proc Device Bytes
  | 0, _, _, _ => .hang
  | rounds + 1, rOff, extentEnd, buf =>
    if buf.length = rSz then pure buf
    else do
      let left := (rSz + 2 ^ 64 - buf.length) % 2 ^ 64
      let preadSz := if extentEnd < (left + rOff) % 2 ^ 64 then (extentEnd + 2 ^ 64 - rOff) % 2 ^ 64 else left
      let bytesToAlign := if direct && preadSz % blockSz != 0 then blockSz - preadSz % blockSz else 0
      match ← Device.read rOff ((preadSz + bytesToAlign) % 2 ^ 64) direct with
      | none => .fail (Status.ioError "pread error\n")
      | some [] => pure buf
      | some bytes =>
        let next := buf ++ bytes.take preadSz
        let rOff := (rOff + (bytes.take preadSz).length) % 2 ^ 64
        if next.length != rSz && rOff == extentEnd then
          match getExtent f.extents ((offset + next.length) % 2 ^ 64) with
          | none => pure next
          | some (extent, _) =>
            preadLoop f direct blockSz offset rSz rounds extent.start ((extent.start + extent.length) % 2 ^ 64) next
        else preadLoop f direct blockSz offset rSz rounds rOff extentEnd next

def positionedRead (f : ZoneFile) (offset n : Nat) (direct : Bool) : Proc Device Bytes := do
  let blockSz ← .read (fun d => d.geo.blockSz)
  if f.fileSize ≤ offset then pure []
  else
    match getExtent f.extents offset with
    | none => pure []
    | some (extent, rOff) =>
      let rSz := if f.fileSize < (offset + n) % 2 ^ 64 then f.fileSize - offset else n
      preadLoop f direct blockSz offset rSz (rSz + 1) rOff ((extent.start + extent.length) % 2 ^ 64) []

end ZoneFile

inductive SequentialCall where
  | read (n : Nat)
  | skip (n : Nat)
deriving DecidableEq, Repr

def SequentialCall.count : SequentialCall → Nat
  | read n => n
  | skip n => n

structure ZonedSequentialFile where
  zoneFile : ZoneFile
  rp : Nat
  direct : Bool

namespace ZonedSequentialFile

def read (file : ZonedSequentialFile) (n : Nat) (d : Device) :
    Option (Except Status Bytes × ZonedSequentialFile × Device) :=
  match (file.zoneFile.positionedRead file.rp n file.direct).run d with
  | none => none
  | some (.ok result, d') => some (.ok result, { file with rp := (file.rp + result.length) % 2 ^ 64 }, d')
  | some (.error status, d') => some (.error status, file, d')

def skip (file : ZonedSequentialFile) (n : Nat) : Except Status Unit × ZonedSequentialFile :=
  if file.zoneFile.fileSize ≤ (file.rp + n) % 2 ^ 64 then
    (.error (Status.invalidArgument "Skip beyond end of file"), file)
  else (.ok (), { file with rp := (file.rp + n) % 2 ^ 64 })

def call (file : ZonedSequentialFile) (d : Device) :
    SequentialCall → Option (Except Status Bytes × ZonedSequentialFile × Device)
  | .read n => file.read n d
  | .skip n => some ((file.skip n).1.map (fun _ => []), (file.skip n).2, d)

end ZonedSequentialFile

end ZenFSModel

namespace ZenFSProof

open ByteString Resumption.Prog Runs ZenFSModel ZenFSModel.ZoneFile List Memory Nat

/-- A synced file: its extents hold all of it and lie on the device. -/
structure OnDevice (d : Device) (f : ZoneFile) : Prop where
  sized : totalLength f.extents = f.fileSize
  inside : ∀ e ∈ f.extents, e.start + e.length ≤ d.geo.nrZones * d.geo.zoneSz
  held : f.fileSize ≤ d.geo.nrZones * d.geo.zoneSz

def cursorMoves (size position : Nat) (call : SequentialCall) : Nat := min (position + call.count) size

def cursorGives (content : Bytes) (position : Nat) : SequentialCall → Bytes
  | .read n => (content.drop position).take n
  | .skip _ => []

/-- Every call succeeds as a cursor over the content does, and leaves the position where that does. -/
def IsCursor (content : Bytes) : ZonedSequentialFile → Device → List SequentialCall → Prop
  | _, _, [] => True
  | file, d, call :: rest => ∃ file' d', file.call d call = some (.ok (cursorGives content file.rp call), file', d') ∧
      file'.rp = cursorMoves content.length file.rp call ∧ IsCursor content file' d' rest

/-- The position of a read can be counted on from, no piece of it is too long for an `int`, and a direct
    read starts its pieces on blocks. -/
def PiecesFit (d : Device) (f : ZoneFile) (direct : Bool) (position : Nat) : SequentialCall → Prop
  | .skip _ => True
  | .read n => position < f.fileSize → position + n < 2 ^ 64 ∧
      (∀ e ∈ f.extents, min n e.length + d.geo.blockSz ≤ 2 ^ 31) ∧
      (direct = true → (∀ e ∈ f.extents, d.geo.blockSz ∣ e.start) ∧
        ∀ e rOff, getExtent f.extents position = some (e, rOff) → d.geo.blockSz ∣ rOff)

def SkipsInside (size position : Nat) : SequentialCall → Prop
  | .skip n => position + n < size
  | .read _ => True

theorem length_contents (d : Device) (extents : List ZoneExtent) :
    (contents d extents).length = totalLength extents := by
  induction extents with
  | nil => rfl
  | cons e rest ih => rw [contents_cons, length_append, read_length, ih, totalLength_cons]

theorem contents_at (d : Device) (before rest : List ZoneExtent) {e : ZoneExtent} {skipped count : Nat}
    (fits : skipped + count ≤ e.length) :
    ((contents d (before ++ e :: rest)).drop (totalLength before + skipped)).take count =
      d.mem.read (e.start + skipped) count := by
  rw [contents_append, contents_cons, ← drop_drop, drop_left' (length_contents d before),
    drop_append_of_le_length (by rw [read_length]; omega),
    take_append_of_le_length (by rw [length_drop, read_length]; omega), read_drop_take _ fits]

section

variable {d : Device} {f : ZoneFile} {direct : Bool} {offset rSz : Nat}

structure Standing (d : Device) (f : ZoneFile) (direct : Bool) (position rOff extentEnd : Nat) : Prop where
  blocks : direct = true → d.geo.blockSz ∣ rOff
  found : ∃ before e rest skipped, f.extents = before ++ e :: rest ∧ position = totalLength before + skipped ∧
    skipped < e.length ∧ rOff = e.start + skipped ∧ extentEnd = e.start + e.length

theorem OnDevice.end_lt (placed : OnDevice d f) {e : ZoneExtent} (listed : e ∈ f.extents) :
    e.start + e.length < 2 ^ 63 := lt_of_le_of_lt (placed.inside e listed) d.geo.device_lt

theorem next_standing (placed : OnDevice d f) (starts : direct = true → ∀ e ∈ f.extents, d.geo.blockSz ∣ e.start)
    {before rest : List ZoneExtent} {e : ZoneExtent} (split : f.extents = before ++ e :: rest) {position : Nat}
    (reached : position = totalLength before + e.length) (inside : position < f.fileSize) :
    ∃ next rOff, getExtent f.extents position = some (next, rOff) ∧
      (next.start + next.length) % 2 ^ 64 = next.start + next.length ∧
      Standing d f direct position next.start (next.start + next.length) := by
  have total := placed.sized
  rw [split, totalLength_append, totalLength_cons] at total
  obtain ⟨between, next, rest', none_skipped, split', zero, inner, _⟩ :=
    @getExtent_split rest 0 (by omega)
  have shape : f.extents = (before ++ e :: between) ++ next :: rest' := by
    rw [split, split', append_assoc, cons_append]
  have here : position = totalLength (before ++ e :: between) + 0 := by
    rw [totalLength_append, totalLength_cons]
    omega
  have listed : next ∈ f.extents := shape ▸ mem_append_right _ mem_cons_self
  have low := placed.end_lt listed
  refine ⟨next, (next.start + 0) % 2 ^ 64, ?_, mod_eq_of_lt (by omega),
    fun isDirect => starts isDirect next listed, _, next, rest', 0, shape, here, by omega, rfl, rfl⟩
  rw [shape, here, getExtent_append, getExtent, if_pos (by omega)]

theorem aligned_piece (rOff share : Nat) (blocks : direct = true → d.geo.blockSz ∣ rOff) :
    ∃ more, (if (direct && share % d.geo.blockSz != 0) = true then d.geo.blockSz - share % d.geo.blockSz else 0) = more ∧
      more < d.geo.blockSz ∧ Aligned d direct rOff (share + more) := by
  have sector := d.geo.sector_le
  have below := mod_lt share (y := d.geo.blockSz) (by omega)
  split
  · rename_i partly
    have some_over : share % d.geo.blockSz ≠ 0 := bne_iff_ne.mp (Bool.and_eq_true _ _ ▸ partly).2
    refine ⟨_, rfl, by omega, fun isDirect => ⟨blocks isDirect, ?_⟩⟩
    have whole : share + (d.geo.blockSz - share % d.geo.blockSz) = d.geo.blockSz * (share / d.geo.blockSz + 1) := by
      have divided := div_add_mod share d.geo.blockSz
      rw [mul_add, mul_one]
      omega
    exact ⟨_, whole⟩
  · rename_i fits
    refine ⟨_, rfl, by omega, fun isDirect => ⟨blocks isDirect, ?_⟩⟩
    rw [isDirect] at fits
    exact dvd_of_mod_eq_zero (by simpa using fits)

theorem piece_size {start length skipped left : Nat} (low : start + length < 2 ^ 63) (few : left < 2 ^ 63)
    (inner : skipped < length) (some_left : 0 < left) :
    ∃ share, (if start + length < (left + (start + skipped)) % 2 ^ 64 then
        (start + length + 2 ^ 64 - (start + skipped)) % 2 ^ 64 else left) = share ∧
      0 < share ∧ share ≤ left ∧ skipped + share ≤ length ∧ (share = left ∨ skipped + share = length) := by
  rw [mod_eq_of_lt (by omega)]
  split
  · exact ⟨_, rfl, by omega, by omega, by omega, .inr (by omega)⟩
  · exact ⟨_, rfl, some_left, le_refl _, by omega, .inl rfl⟩

theorem wp_preadLoop (placed : OnDevice d f) (healthy : ¬ Broken d) (within : offset + rSz ≤ f.fileSize)
    (short : ∀ e ∈ f.extents, min rSz e.length + d.geo.blockSz ≤ 2 ^ 31)
    (starts : direct = true → ∀ e ∈ f.extents, d.geo.blockSz ∣ e.start)
    (rounds : Nat) {rOff extentEnd calls : Nat} {buf : Bytes} (enough : rSz < rounds + buf.length)
    (later : d.calls ≤ calls) (fits : buf.length ≤ rSz)
    (so_far : buf = ((contents d f.extents).drop offset).take buf.length)
    (standing : buf.length < rSz → Standing d f direct (offset + buf.length) rOff extentEnd) :
    wp (fun _ => True) False (preadLoop f direct d.geo.blockSz offset rSz rounds rOff extentEnd buf)
      (fun result d' => result = .ok (((contents d f.extents).drop offset).take rSz) ∧
        ∃ calls, d.calls ≤ calls ∧ d' = withCalls d calls) (withCalls d calls) := by
  induction rounds generalizing rOff extentEnd calls buf with
  | zero => omega
  | succ rounds ih =>
    rw [preadLoop]
    by_cases all : buf.length = rSz
    · rw [if_pos all, wp_pure, ← all]
      exact ⟨congrArg _ so_far, calls, later, rfl⟩
    rw [if_neg all]
    obtain ⟨blocks, before, e, rest, skipped, split, position, inner, rfl, rfl⟩ := standing (by omega)
    have listed : e ∈ f.extents := split ▸ mem_append_right _ mem_cons_self
    have low := placed.end_lt listed
    have device := lt_of_le_of_lt placed.held d.geo.device_lt
    have left_eq : (rSz + 2 ^ 64 - buf.length) % 2 ^ 64 = rSz - buf.length := by omega
    obtain ⟨share, piece_eq, some_read, upto, inside, ends⟩ :=
      @piece_size _ _ _ (rSz - buf.length) low (by omega) inner (by omega)
    obtain ⟨more, more_eq, few, aligned⟩ := aligned_piece (d := d) (e.start + skipped) share blocks
    have size : share + d.geo.blockSz ≤ 2 ^ 31 :=
      Nat.le_trans (Nat.add_le_add_right (Nat.le_min.mpr ⟨by omega, by omega⟩) _) (short e listed)
    have word : (share + more) % 2 ^ 64 = share + more := mod_eq_of_lt (by omega)
    simp only [left_eq, piece_eq, more_eq, word, wp_bind]
    refine wp_deviceRead (d := withCalls d calls) (by omega) (by omega) aligned (fun _ => trivial)
      (fun broken => absurd (broken.earlier later rfl) healthy) (fun after following => ?_)
    have piece : (d.mem.read (e.start + skipped) (share + more)).take share =
        ((contents d f.extents).drop (offset + buf.length)).take share := by
      rw [split, position, contents_at d before rest (by omega), read_add,
        take_left' (read_length _ _ _)]
    have gained : (((contents d f.extents).drop (offset + buf.length)).take share).length = share := by
      rw [← piece, length_take, read_length, min_eq_left (le_add_right _ _)]
    have length : (buf ++ ((contents d f.extents).drop (offset + buf.length)).take share).length =
        buf.length + share := by rw [length_append, gained]
    have joined : buf ++ ((contents d f.extents).drop (offset + buf.length)).take share =
        ((contents d f.extents).drop offset).take (buf.length + share) := by
      rw [take_add, drop_drop, ← so_far]
    cases read : d.mem.read (e.start + skipped) (share + more) with
    | nil =>
      have none_read := read_length d.mem (e.start + skipped) (share + more)
      rw [read, length_nil] at none_read
      omega
    | cons byte bytes =>
      rw [read] at piece
      have seen : (withCalls d calls).mem.read (e.start + skipped) (share + more) = byte :: bytes := read
      simp only [seen, onOk_ok, piece, gained, length]
      rw [mod_eq_of_lt (a := e.start + skipped + share) (by omega),
        mod_eq_of_lt (a := offset + (buf.length + share)) (by omega)]
      have go_on : ∀ {rOff extentEnd : Nat}, (buf.length + share < rSz →
          Standing d f direct (offset + (buf.length + share)) rOff extentEnd) → _ :=
        fun {rOff extentEnd} standing => @ih rOff extentEnd after
          (buf ++ ((contents d f.extents).drop (offset + buf.length)).take share)
          (by rw [length]; omega) (Nat.le_trans later following) (by rw [length]; omega) (by rw [length]; exact joined)
          (by rw [length]; exact standing)
      by_cases last : buf.length + share = rSz
      · rw [if_neg (by simp [last])]
        exact go_on (fun less => absurd last (Nat.ne_of_lt less))
      · have room : skipped + share = e.length := by omega
        have reached : offset + (buf.length + share) = totalLength before + e.length := by omega
        obtain ⟨next, _, found, word, there⟩ := next_standing placed starts split reached (by omega)
        simp only [found, word]
        rw [if_pos (by simp [last, add_assoc, room])]
        exact go_on (fun _ => there)

theorem run_positionedRead (placed : OnDevice d f) (healthy : ¬ Broken d) {position n calls : Nat}
    (readable : PiecesFit d f direct position (.read n)) (later : d.calls ≤ calls) :
    ∃ calls', d.calls ≤ calls' ∧ (f.positionedRead position n direct).run (withCalls d calls) =
      some (.ok (((contents d f.extents).drop position).take n), withCalls d calls') := by
  suffices total : wp (fun _ => True) False (f.positionedRead position n direct)
      (fun result d' => result = .ok (((contents d f.extents).drop position).take n) ∧
        ∃ calls, d.calls ≤ calls ∧ d' = withCalls d calls) (withCalls d calls) by
    obtain ⟨_, _, ran, rfl, calls', after, rfl⟩ := (wp_total_iff _ _ _).mp total
    exact ⟨calls', after, ran⟩
  have length : (contents d f.extents).length = f.fileSize := by rw [length_contents, placed.sized]
  rw [positionedRead, wp_bind, wp_read]
  refine ⟨trivial, ?_⟩
  rw [onOk_ok]
  by_cases beyond : f.fileSize ≤ position
  · rw [if_pos beyond, wp_pure, drop_eq_nil_of_le (by omega), take_nil]
    exact ⟨rfl, calls, later, rfl⟩
  rw [if_neg beyond]
  obtain ⟨word, short, blocks⟩ := readable (Nat.lt_of_not_le beyond)
  obtain ⟨before, e, rest, skipped, split, here, inner, found⟩ :=
    @getExtent_split f.extents position (by rw [placed.sized]; omega)
  have listed : e ∈ f.extents := split ▸ mem_append_right _ mem_cons_self
  have low := placed.end_lt listed
  have rOff : (e.start + skipped) % 2 ^ 64 = e.start + skipped := mod_eq_of_lt (by omega)
  rw [rOff] at found
  have limited : (if f.fileSize < (position + n) % 2 ^ 64 then f.fileSize - position else n) =
      min n (f.fileSize - position) := by
    rw [mod_eq_of_lt word]
    split <;> omega
  have same : ((contents d f.extents).drop position).take n =
      ((contents d f.extents).drop position).take (min n (f.fileSize - position)) := by
    rw [← take_take, ← length, ← length_drop, take_length]
  simp only [found, limited, same, mod_eq_of_lt (a := e.start + e.length) (b := 2 ^ 64) (by omega)]
  refine wp_preadLoop placed healthy (by omega) (fun other listed => ?_) (fun isDirect => (blocks isDirect).1) _
    (by omega) later (zero_le _) rfl (fun _ => ⟨fun isDirect => (blocks isDirect).2 e _ found,
      before, e, rest, skipped, split, here, inner, rfl, rfl⟩)
  have piece := short other listed
  omega

end

section

variable {d : Device} {f : ZoneFile} {rp : Nat} {direct : Bool}

theorem call_cursor (placed : OnDevice d f) (healthy : ¬ Broken d) (within : rp ≤ f.fileSize) {call : SequentialCall}
    {calls : Nat} (readable : PiecesFit d f direct rp call) (inside : SkipsInside f.fileSize rp call)
    (later : d.calls ≤ calls) :
    ∃ calls', d.calls ≤ calls' ∧ ZonedSequentialFile.call ⟨f, rp, direct⟩ (withCalls d calls) call =
      some (.ok (cursorGives (contents d f.extents) rp call), ⟨f, cursorMoves f.fileSize rp call, direct⟩,
        withCalls d calls') := by
  have device := lt_of_le_of_lt placed.held d.geo.device_lt
  cases call with
  | read n =>
    obtain ⟨calls', after, ran⟩ := run_positionedRead placed healthy readable later
    refine ⟨calls', after, ?_⟩
    have moved : (rp + (((contents d f.extents).drop rp).take n).length) % 2 ^ 64 = min (rp + n) f.fileSize := by
      rw [length_take, length_drop, length_contents, placed.sized, mod_eq_of_lt (by omega)]
      omega
    simp only [ZonedSequentialFile.call, ZonedSequentialFile.read, ran, moved, cursorGives, cursorMoves,
      SequentialCall.count]
  | skip n =>
    have short : rp + n < f.fileSize := inside
    have moved : (rp + n) % 2 ^ 64 = min (rp + n) f.fileSize := by omega
    refine ⟨calls, later, ?_⟩
    simp only [ZonedSequentialFile.call, ZonedSequentialFile.skip]
    rw [if_neg (by omega), moved]
    rfl

theorem skips_inside (placed : OnDevice d f) {call : SequentialCall} (word : call.count < 2 ^ 64)
    {content : Bytes} {file' : ZonedSequentialFile} {d' d'' : Device}
    (done : ZonedSequentialFile.call ⟨f, rp, direct⟩ d' call = some (.ok (cursorGives content rp call), file', d''))
    (moved : file'.rp = cursorMoves f.fileSize rp call) :
    SkipsInside f.fileSize rp call := by
  have device := lt_of_le_of_lt placed.held d.geo.device_lt
  cases call with
  | read n => trivial
  | skip n =>
    simp only [ZonedSequentialFile.call, ZonedSequentialFile.skip] at done
    split at done
    · cases done
    · cases done
      simp only [cursorMoves, SequentialCall.count] at moved word
      change rp + n < f.fileSize
      omega

end

/-- A sequential file is a cursor exactly if no skip reaches the end of the file, as long as its reads can be made. -/
theorem sequential_cursor_iff {d : Device} (healthy : ¬ Broken d) {f : ZoneFile} (placed : OnDevice d f) (direct : Bool)
    (calls : List SequentialCall) (words : ∀ call ∈ calls, call.count < 2 ^ 64)
    (readable : EachStep (cursorMoves f.fileSize) (PiecesFit d f direct) 0 calls) :
    IsCursor (contents d f.extents) ⟨f, 0, direct⟩ d calls ↔
      EachStep (cursorMoves f.fileSize) (SkipsInside f.fileSize) 0 calls := by
  have length : (contents d f.extents).length = f.fileSize := by rw [length_contents, placed.sized]
  suffices from_here : ∀ rp after, rp ≤ f.fileSize → d.calls ≤ after →
      EachStep (cursorMoves f.fileSize) (PiecesFit d f direct) rp calls →
      (IsCursor (contents d f.extents) ⟨f, rp, direct⟩ (withCalls d after) calls ↔
        EachStep (cursorMoves f.fileSize) (SkipsInside f.fileSize) rp calls) from
    from_here 0 d.calls (Nat.zero_le _) (Nat.le_refl _) readable
  clear readable
  induction calls with
  | nil => exact fun _ _ _ _ _ => Iff.rfl
  | cons call rest ih =>
    intro rp after within later ⟨readable, later_readable⟩
    have onward := ih (fun call listed => words call (mem_cons_of_mem _ listed))
    have bounded : cursorMoves f.fileSize rp call ≤ f.fileSize := Nat.min_le_right _ _
    simp only [IsCursor, length]
    constructor
    · rintro ⟨file', d', done, moved, follows⟩
      have inside := skips_inside placed (words call mem_cons_self) done moved
      obtain ⟨next, following, ran⟩ := call_cursor placed healthy within readable inside later
      rw [ran] at done
      cases done
      exact ⟨inside, (onward _ next bounded following later_readable).mp follows⟩
    · rintro ⟨inside, follows⟩
      obtain ⟨next, following, ran⟩ := call_cursor placed healthy within readable inside later
      exact ⟨_, _, ran, rfl, (onward _ next bounded following later_readable).mpr follows⟩

theorem splitFile_onDevice : OnDevice (sampleDevice 0 3) splitFile where
  sized := by decide
  inside := by decide
  held := by decide

theorem splitFile_read :
    IsCursor (contents (sampleDevice 0 3) splitFile.extents) ⟨splitFile, 0, false⟩ (sampleDevice 0 3)
      [.read 60, .skip 50, .read 1000] := by
  refine (sequential_cursor_iff ?_ splitFile_onDevice false _ (by decide) ?_).mpr ?_
  · rintro ⟨_, _, refused⟩
    cases refused
  · refine ⟨fun _ => ?_, trivial, fun _ => ?_, trivial⟩ <;> exact ⟨by decide, by decide, by rintro ⟨⟩⟩
  · exact ⟨trivial, (by decide : 60 + 50 < 150), trivial, trivial⟩

/-- Skipping the whole file is refused, and a count near `2^64` takes the position back. -/
theorem skips_refused_or_back :
    ¬ IsCursor (contents (sampleDevice 0 3) splitFile.extents) ⟨splitFile, 0, false⟩ (sampleDevice 0 3) [.skip 150] ∧
    ¬ IsCursor (contents (sampleDevice 0 3) splitFile.extents) ⟨splitFile, 0, false⟩ (sampleDevice 0 3)
      [.skip 10, .skip (2 ^ 64 - 1)] := by
  constructor
  · rintro ⟨_, _, refused, _⟩
    cases refused
  · rintro ⟨_, _, first, _, _, _, second, moved, _⟩
    cases first
    cases second
    rw [length_contents] at moved
    exact absurd moved (by decide)

end ZenFSProof
