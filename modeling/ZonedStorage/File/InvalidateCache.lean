import ZonedStorage.File.ZoneFile

namespace ZenFSModel

/-- The ranges the backend was told to drop from the page cache, and whether it does so. -/
structure PageCache where
  accepts : Nat → Nat → Bool
  invalidated : List (Nat × Nat)

namespace PageCache

def invalidateCache (pos size : Nat) : Proc PageCache Unit := do
  let accepted ← .act (fun c => (c.accepts pos size, { c with invalidated := c.invalidated ++ [(pos, size)] }))
  if accepted then pure () else .fail (Status.ioError "Failed to invalidate cache")

end PageCache

namespace ZoneFile

/-- The extent a file offset falls into, and where on the device that is. -/
def getExtent : List ZoneExtent → Nat → Option (ZoneExtent × Nat)
  | [], _ => none
  | e :: rest, fileOffset =>
    if fileOffset < e.length then some (e, (e.start + fileOffset) % 2 ^ 64)
    else getExtent rest (fileOffset - e.length)

def invalidateLoop (extents : List ZoneExtent) : Nat → Nat → Nat → Proc PageCache Unit
  | _, _, 0 => pure ()
  | 0, _, _ + 1 => .hang
  | rounds + 1, offset, left + 1 =>
    match getExtent extents offset with
    | none => .fail (Status.ioError "Extent not found while invalidating cache")
    | some (extent, devOffset) => do
      let extentEnd := (extent.start + extent.length) % 2 ^ 64
      let invalidateSize := min (left + 1) ((extentEnd + 2 ^ 64 - devOffset) % 2 ^ 64)
      PageCache.invalidateCache devOffset invalidateSize
      invalidateLoop extents rounds ((offset + invalidateSize) % 2 ^ 64) (left + 1 - invalidateSize)

def invalidateCache (f : ZoneFile) (pos size : Nat) : Proc PageCache Unit :=
  let left := if size = 0 then f.fileSize else size
  invalidateLoop f.extents left pos left

end ZoneFile

end ZenFSModel

namespace ZenFSProof

open Resumption.Prog ZenFSModel ZenFSModel.ZoneFile List

def addresses (first count : Nat) : List Nat := (range count).map (fun k => (first + k) % 2 ^ 64)

/-- Where the bytes of a file lie on the device, in the order of the file. -/
def byteAddresses (extents : List ZoneExtent) : List Nat := extents.flatMap (fun e => addresses e.start e.length)

def covered (ranges : List (Nat × Nat)) : List Nat := ranges.flatMap (fun range => addresses range.1 range.2)

def totalLength (extents : List ZoneExtent) : Nat := (extents.map ZoneExtent.length).sum

@[simp] theorem length_addresses (first count : Nat) : (addresses first count).length = count := by
  rw [addresses, length_map, length_range]

theorem take_addresses (first : Nat) {count few : Nat} (fits : few ≤ count) :
    (addresses first count).take few = addresses first few := by
  rw [addresses, ← map_take, take_range, Nat.min_eq_left fits, addresses]

theorem addresses_add (first few more : Nat) :
    addresses first (few + more) = addresses first few ++ addresses (first + few) more := by
  simp only [addresses, range_add, map_append, map_map, Function.comp_def, Nat.add_assoc]

theorem addresses_mod (first count : Nat) : addresses (first % 2 ^ 64) count = addresses first count := by
  simp only [addresses, Nat.mod_add_mod]

theorem drop_addresses (first : Nat) {count few : Nat} (fits : few ≤ count) :
    (addresses first count).drop few = addresses (first + few) (count - few) := by
  obtain ⟨more, rfl⟩ := Nat.exists_eq_add_of_le fits
  rw [addresses_add, drop_left' (length_addresses first few), Nat.add_sub_cancel_left]

theorem length_byteAddresses (extents : List ZoneExtent) : (byteAddresses extents).length = totalLength extents := by
  induction extents with
  | nil => rfl
  | cons e rest ih =>
    rw [byteAddresses, flatMap_cons, length_append, length_addresses, totalLength, map_cons,
      sum_cons]
    exact congrArg (e.length + ·) ih

variable {extents : List ZoneExtent}

theorem totalLength_append (first second : List ZoneExtent) :
    totalLength (first ++ second) = totalLength first + totalLength second := by
  rw [totalLength, map_append, sum_append, totalLength, totalLength]

theorem totalLength_cons (e : ZoneExtent) (rest : List ZoneExtent) :
    totalLength (e :: rest) = e.length + totalLength rest := sum_cons

theorem getExtent_append (before rest : List ZoneExtent) (offset : Nat) :
    getExtent (before ++ rest) (totalLength before + offset) = getExtent rest offset := by
  induction before with
  | nil => rw [nil_append, totalLength, map_nil, sum_nil, Nat.zero_add]
  | cons e before ih =>
    rw [cons_append, getExtent, totalLength_cons, if_neg (by omega), ← ih]
    congr 1
    omega

theorem getExtent_split {offset : Nat} (inside : offset < totalLength extents) :
    ∃ before e rest skipped, extents = before ++ e :: rest ∧ offset = totalLength before + skipped ∧
      skipped < e.length ∧ getExtent extents offset = some (e, (e.start + skipped) % 2 ^ 64) := by
  induction extents generalizing offset with
  | nil => exact (Nat.not_lt_zero offset inside).elim
  | cons e rest ih =>
    rw [totalLength_cons] at inside
    by_cases here : offset < e.length
    · exact ⟨[], e, rest, offset, rfl, (Nat.zero_add offset).symm, here, by rw [getExtent, if_pos here]⟩
    · obtain ⟨before, found, after, skipped, same, sum, inner, located⟩ := @ih (offset - e.length) (by omega)
      refine ⟨e :: before, found, after, skipped, by rw [same, cons_append], ?_, inner, ?_⟩
      · rw [totalLength_cons]
        omega
      · rw [getExtent, if_neg here, located]

theorem getExtent_inside {offset : Nat} (inside : offset < totalLength extents) :
    ∃ e skipped, getExtent extents offset = some (e, (e.start + skipped) % 2 ^ 64) ∧ skipped < e.length ∧
      skipped ≤ offset ∧ offset + (e.length - skipped) ≤ totalLength extents ∧
      ∀ count ≤ e.length - skipped,
        ((byteAddresses extents).drop offset).take count = addresses (e.start + skipped) count := by
  obtain ⟨before, e, rest, skipped, rfl, rfl, inner, located⟩ := getExtent_split inside
  refine ⟨e, skipped, located, inner, Nat.le_add_left _ _, ?_, ?_⟩
  · rw [totalLength_append, totalLength_cons]
    omega
  · intro count fits
    have bytes : byteAddresses (before ++ e :: rest) =
        byteAddresses before ++ (addresses e.start e.length ++ byteAddresses rest) := by
      rw [byteAddresses, flatMap_append, flatMap_cons, byteAddresses, byteAddresses]
    rw [bytes, ← drop_drop, drop_left' (length_byteAddresses before),
      drop_append_of_le_length (by rw [length_addresses]; omega), drop_addresses e.start (Nat.le_of_lt inner),
      take_append_of_le_length (by rw [length_addresses]; exact fits), take_addresses _ fits]

theorem getExtent_outside {offset : Nat} (outside : totalLength extents ≤ offset) :
    getExtent extents offset = none := by
  induction extents generalizing offset with
  | nil => rfl
  | cons e rest ih =>
    rw [totalLength_cons] at outside
    rw [getExtent, if_neg (by omega)]
    exact ih (by omega)

theorem run_invalidate {c : PageCache} (accepts : ∀ pos size, c.accepts pos size = true) (pos size : Nat) :
    (PageCache.invalidateCache pos size).run c = some (.ok (), { c with invalidated := c.invalidated ++ [(pos, size)] }) := by
  rw [PageCache.invalidateCache, run_bind, run_act]
  simp only [accepts, if_true, run_pure]

theorem invalidateSize_eq (start : Nat) {length skipped : Nat} (inner : skipped < length) (word : length < 2 ^ 64) :
    ((start + length) % 2 ^ 64 + 2 ^ 64 - (start + skipped) % 2 ^ 64) % 2 ^ 64 = length - skipped := by
  omega

theorem invalidateLoop_ends (word : totalLength extents < 2 ^ 64) (rounds offset left : Nat)
    (c : PageCache) (accepts : ∀ pos size, c.accepts pos size = true) (enough : left ≤ rounds)
    (inside : offset ≤ totalLength extents) :
    ∃ result ranges, (invalidateLoop extents rounds offset left).run c =
        some (result, { c with invalidated := c.invalidated ++ ranges }) ∧
      covered ranges = ((byteAddresses extents).drop offset).take left ∧
      (result = .ok () ↔ offset + left ≤ totalLength extents) := by
  induction rounds generalizing offset left c with
  | zero =>
    obtain rfl : left = 0 := Nat.le_zero.mp enough
    refine ⟨.ok (), [], ?_, take_zero.symm, by simpa using inside⟩
    rw [invalidateLoop, append_nil, run_pure]
  | succ rounds ih =>
    cases left with
    | zero =>
      refine ⟨.ok (), [], ?_, take_zero.symm, by simpa using inside⟩
      rw [invalidateLoop, append_nil, run_pure]
    | succ left =>
      rcases Nat.lt_or_ge offset (totalLength extents) with within | beyond
      · obtain ⟨e, skipped, found, inner, before, ends, held⟩ := getExtent_inside within
        have size := invalidateSize_eq e.start inner (by omega)
        generalize share : min (left + 1) (e.length - skipped) = count
        have next : (offset + count) % 2 ^ 64 = offset + count := Nat.mod_eq_of_lt (by omega)
        obtain ⟨result, ranges, ran, covers, reaches⟩ := ih (offset + count) (left + 1 - count)
          { c with invalidated := c.invalidated ++ [((e.start + skipped) % 2 ^ 64, count)] } accepts
          (by omega) (by omega)
        refine ⟨result, ((e.start + skipped) % 2 ^ 64, count) :: ranges, ?_, ?_, ?_⟩
        · rw [invalidateLoop, found]
          simp only [size, share, next]
          rw [run_bind, run_invalidate accepts]
          simp only [ran, append_assoc, singleton_append]
        · have first := held count (by omega)
          have whole : left + 1 = count + (left + 1 - count) := by omega
          rw [whole, take_add, first, drop_drop, covered, flatMap_cons, addresses_mod]
          exact congrArg (addresses (e.start + skipped) count ++ ·) covers
        · rw [reaches]
          omega
      · refine ⟨.error (Status.ioError "Extent not found while invalidating cache"), [], ?_, ?_, ?_⟩
        · rw [invalidateLoop, getExtent_outside beyond, append_nil, run_fail]
        · rw [drop_eq_nil_of_le (by rw [length_byteAddresses]; exact beyond), take_nil]
          rfl
        · constructor
          · rintro ⟨⟩
          · omega

/-- The part of the file a request is about: a length of zero reaches to the end. -/
def requested (f : ZoneFile) (pos size : Nat) : Nat := if size = 0 then f.fileSize - pos else size

/-- The request succeeds and every byte asked for, and no other, is dropped once. -/
def Invalidates (f : ZoneFile) (pos size : Nat) (accepts : Nat → Nat → Bool) : Prop :=
  ∃ ranges, (f.invalidateCache pos size).run ⟨accepts, []⟩ = some (.ok (), ⟨accepts, ranges⟩) ∧
    covered ranges = ((byteAddresses f.extents).drop pos).take (requested f pos size)

/-- With a length of zero the loop counts down the whole file, from wherever it starts. -/
theorem invalidateCache_iff_bounded (f : ZoneFile) (sized : totalLength f.extents = f.fileSize)
    (word : f.fileSize < 2 ^ 64) (pos size : Nat) (inside : pos + size ≤ f.fileSize) (accepts : Nat → Nat → Bool)
    (accepting : ∀ pos size, accepts pos size = true) :
    Invalidates f pos size accepts ↔ size ≠ 0 ∨ pos = 0 := by
  rw [← sized] at word inside
  have start : pos ≤ totalLength f.extents := by omega
  obtain ⟨result, ranges, ran, covers, reaches⟩ := invalidateLoop_ends word (if size = 0 then f.fileSize else size)
    pos (if size = 0 then f.fileSize else size) ⟨accepts, []⟩ accepting (Nat.le_refl _) start
  rw [nil_append] at ran
  constructor
  · rintro ⟨_, done, _⟩
    have same : result = .ok () := by
      rw [invalidateCache, ran] at done
      cases done
      rfl
    have fits := reaches.mp same
    by_cases zero : size = 0
    · rw [if_pos zero, sized] at fits
      omega
    · exact .inl zero
  · intro bounded
    have fits : pos + (if size = 0 then f.fileSize else size) ≤ totalLength f.extents := by
      split <;> omega
    refine ⟨ranges, by rw [invalidateCache, ran, reaches.mpr fits], ?_⟩
    rw [covers, requested]
    by_cases zero : size = 0
    · obtain rfl : pos = 0 := by omega
      rw [Nat.sub_zero]
    · rw [if_neg zero, if_neg zero]

def splitFile : ZoneFile := { ZoneFile.new 1 with extents := [⟨4096, 100, 1⟩, ⟨8192, 50, 2⟩], fileSize := 150 }

theorem splitFile_invalidated : Invalidates splitFile 60 80 (fun _ _ => true) :=
  (invalidateCache_iff_bounded splitFile (by decide) (by decide) 60 80 (by decide) (fun _ _ => true)
    (fun _ _ => rfl)).mpr (.inl (by decide))

/-- From offset 100 to the end: the second extent is dropped, and the request then runs off the file. -/
theorem tail_not_invalidated : 100 + 0 ≤ splitFile.fileSize ∧
    ¬ Invalidates splitFile 100 0 (fun _ _ => true) ∧
    ((splitFile.invalidateCache 100 0).run ⟨fun _ _ => true, []⟩).map (fun outcome => (outcome.1, outcome.2.invalidated)) =
      some (.error (Status.ioError "Extent not found while invalidating cache"), [(8192, 50)]) := by
  have outcome : ((splitFile.invalidateCache 100 0).run ⟨fun _ _ => true, []⟩).map
      (fun outcome => (outcome.1, outcome.2.invalidated)) =
      some (.error (Status.ioError "Extent not found while invalidating cache"), [(8192, 50)]) := by rfl
  refine ⟨by decide, ?_, outcome⟩
  rintro ⟨ranges, done, _⟩
  rw [done] at outcome
  cases outcome

end ZenFSProof
