import ZonedStorage.Batch.Lockstep

namespace BatchProof

open ByteString ZenFSModel ZenFSProof BatchModel Runs List BatchOp

section

def recorder : Handler (List Callback) where
  call told callback := (.ok, told ++ [callback])
  continues told := (true, told)
  writeAfterCommit := .kUnknown
  writeBeforePrepare := .kUnknown

theorem recorder_accepts : Accepts recorder := ⟨fun _ _ => rfl, fun _ => rfl⟩

theorem recorded (ops : List BatchOp) (told : List Callback) :
    ops.foldl (deliver recorder) told = told ++ ops.map callback := by
  induction ops generalizing told with
  | nil => exact (append_nil told).symm
  | cons op ops ih =>
    rw [foldl_cons, ih, map_cons]
    exact append_assoc told [op.callback] _

variable {p : Progress (List Callback)}

theorem update_recorder (callback : Callback) : p.state <+: (p.update recorder callback).state :=
  prefix_append _ _

theorem dispatch_recorder (record : Record) : p.state <+: (p.dispatch recorder record).state := by
  unfold Progress.dispatch
  split
  all_goals first
    | exact update_recorder _
    | exact prefix_append _ _
    | exact prefix_rfl

theorem iterateLoop_recorder (count : Option UInt32) (p : Progress (List Callback)) (input : Bytes) :
    p.state <+: (iterateLoop recorder count p input).2 := by
  -- `Continue` of the recorder leaves its state alone, so each case is a chain of deliveries.
  fun_induction iterateLoop recorder count p input with
  | case1 => exact prefix_rfl
  | case2 => exact prefix_rfl
  | case3 p tag input state asked => cases asked
  | case4 p tag input state asked =>
    cases asked
    exact prefix_rfl
  | case5 p tag input state asked record rest taken first ok ih =>
    cases asked
    exact (dispatch_recorder record).trans ih
  | case6 p tag input state asked record rest taken first again state' asked' => cases asked'
  | case7 p tag input state asked record rest taken first again state' asked' second ok ih =>
    cases asked
    cases asked'
    have once : p.state <+: first.state := dispatch_recorder record
    have twice : first.state <+: second.state := dispatch_recorder record
    exact once.trans (twice.trans ih)
  | case8 p tag input state asked record rest taken first again state' asked' second again' state'' asked'' => cases asked''
  | case9 p tag input state asked record rest taken first again state' asked' second again' state'' asked'' =>
    cases asked
    cases asked'
    cases asked''
    have once : p.state <+: first.state := dispatch_recorder record
    have twice : first.state <+: second.state := dispatch_recorder record
    exact once.trans twice
  | case10 p tag input state asked record rest taken first again state' asked' second =>
    cases asked
    cases asked'
    have once : p.state <+: first.state := dispatch_recorder record
    have twice : first.state <+: second.state := dispatch_recorder record
    exact once.trans twice
  | case11 p tag input state asked record rest taken first =>
    cases asked
    exact dispatch_recorder record

end

section

theorem getLengthPrefixedSlice_wrapped (value : Bytes) : getLengthPrefixedSlice (putLengthPrefixedSlice [] value) =
      some (value.take (value.length % 2 ^ 32), value.drop (value.length % 2 ^ 32)) := by
  have count : getVarint32 (encodeVarint32 (value.length % 2 ^ 32) ++ value) = some (value.length % 2 ^ 32, value) :=
    getVarint32_put (Nat.mod_lt _ (by decide)) _
  simp only [getLengthPrefixedSlice, putLengthPrefixedSlice, putVarint32, nil_append, count]
  rw [if_pos (Nat.mod_le _ _)]

variable [Protection]

theorem logData_short {b : WriteBatch} {r : Reference} (represents : Represents b r) {blob : Bytes}
    (delivered : (appended b (.logData blob)).iterate recorder [] =
      (.ok, (r.ops ++ [logData blob]).foldl (deliver recorder) [])) : blob.length < 2 ^ 32 := by
  have layout : (appended b (.logData blob)).rep = header (nextCount b (.logData blob)).toNat ++
      (r.ops.flatMap encode ++ (logData blob).encode) := by
    rw [appended_eq represents, append_assoc]
  have walked : ∀ count, iterateLoop recorder count ⟨.ok, true, 0, []⟩
      (r.ops.flatMap encode ++ (logData blob).encode) = iterateLoop recorder count
        (r.ops.foldl (fun p op => pass recorder op p) ⟨.ok, true, 0, []⟩) (logData blob).encode := fun count =>
    Consumes.flatMap r.ops (fun op listed => consumes_op recorder_accepts (represents.short op listed)) _ _
  have taken : readRecordFromWriteBatch (UInt8.ofNat kTypeLogData).toNat (putLengthPrefixedSlice [] blob) =
      .ok (⟨kTypeLogData, 0, [], [], blob.take (blob.length % 2 ^ 32), []⟩, blob.drop (blob.length % 2 ^ 32)) := by
    change readOr _ (getLengthPrefixedSlice (putLengthPrefixedSlice [] blob)) _ = _
    rw [getLengthPrefixedSlice_wrapped]
    rfl
  rw [iterate_header layout, walked, encode, iterateLoop_record recorder_accepts taken rfl] at delivered
  have told := iterateLoop_recorder (some (appended b (.logData blob)).count)
    (Progress.dispatch recorder (r.ops.foldl (fun p op => pass recorder op p) ⟨.ok, true, 0, []⟩)
      ⟨kTypeLogData, 0, [], [], blob.take (blob.length % 2 ^ 32), []⟩) (blob.drop (blob.length % 2 ^ 32))
  rw [delivered, recorded, map_append] at told
  change (r.ops.foldl (fun p op => pass recorder op p) ⟨.ok, true, 0, []⟩).state ++
    [Callback.logData (blob.take (blob.length % 2 ^ 32))] <+: _ at told
  rw [passed_state, recorded] at told
  have same := told.eq_of_length (by simp)
  have last := append_cancel_left same
  have whole : blob.take (blob.length % 2 ^ 32) = blob := by
    simp only [map_cons, map_nil, cons.injEq, and_true, callback] at last
    exact Callback.logData.inj last
  have lengths := congrArg length whole
  rw [length_take, Nat.min_eq_left (Nat.mod_le _ _)] at lengths
  rw [← lengths]
  exact Nat.mod_lt _ (by decide)

def InStep (p : Lockstep) : Prop := Represents p.batch p.reference ∧ p.status = p.expected

variable {p : Lockstep}

theorem InStep.agrees (inStep : InStep p) : Agrees p := inStep.1.agrees inStep.2

variable {op : BatchOp}

theorem step_admitted (represents : Represents p.batch p.reference) (admitted : Admits p.batch op) :
    p.step (.write op) = ⟨appended p.batch op, { p.reference with ops := p.reference.ops ++ [op] }, .ok, .ok⟩ := by
  have written : callBatch p.batch (.write op) = (.ok, appended p.batch op) := write_admitted represents admitted
  simp only [Lockstep.step, written]
  rfl

theorem step_refused (represents : Represents p.batch p.reference) (refused : ¬ Admits p.batch op) :
    p.step (.write op) = ⟨p.batch, p.reference, .memoryLimit, .memoryLimit⟩ := by
  have written : callBatch p.batch (.write op) = (.memoryLimit, p.batch) := write_refused represents refused
  simp only [Lockstep.step, written]
  rfl

omit [Protection] in
theorem countable_iff {b : WriteBatch} :
    Countable b op ↔ op.Short ∧ (op.isUpdate = true → b.count.toNat + 1 < 2 ^ 32) := by
  cases op with
  | logData blob => exact ⟨fun short => ⟨short, fun impossible => by cases impossible⟩, fun both => both.1⟩
  | _ => exact ⟨fun few => ⟨trivial, fun _ => few⟩, fun both => both.2 rfl⟩

theorem InStep.step (inStep : InStep p) {call : BatchCall} (fits : Fits p call) : InStep (p.step call) := by
  obtain ⟨represents, _⟩ := inStep
  cases call with
  | write op =>
    by_cases admitted : Admits p.batch op
    · obtain ⟨short, few⟩ := countable_iff.mp (fits admitted)
      rw [step_admitted represents admitted]
      exact ⟨represents.append short few, rfl⟩
    · rw [step_refused represents admitted]
      exact ⟨represents, rfl⟩
  | setSavePoint => exact ⟨represents.setSavePoint, rfl⟩
  | rollbackToSavePoint =>
    cases marked : p.reference.marks with
    | nil =>
      have empty : p.batch.savePoints = [] := by rw [represents.savePoints, marked, map_nil]
      have refused : callBatch p.batch .rollbackToSavePoint = (.notFound, p.batch) := by
        simp only [callBatch, WriteBatch.rollbackToSavePoint, empty]
      simp only [Lockstep.step, refused, callReference, marked]
      exact ⟨represents, rfl⟩
    | cons mark marks =>
      obtain ⟨ok, cut⟩ := represents.rollback marked
      simp only [Lockstep.step, callBatch, callReference, marked]
      exact ⟨cut, ok⟩
  | popSavePoint =>
    cases marked : p.reference.marks with
    | nil =>
      have empty : p.batch.savePoints = [] := by rw [represents.savePoints, marked, map_nil]
      have refused : callBatch p.batch .popSavePoint = (.notFound, p.batch) := by
        simp only [callBatch, WriteBatch.popSavePoint, empty]
      simp only [Lockstep.step, refused, callReference, marked]
      exact ⟨represents, rfl⟩
    | cons mark marks =>
      have stack : p.batch.savePoints = savePointOf (p.reference.ops.take mark) ::
          marks.map (fun mark => savePointOf (p.reference.ops.take mark)) := by
        rw [represents.savePoints, marked, map_cons]
      simp only [Lockstep.step, callBatch, WriteBatch.popSavePoint, stack, callReference, marked]
      exact ⟨represents.popSavePoint marked, rfl⟩
  | clear => exact ⟨represents_clear p.batch, rfl⟩

theorem fits_of_agrees (inStep : InStep p) {call : BatchCall} (after : Agrees (p.step call)) : Fits p call := by
  cases call with
  | write op =>
    intro admitted
    rw [step_admitted inStep.1 admitted] at after
    refine countable_iff.mpr ⟨?_, fun update => ?_⟩
    · cases op with
      | logData blob => exact logData_short inStep.1 (after.delivered recorder recorder_accepts [])
      | _ => trivial
    · have counted : (appended p.batch op).count.toNat = updates (p.reference.ops ++ [op]) := after.count
      have one : updates [op] = 1 := by
        rw [updates, filter_cons_of_pos update]
        rfl
      rw [updates_append, one, ← inStep.1.count_toNat] at counted
      rw [← counted]
      exact (appended p.batch op).count.toNat_lt
  | setSavePoint => trivial
  | rollbackToSavePoint => trivial
  | popSavePoint => trivial
  | clear => trivial

/-- A batch behaves as a list with a stack throughout a run exactly if each of its steps keeps the number of updates
and the length of log data within 32 bits. -/
theorem write_batch_refines_list_iff (maxBytes protectionBytesPerKey : Nat) (calls : List BatchCall) :
    Throughout Lockstep.step Agrees (Lockstep.new maxBytes protectionBytesPerKey) calls ↔
      EachStep Lockstep.step Fits (Lockstep.new maxBytes protectionBytesPerKey) calls := by
  have start : InStep (Lockstep.new maxBytes protectionBytesPerKey) :=
    ⟨represents_new maxBytes protectionBytesPerKey, rfl⟩
  have exactly : ∀ p call, InStep p → Agrees p → (Agrees (p.step call) ↔ Fits p call) := fun p call inStep _ =>
    ⟨fits_of_agrees inStep, fun fits => (inStep.step fits).agrees⟩
  have kept : ∀ p call, InStep p → Fits p call → InStep (p.step call) := fun p call inStep fits => inStep.step fits
  exact throughout_iff exactly kept start start.agrees calls

end

instance noProtection : Protection := ⟨fun _ _ _ _ => 0⟩

def emptyPut : BatchOp := .put 0 ⟨[], by decide⟩ ⟨[], by decide⟩

def afterPuts (n : Nat) : Lockstep := (replicate n (BatchCall.write emptyPut)).foldl Lockstep.step (Lockstep.new 0 0)

theorem afterPuts_succ (n : Nat) : afterPuts (n + 1) = (afterPuts n).step (.write emptyPut) := by
  rw [afterPuts, replicate_succ', foldl_append]
  rfl

theorem afterPuts_inStep {n : Nat} (few : n < 2 ^ 32) :
    InStep (afterPuts n) ∧ (afterPuts n).batch.maxBytes = 0 ∧ updates (afterPuts n).reference.ops = n := by
  induction n with
  | zero => exact ⟨⟨represents_new 0 0, rfl⟩, rfl, rfl⟩
  | succ n ih =>
    obtain ⟨inStep, unlimited, counted⟩ := ih (Nat.lt_of_succ_lt few)
    have admitted : Admits (afterPuts n).batch emptyPut := Or.inl unlimited
    have fits : Fits (afterPuts n) (.write emptyPut) := fun _ => by
      change (afterPuts n).batch.count.toNat + 1 < 2 ^ 32
      rw [inStep.1.count_toNat, counted]
      exact few
    rw [afterPuts_succ]
    refine ⟨inStep.step fits, ?_, ?_⟩
    · rw [step_admitted inStep.1 admitted, appended_eq inStep.1]
      exact unlimited
    · rw [step_admitted inStep.1 admitted, updates_append, counted]
      rfl

theorem afterPuts_overflow {n : Nat} (full : n = 2 ^ 32) :
    updates (afterPuts n).reference.ops = n ∧ (afterPuts n).batch.count.toNat = 0 := by
  obtain ⟨before, rfl⟩ := Nat.exists_eq_succ_of_ne_zero (show n ≠ 0 by omega)
  obtain ⟨inStep, unlimited, counted⟩ := afterPuts_inStep (show before < 2 ^ 32 by omega)
  have admitted : Admits (afterPuts before).batch emptyPut := Or.inl unlimited
  have wrapped : (nextCount (afterPuts before).batch emptyPut).toNat = 0 := by
    change ((afterPuts before).batch.count + 1).toNat = 0
    rw [UInt32.toNat_add, inStep.1.count_toNat, counted]
    change (before + 1) % 2 ^ 32 = 0
    omega
  rw [Nat.succ_eq_add_one, afterPuts_succ, step_admitted inStep.1 admitted]
  constructor
  · rw [updates_append, counted]
    rfl
  · rw [count_header (nextCount _ emptyPut).toNat_lt (by rw [appended_eq inStep.1, append_assoc]), wrapped]

/-- After so many updates the count of the batch starts over. -/
theorem count_wraps_around :
    updates (afterPuts (2 ^ 32)).reference.ops = 2 ^ 32 ∧ (afterPuts (2 ^ 32)).batch.count.toNat = 0 ∧
      ¬ Agrees (afterPuts (2 ^ 32)) := by
  obtain ⟨listed, counted⟩ := afterPuts_overflow (rfl : 2 ^ 32 = 2 ^ 32)
  refine ⟨listed, counted, fun agrees => ?_⟩
  have same := agrees.count
  rw [listed, counted] at same
  exact absurd same (by decide)

end BatchProof
