import ZonedStorage.Batch.Iterate
import ZonedStorage.Bytes.Consumes
import ZonedStorage.Coding.RoundTrip

namespace BatchProof

open ByteString ZenFSModel ZenFSProof BatchModel List

/-- A key or a value whose length is one of 32 bits. -/
abbrev ShortSlice := { bytes : Bytes // bytes.length < 2 ^ 32 }

inductive BatchOp where
  | put (columnFamilyId : UInt32) (key value : ShortSlice)
  | delete (columnFamilyId : UInt32) (key : ShortSlice)
  | singleDelete (columnFamilyId : UInt32) (key : ShortSlice)
  | deleteRange (columnFamilyId : UInt32) (beginKey endKey : ShortSlice)
  | merge (columnFamilyId : UInt32) (key value : ShortSlice)
  | logData (blob : Bytes)

namespace BatchOp

def encode : BatchOp → Bytes
  | .put id key value => recordBytes kTypeValue kTypeColumnFamilyValue id key.1 (some value.1)
  | .delete id key => recordBytes kTypeDeletion kTypeColumnFamilyDeletion id key.1 none
  | .singleDelete id key => recordBytes kTypeSingleDeletion kTypeColumnFamilySingleDeletion id key.1 none
  | .deleteRange id beginKey endKey =>
    recordBytes kTypeRangeDeletion kTypeColumnFamilyRangeDeletion id beginKey.1 (some endKey.1)
  | .merge id key value => recordBytes kTypeMerge kTypeColumnFamilyMerge id key.1 (some value.1)
  | .logData blob => UInt8.ofNat kTypeLogData :: putLengthPrefixedSlice [] blob

def callback : BatchOp → Callback
  | .put id key value => .putCF id key.1 value.1
  | .delete id key => .deleteCF id key.1
  | .singleDelete id key => .singleDeleteCF id key.1
  | .deleteRange id beginKey endKey => .deleteRangeCF id beginKey.1 endKey.1
  | .merge id key value => .mergeCF id key.1 value.1
  | .logData blob => .logData blob

def isUpdate : BatchOp → Bool
  | .logData _ => false
  | _ => true

def Short : BatchOp → Prop
  | .logData blob => blob.length < 2 ^ 32
  | _ => True

end BatchOp

def updates (ops : List BatchOp) : Nat := (ops.filter BatchOp.isUpdate).length

section

variable {σ : Type} (handler : Handler σ)

structure Accepts : Prop where
  accepts : ∀ s callback, (handler.call s callback).1 = .ok
  continues : ∀ s, handler.continues s = (true, s)

def deliver (s : σ) (op : BatchOp) : σ := (handler.call s op.callback).2

def pass (op : BatchOp) (p : Progress σ) : Progress σ :=
  ⟨.ok, false, if op.isUpdate then p.found + 1 else p.found, deliver handler p.state op⟩

variable {handler} {count : Option UInt32} {p : Progress σ}

theorem iterateLoop_record (accepting : Accepts handler) {tag : UInt8} {payload rest : Bytes} {record : Record}
    (taken : readRecordFromWriteBatch tag.toNat payload = .ok (record, rest))
    (accepted : (p.dispatch handler record).status = .ok) :
    iterateLoop handler count p (tag :: payload) = iterateLoop handler count (p.dispatch handler record) rest := by
  rw [iterateLoop]
  simp only [accepting.continues]
  split
  · rename_i failed
    rw [taken] at failed
    cases failed
  · rename_i record' rest' again
    rw [taken] at again
    cases again
    simp only [accepted]

theorem update_accepted (accepting : Accepts handler) (callback : Callback) :
    p.update handler callback = ⟨.ok, false, p.found + 1, (handler.call p.state callback).2⟩ := by
  have ok := accepting.accepts p.state callback
  rw [Progress.update]
  generalize handler.call p.state callback = answer at ok
  obtain ⟨status, state⟩ := answer
  cases ok
  rfl

end

section

variable {msg : String} {tag : Nat} {id : UInt32} {rest : Bytes}

theorem readKey_put (key : ShortSlice) :
    readKey msg tag id (putLengthPrefixedSlice [] key.1 ++ rest) = .ok (⟨tag, id, key.1, [], [], []⟩, rest) := by
  rw [readKey, getLengthPrefixedSlice_put key.2]
  rfl

theorem readKeyValue_put (key value : ShortSlice) :
    readKeyValue msg tag id (putLengthPrefixedSlice [] key.1 ++ (putLengthPrefixedSlice [] value.1 ++ rest)) =
      .ok (⟨tag, id, key.1, value.1, [], []⟩, rest) := by
  rw [readKeyValue, getLengthPrefixedSlice_put key.2]
  change readOr msg (getLengthPrefixedSlice (putLengthPrefixedSlice [] value.1 ++ rest)) _ = _
  rw [getLengthPrefixedSlice_put value.2]
  rfl

theorem readColumnFamily_put {next : UInt32 → Bytes → Except BatchStatus (Record × Bytes)} :
    readColumnFamily msg (putVarint32 [] id.toNat ++ rest) next = next id rest := by
  rw [readColumnFamily, putVarint32, nil_append, Nat.mod_eq_of_lt id.toNat_lt, getVarint32_put id.toNat_lt]
  change next (UInt32.ofNat id.toNat) rest = _
  rw [UInt32.ofNat_toNat]

end

section

variable {σ : Type} {handler : Handler σ} {count : Option UInt32}

theorem iterateLoop_update (accepting : Accepts handler) {p : Progress σ} {tag : Nat} (small : tag < 256)
    {payload rest : Bytes} {record : Record} {callback : Callback}
    (taken : readRecordFromWriteBatch tag payload = .ok (record, rest))
    (dispatched : p.dispatch handler record = p.update handler callback) :
    iterateLoop handler count p (UInt8.ofNat tag :: payload) =
      iterateLoop handler count ⟨.ok, false, p.found + 1, (handler.call p.state callback).2⟩ rest := by
  have byte : (UInt8.ofNat tag).toNat = tag := by
    rw [UInt8.toNat_ofNat']
    exact Nat.mod_eq_of_lt small
  rw [update_accepted accepting] at dispatched
  rw [← byte] at taken
  rw [iterateLoop_record accepting taken (by rw [dispatched]), dispatched]

theorem consumes_record (accepting : Accepts handler) {tag columnFamilyTag : Nat} (small : tag < 256)
    (columnFamilySmall : columnFamilyTag < 256) {id : UInt32} {key : Bytes} {value : Option Bytes} {msg : String}
    {read : Nat → UInt32 → Bytes → Except BatchStatus (Record × Bytes)} {callback : Callback}
    (plain : ∀ input, readRecordFromWriteBatch tag input = read tag 0 input)
    (columnFamily : ∀ input, readRecordFromWriteBatch columnFamilyTag input =
      readColumnFamily msg input (read columnFamilyTag))
    (taken : ∀ t id rest, read t id (putLengthPrefixedSlice [] key ++ (valueBytes value ++ rest)) =
      .ok (⟨t, id, key, value.getD [], [], []⟩, rest))
    (dispatched : ∀ (p : Progress σ) (t : Nat), t = tag ∨ t = columnFamilyTag →
      p.dispatch handler ⟨t, id, key, value.getD [], [], []⟩ = p.update handler callback) :
    Consumes (iterateLoop handler count) (recordBytes tag columnFamilyTag id key value)
      (fun p => ⟨.ok, false, p.found + 1, (handler.call p.state callback).2⟩) := by
  intro p rest
  by_cases default : id = 0
  · have read_ok := (plain _).trans (taken tag 0 rest)
    rw [← default] at read_ok
    rw [recordBytes, if_pos default]
    simp only [cons_append, nil_append, append_assoc]
    exact iterateLoop_update accepting small read_ok (dispatched p tag (Or.inl rfl))
  · have read_ok : readRecordFromWriteBatch columnFamilyTag (putVarint32 [] id.toNat ++
        (putLengthPrefixedSlice [] key ++ (valueBytes value ++ rest))) =
          .ok (⟨columnFamilyTag, id, key, value.getD [], [], []⟩, rest) := by
      rw [columnFamily, readColumnFamily_put]
      exact taken columnFamilyTag id rest
    rw [recordBytes, if_neg default]
    simp only [append_assoc, cons_append]
    exact iterateLoop_update accepting columnFamilySmall read_ok (dispatched p columnFamilyTag (Or.inr rfl))

theorem consumes_logData (accepting : Accepts handler) {blob : Bytes} (short : blob.length < 2 ^ 32) :
    Consumes (iterateLoop handler count) (BatchOp.logData blob).encode (pass handler (.logData blob)) := by
  intro p rest
  have taken : readRecordFromWriteBatch (UInt8.ofNat kTypeLogData).toNat (putLengthPrefixedSlice [] blob ++ rest) =
      .ok (⟨kTypeLogData, 0, [], [], blob, []⟩, rest) := by
    change readOr _ (getLengthPrefixedSlice (putLengthPrefixedSlice [] blob ++ rest)) _ = _
    rw [getLengthPrefixedSlice_put short]
    rfl
  exact iterateLoop_record accepting taken rfl

theorem consumes_op (accepting : Accepts handler) {op : BatchOp} (short : op.Short) :
    Consumes (iterateLoop handler count) op.encode (pass handler op) := by
  cases op with
  | put id key value =>
    refine consumes_record accepting (by decide) (by decide) (fun _ => rfl) (fun _ => rfl)
      (fun t id rest => readKeyValue_put key value) ?_
    rintro p t (rfl | rfl) <;> rfl
  | delete id key =>
    refine consumes_record accepting (by decide) (by decide) (fun _ => rfl) (fun _ => rfl)
      (fun t id rest => readKey_put key) ?_
    rintro p t (rfl | rfl) <;> rfl
  | singleDelete id key =>
    refine consumes_record accepting (by decide) (by decide) (fun _ => rfl) (fun _ => rfl)
      (fun t id rest => readKey_put key) ?_
    rintro p t (rfl | rfl) <;> rfl
  | deleteRange id beginKey endKey =>
    refine consumes_record accepting (by decide) (by decide) (fun _ => rfl) (fun _ => rfl)
      (fun t id rest => readKeyValue_put beginKey endKey) ?_
    rintro p t (rfl | rfl) <;> rfl
  | merge id key value =>
    refine consumes_record accepting (by decide) (by decide) (fun _ => rfl) (fun _ => rfl)
      (fun t id rest => readKeyValue_put key value) ?_
    rintro p t (rfl | rfl) <;> rfl
  | logData blob => exact consumes_logData accepting short

theorem passed_state (ops : List BatchOp) (p : Progress σ) :
    (ops.foldl (fun p op => pass handler op p) p).state = ops.foldl (deliver handler) p.state := by
  induction ops generalizing p with
  | nil => rfl
  | cons op ops ih => exact ih (pass handler op p)

theorem passed_found (ops : List BatchOp) (p : Progress σ) :
    (ops.foldl (fun p op => pass handler op p) p).found = p.found + UInt32.ofNat (updates ops) := by
  induction ops generalizing p with
  | nil => exact (UInt32.add_zero _).symm
  | cons op ops ih =>
    rw [foldl_cons, ih]
    cases counted : op.isUpdate with
    | true =>
      have more : updates (op :: ops) = 1 + updates ops := by
        rw [updates, filter_cons_of_pos counted, length_cons, Nat.add_comm]
        rfl
      rw [more, UInt32.ofNat_add, ← UInt32.add_assoc]
      simp only [pass, counted, if_true]
      rfl
    | false =>
      have same : updates (op :: ops) = updates ops := by
        rw [updates, filter_cons_of_neg (by rw [counted]; exact Bool.false_ne_true)]
        rfl
      rw [same]
      simp only [pass, counted, Bool.false_eq_true, if_false]

theorem iterateLoop_ops (accepting : Accepts handler) {ops : List BatchOp} (short : ∀ op ∈ ops, op.Short) (s : σ) :
    iterateLoop handler (some (UInt32.ofNat (updates ops))) ⟨.ok, true, 0, s⟩ (ops.flatMap BatchOp.encode) =
      (.ok, ops.foldl (deliver handler) s) := by
  have each : ∀ op ∈ ops, Consumes (iterateLoop handler (some (UInt32.ofNat (updates ops)))) op.encode (pass handler op) :=
    fun op listed => consumes_op accepting (short op listed)
  have walked := Consumes.flatMap ops each ⟨.ok, true, 0, s⟩ []
  rw [append_nil] at walked
  rw [walked, iterateLoop, passed_state, passed_found, UInt32.zero_add]
  simp only [Option.any_some, bne_self_eq_false, Bool.false_eq_true, if_false]

end

end BatchProof
