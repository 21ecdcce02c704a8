import ZonedStorage.Batch.Records
import ZonedStorage.Runs.Throughout

namespace BatchProof

open ByteString ZenFSProof BatchModel ContentFlags BatchOp List WriteBatch

section

variable [Protection]

def BatchOp.flag : BatchOp → UInt32
  | .put .. => hasPut
  | .delete .. => hasDelete
  | .singleDelete .. => hasSingleDelete
  | .deleteRange .. => hasDeleteRange
  | .merge .. => hasMerge
  | .logData _ => 0

def BatchOp.protection : BatchOp → Option UInt64
  | .put id key value => some (Protection.protectKVOC key.1 value.1 kTypeValue id)
  | .delete id key => some (Protection.protectKVOC key.1 [] kTypeDeletion id)
  | .singleDelete id key => some (Protection.protectKVOC key.1 [] kTypeSingleDeletion id)
  | .deleteRange id beginKey endKey => some (Protection.protectKVOC beginKey.1 endKey.1 kTypeRangeDeletion id)
  | .merge id key value => some (Protection.protectKVOC key.1 value.1 kTypeMerge id)
  | .logData _ => none

def flagsOf (ops : List BatchOp) : UInt32 := ops.foldl (fun flags op => flags ||| op.flag) 0

def protections (ops : List BatchOp) : List UInt64 := ops.filterMap protection

def allFlags : List UInt32 :=
  [hasPut, hasDelete, hasSingleDelete, hasMerge,
    hasBeginPrepare, hasEndPrepare, hasCommit, hasRollback,
    hasDeleteRange, hasBlobIndex, hasBeginUnprepare, hasPutEntity]

end

inductive BatchCall where
  | write (op : BatchOp)
  | setSavePoint
  | rollbackToSavePoint
  | popSavePoint
  | clear

def write [Protection] (b : WriteBatch) : BatchOp → BatchStatus × WriteBatch
  | .put id key value => b.put id key.1 value.1
  | .delete id key => b.delete id key.1
  | .singleDelete id key => b.singleDelete id key.1
  | .deleteRange id beginKey endKey => b.deleteRange id beginKey.1 endKey.1
  | .merge id key value => b.merge id key.1 value.1
  | .logData blob => b.putLogData blob

def callBatch [Protection] (b : WriteBatch) : BatchCall → BatchStatus × WriteBatch
  | .write op => write b op
  | .setSavePoint => (.ok, b.setSavePoint)
  | .rollbackToSavePoint => b.rollbackToSavePoint
  | .popSavePoint => b.popSavePoint
  | .clear => (.ok, b.clear)

/-- A list of operations with the lengths that it had at the save points, the most recent one first. -/
structure Reference where
  ops : List BatchOp
  marks : List Nat

/-- What a call does to the reference; an operation that the batch refused for its size has no effect. -/
def callReference (r : Reference) (limited : Bool) : BatchCall → BatchStatus × Reference
  | .write op => if limited then (.memoryLimit, r) else (.ok, { r with ops := r.ops ++ [op] })
  | .setSavePoint => (.ok, { r with marks := r.ops.length :: r.marks })
  | .rollbackToSavePoint =>
    match r.marks with
    | [] => (.notFound, r)
    | mark :: marks => (.ok, ⟨r.ops.take mark, marks⟩)
  | .popSavePoint =>
    match r.marks with
    | [] => (.notFound, r)
    | _ :: marks => (.ok, { r with marks := marks })
  | .clear => (.ok, ⟨[], []⟩)

/-- A batch and its reference, with the status of the last call and the one that was due. -/
structure Lockstep where
  batch : WriteBatch
  reference : Reference
  status : BatchStatus
  expected : BatchStatus

def Lockstep.step [Protection] (p : Lockstep) (call : BatchCall) : Lockstep :=
  let (status, batch) := callBatch p.batch call
  let (expected, reference) := callReference p.reference (status == .memoryLimit) call
  ⟨batch, reference, status, expected⟩

def Lockstep.new (maxBytes protectionBytesPerKey : Nat) : Lockstep :=
  ⟨.new maxBytes protectionBytesPerKey, ⟨[], []⟩, .ok, .ok⟩

structure Agrees [Protection] (p : Lockstep) : Prop where
  status : p.status = p.expected
  delivered : ∀ {σ : Type} (handler : Handler σ), Accepts handler → ∀ s,
    p.batch.iterate handler s = (.ok, p.reference.ops.foldl (deliver handler) s)
  count : p.batch.count.toNat = updates p.reference.ops
  flags : ∀ flag ∈ allFlags, p.batch.hasContent flag = p.reference.ops.any (fun op => op.flag == flag)
  entries : ∀ entries, p.batch.protInfo = some entries → entries = protections p.reference.ops

section

def header (n : Nat) : Bytes := replicate 8 0 ++ littleEndian 4 n

def repOf (ops : List BatchOp) : Bytes := header (updates ops) ++ ops.flatMap encode

def savePointOf (ops : List BatchOp) : SavePoint := ⟨(repOf ops).length, UInt32.ofNat (updates ops), flagsOf ops⟩

theorem header_length (n : Nat) : (header n).length = kHeader := by
  rw [header, length_append, length_replicate, littleEndian_length]
  rfl

theorem repOf_length (ops : List BatchOp) : (repOf ops).length = kHeader + (ops.flatMap encode).length := by
  rw [repOf, length_append, header_length]

variable {b : WriteBatch} {n : Nat} {body : Bytes}

theorem count_header (fits : n < 2 ^ 32) (same : b.rep = header n ++ body) : b.count.toNat = n := by
  have zeros : (replicate 8 (0 : UInt8)).length = 8 := length_replicate
  rw [WriteBatch.count, same, header, append_assoc, drop_left' zeros,
    take_left' (littleEndian_length 4 n), valueOf_littleEndian_of_lt fits, UInt32.toNat_ofNat_of_lt' fits]

theorem setCount_header (same : b.rep = header n ++ body) (m : UInt32) :
    b.setCount m = { b with rep := header m.toNat ++ body } := by
  have zeros : (replicate 8 (0 : UInt8)).length = 8 := length_replicate
  rw [setCount, same, drop_left' (header_length n), header, append_assoc,
    take_left' zeros, header, append_assoc]

theorem iterate_header {σ : Type} {handler : Handler σ} (same : b.rep = header n ++ body) (s : σ) :
    b.iterate handler s = iterateLoop handler (some b.count) ⟨.ok, true, 0, s⟩ body := by
  have length : b.rep.length = kHeader + body.length := by rw [same, length_append, header_length]
  have long : ¬ b.rep.length < kHeader := by omega
  have bounds : ¬ (kHeader > b.rep.length ∨ b.rep.length > b.rep.length ∨ b.rep.length < kHeader) := by omega
  have inside : (b.rep.drop kHeader).take (b.rep.length - kHeader) = body := by
    rw [← length_drop, take_length, same, drop_left' (header_length n)]
  rw [WriteBatch.iterate, if_neg long, iterateRange, if_neg bounds, if_pos ⟨rfl, rfl⟩, inside]

theorem resize_of_length {α : Type} (fill : α) {kept dropped : List α} {size : Nat} (same : kept.length = size) :
    resize fill size (kept ++ dropped) = kept := by
  have none_added : size - (kept ++ dropped).length = 0 := by
    rw [length_append]
    omega
  rw [resize, take_left' same, none_added, replicate_zero, append_nil]

theorem encode_ne_nil (op : BatchOp) : op.encode ≠ [] := by
  have recorded : ∀ (tag columnFamilyTag : Nat) (id : UInt32) (key : Bytes) (value : Option Bytes),
      recordBytes tag columnFamilyTag id key value ≠ [] := by
    intro tag columnFamilyTag id key value
    rw [recordBytes]
    split <;> exact cons_ne_nil _ _
  cases op with
  | logData blob => exact cons_ne_nil _ _
  | _ => exact recorded _ _ _ _ _

theorem updates_append (first second : List BatchOp) : updates (first ++ second) = updates first + updates second := by
  rw [updates, filter_append, length_append]
  rfl

theorem flagsOf_append (ops : List BatchOp) (op : BatchOp) : flagsOf (ops ++ [op]) = flagsOf ops ||| op.flag := by
  rw [flagsOf, foldl_append]
  rfl

theorem take_append_mark {ops : List BatchOp} {mark : Nat} (within : mark ≤ ops.length) (op : BatchOp) :
    (ops ++ [op]).take mark = ops.take mark := take_append_of_le_length within

theorem flatMap_encode_eq_nil {ops : List BatchOp} (empty : (ops.flatMap encode).length = 0) : ops = [] := by
  cases ops with
  | nil => rfl
  | cons op ops =>
    rw [flatMap_cons, length_append] at empty
    exact absurd (eq_nil_of_length_eq_zero (by omega)) (encode_ne_nil op)

theorem updates_take_le (ops : List BatchOp) (mark : Nat) : updates (ops.take mark) ≤ updates ops := by
  have whole : updates ops = updates (ops.take mark) + updates (ops.drop mark) := by
    rw [← updates_append, take_append_drop]
  omega

theorem protections_append [Protection] (first second : List BatchOp) :
    protections (first ++ second) = protections first ++ protections second := filterMap_append

theorem protections_length [Protection] (ops : List BatchOp) : (protections ops).length = updates ops := by
  induction ops with
  | nil => rfl
  | cons op ops ih =>
    have split_off : updates (op :: ops) = updates [op] + updates ops := updates_append [op] ops
    have here : (protections (op :: ops)).length = updates [op] + (protections ops).length := by
      cases op with
      | logData blob => exact (Nat.zero_add _).symm
      | _ => exact Nat.add_comm _ _
    rw [here, split_off, ih]

end

section

theorem or_and_distrib (a b mask : UInt32) : (a ||| b) &&& mask = (a &&& mask) ||| (b &&& mask) := by
  apply UInt32.toBitVec_inj.mp
  simp only [UInt32.toBitVec_and, UInt32.toBitVec_or]
  ext i
  simp only [BitVec.getElem_and, BitVec.getElem_or, Bool.and_or_distrib_right]

def ownFlags : List UInt32 :=
  [hasPut, hasDelete, hasSingleDelete, hasDeleteRange,
    hasMerge, 0]

theorem flag_mem (op : BatchOp) : op.flag ∈ ownFlags := by
  cases op <;> simp [flag, ownFlags]

variable {flag : UInt32}

theorem flag_and (op : BatchOp) (listed : flag ∈ allFlags ∨ flag = deferred) :
    op.flag &&& flag ≠ 0 ↔ op.flag = flag := by
  have each : ownFlags.all (fun own => (deferred :: allFlags).all
      (fun flag => (own &&& flag != 0) == (own == flag))) = true := by rfl
  have member : flag ∈ deferred :: allFlags := by
    rcases listed with listed | rfl
    · exact mem_cons_of_mem _ listed
    · exact mem_cons_self
  have same := all_eq_true.mp (all_eq_true.mp each op.flag (flag_mem op)) flag member
  rw [beq_iff_eq, Bool.eq_iff_iff, bne_iff_ne, beq_iff_eq] at same
  exact same

theorem foldl_flags (listed : flag ∈ allFlags ∨ flag = deferred) (ops : List BatchOp)
    (flags : UInt32) : (ops.foldl (fun flags op => flags ||| op.flag) flags) &&& flag ≠ 0 ↔
      flags &&& flag ≠ 0 ∨ ∃ op ∈ ops, op.flag = flag := by
  induction ops generalizing flags with
  | nil => simp
  | cons op ops ih =>
    have joined : (flags ||| op.flag) &&& flag ≠ 0 ↔ flags &&& flag ≠ 0 ∨ op.flag = flag := by
      rw [or_and_distrib, ne_eq, UInt32.or_eq_zero_iff, not_and_or, ← flag_and op listed]
    rw [foldl_cons, ih, joined, exists_mem_cons_iff, or_assoc]

theorem flagsOf_and (listed : flag ∈ allFlags ∨ flag = deferred) (ops : List BatchOp) :
    flagsOf ops &&& flag ≠ 0 ↔ ∃ op ∈ ops, op.flag = flag := by
  have none_set : ¬ ((0 : UInt32) &&& flag ≠ 0) := by simp
  rw [flagsOf, foldl_flags listed, or_iff_right none_set]

theorem flagsOf_not_deferred (ops : List BatchOp) : ¬ (flagsOf ops &&& deferred ≠ 0) := by
  rw [flagsOf_and (Or.inr rfl)]
  have each : ownFlags.all (fun own => own != deferred) = true := by rfl
  rintro ⟨op, _, same⟩
  exact bne_iff_ne.mp (all_eq_true.mp each op.flag (flag_mem op)) same

theorem hasContent_flagsOf {b : WriteBatch} {ops : List BatchOp} (same : b.contentFlags = flagsOf ops)
    (listed : flag ∈ allFlags) : b.hasContent flag = ops.any (fun op => op.flag == flag) := by
  have computed : b.computeContentFlags = flagsOf ops := by
    rw [computeContentFlags, same, if_neg (flagsOf_not_deferred ops)]
  apply Bool.eq_iff_iff.mpr
  rw [hasContent, computed, bne_iff_ne, flagsOf_and (Or.inl listed), any_eq_true]
  simp only [beq_iff_eq]

end

section

variable [Protection]

structure Represents (b : WriteBatch) (r : Reference) : Prop where
  rep : b.rep = repOf r.ops
  short : ∀ op ∈ r.ops, op.Short
  few : updates r.ops < 2 ^ 32
  flags : b.contentFlags = flagsOf r.ops
  entries : ∀ entries, b.protInfo = some entries → entries = protections r.ops
  savePoints : b.savePoints = r.marks.map (fun mark => savePointOf (r.ops.take mark))
  within : ∀ mark ∈ r.marks, mark ≤ r.ops.length
  ordered : r.marks.Pairwise (· ≥ ·)

variable {b : WriteBatch} {r : Reference}

namespace Represents

section

variable (represents : Represents b r)

include represents

theorem count_toNat : b.count.toNat = updates r.ops :=
  count_header represents.few represents.rep

theorem count_eq : b.count = UInt32.ofNat (updates r.ops) := by
  rw [← represents.count_toNat, UInt32.ofNat_toNat]

theorem savePoint_eq : b.savePoint = savePointOf r.ops := by
  rw [savePoint, savePointOf, represents.rep, represents.count_eq, represents.flags]

theorem agrees {status expected : BatchStatus} (same : status = expected) : Agrees ⟨b, r, status, expected⟩ where
  status := same
  delivered := by
    intro σ handler accepting s
    rw [iterate_header represents.rep, represents.count_eq]
    exact iterateLoop_ops accepting represents.short s
  count := represents.count_toNat
  flags := fun flag listed => hasContent_flagsOf represents.flags listed
  entries := represents.entries

end

end Represents

def appended (b : WriteBatch) (op : BatchOp) : WriteBatch :=
  let counted := if op.isUpdate then b.setCount (b.count + 1) else b
  { counted with
    rep := counted.rep ++ op.encode
    contentFlags := b.contentFlags ||| op.flag
    protInfo := b.protInfo.map (· ++ op.protection.toList) }

theorem write_eq (b : WriteBatch) (op : BatchOp) : write b op = (appended b op).commit b.savePoint := by
  have fits : ∀ slice : ShortSlice, ¬ slice.1.length > 2 ^ 32 - 1 := fun slice => by
    have := slice.2
    omega
  cases op with
  | put id key value =>
    change b.checkedUpdate _ _ _ _ _ _ = _
    rw [checkedUpdate, if_neg (fits key), if_neg (fits value)]
    rfl
  | merge id key value =>
    change b.checkedUpdate _ _ _ _ _ _ = _
    rw [checkedUpdate, if_neg (fits key), if_neg (fits value)]
    rfl
  | logData blob =>
    have flags : b.contentFlags ||| (logData blob).flag = b.contentFlags := UInt32.or_zero
    have entries : b.protInfo.map (· ++ (logData blob).protection.toList) = b.protInfo := by
      cases b.protInfo with
      | none => rfl
      | some entries => exact congrArg some (append_nil entries)
    rw [appended, flags, entries]
    rfl
  | _ => rfl

def nextCount (b : WriteBatch) (op : BatchOp) : UInt32 := if op.isUpdate then b.count + 1 else b.count

section

variable (represents : Represents b r)

include represents

theorem appended_eq (op : BatchOp) : appended b op =
      { b with
        rep := header (nextCount b op).toNat ++ r.ops.flatMap encode ++ op.encode
        contentFlags := b.contentFlags ||| op.flag
        protInfo := b.protInfo.map (· ++ op.protection.toList) } := by
  cases counted : op.isUpdate with
  | true => simp only [appended, nextCount, counted, if_true, setCount_header represents.rep]
  | false =>
    simp only [appended, nextCount, counted, Bool.false_eq_true, if_false, represents.count_toNat, represents.rep, repOf]

theorem appended_length (op : BatchOp) : (appended b op).rep.length = b.rep.length + op.encode.length := by
  rw [appended_eq represents]
  simp only [length_append, header_length, represents.rep, repOf_length]

theorem truncate_appended (op : BatchOp) : (appended b op).truncate b.savePoint = b := by
  have size : (header (nextCount b op).toNat ++ r.ops.flatMap encode).length = b.savePoint.size := by
    change _ = b.rep.length
    rw [represents.rep, repOf_length, length_append, header_length]
  have entries : (b.protInfo.map (· ++ op.protection.toList)).map (resize 0 b.savePoint.count.toNat) = b.protInfo := by
    cases held : b.protInfo with
    | none => rfl
    | some entries =>
      have long : entries.length = b.savePoint.count.toNat := by
        rw [represents.entries entries held, protections_length]
        exact represents.count_toNat.symm
      simp only [Option.map_some, resize_of_length 0 long]
  have back : header b.savePoint.count.toNat ++ r.ops.flatMap encode = b.rep := by
    change header b.count.toNat ++ _ = _
    rw [represents.count_toNat, represents.rep]
    rfl
  rw [appended_eq represents, WriteBatch.truncate]
  simp only [resize_of_length 0 size, entries]
  rw [setCount_header rfl, back]
  rfl

theorem Represents.append {op : BatchOp} (short : op.Short)
    (few : op.isUpdate = true → b.count.toNat + 1 < 2 ^ 32) :
    Represents (appended b op) { r with ops := r.ops ++ [op] } := by
  have counted : (nextCount b op).toNat = updates (r.ops ++ [op]) := by
    rw [updates_append, nextCount, ← represents.count_toNat]
    cases kind : op.isUpdate with
    | true =>
      rw [if_pos rfl, updates, filter_cons_of_pos kind, UInt32.toNat_add]
      exact Nat.mod_eq_of_lt (few kind)
    | false =>
      rw [if_neg Bool.false_ne_true, updates, filter_cons_of_neg (by rw [kind]; exact Bool.false_ne_true)]
      rfl
  rw [appended_eq represents]
  constructor
  · simp only [counted, repOf, flatMap_append, flatMap_singleton, append_assoc]
  · intro other listed
    rcases mem_append.mp listed with old | new
    · exact represents.short other old
    · rw [mem_singleton.mp new]
      exact short
  · rw [← counted]
    exact (nextCount b op).toNat_lt
  · rw [flagsOf_append, ← represents.flags]
  · intro entries held
    obtain ⟨old, before, same⟩ := Option.map_eq_some_iff.mp held
    rw [← same, represents.entries old before, protections_append]
    cases op <;> rfl
  · simp only [represents.savePoints]
    exact map_congr_left fun mark listed => by rw [take_append_mark (represents.within mark listed)]
  · intro mark listed
    rw [length_append]
    exact Nat.le_add_right_of_le (represents.within mark listed)
  · exact represents.ordered

theorem Represents.setSavePoint : Represents b.setSavePoint { r with marks := r.ops.length :: r.marks } where
  __ := represents
  savePoints := by
    change b.savePoint :: b.savePoints = _
    rw [represents.savePoint_eq, represents.savePoints, map_cons, take_length]
  within := by
    intro mark listed
    rcases mem_cons.mp listed with rfl | old
    · exact Nat.le_refl _
    · exact represents.within mark old
  ordered := pairwise_cons.mpr ⟨represents.within, represents.ordered⟩

variable {mark : Nat} {marks : List Nat}

theorem Represents.popSavePoint (same : r.marks = mark :: marks) :
    Represents { b with savePoints := marks.map (fun mark => savePointOf (r.ops.take mark)) }
      { r with marks := marks } where
  __ := represents
  savePoints := rfl
  within := fun other listed => represents.within other (same ▸ mem_cons_of_mem _ listed)
  ordered := (pairwise_cons.mp (same ▸ represents.ordered)).2

theorem Represents.truncate (same : r.marks = mark :: marks) :
    Represents ({ b with savePoints := marks.map (fun mark => savePointOf (r.ops.take mark)) }.truncate
      (savePointOf (r.ops.take mark))) ⟨r.ops.take mark, marks⟩ := by
  obtain ⟨newest, ordered⟩ := pairwise_cons.mp (same ▸ represents.ordered)
  have few : updates (r.ops.take mark) < 2 ^ 32 := Nat.lt_of_le_of_lt (updates_take_le _ _) represents.few
  have counted : (UInt32.ofNat (updates (r.ops.take mark))).toNat = updates (r.ops.take mark) :=
    UInt32.toNat_ofNat_of_lt' few
  have layout : b.rep = (header (updates r.ops) ++ (r.ops.take mark).flatMap encode) ++
      (r.ops.drop mark).flatMap encode := by
    rw [append_assoc, ← flatMap_append, take_append_drop, represents.rep]
    rfl
  have size : (header (updates r.ops) ++ (r.ops.take mark).flatMap encode).length =
      (savePointOf (r.ops.take mark)).size := by
    change _ = (repOf (r.ops.take mark)).length
    rw [length_append, header_length, repOf_length]
  have cut : (setCount
      { b with
        savePoints := marks.map (fun mark => savePointOf (r.ops.take mark))
        rep := resize 0 (savePointOf (r.ops.take mark)).size b.rep } (savePointOf (r.ops.take mark)).count) =
      { b with
        savePoints := marks.map (fun mark => savePointOf (r.ops.take mark))
        rep := repOf (r.ops.take mark) } := by
    simp only [layout, resize_of_length 0 size]
    rw [setCount_header rfl]
    simp only [savePointOf, counted, repOf]
  rw [WriteBatch.truncate, cut]
  constructor
  · rfl
  · exact fun op listed => represents.short op (mem_of_mem_take listed)
  · exact few
  · rfl
  · intro entries held
    obtain ⟨old, before, cut_entries⟩ := Option.map_eq_some_iff.mp held
    have parts : old = protections (r.ops.take mark) ++ protections (r.ops.drop mark) := by
      rw [represents.entries old before, ← protections_append, take_append_drop]
    have long : (protections (r.ops.take mark)).length = (savePointOf (r.ops.take mark)).count.toNat := by
      rw [protections_length]
      exact counted.symm
    rw [← cut_entries, parts, resize_of_length 0 long]
  · refine map_congr_left fun older listed => ?_
    rw [take_take, Nat.min_eq_left (newest older listed)]
  · intro older listed
    have bound := represents.within mark (same ▸ mem_cons_self)
    rw [length_take, Nat.min_eq_left bound]
    exact newest older listed
  · exact ordered

theorem Represents.rollback (same : r.marks = mark :: marks) :
    b.rollbackToSavePoint.1 = .ok ∧ Represents b.rollbackToSavePoint.2 ⟨r.ops.take mark, marks⟩ := by
  have stack : b.savePoints = savePointOf (r.ops.take mark) :: marks.map (fun mark => savePointOf (r.ops.take mark)) := by
    rw [represents.savePoints, same, map_cons]
  have positive : (savePointOf (r.ops.take mark)).size ≠ 0 := by
    change (repOf (r.ops.take mark)).length ≠ 0
    rw [repOf_length]
    exact Nat.ne_of_gt (Nat.lt_of_lt_of_le (by decide) (Nat.le_add_right _ _))
  simp only [rollbackToSavePoint, stack]
  by_cases unchanged : (savePointOf (r.ops.take mark)).size = b.rep.length
  · have lengths : (repOf (r.ops.take mark)).length = (repOf r.ops).length := represents.rep ▸ unchanged
    have none_after : r.ops.drop mark = [] := by
      refine flatMap_encode_eq_nil ?_
      have parts : (r.ops.flatMap encode).length = ((r.ops.take mark).flatMap encode).length +
          ((r.ops.drop mark).flatMap encode).length := by
        rw [← length_append, ← flatMap_append, take_append_drop]
      rw [repOf_length, repOf_length] at lengths
      omega
    have whole : r.ops.take mark = r.ops := by
      have parts := take_append_drop mark r.ops
      rwa [none_after, append_nil] at parts
    rw [if_pos unchanged, whole]
    exact ⟨rfl, represents.popSavePoint same⟩
  · rw [if_neg unchanged, if_neg positive]
    exact ⟨rfl, represents.truncate same⟩

end

theorem represents_new (maxBytes protectionBytesPerKey : Nat) :
    Represents (.new maxBytes protectionBytesPerKey) ⟨[], []⟩ where
  rep := rfl
  short := fun _ listed => absurd listed not_mem_nil
  few := by decide
  flags := rfl
  entries := by
    intro entries held
    change (if protectionBytesPerKey ≠ 0 then some [] else none) = some entries at held
    split at held
    · cases held
      rfl
    · cases held
  savePoints := rfl
  within := fun _ listed => absurd listed not_mem_nil
  ordered := List.Pairwise.nil

theorem represents_clear (b : WriteBatch) : Represents b.clear ⟨[], []⟩ where
  rep := rfl
  short := fun _ listed => absurd listed not_mem_nil
  few := by decide
  flags := rfl
  entries := by
    intro entries held
    obtain ⟨old, _, same⟩ := Option.map_eq_some_iff.mp held
    exact same.symm
  savePoints := rfl
  within := fun _ listed => absurd listed not_mem_nil
  ordered := List.Pairwise.nil

end

section

variable [Protection]

def Admits (b : WriteBatch) (op : BatchOp) : Prop := b.maxBytes = 0 ∨ b.rep.length + op.encode.length ≤ b.maxBytes

instance (b : WriteBatch) (op : BatchOp) : Decidable (Admits b op) := inferInstanceAs (Decidable (_ ∨ _))

/-- The count can take another update, and log data has a length of 32 bits. -/
def Countable (b : WriteBatch) : BatchOp → Prop
  | .logData blob => blob.length < 2 ^ 32
  | _ => b.count.toNat + 1 < 2 ^ 32

def Fits (p : Lockstep) : BatchCall → Prop
  | .write op => Admits p.batch op → Countable p.batch op
  | _ => True

theorem write_admitted {b : WriteBatch} {r : Reference} (represents : Represents b r) {op : BatchOp}
    (admitted : Admits b op) : write b op = (.ok, appended b op) := by
  have room : ¬ ((appended b op).maxBytes ≠ 0 ∧ (appended b op).rep.length > (appended b op).maxBytes) := by
    have limit : (appended b op).maxBytes = b.maxBytes := by rw [appended_eq represents]
    rw [appended_length represents, limit]
    rcases admitted with unlimited | small
    · exact fun limited => limited.1 unlimited
    · exact fun limited => Nat.not_lt.mpr small limited.2
  rw [write_eq, commit, if_neg room]

theorem write_refused {b : WriteBatch} {r : Reference} (represents : Represents b r) {op : BatchOp}
    (refused : ¬ Admits b op) : write b op = (.memoryLimit, b) := by
  have full : (appended b op).maxBytes ≠ 0 ∧ (appended b op).rep.length > (appended b op).maxBytes := by
    have limit : (appended b op).maxBytes = b.maxBytes := by rw [appended_eq represents]
    rw [appended_length represents, limit]
    exact ⟨fun unlimited => refused (Or.inl unlimited), Nat.lt_of_not_le fun small => refused (Or.inr small)⟩
  rw [write_eq, commit, if_pos full, truncate_appended represents]

end

end BatchProof
