import ZonedStorage.MetaLog.Records

namespace ZenFSModel

open ByteString Resumption

/-- A number as an `int`, the bits above the 32nd cut off. -/
def toInt (n : Int) : Int := if n % 2 ^ 32 < 2 ^ 31 then n % 2 ^ 32 else n % 2 ^ 32 - 2 ^ 32

namespace ZoneFsBackend

def lbaToZoneOffset (zoneSz pos : Nat) : Nat := pos - pos / zoneSz * zoneSz

/-- `pread` on the file of a zone, which ends at the write pointer. A negative count is refused. -/
def pread (d : Device) (zone : Nat) (count : Int) (offset : Nat) : Option Bytes :=
  let z := d.zones zone
  if count < 0 then none else some (d.mem.read (z.start + offset) (min count.toNat (z.wp - (z.start + offset))))

/-- `Read` of the backend, in the file of the zone. Its loop calls `pread` until the count is met or nothing comes. -/
def read (d : Device) (zone : Nat) (size : Int) (pos : Nat) : Option Bytes :=
  let offset := lbaToZoneOffset d.geo.zoneSz pos
  pread d zone (toInt (min (size % 2 ^ 64) ((d.geo.zoneSz - offset : Nat) : Int))) offset

def deviceRead (d : Device) (zone : Nat) : Nat → Int → Nat → Option (Option Bytes)
  | 0, _, _ => none
  | rounds + 1, left, offset =>
    if left = 0 then some (some [])
    else
      match read d zone left offset with
      | none => some none
      | some bytes =>
        if bytes.length = 0 then some (some [])
        else
          let rest := deviceRead d zone rounds (toInt (left - bytes.length)) (offset + bytes.length)
          rest.map (Option.map (bytes ++ ·))

def readLoop (d : Device) (zone : Nat) : Nat → Nat → Nat → Option (Except Status Bytes)
  | 0, _, _ => none
  | rounds + 1, left, readPos =>
    if left = 0 then some (.ok [])
    else
      match deviceRead d zone rounds (toInt left) readPos with
      | none => none
      | some none => some (.error (Status.ioError "Read failed"))
      | some (some bytes) =>
        (readLoop d zone rounds (left - bytes.length) (readPos + bytes.length)).map (Except.map (bytes ++ ·))

def logRead (rounds : Nat) (log : ZenMetaLog) (toRead : Nat) : Proc Device (Bytes × ZenMetaLog) := do
  let z ← Device.zoneAt log.zone
  if z.wp ≤ log.readPos then pure ([], log)
  else if z.start + z.maxCapacity < log.readPos + toRead then .fail (Status.ioError "Read across zone")
  else
    match ← .await (fun d => (readLoop d log.zone rounds toRead log.readPos).map (·, d)) with
    | .error status => .fail status
    | .ok bytes => pure (bytes, { log with readPos := log.readPos + toRead })

variable [Checksum]

def readRecord (rounds : Nat) (log : ZenMetaLog) : Proc Device (Bytes × ZenMetaLog) := do
  let (header, log) ← logRead rounds log ZenMetaLog.zMetaHeaderSize
  if header.length = 0 then pure ([], log)
  else
    let recordCrc := valueOf (header.take 4)
    let recordSz := valueOf (header.drop 4)
    let (record, log) ← logRead rounds log recordSz
    if ZenMetaLog.recordCrc recordSz record ≠ Checksum.unmask recordCrc then
      .fail (Status.ioError "Not a valid record")
    else
      let bs ← .read (fun d => d.geo.blockSz)
      pure (record, { log with readPos := ZenMetaLog.alignUp bs log.readPos })

end ZoneFsBackend

end ZenFSModel

namespace ZenFSProof

open ByteString Resumption Resumption.Prog ZenFSModel ZenFSModel.ZoneFsBackend Memory Nat

/-- A zone as the backend reports it, at a multiple of the zone size. -/
structure FileZone (d : Device) (zone : Nat) : Prop where
  number : d.geo.zoneSz ∣ (d.zones zone).start
  limit : (d.zones zone).maxCapacity ≤ d.geo.zoneSz
  pointer : (d.zones zone).wp ≤ (d.zones zone).start + d.geo.zoneSz

def restBits (d : Device) (zone pos : Nat) : Nat := ((d.zones zone).start + d.geo.zoneSz - pos) % 2 ^ 32

/-- The bytes lie in the zone and are asked for again and again: the file ends before them, or an `int` can not
    hold their number and the bits of the rest of the zone do not make up for it. -/
def Stalls (d : Device) (zone pos n : Nat) : Prop :=
  let z := d.zones zone
  pos < z.wp ∧ pos + n ≤ z.start + z.maxCapacity ∧
    if n < 2 ^ 31 then z.wp < pos + n
    else restBits d zone pos < 2 ^ 31 ∧ (z.wp < pos + n ∨ 2 ^ 31 + restBits d zone pos ≤ n)

instance (d : Device) (zone pos n : Nat) : Decidable (Stalls d zone pos n) :=
  inferInstanceAs (Decidable (_ ∧ _ ∧ _))

def Present (d : Device) (zone pos n : Nat) : Prop :=
  pos + n ≤ (d.zones zone).wp ∧ pos + n ≤ (d.zones zone).start + (d.zones zone).maxCapacity

instance (d : Device) (zone pos n : Nat) : Decidable (Present d zone pos n) :=
  inferInstanceAs (Decidable (_ ∧ _))

section

variable {d : Device} {zone : Nat}

def gets (d : Device) (zone m pos : Nat) : Option Nat :=
  let stored := (d.zones zone).wp - pos
  let rest := restBits d zone pos
  if m < 2 ^ 31 then some (min m stored)
  else if rest < 2 ^ 31 then some (if rest < stored ∧ m - rest < 2 ^ 31 then min m stored else min rest stored)
  else none

theorem zoneSz_lt (geo : Geometry) : geo.zoneSz < 2 ^ 63 := by
  have whole : geo.zoneSz = geo.blockSz * (geo.zoneSz / geo.blockSz) := (Nat.mul_div_cancel' geo.block_dvd).symm
  have product : geo.blockSz * (geo.zoneSz / geo.blockSz) < 2 ^ 31 * 2 ^ 32 :=
    mul_lt_mul'' geo.block_lt geo.zone_lt
  omega

variable {pos m : Nat}

theorem FileZone.offset (layout : FileZone d zone) (low : (d.zones zone).start ≤ pos)
    (high : pos < (d.zones zone).start + d.geo.zoneSz) :
    lbaToZoneOffset d.geo.zoneSz pos = pos - (d.zones zone).start := by
  obtain ⟨k, start⟩ := layout.number
  have quotient : pos / d.geo.zoneSz = k := by
    rw [Nat.div_eq_iff d.geo.zone_pos]
    rw [mul_comm] at start
    constructor
    · omega
    · omega
  rw [lbaToZoneOffset, quotient, start, mul_comm]

theorem toInt_nat {n : Nat} (fits : n < 2 ^ 32) : toInt n = if n < 2 ^ 31 then (n : Int) else n - 2 ^ 32 := by
  simp only [toInt]
  split <;> split <;> omega

theorem toInt_zero : toInt 0 = 0 := rfl

theorem toInt_sub (m n : Int) : toInt (toInt m - n) = toInt (m - n) := by
  simp only [toInt]
  split <;> split <;> split <;> omega

theorem FileZone.read_eq (layout : FileZone d zone) (positive : 0 < m) (fits : m < 2 ^ 32)
    (low : (d.zones zone).start ≤ pos) (high : pos + m ≤ (d.zones zone).start + d.geo.zoneSz) :
    ZoneFsBackend.read d zone (toInt m) pos =
      if m < 2 ^ 31 then some (d.mem.read pos (min m ((d.zones zone).wp - pos)))
      else if restBits d zone pos < 2 ^ 31 then
        some (d.mem.read pos (min (restBits d zone pos) ((d.zones zone).wp - pos)))
      else none := by
  have bound := zoneSz_lt d.geo
  have back : (d.zones zone).start + (pos - (d.zones zone).start) = pos := by omega
  have rest : d.geo.zoneSz - (pos - (d.zones zone).start) = (d.zones zone).start + d.geo.zoneSz - pos := by omega
  simp only [ZoneFsBackend.read, pread, layout.offset low (by omega), back, rest, toInt_nat fits]
  by_cases small : m < 2 ^ 31
  · have count : toInt (min ((m : Int) % 2 ^ 64) (((d.zones zone).start + d.geo.zoneSz - pos : Nat) : Int)) = m := by
      simp only [toInt]
      split <;> omega
    simp only [small, if_true, count]
    rw [if_neg (by omega), Int.toNat_natCast]
  · have least : min (((m : Int) - 2 ^ 32) % 2 ^ 64) (((d.zones zone).start + d.geo.zoneSz - pos : Nat) : Int) =
        (((d.zones zone).start + d.geo.zoneSz - pos : Nat) : Int) := by omega
    simp only [small, if_false, least]
    have bits : (restBits d zone pos : Int) = (((d.zones zone).start + d.geo.zoneSz - pos : Nat) : Int) % 2 ^ 32 := by
      simp only [restBits]
      omega
    have below : restBits d zone pos < 2 ^ 32 := mod_lt _ (by decide)
    by_cases nonnegative : restBits d zone pos < 2 ^ 31
    · have count : toInt (((d.zones zone).start + d.geo.zoneSz - pos : Nat) : Int) = restBits d zone pos := by
        rw [toInt, ← bits, if_pos (by omega)]
      rw [count, if_neg (Int.not_lt.mpr (Int.natCast_nonneg _)), if_pos nonnegative, Int.toNat_natCast]
    · have count : toInt (((d.zones zone).start + d.geo.zoneSz - pos : Nat) : Int) = restBits d zone pos - 2 ^ 32 := by
        rw [toInt, ← bits, if_neg (by omega)]
      rw [count, if_pos (Int.sub_neg_of_lt (by exact_mod_cast below)), if_neg nonnegative]

theorem restBits_step {c : Nat} (within : c ≤ restBits d zone pos)
    (high : pos + c ≤ (d.zones zone).start + d.geo.zoneSz) :
    restBits d zone (pos + c) = restBits d zone pos - c := by
  simp only [restBits] at within ⊢
  omega

theorem deviceRead_succ (rounds : Nat) (left : Int) (offset : Nat) : deviceRead d zone (rounds + 1) left offset =
    if left = 0 then some (some [])
    else
      match ZoneFsBackend.read d zone left offset with
      | none => some none
      | some bytes =>
        if bytes.length = 0 then some (some [])
        else
          (deviceRead d zone rounds (toInt (left - bytes.length)) (offset + bytes.length)).map
            (Option.map (bytes ++ ·)) := rfl

theorem FileZone.deviceRead_small (layout : FileZone d zone) (rounds : Nat) (small : m < 2 ^ 31)
    (low : (d.zones zone).start ≤ pos) (high : pos + m ≤ (d.zones zone).start + d.geo.zoneSz) :
    deviceRead d zone (rounds + 2) (toInt m) pos = some (some (d.mem.read pos (min m ((d.zones zone).wp - pos)))) := by
  by_cases none_left : m = 0
  · subst none_left
    rw [zero_min]
    exact if_pos toInt_zero
  have nonzero : toInt m ≠ 0 := by
    rw [toInt_nat (by omega), if_pos small]
    omega
  rw [deviceRead_succ, if_neg nonzero, layout.read_eq (by omega) (by omega) low high, if_pos small]
  simp only [read_length]
  by_cases stored : min m ((d.zones zone).wp - pos) = 0
  · simp [stored, Memory.read]
  rw [if_neg stored, toInt_sub]
  by_cases met : m ≤ (d.zones zone).wp - pos
  · rw [min_eq_left met, Int.sub_self, toInt_zero, deviceRead_succ, if_pos rfl]
    simp only [Option.map_some, List.append_nil]
  · rw [min_eq_right (by omega)]
    have left : (m : Int) - ((d.zones zone).wp - pos : Nat) = (m - ((d.zones zone).wp - pos) : Nat) := by omega
    have remaining : toInt (m - ((d.zones zone).wp - pos) : Nat) ≠ 0 := by
      rw [toInt_nat (by omega), if_pos (by omega)]
      omega
    have behind : (d.zones zone).wp - (pos + ((d.zones zone).wp - pos)) = 0 := by omega
    rw [left, deviceRead_succ, if_neg remaining, layout.read_eq (by omega) (by omega) (by omega) (by omega),
      if_pos (by omega), behind]
    simp [Memory.read]

theorem FileZone.deviceRead_eq (layout : FileZone d zone) (rounds : Nat) (positive : 0 < m)
    (fits : m < 2 ^ 32) (low : (d.zones zone).start ≤ pos) (high : pos + m ≤ (d.zones zone).start + d.geo.zoneSz) :
    deviceRead d zone (rounds + 3) (toInt m) pos = some ((gets d zone m pos).map (d.mem.read pos)) := by
  by_cases small : m < 2 ^ 31
  · rw [layout.deviceRead_small (rounds + 1) small low high, gets, if_pos small]
    rfl
  have nonzero : toInt m ≠ 0 := by
    rw [toInt_nat fits, if_neg small]
    omega
  rw [deviceRead_succ, if_neg nonzero, layout.read_eq positive fits low high, if_neg small]
  by_cases refused : restBits d zone pos < 2 ^ 31
  swap
  · simp only [gets, if_neg small, if_neg refused, Option.map_none]
  rw [if_pos refused]
  simp only [read_length, gets, if_neg small, if_pos refused, Option.map_some]
  generalize got : min (restBits d zone pos) ((d.zones zone).wp - pos) = b
  by_cases nothing : b = 0
  · have amount : (if restBits d zone pos < (d.zones zone).wp - pos ∧ m - restBits d zone pos < 2 ^ 31 then
        min m ((d.zones zone).wp - pos) else b) = 0 := by
      split <;> omega
    rw [if_pos nothing, amount]
    rfl
  have left : (m : Int) - (b : Int) = (m - b : Nat) := by omega
  rw [if_neg nothing, toInt_sub, left]
  by_cases fewer : m - b < 2 ^ 31
  · have amount : (if restBits d zone pos < (d.zones zone).wp - pos ∧ m - restBits d zone pos < 2 ^ 31 then
        min m ((d.zones zone).wp - pos) else b) = b + min (m - b) ((d.zones zone).wp - (pos + b)) := by
      split <;> omega
    rw [layout.deviceRead_small (rounds + 0) fewer (by omega) (by omega), amount, read_add]
    rfl
  · have remaining : toInt (m - b : Nat) ≠ 0 := by
      rw [toInt_nat (by omega), if_neg fewer]
      omega
    have amount : (if restBits d zone pos < (d.zones zone).wp - pos ∧ m - restBits d zone pos < 2 ^ 31 then
        min m ((d.zones zone).wp - pos) else b) = b := by
      split <;> omega
    have cut : restBits d zone (pos + b) = restBits d zone pos - b := restBits_step (by omega) (by omega)
    have behind : min (restBits d zone pos - b) ((d.zones zone).wp - (pos + b)) = 0 := by omega
    rw [deviceRead_succ, if_neg remaining, layout.read_eq (by omega) (by omega) (by omega) (by omega), if_neg fewer,
      cut, if_pos (by omega), behind, amount]
    simp [Memory.read]

theorem deviceRead_more {rounds : Nat} (more : Nat) {left : Int} {offset : Nat} {result : Option Bytes}
    (read : deviceRead d zone rounds left offset = some result) :
    deviceRead d zone (rounds + more) left offset = some result := by
  induction rounds generalizing left offset result with
  | zero => cases read
  | succ rounds ih =>
    rw [succ_add]
    rw [deviceRead_succ] at read ⊢
    by_cases none_left : left = 0
    · rwa [if_pos none_left] at read ⊢
    rw [if_neg none_left] at read ⊢
    cases got : ZoneFsBackend.read d zone left offset with
    | none => rwa [got] at read
    | some bytes =>
      simp only [got] at read ⊢
      by_cases nothing : bytes.length = 0
      · rwa [if_pos nothing] at read ⊢
      rw [if_neg nothing] at read ⊢
      obtain ⟨rest, ran, rfl⟩ := Option.map_eq_some_iff.mp read
      rw [ih ran, Option.map_some]

def readOutcome (d : Device) (zone m pos : Nat) : Option (Except Status Bytes) :=
  match gets d zone m pos with
  | none => some (.error (Status.ioError "Read failed"))
  | some amount => if amount = m then some (.ok (d.mem.read pos m)) else none

theorem FileZone.readLoop_stuck (layout : FileZone d zone) (rounds : Nat) (positive : 0 < m)
    (fits : m < 2 ^ 32) (low : (d.zones zone).start ≤ pos) (high : pos + m ≤ (d.zones zone).start + d.geo.zoneSz)
    (nothing : gets d zone m pos = some 0) : readLoop d zone rounds m pos = none := by
  induction rounds with
  | zero => rfl
  | succ rounds ih =>
    rw [readLoop, if_neg (by omega)]
    cases read : deviceRead d zone rounds (toInt m) pos with
    | none => rfl
    | some result =>
      have more := deviceRead_more 3 read
      rw [layout.deviceRead_eq rounds positive fits low high, nothing] at more
      cases more
      simp [Memory.read, ih]

theorem gets_small (small : m < 2 ^ 31) : gets d zone m pos = some (min m ((d.zones zone).wp - pos)) := by
  rw [gets, if_pos small]

theorem gets_le {amount : Nat} (got : gets d zone m pos = some amount) : amount ≤ (d.zones zone).wp - pos := by
  simp only [gets] at got
  split at got
  · cases got
    exact min_le_right _ _
  split at got
  · have amount_eq := Option.some.inj got
    split at amount_eq <;> omega
  · cases got

theorem gets_rest {amount : Nat} (high : pos + m ≤ (d.zones zone).start + d.geo.zoneSz)
    (got : gets d zone m pos = some amount) (short : amount ≠ m) :
    amount < m ∧ gets d zone (m - amount) (pos + amount) = some 0 := by
  by_cases small : m < 2 ^ 31
  · rw [gets_small small] at got
    have amount_eq := Option.some.inj got
    have nothing : min (m - amount) ((d.zones zone).wp - (pos + amount)) = 0 := by omega
    rw [gets_small (by omega), nothing]
    exact ⟨by omega, rfl⟩
  by_cases bits : restBits d zone pos < 2 ^ 31
  swap
  · rw [gets, if_neg small, if_neg bits] at got
    cases got
  rw [gets, if_neg small, if_pos bits] at got
  have amount_eq := Option.some.inj got
  by_cases whole : restBits d zone pos < (d.zones zone).wp - pos ∧ m - restBits d zone pos < 2 ^ 31
  · rw [if_pos whole] at amount_eq
    have nothing : min (m - amount) ((d.zones zone).wp - (pos + amount)) = 0 := by omega
    rw [gets_small (by omega), nothing]
    exact ⟨by omega, rfl⟩
  rw [if_neg whole] at amount_eq
  have cut : restBits d zone (pos + amount) = restBits d zone pos - amount := restBits_step (by omega) (by omega)
  refine ⟨by omega, ?_⟩
  by_cases fewer : m - amount < 2 ^ 31
  · have nothing : min (m - amount) ((d.zones zone).wp - (pos + amount)) = 0 := by omega
    rw [gets_small fewer, nothing]
  · rw [gets, if_neg fewer, cut, if_pos (by omega), if_neg (by omega)]
    congr 1
    omega

theorem FileZone.readLoop_eq (layout : FileZone d zone) (rounds : Nat) (fits : m < 2 ^ 32)
    (low : (d.zones zone).start ≤ pos) (high : pos + m ≤ (d.zones zone).start + d.geo.zoneSz) :
    readLoop d zone (rounds + 4) m pos = readOutcome d zone m pos := by
  by_cases none_left : m = 0
  · subst none_left
    rw [readOutcome, gets_small (Nat.two_pow_pos 31), zero_min]
    rfl
  rw [readLoop, if_neg none_left, layout.deviceRead_eq rounds (pos_of_ne_zero none_left) fits low high]
  simp only [readOutcome]
  cases got : gets d zone m pos with
  | none => rfl
  | some amount =>
    simp only [Option.map_some, read_length]
    by_cases met : amount = m
    · rw [if_pos met, met, Nat.sub_self, readLoop, if_pos rfl]
      simp only [Option.map_some, Except.map, List.append_nil]
    · obtain ⟨fewer, nothing⟩ := gets_rest high got met
      rw [if_neg met, layout.readLoop_stuck (rounds + 3) (by omega) (by omega) (by omega) (by omega) nothing]
      rfl

theorem readLoop_more {rounds : Nat} (more : Nat) {left : Nat} {result : Except Status Bytes}
    (read : readLoop d zone rounds left pos = some result) :
    readLoop d zone (rounds + more) left pos = some result := by
  induction rounds generalizing left pos result with
  | zero => cases read
  | succ rounds ih =>
    rw [succ_add]
    rw [readLoop] at read ⊢
    by_cases none_left : left = 0
    · rwa [if_pos none_left] at read ⊢
    rw [if_neg none_left] at read ⊢
    cases got : deviceRead d zone rounds (toInt left) pos with
    | none =>
      rw [got] at read
      cases read
    | some answer =>
      rw [got] at read
      rw [deviceRead_more more got]
      cases answer with
      | none => exact read
      | some bytes =>
        obtain ⟨rest, ran, rfl⟩ := Option.map_eq_some_iff.mp read
        simp only [ih ran, Option.map_some]

end

section

variable {d : Device} {n : Nat}

variable {zone pos : Nat}

theorem stalls_iff (below : pos < (d.zones zone).wp)
    (inside : pos + n ≤ (d.zones zone).start + (d.zones zone).maxCapacity) :
    Stalls d zone pos n ↔ ∃ amount, gets d zone n pos = some amount ∧ amount ≠ n := by
  simp only [Stalls, below, inside, true_and]
  by_cases small : n < 2 ^ 31
  · rw [gets_small small, if_pos small]
    simp only [Option.some.injEq, exists_eq_left']
    omega
  rw [gets, if_neg small, if_neg small]
  by_cases bits : restBits d zone pos < 2 ^ 31
  · rw [if_pos bits]
    simp only [Option.some.injEq, exists_eq_left']
    split <;> omega
  · rw [if_neg bits]
    constructor
    · exact fun both => absurd both.1 bits
    · rintro ⟨_, got, _⟩
      cases got

theorem readOutcome_eq_none (below : pos < (d.zones zone).wp)
    (inside : pos + n ≤ (d.zones zone).start + (d.zones zone).maxCapacity) :
    readOutcome d zone n pos = none ↔ Stalls d zone pos n := by
  rw [stalls_iff below inside, readOutcome]
  cases gets d zone n pos with
  | none => simp
  | some amount => simp

theorem readOutcome_ok {bytes : Bytes} (read : readOutcome d zone n pos = some (.ok bytes))
    (below : pos < (d.zones zone).wp) (inside : pos + n ≤ (d.zones zone).start + (d.zones zone).maxCapacity) :
    bytes = d.mem.read pos n ∧ Present d zone pos n := by
  rw [readOutcome] at read
  cases got : gets d zone n pos with
  | none =>
    rw [got] at read
    cases read
  | some amount =>
    simp only [got] at read
    by_cases met : amount = n
    · rw [if_pos met] at read
      have stored := gets_le got
      cases read
      exact ⟨rfl, by omega, inside⟩
    · rw [if_neg met] at read
      cases read

theorem run_logRead {log : ZenMetaLog} (rounds : Nat) (below : log.readPos < (d.zones log.zone).wp)
    (inside : log.readPos + n ≤ (d.zones log.zone).start + (d.zones log.zone).maxCapacity) :
    (logRead rounds log n).run d = (readLoop d log.zone rounds n log.readPos).map
      (fun result => (result.map (·, { log with readPos := log.readPos + n }), d)) := by
  simp only [logRead, Device.zoneAt, run_bind, run_read, if_neg (not_le.mpr below), if_neg (not_lt.mpr inside),
    await, Prog.run]
  cases readLoop d log.zone rounds n log.readPos with
  | none => rfl
  | some result =>
    cases result with
    | error status => rfl
    | ok bytes => rfl

theorem FileZone.logRead_returns (log : ZenMetaLog) (layout : FileZone d log.zone) (rounds : Nat) (fits : n < 2 ^ 32)
    (low : (d.zones log.zone).start ≤ log.readPos) (moves : ¬ Stalls d log.zone log.readPos n) :
    ∃ result, (logRead (rounds + 4) log n).run d = some (result, d) ∧ ∀ bytes log', result = .ok (bytes, log') →
      (bytes = [] ∧ log' = log) ∨ (bytes = d.mem.read log.readPos n ∧ log' = { log with readPos := log.readPos + n } ∧
        log.readPos < (d.zones log.zone).wp ∧ Present d log.zone log.readPos n) := by
  have size := layout.limit
  by_cases finished : (d.zones log.zone).wp ≤ log.readPos
  · refine ⟨.ok ([], log), ?_, fun bytes log' same => ?_⟩
    · simp only [logRead, Device.zoneAt, run_bind, run_read, if_pos finished, run_pure]
    · cases same
      exact Or.inl ⟨rfl, rfl⟩
  by_cases across : (d.zones log.zone).start + (d.zones log.zone).maxCapacity < log.readPos + n
  · refine ⟨.error (Status.ioError "Read across zone"), ?_, fun bytes log' same => by cases same⟩
    simp only [logRead, Device.zoneAt, run_bind, run_read, if_neg finished, if_pos across, run_fail]
  have below := Nat.lt_of_not_le finished
  have inside := Nat.le_of_not_lt across
  rw [run_logRead _ below inside, layout.readLoop_eq rounds fits low (by omega)]
  cases outcome : readOutcome d log.zone n log.readPos with
  | none => exact absurd ((readOutcome_eq_none below inside).mp outcome) moves
  | some result =>
    refine ⟨_, rfl, fun bytes log' same => ?_⟩
    cases result with
    | error status => cases same
    | ok stored =>
      obtain ⟨rfl, present⟩ := readOutcome_ok outcome below inside
      cases same
      exact Or.inr ⟨rfl, rfl, below, present⟩

theorem FileZone.logRead_stalls (log : ZenMetaLog) (layout : FileZone d log.zone) (rounds : Nat) (fits : n < 2 ^ 32)
    (low : (d.zones log.zone).start ≤ log.readPos) (stalls : Stalls d log.zone log.readPos n) :
    (logRead rounds log n).run d = none := by
  have size := layout.limit
  have below := stalls.1
  have inside := stalls.2.1
  rw [run_logRead _ below inside]
  cases read : readLoop d log.zone rounds n log.readPos with
  | none => rfl
  | some result =>
    have more := readLoop_more 4 read
    rw [layout.readLoop_eq rounds fits low (by omega), (readOutcome_eq_none below inside).mpr stalls] at more
    cases more

def announced (d : Device) (pos : Nat) : Nat := valueOf (d.mem.read (pos + 4) 4)

theorem header_parts (d : Device) (pos : Nat) : valueOf ((d.mem.read pos 8).take 4) = valueOf (d.mem.read pos 4) ∧
    valueOf ((d.mem.read pos 8).drop 4) = announced d pos := by
  have split : d.mem.read pos 8 = d.mem.read pos 4 ++ d.mem.read (pos + 4) 4 := read_add _ pos 4 4
  have length : (d.mem.read pos 4).length = 4 := read_length ..
  rw [split, List.take_left' length, List.drop_left' length]
  exact ⟨rfl, rfl⟩

theorem announced_lt (d : Device) (pos : Nat) : announced d pos < 2 ^ 32 := by
  have bound := valueOf_lt (d.mem.read (pos + 4) 4)
  rwa [read_length] at bound

/-- The header is not complete, or it is and the record behind it is not. -/
def Torn (d : Device) (zone pos : Nat) : Prop :=
  Stalls d zone pos 8 ∨ pos < (d.zones zone).wp ∧ Present d zone pos 8 ∧ Stalls d zone (pos + 8) (announced d pos)

instance (d : Device) (zone pos : Nat) : Decidable (Torn d zone pos) := by
  unfold Torn
  infer_instance

variable [Checksum]

/-- A record that has been written with its checksum stands at the position, and the next one begins where it ends. -/
def NextRecord (d : Device) (zone pos next : Nat) : Prop :=
  pos < (d.zones zone).wp ∧ Present d zone pos 8 ∧ Present d zone (pos + 8) (announced d pos) ∧
    ZenMetaLog.recordCrc (announced d pos) (d.mem.read (pos + 8) (announced d pos)) =
      Checksum.unmask (valueOf (d.mem.read pos 4)) ∧
    next = ZenMetaLog.alignUp d.geo.blockSz (pos + 8 + announced d pos)

theorem FileZone.readRecord_returns (log : ZenMetaLog) (layout : FileZone d log.zone) (rounds : Nat)
    (low : (d.zones log.zone).start ≤ log.readPos) (whole : ¬ Torn d log.zone log.readPos) :
    ∃ result, (readRecord (rounds + 4) log).run d = some (result, d) ∧ ∀ record log', result = .ok (record, log') →
      record = [] ∨ (log'.zone = log.zone ∧ NextRecord d log.zone log.readPos log'.readPos) := by
  obtain ⟨intact, complete⟩ := not_or.mp whole
  obtain ⟨result, ran, what⟩ := FileZone.logRead_returns (n := 8) log layout rounds (by decide) low intact
  simp only [readRecord, ZenMetaLog.zMetaHeaderSize, run_bind, ran]
  rcases result with status | ⟨header, log'⟩
  · exact ⟨_, rfl, fun _ _ same => by cases same⟩
  rcases what header log' rfl with ⟨rfl, rfl⟩ | ⟨rfl, rfl, below, present⟩
  · refine ⟨_, rfl, fun record log' same => ?_⟩
    cases same
    exact Or.inl rfl
  have moves : ¬ Stalls d log.zone (log.readPos + 8) (announced d log.readPos) :=
    fun stalls => complete ⟨below, present, stalls⟩
  obtain ⟨result, ran, what⟩ := FileZone.logRead_returns ⟨log.zone, log.readPos + 8⟩ layout rounds
    (announced_lt d log.readPos) (le_trans low (le_add_right _ _)) moves
  simp only [read_length, header_parts]
  rw [if_neg (by decide)]
  simp only [run_bind, ran]
  rcases result with status | ⟨record, log'⟩
  · exact ⟨_, rfl, fun _ _ same => by cases same⟩
  by_cases valid : ZenMetaLog.recordCrc (announced d log.readPos) record =
      Checksum.unmask (valueOf (d.mem.read log.readPos 4))
  · simp only [if_neg (not_not.mpr valid), run_bind, run_read, run_pure]
    refine ⟨_, rfl, fun record' log'' same => ?_⟩
    rcases what record log' rfl with ⟨rfl, rfl⟩ | ⟨rfl, rfl, _, behind⟩
    · cases same
      exact Or.inl rfl
    · cases same
      exact Or.inr ⟨rfl, below, present, behind, valid, by simp only⟩
  · simp only [if_pos valid, run_fail]
    exact ⟨_, rfl, fun _ _ same => by cases same⟩

theorem FileZone.readRecord_torn (log : ZenMetaLog) (layout : FileZone d log.zone) (rounds : Nat)
    (low : (d.zones log.zone).start ≤ log.readPos) (torn : Torn d log.zone log.readPos) :
    (readRecord rounds log).run d = none := by
  simp only [readRecord, ZenMetaLog.zMetaHeaderSize, run_bind]
  rcases torn with header | ⟨below, present, record⟩
  · rw [FileZone.logRead_stalls log layout rounds (by decide) low header]
  · have size := layout.limit
    rw [run_logRead rounds below present.2]
    cases read : readLoop d log.zone rounds 8 log.readPos with
    | none => rfl
    | some result =>
      have more := readLoop_more 4 read
      rw [layout.readLoop_eq rounds (by decide) low (by have := present.2; omega)] at more
      cases result with
      | error status =>
        simp only [readOutcome, gets_small (show 8 < 2 ^ 31 by decide)] at more
        split at more <;> cases more
      | ok header =>
        obtain ⟨rfl, _⟩ := readOutcome_ok more below present.2
        simp only [Option.map_some, Except.map, read_length, header_parts]
        rw [if_neg (by decide)]
        simp only [run_bind]
        rw [FileZone.logRead_stalls ⟨log.zone, log.readPos + 8⟩ layout rounds (announced_lt d log.readPos)
          (le_trans low (le_add_right _ _)) record]

end

end ZenFSProof
