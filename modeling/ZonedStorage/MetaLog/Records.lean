import ZonedStorage.MetaLog.MetaLog
import ZonedStorage.Device.Read

namespace ZenFSProof

open ByteString Resumption.Prog ZenFSModel ZenFSModel.ZenMetaLog Nat

theorem physSz_eq_alignUp (bs recordSz : Nat) : physSz bs recordSz = alignUp bs (recordSz + zMetaHeaderSize) := rfl

theorem alignUp_ge (bs pos : Nat) : pos ≤ alignUp bs pos := by
  simp only [alignUp]
  split <;> omega

variable {bs pos : Nat} {record : Bytes}

theorem alignUp_dvd (positive : 0 < bs) (pos : Nat) : bs ∣ alignUp bs pos := by
  simp only [alignUp]
  split
  · have small := mod_lt pos positive
    have split := div_add_mod pos bs
    refine ⟨pos / bs + 1, ?_⟩
    rw [mul_add]
    omega
  · exact dvd_of_mod_eq_zero (by omega)

theorem alignUp_lt (positive : 0 < bs) (pos : Nat) : alignUp bs pos < pos + bs := by
  have small := mod_lt pos positive
  simp only [alignUp]
  split <;> omega

theorem alignUp_le {bound : Nat} (positive : 0 < bs) (below : pos ≤ bound) (whole : bs ∣ bound) :
    alignUp bs pos ≤ bound := by
  have close := alignUp_lt positive pos
  obtain ⟨blocks, same⟩ := alignUp_dvd positive pos
  obtain ⟨most, rfl⟩ := whole
  rw [same] at close ⊢
  have fewer : blocks < most + 1 := by
    refine Nat.lt_of_mul_lt_mul_left (a := bs) ?_
    rw [mul_succ]
    omega
  exact mul_le_mul_left bs (by omega)

theorem alignUp_shift {base : Nat} (aligned : bs ∣ base) (pos : Nat) :
    alignUp bs (base + pos) = base + alignUp bs pos := by
  obtain ⟨blocks, rfl⟩ := aligned
  have same : (bs * blocks + pos) % bs = pos % bs := mul_add_mod ..
  simp only [alignUp, same]
  split <;> omega

/-- Records of at least `2^31` bytes are written but can not be read back. -/
def Readable (record : Bytes) : Prop := record.length < 2 ^ 31

instance (record : Bytes) : Decidable (Readable record) := inferInstanceAs (Decidable (_ < _))

theorem physSz_lt (readable : Readable record) (positive : 0 < bs)
    (block : bs < 2 ^ 31) : physSz bs record.length < 2 ^ 32 := by
  have small : record.length < 2 ^ 31 := readable
  have bound := alignUp_lt positive (record.length + zMetaHeaderSize)
  have eight : zMetaHeaderSize = 8 := rfl
  rw [physSz_eq_alignUp]
  by_cases one : record.length + zMetaHeaderSize < bs
  · have rest : (record.length + zMetaHeaderSize) % bs = record.length + zMetaHeaderSize := mod_eq_of_lt one
    simp only [alignUp, rest]
    split <;> omega
  · by_cases two : record.length + zMetaHeaderSize < 2 * bs
    · have rest : (record.length + zMetaHeaderSize) % bs = record.length + zMetaHeaderSize - bs := by
        rw [mod_eq_sub_mod (by omega), mod_eq_of_lt (by omega)]
      simp only [alignUp, rest]
      split <;> omega
    · omega

def recordsLength (bs : Nat) : List Bytes → Nat
  | [] => 0
  | record :: rest => physSz bs record.length + recordsLength bs rest

theorem recordsLength_append (bs : Nat) (first second : List Bytes) :
    recordsLength bs (first ++ second) = recordsLength bs first + recordsLength bs second := by
  induction first with
  | nil => simp [recordsLength]
  | cons record rest ih => simp only [List.cons_append, recordsLength, ih, add_assoc]

theorem recordsLength_dvd (positive : 0 < bs) (records : List Bytes) : bs ∣ recordsLength bs records := by
  induction records with
  | nil => exact dvd_zero _
  | cons record rest ih => exact Nat.dvd_add (alignUp_dvd positive _) ih

theorem physSz_ge_block (positive : 0 < bs) (recordSz : Nat) : bs ≤ physSz bs recordSz := by
  have room : recordSz + zMetaHeaderSize ≤ physSz bs recordSz := alignUp_ge _ _
  have eight : zMetaHeaderSize = 8 := rfl
  exact le_of_dvd (by omega) (alignUp_dvd positive _)

theorem count_le_recordsLength (positive : 0 < bs) (records : List Bytes) :
    records.length * bs ≤ recordsLength bs records := by
  induction records with
  | nil => simp [recordsLength]
  | cons record rest ih =>
    have block := physSz_ge_block positive record.length
    rw [List.length_cons, succ_mul, recordsLength]
    omega

variable [Checksum]

theorem recordBuffer_length_of_lt (short : record.length < 2 ^ 32) :
    (recordBuffer bs record).length = physSz bs record.length := by
  have size : record.length % 2 ^ 32 = record.length := mod_eq_of_lt short
  have room : record.length + zMetaHeaderSize ≤ physSz bs record.length := alignUp_ge _ _
  simp only [recordBuffer, size, List.take_length, List.length_append, littleEndian_length,
    List.length_replicate]
  simp only [zMetaHeaderSize] at room ⊢
  omega

theorem recordBuffer_length (readable : Readable record) : (recordBuffer bs record).length = physSz bs record.length :=
  recordBuffer_length_of_lt (lt_trans readable (by decide))

theorem recordBuffer_parts (readable : Readable record) :
    recordBuffer bs record = littleEndian 4 (Checksum.mask (recordCrc record.length record)) ++
      littleEndian 4 record.length ++ record ++
      List.replicate (physSz bs record.length - (record.length + zMetaHeaderSize)) 0 := by
  have size : record.length % 2 ^ 32 = record.length := mod_eq_of_lt (by unfold Readable at readable; omega)
  simp only [recordBuffer, size, List.take_length]

theorem recordCrc_lt (recordSz : Nat) (data : Bytes) : recordCrc recordSz data < 2 ^ 32 :=
  Checksum.extend_lt (Checksum.extend_lt (by decide) _) _

def Holds (d : Device) (pos : Nat) : List Bytes → Prop
  | [] => True
  | record :: rest =>
    Readable record ∧
    d.mem.read pos (physSz d.geo.blockSz record.length) = recordBuffer d.geo.blockSz record ∧
    Holds d (pos + physSz d.geo.blockSz record.length) rest

theorem Holds.append {d : Device} {first second : List Bytes} : Holds d pos (first ++ second) ↔
      Holds d pos first ∧ Holds d (pos + recordsLength d.geo.blockSz first) second := by
  induction first generalizing pos with
  | nil => simp [Holds, recordsLength]
  | cons record rest ih =>
    simp only [List.cons_append, Holds, recordsLength, ih, and_assoc, add_assoc]

theorem Holds.congr {d d' : Device} {records : List Bytes} (geo : d'.geo = d.geo)
    (same : ∀ a, pos ≤ a → a < pos + recordsLength d.geo.blockSz records → d'.mem a = d.mem a)
    (holds : Holds d pos records) : Holds d' pos records := by
  induction records generalizing pos with
  | nil => trivial
  | cons record rest ih =>
    obtain ⟨readable, bytes, tail⟩ := holds
    simp only [recordsLength] at same
    refine ⟨readable, ?_, ?_⟩
    · rw [geo, ← bytes]
      exact Memory.read_congr (fun a low high => same a low (by omega))
    · rw [geo]
      exact ih (fun a low high => same a (by omega) (by omega)) tail

end ZenFSProof
