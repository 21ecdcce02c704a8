import ZonedStorage.Bytes.LittleEndian

namespace ByteString

abbrev Memory := Nat → UInt8

namespace Memory

open List

def zero : Memory := fun _ => 0

def read (memory : Memory) : Nat → Nat → Bytes
  | _, 0 => []
  | address, count + 1 => memory address :: read memory (address + 1) count

def write (memory : Memory) (address : Nat) (bytes : Bytes) : Memory := fun a =>
  if a < address then memory a else (bytes[a - address]?).getD (memory a)

def clear (memory : Memory) (first last : Nat) : Memory := fun a =>
  if first ≤ a ∧ a < last then 0 else memory a

variable (memory other : Memory)

@[simp] theorem read_length (address count : Nat) : (memory.read address count).length = count := by
  induction count generalizing address with
  | zero => rfl
  | succ count ih => simp only [read, length_cons, ih]

theorem read_getElem? (address count i : Nat) :
    (memory.read address count)[i]? = if i < count then some (memory (address + i)) else none := by
  induction count generalizing address i with
  | zero => simp [read]
  | succ count ih =>
    cases i with
    | zero => simp [read]
    | succ i =>
      simp only [read, getElem?_cons_succ, ih, Nat.add_lt_add_iff_right]
      rw [Nat.add_right_comm, Nat.add_assoc]

theorem read_add (address count more : Nat) :
    memory.read address (count + more) = memory.read address count ++ memory.read (address + count) more := by
  induction count generalizing address with
  | zero => simp [read]
  | succ count ih =>
    rw [Nat.succ_add]
    simp only [read, ih, cons_append]
    rw [Nat.add_right_comm, Nat.add_assoc]

variable {address count first a : Nat}

theorem read_drop_take {more : Nat} (within : first + more ≤ count) :
    ((memory.read address count).drop first).take more = memory.read (address + first) more := by
  obtain ⟨rest, rfl⟩ := Nat.exists_eq_add_of_le within
  rw [read_add, read_add, append_assoc, drop_left' (read_length memory _ _),
    take_left' (read_length memory _ _)]

variable {memory other}

theorem read_congr (same : ∀ a, address ≤ a → a < address + count → memory a = other a) :
    memory.read address count = other.read address count := by
  induction count generalizing address with
  | zero => rfl
  | succ count ih =>
    have head := same address (by omega) (by omega)
    have tail : memory.read (address + 1) count = other.read (address + 1) count :=
      ih (fun a low high => same a (by omega) (by omega))
    simp only [read, head, tail]

theorem write_outside {bytes : Bytes}
    (outside : a < address ∨ address + bytes.length ≤ a) : memory.write address bytes a = memory a := by
  simp only [write]
  split
  · rfl
  · have beyond : bytes.length ≤ a - address := by omega
    rw [getElem?_eq_none beyond, Option.getD_none]

theorem read_write_outside {bytes : Bytes} (outside : first + count ≤ address ∨ address + bytes.length ≤ first) :
    (memory.write address bytes).read first count = memory.read first count :=
  read_congr (fun _ _ _ => write_outside (by omega))

@[simp] theorem read_write (address : Nat) (bytes : Bytes) :
    (memory.write address bytes).read address bytes.length = bytes := by
  apply ext_getElem?
  intro i
  rw [read_getElem?]
  split
  · rename_i inside
    have same : address + i - address = i := by omega
    simp only [write, same, getElem?_eq_getElem inside, Option.getD_some]
    rw [if_neg (by omega)]
  · rename_i outside
    exact (getElem?_eq_none (by omega)).symm

@[simp] theorem write_nil (address : Nat) : memory.write address [] = memory := by
  funext a
  exact write_outside (by simp only [length_nil]; omega)

theorem write_append (address : Nat) (first second : Bytes) : memory.write address (first ++ second) =
      (memory.write address first).write (address + first.length) second := by
  funext a
  simp only [write]
  by_cases before : a < address
  · simp [before, show a < address + first.length by omega]
  · by_cases inside : a < address + first.length
    · have index : a - address < first.length := by omega
      simp only [if_neg before, if_pos inside, getElem?_append_left index]
    · have index : first.length ≤ a - address := by omega
      have shift : a - address - first.length = a - (address + first.length) := by omega
      simp only [if_neg before, if_neg inside, getElem?_append_right index, shift,
        getElem?_eq_none index, Option.getD_none]

theorem clear_outside {last : Nat} (outside : a < first ∨ last ≤ a) :
    memory.clear first last a = memory a := if_neg (by omega)

end Memory

end ByteString
