import Mathlib.Data.Nat.Digits.Lemmas
import ZonedStorage.File.ZoneFile

namespace ZenFSModel

open ByteString

abbrev HintMap := Std.ExtTreeMap Name WriteLifeTimeHint

def isSpace (c : UInt8) : Bool := c == 0x20 || (0x09 ≤ c && c ≤ 0x0d)

def isDigit (c : UInt8) : Bool := 0x30 ≤ c && c ≤ 0x39

def decimal (value : Nat) : Bytes :=
  if value = 0 then [0x30] else (Nat.digits 10 value).reverse.map (fun digit => 0x30 + UInt8.ofNat digit)

/-- `>>` into a string. -/
def readWord (input : Bytes) : Option (Bytes × Bytes) :=
  match input.dropWhile isSpace with
  | [] => none
  | rest => some (rest.takeWhile (fun c => !isSpace c), rest.dropWhile (fun c => !isSpace c))

def readSign : Bytes → Bool × Bytes
  | 0x2d :: rest => (true, rest)
  | 0x2b :: rest => (false, rest)
  | rest => (false, rest)

def digitsValue (digits : Bytes) : Nat := digits.foldl (fun value c => 10 * value + (c - 0x30).toNat) 0

/-- `>>` into a `uint32_t`, which negates what follows a minus sign and fails on what does not fit. -/
def readUInt32 (input : Bytes) : Option (UInt32 × Bytes) :=
  let (negative, rest) := readSign (input.dropWhile isSpace)
  let digits := rest.takeWhile isDigit
  if digits = [] ∨ 2 ^ 32 ≤ digitsValue digits then none
  else
    let value := UInt32.ofNat (digitsValue digits)
    some (if negative then -value else value, rest.dropWhile isDigit)

def hintLine (entry : Name × WriteLifeTimeHint) : Bytes :=
  entry.1 ++ 0x09 :: (decimal entry.2.value.toNat ++ [0x0a])

def saveWriteLifeTimeHints (wlthMap : HintMap) : Bytes := wlthMap.toList.flatMap hintLine

def readHintPairs : Nat → Bytes → HintMap → HintMap
  | 0, _, wlthMap => wlthMap
  | rounds + 1, input, wlthMap =>
    match readWord input with
    | none => wlthMap
    | some (filename, rest) =>
      match readUInt32 rest with
      | none => wlthMap
      | some (lth, rest) => readHintPairs rounds rest (wlthMap.insertIfNew filename ⟨lth⟩)

/-- Every pair that is read takes at least one byte of the file. -/
def readWriteLifeTimeHints (file : Bytes) (wlthMap : HintMap) : HintMap := readHintPairs file.length file wlthMap

end ZenFSModel

namespace ZenFSProof

open ByteString ZenFSModel List

def IsWord (name : Name) : Prop := name ≠ [] ∧ ∀ c ∈ name, isSpace c = false

instance (name : Name) : Decidable (IsWord name) := inferInstanceAs (Decidable (_ ∧ _))

theorem decimal_digits (value : Nat) : ∀ c ∈ decimal value, isDigit c = true := by
  intro c written
  unfold decimal at written
  split at written
  · obtain rfl := mem_singleton.mp written
    rfl
  · obtain ⟨digit, listed, rfl⟩ := mem_map.mp written
    have small : digit < 10 := Nat.digits_lt_base (by decide) (mem_reverse.mp listed)
    interval_cases digit <;> rfl

theorem decimal_ne_nil (value : Nat) : decimal value ≠ [] := by
  unfold decimal
  split
  · exact cons_ne_nil _ _
  · rename_i positive
    simpa [Nat.digits_eq_nil_iff_eq_zero] using positive

theorem digitsValue_decimal (value : Nat) : digitsValue (decimal value) = value := by
  unfold decimal
  split
  · rename_i zero
    rw [zero]
    rfl
  · have back : ∀ digits : List Nat, (∀ digit ∈ digits, digit < 10) →
        (digits.reverse.map (fun digit => 0x30 + UInt8.ofNat digit)).foldl
          (fun value (c : UInt8) => 10 * value + (c - 0x30).toNat) 0 = Nat.ofDigits 10 digits := by
      intro digits small
      induction digits with
      | nil => rfl
      | cons digit rest ih =>
        have single : ((0x30 + UInt8.ofNat digit : UInt8) - 0x30).toNat = digit := by
          have bound := small digit mem_cons_self
          interval_cases digit <;> rfl
        rw [reverse_cons, map_append, foldl_append,
          ih (fun other listed => small other (mem_cons_of_mem _ listed)), Nat.ofDigits_cons]
        simp only [map_cons, map_nil, foldl_cons, foldl_nil, single]
        exact Nat.add_comm _ _
    rw [digitsValue, back _ (fun digit listed => Nat.digits_lt_base (by decide) listed), Nat.ofDigits_digits]

theorem takeWhile_stop {p : UInt8 → Bool} {taken rest : Bytes} (all : ∀ c ∈ taken, p c = true)
    (stop : rest.head?.all (fun c => !p c) = true) :
    (taken ++ rest).takeWhile p = taken ∧ (taken ++ rest).dropWhile p = rest := by
  rw [takeWhile_append_of_pos all, dropWhile_append_of_pos all]
  cases rest with
  | nil => simp
  | cons c rest =>
    have ends : p c = false := by simpa using stop
    simp [ends]

theorem isDigit_notSpace {c : UInt8} (digit : isDigit c = true) : isSpace c = false := by
  simp only [isDigit, isSpace, Bool.and_eq_true, decide_eq_true_eq, Bool.or_eq_false_iff, beq_eq_false_iff_ne,
    Bool.and_eq_false_iff, decide_eq_false_iff_not, UInt8.le_iff_toNat_le] at digit ⊢
  refine ⟨?_, Or.inr ?_⟩
  · rintro rfl
    exact absurd digit.1 (by decide)
  · intro low
    have first := digit.1
    have second : (0x0d : UInt8).toNat < (0x30 : UInt8).toNat := by decide
    omega

theorem readUInt32_decimal (value : UInt32) (rest : Bytes) :
    readUInt32 (0x09 :: (decimal value.toNat ++ 0x0a :: rest)) = some (value, 0x0a :: rest) := by
  obtain ⟨c, digits, shape⟩ := exists_cons_of_ne_nil (decimal_ne_nil value.toNat)
  have digit : isDigit c = true := decimal_digits value.toNat c (shape ▸ mem_cons_self)
  have skipped : (0x09 :: (decimal value.toNat ++ 0x0a :: rest)).dropWhile isSpace =
      decimal value.toNat ++ 0x0a :: rest := by
    rw [dropWhile_cons_of_pos rfl, shape, cons_append,
      dropWhile_cons_of_neg (by rw [isDigit_notSpace digit]; exact Bool.false_ne_true)]
  have unsigned : readSign (decimal value.toNat ++ 0x0a :: rest) = (false, decimal value.toNat ++ 0x0a :: rest) := by
    rw [shape, cons_append]
    unfold readSign
    split
    · rename_i same
      cases same
      exact absurd digit (by decide)
    · rename_i same
      cases same
      exact absurd digit (by decide)
    · rfl
  have newline : (0x0a :: rest).head?.all (fun c => !isDigit c) = true := rfl
  obtain ⟨taken, dropped⟩ := takeWhile_stop (decimal_digits value.toNat) newline
  simp only [readUInt32, skipped, unsigned, taken, dropped, digitsValue_decimal]
  rw [if_neg (by simpa using ⟨decimal_ne_nil value.toNat, value.toNat_lt⟩)]
  simp

section

variable {name : Name}

theorem readWord_name (word : IsWord name) (rest : Bytes) (space : rest.head?.all isSpace = true) :
    readWord (name ++ rest) = some (name, rest) := by
  obtain ⟨c, cs, rfl⟩ := exists_cons_of_ne_nil word.1
  have first : isSpace c = false := word.2 c mem_cons_self
  have begun : (c :: cs ++ rest).dropWhile isSpace = c :: cs ++ rest := by
    rw [cons_append, dropWhile_cons_of_neg (by rw [first]; exact Bool.false_ne_true)]
  have solid : ∀ d ∈ c :: cs, (!isSpace d) = true := by
    intro d listed
    rw [word.2 d listed]
    rfl
  obtain ⟨taken, dropped⟩ := takeWhile_stop solid (by simpa using space)
  unfold readWord
  rw [begun]
  exact congrArg some (Prod.ext taken dropped)

theorem readWord_newline (input : Bytes) : readWord (0x0a :: input) = readWord input := by
  unfold readWord
  rw [dropWhile_cons_of_pos rfl]

theorem isWord_readWord {input rest : Bytes} (read : readWord input = some (name, rest)) : IsWord name := by
  unfold readWord at read
  split at read
  · cases read
  · rename_i begun
    obtain ⟨rfl, rfl⟩ := Prod.mk.inj (Option.some.inj read)
    refine ⟨?_, fun c listed => by simpa using all_eq_true.mp all_takeWhile c listed⟩
    obtain ⟨c, cs, shape⟩ := exists_cons_of_ne_nil begun
    have first : isSpace c = false := by
      have stopped := head?_dropWhile_not isSpace input
      rw [shape] at stopped
      simpa using stopped
    rw [shape, takeWhile_cons_of_pos (by rw [first]; rfl)]
    exact cons_ne_nil _ _

theorem readHintPairs_words (rounds : Nat) (input : Bytes) {wlthMap : HintMap}
    (words : ∀ name ∈ wlthMap, IsWord name) : ∀ name ∈ readHintPairs rounds input wlthMap, IsWord name := by
  induction rounds generalizing input wlthMap with
  | zero => exact words
  | succ rounds ih =>
    unfold readHintPairs
    split
    · exact words
    · rename_i filename rest read
      split
      · exact words
      · refine ih _ (fun name listed => ?_)
        rcases Std.ExtTreeMap.mem_insertIfNew.mp listed with same | earlier
        · rw [← Std.LawfulEqCmp.eq_of_compare same]
          exact isWord_readWord read
        · exact words name earlier

end

section

variable {entries : List (Name × WriteLifeTimeHint)}

theorem readHintPairs_lines (words : ∀ entry ∈ entries, IsWord entry.1) (rounds : Nat)
    (enough : entries.length ≤ rounds) (gap : Bytes) (spaces : gap = [] ∨ gap = [0x0a]) (wlthMap : HintMap) :
    readHintPairs rounds (gap ++ entries.flatMap hintLine) wlthMap =
      entries.foldl (fun hints entry => hints.insertIfNew entry.1 entry.2) wlthMap := by
  induction entries generalizing rounds gap wlthMap with
  | nil =>
    cases rounds with
    | zero => rfl
    | succ rounds =>
      rcases spaces with rfl | rfl
      · rfl
      · rfl
  | cons entry entries ih =>
    obtain ⟨rounds, rfl⟩ : ∃ fewer, rounds = fewer + 1 := ⟨rounds - 1, by simp only [length_cons] at enough; omega⟩
    have skip : ∀ input, readWord (gap ++ input) = readWord input := by
      rcases spaces with rfl | rfl
      · exact fun _ => rfl
      · exact readWord_newline
    have line : (entry :: entries).flatMap hintLine =
        entry.1 ++ 0x09 :: (decimal entry.2.value.toNat ++ 0x0a :: entries.flatMap hintLine) := by
      rw [flatMap_cons, hintLine]
      simp
    have later := ih (fun other listed => words other (mem_cons_of_mem _ listed)) rounds
      (by simpa using enough) [0x0a] (Or.inr rfl)
    rw [line, readHintPairs, skip, readWord_name (words entry mem_cons_self) _ rfl]
    simp only [readUInt32_decimal]
    exact later _

theorem mem_foldl_insertIfNew (distinct : entries.Pairwise (fun a b => a.1 ≠ b.1)) {wlthMap : HintMap}
    (fresh : ∀ entry ∈ entries, entry.1 ∉ wlthMap) (name : Name) (hint : WriteLifeTimeHint) :
    (entries.foldl (fun hints entry => hints.insertIfNew entry.1 entry.2) wlthMap)[name]? = some hint ↔
      wlthMap[name]? = some hint ∨ (name, hint) ∈ entries := by
  induction entries generalizing wlthMap with
  | nil => simp
  | cons entry entries ih =>
    obtain ⟨apart, distinct⟩ := pairwise_cons.mp distinct
    have new := fresh entry mem_cons_self
    have rest : ∀ other ∈ entries, other.1 ∉ wlthMap.insertIfNew entry.1 entry.2 := by
      intro other listed held
      rcases Std.ExtTreeMap.mem_insertIfNew.mp held with same | earlier
      · exact apart other listed (Std.LawfulEqCmp.eq_of_compare same)
      · exact fresh other (mem_cons_of_mem _ listed) earlier
    rw [foldl_cons, ih distinct rest, Std.ExtTreeMap.getElem?_insertIfNew]
    by_cases same : name = entry.1
    · subst same
      have single : (entry.1, hint) ∉ entries := fun listed => apart _ listed rfl
      simp [new, single, Prod.ext_iff, eq_comm]
    · have other : ¬ (compare entry.1 name = .eq ∧ entry.1 ∉ wlthMap) :=
        fun held => same (Std.LawfulEqCmp.eq_of_compare held.1).symm
      rw [if_neg other]
      simp [Prod.ext_iff, same]

theorem foldl_toList (hints : HintMap) :
    hints.toList.foldl (fun hints entry => hints.insertIfNew entry.1 entry.2) ∅ = hints := by
  have distinct : hints.toList.Pairwise (fun a b => a.1 ≠ b.1) := by
    refine Std.ExtTreeMap.distinct_keys_toList.imp (fun apart same => apart ?_)
    rw [same]
    exact Std.ReflCmp.compare_self
  refine Std.ExtTreeMap.ext_getElem? (fun name => Option.ext (fun hint => ?_))
  rw [mem_foldl_insertIfNew distinct (fun _ _ => Std.ExtTreeMap.not_mem_empty), Std.ExtTreeMap.getElem?_empty,
    Std.ExtTreeMap.mem_toList_iff_getElem?_eq_some]
  simp

end

/-- The hints that are read back are those that were written exactly if no name is empty or has white space in it. -/
theorem hints_survive_backup_iff (hints : HintMap) :
    readWriteLifeTimeHints (saveWriteLifeTimeHints hints) ∅ = hints ↔ ∀ name ∈ hints, IsWord name := by
  constructor
  · intro back name listed
    rw [← back] at listed
    refine readHintPairs_words _ _ (fun name held => ?_) name listed
    exact absurd held Std.ExtTreeMap.not_mem_empty
  · intro words
    have each : ∀ entry ∈ hints.toList, IsWord entry.1 := by
      intro entry listed
      refine words entry.1 (Std.ExtTreeMap.mem_iff_isSome_getElem?.mpr ?_)
      rw [Std.ExtTreeMap.mem_toList_iff_getElem?_eq_some.mp listed]
      rfl
    have enough : ∀ entries : List (Name × WriteLifeTimeHint), entries.length ≤ (entries.flatMap hintLine).length := by
      intro entries
      induction entries with
      | nil => exact Nat.le_refl _
      | cons entry entries ih =>
        simp only [flatMap_cons, length_append, length_cons, hintLine]
        omega
    exact (readHintPairs_lines each _ (enough _) [] (Or.inl rfl) ∅).trans (foldl_toList hints)

def spacedHints : HintMap := (∅ : HintMap).insertIfNew [0x2f, 0x61, 0x20, 0x62] .medium

theorem spaced_name_lost : readWriteLifeTimeHints (saveWriteLifeTimeHints spacedHints) ∅ ≠ spacedHints := by
  intro back
  have held : [0x2f, 0x61, 0x20, 0x62] ∈ spacedHints := Std.ExtTreeMap.mem_insertIfNew.mpr (Or.inl rfl)
  rw [← back] at held
  have word := readHintPairs_words _ _ (fun _ listed => absurd listed Std.ExtTreeMap.not_mem_empty) _ held
  exact absurd word (by decide)

end ZenFSProof
