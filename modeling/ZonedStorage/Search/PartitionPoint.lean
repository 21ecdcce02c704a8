import Mathlib.Data.List.TakeWhile

namespace Search

open List

variable {α : Type} {p : α → Bool}

/-- The halving loop of `std::lower_bound` and `std::upper_bound`: `p` holds of what stands before the point. -/
def partitionLoop (p : α → Bool) (items : List α) (first len : Nat) : Nat :=
  if len = 0 then first
  else
    match items[first + len / 2]? with
    | some item =>
      if p item then partitionLoop p items (first + len / 2 + 1) (len - len / 2 - 1)
      else partitionLoop p items first (len / 2)
    | none => first
termination_by len

def partitionPoint (p : α → Bool) (items : List α) : Nat := partitionLoop p items 0 items.length

theorem partitionLoop_append {before after : List α} (here : ∀ item ∈ before, p item = true)
    (there : ∀ item ∈ after, p item = false) {first len : Nat} (low : first ≤ before.length)
    (high : before.length ≤ first + len) (within : first + len ≤ (before ++ after).length) :
    partitionLoop p (before ++ after) first len = before.length := by
  induction len using Nat.strongRecOn generalizing first with
  | ind len ih =>
    rw [partitionLoop]
    split
    · omega
    · rename_i nonempty
      have inside : first + len / 2 < (before ++ after).length := by omega
      rw [getElem?_eq_getElem inside]
      by_cases left : first + len / 2 < before.length
      · have holds : p (before ++ after)[first + len / 2] = true := by
          rw [getElem_append_left left]
          exact here _ (getElem_mem left)
        simp only [holds, if_true]
        exact ih (len - len / 2 - 1) (by omega) (by omega) (by omega) (by omega)
      · have fails : p (before ++ after)[first + len / 2] = false := by
          rw [getElem_append_right (Nat.le_of_not_lt left)]
          exact there _ (getElem_mem _)
        simp only [fails, Bool.false_eq_true, if_false]
        exact ih (len / 2) (by omega) low (by omega) (by omega)

variable {items : List α}

theorem mem_dropWhile {item : α} (listed : item ∈ items) (fails : p item = false) : item ∈ items.dropWhile p := by
  rw [← takeWhile_append_dropWhile (p := p) (l := items)] at listed
  refine (mem_append.mp listed).resolve_left (fun taken => ?_)
  rw [mem_takeWhile_imp taken] at fails
  cases fails

section

variable (ordered : items.Pairwise (fun a b => p b = true → p a = true))

include ordered

theorem dropWhile_false : ∀ item ∈ items.dropWhile p, p item = false := by
  induction items with
  | nil => exact fun _ listed => absurd listed not_mem_nil
  | cons first items ih =>
    obtain ⟨earlier, rest⟩ := pairwise_cons.mp ordered
    cases holds : p first with
    | true =>
      rw [dropWhile_cons_of_pos holds]
      exact ih rest
    | false =>
      rw [dropWhile_cons_of_neg (by rw [holds]; exact Bool.false_ne_true)]
      intro item listed
      rcases mem_cons.mp listed with rfl | later
      · exact holds
      · by_contra yes
        rw [Bool.not_eq_false] at yes
        rw [earlier item later yes] at holds
        cases holds

theorem partitionPoint_eq : partitionPoint p items = (items.takeWhile p).length := by
  have parts : items.takeWhile p ++ items.dropWhile p = items := takeWhile_append_dropWhile
  have fits : (items.takeWhile p).length ≤ items.length := (takeWhile_sublist p).length_le
  have found : partitionLoop p (items.takeWhile p ++ items.dropWhile p) 0 items.length =
      (items.takeWhile p).length := by
    apply partitionLoop_append (fun item listed => mem_takeWhile_imp listed) (dropWhile_false ordered)
    · omega
    · omega
    · rw [parts]
      omega
  rw [parts] at found
  exact found

theorem drop_partitionPoint : items.drop (partitionPoint p items) = items.dropWhile p := by
  rw [partitionPoint_eq ordered]
  have parts : items.takeWhile p ++ items.dropWhile p = items := takeWhile_append_dropWhile
  calc items.drop (items.takeWhile p).length
      = (items.takeWhile p ++ items.dropWhile p).drop (items.takeWhile p).length := by rw [parts]
    _ = items.dropWhile p := drop_left

theorem head?_drop_partitionPoint :
    (items.drop (partitionPoint p items)).head? = items.find? (fun item => !p item) := by
  rw [drop_partitionPoint ordered, find?_not_eq_head?_dropWhile]

theorem getElem?_partitionPoint : items[partitionPoint p items]? = items.find? (fun item => !p item) := by
  rw [← head?_drop, head?_drop_partitionPoint ordered]

theorem filter_eq_takeWhile : items.filter p = items.takeWhile p := by
  have parts : items.takeWhile p ++ items.dropWhile p = items := takeWhile_append_dropWhile
  have there : (items.dropWhile p).filter p = [] := by
    rw [filter_eq_nil_iff]
    intro item member holds
    rw [dropWhile_false ordered item member] at holds
    cases holds
  calc items.filter p
      = (items.takeWhile p ++ items.dropWhile p).filter p := by rw [parts]
    _ = items.takeWhile p := by
        rw [filter_append, there, append_nil, filter_eq_self]
        exact fun item member => mem_takeWhile_imp member

theorem mem_takeWhile {item : α} (listed : item ∈ items) (holds : p item = true) : item ∈ items.takeWhile p := by
  rw [← filter_eq_takeWhile ordered]
  exact mem_filter.mpr ⟨listed, holds⟩

theorem getLast?_filter_eq : (items.filter p).getLast? =
      match partitionPoint p items with
      | 0 => none
      | point + 1 => items[point]? := by
  rw [filter_eq_takeWhile ordered, getLast?_eq_getElem?, partitionPoint_eq ordered]
  cases length : (items.takeWhile p).length with
  | zero =>
    rw [length_eq_zero_iff.mp length]
    rfl
  | succ point =>
    have parts : items.takeWhile p ++ items.dropWhile p = items := takeWhile_append_dropWhile
    have inside : point < (items.takeWhile p).length := by omega
    change (items.takeWhile p)[point]? = items[point]?
    calc (items.takeWhile p)[point]?
        = (items.takeWhile p ++ items.dropWhile p)[point]? := (getElem?_append_left inside).symm
      _ = items[point]? := by rw [parts]

end

end Search
