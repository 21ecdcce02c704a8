import Mathlib.Data.List.GetD
import Mathlib.Data.Multiset.AddSub
import Mathlib.Data.PNat.Notation
import ZonedStorage.Heaps.Sift
import ZonedStorage.Runs.Throughout

/-- The cache has no index where the source has the largest `size_t`, and it never has that of the root. -/
structure BinaryHeap (α : Type) where
  data : List α
  rootCmpCache : Option ℕ+

namespace BinaryHeap

open List

section

variable {α : Type} (lt : α → α → Prop) [DecidableRel lt]

def upheap (v : α) (data : List α) (index : Nat) : List α :=
  let parent := (index - 1) / 2
  if 0 < index ∧ Option.lt lt data[parent]? (some v) then upheap v (data.set index (data.getD parent v)) parent
  else data.set index v
termination_by index

def compareChildren (data : List α) (index : Nat) : { child : Nat // index < child } :=
  if Option.lt lt data[2 * index + 1]? data[2 * index + 2]? then ⟨2 * index + 2, by omega⟩
  else ⟨2 * index + 1, by omega⟩

def pickChild (cache : Option ℕ+) (data : List α) (index : Nat) : { child : Nat // index < child } :=
  match cache with
  | none => compareChildren lt data index
  | some known =>
    if root : index = 0 ∧ known < data.length then ⟨known, root.1 ▸ known.2⟩ else compareChildren lt data index

def downheap (cache : Option ℕ+) (v : α) (data : List α) (index : Nat) (pickedChild : Option ℕ+) : BinaryHeap α :=
  if 2 * index + 1 < data.length then
    let picked := pickChild lt cache data index
    let pickedChild := some ⟨picked, Nat.zero_lt_of_lt picked.2⟩
    if Option.lt lt (some v) data[picked.1]? then
      downheap cache v (data.set index (data.getD picked v)) picked pickedChild
    else ⟨data.set index v, if index = 0 then pickedChild else none⟩
  else ⟨data.set index v, if index = 0 then pickedChild else none⟩
termination_by data.length - index
decreasing_by
  have later := (pickChild lt cache data index).2
  rw [length_set]
  omega

inductive Call (α : Type) where
  | push (value : α)
  | replaceTop (value : α)
  | pop
  | clear

/-- On an empty heap `replaceTop` and `pop` are asserted not to be called. -/
def call (heap : BinaryHeap α) : Call α → BinaryHeap α
  | .push value => ⟨upheap lt value (heap.data ++ [value]) heap.data.length, none⟩
  | .replaceTop value => downheap lt heap.rootCmpCache value (heap.data.set 0 value) 0 none
  | .pop =>
    match heap.data with
    | [] => heap
    | _ :: rest =>
      match rest.getLast? with
      | none => ⟨[], none⟩
      | some back => downheap lt heap.rootCmpCache back (back :: rest.dropLast) 0 none
  | .clear => ⟨[], none⟩

end

section

open Heaps

variable {α : Type} {lt : α → α → Prop} {v : α} {data data' : List α} {index child : Nat} {cache : Option ℕ+}

theorem exchanged (inside : index < data.length) (below : child < data.length) (apart : index ≠ child) :
    ((data.set index (data.getD child v)).set child v).Perm (data.set index v) ∧
      Exchanged ((data.set index v)[·]?) (((data.set index (data.getD child v)).set child v)[·]?) index child := by
  rw [getD_eq_getElem _ _ below]
  constructor
  · have swapped := @List.set_set_perm _ (data.set index v) index child (by simpa) (by simpa)
    simpa [apart] using swapped
  · refine ⟨by simp [apart, apart.symm, inside, below], by simp [inside, below], ?_⟩
    intro j first second
    simp only [List.getElem?_set_ne first.symm, List.getElem?_set_ne second.symm]

theorem not_lt_outside {x : Option α} {j : Nat} (outside : data.length ≤ j) : ¬ Option.lt lt x data[j]? := by
  rw [List.getElem?_eq_none outside]
  cases x <;> exact id

def LargestChild (lt : α → α → Prop) (data : List α) (index child : Nat) : Prop :=
  parent child = index ∧ ∀ j, 0 < j → parent j = index → ¬ Option.lt lt data[child]? data[j]?

def CacheValid (lt : α → α → Prop) (data : List α) (cache : Option ℕ+) : Prop :=
  ∀ known ∈ cache, known < data.length → LargestChild lt data 0 known

def SameBelow (data data' : List α) : Prop := ∀ j, 0 < j → j < data'.length → data'[j]? = data[j]?

theorem LargestChild.set (largest : LargestChild lt data index child) (v : α) (below : index < child) :
    LargestChild lt (data.set index v) index child := by
  refine ⟨largest.1, fun j positive sibling => ?_⟩
  rw [List.getElem?_set_ne below.ne, List.getElem?_set_ne (sibling ▸ parent_lt positive).ne]
  exact largest.2 j positive sibling

structure Valid (lt : α → α → Prop) (heap : BinaryHeap α) : Prop where
  ordered : Ordered (Option.lt lt) (heap.data[·]?)
  cached : CacheValid lt heap.data heap.rootCmpCache

theorem Valid.empty : Valid lt ⟨[], none⟩ :=
  ⟨fun _ _ => id, fun _ cached => nomatch cached⟩

theorem CacheValid.of_same (valid : CacheValid lt data cache) (same : SameBelow data data') :
    CacheValid lt data' cache := by
  intro known cached inside
  have agrees := same known known.2 inside
  have before := List.getElem?_eq_some_iff.mp (agrees.symm.trans (List.getElem?_eq_getElem inside))
  obtain ⟨child, largest⟩ := valid known cached before.1
  refine ⟨child, fun j positive below => ?_⟩
  rcases Nat.lt_or_ge j data'.length with within | outside
  · rw [same j positive within, agrees]
    exact largest j positive below
  · exact not_lt_outside outside

variable [IsStrictWeakOrder α lt]

instance : IsStrictWeakOrder (Option α) (Option.lt lt) where
  irrefl := by
    rintro (_ | x) less
    · exact less
    · exact irrefl x less
  trans := by
    rintro (_ | x) (_ | y) (_ | z) xy yz <;> try trivial
    exact IsTrans.trans x y z xy yz
  incomp_trans := by
    rintro (_ | x) (_ | y) (_ | z) <;> simp [Option.lt]
    exact fun xy yx yz zy => IsStrictWeakOrder.incomp_trans x y z ⟨xy, yx⟩ ⟨yz, zy⟩

variable [DecidableRel lt]

theorem compareChildren_largest : LargestChild lt data index (compareChildren lt data index) := by
  have children : ∀ j, 0 < j → parent j = index → j = 2 * index + 1 ∨ j = 2 * index + 2 := by
    intro j positive below
    rw [parent] at below
    omega
  unfold compareChildren
  split
  case isTrue larger =>
    refine ⟨by simp only [parent]; omega, fun j positive below => ?_⟩
    rcases children j positive below with rfl | rfl
    · exact asymm larger
    · exact irrefl _
  case isFalse smaller =>
    refine ⟨by simp only [parent]; omega, fun j positive below => ?_⟩
    rcases children j positive below with rfl | rfl
    · exact irrefl _
    · exact smaller

theorem pickChild_largest (valid : index = 0 → CacheValid lt data cache) :
    LargestChild lt data index (pickChild lt cache data index) := by
  cases cache with
  | none => exact compareChildren_largest
  | some known =>
    rw [pickChild]
    by_cases root : index = 0 ∧ known < data.length
    · rw [dif_pos root]
      exact root.1 ▸ valid root.1 known rfl root.2
    · rw [dif_neg root]
      exact compareChildren_largest

theorem upheap_spec (inside : index < data.length) (rising : Rising (Option.lt lt) ((data.set index v)[·]?) index) :
    (upheap lt v data index).Perm (data.set index v) ∧ Ordered (Option.lt lt) ((upheap lt v data index)[·]?) := by
  have hole := @List.getElem?_set_self _ _ _ v inside
  fun_induction upheap lt v data index with
  | case1 data index above larger ih =>
    have shorter : above < index := parent_lt larger.1
    have moved := @exchanged _ v data index above inside (by omega) (by omega)
    have less : Option.lt lt (data.set index v)[above]? (data.set index v)[index]? := by
      rw [List.getElem?_set_ne (by omega), hole]
      exact larger.2
    have within : above < (data.set index (data.getD above v)).length := by
      rw [length_set]
      omega
    obtain ⟨perm, ordered⟩ := ih within (rising.move larger.1 less moved.2) (List.getElem?_set_self within)
    exact ⟨perm.trans moved.1, ordered⟩
  | case2 data index above stop =>
    refine ⟨.refl _, rising.settled (fun positive less => stop ⟨positive, ?_⟩)⟩
    rwa [List.getElem?_set_ne (parent_lt positive).ne', hole] at less

theorem downheap_spec {pickedChild : Option ℕ+} (inside : index < data.length)
    (sinking : Sinking (Option.lt lt) ((data.set index v)[·]?) index)
    (root : index = 0 → CacheValid lt data cache ∧ pickedChild = none) :
    (downheap lt cache v data index pickedChild).data.Perm (data.set index v) ∧
      Valid lt (downheap lt cache v data index pickedChild) := by
  have hole := @List.getElem?_set_self _ _ _ v inside
  fun_induction downheap lt cache v data index pickedChild with
  | case1 data index _ _ picked pickedChild larger ih =>
    have largest := (@pickChild_largest _ _ data index cache _ _ (fun zero => (root zero).1)).set v picked.2
    have within : picked < data.length := by
      by_contra outside
      exact not_lt_outside (Nat.le_of_not_lt outside) larger
    have moved := @exchanged _ v data index picked inside within picked.2.ne
    have within' : picked < (data.set index (data.getD picked v)).length := by rwa [length_set]
    rw [← hole, ← @List.getElem?_set_ne _ _ _ _ picked.2.ne v] at larger
    obtain ⟨perm, valid⟩ := ih within' (sinking.move (Nat.zero_lt_of_lt picked.2) largest.1 larger largest.2 moved.2)
      (fun zero => absurd picked.2 (by omega)) (List.getElem?_set_self within')
    exact ⟨perm.trans moved.1, valid⟩
  | case2 data index _ _ picked pickedChild stop =>
    have largest := (@pickChild_largest _ _ data index cache _ _ (fun zero => (root zero).1)).set v picked.2
    rw [← hole, ← @List.getElem?_set_ne _ _ _ _ picked.2.ne v] at stop
    refine ⟨.refl _, sinking.settled (fun j positive below => not_lt_trans stop (largest.2 j positive below)), ?_⟩
    intro known cached _
    split at cached
    case isTrue zero => exact Option.some.inj cached ▸ zero ▸ largest
    case isFalse => cases cached
  | case3 data index pickedChild leaf =>
    refine ⟨.refl _, sinking.settled (fun j positive below => not_lt_outside ?_), ?_⟩
    · rw [parent] at below
      rw [length_set]
      omega
    · intro known cached
      split at cached
      case isTrue zero => cases (root zero).2 ▸ cached
      case isFalse => cases cached

variable {heap : BinaryHeap α}

theorem Valid.push (valid : Valid lt heap) (value : α) :
    (heap.call lt (.push value)).data.Perm (value :: heap.data) ∧ Valid lt (heap.call lt (.push value)) := by
  have last : (heap.data ++ [value]).set heap.data.length value = heap.data ++ [value] := by simp
  have beyond : ∀ j, heap.data.length < j → (heap.data ++ [value]).length ≤ j := by
    intro j later
    rwa [length_append]
  have rising : Rising (Option.lt lt) ((heap.data ++ [value])[·]?) heap.data.length := by
    constructor
    · intro j positive apart
      have above := parent_lt positive
      rcases Nat.lt_or_gt_of_ne apart with within | outside
      · rw [List.getElem?_append_left within, List.getElem?_append_left (above.trans within)]
        exact valid.ordered j positive
      · exact not_lt_outside (beyond j outside)
    · intro j positive below _
      exact not_lt_outside (beyond j (below ▸ parent_lt positive))
  rw [← last] at rising
  obtain ⟨perm, ordered⟩ := upheap_spec (by simp) rising
  exact ⟨(perm.trans (.of_eq last)).trans (perm_append_singleton _ _), ordered, fun _ cached => nomatch cached⟩

theorem Valid.sift {rest : List α} (valid : Valid lt heap) (same : SameBelow heap.data (v :: rest)) :
    (downheap lt heap.rootCmpCache v (v :: rest) 0 none).data.Perm (v :: rest) ∧
      Valid lt (downheap lt heap.rootCmpCache v (v :: rest) 0 none) := by
  refine downheap_spec (Nat.succ_pos _) ⟨?_, fun _ _ _ root => absurd root (Nat.lt_irrefl 0)⟩
    (fun _ => ⟨valid.cached.of_same same, rfl⟩)
  intro j positive inner
  have above := parent_lt positive
  rcases Nat.lt_or_ge j (v :: rest).length with within | outside
  · rw [set_cons_zero, same j positive within, same _ (Nat.pos_of_ne_zero inner) (above.trans within)]
    exact valid.ordered j positive
  · exact not_lt_outside outside

/-- A heap, and what was put into it and not taken out again. -/
structure Held (α : Type) where
  heap : BinaryHeap α
  held : Multiset α

def Held.withoutTop [DecidableEq α] (s : Held α) : Multiset α :=
  match s.heap.data with
  | [] => s.held
  | top :: _ => s.held.erase top

def Held.call (lt : α → α → Prop) [DecidableRel lt] [DecidableEq α] (s : Held α) (call : Call α) : Held α where
  heap := s.heap.call lt call
  held := match call with
    | .push value => value ::ₘ s.held
    | .replaceTop value => value ::ₘ s.withoutTop
    | .pop => s.withoutTop
    | .clear => 0

def Allowed (s : Held α) : Call α → Prop
  | .replaceTop _ | .pop => s.heap.data ≠ []
  | .push _ | .clear => True

structure PriorityQueue (lt : α → α → Prop) (s : Held α) : Prop extends Valid lt s.heap where
  held : ↑s.heap.data = s.held
  top : ∀ top ∈ s.heap.data.head?, ∀ x ∈ s.held, ¬ lt top x

omit [DecidableRel lt] in
theorem Valid.priorityQueue (valid : Valid lt heap) {held : Multiset α} (same : ↑heap.data = held) :
    PriorityQueue lt ⟨heap, held⟩ := by
  refine ⟨valid, same, ?_⟩
  intro top first x stored
  obtain ⟨j, there⟩ := mem_iff_getElem?.mp (Multiset.mem_coe.mp (same ▸ stored))
  have maximal := valid.ordered.root j
  rw [there, ← head?_eq_getElem?, first] at maximal
  exact maximal

theorem PriorityQueue.step [DecidableEq α] {s : Held α} {call : Call α} (queue : PriorityQueue lt s)
    (allowed : Allowed s call) : PriorityQueue lt (s.call lt call) := by
  obtain ⟨⟨data, cache⟩, held⟩ := s
  obtain rfl : ↑data = held := queue.held
  have valid : Valid lt ⟨data, cache⟩ := queue.toValid
  cases call with
  | push value =>
    obtain ⟨perm, next⟩ := valid.push value
    exact next.priorityQueue (Multiset.coe_eq_coe.mpr perm)
  | clear => exact Valid.priorityQueue .empty rfl
  | replaceTop value =>
    cases data with
    | nil => exact absurd rfl allowed
    | cons top rest =>
      have same : SameBelow (top :: rest) (value :: rest) := by
        rintro (_ | j) positive _
        · exact absurd positive (Nat.lt_irrefl 0)
        · rfl
      obtain ⟨perm, next⟩ := valid.sift same
      refine next.priorityQueue ((Multiset.coe_eq_coe.mpr perm).trans ?_)
      exact congrArg (value ::ₘ ·) (Multiset.erase_cons_head top ↑rest).symm
  | pop =>
    cases data with
    | nil => exact absurd rfl allowed
    | cons top rest =>
      have without : (↑(top :: rest) : Multiset α).erase top = ↑rest := Multiset.erase_cons_head top ↑rest
      rcases eq_nil_or_concat' rest with rfl | ⟨front, back, rfl⟩
      · exact Valid.priorityQueue .empty without.symm
      · have same : SameBelow (top :: (front ++ [back])) (back :: front) := by
          rintro (_ | j) positive within
          · exact absurd positive (Nat.lt_irrefl 0)
          · exact (List.getElem?_append_left (Nat.lt_of_succ_lt_succ within)).symm
        obtain ⟨perm, next⟩ := valid.sift same
        have popped : BinaryHeap.call lt ⟨top :: (front ++ [back]), cache⟩ .pop =
            downheap lt cache back (back :: front) 0 none := by simp [BinaryHeap.call]
        rw [← popped] at perm next
        have kept := perm.trans (perm_append_singleton back front).symm
        exact next.priorityQueue ((Multiset.coe_eq_coe.mpr kept).trans without.symm)

/-- The heap is a priority queue after all calls, and its cache knows the larger child of the root. -/
theorem heap_is_priority_queue [DecidableEq α] {calls : List (Call α)}
    (allowed : Runs.EachStep (Held.call lt) Allowed ⟨⟨[], none⟩, 0⟩ calls) :
    Runs.Throughout (Held.call lt) (PriorityQueue lt) ⟨⟨[], none⟩, 0⟩ calls :=
  Runs.throughout_of_step (fun _ _ queue => queue.step)
    (Valid.priorityQueue .empty rfl) allowed

def pushedAndReplaced : List (Call Nat) := [.push 1, .push 3, .push 2, .replaceTop 4, .replaceTop 0, .pop]

theorem pushed_heap_is_priority_queue :
    Runs.Throughout (Held.call (· < ·)) (PriorityQueue (· < ·)) ⟨⟨[], none⟩, 0⟩ pushedAndReplaced ∧
    (pushedAndReplaced.foldl (Held.call (· < ·)) ⟨⟨[], none⟩, 0⟩).heap.data = [1, 0] := by
  have order : IsStrictWeakOrder Nat (· < ·) := isStrictWeakOrder_of_isOrderConnected
  have allowed : Runs.EachStep (Held.call (· < ·)) Allowed ⟨⟨[], none⟩, 0⟩ pushedAndReplaced :=
    ⟨trivial, trivial, trivial, isEmpty_eq_false_iff.mp (by decide +kernel),
      isEmpty_eq_false_iff.mp (by decide +kernel), isEmpty_eq_false_iff.mp (by decide +kernel), trivial⟩
  exact ⟨heap_is_priority_queue allowed, by decide +kernel⟩

end

end BinaryHeap
