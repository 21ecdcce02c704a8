import Mathlib.Order.Defs.Unbundled

namespace Heaps

variable {β : Type} {lt : β → β → Prop} {g g' : Nat → β} {i c : Nat}

def parent (j : Nat) : Nat := (j - 1) / 2

def Ordered (lt : β → β → Prop) (g : Nat → β) : Prop := ∀ j, 0 < j → ¬ lt (g (parent j)) (g j)

structure Rising (lt : β → β → Prop) (g : Nat → β) (i : Nat) : Prop where
  ordered : ∀ j, 0 < j → j ≠ i → ¬ lt (g (parent j)) (g j)
  across : ∀ j, 0 < j → parent j = i → 0 < i → ¬ lt (g (parent i)) (g j)

structure Sinking (lt : β → β → Prop) (g : Nat → β) (i : Nat) : Prop where
  ordered : ∀ j, 0 < j → parent j ≠ i → ¬ lt (g (parent j)) (g j)
  across : ∀ j, 0 < j → parent j = i → 0 < i → ¬ lt (g (parent i)) (g j)

structure Exchanged (g g' : Nat → β) (i c : Nat) : Prop where
  first : g' i = g c
  second : g' c = g i
  others : ∀ j, j ≠ i → j ≠ c → g' j = g j

theorem parent_lt {j : Nat} (positive : 0 < j) : parent j < j := by
  rw [parent]
  omega

theorem Rising.settled (rising : Rising lt g i) (stop : 0 < i → ¬ lt (g (parent i)) (g i)) : Ordered lt g := by
  intro j positive
  by_cases here : j = i
  · exact here ▸ stop (here ▸ positive)
  · exact rising.ordered j positive here

theorem Sinking.settled (sinking : Sinking lt g i) (stop : ∀ j, 0 < j → parent j = i → ¬ lt (g i) (g j)) :
    Ordered lt g := by
  intro j positive
  by_cases below : parent j = i
  · exact below ▸ stop j positive below
  · exact sinking.ordered j positive below

variable [IsStrictWeakOrder β lt]

theorem not_lt_trans {x y z : β} (xy : ¬ lt x y) (yz : ¬ lt y z) : ¬ lt x z := by
  intro xz
  have zy : ¬ lt z y := fun zy => xy (IsTrans.trans _ _ _ xz zy)
  have yx : ¬ lt y x := fun yx => yz (IsTrans.trans _ _ _ yx xz)
  exact (IsStrictWeakOrder.incomp_trans x y z ⟨xy, yx⟩ ⟨yz, zy⟩).1 xz

theorem Ordered.root (ordered : Ordered lt g) (j : Nat) : ¬ lt (g 0) (g j) := by
  induction j using Nat.strongRecOn with
  | ind j ih =>
    rcases Nat.eq_zero_or_pos j with zero | positive
    · exact zero ▸ irrefl _
    · exact not_lt_trans (ih _ (parent_lt positive)) (ordered j positive)

theorem Rising.move (rising : Rising lt g i) (positive : 0 < i) (larger : lt (g (parent i)) (g i))
    (exchanged : Exchanged g g' i (parent i)) : Rising lt g' (parent i) := by
  have above := parent_lt positive
  constructor
  · intro j later apart
    by_cases here : j = i
    · rw [here, exchanged.first, exchanged.second]
      exact asymm larger
    rw [exchanged.others j here apart]
    by_cases child : parent j = i
    · rw [child, exchanged.first]
      exact rising.across j later child positive
    by_cases sibling : parent j = parent i
    · rw [sibling, exchanged.second]
      intro more
      exact rising.ordered j later here (sibling ▸ IsTrans.trans _ _ _ larger more)
    · rw [exchanged.others _ child sibling]
      exact rising.ordered j later here
  · intro j later sibling inner
    have upper := parent_lt inner
    have first := rising.ordered (parent i) inner (by omega)
    rw [exchanged.others (parent (parent i)) (by omega) (by omega)]
    by_cases here : j = i
    · rwa [here, exchanged.first]
    · have apart : j ≠ parent i := fun same => absurd (parent_lt later) (by rw [sibling, same]; omega)
      rw [exchanged.others j here apart]
      exact not_lt_trans first (sibling ▸ rising.ordered j later here)

theorem Sinking.move (sinking : Sinking lt g i) (positive : 0 < c) (child : parent c = i) (larger : lt (g i) (g c))
    (largest : ∀ j, 0 < j → parent j = i → ¬ lt (g c) (g j)) (exchanged : Exchanged g g' i c) : Sinking lt g' c := by
  have below := child ▸ parent_lt positive
  constructor
  · intro j later apart
    by_cases picked : j = c
    · rw [picked, child, exchanged.first, exchanged.second]
      exact asymm larger
    by_cases sibling : parent j = i
    · have lower := parent_lt later
      rw [sibling, exchanged.first, exchanged.others j (by omega) picked]
      exact largest j later sibling
    rw [exchanged.others _ sibling apart]
    by_cases here : j = i
    · rw [here, exchanged.first]
      exact sinking.across c positive child (here ▸ later)
    · rw [exchanged.others j here picked]
      exact sinking.ordered j later sibling
  · intro j later grandchild _
    have lower := parent_lt later
    rw [child, exchanged.first, exchanged.others j (by omega) (by omega)]
    exact grandchild ▸ sinking.ordered j later (by omega)

end Heaps
