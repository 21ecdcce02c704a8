import Mathlib.Algebra.Ring.Nat
import Mathlib.Data.List.AList

namespace KeyedTable

abbrev Table (κ α : Type) := AList (fun _ : κ => α)

namespace Table

open List

variable {κ α : Type}

def size (t : Table κ α) : Nat := t.entries.length

@[simp] theorem size_empty : size (∅ : Table κ α) = 0 := rfl

variable [DecidableEq κ]

variable {t : Table κ α} {k : κ}

theorem size_insert_new (fresh : k ∉ t) (v : α) : size (t.insert k v) = size t + 1 := by
  rw [size, AList.entries_insert_of_notMem fresh, length_cons, size]

theorem size_erase_mem (listed : k ∈ t) : size (t.erase k) + 1 = size t := by
  have keys : ∀ u : Table κ α, size u = u.keys.length := fun u => (length_map ..).symm
  have inside : k ∈ t.keys := AList.mem_keys.mp listed
  have some_left := length_pos_of_mem inside
  rw [keys, keys, AList.keys_erase, length_erase_of_mem inside]
  omega

theorem size_insert_mem (listed : k ∈ t) (v : α) : size (t.insert k v) = size t := by
  have erased := size_erase_mem listed
  rw [size, AList.entries_insert, length_cons]
  exact erased

def total (f : α → Nat) (t : Table κ α) : Nat := (t.entries.map (fun e => f e.2)).sum

def share (f : α → Nat) (t : Table κ α) (k : κ) : Nat := (t.lookup k).elim 0 f

theorem kerase_sum (f : α → Nat) (k : κ) (l : List (Σ _ : κ, α)) :
    ((l.kerase k).map (fun e => f e.2)).sum + (l.dlookup k).elim 0 f = (l.map (fun e => f e.2)).sum := by
  induction l with
  | nil => rfl
  | cons e l ih =>
    obtain ⟨k', v⟩ := e
    by_cases same : k = k'
    · subst same
      have first : (⟨k, v⟩ :: l : List (Σ _ : κ, α)).kerase k = l := kerase_cons_eq rfl
      rw [first, dlookup_cons_eq, map_cons, sum_cons, Option.elim_some]
      exact Nat.add_comm _ _
    · rw [kerase_cons_ne same, dlookup_cons_ne l ⟨k', v⟩ same, map_cons, map_cons,
        sum_cons, sum_cons, ← ih]
      exact Nat.add_assoc _ _ _

theorem total_insert (f : α → Nat) (t : Table κ α) (k : κ) (v : α) :
    total f (t.insert k v) + share f t k = total f t + f v := by
  have erased := kerase_sum f k t.entries
  simp only [total, share, AList.lookup, AList.entries_insert, map_cons, sum_cons]
  omega

end Table

end KeyedTable
