import ZonedStorage.Remap.RemapTable

namespace RbcProof

open KeyedTable Rbc Function RemapTable Table

/-- What the calls have asked the table to keep: of every address the last mapping added and not removed. -/
abbrev Mapping := UInt64 → Option (UInt64 × UInt32)

def Mapping.after (m : Mapping) : RemapOp → Mapping
  | .add _ logicalAddr physicalAddr size => update m logicalAddr (some (physicalAddr, size))
  | .lookup _ _ => m
  | .remove logicalAddr => update m logicalAddr none

/-- The table answers as it was asked to, and keeps its size and its bound. -/
structure Agrees (t : RemapTable) (m : Mapping) : Prop where
  found : ∀ now a, (t.lookup now a).1 = m a
  counted : t.totalRemappedBlocks.toNat = Table.size t.table
  within : Table.size t.table ≤ t.maxEntries.toNat

/-- At all times of a sequence of calls the table agrees with what it was asked, and no call dereferences an
    iterator into an empty table. -/
def Faithful (walk : Walk) (t : RemapTable) (m : Mapping) : List RemapOp → Prop
  | [] => Agrees t m
  | op :: ops => Agrees t m ∧ ∃ t', t.step walk op = some t' ∧ Faithful walk t' (m.after op) ops

/-- There is room for the mapping a call adds, and none for its address yet. -/
def Fits (t : RemapTable) : RemapOp → Prop
  | .add _ logicalAddr _ _ => Table.size t.table < t.maxEntries.toNat ∧ logicalAddr ∉ t.table
  | .lookup _ _ => True
  | .remove _ => True

def AllFit (walk : Walk) (t : RemapTable) : List RemapOp → Prop
  | [] => True
  | op :: ops => Fits t op ∧ ∀ t', t.step walk op = some t' → AllFit walk t' ops

section

variable {t : RemapTable} {now a : UInt64}

theorem lookup_fst (t : RemapTable) (now a : UInt64) :
    (t.lookup now a).1 = (t.table.lookup a).map (fun entry => (entry.physicalAddr, entry.size)) := by
  simp only [lookup]
  cases t.table.lookup a with
  | none => rfl
  | some entry => rfl

theorem Agrees.iff {m : Mapping} : Agrees t m ↔
    (∀ a, (t.table.lookup a).map (fun entry => (entry.physicalAddr, entry.size)) = m a) ∧
      t.totalRemappedBlocks.toNat = Table.size t.table ∧ Table.size t.table ≤ t.maxEntries.toNat := by
  constructor
  · intro agrees
    refine ⟨fun a => ?_, agrees.counted, agrees.within⟩
    rw [← lookup_fst t 0 a]
    exact agrees.found 0 a
  · rintro ⟨found, counted, within⟩
    refine ⟨fun now a => ?_, counted, within⟩
    rw [lookup_fst]
    exact found a

end

theorem toNat_add_one (n : UInt64) : (n + 1).toNat = (n.toNat + 1) % 2 ^ 64 := by
  rw [UInt64.toNat_add]
  rfl

section

variable {walk : Walk} {t : RemapTable} {m : Mapping} {now a p : UInt64} {size : UInt32}

theorem addRemapping_counts {t' : RemapTable} (added : t.addRemapping walk now a p size = some t') :
    t'.totalRemappedBlocks = t.totalRemappedBlocks + 1 := by
  simp only [addRemapping] at added
  split at added
  · obtain ⟨oldest, _, rfl⟩ := Option.map_eq_some_iff.mp added
    rfl
  · cases added
    rfl

theorem oldest_mem {e : Σ _ : UInt64, RemapEntry} (found : t.oldest walk = some e) : e.1 ∈ t.table := by
  have kept : ∀ (rest : List (Σ _ : UInt64, RemapEntry)) (first : Σ _ : UInt64, RemapEntry),
      rest.foldl older first ∈ first :: rest := by
    intro rest
    induction rest with
    | nil => exact fun first => List.mem_singleton.mpr rfl
    | cons next rest ih =>
      intro first
      have later := ih (older first next)
      rw [List.foldl_cons]
      rcases List.mem_cons.mp later with same | inside
      · rw [same, older]
        split
        · exact List.mem_cons_of_mem _ List.mem_cons_self
        · exact List.mem_cons_self
      · exact List.mem_cons_of_mem _ (List.mem_cons_of_mem _ inside)
  simp only [oldest] at found
  split at found
  · cases found
  · rename_i first rest walked
    cases found
    have inside : (first :: rest).foldl older first ∈ first :: rest := by
      rcases List.mem_cons.mp (kept (first :: rest) first) with same | inside
      · rw [same]
        exact List.mem_cons_self
      · exact inside
    have perm := walk.perm t.table
    rw [walked] at perm
    exact AList.mem_keys.mpr (List.mem_keys_of_mem (perm.mem_iff.mp inside))

theorem addRemapping_miscounts (counted : t.totalRemappedBlocks.toNat = Table.size t.table)
    (unfit : ¬ Fits t (.add now a p size)) {t' : RemapTable} (added : t.addRemapping walk now a p size = some t') :
    t'.totalRemappedBlocks.toNat ≠ Table.size t'.table := by
  have counts := addRemapping_counts added
  have bound := t.maxEntries.toNat_lt
  rw [counts, toNat_add_one, counted]
  simp only [addRemapping] at added
  split at added
  · obtain ⟨oldest, found, rfl⟩ := Option.map_eq_some_iff.mp added
    have erased := size_erase_mem (oldest_mem found)
    have limit := t.totalRemappedBlocks.toNat_lt
    simp only [put]
    by_cases listed : a ∈ t.table.erase oldest.1
    · have some_left : 0 < Table.size (t.table.erase oldest.1) := by
        rw [Table.size, ← List.length_map Sigma.fst]
        exact List.length_pos_of_mem (AList.mem_keys.mp listed)
      rw [size_insert_mem listed]
      omega
    · rw [size_insert_new listed]
      omega
  · rename_i room
    cases added
    have listed : a ∈ t.table := by
      refine Classical.not_not.mp (fun fresh => unfit ⟨by omega, fresh⟩)
    simp only [put]
    rw [size_insert_mem listed]
    omega

theorem addRemapping_fits (agrees : Agrees t m) (fits : Fits t (.add now a p size)) :
    ∃ t', t.addRemapping walk now a p size = some t' ∧ Agrees t' (m.after (.add now a p size)) := by
  obtain ⟨room, fresh⟩ := fits
  have bound := t.maxEntries.toNat_lt
  obtain ⟨found, counted, within⟩ := Agrees.iff.mp agrees
  refine ⟨t.put now a p size, ?_, Agrees.iff.mpr ⟨?_, ?_, ?_⟩⟩
  · simp only [addRemapping]
    rw [if_neg (by omega)]
  · intro b
    simp only [put, Mapping.after]
    by_cases same : b = a
    · subst same
      rw [AList.lookup_insert, update_self]
      rfl
    · rw [AList.lookup_insert_ne same, update_of_ne same]
      exact found b
  · simp only [put]
    rw [size_insert_new fresh, toNat_add_one, counted]
    exact Nat.mod_eq_of_lt (by omega)
  · simp only [put]
    rw [size_insert_new fresh]
    exact room

end

variable {t : RemapTable} {m : Mapping} {walk : Walk}

theorem lookup_agrees (agrees : Agrees t m) (now a : UInt64) : Agrees (t.lookup now a).2 m := by
  obtain ⟨found, counted, within⟩ := Agrees.iff.mp agrees
  simp only [lookup]
  cases present : t.table.lookup a with
  | none => exact Agrees.iff.mpr ⟨found, counted, within⟩
  | some entry =>
    have listed : a ∈ t.table := AList.lookup_isSome.mp (by rw [present]; rfl)
    refine Agrees.iff.mpr ⟨?_, ?_, ?_⟩
    · intro b
      simp only
      by_cases same : b = a
      · subst same
        rw [AList.lookup_insert, ← found b, present]
        rfl
      · rw [AList.lookup_insert_ne same]
        exact found b
    · simp only
      rw [size_insert_mem listed]
      exact counted
    · simp only
      rw [size_insert_mem listed]
      exact within

theorem removeRemapping_agrees (agrees : Agrees t m) (a : UInt64) :
    Agrees (t.removeRemapping a).2 (m.after (.remove a)) := by
  obtain ⟨found, counted, within⟩ := Agrees.iff.mp agrees
  simp only [removeRemapping]
  split
  · rename_i listed
    have erased := size_erase_mem listed
    refine Agrees.iff.mpr ⟨?_, ?_, ?_⟩
    · intro b
      simp only [Mapping.after]
      by_cases same : b = a
      · subst same
        rw [AList.lookup_erase, update_self]
        rfl
      · rw [AList.lookup_erase_ne same, update_of_ne same]
        exact found b
    · simp only
      rw [UInt64.toNat_sub_of_le]
      · rw [counted, ← erased]
        rfl
      · rw [UInt64.le_iff_toNat_le, counted, ← erased]
        exact Nat.le_add_left 1 _
    · simp only
      omega
  · rename_i absent
    refine Agrees.iff.mpr ⟨?_, counted, within⟩
    intro b
    simp only [Mapping.after]
    by_cases same : b = a
    · subst same
      rw [AList.lookup_eq_none.mpr absent, update_self]
      rfl
    · rw [update_of_ne same]
      exact found b

theorem step_agrees_iff (agrees : Agrees t m) (op : RemapOp) :
    (∃ t', t.step walk op = some t' ∧ Agrees t' (m.after op)) ↔ Fits t op := by
  cases op with
  | add now a p size =>
    refine ⟨?_, addRemapping_fits agrees⟩
    rintro ⟨t', added, later⟩
    exact Classical.not_not.mp (fun unfit => addRemapping_miscounts agrees.counted unfit added later.counted)
  | lookup now a => exact ⟨fun _ => trivial, fun _ => ⟨_, rfl, lookup_agrees agrees now a⟩⟩
  | remove a => exact ⟨fun _ => trivial, fun _ => ⟨_, rfl, removeRemapping_agrees agrees a⟩⟩

theorem Faithful.agrees {ops : List RemapOp} (faithful : Faithful walk t m ops) : Agrees t m := by
  cases ops with
  | nil => exact faithful
  | cons op ops => exact faithful.1

theorem faithful_iff (agrees : Agrees t m) (ops : List RemapOp) : Faithful walk t m ops ↔ AllFit walk t ops := by
  induction ops generalizing t m with
  | nil => exact ⟨fun _ => trivial, fun _ => agrees⟩
  | cons op ops ih =>
    constructor
    · rintro ⟨_, t', stepped, rest⟩
      refine ⟨(step_agrees_iff agrees op).mp ⟨t', stepped, rest.agrees⟩, ?_⟩
      intro t'' again
      rw [stepped] at again
      cases again
      exact (ih rest.agrees).mp rest
    · rintro ⟨fits, rest⟩
      obtain ⟨t', stepped, later⟩ := (step_agrees_iff agrees op).mpr fits
      exact ⟨agrees, t', stepped, (ih later).mpr (rest t' stepped)⟩

theorem init_agrees (capacity : UInt64) : Agrees (new.init capacity) (fun _ => none) :=
  Agrees.iff.mpr ⟨fun _ => rfl, rfl, Nat.zero_le _⟩

/-- The table loses no mapping exactly as long as every mapping is added while there is room for one more
    and none for its address. -/
theorem remap_table_faithful_iff (walk : Walk) (capacity : UInt64) (ops : List RemapOp) :
    Faithful walk (new.init capacity) (fun _ => none) ops ↔
      AllFit walk (new.init capacity) ops :=
  faithful_iff (init_agrees capacity) ops

def inOrder : Walk := ⟨fun t => t.entries, fun _ => .refl _⟩

def oneMegabyte : RemapTable := new.init (capacityOf .ieee (1024 * 1024))

def twoMappings : List RemapOp := [.add 1 4096 100 512, .add 2 8192 200 512]

def afterTwo (t : RemapTable) : Option RemapTable :=
  t.step inOrder (.add 1 4096 100 512) >>= fun t => t.step inOrder (.add 2 8192 200 512)

/-- The second mapping drives out the first, and a table for a block of data cannot take even one. -/
theorem second_mapping_evicts_first : ¬ Faithful inOrder oneMegabyte (fun _ => none) twoMappings ∧
    (afterTwo oneMegabyte).map (fun t => ((t.lookup 3 4096).1, t.totalRemappedBlocks, Table.size t.table)) =
      some (none, 2, 1) ∧
    (new.init (capacityOf .ieee 4096)).step inOrder (.add 1 4096 100 512) = none := by
  have evicted : (afterTwo oneMegabyte).map
      (fun t => ((t.lookup 3 4096).1, t.totalRemappedBlocks, Table.size t.table)) = some (none, 2, 1) := by
    decide +kernel
  refine ⟨?_, evicted, by decide +kernel⟩
  rintro ⟨_, t, first, _, t', second, agrees⟩
  have both : afterTwo oneMegabyte = some t' := by
    rw [afterTwo, first]
    exact second
  rw [both] at evicted
  have found := agrees.found 3 4096
  have lost : (t'.lookup 3 4096).1 = none := congrArg Prod.fst (Option.some.inj evicted)
  rw [lost] at found
  exact absurd found (by decide)

end RbcProof
