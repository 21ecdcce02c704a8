import ZonedStorage.Device.Append
import ZonedStorage.Device.Layout
import ZonedStorage.File.ZoneFile

namespace ZenFSProof

open ByteString Resumption.Prog ZenFSModel Function

/-- The zones lie apart, each with its write pointer and what is left of it inside, and all of that
    falls on blocks. -/
structure Laid (d : Device) : Prop where
  apart : ∀ {i j}, i < d.count → j < d.count → i ≠ j →
    (d.zones i).start + d.geo.zoneSz ≤ (d.zones j).start ∨ (d.zones j).start + d.geo.zoneSz ≤ (d.zones i).start
  begun : ∀ {i}, i < d.count → (d.zones i).start ≤ (d.zones i).wp
  room : ∀ {i}, i < d.count → (d.zones i).wp + (d.zones i).capacity ≤ (d.zones i).start + d.geo.zoneSz
  start_dvd : ∀ {i}, i < d.count → d.geo.blockSz ∣ (d.zones i).start
  wp_dvd : ∀ {i}, i < d.count → d.geo.blockSz ∣ (d.zones i).wp
  capacity_dvd : ∀ {i}, i < d.count → d.geo.blockSz ∣ (d.zones i).capacity

def Roomy (d : Device) : Prop := ∀ {i}, i < d.count → (d.zones i).wp = (d.zones i).start → 0 < (d.zones i).capacity

structure Lies (d : Device) (zone first count : Nat) : Prop where
  inside : zone < d.count
  above : (d.zones zone).start ≤ first
  below : first + count ≤ (d.zones zone).wp

structure Retains (d d' : Device) : Prop where
  layout : SameLayout d d'
  laid : Laid d → Laid d'
  roomy : Laid d → Roomy d → Roomy d'
  grown : Laid d → ∀ {i}, i < d.count → (d.zones i).wp ≤ (d'.zones i).wp
  bytes : Laid d → ∀ {i a}, i < d.count → (d.zones i).start ≤ a → a < (d.zones i).wp → d'.mem a = d.mem a

namespace Retains

theorem refl (d : Device) : Retains d d where
  layout := SameLayout.refl d
  laid laid := laid
  roomy _ roomy := roomy
  grown _ _ _ := Nat.le_refl _
  bytes _ _ _ _ _ _ := rfl

variable {d d' : Device}

theorem trans {d'' : Device} (first : Retains d d') (second : Retains d' d'') : Retains d d'' where
  layout := first.layout.trans second.layout
  laid laid := second.laid (first.laid laid)
  roomy laid roomy := second.roomy (first.laid laid) (first.roomy laid roomy)
  grown laid i inside := by
    have there : i < d'.count := by rw [first.layout.count]; exact inside
    exact Nat.le_trans (first.grown laid inside) (second.grown (first.laid laid) there)
  bytes laid i a inside above below := by
    have there : i < d'.count := by rw [first.layout.count]; exact inside
    have later : d''.mem a = d'.mem a :=
      second.bytes (first.laid laid) there (by rw [first.layout.start]; exact above)
        (Nat.lt_of_lt_of_le below (first.grown laid inside))
    rw [later, first.bytes laid inside above below]

theorem lies (retains : Retains d d') (laid : Laid d) {zone first count : Nat}
    (lies : Lies d zone first count) : Lies d' zone first count where
  inside := by rw [retains.layout.count]; exact lies.inside
  above := by rw [retains.layout.start]; exact lies.above
  below := Nat.le_trans lies.below (retains.grown laid lies.inside)

theorem read (retains : Retains d d') (laid : Laid d) {zone first count : Nat}
    (lies : Lies d zone first count) : d'.mem.read first count = d.mem.read first count := by
  refine Memory.read_congr (fun a low high => ?_)
  exact retains.bytes laid lies.inside (Nat.le_trans lies.above low) (Nat.lt_of_lt_of_le high lies.below)

end Retains

structure Marked (d d' : Device) : Prop where
  rest : d' = { d with zones := d'.zones, calls := d'.calls }
  zones : ∀ i, d'.zones i = { d.zones i with
    busy := (d'.zones i).busy, lifetime := (d'.zones i).lifetime, usedCapacity := (d'.zones i).usedCapacity }
  later : d.calls ≤ d'.calls

namespace Marked

theorem refl (d : Device) : Marked d d := ⟨rfl, fun _ => rfl, Nat.le_refl _⟩

theorem trans {d d' d'' : Device} (first : Marked d d') (second : Marked d' d'') : Marked d d'' := by
  refine ⟨?_, ?_, Nat.le_trans first.later second.later⟩
  · rw [second.rest, first.rest]
  · intro i
    rw [second.zones i, first.zones i]

theorem marks : Marks Marked where
  refl := refl
  answered _ := ⟨rfl, fun _ => rfl, Nat.le_succ _⟩
  mark d i busy lifetime used := by
    refine ⟨rfl, ?_, Nat.le_refl _⟩
    intro j
    simp only [Device.setZone]
    by_cases same : j = i
    · subst same
      rw [update_self]
    · rw [update_of_ne same]

variable {d d' : Device} (marked : Marked d d')

include marked

theorem geo : d'.geo = d.geo := by rw [marked.rest]

theorem count : d'.count = d.count := by rw [marked.rest]

theorem mem : d'.mem = d.mem := by rw [marked.rest]

theorem start (i : Nat) : (d'.zones i).start = (d.zones i).start := by rw [marked.zones i]

theorem wp (i : Nat) : (d'.zones i).wp = (d.zones i).wp := by rw [marked.zones i]

theorem capacity (i : Nat) : (d'.zones i).capacity = (d.zones i).capacity := by rw [marked.zones i]

theorem layout : SameLayout d d' := ⟨marked.geo, marked.count, marked.start⟩

theorem laid (laid : Laid d) : Laid d' := by
  constructor
  all_goals simp only [marked.geo, marked.count, marked.start, marked.wp, marked.capacity]
  · exact laid.apart
  · exact laid.begun
  · exact laid.room
  · exact laid.start_dvd
  · exact laid.wp_dvd
  · exact laid.capacity_dvd

theorem retains : Retains d d' where
  layout := marked.layout
  laid := marked.laid
  roomy _ roomy := by
    simp only [Roomy, marked.count, marked.start, marked.wp, marked.capacity]
    exact roomy
  grown _ i _ := by rw [marked.wp]
  bytes _ _ _ _ _ _ := by rw [marked.mem]

end Marked

variable {d : Device} {i : Nat}

theorem Laid.update {d' : Device} (laid : Laid d) {z : Zone} (geo : d'.geo = d.geo)
    (count : d'.count = d.count) (zones : d'.zones = update d.zones i z)
    (start : z.start = (d.zones i).start) (begun : i < d.count → z.start ≤ z.wp)
    (room : i < d.count → z.wp + z.capacity ≤ z.start + d.geo.zoneSz)
    (wp_dvd : i < d.count → d.geo.blockSz ∣ z.wp) (capacity_dvd : i < d.count → d.geo.blockSz ∣ z.capacity) :
    Laid d' := by
  have layout : SameLayout d d' := SameLayout.setZone geo count zones start
  have each : ∀ P : Zone → Prop, (i < d.count → P z) → (∀ {j}, j < d.count → P (d.zones j)) →
      ∀ {j}, j < d'.count → P (d'.zones j) := by
    intro P mine others j inside
    rw [count] at inside
    rw [zones]
    by_cases same : j = i
    · rw [same, update_self]
      exact mine (same ▸ inside)
    · rw [update_of_ne same]
      exact others inside
  constructor
  · intro j k first second other
    rw [count] at first second
    rw [layout.start, layout.start, geo]
    exact laid.apart first second other
  · exact each (fun z => z.start ≤ z.wp) begun laid.begun
  · rw [geo]
    exact each (fun z => z.wp + z.capacity ≤ z.start + d.geo.zoneSz) room laid.room
  · intro j inside
    rw [count] at inside
    rw [layout.start, geo]
    exact laid.start_dvd inside
  · rw [geo]
    exact each (fun z => d.geo.blockSz ∣ z.wp) wp_dvd laid.wp_dvd
  · rw [geo]
    exact each (fun z => d.geo.blockSz ∣ z.capacity) capacity_dvd laid.capacity_dvd

theorem Retains.update {d' : Device} {z : Zone} (geo : d'.geo = d.geo) (count : d'.count = d.count)
    (zones : d'.zones = update d.zones i z) (start : z.start = (d.zones i).start)
    (room : Laid d → i < d.count → z.wp + z.capacity ≤ z.start + d.geo.zoneSz)
    (wp_dvd : Laid d → i < d.count → d.geo.blockSz ∣ z.wp)
    (capacity_dvd : Laid d → i < d.count → d.geo.blockSz ∣ z.capacity)
    (grown : Laid d → i < d.count → (d.zones i).wp ≤ z.wp)
    (empty : Laid d → i < d.count → z.wp = z.start → z.capacity = (d.zones i).capacity)
    (bytes : Laid d → ∀ {j a}, j < d.count → (d.zones j).start ≤ a → a < (d.zones j).wp → d'.mem a = d.mem a) :
    Retains d d' where
  layout := SameLayout.setZone geo count zones start
  laid laid := by
    refine laid.update geo count zones start ?_ (room laid) (wp_dvd laid) (capacity_dvd laid)
    intro inside
    rw [start]
    exact Nat.le_trans (laid.begun inside) (grown laid inside)
  roomy laid roomy := by
    intro j inside stays
    rw [count] at inside
    by_cases same : j = i
    · subst same
      rw [zones, update_self] at stays ⊢
      rw [empty laid inside stays]
      apply roomy inside
      have above := grown laid inside
      have begun := laid.begun inside
      omega
    · rw [zones, update_of_ne same] at stays ⊢
      exact roomy inside stays
  grown laid j inside := by
    by_cases same : j = i
    · subst same
      rw [zones, update_self]
      exact grown laid inside
    · rw [zones, update_of_ne same]
  bytes := bytes

theorem Retains.finishes : Finishes Retains where
  refl := Retains.refl
  answered d := (Marked.marks.answered d).retains
  mark d i busy lifetime used := (Marked.marks.mark d i busy lifetime used).retains
  finished d i := by
    simp only [Device.backendFinish]
    split
    · refine Retains.update rfl rfl rfl rfl ?_ ?_ ?_ ?_ ?_ ?_
      · exact fun _ _ => Nat.le_refl _
      · exact fun laid inside => Nat.dvd_add (laid.start_dvd inside) d.geo.block_dvd
      · exact fun _ _ => Nat.dvd_zero _
      · intro laid inside
        exact Nat.le_trans (Nat.le_add_right _ _) (laid.room inside)
      · intro _ _ stays
        have size := d.geo.zone_pos
        simp only at stays
        omega
      · exact fun _ _ _ _ _ _ => rfl
    · exact (Marked.marks.answered d).retains

theorem Retains.written {bytes : Bytes} (c : Nat)
    (fits : bytes.length ≤ (d.zones i).capacity) (inside : i < d.count) (aligned : d.geo.blockSz ∣ bytes.length) :
    Retains d (written d i bytes c) := by
  refine Retains.update rfl rfl rfl rfl ?_ ?_ ?_ ?_ ?_ ?_
  · intro laid _
    have room := laid.room inside
    simp only
    omega
  · exact fun laid _ => Nat.dvd_add (laid.wp_dvd inside) aligned
  · exact fun laid _ => Nat.dvd_sub (laid.capacity_dvd inside) aligned
  · exact fun _ _ => Nat.le_add_right _ _
  · intro laid _ stays
    have begun := laid.begun inside
    simp only at stays
    have none_written : bytes.length = 0 := by omega
    simp only [none_written, Nat.sub_zero]
  · intro laid j a there above below
    apply Memory.write_outside
    by_cases same : j = i
    · subst same
      exact Or.inl below
    · have room := laid.room inside
      have begun := laid.begun inside
      have room' := laid.room there
      rcases laid.apart there inside same with before | after
      · exact Or.inl (by omega)
      · exact Or.inr (by omega)

end ZenFSProof
