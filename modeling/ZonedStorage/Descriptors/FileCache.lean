import ZonedStorage.Runs.Throughout
import ZonedStorage.Tables.Table

namespace ZenFSModel

open KeyedTable

/-- An entry of `list_`. The entry an iterator leads to stands for the iterator. -/
structure CacheEntry where
  zone : UInt64
  fd : Int
  deriving DecidableEq

structure ZoneFsFileCache where
  list : List CacheEntry
  map : Table UInt64 CacheEntry
  max : UInt32

namespace ZoneFsFileCache

def O_RDONLY : UInt32 := 0

def new (flags : UInt32) : ZoneFsFileCache := ⟨[], ∅, if flags &&& O_RDONLY ≠ 0 then 100 else 14⟩

def put (c : ZoneFsFileCache) (zone : UInt64) : ZoneFsFileCache :=
  match c.map.lookup zone with
  | none => c
  | some entry => { c with list := c.list.erase entry, map := c.map.erase zone }

def prune (c : ZoneFsFileCache) (limit : UInt32) : ZoneFsFileCache :=
  if more : limit.toNat < c.list.length then
    let last := c.list.getLast (List.ne_nil_of_length_pos (Nat.zero_lt_of_lt more))
    prune { c with list := c.list.dropLast, map := c.map.erase last.zone } limit
  else c
termination_by c.list.length
decreasing_by
  rw [List.length_dropLast]
  omega

/-- `opened` is the descriptor that `open` returns if it has to be called, or nothing if it fails. -/
def get (c : ZoneFsFileCache) (zone : UInt64) (opened : Option Int) : Option Int × ZoneFsFileCache :=
  match c.map.lookup zone with
  | none =>
    match opened with
    | none => (none, c)
    | some fd =>
      let c := c.prune (c.max - 1)
      let map := if zone ∈ c.map then c.map else c.map.insert zone ⟨zone, fd⟩
      (some fd, { c with list := ⟨zone, fd⟩ :: c.list, map := map })
  | some entry => (some entry.fd, { c with list := entry :: c.list.erase entry })

def resize (c : ZoneFsFileCache) (newSize : UInt32) : ZoneFsFileCache :=
  { (if newSize < c.max then c.prune newSize else c) with max := newSize }

end ZoneFsFileCache

inductive CacheCall where
  | get (zone : UInt64) (opened : Option Int)
  | put (zone : UInt64)
  | resize (newSize : UInt32)

def ZoneFsFileCache.call (c : ZoneFsFileCache) : CacheCall → Option Int × ZoneFsFileCache
  | .get zone opened => c.get zone opened
  | .put zone => (none, c.put zone)
  | .resize newSize => (none, c.resize newSize)

end ZenFSModel

namespace ZenFSProof

open KeyedTable Runs ZenFSModel ZoneFsFileCache List

/-- A cache with the history of its calls: the zones that `Get` has returned, the last one first, and the last call
    with the cache it was made on and what it returned. -/
structure Caching where
  cache : ZoneFsFileCache
  gets : List UInt64
  last : Option (ZoneFsFileCache × CacheCall × Option Int)

namespace Caching

def start (flags : UInt32) : Caching := ⟨new flags, [], none⟩

def gotten (result : Option Int) : CacheCall → List UInt64
  | .get zone _ => if result.isSome then [zone] else []
  | _ => []

def step (s : Caching) (call : CacheCall) : Caching :=
  let outcome := s.cache.call call
  ⟨outcome.2, gotten outcome.1 call ++ s.gets, some (s.cache, call, outcome.1)⟩

end Caching

def Mapped (c : ZoneFsFileCache) : Prop :=
  ∀ zone entry, c.map.lookup zone = some entry ↔ entry ∈ c.list ∧ entry.zone = zone

/-- What a call returns, and what it does to the list. Entries are evicted from its end. -/
def Serves (c : ZoneFsFileCache) (result : Option Int) (c' : ZoneFsFileCache) : CacheCall → Prop
  | .get zone opened =>
    match c.list.find? (fun entry => entry.zone = zone), opened with
    | some entry, _ => result = some entry.fd ∧ c'.list = entry :: c.list.erase entry
    | none, none => result = none ∧ c'.list = c.list
    | none, some fd => result = some fd ∧ c'.list = ⟨zone, fd⟩ :: c.list.take (c.max.toNat - 1)
  | .put zone => c'.list = c.list.filter (fun entry => entry.zone ≠ zone)
  | .resize newSize => c'.list = c.list.take newSize.toNat

/-- The list has the zones by their last `Get` and is no longer than allowed, and the last call was served. -/
structure Lru (s : Caching) : Prop where
  mapped : Mapped s.cache
  zones : (s.cache.list.map CacheEntry.zone).Nodup
  gotten : ∀ entry ∈ s.cache.list, entry.zone ∈ s.gets
  recent : s.cache.list.Pairwise (fun a b => s.gets.idxOf a.zone < s.gets.idxOf b.zone)
  bounded : s.cache.list.length ≤ s.cache.max.toNat
  served : ∀ before call result, s.last = some (before, call, result) → Serves before result s.cache call

def OpensWithin (s : Caching) : CacheCall → Prop
  | .get _ (some _) => s.cache.max ≠ 0
  | _ => True

section

variable {c : ZoneFsFileCache} {entry : CacheEntry}

theorem prune_list (c : ZoneFsFileCache) (limit : UInt32) : (c.prune limit).list = c.list.take limit.toNat := by
  fun_induction ZoneFsFileCache.prune c limit with
  | case1 c more last ih =>
    rw [ih, dropLast_eq_take, take_take, Nat.min_eq_left (by omega)]
  | case2 c fits => rw [take_of_length_le (Nat.le_of_not_lt fits)]

theorem prune_max (c : ZoneFsFileCache) (limit : UInt32) : (c.prune limit).max = c.max := by
  fun_induction ZoneFsFileCache.prune c limit with
  | case1 c more last ih => exact ih
  | case2 c fits => rfl

theorem Mapped.remove (mapped : Mapped c) (zones : (c.list.map CacheEntry.zone).Nodup) (listed : entry ∈ c.list) :
    Mapped { c with list := c.list.erase entry, map := c.map.erase entry.zone } := by
  intro zone other
  rw [zones.of_map.mem_erase_iff]
  by_cases same : zone = entry.zone
  · subst same
    simp only [AList.lookup_erase, reduceCtorEq, false_iff]
    rintro ⟨⟨differ, listed'⟩, shared⟩
    exact differ (inj_on_of_nodup_map zones listed' listed shared)
  · simp only [AList.lookup_erase_ne same, mapped zone other]
    constructor
    · rintro ⟨listed', rfl⟩
      exact ⟨⟨fun shared => same (congrArg _ shared), listed'⟩, rfl⟩
    · rintro ⟨⟨_, listed'⟩, here⟩
      exact ⟨listed', here⟩

theorem dropLast_eq_erase {entries : List CacheEntry} (nodup : entries.Nodup) (some_left : entries ≠ []) :
    entries.dropLast = entries.erase (entries.getLast some_left) := by
  obtain ⟨init, last, rfl⟩ := (eq_nil_or_concat' entries).resolve_left some_left
  have absent : last ∉ init := fun inside =>
    (nodup_append.mp nodup).2.2 last inside last mem_cons_self rfl
  rw [dropLast_concat, getLast_concat, erase_append_right _ absent, erase_cons_head,
    append_nil]

theorem Mapped.prune (mapped : Mapped c) (zones : (c.list.map CacheEntry.zone).Nodup) (limit : UInt32) :
    Mapped (c.prune limit) := by
  fun_induction ZoneFsFileCache.prune c limit with
  | case1 c more last ih =>
    have some_left : c.list ≠ [] := ne_nil_of_length_pos (Nat.zero_lt_of_lt more)
    refine ih ?_ (zones.sublist ((dropLast_sublist _).map _))
    rw [dropLast_eq_erase zones.of_map some_left]
    exact mapped.remove zones (getLast_mem some_left)
  | case2 c fits => exact mapped

theorem Mapped.insert (mapped : Mapped c) {zone : UInt64} (absent : ∀ entry ∈ c.list, entry.zone ≠ zone) (fd : Int) :
    Mapped { c with
      list := ⟨zone, fd⟩ :: c.list
      map := if zone ∈ c.map then c.map else c.map.insert zone ⟨zone, fd⟩ } := by
  have new : zone ∉ c.map := by
    intro listed
    obtain ⟨entry, found⟩ := Option.isSome_iff_exists.mp (AList.lookup_isSome.mpr listed)
    obtain ⟨inside, same⟩ := (mapped zone entry).mp found
    exact absent entry inside same
  intro other entry
  simp only [if_neg new, mem_cons]
  by_cases same : other = zone
  · subst same
    rw [AList.lookup_insert]
    constructor
    · rintro ⟨⟩
      exact ⟨.inl rfl, rfl⟩
    · rintro ⟨rfl | inside, here⟩
      · rfl
      · exact absurd here (absent entry inside)
  · rw [AList.lookup_insert_ne same, mapped other entry]
    constructor
    · exact fun ⟨inside, here⟩ => ⟨.inr inside, here⟩
    · rintro ⟨rfl | inside, here⟩
      · exact absurd here.symm same
      · exact ⟨inside, here⟩

theorem Mapped.lookup_eq (mapped : Mapped c) (zone : UInt64) :
    c.map.lookup zone = c.list.find? (fun entry => entry.zone = zone) := by
  cases found : c.list.find? (fun entry => entry.zone = zone) with
  | some entry =>
    exact (mapped zone entry).mpr ⟨mem_of_find?_eq_some found, by simpa using find?_some found⟩
  | none =>
    refine Option.eq_none_iff_forall_ne_some.mpr (fun entry listed => ?_)
    obtain ⟨inside, same⟩ := (mapped zone entry).mp listed
    exact find?_eq_none.mp found entry inside (decide_eq_true same)

theorem recent_front {gets : List UInt64} {rest : List CacheEntry}
    (recent : rest.Pairwise (fun a b => gets.idxOf a.zone < gets.idxOf b.zone))
    (others : ∀ other ∈ rest, other.zone ≠ entry.zone) :
    (entry :: rest).Pairwise
      (fun a b => (entry.zone :: gets).idxOf a.zone < (entry.zone :: gets).idxOf b.zone) := by
  have later : ∀ other ∈ rest, (entry.zone :: gets).idxOf other.zone = gets.idxOf other.zone + 1 :=
    fun other listed => idxOf_cons_ne gets (others other listed).symm
  refine pairwise_cons.mpr ⟨?_, recent.imp_of_mem ?_⟩
  · intro other listed
    rw [idxOf_cons_self, later other listed]
    exact Nat.succ_pos _
  · intro a b first second before
    rw [later a first, later b second]
    exact Nat.succ_lt_succ before

end

section

variable {s : Caching}

theorem Lru.keep (lru : Lru s) {c : ZoneFsFileCache} (mapped : Mapped c) (sublist : c.list.Sublist s.cache.list)
    (bounded : c.list.length ≤ c.max.toNat) {call : CacheCall} {result : Option Int}
    (served : Serves s.cache result c call) : Lru ⟨c, s.gets, some (s.cache, call, result)⟩ where
  mapped := mapped
  zones := lru.zones.sublist (sublist.map _)
  gotten entry listed := lru.gotten entry (sublist.subset listed)
  recent := lru.recent.sublist sublist
  bounded := bounded
  served := by
    rintro before call result ⟨⟩
    exact served

variable {entry : CacheEntry}

theorem Lru.front (lru : Lru s) {c : ZoneFsFileCache} (mapped : Mapped c)
    {rest : List CacheEntry} (list : c.list = entry :: rest) (sublist : rest.Sublist s.cache.list)
    (others : ∀ other ∈ rest, other.zone ≠ entry.zone) (bounded : c.list.length ≤ c.max.toNat) {call : CacheCall}
    {result : Option Int} (served : Serves s.cache result c call) :
    Lru ⟨c, entry.zone :: s.gets, some (s.cache, call, result)⟩ where
  mapped := mapped
  zones := by
    rw [list]
    refine nodup_cons.mpr ⟨?_, lru.zones.sublist (sublist.map _)⟩
    intro listed
    obtain ⟨other, inside, same⟩ := mem_map.mp listed
    exact others other inside same
  gotten other listed := by
    rw [list] at listed
    rcases mem_cons.mp listed with rfl | listed
    · exact mem_cons_self
    · exact mem_cons_of_mem _ (lru.gotten other (sublist.subset listed))
  recent := by
    rw [list]
    exact recent_front (lru.recent.sublist sublist) others
  bounded := bounded
  served := by
    rintro before call result ⟨⟩
    exact served

theorem Lru.others (lru : Lru s) {other : CacheEntry} (listed : entry ∈ s.cache.list) :
    other ∈ s.cache.list.erase entry ↔ other ∈ s.cache.list ∧ other.zone ≠ entry.zone := by
  rw [lru.zones.of_map.mem_erase_iff, and_comm]
  refine and_congr_right (fun listed' => not_congr ⟨congrArg _, ?_⟩)
  exact inj_on_of_nodup_map lru.zones listed' listed

theorem put_lru (lru : Lru s) (zone : UInt64) : Lru (s.step (.put zone)) := by
  simp only [Caching.step, ZoneFsFileCache.call, put, lru.mapped.lookup_eq]
  cases found : s.cache.list.find? (fun entry => entry.zone = zone) with
  | none =>
    refine lru.keep lru.mapped (List.Sublist.refl _) lru.bounded ?_
    refine (filter_eq_self.mpr (fun entry listed => ?_)).symm
    simpa using find?_eq_none.mp found entry listed
  | some entry =>
    have listed := mem_of_find?_eq_some found
    obtain rfl : entry.zone = zone := by simpa using find?_some found
    refine lru.keep (lru.mapped.remove lru.zones listed) erase_sublist ?_ ?_
    · exact Nat.le_trans erase_sublist.length_le lru.bounded
    · rw [Serves, lru.zones.of_map.erase_eq_filter]
      refine filter_congr (fun other listed' => ?_)
      rw [Bool.eq_iff_iff, bne_iff_ne, decide_eq_true_eq]
      exact not_congr ⟨congrArg _, inj_on_of_nodup_map lru.zones listed' listed⟩

theorem resize_lru (lru : Lru s) (newSize : UInt32) : Lru (s.step (.resize newSize)) := by
  simp only [Caching.step, ZoneFsFileCache.call, resize]
  split
  · have list := prune_list s.cache newSize
    have shorter : (s.cache.prune newSize).list.length ≤ newSize.toNat := by
      rw [list, length_take]
      exact Nat.min_le_left _ _
    exact lru.keep (c := { s.cache.prune newSize with max := newSize }) (lru.mapped.prune lru.zones newSize)
      (list ▸ take_sublist _ _) shorter list
  · rename_i larger
    have fits := Nat.le_trans lru.bounded (UInt32.le_iff_toNat_le.mp (UInt32.not_lt.mp larger))
    exact lru.keep (c := { s.cache with max := newSize }) lru.mapped (List.Sublist.refl _) fits
      (take_of_length_le fits).symm

theorem get_listed (lru : Lru s) {opened : Option Int}
    (found : s.cache.list.find? (fun other => other.zone = entry.zone) = some entry) :
    Lru (s.step (.get entry.zone opened)) := by
  have listed := mem_of_find?_eq_some found
  have perm := perm_cons_erase listed
  have mapped : Mapped { s.cache with list := entry :: s.cache.list.erase entry } :=
    fun zone other => (lru.mapped zone other).trans (and_congr_left' perm.mem_iff)
  have bounded : (entry :: s.cache.list.erase entry).length ≤ s.cache.max.toNat := by
    rw [← perm.length_eq]
    exact lru.bounded
  simp only [Caching.step, ZoneFsFileCache.call, ZoneFsFileCache.get, lru.mapped.lookup_eq, found]
  refine lru.front mapped rfl erase_sublist (fun other inside => ((lru.others listed).mp inside).2) bounded ?_
  simp [Serves, found]

theorem get_absent_iff (lru : Lru s) {zone : UInt64}
    (absent : s.cache.list.find? (fun entry => entry.zone = zone) = none) (opened : Option Int) :
    Lru (s.step (.get zone opened)) ↔ OpensWithin s (.get zone opened) := by
  simp only [Caching.step, ZoneFsFileCache.call, ZoneFsFileCache.get, lru.mapped.lookup_eq, absent]
  cases opened with
  | none =>
    refine iff_of_true (lru.keep lru.mapped (List.Sublist.refl _) lru.bounded ?_) trivial
    simp [Serves, absent]
  | some fd =>
    have list := prune_list s.cache (s.cache.max - 1)
    have sublist : (s.cache.prune (s.cache.max - 1)).list.Sublist s.cache.list := list ▸ take_sublist _ _
    have others : ∀ entry ∈ (s.cache.prune (s.cache.max - 1)).list, entry.zone ≠ zone := by
      intro entry listed
      simpa using find?_eq_none.mp absent entry (sublist.subset listed)
    constructor
    · intro grown zero
      have bounded := grown.bounded
      simp only [length_cons, prune_max] at bounded
      rw [zero] at bounded
      exact absurd bounded (Nat.not_succ_le_zero _)
    · intro some_allowed
      have positive : 0 < s.cache.max.toNat :=
        Nat.pos_of_ne_zero (fun zero => some_allowed (UInt32.toNat_inj.mp zero))
      have less : (s.cache.max - 1).toNat = s.cache.max.toNat - 1 :=
        UInt32.toNat_sub_of_le _ _ (UInt32.le_iff_toNat_le.mpr positive)
      refine lru.front ((lru.mapped.prune lru.zones _).insert others fd) rfl sublist others ?_ ?_
      · rw [prune_max, length_cons, list, length_take, less]
        omega
      · simp [Serves, absent, list, less]

end

/-- The cache is a bounded LRU list at all times exactly if no descriptor is opened while its size is 0. -/
theorem cache_lru_iff (flags : UInt32) (calls : List CacheCall) :
    Throughout Caching.step Lru (Caching.start flags) calls ↔
      EachStep Caching.step OpensWithin (Caching.start flags) calls := by
  have exact_step : ∀ s call, True → Lru s → (Lru (s.step call) ↔ OpensWithin s call) := by
    intro s call _ lru
    cases call with
    | put zone => exact iff_of_true (put_lru lru zone) trivial
    | resize newSize => exact iff_of_true (resize_lru lru newSize) trivial
    | get zone opened =>
      cases found : s.cache.list.find? (fun entry => entry.zone = zone) with
      | none => exact get_absent_iff lru found opened
      | some entry =>
        obtain rfl : entry.zone = zone := by simpa using find?_some found
        refine iff_of_true (get_listed lru found) ?_
        cases opened with
        | none => trivial
        | some fd =>
          intro zero
          have bounded := lru.bounded
          rw [zero] at bounded
          exact absurd (length_pos_of_mem (mem_of_find?_eq_some found)) (Nat.not_lt_of_le bounded)
  have empty : (Caching.start flags).cache.list = [] := rfl
  have start : Lru (Caching.start flags) := by
    refine ⟨?_, nodup_nil, by simp [empty], List.Pairwise.nil, Nat.zero_le _, ?_⟩
    · intro zone entry
      simp [Caching.start, new]
    · rintro before call result ⟨⟩
  exact throughout_iff exact_step (fun _ _ _ _ => trivial) trivial start calls

theorem resized_to_zero : ¬ Throughout Caching.step Lru (Caching.start 0) [.resize 0, .get 7 (some 3)] := by
  rintro ⟨_, _, lru⟩
  have bounded := lru.bounded
  simp [Caching.step, Caching.start, ZoneFsFileCache.call, resize, ZoneFsFileCache.get,
    new, ZoneFsFileCache.prune] at bounded

end ZenFSProof
