import ZonedStorage.Names.Bijection

namespace ZenFSProof

open HardLinks Resumption Resumption.Prog ZenFSModel ZenFSModel.ZenFS ZenFSModel.Path ZenFSModel.ZenFSTag Function List Path

def Canonical (path : Name) : Prop := formatPathLexically path = path

instance (path : Name) : Decidable (Canonical path) := inferInstanceAs (Decidable (_ = _))

section

variable {names : List Name}

theorem isAbsolute_spelled (names : List Name) (trailing : Bool) : isAbsolute (spelled names trailing) = true := by
  simp [isAbsolute, spelled]

theorem canonical_spelled (plain : ∀ n ∈ names, Plain n) (some_names : names ≠ []) (trailing : Bool) :
    Canonical (spelled names trailing) := by
  rw [Canonical, formatPathLexically, lexicallyNormal_spelled plain some_names, append_root (isAbsolute_spelled _ _)]

theorem Canonical.spelling {path : Name} (settled : Canonical path) : path = [separator] ∨
    ∃ names trailing, names ≠ [] ∧ (∀ n ∈ names, Plain n) ∧ path = spelled names trailing := by
  have absolute : isAbsolute path = true := settled ▸ formatPathLexically_isAbsolute path
  rcases lexicallyNormal_absolute absolute with root | ⟨names, trailing, some_names, plain, spelling⟩
  · left
    rw [← settled, formatPathLexically, root]
    decide
  · right
    refine ⟨names, trailing, some_names, plain, ?_⟩
    conv_lhs => rw [← settled, formatPathLexically, spelling, append_root (isAbsolute_spelled _ _)]

theorem spelled_true (names : List Name) : spelled names true = spelled names false ++ [separator] := by
  simp [spelled]

theorem withSeparatorAtEnd_spelled (plain : ∀ n ∈ names, Plain n) (some_names : names ≠ []) (trailing : Bool) :
    withSeparatorAtEnd (spelled names trailing) = spelled names true := by
  have ends := spelled_endsWithSeparator plain some_names trailing
  have filled : spelled names trailing ≠ [] := by simp [spelled]
  have appended : append (spelled names trailing) [] = spelled names true := by
    cases trailing with
    | true => simp [append, isAbsolute, ends]
    | false => simp [append, isAbsolute, ends, filled, spelled_true]
  rw [withSeparatorAtEnd, appended, lexicallyNormal_spelled plain some_names]

variable {child : Name}

theorem append_spelled (plain : ∀ n ∈ names, Plain n) (some_names : names ≠ []) (trailing : Bool)
    (relative : isAbsolute child = false) :
    append (spelled names trailing) child = spelled names true ++ child := by
  have ends := spelled_endsWithSeparator plain some_names trailing
  have filled : spelled names trailing ≠ [] := by simp [spelled]
  cases trailing with
  | true => simp [append, relative, ends]
  | false => simp [append, relative, ends, filled, spelled_true]

theorem splitOn_behind (whole : ∀ n ∈ names, separator ∉ n) (some_names : names ≠ []) (child : Name) :
    (spelled names true ++ child).splitOn separator = [] :: names ++ child.splitOn separator := by
  have split := splitOn_separator (spelled names false) child
  rw [spelled_splitOn whole some_names] at split
  simpa [spelled_true] using split

theorem eq_of_splitOn {p q : Name} (same : p.splitOn separator = q.splitOn separator) : p = q := by
  have joined := congrArg (intercalate [separator]) same
  rwa [intercalate_splitOn, intercalate_splitOn] at joined

theorem Canonical.behind (plain : ∀ n ∈ names, Plain n) (some_names : names ≠ [])
    (settled : Canonical (spelled names true ++ child)) :
    ∃ (parts : List Name) (trailing : Bool), (∀ n ∈ parts, Plain n) ∧
      child.splitOn separator = parts ++ if trailing then [[]] else [] := by
  have split := splitOn_behind (fun n member => (plain n member).whole) some_names child
  have some_parts : child.splitOn separator ≠ [] := by
    intro none
    exact splitOn_ne_nil _ _ none
  rcases settled.spelling with root | ⟨path, trailing, some_path, plain_path, spelling⟩
  · have long := congrArg length root
    obtain ⟨name, rest, rfl⟩ := exists_cons_of_ne_nil some_names
    simp [spelled] at long
  · rw [spelling, spelled_splitOn (fun n member => (plain_path n member).whole) some_path, cons_append,
      cons_append] at split
    rcases append_eq_append_iff.mp (cons.inj split).2 with ⟨beyond, named, ending⟩ | ⟨parts, rfl, ending⟩
    · refine ⟨[], trailing, by simp, ?_⟩
      cases beyond with
      | nil => exact ending.symm
      | cons first more =>
        have long := congrArg length ending
        have least := length_pos_of_ne_nil some_parts
        cases trailing <;> simp at long
    · exact ⟨parts, trailing, fun n member => plain_path n (mem_append_right _ member), ending⟩

theorem Canonical.elsewhere {others : List Name} (plain : ∀ n ∈ names, Plain n) (some_names : names ≠ [])
    (plain' : ∀ n ∈ others, Plain n) (some_others : others ≠ []) (settled : Canonical (spelled names true ++ child)) :
    isAbsolute child = false ∧ Canonical (spelled others true ++ child) := by
  obtain ⟨parts, trailing, plain_parts, split⟩ := settled.behind plain some_names
  constructor
  · rw [Bool.eq_false_iff]
    intro absolute
    obtain ⟨rest, rfl⟩ := head?_eq_some_iff.mp (beq_iff_eq.mp absolute)
    have rooted := splitOn_separator [] rest
    have some_rest : rest.splitOn separator ≠ [] := fun none => splitOn_ne_nil _ _ none
    rw [nil_append, split, splitOn_nil] at rooted
    cases parts with
    | nil => cases trailing <;> simp at rooted
    | cons part more =>
      have empty : part = [] := (cons.inj rooted).1
      exact (plain_parts part mem_cons_self).filled empty
  · have all : ∀ n ∈ others ++ parts, Plain n := by
      intro n member
      rcases mem_append.mp member with member | member
      · exact plain' n member
      · exact plain_parts n member
    have some_names : others ++ parts ≠ [] := by simp [some_others]
    have same : spelled others true ++ child = spelled (others ++ parts) trailing := by
      refine eq_of_splitOn ?_
      rw [splitOn_behind (fun n member => (plain' n member).whole) some_others,
        spelled_splitOn (fun n member => (all n member).whole) some_names, split]
      simp
    rw [same]
    exact canonical_spelled all some_names trailing

theorem isPrefix_behind {front back last : Name} (whole : separator ∉ last) :
    front ++ [separator] <+: back ++ last ↔ front ++ [separator] <+: back := by
  constructor
  · intro begins
    rcases prefix_or_prefix_of_prefix begins (prefix_append back last) with done | ⟨rest, longer⟩
    · exact done
    · rw [← longer, prefix_append_right_inj] at begins
      rcases eq_nil_or_concat' rest with rfl | ⟨more, byte, rfl⟩
      · rw [append_nil] at longer
        exact longer ▸ prefix_rfl
      · rw [← append_assoc] at longer
        obtain ⟨_, final⟩ := append_inj' longer rfl
        cases final
        exact absurd (begins.subset (mem_append_right _ mem_cons_self)) whole
  · exact fun begins => begins.trans (prefix_append back last)

theorem join_root (some_names : names ≠ []) : join ([] :: names) = spelled names false := by
  obtain ⟨name, rest, rfl⟩ := exists_cons_of_ne_nil some_names
  simp [join, spelled]

theorem parentPath_spelled (plain : ∀ n ∈ names, Plain n) (some_names : names ≠ []) :
    parentPath (spelled names true) = spelled names false := by
  have parts : ([] :: names ++ [[]]).dropLast = [] :: names := dropLast_concat
  have filled : spelled names false ≠ [] := by simp [spelled]
  simp only [parentPath, spelled_splitOn (fun n member => (plain n member).whole) some_names, if_true, parts,
    join_root some_names, filled, decide_false, Bool.false_and, Bool.false_eq_true, if_false]

theorem parentPath_last {last : Name} (plain : ∀ n ∈ names ++ [last], Plain n) :
    withSeparatorAtEnd (parentPath (spelled (names ++ [last]) false)) ++ last = spelled (names ++ [last]) false := by
  have whole : ∀ n ∈ names ++ [last], separator ∉ n := fun n member => (plain n member).whole
  have parts : ([] :: (names ++ [last])).dropLast = [] :: names := by
    rw [← cons_append]
    exact dropLast_concat
  simp only [parentPath, spelled_splitOn whole (by simp), Bool.false_eq_true, if_false, append_nil, parts]
  by_cases none : names = []
  · subst none
    have root : withSeparatorAtEnd [separator] = [separator] := by decide
    simp [join, isAbsolute, root, spelled]
  · have plain_names : ∀ n ∈ names, Plain n := fun n member => plain n (mem_append_left _ member)
    have filled : spelled names false ≠ [] := by simp [spelled]
    simp only [join_root none, filled, decide_false, Bool.false_and, Bool.false_eq_true, if_false]
    rw [withSeparatorAtEnd_spelled plain_names none]
    refine eq_of_splitOn ?_
    have single : last.splitOn separator = [last] := by
      have joined : (intercalate [separator] [last]).splitOn separator = [last] :=
        splitOn_intercalate separator (by simpa using whole last (by simp)) (by simp)
      simpa using joined
    rw [splitOn_behind (fun n member => (plain_names n member).whole) none, spelled_splitOn whole (by simp), single]
    simp

theorem isPrefix_parent {path : Name} (settled : Canonical path) (names : List Name) :
    spelled names true <+: withSeparatorAtEnd (parentPath path) ↔ spelled names true <+: path := by
  rcases settled.spelling with rfl | ⟨parts, trailing, some_parts, plain, rfl⟩
  · have same : withSeparatorAtEnd (parentPath [separator]) = [separator] := by decide
    rw [same]
  cases trailing with
  | true => rw [parentPath_spelled plain some_parts, withSeparatorAtEnd_spelled plain some_parts]
  | false =>
    obtain ⟨front, last, rfl⟩ := eq_nil_or_concat' parts |>.resolve_left some_parts
    have whole : separator ∉ last := (plain last (by simp)).whole
    rw [← parentPath_last plain, spelled_true, isPrefix_behind whole, parentPath_last plain]

end

section

variable {ρ : Type} (source dest : Name) (look : Name → Option ρ)

def placed (moved away : List Name) (n : Name) : Option ρ :=
  if n ∈ away.map (dest ++ ·) then look (source ++ n.drop dest.length)
  else if n ∈ away.map (source ++ ·) then none
  else if n ∈ moved.map (dest ++ ·) then none
  else look n

variable {source dest look} {moved away done : List Name} {child : Name}

theorem placed_nil : placed source dest look [] [] = look := by
  funext n
  simp [placed]

section

variable (apart : ∀ a b, source ++ a ≠ dest ++ b)

include apart

theorem not_mem_dest (child : Name) (names : List Name) : source ++ child ∉ names.map (dest ++ ·) := by
  intro member
  obtain ⟨other, _, same⟩ := mem_map.mp member
  exact apart child other same.symm

theorem not_mem_source (child : Name) (names : List Name) : dest ++ child ∉ names.map (source ++ ·) :=
  not_mem_dest (fun a b same => apart b a same.symm) child names

theorem placed_source (outside : child ∉ away) :
    placed source dest look moved away (source ++ child) = look (source ++ child) := by
  have fresh : source ++ child ∉ away.map (source ++ ·) := by simpa using outside
  simp only [placed, not_mem_dest apart, fresh, if_false]

theorem placed_dest (outside : child ∉ done) :
    placed source dest look done done (dest ++ child) = look (dest ++ child) := by
  have fresh : dest ++ child ∉ done.map (dest ++ ·) := by simpa using outside
  simp only [placed, not_mem_source apart, fresh, if_false]

theorem placed_away (among : child ∈ away) :
    placed source dest look moved away (dest ++ child) = look (source ++ child) ∧
      placed source dest look moved away (source ++ child) = none := by
  have there : dest ++ child ∈ away.map (dest ++ ·) := mem_map_of_mem among
  have here : source ++ child ∈ away.map (source ++ ·) := mem_map_of_mem among
  constructor
  · simp only [placed, there, if_true, drop_left]
  · simp only [placed, not_mem_dest apart, here, if_false, if_true]

theorem placed_forward : placed source dest look (done ++ [child]) (done ++ [child]) =
      update (update (placed source dest look done done) (source ++ child) none) (dest ++ child)
        (look (source ++ child)) := by
  funext n
  by_cases there : n = dest ++ child
  · subst there
    rw [update_self]
    simp [placed]
  rw [update_of_ne there]
  by_cases here : n = source ++ child
  · subst here
    rw [update_self]
    simp only [placed, not_mem_dest apart, if_false]
    simp
  · rw [update_of_ne here]
    simp only [placed, map_append, map_cons, map_nil, mem_append, mem_singleton, there, here,
      or_false]

theorem placed_back (once : child ∉ away) (among : child ∈ moved) : placed source dest look moved away =
      update (update (placed source dest look moved (child :: away)) (dest ++ child) none)
        (source ++ child) (look (source ++ child)) := by
  funext n
  by_cases here : n = source ++ child
  · subst here
    rw [update_self, placed_source apart once]
  rw [update_of_ne here]
  by_cases there : n = dest ++ child
  · subst there
    rw [update_self]
    simp [placed, once, not_mem_source apart, among]
  · rw [update_of_ne there]
    simp only [placed, map_cons, mem_cons, there, here, false_or]

end

end

section

abbrev below (dir child : Name) : Name := withSeparatorAtEnd dir ++ child

structure SideBySide (source dest : Name) : Prop where
  first : Canonical source
  second : Canonical dest
  outside : ¬ withSeparatorAtEnd source <+: withSeparatorAtEnd dest
  around : ¬ withSeparatorAtEnd dest <+: withSeparatorAtEnd source

namespace SideBySide

variable {source dest : Name}

section

variable (apart : SideBySide source dest)

include apart

theorem symm : SideBySide dest source :=
  ⟨apart.second, apart.first, apart.around, apart.outside⟩

theorem spelling : ∃ names trailing, names ≠ [] ∧ (∀ n ∈ names, Plain n) ∧
    source = spelled names trailing ∧ withSeparatorAtEnd source = spelled names true := by
  rcases apart.first.spelling with rfl | ⟨names, trailing, some_names, plain, rfl⟩
  · have root : withSeparatorAtEnd [separator] = [separator] := by decide
    have outside := apart.outside
    rw [root] at outside
    rcases apart.second.spelling with rfl | ⟨others, trailing, some_others, plain, rfl⟩
    · rw [root] at outside
      exact absurd prefix_rfl outside
    · rw [withSeparatorAtEnd_spelled plain some_others] at outside
      exact absurd ⟨_, rfl⟩ outside
  · exact ⟨names, trailing, some_names, plain, rfl, withSeparatorAtEnd_spelled plain some_names trailing⟩

theorem ne (a b : Name) : below source a ≠ below dest b := by
  intro same
  have first : withSeparatorAtEnd source <+: withSeparatorAtEnd dest ++ b := ⟨a, same⟩
  rcases prefix_or_prefix_of_prefix first (prefix_append _ b) with inside | inside
  · exact apart.outside inside
  · exact apart.around inside

theorem child {child : Name} (settled : Canonical (below source child)) :
    append source child = below source child ∧
      append dest child = below dest child ∧ Canonical (below dest child) := by
  obtain ⟨names, trailing, some_names, plain, spelling, separated⟩ := apart.spelling
  obtain ⟨others, trailing', some_others, plain', spelling', separated'⟩ := apart.symm.spelling
  simp only [below, separated, separated'] at settled ⊢
  obtain ⟨relative, there⟩ := settled.elsewhere plain some_names plain' some_others
  rw [spelling, spelling', append_spelled plain some_names _ relative, append_spelled plain' some_others _ relative]
  exact ⟨rfl, rfl, there⟩

end

end SideBySide

variable {fs : ZenFS} {source dest : Name}

theorem isPrefix_children (apart : SideBySide source dest) {n : Name} (settled : Canonical n) :
    (withSeparatorAtEnd source).isPrefixOf (withSeparatorAtEnd (parentPath n)) = true ↔ withSeparatorAtEnd source <+: n := by
  obtain ⟨names, trailing, some_names, plain, spelling, separated⟩ := apart.spelling
  refine isPrefixOf_iff_prefix.trans ?_
  rw [separated, isPrefix_parent settled]

theorem mem_children (apart : SideBySide source dest) (settled : ∀ n r, fs.files[n]? = some r → Canonical n)
    {child : Name} :
    child ∈ fs.getZenFSChildrenNoLock source ↔ ∃ r, fs.files[below source child]? = some r := by
  simp only [getZenFSChildrenNoLock, mem_map, mem_filter]
  constructor
  · rintro ⟨⟨n, r⟩, ⟨member, inside⟩, rfl⟩
    have held := mem_files_iff.mp member
    obtain ⟨child, rfl⟩ := (isPrefix_children apart (settled n r held)).mp inside
    rw [drop_left]
    exact ⟨r, held⟩
  · rintro ⟨r, held⟩
    refine ⟨(below source child, r), ⟨mem_files_iff.mpr held, ?_⟩, drop_left⟩
    exact (isPrefix_children apart (settled _ r held)).mpr (prefix_append _ _)

theorem children_nodup (apart : SideBySide source dest) (settled : ∀ n r, fs.files[n]? = some r → Canonical n) :
    (fs.getZenFSChildrenNoLock source).Nodup := by
  have distinct : fs.files.toList.Pairwise (fun a b => ¬ compare a.1 b.1 = .eq) := Std.TreeMap.distinct_keys_toList
  refine pairwise_map.mpr ((distinct.filter _).imp_of_mem ?_)
  intro a b first second different same
  have behind : ∀ entry : Name × Ref, entry ∈ fs.files.toList.filter (fun entry =>
      (withSeparatorAtEnd source).isPrefixOf (withSeparatorAtEnd (parentPath entry.1))) →
        entry.1 = withSeparatorAtEnd source ++ entry.1.drop (withSeparatorAtEnd source).length := by
    intro entry member
    obtain ⟨member, inside⟩ := mem_filter.mp member
    have behind := (isPrefix_children apart (settled _ _ (mem_files_iff.mp member))).mp inside
    exact (prefix_iff_eq_append.mp behind).symm
  have equal : a.1 = b.1 := by rw [behind a first, behind b second, same]
  rw [equal] at different
  exact different Std.ReflCmp.compare_self

end

section

/-- The names on the way: `moved` have gone from `source` to `dest`, all but `away` have come back, and the persists
    have told the story. -/
structure Stage (fs : ZenFS) (alive : Ref → Prop) (source dest : Name) (moved away : List Name)
    (story : List (ZenFSTag × Bool)) (now : ZenFS) : Prop where
  well : WellNamed (nameState now) alive
  lookup : (nameState now).table.lookup =
    placed (withSeparatorAtEnd source) (withSeparatorAtEnd dest) (nameState fs).table.lookup moved away
  links : ∀ q, ¬ alive q → (nameState now).table.links q = (nameState fs).table.links q
  deleted : (kFileDeletion, true) ∉ story → (nameState now).deleted = (nameState fs).deleted
  ended : Ended fs now story

structure Went (alive : Ref → Prop) (r : Ref) (n m : Name) (s s' : NameState) : Prop where
  well : WellNamed s' alive
  lookup : s'.table.lookup = update (update s.table.lookup n none) m (some r)
  links : ∀ q, ¬ alive q → s'.table.links q = s.table.links q

variable {fs now next : ZenFS} {alive : Ref → Prop} {source dest child : Name} {moved away done : List Name}
  {story story' : List (ZenFSTag × Bool)} {s : NameState} {r q : Ref} {n m : Name}

theorem Went.ofMove (well : WellNamed s alive) (held : s.table.lookup n = some r) (free : s.table.lookup m = none) :
    Went alive r n m s ((s.unlink r n).link r m) := by
  refine ⟨well.move held free, rfl, fun q foreign => ?_⟩
  have other : q ≠ r := fun same => foreign (same ▸ well.alive_of held)
  exact (Table.link_links_other other).trans (Table.unlink_links_other other)

theorem Went.ofReplace (well : WellNamed s alive) (held : s.table.lookup n = some r)
    (target : s.table.lookup m = some q)
    (different : n ≠ m) :
    Went alive r n m s (((((s.unlink q m).discard q).unlink r n).link r m)) := by
  have table : ((s.unlink q m).discard q).table = (s.unlink q m).table := discard_table _ _
  have kept : ((s.unlink q m).discard q).table.lookup n = some r := by
    rw [table]
    exact (Table.unlink_lookup_other different).trans held
  have free : ((s.unlink q m).discard q).table.lookup m = none := by
    rw [table]
    exact Table.unlink_lookup_self
  have went := Went.ofMove ((well.unlink target).discard (well.alive_of target)) kept free
  refine ⟨went.well, ?_, fun k foreign => ?_⟩
  · have unlinked : (s.unlink q m).table.lookup = update s.table.lookup m none := rfl
    rw [went.lookup, table, unlinked, update_comm different, update_idem]
    exact update_comm different.symm _ _ _
  · have other : k ≠ q := fun same => foreign (same ▸ well.alive_of target)
    rw [went.links k foreign, table]
    exact Table.unlink_links_other other

theorem Stage.start (well : WellNamed (nameState fs) alive) : Stage fs alive source dest [] [] [] fs :=
  ⟨well, placed_nil.symm, fun _ _ => rfl, fun _ => rfl, Ended.none rfl⟩

theorem Stage.forward (stage : Stage fs alive source dest done done story now) (apart : SideBySide source dest)
    (held : fs.files[below source child]? = some r)
    (went : Went alive r (below source child) (below dest child) (nameState now) (nameState next))
    (deleted : (kFileDeletion, true) ∉ story' → (nameState next).deleted = (nameState fs).deleted)
    (ended : Ended fs next story') : Stage fs alive source dest (done ++ [child]) (done ++ [child]) story' next where
  well := went.well
  lookup := by
    rw [went.lookup, stage.lookup, placed_forward apart.ne]
    exact congrArg _ held.symm
  links q foreign := (went.links q foreign).trans (stage.links q foreign)
  deleted := deleted
  ended := ended

theorem Stage.back (stage : Stage fs alive source dest moved (child :: away) story now) (apart : SideBySide source dest)
    (once : child ∉ away) (among : child ∈ moved) (held : fs.files[below source child]? = some r)
    (went : Went alive r (below dest child) (below source child) (nameState now) (nameState next))
    (deleted : (nameState next).deleted = (nameState now).deleted) (noted : Noted now next kFileUpdate true) :
    Stage fs alive source dest moved away ((kFileUpdate, true) :: story) next where
  well := went.well
  lookup := by
    rw [went.lookup, stage.lookup, placed_back apart.ne once among]
    exact congrArg _ held.symm
  links q foreign := (went.links q foreign).trans (stage.links q foreign)
  deleted clean := deleted.trans (stage.deleted (fun member => clean (mem_cons_of_mem _ member)))
  ended := stage.ended.next noted

theorem Noted.updateFailed (ended : Ended fs now story) (noted : Noted now next kFileUpdate false) :
    UpdateFailed fs next :=
  (ended.next noted).updateFailed_of mem_cons_self

/-- What counts as a fault: a lost record of a file, and any failed persist where a name has a NUL byte. -/
structure Faults (fs : ZenFS) (bad : ZenFS → Prop) : Prop where
  lost : ∀ {next}, UpdateFailed fs next → bad next
  spoilt : ∀ {next}, PersistFailed fs next → bad next ∨ (nameState fs).Whole

theorem ensures_renameChild (well : WellNamed (nameState now) alive) (apart : SideBySide source dest) (depth : Nat)
    (settled : Canonical (below source child)) (held : now.files[below source child]? = some r) :
    Ensures (renameChildNoLock (renameFileNoLock (depth + 1)) source dest child)
      (RenameOutcome now r (below source child) (below dest child)) now := by
  obtain ⟨from_path, to_path, there⟩ := apart.child settled
  have normal : ∀ {path : Name}, Canonical path → Normal path := fun fixed => by rw [Normal, fixed, fixed]
  have outcome := ensures_renameFileNoLock well depth (normal settled) (normal there) (settled.symm ▸ held)
  rw [settled, there] at outcome
  rw [renameChildNoLock, from_path, to_path]
  exact outcome

theorem Stage.run_child (stage : Stage fs alive source dest done done story now) (apart : SideBySide source dest)
    (depth : Nat) (fresh : child ∉ done) (settled : Canonical (below source child))
    (held : fs.files[below source child]? = some r) :
    ∃ result next, (renameChildNoLock (renameFileNoLock (depth + 1)) source dest child).run now = some (result, next) ∧
      (UpdateFailed fs next ∨
        result = .ok () ∧ Stage fs alive source dest (done ++ [child]) (done ++ [child]) ((kFileUpdate, true) ::
          if fs.files[below dest child]? = none then story else (kFileDeletion, true) :: story) next ∨
        (∃ status, result = .error status) ∧ PersistFailed fs next ∧ ((nameState fs).Whole →
          Stage fs alive source dest done done ((kFileDeletion, false) :: story) next)) := by
  have here : now.files[below source child]? = some r :=
    (congrFun stage.lookup _).trans ((placed_source apart.ne fresh).trans held)
  have there : now.files[below dest child]? = fs.files[below dest child]? :=
    (congrFun stage.lookup _).trans (placed_dest apart.ne fresh)
  obtain ⟨result, next, ran, outcome⟩ :=
    (wp_total_iff _ _ _).mp (ensures_renameChild stage.well apart depth settled here)
  refine ⟨result, next, ran, ?_⟩
  cases outcome with
  | moved free move =>
    cases move with
    | failed names noted => exact Or.inl (noted.updateFailed stage.ended)
    | done names noted =>
      rw [← there, if_pos free]
      have went := Went.ofMove stage.well here free
      rw [← names] at went
      refine Or.inr (Or.inl ⟨rfl, stage.forward apart held went (fun clean => ?_) (stage.ended.next noted)⟩)
      rw [names]
      exact stage.deleted (fun member => clean (mem_cons_of_mem _ member))
  | @refused q _ _ target deleted =>
    cases deleted with
    | failed names noted =>
      have ended := stage.ended.next noted
      refine Or.inr (Or.inr ⟨⟨_, rfl⟩, ended.persistFailed_of mem_cons_self, fun whole => ?_⟩)
      replace names := names (whole _ q (there.symm.trans target))
      refine ⟨names ▸ stage.well.relink target, ?_, fun k foreign => ?_, fun clean => ?_, ended⟩
      · rw [names, ← stage.lookup]
        exact Table.Paired.unlink_link target
      · have other : k ≠ q := fun same => foreign (same ▸ stage.well.alive_of target)
        rw [names, ← stage.links k foreign]
        exact (Table.link_links_other other).trans (Table.unlink_links_other other)
      · rw [names]
        exact stage.deleted (fun member => clean (mem_cons_of_mem _ member))
  | lost same deleted => exact absurd same (apart.ne child child)
  | replaced target different deleted move =>
    cases deleted with
    | done names₁ noted₁ =>
      cases move with
      | failed names noted => exact Or.inl (noted.updateFailed (stage.ended.next noted₁))
      | done names noted =>
        have bound : ¬ fs.files[below dest child]? = none := by
          rw [← there, target]
          exact Option.some_ne_none _
        rw [if_neg bound]
        have went := Went.ofReplace stage.well here target different
        rw [← names₁, ← names] at went
        exact Or.inr (Or.inl ⟨rfl, stage.forward apart held went
          (fun clean => absurd (mem_cons_of_mem _ mem_cons_self) clean)
          ((stage.ended.next noted₁).next noted)⟩)

theorem Stage.run_back (stage : Stage fs alive source dest moved (child :: away) story now)
    (apart : SideBySide source dest)
    (depth : Nat) (once : child ∉ away) (among : child ∈ moved) (settled : Canonical (below source child))
    (held : fs.files[below source child]? = some r) :
    ∃ result next, (renameChildNoLock (renameFileNoLock (depth + 1)) dest source child).run now = some (result, next) ∧
      (UpdateFailed fs next ∨
        result = .ok () ∧ Stage fs alive source dest moved away ((kFileUpdate, true) :: story) next) := by
  have there : now.files[below dest child]? = some r :=
    (congrFun stage.lookup _).trans ((placed_away apart.ne mem_cons_self).1.trans held)
  have free : now.files[below source child]? = none :=
    (congrFun stage.lookup _).trans (placed_away apart.ne mem_cons_self).2
  obtain ⟨result, next, ran, outcome⟩ :=
    (wp_total_iff _ _ _).mp (ensures_renameChild stage.well apart.symm depth (apart.child settled).2.2 there)
  refine ⟨result, next, ran, ?_⟩
  cases outcome with
  | moved _ move =>
    cases move with
    | failed names noted => exact Or.inl (noted.updateFailed stage.ended)
    | done names noted =>
      have went := Went.ofMove stage.well there free
      rw [← names] at went
      exact Or.inr ⟨rfl, stage.back apart once among held went (by rw [names]; rfl) noted⟩
  | refused target _ =>
    rw [free] at target
    cases target
  | lost same _ => exact absurd same.symm (apart.ne child child)
  | replaced target _ _ _ =>
    rw [free] at target
    cases target

def RollbackFailed (result : Except Status Unit) : Prop :=
  result = .error (Status.corruption "RollbackAuxDirRenameNoLock: Failed to roll back directory rename" "") ∨
  result = .error (Status.corruption "RollbackAuxDirRenameNoLock: Failed to roll back auxiliary path renaming" "")

def Files (fs : ZenFS) (source : Name) (children : List Name) : Prop :=
  ∀ child ∈ children, Canonical (below source child) ∧ ∃ r, fs.files[below source child]? = some r

def answered (fs : ZenFS) : Except Status Unit :=
  match (fs.answers fs.asked).status with
  | none => .ok ()
  | some status => .error status

theorem run_target (fs : ZenFS) : target.run fs = some (answered fs, { fs with asked := fs.asked + 1 }) := by
  simp only [target, ask, run_bind, run_act, answered]
  cases (fs.answers fs.asked).status <;> rfl

theorem Stage.asked (stage : Stage fs alive source dest moved away story now) (count : Nat) :
    Stage fs alive source dest moved away story { now with asked := count } :=
  ⟨stage.well, stage.lookup, stage.links, stage.deleted, stage.ended.quiet rfl⟩

theorem Stage.run_rollback (apart : SideBySide source dest) (depth : Nat) (files : Files fs source away)
    (once : away.Nodup)
    (among : away ⊆ moved) (stage : Stage fs alive source dest moved away story now) {bad : ZenFS → Prop}
    (faults : Faults fs bad)
    (avoids : (rollbackAuxDirRenameNoLock (renameFileNoLock (depth + 1)) source dest away).Avoids bad now) :
    ∃ result next, (rollbackAuxDirRenameNoLock (renameFileNoLock (depth + 1)) source dest away).run now =
      some (result, next) ∧ (∃ story', Stage fs alive source dest moved [] story' next ∧
        ∀ ok, (kFileDeletion, ok) ∈ story' ↔ (kFileDeletion, ok) ∈ story) ∧
      (result = .ok () ∨ RollbackFailed result) := by
  induction away generalizing now story with
  | nil =>
    have asked := run_target now
    have attempted : target.attempt.run now = some (.ok (answered now), { now with asked := now.asked + 1 }) := by
      rw [run_attempt, asked]
      rfl
    rw [rollbackAuxDirRenameNoLock, run_bind, attempted]
    cases answered now with
    | ok _ => exact ⟨_, _, rfl, ⟨story, stage.asked _, fun _ => Iff.rfl⟩, Or.inl rfl⟩
    | error status => exact ⟨_, _, rfl, ⟨story, stage.asked _, fun _ => Iff.rfl⟩, Or.inr (Or.inr rfl)⟩
  | cons child rest ih =>
    obtain ⟨settled, r, held⟩ := files child mem_cons_self
    obtain ⟨result, next, ran, outcome⟩ := stage.run_back apart depth (nodup_cons.mp once).1
      (among mem_cons_self) settled held
    rw [rollbackAuxDirRenameNoLock] at avoids ⊢
    have attempted : (renameChildNoLock (renameFileNoLock (depth + 1)) dest source child).attempt.run now =
        some (.ok result, next) := by rw [run_attempt, ran]; rfl
    have later := avoids.second attempted
    rcases outcome with lost | ⟨rfl, stage'⟩
    · exact absurd (faults.lost lost) later.here
    · obtain ⟨result, last, ran', ⟨story', stage'', same⟩, ends⟩ :=
        ih (fun c member => files c (mem_cons_of_mem _ member))
        (nodup_cons.mp once).2 (fun c member => among (mem_cons_of_mem _ member)) stage' later
      refine ⟨result, last, ?_, ⟨story', stage'', fun ok => (same ok).trans ?_⟩, ends⟩
      · rw [run_bind, attempted]
        exact ran'
      · simp

inductive Renamed (fs : ZenFS) (alive : Ref → Prop) (source dest : Name) (children : List Name) :
    Except Status Unit → ZenFS → Prop
  | all {story : List (ZenFSTag × Bool)} {next : ZenFS}
    (stage : Stage fs alive source dest children children story next)
    (clean : (kFileDeletion, false) ∉ story) : Renamed fs alive source dest children (.ok ()) next
  | undone {moved : List Name} {story : List (ZenFSTag × Bool)} {result : Except Status Unit} {next : ZenFS}
    (stage : Stage fs alive source dest moved [] story next)
    (refused : (kFileDeletion, false) ∈ story) (failed : ∃ status, result = .error status)
    (replaced : (kFileDeletion, true) ∈ story ↔ ∃ child ∈ moved, fs.files[below dest child]? ≠ none) :
    Renamed fs alive source dest children result next

theorem Stage.run_children (apart : SideBySide source dest) (depth : Nat) (rest : List Name)
    (files : Files fs source (done ++ rest))
    (once : (done ++ rest).Nodup) (stage : Stage fs alive source dest done done story now)
    (clean : (kFileDeletion, false) ∉ story)
    (replaced : (kFileDeletion, true) ∈ story ↔ ∃ child ∈ done, fs.files[below dest child]? ≠ none)
    {bad : ZenFS → Prop} (faults : Faults fs bad)
    (avoids : (renameChildrenNoLock (renameFileNoLock (depth + 1)) source dest done rest).Avoids bad now) :
    ∃ result next, (renameChildrenNoLock (renameFileNoLock (depth + 1)) source dest done rest).run now =
      some (result, next) ∧ Renamed fs alive source dest (done ++ rest) result next := by
  induction rest generalizing now story done with
  | nil => exact ⟨_, _, rfl, .all (by rwa [append_nil]) clean⟩
  | cons child rest ih =>
    obtain ⟨settled, r, held⟩ := files child (by simp)
    have fresh : child ∉ done := by
      intro member
      exact (nodup_append.mp once).2.2 child member child mem_cons_self rfl
    obtain ⟨result, next, ran, outcome⟩ := stage.run_child apart depth fresh settled held
    have attempted : (renameChildNoLock (renameFileNoLock (depth + 1)) source dest child).attempt.run now =
        some (.ok result, next) := by rw [run_attempt, ran]; rfl
    rw [renameChildrenNoLock] at avoids ⊢
    have later := avoids.second attempted
    rw [run_bind, attempted]
    rcases outcome with lost | ⟨rfl, stage'⟩ | ⟨⟨status, rfl⟩, failed, undone⟩
    · exact absurd (faults.lost lost) later.here
    · have regroup : done ++ child :: rest = done ++ [child] ++ rest := by simp
      rw [regroup] at files once ⊢
      refine ih files once stage' ?_ ?_ later
      · split <;> simp [clean]
      · have last : (∃ c ∈ done ++ [child], fs.files[below dest c]? ≠ none) ↔
            (∃ c ∈ done, fs.files[below dest c]? ≠ none) ∨ fs.files[below dest child]? ≠ none := by
          simp only [mem_append, mem_singleton, or_and_right, exists_or, exists_eq_left]
        rw [last, ← replaced, mem_cons]
        by_cases free : fs.files[below dest child]? = none
        · rw [if_pos free]
          simp only [Prod.mk.injEq, reduceCtorEq, false_and, false_or, ne_eq, free, not_true, or_false]
        · rw [if_neg free]
          simp only [mem_cons, true_or, or_true, ne_eq, free, not_false_eq_true]
    · have stage' := undone ((faults.spoilt failed).resolve_left later.here)
      obtain ⟨result, last, ran', ⟨story', stage'', same⟩, ends⟩ := stage'.run_rollback apart depth
        (fun c member => files c (mem_append_left _ member)) (nodup_append.mp once).1 (List.Subset.refl _)
        faults later.first
      have refused : (kFileDeletion, false) ∈ story' := (same false).mpr mem_cons_self
      have before : (kFileDeletion, true) ∈ story' ↔ ∃ child ∈ done, fs.files[below dest child]? ≠ none := by
        rw [same true, mem_cons]
        simpa using replaced
      rcases ends with rfl | failed
      · refine ⟨.error status, last, ?_, .undone stage'' refused ⟨status, rfl⟩ before⟩
        simp only [run_bind, ran', run_fail]
      · obtain ⟨status', rfl⟩ : ∃ status', result = .error status' := by
          rcases failed with rfl | rfl
          · exact ⟨_, rfl⟩
          · exact ⟨_, rfl⟩
        refine ⟨.error status', last, ?_, .undone stage'' refused ⟨status', rfl⟩ before⟩
        simp only [run_bind, ran']

theorem run_renameAux (well : WellNamed (nameState fs) alive) (canonical : ∀ n r, fs.files[n]? = some r → Canonical n)
    (apart : SideBySide source dest) (depth : Nat) {bad : ZenFS → Prop} (faults : Faults fs bad)
    (avoids : (renameAuxPathNoLock (renameFileNoLock (depth + 1)) source dest).Avoids bad fs) :
    ∃ result next, (renameAuxPathNoLock (renameFileNoLock (depth + 1)) source dest).run fs = some (result, next) ∧
      ((∃ status, result = .error status) ∧ answered fs = result ∧ next = { fs with asked := fs.asked + 1 } ∨
        answered fs = .ok () ∧ Renamed fs alive source dest (fs.getZenFSChildrenNoLock source) result next) := by
  rw [renameAuxPathNoLock] at avoids ⊢
  have asked := run_target fs
  cases answer : answered fs with
  | error status =>
    rw [answer] at asked
    refine ⟨.error status, { fs with asked := fs.asked + 1 }, ?_, Or.inl ⟨⟨status, rfl⟩, rfl, rfl⟩⟩
    rw [run_bind, asked]
  | ok _ =>
    rw [answer] at asked
    have later := (avoids.second asked).second (run_read _ _)
    have files : Files fs source ([] ++ fs.getZenFSChildrenNoLock source) := by
      intro child member
      obtain ⟨r, held⟩ := (mem_children apart canonical).mp member
      exact ⟨canonical _ r held, r, held⟩
    obtain ⟨result, next, ran, renamed⟩ := Stage.run_children apart depth _ files (children_nodup apart canonical)
      ((Stage.start well).asked _) (by simp) (by simp) faults later
    refine ⟨result, next, ?_, Or.inr ⟨rfl, renamed⟩⟩
    rw [run_bind, asked]
    simp only [run_bind, run_read]
    exact ran

end

/-- What was below `source` is below `dest`, and all other names are what they were unless such a name has taken
    their place. -/
structure SubtreeMoved (fs fs' : ZenFS) (source dest : Name) : Prop where
  arrived : ∀ child r, fs.files[below source child]? = some r → fs'.files[below dest child]? = some r
  gone : ∀ child, fs'.files[below source child]? = none
  kept : ∀ n, ¬ withSeparatorAtEnd source <+: n →
    (∀ child, n = below dest child → fs.files[below source child]? = none) → fs'.files[n]? = fs.files[n]?

/-- If the auxiliary rename succeeds and no persist fails, the rename of a directory returns OK and has moved what is
    below it, and nothing else. -/
theorem directory_rename_moves_subtree {fs : ZenFS} {source dest : Name} (apart : SideBySide source dest) (depth : Nat)
    (well : WellNamed (nameState fs) (nameState fs).Owned) (canonical : ∀ n r, fs.files[n]? = some r → Canonical n)
    (auxiliary : (fs.answers fs.asked).status = none)
    (persisted : (renameAuxPathNoLock (renameFileNoLock (depth + 1)) source dest).Avoids (PersistFailed fs) fs) :
    ∃ fs', (renameAuxPathNoLock (renameFileNoLock (depth + 1)) source dest).run fs = some (.ok (), fs') ∧
      SubtreeMoved fs fs' source dest := by
  have agreed : answered fs = .ok () := by rw [answered, auxiliary]
  obtain ⟨result, fs', ran, outcome⟩ := run_renameAux well canonical apart depth
    ⟨UpdateFailed.persistFailed, Or.inl⟩ persisted
  rcases outcome with ⟨⟨status, rfl⟩, refused, _⟩ | ⟨_, renamed⟩
  · rw [agreed] at refused
    cases refused
  cases renamed with
  | undone stage refused _ _ => exact absurd (stage.ended.persistFailed_of refused) (persisted.last ran)
  | all stage _ =>
    refine ⟨fs', ran, ?_, ?_, ?_⟩
    · intro child r held
      exact (congrFun stage.lookup _).trans
        ((placed_away apart.ne ((mem_children apart canonical).mpr ⟨r, held⟩)).1.trans held)
    · intro child
      refine (congrFun stage.lookup _).trans ?_
      by_cases among : child ∈ fs.getZenFSChildrenNoLock source
      · exact (placed_away apart.ne among).2
      · rw [placed_source apart.ne among, Option.eq_none_iff_forall_ne_some]
        exact fun r held => among ((mem_children apart canonical).mpr ⟨r, held⟩)
    · intro n outside free
      have not_moved : n ∉ (fs.getZenFSChildrenNoLock source).map (withSeparatorAtEnd dest ++ ·) := by
        intro member
        obtain ⟨child, among, rfl⟩ := mem_map.mp member
        obtain ⟨r, held⟩ := (mem_children apart canonical).mp among
        rw [free child rfl] at held
        cases held
      have not_below : n ∉ (fs.getZenFSChildrenNoLock source).map (withSeparatorAtEnd source ++ ·) := by
        intro member
        obtain ⟨child, _, rfl⟩ := mem_map.mp member
        exact outside (prefix_append _ _)
      refine (congrFun stage.lookup n).trans ?_
      simp only [placed, not_moved, not_below, if_false]
      rfl

section

variable {fs mid next : ZenFS} {event : PersistEvent}

theorem Grows.newEvents_later (grows : Grows mid next) (member : event ∈ newEvents fs mid) :
    event ∈ newEvents fs next := by
  obtain ⟨more, whole⟩ := grows.2
  have shorter : fs.persists.length < mid.persists.length := by
    by_contra longer
    rw [newEvents, Nat.sub_eq_zero_of_le (Nat.le_of_not_lt longer)] at member
    cases member
  have length : next.persists.length - fs.persists.length =
      more.length + (mid.persists.length - fs.persists.length) := by
    rw [← whole, length_append]
    omega
  rw [newEvents, length, ← whole, take_length_add_append]
  exact mem_append_right _ member

theorem Grows.newEvents_earlier (grows : Grows fs mid) (member : event ∈ newEvents mid next) :
    event ∈ newEvents fs next := by
  have shorter := grows.2.length_le
  exact (take_prefix_take_left (by omega)).subset member

theorem Grows.persistFailed (grows : Grows mid next) (failed : PersistFailed fs mid) : PersistFailed fs next := by
  obtain ⟨event, member, outcome⟩ := failed
  exact ⟨event, grows.newEvents_later member, outcome⟩

theorem grows_renameAux (depth : Nat) (source dest : Name) :
    (renameAuxPathNoLock (renameFileNoLock depth) source dest).Keeps Grows :=
  Grows.covers.renameParts.renameAuxPathNoLock (fun _ => Grows.covers.renameFileNoLock (fun _ => trivial) depth _ _)
    (fun _ => Grows.covers.renameFileNoLock (fun _ => trivial) depth _ _)

end

/-- The device refuses four calls in a row: a record, and all that the roll after it tries. -/
def refusingFrom (first : Nat) : ZenFS :=
  { sampleZenFS with
    md := { sampleMeta with replies := fun n => ⟨decide (n < first ∨ first + 4 ≤ n), 1000, false, false⟩ } }

def nested (first : Nat) : ZenFS :=
  createdUnder (path "/b/f") (createdUnder (path "/a/d/g") (createdUnder (path "/a/f") (refusingFrom first)))

def renamedNested (first : Nat) : ZenFS :=
  ((renameAuxPathNoLock (renameFileNoLock 1) (path "/a") (path "/b")).run (nested first)).elim sampleZenFS Prod.snd

theorem nested_sound {first : Nat} (ids : (createdUnder (path "/a/f") (refusingFrom first)).nextFileId = 2 ∧
    (createdUnder (path "/a/d/g") (createdUnder (path "/a/f") (refusingFrom first))).nextFileId = 3) :
    Sound (nested first) := by
  have start : Sound (refusingFrom first) := sample_sound.of_names rfl
  have one := createdUnder_sound start (n := path "/a/f") (by decide +kernel) (by change 2 < 2 ^ 64; decide)
  have two := createdUnder_sound one (n := path "/a/d/g") (by decide +kernel) (by rw [ids.1]; decide)
  exact createdUnder_sound two (by decide +kernel) (by rw [ids.2]; decide)

theorem nested_canonical {first : Nat}
    (files : (nested first).files.toList = [(path "/a/d/g", 1), (path "/a/f", 0), (path "/b/f", 2)])
    (n : Name) (r : Ref) (held : (nested first).files[n]? = some r) : Canonical n := by
  have all : ∀ entry ∈ [(path "/a/d/g", 1), (path "/a/f", 0), (path "/b/f", 2)], Canonical entry.1 := by decide +kernel
  have member := mem_files_iff.mpr held
  rw [files] at member
  exact all _ member

theorem nested_persisted : (renameAuxPathNoLock (renameFileNoLock 1) (path "/a") (path "/b")).Avoids
    (PersistFailed (nested 6)) (nested 6) := by
  have ran : (renameAuxPathNoLock (renameFileNoLock 1) (path "/a") (path "/b")).run (nested 6) =
      some (.ok (), renamedNested 6) := run_eq_some (by decide +kernel)
  refine ((grows_renameAux 1 _ _).mono (fun _ _ => Grows.persistFailed)).avoids ran ?_
  rintro ⟨event, member, failed⟩
  have outcomes : ∀ event ∈ newEvents (nested 6) (renamedNested 6), event.outcome = .appended := by decide +kernel
  rw [outcomes event member] at failed
  cases failed

theorem directories_sideBySide : SideBySide (path "/a") (path "/b") :=
  ⟨by decide +kernel, by decide +kernel, by decide +kernel, by decide +kernel⟩

theorem nested_files_moved : (nested 6).files[path "/b/f"]? = some 2 ∧
    ∃ fs', (renameAuxPathNoLock (renameFileNoLock 1) (path "/a") (path "/b")).run (nested 6) = some (.ok (), fs') ∧
      SubtreeMoved (nested 6) fs' (path "/a") (path "/b") ∧ fs'.files[path "/b/f"]? = some 0 := by
  have made : ((createdUnder (path "/a/f") (refusingFrom 6)).nextFileId = 2 ∧
      (createdUnder (path "/a/d/g") (createdUnder (path "/a/f") (refusingFrom 6))).nextFileId = 3) ∧
      (nested 6).files.toList = [(path "/a/d/g", 1), (path "/a/f", 0), (path "/b/f", 2)] ∧
      (nested 6).files[path "/b/f"]? = some 2 ∧ (nested 6).files[below (path "/a") (path "f")]? = some 0 ∧
      below (path "/b") (path "f") = path "/b/f" := by decide +kernel
  obtain ⟨ids, files, before, child, name⟩ := made
  obtain ⟨fs', ran, moved⟩ := directory_rename_moves_subtree directories_sideBySide 0 (nested_sound ids).toWellNamed
    (nested_canonical files) (by decide +kernel) nested_persisted
  refine ⟨before, fs', ran, moved, ?_⟩
  rw [← name]
  exact moved.arrived _ _ child

end ZenFSProof
