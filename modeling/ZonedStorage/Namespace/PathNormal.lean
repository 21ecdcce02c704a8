import ZonedStorage.Namespace.Path

namespace ZenFSProof

open ZenFSModel ZenFSModel.Path List

structure Plain (name : Name) : Prop where
  filled : name ≠ []
  whole : separator ∉ name
  notDot : name ≠ dot
  notDotdot : name ≠ dotdot

theorem splitOn_whole (p : Name) : ∀ name ∈ p.splitOn separator, separator ∉ name := by
  induction p with
  | nil => simp
  | cons byte rest ih =>
    intro name member
    rw [splitOn_cons_eq_if_modifyHead] at member
    split at member
    · rcases mem_cons.mp member with rfl | later
      · simp
      · exact ih name later
    · rename_i other
      cases split : rest.splitOn separator with
      | nil => simp [split] at member
      | cons head tail =>
        rw [split] at member ih
        rcases mem_cons.mp member with rfl | later
        · have clean := ih head (by simp)
          simp only [mem_cons, not_or]
          exact ⟨fun same => other (by simp [same]), clean⟩
        · exact ih name (mem_cons_of_mem _ later)

theorem fileNames_filled (p : Name) : ∀ name ∈ fileNames p, name ≠ [] ∧ separator ∉ name := by
  intro name member
  obtain ⟨part, filled⟩ := mem_filter.mp member
  exact ⟨by simpa using filled, splitOn_whole p name part⟩

theorem normalStep_plain {state : Normal} {name : Name} (kept : ∀ n ∈ state.names, Plain n)
    (filled : name ≠ []) (whole : separator ∉ name) : ∀ n ∈ (normalStep true state name).names, Plain n := by
  intro n member
  simp only [normalStep] at member
  split at member
  · exact kept n member
  · rename_i notDot
    split at member
    · split at member
      · simp only [if_true] at member
        exact kept n member
      · rename_i top rest names
        have plain : Plain top := kept top (by simp [names])
        rw [if_neg plain.notDotdot] at member
        exact kept n (by rw [names]; exact mem_cons_of_mem _ member)
    · rename_i notDotdot
      rcases mem_cons.mp member with rfl | before
      · exact ⟨filled, whole, notDot, notDotdot⟩
      · exact kept n before

theorem normalFold_plain (names : List Name) (each : ∀ name ∈ names, name ≠ [] ∧ separator ∉ name)
    (state : Normal) (kept : ∀ n ∈ state.names, Plain n) :
    ∀ n ∈ (names.foldl (normalStep true) state).names, Plain n := by
  induction names generalizing state with
  | nil => exact kept
  | cons name rest ih =>
    obtain ⟨filled, whole⟩ := each name (by simp)
    exact ih (fun n member => each n (mem_cons_of_mem _ member)) _ (normalStep_plain kept filled whole)

variable {p : Name}

theorem normalStep_all {holds : Name → Prop} {state : Normal} {name : Name} (climbing : holds dotdot) (absolute : Bool)
    (kept : ∀ n ∈ state.names, holds n) (here : holds name) : ∀ n ∈ (normalStep absolute state name).names, holds n := by
  intro n member
  simp only [normalStep] at member
  split at member
  · exact kept n member
  · split at member
    · split at member
      · split at member
        · exact kept n member
        · rw [mem_singleton.mp member]
          exact climbing
      · rename_i top rest names
        split at member
        · rcases mem_cons.mp member with rfl | before
          · exact climbing
          · exact kept n (by rw [names]; exact before)
        · exact kept n (by rw [names]; exact mem_cons_of_mem _ member)
    · rcases mem_cons.mp member with rfl | before
      · exact here
      · exact kept n before

/-- The components of a normal form are `..` and components of the path. -/
theorem normalNames_all {holds : Name → Prop} (climbing : holds dotdot) (each : ∀ n ∈ fileNames p, holds n) :
    ∀ n ∈ (normalNames p).names, holds n := by
  have fold : ∀ (names : List Name) (state : Normal), (∀ n ∈ names, holds n) → (∀ n ∈ state.names, holds n) →
      ∀ n ∈ (names.foldl (normalStep (isAbsolute p)) state).names, holds n := by
    intro names
    induction names with
    | nil => exact fun _ _ kept => kept
    | cons name rest ih =>
      intro state each kept
      exact ih _ (fun n member => each n (mem_cons_of_mem _ member))
        (normalStep_all climbing _ kept (each name mem_cons_self))
  have all := fold (fileNames p) ⟨[], false⟩ each (by simp)
  simp only [normalNames]
  split <;> exact all

theorem normalNames_filled (p : Name) : ∀ n ∈ (normalNames p).names, n ≠ [] ∧ separator ∉ n :=
  normalNames_all (by decide) (fileNames_filled p)

section

variable {byte : UInt8}

theorem mem_join_iff {names : List Name} (other : byte ≠ separator) : byte ∈ join names ↔ ∃ n ∈ names, byte ∈ n := by
  induction names with
  | nil => simp [join]
  | cons name rest ih =>
    cases rest with
    | nil => simp [join]
    | cons next rest =>
      rw [join] at ih ⊢
      rw [intercalate_cons_cons, mem_append, mem_append, ih, mem_singleton]
      simp [other]

theorem notMem_fileNames (other : byte ≠ separator) (absent : byte ∉ p) : ∀ n ∈ fileNames p, byte ∉ n := by
  intro n member among
  have joined : join (p.splitOn separator) = p := intercalate_splitOn separator
  have inside := (mem_join_iff other).mpr ⟨n, (mem_filter.mp member).1, among⟩
  rw [joined] at inside
  exact absent inside

theorem notMem_append {front back : Name} (other : byte ≠ separator) (before : byte ∉ front) (behind : byte ∉ back) :
    byte ∉ Path.append front back := by
  simp only [Path.append]
  split
  · exact behind
  · split <;> simp [other, before, behind]

theorem notMem_formatPathLexically (slash : byte ≠ separator) (point : byte ∉ dot) (climbing : byte ∉ dotdot)
    (absent : byte ∉ p) : byte ∉ formatPathLexically p := by
  refine notMem_append slash (by simp [slash]) ?_
  have names := normalNames_all climbing (notMem_fileNames slash absent)
  simp only [lexicallyNormal]
  split
  · exact not_mem_nil
  · split
    · split
      · simp [slash]
      · exact point
    · rename_i top rest equal
      have joined : byte ∉ join (normalNames p).names.reverse := by
        rw [mem_join_iff slash]
        rintro ⟨n, member, among⟩
        exact names n (mem_reverse.mp member) among
      rw [mem_append, mem_append, not_or, not_or]
      refine ⟨⟨?_, joined⟩, ?_⟩
      · split <;> simp [slash]
      · split <;> simp [slash]

theorem nul_notMem_formatPathLexically (absent : 0 ∉ p) : 0 ∉ formatPathLexically p :=
  notMem_formatPathLexically (by decide) (by decide) (by decide) absent

theorem nul_notMem_child {path name : Name} (whole : 0 ∉ formatPathLexically path) (named : 0 ∉ name) :
    0 ∉ formatPathLexically (Path.append (formatPathLexically path) name) :=
  nul_notMem_formatPathLexically (notMem_append (by decide) whole named)

end

theorem normalNames_plain (absolute : isAbsolute p = true) : ∀ n ∈ (normalNames p).names, Plain n := by
  have plain := normalFold_plain (fileNames p) (fileNames_filled p) ⟨[], false⟩ (by simp)
  simp only [normalNames, absolute]
  split <;> exact plain

theorem normalStep_keeps {state : Normal} {name : Name} (plain : Plain name) (absolute : Bool) :
    normalStep absolute state name = ⟨name :: state.names, false⟩ := by
  simp only [normalStep, if_neg plain.notDot, if_neg plain.notDotdot]

theorem normalFold_keeps (names : List Name) (plain : ∀ n ∈ names, Plain n) (absolute : Bool) (state : Normal)
    (unfinished : names = [] → state.trailing = false) :
    names.foldl (normalStep absolute) state = ⟨names.reverse ++ state.names, false⟩ := by
  induction names generalizing state with
  | nil =>
    cases state with
    | mk kept trailing =>
      have off : trailing = false := unfinished rfl
      simp [off]
  | cons name rest ih =>
    rw [foldl_cons, normalStep_keeps (plain name (by simp)),
      ih (fun n member => plain n (mem_cons_of_mem _ member)) _ (fun _ => rfl)]
    simp

theorem splitOn_separator (front back : Name) :
    (front ++ separator :: back).splitOn separator = front.splitOn separator ++ back.splitOn separator :=
  splitOn_append_cons_self ..

def spelled (names : List Name) (trailing : Bool) : Name :=
  [separator] ++ join names ++ (if trailing then [separator] else [])

section

variable {names : List Name}

theorem spelled_splitOn (whole : ∀ n ∈ names, separator ∉ n) (some_names : names ≠ []) (trailing : Bool) :
    (spelled names trailing).splitOn separator = [] :: names ++ (if trailing then [[]] else []) := by
  have joined : (join names).splitOn separator = names :=
    splitOn_intercalate separator whole some_names
  have rooted : ([separator] ++ join names).splitOn separator = [] :: names := by
    have split := splitOn_separator [] (join names)
    rw [joined] at split
    simpa using split
  cases trailing with
  | false => simp only [spelled, Bool.false_eq_true, if_false, append_nil, rooted]
  | true =>
    have split := splitOn_separator ([separator] ++ join names) []
    rw [rooted] at split
    simpa [spelled] using split

theorem spelled_fileNames (filled : ∀ n ∈ names, n ≠ [] ∧ separator ∉ n) (some_names : names ≠ []) (trailing : Bool) :
    fileNames (spelled names trailing) = names := by
  have kept : names.filter (fun name => !name.isEmpty) = names := by
    refine filter_eq_self.mpr ?_
    intro n member
    simpa using (filled n member).1
  simp only [fileNames, spelled_splitOn (fun n member => (filled n member).2) some_names]
  cases trailing <;> simp [kept]

theorem spelled_endsWithSeparator (plain : ∀ n ∈ names, Plain n) (some_names : names ≠ []) (trailing : Bool) :
    endsWithSeparator (spelled names trailing) = trailing := by
  cases trailing with
  | true =>
    simp only [endsWithSeparator, spelled, if_true, getLast?_append, getLast?_singleton, Option.some_or]
    rfl
  | false =>
    rw [Bool.eq_false_iff]
    intro ends
    simp only [endsWithSeparator, beq_iff_eq] at ends
    obtain ⟨front, spelling⟩ := getLast?_eq_some_iff.mp ends
    have split := spelled_splitOn (fun n member => (plain n member).whole) some_names false
    have tail := splitOn_separator front []
    rw [spelling] at split
    simp only [Bool.false_eq_true, if_false, append_nil] at split
    rw [split, splitOn_nil] at tail
    have last := congrArg getLast? tail
    rw [getLast?_append, getLast?_cons] at last
    have final := getLast_mem some_names
    rw [getLast?_eq_some_getLast some_names] at last
    simp only [Option.getD_some, getLast?_singleton, Option.some_or, Option.some.injEq] at last
    exact (plain _ final).filled last

theorem normalNames_spelled (plain : ∀ n ∈ names, Plain n) (some_names : names ≠ []) (trailing : Bool) :
    normalNames (spelled names trailing) = ⟨names.reverse, trailing⟩ := by
  have fold := normalFold_keeps names plain (isAbsolute (spelled names trailing)) ⟨[], false⟩ (fun _ => rfl)
  rw [append_nil] at fold
  have parts := spelled_fileNames (fun n member => ⟨(plain n member).filled, (plain n member).whole⟩) some_names trailing
  simp only [normalNames, parts, fold, spelled_endsWithSeparator plain some_names]
  cases trailing <;> rfl

theorem lexicallyNormal_spelled (plain : ∀ n ∈ names, Plain n) (some_names : names ≠ []) (trailing : Bool) :
    lexicallyNormal (spelled names trailing) = spelled names trailing := by
  have absolute : isAbsolute (spelled names trailing) = true := by simp [isAbsolute, spelled]
  have filled : spelled names trailing ≠ [] := by simp [spelled]
  simp only [lexicallyNormal, if_neg filled, normalNames_spelled plain some_names, absolute, if_true,
    reverse_reverse]
  cases reversed : names.reverse with
  | nil => exact absurd (reverse_eq_nil_iff.mp reversed) some_names
  | cons top rest =>
    have member : top ∈ names := by
      rw [← mem_reverse, reversed]
      exact mem_cons_self
    have other : (top != dotdot) = true := by simpa using (plain top member).notDotdot
    simp only [other, Bool.and_true, spelled]

end

theorem lexicallyNormal_absolute (absolute : isAbsolute p = true) : lexicallyNormal p = [separator] ∨
      ∃ names trailing, names ≠ [] ∧ (∀ n ∈ names, Plain n) ∧ lexicallyNormal p = spelled names trailing := by
  have filled : p ≠ [] := by
    rintro rfl
    cases absolute
  have plain := normalNames_plain absolute
  simp only [lexicallyNormal, if_neg filled, absolute, if_true]
  cases kept : (normalNames p).names with
  | nil => exact Or.inl rfl
  | cons top rest =>
    refine Or.inr ⟨(top :: rest).reverse, (normalNames p).trailing, by simp, ?_, ?_⟩
    · intro n member
      rw [kept] at plain
      exact plain n (mem_reverse.mp member)
    · have other : (top != dotdot) = true := by
        simpa using (plain top (by simp [kept])).notDotdot
      simp only [other, Bool.and_true, spelled]

theorem append_root (absolute : isAbsolute p = true) : Path.append [separator] p = p := by
  simp only [Path.append, absolute, if_true]

theorem formatPathLexically_absolute (absolute : isAbsolute p = true) :
    formatPathLexically (formatPathLexically p) = formatPathLexically p := by
  rcases lexicallyNormal_absolute absolute with root | ⟨names, trailing, some_names, plain, spelling⟩
  · simp only [formatPathLexically, root]
    decide
  · have rooted : isAbsolute (spelled names trailing) = true := by simp [isAbsolute, spelled]
    simp only [formatPathLexically, spelling, append_root rooted, lexicallyNormal_spelled plain some_names]

theorem formatPathLexically_isAbsolute (p : Name) : isAbsolute (formatPathLexically p) = true := by
  simp only [formatPathLexically, Path.append]
  split
  · assumption
  · simp [isAbsolute, endsWithSeparator]

theorem append_isAbsolute (absolute : isAbsolute p = true) (other : Name) :
    isAbsolute (Path.append p other) = true := by
  simp only [Path.append]
  split
  · assumption
  · cases p with
    | nil => cases absolute
    | cons byte rest =>
      simp only [isAbsolute] at absolute ⊢
      split <;> simpa using absolute

theorem formatPathLexically_twice (p : Name) : formatPathLexically (formatPathLexically (formatPathLexically p)) =
      formatPathLexically (formatPathLexically p) :=
  formatPathLexically_absolute (formatPathLexically_isAbsolute p)

theorem formatPathLexically_ne_nil (p : Name) : formatPathLexically p ≠ [] := by
  intro empty
  have absolute := formatPathLexically_isAbsolute p
  rw [empty] at absolute
  cases absolute

end ZenFSProof
