import ZonedStorage.MetaLog.RoundTrip
import ZonedStorage.Names.AllOrNothing
import ZonedStorage.Namespace.MkFS
import ZonedStorage.Namespace.PathNormal
import ZonedStorage.Namespace.RandomAccess

namespace ZenFSModel.FileSystem

open Resumption ZenFS

def newWritableFile (filename : Name) (useDirectWrites : Bool) : Proc ZenFS Nat :=
  openWritableFile (formatPathLexically filename) useDirectWrites false

def fileExists (filename : Name) : Proc ZenFS Unit := do
  match ← getFileNoLock (formatPathLexically filename) with
  | none => target
  | some _ => pure ()

end ZenFSModel.FileSystem

namespace ZenFSProof

open Resumption Resumption.Prog ZenFSModel ZenFSModel.ZenFS ZenFSModel.NameMap ZenFSModel.Path List FileSystem

/-- How far below its start a relative path leads, or `none` if it ever goes above it. -/
def depthAfter : Nat → List Name → Option Nat
  | depth, [] => some depth
  | depth, name :: rest =>
    if name = dot then depthAfter depth rest
    else if name = dotdot then
      if depth = 0 then none else depthAfter (depth - 1) rest
    else depthAfter (depth + 1) rest

/-- The path is absolute or empty, or it leads below where it starts and never above. -/
def Stays (p : Name) : Prop := isAbsolute p = true ∨ p = [] ∨ ∃ depth, depthAfter 0 (fileNames p) = some (depth + 1)

section

variable {names : List Name}

theorem normalFold_above {state : Path.Normal} (above : state.names.getLast? = some dotdot) :
    (names.foldl (normalStep false) state).names.getLast? = some dotdot := by
  induction names generalizing state with
  | nil => exact above
  | cons name rest ih =>
    rw [foldl_cons]
    refine ih ?_
    cases names : state.names with
    | nil =>
      rw [names] at above
      cases above
    | cons top below =>
      rw [names] at above
      simp only [normalStep, names]
      split
      · exact above
      · split
        · split
          · exact above
          · rename_i other
            cases below with
            | nil => exact (other (Option.some.inj above)).elim
            | cons next deeper => exact above
        · exact above

def Follows (names : List Name) : Option Nat → Prop
  | some depth => (∀ n ∈ names, Plain n) ∧ names.length = depth
  | none => names.getLast? = some dotdot

theorem normalFold_follows (each : ∀ name ∈ names, name ≠ [] ∧ separator ∉ name) (state : Path.Normal)
    (kept : ∀ n ∈ state.names, Plain n) :
    Follows (names.foldl (normalStep false) state).names (depthAfter state.names.length names) := by
  induction names generalizing state with
  | nil => exact ⟨kept, rfl⟩
  | cons name rest ih =>
    have others : ∀ n ∈ rest, n ≠ [] ∧ separator ∉ n := fun n member => each n (mem_cons_of_mem _ member)
    rw [foldl_cons, depthAfter]
    by_cases here : name = dot
    · rw [if_pos here, here, normalStep, if_pos rfl]
      exact ih others _ kept
    · rw [if_neg here]
      by_cases up : name = dotdot
      · rw [if_pos up]
        cases names : state.names with
        | nil =>
          simp only [normalStep, if_neg here, if_pos up, names, length_nil, if_true]
          exact normalFold_above rfl
        | cons top below =>
          have plain : ∀ n ∈ top :: below, Plain n := names ▸ kept
          simp only [normalStep, if_neg here, if_pos up, names, if_neg (plain top mem_cons_self).notDotdot]
          exact ih others _ (fun n member => plain n (mem_cons_of_mem _ member))
      · rw [if_neg up]
        obtain ⟨filled, whole⟩ := each name mem_cons_self
        have plain : Plain name := ⟨filled, whole, here, up⟩
        rw [normalStep_keeps plain]
        refine ih others _ ?_
        intro n member
        rcases mem_cons.mp member with rfl | before
        · exact plain
        · exact kept n before

theorem normalNames_relative {p : Name} (relative : isAbsolute p = false) :
    Follows (normalNames p).names (depthAfter 0 (fileNames p)) := by
  have follows := normalFold_follows (fileNames_filled p) ⟨[], false⟩ (by simp)
  simp only [normalNames, relative]
  split <;> exact follows

end

variable {p : Name}

theorem append_relative (relative : isAbsolute p = false) : Path.append [separator] p = [separator] ++ p := by
  simp only [Path.append, relative, Bool.false_eq_true, if_false]
  rfl

theorem join_relative {name : Name} {rest : List Name} (filled : name ≠ []) (whole : separator ∉ name) (back : Name) :
    isAbsolute (join (name :: rest) ++ back) = false := by
  obtain ⟨byte, others, rfl⟩ := exists_cons_of_ne_nil filled
  have other : byte ≠ separator := fun same => whole (same ▸ mem_cons_self)
  cases rest <;> simpa [isAbsolute, join, intercalate] using other

theorem formatPathLexically_relative (relative : isAbsolute p = false) (filled : p ≠ []) :
    ((normalNames p).names = [] → formatPathLexically p = [separator] ++ dot) ∧
    ((normalNames p).names ≠ [] → ∃ trailing, formatPathLexically p = spelled (normalNames p).names.reverse trailing) := by
  refine ⟨fun none => ?_, fun some_names => ?_⟩
  · simp only [formatPathLexically, lexicallyNormal, if_neg filled, none, relative]
    rfl
  · obtain ⟨top, rest, names⟩ := exists_cons_of_ne_nil some_names
    refine ⟨(normalNames p).trailing && top != dotdot, ?_⟩
    have first : isAbsolute (join (normalNames p).names.reverse ++
        (if (normalNames p).trailing && top != dotdot then [separator] else [])) = false := by
      cases reversed : (normalNames p).names.reverse with
      | nil => exact (some_names (reverse_eq_nil_iff.mp reversed)).elim
      | cons name behind =>
        have member : name ∈ (normalNames p).names := by
          rw [← mem_reverse, reversed]
          exact mem_cons_self
        obtain ⟨inside, whole⟩ := normalNames_filled p name member
        exact join_relative inside whole _
    simp only [formatPathLexically, lexicallyNormal, if_neg filled, relative, Bool.false_eq_true, if_false, nil_append]
    simp only [names] at first ⊢
    rw [append_relative first, spelled, append_assoc]

theorem formatPathLexically_plain (absolute : isAbsolute p = true) :
    ∀ n ∈ fileNames (formatPathLexically p), Plain n := by
  rcases lexicallyNormal_absolute absolute with root | ⟨names, trailing, some_names, plain, spelling⟩
  · have none : fileNames (formatPathLexically p) = [] := by
      rw [formatPathLexically, root]
      decide
    rw [none]
    simp
  · have rooted : isAbsolute (spelled names trailing) = true := by simp [isAbsolute, spelled]
    have filled : ∀ n ∈ names, n ≠ [] ∧ separator ∉ n := fun n member => ⟨(plain n member).filled, (plain n member).whole⟩
    rw [formatPathLexically, spelling, append_root rooted, spelled_fileNames filled some_names]
    exact plain

theorem Normal.plain (normal : Normal p) : ∀ n ∈ fileNames (formatPathLexically p), Plain n :=
  normal ▸ formatPathLexically_plain (formatPathLexically_isAbsolute p)

theorem normal_iff_stays (p : Name) : Normal p ↔ Stays p := by
  cases absolute : isAbsolute p with
  | true => exact ⟨fun _ => .inl absolute, fun _ => formatPathLexically_absolute absolute⟩
  | false =>
    by_cases empty : p = []
    · refine ⟨fun _ => .inr (.inl empty), fun _ => ?_⟩
      rw [empty]
      decide
    · have follows := normalNames_relative absolute
      obtain ⟨nothing, something⟩ := formatPathLexically_relative absolute empty
      have leads : Stays p ↔ ∃ depth, depthAfter 0 (fileNames p) = some (depth + 1) := by
        simp [Stays, absolute, empty]
      have filled : ∀ n ∈ (normalNames p).names.reverse, n ≠ [] ∧ separator ∉ n :=
        fun n member => normalNames_filled p n (mem_reverse.mp member)
      rw [leads]
      match led : depthAfter 0 (fileNames p) with
      | none =>
        rw [led] at follows
        have above : dotdot ∈ (normalNames p).names := mem_of_getLast? follows
        obtain ⟨trailing, spelling⟩ := something (ne_nil_of_mem above)
        refine ⟨fun normal => ?_, fun ⟨_, given⟩ => by cases given⟩
        have plain := normal.plain
        rw [spelling, spelled_fileNames filled (by simpa using ne_nil_of_mem above)] at plain
        exact ((plain dotdot (mem_reverse.mpr above)).notDotdot rfl).elim
      | some 0 =>
        rw [led] at follows
        have spelling := nothing (length_eq_zero_iff.mp follows.2)
        refine ⟨fun normal => ?_, fun ⟨_, given⟩ => by cases given⟩
        have plain := normal.plain
        rw [spelling] at plain
        exact ((plain dot (by decide)).notDot rfl).elim
      | some (depth + 1) =>
        rw [led] at follows
        have some_names : (normalNames p).names ≠ [] := ne_nil_of_length_eq_add_one follows.2
        obtain ⟨trailing, spelling⟩ := something some_names
        refine ⟨fun _ => ⟨depth, rfl⟩, fun _ => ?_⟩
        have plain : ∀ n ∈ (normalNames p).names.reverse, Plain n := fun n member => follows.1 n (mem_reverse.mp member)
        have rooted : isAbsolute (spelled (normalNames p).names.reverse trailing) = true := by simp [isAbsolute, spelled]
        rw [Normal, spelling, formatPathLexically, lexicallyNormal_spelled plain (by simpa using some_names),
          append_root rooted]

/-- The calls that take the path of the file `r` find it, in whatever state its name is bound. -/
structure Finds (p : Name) (fs : ZenFS) (r : Ref) : Prop where
  found : (fileExists p).run fs = some (.ok (), fs)
  opened : ∀ nulls useDirectReads,
    (newRandomAccessFile p useDirectReads).run ⟨fs, nulls⟩ = some (.ok (.zoned (some r)), ⟨fs, nulls⟩)
  linked : ∀ q, Stays q → fs.files[formatPathLexically q]? = none →
    Ensures (linkFile p q) (LinkOutcome fs r (formatPathLexically q)) fs
  renamed : ∀ q depth, Stays q → Ensures (renameFileNoLock (depth + 1) p q)
    (RenameOutcome fs r (formatPathLexically p) (formatPathLexically q)) fs
  deleted : Ensures (deleteFileNoLock p) (DeleteOutcome fs r (formatPathLexically p)) fs

/-- `NewWritableFile` binds the name under which the other calls look for the path. -/
def CallsAgree (p : Name) : Prop :=
  ∀ (fs : ZenFS) (alive : Ref → Prop), WellNamed (nameState fs) alive →
    (∀ useDirectWrites, Ensures (newWritableFile p useDirectWrites)
      (OpenOutcome fs (formatPathLexically p) false) fs) ∧
    ∀ r, fs.files[formatPathLexically p]? = some r → Finds p fs r

theorem Normal.callsAgree (normal : Normal p) (whole : 0 ∉ formatPathLexically p) : CallsAgree p := by
  intro fs alive well
  refine ⟨fun useDirectWrites => ?_, fun r held => ?_⟩
  · have opens := ensures_openWritableFile well (formatPathLexically_twice p : Normal (formatPathLexically p))
      (by rw [normal]; exact whole) useDirectWrites false (fun given => by cases given)
    rw [normal] at opens
    exact opens
  · have again : fs.files[formatPathLexically (formatPathLexically p)]? = some r := by
      rw [normal]
      exact held
    refine ⟨?_, ?_, ?_, ?_, ?_⟩
    · simp only [fileExists, getFileNoLock, run_bind, run_read]
      rw [again]
      rfl
    · intro nulls useDirectReads
      have lookup : (getFile (formatPathLexically p)).run ⟨fs, nulls⟩ = some (.ok (some r), ⟨fs, nulls⟩) := by
        simp only [getFile, getFileNoLock, Prog.read, act, zoom, run, fsLens, Option.map_some]
        rw [again]
      have same : subscript ⟨fs, nulls⟩ (formatPathLexically p) = (some r, ⟨fs, nulls⟩) := by
        simp only [subscript]
        rw [held]
      simp only [newRandomAccessFile, run_bind, lookup, openZoned, run_act, same, run_pure]
    · intro q stays free
      have dest := (normal_iff_stays q).mpr stays
      exact ensures_linkFile rfl normal rfl dest held free (well.kept held)
    · exact fun q depth stays => ensures_renameFileNoLock well depth normal ((normal_iff_stays q).mpr stays) held
    · exact ensures_deleteFileNoLock rfl normal held (well.listed held)

theorem OpenOutcome.bound {fs fs' : ZenFS} {n : Name} {reopen : Bool} {writer : Nat}
    (opened : OpenOutcome fs n reopen (.ok writer) fs') : fs'.files[n]? ≠ none := by
  have created : ∀ {fs₁ fs₂ : ZenFS} {writer : Nat}, CreateOutcome fs₁ n (.ok writer) fs₂ → fs₂.files[n]? ≠ none := by
    intro fs₁ fs₂ writer create
    cases create with
    | done names noted handed =>
      rw [files_some names HardLinks.Table.link_lookup_self]
      exact Option.some_ne_none _
  cases opened with
  | reopened held again names history handed =>
    rw [files_some names held]
    exact Option.some_ne_none _
  | created free create => exact created create
  | replaced held fresh deleted create quiet writers value =>
    have same := congrFun (congrArg (fun s => s.table.lookup) quiet.1) n
    exact fun unbound => created create (same.symm.trans unbound)

/-- A new file system whose metadata zone has room for any record. -/
def wideZenFS : ZenFS := { sampleZenFS with md := wideDevice }

theorem wide_persistRecord {fs : ZenFS} (md : fs.md = wideDevice) (log : fs.metaLog.zone = 0)
    (record : ByteString.Bytes) :
    Ensures (persistRecord record) (fun result fs' => result = .ok () ∧ nameState fs' = nameState fs) fs := by
  have room : (ZenMetaLog.recordBuffer fs.md.geo.blockSz record).length % 2 ^ 32 ≤ (fs.md.zones fs.metaLog.zone).capacity := by
    rw [md, log]
    exact Nat.le_of_lt (Nat.mod_lt _ (by decide))
  have healthy : Healthy fs.md := by
    rw [md]
    exact fun _ => rfl
  have taken : Ensures (persistRecord record) (fun result _ => result = .ok ()) fs := by
    simp only [persistRecord, wp_bind, wp_act, onOk_ok, true_and]
    rw [wp_attempt, onMeta, wp_zoom]
    refine wp_mono ?_ (addRecord_taken healthy room)
    rintro result d rfl
    exact ⟨trivial, rfl⟩
  exact wp_mono (fun _ _ both => ⟨both.1, both.2.names⟩) (wp_and taken (ensures_persistRecord fs record))

theorem nul_name_unbound (normal : Normal p) (nul : 0 ∈ formatPathLexically p) :
    Ensures (newWritableFile p false)
      (fun result fs' => (∃ writer, result = .ok writer) ∧ fs'.files[formatPathLexically p]? = none) wideZenFS := by
  have empty : ∀ n : Name, wideZenFS.files[n]? = none := fun _ => Std.TreeMap.getElem?_emptyc
  unfold Normal at normal
  simp only [FileSystem.newWritableFile, openWritableFile, getFileNoLock, normal, empty, wp_bind, wp_read, onOk_ok,
    Option.isSome_none, Bool.false_eq_true, if_false, createFile, ask, wp_act, true_and]
  generalize formatPathLexically p = n at nul
  obtain ⟨_, kept, unlocked, _⟩ := makeFile_fields n false
    (wideZenFS.answers wideZenFS.asked).time.toNat wideZenFS.nextFileId
  simp only [syncFileMetadataNoLock, ZenFS.object, ZenFS.setObject, Function.update_self, kept, Bool.false_eq_true,
    if_false, Bool.not_false, if_true, setMTime, ask, modifyObject, wp_bind, wp_read, wp_act, wp_update, onOk_ok,
    true_and]
  refine wp_mono ?_ (wide_persistRecord rfl rfl _)
  rintro result fs' ⟨rfl, names⟩
  have open_ : (fs'.objects wideZenFS.nextRef).openForWr = false := by
    have same := congrFun (congrArg NameState.locked names) wideZenFS.nextRef
    refine same.trans ?_
    simp only [nameState, Function.update_self]
    exact unlocked
  have free : fs'.files[n]? = none := (congrFun (congrArg (fun s => s.table.lookup) names) n).trans (empty n)
  have synced : ((fs'.synced wideZenFS.nextRef).objects wideZenFS.nextRef).openForWr = false := by
    simp only [ZenFS.synced, ZenFS.setPersisted, ZenFS.setObject, Function.update_self]
    exact open_
  simp only [onOk_ok, acquireWRLock, wp_await, synced, Bool.false_eq_true, if_false, ZenFS.newWritableFile,
    wp_act, true_and]
  refine ⟨⟨_, rfl⟩, ?_⟩
  change (fs'.files.insertIfNew (cStr n) wideZenFS.nextRef)[n]? = none
  rw [insertIfNew_lookup, free]
  exact if_neg (fun same => cStr_eq_self_iff.mp same.symm nul)

/-- Formatting is idempotent, and the calls agree, for exactly the paths that do not lead to their start or above,
    and whose normal form has no NUL byte. -/
theorem spellings_agree_iff (p : Name) : (Normal p ∧ CallsAgree p) ↔ Stays p ∧ 0 ∉ formatPathLexically p := by
  constructor
  · rintro ⟨normal, agree⟩
    refine ⟨(normal_iff_stays p).mp normal, fun nul => ?_⟩
    obtain ⟨_, _, _, ⟨⟨_, rfl⟩, unbound⟩, opened⟩ :=
      (wp_total_iff _ _ _).mp (wp_and (nul_name_unbound normal nul) ((agree wideZenFS _ sample_wellNamed).1 false))
    exact opened.bound unbound
  · rintro ⟨stays, whole⟩
    have normal := (normal_iff_stays p).mpr stays
    exact ⟨normal, normal.callsAgree whole⟩

def aboveRoot : ZenFS := ((newWritableFile dotdot false).run sampleZenFS).elim sampleZenFS Prod.snd

/-- The file is there under the name `/`, but it cannot be deleted and opening it for reading gives a null file. -/
theorem above_root_disagrees : ¬ Normal dotdot ∧
    ((newWritableFile dotdot false).run sampleZenFS).map Prod.fst = some (.ok 0) ∧
    ((fileExists dotdot).run aboveRoot).map Prod.fst = some (.ok ()) ∧
    ((newRandomAccessFile dotdot false).run ⟨aboveRoot, []⟩).map Prod.fst = some (.ok (.zoned none)) ∧
    ((deleteFileNoLock dotdot).run aboveRoot).map Prod.fst =
      some (.error (Status.ioError "RemoveLinkInfo: Failed to find the link file")) := by
  refine ⟨by decide +kernel, by decide +kernel, by decide +kernel, by decide +kernel, by decide +kernel⟩

end ZenFSProof
