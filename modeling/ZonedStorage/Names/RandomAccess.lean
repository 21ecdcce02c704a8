import ZonedStorage.Journal.Reproduces
import ZonedStorage.Namespace.RandomAccess

namespace ZenFSProof

open Resumption Resumption.Prog ZenFSModel ZenFSModel.ZenFS ZenFSModel.NameMap

/-- A call of `NewRandomAccessFile` on its way: what it has left to do, how many actions it has taken,
    and the map as it has been since the call was made, last moment first. -/
structure ReadCall where
  shared : NameMap
  rest : Proc NameMap RandomAccess
  taken : Nat
  seen : List FileMap

namespace ReadCall

def begin (fs : ZenFS) (filename : Name) (useDirectReads : Bool) : ReadCall where
  shared := ⟨fs, []⟩
  rest := newRandomAccessFile filename useDirectReads
  taken := 0
  seen := [fs.files]

def acted (c : ReadCall) (rest : Proc NameMap RandomAccess) (shared : NameMap) : ReadCall :=
  ⟨shared, rest, c.taken + 1, shared.fs.files :: c.seen⟩

def interrupted (c : ReadCall) (fs : ZenFS) : ReadCall :=
  { c with shared := { c.shared with fs := fs }, seen := fs.files :: c.seen }

inductive Own (c : ReadCall) : ReadCall → Prop where
  | act {rest : Proc NameMap RandomAccess} {shared : NameMap} (moves : c.rest.Moves c.shared rest shared) :
    Own c (c.acted rest shared)

/-- Another client makes a whole call. What calls do to a map with a null in it is not followed. -/
inductive Other (allowed : ReadCall → Operation → Prop) (c : ReadCall) : ReadCall → Prop where
  | call (op : Operation) (ok : allowed c op) (whole : c.shared.nulls = []) {result : Except Status Unit} {fs : ZenFS}
    (ran : op.program.run c.shared.fs = some (result, fs)) :
    Other allowed c (c.interrupted fs)

inductive Step (allowed : ReadCall → Operation → Prop) (c c' : ReadCall) : Prop where
  | own (step : Own c c')
  | other (step : Other allowed c c')

abbrev Run (allowed : ReadCall → Operation → Prop) : ReadCall → ReadCall → Prop :=
  Relation.ReflTransGen (Step allowed)

end ReadCall

/-- The operation, called in this state, does not unbind the name. A rename has to be one of a file, since
    one of a directory moves whatever is below it. -/
def Operation.Spares (fs : ZenFS) (n : Name) : Operation → Prop
  | rename _ src dst => fs.files[formatPathLexically (formatPathLexically src)]? ≠ none ∧
    formatPathLexically src ≠ n ∧ formatPathLexically dst ≠ n ∧ formatPathLexically (formatPathLexically dst) ≠ n
  | op => op.Within (fun m => m ≠ n)

def Spared (n : Name) (fs fs' : ZenFS) : Prop := fs.files[n]? ≠ none → fs'.files[n]? ≠ none

namespace Spared

variable {n : Name}

theorem trans {fs fs' fs'' : ZenFS} (first : Spared n fs fs') (second : Spared n fs' fs'') : Spared n fs fs'' :=
  fun bound => second (first bound)

theorem covers : Covers (Spared n) (fun m => m ≠ n) where
  quiet files _ := by
    rw [Spared, files]
    exact id
  erase fs m keep other := by
    rw [Spared, eraseFile_lookup, if_neg (Ne.symm other)]
    exact id
  insert fs m r := by
    rw [Spared, insertFile_lookup]
    cases fs.files[n]? with
    | none => exact fun unbound => (unbound rfl).elim
    | some q => exact id
  attempted _ _ := id
  noted _ _ _ := id

theorem run {α : Type} {p : Proc ZenFS α} (keeps : p.Keeps (Spared n)) (fs : ZenFS) :
    wp (fun _ => True) True p (fun _ fs' => Spared n fs fs') fs := by
  have moves := keeps.wp_of covers.refl (fun _ _ _ => trans) fs
  exact wp_weaken (fun _ _ => trivial) id moves

end Spared

theorem Operation.spared (op : Operation) {n : Name} {fs fs' : ZenFS} {result : Except Status Unit}
    (spares : op.Spares fs n) (ran : op.program.run fs = some (result, fs')) : Spared n fs fs' := by
  suffices holds : wp (fun _ => True) True op.program (fun _ fs' => Spared n fs fs') fs from
    (wp_partial_iff _ _ _).mp holds result fs' ran
  have whole : op.Within (fun m => m ≠ n) → wp (fun _ => True) True op.program (fun _ fs' => Spared n fs fs') fs :=
    fun within => Spared.run (op.keeps Spared.covers within) fs
  cases op with
  | rename depth src dst =>
    obtain ⟨bound, source, dest, deleted⟩ := spares
    cases depth with
    | zero => trivial
    | succ depth =>
      obtain ⟨r, held⟩ := Option.ne_none_iff_exists'.mp bound
      have links := Spared.covers.renameLinkNoLock r source dest
      simp only [Operation.program, renameFile, LawfulMonad.bind_assoc, renameFileNoLock, getFileNoLock]
      refine (wp_bind _ _ _ _).mpr ⟨trivial, ?_⟩
      simp only [held]
      refine Spared.run (Keeps.bind ?_ (fun _ => Spared.covers.resetUnusedIOZones)) fs
      refine (Spared.covers.read _).bind (fun existing => ?_)
      split
      · exact (Spared.covers.deleteFileNoLock deleted).bind (fun _ => links)
      · exact links
  | create filename useDirectWrites reopen => exact whole spares
  | sync r => exact whole spares
  | link file dst => exact whole spares
  | delete path => exact whole spares
  | replace r newExtents => exact whole spares

def BoundDuring (seen : List FileMap) (n : Name) (r : Ref) : Prop := ∃ files ∈ seen, files[n]? = some r

section

variable {filename fname : Name} {useDirectReads : Bool} {m m' : NameMap} {rest : Proc NameMap RandomAccess} {r : Ref}

def afterLookup (fname : Name) (useDirectReads : Bool) : Option Ref → Proc NameMap RandomAccess
  | none => openAuxiliary
  | some _ => openZoned fname useDirectReads

theorem moves_lookup_iff : (newRandomAccessFile filename useDirectReads).Moves m rest m' ↔ m' = m ∧
    rest = afterLookup (formatPathLexically filename) useDirectReads
      m.fs.files[formatPathLexically (formatPathLexically filename)]? := by
  constructor
  · intro moves
    obtain ⟨answer, acted, rfl⟩ := Moves.inv moves
    cases acted
    exact ⟨rfl, rfl⟩
  · rintro ⟨rfl, rfl⟩
    exact Moves.act rfl

def afterSubscript (useDirectReads : Bool) : Option Ref → Proc NameMap RandomAccess
  | some r => .ret (.zoned (some r))
  | none => if useDirectReads then .hang else .ret (.zoned none)

theorem moves_subscript_iff : (openZoned fname useDirectReads).Moves m rest m' ↔ m' = (m.subscript fname).2 ∧
    rest = afterSubscript useDirectReads (m.subscript fname).1 := by
  constructor
  · intro moves
    obtain ⟨answer, acted, rfl⟩ := Moves.inv moves
    have done : m.subscript fname = (answer, m') := Option.some.inj acted
    rw [done]
    exact ⟨rfl, rfl⟩
  · rintro ⟨rfl, rfl⟩
    exact Moves.act rfl

theorem subscript_bound (held : m.fs.files[fname]? = some r) : m.subscript fname = (some r, m) := by
  simp only [subscript, held]

theorem subscript_unbound (unbound : m.fs.files[fname]? = none) :
    m.subscript fname = (none, { m with nulls := m.nulls.insert fname }) := by
  simp only [subscript, unbound]

theorem moves_subscript_null (unbound : m.fs.files[fname]? = none) :
    (openZoned fname false).Moves m (.ret (.zoned none)) { m with nulls := m.nulls.insert fname } := by
  rw [moves_subscript_iff, subscript_unbound unbound]
  exact ⟨rfl, rfl⟩

theorem auxiliary_ends (status : Option Status) : (match status with
      | none => Prog.ret .auxiliary
      | some status => Prog.fail status : Proc NameMap RandomAccess) = .ret .auxiliary ∨ ∃ failure,
        (match status with
        | none => Prog.ret .auxiliary
        | some status => Prog.fail status : Proc NameMap RandomAccess) = .fail failure := by
  cases status with
  | none => exact Or.inl rfl
  | some status => exact Or.inr ⟨status, rfl⟩

theorem moves_auxiliary (moves : openAuxiliary.Moves m rest m') : m'.nulls = m.nulls ∧ m'.fs.files = m.fs.files ∧
    (rest = .ret .auxiliary ∨ ∃ status, rest = .fail status) := by
  obtain ⟨answer, acted, rfl⟩ := Moves.inv moves
  cases acted
  exact ⟨rfl, rfl, auxiliary_ends _⟩

end

section

variable {filename : Name} {useDirectReads : Bool} {c c' : ReadCall}

inductive Phase (filename : Name) (useDirectReads : Bool) (c : ReadCall) : Prop where
  | called (rest : c.rest = newRandomAccessFile filename useDirectReads) (taken : c.taken = 0)
  | found (rest : c.rest = openZoned (formatPathLexically filename) useDirectReads) (taken : c.taken = 1)
    (bound : c.shared.fs.files[formatPathLexically filename]? ≠ none)
  | passing (rest : c.rest = openAuxiliary)
  | passed (rest : c.rest = .ret .auxiliary ∨ ∃ status, c.rest = .fail status)
  | opened (r : Ref) (rest : c.rest = .ret (.zoned (some r)))
    (bound : BoundDuring c.seen (formatPathLexically filename) r)

theorem Phase.own (phase : Phase filename useDirectReads c)
    (settled : formatPathLexically (formatPathLexically filename) = formatPathLexically filename)
    (step : c.Own c') : Phase filename useDirectReads c' ∧ c'.shared.nulls = c.shared.nulls ∧
      c'.shared.fs.files = c.shared.fs.files := by
  cases step with
  | act moves =>
    cases phase with
    | called rest taken =>
      rw [rest] at moves
      obtain ⟨rfl, rfl⟩ := moves_lookup_iff.mp moves
      refine ⟨?_, rfl, rfl⟩
      cases held : c.shared.fs.files[formatPathLexically (formatPathLexically filename)]? with
      | none => exact .passing rfl
      | some r =>
        have bound : c.shared.fs.files[formatPathLexically filename]? ≠ none := by
          rw [← settled, held]
          exact Option.some_ne_none r
        exact .found rfl (congrArg (· + 1) taken) bound
    | found rest taken bound =>
      rw [rest] at moves
      obtain ⟨r, held⟩ := Option.ne_none_iff_exists'.mp bound
      rw [moves_subscript_iff, subscript_bound held] at moves
      obtain ⟨rfl, rfl⟩ := moves
      exact ⟨.opened r rfl ⟨c.shared.fs.files, List.mem_cons_self, held⟩, rfl, rfl⟩
    | passing rest =>
      rw [rest] at moves
      obtain ⟨nulls, files, ends⟩ := moves_auxiliary moves
      exact ⟨.passed ends, nulls, files⟩
    | passed rest =>
      rcases rest with rest | ⟨status, rest⟩
      · rw [rest] at moves
        cases moves
      · rw [rest] at moves
        cases moves
    | opened r rest bound =>
      rw [rest] at moves
      cases moves

theorem Phase.other (phase : Phase filename useDirectReads c)
    (step : c.Other (fun c op => c.taken = 1 → op.Spares c.shared.fs (formatPathLexically filename)) c') :
    Phase filename useDirectReads c' ∧ c'.shared.nulls = c.shared.nulls := by
  cases step with
  | call op ok _ ran =>
    refine ⟨?_, rfl⟩
    cases phase with
    | called rest taken => exact .called rest taken
    | found rest taken bound =>
      exact .found rest taken (op.spared (ok taken) ran bound)
    | passing rest => exact .passing rest
    | passed rest => exact .passed rest
    | opened r rest bound =>
      obtain ⟨files, member, held⟩ := bound
      exact .opened r rest ⟨files, List.mem_cons_of_mem _ member, held⟩

theorem Phase.handle (phase : Phase filename useDirectReads c) {zoneFile : Option Ref}
    (returned : c.rest = .ret (.zoned zoneFile)) :
    ∃ r, zoneFile = some r ∧ BoundDuring c.seen (formatPathLexically filename) r := by
  cases phase with
  | called rest taken =>
    rw [rest] at returned
    cases returned
  | found rest taken bound =>
    rw [rest] at returned
    cases returned
  | passing rest =>
    rw [rest] at returned
    cases returned
  | passed rest =>
    rcases rest with rest | ⟨status, rest⟩
    · rw [rest] at returned
      cases returned
    · rw [rest] at returned
      cases returned
  | opened r rest bound =>
    rw [rest] at returned
    cases returned
    exact ⟨r, rfl, bound⟩

end

/-- In every interleaving in which no other client unbinds the name between the two accesses
    of a `NewRandomAccessFile` with a settled path, no null enters the map, a handle is one on a file that
    had the name during the call, and the call itself leaves the map as it is. -/
theorem random_access_leaves_map_whole {fs : ZenFS} {filename : Name} {useDirectReads : Bool} {c : ReadCall}
    (settled : formatPathLexically (formatPathLexically filename) = formatPathLexically filename)
    (run : ReadCall.Run (fun c op => c.taken = 1 → op.Spares c.shared.fs (formatPathLexically filename))
      (.begin fs filename useDirectReads) c) :
    c.shared.nulls = [] ∧
    (∀ zoneFile, c.rest = .ret (.zoned zoneFile) →
      ∃ r, zoneFile = some r ∧ BoundDuring c.seen (formatPathLexically filename) r) ∧
    ∀ c', c.Own c' → c'.shared.nulls = [] ∧ c'.shared.fs.files = c.shared.fs.files := by
  have invariant : Phase filename useDirectReads c ∧ c.shared.nulls = [] := by
    induction run with
    | refl => exact ⟨.called rfl rfl, rfl⟩
    | tail _ step ih =>
      obtain ⟨phase, whole⟩ := ih
      cases step with
      | own step =>
        obtain ⟨next, nulls, _⟩ := phase.own settled step
        exact ⟨next, nulls.trans whole⟩
      | other step =>
        obtain ⟨next, nulls⟩ := phase.other step
        exact ⟨next, nulls.trans whole⟩
  obtain ⟨phase, whole⟩ := invariant
  refine ⟨whole, fun _ returned => phase.handle returned, ?_⟩
  intro c' own
  obtain ⟨_, nulls, files⟩ := phase.own settled own
  exact ⟨nulls.trans whole, files⟩

def deletedOne : ZenFS := (afterAll createdOne [.delete (path "/b")]).getD createdOne

def readOne : ReadCall := .begin createdOne (path "/b") false

def lookedUp : ReadCall := readOne.acted (openZoned (formatPathLexically (path "/b")) false) readOne.shared

theorem readOne_looks_up : readOne.Own lookedUp := by
  have held : createdOne.files[formatPathLexically (formatPathLexically (path "/b"))]? = some 0 := by decide +kernel
  refine .act (moves_lookup_iff.mpr ⟨rfl, ?_⟩)
  change _ = afterLookup _ _ createdOne.files[_]?
  rw [held]
  rfl

/-- Between the two accesses of the call `/b` is deleted: the call returns OK with a null file, which is
    also in the map. A path that only the look-up brings to its normal form needs no other client for that. -/
theorem random_access_adds_null :
    (∃ c, ReadCall.Run (fun _ _ => True) readOne c ∧ c.shared.nulls = [path "/b"] ∧ c.rest = .ret (.zoned none)) ∧
    ∃ c, ReadCall.Run (fun _ _ => False) (.begin createdOne (path "../b") false) c ∧
      c.shared.nulls = [path "/../b"] ∧ c.rest = .ret (.zoned none) := by
  constructor
  · have ran : afterAll createdOne [.delete (path "/b")] = some deletedOne := some_getD (by decide +kernel) createdOne
    obtain ⟨⟨result, next⟩, ran, last⟩ := Option.bind_eq_some_iff.mp ran
    cases last
    have same : formatPathLexically (path "/b") = path "/b" := by decide +kernel
    have unbound : deletedOne.files[formatPathLexically (path "/b")]? = none := by decide +kernel
    have deleted : lookedUp.Other (fun _ _ => True) (lookedUp.interrupted deletedOne) :=
      .call (.delete (path "/b")) trivial rfl ran
    have used : (lookedUp.interrupted deletedOne).Own ((lookedUp.interrupted deletedOne).acted (.ret (.zoned none))
        ⟨deletedOne, [formatPathLexically (path "/b")]⟩) := .act (moves_subscript_null unbound)
    refine ⟨_, ((Relation.ReflTransGen.single (.own readOne_looks_up)).tail (.other deleted)).tail (.own used), ?_, rfl⟩
    exact congrArg (fun n => [n]) same
  · have held : createdOne.files[formatPathLexically (formatPathLexically (path "../b"))]? = some 0 := by decide +kernel
    have same : formatPathLexically (path "../b") = path "/../b" := by decide +kernel
    have unbound : createdOne.files[formatPathLexically (path "../b")]? = none := by decide +kernel
    let call := ReadCall.begin createdOne (path "../b") false
    have looks : call.Own (call.acted (openZoned (formatPathLexically (path "../b")) false) call.shared) := by
      refine .act (moves_lookup_iff.mpr ⟨rfl, ?_⟩)
      change _ = afterLookup _ _ createdOne.files[_]?
      rw [held]
      rfl
    have used := ReadCall.Own.act (c := call.acted (openZoned (formatPathLexically (path "../b")) false) call.shared)
      (moves_subscript_null (m := ⟨createdOne, []⟩) unbound)
    refine ⟨_, (Relation.ReflTransGen.single (.own looks)).tail (.own used), ?_, rfl⟩
    exact congrArg (fun n => [n]) same

def createdNext : ZenFS := (afterAll createdOne [.create (path "/c") true false]).getD createdOne

/-- Another client creates `/c` between the two accesses. -/
theorem readOne_leaves_map_whole : createdNext.files[path "/c"]? = some 1 ∧
    (lookedUp.interrupted createdNext).shared.nulls = [] ∧
    ∀ c', (lookedUp.interrupted createdNext).Own c' → c'.shared.nulls = [] ∧ c'.shared.fs.files = createdNext.files := by
  have ran : afterAll createdOne [.create (path "/c") true false] = some createdNext :=
    some_getD (by decide +kernel) createdOne
  obtain ⟨⟨result, next⟩, ran, last⟩ := Option.bind_eq_some_iff.mp ran
  cases last
  have spares : (Operation.create (path "/c") true false).Spares createdOne (formatPathLexically (path "/b")) := by
    change formatPathLexically (formatPathLexically (path "/c")) ≠ formatPathLexically (path "/b")
    decide +kernel
  have created : lookedUp.Other (fun c op => c.taken = 1 → op.Spares c.shared.fs (formatPathLexically (path "/b")))
      (lookedUp.interrupted createdNext) := .call (.create (path "/c") true false) (fun _ => spares) rfl ran
  have whole := random_access_leaves_map_whole (by decide +kernel)
    ((Relation.ReflTransGen.single (.own readOne_looks_up)).tail (.other created))
  exact ⟨by decide +kernel, whole.1, whole.2.2⟩

end ZenFSProof
