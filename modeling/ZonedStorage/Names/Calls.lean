import ZonedStorage.Names.Outcomes

namespace ZenFSProof

open HardLinks ZenFSModel ZenFSModel.ZenFS Function Table

/-- The map, the link lists, the ids and the counters fit together for every file that is `alive`. -/
structure WellNamed (s : NameState) (alive : Ref → Prop) : Prop where
  paired : s.table.Paired alive
  kept : ∀ {n r}, s.table.lookup n = some r → s.deleted r = false
  unique : ∀ {r q}, alive r → alive q → s.id r = s.id q → r = q
  counted : ∀ {r}, alive r → s.id r < s.nextFileId
  bounded : ∀ {r}, alive r → r < s.nextRef

def NameState.Owned (s : NameState) (r : Ref) : Prop := (∃ n, s.table.lookup n = some r) ∨ s.handles r ≠ 0

namespace WellNamed

variable {s : NameState} {alive : Ref → Prop} {r q : Ref} {n m : Name}

section

variable (well : WellNamed s alive)

include well

theorem alive_of (held : s.table.lookup n = some r) : alive r := well.paired.named held

theorem listed (held : s.table.lookup n = some r) : n ∈ s.table.links r :=
  (well.paired.listed (well.alive_of held) n).mp held

theorem unlink (held : s.table.lookup n = some r) : WellNamed (s.unlink r n) alive where
  paired := well.paired.unlink held
  kept {m q} found := by
    by_cases same : m = n
    · subst same
      rw [NameState.unlink, unlink_lookup_self] at found
      cases found
    · rw [NameState.unlink, unlink_lookup_other same] at found
      exact well.kept found
  unique := well.unique
  counted := well.counted
  bounded := well.bounded

theorem link (free : s.table.lookup n = none) (known : alive r) (kept : s.deleted r = false) :
    WellNamed (s.link r n) alive where
  paired := well.paired.link free known
  kept {m q} found := by
    by_cases same : m = n
    · subst same
      rw [NameState.link, link_lookup_self] at found
      cases found
      exact kept
    · rw [NameState.link, link_lookup_other same] at found
      exact well.kept found
  unique := well.unique
  counted := well.counted
  bounded := well.bounded

theorem relink (held : s.table.lookup n = some r) : WellNamed ((s.unlink r n).link r n) alive :=
  (well.unlink held).link unlink_lookup_self (well.alive_of held) (well.kept held)

theorem discard (known : alive r) : WellNamed (s.discard r) alive := by
  unfold NameState.discard
  split
  · rename_i empty
    refine ⟨well.paired, ?_, well.unique, well.counted, well.bounded⟩
    intro n q found
    have other : q ≠ r := by
      rintro rfl
      have listed := (well.paired.listed known n).mp found
      rw [empty] at listed
      cases listed
    exact (update_of_ne other ..).trans (well.kept found)
  · exact well

theorem move (held : s.table.lookup n = some r) (free : s.table.lookup m = none) :
    WellNamed ((s.unlink r n).link r m) alive := by
  have different : m ≠ n := by
    rintro rfl
    rw [held] at free
    cases free
  refine (well.unlink held).link ?_ (well.alive_of held) (well.kept held)
  rw [NameState.unlink, unlink_lookup_other different]
  exact free

theorem move_back (held : s.table.lookup n = some r) (free : s.table.lookup m = none) :
    WellNamed ((((s.unlink r n).link r m).unlink r m).link r n) alive := by
  have different : n ≠ m := by
    rintro rfl
    rw [held] at free
    cases free
  refine (well.move held free).move link_lookup_self ?_
  simp only [NameState.link, NameState.unlink]
  rw [link_lookup_other different, unlink_lookup_self]

theorem fresh : ¬ alive s.nextRef := fun known => Nat.lt_irrefl _ (well.bounded known)

theorem draft (more : s.nextFileId + 1 < 2 ^ 64) (n : Name) : WellNamed (s.draft n) alive := by
  have other : ∀ {q}, alive q → q ≠ s.nextRef := fun known => Nat.ne_of_lt (well.bounded known)
  have ids : ∀ {q}, alive q → (s.draft n).id q = s.id q := fun known => update_of_ne (other known) ..
  have links : ∀ {q}, alive q → (s.draft n).table.links q = s.table.links q :=
    fun known => update_of_ne (other known) ..
  constructor
  · refine ⟨well.paired.named, ?_, ?_⟩
    · intro q known m
      rw [links known]
      exact well.paired.listed known m
    · intro q known
      rw [links known]
      exact well.paired.nodup known
  · intro m q found
    exact (update_of_ne (other (well.alive_of found)) ..).trans (well.kept found)
  · intro p q first second same
    rw [ids first, ids second] at same
    exact well.unique first second same
  · intro q known
    rw [ids known]
    change s.id q < (s.nextFileId + 1) % 2 ^ 64
    rw [Nat.mod_eq_of_lt more]
    exact Nat.lt_succ_of_lt (well.counted known)
  · exact fun known => Nat.lt_succ_of_lt (well.bounded known)

theorem create (more : s.nextFileId + 1 < 2 ^ 64) : WellNamed s.create (fun q => alive q ∨ q = s.nextRef) := by
  have other : ∀ {q}, alive q → q ≠ s.nextRef := fun known => Nat.ne_of_lt (well.bounded known)
  have old : ∀ {q}, alive q → s.create.id q = s.id q := fun known => update_of_ne (other known) ..
  have new : s.create.id s.nextRef = s.nextFileId := update_self ..
  constructor
  · exact well.paired.born well.fresh
  · intro m q found
    exact (update_of_ne (other (well.alive_of found)) ..).trans (well.kept found)
  · rintro p q (first | rfl) (second | rfl) same
    · rw [old first, old second] at same
      exact well.unique first second same
    · rw [old first, new] at same
      exact absurd same (Nat.ne_of_lt (well.counted first))
    · rw [old second, new] at same
      exact absurd same.symm (Nat.ne_of_lt (well.counted second))
    · rfl
  · intro q known
    change s.create.id q < (s.nextFileId + 1) % 2 ^ 64
    rw [Nat.mod_eq_of_lt more]
    rcases known with known | rfl
    · rw [old known]
      exact Nat.lt_succ_of_lt (well.counted known)
    · rw [new]
      exact Nat.lt_succ_self _
  · rintro q (known | rfl)
    · exact Nat.lt_succ_of_lt (well.bounded known)
    · exact Nat.lt_succ_self _

theorem opened (r : Ref) : WellNamed (s.opened r) alive :=
  ⟨well.paired, well.kept, well.unique, well.counted, well.bounded⟩

theorem shrink (owned : ∀ r, s.Owned r → alive r) : WellNamed s s.Owned where
  paired := well.paired.restrict (fun held => Or.inl ⟨_, held⟩) owned
  kept := well.kept
  unique first second := well.unique (owned _ first) (owned _ second)
  counted known := well.counted (owned _ known)
  bounded known := well.bounded (owned _ known)

end

end WellNamed

open Resumption Resumption.Prog

def Normal (path : Name) : Prop := formatPathLexically (formatPathLexically path) = formatPathLexically path

instance (path : Name) : Decidable (Normal path) := inferInstanceAs (Decidable (_ = _))

section

inductive RenameOutcome (fs : ZenFS) (r : Ref) (n m : Name) : Except Status Unit → ZenFS → Prop
  | moved {result fs'} (free : fs.files[m]? = none) (move : MoveOutcome fs r n m result fs') :
    RenameOutcome fs r n m result fs'
  | refused {q status fs'} (held : fs.files[m]? = some q) (deleted : DeleteOutcome fs q m (.error status) fs') :
    RenameOutcome fs r n m (.error status) fs'
  | lost {status fs'} (same : n = m) (deleted : DeleteOutcome fs r m (.ok ()) fs') :
    RenameOutcome fs r n m (.error status) fs'
  | replaced {q fs₁ result fs'} (held : fs.files[m]? = some q) (different : n ≠ m)
    (deleted : DeleteOutcome fs q m (.ok ()) fs₁) (move : MoveOutcome fs₁ r n m result fs') :
    RenameOutcome fs r n m result fs'

variable {fs fs' : ZenFS} {alive : Ref → Prop} {r q : Ref} {n m : Name}

theorem DeleteOutcome.names_done (deleted : DeleteOutcome fs q m (.ok ()) fs') :
    nameState fs' = ((nameState fs).unlink q m).discard q := by
  cases deleted with
  | done names noted => exact names

theorem discard_table (s : NameState) (r : Ref) : (s.discard r).table = s.table := by
  unfold NameState.discard
  split <;> rfl

theorem DeleteOutcome.still (well : WellNamed (nameState fs) alive) (held : fs.files[n]? = some r)
    (target : fs.files[m]? = some q) (different : n ≠ m) (deleted : DeleteOutcome fs q m (.ok ()) fs') :
    fs'.files[n]? = some r ∧ fs'.files[m]? = none ∧ WellNamed (nameState fs') alive := by
  have names := deleted.names_done
  have well' : WellNamed (nameState fs') alive := by
    rw [names]
    exact (well.unlink target).discard (well.alive_of target)
  refine ⟨files_some names ?_, files_none names ?_, well'⟩
  · rw [discard_table, NameState.unlink, Table.unlink_lookup_other different]
    exact held
  · rw [discard_table, NameState.unlink, Table.unlink_lookup_self]

theorem ensures_renameFileNoLock (well : WellNamed (nameState fs) alive) {src dst : Name} (depth : Nat)
    (source : Normal src) (dest : Normal dst) (held : fs.files[formatPathLexically src]? = some r) :
    Ensures (renameFileNoLock (depth + 1) src dst)
      (RenameOutcome fs r (formatPathLexically src) (formatPathLexically dst)) fs := by
  have kept : (fs.objects r).isDeleted = false := well.kept held
  have listed : formatPathLexically src ∈ (fs.objects r).linkFiles := well.listed held
  unfold Normal at source dest
  simp only [renameFileNoLock, getFileNoLock, source, dest, held, wp_bind, wp_read, onOk_ok, true_and]
  generalize formatPathLexically src = n at source held listed ⊢
  generalize formatPathLexically dst = m at dest ⊢
  cases target : fs.files[m]? with
  | none =>
    simp only [Option.isSome_none, Bool.false_eq_true, if_false]
    refine wp_mono ?_ (ensures_renameLinkNoLock held listed target kept)
    exact fun result fs' move => .moved target move
  | some q =>
    have named : m ∈ (fs.objects q).linkFiles := well.listed target
    simp only [Option.isSome_some, if_true, wp_bind]
    refine wp_mono ?_ (ensures_deleteFileNoLock dest dest target named)
    intro result fs₁ deleted
    cases result with
    | error status => exact .refused target deleted
    | ok _ =>
      rw [onOk_ok]
      by_cases same : n = m
      · subst same
        rw [held] at target
        cases target
        have gone : n ∉ (fs₁.objects r).linkFiles := by
          rw [links_eq deleted.names_done, discard_table, NameState.unlink, Table.unlink_links_self]
          exact (well.paired.nodup (well.alive_of held)).not_mem_erase
        simp only [renameLinkNoLock, ZenFS.object, ZoneFile.renameLink, gone, if_false, wp_bind, wp_read, wp_ofExcept,
          onOk_ok, onOk_error, true_and]
        exact .lost rfl deleted
      · obtain ⟨held₁, free₁, well₁⟩ := deleted.still well held target same
        refine wp_mono ?_ (ensures_renameLinkNoLock held₁ (well₁.listed held₁) free₁ (well₁.kept held₁))
        exact fun result fs' move => .replaced target same deleted move

end

section

inductive OpenOutcome (fs : ZenFS) (n : Name) (reopen : Bool) : Except Status Nat → ZenFS → Prop
  | reopened {r writer fs'} (held : fs.files[n]? = some r) (again : reopen = true)
    (names : nameState fs' = (nameState fs).opened r) (history : fs'.persists = fs.persists)
    (handed : (fs'.writers writer).file = r) : OpenOutcome fs n reopen (.ok writer) fs'
  | created {result fs'} (free : fs.files[n]? = none) (create : CreateOutcome fs n result fs') :
    OpenOutcome fs n reopen result fs'
  | refused {q status fs'} (held : fs.files[n]? = some q) (fresh : reopen = false)
    (deleted : DeleteOutcome fs q n (.error status) fs') : OpenOutcome fs n reopen (.error status) fs'
  | unrecorded {q fs₁ status fs'} (held : fs.files[n]? = some q) (fresh : reopen = false)
    (deleted : DeleteOutcome fs q n (.ok ()) fs₁) (create : CreateOutcome fs₁ n (.error status) fs') :
    OpenOutcome fs n reopen (.error status) fs'
  | replaced {q fs₁ fs₂ writer result fs'} (held : fs.files[n]? = some q) (fresh : reopen = false)
    (deleted : DeleteOutcome fs q n (.ok ()) fs₁) (create : CreateOutcome fs₁ n (.ok writer) fs₂)
    (quiet : Unnoted fs₂ fs') (writers : fs'.writers = fs₂.writers) (value : ∀ w, result = .ok w → w = writer) :
    OpenOutcome fs n reopen result fs'

variable {fs : ZenFS} {alive : Ref → Prop}

theorem ensures_resetUnusedIOZones (fs : ZenFS) :
    Ensures resetUnusedIOZones (fun _ fs' => Unnoted fs fs' ∧ fs'.writers = fs.writers) fs := by
  have names := Unnoted.onZbd ZonedBlockDevice.resetUnusedIOZones
  have writers : resetUnusedIOZones.Keeps (fun fs fs' => fs'.writers = fs.writers) :=
    (Keeps.all ZonedBlockDevice.resetUnusedIOZones).zoom zbdLens (fun _ _ _ => rfl)
  have first := names.wp_of Unnoted.refl (fun _ _ _ => Unnoted.trans) fs
  have second := writers.wp_of (fun _ => rfl) (fun _ _ _ first second => second.trans first) fs
  have both := wp_and (wp_weaken (fun _ _ => trivial) id first) (wp_weaken (fun _ _ => trivial) id second)
  exact total_resetUnusedIOZones.wp both

theorem ensures_createThen {n : Name} (free : fs.files[n]? = none) (whole : 0 ∉ n) (useDirectWrites : Bool)
    {next : Nat → Proc ZenFS Nat}
    {post : Except Status Nat → ZenFS → Prop}
    (failed : ∀ status fs', CreateOutcome fs n (.error status) fs' → post (.error status) fs')
    (done : ∀ writer fs', CreateOutcome fs n (.ok writer) fs' → Ensures (next writer) post fs') :
    Ensures (do
      let r ← createFile n useDirectWrites
      syncFileMetadataNoLock r false
      acquireWRLock r
      .update (fun fs => fs.insertFile (cStr n) r)
      let writer ← newWritableFile r (!useDirectWrites)
      next writer) post fs := by
  have opens : Ensures (createAndOpen n useDirectWrites >>= next) post fs := by
    refine (wp_bind _ _ _ _).mpr (wp_mono ?_ (ensures_createAndOpen free whole useDirectWrites))
    intro result fs' create
    cases result with
    | error status => exact failed status fs' create
    | ok writer => exact done writer fs' create
  simp only [createAndOpen, LawfulMonad.bind_assoc] at opens
  exact opens

theorem ensures_openWritableFile (well : WellNamed (nameState fs) alive) {filename : Name} (normal : Normal filename)
    (whole : 0 ∉ formatPathLexically filename) (useDirectWrites reopen : Bool) (unlocked : reopen = true → ∀ r,
      fs.files[formatPathLexically filename]? = some r → (fs.objects r).openForWr = false) :
    Ensures (openWritableFile filename useDirectWrites reopen)
      (OpenOutcome fs (formatPathLexically filename) reopen) fs := by
  unfold Normal at normal
  simp only [openWritableFile, getFileNoLock, normal, wp_bind, wp_read, onOk_ok, true_and]
  generalize formatPathLexically filename = n at *
  cases held : fs.files[n]? with
  | none =>
    exact ensures_createThen held whole useDirectWrites (fun status fs' create => .created held create)
      (fun writer fs' create => .created held create)
  | some q =>
    cases reopen with
    | true =>
      have open_ := unlocked rfl q held
      have locked := nameState_locked fs q
      simp only [acquireWRLock, wp_bind, wp_await, open_, Bool.false_eq_true, if_false, newWritableFile, onOk_ok, wp_act,
        true_and]
      refine .reopened held rfl ?_ rfl ?_
      · exact congrArg (fun s : NameState => { s with
          handles := Function.update fs.handles q (fs.handles q + 1) }) locked
      · simp only [Function.update_self]
        rfl
    | false =>
      have named : n ∈ (fs.objects q).linkFiles := well.listed held
      simp only [Option.isSome_some, if_true, wp_bind]
      refine wp_mono ?_ (ensures_deleteFileNoLock normal normal held named)
      intro result fs₁ deleted
      cases result with
      | error status => exact .refused held rfl deleted
      | ok _ =>
        have free : fs₁.files[n]? = none := by
          refine files_none deleted.names_done ?_
          rw [discard_table, NameState.unlink, Table.unlink_lookup_self]
        have created := @ensures_createThen fs₁ n free whole useDirectWrites (fun writer => do
          resetUnusedIOZones
          pure writer) (OpenOutcome fs n false) (fun status fs' create => .unrecorded held rfl deleted create) (by
            intro writer fs₂ create
            refine (wp_bind _ _ _ _).mpr (wp_mono ?_ (ensures_resetUnusedIOZones fs₂))
            rintro result fs' ⟨quiet, writers⟩
            cases result with
            | error status =>
              exact .replaced held rfl deleted create quiet writers (fun w equal => by cases equal)
            | ok _ =>
              exact .replaced held rfl deleted create quiet writers (fun w equal => by cases equal; rfl))
        simp only [wp_bind] at created
        exact created

end

end ZenFSProof
