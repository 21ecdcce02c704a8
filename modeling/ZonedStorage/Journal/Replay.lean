import ZonedStorage.Journal.Frame

namespace ZenFSProof

open HardLinks Resumption.Prog ZenFSModel ZenFSModel.ZenFS Function ZenFS

def loaded (fs : ZenFS) (u : ZoneFile) : ZenFS :=
  { (fs.setObject fs.nextRef u).chargeExtents u.extents with nextRef := fs.nextRef + 1 }

theorem loaded_object (fs : ZenFS) (u : ZoneFile) : (loaded fs u).objects fs.nextRef = u :=
  update_self ..

theorem loaded_frame (fs : ZenFS) (u : ZoneFile) : Frame fs (loaded fs u) :=
  ((Frame.setObject fs _ u).trans (Frame.charge _ _)).trans (Frame.fresh _ _)

variable {fs : ZenFS} {c : FileCatalog}

theorem Replayed.loaded (replayed : Replayed fs c) (u : ZoneFile) : Replayed (loaded fs u) c := by
  refine replayed.congr (fun _ => rfl) ?_ (Nat.le_succ _) (Nat.le_refl _)
  intro n r held
  have below := replayed.bounded held
  exact update_of_ne (Nat.ne_of_lt below) ..

theorem wp_decodeFile {f : ZoneFile} {s : Nat} {seen : ZenFS → Prop} {stuck : Prop}
    {post : Except Status Ref → ZenFS → Prop} (fits : Fits (getIOZone fs.zbd.dev) f)
    (short : (f.encodeTo s).length < 2 ^ 32) (visited : seen (ZenFSProof.loaded fs (updateOf f s)))
    (done : post (.ok fs.nextRef) (ZenFSProof.loaded fs (updateOf f s))) :
    wp seen stuck (decodeFile (f.encodeTo s)) post fs := by
  have decoded := decodeFrom_encodeTo fits s short
  simp only [decodeFile, wp_bind, wp_act, onOk_ok, decoded, wp_pure]
  exact ⟨visited, done⟩

def counted (fs : ZenFS) (id : Nat) : ZenFS :=
  if fs.nextFileId ≤ id then { fs with nextFileId := (id + 1) % 2 ^ 64 } else fs

theorem counted_eq (fs : ZenFS) (id : Nat) : counted fs id = { fs with nextFileId := (counted fs id).nextFileId } := by
  simp only [counted]
  split <;> rfl

theorem counted_frame (fs : ZenFS) (id : Nat) : Frame fs (counted fs id) := by
  rw [counted_eq]
  exact Frame.count fs _

theorem counted_nextFileId (fs : ZenFS) {id : Nat} (fits : id + 1 < 2 ^ 64) :
    id < (counted fs id).nextFileId ∧ fs.nextFileId ≤ (counted fs id).nextFileId := by
  simp only [counted]
  split
  · simp only [Nat.mod_eq_of_lt fits]
    constructor <;> omega
  · constructor <;> omega

theorem Replayed.count (replayed : Replayed fs c) (id : Nat)
    (fits : id + 1 < 2 ^ 64) : Replayed (ZenFSProof.counted fs id) c := by
  have grows := (counted_nextFileId fs fits).2
  have same := counted_eq fs id
  refine replayed.congr ?_ ?_ ?_ grows
  · intro n
    rw [same]
  · intro n r _
    rw [same]
  · rw [same]

section

variable {fs : ZenFS} {c : FileCatalog}

variable {r : Ref}

theorem wp_eraseLinks {seen : ZenFS → Prop} {stuck : Prop} {names : List Name}
    {post : Except Status Unit → ZenFS → Prop} (nodup : names.Nodup)
    (held : ∀ n ∈ names, fs.files[n]? = some r) (visited : ∀ files, seen { fs with files := files })
    (done : post (.ok ()) { fs with files := eraseNames fs.files names }) :
    wp seen stuck (eraseLinks r names) post fs := by
  induction names generalizing fs with
  | nil => exact done
  | cons name rest ih =>
    obtain ⟨fresh, nodup⟩ := List.nodup_cons.mp nodup
    have mine := held name (by simp)
    have present : fs.files.contains name = true := by
      rw [Std.TreeMap.contains_eq_isSome_getElem?, mine]
      rfl
    have erased : fs.eraseFile name r = { fs with files := fs.files.erase name } := eraseFile_own (Or.inl mine)
    simp only [eraseLinks, wp_bind, wp_read, onOk_ok, present, if_true, wp_update, erased]
    refine ⟨visited fs.files, visited _, ?_⟩
    refine ih nodup ?_ visited done
    intro n member
    have different : n ≠ name := by
      rintro rfl
      exact fresh member
    rw [erase_lookup, if_neg different]
    exact held n (by simp [member])

theorem mergeUpdate_object (fs : ZenFS) {update : Ref} (replace : Bool) (different : r ≠ update) :
    (fs.mergeUpdate r update replace).objects r =
      (fs.objects r).mergeUpdate (fs.objects update) replace := by
  simp only [mergeUpdate, clearExtents, setObject, dischargeExtents]
  rw [update_of_ne different, update_self]

theorem mergeUpdate_other (fs : ZenFS) {update q : Ref} (replace : Bool) (first : q ≠ r) (second : q ≠ update) :
    (fs.mergeUpdate r update replace).objects q = fs.objects q := by
  simp only [mergeUpdate, clearExtents, setObject, dischargeExtents]
  rw [update_of_ne second, update_of_ne first]
  simp only [chargeExtents]
  split
  · exact update_of_ne first ..
  · rfl

theorem mergeUpdate_frame (fs : ZenFS) (r update : Ref) (replace : Bool) :
    Frame fs (fs.mergeUpdate r update replace) := by
  have cleared : Frame fs (if replace then fs.clearExtents r else fs) := by
    split
    · exact Frame.clear fs r
    · exact Frame.refl fs
  exact ((cleared.trans (Frame.charge _ _)).trans (Frame.setObject _ _ _)).trans (Frame.clear _ _)

theorem mergeUpdate_files (fs : ZenFS) (r update : Ref) (replace : Bool) :
    (fs.mergeUpdate r update replace).files = fs.files := by
  simp only [mergeUpdate, clearExtents, setObject, dischargeExtents, chargeExtents]
  split <;> rfl

theorem mergeUpdate_counters (fs : ZenFS) (r update : Ref) (replace : Bool) :
    (fs.mergeUpdate r update replace).nextRef = fs.nextRef ∧
      (fs.mergeUpdate r update replace).nextFileId = fs.nextFileId := by
  simp only [mergeUpdate, clearExtents, setObject, dischargeExtents, chargeExtents]
  split <;> exact ⟨rfl, rfl⟩

theorem nodeOf_mergeUpdate {f u : ZoneFile} (replace : Bool) (same : f.fileId = u.fileId) :
    nodeOf (f.mergeUpdate u replace) =
      { nodeOf u with body := mergeBody (bodyOf f) (bodyOf u) replace } := by
  simp only [nodeOf, ZoneFile.mergeUpdate, bodyOf, mergeBody, same]

end

theorem Replayed.put {fs' : ZenFS} (replayed : Replayed fs c) {r : Ref} {new : FileNode}
    (files : ∀ n : Name, fs'.files[n]? = rebind (fun n : Name => fs.files[n]?) r new.links n)
    (self : nodeOf (fs'.objects r) = new)
    (others : ∀ (n : Name) q, fs.files[n]? = some q → q ≠ r → fs'.objects q = fs.objects q)
    (mine : ∀ n : Name, fs.files[n]? = some r → (fs.objects r).fileId = new.id)
    (foreign : ∀ (n : Name) q, fs.files[n]? = some q → q ≠ r → (fs.objects q).fileId ≠ new.id)
    (free : c.Free new.id new.links) (nodup : new.links.Nodup) (below : r < fs'.nextRef)
    (refs : fs.nextRef ≤ fs'.nextRef) (ids : fs.nextFileId ≤ fs'.nextFileId)
    (counted : new.id < fs'.nextFileId) (idle : Idle (fs'.objects r)) : Replayed fs' (c.put new) := by
  have split : ∀ {n : Name} {q}, fs'.files[n]? = some q →
      (q = r ∧ n ∈ new.links) ∨ (q ≠ r ∧ fs.files[n]? = some q) := by
    intro n q held
    rw [files] at held
    exact rebind_cases held
  constructor
  · refine (replayed.shows.put _ mine foreign).congr files ?_
    intro n q held
    rcases rebind_cases held with ⟨rfl, _⟩ | ⟨different, held⟩
    · rw [update_self, self]
    · rw [update_of_ne different, others n q held different]
  · exact replayed.coherent.put free nodup
  · intro n q held
    rcases split held with ⟨rfl, _⟩ | ⟨_, held⟩
    · exact below
    · exact Nat.lt_of_lt_of_le (replayed.bounded held) refs
  · intro n q held
    rcases split held with ⟨rfl, _⟩ | ⟨different, held⟩
    · have same : (fs'.objects q).fileId = new.id := congrArg Node.id self
      rw [same]
      exact counted
    · rw [others n q held different]
      exact Nat.lt_of_lt_of_le (replayed.counted held) ids
  · intro n q held
    rcases split held with ⟨rfl, _⟩ | ⟨different, held⟩
    · exact idle
    · rw [others n q held different]
      exact replayed.idle held

theorem Replayed.remove {fs' : ZenFS} (replayed : Replayed fs c) {r : Ref} {name : Name}
    (bound : fs.files[name]? = some r) (files : ∀ n : Name, fs'.files[n]? = if n = name then none else fs.files[n]?)
    (self : ∀ n : Name, fs'.files[n]? = some r →
      fs'.objects r = { fs.objects r with linkFiles := (fs.objects r).linkFiles.erase name })
    (others : ∀ (n : Name) q, fs'.files[n]? = some q → q ≠ r → fs'.objects q = fs.objects q)
    (refs : fs.nextRef ≤ fs'.nextRef) (ids : fs.nextFileId ≤ fs'.nextFileId) :
    Replayed fs' (c.remove (fs.objects r).fileId name) := by
  have before : ∀ {n : Name} {q}, fs'.files[n]? = some q → fs.files[n]? = some q := by
    intro n q held
    rw [files] at held
    split at held
    · cases held
    · exact held
  constructor
  · refine (replayed.shows.remove bound).congr ?_ ?_
    · intro n
      rw [files]
      by_cases same : n = name
      · subst same
        rw [if_pos rfl, update_self]
      · rw [if_neg same, update_of_ne same]
    · intro n q held
      have kept : fs'.files[n]? = some q := by
        rw [files]
        by_cases same : n = name
        · subst same
          rw [update_self] at held
          cases held
        · rw [update_of_ne same] at held
          rw [if_neg same]
          exact held
      by_cases same : q = r
      · subst same
        rw [update_self, self n kept]
        rfl
      · rw [update_of_ne same, others n q kept same]
  · exact replayed.coherent.remove (replayed.shows.name_of bound)
  · exact fun held => Nat.lt_of_lt_of_le (replayed.bounded (before held)) refs
  · intro n q held
    have known := replayed.counted (before held)
    by_cases same : q = r
    · subst same
      rw [self n held]
      exact Nat.lt_of_lt_of_le known ids
    · rw [others n q held same]
      exact Nat.lt_of_lt_of_le known ids
  · intro n q held
    have idle := replayed.idle (before held)
    by_cases same : q = r
    · subst same
      rw [self n held]
      exact ⟨idle.synced, idle.kept, idle.closed, idle.inactive⟩
    · rw [others n q held same]
      exact idle

end ZenFSProof
