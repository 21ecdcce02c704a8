import Mathlib.Data.List.TakeWhile
import ZonedStorage.Namespace.Recovery

namespace ZenFSProof

open ZenFSModel ZenFSModel.ZenFS ZenFS

variable {n : Name} {r : Ref} {fs : ZenFS}

@[simp] theorem cStr_eq_self_iff : cStr n = n ↔ 0 ∉ n := by
  rw [cStr, List.takeWhile_eq_self_iff]
  exact ⟨fun whole among => of_decide_eq_true (whole 0 among) rfl,
    fun whole byte among => decide_eq_true fun nul => whole (nul ▸ among)⟩

theorem mem_files_iff {files : FileMap} : (n, r) ∈ files.toList ↔ files[n]? = some r :=
  Std.TreeMap.mem_toList_iff_getElem?_eq_some

theorem nul_notMem_children (whole : ∀ (n : Name) r, fs.files[n]? = some r → 0 ∉ n) {dir child : Name}
    (among : child ∈ fs.getZenFSChildrenNoLock dir) : 0 ∉ child := by
  simp only [getZenFSChildrenNoLock, List.mem_map, List.mem_filter] at among
  obtain ⟨⟨n, r⟩, ⟨held, _⟩, rfl⟩ := among
  exact fun nul => whole n r (mem_files_iff.mp held) (List.mem_of_mem_drop nul)

theorem bound_iff : fs.bound r = true ↔ ∃ n : Name, fs.files[n]? = some r := by
  simp only [bound, List.any_eq_true, beq_iff_eq]
  constructor
  · rintro ⟨⟨n, q⟩, member, rfl⟩
    exact ⟨n, mem_files_iff.mp member⟩
  · rintro ⟨n, held⟩
    exact ⟨(n, r), mem_files_iff.mpr held, rfl⟩

theorem insertIfNew_lookup (files : FileMap) (name n : Name) (r : Ref) : (files.insertIfNew name r)[n]? =
      match files[n]? with
      | some q => some q
      | none => if n = name then some r else none := by
  rw [Std.TreeMap.getElem?_insertIfNew]
  cases held : files[n]? with
  | none =>
    by_cases same : n = name
    · subst same
      have missing : n ∉ files := (getElem?_eq_none_iff files n).mp held
      simp [missing]
    · have different : ¬ (compare name n = .eq ∧ name ∉ files) := by
        rintro ⟨equal, _⟩
        exact same (Std.LawfulEqCmp.eq_of_compare equal).symm
      rw [if_neg different, if_neg same]
  | some q =>
    have different : ¬ (compare name n = .eq ∧ name ∉ files) := by
      rintro ⟨equal, missing⟩
      have same : name = n := Std.LawfulEqCmp.eq_of_compare equal
      subst same
      have absent := (getElem?_eq_none_iff files name).mpr missing
      rw [held] at absent
      cases absent
    rw [if_neg different]

theorem erase_lookup (files : FileMap) (name n : Name) :
    (files.erase name)[n]? = if n = name then none else files[n]? := by
  rw [Std.TreeMap.getElem?_erase]
  by_cases same : n = name
  · subst same
    simp
  · have different : ¬ compare name n = .eq := fun equal => same (Std.LawfulEqCmp.eq_of_compare equal).symm
    rw [if_neg different, if_neg same]

def insertNames (files : FileMap) (names : List Name) (r : Ref) : FileMap :=
  names.foldl (fun files name => files.insertIfNew name r) files

def eraseNames (files : FileMap) (names : List Name) : FileMap :=
  names.foldl (fun files name => files.erase name) files

theorem insertNames_lookup (names : List Name) (files : FileMap) (r : Ref) (n : Name) :
    (insertNames files names r)[n]? =
      match files[n]? with
      | some q => some q
      | none => if n ∈ names then some r else none := by
  induction names generalizing files with
  | nil => cases held : files[n]? <;> simp [insertNames, held]
  | cons name rest ih =>
    change (insertNames (files.insertIfNew name r) rest r)[n]? = _
    rw [ih, insertIfNew_lookup]
    cases held : files[n]? with
    | some q => rfl
    | none =>
      by_cases same : n = name
      · simp [same]
      · by_cases member : n ∈ rest <;> simp [same, member]

theorem eraseNames_lookup (names : List Name) (files : FileMap) (n : Name) :
    (eraseNames files names)[n]? = if n ∈ names then none else files[n]? := by
  induction names generalizing files with
  | nil => simp [eraseNames]
  | cons name rest ih =>
    change (eraseNames (files.erase name) rest)[n]? = _
    rw [ih, erase_lookup]
    by_cases same : n = name
    · simp [same]
    · by_cases member : n ∈ rest <;> simp [same, member]

theorem insertFile_lookup (fs : ZenFS) (name n : Name) (r : Ref) : (fs.insertFile name r).files[n]? =
      match fs.files[n]? with
      | some q => some q
      | none => if n = name then some r else none := insertIfNew_lookup fs.files name n r

theorem insertLinks_eq (fs : ZenFS) (r : Ref) :
    fs.insertLinks r = { fs with files := insertNames fs.files (fs.objects r).linkFiles r } := by
  have fold : ∀ (names : List Name) (fs : ZenFS), names.foldl (fun fs name => fs.insertFile name r) fs =
      { fs with files := insertNames fs.files names r } := by
    intro names
    induction names with
    | nil => exact fun _ => rfl
    | cons name rest ih => exact fun fs => ih (fs.insertFile name r)
  exact fold _ fs

theorem dropUnowned_files (fs : ZenFS) (r : Ref) : (fs.dropUnowned r).files = fs.files := by
  simp only [dropUnowned]
  split <;> rfl

theorem dropUnowned_object {q : Ref} (held : fs.files[n]? = some q) (r : Ref) :
    (fs.dropUnowned r).objects q = fs.objects q := by
  simp only [dropUnowned]
  split
  · rfl
  · rename_i unowned
    have different : q ≠ r := by
      rintro rfl
      have owned : fs.bound q = true := bound_iff.mpr ⟨n, held⟩
      simp [owned] at unowned
    simp only [clearExtents, setObject, dischargeExtents]
    rw [Function.update_of_ne different]

theorem eraseFile_lookup (fs : ZenFS) (name n : Name) (keep : Ref) :
    (fs.eraseFile name keep).files[n]? = if n = name then none else fs.files[n]? := by
  simp only [eraseFile]
  split
  · exact erase_lookup fs.files name n
  · split
    · exact erase_lookup fs.files name n
    · rw [dropUnowned_files]
      exact erase_lookup fs.files name n

theorem eraseFile_own {name : Name} (held : fs.files[name]? = some r ∨ fs.files[name]? = none) :
    fs.eraseFile name r = { fs with files := fs.files.erase name } := by
  simp only [eraseFile]
  rcases held with held | held
  · simp [held]
  · simp [held]

theorem fileWithId_some {id : Nat} (found : fs.fileWithId id = some r) :
    ∃ n : Name, fs.files[n]? = some r ∧ (fs.objects r).fileId = id := by
  simp only [fileWithId, Option.map_eq_some_iff] at found
  obtain ⟨⟨n, q⟩, first, rfl⟩ := found
  refine ⟨n, mem_files_iff.mp (List.mem_of_find?_eq_some first), ?_⟩
  simpa using List.find?_some first

theorem fileWithId_none {id : Nat} (missing : fs.fileWithId id = none)
    (held : fs.files[n]? = some r) : (fs.objects r).fileId ≠ id := by
  simp only [fileWithId, Option.map_eq_none_iff, List.find?_eq_none] at missing
  have other := missing (n, r) (mem_files_iff.mpr held)
  simpa using other

end ZenFSProof
