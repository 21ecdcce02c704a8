import ZonedStorage.Journal.Live
import ZonedStorage.Namespace.MkFS

namespace ZenFSProof

open ByteString HardLinks ZenFSModel ZenFSModel.ZenFS Function List Catalog

def Apart (first second : FileNode) : Prop :=
  first = second ∨ first.id ≠ second.id ∧ ∀ n ∈ first.links, n ∉ second.links

structure Collected (c : FileCatalog) (nodes : List FileNode) : Prop where
  names : ∀ n i, c.names n = some i ↔ ∃ node ∈ nodes, node.id = i ∧ n ∈ node.links
  links : ∀ node ∈ nodes, c.links node.id = node.links
  body : ∀ node ∈ nodes, c.body node.id = node.body

theorem collected_empty (links : Nat → List Name) (body : Nat → FileBody) :
    Collected (empty links body) [] where
  names n i := by simp [empty]
  links node member := by cases member
  body node member := by cases member

theorem Collected.present {c : FileCatalog} {nodes : List FileNode} (collected : Collected c nodes) {node : FileNode}
    (apart : ∀ other ∈ nodes, Apart other node) (linked : node.links ≠ []) :
    Collected (applyPresent c node) (nodes ++ [node]) := by
  by_cases known : c.Known node.id
  · have listed : node ∈ nodes := by
      obtain ⟨n, held⟩ := known
      obtain ⟨other, member, same, _⟩ := (collected.names n node.id).mp held
      rcases apart other member with equal | ⟨different, _⟩
      · rwa [← equal]
      · exact absurd same different
    rw [applyPresent_known known]
    have extra : ∀ other, other ∈ nodes ++ [node] ↔ other ∈ nodes := by
      intro other
      simp only [mem_append, mem_singleton]
      constructor
      · rintro (member | rfl)
        · exact member
        · exact listed
      · exact Or.inl
    refine ⟨?_, ?_, ?_⟩
    · intro n i
      rw [collected.names]
      simp only [extra]
    · exact fun other member => collected.links other ((extra other).mp member)
    · exact fun other member => collected.body other ((extra other).mp member)
  · have different : ∀ other ∈ nodes, other.id ≠ node.id ∧ ∀ n ∈ other.links, n ∉ node.links := by
      intro other member
      rcases apart other member with rfl | separate
      · obtain ⟨n, listed⟩ := exists_mem_of_ne_nil _ linked
        exact absurd ⟨n, (collected.names n _).mpr ⟨other, member, rfl, listed⟩⟩ known
      · exact separate
    have free : c.Free node.id node.links := by
      intro n listed
      cases held : c.names n with
      | none => exact Or.inl rfl
      | some i =>
        obtain ⟨other, member, _, taken⟩ := (collected.names n i).mp held
        exact absurd listed ((different other member).2 n taken)
    rw [applyPresent_new known]
    refine ⟨?_, ?_, ?_⟩
    · intro n i
      simp only [mem_append, mem_singleton]
      by_cases own : i = node.id
      · subst own
        rw [put_names_self free]
        constructor
        · exact fun listed => ⟨node, Or.inr rfl, rfl, listed⟩
        · rintro ⟨other, member | rfl, same, listed⟩
          · exact absurd same (different other member).1
          · exact listed
      · rw [put_names_other own, collected.names]
        constructor
        · rintro ⟨other, member, same, listed⟩
          exact ⟨other, Or.inl member, same, listed⟩
        · rintro ⟨other, member | rfl, same, listed⟩
          · exact ⟨other, member, same, listed⟩
          · exact absurd same.symm own
    · intro other member
      rcases mem_append.mp member with before | new
      · simp only [put]
        rw [update_of_ne (different other before).1]
        exact collected.links other before
      · rw [mem_singleton.mp new]
        exact update_self ..
    · intro other member
      rcases mem_append.mp member with before | new
      · simp only [put]
        rw [update_of_ne (different other before).1]
        exact collected.body other before
      · rw [mem_singleton.mp new]
        exact update_self ..

theorem collected_fold (rest : List FileNode) {c : FileCatalog} {done : List FileNode} (collected : Collected c done)
    (apart : ∀ first ∈ done ++ rest, ∀ second ∈ done ++ rest, Apart first second)
    (linked : ∀ node ∈ done ++ rest, node.links ≠ []) : Collected (rest.foldl applyPresent c) (done ++ rest) := by
  induction rest generalizing c done with
  | nil =>
    rw [append_nil]
    exact collected
  | cons node rest ih =>
    have next : Collected (applyPresent c node) (done ++ [node]) :=
      collected.present (fun other member => apart other (by simp [member]) node (by simp))
        (linked node (by simp))
    have shift : done ++ node :: rest = (done ++ [node]) ++ rest := by simp
    rw [shift] at apart linked ⊢
    exact ih next apart linked

/-- A file system whose map, link lists, ids and objects fit together. -/
structure Consistent (fs : ZenFS) : Prop where
  linked : ∀ {n : Name} {r}, fs.files[n]? = some r → n ∈ (fs.objects r).linkFiles
  complete : ∀ {n : Name} {r}, fs.files[n]? = some r → ∀ m ∈ (fs.objects r).linkFiles, fs.files[m]? = some r
  nodup : ∀ {n : Name} {r}, fs.files[n]? = some r → (fs.objects r).linkFiles.Nodup
  unique : ∀ {n m : Name} {r q}, fs.files[n]? = some r → fs.files[m]? = some q →
    (fs.objects r).fileId = (fs.objects q).fileId → r = q
  ids : fs.nextFileId < 2 ^ 64
  bounded : ∀ {n : Name} {r}, fs.files[n]? = some r → r < fs.nextRef
  counted : ∀ {n : Name} {r}, fs.files[n]? = some r → (fs.objects r).fileId < fs.nextFileId
  fits : ∀ {n : Name} {r}, fs.files[n]? = some r → Fits (getIOZone fs.zbd.dev) (fs.objects r)
  kept : ∀ {n : Name} {r}, fs.files[n]? = some r → (fs.objects r).isDeleted = false

def listedFiles (fs : ZenFS) : List ZoneFile := fs.files.toList.map (fun entry => fs.objects entry.2)

def snapshotEntry (fs : ZenFS) : Entry := .snapshot ((listedFiles fs).map nodeOf)

theorem mem_listedFiles {fs : ZenFS} {f : ZoneFile} :
    f ∈ listedFiles fs ↔ ∃ (n : Name) (r : Ref), fs.files[n]? = some r ∧ f = fs.objects r := by
  simp only [listedFiles, mem_map]
  constructor
  · rintro ⟨⟨n, r⟩, member, rfl⟩
    exact ⟨n, r, mem_files_iff.mp member, rfl⟩
  · rintro ⟨n, r, held, rfl⟩
    exact ⟨(n, r), mem_files_iff.mpr held, rfl⟩

theorem snapshot_data (entries : List (Name × Ref)) (objects : Ref → ZoneFile) (output : Bytes) :
    entries.foldl (fun files entry => putLengthPrefixedSlice files (objects entry.2).encodeSnapshotTo) output =
      output ++ snapshotBytes (entries.map (fun entry => objects entry.2)) := by
  induction entries generalizing output with
  | nil => simp [snapshotBytes]
  | cons entry rest ih =>
    rw [foldl_cons, ih, putLengthPrefixedSlice_append]
    simp only [snapshotBytes, ZoneFile.encodeSnapshotTo, map_cons, flatMap_cons, append_assoc]

theorem encodeSnapshotTo_eq (fs : ZenFS) :
    fs.encodeSnapshotTo = taggedRecord .kCompleteFilesSnapshot (snapshotBytes (listedFiles fs)) := by
  rw [ZenFS.encodeSnapshotTo, snapshot_data, nil_append]
  rfl

section

variable {fs : ZenFS}

theorem Consistent.apart (consistent : Consistent fs) :
    ∀ first ∈ (listedFiles fs).map nodeOf, ∀ second ∈ (listedFiles fs).map nodeOf, Apart first second := by
  intro first member second member'
  obtain ⟨f, listed, rfl⟩ := mem_map.mp member
  obtain ⟨g, listed', rfl⟩ := mem_map.mp member'
  obtain ⟨n, r, held, rfl⟩ := mem_listedFiles.mp listed
  obtain ⟨m, q, held', rfl⟩ := mem_listedFiles.mp listed'
  by_cases same : r = q
  · subst same
    exact Or.inl rfl
  · refine Or.inr ⟨fun equal => same (consistent.unique held held' equal), ?_⟩
    intro name mine others
    have first := consistent.complete held name mine
    have second := consistent.complete held' name others
    rw [first] at second
    exact same (Option.some.inj second)

theorem Consistent.applies (consistent : Consistent fs) (c : FileCatalog) : Applies c (snapshotEntry fs) := by
  refine ⟨?_, consistent.apart⟩
  intro node member
  obtain ⟨f, listed, rfl⟩ := mem_map.mp member
  obtain ⟨n, r, held, rfl⟩ := mem_listedFiles.mp listed
  exact consistent.nodup held

theorem Consistent.collected (consistent : Consistent fs) (c : FileCatalog) :
    Collected (applyEntry c (snapshotEntry fs)) ((listedFiles fs).map nodeOf) := by
  refine collected_fold _ (collected_empty c.links c.body) consistent.apart ?_
  intro node member
  obtain ⟨f, listed, rfl⟩ := mem_map.mp member
  obtain ⟨n, r, held, rfl⟩ := mem_listedFiles.mp listed
  exact ne_nil_of_mem (consistent.linked held)

theorem node_listed {n : Name} {r : Ref} (held : fs.files[n]? = some r) :
    nodeOf (fs.objects r) ∈ (listedFiles fs).map nodeOf :=
  mem_map_of_mem (mem_listedFiles.mpr ⟨n, r, held, rfl⟩)

theorem Consistent.shows (consistent : Consistent fs) (c : FileCatalog) :
    Shows (fun n : Name => fs.files[n]?) (fun r => nodeOf (fs.objects r)) (applyEntry c (snapshotEntry fs)) := by
  have collected := consistent.collected c
  refine ⟨?_, ?_, ?_, ?_⟩
  · intro n
    cases held : fs.files[n]? with
    | some r => exact (collected.names n _).mpr ⟨_, node_listed held, rfl, consistent.linked held⟩
    | none =>
      rw [Option.map_none, Option.eq_none_iff_forall_ne_some]
      intro i named
      obtain ⟨node, member, _, listed⟩ := (collected.names n i).mp named
      obtain ⟨f, inside, rfl⟩ := mem_map.mp member
      obtain ⟨m, r, bound, rfl⟩ := mem_listedFiles.mp inside
      have taken := consistent.complete bound n listed
      rw [held] at taken
      cases taken
  · exact fun held => collected.links _ (node_listed held)
  · exact fun held => collected.body _ (node_listed held)
  · exact consistent.unique

theorem Consistent.coherent (consistent : Consistent fs) (c : FileCatalog) :
    (applyEntry c (snapshotEntry fs)).Coherent := by
  have collected := consistent.collected c
  have node_of : ∀ {n i}, (applyEntry c (snapshotEntry fs)).names n = some i → ∃ (m : Name) (r : Ref),
      fs.files[m]? = some r ∧ (fs.objects r).fileId = i ∧ n ∈ (fs.objects r).linkFiles ∧
      (applyEntry c (snapshotEntry fs)).links i = (fs.objects r).linkFiles := by
    intro n i named
    obtain ⟨node, member, same, listed⟩ := (collected.names n i).mp named
    have links := collected.links node member
    obtain ⟨f, inside, rfl⟩ := mem_map.mp member
    obtain ⟨m, r, held, rfl⟩ := mem_listedFiles.mp inside
    rw [same] at links
    exact ⟨m, r, held, same, listed, links⟩
  constructor
  · intro n i named
    obtain ⟨m, r, _, _, listed, links⟩ := node_of named
    rw [links]
    exact listed
  · intro n i named k member
    obtain ⟨m, r, held, same, _, links⟩ := node_of named
    rw [links] at member
    exact (collected.names k i).mpr ⟨_, node_listed held, same, member⟩
  · intro n i named
    obtain ⟨m, r, held, _, _, links⟩ := node_of named
    rw [links]
    exact consistent.nodup held

theorem Consistent.carries (consistent : Consistent fs) (readable : Readable fs.encodeSnapshotTo) :
    Carries (getIOZone fs.zbd.dev) (snapshotEntry fs) fs.encodeSnapshotTo := by
  refine ⟨readable, _, _, encodeSnapshotTo_eq fs, .snapshot (listedFiles fs) ?_⟩
  intro f member
  obtain ⟨n, r, held, rfl⟩ := mem_listedFiles.mp member
  have inside := tagged_length .kCompleteFilesSnapshot (snapshotBytes (listedFiles fs))
  have part := length_le_flatMap (fun f : ZoneFile => putLengthPrefixedSlice [] (f.encodeTo 0)) member
  have slice := putLengthPrefixedSlice_length ((fs.objects r).encodeTo 0)
  have whole : fs.encodeSnapshotTo.length < 2 ^ 31 := readable
  rw [encodeSnapshotTo_eq] at whole
  have id := consistent.counted held
  have ids := consistent.ids
  refine ⟨consistent.fits held, ?_, by omega, ne_nil_of_mem (consistent.linked held)⟩
  simp only [snapshotBytes] at inside whole
  omega

def noFiles : FileCatalog := empty (fun _ => []) (fun _ => bodyOf (ZoneFile.new 0))

end

end ZenFSProof
