import ZonedStorage.Catalog.Catalog
import ZonedStorage.File.Codec
import ZonedStorage.Namespace.Lookup
import ZonedStorage.Resumption.Wp

namespace ZenFSProof

open ByteString HardLinks ZenFSModel

/-- What a metadata record says about a file besides its id and its names. -/
structure FileBody where
  fileSize : Nat
  lifetime : WriteLifeTimeHint
  mTime : Nat
  isSparse : Bool
  extentStart : Nat
  extents : List ZoneExtent
deriving DecidableEq

abbrev FileNode := Node Name Nat FileBody

abbrev FileCatalog := Catalog Name Nat FileBody

def bodyOf (f : ZoneFile) : FileBody where
  fileSize := f.fileSize
  lifetime := f.lifetime
  mTime := f.mTime
  isSparse := f.isSparse
  extentStart := f.extentStart
  extents := f.extents

def nodeOf (f : ZoneFile) : FileNode := ⟨f.fileId, f.linkFiles, bodyOf f⟩

inductive Entry where
  | update (node : FileNode) (replace : Bool)
  | deletion (id : Nat) (name : Name)
  | snapshot (nodes : List FileNode)

def mergeBody (old new : FileBody) (replace : Bool) : FileBody :=
  { new with extents := (if replace then [] else old.extents) ++ new.extents }

open Classical in
noncomputable def applyUpdate (c : FileCatalog) (node : FileNode) (replace : Bool) : FileCatalog :=
  if c.Known node.id then c.put { node with body := mergeBody (c.body node.id) node.body replace }
  else c.put node

open Classical in
/-- One file of a snapshot, which lists a file once for each of its names. -/
noncomputable def applyPresent (c : FileCatalog) (node : FileNode) : FileCatalog :=
  if c.Known node.id then c else c.put node

noncomputable def applyEntry (c : FileCatalog) : Entry → FileCatalog
  | .update node replace => applyUpdate c node replace
  | .deletion id name => c.remove id name
  | .snapshot nodes => nodes.foldl applyPresent (Catalog.empty c.links c.body)

/-- The entry can follow the catalog: names it takes are free, names it gives up are there. -/
def Applies (c : FileCatalog) : Entry → Prop
  | .update node _ =>
    c.Free node.id node.links ∧ node.links.Nodup ∧ node.links ≠ [] ∧
      (¬ c.Known node.id → ∃ name, node.links = [name])
  | .deletion id name => c.names name = some id
  | .snapshot nodes =>
    (∀ node ∈ nodes, node.links.Nodup) ∧
    ∀ first ∈ nodes, ∀ second ∈ nodes, first = second ∨
      first.id ≠ second.id ∧ ∀ n ∈ first.links, n ∉ second.links

noncomputable def applyAll (c : FileCatalog) (entries : List Entry) : FileCatalog := entries.foldl applyEntry c

def AppliesAll : FileCatalog → List Entry → Prop
  | _, [] => True
  | c, e :: rest => Applies c e ∧ AppliesAll (applyEntry c e) rest

variable {c : FileCatalog} {node : FileNode}

theorem AppliesAll.append {first second : List Entry} :
    AppliesAll c (first ++ second) ↔ AppliesAll c first ∧ AppliesAll (applyAll c first) second := by
  induction first generalizing c with
  | nil => simp [AppliesAll, applyAll]
  | cons e rest ih => simp only [List.cons_append, AppliesAll, ih, applyAll, List.foldl_cons, and_assoc]

theorem applyAll_append (c : FileCatalog) (first second : List Entry) :
    applyAll c (first ++ second) = applyAll (applyAll c first) second := List.foldl_append

theorem applyUpdate_known (replace : Bool) (known : c.Known node.id) :
    applyUpdate c node replace = c.put { node with body := mergeBody (c.body node.id) node.body replace } :=
  if_pos known

theorem applyUpdate_new (replace : Bool) (unknown : ¬ c.Known node.id) :
    applyUpdate c node replace = c.put node := if_neg unknown

theorem applyPresent_known (known : c.Known node.id) : applyPresent c node = c := if_pos known

theorem applyPresent_new (unknown : ¬ c.Known node.id) : applyPresent c node = c.put node := if_neg unknown

section

variable (getIOZone : Nat → Option Nat)

/-- `f` can be written and read back: its record is one that `ReadRecord` accepts. -/
structure Writable (f : ZoneFile) (s : Nat) : Prop where
  fits : Fits getIOZone f
  short : (f.encodeTo s).length < 2 ^ 31
  counted : f.fileId + 1 < 2 ^ 64
  linked : f.linkFiles ≠ []

inductive Encodes : Entry → ZenFSTag → Bytes → Prop
  | update (f : ZoneFile) (s : Nat) (writable : Writable getIOZone f s) :
    Encodes (.update (nodeOf (updateOf f s)) false) .kFileUpdate (f.encodeTo s)
  | replace (f : ZoneFile) (s : Nat) (writable : Writable getIOZone f s) :
    Encodes (.update (nodeOf (updateOf f s)) true) .kFileReplace (f.encodeTo s)
  | deletion (id : Nat) (name : Name) (fits : id < 2 ^ 64) (short : name.length < 2 ^ 31) :
    Encodes (.deletion id name) .kFileDeletion (putLengthPrefixedSlice (putFixed64 [] id) name)
  | snapshot (files : List ZoneFile) (writable : ∀ f ∈ files, Writable getIOZone f 0) :
    Encodes (.snapshot (files.map nodeOf)) .kCompleteFilesSnapshot
      (files.flatMap (fun f => putLengthPrefixedSlice [] (f.encodeTo 0)))

end

theorem nodeOf_updateOf (f : ZoneFile) (s : Nat) :
    nodeOf (updateOf f s) = ⟨f.fileId, f.linkFiles, { bodyOf f with extents := f.extents.drop s }⟩ := rfl

theorem nodeOf_updateOf_zero (f : ZoneFile) : nodeOf (updateOf f 0) = nodeOf f := by
  rw [nodeOf_updateOf, List.drop_zero]
  rfl

open Resumption Resumption.Prog ZenFSModel.ZenFS

structure SameButUsed (d d' : Device) : Prop where
  rest : d' = { d with zones := d'.zones }
  zones : ∀ i, d'.zones i = { d.zones i with usedCapacity := (d'.zones i).usedCapacity }

namespace SameButUsed

theorem refl (d : Device) : SameButUsed d d := ⟨rfl, fun _ => rfl⟩

variable {d d' : Device}

theorem trans {d'' : Device} (first : SameButUsed d d') (second : SameButUsed d' d'') : SameButUsed d d'' := by
  refine ⟨?_, ?_⟩
  · rw [second.rest, first.rest]
  · intro i
    rw [second.zones i, first.zones i]

theorem setUsed (d : Device) (i used : Nat) : SameButUsed d (d.setZone i { d.zones i with usedCapacity := used }) := by
  refine ⟨rfl, ?_⟩
  intro j
  simp only [Device.setZone]
  by_cases same : j = i
  · subst same
    rw [Function.update_self]
  · rw [Function.update_of_ne same]

theorem addAll (d : Device) (extents : List ZoneExtent) : SameButUsed d (extents.foldl addUsed d) := by
  induction extents generalizing d with
  | nil => exact refl d
  | cons e rest ih => exact (setUsed d e.zone _).trans (ih (addUsed d e))

theorem subAll (d : Device) (extents : List ZoneExtent) : SameButUsed d (extents.foldl subUsed d) := by
  induction extents generalizing d with
  | nil => exact refl d
  | cons e rest ih => exact (setUsed d e.zone _).trans (ih (subUsed d e))

theorem start (same : SameButUsed d d') (i : Nat) : (d'.zones i).start = (d.zones i).start := by
  rw [same.zones i]

theorem getIOZone (same : SameButUsed d d') : ZenFS.getIOZone d' = ZenFS.getIOZone d := by
  funext offset
  simp only [ZenFS.getIOZone, same.start]
  rw [same.rest]

end SameButUsed

structure Frame (fs fs' : ZenFS) : Prop where
  dev : SameButUsed fs.zbd.dev fs'.zbd.dev
  rest : fs' = { fs with
    files := fs'.files
    objects := fs'.objects
    nextRef := fs'.nextRef
    nextFileId := fs'.nextFileId
    zbd := { fs.zbd with dev := fs'.zbd.dev } }

namespace Frame

theorem refl (fs : ZenFS) : Frame fs fs := ⟨SameButUsed.refl _, rfl⟩

theorem trans {fs fs' fs'' : ZenFS} (first : Frame fs fs') (second : Frame fs' fs'') : Frame fs fs'' := by
  refine ⟨first.dev.trans second.dev, ?_⟩
  rw [second.rest, first.rest]

theorem md {fs fs' : ZenFS} (frame : Frame fs fs') : fs'.md = fs.md := by
  rw [frame.rest]

theorem ofFiles (fs : ZenFS) (files : FileMap) : Frame fs { fs with files := files } :=
  ⟨SameButUsed.refl _, rfl⟩

theorem setObject (fs : ZenFS) (r : Ref) (f : ZoneFile) : Frame fs (fs.setObject r f) :=
  ⟨SameButUsed.refl _, rfl⟩

theorem charge (fs : ZenFS) (extents : List ZoneExtent) : Frame fs (fs.chargeExtents extents) :=
  ⟨SameButUsed.addAll _ _, rfl⟩

theorem discharge (fs : ZenFS) (extents : List ZoneExtent) : Frame fs (fs.dischargeExtents extents) :=
  ⟨SameButUsed.subAll _ _, rfl⟩

theorem clear (fs : ZenFS) (r : Ref) : Frame fs (fs.clearExtents r) :=
  (discharge fs _).trans (setObject _ r _)

theorem drop (fs : ZenFS) (r : Ref) : Frame fs (fs.dropUnowned r) := by
  simp only [ZenFS.dropUnowned]
  split
  · exact refl fs
  · exact clear fs r

theorem erase (fs : ZenFS) (name : Name) (keep : Ref) : Frame fs (fs.eraseFile name keep) := by
  simp only [ZenFS.eraseFile]
  split
  · exact ofFiles fs _
  · split
    · exact ofFiles fs _
    · exact (ofFiles fs _).trans (drop _ _)

theorem count (fs : ZenFS) (id : Nat) : Frame fs { fs with nextFileId := id } :=
  ⟨SameButUsed.refl _, rfl⟩

theorem fresh (fs : ZenFS) (r : Ref) : Frame fs { fs with nextRef := r } :=
  ⟨SameButUsed.refl _, rfl⟩

end Frame

/-- A program that always finishes, whatever states it passes through. -/
abbrev Ensures {ε σ α : Type} (p : Prog ε σ α) (post : Except ε α → σ → Prop) (s : σ) : Prop :=
  wp (fun _ => True) False p post s

def withIo (fs : ZenFS) (d : Device) : ZenFS := { fs with zbd := { fs.zbd with dev := d } }

section

variable {α : Type} {seen : ZenFS → Prop} {stuck : Prop} {post : Except Status α → ZenFS → Prop} {fs : ZenFS}

theorem wp_onZbd {p : Proc ZonedBlockDevice α} : wp seen stuck (onZbd p) post fs ↔
      wp (fun zbd => seen { fs with zbd := zbd }) stuck p (fun result zbd => post result { fs with zbd := zbd }) fs.zbd :=
  wp_zoom zbdLens p post fs

theorem wp_onIo {p : Proc Device α} : wp seen stuck (onIo p) post fs ↔
      wp (fun d => seen (withIo fs d)) stuck p (fun result d => post result (withIo fs d)) fs.zbd.dev :=
  wp_onZbd.trans (wp_zoom ioLens p _ fs.zbd)

end

structure Idle (f : ZoneFile) : Prop where
  synced : f.nrSyncedExtents = f.extents.length % 2 ^ 32
  kept : f.isDeleted = false
  closed : f.openForWr = false
  inactive : f.activeZone = none

structure Replayed (fs : ZenFS) (c : FileCatalog) : Prop where
  shows : Shows (fun n : Name => fs.files[n]?) (fun r => nodeOf (fs.objects r)) c
  coherent : c.Coherent
  bounded : ∀ {n : Name} {r}, fs.files[n]? = some r → r < fs.nextRef
  counted : ∀ {n : Name} {r}, fs.files[n]? = some r → (fs.objects r).fileId < fs.nextFileId
  idle : ∀ {n : Name} {r}, fs.files[n]? = some r → Idle (fs.objects r)

theorem Replayed.congr {fs fs' : ZenFS} {c : FileCatalog} (replayed : Replayed fs c)
    (files : ∀ n : Name, fs'.files[n]? = fs.files[n]?)
    (objects : ∀ (n : Name) r, fs.files[n]? = some r → fs'.objects r = fs.objects r)
    (refs : fs.nextRef ≤ fs'.nextRef) (ids : fs.nextFileId ≤ fs'.nextFileId) : Replayed fs' c where
  shows := replayed.shows.congr files (fun n r held => by rw [objects n r held])
  coherent := replayed.coherent
  bounded := by
    intro n r held
    rw [files] at held
    exact Nat.lt_of_lt_of_le (replayed.bounded held) refs
  counted := by
    intro n r held
    rw [files] at held
    rw [objects n r held]
    exact Nat.lt_of_lt_of_le (replayed.counted held) ids
  idle := by
    intro n r held
    rw [files] at held
    rw [objects n r held]
    exact replayed.idle held

end ZenFSProof
