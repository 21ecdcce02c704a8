import Mathlib.Data.List.Basic
import Mathlib.Logic.Function.Basic

namespace HardLinks

open Function

variable {ν ι β ρ : Type}

structure Node (ν ι β : Type) where
  id : ι
  links : List ν
  body : β

structure Catalog (ν ι β : Type) where
  names : ν → Option ι
  links : ι → List ν
  body : ι → β

namespace Catalog

def Known (c : Catalog ν ι β) (i : ι) : Prop := ∃ n, c.names n = some i

/-- The names of a node and its list of links agree. -/
structure Coherent (c : Catalog ν ι β) : Prop where
  linked : ∀ {n i}, c.names n = some i → n ∈ c.links i
  complete : ∀ {n i}, c.names n = some i → ∀ m ∈ c.links i, c.names m = some i
  nodup : ∀ {n i}, c.names n = some i → (c.links i).Nodup

def Free (c : Catalog ν ι β) (i : ι) (links : List ν) : Prop :=
  ∀ n ∈ links, c.names n = none ∨ c.names n = some i

def empty (links : ι → List ν) (body : ι → β) : Catalog ν ι β := ⟨fun _ => none, links, body⟩

theorem empty_coherent (links : ι → List ν) (body : ι → β) : (empty links body).Coherent where
  linked bound := by cases bound
  complete bound := by cases bound
  nodup bound := by cases bound

variable [DecidableEq ν] [DecidableEq ι]

/-- All names of `node.id` are given up and its links are taken where they are free. -/
def put (c : Catalog ν ι β) (node : Node ν ι β) : Catalog ν ι β where
  names n :=
    match c.names n with
    | some j => if j = node.id then (if n ∈ node.links then some node.id else none) else some j
    | none => if n ∈ node.links then some node.id else none
  links := update c.links node.id node.links
  body := update c.body node.id node.body

def remove [BEq ν] (c : Catalog ν ι β) (i : ι) (n : ν) : Catalog ν ι β where
  names := update c.names n none
  links := update c.links i ((c.links i).erase n)
  body := c.body

variable {c : Catalog ν ι β} {node : Node ν ι β}

theorem put_names_self (free : c.Free node.id node.links) (n : ν) :
    (c.put node).names n = some node.id ↔ n ∈ node.links := by
  simp only [put]
  cases bound : c.names n with
  | none => simp
  | some j =>
    by_cases same : j = node.id
    · simp [same]
    · simp only [if_neg same, Option.some.injEq]
      constructor
      · exact fun equal => absurd equal same
      · intro member
        rcases free n member with unbound | taken
        · rw [bound] at unbound
          cases unbound
        · rw [bound] at taken
          exact Option.some.inj taken

theorem put_names_other {j : ι} (other : j ≠ node.id) (n : ν) : (c.put node).names n = some j ↔ c.names n = some j := by
  simp only [put]
  cases bound : c.names n with
  | none =>
    by_cases member : n ∈ node.links <;> simp [member, other.symm]
  | some k =>
    by_cases same : k = node.id
    · subst same
      simp only [if_true, Option.some.injEq]
      split <;> simp [other.symm]
    · simp only [if_neg same]

theorem Coherent.put (coherent : c.Coherent)
    (free : c.Free node.id node.links) (nodup : node.links.Nodup) : (c.put node).Coherent := by
  have link : ∀ j, (c.put node).links j = if j = node.id then node.links else c.links j := by
    intro j
    by_cases same : j = node.id
    · subst same
      simp [Catalog.put]
    · simp [Catalog.put, same]
  constructor
  · intro n j bound
    rw [link]
    split
    · rename_i same
      subst same
      exact (put_names_self free n).mp bound
    · exact coherent.linked ((put_names_other ‹_› n).mp bound)
  · intro n j bound m member
    rw [link] at member
    split at member
    · rename_i same
      subst same
      exact (put_names_self free m).mpr member
    · rename_i other
      exact (put_names_other other m).mpr
        (coherent.complete ((put_names_other other n).mp bound) m member)
  · intro n j bound
    rw [link]
    split
    · exact nodup
    · exact coherent.nodup ((put_names_other ‹_› n).mp bound)

theorem Coherent.remove [BEq ν] [LawfulBEq ν] {i : ι} {n : ν} (coherent : c.Coherent)
    (bound : c.names n = some i) : (c.remove i n).Coherent := by
  have distinct := coherent.nodup bound
  have other : ∀ {m j}, (c.remove i n).names m = some j → m ≠ n ∧ c.names m = some j := by
    intro m j kept
    simp only [Catalog.remove] at kept
    by_cases same : m = n
    · subst same
      rw [update_self] at kept
      cases kept
    · rw [update_of_ne same] at kept
      exact ⟨same, kept⟩
  have link : ∀ j, (c.remove i n).links j = if j = i then (c.links i).erase n else c.links j := by
    intro j
    by_cases same : j = i
    · subst same
      simp [Catalog.remove]
    · simp [Catalog.remove, same]
  constructor
  · intro m j kept
    obtain ⟨different, before⟩ := other kept
    have member := coherent.linked before
    rw [link]
    split
    · rename_i same
      subst same
      exact (List.mem_erase_of_ne different).mpr member
    · exact member
  · intro m j kept k member
    obtain ⟨different, before⟩ := other kept
    have kept_name : k ≠ n ∧ k ∈ c.links j := by
      rw [link] at member
      split at member
      · rename_i same
        subst same
        exact distinct.mem_erase_iff.mp member
      · rename_i apart
        refine ⟨?_, member⟩
        rintro rfl
        have held := coherent.complete before k member
        rw [bound] at held
        exact apart (Option.some.inj held).symm
    simp only [Catalog.remove]
    rw [update_of_ne kept_name.1]
    exact coherent.complete before k kept_name.2
  · intro m j kept
    obtain ⟨_, before⟩ := other kept
    rw [link]
    split
    · exact distinct.erase n
    · exact coherent.nodup before

end Catalog

/-- A map from names to references and the nodes behind the references stand for a catalog. -/
structure Shows (files : ν → Option ρ) (node : ρ → Node ν ι β) (c : Catalog ν ι β) : Prop where
  names : ∀ n, c.names n = (files n).map (fun r => (node r).id)
  links : ∀ {n r}, files n = some r → c.links (node r).id = (node r).links
  body : ∀ {n r}, files n = some r → c.body (node r).id = (node r).body
  unique : ∀ {n m r q}, files n = some r → files m = some q → (node r).id = (node q).id → r = q

namespace Shows

variable {files : ν → Option ρ} {node : ρ → Node ν ι β} {c : Catalog ν ι β}

variable {n : ν} {r : ρ}

section

variable (shows : Shows files node c)

include shows

theorem name_of (bound : files n = some r) : c.names n = some (node r).id := by
  rw [shows.names, bound, Option.map_some]

theorem unbound_iff (n : ν) : c.names n = none ↔ files n = none := by
  rw [shows.names, Option.map_eq_none_iff]

theorem name_iff {m : ν} (bound : files n = some r) : c.names m = some (node r).id ↔ files m = some r := by
  constructor
  · intro named
    rw [shows.names] at named
    obtain ⟨q, held, same⟩ := Option.map_eq_some_iff.mp named
    rw [held, shows.unique held bound same]
  · exact shows.name_of

theorem member_iff (coherent : c.Coherent) {m : ν}
    (bound : files n = some r) : m ∈ (node r).links ↔ files m = some r := by
  rw [← shows.name_iff bound, ← shows.links bound]
  exact ⟨fun member => coherent.complete (shows.name_of bound) m member, coherent.linked⟩

theorem congr {files' : ν → Option ρ} {node' : ρ → Node ν ι β}
    (map : ∀ n, files' n = files n) (nodes : ∀ n r, files n = some r → node' r = node r) :
    Shows files' node' c := by
  constructor
  · intro n
    rw [shows.names, map]
    cases bound : files n with
    | none => rfl
    | some r => rw [Option.map_some, Option.map_some, nodes n r bound]
  · intro n r bound
    rw [map] at bound
    rw [nodes n r bound]
    exact shows.links bound
  · intro n r bound
    rw [map] at bound
    rw [nodes n r bound]
    exact shows.body bound
  · intro n m r q first second same
    rw [map] at first second
    rw [nodes n r first, nodes m q second] at same
    exact shows.unique first second same

theorem agree {ρ' : Type} {files' : ν → Option ρ'} {node' : ρ' → Node ν ι β}
    (shows' : Shows files' node' c) :
    (∀ n, (files n).map node = (files' n).map node') ∧
    (∀ n m r q r' q', files n = some r → files m = some q → files' n = some r' → files' m = some q' →
      (r = q ↔ r' = q')) := by
  have bound_id : ∀ {n r r'}, files n = some r → files' n = some r' → (node r).id = (node' r').id := by
    intro n r r' bound bound'
    exact Option.some.inj ((shows.name_of bound).symm.trans (shows'.name_of bound'))
  refine ⟨?_, ?_⟩
  · intro n
    cases bound : files n with
    | none =>
      have missing := (shows'.unbound_iff n).mp ((shows.unbound_iff n).mpr bound)
      rw [missing]
      rfl
    | some r =>
      cases bound' : files' n with
      | none =>
        have missing := (shows.unbound_iff n).mp ((shows'.unbound_iff n).mpr bound')
        rw [bound] at missing
        cases missing
      | some r' =>
        have ids := bound_id bound bound'
        have links := shows.links bound
        have body := shows.body bound
        rw [ids, shows'.links bound'] at links
        rw [ids, shows'.body bound'] at body
        simp only [Option.map_some, Option.some.injEq]
        cases first : node r with
        | mk id ls b =>
          cases second : node' r' with
          | mk id' ls' b' =>
            simp only [first, second] at ids links body
            rw [ids, links, body]
  · intro n m r q r' q' first second first' second'
    have left := bound_id first first'
    have right := bound_id second second'
    constructor
    · intro same
      subst same
      exact shows'.unique first' second' (left.symm.trans right)
    · intro same
      subst same
      exact shows.unique first second (left.trans right.symm)

end

end Shows

section

variable [DecidableEq ν] [DecidableEq ρ] [DecidableEq ι]

def rebind (files : ν → Option ρ) (r : ρ) (links : List ν) : ν → Option ρ := fun n =>
  match files n with
  | some q => if q = r then (if n ∈ links then some r else none) else some q
  | none => if n ∈ links then some r else none

variable {files : ν → Option ρ} {node : ρ → Node ν ι β} {c : Catalog ν ι β}

variable {r : ρ} {links : List ν} {n : ν}

theorem rebind_cases {q : ρ} (bound : rebind files r links n = some q) :
    (q = r ∧ n ∈ links) ∨ (q ≠ r ∧ files n = some q) := by
  simp only [rebind] at bound
  cases held : files n with
  | none =>
    rw [held] at bound
    by_cases member : n ∈ links
    · simp only [if_pos member, Option.some.injEq] at bound
      exact Or.inl ⟨bound.symm, member⟩
    · simp [member] at bound
  | some p =>
    rw [held] at bound
    by_cases same : p = r
    · by_cases member : n ∈ links
      · simp only [if_pos same, if_pos member, Option.some.injEq] at bound
        exact Or.inl ⟨bound.symm, member⟩
      · simp [same, member] at bound
    · simp only [if_neg same, Option.some.injEq] at bound
      subst bound
      exact Or.inr ⟨same, rfl⟩

theorem rebind_self (free : ∀ n ∈ links, files n = none ∨ files n = some r)
    (member : n ∈ links) : rebind files r links n = some r := by
  rcases free n member with unbound | held
  · simp [rebind, unbound, member]
  · simp [rebind, held, member]

theorem rebind_other {q : ρ} (different : q ≠ r) (held : files n = some q) : rebind files r links n = some q := by
  simp [rebind, held, different]

theorem rebind_unlisted (unlisted : n ∉ links) (other : files n ≠ some r) : rebind files r links n = files n := by
  cases held : files n with
  | none => simp [rebind, held, unlisted]
  | some q =>
    have different : q ≠ r := by
      rintro rfl
      exact other held
    exact rebind_other different held

theorem Shows.put (shows : Shows files node c) (new : Node ν ι β) (mine : ∀ n, files n = some r → (node r).id = new.id)
    (others : ∀ n q, files n = some q → q ≠ r → (node q).id ≠ new.id) :
    Shows (rebind files r new.links) (update node r new) (c.put new) := by
  have self : update node r new r = new := update_self ..
  have other : ∀ q, q ≠ r → update node r new q = node q := fun q different =>
    update_of_ne different ..
  constructor
  · intro n
    simp only [Catalog.put, rebind, shows.names]
    cases held : files n with
    | none => by_cases member : n ∈ new.links <;> simp [member]
    | some q =>
      by_cases same : q = r
      · subst same
        simp only [Option.map_some, mine n held, if_true]
        by_cases member : n ∈ new.links <;> simp [member]
      · simp only [Option.map_some, if_neg (others n q held same), if_neg same, other q same]
  · intro n q bound
    rcases rebind_cases bound with ⟨rfl, _⟩ | ⟨different, held⟩
    · rw [self]
      exact update_self ..
    · rw [other q different]
      simp only [Catalog.put]
      rw [update_of_ne (others n q held different)]
      exact shows.links held
  · intro n q bound
    rcases rebind_cases bound with ⟨rfl, _⟩ | ⟨different, held⟩
    · rw [self]
      exact update_self ..
    · rw [other q different]
      simp only [Catalog.put]
      rw [update_of_ne (others n q held different)]
      exact shows.body held
  · intro n m p q first second same
    rcases rebind_cases first with ⟨rfl, _⟩ | ⟨different, held⟩
    · rcases rebind_cases second with ⟨rfl, _⟩ | ⟨different', held'⟩
      · rfl
      · rw [self, other q different'] at same
        exact absurd same.symm (others m q held' different')
    · rcases rebind_cases second with ⟨rfl, _⟩ | ⟨different', held'⟩
      · rw [self, other p different] at same
        exact absurd same (others n p held different)
      · rw [other p different, other q different'] at same
        exact shows.unique held held' same

theorem Shows.remove [BEq ν] (shows : Shows files node c) (bound : files n = some r) :
    Shows (update files n none)
      (update node r { node r with links := (node r).links.erase n })
      (c.remove (node r).id n) := by
  have keep : ∀ {m q}, update files n none m = some q → m ≠ n ∧ files m = some q := by
    intro m q held
    by_cases same : m = n
    · subst same
      rw [update_self] at held
      cases held
    · rw [update_of_ne same] at held
      exact ⟨same, held⟩
  have ids : ∀ q, (update node r { node r with links := (node r).links.erase n } q).id = (node q).id := by
    intro q
    by_cases same : q = r
    · subst same
      rw [update_self]
    · rw [update_of_ne same]
  constructor
  · intro m
    simp only [Catalog.remove, ids]
    by_cases same : m = n
    · subst same
      rw [update_self, update_self, Option.map_none]
    · rw [update_of_ne same, update_of_ne same, shows.names]
  · intro m q held
    obtain ⟨_, before⟩ := keep held
    rw [ids]
    simp only [Catalog.remove]
    by_cases same : q = r
    · subst same
      rw [update_self, update_self, shows.links before]
    · have apart : (node q).id ≠ (node r).id := fun equal => same (shows.unique before bound equal)
      rw [update_of_ne apart, update_of_ne same]
      exact shows.links before
  · intro m q held
    obtain ⟨_, before⟩ := keep held
    rw [ids]
    by_cases same : q = r
    · subst same
      rw [update_self]
      exact shows.body before
    · rw [update_of_ne same]
      exact shows.body before
  · intro m k p q first second same
    rw [ids, ids] at same
    exact shows.unique (keep first).2 (keep second).2 same

end

end HardLinks
