import Mathlib.Data.List.Nodup
import Mathlib.Logic.Function.Basic

namespace HardLinks

open Function

/-- A map of names to objects, next to the names that each object lists as its links. -/
@[ext] structure Table (ν ρ : Type) where
  lookup : ν → Option ρ
  links : ρ → List ν

namespace Table

variable {ν ρ : Type}

/-- The map and the link lists agree about every object that is `alive`. -/
structure Paired (t : Table ν ρ) (alive : ρ → Prop) : Prop where
  named : ∀ {n r}, t.lookup n = some r → alive r
  listed : ∀ {r}, alive r → ∀ n, t.lookup n = some r ↔ n ∈ t.links r
  nodup : ∀ {r}, alive r → (t.links r).Nodup

theorem Paired.restrict {t : Table ν ρ} {alive : ρ → Prop} (paired : t.Paired alive) {alive' : ρ → Prop}
    (named : ∀ {n r}, t.lookup n = some r → alive' r)
    (less : ∀ r, alive' r → alive r) : t.Paired alive' where
  named := named
  listed known := paired.listed (less _ known)
  nodup known := paired.nodup (less _ known)

variable [DecidableEq ν] [BEq ν] [LawfulBEq ν] [DecidableEq ρ]

def unlink (t : Table ν ρ) (r : ρ) (n : ν) : Table ν ρ where
  lookup := update t.lookup n none
  links := update t.links r ((t.links r).erase n)

def link (t : Table ν ρ) (r : ρ) (n : ν) : Table ν ρ where
  lookup := update t.lookup n (some r)
  links := update t.links r (t.links r ++ [n])

def born (t : Table ν ρ) (r : ρ) : Table ν ρ := { t with links := update t.links r [] }

section

variable {t : Table ν ρ} {r : ρ} {n : ν}

omit [DecidableEq ν] [BEq ν] [LawfulBEq ν] in
theorem born_links_self : (t.born r).links r = [] := update_self ..

omit [DecidableEq ν] [BEq ν] [LawfulBEq ν] in
theorem born_links_other {q : ρ} (other : q ≠ r) : (t.born r).links q = t.links q :=
  update_of_ne other ..

omit [BEq ν] [LawfulBEq ν] in
theorem link_lookup_self : (t.link r n).lookup n = some r := update_self ..

omit [BEq ν] [LawfulBEq ν] in
theorem link_lookup_other {m : ν} (other : m ≠ n) : (t.link r n).lookup m = t.lookup m :=
  update_of_ne other ..

omit [BEq ν] [LawfulBEq ν] in
theorem link_links_self : (t.link r n).links r = t.links r ++ [n] := update_self ..

omit [BEq ν] [LawfulBEq ν] in
theorem link_links_other {q : ρ} (other : q ≠ r) : (t.link r n).links q = t.links q :=
  update_of_ne other ..

omit [LawfulBEq ν] in
theorem unlink_lookup_self : (t.unlink r n).lookup n = none := update_self ..

omit [LawfulBEq ν] in
theorem unlink_lookup_other {m : ν} (other : m ≠ n) : (t.unlink r n).lookup m = t.lookup m :=
  update_of_ne other ..

omit [LawfulBEq ν] in
theorem unlink_links_self : (t.unlink r n).links r = (t.links r).erase n := update_self ..

omit [LawfulBEq ν] in
theorem unlink_links_other {q : ρ} (other : q ≠ r) : (t.unlink r n).links q = t.links q :=
  update_of_ne other ..

end

namespace Paired

variable {t : Table ν ρ} {alive : ρ → Prop} {r : ρ} {n : ν}

theorem unlink (paired : t.Paired alive) (held : t.lookup n = some r) : (t.unlink r n).Paired alive where
  named {m q} found := by
    by_cases same : m = n
    · rw [same, unlink_lookup_self] at found
      cases found
    · rw [unlink_lookup_other same] at found
      exact paired.named found
  listed {q} known m := by
    have before := paired.listed known m
    have distinct := paired.nodup (paired.named held)
    by_cases name : m = n
    · subst name
      rw [unlink_lookup_self]
      by_cases object : q = r
      · subst object
        rw [unlink_links_self, distinct.mem_erase_iff]
        simp
      · have foreign : m ∉ t.links q := by
          intro listed
          rw [← before, held] at listed
          exact object (Option.some.inj listed).symm
        rw [unlink_links_other object]
        simp [foreign]
    · rw [unlink_lookup_other name, before]
      by_cases object : q = r
      · subst object
        rw [unlink_links_self, distinct.mem_erase_iff]
        simp [name]
      · rw [unlink_links_other object]
  nodup {q} known := by
    by_cases object : q = r
    · subst object
      rw [unlink_links_self]
      exact (paired.nodup known).erase n
    · rw [unlink_links_other object]
      exact paired.nodup known

omit [BEq ν] [LawfulBEq ν] in
theorem link (paired : t.Paired alive) (free : t.lookup n = none) (known : alive r) : (t.link r n).Paired alive where
  named {m q} found := by
    by_cases same : m = n
    · rw [same, link_lookup_self] at found
      cases found
      exact known
    · rw [link_lookup_other same] at found
      exact paired.named found
  listed {q} known' m := by
    have before := paired.listed known' m
    by_cases name : m = n
    · subst name
      rw [link_lookup_self]
      by_cases object : q = r
      · subst object
        rw [link_links_self]
        simp
      · have foreign : m ∉ t.links q := by
          intro listed
          rw [← before, free] at listed
          cases listed
        rw [link_links_other object]
        simp [foreign, Ne.symm object]
    · rw [link_lookup_other name, before]
      by_cases object : q = r
      · subst object
        rw [link_links_self]
        simp [name]
      · rw [link_links_other object]
  nodup {q} known' := by
    by_cases object : q = r
    · subst object
      have fresh : n ∉ t.links q := by
        intro listed
        rw [← paired.listed known', free] at listed
        cases listed
      rw [link_links_self, ← List.concat_eq_append]
      exact (paired.nodup known').concat fresh
    · rw [link_links_other object]
      exact paired.nodup known'

omit [DecidableEq ν] [BEq ν] [LawfulBEq ν] in
theorem born (paired : t.Paired alive) (fresh : ¬ alive r) : (t.born r).Paired (fun q => alive q ∨ q = r) where
  named found := Or.inl (paired.named found)
  listed {q} known m := by
    by_cases object : q = r
    · subst object
      rw [born_links_self]
      constructor
      · exact fun found => absurd (paired.named found) fresh
      · exact fun listed => absurd listed (by simp)
    · rw [born_links_other object]
      exact paired.listed (known.resolve_right object) m
  nodup {q} known := by
    by_cases object : q = r
    · subst object
      rw [born_links_self]
      exact List.nodup_nil
    · rw [born_links_other object]
      exact paired.nodup (known.resolve_right object)

omit [LawfulBEq ν] in
theorem unlink_link (held : t.lookup n = some r) : ((t.unlink r n).link r n).lookup = t.lookup := by
  funext m
  by_cases same : m = n
  · rw [same, link_lookup_self, held]
  · rw [link_lookup_other same, unlink_lookup_other same]

theorem unlink_link_mem (paired : t.Paired alive) (held : t.lookup n = some r) (q : ρ) (m : ν) :
    m ∈ ((t.unlink r n).link r n).links q ↔ m ∈ t.links q := by
  by_cases object : q = r
  · subst object
    have known := paired.named held
    have mine := (paired.listed known n).mp held
    rw [link_links_self, unlink_links_self, List.mem_append, (paired.nodup known).mem_erase_iff, List.mem_singleton]
    by_cases same : m = n
    · simp [same, mine]
    · simp [same]
  · rw [link_links_other object, unlink_links_other object]

end Paired

end Table

end HardLinks
