import ZonedStorage.Resumption.Wp

namespace Resumption.Prog

variable {ε σ τ α β : Type} {R : σ → σ → Prop}

/-- Every action of the program, from whatever state it starts, moves the state along `R`. -/
def Keeps (R : σ → σ → Prop) : Prog ε σ α → Prop
  | ret _ => True
  | fail _ => True
  | step action next => (∀ s answer s', action s = some (answer, s') → R s s') ∧ ∀ answer, (next answer).Keeps R

namespace Keeps

theorem ofPure (value : α) : (pure value : Prog ε σ α).Keeps R := trivial

theorem ofFail (status : ε) : (fail status : Prog ε σ α).Keeps R := trivial

theorem ofHang : (hang : Prog ε σ α).Keeps R :=
  ⟨fun _ _ _ blocked => (by cases blocked), fun answer => answer.elim⟩

theorem ofAct {action : σ → α × σ} (moves : ∀ s, R s (action s).2) : (act action : Prog ε σ α).Keeps R := by
  refine ⟨?_, fun _ => trivial⟩
  intro s answer s' done
  have same : action s = (answer, s') := Option.some.inj done
  have moved := moves s
  rwa [same] at moved

theorem ofAwait {action : σ → Option (α × σ)} (moves : ∀ s answer s', action s = some (answer, s') → R s s') :
    (await action : Prog ε σ α).Keeps R := ⟨moves, fun _ => trivial⟩

theorem ofRead (still : ∀ s, R s s) (view : σ → α) : (read view : Prog ε σ α).Keeps R := ofAct still

theorem ofUpdate {change : σ → σ} (moves : ∀ s, R s (change s)) : (update change : Prog ε σ Unit).Keeps R :=
  ofAct moves

theorem ofExcept (result : Except ε α) : (Prog.ofExcept result : Prog ε σ α).Keeps R := by
  cases result <;> trivial

variable {p : Prog ε σ α}

theorem bind {k : α → Prog ε σ β} (first : p.Keeps R) (rest : ∀ value, (k value).Keeps R) : (p >>= k).Keeps R := by
  rw [bind_def]
  induction p with
  | ret value => exact rest value
  | fail status => trivial
  | step action next ih => exact ⟨first.1, fun answer => ih answer (first.2 answer)⟩

theorem ite_bind {c : Prop} [Decidable c] {p : Prog ε σ PUnit} {k : PUnit → Prog ε σ β} (first : p.Keeps R)
    (rest : (k ⟨⟩).Keeps R) : (if c then p >>= k else k ⟨⟩).Keeps R := by
  split
  · exact first.bind (fun _ => rest)
  · exact rest

theorem attempt (keeps : p.Keeps R) : p.attempt.Keeps R := by
  induction p with
  | ret value => trivial
  | fail status => trivial
  | step action next ih => exact ⟨keeps.1, fun answer => ih answer (keeps.2 answer)⟩

theorem zoom {Q : τ → τ → Prop} (part : Lens τ σ) (lift : ∀ t s', R (part.get t) s' → Q t (part.put s' t))
    (keeps : p.Keeps R) : (p.zoom part).Keeps Q := by
  induction p with
  | ret value => trivial
  | fail status => trivial
  | step action next ih =>
    refine ⟨?_, fun answer => ih answer (keeps.2 answer)⟩
    intro t answer t' moved
    obtain ⟨outcome, acted, same⟩ := Option.map_eq_some_iff.mp moved
    cases same
    exact lift t outcome.2 (keeps.1 (part.get t) outcome.1 outcome.2 acted)

theorem forM {body : β → Prog ε σ PUnit} (items : List β) (each : ∀ item, (body item).Keeps R) :
    (items.forM body).Keeps R := by
  induction items with
  | nil => trivial
  | cons item rest ih => exact bind (each item) (fun _ => ih)

theorem foldlM {body : α → β → Prog ε σ α} (items : List β) (each : ∀ acc item, (body acc item).Keeps R)
    (start : α) : (items.foldlM body start).Keeps R := by
  induction items generalizing start with
  | nil => trivial
  | cons item rest ih => exact bind (each start item) (fun acc => ih acc)

theorem mono {Q : σ → σ → Prop} (weaken : ∀ s s', R s s' → Q s s') (keeps : p.Keeps R) : p.Keeps Q := by
  induction p with
  | ret value => trivial
  | fail status => trivial
  | step action next ih =>
    exact ⟨fun s answer s' moved => weaken s s' (keeps.1 s answer s' moved),
      fun answer => ih answer (keeps.2 answer)⟩

theorem all (p : Prog ε σ α) : p.Keeps (fun _ _ => True) := by
  induction p with
  | ret value => trivial
  | fail status => trivial
  | step action next ih => exact ⟨fun _ _ _ _ => trivial, ih⟩

theorem wp_from (keeps : p.Keeps R) (compose : ∀ s s' s'', R s s' → R s' s'' → R s s'')
    {s now : σ} (here : R s now) : wp (fun s' => R s s') True p (fun _ s' => R s s') now := by
  induction p generalizing now with
  | ret value => exact here
  | fail status => exact here
  | step action next ih =>
    simp only [Prog.wp]
    cases moved : action now with
    | none => trivial
    | some answer =>
      have there := compose s now answer.2 here (keeps.1 now answer.1 answer.2 moved)
      exact ⟨there, ih answer.1 (keeps.2 answer.1) there⟩

theorem wp_of (keeps : p.Keeps R) (still : ∀ s, R s s) (compose : ∀ s s' s'', R s s' → R s' s'' → R s s'') (s : σ) :
    wp (fun s' => R s s') True p (fun _ s' => R s s') s :=
  keeps.wp_from compose (still s)

end Keeps

end Resumption.Prog
