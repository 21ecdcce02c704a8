import Mathlib.Logic.Function.Basic

namespace Resumption

/-- A program over a shared state: it has returned, it has failed with a status, or it
    waits to perform one atomic action. An action that answers `none` is blocked. -/
inductive Prog (ε σ α : Type) : Type 1 where
  | ret (value : α)
  | fail (status : ε)
  | step {β : Type} (action : σ → Option (β × σ)) (next : β → Prog ε σ α)

structure Lens (τ σ : Type) where
  get : τ → σ
  put : σ → τ → τ
  get_put : ∀ s t, get (put s t) = s
  put_put : ∀ s s' t, put s (put s' t) = put s t
  put_get : ∀ t, put (get t) t = t

namespace Prog

variable {ε σ τ α β γ : Type}

def bind : Prog ε σ α → (α → Prog ε σ β) → Prog ε σ β
  | ret value, k => k value
  | fail status, _ => fail status
  | step action next, k => step action (fun answer => (next answer).bind k)

instance : Monad (Prog ε σ) where
  pure := ret
  bind := bind

def attempt : Prog ε σ α → Prog ε σ (Except ε α)
  | ret value => ret (.ok value)
  | fail status => ret (.error status)
  | step action next => step action (fun answer => (next answer).attempt)

def act (action : σ → α × σ) : Prog ε σ α := step (fun s => some (action s)) ret

def await (action : σ → Option (α × σ)) : Prog ε σ α := step action ret

def read (view : σ → α) : Prog ε σ α := act (fun s => (view s, s))

def update (change : σ → σ) : Prog ε σ Unit := act (fun s => ((), change s))

def hang : Prog ε σ α := step (fun _ => (none : Option (Empty × σ))) Empty.elim

def ofExcept : Except ε α → Prog ε σ α
  | .ok value => ret value
  | .error status => fail status

def run : Prog ε σ α → σ → Option (Except ε α × σ)
  | ret value, s => some (.ok value, s)
  | fail status, s => some (.error status, s)
  | step action next, s =>
    match action s with
    | none => none
    | some (answer, s') => (next answer).run s'

def zoom (part : Lens τ σ) : Prog ε σ α → Prog ε τ α
  | ret value => ret value
  | fail status => fail status
  | step action next =>
    step (fun t => (action (part.get t)).map (fun r => (r.1, part.put r.2 t)))
      (fun answer => (next answer).zoom part)

theorem pure_def (value : α) : (pure value : Prog ε σ α) = ret value := rfl

theorem bind_def (p : Prog ε σ α) (k : α → Prog ε σ β) : (p >>= k) = p.bind k := rfl

theorem bind_ret (p : Prog ε σ α) : p.bind ret = p := by
  induction p with
  | ret value => rfl
  | fail status => rfl
  | step action next ih => simp only [bind, ih]

theorem bind_assoc (p : Prog ε σ α) (k : α → Prog ε σ β) (l : β → Prog ε σ γ) :
    (p.bind k).bind l = p.bind (fun value => (k value).bind l) := by
  induction p with
  | ret value => rfl
  | fail status => rfl
  | step action next ih => simp only [bind, ih]

instance : LawfulMonad (Prog ε σ) := LawfulMonad.mk' (Prog ε σ) bind_ret (fun _ _ => rfl) bind_assoc

@[simp] theorem run_pure (value : α) (s : σ) :
    (pure value : Prog ε σ α).run s = some (.ok value, s) := rfl

@[simp] theorem run_fail (status : ε) (s : σ) :
    (fail status : Prog ε σ α).run s = some (.error status, s) := rfl

@[simp] theorem run_act (action : σ → α × σ) (s : σ) :
    (act action : Prog ε σ α).run s = some (.ok (action s).1, (action s).2) := rfl

@[simp] theorem run_read (view : σ → α) (s : σ) :
    (read view : Prog ε σ α).run s = some (.ok (view s), s) := rfl

@[simp] theorem run_update (change : σ → σ) (s : σ) :
    (update change : Prog ε σ Unit).run s = some (.ok (), change s) := rfl

theorem run_bind (p : Prog ε σ α) (k : α → Prog ε σ β) (s : σ) : (p >>= k).run s = match p.run s with
      | none => none
      | some (.ok value, s') => (k value).run s'
      | some (.error status, s') => some (.error status, s') := by
  rw [bind_def]
  induction p generalizing s with
  | ret value => rfl
  | fail status => rfl
  | step action next ih =>
    simp only [bind, run]
    cases answered : action s with
    | none => rfl
    | some answer => exact ih answer.1 answer.2

theorem run_attempt (p : Prog ε σ α) (s : σ) : p.attempt.run s = (p.run s).map (fun r => (.ok r.1, r.2)) := by
  induction p generalizing s with
  | ret value => rfl
  | fail status => rfl
  | step action next ih =>
    simp only [attempt, run]
    cases answered : action s with
    | none => rfl
    | some answer => exact ih answer.1 answer.2

theorem run_ofExcept (result : Except ε α) (s : σ) : (ofExcept result : Prog ε σ α).run s = some (result, s) := by
  cases result <;> rfl

end Prog

end Resumption
