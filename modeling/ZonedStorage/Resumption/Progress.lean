import ZonedStorage.Resumption.Keeps

namespace Resumption.Prog

variable {ε σ τ α β : Type}

variable {p : Prog ε σ α} {s s' : σ} {result : Except ε α} {bad : σ → Prop}

theorem run_eq_some {fallback : σ}
    (answer : (p.run s).map Prod.fst = some result) : p.run s = some (result, (p.run s).elim fallback Prod.snd) := by
  cases ran : p.run s with
  | none =>
    rw [ran] at answer
    cases answer
  | some outcome =>
    rw [ran] at answer
    cases answer
    rfl

theorem run_step {action : σ → Option (β × σ)} {next : β → Prog ε σ α}
    (ran : (step action next).run s = some (result, s')) :
    ∃ answer, action s = some answer ∧ (next answer.1).run answer.2 = some (result, s') := by
  simp only [run] at ran
  cases answered : action s with
  | none =>
    rw [answered] at ran
    cases ran
  | some answer =>
    rw [answered] at ran
    exact ⟨answer, rfl, ran⟩

/-- The state after `n` actions of the program, as a crash finds it. -/
def after : Nat → Prog ε σ α → σ → Option σ
  | 0, _, s => some s
  | _ + 1, ret _, _ => none
  | _ + 1, fail _, _ => none
  | n + 1, step action next, s =>
    match action s with
    | none => none
    | some (answer, s') => (next answer).after n s'

theorem wp_after {seen : σ → Prop} {stuck : Prop} {post : Except ε α → σ → Prop} {mid : σ} {n : Nat}
    (here : seen s) (holds : wp seen stuck p post s) (cut : p.after n s = some mid) : seen mid := by
  induction n generalizing p s with
  | zero =>
    cases cut
    exact here
  | succ n ih =>
    cases p with
    | ret value => cases cut
    | fail status => cases cut
    | step action next =>
      simp only [after] at cut
      simp only [wp] at holds
      cases answered : action s with
      | none =>
        rw [answered] at cut
        cases cut
      | some answer =>
        rw [answered] at cut holds
        exact ih holds.1 holds.2 cut

/-- No state that the program leaves behind on its way is bad. -/
def Avoids (bad : σ → Prop) (p : Prog ε σ α) (s : σ) : Prop := ∀ n mid, p.after n s = some mid → ¬ bad mid

theorem Avoids.here (avoids : p.Avoids bad s) : ¬ bad s := avoids 0 s rfl

theorem Avoids.next {action : σ → Option (β × σ)} {next : β → Prog ε σ α} {answer : β × σ}
    (avoids : (step action next).Avoids bad s) (answered : action s = some answer) :
    (next answer.1).Avoids bad answer.2 := by
  intro n mid cut
  refine avoids (n + 1) mid ?_
  simp only [after, answered]
  exact cut

theorem Avoids.first {k : α → Prog ε σ β} (avoids : (p >>= k).Avoids bad s) : p.Avoids bad s := by
  intro n mid cut
  induction n generalizing p s with
  | zero =>
    cases cut
    exact avoids.here
  | succ n ih =>
    cases p with
    | ret value => cases cut
    | fail status => cases cut
    | step action next =>
      simp only [after] at cut
      cases answered : action s with
      | none =>
        rw [answered] at cut
        cases cut
      | some answer =>
        rw [answered] at cut
        exact ih (avoids.next answered) cut

theorem Avoids.second {k : α → Prog ε σ β} {value : α}
    (avoids : (p >>= k).Avoids bad s) (ran : p.run s = some (.ok value, s')) : (k value).Avoids bad s' := by
  induction p generalizing s with
  | ret value =>
    cases ran
    exact avoids
  | fail status => cases ran
  | step action next ih =>
    obtain ⟨answer, answered, ran⟩ := run_step ran
    exact ih answer.1 (avoids.next answered) ran

theorem Avoids.last (avoids : p.Avoids bad s) (ran : p.run s = some (result, s')) : ¬ bad s' := by
  induction p generalizing s with
  | ret value =>
    cases ran
    exact avoids.here
  | fail status =>
    cases ran
    exact avoids.here
  | step action next ih =>
    obtain ⟨answer, answered, ran⟩ := run_step ran
    exact ih answer.1 (avoids.next answered) ran

theorem Keeps.avoids
    (keeps : p.Keeps (fun a b => bad a → bad b)) (ran : p.run s = some (result, s')) (clean : ¬ bad s') :
    p.Avoids bad s := by
  induction p generalizing s with
  | ret value =>
    cases ran
    rintro (_ | n) mid ⟨⟩
    exact clean
  | fail status =>
    cases ran
    rintro (_ | n) mid ⟨⟩
    exact clean
  | step action next ih =>
    obtain ⟨answer, answered, ran⟩ := run_step ran
    have rest := ih answer.1 (keeps.2 answer.1) ran
    rintro (_ | n) mid cut
    · cases cut
      exact fun already => rest.here (keeps.1 s answer.1 answer.2 answered already)
    · simp only [after, answered] at cut
      exact rest n mid cut

/-- The program takes one action, after which it has the rest left to do. -/
inductive Moves : Prog ε σ α → σ → Prog ε σ α → σ → Prop where
  | act {β : Type} {action : σ → Option (β × σ)} {next : β → Prog ε σ α} {s s' : σ} {answer : β}
    (acted : action s = some (answer, s')) : Moves (step action next) s (next answer) s'

theorem Moves.inv {action : σ → Option (β × σ)} {next : β → Prog ε σ α} {rest : Prog ε σ α}
    (moves : Moves (step action next) s rest s') : ∃ answer, action s = some (answer, s') ∧ rest = next answer := by
  cases moves with
  | act acted => exact ⟨_, acted, rfl⟩

def Total (p : Prog ε σ α) : Prop := ∀ s, wp (fun _ => True) False p (fun _ _ => True) s

namespace Total

theorem ofRet (value : α) : (ret value : Prog ε σ α).Total := fun _ => trivial

theorem ofFail (status : ε) : (fail status : Prog ε σ α).Total := fun _ => trivial

theorem ofAct (action : σ → α × σ) : (act action : Prog ε σ α).Total := fun _ => ⟨trivial, trivial⟩

theorem ofRead (view : σ → α) : (read view : Prog ε σ α).Total := ofAct _

theorem ofUpdate (change : σ → σ) : (update change : Prog ε σ Unit).Total := ofAct _

variable {p : Prog ε σ α}

theorem bind {k : α → Prog ε σ β} (first : p.Total) (rest : ∀ value, (k value).Total) : (p >>= k).Total := by
  intro s
  rw [wp_bind]
  refine wp_mono ?_ (first s)
  intro result s' _
  cases result with
  | ok value => exact rest value s'
  | error status => trivial

theorem attempt (total : p.Total) : p.attempt.Total := by
  intro s
  rw [wp_attempt]
  exact total s

theorem zoom (part : Lens τ σ) (total : p.Total) : (p.zoom part).Total :=
  fun t => (wp_zoom part p _ t).mpr (total (part.get t))

theorem forM {body : β → Prog ε σ PUnit} (items : List β) (each : ∀ item, (body item).Total) :
    (items.forM body).Total := by
  induction items with
  | nil => exact ofRet _
  | cons item rest ih => exact bind (each item) (fun _ => ih)

theorem wp {seen : σ → Prop} {stuck : Prop} {post : Except ε α → σ → Prop} {s : σ}
    (total : p.Total) (holds : Prog.wp seen stuck p post s) : Prog.wp seen False p post s := by
  have ends := total s
  clear total
  induction p generalizing s with
  | ret value => exact holds
  | fail status => exact holds
  | step action next ih =>
    simp only [Prog.wp] at holds ends ⊢
    cases answered : action s with
    | none =>
      rw [answered] at ends
      exact ends
    | some answer =>
      rw [answered] at holds ends
      exact ⟨holds.1, ih answer.1 holds.2 ends.2⟩

end Total

end Resumption.Prog
