import ZonedStorage.Resumption.Program

namespace Resumption.Prog

variable {ε σ τ α β : Type}

/-- Weakest precondition. `seen` has to hold of every state an action leaves behind, `stuck`
    is the verdict on a program that blocks, and `post` on the result and the last state. -/
def wp (seen : σ → Prop) (stuck : Prop) :
    Prog ε σ α → (Except ε α → σ → Prop) → σ → Prop
  | ret value, post, s => post (.ok value) s
  | fail status, post, s => post (.error status) s
  | step action next, post, s =>
    match action s with
    | none => stuck
    | some (answer, s') => seen s' ∧ wp seen stuck (next answer) post s'

def onOk (k : α → σ → Prop) (post : ε → σ → Prop) : Except ε α → σ → Prop
  | .ok value, s => k value s
  | .error status, s => post status s

@[simp] theorem onOk_ok (k : α → σ → Prop) (post : ε → σ → Prop) (value : α) (s : σ) :
    onOk k post (.ok value) s = k value s := rfl

@[simp] theorem onOk_error (k : α → σ → Prop) (post : ε → σ → Prop) (status : ε) (s : σ) :
    onOk k post (.error status) s = post status s := rfl

section

variable {seen : σ → Prop} {stuck : Prop} {post : Except ε α → σ → Prop} {s : σ}

@[simp] theorem wp_pure (value : α) : wp seen stuck (pure value) post s ↔ post (.ok value) s := Iff.rfl

@[simp] theorem wp_fail (status : ε) :
    wp seen stuck (fail status) post s ↔ post (.error status) s := Iff.rfl

@[simp] theorem wp_act (action : σ → α × σ) :
    wp seen stuck (act action) post s ↔ seen (action s).2 ∧ post (.ok (action s).1) (action s).2 := Iff.rfl

@[simp] theorem wp_read (view : σ → α) :
    wp seen stuck (read view) post s ↔ seen s ∧ post (.ok (view s)) s := Iff.rfl

@[simp] theorem wp_update (change : σ → σ) {post : Except ε Unit → σ → Prop} :
    wp seen stuck (update change) post s ↔ seen (change s) ∧ post (.ok ()) (change s) := Iff.rfl

theorem wp_await (action : σ → Option (α × σ)) : wp seen stuck (await action) post s ↔ match action s with
      | none => stuck
      | some (answer, s') => seen s' ∧ post (.ok answer) s' := by
  simp only [await, wp]

@[simp] theorem wp_ofExcept (result : Except ε α) :
    wp seen stuck (ofExcept result) post s ↔ post result s := by
  cases result <;> exact Iff.rfl

theorem wp_bind (p : Prog ε σ α) (k : α → Prog ε σ β) (post : Except ε β → σ → Prop) (s : σ) :
    wp seen stuck (p >>= k) post s ↔
      wp seen stuck p (onOk (fun value s' => wp seen stuck (k value) post s')
        (fun status s' => post (.error status) s')) s := by
  rw [bind_def]
  induction p generalizing s with
  | ret value => exact Iff.rfl
  | fail status => exact Iff.rfl
  | step action next ih =>
    simp only [bind, wp]
    cases answered : action s with
    | none => exact Iff.rfl
    | some answer => exact and_congr Iff.rfl (ih answer.1 answer.2)

theorem wp_attempt (p : Prog ε σ α) (post : Except ε (Except ε α) → σ → Prop) (s : σ) :
    wp seen stuck p.attempt post s ↔ wp seen stuck p (fun result s' => post (.ok result) s') s := by
  induction p generalizing s with
  | ret value => exact Iff.rfl
  | fail status => exact Iff.rfl
  | step action next ih =>
    simp only [attempt, wp]
    cases answered : action s with
    | none => exact Iff.rfl
    | some answer => exact and_congr Iff.rfl (ih answer.1 answer.2)

variable {p : Prog ε σ α}

theorem wp_conseq {seen' : σ → Prop} {stuck' : Prop} {post' : Except ε α → σ → Prop}
    (visited : ∀ s, seen s → seen' s) (blocked : stuck → stuck')
    (weaken : ∀ result s', post result s' → post' result s') (holds : wp seen stuck p post s) :
    wp seen' stuck' p post' s := by
  induction p generalizing s with
  | ret value => exact weaken _ _ holds
  | fail status => exact weaken _ _ holds
  | step action next ih =>
    simp only [wp] at holds ⊢
    cases answered : action s with
    | none =>
      rw [answered] at holds
      exact blocked holds
    | some answer =>
      rw [answered] at holds
      exact ⟨visited _ holds.1, ih answer.1 holds.2⟩

theorem wp_mono {post' : Except ε α → σ → Prop} (weaken : ∀ result s', post result s' → post' result s')
    (holds : wp seen stuck p post s) : wp seen stuck p post' s :=
  wp_conseq (fun _ => id) id weaken holds

theorem wp_weaken {seen' : σ → Prop} {stuck' : Prop} (visited : ∀ s, seen s → seen' s) (blocked : stuck → stuck')
    (holds : wp seen stuck p post s) : wp seen' stuck' p post s :=
  wp_conseq visited blocked (fun _ _ => id) holds

theorem wp_and {post' : Except ε α → σ → Prop} (left : wp seen stuck p post s) (right : wp seen stuck p post' s) :
    wp seen stuck p (fun result s' => post result s' ∧ post' result s') s := by
  induction p generalizing s with
  | ret value => exact ⟨left, right⟩
  | fail status => exact ⟨left, right⟩
  | step action next ih =>
    simp only [wp] at left right ⊢
    cases answered : action s with
    | none => rwa [answered] at left
    | some answer =>
      rw [answered] at left right
      exact ⟨left.1, ih answer.1 left.2 right.2⟩

theorem wp_seen (here : seen s) (holds : wp seen stuck p post s) :
    wp seen stuck p (fun result s' => post result s' ∧ seen s') s := by
  induction p generalizing s with
  | ret value => exact ⟨holds, here⟩
  | fail status => exact ⟨holds, here⟩
  | step action next ih =>
    simp only [wp] at holds ⊢
    cases answered : action s with
    | none => rwa [answered] at holds
    | some answer =>
      rw [answered] at holds
      exact ⟨holds.1, ih answer.1 holds.1 holds.2⟩

theorem wp_zoom {seen : τ → Prop} (part : Lens τ σ) (p : Prog ε σ α) (post : Except ε α → τ → Prop) (t : τ) :
    wp seen stuck (p.zoom part) post t ↔
      wp (fun s => seen (part.put s t)) stuck p (fun result s => post result (part.put s t)) (part.get t) := by
  induction p generalizing t with
  | ret value => simp only [zoom, wp, part.put_get]
  | fail status => simp only [zoom, wp, part.put_get]
  | step action next ih =>
    simp only [zoom, wp]
    cases answered : action (part.get t) with
    | none => exact Iff.rfl
    | some answer =>
      simp only [Option.map_some]
      rw [ih answer.1 (part.put answer.2 t)]
      simp only [part.get_put, part.put_put]

end

theorem wp_iff_run {stuck : Prop} (p : Prog ε σ α) (post : Except ε α → σ → Prop) (s : σ) :
    wp (fun _ => True) stuck p post s ↔ match p.run s with
      | none => stuck
      | some (result, s') => post result s' := by
  induction p generalizing s with
  | ret value => exact Iff.rfl
  | fail status => exact Iff.rfl
  | step action next ih =>
    simp only [wp, run]
    cases answered : action s with
    | none => exact Iff.rfl
    | some answer => exact Iff.trans (iff_of_eq (true_and _)) (ih answer.1 answer.2)

theorem wp_partial_iff (p : Prog ε σ α) (post : Except ε α → σ → Prop) (s : σ) : wp (fun _ => True) True p post s ↔
      ∀ result s', p.run s = some (result, s') → post result s' := by
  rw [wp_iff_run]
  rcases p.run s with _ | ⟨result, s'⟩ <;> simp

theorem wp_total_iff (p : Prog ε σ α) (post : Except ε α → σ → Prop) (s : σ) : wp (fun _ => True) False p post s ↔
      ∃ result s', p.run s = some (result, s') ∧ post result s' := by
  rw [wp_iff_run]
  rcases p.run s with _ | ⟨result, s'⟩ <;> simp [and_assoc]

theorem wp_total_of_run {p : Prog ε σ α} {post : Except ε α → σ → Prop} {s s' : σ} {result : Except ε α}
    (ran : p.run s = some (result, s')) : wp (fun _ => True) False p post s ↔ post result s' := by
  rw [wp_iff_run, ran]

theorem wp_run {stuck : Prop} {p : Prog ε σ α} {post : Except ε α → σ → Prop} {s : σ}
    (holds : wp (fun _ => True) stuck p post s) :
    (¬ stuck → ∃ result s', p.run s = some (result, s')) ∧
      ∀ result s', p.run s = some (result, s') → post result s' := by
  rw [wp_iff_run] at holds
  cases ran : p.run s with
  | none =>
    rw [ran] at holds
    exact ⟨fun free => (free holds).elim, fun _ _ none => nomatch none⟩
  | some outcome =>
    rw [ran] at holds
    refine ⟨fun _ => ⟨_, _, rfl⟩, ?_⟩
    rintro result s' ⟨⟩
    exact holds

end Resumption.Prog
