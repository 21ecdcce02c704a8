import ZonedStorage.Resumption.Wp

namespace Resumption.Prog

variable {ε σ α β : Type} {R : σ → σ → Prop}

def Mirrors (R : σ → σ → Prop) (p : Prog ε σ α) : Prop :=
  ∀ s t result s', R s t → p.run s = some (result, s') → ∃ t', p.run t = some (result, t') ∧ R s' t'

namespace Mirrors

theorem ofPure (value : α) : (pure value : Prog ε σ α).Mirrors R := by
  rintro s t _ _ related ⟨⟩
  exact ⟨t, rfl, related⟩

theorem ofFail (status : ε) : (fail status : Prog ε σ α).Mirrors R := by
  rintro s t _ _ related ⟨⟩
  exact ⟨t, rfl, related⟩

theorem ofHang : (hang : Prog ε σ α).Mirrors R := by
  rintro s t _ _ _ ⟨⟩

theorem ofAct {action : σ → α × σ} (same : ∀ s t, R s t → (action t).1 = (action s).1)
    (moves : ∀ s t, R s t → R (action s).2 (action t).2) : (act action : Prog ε σ α).Mirrors R := by
  rintro s t _ _ related ⟨⟩
  refine ⟨(action t).2, ?_, moves s t related⟩
  rw [run_act, same s t related]

theorem ofRead {view : σ → α} (same : ∀ s t, R s t → view t = view s) : (read view : Prog ε σ α).Mirrors R :=
  ofAct same (fun _ _ related => related)

variable {p : Prog ε σ α}

theorem bind {k : α → Prog ε σ β} (first : p.Mirrors R) (rest : ∀ value, (k value).Mirrors R) :
    (p >>= k).Mirrors R := by
  intro s t result s' related ran
  rw [run_bind] at ran
  rcases began : p.run s with _ | ⟨status | value, mid⟩
  · rw [began] at ran
    cases ran
  · rw [began] at ran
    cases ran
    obtain ⟨t', ran', related'⟩ := first s t _ _ related began
    exact ⟨t', by rw [run_bind, ran'], related'⟩
  · rw [began] at ran
    obtain ⟨mid', ran', related'⟩ := first s t _ _ related began
    obtain ⟨t', done, final⟩ := rest value mid mid' _ _ related' ran
    exact ⟨t', by rw [run_bind, ran']; exact done, final⟩

theorem attempt (mirrors : p.Mirrors R) : p.attempt.Mirrors R := by
  intro s t result s' related ran
  rw [run_attempt] at ran
  obtain ⟨⟨inner, mid⟩, began, same⟩ := Option.map_eq_some_iff.mp ran
  cases same
  obtain ⟨t', ran', related'⟩ := mirrors s t _ _ related began
  exact ⟨t', by rw [run_attempt, ran']; rfl, related'⟩

theorem wp {post post' : Except ε α → σ → Prop} {s t : σ} (mirrors : p.Mirrors R)
    (related : R s t) (holds : wp (fun _ => True) False p post s)
    (done : ∀ result s' t', R s' t' → post result s' → post' result t') : wp (fun _ => True) False p post' t := by
  obtain ⟨result, s', ran, reached⟩ := (wp_total_iff p post s).mp holds
  obtain ⟨t', ran', related'⟩ := mirrors s t result s' related ran
  exact (wp_total_iff p post' t).mpr ⟨result, t', ran', done result s' t' related' reached⟩

end Mirrors

end Resumption.Prog
