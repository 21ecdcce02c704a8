import Mathlib.Data.List.Basic

namespace ByteString

variable {β σ ρ ι : Type} {loop : σ → List β → ρ}

def Consumes (loop : σ → List β → ρ) (symbols : List β) (update : σ → σ) : Prop :=
  ∀ s rest, loop s (symbols ++ rest) = loop (update s) rest

namespace Consumes

theorem nothing : Consumes loop [] id := fun _ _ => rfl

variable {f : σ → σ}

theorem append {first second : List β} {g : σ → σ} (reads : Consumes loop first f) (later : Consumes loop second g) :
    Consumes loop (first ++ second) (fun s => g (f s)) := by
  intro s rest
  rw [List.append_assoc, reads, later]

theorem before {first second rest : List β} {s : σ} {result : ρ} (reads : Consumes loop first f)
    (later : loop (f s) (second ++ rest) = result) : loop s (first ++ second ++ rest) = result := by
  rw [List.append_assoc, reads, later]

theorem optional {c : Prop} [Decidable c] {symbols : List β} (reads : c → Consumes loop symbols f)
    (idle : ¬ c → ∀ s, f s = s) : Consumes loop (if c then symbols else []) f := by
  intro s rest
  split
  · rename_i holds
    exact reads holds s rest
  · rename_i fails
    rw [idle fails s]
    rfl

theorem flatMap {encode : ι → List β} {f : ι → σ → σ} (items : List ι)
    (reads : ∀ item ∈ items, Consumes loop (encode item) (f item)) :
    Consumes loop (items.flatMap encode) (fun s => items.foldl (fun s item => f item s) s) := by
  induction items with
  | nil => exact nothing
  | cons item items ih =>
    have first := reads item List.mem_cons_self
    have later := ih (fun other listed => reads other (List.mem_cons_of_mem _ listed))
    exact append first later

end Consumes

end ByteString
