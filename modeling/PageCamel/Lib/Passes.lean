/-!
Loops over keys whose turns do not touch what belongs to other keys.
-/

namespace PageCamel.Lib.Passes

universe u v w
variable {κ : Type u} {σ : Type v} {ω : Type w} {step : σ → κ → σ} {keys : List κ} {k : κ}

variable (step) in
theorem foldl_kept (kept : σ → ω) (hStep : ∀ s n, kept (step s n) = kept s) (keys : List κ)
    (s : σ) : kept (keys.foldl step s) = kept s := by
  induction keys generalizing s with
  | nil => rfl
  | cons n keys ih => rw [List.foldl_cons, ih, hStep]

section Own
variable (own : κ → σ → ω)

/-- A key that has no turn keeps what belongs to it. -/
theorem foldl_other (hOther : ∀ k n s, k ≠ n → own k (step s n) = own k s) (hNever : k ∉ keys)
    (s : σ) : own k (keys.foldl step s) = own k s := by
  induction keys generalizing s with
  | nil => rfl
  | cons n keys ih =>
    rw [List.mem_cons, not_or] at hNever
    rw [List.foldl_cons, ih hNever.2, hOther k n s hNever.1]

/-- A key has its turn once. -/
theorem foldl_own (act : κ → ω → ω) (hOwn : ∀ k s, own k (step s k) = act k (own k s))
    (hOther : ∀ k n s, k ≠ n → own k (step s n) = own k s) (hNodup : keys.Nodup)
    (hMem : k ∈ keys) (s : σ) : own k (keys.foldl step s) = act k (own k s) := by
  induction keys generalizing s with
  | nil => cases hMem
  | cons n keys ih =>
    obtain ⟨hNever, hRest⟩ := List.nodup_cons.mp hNodup
    rw [List.foldl_cons]
    rcases List.mem_cons.mp hMem with rfl | hLater
    · rw [foldl_other own hOther hNever, hOwn]
    · have hDifferent : k ≠ n := fun hSame => hNever (hSame ▸ hLater)
      rw [ih hRest hLater, hOther k n s hDifferent]

end Own

end PageCamel.Lib.Passes
