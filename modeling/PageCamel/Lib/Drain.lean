/-!
Loops that fetch something that waits, handle it and start over, until nothing is fetched.
Such a loop ends when less waits after each of its iterations.
-/

namespace PageCamel.Lib

universe u v w

/-- What an iteration fetches and how it goes on. With `none` for the next state the loop does
not come back: it dies. -/
structure Drain (σ : Type u) (ι : Type v) (α : Type w) where
  fetch : ι → σ → Option α
  handle : ι → α → σ → Option σ

namespace Drain

variable {σ : Type u} {ι : Type v} {α : Type w} (loop : Drain σ ι α)

/-- The state in which an iteration begins, if there is one: each has an input of its own. -/
def before (inputs : Nat → ι) (s : σ) : Nat → Option σ
  | 0 => some s
  | k + 1 =>
      (before inputs s k).bind fun s' =>
        (loop.fetch (inputs k) s').bind fun a => loop.handle (inputs k) a s'

/-- After `n` iterations nothing is fetched. -/
def Ends (inputs : Nat → ι) (s : σ) (n : Nat) (last : σ) : Prop :=
  loop.before inputs s n = some last ∧ loop.fetch (inputs n) last = none

/-- What an iteration does, in every iteration of the run. -/
def Always (inputs : Nat → ι) (s : σ) (holds : ι → α → σ → Prop) : Prop :=
  ∀ k s' a, loop.before inputs s k = some s' → loop.fetch (inputs k) s' = some a →
    holds (inputs k) a s'

variable {loop} {inputs : Nat → ι} {s : σ} {holds holds' : ι → α → σ → Prop}

/-- What every state has that the loop begins an iteration in. -/
theorem before_invariant {inv : σ → Prop} (hStart : inv s)
    (hStep : ∀ k a s s', inv s → loop.fetch (inputs k) s = some a →
      loop.handle (inputs k) a s = some s' → inv s') :
    ∀ k s', loop.before inputs s k = some s' → inv s' := by
  intro k
  induction k with
  | zero =>
      intro s' hBefore
      cases hBefore
      exact hStart
  | succ k ih =>
      intro s' hBefore
      obtain ⟨s, hs, hBefore⟩ := Option.bind_eq_some_iff.mp hBefore
      obtain ⟨a, ha, hBefore⟩ := Option.bind_eq_some_iff.mp hBefore
      exact hStep _ _ _ _ (ih s hs) ha hBefore

theorem Always.congr (hIff : ∀ k s' a, loop.before inputs s k = some s' →
    loop.fetch (inputs k) s' = some a → (holds (inputs k) a s' ↔ holds' (inputs k) a s')) :
    loop.Always inputs s holds ↔ loop.Always inputs s holds' := by
  constructor
  · exact fun hAlways k s' a hs ha => (hIff k s' a hs ha).mp (hAlways k s' a hs ha)
  · exact fun hAlways k s' a hs ha => (hIff k s' a hs ha).mpr (hAlways k s' a hs ha)

theorem before_add_one {k : Nat} {s' : σ} {a : α} (hBefore : loop.before inputs s k = some s')
    (hFetch : loop.fetch (inputs k) s' = some a) :
    loop.before inputs s (k + 1) = loop.handle (inputs k) a s' := by
  rw [before, hBefore, Option.bind_some, hFetch, Option.bind_some]

/-- As many iterations as there are items that wait are enough. -/
theorem exists_ends (waiting : σ → Nat)
    (hLess : loop.Always inputs s fun i a s =>
      ∃ s', loop.handle i a s = some s' ∧ waiting s' < waiting s) :
    ∃ n last, n ≤ waiting s ∧ loop.Ends inputs s n last := by
  have hRun : ∀ k, (∃ n last, n ≤ k ∧ loop.Ends inputs s n last) ∨
      ∃ s', loop.before inputs s k = some s' ∧ waiting s' + k ≤ waiting s := by
    intro k
    induction k with
    | zero => exact .inr ⟨s, rfl, Nat.le_refl _⟩
    | succ k ih =>
        obtain ⟨n, last, hn, hEnds⟩ | ⟨s', hBefore, hWaiting⟩ := ih
        · exact .inl ⟨n, last, Nat.le_succ_of_le hn, hEnds⟩
        · cases hFetch : loop.fetch (inputs k) s' with
          | none => exact .inl ⟨k, s', Nat.le_succ k, hBefore, hFetch⟩
          | some a =>
              obtain ⟨next, hHandle, hNext⟩ := hLess k s' a hBefore hFetch
              refine .inr ⟨next, (before_add_one hBefore hFetch).trans hHandle, ?_⟩
              omega
  obtain ⟨n, last, hn, hEnds⟩ | ⟨s', hBefore, hWaiting⟩ := hRun (waiting s)
  · exact ⟨n, last, hn, hEnds⟩
  · refine ⟨waiting s, s', Nat.le_refl _, hBefore, ?_⟩
    cases hFetch : loop.fetch (inputs (waiting s)) s' with
    | none => rfl
    | some a =>
        obtain ⟨next, -, hNext⟩ := hLess _ s' a hBefore hFetch
        omega

end Drain

/-- Fewer rows wait when one of them is settled and none starts to wait. -/
theorem countP_map_lt {α : Type u} {rows : List α} {waits : α → Bool} {f : α → α} {row : α}
    (hKept : ∀ row ∈ rows, waits (f row) = true → waits row = true) (hRow : row ∈ rows)
    (hWaits : waits row = true) (hSettled : waits (f row) = false) :
    (rows.map f).countP waits < rows.countP waits := by
  obtain ⟨before, after, rfl⟩ := List.append_of_mem hRow
  have hBefore : before.countP (waits ∘ f) ≤ before.countP waits :=
    List.countP_mono_left fun other hOther => hKept other (List.mem_append_left _ hOther)
  have hAfter : after.countP (waits ∘ f) ≤ after.countP waits :=
    List.countP_mono_left fun other hOther =>
      hKept other (List.mem_append_right _ (List.mem_cons_of_mem _ hOther))
  have hHere : (waits ∘ f) row = false := hSettled
  rw [List.countP_map, List.countP_append, List.countP_append, List.countP_cons, List.countP_cons,
    hHere, hWaits, if_pos rfl, if_neg Bool.false_ne_true]
  omega

/-- Fewer rows wait when one of them is removed. -/
theorem countP_filter_lt {α : Type u} {rows : List α} {waits stays : α → Bool} {row : α}
    (hRow : row ∈ rows) (hWaits : waits row = true) (hGone : stays row = false) :
    (rows.filter stays).countP waits < rows.countP waits := by
  rw [List.countP_eq_countP_filter_add rows waits stays]
  have hSome : 0 < (rows.filter fun row => !stays row).countP waits := by
    rw [List.countP_pos_iff]
    exact ⟨row, List.mem_filter.mpr ⟨hRow, by rw [hGone]; rfl⟩, hWaits⟩
  omega

end PageCamel.Lib
