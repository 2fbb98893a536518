/-!
Runs of a machine whose steps are determined by events, and the rule that proves
an invariant of all states reached by steps that meet a condition.
-/

namespace PageCamel.Lib

universe u v
variable {σ : Type u} {ε : Type v}

/-- The state after a list of events. -/
def runEvents (step : σ → ε → σ) (s : σ) (events : List ε) : σ := events.foldl step s

/-- The states reached from `s₀` when every step meets the condition. -/
inductive Reached (step : σ → ε → σ) (ok : σ → ε → Prop) (s₀ : σ) : σ → Prop
  | start : Reached step ok s₀ s₀
  | next {s : σ} (e : ε) : Reached step ok s₀ s → ok s e → Reached step ok s₀ (step s e)

/-- What holds in the beginning and is preserved by steps that meet the condition
holds in every state reached. -/
theorem Reached.invariant {step : σ → ε → σ} {ok : σ → ε → Prop} {s₀ s : σ} {inv : σ → Prop}
    (hStart : inv s₀) (hStep : ∀ s e, inv s → ok s e → inv (step s e))
    (h : Reached step ok s₀ s) : inv s := by
  induction h with
  | start => exact hStart
  | next e _ hOk ih => exact hStep _ e ih hOk

/-- Every event meets the condition in the state it comes in. -/
def Meets (step : σ → ε → σ) (ok : σ → ε → Prop) : σ → List ε → Prop
  | _, [] => True
  | s, e :: events => ok s e ∧ Meets step ok (step s e) events

instance Meets.decidable {step : σ → ε → σ} {ok : σ → ε → Prop} [∀ s e, Decidable (ok s e)] :
    ∀ s events, Decidable (Meets step ok s events)
  | _, [] => .isTrue trivial
  | s, e :: events => @instDecidableAnd (ok s e) _ _ (Meets.decidable (step s e) events)

theorem Reached.run {step : σ → ε → σ} {ok : σ → ε → Prop} {s₀ : σ} (events : List ε) :
    ∀ s, Reached step ok s₀ s → Meets step ok s events →
      Reached step ok s₀ (runEvents step s events) := by
  induction events with
  | nil => exact fun _ h _ => h
  | cons e events ih => exact fun s h hMeets => ih _ (h.next e hMeets.1) hMeets.2

theorem Meets.append {step : σ → ε → σ} {ok : σ → ε → Prop} {events events' : List ε} :
    ∀ {s : σ}, Meets step ok s events → Meets step ok (runEvents step s events) events' →
      Meets step ok s (events ++ events') := by
  induction events with
  | nil => exact fun _ h => h
  | cons e events ih => exact fun h h' => ⟨h.1, ih h.2 h'⟩

theorem Meets.of_append {step : σ → ε → σ} {ok : σ → ε → Prop} {events events' : List ε} :
    ∀ {s : σ}, Meets step ok s (events ++ events') →
      Meets step ok s events ∧ Meets step ok (runEvents step s events) events' := by
  induction events with
  | nil => exact fun h => ⟨trivial, h⟩
  | cons e events ih => exact fun h => ⟨⟨h.1, (ih h.2).1⟩, (ih h.2).2⟩

theorem Meets.of_forall {step : σ → ε → σ} {ok : σ → ε → Prop} (h : ∀ s e, ok s e)
    (events : List ε) : ∀ s, Meets step ok s events := by
  induction events with
  | nil => exact fun _ => trivial
  | cons e events ih => exact fun s => ⟨h s e, ih _⟩

theorem Meets.mono {step : σ → ε → σ} {ok ok' : σ → ε → Prop} (hMono : ∀ s e, ok s e → ok' s e)
    {events : List ε} : ∀ {s : σ}, Meets step ok s events → Meets step ok' s events := by
  induction events with
  | nil => exact fun h => h
  | cons e events ih => exact fun h => ⟨hMono _ e h.1, ih h.2⟩

/-- Two conditions that say the same in all states an invariant describes are met by the
same runs. -/
theorem Meets.congr_of_invariant {step : σ → ε → σ} {valid ok ok' : σ → ε → Prop} {inv : σ → Prop}
    (hInv : ∀ s e, inv s → valid s e → inv (step s e))
    (hIff : ∀ s e, inv s → valid s e → (ok s e ↔ ok' s e)) {events : List ε} :
    ∀ {s : σ}, inv s → Meets step valid s events →
      (Meets step ok s events ↔ Meets step ok' s events) := by
  induction events with
  | nil => exact fun _ _ => Iff.rfl
  | cons e events ih =>
      exact fun hS hValid => and_congr (hIff _ e hS hValid.1) (ih (hInv _ e hS hValid.1) hValid.2)

/-- The rule of `Reached.invariant`, for a list of events. -/
theorem Meets.invariant {step : σ → ε → σ} {ok : σ → ε → Prop} {s : σ} {inv : σ → Prop}
    (hStart : inv s) (hStep : ∀ s e, inv s → ok s e → inv (step s e)) {events : List ε}
    (h : Meets step ok s events) : inv (runEvents step s events) :=
  (Reached.run events s .start h).invariant hStart hStep

/-- When a step keeps what holds exactly if it meets the condition, then all states of a run
have it exactly if all steps meet the condition. -/
theorem Meets.iff_always_of_valid {step : σ → ε → σ} {valid ok : σ → ε → Prop} (inv : σ → Prop)
    {holds : σ → Prop} (hInv : ∀ s e, inv s → valid s e → ok s e → inv (step s e))
    (hStep : ∀ s e, inv s → valid s e → holds s → (holds (step s e) ↔ ok s e)) (events : List ε) :
    ∀ {s : σ}, inv s → holds s → Meets step valid s events →
      ((∀ seen, seen <+: events → holds (runEvents step s seen)) ↔ Meets step ok s events) := by
  induction events with
  | nil =>
      intro s _ hHolds _
      refine ⟨fun _ => trivial, fun _ seen hSeen => ?_⟩
      rw [List.prefix_nil.mp hSeen]
      exact hHolds
  | cons e events ih =>
      intro s hInvS hHolds hValid
      constructor
      · intro hAll
        have hNext : holds (step s e) := hAll [e] ⟨events, rfl⟩
        have hOk := (hStep s e hInvS hValid.1 hHolds).mp hNext
        refine ⟨hOk, (ih (hInv s e hInvS hValid.1 hOk) hNext hValid.2).mp fun seen hSeen => ?_⟩
        exact hAll (e :: seen) (List.cons_prefix_cons.mpr ⟨rfl, hSeen⟩)
      · intro hMeets seen hSeen
        have hNext := (hStep s e hInvS hValid.1 hHolds).mpr hMeets.1
        cases seen with
        | nil => exact hHolds
        | cons e' seen =>
            obtain ⟨rfl, hRest⟩ := List.cons_prefix_cons.mp hSeen
            exact (ih (hInv s e' hInvS hValid.1 hMeets.1) hNext hValid.2).mpr hMeets.2 seen hRest

theorem Meets.iff_always {step : σ → ε → σ} {ok : σ → ε → Prop} (inv : σ → Prop)
    {holds : σ → Prop} (hInv : ∀ s e, inv s → inv (step s e))
    (hStep : ∀ s e, inv s → holds s → (holds (step s e) ↔ ok s e)) (events : List ε)
    {s : σ} (hInvS : inv s) (hHolds : holds s) :
    (∀ seen, seen <+: events → holds (runEvents step s seen)) ↔ Meets step ok s events :=
  Meets.iff_always_of_valid inv (fun s e h _ _ => hInv s e h) (fun s e h _ => hStep s e h) events
    hInvS hHolds (Meets.of_forall (fun _ _ => trivial) events s)

theorem runEvents_append (step : σ → ε → σ) (s : σ) (events events' : List ε) :
    runEvents step s (events ++ events') = runEvents step (runEvents step s events) events' :=
  List.foldl_append

theorem runEvents_singleton (step : σ → ε → σ) (s : σ) (e : ε) : runEvents step s [e] = step s e :=
  rfl

end PageCamel.Lib
