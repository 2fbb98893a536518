import Mathlib.Data.List.Infix
import Mathlib.Data.List.Flatten

/-!
Frames written one after the other into a stream, and the part of the stream that has
arrived: which frames are complete in it, and what is left over.
-/

namespace PageCamel.Lib

universe u v
variable {φ : Type u} {α : Type v}

/-- The frames that are complete in the octets that have arrived. -/
def complete [DecidableEq α] (write : φ → List α) : List φ → List α → List φ
  | [], _ => []
  | f :: fs, arrived =>
      if (write f).isPrefixOf arrived then
        f :: complete write fs (arrived.drop (write f).length)
      else []

variable [DecidableEq α] {write : φ → List α}

theorem complete_cons_whole (f : φ) (fs : List φ) (rest : List α) :
    complete write (f :: fs) (write f ++ rest) = f :: complete write fs rest := by
  rw [complete, if_pos (by simp), List.drop_left]

theorem complete_cons_part {f : φ} {arrived : List α} (hPart : arrived <+: write f)
    (hNe : arrived ≠ write f) (fs : List φ) : complete write (f :: fs) arrived = [] := by
  rw [complete, if_neg]
  intro hWhole
  rw [List.isPrefixOf_iff_prefix] at hWhole
  exact hNe (hPart.eq_of_length (le_antisymm hPart.length_le hWhole.length_le))

/-- Frames that were complete stay so when more arrives. -/
theorem complete_append (done fs : List φ) (arrived : List α) :
    complete write (done ++ fs) (done.flatMap write ++ arrived) =
      done ++ complete write fs arrived := by
  induction done with
  | nil => rfl
  | cons f done ih =>
      rw [List.cons_append, List.flatMap_cons, List.append_assoc, complete_cons_whole, ih]
      rfl

theorem complete_nil (h : ∀ f, write f ≠ []) (fs : List φ) : complete write fs [] = [] := by
  cases fs with
  | nil => rfl
  | cons f fs => exact complete_cons_part List.nil_prefix (fun hEmpty => h f hEmpty.symm) fs

/-- In the whole stream all frames are complete. -/
theorem complete_all (h : ∀ f, write f ≠ []) (fs : List φ) :
    complete write fs (fs.flatMap write) = fs := by
  have hAll : complete write (fs ++ []) (fs.flatMap write ++ []) = fs ++ complete write [] [] :=
    complete_append fs [] []
  rw [List.append_nil, List.append_nil] at hAll
  rw [hAll, complete_nil h, List.append_nil]

/-- What has arrived begins with a whole frame, or is a proper part of the next one. -/
theorem prefix_cases {fs : List φ} {arrived : List α}
    (hArrived : arrived <+: fs.flatMap write) :
    (∃ f rest fs', fs = f :: fs' ∧ arrived = write f ++ rest ∧ rest <+: fs'.flatMap write) ∨
      complete write fs arrived = [] ∧
        (arrived = [] ∨ ∃ f ∈ fs, arrived <+: write f ∧ arrived ≠ write f) := by
  cases fs with
  | nil =>
      rw [List.flatMap_nil, List.prefix_nil] at hArrived
      exact .inr ⟨rfl, .inl hArrived⟩
  | cons f fs =>
      rw [List.flatMap_cons] at hArrived
      rcases List.prefix_or_prefix_of_prefix hArrived (List.prefix_append (write f) _) with hPart | hWhole
      · by_cases hEq : arrived = write f
        · exact .inl ⟨f, [], fs, rfl, by rw [List.append_nil, hEq], List.nil_prefix⟩
        · exact .inr ⟨complete_cons_part hPart hEq fs, .inr ⟨f, List.mem_cons_self .., hPart, hEq⟩⟩
      · obtain ⟨rest, rfl⟩ := hWhole
        exact .inl ⟨f, rest, fs, rfl, rfl, (List.prefix_append_right_inj (write f)).mp hArrived⟩

end PageCamel.Lib
