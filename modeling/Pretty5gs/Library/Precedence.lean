/-
  Lists that respect a relation of precedence.

  A list respects the relation when every member comes after all of its predecessors.

  Main results: `respects_append`, `Respects.insert`, `Respects.mem_of_split`.
-/

---- Precedence ----

namespace Pretty5gs

open List

variable {α : Type} {R R' : α → α → Prop}

/- Predecessors are found in `seen` or earlier in the list. -/
def Respects (R : α → α → Prop) (seen : List α) : List α → Prop
  | [] => True
  | x :: rest => (∀ y, R y x → y ∈ seen) ∧ Respects R (seen ++ [x]) rest

theorem respects_append :
    Respects R seen (xs ++ ys) ↔ Respects R seen xs ∧ Respects R (seen ++ xs) ys := by
  induction xs generalizing seen with
  | nil => simp [Respects]
  | cons x rest ih => simp only [cons_append, Respects, ih, and_assoc, append_assoc, nil_append]

theorem Respects.mono (hSeen : seen ⊆ seen') (hRespects : Respects R seen xs) :
    Respects R seen' xs := by
  induction xs generalizing seen seen' with
  | nil => trivial
  | cons x rest ih =>
    rcases hRespects with ⟨hFirst, hRest⟩
    refine ⟨fun y hY => hSeen (hFirst y hY), ?_⟩
    refine ih ?_ hRest
    intro y hMem
    rcases mem_append.mp hMem with hOld | hNew
    · exact mem_append_left _ (hSeen hOld)
    · exact mem_append_right _ hNew

/- A member goes in behind its predecessors. -/
theorem Respects.insert (hRespects : Respects R [] (xs ++ ys)) (hBehind : ∀ y, R y x → y ∈ xs) :
    Respects R [] (xs ++ x :: ys) := by
  rcases respects_append.mp hRespects with ⟨hFirst, hRest⟩
  refine respects_append.mpr ⟨hFirst, hBehind, ?_⟩
  exact hRest.mono (subset_append_left _ _)

/- Only the predecessors of members matter. -/
theorem Respects.congr (hRespects : Respects R seen xs) (hSame : ∀ x ∈ xs, ∀ y, R' y x → R y x) :
    Respects R' seen xs := by
  induction xs generalizing seen with
  | nil => trivial
  | cons x rest ih =>
    rcases hRespects with ⟨hFirst, hRest⟩
    constructor
    · intro y hY
      exact hFirst y (hSame x mem_cons_self y hY)
    · apply ih hRest
      intro z hMem
      exact hSame z (mem_cons_of_mem x hMem)

theorem Respects.mem_of_split (hRespects : Respects R [] (xs ++ x :: ys)) (hBefore : R y x) :
    y ∈ xs := by
  have hRest := (respects_append.mp hRespects).2
  simpa using hRest.1 y hBefore

end Pretty5gs
