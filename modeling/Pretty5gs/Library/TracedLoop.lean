import Mathlib.Logic.Relation
import Pretty5gs.Library.Traced

/-
  Postconditions and loops of computations that record what they read.

  The body of a loop gives the next state or the result. A loop that is given a number of rounds
  returns nothing if they are used up.

  Main results: `Traced.Meets.bind` and `Traced.Meets.ite`, `Traced.value_loop_next` and
  `Traced.value_loop_done`, `Traced.Meets.loop`, `Traced.walk_end_unique`.
-/

---- Postconditions ----

namespace Traced

variable {ι σ α β : Type}

/- Reads are where they may be, and the value is as it should. -/
def Meets (P : ι → Prop) (x : Traced ι α) (Q : α → Prop) : Prop := x.Within P ∧ Q x.value

namespace Meets

variable {P : ι → Prop} {Q : α → Prop} {R : β → Prop}

theorem pure (hValue : Q a) : Meets P (Pure.pure a) Q := ⟨within_pure, hValue⟩

variable {x : Traced ι α}

theorem mono (hMeets : Meets P x Q) (hImp : ∀ a, Q a → Q' a) : Meets P x Q' :=
  ⟨hMeets.1, hImp x.value hMeets.2⟩

theorem bind (hFirst : Meets P x Q) (hRest : ∀ a, Q a → Meets P (f a) R) : Meets P (x >>= f) R := by
  have hNext := hRest x.value hFirst.2
  exact ⟨within_bind.mpr ⟨hFirst.1, hNext.1⟩, hNext.2⟩

/- What is read first is known from the memory. -/
theorem bind_value (hFirst : x.Within P) (hRest : Meets P (f x.value) R) :
    Meets P (x >>= f) R := ⟨within_bind.mpr ⟨hFirst, hRest.1⟩, hRest.2⟩

theorem ite {condition : Prop} [Decidable condition] {x y : Traced ι α}
    (hThen : condition → Meets P x Q) (hElse : ¬ condition → Meets P y Q) :
    Meets P (if condition then x else y) Q := by
  by_cases hCondition : condition
  · rw [if_pos hCondition]
    exact hThen hCondition
  · rw [if_neg hCondition]
    exact hElse hCondition

end Meets

---- Loops ----

/- What the body of a loop ends with. -/
inductive Flow (σ α : Type) where
  | next (s : σ)
  | done (a : α)
deriving DecidableEq, Repr

/- A condition on the next state, or on the result. -/
def Flow.Ends (Next : σ → Prop) (Done : α → Prop) : Flow σ α → Prop
  | .next s => Next s
  | .done a => Done a

def loop (body : σ → Traced ι (Flow σ α)) : Nat → σ → Traced ι (Option α)
  | 0, _ => pure none
  | rounds + 1, s => do
      match ← body s with
      | .next s' => loop body rounds s'
      | .done a => pure (some a)

variable {body : σ → Traced ι (Flow σ α)}

theorem value_loop_next (hNext : (body s).value = .next s') :
    (loop body (rounds + 1) s).value = (loop body rounds s').value := by
  rw [loop, value_bind, hNext]

theorem value_loop_done (hDone : (body s).value = .done a) :
    (loop body (rounds + 1) s).value = some a := by
  rw [loop, value_bind, hDone]
  rfl

variable {P : ι → Prop}

theorem within_loop_next (hNext : (body s).value = .next s') :
    (loop body (rounds + 1) s).Within P ↔ (body s).Within P ∧ (loop body rounds s').Within P := by
  rw [loop, within_bind, hNext]

theorem within_loop_done (hDone : (body s).value = .done a) :
    (loop body (rounds + 1) s).Within P ↔ (body s).Within P := by
  rw [loop, within_bind, hDone]
  exact and_iff_left within_pure

/- A loop whose body keeps an invariant and makes a measure smaller ends in that many rounds. -/
theorem Meets.loop {Inv : σ → Prop} {measure : σ → Nat}
    (hBody : ∀ s, Inv s → Meets P (body s) (Flow.Ends
          (fun s' => Inv s' ∧ measure s' < measure s) Post)) (hInv : Inv s)
    (hRounds : measure s < rounds) :
    Meets P (Traced.loop body rounds s) (fun result => ∃ a, result = some a ∧ Post a) := by
  induction rounds generalizing s with
  | zero => exact absurd hRounds (Nat.not_lt_zero _)
  | succ rounds ih =>
    refine (hBody s hInv).bind ?_
    intro flow hEnds
    cases flow with
    | next s' => exact ih hEnds.1 (Nat.lt_of_lt_of_le hEnds.2 (Nat.le_of_lt_succ hRounds))
    | done a => exact .pure ⟨a, rfl, hEnds⟩

/- A walk by steps that are determined has one end. -/
theorem walk_end_unique {Step : σ → σ → Prop} (hUnique : Relator.RightUnique Step)
    (hFirst : Relation.ReflTransGen Step s a) (hSecond : Relation.ReflTransGen Step s b)
    (hEnd : ∀ next, ¬ Step a next) (hOther : ∀ next, ¬ Step b next) : a = b := by
  rcases hFirst.total_of_right_unique hUnique hSecond with hOn | hBack
  · rcases hOn.cases_head with hSame | ⟨next, hStep, _⟩
    · exact hSame
    · exact absurd hStep (hEnd next)
  · rcases hBack.cases_head with hSame | ⟨next, hStep, _⟩
    · exact hSame.symm
    · exact absurd hStep (hOther next)

end Traced
