import Mathlib.Init

/-
  Computations that read an indexed memory and record where.

  A traced value carries the indices that were read on the way to it, in order.

  Main results: `Traced.within_bind`.
-/

---- Traced Values ----

structure Traced (ι α : Type) where
  reads : List ι
  value : α

namespace Traced

variable {ι α β : Type}

instance : Monad (Traced ι) where
  pure a := { reads := [], value := a }
  bind x f :=
    { reads := x.reads ++ (f x.value).reads
      value := (f x.value).value }

/- Read one place of a memory. -/
def read (memory : ι → α) (i : ι) : Traced ι α where
  reads := [i]
  value := memory i

@[simp] theorem reads_pure {a : α} : (pure a : Traced ι α).reads = [] := rfl

@[simp] theorem value_pure {a : α} : (pure a : Traced ι α).value = a := rfl

@[simp] theorem reads_bind {x : Traced ι α} {f : α → Traced ι β} :
    (x >>= f).reads = x.reads ++ (f x.value).reads := rfl

@[simp] theorem value_bind {x : Traced ι α} {f : α → Traced ι β} :
    (x >>= f).value = (f x.value).value := rfl

@[simp] theorem reads_read {memory : ι → α} {i : ι} : (read memory i).reads = [i] := rfl

@[simp] theorem value_read {memory : ι → α} {i : ι} : (read memory i).value = memory i := rfl

---- Confined Reads ----

/- Every index that was read satisfies a predicate. -/
def Within (P : ι → Prop) (x : Traced ι α) : Prop := ∀ i ∈ x.reads, P i

instance {P : ι → Prop} [DecidablePred P] (x : Traced ι α) : Decidable (x.Within P) :=
  inferInstanceAs (Decidable (∀ i ∈ x.reads, P i))

@[simp] theorem within_pure : (pure a : Traced ι α).Within P := by
  intro i hRead
  cases hRead

@[simp] theorem within_read {memory : ι → α} : (read memory i).Within P ↔ P i := by simp [Within]

theorem Within.mono {x : Traced ι α} (hWithin : x.Within P)
    (hImp : ∀ i, P i → Q i) : x.Within Q := fun i hRead => hImp i (hWithin i hRead)

@[simp] theorem within_bind {f : α → Traced ι β} :
    (x >>= f).Within P ↔ x.Within P ∧ (f x.value).Within P := by
  simp only [Within, reads_bind, List.mem_append]
  constructor
  · intro hAll
    constructor
    · intro i hRead
      exact hAll i (Or.inl hRead)
    · intro i hRead
      exact hAll i (Or.inr hRead)
  · rintro ⟨hFirst, hSecond⟩ i (hRead | hRead)
    · exact hFirst i hRead
    · exact hSecond i hRead

end Traced
