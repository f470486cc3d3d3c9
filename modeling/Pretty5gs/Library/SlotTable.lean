import Mathlib.Data.List.Basic
import Mathlib.Tactic.Common

/-
  Tables of slots that are free or hold an element.

  An element goes into the first free slot, and a search returns the first slot that holds a fitting
  element.

  Main results: `SlotTable.count_put`, `SlotTable.count_set_none`,
  `SlotTable.count_clearAll_of_disjoint`.
-/

---- Operations ----

namespace SlotTable

open List Option

variable {α β : Type}

/- Fill the first free slot, if there is one. -/
def put (x : α) : List (Option α) → List (Option α)
| [] => []
| none :: rest => some x :: rest
| some y :: rest => some y :: put x rest

/- The first slot that holds such an element. -/
def find? (p : α → Bool) : List (Option α) → Option (Nat × α)
| [] => none
| none :: rest => (find? p rest).map (fun found => (found.1 + 1, found.2))
| some x :: rest =>
    if p x then some (0, x)
    else (find? p rest).map (fun found => (found.1 + 1, found.2))

/- Free every slot that holds such an element. -/
def clearAll (p : α → Bool) (slots : List (Option α)) : List (Option α) :=
  slots.map (Option.filter (fun x => !p x))

/- The number of slots that hold such an element. -/
def count (p : α → Bool) (slots : List (Option α)) : Nat := slots.countP (fun slot => slot.any p)

---- Members ----

variable {slots : List (Option α)}

theorem mem_put (hMem : some y ∈ put x slots) : y = x ∨ some y ∈ slots := by
  induction slots with
  | nil => cases hMem
  | cons slot rest ih =>
    cases slot with
    | none =>
      rcases mem_cons.mp hMem with hHead | hTail
      · exact Or.inl (Option.some.inj hHead)
      · exact Or.inr (mem_cons_of_mem _ hTail)
    | some z =>
      rcases mem_cons.mp hMem with hHead | hTail
      · rw [hHead]
        exact Or.inr mem_cons_self
      · rcases ih hTail with hNew | hOld
        · exact Or.inl hNew
        · exact Or.inr (mem_cons_of_mem _ hOld)

theorem mem_of_mem_set_none (hMem : some y ∈ slots.set k none) : some y ∈ slots := by
  rcases mem_or_eq_of_mem_set hMem with hOld | hNone
  · exact hOld
  · cases hNone

variable {p : α → Bool}

theorem mem_clearAll : some y ∈ clearAll p slots ↔ some y ∈ slots ∧ p y = false := by
  simp only [clearAll, List.mem_map, filter_eq_some_iff, Bool.not_eq_eq_eq_not, Bool.not_true]
  constructor
  · rintro ⟨slot, hMem, rfl, hKept⟩
    exact ⟨hMem, hKept⟩
  · rintro ⟨hMem, hKept⟩
    exact ⟨some y, hMem, rfl, hKept⟩

/- What a search finds is there and fits. -/
theorem find?_eq_some (hFind : find? p slots = some (k, x)) :
    slots[k]? = some (some x) ∧ p x = true := by
  induction slots generalizing k with
  | nil => cases hFind
  | cons slot rest ih =>
    cases slot with
    | none =>
      rcases map_eq_some_iff.mp hFind with ⟨found, hRest, hFound⟩
      cases hFound
      exact ih hRest
    | some y =>
      unfold find? at hFind
      split at hFind
      case isTrue hFits =>
        cases hFind
        exact ⟨rfl, hFits⟩
      case isFalse hOther =>
        rcases map_eq_some_iff.mp hFind with ⟨found, hRest, hFound⟩
        cases hFound
        exact ih hRest

---- Counts ----

theorem count_pos_iff : 0 < count p slots ↔ ∃ x, some x ∈ slots ∧ p x = true := by
  simp only [count, countP_pos_iff]
  constructor
  · rintro ⟨slot, hMem, hFits⟩
    cases slot with
    | none => cases hFits
    | some x => exact ⟨x, hMem, hFits⟩
  · rintro ⟨x, hMem, hFits⟩
    exact ⟨some x, hMem, hFits⟩

theorem count_put (hFree : none ∈ slots) :
    count p (put x slots) = count p slots + if p x then 1 else 0 := by
  induction slots with
  | nil => cases hFree
  | cons slot rest ih =>
    cases slot with
    | none => simp [count, put, countP_cons]
    | some y =>
      have hRest : none ∈ rest := by simpa using hFree
      have hCount := ih hRest
      simp only [count, put, countP_cons] at hCount ⊢
      omega

theorem count_set_none (p : α → Bool)
    (hSlot : slots[k]? = some (some x)) : count p (slots.set k none) + (if p x then 1 else 0) =
      count p slots := by
  induction slots generalizing k with
  | nil => cases hSlot
  | cons slot rest ih =>
    cases k with
    | zero =>
      cases hSlot
      simp [count, countP_cons]
    | succ k =>
      have hCount := ih hSlot
      simp only [count, set_cons_succ, countP_cons] at hCount ⊢
      omega

theorem count_clearAll_self : count p (clearAll p slots) = 0 := by
  apply Nat.eq_zero_of_not_pos
  rw [count_pos_iff]
  rintro ⟨x, hMem, hFits⟩
  rw [(mem_clearAll.mp hMem).2] at hFits
  cases hFits

/- Other elements are still there. -/
theorem count_clearAll_of_disjoint (hDisjoint : ∀ x, q x = true → p x = false) :
    count q (clearAll p slots) = count q slots := by
  induction slots with
  | nil => rfl
  | cons slot rest ih =>
    have hSlot : (slot.filter (fun x => !p x)).any q = slot.any q := by
      cases slot with
      | none => rfl
      | some x =>
        cases hFits : q x with
        | false => cases hKept : p x <;> simp [hFits, hKept]
        | true => simp [hFits, hDisjoint x hFits]
    simp only [count, clearAll, map_cons, countP_cons, hSlot] at ih ⊢
    rw [ih]

---- Views Of The Elements ----

theorem map_put (f : α → β) (x : α) (slots : List (Option α)) :
    (put x slots).map (Option.map f) = put (f x) (slots.map (Option.map f)) := by
  induction slots with
  | nil => rfl
  | cons slot rest ih =>
    cases slot with
    | none => rfl
    | some y => simp [put, ih]

theorem map_clearAll (f : α → β) (p : β → Bool) (slots : List (Option α)) :
    (clearAll (fun x => p (f x)) slots).map (Option.map f) =
      clearAll p (slots.map (Option.map f)) := by
  induction slots with
  | nil => rfl
  | cons slot rest ih =>
    simp only [clearAll, map_cons, List.cons.injEq] at ih ⊢
    refine ⟨?_, ih⟩
    cases slot with
    | none => rfl
    | some x => cases hFits : p (f x) <;> simp [Option.filter, hFits]

end SlotTable
