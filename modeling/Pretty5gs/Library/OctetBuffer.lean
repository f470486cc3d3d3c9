import Pretty5gs.Library.Reader

/-
  Writes to a buffer of octets.

  Main results: `OctetBuffer.stored_iff`, `OctetBuffer.stored_append_write`.
-/

---- Writes ----

namespace OctetBuffer

variable {γ : Type}

open Reader (Stored stored_append)

/- The buffer with some items written from a place on. -/
def write (data : Nat → γ) (place : Nat) (items : List γ) : Nat → γ := fun i => if place ≤ i then
      (items[i - place]?).getD (data i) else data i

theorem stored_iff :
    Stored memory pos items ↔ ∀ (i : Nat) (a : γ), items[i]? = some a → memory (pos + i) = a := by
  induction items generalizing pos with
  | nil => simp
  | cons item rest ih =>
    rw [Reader.stored_cons, ih]
    constructor
    · rintro ⟨hFirst, hRest⟩ i a hAt
      cases i with
      | zero =>
        cases hAt
        exact hFirst
      | succ i =>
        have hPlace := hRest i a hAt
        rwa [Nat.add_assoc, Nat.add_comm 1] at hPlace
    · intro hAll
      refine ⟨hAll 0 item rfl, ?_⟩
      intro i a hAt
      have hPlace := hAll (i + 1) a hAt
      rwa [Nat.add_assoc, Nat.add_comm 1]

theorem stored_write (data : Nat → γ) (place : Nat) (items : List γ) :
    Stored (write data place items) place items := by
  refine stored_iff.mpr ?_
  intro i a hAt
  unfold write
  rw [if_pos (Nat.le_add_right place i), Nat.add_sub_cancel_left, hAt]
  rfl

variable {data : Nat → γ}

/- What is in front of a write stays. -/
theorem stored_write_of_le (hStored : Stored data start front)
    (hFront : start + front.length ≤ place) :
    Stored (write data place items) start front := by
  refine stored_iff.mpr ?_
  intro i a hAt
  have hLess := (List.getElem?_eq_some_iff.mp hAt).1
  unfold write
  rw [if_neg (by omega)]
  exact stored_iff.mp hStored i a hAt

theorem write_of_ge (hBack : place + items.length ≤ k) : write data place items k = data k := by
  unfold write
  rw [if_pos (by omega), List.getElem?_eq_none (by omega)]
  rfl

/- What is behind a write stays. -/
theorem stored_write_of_ge (hStored : Stored data start back)
    (hBack : place + items.length ≤ start) : Stored (write data place items) start back := by
  refine stored_iff.mpr ?_
  intro i a hAt
  rw [write_of_ge (by omega)]
  exact stored_iff.mp hStored i a hAt

/- Items are written behind those that are there. -/
theorem stored_append_write (hStored : Stored data 0 front) :
    Stored (write data front.length items) 0 (front ++ items) := by
  refine stored_append.mpr ⟨stored_write_of_le hStored (by omega), ?_⟩
  rw [Nat.zero_add]
  exact stored_write data front.length items

end OctetBuffer
