import Pretty5gs.Library.Reader

/-
  Fields that are read if a flag is set.

  A reader is confined to a limit if it stays below it from every position. A reader that checks
  nothing spans a number of places and stays below a limit if they end there.

  Main results: `Reader.Confined.bind` and `Reader.Confined.take`, `Reader.Spans.bind` and
  `Reader.Spans.within_iff`.
-/

---- Skipped And Optional Fields ----

namespace Reader

variable {ε α β γ : Type}

/- Move the position on, without a read. -/
def skip (count : Nat) : Reader ε Unit := ⟨fun pos => pure (.ok ((), pos + count))⟩

/- A computation that does not move the position. -/
def lift (x : Traced Nat α) : Reader ε α := ⟨fun pos => do
    let a ← x return .ok (a, pos)⟩

def optional (flag : Bool) (x : Reader ε α) (default : α) : Reader ε α :=
  if flag then x else pure default

@[simp] theorem value_skip : ((skip count : Reader ε Unit).run pos).value =
      .ok ((), pos + count) := rfl

@[simp] theorem value_lift : ((lift x : Reader ε α).run pos).value = .ok (x.value, pos) := rfl

@[simp] theorem within_lift : ((lift x : Reader ε α).run pos).Within P ↔ x.Within P :=
  Traced.within_bind.trans (and_iff_left Traced.within_pure)

---- Confined Readers ----

/- The reader stays below the limit from every position. -/
def Confined (limit : Nat) (x : Reader ε α) : Prop := ∀ pos, (x.run pos).Within (· < limit)

namespace Confined

variable {limit : Nat}

theorem pure : Confined limit (Pure.pure a : Reader ε α) := fun _ => within_pure

theorem reject : Confined limit (Reader.reject reason : Reader ε α) := fun _ => within_reject

theorem position : Confined limit (Reader.position : Reader ε Nat) := fun _ => within_position

theorem skip : Confined limit (Reader.skip count : Reader ε Unit) := fun _ => Traced.within_pure

theorem take : Confined limit (Reader.take memory short limit count) := fun _ => within_take

variable {x : Reader ε α}

theorem bind {f : α → Reader ε β} (hFirst : Confined limit x) (hRest : ∀ a, Confined limit (f a)) :
    Confined limit (x >>= f) := by
  intro pos
  refine Reader.within_bind.mpr ⟨hFirst pos, ?_⟩
  intro a next _
  exact hRest a next

/- Behind a confined reader only what follows can leave. -/
theorem within_bind {f : α → Reader ε β} (hFirst : Confined limit x) :
    ((x >>= f).run pos).Within (· < limit) ↔ ∀ a next, (x.run pos).value = .ok (a, next) →
        ((f a).run next).Within (· < limit) := by
  rw [Reader.within_bind, and_iff_right (hFirst pos)]

theorem ite {condition : Prop} [Decidable condition] {x y : Reader ε α} (hThen : Confined limit x)
    (hElse : Confined limit y) : Confined limit (if condition then x else y) := by
  split
  · exact hThen
  · exact hElse

theorem optional (hField : Confined limit x) {default : α} :
    Confined limit (Reader.optional flag x default) := ite hField pure

end Confined

---- Readers That Check Nothing ----

/- The reader succeeds, and needs so many places. -/
def Spans (x : Reader ε α) (count : Nat) : Prop := ∀ pos,
    (∃ a, (x.run pos).value = .ok (a, pos + count)) ∧ ∀ limit, pos ≤ limit →
      ((x.run pos).Within (· < limit) ↔ pos + count ≤ limit)

namespace Spans

theorem pure : Spans (Pure.pure a : Reader ε α) 0 := fun _ => ⟨⟨a, rfl⟩, fun _ hLimit =>
    iff_of_true within_pure hLimit⟩

theorem octets : Spans (Reader.octets memory count : Reader ε (List.Vector γ count)) count := by
  intro pos
  refine ⟨value_octets_eq memory count pos, ?_⟩
  intro limit hLimit
  rw [within_octets]
  constructor
  · intro hAll
    by_contra hBeyond
    have hLast := hAll (count - 1) (by omega)
    omega
  · intro hRoom i hLess
    omega

variable {x : Reader ε α}

theorem bind {f : α → Reader ε β} (hFirst : Spans x first) (hSecond : ∀ a, Spans (f a) second) :
    Spans (x >>= f) (first + second) := by
  intro pos
  rcases hFirst pos with ⟨⟨a, hValue⟩, hWithin⟩
  rcases hSecond a (pos + first) with ⟨⟨b, hNext⟩, hRest⟩
  constructor
  · exact ⟨b, by
    rw [value_bind_of_ok hValue, hNext, Nat.add_assoc]⟩
  · intro limit hLimit
    rw [within_bind, hWithin limit hLimit]
    constructor
    · rintro ⟨hRoom, hAll⟩
      have hBoth := (hRest limit hRoom).mp (hAll a _ hValue)
      omega
    · intro hRoom
      refine ⟨by omega, ?_⟩
      intro other next hOther
      rw [hValue] at hOther
      cases hOther
      exact (hRest limit (by omega)).mpr (by omega)

theorem optional (hField : Spans x count)
    {default : α} : Spans (Reader.optional flag x default) (if flag then count else 0) := by
  cases flag with
  | false => exact pure
  | true => exact hField

theorem within_iff (hSpans : Spans x count) (hPos : pos ≤ limit) :
    (x.run pos).Within (· < limit) ↔ pos + count ≤ limit := (hSpans pos).2 limit hPos

end Spans

end Reader
