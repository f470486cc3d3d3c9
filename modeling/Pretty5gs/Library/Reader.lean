import Mathlib.Algebra.Group.Action.Defs
import Mathlib.Algebra.Order.BigOperators.Group.List
import Mathlib.Algebra.Order.Ring.Nat
import Mathlib.Data.Vector.Basic
import Pretty5gs.Library.Traced

/-
  Readers of a memory that move a position forward.

  A reader gives its value and the position behind what it read, or rejects; the places it read are
  recorded. A reader that checks a limit before it reads is compared with the same reader under a
  smaller limit.

  Main results: `Reader.within_bind`, `Reader.value_octets`, `Reader.Reads.bind`,
  `Reader.Takes.bind`, `Reader.Tracks.bind`, `Reader.Tracks.within_iff`.
-/

---- Readers ----

structure Reader (ε α : Type) where
  run : Nat → Traced Nat (Except ε (α × Nat))

namespace Reader

variable {ε α β γ : Type}

/- What follows a reader that returned or rejected. -/
def andThen (f : α → Reader ε β) : Except ε (α × Nat) → Traced Nat (Except ε (β × Nat))
  | .error reason => pure (.error reason)
  | .ok (a, pos) => (f a).run pos

instance : Monad (Reader ε) where
  pure a := ⟨fun pos => pure (.ok (a, pos))⟩
  bind x f := ⟨fun pos => x.run pos >>= andThen f⟩

def reject (reason : ε) : Reader ε α := ⟨fun _ => pure (.error reason)⟩

/- The position, without a read. -/
def position : Reader ε Nat := ⟨fun pos => pure (.ok (pos, pos))⟩

/- Read one place and move behind it. -/
def octet (memory : Nat → γ) : Reader ε γ := ⟨fun pos => do
    let value ← Traced.read memory pos return .ok (value, pos + 1)⟩

/- Read a number of places in order. -/
def octets (memory : Nat → γ) : (count : Nat) → Reader ε (List.Vector γ count)
  | 0 => pure .nil
  | count + 1 => do
      let value ← octet memory
      let rest ← octets memory count
      return value ::ᵥ rest

/- Read a number of places if they end at the limit or before. -/
def take (memory : Nat → γ) (short : Nat → ε)
    (limit count : Nat) : Reader ε (List.Vector γ count) := do
  let pos ← position
  if limit < pos + count then reject (short (pos + count))
  else octets memory count

@[simp] theorem value_pure : ((pure a : Reader ε α).run pos).value = .ok (a, pos) := rfl

@[simp] theorem value_reject : ((reject reason : Reader ε α).run pos).value = .error reason := rfl

@[simp] theorem value_position : ((position : Reader ε Nat).run pos).value = .ok (pos, pos) := rfl

@[simp] theorem value_octet :
    ((octet memory : Reader ε γ).run pos).value = .ok (memory pos, pos + 1) := rfl

theorem value_bind : ((x >>= f).run pos).value = (andThen f (x.run pos).value).value := rfl

/- A reader that looks at the position first. -/
theorem run_position_bind {f : Nat → Reader ε α} : (position >>= f).run pos = (f pos).run pos := rfl

variable {x : Reader ε α}

theorem value_bind_of_ok (hValue : (x.run pos).value = .ok (a, next)) (f : α → Reader ε β) :
    ((x >>= f).run pos).value = ((f a).run next).value := by
  rw [value_bind, hValue]
  rfl

variable {pos : Nat}

theorem value_bind_of_error (hValue : (x.run pos).value = .error reason) (f : α → Reader ε β) :
    ((x >>= f).run pos).value = .error reason := by
  rw [value_bind, hValue]
  rfl

theorem value_bind_eq_ok {f : α → Reader ε β} (hValue : ((x >>= f).run pos).value = .ok result) :
    ∃ a next, (x.run pos).value = .ok (a, next) ∧ ((f a).run next).value = .ok result := by
  cases hFirst : (x.run pos).value with
  | error reason =>
    rw [value_bind_of_error hFirst] at hValue
    cases hValue
  | ok first =>
    rw [value_bind_of_ok hFirst] at hValue
    exact ⟨first.1, first.2, rfl, hValue⟩

---- Places Read ----

variable {P : Nat → Prop}

@[simp] theorem within_pure : ((pure a : Reader ε α).run pos).Within P := Traced.within_pure

@[simp] theorem within_reject :
    ((reject reason : Reader ε α).run pos).Within P := Traced.within_pure

@[simp] theorem within_position : ((position : Reader ε Nat).run pos).Within P := Traced.within_pure

@[simp] theorem within_octet : ((octet memory : Reader ε γ).run pos).Within P ↔ P pos := by
  simp [octet, Traced.Within]

theorem within_bind {P : Nat → Prop} {f : α → Reader ε β} :
    ((x >>= f).run pos).Within P ↔ (x.run pos).Within P ∧
        ∀ a next, (x.run pos).value = .ok (a, next) → ((f a).run next).Within P := by
  have hBind : ((x >>= f).run pos).Within P ↔ (x.run pos).Within P ∧
    (andThen f (x.run pos).value).Within P := Traced.within_bind
  rw [hBind]
  cases hValue : (x.run pos).value with
  | error reason => simp [andThen]
  | ok first =>
    constructor
    · rintro ⟨hFirst, hRest⟩
      refine ⟨hFirst, ?_⟩
      intro a next hSame
      cases hSame
      exact hRest
    · rintro ⟨hFirst, hRest⟩
      exact ⟨hFirst, hRest first.1 first.2 rfl⟩

theorem within_octets :
    ((octets memory count : Reader ε (List.Vector γ count)).run pos).Within P ↔
      ∀ i < count, P (pos + i) := by
  induction count generalizing pos with
  | zero => simp [octets]
  | succ count ih =>
    rw [octets, within_bind, within_octet]
    constructor
    · rintro ⟨hFirst, hRest⟩ i hBound
      have hTail := (within_bind.mp (hRest _ _ rfl)).1
      rw [ih] at hTail
      cases i with
      | zero => exact hFirst
      | succ i =>
        have hPlace := hTail i (by omega)
        rwa [Nat.add_assoc, Nat.add_comm 1] at hPlace
    · intro hAll
      refine ⟨hAll 0 (by omega), ?_⟩
      intro a next hValue
      cases hValue
      refine within_bind.mpr ⟨(ih).mpr ?_, ?_⟩
      · intro i hBound
        have hPlace := hAll (i + 1) (by omega)
        rwa [Nat.add_assoc, Nat.add_comm 1]
      · intro _ _ _
        exact within_pure

---- Stored Octets ----

/- The memory holds these items from a position on. -/
def Stored (memory : Nat → γ) : Nat → List γ → Prop
  | _, [] => True
  | pos, item :: rest => memory pos = item ∧ Stored memory (pos + 1) rest

@[simp] theorem stored_nil (memory : Nat → γ) (pos : Nat) : Stored memory pos [] := trivial

variable {memory : Nat → γ}

@[simp] theorem stored_cons :
    Stored memory pos (item :: rest) ↔ memory pos = item ∧ Stored memory (pos + 1) rest := Iff.rfl

theorem stored_append :
    Stored memory pos (front ++ back) ↔ Stored memory pos front ∧
        Stored memory (pos + front.length) back := by
  induction front generalizing pos with
  | nil => simp
  | cons item rest ih =>
    rw [List.cons_append, stored_cons, stored_cons, ih, and_assoc, List.length_cons, Nat.add_assoc,
      Nat.add_comm 1]

/- A list as a memory holds itself. -/
theorem stored_getD (items : List γ) (default : γ) :
    Stored (fun i => items.getD i default) 0 items := by
  have hSuffix : ∀ front back : List γ, items = front ++ back →
    Stored (fun i => items.getD i default) front.length back := by
    intro front back
    induction back generalizing front with
    | nil => simp
    | cons item rest ih =>
      intro hSplit
      refine ⟨by simp [hSplit], ?_⟩
      have hNext := ih (front ++ [item]) (by simp [hSplit])
      simpa using hNext
  exact hSuffix [] items rfl

/- A memory holds some items everywhere. -/
theorem exists_stored (memory : Nat → γ) (pos count : Nat) :
    ∃ items, Stored memory pos items ∧ items.length = count := by
  induction count generalizing pos with
  | zero => exact ⟨[], trivial, rfl⟩
  | succ count ih =>
    rcases ih (pos + 1) with ⟨items, hStored, hLength⟩
    exact ⟨memory pos :: items, ⟨rfl, hStored⟩, by simp [hLength]⟩

/- Read a number of places into a list. -/
def readList (memory : Nat → γ) : (pos count : Nat) → Traced Nat (List γ)
  | _, 0 => pure []
  | pos, count + 1 => do
      let item ← Traced.read memory pos
      let rest ← readList memory (pos + 1) count
      return item :: rest

theorem value_readList (hStored : Stored memory pos items) :
    (readList memory pos items.length).value = items := by
  induction items generalizing pos with
  | nil => rfl
  | cons item rest ih =>
    show memory pos :: (readList memory (pos + 1) rest.length).value = _
    rw [hStored.1, ih hStored.2]

theorem within_readList : (readList memory pos count).Within P ↔ ∀ i < count, P (pos + i) := by
  induction count generalizing pos with
  | zero => simp [readList]
  | succ count ih =>
    have hStep : (readList memory pos (count + 1)).Within P ↔
      P pos ∧ (readList memory (pos + 1) count).Within P := by
      rw [readList, Traced.within_bind]
      simp [Traced.Within]
    rw [hStep, ih]
    constructor
    · rintro ⟨hFirst, hRest⟩ i hLess
      cases i with
      | zero => exact hFirst
      | succ i =>
        have hPlace := hRest i (Nat.lt_of_succ_lt_succ hLess)
        rwa [Nat.add_assoc, Nat.add_comm 1] at hPlace
    · intro hAll
      refine ⟨hAll 0 (Nat.succ_pos _), ?_⟩
      intro i hLess
      rw [Nat.add_assoc, Nat.add_comm 1]
      exact hAll (i + 1) (Nat.succ_lt_succ hLess)

/- Items that are encoded one behind the other. -/
theorem length_flatMap_le {items : List α} {encode : α → List γ}
    (hBound : ∀ item ∈ items, (encode item).length ≤ bound) :
    (items.flatMap encode).length ≤ items.length * bound := by
  rw [List.length_flatMap]
  have hSum := List.sum_le_card_nsmul (items.map (fun item => (encode item).length)) bound
    (by simpa using hBound)
  rwa [List.length_map] at hSum

theorem value_octets {items : List.Vector γ count} (hStored : Stored memory pos items.toList) :
    ((octets memory count : Reader ε (List.Vector γ count)).run pos).value =
      .ok (items, pos + count) := by
  induction count generalizing pos with
  | zero => rw [List.Vector.eq_nil items]; rfl
  | succ count ih =>
    rw [← List.Vector.cons_head_tail items, List.Vector.toList_cons] at hStored
    rw [octets, value_bind_of_ok value_octet,
      value_bind_of_ok (ih hStored.2), value_pure, hStored.1,
      List.Vector.cons_head_tail, Nat.add_assoc, Nat.add_comm 1]

/- The position behind a number of places. -/
theorem value_octets_eq (memory : Nat → γ) (count pos : Nat) :
    ∃ items, ((octets memory count : Reader ε (List.Vector γ count)).run pos).value =
        .ok (items, pos + count) := by
  induction count generalizing pos with
  | zero => exact ⟨.nil, rfl⟩
  | succ count ih =>
    rcases ih (pos + 1) with ⟨items, hItems⟩
    refine ⟨memory pos ::ᵥ items, ?_⟩
    rw [octets, value_bind_of_ok value_octet, value_bind_of_ok hItems, value_pure,
      Nat.add_assoc, Nat.add_comm 1]

variable {short : Nat → ε}

theorem take_of_room (hRoom : pos + count ≤ limit) :
    (take memory short limit count).run pos = (octets memory count).run pos := by
  rw [take, run_position_bind, if_neg (Nat.not_lt.mpr hRoom)]

theorem take_of_short (hShort : limit < pos + count) :
    (take memory short limit count).run pos = (reject (short (pos + count))).run pos := by
  rw [take, run_position_bind, if_pos hShort]

theorem value_take {items : List.Vector γ count} (hStored : Stored memory pos items.toList)
    (hRoom : pos + count ≤ limit) :
    ((take memory short limit count).run pos).value = .ok (items, pos + count) := by
  rw [take_of_room hRoom, value_octets hStored]

theorem value_take_eq_ok {items : List.Vector γ count}
    (hValue : ((take memory short limit count).run pos).value = .ok (items, next)) :
    next = pos + count ∧ pos + count ≤ limit := by
  by_cases hRoom : pos + count ≤ limit
  · rcases value_octets_eq (ε := ε) memory count pos with ⟨others, hOthers⟩
    rw [take_of_room hRoom, hOthers] at hValue
    cases hValue
    exact ⟨rfl, hRoom⟩
  · rw [take_of_short (Nat.lt_of_not_le hRoom)] at hValue
    cases hValue

theorem within_take : ((take memory short limit count).run pos).Within (· < limit) := by
  by_cases hRoom : pos + count ≤ limit
  · rw [take_of_room hRoom]
    refine (within_octets).mpr ?_
    intro i hBound
    omega
  · rw [take_of_short (Nat.lt_of_not_le hRoom)]
    exact within_reject

---- Readers Of Stored Items ----

/-
  Where the memory holds the items the reader returns under the condition, and only then: the value,
  and the position behind the items.
-/
def Reads (memory : Nat → γ) (x : Reader ε α) (pos : Nat) (items : List γ) (C : Prop)
    (a : α) : Prop := Stored memory pos items → ∀ result,
    (x.run pos).value = .ok result ↔ C ∧ result = (a, pos + items.length)

namespace Reads

theorem pure (a : α) : Reads memory (Pure.pure a : Reader ε α) pos [] True a := by
  intro _ result
  rw [value_pure, true_and, Except.ok.injEq, eq_comm]
  rfl

theorem reject : Reads memory (Reader.reject reason : Reader ε α) pos items False a := by
  intro _ result
  rw [false_and]
  exact ⟨nofun, False.elim⟩

theorem take (items : List.Vector γ count) (hRoom : pos + count ≤ limit) :
    Reads memory (Reader.take memory short limit count) pos items.toList True items := by
  intro hStored result
  rw [value_take hStored hRoom, true_and, Except.ok.injEq, eq_comm, items.toList_length]

theorem octet (hRoom : pos + 1 ≤ limit) :
    Reads memory (Reader.take memory short limit 1) pos [item] True (item ::ᵥ .nil) :=
  take (item ::ᵥ .nil) hRoom

theorem bind {f : α → Reader ε β} (hFirst : Reads memory x pos front C a)
    (hRest : C → Reads memory (f a) (pos + front.length) back D b) :
    Reads memory (x >>= f) pos (front ++ back) (C ∧ D) b := by
  intro hStored result
  rw [stored_append] at hStored
  rw [List.length_append, ← Nat.add_assoc, and_assoc]
  constructor
  · intro hValue
    rcases value_bind_eq_ok hValue with ⟨_, next, hValue, hNext⟩
    rcases (hFirst hStored.1 _).mp hValue with ⟨hHolds, hSame⟩
    cases hSame
    exact ⟨hHolds, (hRest hHolds hStored.2 _).mp hNext⟩
  · rintro ⟨hHolds, hResult⟩
    rw [value_bind_of_ok ((hFirst hStored.1 _).mpr ⟨hHolds, rfl⟩)]
    exact (hRest hHolds hStored.2 _).mpr hResult

theorem congr (hReads : Reads memory x pos items C a) (hIff : C ↔ D) :
    Reads memory x pos items D a := by
  rwa [← hIff]

theorem of_run (hReads : Reads memory y pos items C a) (hRun : x.run pos = y.run pos) :
    Reads memory x pos items C a := by
  rwa [Reads, hRun]

/- Behind a reader that always returns. -/
theorem andThen {f : α → Reader ε β} (hFirst : Reads memory x pos front True a)
    (hRest : Reads memory (f a) (pos + front.length) back D b) :
    Reads memory (x >>= f) pos (front ++ back) D b :=
  (hFirst.bind fun _ => hRest).congr (iff_of_eq (true_and D))

theorem map {g : α → β} (hReads : Reads memory x pos items C a) :
    Reads memory (x >>= fun a => Pure.pure (g a)) pos items C (g a) := by
  have hBoth := (hReads.bind (f := fun a => Pure.pure (g a)) fun _ => .pure (g a)).congr
    (iff_of_eq (and_true C))
  rwa [List.append_nil] at hBoth

theorem position {f : Nat → Reader ε α} (hRest : Reads memory (f pos) pos items C a) :
    Reads memory (Reader.position >>= f) pos items C a := by
  have hHere : Reads memory (Reader.position : Reader ε Nat) pos [] True pos :=
    fun _ _ => by simp [eq_comm]
  exact hHere.andThen hRest

end Reads

---- Readers Of A Fixed Size ----

/- A reader that always succeeds and reads so many places. -/
def Takes (x : Reader ε α) (count : Nat) : Prop := ∀ pos,
    (∃ a, (x.run pos).value = .ok (a, pos + count)) ∧ ∀ limit, pos + count ≤ limit →
      (x.run pos).Within (· < limit)

namespace Takes

theorem pure : Takes (Pure.pure a : Reader ε α) 0 := fun _ => ⟨⟨a, rfl⟩, fun _ _ => within_pure⟩

theorem octets : Takes (Reader.octets memory count : Reader ε (List.Vector γ count)) count := by
  intro pos
  refine ⟨value_octets_eq memory count pos, ?_⟩
  intro limit hLimit
  refine (within_octets).mpr fun i hLess => ?_
  omega

theorem octet : Takes (Reader.octet memory : Reader ε γ) 1 :=
  fun pos => ⟨⟨memory pos, rfl⟩, fun _ hLimit => within_octet.mpr hLimit⟩

theorem bind {f : α → Reader ε β} (hFirst : Takes x first) (hSecond : ∀ a, Takes (f a) second) :
    Takes (x >>= f) (first + second) := by
  intro pos
  rcases hFirst pos with ⟨⟨a, hValue⟩, hWithin⟩
  rcases hSecond a (pos + first) with ⟨⟨b, hNext⟩, hRest⟩
  constructor
  · exact ⟨b, by
    rw [value_bind_of_ok hValue, hNext, Nat.add_assoc]⟩
  · intro limit hLimit
    refine within_bind.mpr ⟨hWithin limit (by omega), ?_⟩
    intro other next hOther
    rw [hValue] at hOther
    cases hOther
    exact hRest limit (by omega)

theorem ite {condition : Prop} [Decidable condition] {x y : Reader ε α} {first second : Nat}
    (hThen : Takes x first) (hElse : Takes y second) : Takes (if condition then x else y)
      (if condition then first else second) := by
  split
  · exact hThen
  · exact hElse

end Takes

---- A Reader Under Two Limits ----

/-
  Started at or below `bound`, the reader `x` and the reader `y` do the same below `bound`, or `x`
  reads a place from `bound` on where `y` rejects for lack of room, and the room it asks for lies
  between `bound` and `limit`.
-/
def Tracks (bound limit : Nat) (short : Nat → ε) (x y : Reader ε α) : Prop := ∀ pos ≤ bound,
    ((x.run pos).Within (· < bound) ∧ (x.run pos).value = (y.run pos).value ∧
      (∀ a next, (x.run pos).value = .ok (a, next) → next ≤ bound) ∧
      ∀ stop, (y.run pos).value = .error (short stop) → limit < stop) ∨
    (¬ (x.run pos).Within (· < bound) ∧ ∃ stop, (y.run pos).value = .error (short stop) ∧
        bound < stop ∧ stop ≤ limit)

variable {bound limit : Nat} {short : Nat → ε}

namespace Tracks

theorem pure : Tracks bound limit short (Pure.pure a : Reader ε α) (Pure.pure a) := by
  intro pos hPos
  refine .inl ⟨within_pure, rfl, ?_, ?_⟩
  · intro _ _ hValue
    cases hValue
    exact hPos
  · intro stop hValue
    cases hValue

theorem position : Tracks bound limit short (Reader.position : Reader ε Nat) Reader.position := by
  intro pos hPos
  refine .inl ⟨within_position, rfl, ?_, ?_⟩
  · intro _ _ hValue
    cases hValue
    exact hPos
  · intro stop hValue
    cases hValue

theorem reject (hReason : ∀ stop, reason = short stop → limit < stop) :
    Tracks bound limit short (Reader.reject reason : Reader ε α) (Reader.reject reason) := by
  intro pos hPos
  refine .inl ⟨within_reject, rfl, ?_, ?_⟩
  · intro _ _ hValue
    cases hValue
  · intro stop hValue
    exact hReason stop (Except.error.inj hValue)

variable {x y : Reader ε α}

theorem bind {f g : α → Reader ε β} (hFirst : Tracks bound limit short x y)
    (hRest : ∀ a, Tracks bound limit short (f a) (g a)) :
    Tracks bound limit short (x >>= f) (y >>= g) := by
  intro pos hPos
  rcases hFirst pos hPos with ⟨hWithin, hSame, hNext, hLimit⟩ | ⟨hBeyond, stop, hStop, hRoom⟩
  · cases hValue : (x.run pos).value with
    | error reason =>
      have hOther := hSame.symm.trans hValue
      have hLeft := value_bind_of_error hValue f
      have hRight := value_bind_of_error hOther g
      refine .inl ⟨within_bind.mpr ⟨hWithin, ?_⟩, hLeft.trans hRight.symm, ?_, ?_⟩
      · intro _ _ hOk
        rw [hValue] at hOk
        cases hOk
      · intro _ _ hOk
        rw [hLeft] at hOk
        cases hOk
      · intro stop hStop
        rw [hRight] at hStop
        cases hStop
        exact hLimit stop hOther
    | ok first =>
      have hOther := hSame.symm.trans hValue
      have hLeft := value_bind_of_ok hValue f
      have hRight := value_bind_of_ok hOther g
      have hSecond := hRest first.1 first.2 (hNext first.1 first.2 hValue)
      have hIff : ((x >>= f).run pos).Within (· < bound) ↔
        ((f first.1).run first.2).Within (· < bound) := by
        rw [within_bind]
        constructor
        · exact fun hBoth => hBoth.2 _ _ hValue
        · intro hSecondWithin
          refine ⟨hWithin, ?_⟩
          intro a next hOk
          rw [hValue] at hOk
          cases hOk
          exact hSecondWithin
      rw [hLeft, hRight, hIff]
      exact hSecond
  · refine .inr ⟨?_, stop, value_bind_of_error hStop g, hRoom⟩
    exact fun hBoth => hBeyond (within_bind.mp hBoth).1

theorem ite {condition : Prop} [Decidable condition] {x y x' y' : Reader ε α}
    (hThen : condition → Tracks bound limit short x y)
    (hElse : ¬ condition → Tracks bound limit short x' y') : Tracks bound limit short
      (if condition then x else x') (if condition then y else y') := by
  split
  · next hCondition => exact hThen hCondition
  · next hCondition => exact hElse hCondition

/-
  Reading behind a check of its own limit. A count of zero would ask for no place and so could not
  leave the bound.
-/
theorem take (hCount : 0 < count) (hLimit : bound ≤ limit) (hShort : Function.Injective short) :
    Tracks bound limit short (Reader.take memory short limit count)
      (Reader.take memory short bound count) := by
  intro pos hPos
  by_cases hRoom : pos + count ≤ bound
  · -- both read, below the bound
    rw [take_of_room hRoom, take_of_room (hRoom.trans hLimit)]
    rcases value_octets_eq (ε := ε) memory count pos with ⟨items, hItems⟩
    refine .inl ⟨(within_octets).mpr ?_, rfl, ?_, ?_⟩
    · intro i hBound
      omega
    · intro a next hValue
      rw [hItems] at hValue
      cases hValue
      exact hRoom
    · intro stop hStop
      rw [hItems] at hStop
      cases hStop
  have hBeyond : bound < pos + count := Nat.lt_of_not_le hRoom
  rw [take_of_short hBeyond]
  by_cases hRest : pos + count ≤ limit
  · -- the first reads behind the bound
    rw [take_of_room hRest]
    refine .inr ⟨?_, pos + count, rfl, hBeyond, hRest⟩
    intro hWithin
    have hLast := (within_octets).mp hWithin (count - 1) (by omega)
    omega
  · rw [take_of_short (Nat.lt_of_not_le hRest)]
    refine .inl ⟨within_reject, rfl, ?_, ?_⟩
    · intro _ _ hValue
      cases hValue
    · intro stop hStop
      have hSame := hShort (Except.error.inj hStop)
      omega

/- Where the second reader rejects for room, and only there. -/
theorem within_iff (hTracks : Tracks bound limit short x y) (hPos : pos ≤ bound) :
    (x.run pos).Within (· < bound) ↔ ∀ stop, (y.run pos).value = .error (short stop) →
        limit < stop := by
  rcases hTracks pos hPos with ⟨hWithin, _, _, hLimit⟩ | ⟨hBeyond, stop, hStop, _, hLe⟩
  · exact ⟨fun _ => hLimit, fun _ => hWithin⟩
  · constructor
    · exact fun hWithin => absurd hWithin hBeyond
    · intro hLimit
      have hAbove := hLimit stop hStop
      omega

/- The position behind a value found below the bound. -/
theorem next_le (hTracks : Tracks bound limit short x y) (hPos : pos ≤ bound)
    (hWithin : (x.run pos).Within (· < bound)) (hValue : (x.run pos).value = .ok (a, next)) :
    next ≤ bound := by
  rcases hTracks pos hPos with ⟨_, _, hNext, _⟩ | ⟨hBeyond, _⟩
  · exact hNext a next hValue
  · exact absurd hWithin hBeyond

/- Under its own limit a reader stays below it. -/
theorem within (hTracks : Tracks bound bound short x x) (hPos : pos ≤ bound) :
    (x.run pos).Within (· < bound) := by
  rcases hTracks pos hPos with ⟨hWithin, _⟩ | ⟨_, stop, _, hAbove, hLe⟩
  · exact hWithin
  · omega

end Tracks

end Reader
