import Mathlib.Order.Bounds.Basic
import Mathlib.Tactic.Common

/-
  Codewords for values on a scale of arithmetic progressions.

  A segment gives consecutive codewords to the values of one progression; a scale is an ascending
  list of segments. Rounding down takes the last segment that starts at or below the input and the
  largest of its values.

  Main results: `Segment.floor_isGreatest`, `Scale.Started.isGreatest`, `Scale.decode_holds`.
-/

---- Segments ----

namespace Pretty5gs.Library

open List Bool

/- The codewords `code + i` for the values `first + i * step`, with `i ≤ count`. -/
structure Segment where
  code : Nat
  first : Nat
  step : Nat
  count : Nat
  step_pos : 0 < step := by decide

namespace Segment

variable (segment : Segment)

/- The value is one of the segment's. -/
def Holds (value : Nat) : Prop := ∃ i, i ≤ segment.count ∧ value = segment.first + i * segment.step

def last : Nat := segment.first + segment.count * segment.step

/- How many steps fit below `input`. -/
def index (input : Nat) : Nat := min ((input - segment.first) / segment.step) segment.count

def encode (input : Nat) : Nat := segment.code + segment.index input

/- The largest value of the segment that is at most `input`. -/
def floor (input : Nat) : Nat := segment.first + segment.index input * segment.step

theorem index_le (input : Nat) : segment.index input ≤ segment.count := Nat.min_le_right _ _

variable {segment : Segment}

theorem first_le_of_holds (hHolds : segment.Holds value) : segment.first ≤ value := by
  rcases hHolds with ⟨i, _, rfl⟩
  exact Nat.le_add_right _ _

theorem le_last_of_holds (hHolds : segment.Holds value) : value ≤ segment.last := by
  rcases hHolds with ⟨i, hCount, rfl⟩
  exact Nat.add_le_add_left (Nat.mul_le_mul_right _ hCount) _

theorem floor_holds (segment : Segment) (input : Nat) : segment.Holds (segment.floor input) :=
  ⟨_, segment.index_le input, rfl⟩

theorem floor_le (hFirst : segment.first ≤ input) : segment.floor input ≤ input := by
  have hSteps : segment.index input * segment.step ≤ input - segment.first :=
    (Nat.mul_le_mul_right _ (Nat.min_le_left _ _)).trans (Nat.div_mul_le_self _ _)
  unfold floor
  omega

theorem le_floor (hHolds : segment.Holds value) (hLe : value ≤ input) :
    value ≤ segment.floor input := by
  rcases hHolds with ⟨i, hCount, rfl⟩
  have hQuotient : i ≤ (input - segment.first) / segment.step := by
    rw [Nat.le_div_iff_mul_le segment.step_pos]
    omega
  exact Nat.add_le_add_left (Nat.mul_le_mul_right _ (Nat.le_min.mpr ⟨hQuotient, hCount⟩)) _

theorem floor_isGreatest (hFirst : segment.first ≤ input) :
    IsGreatest {value | segment.Holds value ∧ value ≤ input} (segment.floor input) :=
  ⟨⟨segment.floor_holds input, floor_le hFirst⟩, fun _ hValue => le_floor hValue.1 hValue.2⟩

end Segment

---- Rounding Down ----

abbrev Scale := List Segment

namespace Scale

/- The value is one of some segment's. -/
def Holds (scale : Scale) (value : Nat) : Prop := ∃ segment ∈ scale, segment.Holds value

/- The values of a segment lie below the later ones. -/
def Ascending (scale : Scale) : Prop := scale.Pairwise fun low high => low.last < high.first

/- So do its codewords. -/
def Coded (scale : Scale) : Prop := scale.Pairwise fun low high => low.code + low.count < high.code

instance (scale : Scale) : Decidable scale.Ascending :=
  inferInstanceAs (Decidable (List.Pairwise _ _))

instance (scale : Scale) : Decidable scale.Coded := inferInstanceAs (Decidable (List.Pairwise _ _))

/- The segment is the last one that starts at or below `input`. -/
def Started (scale : Scale) (segment : Segment) (input : Nat) : Prop :=
  segment ∈ scale ∧ segment.first ≤ input ∧ ∀ other ∈ scale,
      segment.last < other.first → input < other.first

theorem holds_append_iff : Holds (low ++ high) value ↔ Holds low value ∨ Holds high value := by
  simp [Holds, or_and_right, exists_or]

variable {segment : Segment}

/- Segments that start later change nothing. -/
theorem Started.append (hStarted : low.Started segment input)
    (hHigh : ∀ other ∈ high, input < other.first) : Started (low ++ high) segment input := by
  refine ⟨mem_append_left _ hStarted.1, hStarted.2.1, ?_⟩
  intro other hOther hLater
  rcases mem_append.mp hOther with hLow | hAbove
  · exact hStarted.2.2 other hLow hLater
  · exact hHigh other hAbove

variable {scale : Scale}

/- Of two segments, one comes before the other. -/
theorem trichotomy (hPairwise : scale.Pairwise before) (hSegment : segment ∈ scale)
    (hOther : other ∈ scale) : other = segment ∨ before other segment ∨ before segment other := by
  induction scale with
  | nil => cases hSegment
  | cons head rest ih =>
    rcases mem_cons.mp hSegment with rfl | hSegmentRest
    · rcases mem_cons.mp hOther with rfl | hOtherRest
      · exact .inl rfl
      · exact .inr (.inr (rel_of_pairwise_cons hPairwise hOtherRest))
    · rcases mem_cons.mp hOther with rfl | hOtherRest
      · exact .inr (.inl (rel_of_pairwise_cons hPairwise hSegmentRest))
      · exact ih (List.Pairwise.of_cons hPairwise) hSegmentRest hOtherRest

theorem Started.isGreatest (hAscending : scale.Ascending) (hStarted : scale.Started segment input) :
    IsGreatest {value | scale.Holds value ∧ value ≤ input} (segment.floor input) := by
  rcases hStarted with ⟨hMem, hFirst, hNext⟩
  have hGreatest := Segment.floor_isGreatest hFirst
  refine ⟨⟨⟨segment, hMem, hGreatest.1.1⟩, hGreatest.1.2⟩, ?_⟩
  rintro value ⟨⟨other, hOther, hHolds⟩, hLe⟩
  rcases trichotomy hAscending hMem hOther with rfl | hBefore | hAfter
  · exact hGreatest.2 ⟨hHolds, hLe⟩
  · have hLast := Segment.le_last_of_holds hHolds
    have hFloor := Segment.first_le_of_holds (segment.floor_holds input)
    omega
  · have hStart := hNext other hOther hAfter
    have hFirstLe := Segment.first_le_of_holds hHolds
    omega

---- Codewords ----

/- The codeword is one of the segment's. -/
def codedIn (codeword : Nat) (segment : Segment) : Bool := segment.code ≤ codeword &&
    codeword ≤ segment.code + segment.count

def decode (scale : Scale) (codeword : Nat) : Option Nat :=
  (scale.find? (codedIn codeword)).map fun segment =>
    segment.first + (codeword - segment.code) * segment.step

theorem decode_holds (hDecode : scale.decode codeword = some value) : scale.Holds value := by
  rcases Option.map_eq_some_iff.mp hDecode with ⟨segment, hFind, rfl⟩
  have hCoded := List.find?_some hFind
  simp only [codedIn, and_eq_true, decide_eq_true_eq] at hCoded
  exact ⟨segment, List.mem_of_find?_eq_some hFind, codeword - segment.code, by omega, rfl⟩

theorem decode_index (hCodes : scale.Coded) (hMem : segment ∈ scale) (hIndex : i ≤ segment.count) :
    scale.decode (segment.code + i) = some (segment.first + i * segment.step) := by
  have hCoded : codedIn (segment.code + i) segment = true := by simp [codedIn, hIndex]
  cases hFind : scale.find? (codedIn (segment.code + i)) with
  | none =>
    have hNot := List.find?_eq_none.mp hFind segment hMem
    exact absurd hCoded hNot
  | some other =>
    have hOther := List.find?_some hFind
    simp only [codedIn, and_eq_true, decide_eq_true_eq] at hOther
    -- codewords of different segments do not meet
    have hSame : other = segment := by
      rcases trichotomy hCodes hMem (List.mem_of_find?_eq_some hFind) with hEq | hBefore | hAfter
      · exact hEq
      · omega
      · omega
    subst hSame
    simp [decode, hFind]

end Scale

end Pretty5gs.Library
