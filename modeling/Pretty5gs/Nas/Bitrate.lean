import Pretty5gs.Core.Types
import Mathlib.Tactic.IntervalCases

/-
  The coding of a bit rate in 5GS session management: a unit and a 16-bit value.

  The encoder divides by four until the value fits. The decoder multiplies by the factors of the
  unit in `int`, which has no defined result above `INT_MAX`.

  Main results: `fitValue_spec`, `ogsNasBitrateToUint64_eq`, `nas_bitrate_round_trip_iff`.
-/

---- Units ----

namespace Pretty5gs.Nas

/- `ogs_nas_bitrate_t` -/
structure NasBitrate where
  unit : Nat
  value : U16
deriving DecidableEq, Repr

/- `OGS_NAS_BR_UNIT_1K` to `OGS_NAS_BR_UNIT_256P` -/
def brUnit1K : Nat := 1

def brUnit256P : Nat := 25

/- What the decoder multiplies a value of the unit with. -/
def unitFactors : Nat → List Nat
  | 1 => [1000]
  | 2 => [4, 1000]
  | 3 => [16, 1000]
  | 4 => [64, 1000]
  | 5 => [256, 1000]
  | 6 => [1000, 1000]
  | 7 => [4, 1000, 1000]
  | 8 => [16, 1000, 1000]
  | 9 => [64, 1000, 1000]
  | 10 => [256, 1000, 1000]
  | 11 => [1000, 1000, 1000]
  | 12 => [4, 1000, 1000, 1000]
  | 13 => [16, 1000, 1000, 1000]
  | 14 => [64, 1000, 1000, 1000]
  | 15 => [256, 1000, 1000, 1000]
  | 16 => [1000, 1000, 1000, 1000]
  | 17 => [4, 1000, 1000, 1000, 1000]
  | 18 => [16, 1000, 1000, 1000, 1000]
  | 19 => [64, 1000, 1000, 1000, 1000]
  | 20 => [256, 1000, 1000, 1000, 1000]
  | 21 => [1000, 1000, 1000, 1000, 1000]
  | 22 => [4, 1000, 1000, 1000, 1000, 1000]
  | 23 => [16, 1000, 1000, 1000, 1000, 1000]
  | 24 => [64, 1000, 1000, 1000, 1000, 1000]
  | 25 => [256, 1000, 1000, 1000, 1000, 1000]
  | _ => []

/- One step of the unit, in bit/s. -/
def unitStep (unit : Nat) : Nat := (unitFactors unit).prod

theorem unitFactors_pos : ∀ unit ≤ brUnit256P, ∀ factor ∈ unitFactors unit, 0 < factor := by decide

theorem unitStep_large : ∀ unit ≤ brUnit256P, 5 ≤ unit → 256000 ≤ unitStep unit := by decide

---- Encoding ----

/-
  The loop of the encoder with `left` units above the current one: a shift by two bits a unit until
  the rate fits.
-/
def fitValue : Nat → Nat → Nat → Nat × Nat
  | 0, unit, bitrate => (unit, bitrate)
  | left + 1, unit, bitrate =>
      if bitrate ≤ 0xFFFF then (unit, bitrate)
      else fitValue left (unit + 1) (bitrate / 4)

/- `ogs_nas_bitrate_from_uint64`, for a rate that is not zero. -/
def ogsNasBitrateFromUint64 (bitrate : BitVec 64) : Except Fault NasBitrate :=
  if bitrate = 0 then .error .assertion
  else
    let fitted := fitValue (brUnit256P - brUnit1K) brUnit1K (bitrate.toNat / 1000)
    .ok {
      unit := fitted.1
      value := BitVec.ofNat 16 fitted.2
    }

/-
  The fitted value is the rate divided by four for each unit that was passed, and the last one
  passed was too small.
-/
theorem fitValue_spec (left unit bitrate : Nat) :
    ∃ passed, passed ≤ left ∧ fitValue left unit bitrate = (unit + passed, bitrate / 4 ^ passed) ∧
      (passed < left → bitrate / 4 ^ passed ≤ 0xFFFF) ∧
      (0 < passed → 0xFFFF < bitrate / 4 ^ (passed - 1)) := by
  induction left generalizing unit bitrate with
  | zero => exact ⟨0, Nat.le_refl _, by simp [fitValue], by simp⟩
  | succ left ih =>
    by_cases hFits : bitrate ≤ 0xFFFF
    · exact ⟨0, Nat.zero_le _, by simp [fitValue, hFits], fun _ => by simpa using hFits, by simp⟩
    · rcases ih (unit + 1) (bitrate / 4) with ⟨passed, hLeft, hFitted, hUpper, hLower⟩
      have hQuotient : bitrate / 4 / 4 ^ passed = bitrate / 4 ^ (passed + 1) := by
        rw [Nat.div_div_eq_div_mul, pow_succ, Nat.mul_comm]
      refine ⟨passed + 1, by omega, ?_, ?_, ?_⟩
      · rw [fitValue, if_neg hFits, hFitted, hQuotient, Nat.add_assoc, Nat.add_comm 1]
      · intro hLt
        rw [← hQuotient]
        exact hUpper (by omega)
      · intro _
        rcases Nat.eq_zero_or_pos passed with rfl | hPos
        · simpa using hFits
        · have hPassed : passed - 1 + 1 = passed := by omega
          rw [Nat.add_sub_cancel, ← hPassed, pow_succ, Nat.mul_comm, ← Nat.div_div_eq_div_mul]
          exact hLower hPos

---- Decoding ----

def intMax : Nat := 2 ^ 31 - 1

/-
  A product from left to right in `int`: a factor that takes it above `INT_MAX` leaves no defined
  result.
-/
def intProduct : Nat → List Nat → Option Nat
  | value, [] => some value
  | value, factor :: rest =>
      if value * factor ≤ intMax then intProduct (value * factor) rest
      else none

/- `ogs_nas_bitrate_unit_is_valid` -/
def ogsNasBitrateUnitIsValid (nas : NasBitrate) : Bool :=
  brUnit1K ≤ nas.unit && nas.unit ≤ brUnit256P

/- `ogs_nas_bitrate_to_uint64` -/
def ogsNasBitrateToUint64 (nas : NasBitrate) : Option Nat :=
  if ogsNasBitrateUnitIsValid nas then intProduct nas.value.toNat (unitFactors nas.unit)
  else some 0

theorem intProduct_eq (hValue : value ≤ intMax)
    (hPos : ∀ factor ∈ factors, 0 < factor) : intProduct value factors =
      if value * factors.prod ≤ intMax then some (value * factors.prod)
      else none := by
  induction factors generalizing value with
  | nil => simp [intProduct, hValue]
  | cons factor rest ih =>
    have hRest : ∀ other ∈ rest, 0 < other := fun other hOther =>
      hPos other (List.mem_cons_of_mem _ hOther)
    rw [intProduct, List.prod_cons, ← Nat.mul_assoc]
    by_cases hFactor : value * factor ≤ intMax
    · rw [if_pos hFactor, ih hFactor hRest]
    · have hProd : 0 < rest.prod := List.prod_pos_iff_forall_pos_nat.mpr hRest
      have hLarger : value * factor ≤ value * factor * rest.prod := Nat.le_mul_of_pos_right _ hProd
      rw [if_neg hFactor, if_neg (by omega)]

theorem ogsNasBitrateToUint64_eq (hLow : brUnit1K ≤ nas.unit)
    (hHigh : nas.unit ≤ brUnit256P) : ogsNasBitrateToUint64 nas =
      if nas.value.toNat * unitStep nas.unit ≤ intMax then
        some (nas.value.toNat * unitStep nas.unit)
      else none := by
  have hValid : ogsNasBitrateUnitIsValid nas = true := by
    simp [ogsNasBitrateUnitIsValid, hLow, hHigh]
  have hValue : nas.value.toNat ≤ intMax := by
    unfold intMax
    omega
  rw [ogsNasBitrateToUint64, if_pos hValid, intProduct_eq hValue (unitFactors_pos nas.unit hHigh)]
  rfl

---- Round Trip ----

/-
  The decoded rate is defined, at most the encoded one, and less than one step of the chosen unit
  below it.
-/
def RoundsDown (bitrate : BitVec 64) : Prop := ∃ nas decoded,
    ogsNasBitrateFromUint64 bitrate = .ok nas ∧ ogsNasBitrateToUint64 nas = some decoded ∧
    decoded ≤ bitrate.toNat ∧ bitrate.toNat - decoded < unitStep nas.unit

/- What the encoder gives, in terms of the units it passes. -/
theorem ogsNasBitrateFromUint64_spec (hPositive : 1000 ≤ bitrate.toNat) :
    ∃ passed nas, ogsNasBitrateFromUint64 bitrate = .ok nas ∧ passed < 24 ∧ nas.unit = passed + 1 ∧
      nas.value.toNat = bitrate.toNat / 1000 / 4 ^ passed ∧ (0 < passed →
        0xFFFF < bitrate.toNat / 1000 / 4 ^ (passed - 1)) := by
  have hNonzero : bitrate ≠ 0 := by
    rintro rfl
    simp at hPositive
  rcases fitValue_spec (brUnit256P - brUnit1K) brUnit1K (bitrate.toNat / 1000) with
    ⟨passed, hLeft, hFitted, hUpper, hLower⟩
  have hLast : passed < 24 := by
    -- the last unit but one already holds every 64-bit rate
    by_contra hAll
    have hPassed : passed = 24 := by
      unfold brUnit256P brUnit1K at hLeft
      omega
    have hBeyond := hLower (by omega)
    rw [hPassed] at hBeyond
    omega
  have hValue : bitrate.toNat / 1000 / 4 ^ passed < 2 ^ 16 := by
    have hFits := hUpper (by unfold brUnit256P brUnit1K; omega)
    omega
  refine ⟨passed, ⟨brUnit1K + passed, BitVec.ofNat 16 (bitrate.toNat / 1000 / 4 ^ passed)⟩,
    ?_, hLast, Nat.add_comm _ _, ?_, hLower⟩
  · rw [ogsNasBitrateFromUint64, if_neg hNonzero, hFitted]
  · rw [BitVec.toNat_ofNat, Nat.mod_eq_of_lt hValue]

/- The property, on the unit and value that the encoder gives. -/
theorem roundsDown_iff (hEncode : ogsNasBitrateFromUint64 bitrate = .ok nas)
    (hLow : brUnit1K ≤ nas.unit) (hHigh : nas.unit ≤ brUnit256P) :
    RoundsDown bitrate ↔ nas.value.toNat * unitStep nas.unit ≤ intMax ∧
      nas.value.toNat * unitStep nas.unit ≤ bitrate.toNat ∧
      bitrate.toNat - nas.value.toNat * unitStep nas.unit < unitStep nas.unit := by
  have hDecode := ogsNasBitrateToUint64_eq hLow hHigh
  constructor
  · rintro ⟨other, decoded, hOther, hSome, hLe, hStep⟩
    rw [hEncode] at hOther
    cases hOther
    rw [hDecode] at hSome
    by_cases hDefined : nas.value.toNat * unitStep nas.unit ≤ intMax
    · rw [if_pos hDefined] at hSome
      cases hSome
      exact ⟨hDefined, hLe, hStep⟩
    · rw [if_neg hDefined] at hSome
      cases hSome
  · rintro ⟨hDefined, hLe, hStep⟩
    rw [if_pos hDefined] at hDecode
    exact ⟨nas, _, hEncode, hDecode, hLe, hStep⟩

/- From 256 kbit/s up the product of the decoder overflows. -/
theorem overflows_of_passed (hPassed : 4 ≤ passed) (hLast : passed < 24)
    (hValue : value = bitrate / 1000 / 4 ^ passed)
    (hLower : 0xFFFF < bitrate / 1000 / 4 ^ (passed - 1)) :
    intMax < value * unitStep (passed + 1) := by
  have hQuarter : value = bitrate / 1000 / 4 ^ (passed - 1) / 4 := by
    have hSucc : passed = passed - 1 + 1 := by omega
    rw [hValue, Nat.div_div_eq_div_mul _ _ 4, ← pow_succ, ← hSucc]
  have hStep : 256000 ≤ unitStep (passed + 1) :=
    unitStep_large _ (by unfold brUnit256P; omega) (by omega)
  have hProduct : 16384 * 256000 ≤ value * unitStep (passed + 1) := Nat.mul_le_mul (by omega) hStep
  unfold intMax
  omega

/- Every 64-bit rate is below 65536 times a petabit. -/
theorem nas_bitrate_round_trip_iff (bitrate : BitVec 64) (hLow : 1000 ≤ bitrate.toNat) :
    RoundsDown bitrate ↔ bitrate.toNat < 2147520000 := by
  rcases ogsNasBitrateFromUint64_spec hLow with ⟨passed, nas, hEncode, hLast, hUnit, hValue, hLower⟩
  rw [roundsDown_iff hEncode (by unfold brUnit1K; omega) (by unfold brUnit256P; omega), hUnit]
  by_cases hSmall : passed < 4
  · -- the four units that are kilobits times a power of four
    have hStep : unitStep (passed + 1) = 1000 * 4 ^ passed := by interval_cases passed <;> rfl
    rw [hStep]
    unfold intMax
    interval_cases passed <;> omega
  · have hOverflow := overflows_of_passed (by omega) hLast hValue (hLower (by omega))
    have hLarge : 65535 < bitrate.toNat / 1000 / 4 ^ 3 := by
      refine (hLower (by omega)).trans_le ?_
      exact Nat.div_le_div_left (Nat.pow_le_pow_right (by omega) (by omega)) (by omega)
    omega

theorem nas_bitrate_round_trip_two_gbps : RoundsDown 2000000000 :=
  (nas_bitrate_round_trip_iff 2000000000 (by decide)).mpr (by decide)

/- 5 Gbit/s: value 19531 of 256 kbit/s has no defined product. -/
theorem five_gbps_has_no_decoded_rate :
    ogsNasBitrateFromUint64 5000000000 = .ok ⟨5, 19531⟩ ∧ ogsNasBitrateToUint64 ⟨5, 19531⟩ = none ∧
      ¬ RoundsDown 5000000000 := by
  have hEncode : ogsNasBitrateFromUint64 5000000000 = .ok ⟨5, 19531⟩ := by decide
  refine ⟨hEncode, by decide, ?_⟩
  rw [roundsDown_iff hEncode (by decide) (by decide)]
  decide

end Pretty5gs.Nas
