import Mathlib.Data.List.Induction
import Mathlib.Tactic.Ring
import Pretty5gs.Gtp.ImsiPeek

/-
  The conversions of `lib/nas/common/conv.c`: timers in seconds to a unit and a count, and digits to
  octets.

  Main results: `gprs_timers_exact_iff`, `bcd_coding_iff`.
-/

---- Timers ----

namespace Pretty5gs.Nas.Conv

open Function

/- `ogs_nas_gprs_timer_t` -/
structure GprsTimer where
  unit : BitVec 3
  value : BitVec 5
deriving DecidableEq, Repr

def GprsTimer.zero : GprsTimer := { unit := 0, value := 0 }

/- The nested branches: each unit has `factor` of the one before. -/
def coarser : List (Int × BitVec 3) → Int → Rv × GprsTimer
  | [], _ => (.error, .zero)
  | (factor, unit) :: rest, timerValue =>
    if timerValue.tmod factor ≠ 0 then (.error, .zero)
    else if timerValue.tdiv factor ≤ 31 then
      (.ok, { unit := unit, value := BitVec.ofInt 5 (timerValue.tdiv factor) })
    else coarser rest (timerValue.tdiv factor)

def timerFromSec (twoSeconds : BitVec 3) (factors : List (Int × BitVec 3)) (sec : Int) :
    Rv × GprsTimer :=
  if sec ≤ 63 then
    if sec.tmod 2 ≠ 0 then (.error, .zero)
    else (.ok, { unit := twoSeconds, value := BitVec.ofInt 5 (sec.tdiv 2) })
  else coarser factors sec

/- 1 minute and decihours -/
def timerFactors : List (Int × BitVec 3) := [(60, 1), (6, 2)]

/- 30 seconds, 1 minute, 10 minutes, 1 hour, 10 hours and 320 hours -/
def timer3Factors : List (Int × BitVec 3) := [(30, 4), (2, 5), (10, 0), (6, 1), (10, 2), (32, 6)]

/- `ogs_nas_gprs_timer_from_sec` -/
def ogsNasGprsTimerFromSec : Int → Rv × GprsTimer := timerFromSec 0 timerFactors

/- `ogs_nas_gprs_timer_3_from_sec` -/
def ogsNasGprsTimer3FromSec : Int → Rv × GprsTimer := timerFromSec 3 timer3Factors

inductive TimerKind where
  | gprsTimer
  | gprsTimer3
deriving DecidableEq, Repr

def TimerKind.fromSec : TimerKind → Int → Rv × GprsTimer
  | .gprsTimer => ogsNasGprsTimerFromSec
  | .gprsTimer3 => ogsNasGprsTimer3FromSec

---- Units ----

/- The seconds of each defined unit, by `lib/nas/common/types.h`. -/
def TimerKind.units : TimerKind → List (Int × BitVec 3)
  | .gprsTimer => [(2, 0), (60, 1), (360, 2)]
  | .gprsTimer3 => [(2, 3), (30, 4), (60, 5), (600, 0), (3600, 1), (36000, 2), (1152000, 6)]

/- A timer has a unit of the table, and that many seconds. -/
def Denotes (units : List (Int × BitVec 3)) (timer : GprsTimer) (sec : Int) : Prop :=
  ∃ seconds, (seconds, timer.unit) ∈ units ∧ seconds * timer.value.toNat = sec

/- Accepted if it can be written, and then what is written denotes it. -/
def Exact (units : List (Int × BitVec 3)) (result : Rv × GprsTimer) (sec : Int) : Prop :=
  (result.1 = .ok ↔ ∃ timer, Denotes units timer sec) ∧
    (result.1 = .ok → Denotes units result.2 sec)

theorem Exact.written (hDenotes : Denotes units timer sec) : Exact units (.ok, timer) sec :=
  ⟨iff_of_true rfl ⟨timer, hDenotes⟩, fun _ => hDenotes⟩

theorem Exact.refused (hNone : ∀ timer, ¬ Denotes units timer sec) :
    Exact units (.error, .zero) sec :=
  ⟨iff_of_false nofun fun ⟨timer, hDenotes⟩ => hNone timer hDenotes, nofun⟩

theorem denotes_cons :
    Denotes ((seconds, unit) :: units) timer sec ↔
      (timer.unit = unit ∧ seconds * timer.value.toNat = sec) ∨ Denotes units timer sec := by
  simp only [Denotes, List.mem_cons, Prod.mk.injEq, or_and_right, exists_or, and_assoc,
    exists_eq_left]

theorem Exact.cons (hExact : Exact units result sec) (hLarge : 31 * seconds < sec)
    (hPos : 0 < seconds) : Exact ((seconds, unit) :: units) result sec := by
  have hSame : ∀ timer, Denotes ((seconds, unit) :: units) timer sec ↔ Denotes units timer sec := by
    intro timer
    rw [denotes_cons, or_iff_right]
    have hCount : (timer.value.toNat : Int) ≤ 31 := by omega
    have hMost := Int.mul_le_mul_of_nonneg_left hCount hPos.le
    omega
  simpa only [Exact, hSame] using hExact

theorem toNat_ofInt_count {count : Int} (hLeast : 0 ≤ count) (hMost : count ≤ 31) :
    ((BitVec.ofInt 5 count).toNat : Int) = count := by
  rw [BitVec.toNat_ofInt, Int.toNat_of_nonneg (Int.emod_nonneg _ (by decide))]
  exact Int.emod_eq_of_lt hLeast (by omega)

/- The table of units that the factors make, from a unit on. -/
def scaled (base : Int) : List (Int × BitVec 3) → List (Int × BitVec 3)
  | [] => []
  | (factor, unit) :: rest => (base * factor, unit) :: scaled (base * factor) rest

theorem dvd_of_mem_scaled (hMem : entry ∈ scaled base factors) : base ∣ entry.1 := by
  induction factors generalizing base with
  | nil => cases hMem
  | cons head rest ih =>
    rcases List.mem_cons.mp hMem with rfl | hMem
    · exact ⟨head.1, rfl⟩
    · exact (Dvd.intro head.1 rfl).trans (ih hMem)

theorem coarser_exact (hBase : 0 < base) (hFactors : ∀ entry ∈ factors, 0 < entry.1)
    (hLarge : 0 ≤ value) : Exact (scaled base factors) (coarser factors value) (base * value) := by
  induction factors generalizing base value with
  | nil => exact .refused fun timer ⟨seconds, hMem, _⟩ => nomatch hMem
  | cons head rest ih =>
    rcases head with ⟨factor, unit⟩
    have hFactor : 0 < factor := hFactors _ List.mem_cons_self
    have hUnit : 0 < base * factor := Int.mul_pos hBase hFactor
    rw [coarser, Int.tmod_eq_emod_of_nonneg hLarge, Int.tdiv_eq_ediv_of_nonneg hLarge]
    split
    · -- every unit from here on is a multiple of this one
      rename_i hRest
      refine .refused fun timer ⟨seconds, hMem, hSec⟩ => hRest ?_
      have hDvd : base * factor ∣ seconds := by
        rcases List.mem_cons.mp hMem with hHead | hMem
        · rw [(Prod.mk.inj hHead).1]
        · exact dvd_of_mem_scaled hMem
      rcases hDvd with ⟨times, rfl⟩
      refine Int.emod_eq_zero_of_dvd ⟨times * timer.value.toNat, ?_⟩
      refine Int.eq_of_mul_eq_mul_left hBase.ne' (hSec.symm.trans ?_)
      ring
    · rename_i hWhole
      have hValue : base * value = base * factor * (value / factor) := by
        rw [Int.mul_assoc, Int.mul_ediv_cancel' (Int.dvd_of_emod_eq_zero (not_not.mp hWhole))]
      have hQuotient : 0 ≤ value / factor := Int.ediv_nonneg hLarge hFactor.le
      split
      · rename_i hFits
        refine .written (denotes_cons.mpr (.inl ⟨rfl, ?_⟩))
        rw [toNat_ofInt_count hQuotient hFits, hValue]
      · rename_i hMore
        rw [hValue]
        refine (ih hUnit (fun entry hMem => hFactors _ (List.mem_cons_of_mem _ hMem))
          hQuotient).cons ?_ hUnit
        rw [Int.mul_comm]
        exact Int.mul_lt_mul_of_pos_left (Int.not_le.mp hMore) hUnit

/- The units of a kind, apart from that of two seconds. -/
def TimerKind.factors : TimerKind → List (Int × BitVec 3)
  | .gprsTimer => timerFactors
  | .gprsTimer3 => timer3Factors

theorem units_eq {kind : TimerKind} :
    ∃ unit, kind.units = (2, unit) :: scaled 1 kind.factors ∧
      kind.fromSec = timerFromSec unit kind.factors := by
  cases kind with
  | gprsTimer => exact ⟨0, by decide, rfl⟩
  | gprsTimer3 => exact ⟨3, by decide, rfl⟩

theorem factors_pos (kind : TimerKind) : ∀ entry ∈ kind.factors, 0 < entry.1 := by
  cases kind <;> decide

theorem units_even {kind : TimerKind} : ∀ entry ∈ kind.units, 0 ≤ entry.1 ∧ 2 ∣ entry.1 := by
  cases kind <;> decide

theorem Denotes.even {kind : TimerKind} (hDenotes : Denotes kind.units timer sec) :
    0 ≤ sec ∧ 2 ∣ sec := by
  rcases hDenotes with ⟨seconds, hMem, rfl⟩
  rcases units_even _ hMem with ⟨hPos, hEven⟩
  exact ⟨Int.mul_nonneg hPos (Int.natCast_nonneg _), hEven.mul_right _⟩

/- Seconds that are even and negative are accepted, with what the five bits hold of their half. -/
theorem gprs_timers_exact_iff (kind : TimerKind) (sec : Int) :
    Exact kind.units (kind.fromSec sec) sec ↔ ¬ (sec < 0 ∧ sec % 2 = 0) := by
  rcases units_eq with ⟨unit, hUnits, hFrom⟩
  rw [hFrom, timerFromSec]
  split
  · split
    · rename_i hOdd
      refine iff_of_true (.refused fun timer hDenotes => hOdd ?_) fun hEven => hOdd ?_
      · exact Int.tmod_eq_zero_of_dvd hDenotes.even.2
      · exact Int.tmod_eq_zero_of_dvd (Int.dvd_of_emod_eq_zero hEven.2)
    · rename_i hEven
      have hDvd : 2 ∣ sec := Int.dvd_of_tmod_eq_zero (not_not.mp hEven)
      by_cases hNeg : sec < 0
      · refine iff_of_false (fun hExact => ?_) fun hNot => hNot ⟨hNeg, Int.emod_eq_zero_of_dvd hDvd⟩
        exact absurd hNeg (Int.not_lt.mpr (hExact.2 rfl).even.1)
      · have hLeast : 0 ≤ sec := Int.not_lt.mp hNeg
        refine iff_of_true (.written ?_) fun hBad => hNeg hBad.1
        rw [hUnits, Int.tdiv_eq_ediv_of_nonneg hLeast, denotes_cons]
        refine .inl ⟨rfl, ?_⟩
        rw [toNat_ofInt_count (by omega) (by omega)]
        exact Int.mul_ediv_cancel' hDvd
  · have hCoarse := coarser_exact Int.one_pos (factors_pos kind) (show 0 ≤ sec by omega)
    rw [Int.one_mul] at hCoarse
    rw [hUnits]
    exact iff_of_true (hCoarse.cons (by omega) (by decide)) (by omega)

theorem negative_seconds_are_written :
    ogsNasGprsTimerFromSec (-2) = (.ok, { unit := 0, value := 31 }) ∧
      ¬ Exact TimerKind.gprsTimer.units (ogsNasGprsTimerFromSec (-2)) (-2) :=
  ⟨by decide, fun hExact => absurd (hExact.2 rfl).even.1 (by decide)⟩

---- Digits ----

/- The loop of the encoders, after a number of digits. -/
def storeDigits (even odd : U8 → U8) (input : List U8) (out : Nat → U8) : Nat → Nat → U8
  | 0 => out
  | i + 1 =>
    let stored := storeDigits even odd input out i
    if i % 2 = 1 then Function.update stored (i / 2) (stored (i / 2) ||| odd (input.getD i 0))
    else Function.update stored (i / 2) (even (input.getD i 0))

/- What is in the buffer, and `out_len`. -/
def bcdToBuffer (even odd : U8 → U8) (input : List U8) (out : Nat → U8) : (Nat → U8) × Nat :=
  let stored := storeDigits even odd input out input.length
  let outLen := (input.length + 1) / 2
  if input.length % 2 = 1 then
    (Function.update stored (outLen - 1) (stored (outLen - 1) ||| 0xf0), outLen)
  else (stored, outLen)

def lowHalf (c : U8) : U8 := (c - 0x30) &&& 0x0f

def highHalf (c : U8) : U8 := ((c - 0x30) <<< 4) &&& 0xf0

/- `ogs_bcd_to_buffer` -/
def ogsBcdToBuffer : List U8 → (Nat → U8) → (Nat → U8) × Nat := bcdToBuffer lowHalf highHalf

/- `ogs_bcd_to_buffer_reverse_order` -/
def ogsBcdToBufferReverseOrder : List U8 → (Nat → U8) → (Nat → U8) × Nat :=
  bcdToBuffer highHalf lowHalf

/- `ogs_nas_imeisv_bcd_to_buffer` -/
def ogsNasImeisvBcdToBuffer : List U8 → (Nat → U8) → (Nat → U8) × Nat := ogsBcdToBufferReverseOrder

def digitChar (digit : Fin 10) : U8 := 0x30 + BitVec.ofNat 8 digit

/- The characters of a string of decimal digits. -/
def digitString (digits : List (Fin 10)) : List U8 := digits.map digitChar

/- What the half octet of a digit has to hold; one without a digit is filled. -/
def half (digits : List (Fin 10)) (i : Nat) : U8 :=
  (digits[i]?).elim 0x0f fun digit => BitVec.ofNat 8 digit

/- Every digit is stored, the first of a pair in the upper half. -/
def StoredHighFirst (digits : List (Fin 10)) (result : (Nat → U8) × Nat) : Prop :=
  result.2 = (digits.length + 1) / 2 ∧ ∀ j < result.2,
    result.1 j >>> 4 = half digits (2 * j) ∧ result.1 j &&& 0x0f = half digits (2 * j + 1)

section
variable {even odd : U8 → U8} {input : List U8} {out : Nat → U8}

/- Each octet has its even digit, and its odd one once that is stored. -/
theorem storeDigits_eq (hStored : 2 * j < count) : storeDigits even odd input out count j =
      if 2 * j + 1 < count then even (input.getD (2 * j) 0) ||| odd (input.getD (2 * j + 1) 0)
      else even (input.getD (2 * j) 0) := by
  induction count with
  | zero => omega
  | succ i ih =>
    rw [storeDigits]
    by_cases hHere : j = i / 2
    · split
      · have hIndex : i = 2 * j + 1 := by omega
        rw [← hHere, update_self, ih (by omega), if_neg (by omega), if_pos (by omega), hIndex]
      · have hIndex : i = 2 * j := by omega
        rw [← hHere, update_self, if_neg (by omega), hIndex]
    · have hBefore : storeDigits even odd input out i j = _ := ih (by omega)
      split
      · rw [update_of_ne hHere, hBefore]
        exact if_congr (by omega) rfl rfl
      · rw [update_of_ne hHere, hBefore]
        exact if_congr (by omega) rfl rfl

/- The octets of a string of digits. -/
theorem bcdToBuffer_eq (hOctet : 2 * j < input.length) : (bcdToBuffer even odd input out).1 j =
      if 2 * j + 1 < input.length then
        even (input.getD (2 * j) 0) ||| odd (input.getD (2 * j + 1) 0)
      else even (input.getD (2 * j) 0) ||| 0xf0 := by
  by_cases hOdd : input.length % 2 = 1
  · simp only [bcdToBuffer, if_pos hOdd]
    by_cases hLast : j = (input.length + 1) / 2 - 1
    · rw [← hLast, update_self, storeDigits_eq hOctet, if_neg (by omega), if_neg (by omega)]
    · rw [update_of_ne hLast, storeDigits_eq hOctet, if_pos (by omega), if_pos (by omega)]
  · simp only [bcdToBuffer, if_neg hOdd]
    rw [storeDigits_eq hOctet, if_pos (by omega), if_pos (by omega)]

theorem bcdToBuffer_len : (bcdToBuffer even odd input out).2 = (input.length + 1) / 2 := by
  unfold bcdToBuffer
  split <;> rfl

end

---- Round Trip ----

open Gtp.ImsiPeek

theorem value_ogsBufferToBcd : (ogsBufferToBcd packet place (count + 1)).value =
      (Reader.readList packet place count).value.flatMap
        (fun octet => [lowDigit octet, highDigit octet]) ++
          lowDigit (packet (place + count)) :: (if IsFilled (packet (place + count)) then [0]
            else [highDigit (packet (place + count)), 0]) := by
  by_cases hFilled : IsFilled (packet (place + count))
  · simp [ogsBufferToBcd, hFilled]
  · simp [ogsBufferToBcd, hFilled]

theorem ogsBufferToBcd_succ :
    (ogsBufferToBcd packet place (count + 2)).value =
      lowDigit (packet place) :: highDigit (packet place) ::
        (ogsBufferToBcd packet (place + 1) (count + 1)).value := by
  have hLast : place + (count + 1) = place + 1 + count := by omega
  rw [value_ogsBufferToBcd, value_ogsBufferToBcd, hLast]
  rfl

/- The halves of a pair of digits, and of a last digit with its filler. -/
theorem halves_of_digits :
    ∀ a b : Fin 10, (lowDigit (lowHalf (digitChar a) ||| highHalf (digitChar b)) = digitChar a ∧
      highDigit (lowHalf (digitChar a) ||| highHalf (digitChar b)) = digitChar b ∧
        ¬ IsFilled (lowHalf (digitChar a) ||| highHalf (digitChar b))) ∧
      lowDigit (lowHalf (digitChar a) ||| 0xf0) = digitChar a ∧
        IsFilled (lowHalf (digitChar a) ||| 0xf0) := by
  decide

theorem length_digitString (digits : List (Fin 10)) :
    (digitString digits).length = digits.length := by
  simp [digitString]

/- A memory has the octets of a string, and its digits come back. -/
theorem ogsBufferToBcd_stored {packet : Nat → U8} (out : Nat → U8)
    (hCount : digits.length = 2 * count + 1 ∨ digits.length = 2 * count + 2)
    (hStored : ∀ j, 2 * j < digits.length →
      packet (place + j) = (bcdToBuffer lowHalf highHalf (digitString digits) out).1 j) :
    (ogsBufferToBcd packet place (count + 1)).value = digitString digits ++ [0] := by
  induction digits using List.twoStepInduction generalizing place count with
  | nil => simp at hCount
  | singleton a =>
    have hOctet : packet (place + 0) = lowHalf (digitChar a) ||| 0xf0 := by
      rw [hStored 0 (by simp), bcdToBuffer_eq (by simp [digitString])]
      rfl
    rcases halves_of_digits a a with ⟨-, hLow, hFilled⟩
    have hZero : count = 0 := by
      rw [List.length_singleton] at hCount
      omega
    rw [hZero, value_ogsBufferToBcd, hOctet, if_pos hFilled, hLow]
    rfl
  | cons_cons a b rest ih _ =>
    simp only [List.length_cons] at hCount hStored
    have hOctet : packet (place + 0) = lowHalf (digitChar a) ||| highHalf (digitChar b) := by
      rw [hStored 0 (by omega), bcdToBuffer_eq (by simp [digitString])]
      rfl
    rcases halves_of_digits a b with ⟨⟨hLow, hHigh, hOpen⟩, -⟩
    cases count with
    | zero =>
      have hNil : rest = [] := List.eq_nil_of_length_eq_zero (by omega)
      rw [value_ogsBufferToBcd, hOctet, if_neg hOpen, hLow, hHigh, hNil]
      rfl
    | succ count =>
      have hTail : ∀ j, 2 * j < rest.length →
        packet (place + 1 + j) = (bcdToBuffer lowHalf highHalf (digitString rest) out).1 j := by
        intro j hLess
        have hLength := length_digitString rest
        rw [Nat.add_assoc, Nat.add_comm 1, hStored (j + 1) (by omega),
          bcdToBuffer_eq (by simp only [length_digitString, List.length_cons]; omega),
          bcdToBuffer_eq (by omega)]
        simp only [length_digitString, List.length_cons]
        exact if_congr (by omega) rfl rfl
      rw [ogsBufferToBcd_succ, ih (by omega) hTail, ← Nat.add_zero place, hOctet, hLow, hHigh]
      rfl

/- In the reverse order, the filler overwrites a last digit without a second one. -/
theorem halves_reversed :
    ∀ a b : Fin 10, ((highHalf (digitChar a) ||| lowHalf (digitChar b)) >>> 4 = BitVec.ofNat 8 a ∧
      (highHalf (digitChar a) ||| lowHalf (digitChar b)) &&& 0x0f = BitVec.ofNat 8 b) ∧
      (highHalf (digitChar a) ||| 0xf0) >>> 4 ≠ BitVec.ofNat 8 a := by
  decide

theorem half_of_lt (hLess : i < digits.length) : half digits i = BitVec.ofNat 8 digits[i] := by
  simp [half, hLess]

theorem getD_digitString (hLess : i < digits.length) :
    (digitString digits).getD i 0 = digitChar digits[i] := by
  simp [digitString, hLess]

theorem storedHighFirst_iff :
    StoredHighFirst digits (ogsBcdToBufferReverseOrder (digitString digits) out) ↔
      digits.length % 2 = 0 := by
  have hLength := length_digitString digits
  simp only [StoredHighFirst, ogsBcdToBufferReverseOrder, bcdToBuffer_len, hLength, true_and]
  constructor
  · intro hStored
    by_contra hOdd
    have hLast := (hStored ((digits.length + 1) / 2 - 1) (by omega)).1
    rw [bcdToBuffer_eq (by omega), if_neg (by omega), getD_digitString (by omega),
      half_of_lt (by omega)] at hLast
    exact (halves_reversed _ 0).2 hLast
  · intro hEven j hLess
    rw [bcdToBuffer_eq (by omega), if_pos (by omega), getD_digitString (by omega),
      getD_digitString (by omega), half_of_lt (by omega), half_of_lt (by omega)]
    exact (halves_reversed _ _).1

/- The round trip, and the digits of the reverse order. -/
theorem bcd_coding_iff (digits : List (Fin 10)) (out : Nat → U8) (hSome : digits ≠ []) :
    let encoded := ogsBcdToBuffer (digitString digits) out
    (ogsBufferToBcd encoded.1 0 encoded.2).value = digitString digits ++ [0] ∧
      (StoredHighFirst digits (ogsBcdToBufferReverseOrder (digitString digits) out) ↔
        digits.length % 2 = 0) := by
  intro encoded
  refine ⟨?_, storedHighFirst_iff⟩
  have hPos := List.length_pos_iff.mpr hSome
  have hCount : encoded.2 = (digits.length - 1) / 2 + 1 := by
    rw [show encoded.2 = _ from bcdToBuffer_len, length_digitString]
    omega
  rw [hCount]
  refine ogsBufferToBcd_stored out (by omega) fun j _ => ?_
  rw [Nat.zero_add]
  rfl

theorem bcd_coding_iff_twelve :
    [1, 2] ≠ ([] : List (Fin 10)) ∧
      (ogsBufferToBcd (ogsBcdToBuffer (digitString [1, 2]) fun _ => 0).1 0 1).value =
        [0x31, 0x32, 0] :=
  ⟨by decide, (bcd_coding_iff [1, 2] (fun _ => 0) (by decide)).1⟩

/- The octet of the one digit 1 has no digit left. -/
theorem reverse_order_overwrites_last_digit :
    (ogsBcdToBufferReverseOrder (digitString [1]) fun _ => 0).1 0 = 0xf0 ∧
      ¬ StoredHighFirst [1] (ogsBcdToBufferReverseOrder (digitString [1]) fun _ => 0) :=
  ⟨by decide, fun hStored => absurd (hStored.2 0 (by decide)).1 (by decide)⟩

end Pretty5gs.Nas.Conv
