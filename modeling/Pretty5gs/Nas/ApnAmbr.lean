import Mathlib
import Pretty5gs.Nas.RateOctets

/-
  The APN aggregate maximum bit rate of EPS session management.

  The builder takes 32 bits of the rate, and above 256 Mbit/s the encoder only writes multiples of
  256 Mbit/s, although the second extended octet adds to the rate of the other two.

  Main results: `nasAmbrFromKbps_spec`, `ambrFloor_isGreatest`, `apn_ambr_rate_largest_iff`.
-/

---- What The Octets Denote ----

namespace Pretty5gs.Nas

open Library Option

/- The unit of the second extended octet: 256 Mbit/s. -/
def ambrUnit : Nat := 256000

/-
  The rate of the three octets in kbit/s: the second extended octet counts 256 Mbit/s on top of the
  other two.
-/
def ambrRate (octets : RateOctets) : Option Nat :=
  if octets.extended2 = 0xff then none
  else (lowRate octets).map fun low => octets.extended2.toNat * ambrUnit + low

/- The largest rate of the first two octets, or 0 kbit/s. -/
def lowFloor (input : Nat) : Nat := if input = 0 then 0 else (lowSegment input).floor input

/- The largest rate of the three octets. -/
def ambrFloor (input : Nat) : Nat := input / ambrUnit * ambrUnit + lowFloor (input % ambrUnit)

theorem lowScale_le (hHolds : lowScale.Holds rate) : rate ≤ ambrUnit := by
  have hLast : ∀ segment ∈ lowScale, segment.last ≤ ambrUnit := by decide
  rcases hHolds with ⟨segment, hMem, hSegment⟩
  exact (Segment.le_last_of_holds hSegment).trans (hLast segment hMem)

theorem lowFloor_isGreatest (input : Nat) :
    IsGreatest {rate | (rate = 0 ∨ lowScale.Holds rate) ∧ rate ≤ input} (lowFloor input) := by
  unfold lowFloor
  split
  · next hZero => exact ⟨⟨.inl rfl, Nat.zero_le _⟩, fun rate hRate => hZero ▸ hRate.2⟩
  · next hNonzero =>
    have hGreatest := Scale.Started.isGreatest lowScale_ascending
      (lowSegment_started (Nat.pos_of_ne_zero hNonzero))
    refine ⟨⟨.inr hGreatest.1.1, hGreatest.1.2⟩, ?_⟩
    rintro rate ⟨rfl | hHolds, hLe⟩
    · exact Nat.zero_le _
    · exact hGreatest.2 ⟨hHolds, hLe⟩

/- The octets that denote each rate of the first two. -/
theorem exists_octets (hLow : low = 0 ∨ lowScale.Holds low) :
    ∃ br extended, lowRate ⟨br, extended, extended2⟩ = some low := by
  rcases hLow with rfl | hHolds
  · exact ⟨0xff, 0, rfl⟩
  · exact exists_lowRate hHolds

/-
  The rounded rate is the largest: a multiple of 256 Mbit/s below leaves at most 256 Mbit/s for the
  other octets.
-/
theorem ambrFloor_isGreatest (hUpper : input / ambrUnit ≤ 254) : IsGreatest
      {rate | (∃ octets, ambrRate octets = some rate) ∧
        rate ≤ input} (ambrFloor input) := by
  have hLow := lowFloor_isGreatest (input % ambrUnit)
  have hSplit := Nat.div_add_mod' input ambrUnit
  refine ⟨⟨?_, ?_⟩, ?_⟩
  · rcases exists_octets hLow.1.1 with ⟨br, extended, hRate⟩
    refine ⟨⟨br, extended, BitVec.ofNat 8 (input / ambrUnit)⟩, ?_⟩
    have hWidth : input / ambrUnit < 256 := by omega
    have hNe : BitVec.ofNat 8 (input / ambrUnit) ≠ (0xff : U8) := by
      apply codeword_ne hWidth
      have hValue : (0xff : U8).toNat = 255 := rfl
      omega
    rw [ambrRate, if_neg hNe, hRate, toNat_codeword hWidth]
    rfl
  · have hLe := hLow.1.2
    unfold ambrFloor
    omega
  · rintro rate ⟨⟨octets, hRate⟩, hLe⟩
    unfold ambrRate at hRate
    split at hRate
    · cases hRate
    · rcases map_eq_some_iff.mp hRate with ⟨low, hOctets, rfl⟩
      have hRepresentable := lowRate_holds hOctets
      have hWhole : octets.extended2.toNat ≤ input / ambrUnit := by
        rw [Nat.le_div_iff_mul_le (by decide)]
        omega
      rcases Nat.lt_or_eq_of_le hWhole with hLess | hSame
      · have hUnit : low ≤ ambrUnit := by
          rcases hRepresentable with rfl | hHolds
          · exact Nat.zero_le _
          · exact lowScale_le hHolds
        have hStep : (octets.extended2.toNat + 1) * ambrUnit ≤ input / ambrUnit * ambrUnit :=
          Nat.mul_le_mul_right _ hLess
        rw [Nat.add_mul] at hStep
        unfold ambrFloor
        omega
      · rw [hSame] at hLe ⊢
        have hBelow := hLow.2 ⟨hRepresentable, by omega⟩
        unfold ambrFloor
        omega

---- What The Encoder Writes ----

/- `nas_ambr_from_kbps`: the octets in use, and the octets. -/
def nasAmbrFromKbps (octets : RateOctets) (input : Nat) : Nat × RateOctets :=
  if input ≤ 256 * 1000 then lowFromKbps octets input
  else if input < 2 * 256 * 1000 then
    (2, { octets with
      br := 0b11111110
      extended := 0b11111010 })
  else if input ≤ 255 * 256 * 1000 then
    (3, { octets with
      br := 0b11111110
      extended := 0b11111010
      extended2 := BitVec.ofNat 8 ((input - 1 * 256 * 1000) / (256 * 1000)) })
  else
    (3, { octets with
      br := 0b11111110
      extended := 0b11111010
      extended2 := 0b11111110 })

/- The rate that the encoder writes. -/
def ambrWritten (input : Nat) : Nat :=
  if input ≤ ambrUnit then lowFloor input
  else input / ambrUnit * ambrUnit

theorem ambrRate_low (hExtended2 : octets.extended2 = 0) : ambrRate octets = lowRate octets := by
  rw [ambrRate, hExtended2]
  simp

/- The second extended octet on top of 256 Mbit/s. -/
theorem ambrRate_whole (hCount : count ≤ 254) :
    ambrRate ⟨0b11111110, 0b11111010, BitVec.ofNat 8 count⟩ = some ((count + 1) * ambrUnit) := by
  have hWidth : count < 256 := by omega
  have hNe : BitVec.ofNat 8 count ≠ (0xff : U8) := by
    apply codeword_ne hWidth
    have hValue : (0xff : U8).toNat = 255 := rfl
    omega
  have hLow : lowRate ⟨0b11111110, 0b11111010, BitVec.ofNat 8 count⟩ = some ambrUnit := by
    have hMem : by2Mbps ∈ extendedScale := by simp [extendedScale]
    exact lowRate_extended hMem (Nat.le_refl _)
  rw [ambrRate, if_neg hNe, hLow, map_some, toNat_codeword hWidth, Nat.add_mul, Nat.one_mul]

/- The octets of a rate denote the written one, and those behind the length are zero. -/
theorem nasAmbrFromKbps_spec (hUpper : input ≤ 255 * 256 * 1000) :
    ∃ length octets, nasAmbrFromKbps .zero input = (length, octets) ∧
      ambrRate octets = some (ambrWritten input) ∧ 1 ≤ length ∧ length ≤ 3 ∧
      (length < 3 → octets.extended2 = 0) ∧ (length < 2 → octets.extended = 0) := by
  rcases Nat.eq_zero_or_pos input with rfl | hPositive
  · exact ⟨1, ⟨0xff, 0, 0⟩, rfl, by decide, by omega, by omega, fun _ => rfl, fun _ => rfl⟩
  by_cases hLow : input ≤ 256 * 1000
  · rcases lowFromKbps_spec hPositive hLow with ⟨length, octets, hOctets, hRate, hZero, hLength⟩
    refine ⟨length, octets, (if_pos hLow).trans hOctets, ?_, by omega, by omega, fun _ => hZero, ?_⟩
    · have hWritten : ambrWritten input = lowFloor input := if_pos hLow
      have hNonzero : input ≠ 0 := by omega
      rw [ambrRate_low hZero, hRate, hWritten, lowFloor, if_neg hNonzero]
    · intro hShort
      rcases hLength with ⟨_, hExtended⟩ | hTwo
      · exact hExtended
      · omega
  have hWritten : ambrWritten input = input / ambrUnit * ambrUnit := if_neg hLow
  by_cases hGap : input < 2 * 256 * 1000
  · refine ⟨2, ⟨0b11111110, 0b11111010, 0⟩, ?_, ?_, by omega, by omega, fun _ => rfl, by omega⟩
    · rw [nasAmbrFromKbps, if_neg hLow, if_pos hGap]
      rfl
    · have hOne : input / ambrUnit = 1 := by
        unfold ambrUnit
        omega
      rw [hWritten, hOne]
      rfl
  · have hCount : (input - 1 * 256 * 1000) / (256 * 1000) + 1 = input / ambrUnit := by
      unfold ambrUnit
      omega
    refine ⟨3, ⟨0b11111110, 0b11111010, BitVec.ofNat 8 ((input - 1 * 256 * 1000) / (256 * 1000))⟩,
      ?_, ?_, by omega, by omega, by omega, by omega⟩
    · rw [nasAmbrFromKbps, if_neg hLow, if_neg hGap, if_pos hUpper]
    · rw [ambrRate_whole (by omega), hCount, hWritten]

---- The Information Element ----

inductive Direction where
  | downlink
  | uplink
deriving DecidableEq, Repr

/- `ogs_nas_apn_aggregate_maximum_bit_rate_t` -/
structure ApnAmbr where
  length : Nat
  dlApnAmbr : RateOctets
  ulApnAmbr : RateOctets
deriving DecidableEq, Repr

def ApnAmbr.get (ambr : ApnAmbr) : Direction → RateOctets
  | .downlink => ambr.dlApnAmbr
  | .uplink => ambr.ulApnAmbr

/- `apn_ambr_build` -/
def apnAmbrBuild (dlApnAmbr ulApnAmbr : U32) : ApnAmbr :=
  let dl := nasAmbrFromKbps .zero (dlApnAmbr.toNat / 1000)
  let ul := nasAmbrFromKbps .zero (ulApnAmbr.toNat / 1000)
  { length := max (max 0 dl.1) ul.1 * 2
    dlApnAmbr := dl.2
    ulApnAmbr := ul.2 }

/- The two rates of a session, in bit/s. -/
structure SessionAmbr where
  downlink : BitVec 64
  uplink : BitVec 64
deriving DecidableEq, Repr

def SessionAmbr.get (ambr : SessionAmbr) : Direction → BitVec 64
  | .downlink => ambr.downlink
  | .uplink => ambr.uplink

/- The call of the ESM builders: the parameters of the builder take 32 of the 64 bits. -/
def esmApnAmbr (ambr : SessionAmbr) : ApnAmbr := apnAmbrBuild (ambr.downlink.setWidth 32)
    (ambr.uplink.setWidth 32)

/-
  The rate of a direction in kbit/s as a receiver takes it from the octets that the length covers.
-/
def ApnAmbr.sentRate (ambr : ApnAmbr) (direction : Direction) : Option Nat :=
  let octets := ambr.get direction
  if ambr.length < 2 then none
  else
    ambrRate {
      br := octets.br
      extended := if ambr.length < 4 then 0 else octets.extended
      extended2 := if ambr.length < 6 then 0 else octets.extended2
    }

/- A rate is denoted in every element that is long enough. -/
theorem sentRate_written {ambr : ApnAmbr} (hUpper : kbps ≤ 255 * 256 * 1000)
    (hOctets : ambr.get direction = (nasAmbrFromKbps .zero kbps).2)
    (hTotal : ambr.length = total * 2) (hLength : (nasAmbrFromKbps .zero kbps).1 ≤ total) :
    ambr.sentRate direction = some (ambrWritten kbps) := by
  rcases nasAmbrFromKbps_spec hUpper with ⟨own, octets, hWritten, hRate, hOwn, hMost, hThree, hTwo⟩
  rw [hWritten] at hOctets hLength
  have hExtended : (if ambr.length < 4 then 0 else octets.extended) = octets.extended := by
    split
    · exact (hTwo (by omega)).symm
    · rfl
  have hExtended2 : (if ambr.length < 6 then 0 else octets.extended2) = octets.extended2 := by
    split
    · exact (hThree (by omega)).symm
    · rfl
  rw [ApnAmbr.sentRate, if_neg (by omega), hOctets]
  simp only [hExtended, hExtended2]
  exact hRate

theorem esmApnAmbr_sentRate (ambr : SessionAmbr) (direction : Direction) :
    (esmApnAmbr ambr).sentRate direction = some (ambrWritten
        ((ambr.get direction).toNat % 2 ^ 32 / 1000)) := by
  have hBound : ∀ rate : BitVec 64, rate.toNat % 2 ^ 32 / 1000 ≤ 255 * 256 * 1000 := by
    intro rate
    omega
  cases direction with
  | downlink =>
    apply sentRate_written (hBound _) _ rfl
    · exact (Nat.le_max_right _ _).trans (Nat.le_max_left _ _)
    · simp [esmApnAmbr, apnAmbrBuild, ApnAmbr.get, SessionAmbr.get]
  | uplink =>
    apply sentRate_written (hBound _) _ rfl
    · exact Nat.le_max_right _ _
    · simp [esmApnAmbr, apnAmbrBuild, ApnAmbr.get, SessionAmbr.get]

---- The Largest Rate ----

/- The rates that the octets can denote, in bit/s. -/
def AmbrRepresentable (rate : Nat) : Prop :=
  ∃ octets kbps, ambrRate octets = some kbps ∧ rate = kbps * 1000

/- The element denotes the largest rate that is possible and does not exceed `rate`. -/
def ApnAmbr.Largest (ambr : ApnAmbr) (direction : Direction) (rate : Nat) : Prop := ∃ kbps,
    ambr.sentRate direction = some kbps ∧ IsGreatest
      {other | AmbrRepresentable other ∧ other ≤ rate} (kbps * 1000)

/- The same in kbit/s. -/
theorem isGreatest_bits_iff : IsGreatest
        {other | AmbrRepresentable other ∧ other ≤ rate} (kbps * 1000) ↔ IsGreatest
        {other | (∃ octets, ambrRate octets = some other) ∧
          other ≤ rate / 1000} kbps := by
  constructor
  · rintro ⟨⟨⟨octets, own, hOwn, hEq⟩, hLe⟩, hUpper⟩
    have hSame : kbps = own := by omega
    subst hSame
    refine ⟨⟨⟨octets, hOwn⟩, by omega⟩, ?_⟩
    rintro other ⟨⟨otherOctets, hOther⟩, hOtherLe⟩
    have hMember : AmbrRepresentable (other * 1000) := ⟨otherOctets, other, hOther, rfl⟩
    have hBits : other * 1000 ≤ rate := (Nat.le_div_iff_mul_le (by decide)).mp hOtherLe
    exact Nat.le_of_mul_le_mul_right (hUpper ⟨hMember, hBits⟩) (by decide)
  · rintro ⟨⟨⟨octets, hOwn⟩, hLe⟩, hUpper⟩
    refine ⟨⟨⟨octets, kbps, hOwn, rfl⟩, by omega⟩, ?_⟩
    rintro other ⟨⟨otherOctets, own, hOther, rfl⟩, hOtherLe⟩
    have hBelow := hUpper ⟨⟨otherOctets, hOther⟩, by omega⟩
    omega

theorem lowFloor_eq_zero_iff (input : Nat) : lowFloor input = 0 ↔ input = 0 := by
  constructor
  · intro hZero
    by_contra hNonzero
    have hOne : lowScale.Holds 1 := ⟨by1Kbps, by simp [lowScale, baseScale], 0, by decide, rfl⟩
    have hBelow := (lowFloor_isGreatest input).2 ⟨.inr hOne, Nat.pos_of_ne_zero hNonzero⟩
    omega
  · rintro rfl
    rfl

theorem ambrWritten_eq_floor_iff :
    ambrWritten input = ambrFloor input ↔ input ≤ ambrUnit ∨ ambrUnit ∣ input := by
  unfold ambrWritten ambrFloor
  rcases Nat.lt_trichotomy input ambrUnit with hBelow | rfl | hAbove
  · rw [Nat.div_eq_of_lt hBelow, Nat.mod_eq_of_lt hBelow]
    simp [hBelow.le]
  · decide
  · rw [if_neg (Nat.not_le.mpr hAbove)]
    have hRemainder := lowFloor_eq_zero_iff (input % ambrUnit)
    omega

/- Above 32 bits a larger rate than the written one exists. -/
theorem not_largest_of_wide (hWide : 2 ^ 32 ≤ rate) (input : Nat)
    (hInput : input ≤ 4294967) : ¬ IsGreatest
        {other | (∃ octets, ambrRate octets = some other) ∧
          other ≤ rate / 1000} (ambrWritten input) := by
  intro hGreatest
  -- 16 times 256 Mbit/s and 198 Mbit/s on top
  have hRate : ambrRate ⟨0b11111110, 221, 16⟩ = some 4294000 := by decide
  have hBelow := hGreatest.2 ⟨⟨_, hRate⟩, by omega⟩
  unfold ambrWritten ambrUnit at hBelow
  split at hBelow
  · have hLow := (lowFloor_isGreatest input).1.2
    omega
  · omega

/-
  The element denotes the largest rate exactly for those that fit in 32 bits and are either at most
  256 Mbit/s or, in whole kbit/s, a multiple of it.
-/
theorem apn_ambr_rate_largest_iff (ambr : SessionAmbr) (direction : Direction) :
    (esmApnAmbr ambr).Largest direction (ambr.get direction).toNat ↔
      (ambr.get direction).toNat < 2 ^ 32 ∧ ((ambr.get direction).toNat / 1000 ≤ ambrUnit ∨
          ambrUnit ∣ (ambr.get direction).toNat / 1000) := by
  generalize hRate : (ambr.get direction).toNat = rate
  have hSent := esmApnAmbr_sentRate ambr direction
  rw [hRate] at hSent
  unfold ApnAmbr.Largest
  rw [hSent]
  simp only [Option.some.injEq, exists_eq_left', isGreatest_bits_iff]
  by_cases hNarrow : rate < 2 ^ 32
  · rw [Nat.mod_eq_of_lt hNarrow]
    have hFloor := ambrFloor_isGreatest (show rate / 1000 / ambrUnit ≤ 254 by
      unfold ambrUnit
      omega)
    rw [← ambrWritten_eq_floor_iff]
    constructor
    · intro hGreatest
      exact ⟨hNarrow, hGreatest.unique hFloor⟩
    · rintro ⟨_, hSame⟩
      rw [hSame]
      exact hFloor
  · have hNot := not_largest_of_wide (Nat.le_of_not_lt hNarrow) (rate % 2 ^ 32 / 1000) (by omega)
    exact ⟨fun hGreatest => absurd hGreatest hNot, fun hCondition => absurd hCondition.1 hNarrow⟩

/- 4294967296 bit/s is written as 0 kbit/s. -/
theorem apn_ambr_wide_rate_is_lost :
    (esmApnAmbr ⟨4294967296, 4294967296⟩).sentRate .downlink = some 0 ∧
      ¬ (esmApnAmbr ⟨4294967296, 4294967296⟩).Largest .downlink 4294967296 := by
  have hSent : (esmApnAmbr ⟨4294967296, 4294967296⟩).sentRate .downlink = some 0 := by decide
  refine ⟨hSent, ?_⟩
  rintro ⟨kbps, hKbps, hGreatest⟩
  rw [hSent] at hKbps
  cases hKbps
  have hMember : AmbrRepresentable 1000 := ⟨⟨1, 0, 0⟩, 1, by decide, rfl⟩
  have hBelow := hGreatest.2 ⟨hMember, by decide⟩
  omega

end Pretty5gs.Nas
