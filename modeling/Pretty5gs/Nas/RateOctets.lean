import Pretty5gs.Core.Types
import Pretty5gs.Library.Scale

/-
  The octets of a bit rate in EPS session management, up to 256 Mbit/s.

  APN-AMBR and EPS QoS write a rate to a base octet and an extended one in the same way; the second
  extended octet differs.

  Main results: `lowRate_holds` and `exists_lowRate`, `lowFromKbps_spec`.
-/

---- What The Octets Denote ----

namespace Pretty5gs.Nas

open Library Segment

/- The three octets of one rate. -/
structure RateOctets where
  br : U8
  extended : U8
  extended2 : U8
deriving DecidableEq, Repr

def RateOctets.zero : RateOctets where
  br := 0
  extended := 0
  extended2 := 0

/- 1 kbit/s to 63 kbit/s -/
def by1Kbps : Segment where
  code := 0b00000001
  first := 1
  step := 1
  count := 62

/- 64 kbit/s to 568 kbit/s -/
def by8Kbps : Segment where
  code := 0b01000000
  first := 64
  step := 8
  count := 63

/- 576 kbit/s to 8640 kbit/s -/
def by64Kbps : Segment where
  code := 0b10000000
  first := 576
  step := 64
  count := 126

/- 8700 kbit/s to 16000 kbit/s -/
def by100Kbps : Segment where
  code := 0b00000001
  first := 8700
  step := 100
  count := 73

/- 17 Mbit/s to 128 Mbit/s -/
def by1Mbps : Segment where
  code := 0b01001011
  first := 17000
  step := 1000
  count := 111

/- 130 Mbit/s to 256 Mbit/s -/
def by2Mbps : Segment where
  code := 0b10111011
  first := 130000
  step := 2000
  count := 63

def baseScale : Scale := [by1Kbps, by8Kbps, by64Kbps]

def extendedScale : Scale := [by100Kbps, by1Mbps, by2Mbps]

def lowScale : Scale := baseScale ++ extendedScale

/-
  The rate of the first two octets in kbit/s. Octet 11111111 is 0 kbit/s, octet 00000000 is
  reserved, and the extended octets above 11111010 are read as that one.
-/
def lowRate (octets : RateOctets) : Option Nat :=
  if octets.extended = 0 then
    if octets.br = 0xff then some 0
    else baseScale.decode octets.br.toNat
  else extendedScale.decode (min octets.extended.toNat 250)

theorem baseScale_coded : baseScale.Coded := by decide

theorem extendedScale_coded : extendedScale.Coded := by decide

theorem lowScale_ascending : lowScale.Ascending := by decide

theorem lowRate_holds (hRate : lowRate octets = some rate) : rate = 0 ∨ lowScale.Holds rate := by
  unfold lowRate at hRate
  rw [lowScale, Scale.holds_append_iff]
  split at hRate
  · split at hRate
    · exact .inl (Option.some.inj hRate).symm
    · exact .inr (.inl (Scale.decode_holds hRate))
  · exact .inr (.inr (Scale.decode_holds hRate))

/- A codeword of an octet comes back from its 8 bits. -/
theorem toNat_codeword (hWidth : codeword < 256) : (BitVec.ofNat 8 codeword).toNat = codeword := by
  rw [BitVec.toNat_ofNat, Nat.mod_eq_of_lt hWidth]

theorem codeword_ne {other : U8} (hWidth : codeword < 256) (hNe : codeword ≠ other.toNat) :
    BitVec.ofNat 8 codeword ≠ other := by
  intro hEq
  rw [← hEq, toNat_codeword hWidth] at hNe
  exact hNe rfl

/- Where the codewords of the two octets lie. -/
theorem baseScale_codes :
    ∀ segment ∈ baseScale, 0 < segment.code ∧ segment.code + segment.count ≤ 254 := by
  decide

theorem extendedScale_codes :
    ∀ segment ∈ extendedScale, 0 < segment.code ∧ segment.code + segment.count ≤ 250 := by
  decide

theorem lowRate_base {segment : Segment} (hMem : segment ∈ baseScale) (hIndex : i ≤ segment.count) :
    lowRate ⟨BitVec.ofNat 8 (segment.code + i), 0, extended2⟩ =
      some (segment.first + i * segment.step) := by
  have hCodes := baseScale_codes segment hMem
  have hWidth : segment.code + i < 256 := by omega
  have hNe : BitVec.ofNat 8 (segment.code + i) ≠ (0xff : U8) := by
    apply codeword_ne hWidth
    have hValue : (0xff : U8).toNat = 255 := rfl
    omega
  rw [lowRate, if_neg hNe, toNat_codeword hWidth]
  exact Scale.decode_index baseScale_coded hMem hIndex

theorem lowRate_extended {segment : Segment} (hMem : segment ∈ extendedScale)
    (hIndex : i ≤ segment.count) :
    lowRate ⟨br, BitVec.ofNat 8 (segment.code + i), extended2⟩ =
      some (segment.first + i * segment.step) := by
  have hCodes := extendedScale_codes segment hMem
  have hWidth : segment.code + i < 256 := by omega
  have hNe : BitVec.ofNat 8 (segment.code + i) ≠ (0 : U8) := by
    apply codeword_ne hWidth
    have hValue : (0 : U8).toNat = 0 := rfl
    omega
  rw [lowRate, if_neg hNe, toNat_codeword hWidth, Nat.min_eq_left (by omega)]
  exact Scale.decode_index extendedScale_coded hMem hIndex

theorem exists_lowRate (hHolds : lowScale.Holds rate) :
    ∃ br extended, lowRate ⟨br, extended, extended2⟩ = some rate := by
  rw [lowScale, Scale.holds_append_iff] at hHolds
  rcases hHolds with ⟨segment, hMem, i, hIndex, rfl⟩ | ⟨segment, hMem, i, hIndex, rfl⟩
  · exact ⟨_, _, lowRate_base hMem hIndex⟩
  · exact ⟨0, _, lowRate_extended hMem hIndex⟩

---- What The Encoders Write ----

variable (octets : RateOctets) (input : Nat)

/- The branches of the base octet, below 8700 kbit/s. -/
def baseFromKbps : Nat × RateOctets :=
  if input < 1 then (1, { octets with br := 0xff })
  else if input ≤ 63 then (1, { octets with br := BitVec.ofNat 8 input })
  else if input ≤ 568 then (1, { octets with br := BitVec.ofNat 8 ((input - 64) / 8 + 0b01000000) })
  else if input < 576 then (1, { octets with br := 0b01111111 })
  else if input ≤ 8640 then
    (1, { octets with br := BitVec.ofNat 8 ((input - 576) / 64 + 0b10000000) })
  else (1, { octets with br := 0b11111110 })

/- The branches of the extended octet, up to 256 Mbit/s. -/
def extendedFromKbps : Nat × RateOctets :=
  if input ≤ 16000 then
    (2, { octets with
      br := 0b11111110
      extended := BitVec.ofNat 8 ((input - 8600) / 100) })
  else if input < 17 * 1000 then
    (2, { octets with
      br := 0b11111110
      extended := 0b01001010 })
  else if input ≤ 128 * 1000 then
    (2, { octets with
      br := 0b11111110
      extended := BitVec.ofNat 8 ((input - 16 * 1000) / (1 * 1000) + 0b01001010) })
  else if input < 130 * 1000 then
    (2, { octets with
      br := 0b11111110
      extended := 0b10111010 })
  else
    (2, { octets with
      br := 0b11111110
      extended := BitVec.ofNat 8 ((input - 128 * 1000) / (2 * 1000) + 0b10111010) })

/-
  The branches that `nas_ambr_from_kbps` and `nas_qos_from_kbps` share: the number of octets in use
  and the octets, for a rate of at most 256 Mbit/s.
-/
def lowFromKbps : Nat × RateOctets :=
  if input < 8700 then baseFromKbps octets input
  else extendedFromKbps octets input

/- The last segment that starts at or below a rate. -/
def lowSegment (input : Nat) : Segment :=
  if input < 64 then by1Kbps
  else if input < 576 then by8Kbps
  else if input < 8700 then by64Kbps
  else if input < 17000 then by100Kbps
  else if input < 130000 then by1Mbps
  else by2Mbps

variable {input : Nat}

theorem lowSegment_started (hPositive : 1 ≤ input) : lowScale.Started (lowSegment input) input := by
  unfold lowSegment lowScale baseScale extendedScale
  split_ifs <;> refine ⟨by simp, ?_, ?_⟩ <;> simp [last, by1Kbps, by8Kbps, by64Kbps,
    by100Kbps, by1Mbps, by2Mbps] <;> omega

/-
  What the branches come to: the rounded codeword of the last segment that has started, in the octet
  of its scale.
-/
theorem baseFromKbps_eq (hPositive : 1 ≤ input) (hUpper : input < 8700) :
    baseFromKbps .zero input = (1, ⟨BitVec.ofNat 8 ((lowSegment input).encode input), 0, 0⟩) := by
  have hOctet : ∀ other : Nat, other = (lowSegment input).encode input →
      ((1, ⟨BitVec.ofNat 8 other, 0, 0⟩) : Nat × RateOctets) =
        (1, ⟨BitVec.ofNat 8 ((lowSegment input).encode input), 0, 0⟩) := by
    intro other hOther
    rw [hOther]
  unfold baseFromKbps
  split_ifs
  · omega
  all_goals
    -- a branch writes the codeword of its segment
    apply hOctet
    unfold lowSegment
    split_ifs <;> simp only [encode, index, by1Kbps, by8Kbps, by64Kbps] <;> omega

theorem extendedFromKbps_eq (hLower : 8700 ≤ input) (hUpper : input ≤ 256000) :
    extendedFromKbps .zero input = (2, ⟨0b11111110,
        BitVec.ofNat 8 ((lowSegment input).encode input), 0⟩) := by
  have hOctet : ∀ other : Nat, other = (lowSegment input).encode input →
      ((2, ⟨0b11111110, BitVec.ofNat 8 other, 0⟩) : Nat × RateOctets) = (2, ⟨0b11111110,
          BitVec.ofNat 8 ((lowSegment input).encode input), 0⟩) := by
    intro other hOther
    rw [hOther]
  unfold extendedFromKbps
  split_ifs
  all_goals
    apply hOctet
    unfold lowSegment
    split_ifs <;> simp only [encode, index, by100Kbps, by1Mbps, by2Mbps] <;> omega

theorem lowSegment_mem_base (hUpper : input < 8700) : lowSegment input ∈ baseScale := by
  unfold lowSegment
  split_ifs <;> simp [baseScale]

theorem lowSegment_mem_extended (hLower : 8700 ≤ input) : lowSegment input ∈ extendedScale := by
  unfold lowSegment
  split_ifs
  any_goals omega
  all_goals simp [extendedScale]

/-
  The octets of the shared branches denote the rounded rate, and the octets behind the length are
  zero.
-/
theorem lowFromKbps_spec (hPositive : 1 ≤ input) (hUpper : input ≤ 256000) :
    ∃ length octets, lowFromKbps .zero input = (length, octets) ∧
      lowRate octets = some ((lowSegment input).floor input) ∧ octets.extended2 = 0 ∧
      (length = 1 ∧ octets.extended = 0 ∨ length = 2) := by
  have hIndex := (lowSegment input).index_le input
  by_cases hBase : input < 8700
  · exact ⟨_, _, (if_pos hBase).trans (baseFromKbps_eq hPositive hBase),
    lowRate_base (lowSegment_mem_base hBase) hIndex, rfl, .inl ⟨rfl, rfl⟩⟩
  · have hLower : 8700 ≤ input := Nat.le_of_not_lt hBase
    exact ⟨_, _, (if_neg hBase).trans (extendedFromKbps_eq hLower hUpper),
      lowRate_extended (lowSegment_mem_extended hLower) hIndex, rfl, .inr rfl⟩

end Pretty5gs.Nas
