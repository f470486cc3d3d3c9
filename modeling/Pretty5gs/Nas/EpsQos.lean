import Pretty5gs.Nas.RateOctets

/-
  The bit rates of the EPS quality of service.

  Every rate from 1 kbit/s on is written as the largest rate that the three octets can denote,
  capped at 10 Gbit/s.

  Main results: `qosRate_holds` and `exists_qosRate`, `nasQosFromKbps_spec`, `eps_qos_rate_largest`.
-/

---- What The Octets Denote ----

namespace Pretty5gs.Nas

open Library Segment

/- 260 Mbit/s to 500 Mbit/s -/
def by4Mbps : Segment where
  code := 0b00000001
  first := 260000
  step := 4000
  count := 60

/- 510 Mbit/s to 1500 Mbit/s -/
def by10Mbps : Segment where
  code := 0b00111110
  first := 510000
  step := 10000
  count := 99

/- 1600 Mbit/s to 10 Gbit/s -/
def by100Mbps : Segment where
  code := 0b10100010
  first := 1600000
  step := 100000
  count := 84

def qosExtended2Scale : Scale := [by4Mbps, by10Mbps, by100Mbps]

def qosScale : Scale := lowScale ++ qosExtended2Scale

/- The rate of the three octets in kbit/s. -/
def qosRate (octets : RateOctets) : Option Nat :=
  if octets.extended2 = 0 then lowRate octets
  else qosExtended2Scale.decode octets.extended2.toNat

theorem qosScale_ascending : qosScale.Ascending := by decide

theorem qosExtended2Scale_coded : qosExtended2Scale.Coded := by decide

theorem qosExtended2Scale_codes :
    ∀ segment ∈ qosExtended2Scale, 0 < segment.code ∧ segment.code + segment.count ≤ 246 := by
  decide

theorem qosExtended2Scale_first : ∀ segment ∈ qosExtended2Scale, 260000 ≤ segment.first := by decide

variable {rate : Nat}

theorem qosRate_holds (hRate : qosRate octets = some rate) : rate = 0 ∨ qosScale.Holds rate := by
  unfold qosRate at hRate
  rw [qosScale, Scale.holds_append_iff]
  split at hRate
  · exact (lowRate_holds hRate).imp_right .inl
  · exact .inr (.inr (Scale.decode_holds hRate))

theorem qosRate_extended2 {segment : Segment} (hMem : segment ∈ qosExtended2Scale)
    (hIndex : i ≤ segment.count) (br extended : U8) :
    qosRate ⟨br, extended, BitVec.ofNat 8 (segment.code + i)⟩ =
      some (segment.first + i * segment.step) := by
  have hCodes := qosExtended2Scale_codes segment hMem
  have hWidth : segment.code + i < 256 := by omega
  have hNe : BitVec.ofNat 8 (segment.code + i) ≠ (0 : U8) := by
    apply codeword_ne hWidth
    have hValue : (0 : U8).toNat = 0 := rfl
    omega
  rw [qosRate, if_neg hNe, toNat_codeword hWidth]
  exact Scale.decode_index qosExtended2Scale_coded hMem hIndex

theorem exists_qosRate (hHolds : qosScale.Holds rate) : ∃ octets, qosRate octets = some rate := by
  rw [qosScale, Scale.holds_append_iff] at hHolds
  rcases hHolds with hLow | ⟨segment, hMem, i, hIndex, rfl⟩
  · rcases exists_lowRate hLow with ⟨br, extended, hRate⟩
    exact ⟨⟨br, extended, 0⟩, (if_pos rfl).trans hRate⟩
  · exact ⟨_, qosRate_extended2 hMem hIndex 0 0⟩

---- What The Encoder Writes ----

/- The branches of the second extended octet. -/
def extended2FromKbps (octets : RateOctets) (input : Nat) : Nat × RateOctets :=
  if input ≤ 500 * 1000 then
    (3, { octets with
      br := 0b11111110
      extended := 0b11111010
      extended2 := BitVec.ofNat 8 ((input - 256 * 1000) / (4 * 1000)) })
  else if input < 510 * 1000 then
    (3, { octets with
      br := 0b11111110
      extended := 0b11111010
      extended2 := 0b00111101 })
  else if input ≤ 1500 * 1000 then
    (3, { octets with
      br := 0b11111110
      extended := 0b11111010
      extended2 := BitVec.ofNat 8 ((input - 500 * 1000) / (10 * 1000) + 0b00111101) })
  else if input < 1600 * 1000 then
    (3, { octets with
      br := 0b11111110
      extended := 0b11111010
      extended2 := 0b10100001 })
  else if input ≤ 10 * 1000 * 1000 then
    (3, { octets with
      br := 0b11111110
      extended := 0b11111010
      extended2 := BitVec.ofNat 8 ((input - 1500 * 1000) / (100 * 1000) + 0b10100001) })
  else
    (3, { octets with
      br := 0b11111110
      extended := 0b11111010
      extended2 := 0b11110110 })

/- `nas_qos_from_kbps`: the octets in use, and the octets. -/
def nasQosFromKbps (octets : RateOctets) (input : Nat) : Nat × RateOctets :=
  if input ≤ 256 * 1000 then lowFromKbps octets input
  else if input < 260 * 1000 then
    (2, { octets with
      br := 0b11111110
      extended := 0b11111010 })
  else extended2FromKbps octets input

/- The last segment that starts at or below a rate. -/
def qosSegment (input : Nat) : Segment :=
  if input < 260000 then lowSegment input
  else if input < 510000 then by4Mbps
  else if input < 1600000 then by10Mbps
  else by100Mbps

variable {input : Nat}

theorem qosSegment_started (hPositive : 1 ≤ input) : qosScale.Started (qosSegment input) input := by
  by_cases hLow : input < 260000
  · rw [qosSegment, if_pos hLow]
    apply (lowSegment_started hPositive).append
    intro other hOther
    have hFirst := qosExtended2Scale_first other hOther
    omega
  · rw [qosSegment]
    unfold qosScale lowScale baseScale extendedScale qosExtended2Scale
    split_ifs <;> refine ⟨by simp, ?_, ?_⟩ <;> simp [last, by1Kbps, by8Kbps, by64Kbps,
      by100Kbps, by1Mbps, by2Mbps, by4Mbps, by10Mbps, by100Mbps] <;> omega

theorem qosSegment_mem_extended2 (hLower : 260000 ≤ input) :
    qosSegment input ∈ qosExtended2Scale := by
  unfold qosSegment
  rw [if_neg (show ¬ input < 260000 by omega)]
  split_ifs <;> simp [qosExtended2Scale]

theorem extended2FromKbps_eq (hLower : 260000 ≤ input) :
    extended2FromKbps .zero input = (3, ⟨0b11111110, 0b11111010,
        BitVec.ofNat 8 ((qosSegment input).encode input)⟩) := by
  have hOctet : ∀ other : Nat, other = (qosSegment input).encode input →
      ((3, ⟨0b11111110, 0b11111010, BitVec.ofNat 8 other⟩) : Nat × RateOctets) =
        (3, ⟨0b11111110, 0b11111010, BitVec.ofNat 8 ((qosSegment input).encode input)⟩) := by
    intro other hOther
    rw [hOther]
  unfold extended2FromKbps
  split_ifs
  all_goals
    apply hOctet
    unfold qosSegment
    split_ifs <;> simp only [encode, index, by4Mbps, by10Mbps, by100Mbps] <;> omega

/- The octets of a rate denote the rounded rate, and those behind the length are zero. -/
theorem nasQosFromKbps_spec (hPositive : 1 ≤ input) :
    ∃ length octets, nasQosFromKbps .zero input = (length, octets) ∧
      qosRate octets = some ((qosSegment input).floor input) ∧ 1 ≤ length ∧ length ≤ 3 ∧
      (length < 3 → octets.extended2 = 0) ∧ (length < 2 → octets.extended = 0) := by
  by_cases hLow : input ≤ 256 * 1000
  · rcases lowFromKbps_spec hPositive hLow with ⟨length, octets, hOctets, hRate, hZero, hLength⟩
    have hSegment : qosSegment input = lowSegment input := if_pos (show input < 260000 by omega)
    refine ⟨length, octets, (if_pos hLow).trans hOctets, ?_, by omega, by omega, fun _ => hZero, ?_⟩
    · rw [qosRate, if_pos hZero, hRate, hSegment]
    · intro hShort
      rcases hLength with ⟨_, hExtended⟩ | hTwo
      · exact hExtended
      · omega
  by_cases hGap : input < 260 * 1000
  · have hSegment : qosSegment input = by2Mbps := by
      rw [qosSegment, if_pos (show input < 260000 by omega), lowSegment]
      repeat rw [if_neg (by omega)]
    refine ⟨2, ⟨0b11111110, 0b11111010, 0⟩, ?_, ?_, by omega, by omega, fun _ => rfl, by omega⟩
    · rw [nasQosFromKbps, if_neg hLow, if_pos hGap]
      rfl
    · have hFloor : by2Mbps.floor input = 256000 := by
        simp only [floor, index, by2Mbps]
        omega
      rw [hSegment, hFloor]
      decide
  · have hMem := qosSegment_mem_extended2 (show 260000 ≤ input by omega)
    refine ⟨3, _, ?_, qosRate_extended2 hMem ((qosSegment input).index_le input)
        0b11111110 0b11111010, by omega, by omega, by omega, by omega⟩
    rw [nasQosFromKbps, if_neg hLow, if_neg hGap]
    exact extended2FromKbps_eq (by omega)

---- The Information Element ----

/- The four rates of the element. -/
inductive QosField where
  | dlMbr
  | ulMbr
  | dlGbr
  | ulGbr
deriving DecidableEq, Repr

/- `ogs_nas_eps_quality_of_service_t` -/
structure EpsQos where
  length : Nat
  qci : U8
  dlMbr : RateOctets
  ulMbr : RateOctets
  dlGbr : RateOctets
  ulGbr : RateOctets
deriving DecidableEq, Repr

/- The arguments of the builder, in bit/s. -/
structure QosRates where
  dlMbr : BitVec 64
  ulMbr : BitVec 64
  dlGbr : BitVec 64
  ulGbr : BitVec 64
deriving DecidableEq, Repr

def QosRates.get (rates : QosRates) : QosField → BitVec 64
  | .dlMbr => rates.dlMbr
  | .ulMbr => rates.ulMbr
  | .dlGbr => rates.dlGbr
  | .ulGbr => rates.ulGbr

def EpsQos.get (qos : EpsQos) : QosField → RateOctets
  | .dlMbr => qos.dlMbr
  | .ulMbr => qos.ulMbr
  | .dlGbr => qos.dlGbr
  | .ulGbr => qos.ulGbr

/- One rate in kbit/s behind those that took `length` octets. -/
def addRate (length kbps : Nat) : Nat × RateOctets :=
  if kbps ≠ 0 then
    let written := nasQosFromKbps .zero kbps
    (max length written.1, written.2)
  else (length, .zero)

/- `eps_qos_build` -/
def epsQosBuild (qci : U8) (rates : QosRates) : EpsQos :=
  let dlMbr := addRate 0 (rates.dlMbr.toNat / 1000)
  let ulMbr := addRate dlMbr.1 (rates.ulMbr.toNat / 1000)
  let dlGbr := addRate ulMbr.1 (rates.dlGbr.toNat / 1000)
  let ulGbr := addRate dlGbr.1 (rates.ulGbr.toNat / 1000)
  { length := ulGbr.1 * 4 + 1
    qci := qci
    dlMbr := dlMbr.2
    ulMbr := ulMbr.2
    dlGbr := dlGbr.2
    ulGbr := ulGbr.2 }

/-
  The rate of a field in kbit/s as a receiver takes it from the octets that the length covers: one
  to three times four octets behind the QCI.
-/
def EpsQos.sentRate (qos : EpsQos) (field : QosField) : Option Nat :=
  let octets := qos.get field
  if qos.length < 5 then none
  else
    qosRate {
      br := octets.br
      extended := if qos.length < 9 then 0 else octets.extended
      extended2 := if qos.length < 13 then 0 else octets.extended2
    }

theorem le_addRate (length kbps : Nat) : length ≤ (addRate length kbps).1 := by
  unfold addRate
  split
  · exact Nat.le_max_left _ _
  · exact Nat.le_refl _

/- A rate is denoted in every element that is long enough. -/
theorem sentRate_addRate {qos : EpsQos} (hPositive : 1 ≤ kbps)
    (hOctets : qos.get field = (addRate length kbps).2) (hTotal : qos.length = total * 4 + 1)
    (hLength : (addRate length kbps).1 ≤ total) :
    qos.sentRate field = some ((qosSegment kbps).floor kbps) := by
  rcases nasQosFromKbps_spec hPositive with
    ⟨own, octets, hWritten, hRate, hOwn, hMost, hThree, hTwo⟩
  have hNonzero : kbps ≠ 0 := by omega
  have hAdd : addRate length kbps = (max length own, octets) := by
    rw [addRate, if_pos hNonzero, hWritten]
  rw [hAdd] at hOctets hLength
  have hExtended : (if qos.length < 9 then 0 else octets.extended) = octets.extended := by
    split
    · exact (hTwo (by omega)).symm
    · rfl
  have hExtended2 : (if qos.length < 13 then 0 else octets.extended2) = octets.extended2 := by
    split
    · exact (hThree (by omega)).symm
    · rfl
  rw [EpsQos.sentRate, if_neg (by omega), hOctets]
  simp only [hExtended, hExtended2]
  exact hRate

theorem epsQosBuild_sentRate (hPositive : 1 ≤ (rates.get field).toNat / 1000) :
    (epsQosBuild qci rates).sentRate field =
      some ((qosSegment ((rates.get field).toNat / 1000)).floor
        ((rates.get field).toNat / 1000)) := by
  have hUlMbr := le_addRate (addRate 0 (rates.dlMbr.toNat / 1000)).1 (rates.ulMbr.toNat / 1000)
  have hDlGbr := le_addRate (addRate (addRate 0 (rates.dlMbr.toNat / 1000)).1
    (rates.ulMbr.toNat / 1000)).1 (rates.dlGbr.toNat / 1000)
  have hUlGbr := le_addRate (addRate (addRate (addRate 0 (rates.dlMbr.toNat / 1000)).1
    (rates.ulMbr.toNat / 1000)).1 (rates.dlGbr.toNat / 1000)).1 (rates.ulGbr.toNat / 1000)
  cases field with
  | dlMbr => exact sentRate_addRate hPositive rfl rfl (hUlMbr.trans (hDlGbr.trans hUlGbr))
  | ulMbr => exact sentRate_addRate hPositive rfl rfl (hDlGbr.trans hUlGbr)
  | dlGbr => exact sentRate_addRate hPositive rfl rfl hUlGbr
  | ulGbr => exact sentRate_addRate hPositive rfl rfl (Nat.le_refl _)

---- The Largest Rate ----

/- The rates that the octets can denote, in bit/s. -/
def QosRepresentable (rate : Nat) : Prop :=
  ∃ octets kbps, qosRate octets = some kbps ∧ rate = kbps * 1000

/- The cap of the coding: 10 Gbit/s. -/
def qosCap : Nat := 10000000000

theorem le_cap_of_holds (hHolds : qosScale.Holds kbps) : kbps ≤ 10000000 := by
  have hLast : ∀ segment ∈ qosScale, segment.last ≤ 10000000 := by decide
  rcases hHolds with ⟨segment, hMem, hSegment⟩
  exact (le_last_of_holds hSegment).trans (hLast segment hMem)

theorem qosSegment_isGreatest (hPositive : 1 ≤ rate / 1000) :
    IsGreatest {other | QosRepresentable other ∧ other ≤ min rate qosCap}
      ((qosSegment (rate / 1000)).floor (rate / 1000) * 1000) := by
  have hGreatest := Scale.Started.isGreatest qosScale_ascending (qosSegment_started hPositive)
  rcases hGreatest with ⟨⟨hHolds, hLe⟩, hUpper⟩
  refine ⟨⟨?_, ?_⟩, ?_⟩
  · rcases exists_qosRate hHolds with ⟨octets, hRate⟩
    exact ⟨octets, _, hRate, rfl⟩
  · have hCap := le_cap_of_holds hHolds
    unfold qosCap
    omega
  · rintro other ⟨⟨octets, kbps, hRate, rfl⟩, hOther⟩
    have hKbps : kbps ≤ rate / 1000 := by omega
    rcases qosRate_holds hRate with hZero | hScale
    · omega
    · have hBelow := hUpper ⟨hScale, hKbps⟩
      omega

theorem representable_le_cap (hRate : QosRepresentable rate) : rate ≤ qosCap := by
  rcases hRate with ⟨octets, kbps, hOctets, rfl⟩
  unfold qosCap
  rcases qosRate_holds hOctets with hZero | hScale
  · omega
  · have hCap := le_cap_of_holds hScale
    omega

/- What the element denotes for a field, in bit/s. -/
def EpsQos.Denotes (qos : EpsQos) (field : QosField) (rate : Nat) : Prop :=
  ∃ kbps, qos.sentRate field = some kbps ∧ rate = kbps * 1000

/-
  A rate of at least 1 kbit/s is sent as the largest one that can be, a higher one is never sent
  lower, and a rate that can be sent is sent as it is.
-/
theorem eps_qos_rate_largest (qci : U8) (rates : QosRates) (field : QosField)
    (hPositive : 1000 ≤ (rates.get field).toNat) : ∃ sent,
      (epsQosBuild qci rates).Denotes field sent ∧ IsGreatest
        {other | QosRepresentable other ∧
          other ≤ min (rates.get field).toNat qosCap} sent ∧
      (QosRepresentable (rates.get field).toNat → sent = (rates.get field).toNat) ∧
      ∀ qci' rates' field' sent', (rates.get field).toNat ≤ (rates'.get field').toNat →
        (epsQosBuild qci' rates').Denotes field' sent' → sent ≤ sent' := by
  have hKbps : 1 ≤ (rates.get field).toNat / 1000 := by omega
  have hGreatest := qosSegment_isGreatest hKbps
  refine ⟨_, ⟨_, epsQosBuild_sentRate hKbps, rfl⟩, hGreatest, ?_, ?_⟩
  · intro hRepresentable
    apply Nat.le_antisymm
    · exact hGreatest.1.2.trans (Nat.min_le_left _ _)
    · exact hGreatest.2 ⟨hRepresentable, Nat.le_min.mpr
      ⟨Nat.le_refl _, representable_le_cap hRepresentable⟩⟩
  · rintro qci' rates' field' sent' hLe ⟨kbps, hSent, rfl⟩
    have hKbps' : 1 ≤ (rates'.get field').toNat / 1000 := by omega
    rw [epsQosBuild_sentRate hKbps'] at hSent
    cases hSent
    apply (qosSegment_isGreatest hKbps').2
    refine ⟨hGreatest.1.1, ?_⟩
    have hOwn := hGreatest.1.2
    omega

theorem eps_qos_rate_largest_five_hundred_mbps : ∃ sent,
      (epsQosBuild 5 ⟨505999999, 0, 0, 0⟩).Denotes .dlMbr sent ∧ IsGreatest
        {other | QosRepresentable other ∧
          other ≤ min 505999999 qosCap} sent := by
  rcases eps_qos_rate_largest 5 ⟨505999999, 0, 0, 0⟩ .dlMbr (by decide) with
    ⟨sent, hDenotes, hGreatest, _⟩
  exact ⟨sent, hDenotes, hGreatest⟩

end Pretty5gs.Nas
