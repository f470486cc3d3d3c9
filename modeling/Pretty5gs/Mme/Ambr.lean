import Mathlib
import Pretty5gs.Core.Types

/-
  The aggregate maximum bit rate of a UE towards the eNB.

  The test for a rate that is provisioned takes 32 bits of the 64, and a direction without a rate is
  filled in with the other one after the configured limits are applied.

  Main results: `ueAmbrForS1ap_limited`, `ueAmbrForS1ap_unlimited`, `ue_ambr_within_limits_iff`.
-/

---- Rates And Limits ----

namespace Pretty5gs.Mme

open BitVec Bool

/- `ogs_bitrate_t` -/
structure Bitrate where
  downlink : BitVec 64
  uplink : BitVec 64
deriving DecidableEq, Repr

/- `ambr_limit` of the configuration. -/
structure AmbrLimit where
  enabled : Bool
  force : Bool
  downlinkBps : U32
  uplinkBps : U32
deriving DecidableEq, Repr

/- The UE-AMBR, and the AMBR of each session that has one. -/
structure AmbrUe where
  ambr : Bitrate
  sessions : List (Option Bitrate)
deriving DecidableEq, Repr

def Bitrate.zero : Bitrate where
  downlink := 0
  uplink := 0

/- A rate in either direction, as the callers test it. -/
def Bitrate.given (ambr : Bitrate) : Bool := ambr.downlink != 0 || ambr.uplink != 0

/- `mme_ambr_bps_meaningful`, on the 32 bits of its parameter. -/
def bpsMeaningful (bps : U32) : Bool := bps != 0

/- `mme_ambr_sanitize_bitrate` -/
def sanitizeBitrate (ambr : Bitrate) : Bitrate where
  downlink :=
    if bpsMeaningful (ambr.downlink.setWidth 32) then ambr.downlink
    else 0
  uplink :=
    if bpsMeaningful (ambr.uplink.setWidth 32) then ambr.uplink
    else 0

/- `mme_ambr_complete_directions` -/
def completeDirections (ambr : Bitrate) : Bitrate :=
  let ambr := sanitizeBitrate ambr
  let downlink := bpsMeaningful (ambr.downlink.setWidth 32)
  let uplink := bpsMeaningful (ambr.uplink.setWidth 32)
  sanitizeBitrate (if uplink && !downlink then { ambr with downlink := ambr.uplink }
    else if downlink && !uplink then { ambr with uplink := ambr.downlink }
    else ambr)

/- `mme_ambr_apply_config` -/
def applyConfig (limit : AmbrLimit) (ambr : Bitrate) : Bitrate :=
  let ambr := sanitizeBitrate ambr
  let dlCap := limit.downlinkBps.setWidth 64
  let ulCap := limit.uplinkBps.setWidth 64
  if !limit.enabled then ambr
  else if limit.force then
    { downlink := dlCap
      uplink := ulCap }
  else
    { downlink :=
        if ambr.downlink > dlCap then dlCap else ambr.downlink
      uplink := if ambr.uplink > ulCap then ulCap else ambr.uplink }

/- `mme_sess_ambr_for_pdn` for a UE that is not NULL. -/
def sessAmbrForPdn (ue : AmbrUe) (session : Bitrate) : Bitrate :=
  if (sanitizeBitrate session).given then sanitizeBitrate session
  else if (sanitizeBitrate ue.ambr).given then sanitizeBitrate ue.ambr
  else Bitrate.zero

/- One round of the loop over the sessions. -/
def addSession (ue : AmbrUe) (sum : Bitrate) (session : Option Bitrate) : Bitrate :=
  session.elim sum (fun session =>
    let pdnAmbr := sanitizeBitrate (sessAmbrForPdn ue session)
    { downlink := sum.downlink + pdnAmbr.downlink
      uplink := sum.uplink + pdnAmbr.uplink })

/- The sum that the loop leaves. -/
def sessionSum (ue : AmbrUe) : Bitrate := ue.sessions.foldl (addSession ue) Bitrate.zero

/- A rate with the limits and then both directions. -/
def configured (limit : AmbrLimit) (ambr : Bitrate) : Bitrate :=
  completeDirections (applyConfig limit ambr)

/- What is returned when no rate is found. -/
def unprovisionedAmbr (limit : AmbrLimit) : Bitrate :=
  let ambr := configured limit Bitrate.zero
  if !ambr.given && limit.enabled then
    { downlink := limit.downlinkBps.setWidth 64
      uplink := limit.uplinkBps.setWidth 64 }
  else ambr

/- `mme_ue_ambr_for_s1ap` -/
def ueAmbrForS1ap (limit : AmbrLimit) (ue : AmbrUe) : Bitrate :=
  let own := configured limit (sanitizeBitrate ue.ambr)
  let summed := configured limit (sessionSum ue)
  if (sanitizeBitrate ue.ambr).given && own.given then own
  else if (sessionSum ue).given && summed.given then summed
  else unprovisionedAmbr limit

---- Rates As Numbers ----

/- The rate as far as the 32-bit test lets it through. -/
def usable (rate : Nat) : Nat := if rate % 2 ^ 32 = 0 then 0 else rate

theorem usable_eq_zero_iff : usable rate = 0 ↔ rate % 2 ^ 32 = 0 := by
  unfold usable
  split <;> omega

theorem bpsMeaningful_eq {rate : BitVec 64} :
    bpsMeaningful (rate.setWidth 32) = (usable rate.toNat != 0) := by
  unfold bpsMeaningful
  rw [Bool.eq_iff_iff, bne_iff_ne, bne_iff_ne, ne_eq, ne_eq, usable_eq_zero_iff, ← toNat_inj]
  rfl

theorem usable_of_lt (hSmall : rate < 2 ^ 32) : usable rate = rate := by
  unfold usable
  split <;> omega

@[simp] theorem usable_usable : usable (usable rate) = usable rate := by
  by_cases hZero : rate % 2 ^ 32 = 0
  · have hNone : usable rate = 0 := if_pos hZero
    rw [hNone]
    rfl
  · simp only [usable, if_neg hZero]

/- Both directions of a rate. -/
def Bitrate.rates (ambr : Bitrate) : Nat × Nat := (ambr.downlink.toNat, ambr.uplink.toNat)

def Bitrate.usableRates (ambr : Bitrate) : Nat × Nat :=
  (usable ambr.downlink.toNat, usable ambr.uplink.toNat)

theorem rates_injective : Function.Injective Bitrate.rates := by
  rintro ⟨downlink, uplink⟩ ⟨downlink', uplink'⟩ hRates
  rcases Prod.ext_iff.mp hRates with ⟨hDl, hUl⟩
  cases eq_of_toNat_eq hDl
  cases eq_of_toNat_eq hUl
  rfl

/- One direction of `mme_ambr_sanitize_bitrate`. -/
theorem toNat_sanitized {rate : BitVec 64} : (if bpsMeaningful (rate.setWidth 32) = true then rate
      else 0).toNat = usable rate.toNat := by
  rw [bpsMeaningful_eq]
  by_cases hZero : usable rate.toNat = 0
  · simp [hZero]
  · have hRate : usable rate.toNat = rate.toNat := if_neg (usable_eq_zero_iff.not.mp hZero)
    rw [if_pos (bne_iff_ne.mpr hZero), hRate]

theorem rates_sanitizeBitrate : (sanitizeBitrate ambr).rates = ambr.usableRates :=
  Prod.ext toNat_sanitized toNat_sanitized

theorem usableRates_sanitizeBitrate : (sanitizeBitrate ambr).usableRates = ambr.usableRates := by
  refine Prod.ext ?_ ?_
  · exact (congrArg usable toNat_sanitized).trans usable_usable
  · exact (congrArg usable toNat_sanitized).trans usable_usable

theorem given_iff {ambr : Bitrate} : ambr.given = true ↔ ambr.rates ≠ (0, 0) := by
  have hZero := rates_injective.ne_iff (x := ambr) (y := ⟨0, 0⟩)
  refine Iff.trans ?_ hZero.symm
  rcases ambr with ⟨downlink, uplink⟩
  simp [Bitrate.given, imp_iff_not_or]

/- A direction without a rate takes that of the other. -/
def fill (rate other : Nat) : Nat := if rate = 0 then other else rate

def filled (rates : Nat × Nat) : Nat × Nat := (fill rates.1 rates.2, fill rates.2 rates.1)

theorem filled_eq_zero_iff : filled rates = (0, 0) ↔ rates = (0, 0) := by
  rw [Prod.ext_iff, Prod.ext_iff]
  unfold filled fill
  split <;> split <;> omega

theorem rates_completeDirections : (completeDirections ambr).rates = filled ambr.usableRates := by
  unfold completeDirections
  rw [rates_sanitizeBitrate, ← @usableRates_sanitizeBitrate ambr]
  generalize sanitizeBitrate ambr = sane
  simp only [bpsMeaningful_eq, Bitrate.usableRates, filled, fill]
  by_cases hDl : usable sane.downlink.toNat = 0
  · by_cases hUl : usable sane.uplink.toNat = 0
    · simp [hDl, hUl]
    · simp [hDl, hUl]
  · by_cases hUl : usable sane.uplink.toNat = 0
    · simp [hDl, hUl]
    · simp [hDl, hUl]

---- With Limits ----

/- A rate under a cap, or the cap itself when it is forced. -/
def AmbrLimit.capped (limit : AmbrLimit) (cap : U32) (rate : BitVec 64) : Nat :=
  if limit.force then cap.toNat
  else min (usable rate.toNat) cap.toNat

open AmbrLimit

theorem AmbrLimit.capped_le (limit : AmbrLimit) (cap : U32) (rate : BitVec 64) :
    limit.capped cap rate ≤ cap.toNat := by
  unfold capped
  split
  · exact Nat.le_refl _
  · exact Nat.min_le_right _ _

theorem toNat_cap (cap : U32) : (cap.setWidth 64 : BitVec 64).toNat = cap.toNat := by
  rw [toNat_setWidth, Nat.mod_eq_of_lt (by omega)]

/- The limited rate of a sanitized rate. -/
theorem toNat_limited {cap : U32} {rate : BitVec 64} :
    (if rate > cap.setWidth 64 then cap.setWidth 64
      else rate).toNat = min rate.toNat cap.toNat := by
  have hCap := toNat_cap cap
  split
  · rename_i hAbove
    have hLt : (cap.setWidth 64 : BitVec 64).toNat < rate.toNat := hAbove
    omega
  · rename_i hBelow
    have hLe : rate.toNat ≤ (cap.setWidth 64 : BitVec 64).toNat := Nat.le_of_not_lt hBelow
    omega

variable (limit : AmbrLimit)

/- Both directions under their caps. -/
def AmbrLimit.cappedRates (ambr : Bitrate) : Nat × Nat :=
  (limit.capped limit.downlinkBps ambr.downlink, limit.capped limit.uplinkBps ambr.uplink)

theorem rates_applyConfig (hEnabled : limit.enabled = true) :
    (applyConfig limit ambr).rates = limit.cappedRates ambr := by
  unfold applyConfig cappedRates capped
  simp only [hEnabled, Bool.not_true, false_eq_true, if_false]
  by_cases hForce : limit.force = true
  · simp only [hForce, if_true]
    exact Prod.ext (toNat_cap limit.downlinkBps) (toNat_cap limit.uplinkBps)
  · rw [if_neg hForce, if_neg hForce, if_neg hForce, Bitrate.rates]
    rcases Prod.ext_iff.mp (@rates_sanitizeBitrate ambr) with ⟨hDl, hUl⟩
    simp only [Bitrate.rates, Bitrate.usableRates] at hDl hUl
    simp only [toNat_limited, hDl, hUl]

theorem rates_configured (hEnabled : limit.enabled = true) :
    (configured limit ambr).rates = filled (limit.cappedRates ambr) := by
  have hDlCap := limit.capped_le limit.downlinkBps ambr.downlink
  have hUlCap := limit.capped_le limit.uplinkBps ambr.uplink
  rcases Prod.ext_iff.mp (@rates_applyConfig limit ambr hEnabled) with ⟨hDl, hUl⟩
  have hUsable : (applyConfig limit ambr).usableRates = limit.cappedRates ambr := by
    refine Prod.ext ?_ ?_
    · exact (congrArg usable hDl).trans (usable_of_lt (by simp only [cappedRates]; omega))
    · exact (congrArg usable hUl).trans (usable_of_lt (by simp only [cappedRates]; omega))
  exact rates_completeDirections.trans (congrArg filled hUsable)

/- Filling in a direction keeps to the caps. -/
def FillsWithin (ambr : Bitrate) : Prop :=
  (limit.capped limit.downlinkBps ambr.downlink = 0 → limit.capped limit.uplinkBps ambr.uplink ≤
      limit.downlinkBps.toNat) ∧
    (limit.capped limit.uplinkBps ambr.uplink = 0 → limit.capped limit.downlinkBps ambr.downlink ≤
        limit.uplinkBps.toNat)

/- No rate is left of a UE-AMBR or a sum of sessions. -/
def NothingLeft (ambr : Bitrate) : Prop :=
  limit.capped limit.downlinkBps ambr.downlink = 0 ∧ limit.capped limit.uplinkBps ambr.uplink = 0

/- A rate is given when one of its directions is. -/
theorem configured_given (hEnabled : limit.enabled = true) :
    (configured limit ambr).given = true ↔ ¬ NothingLeft limit ambr := by
  rw [given_iff, rates_configured limit hEnabled, ne_eq, filled_eq_zero_iff, Prod.ext_iff]
  rfl

theorem fillsWithin_iff (hEnabled : limit.enabled = true) :
    ((configured limit ambr).downlink.toNat ≤ limit.downlinkBps.toNat ∧
        (configured limit ambr).uplink.toNat ≤ limit.uplinkBps.toNat) ↔ FillsWithin limit ambr := by
  have hDlCap := limit.capped_le limit.downlinkBps ambr.downlink
  have hUlCap := limit.capped_le limit.uplinkBps ambr.uplink
  rcases Prod.ext_iff.mp (@rates_configured limit ambr hEnabled) with ⟨hDl, hUl⟩
  simp only [Bitrate.rates, filled, cappedRates] at hDl hUl
  rw [hDl, hUl]
  unfold FillsWithin fill
  split <;> split <;> omega

/- The caps themselves. -/
def AmbrLimit.caps : Bitrate where
  downlink := limit.downlinkBps.setWidth 64
  uplink := limit.uplinkBps.setWidth 64

theorem cappedRates_sanitizeBitrate :
    limit.cappedRates (sanitizeBitrate ambr) = limit.cappedRates ambr := by
  unfold cappedRates capped
  rcases Prod.ext_iff.mp (@usableRates_sanitizeBitrate ambr) with ⟨hDl, hUl⟩
  simp only [Bitrate.usableRates] at hDl hUl
  rw [hDl, hUl]

/- A rate that is left under the caps was given. -/
theorem given_of_left (hForce : ¬ limit.force = true) (hLeft : ¬ NothingLeft limit ambr) :
    (sanitizeBitrate ambr).given = true ∧ ambr.given = true := by
  unfold NothingLeft capped at hLeft
  rw [given_iff, given_iff, rates_sanitizeBitrate]
  refine ⟨fun hNone => hLeft ?_, fun hNone => hLeft ?_⟩
  · rcases Prod.ext_iff.mp hNone with ⟨hDl, hUl⟩
    simp_all [Bitrate.usableRates]
  · rcases Prod.ext_iff.mp hNone with ⟨hDl, hUl⟩
    simp_all [Bitrate.rates, usable]

/-
  With limits, the first of the UE-AMBR and the sum of the sessions of which something is left, or
  the caps.
-/
theorem ueAmbrForS1ap_limited (hEnabled : limit.enabled = true) :
    (¬ NothingLeft limit ue.ambr ∧ ueAmbrForS1ap limit ue = configured limit ue.ambr) ∨
      (NothingLeft limit ue.ambr ∧ ¬ NothingLeft limit (sessionSum ue) ∧ ueAmbrForS1ap limit ue =
          configured limit (sessionSum ue)) ∨ (NothingLeft limit ue.ambr ∧
        NothingLeft limit (sessionSum ue) ∧ ueAmbrForS1ap limit ue = limit.caps) := by
  have hGiven : ∀ ambr, (configured limit ambr).given = true ↔ ¬ NothingLeft limit ambr :=
    fun _ => configured_given limit hEnabled
  have hCongr : ∀ ambr other, limit.cappedRates ambr = limit.cappedRates other →
    configured limit ambr = configured limit other := by
    intro ambr other hSame
    apply rates_injective
    rw [rates_configured limit hEnabled, rates_configured limit hEnabled, hSame]
  have hOwn := hCongr (sanitizeBitrate ue.ambr) ue.ambr (cappedRates_sanitizeBitrate limit)
  unfold ueAmbrForS1ap unprovisionedAmbr
  simp only [hOwn, hEnabled, Bool.and_true]
  by_cases hForce : limit.force = true
  · -- every stage gives the caps with both directions
    have hSame : ∀ ambr other, configured limit ambr = configured limit other := by
      intro ambr other
      apply hCongr
      simp only [cappedRates, capped, hForce, if_true]
    rw [hSame (sessionSum ue) ue.ambr, hSame Bitrate.zero ue.ambr]
    by_cases hLeft : NothingLeft limit ue.ambr
    · have hNone : (configured limit ue.ambr).given = false := by
        simpa [hLeft] using (hGiven ue.ambr).not.mpr
      have hSum : NothingLeft limit (sessionSum ue) := by
        by_contra hSum
        rw [← hGiven, hSame _ ue.ambr, hNone] at hSum
        contradiction
      simp [hLeft, hSum, hNone, caps]
    · have hSome := (hGiven ue.ambr).mpr hLeft
      simp [hLeft, hSome]
  · by_cases hLeft : NothingLeft limit ue.ambr
    · have hNone : (configured limit ue.ambr).given = false := by
        simpa [hLeft] using (hGiven ue.ambr).not.mpr
      by_cases hSum : NothingLeft limit (sessionSum ue)
      · have hNoSum : (configured limit (sessionSum ue)).given = false := by
          simpa [hSum] using (hGiven (sessionSum ue)).not.mpr
        have hZero : (configured limit Bitrate.zero).given = false := by
          have hLeftZero : NothingLeft limit Bitrate.zero := by
            simp [NothingLeft, capped, hForce, Bitrate.zero, usable]
          simpa [hLeftZero] using (hGiven Bitrate.zero).not.mpr
        simp [hLeft, hSum, hNone, hNoSum, hZero, caps]
      · have hSome := (hGiven (sessionSum ue)).mpr hSum
        have hThere := (given_of_left limit hForce hSum).2
        simp [hLeft, hSum, hNone, hSome, hThere]
    · have hSome := (hGiven ue.ambr).mpr hLeft
      have hThere := (given_of_left limit hForce hLeft).1
      simp [hLeft, hSome, hThere]

---- Without Limits ----

theorem rates_configured_disabled (hDisabled : limit.enabled = false) :
    (configured limit ambr).rates = filled ambr.usableRates := by
  have hApply : applyConfig limit ambr = sanitizeBitrate ambr := by simp [applyConfig, hDisabled]
  rw [configured, hApply, rates_completeDirections, usableRates_sanitizeBitrate]

variable {limit : AmbrLimit} {ue : AmbrUe}

/- Without limits every rate returned passes the test. -/
theorem ueAmbrForS1ap_usable (hDisabled : limit.enabled = false) :
    (ueAmbrForS1ap limit ue).usableRates = (ueAmbrForS1ap limit ue).rates := by
  have hConfigured : ∀ ambr, (configured limit ambr).usableRates = (configured limit ambr).rates :=
    fun _ => usableRates_sanitizeBitrate.trans rates_sanitizeBitrate.symm
  unfold ueAmbrForS1ap unprovisionedAmbr
  simp only [hDisabled, Bool.and_false, false_eq_true, if_false]
  split
  · exact hConfigured _
  · split
    · exact hConfigured _
    · exact hConfigured _

/- Without limits a UE-AMBR that passes the test is used. -/
theorem ueAmbrForS1ap_unlimited (hDisabled : limit.enabled = false)
    (hUsable : ue.ambr.usableRates ≠ (0, 0)) :
    (ueAmbrForS1ap limit ue).rates = filled ue.ambr.usableRates := by
  have hOwn : (configured limit (sanitizeBitrate ue.ambr)).rates = filled ue.ambr.usableRates := by
    rw [rates_configured_disabled limit hDisabled, usableRates_sanitizeBitrate]
  have hGiven : (sanitizeBitrate ue.ambr).given = true := by
    rw [given_iff, rates_sanitizeBitrate]
    exact hUsable
  have hOwnGiven : (configured limit (sanitizeBitrate ue.ambr)).given = true := by
    rw [given_iff, hOwn, ne_eq, filled_eq_zero_iff]
    exact hUsable
  unfold ueAmbrForS1ap
  simp only [hGiven, hOwnGiven, Bool.and_self, if_true]
  exact hOwn

---- When The Limits And The Values Are Kept ----

/-
  With limits no direction is above its cap, and without them a direction of the UE-AMBR that is not
  zero is kept.
-/
variable (limit ue) in
def WithinLimits : Prop :=
  (limit.enabled = true → (ueAmbrForS1ap limit ue).downlink.toNat ≤ limit.downlinkBps.toNat ∧
      (ueAmbrForS1ap limit ue).uplink.toNat ≤ limit.uplinkBps.toNat) ∧
    (limit.enabled = false → (ue.ambr.downlink ≠ 0 →
        (ueAmbrForS1ap limit ue).downlink = ue.ambr.downlink) ∧ (ue.ambr.uplink ≠ 0 →
          (ueAmbrForS1ap limit ue).uplink = ue.ambr.uplink))

/-
  With limits, a direction of which nothing is left is not filled in above its cap, be it from the
  UE-AMBR or, when nothing at all is left of that, from the sum of the sessions. Without them, no
  rate of the UE-AMBR is a multiple of 2^32 other than zero.
-/
variable (limit ue) in
def KeepsLimits : Prop :=
  (limit.enabled = true → FillsWithin limit ue.ambr ∧ (NothingLeft limit ue.ambr →
        FillsWithin limit (sessionSum ue))) ∧
    (limit.enabled = false → (ue.ambr.downlink ≠ 0 → ue.ambr.downlink.toNat % 2 ^ 32 ≠ 0) ∧
        (ue.ambr.uplink ≠ 0 → ue.ambr.uplink.toNat % 2 ^ 32 ≠ 0))

theorem fillsWithin_of_nothingLeft {limit : AmbrLimit} {ambr : Bitrate}
    (hNone : NothingLeft limit ambr) : FillsWithin limit ambr := by
  rcases hNone with ⟨hDl, hUl⟩
  exact ⟨fun _ => by omega, fun _ => by omega⟩

theorem limited_iff {limit : AmbrLimit} {ue : AmbrUe} (hEnabled : limit.enabled = true) :
    ((ueAmbrForS1ap limit ue).downlink.toNat ≤ limit.downlinkBps.toNat ∧
        (ueAmbrForS1ap limit ue).uplink.toNat ≤ limit.uplinkBps.toNat) ↔ FillsWithin limit ue.ambr ∧
        (NothingLeft limit ue.ambr → FillsWithin limit (sessionSum ue)) := by
  rcases ueAmbrForS1ap_limited limit hEnabled with
    ⟨hLeft, hOwn⟩ | ⟨hNone, hLeft, hSum⟩ | ⟨hNone, hNoSum, hCaps⟩
  · rw [hOwn, fillsWithin_iff limit hEnabled]
    exact ⟨fun h => ⟨h, fun hNone => absurd hNone hLeft⟩, fun h => h.1⟩
  · rw [hSum, fillsWithin_iff limit hEnabled]
    exact ⟨fun h =>
      ⟨fillsWithin_of_nothingLeft hNone, fun _ => h⟩,
      fun h => h.2 hNone⟩
  · rw [hCaps]
    refine ⟨fun _ =>
      ⟨fillsWithin_of_nothingLeft hNone, fun _ => fillsWithin_of_nothingLeft hNoSum⟩,
      fun _ => ?_⟩
    exact ⟨Nat.le_refl _, Nat.le_refl _⟩

/- A nonzero rate that is kept has passed the test. -/
theorem kept_rate_usable {rate out : BitVec 64} (hUsable : usable out.toNat = out.toNat)
    (hKept : out = rate) (hNonzero : rate ≠ 0) : rate.toNat % 2 ^ 32 ≠ 0 := by
  intro hMultiple
  apply hNonzero
  rw [hKept, usable, if_pos hMultiple] at hUsable
  exact eq_of_toNat_eq hUsable.symm

/- A usable rate is returned as it is. -/
theorem fill_usable {rate out : BitVec 64} {other : Nat}
    (hFill : out.toNat = fill (usable rate.toNat) other) (hSane : rate.toNat % 2 ^ 32 ≠ 0) :
    out = rate := by
  have hRate : usable rate.toNat = rate.toNat := if_neg hSane
  have hNonzero : rate.toNat ≠ 0 := by omega
  apply eq_of_toNat_eq
  rw [hFill, hRate, fill, if_neg hNonzero]

theorem unlimited_iff {limit : AmbrLimit} {ue : AmbrUe} (hDisabled : limit.enabled = false) :
    ((ue.ambr.downlink ≠ 0 → (ueAmbrForS1ap limit ue).downlink = ue.ambr.downlink) ∧
        (ue.ambr.uplink ≠ 0 → (ueAmbrForS1ap limit ue).uplink = ue.ambr.uplink)) ↔
      (ue.ambr.downlink ≠ 0 → ue.ambr.downlink.toNat % 2 ^ 32 ≠ 0) ∧ (ue.ambr.uplink ≠ 0 →
          ue.ambr.uplink.toNat % 2 ^ 32 ≠ 0) := by
  rcases Prod.ext_iff.mp (ueAmbrForS1ap_usable hDisabled) with ⟨hDl, hUl⟩
  constructor
  · rintro ⟨hKeptDl, hKeptUl⟩
    exact ⟨fun h => kept_rate_usable hDl (hKeptDl h) h, fun h => kept_rate_usable hUl (hKeptUl h) h⟩
  · rintro ⟨hSaneDl, hSaneUl⟩
    constructor
    · intro hNonzero
      have hSane := hSaneDl hNonzero
      have hRates := ueAmbrForS1ap_unlimited hDisabled fun hNone =>
        hSane (usable_eq_zero_iff.mp (Prod.ext_iff.mp hNone).1)
      exact fill_usable (Prod.ext_iff.mp hRates).1 hSane
    · intro hNonzero
      have hSane := hSaneUl hNonzero
      have hRates := ueAmbrForS1ap_unlimited hDisabled fun hNone =>
        hSane (usable_eq_zero_iff.mp (Prod.ext_iff.mp hNone).2)
      exact fill_usable (Prod.ext_iff.mp hRates).2 hSane

/-
  The rates for the eNB keep the limits, and the values without limits, exactly for these inputs.
-/
theorem ue_ambr_within_limits_iff (limit : AmbrLimit) (ue : AmbrUe) :
    WithinLimits limit ue ↔ KeepsLimits limit ue := by
  constructor
  · rintro ⟨hLimited, hUnlimited⟩
    exact ⟨fun h => (limited_iff h).mp (hLimited h), fun h => (unlimited_iff h).mp (hUnlimited h)⟩
  · rintro ⟨hLimited, hUnlimited⟩
    exact ⟨fun h => (limited_iff h).mpr (hLimited h), fun h => (unlimited_iff h).mpr (hUnlimited h)⟩

/- A downlink cap of 10 and an uplink cap of 100. -/
def unevenLimit : AmbrLimit where
  enabled := true
  force := false
  downlinkBps := 10
  uplinkBps := 100

/- A UE-AMBR with the uplink only. -/
def uplinkOnlyUe : AmbrUe where
  ambr := ⟨0, 50⟩
  sessions := []

def noLimit : AmbrLimit where
  enabled := false
  force := false
  downlinkBps := 0
  uplinkBps := 0

/- A UE-AMBR of 2^32 bits per second. -/
def fourGigabitUe : AmbrUe where
  ambr := ⟨0x100000000, 0x100000000⟩
  sessions := []

/- A rate above its cap, and a rate that becomes zero. -/
theorem filled_rate_exceeds_cap :
    ueAmbrForS1ap unevenLimit uplinkOnlyUe = ⟨50, 50⟩ ∧
      ueAmbrForS1ap noLimit fourGigabitUe = ⟨0, 0⟩ ∧ ¬ WithinLimits unevenLimit uplinkOnlyUe ∧
      ¬ WithinLimits noLimit fourGigabitUe := by
  refine ⟨by decide, by decide, ?_, ?_⟩
  · rintro ⟨hLimited, _⟩
    exact absurd (hLimited rfl).1 (by decide)
  · rintro ⟨_, hUnlimited⟩
    exact absurd ((hUnlimited rfl).1 (by decide)) (by decide)

end Pretty5gs.Mme
