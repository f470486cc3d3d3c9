import Pretty5gs.Mme.NasDecoding

/-
  The uplink NAS COUNT over received messages.

  A message moves the stored COUNT to the next one that has its sequence number, whether its MAC
  verifies or not, and keeps it when the number is the stored one.

  Main results: `forged_pdu_keeps_count`, `decoding_stores_sender_count`,
  `verified_counts_distinct`.
-/

---- Forged Messages ----

namespace Pretty5gs.Mme

open BitVec

theorem decodable_iff_sound (hReceived : received pdu tail = some (type, pkbuf))
    (hAvailable : ue.securityContextAvailable = true) (hChecked : MacChecked ue type) :
    Decodable ue type pdu tail ↔ Sound ue type pdu tail := by
  -- a service request is not ciphered
  have hCiphered : type.ciphered = true → type.serviceRequest = false := by
    rcases received_cases hReceived with ⟨_, hPlain, _⟩ | ⟨hService, _⟩
    · rw [hPlain]
      exact nofun
    · exact fun _ => hService
  constructor
  · rintro ⟨hImplemented, hRoom, hCipher⟩
    exact ⟨fun _ => ⟨hImplemented, hRoom⟩, fun h => hCipher h.2.1 h.2.2.2⟩
  · rintro ⟨hMac, hCipher⟩
    exact ⟨(hMac hChecked).1, (hMac hChecked).2, fun h hNull => hCipher
      ⟨hCiphered h, h, hAvailable, hNull⟩⟩

/-
  A message whose MAC does not verify leaves the UE context as it was up to `mac_failed` exactly
  when it is decodable and repeats the sequence number.
-/
theorem forged_pdu_keeps_count (crypto : Crypto) (ue : MmeUe) (pdu tail : List UInt8)
    (type : SecurityHeaderType) (pkbuf : Pkbuf) (hReceived : received pdu tail = some (type, pkbuf))
    (hAvailable : ue.securityContextAvailable = true) (hAlgorithm : ue.selectedIntAlgorithm ≠ 0)
    (hKind : type.serviceRequest = true ∨ type.integrityProtected = true)
    (hForged : ¬ MacVerifies crypto ue type pdu tail) : (∃ rv out,
      nasEpsSecurityDecode crypto ue type pkbuf = .ok (rv, { ue with macFailed := true }, out)) ↔
      Decodable ue type pdu tail ∧ SameSequenceNumber ue type pdu := by
  have hChecked : MacChecked ue type := ⟨hAlgorithm, hKind.imp id (fun h => ⟨h, hAvailable⟩)⟩
  have hLeaves : decodedUe crypto ue type pdu tail =
    { ue with
      ulCount := checkedCount ue type pdu
      macFailed := true } := by
    rw [decodedUe, if_pos hChecked, compared, if_neg hForged]
  rw [← checkedCount_eq_iff, decodable_iff_sound hReceived hAvailable hChecked]
  constructor
  · rintro ⟨rv, out, hDecode⟩
    have hSound : Sound ue type pdu tail := by
      by_contra hAbort
      rcases nasEpsSecurityDecode_aborts crypto ue pdu tail type pkbuf hReceived hAbort with
        ⟨fault, hFault⟩
      rw [hFault] at hDecode
      contradiction
    refine ⟨hSound, ?_⟩
    rcases nasEpsSecurityDecode_ok crypto ue pdu tail type pkbuf hReceived hSound with
      ⟨head, rest, hOk⟩
    rw [hOk, hLeaves] at hDecode
    have hUe := congrArg (fun r => r.2.1.ulCount) (Except.ok.inj hDecode)
    exact hUe
  · rintro ⟨hSound, hCount⟩
    rcases nasEpsSecurityDecode_ok crypto ue pdu tail type pkbuf hReceived hSound with
      ⟨head, rest, hOk⟩
    rw [hLeaves, hCount] at hOk
    exact ⟨_, _, hOk⟩

/- A UE with the COUNT five and EIA2 under a key of zeros. -/
def securedUe : MmeUe where
  securityContextAvailable := true
  selectedIntAlgorithm := 2
  selectedEncAlgorithm := 0
  knasInt := List.replicate 16 0
  knasEnc := List.replicate 16 0
  ulCount := ⟨0, 0, 5⟩
  macFailed := false

/- AES-CMAC with the key of `securedUe` on the two messages below, and no ciphering. -/
def sampleCrypto : Crypto where
  eia := fun _ _ count _ _ data =>
    if count = 9 ∧ data = [9, 0x07, 0x4e] then [137, 1, 235, 192]
    else if count = 5 ∧ data = [5, 0x07, 0x4e] then [133, 155, 69, 180]
    else []
  eea := fun _ _ _ _ _ data => data

/- An integrity protected message with a MAC of zeros. -/
def forgedPdu (sequenceNumber : UInt8) : List UInt8 :=
  [0x17, 0, 0, 0, 0, sequenceNumber, 0x07, 0x4e]

theorem forged_pdu_keeps_count_repeated : ∃ rv out, nasEpsSecurityDecode sampleCrypto securedUe
          ⟨false, true, false, false⟩ ⟨nasHeadroom ++ [0x17, 0, 0, 0, 0, 5], [0x07, 0x4e], []⟩ =
        .ok (rv, { securedUe with macFailed := true }, out) :=
  (forged_pdu_keeps_count sampleCrypto securedUe (forgedPdu 5) [] ⟨false, true, false, false⟩
    ⟨nasHeadroom ++ [0x17, 0, 0, 0, 0, 5], [0x07, 0x4e], []⟩ rfl rfl (by decide) (.inr rfl) (by
      decide)).mpr
    ⟨⟨by decide, nofun, nofun⟩, rfl⟩

/- The COUNT goes from five to nine with a MAC of zeros. -/
theorem forged_pdu_moves_count : ¬ MacVerifies sampleCrypto securedUe
        ⟨false, true, false, false⟩ (forgedPdu 9) [] ∧
      s1apSendToNas sampleCrypto securedUe (forgedPdu 9) [] = .ok (.ok,
          { securedUe with
            ulCount := ⟨0, 0, 9⟩
            macFailed := true }) := by
  constructor
  · decide
  · rfl

---- Arithmetic Of The COUNT ----

/- The COUNT as a number. -/
def UlCount.value (count : UlCount) : Nat := count.i32.toNat

open UlCount

theorem UlCount.value_eq (count : UlCount) :
    count.value = count.spare.toNat * 2 ^ 24 + count.overflow.toNat * 2 ^ 8 + count.sqn.toNat := by
  rw [value, i32, toNat_append, ← Nat.shiftLeft_add_eq_or_of_lt count.sqn.isLt, toNat_append,
    ← Nat.shiftLeft_add_eq_or_of_lt count.overflow.isLt, Nat.shiftLeft_eq]
  omega

/- The next message would start the overflow counter again. -/
def UlCount.Wraps (count : UlCount) (sqn : U8) : Prop := sqn < count.sqn ∧ count.overflow = 0xffff

instance (count : UlCount) (sqn : U8) : Decidable (count.Wraps sqn) :=
  inferInstanceAs (Decidable (_ ∧ _))

variable (count : UlCount) (sqn : U8)

theorem UlCount.advance_value (hKeeps : ¬ count.Wraps sqn) :
    (count.advance sqn).value = count.value - count.sqn.toNat + sqn.toNat +
        (if count.sqn > sqn then 2 ^ 8 else 0) := by
  rw [value_eq, value_eq]
  unfold advance
  split
  · rename_i hDown
    have hBelow : count.overflow.toNat < 2 ^ 16 - 1 := by
      by_contra hFull
      apply hKeeps
      refine ⟨hDown, ?_⟩
      apply eq_of_toNat_eq
      have hTop : (0xffff : U16).toNat = 2 ^ 16 - 1 := rfl
      omega
    have hNext : (count.overflow + 1).toNat = count.overflow.toNat + 1 := by
      have hOne : (1 : U16).toNat = 1 := rfl
      rw [toNat_add]
      omega
    simp only [hNext]
    omega
  · simp only
    omega

/- The COUNT goes up, unless it wraps or stays. -/
theorem UlCount.le_advance (hKeeps : ¬ count.Wraps sqn) :
    count.value ≤ (count.advance sqn).value := by
  rw [advance_value count sqn hKeeps]
  split
  · omega
  · rename_i hUp
    have hLe : count.sqn.toNat ≤ sqn.toNat := by simpa [lt_def] using hUp
    omega

theorem UlCount.lt_advance (hKeeps : ¬ count.Wraps sqn) (hOther : sqn ≠ count.sqn) :
    count.value < (count.advance sqn).value := by
  have hDiffers : sqn.toNat ≠ count.sqn.toNat := fun h => hOther (eq_of_toNat_eq h)
  rw [advance_value count sqn hKeeps]
  split
  · omega
  · rename_i hUp
    have hLe : count.sqn.toNat ≤ sqn.toNat := by simpa [lt_def] using hUp
    omega

/-
  Among the 256 COUNTs from the stored one on, the sequence number selects one, and `advance` stores
  it.
-/
theorem UlCount.advance_to {sent : Nat} (hStored : count.value < 2 ^ 24) (hLow : count.value ≤ sent)
    (hHigh : sent ≤ count.value + 255) (hSent : sent < 2 ^ 24) (hSqn : sqn.toNat = sent % 2 ^ 8) :
    (count.advance sqn).value = sent := by
  have hValue := value_eq count
  have hKeeps : ¬ count.Wraps sqn := by
    rintro ⟨hDown, hFull⟩
    have hLt : sqn.toNat < count.sqn.toNat := hDown
    have hTop : count.overflow.toNat = 2 ^ 16 - 1 := by
      rw [hFull]
      rfl
    omega
  rw [advance_value count sqn hKeeps]
  split
  · rename_i hDown
    have hLt : sqn.toNat < count.sqn.toNat := hDown
    omega
  · rename_i hUp
    have hLe : count.sqn.toNat ≤ sqn.toNat := by simpa [lt_def] using hUp
    omega

/- The low five bits select one of 32 COUNTs in the same way. -/
theorem estimatedSequenceNumber_to {count : UlCount} {low : U8} {sent : Nat}
    (hLow : count.value ≤ sent) (hHigh : sent ≤ count.value + 31)
    (hShort : low.toNat = sent % 2 ^ 5) :
    (estimatedSequenceNumber count.sqn low).toNat = sent % 2 ^ 8 := by
  have hValue := value_eq count
  have hMask : (count.sqn &&& 0x1f).toNat = count.sqn.toNat % 2 ^ 5 := by
    exact Nat.and_two_pow_sub_one_eq_mod count.sqn.toNat 5
  have hRest : (count.sqn &&& 0xe0).toNat = count.sqn.toNat - count.sqn.toNat % 2 ^ 5 := by
    rw [and_high_bits, toNat_sub_of_le, hMask]
    rw [le_def]
    omega
  unfold estimatedSequenceNumber
  split
  · rename_i hDown
    have hLt : low.toNat < count.sqn.toNat % 2 ^ 5 := by
      rw [← hMask]
      exact hDown
    have hStep : (0x20 : U8).toNat = 32 := rfl
    rw [toNat_add, toNat_add, hRest]
    omega
  · rename_i hUp
    have hLe : count.sqn.toNat % 2 ^ 5 ≤ low.toNat := by
      rw [← hMask]
      simpa [lt_def] using hUp
    rw [toNat_add]
    omega

---- The COUNT Of The Sender ----

variable (ue : MmeUe) (type : SecurityHeaderType) (pdu : List UInt8)

/- The sequence number that a message is taken to have. -/
def nextSequenceNumber : U8 :=
  if type.serviceRequest then
    estimatedSequenceNumber ue.ulCount.sqn (shortSequenceNumber (pdu.drop 1))
  else headerSequenceNumber pdu

theorem checkedCount_advance (hContext : type.newSecurityContext = false) :
    checkedCount ue type pdu = ue.ulCount.advance (nextSequenceNumber ue type pdu) := by
  unfold checkedCount nextSequenceNumber
  rw [hContext]
  split <;> rfl

/-
  A message sent with a COUNT from the stored one on: 32 COUNTs far at most with the five bits of a
  service request, and 256 with the octet of a security header.
-/
def CarriesCount (sent : Nat) : Prop :=
  ue.ulCount.value ≤ sent ∧ sent < 2 ^ 24 ∧ if type.serviceRequest then
      sent ≤ ue.ulCount.value + 31 ∧ (shortSequenceNumber (pdu.drop 1)).toNat = sent % 2 ^ 5
    else sent ≤ ue.ulCount.value + 255 ∧ (headerSequenceNumber pdu).toNat = sent % 2 ^ 8

theorem checkedCount_to (hContext : type.newSecurityContext = false)
    (hCarries : CarriesCount ue type pdu sent) : (checkedCount ue type pdu).value = sent := by
  rcases hCarries with ⟨hLow, hSent, hNumber⟩
  have hStored : ue.ulCount.value < 2 ^ 24 := by omega
  rw [checkedCount_advance ue type pdu hContext]
  unfold nextSequenceNumber
  split
  · rename_i hService
    rw [if_pos hService] at hNumber
    rcases hNumber with ⟨hHigh, hShort⟩
    apply advance_to ue.ulCount _ hStored hLow (by omega) hSent
    exact estimatedSequenceNumber_to hLow hHigh hShort
  · rename_i hService
    rw [if_neg hService] at hNumber
    rcases hNumber with ⟨hHigh, hOctet⟩
    exact advance_to ue.ulCount _ hStored hLow hHigh hSent hOctet

/- The MAC that the key of a UE gives for a COUNT. -/
def macUnder (crypto : Crypto) (ue : MmeUe) (type : SecurityHeaderType) (pdu : List UInt8)
    (count : U32) : List UInt8 :=
  crypto.eia ue.selectedIntAlgorithm ue.knasInt count
    nasSecurityBearer uplinkDirection (macCovers type pdu)

/- The MAC, or its last two octets, is the one in the PDU. -/
def CarriesMac (type : SecurityHeaderType) (pdu tail mac : List UInt8) : Prop :=
  if type.serviceRequest then (mac.drop 2).take 2 = ((pdu ++ tail).drop 2).take 2
  else headerMac pdu = mac

variable (crypto : Crypto) (ue : MmeUe)

theorem macVerifies_iff {type : SecurityHeaderType} {pdu tail : List UInt8} {sent : Nat}
    (hCount : (checkedCount ue type pdu).value = sent) :
    MacVerifies crypto ue type pdu tail ↔ CarriesMac type pdu tail
        (macUnder crypto ue type pdu (BitVec.ofNat 32 sent)) := by
  have hCheckedCount : BitVec.ofNat 32 sent = (checkedCount ue type pdu).i32 := by
    rw [← hCount, value, ofNat_toNat, setWidth_eq]
  rw [hCheckedCount]
  rfl

theorem compared_macFailed :
    (compared crypto ue type pdu tail).macFailed = true ↔ ue.macFailed = true ∨
        ¬ MacVerifies crypto ue type pdu tail := by
  unfold compared
  by_cases hVerifies : MacVerifies crypto ue type pdu tail
  · simp [hVerifies]
  · simp [hVerifies]

/-
  Decoding returns exactly when it is sound, and then the COUNT that is stored is the one of the
  sender and the MAC has been compared with the one under that COUNT.
-/
theorem decoding_stores_sender_count (pdu tail : List UInt8) (type : SecurityHeaderType)
    (pkbuf : Pkbuf) (sent : Nat) (hReceived : received pdu tail = some (type, pkbuf))
    (hContext : type.newSecurityContext = false)
    (hProtected : MacChecked ue type ∨ Deciphered ue type)
    (hCarries : CarriesCount ue type pdu sent) :
    ((∃ rv ue' out, nasEpsSecurityDecode crypto ue type pkbuf = .ok (rv, ue', out)) ↔
      Sound ue type pdu tail) ∧ ∀ rv ue' out, nasEpsSecurityDecode crypto ue type pkbuf =
            .ok (rv, ue', out) → ue'.ulCount.i32.toNat = sent ∧ (MacChecked ue type →
              (ue'.macFailed = true ↔ ue.macFailed = true ∨ ¬ CarriesMac type pdu tail
                    (macUnder crypto ue type pdu (BitVec.ofNat 32 sent)))) := by
  have hCount := checkedCount_to ue type pdu hContext hCarries
  have hReturns : ∀ rv ue' out, nasEpsSecurityDecode crypto ue type pkbuf = .ok (rv, ue', out) →
    Sound ue type pdu tail := by
    intro rv ue' out hDecode
    by_contra hAbort
    rcases nasEpsSecurityDecode_aborts crypto ue pdu tail type pkbuf hReceived hAbort with
      ⟨fault, hFault⟩
    rw [hFault] at hDecode
    contradiction
  refine ⟨⟨?_, ?_⟩, ?_⟩
  · rintro ⟨rv, ue', out, hDecode⟩
    exact hReturns rv ue' out hDecode
  · intro hSound
    rcases nasEpsSecurityDecode_ok crypto ue pdu tail type pkbuf hReceived hSound with
      ⟨head, rest, hOk⟩
    exact ⟨_, _, _, hOk⟩
  · intro rv ue' out hDecode
    rcases nasEpsSecurityDecode_ok crypto ue pdu tail type pkbuf
      hReceived (hReturns rv ue' out hDecode) with ⟨head, rest, hOk⟩
    rw [hOk] at hDecode
    cases hDecode
    constructor
    · rw [decodedUe_ulCount crypto pdu tail hProtected]
      exact hCount
    · intro hChecked
      rw [decodedUe, if_pos hChecked, compared_macFailed, macVerifies_iff crypto ue hCount]

/- The COUNT 256 behind 250, and the COUNT 32 behind 5. -/
theorem decoding_stores_sender_count_wrapped : (∃ rv ue' out, nasEpsSecurityDecode sampleCrypto
          { securedUe with ulCount := ⟨0, 0, 250⟩ } ⟨false, true, false, false⟩
          ⟨nasHeadroom ++ [0x17, 0, 0, 0, 0, 0], [0x07, 0x4e], []⟩ =
        .ok (rv, ue', out) ∧ ue'.ulCount.i32.toNat = 256) ∧ ∃ rv ue' out,
        nasEpsSecurityDecode sampleCrypto securedUe ⟨true, false, false, false⟩
            ⟨nasHeadroom, [0xc7, 0x00, 1, 2], []⟩ =
          .ok (rv, ue', out) ∧ ue'.ulCount.i32.toNat = 32 := by
  have hOrdinary := decoding_stores_sender_count sampleCrypto
    { securedUe with ulCount := ⟨0, 0, 250⟩ } (forgedPdu 0) [] ⟨false, true, false, false⟩
    ⟨nasHeadroom ++ [0x17, 0, 0, 0, 0, 0], [0x07, 0x4e], []⟩ 256
    rfl rfl (.inl (by decide)) ⟨by decide, by decide, by decide⟩
  have hService := decoding_stores_sender_count sampleCrypto securedUe [0xc7, 0x00, 1, 2] []
    ⟨true, false, false, false⟩ ⟨nasHeadroom, [0xc7, 0x00, 1, 2], []⟩ 32
    rfl rfl (.inl (by decide)) ⟨by decide, by decide, by decide⟩
  constructor
  · rcases hOrdinary.1.mpr (by decide) with ⟨rv, ue', out, hDecode⟩
    exact ⟨rv, ue', out, hDecode, (hOrdinary.2 rv ue' out hDecode).1⟩
  · rcases hService.1.mpr (by decide) with ⟨rv, ue', out, hDecode⟩
    exact ⟨rv, ue', out, hDecode, (hService.2 rv ue' out hDecode).1⟩

---- Messages On One Security Context ----

/-
  A UE context and the COUNTs under which messages have passed the MAC check in it, the last one
  first.
-/
structure Uplink where
  ue : MmeUe
  verified : List U32
deriving DecidableEq

/- An eNB delivers a PDU, with what lies behind it in memory, or a procedure clears `mac_failed`. -/
inductive UplinkStep where
  | deliver (pdu tail : List UInt8)
  | clearMacFailed

/- The MAC was compared and `mac_failed` has stayed clear. -/
def passes (before : MmeUe) (type : SecurityHeaderType) (after : MmeUe) : Bool :=
  decide (MacChecked before type) && !before.macFailed && !after.macFailed

/- The state after a message has been decoded. -/
def Uplink.decoded (s : Uplink) (type : SecurityHeaderType) (after : MmeUe) : Uplink where
  ue := after
  verified :=
    if passes s.ue type after then after.ulCount.i32 :: s.verified
    else s.verified

/- A delivered PDU is decoded as in `s1ap_send_to_nas`. -/
def Uplink.deliver (crypto : Crypto) (s : Uplink) (pdu tail : List UInt8) : Except Fault Uplink :=
  match received pdu tail with
  | none => .ok s
  | some (type, nasbuf) =>
      (nasEpsSecurityDecode crypto s.ue type nasbuf).map (fun result => s.decoded type result.2.1)

/- The runs of PDUs on a UE context. -/
def uplink (crypto : Crypto) : Faulty.System Uplink UplinkStep Fault where
  Init := fun s => s.verified = []
  exec := fun s step =>
    match step with
    | .deliver pdu tail => s.deliver crypto pdu tail
    | .clearMacFailed => .ok { s with ue := { s.ue with macFailed := false } }

/- No PDU of the run brings a new security context. -/
def SameContext (_ : Uplink) (step : UplinkStep) : Prop :=
  match step with
  | .deliver pdu tail => (received pdu tail).all (fun found => !found.1.newSecurityContext) = true
  | .clearMacFailed => True

/-
  The message does not repeat the sequence number of a COUNT that has been verified, and does not
  start the overflow counter again.
-/
def FreshNumber (s : Uplink) (type : SecurityHeaderType) (pdu : List UInt8) : Prop :=
  (nextSequenceNumber s.ue type pdu = s.ue.ulCount.sqn → s.ue.ulCount.i32 ∉ s.verified) ∧
    ¬ s.ue.ulCount.Wraps (nextSequenceNumber s.ue type pdu)

instance (s : Uplink) (type : SecurityHeaderType) (pdu : List UInt8) :
    Decidable (FreshNumber s type pdu) :=
  inferInstanceAs (Decidable ((_ → ¬ _) ∧ ¬ _))

def Fresh (s : Uplink) (step : UplinkStep) : Prop :=
  match step with
  | .deliver pdu tail =>
      (received pdu tail).all (fun found => decide (FreshNumber s found.1 pdu)) = true
  | .clearMacFailed => True

instance (s : Uplink) (step : UplinkStep) : Decidable (SameContext s step ∧ Fresh s step) :=
  match step with
  | .deliver _ _ => inferInstanceAs (Decidable (_ = _ ∧ _ = _))
  | .clearMacFailed => inferInstanceAs (Decidable (True ∧ True))

/- What a delivered PDU can do to the state. -/
theorem deliver_cases {crypto : Crypto} {s s' : Uplink} {pdu tail : List UInt8}
    (hDeliver : s.deliver crypto pdu tail = .ok s') :
    s' = s ∨ ∃ type pkbuf, received pdu tail = some (type, pkbuf) ∧ s' = s.decoded type
            (decodedUe crypto s.ue type pdu tail) := by
  unfold Uplink.deliver at hDeliver
  cases hReceived : received pdu tail with
  | none =>
    rw [hReceived] at hDeliver
    cases hDeliver
    exact .inl rfl
  | some found =>
    rcases found with ⟨type, pkbuf⟩
    rw [hReceived] at hDeliver
    rcases Faulty.map_eq_ok hDeliver with ⟨⟨rv, ue', out⟩, hDecode, rfl⟩
    right
    refine ⟨type, pkbuf, rfl, ?_⟩
    by_cases hSound : Sound s.ue type pdu tail
    · rcases nasEpsSecurityDecode_ok crypto s.ue pdu tail type pkbuf hReceived hSound with
      ⟨head, rest, hOk⟩
      rw [hOk] at hDecode
      cases hDecode
      rfl
    · rcases nasEpsSecurityDecode_aborts crypto s.ue pdu tail type pkbuf hReceived hSound with
      ⟨fault, hFault⟩
      rw [hFault] at hDecode
      contradiction

/- The verified COUNTs differ and are not above the stored. -/
structure Uplink.Distinct (s : Uplink) : Prop where
  nodup : s.verified.Nodup
  bounded : ∀ count ∈ s.verified, count.toNat ≤ s.ue.ulCount.value

variable (crypto : Crypto) (s : Uplink) (type : SecurityHeaderType) (pdu tail : List UInt8)

/- Decoding with a fresh number never lowers the COUNT. -/
theorem le_decodedUe (hContext : type.newSecurityContext = false)
    (hFresh : FreshNumber s type pdu) :
    s.ue.ulCount.value ≤ (decodedUe crypto s.ue type pdu tail).ulCount.value := by
  by_cases hProtected : MacChecked s.ue type ∨ Deciphered s.ue type
  · rw [decodedUe_ulCount crypto pdu tail hProtected,
    checkedCount_advance s.ue type pdu hContext]
    exact le_advance _ _ hFresh.2
  · rcases not_or.mp hProtected with ⟨hMac, hCipher⟩
    have hKept : decodedUe crypto s.ue type pdu tail = s.ue := by
      simp [decodedUe, hMac, hCipher, renewed, hContext]
    rw [hKept]

/- The COUNT of a message that passes was not used before. -/
theorem decodedUe_not_verified (hDistinct : s.Distinct) (hContext : type.newSecurityContext = false)
    (hFresh : FreshNumber s type pdu) (hChecked : MacChecked s.ue type) :
    (decodedUe crypto s.ue type pdu tail).ulCount.i32 ∉ s.verified := by
  rw [decodedUe_ulCount crypto pdu tail (.inl hChecked),
    checkedCount_advance s.ue type pdu hContext]
  by_cases hSame : nextSequenceNumber s.ue type pdu = s.ue.ulCount.sqn
  · rw [advance_eq_iff.mpr hSame]
    exact hFresh.1 hSame
  · intro hUsed
    have hAbove := lt_advance s.ue.ulCount (nextSequenceNumber s.ue type pdu) hFresh.2 hSame
    have hBelow := hDistinct.bounded _ hUsed
    unfold value at hAbove hBelow
    omega

theorem decoded_distinct (hDistinct : s.Distinct) (hContext : type.newSecurityContext = false)
    (hFresh : FreshNumber s type pdu) :
    (s.decoded type (decodedUe crypto s.ue type pdu tail)).Distinct := by
  have hUp := le_decodedUe crypto s type pdu tail hContext hFresh
  have hOld : ∀ count ∈ s.verified, count.toNat ≤
          (decodedUe crypto s.ue type pdu tail).ulCount.value := fun count hCount =>
      Nat.le_trans (hDistinct.bounded count hCount) hUp
  by_cases hPasses : passes s.ue type (decodedUe crypto s.ue type pdu tail) = true
  · have hChecked : MacChecked s.ue type := by
      simp only [passes, Bool.and_eq_true, decide_eq_true_eq] at hPasses
      exact hPasses.1.1
    have hNew := decodedUe_not_verified crypto s type pdu tail hDistinct hContext hFresh hChecked
    constructor
    · simp only [Uplink.decoded, hPasses, if_true]
      exact List.nodup_cons.mpr ⟨hNew, hDistinct.nodup⟩
    · simp only [Uplink.decoded, hPasses, if_true]
      intro count hCount
      rcases List.mem_cons.mp hCount with rfl | hBefore
      · exact Nat.le_refl _
      · exact hOld count hBefore
  · constructor
    · simp only [Uplink.decoded, hPasses]
      exact hDistinct.nodup
    · simp only [Uplink.decoded, hPasses]
      exact hOld

/-
  In every run whose messages are fresh, no two messages have passed the MAC check under one COUNT.
-/
theorem verified_counts_distinct (crypto : Crypto) (s : Uplink)
    (hReach : (uplink crypto).ReachableBy (fun s step => SameContext s step ∧ Fresh s step) s) :
    s.verified.Nodup := by
  suffices hDistinct : s.Distinct from hDistinct.nodup
  refine Faulty.System.ReachableBy.invariant ?_ ?_ hReach
  · intro s hInit
    have hNone : s.verified = [] := hInit
    exact ⟨by simp [hNone], by simp [hNone]⟩
  · rintro s step s' _ hDistinct ⟨hContext, hFresh⟩ hExec
    cases step with
    | deliver pdu tail =>
      rcases deliver_cases hExec with rfl | ⟨type, pkbuf, hReceived, rfl⟩
      · exact hDistinct
      · apply decoded_distinct crypto s type pdu tail hDistinct
        · simpa [SameContext, hReceived] using hContext
        · simpa [Fresh, hReceived] using hFresh
    | clearMacFailed =>
      cases hExec
      exact ⟨hDistinct.nodup, hDistinct.bounded⟩

/- The two messages of `sampleCrypto` with their MACs. -/
def genuineFive : List UInt8 := [0x17, 133, 155, 69, 180, 5, 0x07, 0x4e]

def genuineNine : List UInt8 := [0x17, 137, 1, 235, 192, 9, 0x07, 0x4e]

theorem verified_counts_distinct_two :
    ∃ s, (uplink sampleCrypto).run ⟨securedUe, []⟩
          [.deliver genuineFive [], .deliver genuineNine []] = .ok s ∧
        s.verified = [9, 5] ∧ s.verified.Nodup := by
  have hEnds : ∃ s, (uplink sampleCrypto).run ⟨securedUe, []⟩
    [.deliver genuineFive [], .deliver genuineNine []] = .ok s ∧ s.verified = [9, 5] :=
    Faulty.System.exists_run (by decide +kernel)
  rcases hEnds with ⟨s, hRun, hVerified⟩
  refine ⟨s, hRun, hVerified, ?_⟩
  have hInit : (uplink sampleCrypto).Init ⟨securedUe, []⟩ := rfl
  apply verified_counts_distinct sampleCrypto s
  exact Faulty.System.ReachableBy.run (.init hInit) (by decide +kernel) hRun

/- The same PDU passes twice under the COUNT nine. -/
theorem replayed_pdu_passes :
    (uplink sampleCrypto).AllowedRun SameContext ⟨securedUe, []⟩
        [.deliver genuineNine [], .deliver genuineNine []] ∧ ∃ s,
        (uplink sampleCrypto).run ⟨securedUe, []⟩
            [.deliver genuineNine [], .deliver genuineNine []] = .ok s ∧
          s.verified = [9, 9] ∧ ¬ s.verified.Nodup := by
  constructor
  · exact ⟨rfl, rfl, trivial⟩
  · exact Faulty.System.exists_run (by decide +kernel)

end Pretty5gs.Mme
