import Pretty5gs.Mme.NasDecoding

/-
  The octets that `s1ap_send_to_nas` reads.

  A call that only reads the PDU returns the same whatever lies behind the PDU in memory. The short
  MAC of a service request is read without a check that it is there.

  Main results: `dispatchNas_eq`, `nas_pdu_reads_within_iff`.
-/

---- After The Decoding ----

namespace Pretty5gs.Mme

/- Ciphering works in place and keeps the length. -/
structure StreamCrypto extends Crypto where
  eea_length : ∀ algorithm key count bearer direction data,
      (eea algorithm key count bearer direction data).length = data.length

/- The event that a message is passed on with. -/
inductive Forwarded where
  | emm (message : List UInt8)
  | esm (message : List UInt8)
deriving DecidableEq, Repr

/- An octet of `ogs_nas_emm_header_t`. -/
def emmHeaderOctet (nasbuf : Pkbuf) (index : Nat) : Except Fault Nat :=
  (nasbuf.read index 1).map (fun octets => (octets.getD 0 0).toNat)

/- `OGS_NAS_PROTOCOL_DISCRIMINATOR_EMM` -/
abbrev discriminatorEmm : Nat := 0x7

/- `OGS_NAS_PROTOCOL_DISCRIMINATOR_ESM` -/
abbrev discriminatorEsm : Nat := 0x2

/- `OGS_NAS_SECURITY_HEADER_FOR_SERVICE_REQUEST_MESSAGE` -/
abbrev headerServiceRequest : Nat := 12

/- Attach, tracking area update, extended service and detach requests. -/
def initialMessageTypes : List Nat := [65, 72, 76, 69]

/- Whether an Initial UE Message may carry the message. -/
def mayBeInitial (nasbuf : Pkbuf) : Except Fault Bool := do
  let octet ← emmHeaderOctet nasbuf 0
  if octet % 16 ≠ discriminatorEmm then return false
  else if octet / 16 = headerServiceRequest then return true
  else do
    let messageType ← emmHeaderOctet nasbuf 1
    return decide (messageType ∈ initialMessageTypes)

/- The event by protocol discriminator; ESM needs a UE. -/
def forwardNas (known : Bool) (nasbuf : Pkbuf) : Except Fault (Option Forwarded) := do
  let octet ← emmHeaderOctet nasbuf 0
  if octet % 16 = discriminatorEmm then return some (.emm nasbuf.data)
  else if octet % 16 = discriminatorEsm && known then return some (.esm nasbuf.data)
  else return none

/- The part of `s1ap_send_to_nas` after the decoding. -/
def dispatchNas (known initial : Bool) (nasbuf : Pkbuf) : Except Fault (Option Forwarded) := do
  let allowed ←
    (if initial then mayBeInitial nasbuf else .ok true)
  if allowed then forwardNas known nasbuf else return none

/- The part from the decoding on, with a UE context. -/
def decodeAndDispatch (crypto : Crypto) (ue : MmeUe) (initial : Bool) (type : SecurityHeaderType)
    (nasbuf : Pkbuf) : Except Fault (Option MmeUe × Option Forwarded) :=
  nasEpsSecurityDecode crypto ue type nasbuf >>= fun result =>
    if result.1 ≠ .ok then .ok (some result.2.1, none)
    else (dispatchNas true initial result.2.2).map (fun forwarded => (some result.2.1, forwarded))

/-
  `s1ap_send_to_nas` for a UE context that may be NULL: the context and the event, if one is pushed.
  `initial` stands for the procedure code of an Initial UE Message.
-/
def s1apSendToNasPdu (crypto : Crypto) (ue : Option MmeUe) (initial : Bool)
    (pdu tail : List UInt8) : Except Fault (Option MmeUe × Option Forwarded) :=
  match received pdu tail with
  | none => .ok (ue, none)
  | some (type, nasbuf) =>
      match ue with
      | none => (dispatchNas false initial nasbuf).map (fun forwarded => (none, forwarded))
      | some ue => decodeAndDispatch crypto ue initial type nasbuf

---- The Header Is There ----

/- The event for a message of two octets or more. -/
def dispatched (known initial : Bool) (data : List UInt8) : Option Forwarded :=
  let octet := (data.getD 0 0).toNat
  let messageType := (data.getD 1 0).toNat
  if initial = true ∧ ¬ (octet % 16 = discriminatorEmm ∧ (octet / 16 = headerServiceRequest ∨
          messageType ∈ initialMessageTypes)) then none
  else if octet % 16 = discriminatorEmm then some (.emm data)
  else if octet % 16 = discriminatorEsm && known then some (.esm data)
  else none

theorem emmHeaderOctet_eq (hIndex : index < nasbuf.data.length) :
    emmHeaderOctet nasbuf index = .ok (nasbuf.data.getD index 0).toNat := by
  have hRoom : index + 1 ≤ (nasbuf.data ++ nasbuf.tail).length := by
    rw [List.length_append]
    omega
  have hOctet : (((nasbuf.data ++ nasbuf.tail).drop index).take 1).getD 0 0 =
    nasbuf.data.getD index 0 := by
    simp only [List.getD_eq_getElem?_getD, List.getElem?_take,
      List.getElem?_drop, Nat.add_zero, Nat.zero_lt_one, if_true]
    rw [List.getElem?_append_left hIndex]
  unfold emmHeaderOctet
  rw [Pkbuf.read_ok nasbuf index 1 hRoom, Except.map, hOctet]

theorem mayBeInitial_eq (hLength : 2 ≤ nasbuf.data.length) :
    mayBeInitial nasbuf = .ok (decide ((nasbuf.data.getD 0 0).toNat % 16 = discriminatorEmm ∧
          ((nasbuf.data.getD 0 0).toNat / 16 = headerServiceRequest ∨ (nasbuf.data.getD 1 0).toNat ∈
              initialMessageTypes))) := by
  unfold mayBeInitial
  rw [emmHeaderOctet_eq (by omega), emmHeaderOctet_eq (by omega)]
  generalize (nasbuf.data.getD 0 0).toNat = octet
  simp only [bind, Except.bind, pure, Except.pure]
  by_cases hEmm : octet % 16 = discriminatorEmm
  · by_cases hService : octet / 16 = headerServiceRequest
    · simp [hEmm, hService]
    · simp [hEmm, hService]
  · simp [hEmm]

theorem forwardNas_eq (known : Bool) (hLength : 2 ≤ nasbuf.data.length) :
    forwardNas known nasbuf = .ok (dispatched known false nasbuf.data) := by
  unfold forwardNas dispatched
  rw [emmHeaderOctet_eq (by omega)]
  simp only [bind, Except.bind, Bool.false_eq_true, false_and, if_false, pure, Except.pure]
  split
  · rfl
  · split <;> rfl

theorem dispatchNas_eq (known initial : Bool) (nasbuf : Pkbuf) (hLength : 2 ≤ nasbuf.data.length) :
    dispatchNas known initial nasbuf = .ok (dispatched known initial nasbuf.data) := by
  have hForward := forwardNas_eq known hLength
  cases initial with
  | false => exact hForward
  | true =>
    unfold dispatchNas
    rw [if_pos rfl, mayBeInitial_eq hLength, hForward]
    unfold dispatched
    simp only [bind, Except.bind, pure, Except.pure,
      decide_eq_true_eq, Bool.false_eq_true, false_and, if_false, true_and, ite_not]
    split <;> rfl

---- Octets Behind The PDU ----

/- The header type of the PDU only asks for octets that it has and algorithms that exist. -/
def ReadsWithin (ue : Option MmeUe) (pdu : List UInt8) : Prop :=
  ∀ ue', ue = some ue' → ∀ type nasbuf, received pdu [] = some (type, nasbuf) →
      Sound ue' type pdu []

/- What is recognised does not depend on the octets behind. -/
theorem received_tail : received pdu tail = (received pdu []).map
        (fun found => (found.1, { found.2 with tail := tail })) := by
  unfold received
  by_cases hShort : pdu.length < 2
  · rw [if_pos hShort, if_pos hShort]
    rfl
  · rw [if_neg hShort, if_neg hShort]
    cases securityHeaderType ((pdu.getD 0 0).toNat / 16) with
    | none => rfl
    | some type =>
      simp only [bind, Option.bind, skipSecurityHeader, Pkbuf.pull]
      by_cases hIntegrity : type.integrityProtected = true
      · by_cases hHeader : 6 > pdu.length
        · simp [hIntegrity, hHeader]
        · by_cases hEmm : (pdu.drop 6).length < 2
          · simp only [hIntegrity, hHeader, hEmm, if_true, if_false]
            rfl
          · simp only [hIntegrity, hHeader, hEmm, if_true, if_false]
            rfl
      · simp only [hIntegrity, Bool.false_eq_true, if_false, hShort, Option.map_some]

section Behind

variable {crypto : Crypto} {ue : MmeUe} {pdu tail : List UInt8} {type : SecurityHeaderType}
variable (hSound : Sound ue type pdu [])

include hSound

theorem sound_tail : Sound ue type pdu tail := by
  refine ⟨fun hChecked => ?_, hSound.2⟩
  rcases hSound.1 hChecked with ⟨hImplemented, hRoom⟩
  refine ⟨hImplemented, fun hService => ?_⟩
  have hLength := hRoom hService
  rw [List.append_nil] at hLength
  rw [List.length_append]
  omega

/- The short MAC is in the PDU. -/
theorem short_mac_tail (hService : type.serviceRequest = true)
    (hAlgorithm : ue.selectedIntAlgorithm ≠ 0) :
    ((pdu ++ tail).drop 2).take 2 = ((pdu ++ []).drop 2).take 2 := by
  have hLength := (hSound.1 ⟨hAlgorithm, .inl hService⟩).2 hService
  rw [List.append_nil] at hLength ⊢
  rw [List.drop_append_of_le_length (by omega), List.take_append_of_le_length (by
    rw [List.length_drop]
    omega)]

theorem decodedUe_tail : decodedUe crypto ue type pdu tail = decodedUe crypto ue type pdu [] := by
  unfold decodedUe
  by_cases hChecked : MacChecked ue type
  · have hVerifies : MacVerifies crypto ue type pdu tail ↔ MacVerifies crypto ue type pdu [] := by
      unfold MacVerifies
      by_cases hService : type.serviceRequest = true
      · rw [if_pos hService, if_pos hService, short_mac_tail hSound hService hChecked.1]
      · rw [if_neg hService, if_neg hService]
    unfold compared
    simp only [hVerifies]
  · rw [if_neg hChecked, if_neg hChecked]

theorem decodedData_tail :
    decodedData crypto ue type pdu tail = decodedData crypto ue type pdu [] := by
  unfold decodedData
  by_cases hService : type.serviceRequest = true ∧ ue.selectedIntAlgorithm ≠ 0
  · rw [if_pos hService, if_pos hService,
    short_mac_tail hSound hService.1 hService.2]
  · rw [if_neg hService, if_neg hService]

end Behind

/- Decoding leaves a header of two octets. -/
theorem two_le_decodedData (crypto : StreamCrypto) (ue : MmeUe)
    (hReceived : received pdu tail = some (type, pkbuf)) :
    2 ≤ (decodedData crypto.toCrypto ue type pdu tail).length := by
  unfold decodedData
  rcases received_cases hReceived with
    ⟨hIntegrity, _, hLength, _⟩ | ⟨hService, hIntegrity, hLength, _⟩
  · split
    · rw [List.length_append, List.length_take]
      omega
    · rw [if_neg (by simp [hIntegrity])]
      exact hLength
  · rw [if_neg (by simp [hService]), if_pos hIntegrity]
    unfold plainText
    split
    · rw [crypto.eea_length, List.length_drop]
      omega
    · rw [List.length_drop]
      omega

/- What a call returns that stays within the PDU. -/
def sendToNasResult (crypto : Crypto) (ue : Option MmeUe) (initial : Bool)
    (pdu : List UInt8) : Option MmeUe × Option Forwarded :=
  match received pdu [] with
  | none => (ue, none)
  | some (type, nasbuf) =>
      match ue with
      | none => (none, dispatched false initial nasbuf.data)
      | some ue =>
          (some (decodedUe crypto ue type pdu []), if decodedRv ue type ≠ .ok then none
            else dispatched true initial (decodedData crypto ue type pdu []))

/- A call with a UE context, as far as its reads go. -/
theorem decodeAndDispatch_eq (crypto : StreamCrypto) {ue : MmeUe} (initial : Bool)
    {pdu tail : List UInt8} {type : SecurityHeaderType} {pkbuf : Pkbuf}
    (hReceived : received pdu tail = some (type, pkbuf)) (hSound : Sound ue type pdu []) :
    decodeAndDispatch crypto.toCrypto ue initial type pkbuf =
      .ok (some (decodedUe crypto.toCrypto ue type pdu []),
        if decodedRv ue type ≠ .ok then none
        else dispatched true initial (decodedData crypto.toCrypto ue type pdu [])) := by
  rcases nasEpsSecurityDecode_ok crypto.toCrypto ue pdu tail type
    pkbuf hReceived (sound_tail hSound) with ⟨head, rest, hDecode⟩
  have hHeader := two_le_decodedData crypto ue hReceived
  unfold decodeAndDispatch
  rw [hDecode]
  simp only [bind, Except.bind]
  rw [decodedUe_tail hSound]
  split
  · rfl
  · rw [dispatchNas_eq true initial _ hHeader,
    decodedData_tail hSound]
    rfl

/-
  The call returns, and returns the same whatever lies behind the PDU, exactly when its header type
  asks for no more than the PDU has and the algorithms that are used exist.
-/
theorem nas_pdu_reads_within_iff (crypto : StreamCrypto) (ue : Option MmeUe) (initial : Bool)
    (pdu : List UInt8) :
    (∃ result, ∀ tail, s1apSendToNasPdu crypto.toCrypto ue initial pdu tail = .ok result) ↔
      ReadsWithin ue pdu := by
  constructor
  · rintro ⟨result, hReturns⟩ ue' rfl type nasbuf hReceived
    by_contra hAbort
    rcases nasEpsSecurityDecode_aborts crypto.toCrypto ue' pdu [] type nasbuf hReceived hAbort with
      ⟨fault, hFault⟩
    have hNone := hReturns []
    simp only [s1apSendToNasPdu, hReceived, decodeAndDispatch, hFault] at hNone
    contradiction
  · intro hWithin
    refine ⟨sendToNasResult crypto.toCrypto ue initial pdu, ?_⟩
    intro tail
    unfold s1apSendToNasPdu sendToNasResult
    cases hReceived : received pdu [] with
    | none =>
      rw [received_tail, hReceived]
      rfl
    | some found =>
      rcases found with ⟨type, nasbuf⟩
      have hFound : received pdu tail = some (type, { nasbuf with tail := tail }) := by
        rw [received_tail, hReceived]
        rfl
      rw [hFound]
      cases ue with
      | none =>
        have hHeader : 2 ≤ nasbuf.data.length := by
          rcases received_cases hReceived with ⟨_, _, hLength, rfl⟩ | ⟨_, _, hLength, rfl⟩
          · exact hLength
          · simp only [List.length_drop]
            omega
        have hDispatch := dispatchNas_eq false initial { nasbuf with tail := tail } hHeader
        simp only [hDispatch]
        rfl
      | some ue' =>
        exact decodeAndDispatch_eq crypto initial hFound (hWithin ue' rfl type nasbuf hReceived)

/- A UE with the COUNT five and EIA2 under a key of zeros. -/
def requestingUe : MmeUe where
  securityContextAvailable := true
  selectedIntAlgorithm := 2
  selectedEncAlgorithm := 0
  knasInt := List.replicate 16 0
  knasEnc := List.replicate 16 0
  ulCount := ⟨0, 0, 5⟩
  macFailed := false

/- AES-CMAC with its key on the service request below. -/
def requestCrypto : StreamCrypto where
  eia := fun _ _ count _ _ data =>
    if count = 5 ∧ data = [0xc7, 0x05] then [209, 174, 110, 163]
    else []
  eea := fun _ _ _ _ _ data => data
  eea_length := fun _ _ _ _ _ _ => rfl

/- A service request that ends before its short MAC. -/
def shortRequest : List UInt8 := [0xc7, 0x05]

/-
  Whether the request passes the MAC check is up to the octets behind it, and without any the read
  is out of bounds.
-/
theorem short_request_reads_behind : s1apSendToNasPdu requestCrypto.toCrypto (some requestingUe)
        true shortRequest [] = .error (.outOfBounds 2) ∧
      s1apSendToNasPdu requestCrypto.toCrypto (some requestingUe) true shortRequest [110, 163] =
        .ok (some requestingUe, some (.emm [0xc7, 0x05, 110, 163])) ∧
      s1apSendToNasPdu requestCrypto.toCrypto (some requestingUe) true shortRequest [0, 0] =
        .ok (some { requestingUe with macFailed := true }, some (.emm [0xc7, 0x05, 0, 0])) := by
  refine ⟨?_, ?_, ?_⟩ <;> decide +kernel

end Pretty5gs.Mme
