import Pretty5gs.Mme.NasSecurity

/-
  What the decoding of a received PDU does: it returns with the COUNT that is estimated and the MAC
  compared under it, or it aborts the process.

  Main results: `nasEpsSecurityDecode_ok`, `nasEpsSecurityDecode_aborts`.
-/

---- Decoding A Received PDU ----

namespace Pretty5gs.Mme

theorem received_cases (hReceived : received pdu tail = some (type, pkbuf)) :
    (type.integrityProtected = false ∧ type.ciphered = false ∧ 2 ≤ pdu.length ∧
        pkbuf = ⟨nasHeadroom, pdu, tail⟩) ∨ (type.serviceRequest = false ∧
        type.integrityProtected = true ∧ 8 ≤ pdu.length ∧ pkbuf =
          ⟨nasHeadroom ++ pdu.take 6, pdu.drop 6, tail⟩) := by
  unfold received at hReceived
  split at hReceived
  · contradiction
  rcases Option.bind_eq_some_iff.mp hReceived with ⟨found, hType, hRest⟩
  rcases Option.bind_eq_some_iff.mp hRest with ⟨nasbuf, hPull, hDone⟩
  split at hDone
  · contradiction
  rename_i hShort
  cases hDone
  unfold skipSecurityHeader at hPull
  split at hPull
  · rename_i hIntegrity
    unfold Pkbuf.pull at hPull
    split at hPull
    · contradiction
    cases hPull
    simp only [List.length_drop] at hShort
    right
    refine ⟨?_, hIntegrity, by omega, rfl⟩
    -- no header type has both flags
    unfold securityHeaderType at hType
    split at hType <;> cases hType <;> simp_all
  · rename_i hPlain
    cases hPull
    left
    refine ⟨by simpa using hPlain, ?_, by omega, rfl⟩
    -- only protected messages are ciphered
    unfold securityHeaderType at hType
    split at hType <;> cases hType <;> simp_all

theorem ogsNasMacCalculate_ok (crypto : Crypto) (algorithm : Nat) (key : List UInt8) (count : U32)
    (pkbuf : Pkbuf) (hData : pkbuf.data ≠ []) (hHead : 8 ≤ pkbuf.head.length)
    (hImplemented : Implemented algorithm) : ∃ head,
      ogsNasMacCalculate crypto algorithm key count pkbuf =
        .ok (crypto.eia algorithm key count nasSecurityBearer uplinkDirection pkbuf.data,
          { pkbuf with head := head }) := by
  have hEmpty : pkbuf.data.isEmpty = false := by simpa using hData
  unfold ogsNasMacCalculate
  rw [if_neg (by simp [hEmpty]), if_pos hImplemented]
  by_cases hTwo : algorithm = 2
  · rw [if_pos hTwo]
    unfold writeIvec Pkbuf.push
    rw [if_neg (by omega)]
    exact ⟨_, rfl⟩
  · rw [if_neg hTwo]
    exact ⟨pkbuf.head, rfl⟩

theorem ogsNasMacCalculate_unknown (hUnknown : ¬ Implemented algorithm) :
    ogsNasMacCalculate crypto algorithm key count pkbuf = .error .assertion := by
  unfold ogsNasMacCalculate
  rw [if_neg hUnknown, ite_self]

section Received

variable (crypto : Crypto) (ue : MmeUe) (type : SecurityHeaderType) (pdu tail : List UInt8)

open Pkbuf

theorem Pkbuf.read_ok (pkbuf : Pkbuf) (start len : Nat)
    (hRoom : start + len ≤ (pkbuf.data ++ pkbuf.tail).length) :
    pkbuf.read start len = .ok (((pkbuf.data ++ pkbuf.tail).drop start).take len) := by
  unfold read
  rw [if_neg (by omega)]

theorem Pkbuf.trim_eq (pkbuf : Pkbuf) (len : Nat) (hLen : len ≤ pkbuf.data.length) :
    pkbuf.trim len =
      { pkbuf with
        data := pkbuf.data.take len
        tail := pkbuf.data.drop len ++ pkbuf.tail } := by
  unfold trim
  rw [if_neg (by omega)]

theorem Pkbuf.putData_ok (pkbuf : Pkbuf) (octets : List UInt8)
    (hRoom : octets.length ≤ pkbuf.tail.length) : pkbuf.putData octets = .ok
        { pkbuf with
          data := pkbuf.data ++ octets
          tail := pkbuf.tail.drop octets.length } := by
  unfold putData
  rw [if_neg (by omega)]

/- The sequence number is in the PDU, not behind it. -/
theorem shortSequenceNumber_read (hLength : 2 ≤ pdu.length) :
    shortSequenceNumber (((pdu ++ tail).drop 1).take 1) = shortSequenceNumber (pdu.drop 1) := by
  rcases pdu with _ | ⟨first, _ | ⟨second, rest⟩⟩
  · simp at hLength
  · simp at hLength
  · rfl

/- The UE context after the MAC of a PDU has been compared. -/
def compared : MmeUe :=
  let ue' := { ue with ulCount := checkedCount ue type pdu }
  if MacVerifies crypto ue type pdu tail then ue'
  else { ue' with macFailed := true }

/- A service request whose octets are all there. -/
theorem decodeServiceRequest_ok (hService : type.serviceRequest = true) (hLength : 2 ≤ pdu.length)
    (hRoom : 4 ≤ (pdu ++ tail).length) (hImplemented : Implemented ue.selectedIntAlgorithm) :
    ∃ head, decodeServiceRequest crypto ue ⟨nasHeadroom, pdu, tail⟩ =
        .ok (.ok, compared crypto ue type pdu tail,
          ⟨head, pdu.take 2 ++ ((pdu ++ tail).drop 2).take 2, (pdu.drop 2 ++ tail).drop 2⟩) := by
  have hAlgorithm : ue.selectedIntAlgorithm ≠ 0 := by rcases hImplemented with h | h | h <;> omega
  have hTake : (pdu.take 2).length = 2 := by
    rw [List.length_take]
    omega
  have hMac : (((pdu ++ tail).drop 2).take 2).length = 2 := by
    rw [List.length_take, List.length_drop]
    omega
  have hCount : ue.ulCount.advance (estimatedSequenceNumber ue.ulCount.sqn (shortSequenceNumber
    (((pdu ++ tail).drop 1).take 1))) = checkedCount ue type pdu := by
    rw [shortSequenceNumber_read pdu tail hLength, checkedCount, if_pos hService]
  rcases ogsNasMacCalculate_ok crypto ue.selectedIntAlgorithm
    ue.knasInt (checkedCount ue type pdu).i32 ⟨nasHeadroom, pdu.take 2, pdu.drop 2 ++ tail⟩ (by
      intro hNil
      simp only at hNil
      rw [hNil] at hTake
      contradiction)
    (by simp [nasHeadroom]) hImplemented with
    ⟨head, hCalculate⟩
  -- the MAC that was put back is the one that was received
  have hBack : ((pdu.take 2 ++ ((pdu ++ tail).drop 2).take 2 ++
    ((pdu.drop 2 ++ tail).drop 2)).drop 2).take 2 = ((pdu ++ tail).drop 2).take 2 := by
    rw [List.append_assoc, List.drop_append_of_le_length
      (by omega), List.drop_of_length_le (by omega),
      List.nil_append, List.take_append_of_le_length (by omega), List.take_of_length_le (by omega)]
  refine ⟨head, ?_⟩
  unfold decodeServiceRequest
  rw [if_neg hAlgorithm, read_ok _ 1 1 (by simp only; omega)]
  simp only [bind, Except.bind]
  rw [read_ok _ 2 2 (by simpa using hRoom), trim_eq _ 2 hLength]
  simp only [hCount, hCalculate]
  rw [putData_ok _ _ (by
    simp only [List.length_append, List.length_drop] at hRoom ⊢
    omega)]
  simp only
  rw [read_ok _ 2 2 (by
    simp only [List.length_append, hTake, hMac]
    omega)]
  simp only [hMac, hBack, compared, MacVerifies, macCovers,
    hService, if_true, ite_not, pure, Except.pure]

/- A service request that aborts the process. -/
theorem decodeServiceRequest_aborts (hAlgorithm : ue.selectedIntAlgorithm ≠ 0)
    (hLength : 2 ≤ pdu.length)
    (hAbort : ¬ (Implemented ue.selectedIntAlgorithm ∧ 4 ≤ (pdu ++ tail).length)) :
    ∃ fault, decodeServiceRequest crypto ue ⟨nasHeadroom, pdu, tail⟩ = .error fault := by
  unfold decodeServiceRequest
  rw [if_neg hAlgorithm, read_ok _ 1 1 (by
    simp only [List.length_append]
    omega)]
  by_cases hRoom : 4 ≤ (pdu ++ tail).length
  · have hUnknown : ¬ Implemented ue.selectedIntAlgorithm :=
    fun hImplemented => hAbort ⟨hImplemented, hRoom⟩
    rw [read_ok _ 2 2 (by simpa using hRoom)]
    simp only [ogsNasMacCalculate_unknown hUnknown]
    exact ⟨_, rfl⟩
  · unfold Pkbuf.read
    simp only
    rw [if_pos (by omega)]
    exact ⟨_, rfl⟩

/- The buffer of a protected PDU, back at its header. -/
theorem push_received (hLength : 8 ≤ pdu.length) :
    push ⟨nasHeadroom ++ pdu.take 6, pdu.drop 6, tail⟩ 6 = .ok ⟨nasHeadroom, pdu, tail⟩ := by
  have hHead : (nasHeadroom ++ pdu.take 6).length = 22 := by
    rw [List.length_append, List.length_take, nasHeadroom, List.length_replicate]
    omega
  have hRoom : nasHeadroom.length = 16 := rfl
  unfold push
  simp only [hHead]
  rw [if_neg (by omega), List.take_append_of_le_length (by omega),
    List.take_of_length_le (by omega), List.drop_append_of_le_length (by omega),
    List.drop_of_length_le (by omega), List.nil_append, List.take_append_drop]

theorem Pkbuf.pullAssert_ok {pkbuf : Pkbuf} {len : Nat} (hLen : len ≤ pkbuf.data.length) :
    pkbuf.pullAssert len = .ok
        { pkbuf with
          head := pkbuf.head ++ pkbuf.data.take len
          data := pkbuf.data.drop len } := by
  unfold pullAssert pull
  rw [if_neg (by omega)]

/- The MAC of a header is compared with the calculated one. -/
theorem verifyMac_ok (h : List UInt8) (pkbuf : Pkbuf) (hData : pkbuf.data ≠ [])
    (hHead : 8 ≤ pkbuf.head.length) (hImplemented : Implemented ue.selectedIntAlgorithm) : ∃ head,
      verifyMac crypto ue h pkbuf = .ok (if headerMac h =
              crypto.eia ue.selectedIntAlgorithm ue.knasInt ue.ulCount.i32 nasSecurityBearer
                uplinkDirection pkbuf.data then ue
          else { ue with macFailed := true },
          { pkbuf with head := head }) := by
  rcases ogsNasMacCalculate_ok crypto ue.selectedIntAlgorithm
    ue.knasInt ue.ulCount.i32 pkbuf hData hHead hImplemented with ⟨head, hCalculate⟩
  unfold verifyMac
  rw [hCalculate]
  simp only [bind, Except.bind, ite_not]
  exact ⟨_, rfl⟩

theorem verifyMac_unknown (h : List UInt8) (pkbuf : Pkbuf)
    (hUnknown : ¬ Implemented ue.selectedIntAlgorithm) :
    verifyMac crypto ue h pkbuf = .error .assertion := by
  unfold verifyMac
  rw [ogsNasMacCalculate_unknown hUnknown]
  rfl

/- The message behind the header, deciphered in place. -/
def plainText (ciphered : Bool) : List UInt8 :=
  if ciphered then
    crypto.eea ue.selectedEncAlgorithm ue.knasEnc (checkedCount ue type pdu).i32 nasSecurityBearer
      uplinkDirection (pdu.drop 6)
  else pdu.drop 6

theorem decipher_ok {pkbuf : Pkbuf} (hData : pkbuf.data ≠ [])
    (hImplemented : Implemented ue.selectedEncAlgorithm) : decipher crypto ue pkbuf = .ok (.ok, ue,
        { pkbuf with
          data :=
            crypto.eea ue.selectedEncAlgorithm ue.knasEnc
              ue.ulCount.i32 nasSecurityBearer uplinkDirection
              pkbuf.data }) := by
  have hEmpty : ¬ pkbuf.data.isEmpty = true := by simpa using hData
  unfold decipher ogsNasEncrypt
  rw [if_neg hEmpty, if_neg hEmpty, if_pos hImplemented]
  rfl

theorem decipher_unknown {pkbuf : Pkbuf} (hData : pkbuf.data ≠ [])
    (hUnknown : ¬ Implemented ue.selectedEncAlgorithm) :
    decipher crypto ue pkbuf = .error .assertion := by
  have hEmpty : ¬ pkbuf.data.isEmpty = true := by simpa using hData
  unfold decipher ogsNasEncrypt
  rw [if_neg hEmpty, if_neg hEmpty, if_neg hUnknown]
  rfl

/- The UE context that the MAC of a header is checked in. -/
def counted (ue : MmeUe) (pdu : List UInt8) : MmeUe :=
  { ue with ulCount := ue.ulCount.advance (headerSequenceNumber pdu) }

end Received

---- What Decoding Does ----

variable (ue : MmeUe) (type : SecurityHeaderType)

/- The UE context after `new_security_context`. -/
def renewed : MmeUe :=
  if type.newSecurityContext then { ue with ulCount := UlCount.zero }
  else ue

theorem counted_renewed {pdu : List UInt8}
    (hProtected : type.serviceRequest = false) : counted (renewed ue type) pdu =
      { ue with ulCount := checkedCount ue type pdu } := by
  unfold counted renewed checkedCount
  simp only [hProtected, Bool.false_eq_true, if_false]
  split <;> rfl

@[simp] theorem renewed_selectedIntAlgorithm :
    (renewed ue type).selectedIntAlgorithm = ue.selectedIntAlgorithm := by
  unfold renewed
  split <;> rfl

@[simp] theorem renewed_selectedEncAlgorithm :
    (renewed ue type).selectedEncAlgorithm = ue.selectedEncAlgorithm := by
  unfold renewed
  split <;> rfl

/- The MAC of the message is compared. -/
def MacChecked : Prop :=
  ue.selectedIntAlgorithm ≠ 0 ∧ (type.serviceRequest = true ∨ type.integrityProtected = true ∧
        ue.securityContextAvailable = true)

/- The message is deciphered. -/
def Deciphered : Prop :=
  type.serviceRequest = false ∧ type.ciphered = true ∧ ue.securityContextAvailable = true ∧
    ue.selectedEncAlgorithm ≠ 0

instance (ue : MmeUe) (type : SecurityHeaderType) : Decidable (MacChecked ue type) :=
  inferInstanceAs (Decidable (_ ∧ (_ ∨ _ ∧ _)))

instance (ue : MmeUe) (type : SecurityHeaderType) : Decidable (Deciphered ue type) :=
  inferInstanceAs (Decidable (_ ∧ _ ∧ _ ∧ _))

/-
  What decoding needs in order not to abort: the algorithms that it uses exist, and the MAC of a
  service request is there.
-/
def Sound (ue : MmeUe) (type : SecurityHeaderType) (pdu tail : List UInt8) : Prop :=
  (MacChecked ue type → Implemented ue.selectedIntAlgorithm ∧ (type.serviceRequest = true →
        4 ≤ (pdu ++ tail).length)) ∧
    (Deciphered ue type → Implemented ue.selectedEncAlgorithm)

instance (ue : MmeUe) (type : SecurityHeaderType) (pdu tail : List UInt8) :
    Decidable (Sound ue type pdu tail) :=
  inferInstanceAs (Decidable ((_ → _ ∧ (_ → _)) ∧ (_ → _)))

/- The UE context that decoding leaves. -/
def decodedUe (crypto : Crypto) (ue : MmeUe) (type : SecurityHeaderType)
    (pdu tail : List UInt8) : MmeUe :=
  if MacChecked ue type then compared crypto ue type pdu tail
  else if Deciphered ue type then { ue with ulCount := checkedCount ue type pdu }
  else if type.serviceRequest = false ∧ ue.securityContextAvailable = true then renewed ue type
  else ue

/- The octets that decoding leaves as the message. -/
def decodedData (crypto : Crypto) (ue : MmeUe) (type : SecurityHeaderType)
    (pdu tail : List UInt8) : List UInt8 :=
  if type.serviceRequest = true ∧ ue.selectedIntAlgorithm ≠ 0 then
    pdu.take 2 ++ ((pdu ++ tail).drop 2).take 2
  else if type.integrityProtected = true then
    plainText crypto ue type pdu (decide (Deciphered ue type))
  else pdu

/- A service request fails without an integrity algorithm. -/
def decodedRv (ue : MmeUe) (type : SecurityHeaderType) : Rv :=
  if type.serviceRequest = true ∧ ue.selectedIntAlgorithm = 0 then .error
  else .ok

section Decoding

variable (crypto : Crypto) {ue : MmeUe} {type : SecurityHeaderType} (pdu tail : List UInt8)

@[simp] theorem compared_ulCount :
    (compared crypto ue type pdu tail).ulCount = checkedCount ue type pdu := by
  unfold compared
  split <;> rfl

@[simp] theorem compared_selectedEncAlgorithm :
    (compared crypto ue type pdu tail).selectedEncAlgorithm = ue.selectedEncAlgorithm := by
  unfold compared
  split <;> rfl

@[simp] theorem compared_knasEnc : (compared crypto ue type pdu tail).knasEnc = ue.knasEnc := by
  unfold compared
  split <;> rfl

theorem decodedUe_ulCount (hProtected : MacChecked ue type ∨ Deciphered ue type) :
    (decodedUe crypto ue type pdu tail).ulCount = checkedCount ue type pdu := by
  unfold decodedUe
  by_cases hMac : MacChecked ue type
  · rw [if_pos hMac, compared_ulCount]
  · rw [if_neg hMac, if_pos (hProtected.resolve_left hMac)]

/- The block for an integrity protected message, if it runs. -/
variable (ue type) in
def verifyBlock (integrityProtected : Bool) : Except Fault (MmeUe × Pkbuf) :=
  if integrityProtected then
    verifyMac crypto { ue with ulCount := checkedCount ue type pdu } pdu
      ⟨nasHeadroom ++ pdu.take 5, pdu.drop 5, tail⟩
  else
    .ok ({ ue with ulCount := checkedCount ue type pdu },
      ⟨nasHeadroom ++ pdu.take 5, pdu.drop 5, tail⟩)

/- The block for a ciphered message, if it runs. -/
def decipherBlock (ciphered : Bool) (verified : MmeUe × Pkbuf) :
    Except Fault (Rv × MmeUe × Pkbuf) :=
  verified.2.pullAssert 1 >>= fun pkbuf =>
    if ciphered then decipher crypto verified.1 pkbuf
    else .ok (.ok, verified.1, pkbuf)

/- Decoding a protected PDU from its sequence number on. -/
variable (ue type) in
theorem decodeProtected_received (hService : type.serviceRequest = false)
    (hLength : 8 ≤ pdu.length) :
    decodeProtected crypto (renewed ue type) integrityProtected ciphered
        ⟨nasHeadroom ++ pdu.take 6, pdu.drop 6, tail⟩ =
      verifyBlock crypto ue type pdu tail integrityProtected >>= decipherBlock crypto ciphered := by
  unfold decodeProtected
  rw [push_received pdu tail hLength]
  simp only [bind, Except.bind]
  rw [Pkbuf.pullAssert_ok (by simp only; omega)]
  simp only [verifyBlock, ← counted_renewed ue type hService]
  rfl

variable (ue type) in
theorem verifyBlock_ok (hService : type.serviceRequest = false)
    (hLength : 8 ≤ pdu.length) (hImplemented : integrityProtected = true →
        Implemented ue.selectedIntAlgorithm) : ∃ head,
      verifyBlock crypto ue type pdu tail integrityProtected = .ok
          (if integrityProtected = true then compared crypto ue type pdu tail
          else { ue with ulCount := checkedCount ue type pdu },
          ⟨head, pdu.drop 5, tail⟩) := by
  cases integrityProtected with
  | false => exact ⟨_, rfl⟩
  | true =>
    have hMessage : (pdu.drop 5).length = pdu.length - 5 := List.length_drop
    rcases verifyMac_ok crypto { ue with ulCount := checkedCount ue type pdu } pdu
      ⟨nasHeadroom ++ pdu.take 5, pdu.drop 5, tail⟩
      (List.ne_nil_of_length_pos (by simp only; omega))
      (by simp [nasHeadroom]) (hImplemented rfl) with ⟨head, hVerify⟩
    refine ⟨head, ?_⟩
    simp only [verifyBlock, if_true, hVerify, compared,
      MacVerifies, macCovers, hService, Bool.false_eq_true, if_false]

/- The rest of a message, after its sequence number. -/
theorem decipherBlock_ok (hCount : verified.ulCount = checkedCount ue type pdu)
    (hAlgorithm : verified.selectedEncAlgorithm = ue.selectedEncAlgorithm)
    (hKey : verified.knasEnc = ue.knasEnc) (hLength : 8 ≤ pdu.length)
    (hCipher : ciphered = true → Implemented ue.selectedEncAlgorithm) :
    decipherBlock crypto ciphered (verified, ⟨head, pdu.drop 5, tail⟩) = .ok (.ok, verified,
        ⟨head ++ (pdu.drop 5).take 1, plainText crypto ue type pdu ciphered, tail⟩) := by
  have hMessage : (pdu.drop 5).length = pdu.length - 5 := List.length_drop
  have hRest : (pdu.drop 6).length = pdu.length - 6 := List.length_drop
  unfold decipherBlock
  rw [Pkbuf.pullAssert_ok (by simp only; omega)]
  simp only [bind, Except.bind, List.drop_drop, Nat.reduceAdd]
  cases ciphered with
  | false => rfl
  | true =>
      rw [decipher_ok _ _ (List.ne_nil_of_length_pos (by simp only; omega))
        (by rw [hAlgorithm]; exact hCipher rfl)]
      simp only [plainText, if_true, hCount, hAlgorithm, hKey]

/- A protected PDU whose algorithms exist. -/
variable (ue type) in
theorem decodeProtected_ok
    (hService : type.serviceRequest = false) (hLength : 8 ≤ pdu.length) (hImplemented :
      integrityProtected = true → Implemented ue.selectedIntAlgorithm) (hCipher : ciphered = true →
        Implemented ue.selectedEncAlgorithm) : ∃ head,
      decodeProtected crypto (renewed ue type) integrityProtected ciphered
          ⟨nasHeadroom ++ pdu.take 6, pdu.drop 6, tail⟩ = .ok (.ok,
          if integrityProtected = true then compared crypto ue type pdu tail
          else { ue with ulCount := checkedCount ue type pdu },
          ⟨head, plainText crypto ue type pdu ciphered, tail⟩) := by
  rcases verifyBlock_ok crypto ue type pdu tail hService hLength hImplemented with ⟨head, hVerify⟩
  refine ⟨head ++ (pdu.drop 5).take 1, ?_⟩
  rw [decodeProtected_received crypto ue type pdu tail hService hLength, hVerify]
  apply decipherBlock_ok crypto pdu tail
  · cases integrityProtected <;> simp
  · cases integrityProtected <;> simp
  · cases integrityProtected <;> simp
  · exact hLength
  · exact hCipher

/- An algorithm that does not exist aborts the process. -/
variable (ue type) in
theorem decodeProtected_aborts (hService : type.serviceRequest = false) (hLength : 8 ≤ pdu.length)
    (hAbort : ¬ ((integrityProtected = true → Implemented ue.selectedIntAlgorithm) ∧
        (ciphered = true → Implemented ue.selectedEncAlgorithm))) :
    ∃ fault, decodeProtected crypto (renewed ue type) integrityProtected ciphered
          ⟨nasHeadroom ++ pdu.take 6, pdu.drop 6, tail⟩ = .error fault := by
  have hMessage : (pdu.drop 5).length = pdu.length - 5 := List.length_drop
  rw [decodeProtected_received crypto ue type pdu tail hService hLength]
  by_cases hImplemented : integrityProtected = true → Implemented ue.selectedIntAlgorithm
  · -- only the ciphering can abort
    rcases Classical.not_imp.mp (fun hCipher => hAbort ⟨hImplemented, hCipher⟩) with ⟨rfl, hUnknown⟩
    rcases verifyBlock_ok crypto ue type pdu tail hService hLength hImplemented with ⟨head, hVerify⟩
    rw [hVerify]
    simp only [bind, Except.bind, decipherBlock]
    rw [Pkbuf.pullAssert_ok (by simp only; omega)]
    refine ⟨_, decipher_unknown crypto _ ?_ ?_⟩
    · apply List.ne_nil_of_length_pos
      simp only [List.length_drop]
      omega
    · cases integrityProtected <;> simpa using hUnknown
  · rcases Classical.not_imp.mp hImplemented with ⟨rfl, hUnknown⟩
    have hVerify := verifyMac_unknown crypto { ue with ulCount := checkedCount ue type pdu } pdu
      ⟨nasHeadroom ++ pdu.take 5, pdu.drop 5, tail⟩ hUnknown
    rw [verifyBlock, hVerify]
    exact ⟨_, rfl⟩

theorem renewed_available (hAvailable : ue.securityContextAvailable = true) :
    (if (type.newSecurityContext && ue.securityContextAvailable) = true then
      { ue with ulCount := UlCount.zero } else ue) =
      renewed ue type := by
  simp only [hAvailable, Bool.and_true, renewed]

theorem macChecked_eq (hService : type.serviceRequest = false) :
    (type.integrityProtected && ue.securityContextAvailable && ue.selectedIntAlgorithm != 0) =
      decide (MacChecked ue type) := by
  rw [Bool.eq_iff_iff]
  simp [MacChecked, hService, and_comm]

theorem deciphered_eq (hService : type.serviceRequest = false) :
    (type.ciphered && ue.securityContextAvailable && ue.selectedEncAlgorithm != 0) =
      decide (Deciphered ue type) := by
  rw [Bool.eq_iff_iff]
  simp [Deciphered, hService, and_assoc]

/- Decoding of a message that is not a service request. -/
variable (ue type) in
theorem nasEpsSecurityDecode_protected (hService : type.serviceRequest = false)
    (hProtected : MacChecked ue type ∨ Deciphered ue type) :
    nasEpsSecurityDecode crypto ue type pkbuf = decodeProtected crypto (renewed ue type)
        (decide (MacChecked ue type)) (decide (Deciphered ue type)) pkbuf := by
  have hAvailable : ue.securityContextAvailable = true := by
    rcases hProtected with ⟨_, h | h⟩ | h
    · rw [hService] at h
      contradiction
    · exact h.2
    · exact h.2.2.1
  unfold nasEpsSecurityDecode
  simp only [hService, Bool.false_eq_true, if_false, renewed_available hAvailable,
    renewed_selectedIntAlgorithm, renewed_selectedEncAlgorithm, macChecked_eq hService,
    deciphered_eq hService]
  rw [if_pos (by simpa [or_comm] using hProtected)]

/- Decoding of a message without protection. -/
variable (ue type) in
theorem nasEpsSecurityDecode_plain (hService : type.serviceRequest = false)
    (hMac : ¬ MacChecked ue type) (hCipher : ¬ Deciphered ue type) :
    nasEpsSecurityDecode crypto ue type pkbuf =
      .ok (.ok, decodedUe crypto ue type pdu tail, pkbuf) := by
  unfold decodedUe
  rw [if_neg hMac, if_neg hCipher]
  unfold nasEpsSecurityDecode
  by_cases hAvailable : ue.securityContextAvailable = true
  · have hIntegrity : (type.integrityProtected && ue.securityContextAvailable &&
          ue.selectedIntAlgorithm != 0) = false := by
      rw [macChecked_eq hService]
      exact decide_eq_false hMac
    have hCiphered : (type.ciphered && ue.securityContextAvailable &&
          ue.selectedEncAlgorithm != 0) = false := by
      rw [deciphered_eq hService]
      exact decide_eq_false hCipher
    simp only [hService, Bool.false_eq_true, if_false, renewed_available hAvailable,
      renewed_selectedIntAlgorithm, renewed_selectedEncAlgorithm, hIntegrity, hCiphered,
      Bool.or_false]
    rw [if_pos ⟨trivial, hAvailable⟩]
  · simp [hService, hAvailable]

end Decoding

---- Decoding Returns Or Aborts ----

section Outcome

variable (crypto : Crypto) (ue : MmeUe) (pdu tail : List UInt8) (type : SecurityHeaderType)
variable (pkbuf : Pkbuf)

/- Decoding of a received PDU, when it does not abort. -/
theorem nasEpsSecurityDecode_ok (hReceived : received pdu tail = some (type, pkbuf))
    (hSound : Sound ue type pdu tail) :
    ∃ head tail', nasEpsSecurityDecode crypto ue type pkbuf = .ok (decodedRv ue type,
          decodedUe crypto ue type pdu tail, ⟨head, decodedData crypto ue type pdu tail,
            tail'⟩) := by
  rcases received_cases hReceived with ⟨hIntegrity, hPlain, hLength, rfl⟩ |
    ⟨hService, hIntegrity, hLength, rfl⟩
  · cases hService : type.serviceRequest with
    | true =>
        rw [nasEpsSecurityDecode, if_pos hService]
        by_cases hAlgorithm : ue.selectedIntAlgorithm = 0
        · -- the request is refused as it is
          refine ⟨nasHeadroom, tail, ?_⟩
          simp [decodeServiceRequest, decodedRv, decodedUe,
            decodedData, MacChecked, Deciphered, hAlgorithm, hService, hIntegrity]
        · have hChecked : MacChecked ue type := ⟨hAlgorithm, .inl hService⟩
          rcases hSound.1 hChecked with ⟨hImplemented, hRoom⟩
          rcases decodeServiceRequest_ok crypto ue type pdu tail
              hService hLength (hRoom hService) hImplemented with ⟨head, hDecode⟩
          refine ⟨head, (pdu.drop 2 ++ tail).drop 2, ?_⟩
          rw [hDecode, decodedUe, if_pos hChecked, decodedData,
            if_pos ⟨hService, hAlgorithm⟩, decodedRv, if_neg (fun h => hAlgorithm h.2)]
    | false =>
        refine ⟨nasHeadroom, tail, ?_⟩
        rw [nasEpsSecurityDecode_plain crypto ue type pdu tail hService
          (by simp [MacChecked, hService, hIntegrity]) (by simp [Deciphered, hPlain])]
        simp [decodedRv, decodedData, hService, hIntegrity]
  · have hRv : decodedRv ue type = .ok := by
      simp [decodedRv, hService]
    have hData : decodedData crypto ue type pdu tail = plainText crypto ue type pdu
            (decide (Deciphered ue type)) := by
      simp [decodedData, hService, hIntegrity]
    rw [hRv, hData]
    by_cases hProtected : MacChecked ue type ∨ Deciphered ue type
    · rcases decodeProtected_ok crypto ue type pdu tail hService hLength
          (fun h => (hSound.1 (of_decide_eq_true h)).1)
          (fun h => hSound.2 (of_decide_eq_true h)) with ⟨head, hDecode⟩
      refine ⟨head, tail, ?_⟩
      rw [nasEpsSecurityDecode_protected crypto ue type hService hProtected, hDecode]
      by_cases hMac : MacChecked ue type
      · simp [decodedUe, hMac]
      · have hCipher : Deciphered ue type := hProtected.resolve_left hMac
        simp [decodedUe, hMac, hCipher]
    · rcases not_or.mp hProtected with ⟨hMac, hCipher⟩
      refine ⟨nasHeadroom ++ pdu.take 6, tail, ?_⟩
      rw [nasEpsSecurityDecode_plain crypto ue type pdu tail hService hMac hCipher]
      simp [plainText, hCipher]

/- What is not sound aborts the process. -/
theorem nasEpsSecurityDecode_aborts (hReceived : received pdu tail = some (type, pkbuf))
    (hAbort : ¬ Sound ue type pdu tail) :
    ∃ fault, nasEpsSecurityDecode crypto ue type pkbuf = .error fault := by
  rcases received_cases hReceived with ⟨hIntegrity, hPlain, hLength, rfl⟩ |
    ⟨hService, hIntegrity, hLength, rfl⟩
  · have hCipher : ¬ Deciphered ue type := by
      simp [Deciphered, hPlain]
    have hChecked : MacChecked ue type := by
      by_contra hMac
      exact hAbort ⟨fun h => absurd h hMac, fun h => absurd h hCipher⟩
    have hService : type.serviceRequest = true := by simpa [hIntegrity] using hChecked.2
    rw [nasEpsSecurityDecode, if_pos hService]
    apply decodeServiceRequest_aborts crypto ue pdu tail hChecked.1 hLength
    rintro ⟨hImplemented, hRoom⟩
    exact hAbort ⟨fun _ => ⟨hImplemented, fun _ => hRoom⟩, fun h => absurd h hCipher⟩
  · have hProtected : MacChecked ue type ∨ Deciphered ue type := by
      by_contra hNone
      rcases not_or.mp hNone with ⟨hMac, hCipher⟩
      exact hAbort ⟨fun h => absurd h hMac, fun h => absurd h hCipher⟩
    rw [nasEpsSecurityDecode_protected crypto ue type hService hProtected]
    apply decodeProtected_aborts crypto ue type pdu tail hService hLength
    rintro ⟨hImplemented, hCipher⟩
    apply hAbort
    refine ⟨fun h => ⟨hImplemented (decide_eq_true h), ?_⟩, fun h => hCipher (decide_eq_true h)⟩
    rw [hService]
    exact nofun

end Outcome

end Pretty5gs.Mme
