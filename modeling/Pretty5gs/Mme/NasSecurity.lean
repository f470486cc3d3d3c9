import Mathlib.Data.Nat.Bitwise
import Pretty5gs.Core.Types
import Pretty5gs.Library.BigEndian
import Pretty5gs.Library.Transition

/-
  The decoding of uplink NAS messages and the uplink NAS COUNT.

  The COUNT that a message is checked with is estimated from its sequence number and stored in the
  UE context before the MAC is compared.

  Main results: `checkedCount_eq_iff`.
-/

---- The UE Context ----

namespace Pretty5gs.Mme

/- The union `ul_count`: an octet, 16 bits, and an octet. -/
structure UlCount where
  spare : U8
  overflow : U16
  sqn : U8
deriving DecidableEq, Repr

/- The member `i32` of the union. -/
def UlCount.i32 (count : UlCount) : U32 := count.spare ++ count.overflow ++ count.sqn

def UlCount.zero : UlCount where
  spare := 0
  overflow := 0
  sqn := 0

/- The new sequence number, and a step when it went down. -/
def UlCount.advance (count : UlCount) (sqn : U8) : UlCount :=
  { count with
    overflow :=
      if count.sqn > sqn then count.overflow + 1
      else count.overflow
    sqn := sqn }

/- The fields of `mme_ue_t` that decoding uses. -/
structure MmeUe where
  securityContextAvailable : Bool
  selectedIntAlgorithm : Nat
  selectedEncAlgorithm : Nat
  knasInt : List UInt8
  knasEnc : List UInt8
  ulCount : UlCount
  macFailed : Bool
deriving DecidableEq, Repr

/- `ogs_nas_security_header_type_t` -/
structure SecurityHeaderType where
  serviceRequest : Bool
  integrityProtected : Bool
  ciphered : Bool
  newSecurityContext : Bool
deriving DecidableEq, Repr

---- Packet Buffers ----

/-
  The octets of a buffer: in front of the data pointer, the data, and behind it up to the end of the
  buffer.
-/
structure Pkbuf where
  head : List UInt8
  data : List UInt8
  tail : List UInt8
deriving DecidableEq, Repr

namespace Pkbuf

variable (pkbuf : Pkbuf) (len : Nat)

/- `ogs_pkbuf_pull`, without a result for NULL. -/
def pull : Option Pkbuf :=
  if len > pkbuf.data.length then none
  else some { pkbuf with
      head := pkbuf.head ++ pkbuf.data.take len
      data := pkbuf.data.drop len }

/- `ogs_assert(ogs_pkbuf_pull(...))` -/
def pullAssert : Except Fault Pkbuf :=
  match pkbuf.pull len with
  | none => .error .assertion
  | some pkbuf => .ok pkbuf

/- `ogs_pkbuf_push`, which aborts without headroom. -/
def push : Except Fault Pkbuf :=
  if pkbuf.head.length < len then .error .assertion
  else
    let start := pkbuf.head.length - len
    .ok { pkbuf with
        head := pkbuf.head.take start
        data := pkbuf.head.drop start ++ pkbuf.data }

/- `ogs_pkbuf_trim`, which keeps shorter data. -/
def trim : Pkbuf :=
  if len > pkbuf.data.length then pkbuf
  else
    { pkbuf with
      data := pkbuf.data.take len
      tail := pkbuf.data.drop len ++ pkbuf.tail }

/- `ogs_pkbuf_put_data`, which aborts without tailroom. -/
def putData (pkbuf : Pkbuf) (octets : List UInt8) : Except Fault Pkbuf :=
  if pkbuf.tail.length < octets.length then .error .assertion
  else .ok { pkbuf with
      data := pkbuf.data ++ octets
      tail := pkbuf.tail.drop octets.length }

/- Octets from the data pointer on, also behind the data. -/
def read (pkbuf : Pkbuf) (start len : Nat) : Except Fault (List UInt8) :=
  let octets := pkbuf.data ++ pkbuf.tail
  if octets.length < start + len then .error (.outOfBounds octets.length)
  else .ok ((octets.drop start).take len)

end Pkbuf

---- Algorithms ----

/-
  The integrity and ciphering algorithms by identity, on a key, COUNT, bearer, direction and
  message.
-/
structure Crypto where
  eia : Nat → List UInt8 → U32 → Nat → Nat → List UInt8 → List UInt8
  eea : Nat → List UInt8 → U32 → Nat → Nat → List UInt8 → List UInt8

/- `NAS_SECURITY_BEARER` -/
abbrev nasSecurityBearer : Nat := 0

/- `OGS_NAS_SECURITY_UPLINK_DIRECTION` -/
abbrev uplinkDirection : Nat := 0

/- EIA1 to EIA3 and EEA1 to EEA3. -/
def Implemented (algorithm : Nat) : Prop := algorithm = 1 ∨ algorithm = 2 ∨ algorithm = 3

instance (algorithm : Nat) : Decidable (Implemented algorithm) :=
  inferInstanceAs (Decidable (_ ∨ _ ∨ _))

/- What EIA2 leaves in the eight octets before a message. -/
def writeIvec (count : U32) (pkbuf : Pkbuf) : Except Fault Pkbuf := do
  let pushed ← pkbuf.push 8
  let octet := nasSecurityBearer * 8 + uplinkDirection * 4
  let ivec := BigEndian.encode 4 count.toNat ++ [UInt8.ofNat octet, 0, 0, 0]
  return { pkbuf with head := pushed.head ++ ivec }

/- `ogs_nas_mac_calculate` for an algorithm other than EIA0. -/
def ogsNasMacCalculate (crypto : Crypto) (algorithm : Nat) (key : List UInt8) (count : U32)
    (pkbuf : Pkbuf) : Except Fault (List UInt8 × Pkbuf) :=
  if pkbuf.data.isEmpty then .error .assertion
  else if Implemented algorithm then do
    let pkbuf ←
      (if algorithm = 2 then writeIvec count pkbuf
      else .ok pkbuf)
    return (crypto.eia algorithm key count nasSecurityBearer uplinkDirection pkbuf.data, pkbuf)
  else .error .assertion

/- `ogs_nas_encrypt` for an algorithm other than EEA0. -/
def ogsNasEncrypt (crypto : Crypto) (algorithm : Nat) (key : List UInt8) (count : U32)
    (pkbuf : Pkbuf) : Except Fault Pkbuf :=
  if pkbuf.data.isEmpty then .error .assertion
  else if Implemented algorithm then
    .ok { pkbuf with
        data := crypto.eea algorithm key count nasSecurityBearer uplinkDirection pkbuf.data }
  else .error .assertion

---- Decoding ----

/-
  The sequence number that a service request stands for, of which the message has the low five bits.
-/
def estimatedSequenceNumber (sqn low : U8) : U8 :=
  let high := sqn &&& 0xe0
  let high := if (sqn &&& 0x1f) > low then high + 0x20 else high
  low + high

/- `ogs_nas_ksi_and_sequence_number_t.sequence_number` -/
def shortSequenceNumber (octets : List UInt8) : U8 := (octets.getD 0 0).toBitVec &&& 0x1f

/- The branch for a service request. -/
def decodeServiceRequest (crypto : Crypto) (ue : MmeUe)
    (pkbuf : Pkbuf) : Except Fault (Rv × MmeUe × Pkbuf) :=
  if ue.selectedIntAlgorithm = 0 then .ok (.error, ue, pkbuf)
  else do
    let ksiAndSequenceNumber ← pkbuf.read 1 1
    let ue :=
      { ue with
        ulCount :=
          ue.ulCount.advance (estimatedSequenceNumber ue.ulCount.sqn
              (shortSequenceNumber ksiAndSequenceNumber)) }
    let originalMac ← pkbuf.read 2 2
    let (mac, pkbuf) ← ogsNasMacCalculate crypto
      ue.selectedIntAlgorithm ue.knasInt ue.ulCount.i32 (pkbuf.trim 2)
    let pkbuf ← pkbuf.putData originalMac
    let received ← pkbuf.read 2 2
    let ue :=
      if (mac.drop 2).take 2 ≠ received then { ue with macFailed := true }
      else ue
    return (.ok, ue, pkbuf)

/- `ogs_nas_eps_security_header_t`, as octets. -/
def headerMac (header : List UInt8) : List UInt8 := (header.drop 1).take 4

def headerSequenceNumber (header : List UInt8) : U8 := (header.getD 5 0).toBitVec

variable (crypto : Crypto) (ue : MmeUe)

/- The block for an integrity protected message. -/
def verifyMac (h : List UInt8) (pkbuf : Pkbuf) : Except Fault (MmeUe × Pkbuf) := do
  let originalMac := headerMac h
  let (mac, pkbuf) ← ogsNasMacCalculate crypto
    ue.selectedIntAlgorithm ue.knasInt ue.ulCount.i32 pkbuf
  -- the MAC of the header is written back in place
  let before := pkbuf.head.take (pkbuf.head.length - 4)
  let ue :=
    if originalMac ≠ mac then { ue with macFailed := true }
    else ue
  return (ue, { pkbuf with head := before ++ originalMac })

/- The block for a ciphered message. -/
def decipher (pkbuf : Pkbuf) : Except Fault (Rv × MmeUe × Pkbuf) :=
  if pkbuf.data.isEmpty then .ok (.error, ue, pkbuf)
  else do
    let pkbuf ← ogsNasEncrypt crypto ue.selectedEncAlgorithm ue.knasEnc ue.ulCount.i32 pkbuf
    return (.ok, ue, pkbuf)

/- The branch for a message with a security header. -/
def decodeProtected (integrityProtected ciphered : Bool)
    (pkbuf : Pkbuf) : Except Fault (Rv × MmeUe × Pkbuf) := do
  let pkbuf ← pkbuf.push 6
  let h := pkbuf.data
  let pkbuf ← pkbuf.pullAssert 5
  let ue := { ue with ulCount := ue.ulCount.advance (headerSequenceNumber h) }
  let (ue, pkbuf) ←
    (if integrityProtected then verifyMac crypto ue h pkbuf
    else .ok (ue, pkbuf))
  let pkbuf ← pkbuf.pullAssert 1
  if ciphered then decipher crypto ue pkbuf
  else .ok (.ok, ue, pkbuf)

open UlCount

/- `nas_eps_security_decode` -/
def nasEpsSecurityDecode (type : SecurityHeaderType)
    (pkbuf : Pkbuf) : Except Fault (Rv × MmeUe × Pkbuf) :=
  if type.serviceRequest then decodeServiceRequest crypto ue pkbuf
  else
    let available := ue.securityContextAvailable
    let integrityProtected := type.integrityProtected && available
    let newSecurityContext := type.newSecurityContext && available
    let ciphered := type.ciphered && available
    let ue :=
      if newSecurityContext then { ue with ulCount := zero }
      else ue
    let ciphered := ciphered && ue.selectedEncAlgorithm != 0
    let integrityProtected := integrityProtected && ue.selectedIntAlgorithm != 0
    if ciphered || integrityProtected then
      decodeProtected crypto ue integrityProtected ciphered pkbuf
    else .ok (.ok, ue, pkbuf)

---- From The S1AP Layer ----

/- The switch of `s1ap_send_to_nas` on the header type. -/
def securityHeaderType (value : Nat) : Option SecurityHeaderType :=
  match value with
  | 0 => some ⟨false, false, false, false⟩
  | 1 => some ⟨false, true, false, false⟩
  | 2 => some ⟨false, true, true, false⟩
  | 3 => some ⟨false, true, false, true⟩
  | 4 => some ⟨false, true, true, true⟩
  | 12 => some ⟨true, false, false, false⟩
  | _ => none

/- `OGS_NAS_HEADROOM` octets of a new buffer. -/
def nasHeadroom : List UInt8 := List.replicate 16 0

/- Protected messages have a security header of six octets. -/
def skipSecurityHeader (type : SecurityHeaderType) (nasbuf : Pkbuf) : Option Pkbuf :=
  if type.integrityProtected then nasbuf.pull 6
  else some nasbuf

/-
  `s1ap_send_to_nas` up to the decoding: the header type and the buffer that are decoded. The octets
  behind the PDU are those that its allocation has left over.
-/
def received (pdu tail : List UInt8) : Option (SecurityHeaderType × Pkbuf) :=
  if pdu.length < 2 then none
  else do
    let nasbuf : Pkbuf := ⟨nasHeadroom, pdu, tail⟩
    let type ←
      securityHeaderType ((pdu.getD 0 0).toNat / 16)
    let nasbuf ← skipSecurityHeader type nasbuf
    if nasbuf.data.length < 2 then none
    else some (type, nasbuf)

/- The decoding that `s1ap_send_to_nas` then starts. -/
def s1apSendToNas (crypto : Crypto) (ue : MmeUe) (pdu tail : List UInt8) :
    Except Fault (Rv × MmeUe) :=
  match received pdu tail with
  | none => .ok (.error, ue)
  | some (type, nasbuf) =>
      (nasEpsSecurityDecode crypto ue type nasbuf).map (fun result => (result.1, result.2.1))

---- The COUNT That A Message Is Checked With ----

/- The COUNT that decoding works with for a PDU. -/
def checkedCount (ue : MmeUe) (type : SecurityHeaderType) (pdu : List UInt8) : UlCount :=
  if type.serviceRequest then
    ue.ulCount.advance (estimatedSequenceNumber ue.ulCount.sqn (shortSequenceNumber (pdu.drop 1)))
  else if type.newSecurityContext then zero.advance (headerSequenceNumber pdu)
  else ue.ulCount.advance (headerSequenceNumber pdu)

/- The octets of a PDU that its MAC covers. -/
def macCovers (type : SecurityHeaderType) (pdu : List UInt8) : List UInt8 :=
  if type.serviceRequest then pdu.take 2 else pdu.drop 5

/-
  The MAC of a PDU is the one of its octets under the key of the UE. A service request carries the
  last two octets.
-/
def MacVerifies (crypto : Crypto) (ue : MmeUe) (type : SecurityHeaderType)
    (pdu tail : List UInt8) : Prop :=
  let mac := crypto.eia ue.selectedIntAlgorithm ue.knasInt
    (checkedCount ue type pdu).i32 nasSecurityBearer uplinkDirection (macCovers type pdu)
  if type.serviceRequest then (mac.drop 2).take 2 = ((pdu ++ tail).drop 2).take 2
  else headerMac pdu = mac

/- Whether a MAC verifies is decided by comparing octets. -/
instance (crypto : Crypto) (ue : MmeUe) (type : SecurityHeaderType) (pdu tail : List UInt8) :
    Decidable (MacVerifies crypto ue type pdu tail) :=
  inferInstanceAs (Decidable (if type.serviceRequest then _ = _ else _ = _))

/-
  The PDU has the sequence number that the UE context already has, after the reset of a new security
  context.
-/
def SameSequenceNumber (ue : MmeUe) (type : SecurityHeaderType) (pdu : List UInt8) : Prop :=
  if type.serviceRequest then shortSequenceNumber (pdu.drop 1) = ue.ulCount.sqn &&& 0x1f
  else if type.newSecurityContext then ue.ulCount = ⟨0, 0, headerSequenceNumber pdu⟩
  else headerSequenceNumber pdu = ue.ulCount.sqn

/-
  What decoding needs in order not to abort: algorithms that exist, and room for the MAC of a
  service request.
-/
def Decodable (ue : MmeUe) (type : SecurityHeaderType) (pdu tail : List UInt8) : Prop :=
  Implemented ue.selectedIntAlgorithm ∧ (type.serviceRequest → 4 ≤ (pdu ++ tail).length) ∧
    (type.ciphered → ue.selectedEncAlgorithm ≠ 0 → Implemented ue.selectedEncAlgorithm)

theorem and_high_bits {sqn : U8} : sqn &&& 0xe0 = sqn - (sqn &&& 0x1f) := by
  revert sqn
  decide

theorem estimatedSequenceNumber_eq_iff {sqn low : U8} (hLow : low < 0x20) :
    estimatedSequenceNumber sqn low = sqn ↔ low = sqn &&& 0x1f := by
  have hMask : (sqn &&& 0x1f) < 0x20 := by
    revert sqn
    decide
  unfold estimatedSequenceNumber
  rw [and_high_bits]
  split <;> constructor <;> intro h <;> bv_omega

theorem shortSequenceNumber_lt : shortSequenceNumber octets < 0x20 := by
  unfold shortSequenceNumber
  generalize (octets.getD 0 0).toBitVec = octet
  revert octet
  decide

@[simp] theorem UlCount.advance_eq_iff {count : UlCount} {sqn : U8} :
    count.advance sqn = count ↔ sqn = count.sqn := by
  constructor
  · intro h
    exact congrArg UlCount.sqn h
  · rintro rfl
    simp [advance]

@[simp] theorem UlCount.zero_advance {sqn : U8} : zero.advance sqn = ⟨0, 0, sqn⟩ := by
  simp [advance, zero]

theorem checkedCount_eq_iff :
    checkedCount ue type pdu = ue.ulCount ↔ SameSequenceNumber ue type pdu := by
  unfold checkedCount SameSequenceNumber
  split
  · rw [advance_eq_iff]
    apply estimatedSequenceNumber_eq_iff
    apply shortSequenceNumber_lt
  · split
    · rw [zero_advance, eq_comm]
    · rw [advance_eq_iff]

end Pretty5gs.Mme
