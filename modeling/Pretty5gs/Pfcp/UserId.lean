import Pretty5gs.Pfcp.Ie

/-
  The user id IE.

  An identity is its length and its octets; both are checked before they are read.

  Main results: `UserId.parseUserId_confined`.
-/

---- Identities ----

namespace Pretty5gs.Pfcp.UserId

open Ie

/- An identity in an array of the structure. -/
structure Identity (max : Nat) where
  octets : List U8
  fits : octets.length ≤ max
deriving DecidableEq

/- No octets, as after `memset`. -/
def Identity.none (max : Nat) : Identity max := ⟨[], Nat.zero_le _⟩

/- `OGS_MAX_IMSI_LEN` -/
def maxImsiLen : Nat := 8

/- `OGS_MAX_IMEISV_LEN` -/
def maxImeisvLen : Nat := 8

/- `OGS_MAX_MSISDN_LEN` -/
def maxMsisdnLen : Nat := 8

/- `ogs_pfcp_user_id_t` -/
structure Ids where
  flags : U8
  imsi : Identity maxImsiLen
  imeisv : Identity maxImeisvLen
  msisdn : Identity maxMsisdnLen
deriving DecidableEq

def imsif (flags : U8) : Bool := flags.getLsbD 0

def imeif (flags : U8) : Bool := flags.getLsbD 1

def msisdnf (flags : U8) : Bool := flags.getLsbD 2

---- The Builder ----

def flagsPiece (ids : Ids) : Piece := { flag := true, signed := false, octets := [ids.flags] }

/- The length of an identity, and its octets. -/
def identityPieces {max : Nat} (flag : Bool) (identity : Identity max) : List Piece :=
  [{ flag := flag
     signed := false
     octets := [BitVec.ofNat 8 identity.octets.length] },
   { flag := flag
     signed := true
     octets := identity.octets }]

def idPieces (ids : Ids) : List Piece := flagsPiece ids ::
    (identityPieces (imsif ids.flags) ids.imsi ++ (identityPieces (imeif ids.flags) ids.imeisv ++
        identityPieces (msisdnf ids.flags) ids.msisdn))

/- `ogs_pfcp_build_user_id` -/
def buildUserId (ids : Ids) (data : Nat → U8) (dataLen : Nat) : Except Fault Octet := do
  let w ← (idPieces ids).foldlM (putPiece dataLen)
    { data := data, size := 0 }
  return { data := w.data, len := BitVec.ofInt 32 w.size }

---- The Parser ----

theorem length_toList_le {count max : Nat} {items : List.Vector U8 count} (hFits : count ≤ max) :
    items.toList.length ≤ max := by
  rw [List.Vector.toList_length]
  exact hFits

variable (memory : Nat → U8)

/- The length of an identity, and its octets. -/
def parseIdentity (len max : Nat) : Reader Unit (Identity max) := do
  let count ← parseField memory len 1 firstOctet
  if hFits : count.toNat ≤ max then do
    let items ← field memory len count.toNat
    return ⟨items.toList, length_toList_le hFits⟩
  else Reader.reject ()

/- `ogs_pfcp_parse_user_id` -/
def parseUserId (len : Nat) : Reader Unit Ids := do
  let flags ← parseField memory len 1 firstOctet
  let imsi ← Reader.optional (imsif flags)
    (parseIdentity memory len maxImsiLen) (.none _)
  let imeisv ← Reader.optional (imeif flags)
    (parseIdentity memory len maxImeisvLen) (.none _)
  let msisdn ← Reader.optional (msisdnf flags)
    (parseIdentity memory len maxMsisdnLen) (.none _)
  pure
    { flags := flags
      imsi := imsi
      imeisv := imeisv
      msisdn := msisdn }

theorem parseIdentity_confined (len max : Nat) :
    Reader.Confined len (parseIdentity memory len max) := by
  refine confined_parseField.bind fun count => ?_
  split
  · exact Reader.Confined.take.bind fun _ => .pure
  · exact .reject

/- The parser reads inside the IE, whatever it holds. -/
theorem parseUserId_confined : Reader.Confined len (parseUserId memory len) := by
  have hIdentity (max : Nat) := parseIdentity_confined memory len max
  refine confined_parseField.bind fun flags => ?_
  refine (hIdentity _).optional.bind fun imsi => ?_
  refine (hIdentity _).optional.bind fun imeisv => ?_
  exact (hIdentity _).optional.bind fun msisdn => .pure

end Pretty5gs.Pfcp.UserId
