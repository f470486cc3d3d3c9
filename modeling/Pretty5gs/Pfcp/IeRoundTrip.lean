import Pretty5gs.Pfcp.IpResource
import Pretty5gs.Pfcp.UserId
import Pretty5gs.Proto.FqdnRoundTrip

/-
  IEs that are parsed as they were built: user plane IP resource information and user ids.

  Main results: `IpResource.info_survives`, `UserId.ids_survive`,
  `Ie.ip_resource_and_user_id_round_trip`.
-/

---- Octets Of A Resource ----

namespace Pretty5gs

open List Faulty Reader

namespace Pfcp

namespace IpResource

open Ie
open Proto.Fqdn (dot encodeName length_encodeName)
open Reader (Stored stored_append)

/- Labels that are not empty, in 99 characters. -/
structure Named (name : List U8) : Prop where
  labels : ∀ label ∈ name.splitOn dot, label ≠ []
  length : name.length ≤ 99

def instanceOctets (info : Info) : List U8 :=
  if assoni info.flags then encodeName info.networkInstance
  else []

def Info.octets (info : Info) : List U8 := contents (frontPieces info) ++ instanceOctets info ++
    (sourcePiece info).content

theorem contents_frontPieces {info : Info} :
    contents (frontPieces info) = [info.flags] ++ ((teidPiece info).content ++
        ((addrPiece info).content ++ (addr6Piece info).content)) := by
  show [info.flags] ++ ((teidPiece info).content ++ ((addrPiece info).content ++
    ((addr6Piece info).content ++ []))) = _
  rw [append_nil]

theorem length_front_le (info : Info) : (contents (frontPieces info)).length ≤ 22 := by
  have hTeid : (teidPiece info).content.length ≤ 1 := length_content_le (teidPiece info)
  have hAddr := length_content_le (addrPiece info)
  have hAddr6 := length_content_le (addr6Piece info)
  have hFour : (addrPiece info).octets.length = 4 := info.addr.toList_length
  have hSixteen : (addr6Piece info).octets.length = 16 := info.addr6.toList_length
  rw [contents_frontPieces]
  simp only [length_append, length_cons, length_nil]
  omega

theorem length_instanceOctets_le (hNamed : assoni info.flags = true → Named info.networkInstance) :
    (instanceOctets info).length ≤ 100 := by
  unfold instanceOctets
  by_cases hFlag : assoni info.flags = true
  · have hLength := (hNamed hFlag).length
    rw [if_pos hFlag, length_encodeName]
    omega
  · rw [if_neg hFlag]
    exact Nat.zero_le _

---- Resources That Are Built ----

section Build

variable {info : Info} {w : Writing} {pre : List U8} {dataLen : Nat}

theorem putInstance_ok (hWritten : Written w pre) (hReach : pre.length < 2 ^ 15)
    (hRoom : pre.length + (instanceOctets info).length ≤ dataLen) :
    ∃ w', putInstance dataLen info w = .ok w' ∧ Written w' (pre ++ instanceOctets info) := by
  unfold putInstance
  unfold instanceOctets at *
  by_cases hFlag : assoni info.flags = true
  · have hSize : w.size = pre.length := by
      rw [hWritten.size]
      unfold int16
      omega
    rw [if_pos hFlag, length_encodeName] at hRoom
    rw [if_pos hFlag, if_pos hFlag, if_neg (by omega), hSize]
    refine ⟨_, rfl, Proto.Fqdn.stored_ogsFqdnBuild hWritten.stored _, ?_⟩
    rw [length_append, length_encodeName]
    rfl
  · rw [if_neg hFlag, if_neg hFlag, append_nil]
    exact ⟨w, rfl, hWritten⟩

theorem buildInfo_ok (hNamed : assoni info.flags = true → Named info.networkInstance)
    {data : Nat → U8} (hRoom : info.octets.length ≤ dataLen) :
    ∃ octet, buildInfo info data dataLen = .ok octet ∧ Stored octet.data 0 info.octets ∧
      octet.len.toNat = info.octets.length := by
  have hFront := length_front_le info
  have hInstance := length_instanceOctets_le hNamed
  have hSource : (sourcePiece info).content.length ≤ 1 := length_content_le (sourcePiece info)
  have hSum : info.octets.length = (contents (frontPieces info)).length +
    (instanceOctets info).length + (sourcePiece info).content.length := by
    unfold Info.octets
    rw [length_append, length_append]
  rcases foldlM_ok written_start (reaches_of_lt
    (show [].length + (contents (frontPieces info)).length < 2 ^ 15 by rw [length_nil]; omega))
    (show [].length + (contents (frontPieces info)).length ≤ dataLen
      by rw [length_nil]; omega) with ⟨w₁, h₁, hW₁⟩
  rw [nil_append] at hW₁
  rcases putInstance_ok hW₁ (by omega)
    (show _ + (instanceOctets info).length ≤ dataLen by omega) with ⟨w₂, h₂, hW₂⟩
  rcases putPiece_ok hW₂ (fun _ => by rw [length_append]; omega)
    (show _ + (sourcePiece info).content.length ≤ dataLen by
      rw [length_append]; omega) with ⟨w₃, h₃, hW₃⟩
  refine ⟨{ data := w₃.data, len := BitVec.ofInt 32 w₃.size }, ?_, hW₃.stored, ?_⟩
  · exact bind_eq_ok.mpr ⟨w₁, h₁, bind_eq_ok.mpr ⟨w₂, h₂,
    bind_eq_ok.mpr ⟨w₃, h₃, rfl⟩⟩⟩
  · rw [hW₃.size]
    exact toNat_int16 (show info.octets.length < 2 ^ 15 by omega)

end Build

---- Resources That Are Parsed ----

section Parse

variable {info : Info} {memory : Nat → U8} {len pos : Nat}

/- A resource without what its flags leave out. -/
def flagged (info : Info) : Info :=
  { flags := info.flags
    teidRange := if teidri info.flags then info.teidRange else 0
    addr := if v4 info.flags then info.addr else .replicate 4 0
    addr6 := if v6 info.flags then info.addr6 else .replicate 16 0
    networkInstance := if assoni info.flags then info.networkInstance else []
    sourceInterface := if assosi info.flags then info.sourceInterface else 0 }

theorem value_instance (hNamed : assoni info.flags = true → Named info.networkInstance)
    (hStored : Stored memory pos (instanceOctets info))
    (hEnd : pos + (instanceOctets info).length + (sourcePiece info).content.length = len) :
    ((Reader.optional (assoni info.flags) (parseInstance memory len (assosi info.flags)) []).run
          pos).value = .ok ((flagged info).networkInstance,
          pos + (instanceOctets info).length) := by
  unfold flagged instanceOctets at *
  by_cases hFlag : assoni info.flags = true
  · rw [if_pos hFlag] at hStored hEnd
    rw [if_pos hFlag, if_pos hFlag]
    have hName := hNamed hFlag
    have hLength := hName.length
    rw [length_encodeName] at hEnd ⊢
    have hRest : restLen len pos (assosi info.flags) = info.networkInstance.length + 1 := by
      unfold restLen
      unfold Piece.content sourcePiece at hEnd
      split at hEnd
      · next hSource =>
        rw [if_pos hSource]
        rw [length_singleton] at hEnd
        omega
      · next hSource =>
        rw [if_neg hSource]
        rw [length_nil] at hEnd
        omega
    have hParse := Proto.Fqdn.value_ogsFqdnParse (fun label hMem => ⟨hName.labels label hMem,
      Nat.lt_of_le_of_lt (Proto.Fqdn.length_label_le hMem) (by omega)⟩) hStored
    unfold Reader.optional parseInstance
    rw [if_pos hFlag, value_bind_of_ok value_position, hRest,
      if_neg (Nat.succ_ne_zero _), Nat.min_eq_left
        (show info.networkInstance.length + 1 ≤ maxApnLen by
          unfold maxApnLen; omega),
      value_bind_of_ok value_lift,
      hParse]
    rfl
  · rw [if_neg hFlag, if_neg hFlag]
    unfold Reader.optional
    rw [if_neg hFlag]
    rfl

theorem value_source (hStored : Stored memory pos (sourcePiece info).content)
    (hEnd : pos + (sourcePiece info).content.length = len) (hReach : pos < 2 ^ 15) :
    ((Reader.optional (assosi info.flags) (parseSource memory len) 0).run pos).value =
      .ok ((flagged info).sourceInterface, len) := by
  unfold flagged Piece.content sourcePiece at *
  by_cases hFlag : assosi info.flags = true
  · rw [if_pos hFlag] at hStored hEnd
    unfold Reader.optional parseSource
    rw [if_pos hFlag, if_pos hFlag, value_bind_of_ok value_position,
      if_neg (Nat.not_le_of_lt hReach), value_parseOctet hStored.1 (Nat.le_of_eq hEnd)]
    exact congrArg (fun next => Except.ok (_, next)) hEnd
  · rw [if_neg hFlag] at hEnd
    unfold Reader.optional
    rw [if_neg hFlag, if_neg hFlag]
    exact congrArg (fun next => Except.ok (_, next)) hEnd

/- Every field is read behind the one before. -/
theorem parseInfo_stored (hNamed : assoni info.flags = true → Named info.networkInstance)
    (hStored : Stored memory 0 info.octets) :
    ((parseInfo memory info.octets.length).run 0).value =
      .ok (flagged info, info.octets.length) := by
  have hFront := length_front_le info
  have hInstance := length_instanceOctets_le hNamed
  unfold Info.octets at hStored ⊢
  rw [contents_frontPieces] at *
  rcases stored_append.mp hStored with ⟨hBefore, hSource⟩
  rcases stored_append.mp hBefore with ⟨hFields, hName⟩
  rcases stored_append.mp hFields with ⟨⟨hFlags, _⟩, hRest⟩
  rcases stored_append.mp hRest with ⟨hTeid, hAddrs⟩
  rcases stored_append.mp hAddrs with ⟨hAddr, hAddr6⟩
  simp only [length_append, length_cons, length_nil, Nat.zero_add] at *
  generalize hLen : 1 + ((teidPiece info).content.length + ((addrPiece info).content.length +
    (addr6Piece info).content.length)) + (instanceOctets info).length +
    (sourcePiece info).content.length = len
  have hTeidValue := value_piece firstOctet 0 rfl hTeid (show _ ≤ len by omega)
  have hAddrValue := value_piece id (.replicate 4 0)
    info.addr.toList_length hAddr (show _ ≤ len by omega)
  have hAddr6Value := value_piece id (.replicate 16 0)
    info.addr6.toList_length hAddr6 (show _ ≤ len by omega)
  have hStart : 1 + (teidPiece info).content.length + (addrPiece info).content.length +
    (addr6Piece info).content.length = 1 + ((teidPiece info).content.length +
    ((addrPiece info).content.length + (addr6Piece info).content.length)) := by
    omega
  have hNameValue := value_instance hNamed (hStart ▸ hName) (show _ = len by omega)
  have hSourceValue := value_source hSource hLen (by omega)
  refine (value_bind_of_ok value_octet _).trans ?_
  rw [hFlags]
  refine (value_bind_of_ok hTeidValue _).trans ?_
  refine (value_bind_of_ok hAddrValue _).trans ?_
  refine (value_bind_of_ok hAddr6Value _).trans ?_
  refine (value_bind_of_ok hNameValue _).trans ?_
  rw [hStart]
  refine (value_bind_of_ok hSourceValue _).trans ?_
  rfl

end Parse

/- The flags and every flagged field. -/
structure Same (info parsed : Info) : Prop where
  flags : parsed.flags = info.flags
  teidRange : teidri info.flags = true → parsed.teidRange = info.teidRange
  addr : v4 info.flags = true → parsed.addr = info.addr
  addr6 : v6 info.flags = true → parsed.addr6 = info.addr6
  networkInstance : assoni info.flags = true → parsed.networkInstance = info.networkInstance
  sourceInterface : assosi info.flags = true → parsed.sourceInterface = info.sourceInterface

theorem same_flagged {info : Info} : Same info (flagged info) where
  flags := rfl
  teidRange hFlag := if_pos hFlag
  addr hFlag := if_pos hFlag
  addr6 hFlag := if_pos hFlag
  networkInstance hFlag := if_pos hFlag
  sourceInterface hFlag := if_pos hFlag

end IpResource

---- User Ids ----

namespace UserId

open Ie
open Reader (Stored stored_append)

def Ids.octets (ids : Ids) : List U8 := contents (idPieces ids)

section Identity

variable {flag : Bool} {max : Nat} {identity : Identity max} {memory : Nat → U8} {len pos : Nat}

theorem contents_identityPieces (hFlag : flag = true) :
    contents (identityPieces flag identity) = [BitVec.ofNat 8 identity.octets.length] ++
        identity.octets := by
  subst hFlag
  show [BitVec.ofNat 8 identity.octets.length] ++ (identity.octets ++ []) = _
  rw [append_nil]

theorem contents_identityPieces_none (hFlag : ¬ flag = true) :
    contents (identityPieces flag identity) = [] := by
  rw [Bool.not_eq_true] at hFlag
  subst hFlag
  rfl

theorem length_identityPieces_le (flag : Bool) (identity : Identity max) :
    (contents (identityPieces flag identity)).length ≤ 1 + max := by
  by_cases hFlag : flag = true
  · have hFits := identity.fits
    rw [contents_identityPieces hFlag, length_append, length_singleton]
    omega
  · rw [contents_identityPieces_none hFlag]
    exact Nat.zero_le _

/- An identity is read back where it has been written. -/
theorem value_identity (hMax : max < 2 ^ 8) (hStored :
      Stored memory pos (contents (identityPieces flag identity))) (hRoom :
      pos + (contents (identityPieces flag identity)).length ≤ len) :
    ((Reader.optional flag (parseIdentity memory len max) (.none max)).run pos).value = .ok
        (if flag then identity else .none max, pos +
            (contents (identityPieces flag identity)).length) := by
  by_cases hFlag : flag = true
  · have hFits := identity.fits
    have hCount : (BitVec.ofNat 8 identity.octets.length).toNat = identity.octets.length :=
      Nat.mod_eq_of_lt (by omega)
    rw [contents_identityPieces hFlag, length_append, length_singleton] at hRoom ⊢
    rw [contents_identityPieces hFlag] at hStored
    rcases hStored with ⟨hLength, hOctets⟩
    unfold Reader.optional parseIdentity
    rw [if_pos hFlag, if_pos hFlag, value_bind_of_ok
      (value_parseOctet hLength (show pos + 1 ≤ len by omega)),
      dif_pos (by rw [hCount]; exact hFits)]
    let items : List.Vector U8
      (BitVec.ofNat 8 identity.octets.length).toNat := ⟨identity.octets, hCount.symm⟩
    have hItems : ((field memory len _).run (pos + 1)).value = .ok (items, pos + 1 + _) :=
      value_take hOctets (by omega)
    have hNext : pos + 1 + (BitVec.ofNat 8 identity.octets.length).toNat =
      pos + (1 + identity.octets.length) := by
      rw [hCount, Nat.add_assoc]
    rw [value_bind_of_ok hItems]
    exact congrArg (fun next => Except.ok (identity, next)) hNext
  · rw [contents_identityPieces_none hFlag]
    unfold Reader.optional
    rw [if_neg hFlag, if_neg hFlag]
    rfl

end Identity

theorem octets_eq {ids : Ids} :
    ids.octets = [ids.flags] ++ (contents (identityPieces (imsif ids.flags) ids.imsi) ++
        (contents (identityPieces (imeif ids.flags) ids.imeisv) ++ contents
            (identityPieces (msisdnf ids.flags) ids.msisdn))) := by
  unfold Ids.octets idPieces
  rw [contents_cons, contents_append, contents_append]
  rfl

theorem length_octets_le (ids : Ids) : ids.octets.length ≤ 28 := by
  have hImsi := length_identityPieces_le (imsif ids.flags) ids.imsi
  have hImeisv := length_identityPieces_le (imeif ids.flags) ids.imeisv
  have hMsisdn := length_identityPieces_le (msisdnf ids.flags) ids.msisdn
  have hSizes : maxImsiLen = 8 ∧ maxImeisvLen = 8 ∧ maxMsisdnLen = 8 := ⟨rfl, rfl, rfl⟩
  rw [octets_eq]
  simp only [length_append, length_singleton]
  omega

theorem buildUserId_ok {ids : Ids} {data : Nat → U8} (hRoom : ids.octets.length ≤ dataLen) :
    ∃ octet, buildUserId ids data dataLen = .ok octet ∧ Stored octet.data 0 ids.octets ∧
      octet.len.toNat = ids.octets.length := by
  have hLength := length_octets_le ids
  have hWhole : ([] : List U8).length + (contents (idPieces ids)).length =
    ids.octets.length := Nat.zero_add _
  rcases foldlM_ok written_start (reaches_of_lt (by omega))
    (hWhole ▸ hRoom) with ⟨w, hFold, hWritten⟩
  refine ⟨{ data := w.data, len := BitVec.ofInt 32 w.size },
    bind_eq_ok.mpr ⟨w, hFold, rfl⟩, hWritten.stored, ?_⟩
  rw [hWritten.size]
  exact toNat_int16 (show ids.octets.length < 2 ^ 15 by omega)

/- The identities without those that the flags leave out. -/
def flagged (ids : Ids) : Ids :=
  { flags := ids.flags
    imsi := if imsif ids.flags then ids.imsi else .none _
    imeisv := if imeif ids.flags then ids.imeisv else .none _
    msisdn := if msisdnf ids.flags then ids.msisdn else .none _ }

theorem parseUserId_stored (hStored : Stored memory 0 ids.octets) :
    ((parseUserId memory ids.octets.length).run 0).value =
      .ok (flagged ids, ids.octets.length) := by
  rw [octets_eq] at *
  rcases stored_append.mp hStored with ⟨⟨hFlags, _⟩, hIds⟩
  rcases stored_append.mp hIds with ⟨hImsi, hOthers⟩
  rcases stored_append.mp hOthers with ⟨hImeisv, hMsisdn⟩
  simp only [length_append, length_singleton, Nat.zero_add] at *
  generalize hLen : 1 + ((contents (identityPieces (imsif ids.flags) ids.imsi)).length + ((contents
    (identityPieces (imeif ids.flags) ids.imeisv)).length + (contents
    (identityPieces (msisdnf ids.flags) ids.msisdn)).length)) = len
  have hImsiValue := value_identity (by decide) hImsi (show _ ≤ len by omega)
  have hImeisvValue := value_identity (by decide) hImeisv (show _ ≤ len by omega)
  have hMsisdnValue := value_identity (by decide) hMsisdn (show _ ≤ len by omega)
  refine (value_bind_of_ok (value_parseOctet hFlags (show 0 + 1 ≤ len by omega)) _).trans ?_
  refine (value_bind_of_ok hImsiValue _).trans ?_
  refine (value_bind_of_ok hImeisvValue _).trans ?_
  refine (value_bind_of_ok hMsisdnValue _).trans ?_
  refine congrArg (fun next => Except.ok (flagged ids, next)) ?_
  omega

/- The flags and every flagged identity. -/
structure Same (ids parsed : Ids) : Prop where
  flags : parsed.flags = ids.flags
  imsi : imsif ids.flags = true → parsed.imsi = ids.imsi
  imeisv : imeif ids.flags = true → parsed.imeisv = ids.imeisv
  msisdn : msisdnf ids.flags = true → parsed.msisdn = ids.msisdn

theorem same_flagged {ids : Ids} : Same ids (flagged ids) where
  flags := rfl
  imsi hFlag := if_pos hFlag
  imeisv hFlag := if_pos hFlag
  msisdn hFlag := if_pos hFlag

end UserId

---- Round Trips ----

namespace Ie

open IpResource UserId

/- Both IEs are parsed to their end, to what their flags say was written. -/
theorem ip_resource_and_user_id_round_trip (data : Nat → U8) (dataLen : Nat) :
    (∀ info : Info, (assoni info.flags = true →
        Named info.networkInstance) → info.octets.length ≤ dataLen → ∃ octet parsed,
        buildInfo info data dataLen = .ok octet ∧
        ((parseInfo octet.data octet.len.toNat).run 0).value =
          .ok (parsed, octet.len.toNat) ∧ Same info parsed) ∧ (∀ ids : Ids,
      ids.octets.length ≤ dataLen → ∃ octet parsed, buildUserId ids data dataLen = .ok octet ∧
        ((parseUserId octet.data octet.len.toNat).run 0).value =
          .ok (parsed, octet.len.toNat) ∧ Same ids parsed) := by
  constructor
  · intro info hNamed hRoom
    rcases buildInfo_ok hNamed hRoom with ⟨octet, hBuild, hStored, hLen⟩
    refine ⟨octet, flagged info, hBuild, ?_, same_flagged⟩
    rw [hLen]
    exact parseInfo_stored hNamed hStored
  · intro ids hRoom
    rcases buildUserId_ok hRoom with ⟨octet, hBuild, hStored, hLen⟩
    refine ⟨octet, flagged ids, hBuild, ?_, same_flagged⟩
    rw [hLen]
    exact parseUserId_stored hStored

/- A TEID range, an IPv4 address and an instance of two labels. -/
def accessInfo : Info :=
  { flags := 0x65
    teidRange := 3
    addr := ⟨[10, 45, 0, 1], rfl⟩
    addr6 := .replicate 16 0
    networkInstance := [0x6e, 0x33, 0x2e, 0x61]
    sourceInterface := 1 }

/- An IMSI and an MSISDN. -/
def subscriberIds : Ids :=
  { flags := 0x05
    imsi := ⟨[0x00, 0x01, 0x01, 0x21, 0x43, 0x65, 0x87, 0xf9], by decide⟩
    imeisv := .none _
    msisdn := ⟨[0x94, 0x71, 0x10], by decide⟩ }

theorem ip_resource_and_user_id_round_trip_access :
    (∃ octet parsed, buildInfo accessInfo (fun _ => 0) 64 = .ok octet ∧
      ((parseInfo octet.data octet.len.toNat).run 0).value =
        .ok (parsed, octet.len.toNat) ∧ Same accessInfo parsed) ∧ (∃ octet parsed,
      buildUserId subscriberIds (fun _ => 0) 64 = .ok octet ∧
      ((parseUserId octet.data octet.len.toNat).run 0).value =
        .ok (parsed, octet.len.toNat) ∧ Same subscriberIds parsed) :=
  ⟨(ip_resource_and_user_id_round_trip (fun _ => 0) 64).1
    accessInfo (fun _ => ⟨by decide, by decide⟩) (by decide),
    (ip_resource_and_user_id_round_trip (fun _ => 0) 64).2 subscriberIds (by decide)⟩

end Ie

end Pfcp

end Pretty5gs
