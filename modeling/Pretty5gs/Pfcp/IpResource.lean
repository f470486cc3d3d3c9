import Pretty5gs.Pfcp.Ie
import Pretty5gs.Proto.Fqdn

/-
  The user plane IP resource information IE.

  Every field is checked before it is read but the octet of flags. The network instance is what is
  left of the IE, but for the source interface.

  Main results: `IpResource.parseInfo_within_iff`.
-/

---- Resources ----

namespace Pretty5gs.Pfcp.IpResource

open Ie Reader
open Proto.Fqdn (Dangling ogsFqdnBuild ogsFqdnParse)

/-
  `ogs_user_plane_ip_resource_info_t`; the network instance is its characters in front of the NUL.
-/
structure Info where
  flags : U8
  teidRange : U8
  addr : List.Vector U8 4
  addr6 : List.Vector U8 16
  networkInstance : List U8
  sourceInterface : U8
deriving DecidableEq

variable (flags : U8)

def v4 : Bool := flags.getLsbD 0

def v6 : Bool := flags.getLsbD 1

/- `teidri` has three bits. -/
def teidri : Bool := flags.extractLsb' 2 3 != 0

def assoni : Bool := flags.getLsbD 5

def assosi : Bool := flags.getLsbD 6

/- `OGS_MAX_APN_LEN` -/
def maxApnLen : Nat := 256

---- The Builder ----

variable (info : Info)

def flagsPiece : Piece := { flag := true, signed := false, octets := [info.flags] }

def teidPiece : Piece :=
  { flag := teidri info.flags
    signed := false
    octets := [info.teidRange] }

def addrPiece : Piece :=
  { flag := v4 info.flags
    signed := false
    octets := info.addr.toList }

/- `OGS_IPV6_LEN` is an `int`. -/
def addr6Piece : Piece :=
  { flag := v6 info.flags
    signed := true
    octets := info.addr6.toList }

def sourcePiece : Piece :=
  { flag := assosi info.flags
    signed := false
    octets := [info.sourceInterface] }

/- The pieces in front of the network instance. -/
def frontPieces : List Piece := [flagsPiece info, teidPiece info, addrPiece info, addr6Piece info]

/- The name is written without a check of the buffer. -/
def putInstance (dataLen : Nat) (info : Info) (w : Writing) : Except Fault Writing :=
  let length := info.networkInstance.length
  if assoni info.flags then
    if w.size < 0 ∨ dataLen < w.size.toNat + length + 1 then .error (.outOfBounds (w.size + length))
    else
      .ok
        { data :=
            ogsFqdnBuild w.data w.size.toNat info.networkInstance
          size := int16 (w.size + (length + 1)) }
  else .ok w

/- `ogs_pfcp_build_user_plane_ip_resource_info` -/
def buildInfo (info : Info) (data : Nat → U8) (dataLen : Nat) : Except Fault Octet := do
  let w ← (frontPieces info).foldlM (putPiece dataLen)
    { data := data, size := 0 }
  let w ← putInstance dataLen info w
  let w ← putPiece dataLen w (sourcePiece info)
  return { data := w.data, len := BitVec.ofInt 32 w.size }

---- The Parser ----

/- The octets left for the network instance. -/
def restLen (len pos : Nat) (source : Bool) : Nat := if source then len - pos - 1 else len - pos

variable (memory : Nat → U8) (len : Nat)

/- The network instance. If it is not a name, the parser goes on with none. -/
def parseInstance (source : Bool) : Reader Unit (List U8) := do
  let pos ← position
  if restLen len pos source = 0 then reject ()
  else do
    let name ← lift (ogsFqdnParse memory pos
      (min (restLen len pos source) maxApnLen))
    skip (restLen len pos source)
    return name.getD []

/-
  The source interface. An offset that 15 bits cannot count is negative, and a large number in the
  comparison.
-/
def parseSource : Reader Unit U8 := do
  let pos ← position
  if 2 ^ 15 ≤ pos then reject ()
  else parseField memory len 1 firstOctet

/- `ogs_pfcp_parse_user_plane_ip_resource_info` -/
def parseInfo : Reader Unit Info := do
  let flags ← octet memory
  let teidRange ← optional (teidri flags)
    (parseField memory len 1 firstOctet) 0
  let addr ← optional (v4 flags)
    (parseField memory len 4 id) (.replicate 4 0)
  let addr6 ← optional (v6 flags)
    (parseField memory len 16 id) (.replicate 16 0)
  let networkInstance ← optional (assoni flags)
    (parseInstance memory len (assosi flags)) []
  let sourceInterface ← optional (assosi flags)
    (parseSource memory len) 0
  pure
    { flags := flags
      teidRange := teidRange
      addr := addr
      addr6 := addr6
      networkInstance := networkInstance
      sourceInterface := sourceInterface }

---- Where The Parser Reads ----

/- Where the network instance starts. -/
def instanceStart (flags : U8) : Nat := 1 + (if teidri flags then 1 else 0) +
    (if v4 flags then 4 else 0) + (if v6 flags then 16 else 0)

/- The network instance ends the IE, and dangles. -/
def Overruns (memory : Nat → U8) (len : Nat) : Prop := assoni (memory 0) = true ∧
  assosi (memory 0) = false ∧ ∃ name, Stored memory (instanceStart (memory 0)) name ∧
    instanceStart (memory 0) + name.length = len ∧ name.length ≤ maxApnLen ∧ Dangling name

section Within

variable {memory : Nat → U8} {len pos : Nat}

theorem parseSource_confined :
    Confined len (parseSource memory len) := Confined.position.bind fun _ =>
    .ite .reject confined_parseField

variable {source : Bool}

theorem within_parseInstance (hRest : restLen len pos source ≠ 0) :
    ((parseInstance memory len source).run pos).Within P ↔ (ogsFqdnParse memory pos
        (min (restLen len pos source) maxApnLen)).Within P := by
  unfold parseInstance
  rw [within_bind, and_iff_right within_position]
  constructor
  · intro hAll
    have hName := hAll pos pos rfl
    rw [if_neg hRest] at hName
    exact within_lift.mp (within_bind.mp hName).1
  · intro hName place next hPlace
    cases hPlace
    rw [if_neg hRest]
    refine within_bind.mpr ⟨within_lift.mpr hName, ?_⟩
    intro _ _ _
    exact within_bind.mpr ⟨Traced.within_pure, fun _ _ _ => within_pure⟩

theorem within_parseInstance_none (hRest : restLen len pos source = 0) :
    ((parseInstance memory len source).run pos).Within P := by
  refine within_bind.mpr ⟨within_position, ?_⟩
  intro place next hPlace
  cases hPlace
  rw [if_pos hRest]
  exact within_reject

/- Octets of the IE are left behind the network instance. -/
theorem parseInstance_inside (hInside : source = true ∨ pos + maxApnLen < len) :
    ((parseInstance memory len source).run pos).Within (· < len) := by
  by_cases hRest : restLen len pos source = 0
  · exact within_parseInstance_none hRest
  · rw [within_parseInstance hRest]
    refine Proto.Fqdn.ogsFqdnParse_within_succ.mono ?_
    intro i hBelow
    unfold restLen at hRest hBelow
    cases source with
    | true =>
      rw [if_pos rfl] at hRest hBelow
      omega
    | false =>
      rcases hInside with hSource | hLong
      · cases hSource
      · omega

/- The network instance is what is left of the IE. -/
theorem parseInstance_within_iff (hStored : Stored memory pos name) (hEnd : pos + name.length = len)
    (hShort : name.length ≤ maxApnLen) :
    ((parseInstance memory len false).run pos).Within (· < len) ↔ ¬ Dangling name := by
  have hRest : restLen len pos false = name.length := by
    unfold restLen
    rw [if_neg Bool.false_ne_true]
    omega
  by_cases hNone : name.length = 0
  · rw [List.eq_nil_of_length_eq_zero hNone]
    exact iff_of_true (within_parseInstance_none (hRest.trans hNone)) Proto.Fqdn.not_dangling_nil
  · have hName := Proto.Fqdn.ogsFqdnParse_within_iff hStored
    rw [hEnd] at hName
    rw [within_parseInstance (by rwa [hRest]), hRest, Nat.min_eq_left hShort]
    exact hName

/- The instance may be read, from where it starts. -/
theorem optional_instance_within (hPos : pos = instanceStart (memory 0))
    (hInside : ¬ Overruns memory len) :
    ((optional (assoni (memory 0)) (parseInstance memory len (assosi (memory 0))) []).run
          pos).Within (· < len) := by
  unfold Reader.optional
  by_cases hInstance : assoni (memory 0) = true
  · rw [if_pos hInstance]
    by_cases hAfter : assosi (memory 0) = true ∨ pos + maxApnLen < len
    · exact parseInstance_inside hAfter
    · rw [not_or, Bool.not_eq_true] at hAfter
      rcases hAfter with ⟨hSource, hShort⟩
      rw [hSource]
      rcases exists_stored memory pos (len - pos) with ⟨name, hStored, hLength⟩
      by_cases hRoom : pos ≤ len
      · refine (parseInstance_within_iff hStored (by omega) (by omega)).mpr ?_
        intro hDangling
        exact hInside ⟨hInstance, hSource, name, hPos ▸ hStored, by omega, by omega, hDangling⟩
      · refine within_parseInstance_none ?_
        unfold restLen
        rw [if_neg Bool.false_ne_true]
        omega
  · rw [if_neg hInstance]
    exact within_pure

/- The flags are read, and then the IE may be overrun once. -/
theorem parseInfo_within_iff :
    ((parseInfo memory len).run 0).Within (· < len) ↔ 0 < len ∧ ¬ Overruns memory len := by
  unfold parseInfo
  rw [within_bind, within_octet]
  refine and_congr_right fun hLen => ?_
  constructor
  · rintro hAll ⟨hInstance, hSource, name, hStored, hEnd, hShort, hDangling⟩
    unfold instanceStart at hStored hEnd
    -- The fields in front of the instance are inside the IE.
    have hFields := hAll _ _ value_octet
    rcases exists_optional (show 0 + 1 + (if teidri (memory 0) then 1 else 0) ≤ len
      by omega) with ⟨teidRange, hTeid⟩
    have hFields := confined_optional.within_bind.mp hFields _ _ hTeid
    rcases exists_optional (show 0 + 1 + (if teidri (memory 0) then 1 else 0) +
      (if v4 (memory 0) then 4 else 0) ≤ len by omega) with ⟨addr, hAddr⟩
    have hFields := confined_optional.within_bind.mp hFields _ _ hAddr
    rcases exists_optional (show 0 + 1 + (if teidri (memory 0) then 1 else 0) +
      (if v4 (memory 0) then 4 else 0) + (if v6 (memory 0) then 16 else 0) ≤ len by omega) with
      ⟨addr6, hAddr6⟩
    have hFields := confined_optional.within_bind.mp hFields _ _ hAddr6
    have hName := (within_bind.mp hFields).1
    unfold Reader.optional at hName
    rw [if_pos hInstance, hSource] at hName
    exact (parseInstance_within_iff hStored hEnd hShort).mp hName hDangling
  · intro hInside flags next hFlags
    cases hFlags
    refine confined_optional.within_bind.mpr ?_
    intro teidRange afterTeid hTeid
    refine confined_optional.within_bind.mpr ?_
    intro addr afterAddr hAddr
    refine confined_optional.within_bind.mpr ?_
    intro addr6 afterAddr6 hAddr6
    have hStart : afterAddr6 = instanceStart (memory 0) := by
      rw [(optional_inv hAddr6).1, (optional_inv hAddr).1, (optional_inv hTeid).1]
      rfl
    refine within_bind.mpr ⟨optional_instance_within hStart hInside, ?_⟩
    intro networkInstance afterInstance _
    exact parseSource_confined.optional.bind (fun _ => .pure) _

end Within

end Pretty5gs.Pfcp.IpResource
