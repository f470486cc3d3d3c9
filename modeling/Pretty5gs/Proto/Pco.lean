import Mathlib.Algebra.Ring.Nat
import Pretty5gs.Core.Types
import Pretty5gs.Library.NetOctets

/-
  Protocol configuration options: the parser, the builder and the copy without some of the
  containers.

  A container that was parsed carries the place its data pointer has in the input. The parser
  returns the size of the input when it accepts it.

  Main results: `parseIds_encoded`, `covers_of_parseIds`, `pco_parse_build_filter`.
-/

---- Options ----

namespace Pretty5gs.Proto.Options

open NetOctets List Option

/- `OGS_MAX_NUM_OF_PROTOCOL_OR_CONTAINER_ID` -/
def maxNumOfId : Nat := 32

/- A container. Its length field is the length of its data. -/
structure PcoId where
  id : U16
  data : List U8
  short : data.length < 256
deriving DecidableEq, Repr

structure Pco where
  ext : Bool
  spare : BitVec 4
  configurationProtocol : BitVec 3
  ids : List PcoId
deriving DecidableEq, Repr

/- The bit-field in front of the containers. -/
def Pco.header (pco : Pco) : U8 := BitVec.ofBool pco.ext ++ pco.spare ++ pco.configurationProtocol

def extOf (octet : U8) : Bool := octet.getLsbD 7

def protocolOf (octet : U8) : BitVec 3 := octet.extractLsb' 0 3

/- What is parsed: the containers with the places of their data. -/
structure Parsed where
  ext : Bool
  configurationProtocol : BitVec 3
  ids : List (Nat × PcoId)
deriving DecidableEq, Repr

/- The loop over the containers, with `size` octets in front and `left` containers allowed. -/
def parseIds : (left size : Nat) → List U8 → Option (List (Nat × PcoId))
  | _, _, [] => some []
  | left + 1, size, high :: low :: len :: rest =>
    if len.toNat ≤ rest.length then do
      let ids ← parseIds left (size + 3 + len.toNat) (rest.drop len.toNat)
      return (size + 3, {
        id := high ++ low
        data := rest.take len.toNat
        short := Nat.lt_of_le_of_lt (length_take_le _ _) len.isLt }) :: ids
    else none
  | _, _, _ => none

/- `ogs_assert(data_len)` fails on no octets. -/
def ogsPcoParse : List U8 → Except Fault (Option Parsed)
  | [] => .error .assertion
  | octet :: rest => .ok do
      let ids ← parseIds maxNumOfId 1 rest
      return ⟨extOf octet, protocolOf octet, ids⟩

def encode (id : PcoId) : List U8 := be16 id.id ++ BitVec.ofNat 8 id.data.length :: id.data

/- Behind the octets that are written already. -/
def buildIds (dataLen : Nat) : List PcoId → List U8 → Except Fault (List U8)
  | [], out => .ok out
  | id :: ids, out =>
    if out.length + 2 ≤ dataLen ∧ out.length + 2 + 1 ≤ dataLen ∧
        out.length + 3 + id.data.length ≤ dataLen then
      buildIds dataLen ids (out ++ encode id)
    else .error .assertion

def ogsPcoBuild (dataLen : Nat) (pco : Pco) : Except Fault (List U8) :=
  if 1 ≤ dataLen ∧ pco.ids.length ≤ maxNumOfId then buildIds dataLen pco.ids [pco.header]
  else .error .assertion

def filterIds (outMax : Nat) (exclude : List U16) : List PcoId → List U8 → Option (List U8)
  | [], out => some out
  | id :: ids, out =>
    if id.id ∈ exclude then filterIds outMax exclude ids out
    else if outMax < out.length + (2 + 1 + id.data.length) then none
    else filterIds outMax exclude ids (out ++ encode id)

/- `none` is a negative return. -/
def ogsPcoFilterCopy (outMax : Nat) (data : List U8) (exclude : List U16) :
    Except Fault (Option (List U8)) :=
  if data = [] then .ok (some [])
  else do
    match ← ogsPcoParse data with
    | none => return none
    | some pco =>
      if outMax < 1 then return none
      let header := (if pco.ext then 0x80 else 0) ||| (pco.configurationProtocol.setWidth 8 &&& 7)
      return filterIds outMax exclude (pco.ids.map Prod.snd) [header]

---- Headers ----

theorem extOf_header (pco : Pco) : extOf pco.header = pco.ext := by
  unfold extOf Pco.header
  generalize pco.ext = ext, pco.spare = spare, pco.configurationProtocol = protocol
  revert ext spare protocol
  decide

theorem protocolOf_header (pco : Pco) : protocolOf pco.header = pco.configurationProtocol := by
  unfold protocolOf Pco.header
  generalize pco.ext = ext, pco.spare = spare, pco.configurationProtocol = protocol
  revert ext spare protocol
  decide

/- The header that is copied has no spare bits. -/
def copiedHeader (octet : U8) : Pco := ⟨extOf octet, 0, protocolOf octet, []⟩

theorem header_copiedHeader :
    (if extOf octet then 0x80 else 0) ||| ((protocolOf octet).setWidth 8 &&& 7) =
      (copiedHeader octet).header := by
  unfold copiedHeader Pco.header
  generalize extOf octet = ext, protocolOf octet = protocol
  revert ext protocol
  decide

---- Containers ----

variable {ids : List PcoId} {left size : Nat} {out : List U8}

theorem length_encode (id : PcoId) : (encode id).length = 3 + id.data.length := by
  simp [encode]
  omega

/- Containers one behind the other, with the places of their data. -/
def placed : Nat → List PcoId → List (Nat × PcoId)
  | _, [] => []
  | size, id :: ids => (size + 3, id) :: placed (size + 3 + id.data.length) ids

theorem map_snd_placed {size : Nat} {ids : List PcoId} : (placed size ids).map Prod.snd = ids := by
  induction ids generalizing size with
  | nil => rfl
  | cons id ids ih => rw [placed, map_cons, ih]

theorem parseIds_encoded (hCount : ids.length ≤ left) :
    parseIds left size (ids.flatMap encode) = some (placed size ids) := by
  induction ids generalizing left size with
  | nil => cases left <;> rfl
  | cons id ids ih =>
    rcases Nat.exists_eq_add_of_le' hCount with ⟨spare, rfl⟩
    rcases id with ⟨id, data, hShort⟩
    have hLen : (BitVec.ofNat 8 data.length).toNat = data.length := by
      rw [BitVec.toNat_ofNat, Nat.mod_eq_of_lt hShort]
    have hOctets : (PcoId.mk id data hShort :: ids).flatMap encode = high16 id :: low16 id ::
        BitVec.ofNat 8 data.length :: (data ++ ids.flatMap encode) := rfl
    have hRest := @ih (spare + ids.length) (size + 3 + data.length) (Nat.le_add_left _ spare)
    rw [hOctets, length_cons, ← Nat.add_assoc, parseIds]
    simp [hLen, hRest, placed]

/- The containers lie in the octets from `size` on, one behind the other up to the end. -/
def Covers (data : List U8) : Nat → List (Nat × PcoId) → Prop
  | size, [] => size = data.length
  | size, (place, id) :: ids => place = size + 3 ∧ place + id.data.length ≤ data.length ∧
      (data.drop size).take (3 + id.data.length) = encode id ∧
      Covers data (place + id.data.length) ids

theorem encode_of_octets {high low len : U8} {rest : List U8} (hRoom : len.toNat ≤ rest.length)
    (hShort : (rest.take len.toNat).length < 256) :
    high :: low :: len :: rest =
      encode ⟨high ++ low, rest.take len.toNat, hShort⟩ ++ rest.drop len.toNat := by
  have hLength : (rest.take len.toNat).length = len.toNat := by
    rw [length_take, Nat.min_eq_left hRoom]
  have hHigh : high16 (high ++ low) = high := by
    unfold high16
    grind
  have hLow : low16 (high ++ low) = low := by
    unfold low16
    grind
  simp [encode, be16, hHigh, hLow, hLength]

/- Along the loop, with the octets in front of it. -/
theorem covers_of_parseIds {rest : List U8} {parsed : List (Nat × PcoId)}
    (hParsed : parseIds left size rest = some parsed) {front : List U8}
    (hFront : front.length = size) :
    Covers (front ++ rest) size parsed ∧ parsed.length ≤ left ∧
      rest = (parsed.map Prod.snd).flatMap encode := by
  induction left, size, rest using parseIds.induct generalizing front parsed with
  | case1 left size =>
    rw [parseIds] at hParsed
    cases hParsed
    exact ⟨by rw [append_nil]; exact hFront.symm, Nat.zero_le left, rfl⟩
  | case2 left size high low len rest hRoom ih =>
    rw [parseIds, if_pos hRoom] at hParsed
    rcases bind_eq_some_iff.mp hParsed with ⟨others, hOthers, hSome⟩
    cases hSome
    have hShort := Nat.lt_of_le_of_lt (length_take_le len.toNat rest) len.isLt
    have hOctets := @encode_of_octets high low len rest hRoom hShort
    have hLength := length_encode ⟨high ++ low, rest.take len.toNat, hShort⟩
    have hTaken : (rest.take len.toNat).length = len.toNat := by
      rw [length_take, Nat.min_eq_left hRoom]
    rw [hTaken] at hLength
    rcases @ih others hOthers (front ++ encode ⟨high ++ low, rest.take len.toNat, hShort⟩)
      (by rw [length_append]; omega) with ⟨hCovers, hCount, hEncoded⟩
    rw [append_assoc, ← hOctets] at hCovers
    refine ⟨⟨rfl, ?_, ?_, ?_⟩, ?_, ?_⟩
    · rw [length_append]
      simp only [length_cons]
      omega
    · rw [← hFront, drop_left, hOctets, hTaken, ← hLength, take_left]
    · rwa [hTaken]
    · rw [length_cons]
      omega
    · rw [map_cons, flatMap_cons, ← hEncoded]
      exact hOctets
  | case3 left size high low len rest hRoom =>
    rw [parseIds, if_neg hRoom] at hParsed
    cases hParsed
  | case4 left size rest hSome hShort =>
    unfold parseIds at hParsed
    split at hParsed
    · exact absurd rfl hSome
    · exact (hShort _ _ _ _ _ rfl rfl).elim
    · cases hParsed

theorem ogsPcoParse_encoded (octet : U8) (hCount : ids.length ≤ maxNumOfId) :
    ogsPcoParse (octet :: ids.flatMap encode) =
      .ok (some ⟨extOf octet, protocolOf octet, placed 1 ids⟩) := by
  rw [ogsPcoParse, parseIds_encoded hCount]
  rfl

theorem buildIds_ok (hRoom : (out ++ ids.flatMap encode).length ≤ dataLen) :
    buildIds dataLen ids out = .ok (out ++ ids.flatMap encode) := by
  induction ids generalizing out with
  | nil => rw [buildIds, flatMap_nil, append_nil]
  | cons id ids ih =>
    have hLength := length_encode id
    rw [flatMap_cons, ← append_assoc] at hRoom ⊢
    have hFirst := hRoom
    rw [length_append, length_append] at hFirst
    rw [buildIds, if_pos (by omega), ih hRoom]

theorem filterIds_some (hRoom : (out ++ ids.flatMap encode).length ≤ outMax) :
    filterIds outMax exclude ids out =
      some (out ++ (ids.filter (·.id ∉ exclude)).flatMap encode) := by
  induction ids generalizing out with
  | nil => rw [filterIds, filter_nil, flatMap_nil, append_nil]
  | cons id ids ih =>
    have hLength := length_encode id
    rw [flatMap_cons, ← append_assoc] at hRoom
    have hFirst := hRoom
    rw [length_append, length_append] at hFirst
    by_cases hSkip : id.id ∈ exclude
    · rw [filterIds, if_pos hSkip, ih (by rw [length_append]; omega),
        filter_cons_of_neg (by simpa using hSkip)]
    · rw [filterIds, if_neg hSkip, if_neg (by omega), ih hRoom,
        filter_cons_of_pos (by simpa using hSkip), flatMap_cons, append_assoc]

---- Parsing, Building And Copying ----

theorem ogsPcoFilterCopy_accepted (hParsed : parseIds maxNumOfId 1 rest = some parsed)
    (hRoom : (octet :: rest).length ≤ outMax) :
    ∃ out copied, ogsPcoFilterCopy outMax (octet :: rest) exclude = .ok (some out) ∧
      ogsPcoParse out = .ok (some copied) ∧ copied.ext = extOf octet ∧
      copied.configurationProtocol = protocolOf octet ∧
      copied.ids.map Prod.snd = (parsed.map Prod.snd).filter (·.id ∉ exclude) := by
  rcases @covers_of_parseIds _ _ _ _ hParsed [octet] rfl with ⟨_, hCount, hRest⟩
  have hFew : ((parsed.map Prod.snd).filter (·.id ∉ exclude)).length ≤ maxNumOfId := by
    have hFilter := length_filter_le (fun id => decide (id.id ∉ exclude)) (parsed.map Prod.snd)
    rw [length_map] at hFilter
    omega
  refine ⟨_, _, ?_, ogsPcoParse_encoded (copiedHeader octet).header hFew, extOf_header _,
    protocolOf_header _, map_snd_placed⟩
  have hFilter := @filterIds_some (parsed.map Prod.snd) [(copiedHeader octet).header] outMax exclude
    (by rw [← hRest]; exact hRoom)
  rw [← header_copiedHeader] at hFilter ⊢
  rw [length_cons] at hRoom
  simp only [ogsPcoFilterCopy, ogsPcoParse, hParsed, reduceCtorEq, if_false, bind, Except.bind,
    Option.bind, if_neg (show ¬ outMax < 1 by omega)]
  exact congrArg Except.ok hFilter

/- What is built is parsed, and what is parsed is covered and copied. -/
theorem pco_parse_build_filter :
    (∀ (pco : Pco) (dataLen : Nat), pco.ids.length ≤ maxNumOfId →
      1 + (pco.ids.map (3 + ·.data.length)).sum ≤ dataLen →
      ∃ out parsed, ogsPcoBuild dataLen pco = .ok out ∧ ogsPcoParse out = .ok (some parsed) ∧
        parsed.ext = pco.ext ∧ parsed.configurationProtocol = pco.configurationProtocol ∧
        parsed.ids.map Prod.snd = pco.ids) ∧
    ∀ data : List U8, data ≠ [] → ∃ result, ogsPcoParse data = .ok result ∧
      ∀ parsed, result = some parsed → Covers data 1 parsed.ids ∧
        ∀ (exclude : List U16) (outMax : Nat), data.length ≤ outMax →
          ∃ out copied, ogsPcoFilterCopy outMax data exclude = .ok (some out) ∧
            ogsPcoParse out = .ok (some copied) ∧ copied.ext = parsed.ext ∧
            copied.configurationProtocol = parsed.configurationProtocol ∧
            copied.ids.map Prod.snd = (parsed.ids.map Prod.snd).filter (·.id ∉ exclude) := by
  constructor
  · intro pco dataLen hCount hRoom
    have hLength : (pco.header :: pco.ids.flatMap encode).length ≤ dataLen := by
      simpa [length_flatMap, length_encode, Nat.add_comm] using hRoom
    refine ⟨_, _, ?_, ogsPcoParse_encoded pco.header hCount, extOf_header pco,
      protocolOf_header pco, map_snd_placed⟩
    rw [ogsPcoBuild, if_pos ⟨by omega, hCount⟩]
    exact buildIds_ok hLength
  · intro data hSome
    cases data with
    | nil => exact absurd rfl hSome
    | cons octet rest =>
      refine ⟨_, rfl, fun parsed hResult => ?_⟩
      rcases bind_eq_some_iff.mp hResult with ⟨ids, hParsed, hIds⟩
      cases hIds
      exact ⟨(@covers_of_parseIds _ _ _ _ hParsed [octet] rfl).1,
        fun exclude outMax hRoom => ogsPcoFilterCopy_accepted hParsed hRoom⟩

theorem pco_parse_build_filter_two :
    ∃ out copied, ogsPcoFilterCopy 8 [0x80, 0, 13, 0, 0, 16, 1, 5] [13] = .ok (some out) ∧
      ogsPcoParse out = .ok (some copied) ∧ copied.ids.map Prod.snd = [⟨16, [5], by decide⟩] := by
  rcases pco_parse_build_filter.2 [0x80, 0, 13, 0, 0, 16, 1, 5] (by decide) with ⟨_, ⟨⟩, hAccepted⟩
  rcases (hAccepted _ rfl).2 [13] 8 (by decide) with ⟨out, copied, hOut, hCopied, _, _, hIds⟩
  exact ⟨out, copied, hOut, hCopied, hIds⟩

/- The parser aborts on no octets. -/
theorem pco_parse_of_no_octets : ogsPcoParse [] = .error .assertion := rfl

end Pretty5gs.Proto.Options
