import Pretty5gs.Pfcp.SdfFilter

/-
  Which SDF filters are parsed as they were built.

  A flow description can move the fields behind it out of reach of the builder's offset.

  Main results: `SdfFilter.parse_stored`, `SdfFilter.sdf_filter_round_trips`.
-/

---- Decoded Words ----

namespace Pretty5gs.Pfcp.SdfFilter

open NetOctets Faulty Ie Reader

theorem decode16_be16 : decode16 ⟨be16 w, rfl⟩ = w := high_append_low16

theorem decode32_be32 : decode32 ⟨be32 w, rfl⟩ = w := by
  show (high16 (high32 w) ++ low16 (high32 w) : U16) ++
    (high16 (low32 w) ++ low16 (low32 w) : U16) = w
  rw [high_append_low16, high_append_low16, high_append_low32]

theorem decodeTos_eq_zero : decodeTos v = 0 := ByteSwap.setWidth_swap_setWidth

/- The flow label without its last octet. -/
def upperLabel (w : U32) : U32 := w &&& 0xffffff00

theorem decodeLabel_be32 : decodeLabel ⟨(be32 w).take 3, rfl⟩ = upperLabel w := by
  show ByteSwap.swap (((0 : U8) ++ high16 (low32 w) : U16) ++
    (low16 (high32 w) ++ high16 (high32 w) : U16)) = w &&& 0xffffff00
  have hMask : ∀ i < 32, (0xffffff00 : U32).getLsbD i = decide (8 ≤ i) := by decide
  apply BitVec.eq_of_getLsbD_eq
  intro i hBound
  rw [ByteSwap.getLsbD_swap hBound, BitVec.getLsbD_and]
  unfold high16 low16 high32 low32
  -- The octet of the bit decides where it is taken from.
  rcases (show i < 8 ∨ (8 ≤ i ∧ i < 16) ∨ (16 ≤ i ∧ i < 24) ∨
    24 ≤ i by omega) with hFirst | hSecond | hThird | hFourth
  · grind
  · grind
  · grind
  · grind

---- The Octets Of A Filter ----

def Filter.octets (f : Filter) : List U8 := contents (flowPieces f) ++ contents (laterPieces f)

/-
  The flow description ends where 16 bits can count, and a field behind it starts where 15 bits can.
-/
structure InReach (f : Filter) : Prop where
  flow : (contents (flowPieces f)).length < 2 ^ 16
  later : Reaches (contents (flowPieces f)).length (laterPieces f)

variable (f : Filter)

theorem contents_flowPieces :
    contents (flowPieces f) = [f.flags, f.spare2] ++
        ((lengthPiece f).content ++ (flowPiece f).content) := by
  show [f.flags] ++ ([f.spare2] ++ ((lengthPiece f).content ++ ((flowPiece f).content ++ []))) = _
  rw [List.append_nil]
  rfl

theorem contents_laterPieces :
    contents (laterPieces f) = (tosPiece f).content ++ ((indexPiece f).content ++
        ((labelPiece f).content ++ (idPiece f).content)) := by
  show (tosPiece f).content ++ ((indexPiece f).content ++
    ((labelPiece f).content ++ ((idPiece f).content ++ []))) = _
  rw [List.append_nil]

theorem reaches_flowPieces : Reaches 0 (flowPieces f) := by
  have hLength := length_content_le (lengthPiece f)
  have hTwo : (lengthPiece f).octets.length = 2 := rfl
  refine ⟨fun _ => by decide, fun _ => ?_, fun _ => ?_, fun _ => ?_, trivial⟩
  · show 0 + 1 < 2 ^ 15
    decide
  · show 0 + 1 + 1 < 2 ^ 15
    decide
  · show 0 + 1 + 1 + (lengthPiece f).content.length < 2 ^ 15
    omega

theorem laterPieces_short : ∀ piece ∈ laterPieces f, piece.octets.length ≤ 4 := by
  intro piece hMem
  unfold laterPieces at hMem
  simp only [List.mem_cons, List.not_mem_nil, or_false] at hMem
  rcases hMem with rfl | rfl | rfl | rfl
  · exact (by decide : 2 ≤ 4)
  · exact (by decide : 4 ≤ 4)
  · exact (by decide : 3 ≤ 4)
  · exact (by decide : 4 ≤ 4)

/- The flow description and what precedes it are written. -/
theorem flowPieces_written (hRoom : f.octets.length ≤ dataLen) :
    ∃ w, (flowPieces f).foldlM (putPiece dataLen)
        { data := data, size := 0 } = .ok w ∧ Written w (contents (flowPieces f)) := by
  unfold Filter.octets at hRoom
  rw [List.length_append] at hRoom
  refine foldlM_ok written_start (reaches_flowPieces f) ?_
  rw [List.length_nil]
  omega

---- What Is Parsed ----

section Parsed

variable {memory : Nat → U8} {len count pos next : Nat}

theorem value_parseFlow {f : Filter} (hStored : Stored memory pos
        ((lengthPiece f).content ++ (flowPiece f).content)) (hRoom :
      pos + (lengthPiece f).content.length + (flowPiece f).content.length ≤ len) :
    ((optional (fd f.flags) (parseFlow memory len) { len := 0, place := 0 }).run pos).value =
      .ok (if fd f.flags then
            { len := BitVec.ofNat 16 f.flowDescription.length
              place := pos + 2 }
          else { len := 0, place := 0 },
          pos + ((lengthPiece f).content.length + (flowPiece f).content.length)) := by
  unfold Piece.content lengthPiece flowPiece at *
  cases hFlag : fd f.flags with
  | false => rfl
  | true =>
    rw [hFlag, if_pos rfl] at hStored hRoom
    rw [if_pos rfl, if_pos rfl, if_pos rfl]
    rw [length_be16] at hRoom ⊢
    let word : List.Vector U8 2 := ⟨be16 (BitVec.ofNat 16 f.flowDescription.length), rfl⟩
    have hWord : ((take memory (fun _ => ()) len 2).run pos).value = .ok (word, pos + 2) :=
      value_take (stored_append.mp hStored).1 (by omega)
    have hLess : (BitVec.ofNat 16 f.flowDescription.length).toNat = f.flowDescription.length :=
      Nat.mod_eq_of_lt f.length_fits
    show ((parseFlow memory len).run pos).value = _
    unfold parseFlow field
    rw [value_bind_of_ok hWord, value_bind_of_ok value_position, value_bind_of_ok value_skip,
      value_pure, decode16_be16, hLess, Nat.add_assoc]

/- What the parser makes of the octets of a filter. -/
def parsedBack (f : Filter) : ParsedSdf :=
  { flags := f.flags
    spare2 := f.spare2
    flowDescriptionLen :=
      if fd f.flags then BitVec.ofNat 16 f.flowDescription.length
      else 0
    flowDescription := if fd f.flags then 4 else 0
    tosTrafficClass := 0
    securityParameterIndex := if spi f.flags then f.securityParameterIndex else 0
    flowLabel := if fl f.flags then upperLabel f.flowLabel else 0
    sdfFilterId := if bid f.flags then f.sdfFilterId else 0 }

/- Every field is read behind the one before. -/
theorem parse_stored {f : Filter} (hStored : Stored memory 0 f.octets)
    (hRoom : f.octets.length ≤ len) :
    ((parseSdfFilter memory len).run 0).value = .ok (parsedBack f, f.octets.length) := by
  unfold Filter.octets at hStored hRoom ⊢
  rw [contents_flowPieces, contents_laterPieces] at *
  simp only [List.length_append, List.length_cons, List.length_nil] at hRoom ⊢
  rcases stored_append.mp hStored with ⟨hFront, hLater⟩
  rcases stored_append.mp hFront with ⟨⟨hFlags, hSpare, _⟩, hFlow⟩
  rcases stored_append.mp hLater with ⟨hTos, hAfterTos⟩
  rcases stored_append.mp hAfterTos with ⟨hIndex, hAfterIndex⟩
  rcases stored_append.mp hAfterIndex with ⟨hLabel, hId⟩
  simp only [List.length_append, List.length_cons,
    List.length_nil, Nat.zero_add] at hFlow hTos hIndex hLabel hId
  have hFlagsValue := value_parseOctet hFlags (show 0 + 1 ≤ len by omega)
  have hSpareValue := value_parseOctet hSpare (show 0 + 1 + 1 ≤ len by omega)
  have hFlowValue := value_parseFlow hFlow (show _ ≤ len by omega)
  have hTosValue := value_piece decodeTos 0 rfl hTos (show _ ≤ len by omega)
  have hIndexValue := value_piece decode32 0 rfl hIndex (show _ ≤ len by omega)
  have hLabelValue := value_piece decodeLabel 0 rfl hLabel (show _ ≤ len by omega)
  have hIdValue := value_piece decode32 0 rfl hId (show _ ≤ len by omega)
  refine (value_bind_of_ok hFlagsValue _).trans ?_
  refine (value_bind_of_ok hSpareValue _).trans ?_
  refine (value_bind_of_ok hFlowValue _).trans ?_
  refine (value_bind_of_ok hTosValue _).trans ?_
  refine (value_bind_of_ok hIndexValue _).trans ?_
  refine (value_bind_of_ok hLabelValue _).trans ?_
  refine (value_bind_of_ok hIdValue _).trans ?_
  have hTosBack : decodeTos ⟨(tosPiece f).octets, rfl⟩ = 0 := decodeTos_eq_zero
  have hIndexBack : decode32 ⟨(indexPiece f).octets, rfl⟩ =
    f.securityParameterIndex := decode32_be32
  have hLabelBack : decodeLabel ⟨(labelPiece f).octets, rfl⟩ =
    upperLabel f.flowLabel := decodeLabel_be32
  have hIdBack : decode32 ⟨(idPiece f).octets, rfl⟩ = f.sdfFilterId := decode32_be32
  rw [value_pure, hTosBack, hIndexBack, hLabelBack, hIdBack,
    ite_self, apply_ite FlowPlace.len, apply_ite FlowPlace.place]
  refine congrArg Except.ok (Prod.ext rfl ?_)
  omega

theorem parseFlow_inv (hValue : ((parseFlow memory len).run pos).value = .ok (flow, next)) :
    next = pos + 2 + flow.len.toNat ∧ pos + 2 ≤ len := by
  rcases value_bind_eq_ok hValue with ⟨items, after, hTake, hRest⟩
  rcases value_take_eq_ok hTake with ⟨rfl, hRoom⟩
  cases hRest
  exact ⟨rfl, hRoom⟩

/- A field of the filter behind its flow description. -/
def HasLater (flags : U8) : Prop := ttc flags = true ∨ spi flags = true ∨ fl flags = true ∨
    bid flags = true

/- Fields that have been parsed end inside the IE. -/
theorem parse_inv (hValue : ((parseSdfFilter memory len).run 0).value = .ok (parsed, next))
    (hFlow : fd parsed.flags = true) :
    4 ≤ len ∧ (HasLater parsed.flags → 4 + parsed.flowDescriptionLen.toNat ≤ len) := by
  rcases value_bind_eq_ok hValue with ⟨flags, afterFlags, hFlags, hRest⟩
  rcases value_bind_eq_ok hRest with ⟨spare2, afterSpare, hSpare, hRest⟩
  rcases value_bind_eq_ok hRest with ⟨flow, afterFlow, hFlowValue, hRest⟩
  rcases value_bind_eq_ok hRest with ⟨tos, afterTos, hTos, hRest⟩
  rcases value_bind_eq_ok hRest with ⟨index, afterIndex, hIndex, hRest⟩
  rcases value_bind_eq_ok hRest with ⟨label, afterLabel, hLabel, hRest⟩
  rcases value_bind_eq_ok hRest with ⟨id, afterId, hId, hRest⟩
  cases hRest
  have hFlagsEnd := (parseField_inv hFlags).1
  have hSpareEnd := (parseField_inv hSpare).1
  unfold Reader.optional at hFlowValue
  rw [if_pos hFlow] at hFlowValue
  rcases parseFlow_inv hFlowValue with ⟨hFlowEnd, hRoom⟩
  rcases optional_inv hTos with ⟨hTosStart, hTosEnd⟩
  rcases optional_inv hIndex with ⟨hIndexStart, hIndexEnd⟩
  rcases optional_inv hLabel with ⟨hLabelStart, hLabelEnd⟩
  rcases optional_inv hId with ⟨hIdStart, hIdEnd⟩
  refine ⟨by omega, ?_⟩
  dsimp only
  rintro (hFlag | hFlag | hFlag | hFlag)
  · have hEnd := hTosEnd hFlag
    omega
  · have hEnd := hIndexEnd hFlag
    omega
  · have hEnd := hLabelEnd hFlag
    omega
  · have hEnd := hIdEnd hFlag
    omega

end Parsed

---- Round Trips ----

/- The flags and every flagged field have the value written. -/
structure Same (f : Filter) (memory : Nat → U8) (parsed : ParsedSdf) : Prop where
  flags : parsed.flags = f.flags
  length : fd f.flags = true → parsed.flowDescriptionLen.toNat = f.flowDescription.length
  description : fd f.flags = true → Stored memory parsed.flowDescription f.flowDescription
  tos : ttc f.flags = true → parsed.tosTrafficClass = f.tosTrafficClass
  index : spi f.flags = true → parsed.securityParameterIndex = f.securityParameterIndex
  label : fl f.flags = true → parsed.flowLabel = f.flowLabel
  id : bid f.flags = true → parsed.sdfFilterId = f.sdfFilterId

/- The built IE is parsed, to the same filter. -/
def RoundTrips (f : Filter) (data : Nat → U8) (dataLen : Nat) : Prop := ∃ octet parsed next,
    buildSdfFilter f data dataLen = .ok octet ∧
    ((parseSdfFilter octet.data octet.len.toNat).run 0).value = .ok (parsed, next) ∧
    Same f octet.data parsed

section RoundTrips

variable {f : Filter} {w : Writing}

/- What has been written in reach is parsed as a whole. -/
theorem parse_written (hReach : InReach f) (hWritten : Written w f.octets) :
    ((parseSdfFilter w.data (BitVec.ofInt 32 w.size).toNat).run 0).value =
      .ok (parsedBack f, f.octets.length) := by
  have hBound := hReach.later.lt hReach.flow (fun piece hMem => Nat.lt_of_le_of_lt
    (laterPieces_short f piece hMem) (by decide))
  rw [← List.length_append] at hBound
  refine parse_stored hWritten.stored ?_
  rw [hWritten.size]
  exact le_toNat_int16 hBound

theorem length_later_le (f : Filter) : (contents (laterPieces f)).length ≤ 16 := by
  have hSum := length_flatMap_le (fun piece hMem => (length_content_le piece).trans
    (laterPieces_short f piece hMem))
  exact hSum

theorem length_later_eq_zero (hNone : ¬ HasLater f.flags) :
    (contents (laterPieces f)).length = 0 := by
  unfold HasLater at hNone
  rw [not_or, not_or, not_or] at hNone
  rcases hNone with ⟨hTos, hIndex, hLabel, hId⟩
  rw [contents_laterPieces]
  unfold Piece.content tosPiece indexPiece labelPiece idPiece
  rw [if_neg hTos, if_neg hIndex, if_neg hLabel, if_neg hId]
  rfl

/- A flow description that 16 bits cannot count is lost. -/
theorem not_same_of_wrap (hLong : 2 ^ 16 ≤ (contents (flowPieces f)).length)
    (hWritten : Written w (contents (flowPieces f)))
    (hFold : (laterPieces f).foldlM (putPiece dataLen) w = .ok w')
    (hParse : ((parseSdfFilter w'.data (BitVec.ofInt 32 w'.size).toNat).run 0).value =
          .ok (parsed, next)) : ¬ Same f w'.data parsed := by
  intro hSame
  have hFit := f.length_fits
  have hLater := length_later_le f
  have hLength := length_content_le (lengthPiece f)
  have hTwo : (lengthPiece f).octets.length = 2 := rfl
  have hSum : (contents (flowPieces f)).length = 2 + ((lengthPiece f).content.length +
    (flowPiece f).content.length) := by
    rw [contents_flowPieces, List.length_append, List.length_append]
    rfl
  have hContent : (flowPiece f).content.length ≤
    f.flowDescription.length := length_content_le (flowPiece f)
  -- The flag is set, or nothing would be written there.
  have hFlow : fd f.flags = true := by
    by_contra hUnset
    have hNone : (flowPiece f).content = [] := if_neg hUnset
    rw [hNone, List.length_nil] at hSum
    omega
  -- The offset starts again behind the flow description.
  have hSize : 0 ≤ w.size ∧ w.size ≤ (3 : Nat) := by
    rw [hWritten.size]
    unfold int16
    omega
  rcases foldlM_small hSize (by omega) hFold with ⟨hLow, hHigh⟩
  have hLen : (BitVec.ofInt 32 w'.size).toNat ≤ 3 + (contents (laterPieces f)).length := by
    rw [BitVec.toNat_ofInt]
    omega
  rcases parse_inv hParse (hSame.flags ▸ hFlow) with ⟨hFour, hFields⟩
  rw [hSame.flags, hSame.length hFlow] at hFields
  by_cases hHas : HasLater f.flags
  · have hEnd := hFields hHas
    omega
  · have hZero := length_later_eq_zero hHas
    omega

theorem same_parsedBack_iff (hStored : Stored memory 0 f.octets) :
    Same f memory (parsedBack f) ↔ (ttc f.flags = true → f.tosTrafficClass = 0) ∧
      (fl f.flags = true → upperLabel f.flowLabel = f.flowLabel) := by
  constructor
  · intro hSame
    refine ⟨fun hFlag => (hSame.tos hFlag).symm, ?_⟩
    intro hFlag
    have hLabel := hSame.label hFlag
    unfold parsedBack at hLabel
    rwa [if_pos hFlag] at hLabel
  · rintro ⟨hTos, hLabel⟩
    refine ⟨rfl, ?_, ?_, fun hFlag => (hTos hFlag).symm, ?_, ?_, ?_⟩
    · intro hFlag
      unfold parsedBack
      rw [if_pos hFlag]
      exact Nat.mod_eq_of_lt f.length_fits
    · intro hFlag
      unfold Filter.octets at hStored
      rw [contents_flowPieces] at hStored
      have hFlow := (stored_append.mp (stored_append.mp (stored_append.mp hStored).1).2).2
      have hLengthPiece := content_of_flag (show (lengthPiece f).flag = true from hFlag)
      have hFlowPiece := content_of_flag (show (flowPiece f).flag = true from hFlag)
      have hPlace : (parsedBack f).flowDescription = 4 := if_pos hFlag
      rw [hLengthPiece, hFlowPiece] at hFlow
      rw [hPlace]
      exact hFlow
    · intro hFlag
      exact if_pos hFlag
    · intro hFlag
      exact (if_pos hFlag).trans (hLabel hFlag)
    · intro hFlag
      exact if_pos hFlag

/-
  A filter survives if and only if it is in reach of the offset, its traffic class is zero and the
  last octet of its flow label is zero.
-/
theorem sdf_filter_round_trips (f : Filter) (data : Nat → U8) (dataLen : Nat)
    (hRoom : f.octets.length ≤ dataLen) :
    RoundTrips f data dataLen ↔ InReach f ∧ (ttc f.flags = true → f.tosTrafficClass = 0) ∧
      (fl f.flags = true → upperLabel f.flowLabel = f.flowLabel) := by
  rcases flowPieces_written f hRoom with ⟨w, hFlow, hWritten⟩
  constructor
  · rintro ⟨octet, parsed, next, hBuild, hParse, hSame⟩
    rcases bind_eq_ok.mp hBuild with ⟨mid, hMid, hRest⟩
    rcases bind_eq_ok.mp hRest with ⟨w', hLater, hOctet⟩
    rw [hFlow] at hMid
    cases hMid
    cases hOctet
    by_cases hLong : 2 ^ 16 ≤ (contents (flowPieces f)).length
    · exact absurd hSame (not_same_of_wrap hLong hWritten hLater hParse)
    · rcases foldlM_inv hWritten (Nat.lt_of_not_le hLong) (fun piece hMem => Nat.lt_of_le_of_lt
      (laterPieces_short f piece hMem) (by decide)) hLater with ⟨hReaches, hAll⟩
      have hReach : InReach f := ⟨Nat.lt_of_not_le hLong, hReaches⟩
      rw [parse_written hReach hAll] at hParse
      cases hParse
      exact ⟨hReach, (same_parsedBack_iff hAll.stored).mp hSame⟩
  · rintro ⟨hReach, hValues⟩
    have hWhole : (contents (flowPieces f)).length +
      (contents (laterPieces f)).length ≤ dataLen := by
      rw [← List.length_append]
      exact hRoom
    rcases foldlM_ok hWritten hReach.later hWhole with ⟨w', hLater, hAll⟩
    refine ⟨{ data := w'.data, len := BitVec.ofInt 32 w'.size }, parsedBack f, f.octets.length, ?_,
      parse_written hReach hAll, (same_parsedBack_iff hAll.stored).mpr hValues⟩
    exact bind_eq_ok.mpr ⟨w, hFlow, bind_eq_ok.mpr ⟨w', hLater, rfl⟩⟩

/- A flow description, an index and a filter id. -/
def flowFilter : Filter :=
  { flags := 0x15
    spare2 := 0
    flowDescription := [0x70, 0x65, 0x72, 0x6d, 0x69, 0x74]
    tosTrafficClass := 0x1234
    securityParameterIndex := 0x01020304
    flowLabel := 0
    sdfFilterId := 7
    length_fits := by decide }

theorem sdf_filter_round_trips_flow : RoundTrips flowFilter (fun _ => 0) 32 :=
  (sdf_filter_round_trips flowFilter (fun _ => 0) 32 (by decide)).mpr
    ⟨⟨by decide, by decide⟩, by decide, by decide⟩

/- A filter of a traffic class. -/
def tosFilter : Filter :=
  { flags := 0x02
    spare2 := 0
    flowDescription := []
    tosTrafficClass := 0x1234
    securityParameterIndex := 0
    flowLabel := 0
    sdfFilterId := 0
    length_fits := by decide }

/- The traffic class that the parser gives back. -/
def tosBack (f : Filter) : Option U16 := do
  let octet ← (buildSdfFilter f (fun _ => 0) 32).toOption
  let result ← ((parseSdfFilter octet.data octet.len.toNat).run 0).value.toOption
  return result.1.tosTrafficClass

theorem traffic_class_is_lost : ¬ RoundTrips tosFilter (fun _ => 0) 32 := by
  rintro ⟨octet, parsed, next, hBuild, hParse, hSame⟩
  have hZero : tosBack tosFilter = some 0 := by decide +kernel
  have hBack : tosBack tosFilter = some parsed.tosTrafficClass := by
    unfold tosBack
    rw [hBuild]
    show (do
      let result ← ((parseSdfFilter octet.data
        octet.len.toNat).run 0).value.toOption
      return result.1.tosTrafficClass) = _
    rw [hParse]
    rfl
  have hTos : parsed.tosTrafficClass = 0x1234 := hSame.tos rfl
  rw [hBack, hTos] at hZero
  cases hZero

end RoundTrips

end Pretty5gs.Pfcp.SdfFilter
