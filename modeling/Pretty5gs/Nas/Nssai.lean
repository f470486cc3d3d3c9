import Pretty5gs.Core.Types
import Pretty5gs.Library.Reader

/-
  The NSSAI element of 5GS: a list of S-NSSAI, each behind an octet with its length.

  The parser of the list goes on behind an element that it could not parse, and never compares the
  length of an element with that of the list.

  Main results: `value_ogsNasParseSNssai`, `readWithin_iff`, `value_parseElements`,
  `nssai_within_and_round_trip_iff`.
-/

---- S-NSSAI ----

namespace Pretty5gs.Nas.Nssai

open Reader Takes

abbrev U24 := BitVec 24

/- `OGS_S_NSSAI_NO_SD_VALUE` -/
def noSdValue : U24 := 0xffffff

/- `ogs_nas_s_nssai_ie_t`. The mapped SST is there when its presence is set. -/
structure SNssaiIe where
  sst : U8
  sd : U24
  mappedHplmnSst : Option U8
  mappedHplmnSd : U24
deriving DecidableEq

/- The octets of a 24 bit number in network order. -/
def htobe24 (v : U24) : List.Vector U8 3 := BitVec.ofNat 8 (v.toNat / 65536) ::ᵥ
    BitVec.ofNat 8 (v.toNat / 256) ::ᵥ BitVec.ofNat 8 v.toNat ::ᵥ .nil

def be24toh (octets : List.Vector U8 3) : U24 := BitVec.ofNat 24 (octets.head.toNat * 65536 +
      octets.tail.head.toNat * 256 + octets.tail.tail.head.toNat)

theorem be24toh_htobe24 : be24toh (htobe24 v) = v := by
  apply BitVec.eq_of_toNat_eq
  rw [be24toh, htobe24]
  simp only [List.Vector.head_cons, List.Vector.tail_cons, BitVec.toNat_ofNat]
  omega

/- An SD that is sent when there is one. -/
def buildSd (present : Bool) (sd : U24) : List U8 :=
  if present then (htobe24 sd).toList
  else []

/-
  Whether the SD is sent: when there is one, and as "no SD" in front of a mapped SST with a mapped
  SD.
-/
def SNssaiIe.sendsSd (ie : SNssaiIe) : Bool := ie.sd ≠ noSdValue || (ie.sd = noSdValue &&
      ie.mappedHplmnSst.isSome && ie.mappedHplmnSd ≠ noSdValue)

def SNssaiIe.sendsMappedSd (ie : SNssaiIe) : Bool := ie.mappedHplmnSd ≠ noSdValue

/- `ogs_nas_build_s_nssai`: the octets behind the length. -/
def ogsNasBuildSNssai (ie : SNssaiIe) : List U8 := ie.sst :: (buildSd ie.sendsSd ie.sd ++
      (ie.mappedHplmnSst.toList ++ buildSd ie.sendsMappedSd ie.mappedHplmnSd))

/- The fields behind the SST that an element has. -/
structure Layout where
  sd : Bool
  mappedSst : Bool
  mappedSd : Bool

/- The fields by the length of the element. -/
def layoutOf : Nat → Option Layout
  | 1 => some ⟨false, false, false⟩
  | 2 => some ⟨false, true, false⟩
  | 4 => some ⟨true, false, false⟩
  | 5 => some ⟨true, true, false⟩
  | 8 => some ⟨true, true, true⟩
  | _ => none

section Parsing

variable (memory : Nat → U8)

def parseSd (present : Bool) : Reader Unit U24 :=
  if present then do
    let octets ← octets memory 3
    return be24toh octets
  else return noSdValue

def parseMappedSst (present : Bool) : Reader Unit (Option U8) :=
  if present then do
    let sst ← octet memory
    return some sst
  else return none

def parseLayout (layout : Layout) : Reader Unit SNssaiIe := do
  let sst ← octet memory
  let sd ← parseSd memory layout.sd
  let mappedHplmnSst ← parseMappedSst memory layout.mappedSst
  let mappedHplmnSd ← parseSd memory layout.mappedSd
  return { sst, sd, mappedHplmnSst, mappedHplmnSd }

/- An element behind its length. One that no layout has is rejected, where the source returns 0. -/
def parseBody (length : Nat) : Reader Unit (SNssaiIe × Nat) :=
  match layoutOf length with
  | none => reject ()
  | some layout => do
      let ie ← parseLayout memory layout
      return (ie, length + 1)

/- `ogs_nas_parse_s_nssai`, with the length that it returns. -/
def ogsNasParseSNssai : Reader Unit (SNssaiIe × Nat) := do
  let length ← octet memory
  parseBody memory length.toNat

end Parsing

---- Lists ----

def maxNumOfSlice : Nat := 8

def maxNssaiLen : Nat := 142

/- One element behind the octets that are there. -/
def appendSNssai (octets : List U8) (ie : SNssaiIe) : Except Fault (List U8) :=
  if octets.length < maxNssaiLen then
    let buffer := ogsNasBuildSNssai ie
    let all := octets ++ BitVec.ofNat 8 buffer.length :: buffer
    if maxNssaiLen < all.length then .error (.outOfBounds maxNssaiLen)
    else .ok all
  else .ok octets

/- `ogs_nas_build_nssai` on an element of length 0. -/
def ogsNasBuildNssai (ies : List SNssaiIe) : Except Fault (List U8) :=
  if ies.length = 0 then .error .assertion
  else ies.foldlM appendSNssai []

/- The entry that is left by an element that is not parsed. -/
def clearedIe : SNssaiIe where
  sst := 0
  sd := noSdValue
  mappedHplmnSst := none
  mappedHplmnSd := noSdValue

/- Entry and length of an element, as the list loop takes them. -/
def entryOf : Except Unit ((SNssaiIe × Nat) × Nat) → SNssaiIe × Nat
  | .error _ => (clearedIe, 0)
  | .ok (entry, _) => entry

/- The loop over the elements, with `left` entries to fill. -/
def parseElements (memory : Nat → U8) (length : Nat) : (left pos : Nat) → Traced Nat (List SNssaiIe)
  | 0, _ => return []
  | left + 1, pos =>
      if pos < length then do
        let result ← (ogsNasParseSNssai memory).run pos
        let entry := entryOf result
        let rest ←
          parseElements memory length left (pos + entry.2)
        return entry.1 :: rest
      else return []

/- `ogs_nas_parse_nssai`: the entries that are counted. -/
def ogsNasParseNssai (memory : Nat → U8) (length : U8) : Traced Nat (List SNssaiIe) :=
  if length = 0 then return []
  else parseElements memory length.toNat maxNumOfSlice 0

---- Reads ----

variable {memory : Nat → U8}

def Layout.size (layout : Layout) : Nat := 1 + ((if layout.sd then 3 else 0) +
    ((if layout.mappedSst then 1 else 0) + (if layout.mappedSd then 3 else 0)))

theorem size_of_layoutOf (hLayout : layoutOf length = some layout) : layout.size = length := by
  unfold layoutOf at hLayout
  split at hLayout <;> cases hLayout <;> rfl

theorem takes_parseSd : Takes (parseSd memory present) (if present then 3 else 0) := ite
    (bind octets fun _ => pure) pure

theorem takes_parseMappedSst :
    Takes (parseMappedSst memory present) (if present then 1 else 0) := ite
    (bind octet fun _ => pure) pure

theorem takes_parseLayout : Takes (parseLayout memory layout) layout.size := bind octet fun _ =>
    bind takes_parseSd fun _ => bind takes_parseMappedSst fun _ => bind takes_parseSd fun _ => pure

theorem parseBody_of_layout
    (hLayout : layoutOf length = some layout) : parseBody memory length = (do
        let ie ← parseLayout memory layout
        return (ie, length + 1)) := by
  rw [parseBody, hLayout]

theorem value_of_no_layout (hLayout : layoutOf (memory pos).toNat = none) :
    ((ogsNasParseSNssai memory).run pos).value = .error () := by
  rw [ogsNasParseSNssai, value_bind_of_ok value_octet, parseBody, hLayout, value_reject]

/- An element of a known length is parsed whatever it holds. -/
theorem value_of_layout (hLayout : layoutOf (memory pos).toNat = some layout) :
    ∃ ie next, ((ogsNasParseSNssai memory).run pos).value =
        .ok ((ie, (memory pos).toNat + 1), next) := by
  rcases (takes_parseLayout (pos + 1)).1 with ⟨ie, hIe⟩
  refine ⟨ie, pos + 1 + layout.size, ?_⟩
  rw [ogsNasParseSNssai, value_bind_of_ok value_octet,
    parseBody_of_layout hLayout, value_bind_of_ok hIe, value_pure]

theorem within_of_layout (hLayout : layoutOf (memory pos).toNat = some layout)
    (hLimit : pos + 1 + (memory pos).toNat ≤ limit) :
    ((ogsNasParseSNssai memory).run pos).Within (· < limit) := by
  refine within_bind.mpr ⟨within_octet.mpr (by omega), ?_⟩
  intro length next hLength
  rw [value_octet] at hLength
  cases hLength
  rw [parseBody_of_layout hLayout]
  refine within_bind.mpr ⟨(takes_parseLayout (pos + 1)).2 limit ?_, fun _ _ _ => within_pure⟩
  rw [size_of_layoutOf hLayout]
  exact hLimit

/- Each entry was parsed from an element within the list. -/
def EncodedWithin (memory : Nat → U8) (length : Nat) : Nat → List SNssaiIe → Prop
  | _, [] => True
  | pos, ie :: rest =>
      ∃ size next, ((ogsNasParseSNssai memory).run pos).value = .ok ((ie, size), next) ∧
        pos + size ≤ length ∧ EncodedWithin memory length (pos + size) rest

/-
  Only octets of the list are read, and every entry that is counted was parsed from an element
  within them.
-/
def ReadWithin (memory : Nat → U8) (length : U8) : Prop :=
  (ogsNasParseNssai memory length).Within (· < length.toNat) ∧ EncodedWithin memory length.toNat 0
      (ogsNasParseNssai memory length).value

/- The first elements, as many as there are entries, have a known length and end within the list. -/
def ElementsFit (memory : Nat → U8) (length : Nat) : (left pos : Nat) → Prop
  | 0, _ => True
  | left + 1, pos =>
      pos < length → (layoutOf (memory pos).toNat).isSome ∧ pos + 1 + (memory pos).toNat ≤ length ∧
        ElementsFit memory length left (pos + 1 + (memory pos).toNat)

theorem parseElements_of_end (hEnd : ¬ pos < length) :
    parseElements memory length left pos = pure [] := by
  cases left with
  | zero => rfl
  | succ left => rw [parseElements, if_neg hEnd]

/- The loop at an element, by what the element is parsed to. -/
theorem value_parseElements_succ (hElement : pos < length) :
    (parseElements memory length (left + 1) pos).value =
      (entryOf ((ogsNasParseSNssai memory).run pos).value).1 :: (parseElements memory length left
          (pos + (entryOf ((ogsNasParseSNssai memory).run pos).value).2)).value := by
  rw [parseElements, if_pos hElement]
  rfl

theorem within_parseElements_succ (hElement : pos < length) :
    (parseElements memory length (left + 1) pos).Within P ↔
      ((ogsNasParseSNssai memory).run pos).Within P ∧ (parseElements memory length left
          (pos + (entryOf ((ogsNasParseSNssai memory).run pos).value).2)).Within P := by
  rw [parseElements, if_pos hElement, Traced.within_bind, Traced.within_bind]
  refine and_congr_right' (and_iff_left ?_)
  exact Traced.within_pure

theorem parseElements_within_iff :
    ((parseElements memory length left pos).Within (· < length) ∧ EncodedWithin memory length pos
        (parseElements memory length left pos).value) ↔ ElementsFit memory length left pos := by
  induction left generalizing pos with
  | zero => exact ⟨fun _ => trivial, fun _ => ⟨Traced.within_pure, trivial⟩⟩
  | succ left ih =>
    by_cases hElement : pos < length
    · rw [within_parseElements_succ hElement, value_parseElements_succ hElement]
      cases hLayout : layoutOf (memory pos).toNat with
      | none =>
        -- the cleared entry is counted though nothing was parsed
        constructor
        · rintro ⟨_, size, next, hValue, _⟩
          rw [value_of_no_layout hLayout] at hValue
          cases hValue
        · intro hFit
          have hSome := (hFit hElement).1
          rw [hLayout] at hSome
          cases hSome
      | some layout =>
        rcases value_of_layout hLayout with ⟨ie, next, hValue⟩
        rw [hValue, entryOf, Nat.add_comm _ 1, ← Nat.add_assoc]
        constructor
        · rintro ⟨⟨_, hRest⟩, size, _, hSame, hSize, hLater⟩ _
          rw [hValue] at hSame
          cases hSame
          rw [Nat.add_comm _ 1, ← Nat.add_assoc] at hSize hLater
          refine ⟨by rw [hLayout]; rfl, hSize, ?_⟩
          exact (ih).mp ⟨hRest, hLater⟩
        · intro hFit
          rcases hFit hElement with ⟨_, hSize, hLater⟩
          rcases (ih).mpr hLater with ⟨hRest, hEncoded⟩
          refine ⟨⟨within_of_layout hLayout hSize, hRest⟩, _, next, hValue, ?_⟩
          rw [Nat.add_comm _ 1, ← Nat.add_assoc]
          exact ⟨hSize, hEncoded⟩
    · rw [parseElements_of_end hElement]
      exact ⟨fun _ hBelow => absurd hBelow hElement, fun _ => ⟨Traced.within_pure, trivial⟩⟩

theorem readWithin_iff :
    ReadWithin memory length ↔ ElementsFit memory length.toNat maxNumOfSlice 0 := by
  rw [← parseElements_within_iff, ReadWithin]
  by_cases hZero : length = 0
  · have hEnd : ¬ 0 < length.toNat := by
      rw [hZero]
      decide
    rw [ogsNasParseNssai, if_pos hZero, parseElements_of_end hEnd]
  · rw [ogsNasParseNssai, if_neg hZero]

---- Round Trip ----

/- A mapped SD goes with a mapped SST. -/
def SNssaiIe.Mapped (ie : SNssaiIe) : Prop :=
  ie.mappedHplmnSd ≠ noSdValue → ie.mappedHplmnSst.isSome

instance (ie : SNssaiIe) : Decidable ie.Mapped := inferInstanceAs (Decidable (_ → _))

/- The layout that the builder writes. -/
def SNssaiIe.layout (ie : SNssaiIe) : Layout where
  sd := ie.sendsSd
  mappedSst := ie.mappedHplmnSst.isSome
  mappedSd := ie.sendsMappedSd

theorem length_buildSd : (buildSd present sd).length = if present then 3 else 0 := by
  unfold buildSd
  split
  · exact (htobe24 sd).toList_length
  · rfl

theorem length_ogsNasBuildSNssai : (ogsNasBuildSNssai ie).length = ie.layout.size := by
  have hMapped : ie.mappedHplmnSst.toList.length =
    if ie.mappedHplmnSst.isSome then 1 else 0 := by
    cases ie.mappedHplmnSst <;> rfl
  rw [ogsNasBuildSNssai, List.length_cons, List.length_append,
    List.length_append, length_buildSd, length_buildSd, hMapped, Nat.add_comm]
  rfl

/- The builder writes no layout that is unknown. -/
theorem layoutOf_size {ie : SNssaiIe} (hMapped : ie.Mapped) :
    layoutOf ie.layout.size = some ie.layout := by
  have hSends : ie.sendsMappedSd = true → ie.mappedHplmnSst.isSome = true ∧ ie.sendsSd = true := by
    intro hSd
    have hNe := of_decide_eq_true hSd
    have hSome := hMapped hNe
    refine ⟨hSome, ?_⟩
    by_cases hOwn : ie.sd = noSdValue
    · simp [SNssaiIe.sendsSd, hOwn, hSome, hNe]
    · simp [SNssaiIe.sendsSd, hOwn]
  unfold SNssaiIe.layout
  revert hSends
  generalize ie.sendsSd = sd
  generalize ie.mappedHplmnSst.isSome = mappedSst
  generalize ie.sendsMappedSd = mappedSd
  intro hSends
  cases mappedSd with
  | false => cases sd <;> cases mappedSst <;> rfl
  | true =>
    rcases hSends rfl with ⟨rfl, rfl⟩
    rfl

theorem value_parseSd (hAbsent : present = false → sd = noSdValue)
    (hStored : Stored memory pos (buildSd present sd)) :
    ((parseSd memory present).run pos).value = .ok (sd, pos + (buildSd present sd).length) := by
  cases present with
  | false =>
    rw [hAbsent rfl]
    rfl
  | true =>
    rw [parseSd, if_pos rfl, value_bind_of_ok (value_octets hStored), be24toh_htobe24]
    rfl

theorem value_parseMappedSst (hStored : Stored memory pos sst.toList) :
    ((parseMappedSst memory sst.isSome).run pos).value = .ok (sst, pos + sst.toList.length) := by
  cases sst with
  | none => rfl
  | some octet =>
    rw [Option.isSome_some, parseMappedSst, if_pos rfl, value_bind_of_ok value_octet, hStored.1]
    rfl

theorem value_parseLayout (hStored : Stored memory pos (ogsNasBuildSNssai ie)) :
    ((parseLayout memory ie.layout).run pos).value =
      .ok (ie, pos + (ogsNasBuildSNssai ie).length) := by
  rcases hStored with ⟨hSst, hFields⟩
  rw [stored_append, stored_append] at hFields
  rcases hFields with ⟨hSd, hMappedSst, hMappedSd⟩
  have hNoSd : ie.sendsSd = false → ie.sd = noSdValue := by
    intro hAbsent
    by_contra hSome
    simp [SNssaiIe.sendsSd, hSome] at hAbsent
  have hNoMappedSd : ie.sendsMappedSd = false → ie.mappedHplmnSd = noSdValue := by
    intro hAbsent
    by_contra hSome
    simp [SNssaiIe.sendsMappedSd, hSome] at hAbsent
  rw [parseLayout, value_bind_of_ok value_octet]
  dsimp only [SNssaiIe.layout]
  rw [value_bind_of_ok (value_parseSd hNoSd hSd),
    value_bind_of_ok (value_parseMappedSst hMappedSst),
    value_bind_of_ok (value_parseSd hNoMappedSd hMappedSd),
    value_pure, hSst, ogsNasBuildSNssai, List.length_cons, List.length_append, List.length_append]
  congr 2
  omega

/- An element: the length of the octets in front of them. -/
def element (ie : SNssaiIe) : List U8 := BitVec.ofNat 8 (ogsNasBuildSNssai ie).length ::
    ogsNasBuildSNssai ie

theorem size_le (layout : Layout) : layout.size ≤ 8 := by
  unfold Layout.size
  split_ifs <;> decide

theorem length_element_le (ie : SNssaiIe) : (element ie).length ≤ 9 := by
  have hSize := size_le ie.layout
  rw [element, List.length_cons, length_ogsNasBuildSNssai]
  omega

theorem value_ogsNasParseSNssai (hMapped : ie.Mapped) (hStored : Stored memory pos (element ie)) :
    ∃ next, ((ogsNasParseSNssai memory).run pos).value = .ok ((ie, (element ie).length), next) := by
  rcases hStored with ⟨hLength, hFields⟩
  have hSize := size_le ie.layout
  have hNat : (memory pos).toNat = ie.layout.size := by
    rw [hLength, length_ogsNasBuildSNssai, BitVec.toNat_ofNat]
    omega
  refine ⟨pos + 1 + (ogsNasBuildSNssai ie).length, ?_⟩
  rw [ogsNasParseSNssai, value_bind_of_ok value_octet, hNat,
    parseBody_of_layout (layoutOf_size hMapped),
    value_bind_of_ok (value_parseLayout hFields), value_pure,
    element, List.length_cons, length_ogsNasBuildSNssai]

theorem value_parseElements (hMapped : ∀ ie ∈ ies, ie.Mapped)
    (hStored : Stored memory pos (ies.flatMap element))
    (hLength : pos + (ies.flatMap element).length = length) (hLeft : ies.length ≤ left) :
    (parseElements memory length left pos).value = ies := by
  induction ies generalizing pos left with
  | nil =>
    have hEnd : ¬ pos < length := by simpa using hLength.ge
    rw [parseElements_of_end hEnd]
    rfl
  | cons ie ies ih =>
    rw [List.flatMap_cons, stored_append] at hStored
    rw [List.flatMap_cons, List.length_append] at hLength
    rw [List.length_cons] at hLeft
    have hPositive : 0 < (element ie).length := Nat.succ_pos _
    rcases Nat.exists_eq_add_of_le' hLeft with ⟨spare, rfl⟩
    rcases value_ogsNasParseSNssai (hMapped ie List.mem_cons_self) hStored.1 with ⟨next, hIe⟩
    have hRest := ih (fun other hOther =>
      hMapped other (List.mem_cons_of_mem _ hOther))
      hStored.2 (by omega) (Nat.le_add_left _ spare)
    rw [← Nat.add_assoc, value_parseElements_succ (show pos < length by omega), hIe, entryOf, hRest]

theorem foldlM_appendSNssai {ies : List SNssaiIe} {octets : List U8}
    (hRoom : octets.length + 9 * ies.length ≤ maxNssaiLen) :
    ies.foldlM appendSNssai octets = .ok (octets ++ ies.flatMap element) := by
  induction ies generalizing octets with
  | nil => rw [List.flatMap_nil, List.append_nil]; rfl
  | cons ie ies ih =>
    have hElement := length_element_le ie
    rw [List.length_cons] at hRoom
    have hLength : (octets ++ element ie).length ≤ maxNssaiLen := by
      rw [List.length_append]
      omega
    have hAppend : appendSNssai octets ie = .ok (octets ++ element ie) := by
      rw [appendSNssai, if_pos (by omega)]
      exact if_neg (Nat.not_lt.mpr hLength)
    rw [List.foldlM_cons, hAppend]
    show ies.foldlM appendSNssai (octets ++ element ie) = _
    rw [ih (by rw [List.length_append]; omega), List.flatMap_cons, List.append_assoc]

/- What is built is parsed to the same list. -/
def RoundTrips (ies : List SNssaiIe) : Prop := ∃ octets, ogsNasBuildNssai ies = .ok octets ∧
    (ogsNasParseNssai (fun index => octets.getD index 0) (BitVec.ofNat 8 octets.length)).value = ies

theorem ogsNasBuildNssai_ok (hSome : ies ≠ []) (hCount : ies.length ≤ maxNumOfSlice) :
    ogsNasBuildNssai ies = .ok (ies.flatMap element) := by
  have hEmpty : ies.length ≠ 0 := mt List.eq_nil_of_length_eq_zero hSome
  unfold maxNumOfSlice at hCount
  have hRoom : ([] : List U8).length + 9 * ies.length ≤ maxNssaiLen := by
    rw [List.length_nil]
    unfold maxNssaiLen
    omega
  rw [ogsNasBuildNssai, if_neg hEmpty, foldlM_appendSNssai hRoom, List.nil_append]

theorem value_ogsNasParseNssai (hSome : ies ≠ []) (hCount : ies.length ≤ maxNumOfSlice)
    (hMapped : ∀ ie ∈ ies, ie.Mapped) :
    (ogsNasParseNssai (fun index => (ies.flatMap element).getD index 0)
      (BitVec.ofNat 8 (ies.flatMap element).length)).value = ies := by
  have hElements : (ies.flatMap element).length ≤ ies.length * 9 :=
    length_flatMap_le fun ie _ => length_element_le ie
  have hPositive : 0 < (ies.flatMap element).length := by
    rcases List.exists_cons_of_ne_nil hSome with ⟨ie, others, rfl⟩
    simp [element]
  have hNat : (BitVec.ofNat 8 (ies.flatMap element).length).toNat =
    (ies.flatMap element).length := by
    unfold maxNumOfSlice at hCount
    rw [BitVec.toNat_ofNat]
    omega
  have hNonzero : BitVec.ofNat 8 (ies.flatMap element).length ≠ 0 := by
    intro hZero
    rw [hZero] at hNat
    have hValue : (0 : U8).toNat = 0 := rfl
    omega
  rw [ogsNasParseNssai, if_neg hNonzero, hNat]
  exact value_parseElements hMapped (stored_getD _ _) (Nat.zero_add _) hCount

theorem roundTrips_iff (hCount : ies.length ≤ maxNumOfSlice) (hMapped : ∀ ie ∈ ies, ie.Mapped) :
    RoundTrips ies ↔ ies ≠ [] := by
  constructor
  · rintro ⟨octets, hBuilt, _⟩ rfl
    cases hBuilt
  · intro hSome
    exact ⟨_, ogsNasBuildNssai_ok hSome hCount, value_ogsNasParseNssai hSome hCount hMapped⟩

/-
  The parser keeps to the list iff its elements do, and what the builder makes of some values comes
  back.
-/
theorem nssai_within_and_round_trip_iff (memory : Nat → U8) (length : U8) (ies : List SNssaiIe)
    (hCount : ies.length ≤ maxNumOfSlice) (hMapped : ∀ ie ∈ ies, ie.Mapped) :
    (ReadWithin memory length ↔ ElementsFit memory length.toNat maxNumOfSlice 0) ∧
    (RoundTrips ies ↔ ies ≠ []) := ⟨readWithin_iff, roundTrips_iff hCount hMapped⟩

/- A slice with an SD, and one that is mapped to another. -/
def twoSlices : List SNssaiIe :=
  [{ sst := 1
     sd := 0x010203
     mappedHplmnSst := none
     mappedHplmnSd := noSdValue },
   { sst := 2
     sd := noSdValue
     mappedHplmnSst := some 1
     mappedHplmnSd := 0x0a0b0c }]

theorem nssai_within_and_round_trip_two_slices :
    ReadWithin (fun _ => 1) 4 ∧ RoundTrips twoSlices := by
  have hBoth := nssai_within_and_round_trip_iff (fun _ => 1) 4 twoSlices (by decide) (by decide)
  refine ⟨hBoth.1.mpr ?_, hBoth.2.mpr (by decide)⟩
  intro _
  refine ⟨rfl, by decide, fun _ => ⟨rfl, by decide, ?_⟩⟩
  exact fun hBelow => absurd hBelow (by decide)

/-
  An element of length 3 is counted eight times, and one of length 8 is read behind a list that is
  too short for it.
-/
theorem nssai_counts_what_it_cannot_parse :
    (ogsNasParseNssai (fun _ => 3) 4).value = List.replicate 8 clearedIe ∧
      ¬ ReadWithin (fun _ => 3) 4 ∧ ¬ (ogsNasParseNssai (fun _ => 8) 1).Within (· < 1) := by
  refine ⟨by decide +kernel, ?_, by decide +kernel⟩
  rintro ⟨_, size, next, hValue, _⟩
  cases hValue

end Pretty5gs.Nas.Nssai
