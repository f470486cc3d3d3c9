import Pretty5gs.Nas.TaiList

/-
  What the octets of the builder decode to.

  The builder writes elements one behind the other, and what it writes decodes to the identities of
  the entries it had room for. Only `list1` is read without regard to its capacity.

  Main results: `decodeTaiList_of_sends`, `buildLists_extends` and `buildLists_behind`.
-/

---- Decoding Elements ----

namespace Pretty5gs.Nas.TaiList

open List BitVec Bool Option

/- An element of the list, of one of the three types. -/
inductive Element where
  | tacs (part : Partial)
  | range (range : Range)
  | singles (tais : List Tai) (used : tais ≠ []) (fits : tais.length ≤ maxNumOfTai)

namespace Element

def encode : Element → List U8
  | .tacs part => encodeTacs part.plmn part.tacs
  | .range entry => encodeRange entry
  | .singles entries _ _ => encodeTais entries

def tais : Element → List Tai
  | .tacs part => part.tais
  | .range entry => entry.tais
  | .singles entries _ _ => entries

end Element

theorem nibbles_append :
    ∀ high low : BitVec 4, (high ++ low : U8).extractLsb' 4 4 = high ∧
        (high ++ low : U8).extractLsb' 0 4 = low := by
  decide

theorem length_nasPlmn : (nasPlmn plmn).length = 3 := by
  unfold nasPlmn
  split <;> rfl

theorem takePlmn_nasPlmn :
    takePlmn (nasPlmn plmn ++ rest) = some (plmn, rest) := by
  rcases plmn with ⟨plmn, hProper⟩
  unfold nasPlmn
  by_cases hTwo : plmn.mnc1 = 0xf
  · rw [if_pos hTwo]
    show some (plmnOf _ _ _, rest) = _
    simp only [plmnOf, nibbles_append]
    rw [dif_pos hTwo]
    simp only [← hTwo]
  · have hDigit := hProper.resolve_left hTwo
    rw [if_neg hTwo]
    show some (plmnOf _ _ _, rest) = _
    simp only [plmnOf, nibbles_append]
    rw [dif_neg hDigit]

theorem takeTac_nasTac (tac : U16) (rest : List U8) :
    takeTac (nasTac tac ++ rest) = some (tac, rest) := by
  have hTac : (tac.extractLsb' 8 8 ++ tac.extractLsb' 0 8 : U16) = tac := by
    apply eq_of_getLsbD_eq
    intro i hBound
    rw [getLsbD_append, getLsbD_extractLsb']
    by_cases hLow : i < 8
    · simp [hLow]
    · have hSum : 8 + (i - 8) = i := by omega
      have hHigh : i - 8 < 8 := by omega
      simp [hLow, hSum, hHigh]
  show some ((_ : U16), rest) = _
  rw [hTac]

theorem takeTai_encode (tai : Tai) (rest : List U8) :
    takeTai (nasPlmn tai.plmn ++ nasTac tai.tac ++ rest) = some (tai, rest) := by
  simp only [takeTai, List.append_assoc, takePlmn_nasPlmn,
    takeTac_nasTac, bind_eq_bind, bind_some, Option.pure_def]

theorem takeMany_flatMap {takeOne : List U8 → Option (α × List U8)} {encode : α → List U8}
    (hOne : ∀ item rest, takeOne (encode item ++ rest) = some (item, rest)) :
    takeMany takeOne items.length (items.flatMap encode ++ rest) = some (items, rest) := by
  induction items with
  | nil => rfl
  | cons item items ih =>
    simp only [flatMap_cons, List.append_assoc,
      length_cons, takeMany, hOne, ih, bind_eq_bind, bind_some, Option.pure_def]

/- The two fields of the octet in front of an element. -/
theorem toNat_header (hType : type < 4) (hUsed : 0 < num) (hFits : num ≤ maxNumOfTai) :
    (header type num).toNat / 32 % 4 = type ∧ min ((header type num).toNat % 32 + 1) maxNumOfTai =
        num := by
  unfold maxNumOfTai at *
  have hNat : (header type num).toNat = type * 32 + (num - 1) := by
    rw [header, toNat_ofNat]
    omega
  omega

theorem decodeElement_cons (hType : type < 4) (hUsed : 0 < num) (hFits : num ≤ maxNumOfTai) :
    decodeElement (header type num :: octets) = decodeContent type num octets := by
  rw [decodeElement, (toNat_header hType hUsed hFits).1, (toNat_header hType hUsed hFits).2]

theorem decodeElement_encode (element : Element) (rest : List U8) :
    decodeElement (element.encode ++ rest) = some (element.tais, rest) := by
  cases element with
  | tacs part =>
    rw [Element.encode, encodeTacs, List.cons_append, decodeElement_cons (by decide)
      (length_pos_of_ne_nil part.used) part.fits, decodeContent, List.append_assoc]
    simp only [takePlmn_nasPlmn, takeMany_flatMap takeTac_nasTac, bind_eq_bind,
      bind_some, Option.pure_def]
    rfl
  | range entry =>
    rw [Element.encode, encodeRange, List.cons_append,
      decodeElement_cons (by decide) entry.used entry.fits, decodeContent,
      takeTai_encode { plmn := entry.plmn, tac := entry.tac } rest]
    rfl
  | singles tais used fits =>
    rw [Element.encode, encodeTais, List.cons_append, decodeElement_cons (by decide)
      (length_pos_of_ne_nil used) fits, decodeContent,
      takeMany_flatMap (fun tai rest => takeTai_encode tai rest)]
    rfl

theorem encode_ne_nil (element : Element) : element.encode ≠ [] := by
  cases element <;> exact cons_ne_nil _ _

theorem decodeElements_append (fuel : Nat) (element : Element) (rest : List U8) :
    decodeElements (fuel + 1) (element.encode ++ rest) =
      (decodeElements fuel rest).map (element.tais ++ ·) := by
  have hDecoded := decodeElement_encode element rest
  rcases exists_cons_of_ne_nil (encode_ne_nil element) with ⟨octet, octets, hEncode⟩
  rw [hEncode, List.cons_append] at hDecoded ⊢
  rw [decodeElements, hDecoded]
  cases hRest : decodeElements fuel rest with
  | none => simp [hRest]
  | some tais => simp [hRest]

theorem decodeElements_flatMap {elements : List Element}
    (hFuel : (elements.flatMap Element.encode).length ≤ fuel) :
    decodeElements fuel (elements.flatMap Element.encode) =
      some (elements.flatMap Element.tais) := by
  induction elements generalizing fuel with
  | nil => cases fuel <;> rfl
  | cons element elements ih =>
    rw [flatMap_cons, length_append] at hFuel
    have hSome := length_pos_of_ne_nil (encode_ne_nil element)
    rw [flatMap_cons, flatMap_cons]
    cases fuel with
    | zero => omega
    | succ fuel => rw [decodeElements_append, ih (by omega), map_some]

---- What Octets Send ----

/- The octets of elements with these identities. -/
structure Sends (octets : List U8) (tais : List Tai) : Prop where
  length : octets.length ≤ maxTaiListLen
  elements : ∃ elements : List Element, octets = elements.flatMap Element.encode ∧
      tais = elements.flatMap Element.tais

theorem sends_nil : Sends [] [] where
  length := Nat.zero_le _
  elements := ⟨[], rfl, rfl⟩

variable {octets : List U8} {tais : List Tai}

theorem Sends.append (hSends : Sends octets tais) (element : Element)
    (hRoom : octets.length + element.encode.length ≤ maxTaiListLen) :
    Sends (octets ++ element.encode) (tais ++ element.tais) := by
  rcases hSends.elements with ⟨elements, hOctets, hTais⟩
  refine ⟨by rwa [length_append], elements ++ [element], ?_⟩
  simp [hOctets, hTais]

theorem decodeTaiList_of_sends (hSends : Sends octets tais) : decodeTaiList octets = some tais := by
  rcases hSends.elements with ⟨elements, rfl, rfl⟩
  exact decodeElements_flatMap (Nat.le_refl _)

/- Without octets nothing is sent. -/
theorem Sends.tais_eq_nil (hSends : Sends [] tais) : tais = [] := by
  have hDecoded := decodeTaiList_of_sends hSends
  cases hDecoded
  rfl

theorem length_encodeTacs :
    (encodeTacs plmn tacs).length = 1 + 3 + 2 * tacs.length := by
  have hTacs : (tacs.flatMap nasTac).length = 2 * tacs.length := by
    induction tacs with
    | nil => rfl
    | cons tac tacs ih =>
      rw [flatMap_cons, length_append, ih]
      simp only [nasTac, length_cons, length_nil]
      omega
  rw [encodeTacs, length_cons, length_append, length_nasPlmn]
  omega

theorem nTac_le (hNum : nTac octets tacs = some num) :
    num ≤ tacs.length ∧ octets.length + (1 + 3 + 2 * num) ≤ maxTaiListLen := by
  unfold nTac at hNum
  split at hNum
  · next hRoom =>
    cases hNum
    exact ⟨Nat.le_refl _, hRoom⟩
  · dsimp only at hNum
    split at hNum
    · cases hNum
    · cases hNum
      omega

---- Appending Entries ----

/-
  Of identities that are offered some are sent behind those that were there, and all unless the list
  is truncated.
-/
structure Extends (tais offered : List Tai) (target : Target) (sent : List Tai) : Prop where
  sends : Sends target.octets (tais ++ sent)
  subset : sent ⊆ offered
  all : target.truncated = false → sent = offered

namespace Extends

variable {tais offered others sent more : List Tai} {target next : Target}

variable {octets : List U8}

/- Nothing is added to a list that has no more room. -/
theorem full (hSends : Sends octets tais) : Extends tais offered ⟨octets, true⟩ [] where
  sends := by rwa [append_nil]
  subset := nil_subset _
  all hTruncated := by cases hTruncated

theorem none (hSends : Sends octets tais) : Extends tais [] ⟨octets, false⟩ [] where
  sends := by rwa [append_nil]
  subset := List.Subset.refl _
  all _ := rfl

theorem one (hSends : Sends octets tais) (element : Element)
    (hRoom : octets.length + element.encode.length ≤ maxTaiListLen) :
    Extends tais element.tais ⟨octets ++ element.encode, false⟩ element.tais where
  sends := hSends.append element hRoom
  subset := List.Subset.refl _
  all _ := rfl

theorem trans (hFirst : Extends tais offered target sent) (hRoom : target.truncated = false)
    (hSecond : Extends (tais ++ sent) others next more) :
    Extends tais (offered ++ others) next (sent ++ more) where
  sends := by
    rw [← List.append_assoc]
    exact hSecond.sends
  subset := append_subset.mpr ⟨subset_append_of_subset_left _ hFirst.subset,
    subset_append_of_subset_right _ hSecond.subset⟩
  all hTruncated := by rw [hFirst.all hRoom, hSecond.all hTruncated]

theorem stop (hFirst : Extends tais offered target sent) (hTruncated : target.truncated = true) :
    Extends tais (offered ++ others) target sent where
  sends := hFirst.sends
  subset := subset_append_of_subset_left _ hFirst.subset
  all hRoom := by
    rw [hTruncated] at hRoom
    cases hRoom

end Extends

/- The codes of an entry: the first ones, as far as they go. -/
theorem appendTacs_extends (hFits : tacs.length ≤ maxNumOfTai)
    (hSends : Sends octets tais) :
    ∃ sent, Extends tais (tacs.map (Tai.mk plmn)) (appendTacs plmn tacs octets) sent ∧
      ((appendTacs plmn tacs octets).truncated = false → octets.length + 2 * tacs.length ≤
          (appendTacs plmn tacs octets).octets.length) := by
  fun_induction appendTacs plmn tacs octets generalizing tais with
  | case1 octets => exact ⟨[], .none hSends, fun _ => Nat.le_refl _⟩
  | case2 tacs octets hTacs hNum =>
    refine ⟨[], .full hSends, ?_⟩
    intro hTruncated
    cases hTruncated
  | case3 tacs octets hTacs num hNum ih =>
    rcases nTac_le hNum with ⟨hLe, hRoom⟩
    have hPositive := nTac_pos hTacs hNum
    have hTaken : (tacs.take num).length = num := by
      rw [length_take]
      omega
    have hUsed : tacs.take num ≠ [] := by
      apply ne_nil_of_length_pos
      omega
    let element : Element :=
      .tacs {
        plmn
        tacs := tacs.take num
        used := hUsed
        fits := by omega }
    have hLength : element.encode.length = 1 + 3 + 2 * num := by
      rw [← hTaken]
      exact length_encodeTacs
    have hElement := Extends.one hSends element (by omega)
    rcases ih (by rw [length_drop]; omega) hElement.sends with ⟨sent, hRest, hLonger⟩
    refine ⟨element.tais ++ sent, ?_, ?_⟩
    · have hSplit : tacs.map (Tai.mk plmn) = (tacs.take num).map (Tai.mk plmn) ++
              (tacs.drop num).map (Tai.mk plmn) := by
        rw [← map_append, take_append_drop]
      rw [hSplit]
      exact hElement.trans rfl hRest
    · intro hTruncated
      have hMore := hLonger hTruncated
      rw [length_append, length_encodeTacs, length_drop] at hMore
      omega

/- In an empty list there is room for a whole entry. -/
theorem appendTacs_nil_truncated (part : Partial) :
    (appendTacs part.plmn part.tacs []).truncated = false := by
  have hFits := part.fits
  unfold maxNumOfTai at hFits
  have hNum : nTac [] part.tacs = some part.tacs.length := by
    rw [nTac, if_pos]
    unfold maxTaiListLen
    simp only [length_nil]
    omega
  rw [appendTacs, dif_neg part.used]
  split
  · next hNone =>
    rw [hNum] at hNone
    cases hNone
  · next num hSome =>
    rw [hNum] at hSome
    cases hSome
    rw [drop_length, appendTacs, dif_pos rfl]

theorem appendPartials_extends
    (hSends : Sends octets tais) :
    ∃ sent, Extends tais (parts.flatMap Partial.tais) (appendPartials octets parts) sent ∧
      ((appendPartials octets parts).truncated = false → octets.length + 2 * parts.length ≤
          (appendPartials octets parts).octets.length) ∧
      (octets = [] → ∀ part ∈ parts.head?, part.tais ⊆ sent) := by
  induction parts generalizing octets tais with
  | nil =>
    refine ⟨[], .none hSends, fun _ => Nat.le_refl _, ?_⟩
    intro _ part hHead
    cases hHead
  | cons part parts ih =>
    rcases appendTacs_extends part.fits hSends with ⟨sent, hPart, hLonger⟩
    have hUsed := length_pos_of_ne_nil part.used
    rw [appendPartials, length_cons]
    by_cases hTruncated : (appendTacs part.plmn part.tacs octets).truncated = true
    · rw [if_pos hTruncated]
      refine ⟨sent, hPart.stop hTruncated, ?_, ?_⟩
      · intro hRoom
        rw [hTruncated] at hRoom
        cases hRoom
      · rintro rfl
        rw [appendTacs_nil_truncated] at hTruncated
        cases hTruncated
    · have hRoom := eq_false_iff.mpr hTruncated
      rw [if_neg hTruncated]
      rcases ih hPart.sends with ⟨more, hParts, hMore, _⟩
      refine ⟨sent ++ more, hPart.trans hRoom hParts, ?_, ?_⟩
      · intro hLast
        have hFirst := hLonger hRoom
        have hOthers := hMore hLast
        omega
      · intro _ first hHead
        cases hHead
        rw [hPart.all hRoom]
        exact subset_append_left _ _

theorem length_encodeRange (range : Range) : (encodeRange range).length = 1 + 3 + 2 := by
  rw [encodeRange, length_cons, length_append, length_nasPlmn]
  rfl

/- The loop ends in the array or before all entries fit. -/
theorem appendRanges_extends (ranges : List Range) (index : Nat) (octets : List U8)
    (hEnd : index + ranges.length < maxNumOfTai ∨ maxTaiListLen < octets.length + 6 * ranges.length)
    (hSends : Sends octets tais) :
    ∃ target sent, appendRanges index octets ranges = .ok target ∧
      Extends tais (ranges.flatMap Range.tais) target sent ∧ (octets = [] →
        ∀ range ∈ ranges.head?, range.tais ⊆ sent) := by
  induction ranges generalizing index octets tais with
  | nil =>
    have hIndex : index < maxNumOfTai := by
      have hLength := hSends.length
      rw [length_nil] at hEnd
      omega
    refine ⟨_, [], if_pos hIndex, .none hSends, ?_⟩
    intro _ range hHead
    cases hHead
  | cons range ranges ih =>
    rw [length_cons] at hEnd
    rw [appendRanges]
    by_cases hFull : maxTaiListLen < octets.length + (1 + 3 + 2)
    · refine ⟨_, [], if_pos hFull, .full hSends, ?_⟩
      rintro rfl
      exact absurd hFull (by decide)
    · have hRoom : octets.length + (encodeRange range).length ≤ maxTaiListLen := by
        rw [length_encodeRange]
        omega
      have hRange := Extends.one hSends (.range range) hRoom
      rcases ih (index + 1) (octets ++ encodeRange range) (by
            rw [length_append, length_encodeRange]
            omega)
          hRange.sends with
        ⟨target, sent, hOk, hRest, _⟩
      refine ⟨target, range.tais ++ sent, ?_, ?_, ?_⟩
      · rw [if_neg hFull, hOk]
      · exact hRange.trans rfl hRest
      · intro _ first hHead
        cases hHead
        exact subset_append_left _ _

/- A full list that fits is read behind its last entry. -/
theorem appendRanges_behind (ranges : List Range) (index : Nat) (octets : List U8)
    (hEnd : index + ranges.length = maxNumOfTai)
    (hFits : octets.length + 6 * ranges.length ≤ maxTaiListLen) :
    appendRanges index octets ranges = .error (.outOfBounds maxNumOfTai) := by
  induction ranges generalizing index octets with
  | nil =>
    rw [length_nil, Nat.add_zero] at hEnd
    rw [appendRanges, hEnd, if_neg (Nat.lt_irrefl _)]
  | cons range ranges ih =>
    rw [length_cons] at hEnd hFits
    rw [appendRanges, if_neg (by omega)]
    apply ih
    · omega
    · rw [length_append, length_encodeRange]
      omega

theorem length_encodeTais :
    (encodeTais tais).length = 1 + (3 + 2) * tais.length := by
  have hTais : (tais.flatMap (fun tai =>
    nasPlmn tai.plmn ++ nasTac tai.tac)).length = (3 + 2) * tais.length := by
    induction tais with
    | nil => rfl
    | cons tai tais ih =>
      rw [flatMap_cons, length_append, ih, length_append, length_nasPlmn]
      simp only [nasTac, length_cons, length_nil]
      omega
  rw [encodeTais, length_cons, hTais, Nat.add_comm]

theorem appendTais_extends (hFits : entries.length ≤ maxNumOfTai) (hSends : Sends octets tais) :
    ∃ sent, Extends tais entries (appendTais octets entries) sent ∧
      (octets = [] → sent = entries) := by
  unfold appendTais
  by_cases hNone : entries.length = 0
  · have hNil := eq_nil_of_length_eq_zero hNone
    subst hNil
    exact ⟨[], .none hSends, fun _ => rfl⟩
  rw [if_neg hNone]
  by_cases hFull : maxTaiListLen < octets.length + (1 + (3 + 2) * entries.length)
  · rw [if_pos hFull]
    refine ⟨[], .full hSends, ?_⟩
    rintro rfl
    unfold maxTaiListLen at hFull
    unfold maxNumOfTai at hFits
    rw [length_nil] at hFull
    omega
  · have hUsed : entries ≠ [] := mt length_eq_zero_iff.mpr hNone
    rw [if_neg hFull]
    refine ⟨entries, ?_, fun _ => rfl⟩
    refine Extends.one hSends (.singles entries hUsed hFits) ?_
    show octets.length + (encodeTais entries).length ≤ _
    rw [length_encodeTais]
    omega

---- All Lists ----

/- The identities of the entry that is written first. -/
def Lists.firstTais (lists : Lists) : List Tai :=
  match lists.partials, lists.list1.1 with
  | part :: _, _ => part.tais
  | [], range :: _ => range.tais
  | [], [] => lists.list2.1

/- A full `list1` behind no other entry. -/
def Lists.RangesFill (lists : Lists) : Prop :=
  lists.list1.1.length = maxNumOfTai ∧ lists.partials = []

/- What is written first, of what the three lists send. -/
theorem firstTais_subset {lists : Lists} (hParts : ∀ part ∈ lists.partials.head?, part.tais ⊆ sent)
    (hRanges : lists.partials = [] → ∀ range ∈ lists.list1.1.head?, range.tais ⊆ sent)
    (hSingles : lists.partials = [] → lists.list1.1 = [] → lists.list2.1 ⊆ sent) :
    lists.firstTais ⊆ sent := by
  unfold Lists.firstTais
  split
  · next part parts hList => exact hParts part (by rw [hList]; rfl)
  · next range ranges hNone hList => exact hRanges hNone range (by rw [hList]; rfl)
  · next hNone hEmpty => exact hSingles hNone hEmpty

theorem buildLists_extends (hFill : ¬ lists.RangesFill) :
    ∃ target sent, buildLists lists = .ok target ∧ Extends [] lists.tais target sent ∧
      lists.firstTais ⊆ sent := by
  rcases appendPartials_extends sends_nil with ⟨sent, hParts, hLonger, hFirst⟩
  have hHead := hFirst rfl
  unfold buildLists
  by_cases hTruncated : (appendPartials [] lists.partials).truncated = true
  · refine ⟨_, sent, if_pos hTruncated, hParts.stop hTruncated, ?_⟩
    have hSome : lists.partials ≠ [] := by
      intro hNone
      rw [hNone] at hTruncated
      cases hTruncated
    exact firstTais_subset hHead (fun hNone => absurd hNone hSome) (fun hNone => absurd hNone hSome)
  have hRoom := eq_false_iff.mpr hTruncated
  have hEnd : 0 + lists.list1.1.length < maxNumOfTai ∨ maxTaiListLen <
    (appendPartials [] lists.partials).octets.length + 6 * lists.list1.1.length := by
    have hFits := lists.list1.2
    have hLength := hLonger hRoom
    by_cases hFull : lists.list1.1.length = maxNumOfTai
    · have hSome := length_pos_of_ne_nil (fun hNone => hFill ⟨hFull, hNone⟩)
      right
      unfold maxTaiListLen
      unfold maxNumOfTai at hFull
      omega
    · left
      omega
  rcases appendRanges_extends lists.list1.1 0 _ hEnd hParts.sends with
    ⟨second, more, hOk, hRanges, hFirstRange⟩
  have hBehind : lists.partials = [] → (appendPartials [] lists.partials).octets = [] := by
    intro hNone
    rw [hNone]
    rfl
  have hHeads : (∀ part ∈ lists.partials.head?, part.tais ⊆ sent ++ more) ∧ (lists.partials = [] →
    ∀ range ∈ lists.list1.1.head?, range.tais ⊆ sent ++ more) := by
    constructor
    · intro part hMem
      exact subset_append_of_subset_left _ (hHead part hMem)
    · intro hNone range hMem
      exact subset_append_of_subset_right _ (hFirstRange (hBehind hNone) range hMem)
  rw [if_neg hTruncated, hOk]
  by_cases hSecond : second.truncated = true
  · refine ⟨second, sent ++ more, if_pos hSecond, ?_, ?_⟩
    · rw [Lists.tais, ← List.append_assoc]
      exact (hParts.trans hRoom hRanges).stop hSecond
    · refine firstTais_subset hHeads.1 hHeads.2 ?_
      intro hNone hEmpty
      rw [hEmpty] at hOk
      cases hOk
      cases hSecond
  · have hRest := eq_false_iff.mpr hSecond
    rcases appendTais_extends lists.list2.2 hRanges.sends with ⟨last, hSingles, hAll⟩
    refine ⟨_, sent ++ more ++ last, if_neg hSecond, ?_, ?_⟩
    · rw [Lists.tais, ← List.append_assoc]
      exact (hParts.trans hRoom hRanges).trans hRest hSingles
    · refine firstTais_subset ?_ ?_ ?_
      · exact fun part hMem => subset_append_of_subset_left _ (hHeads.1 part hMem)
      · exact fun hNone range hMem => subset_append_of_subset_left _ (hHeads.2 hNone range hMem)
      · intro hNone hEmpty
        rw [hBehind hNone, hEmpty] at hOk
        cases hOk
        rw [hAll rfl]
        exact subset_append_right _ _

theorem buildLists_behind (hFill : lists.RangesFill) :
    buildLists lists = .error (.outOfBounds maxNumOfTai) := by
  rcases hFill with ⟨hFull, hNone⟩
  have hRanges := appendRanges_behind lists.list1.1 0 [] (by omega) (by
    rw [hFull]
    decide)
  have hBuild : buildLists lists = (do
    let second ← appendRanges 0 [] lists.list1.1
    if second.truncated then .ok second
    else .ok (appendTais second.octets lists.list2.1)) := by
    rw [buildLists, hNone]
    rfl
  rw [hBuild, hRanges]
  rfl

end Pretty5gs.Nas.TaiList
