import Mathlib
import Pretty5gs.Library.Transition
import Pretty5gs.Nas.TaiListSets

/-
  The serving identity in the list that is built.

  The identity of the entry that is written first is always sent. Where no entry can be put in
  front, the list may end before the identity.

  Main results: `serves_iff_mem_tais`, `reaches_of_first`, `not_reaches_of_full`,
  `serving_tai_sent_iff`.
-/

---- Served Identities ----

namespace Pretty5gs.Nas.TaiList

open List BitVec Bool

section Serving

variable {lists copies : Lists} {list0 : Table Partial maxNumOfPartialList} {tai : Tai}

theorem holds_iff_mem_tais {part : Partial} : part.Holds tai ↔ tai ∈ part.tais := by
  rw [Partial.tais, mem_map]
  constructor
  · rintro ⟨hPlmn, hMem⟩
    exact ⟨tai.tac, hMem, by rw [hPlmn]⟩
  · rintro ⟨tac, hMem, rfl⟩
    exact ⟨rfl, hMem⟩

/- Unless the range runs past the last code. -/
theorem covers_iff_mem_tais {range : Range} (hLast : range.tac.toNat + range.num ≤ 65536) :
    range.Covers tai ↔ tai ∈ range.tais := by
  refine ⟨serving_mem_tais_of_covers, ?_⟩
  intro hMem
  rcases mem_consecutive.mp hMem with ⟨hPlmn, i, hLess, hTac⟩
  have hNat : tai.tac.toNat = range.tac.toNat + i := by
    rw [hTac, toNat_add, toNat_ofNat]
    omega
  exact ⟨hPlmn.symm, by omega, by omega⟩

/- The search finds what is served, for ranges as they are configured: up to a last code. -/
theorem serves_iff_mem_tais
    (hRanges : ∀ range ∈ lists.list1.1, range.tac.toNat + range.num ≤ 65536) :
    lists.Serves tai ↔ tai ∈ lists.tais := by
  rw [mem_tais, Lists.Serves, mem_flatMap, mem_flatMap]
  refine or_congr ?_ (or_congr_left ?_)
  · refine exists_congr fun part => and_congr_right fun _ => ?_
    exact holds_iff_mem_tais
  · refine exists_congr fun range => and_congr_right fun hMem => ?_
    exact covers_iff_mem_tais (hRanges range hMem)

/- A first identity is one of the entry that comes first. -/
theorem mem_firstTais_of_first (hList0 : lists.list0 = some list0)
    (hFirst : servingTaiIsFirst tai list0.1 lists.list1.1 lists.list2.1 = true) :
    tai ∈ lists.firstTais := by
  rw [← partials_of_list0 hList0] at hFirst
  unfold Lists.firstTais
  cases hParts : lists.partials with
  | cons part parts =>
    rw [hParts, servingTaiIsFirst, and_eq_true, decide_eq_true_iff, decide_eq_true_iff] at hFirst
    exact holds_iff_mem_tais.mp ⟨hFirst.1, List.mem_of_mem_head? hFirst.2⟩
  | nil =>
    cases hRanges : lists.list1.1 with
    | cons range ranges =>
      rw [hParts, hRanges, servingTaiIsFirst, decide_eq_true_iff] at hFirst
      exact serving_mem_tais_of_covers hFirst
    | nil =>
      rw [hParts, hRanges] at hFirst
      cases hSingles : lists.list2.1 with
      | cons single singles =>
        rw [hSingles, servingTaiIsFirst, decide_eq_true_iff] at hFirst
        rw [hFirst]
        exact mem_cons_self
      | nil =>
        rw [hSingles] at hFirst
        cases hFirst

---- Reaching The UE ----

/- The list that is built for a UE has its identity in it. -/
def Reaches (lists : Lists) (tai : Tai) : Prop := ∃ target tais,
    ogsNasTaiListBuild lists (some tai) = .ok target ∧ decodeTaiList target.octets = some tais ∧
    tai ∈ tais

/- An identity that is sent leaves no empty list. -/
theorem build_of_copies (hCopies : prioritized lists (some tai) = .ok copies)
    (hBuilt : buildLists copies = .ok target) (hSends : Sends target.octets sent)
    (hSent : sent ≠ []) : ogsNasTaiListBuild lists (some tai) = .ok target := by
  have hOctets : target.octets ≠ [] := by
    intro hEmpty
    rw [hEmpty] at hSends
    exact hSent hSends.tais_eq_nil
  have hOk : ogsNasTaiListBuild lists (some tai) = .ok (orServing (some tai) target) := by
    rw [ogsNasTaiListBuild, hCopies]
    show (buildLists copies >>= _) = _
    rw [hBuilt]
    rfl
  rw [hOk, orServing_of_some hOctets]

/- The first entry is sent, whatever the others need. -/
theorem reaches_of_first (hCopies : prioritized lists (some tai) = .ok copies)
    (hFill : ¬ copies.RangesFill) (hFirst : tai ∈ copies.firstTais) : Reaches lists tai := by
  rcases buildLists_extends hFill with ⟨target, sent, hBuilt, hExtends, hSubset⟩
  have hSent := hSubset hFirst
  refine ⟨target, sent, ?_, decodeTaiList_of_sends hExtends.sends, hSent⟩
  exact build_of_copies hCopies hBuilt hExtends.sends (ne_nil_of_mem hSent)

/- A full `list0` without the identity stays in front. -/
theorem prioritized_of_full (hList0 : lists.list0 = some list0)
    (hFull : list0.1.length = maxNumOfPartialList) (hAbsent : ∀ part ∈ list0.1, ¬ part.Holds tai)
    (hRead : ¬ ReadsBehind lists (some tai)) : prioritized lists (some tai) = .ok lists := by
  by_cases hKeeps : keepsOrder lists (some tai) = true
  · exact prioritized_of_keepsOrder hKeeps
  · rcases prioritized_of_search hKeeps with ⟨other, other0, hOther, hOther0, _, hPrioritized⟩
    cases hOther
    rw [hList0] at hOther0
    cases hOther0
    rcases rearrange_of_search hKeeps hRead with ⟨_, copies, _, hCopies, _⟩
    rw [hPrioritized] at hCopies ⊢
    rcases Faulty.bind_eq_ok.mp hCopies with ⟨range, hFind, _⟩
    have hNone : list0.1.findFinIdx? (·.Holds tai) = none := by
      apply List.findFinIdx?_eq_none_iff.mpr
      intro part hMem hHolds
      exact hAbsent part hMem (of_decide_eq_true hHolds)
    have hSame : rearrange lists tai list0 range = lists := by
      rw [rearrange, hNone]
      exact dif_neg (by omega)
    rw [hFind]
    exact congrArg Except.ok hSame

/- So many entries do not fit. -/
theorem not_reaches_of_full (hList0 : lists.list0 = some list0)
    (hFull : list0.1.length = maxNumOfPartialList) (hAbsent : ∀ part ∈ list0.1, ¬ part.Holds tai)
    (hRead : ¬ ReadsBehind lists (some tai)) : ¬ Reaches lists tai := by
  have hCopies := prioritized_of_full hList0 hFull hAbsent hRead
  have hParts := partials_of_list0 hList0
  rcases appendPartials_extends sends_nil with ⟨sent, hExtends, hLonger, hFirst⟩
  have hTruncated : (appendPartials [] lists.partials).truncated = true := by
    by_contra hRoom
    have hLength := hExtends.sends.length
    have hMore := hLonger (eq_false_iff.mpr hRoom)
    rw [hParts, hFull] at hMore
    rw [hParts] at hLength
    unfold maxNumOfPartialList at hMore
    unfold maxTaiListLen at hLength
    omega
  have hBuilt : buildLists lists = .ok (appendPartials [] lists.partials) := if_pos hTruncated
  have hSent : sent ≠ [] := by
    have hSome : lists.partials ≠ [] := by
      intro hNone
      rw [hNone] at hTruncated
      cases hTruncated
    rcases exists_cons_of_ne_nil hSome with ⟨part, parts, hCons⟩
    have hSubset := hFirst rfl part (by rw [hCons]; rfl)
    intro hEmpty
    rw [hEmpty] at hSubset
    exact element_tais_ne_nil (.tacs part) (eq_nil_of_subset_nil hSubset)
  have hOk := build_of_copies hCopies hBuilt hExtends.sends hSent
  rintro ⟨target, tais, hTarget, hDecoded, hMem⟩
  rw [hOk] at hTarget
  cases hTarget
  rw [decodeTaiList_of_sends hExtends.sends] at hDecoded
  cases hDecoded
  rcases mem_flatMap.mp (hExtends.subset hMem) with ⟨part, hPart, hTai⟩
  rw [hParts] at hPart
  exact hAbsent part hPart (holds_iff_mem_tais.mpr hTai)

end Serving

/-
  A served identity reaches the UE iff no entry behind `list1` is read, and the identity is in
  `list0` if that is full.
-/
theorem serving_tai_sent_iff (lists : Lists) (list0 : Table Partial maxNumOfPartialList) (tai : Tai)
    (hList0 : lists.list0 = some list0) (hServed : lists.Serves tai) :
    Reaches lists tai ↔ ¬ ReadsBehind lists (some tai) ∧ (list0.1.length = maxNumOfPartialList →
        ∃ part ∈ list0.1, part.Holds tai) := by
  constructor
  · intro hReaches
    have hRead : ¬ ReadsBehind lists (some tai) := by
      intro hRead
      rcases build_of_readsBehind hRead with ⟨fault, hFault⟩
      rcases hReaches with ⟨target, tais, hOk, _⟩
      rw [hFault] at hOk
      cases hOk
    refine ⟨hRead, fun hFull => ?_⟩
    by_contra hNone
    refine not_reaches_of_full hList0 hFull ?_ hRead hReaches
    exact fun part hMem hHolds => hNone ⟨part, hMem, hHolds⟩
  · rintro ⟨hRead, hRoom⟩
    by_cases hKeeps : keepsOrder lists (some tai) = true
    · have hFirst : servingTaiIsFirst tai list0.1 lists.list1.1 lists.list2.1 = true := by
        rw [keepsOrder, hList0] at hKeeps
        exact hKeeps
      refine reaches_of_first (prioritized_of_keepsOrder hKeeps)
        ?_ (mem_firstTais_of_first hList0 hFirst)
      rintro ⟨hFull, hNone⟩
      refine hRead ⟨hFull, ?_⟩
      rwa [if_pos hKeeps]
    · rcases rearrange_of_search hKeeps hRead with
        ⟨other, copies, hOther, hCopies, hRearranged, hFill⟩
      cases hOther
      rcases hRearranged.front with ⟨_, hAbsent | ⟨hFull, hAbsent⟩⟩ | ⟨hFirst, _⟩
      · exact absurd hServed hAbsent
      · rw [partials_of_list0 hList0] at hFull hAbsent
        rcases hRoom hFull with ⟨part, hMem, hHolds⟩
        exact absurd hHolds (hAbsent part hMem)
      · exact reaches_of_first hCopies hFill hFirst

/- An entry of two codes. -/
def twoTacs : Partial where
  plmn := testPlmn
  tacs := [500, 501]
  used := by decide
  fits := by decide

/- One entry in front of a range. -/
def partialAndRange : Lists where
  list0 := some ⟨[twoTacs], by decide⟩
  list1 :=
    ⟨[{ plmn := testPlmn
        tac := 10
        num := 3
        used := by decide
        fits := by decide }], by decide⟩
  list2 := noTais

theorem serving_tai_sent_from_range : Reaches partialAndRange { plmn := testPlmn, tac := 11 } := by
  refine (serving_tai_sent_iff partialAndRange _ _ rfl ?_).mpr ⟨?_, ?_⟩
  · exact .inr (.inl ⟨_, mem_cons_self, by decide⟩)
  · rintro ⟨hFull, _⟩
    exact absurd hFull (by decide)
  · intro hFull
    exact absurd hFull (by decide)

/- As many entries as there may be, all of the same codes. -/
def fullList0 : Table Partial maxNumOfPartialList := ⟨List.replicate maxNumOfPartialList twoTacs, by
    rw [length_replicate]⟩

/- Sixteen ranges behind an empty `list0`. -/
def rangesAlone : Lists where
  list0 := some ⟨[], by decide⟩
  list1 := sixteenRanges
  list2 := noTais

/- One identity behind a full `list0`. -/
def singleBehindFull : Lists where
  list0 := some fullList0
  list1 := ⟨[], by decide⟩
  list2 := ⟨[{ plmn := testPlmn, tac := 7 }], by decide⟩

theorem serving_tai_does_not_reach : (rangesAlone.Serves { plmn := testPlmn, tac := 0 } ∧
      ¬ Reaches rangesAlone { plmn := testPlmn, tac := 0 }) ∧
    (singleBehindFull.Serves { plmn := testPlmn, tac := 7 } ∧ ¬ Reaches singleBehindFull
        { plmn := testPlmn, tac := 7 }) := by
  refine ⟨⟨?_, ?_⟩, ⟨?_, ?_⟩⟩
  · exact .inr (.inl ⟨_, mem_cons_self, by decide⟩)
  · have hRead : ReadsBehind rangesAlone (some { plmn := testPlmn, tac := 0 }) := ⟨rfl, rfl⟩
    rcases build_of_readsBehind hRead with ⟨fault, hFault⟩
    rintro ⟨target, tais, hOk, _⟩
    cases hOk
  · exact .inr (.inr mem_cons_self)
  · refine not_reaches_of_full rfl length_replicate ?_ ?_
    · intro part hMem
      rw [eq_of_mem_replicate hMem]
      decide
    · rintro ⟨hFull, _⟩
      exact absurd hFull (by decide)

end Pretty5gs.Nas.TaiList
