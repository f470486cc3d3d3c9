import Mathlib.Data.List.GetD
import Pretty5gs.Nas.TaiListOctets

/-
  The identities that a UE decodes are those that are served.

  Moving the serving identity to the front keeps the set of identities.

  Main results: `rearrange_rearranged`, `tai_list_sound_iff`.
-/

---- Searching ----

namespace Pretty5gs.Nas.TaiList

open List

/- The first range that covers the identity, or the end. -/
theorem findRange_cases (serving : Tai) (ranges : List Range) (index : Nat) : (∃ offset range,
      findRange serving index ranges = .ok (some (index + offset)) ∧ ranges[offset]? = some range ∧
      range.Covers serving) ∨ ((∀ range ∈ ranges, ¬ range.Covers serving) ∧
      findRange serving index ranges =
        if index + ranges.length < maxNumOfTai then .ok none
        else .error (.outOfBounds ((index + ranges.length : Nat) : Int))) := by
  induction ranges generalizing index with
  | nil => exact .inr ⟨fun _ hMem => absurd hMem not_mem_nil, rfl⟩
  | cons range ranges ih =>
    rw [findRange]
    by_cases hCovers : range.Covers serving
    · exact .inl ⟨0, range, if_pos hCovers, rfl, hCovers⟩
    rw [if_neg hCovers]
    rcases ih (index + 1) with ⟨offset, found, hFind, hEntry, hFound⟩ | ⟨hNone, hFind⟩
    · refine .inl ⟨offset + 1, found, ?_, hEntry, hFound⟩
      rw [hFind, Nat.add_assoc, Nat.add_comm 1]
    · refine .inr ⟨?_, ?_⟩
      · intro other hMem
        rcases mem_cons.mp hMem with rfl | hMem
        · exact hCovers
        · exact hNone other hMem
      · rw [hFind, length_cons, Nat.add_assoc, Nat.add_comm 1]

variable {index : Nat} {serving : Tai}

theorem findRange_some {list1 : Table Range maxNumOfTai}
    (hFind : findRange serving 0 list1.1 = .ok (some index)) :
    ∃ range, list1.1[index]? = some range ∧ range.Covers serving := by
  rcases findRange_cases serving list1.1 0 with ⟨offset, range, hFound, hEntry, hCovers⟩ | ⟨_, hEnd⟩
  · rw [hFound, Nat.zero_add] at hFind
    cases hFind
    exact ⟨range, hEntry, hCovers⟩
  · rw [hFind] at hEnd
    split at hEnd <;> cases hEnd

/- The search fails on a full list without the identity. -/
theorem findRange_error_iff {serving : Tai} {list1 : Table Range maxNumOfTai} :
    (∃ fault, findRange serving 0 list1.1 = .error fault) ↔ list1.1.length = maxNumOfTai ∧
        ∀ range ∈ list1.1, ¬ range.Covers serving := by
  rcases findRange_cases serving list1.1 0 with
    ⟨offset, range, hFind, hEntry, hCovers⟩ | ⟨hNone, hFind⟩
  · constructor
    · rintro ⟨fault, hError⟩
      rw [hFind] at hError
      cases hError
    · rintro ⟨_, hAbsent⟩
      exact absurd hCovers (hAbsent range (mem_of_getElem? hEntry))
  · rw [hFind]
    constructor
    · rintro ⟨fault, hError⟩
      split at hError
      · cases hError
      · next hFull => exact ⟨by omega, hNone⟩
    · rintro ⟨hFull, _⟩
      rw [if_neg (by omega)]
      exact ⟨_, rfl⟩

---- Identities Of Rearranged Lists ----

theorem swapFirst_perm (hIndex : index < tacs.length) : (swapFirst tacs index).Perm tacs := by
  unfold swapFirst
  split
  · exact List.Perm.refl _
  · have hZero : 0 < tacs.length := by omega
    rw [getD_eq_getElem _ _ hIndex, getD_eq_getElem _ _ hZero]
    exact set_set_perm hZero hIndex

variable {tac : U16}

theorem tais_servingFirst_perm {part : Partial} (hHolds : part.Holds serving) :
    (part.servingFirst serving).tais.Perm part.tais :=
  (swapFirst_perm (idxOf_lt_length_iff.mpr hHolds.2)).map _

theorem mem_tais_servingFirst {part : Partial} (hHolds : part.Holds serving) :
    serving ∈ (part.servingFirst serving).tais := by
  rw [(tais_servingFirst_perm hHolds).mem_iff, Partial.tais, mem_map]
  refine ⟨serving.tac, hHolds.2, ?_⟩
  rw [hHolds.1]

/- An entry in front of the others, in place of itself. -/
theorem mem_flatMap_eraseIdx {α : Type} {entries : List α} {entry : α}
    (hEntry : entries[index]? = some entry) {tais : α → List Tai} {tai : Tai} :
    tai ∈ entries.flatMap tais ↔ tai ∈ tais entry ∨
        tai ∈ (entries.eraseIdx index).flatMap tais := by
  rcases List.getElem?_eq_some_iff.mp hEntry with ⟨hIndex, rfl⟩
  have hPerm := getElem_cons_eraseIdx_perm hIndex
  rw [(hPerm.symm.flatMap_right tais).mem_iff, flatMap_cons, mem_append]

theorem mem_moveToFront {list0 : Table Partial maxNumOfPartialList} {index : Fin list0.1.length}
    (hHolds : (list0.1.get index).Holds serving) {tai : Tai} :
    tai ∈ (moveToFront serving list0 index).1.flatMap Partial.tais ↔
      tai ∈ list0.1.flatMap Partial.tais := by
  have hEntry : list0.1[index.1]? = some (list0.1.get index) := List.getElem?_eq_getElem index.isLt
  rw [mem_flatMap_eraseIdx hEntry, moveToFront, flatMap_cons, mem_append,
    (tais_servingFirst_perm hHolds).mem_iff]

variable {plmn : Plmn}

theorem mem_consecutive :
    tai ∈ consecutive plmn tac num ↔ tai.plmn = plmn ∧
        ∃ i < num, tai.tac = tac + BitVec.ofNat 16 i := by
  unfold consecutive
  rw [mem_map]
  constructor
  · rintro ⟨i, hMem, rfl⟩
    exact ⟨rfl, i, mem_range.mp hMem, rfl⟩
  · rintro ⟨rfl, i, hLess, hTac⟩
    refine ⟨i, mem_range.mpr hLess, ?_⟩
    rw [← hTac]

variable {range : Range}

theorem serving_mem_tais_of_covers (hCovers : range.Covers serving) : serving ∈ range.tais := by
  rcases hCovers with ⟨hPlmn, hLow, hHigh⟩
  refine mem_consecutive.mpr ⟨hPlmn.symm, serving.tac.toNat - range.tac.toNat, by omega, ?_⟩
  apply BitVec.eq_of_toNat_eq
  rw [BitVec.toNat_add, BitVec.toNat_ofNat]
  omega

/- A range is its first code and the range behind it. -/
theorem mem_consecutive_first (hNum : 0 < num) {tai : Tai} :
    tai ∈ consecutive plmn tac num ↔ tai = { plmn, tac } ∨
        tai ∈ consecutive plmn (tac + 1) (num - 1) := by
  rcases Nat.exists_eq_succ_of_ne_zero (Nat.ne_of_gt hNum) with ⟨rest, rfl⟩
  have hNext : ∀ i : Nat, tac + BitVec.ofNat 16 (i + 1) = tac + 1 + BitVec.ofNat 16 i := by
    intro i
    rw [Nat.add_comm i 1, BitVec.ofNat_add, ← BitVec.add_assoc]
    rfl
  unfold consecutive
  rw [range_succ_eq_map, map_cons, map_map, mem_cons, BitVec.add_zero]
  simp only [Function.comp_def, Nat.succ_eq_add_one, hNext, Nat.add_sub_cancel]

/- A range is its last code and the range before it. -/
theorem mem_consecutive_last (hNum : 0 < num) {tai : Tai} :
    tai ∈ consecutive plmn tac num ↔ tai = { plmn, tac := tac + BitVec.ofNat 16 (num - 1) } ∨
        tai ∈ consecutive plmn tac (num - 1) := by
  rcases Nat.exists_eq_succ_of_ne_zero (Nat.ne_of_gt hNum) with ⟨rest, rfl⟩
  unfold consecutive
  rw [range_succ, map_append, mem_append, map_singleton, mem_singleton, Or.comm]
  rfl

/- Nothing but the serving identity may leave a range. -/
theorem mem_tais_without (hCovers : range.Covers serving) {tai : Tai} :
    tai ∈ range.tais ↔ tai = serving ∨ ∃ rest ∈ range.without serving, tai ∈ rest.tais := by
  have hServing := serving_mem_tais_of_covers hCovers
  rcases hCovers with ⟨hPlmn, hLow, hHigh⟩
  have hUsed := range.used
  unfold Range.without
  by_cases hOne : range.num = 1
  · rw [dif_pos hOne]
    unfold Range.tais at hServing ⊢
    rw [hOne] at hServing ⊢
    rw [consecutive, range_one, map_singleton, mem_singleton] at hServing ⊢
    rw [← hServing]
    simp
  rw [dif_neg hOne]
  by_cases hStart : serving.tac = range.tac
  · have hFirst : serving = ⟨range.plmn, range.tac⟩ := by
      rw [hPlmn, ← hStart]
    rw [if_pos hStart, Range.tais, mem_consecutive_first hUsed, ← hFirst]
    simp [Range.tais]
  rw [if_neg hStart]
  by_cases hEnd : serving.tac.toNat = range.tac.toNat + range.num - 1
  · have hLast : serving = ⟨range.plmn, range.tac + BitVec.ofNat 16 (range.num - 1)⟩ := by
      have hTac : range.tac + BitVec.ofNat 16 (range.num - 1) = serving.tac := by
        apply BitVec.eq_of_toNat_eq
        rw [BitVec.toNat_add, BitVec.toNat_ofNat]
        omega
      rw [hTac, hPlmn]
    rw [if_pos hEnd, Range.tais, mem_consecutive_last hUsed, ← hLast]
    simp [Range.tais]
  · rw [if_neg hEnd]
    constructor
    · exact fun hMem => .inr ⟨range, rfl, hMem⟩
    · rintro (rfl | ⟨rest, hRest, hMem⟩)
      · exact hServing
      · cases hRest
        exact hMem

theorem mem_removeFromRange (hEntry : list1.1[index]? = some range) (hCovers : range.Covers serving)
    {tai : Tai} :
    tai ∈ list1.1.flatMap Range.tais ↔ tai = serving ∨
        tai ∈ (removeFromRange serving list1 index).1.flatMap Range.tais := by
  have hIndex := (List.getElem?_eq_some_iff.mp hEntry).1
  rw [mem_flatMap_eraseIdx hEntry, mem_tais_without hCovers]
  unfold removeFromRange
  rw [hEntry]
  dsimp only
  cases hRest : range.without serving with
  | none => simp
  | some rest =>
    have hPerm := set_perm_cons_eraseIdx hIndex rest
    rw [(hPerm.flatMap_right Range.tais).mem_iff, flatMap_cons]
    simp [or_assoc]

theorem mem_removeSingle (hEntry : list2.1[index]? = some serving) {tai : Tai} :
    tai ∈ list2.1 ↔ tai = serving ∨ tai ∈ (removeSingle list2 index).1 := by
  rcases List.getElem?_eq_some_iff.mp hEntry with ⟨hIndex, hServing⟩
  have hPerm := getElem_cons_eraseIdx_perm hIndex
  rw [hPerm.symm.mem_iff, mem_cons, hServing]
  rfl

theorem mem_tais_servingPartial {serving tai : Tai} :
    tai ∈ (servingPartial serving).tais ↔ tai = serving := by
  exact mem_singleton

---- Rearranging ----

/- The identity is in one of the lists, as they are searched. -/
def Lists.Serves (lists : Lists) (serving : Tai) : Prop :=
  (∃ part ∈ lists.partials, part.Holds serving) ∨ (∃ range ∈ lists.list1.1, range.Covers serving) ∨
    serving ∈ lists.list2.1

/-
  The lists are left as they are, for want of the identity or of room, or the identity is in front.
-/
structure Rearranged (lists : Lists) (serving : Tai) (rearranged : Lists) : Prop where
  same : ∀ tai, tai ∈ rearranged.tais ↔ tai ∈ lists.tais
  front : (rearranged = lists ∧ (¬ lists.Serves serving ∨
        lists.partials.length = maxNumOfPartialList ∧
          ∀ part ∈ lists.partials, ¬ part.Holds serving)) ∨
    (serving ∈ rearranged.firstTais ∧ rearranged.partials ≠ [])

section Rearranging

variable {lists : Lists} {serving : Tai} {list0 : Table Partial maxNumOfPartialList}

theorem mem_tais :
    tai ∈ lists.tais ↔ tai ∈ lists.partials.flatMap Partial.tais ∨
        tai ∈ lists.list1.1.flatMap Range.tais ∨ tai ∈ lists.list2.1 := by
  rw [Lists.tais, mem_append, mem_append]

theorem partials_of_list0 (hList0 : lists.list0 = some list0) : lists.partials = list0.1 := by
  rw [Lists.partials, hList0]

theorem moveToFront_rearranged (hList0 : lists.list0 = some list0) {index : Fin list0.1.length}
    (hHolds : (list0.1.get index).Holds serving) : Rearranged lists serving
      { lists with list0 := some (moveToFront serving list0 index) } where
  same tai := by
    rw [mem_tais, mem_tais, partials_of_list0 hList0]
    exact or_congr_left (mem_moveToFront hHolds)
  front := .inr ⟨mem_tais_servingFirst hHolds, cons_ne_nil _ _⟩

/- A new entry in front, for an identity that leaves a list. -/
theorem insertServing_rearranged
    (hList0 : lists.list0 = some list0) (hRoom : list0.1.length < maxNumOfPartialList)
    (hLists : ∀ tai, (tai ∈ lists.list1.1.flatMap Range.tais ∨ tai ∈ lists.list2.1) ↔
        tai = serving ∨ (tai ∈ list1.1.flatMap Range.tais ∨ tai ∈ list2.1)) :
    Rearranged lists serving
      { list0 := some (insertServing serving list0 hRoom)
        list1 := list1
        list2 := list2 } where
  same tai := by
    rw [mem_tais, mem_tais, partials_of_list0 hList0, hLists]
    show tai ∈ (servingPartial serving :: list0.1).flatMap Partial.tais ∨ _ ↔ _
    rw [flatMap_cons, mem_append, mem_tais_servingPartial, or_assoc, or_left_comm]
  front := .inr ⟨mem_tais_servingPartial.mpr rfl, cons_ne_nil _ _⟩

theorem insertFound_rearranged (hList0 : lists.list0 = some list0)
    (hRoom : list0.1.length < maxNumOfPartialList)
    (hAbsent : ∀ part ∈ list0.1, ¬ part.Holds serving) {range : Option Nat}
    (hRange : findRange serving 0 lists.list1.1 = .ok range) :
    Rearranged lists serving (insertFound lists serving list0 hRoom range
        (lists.list2.1.findIdx? (· = serving))) := by
  cases range with
  | some index =>
    rcases findRange_some hRange with ⟨entry, hEntry, hCovers⟩
    refine insertServing_rearranged hList0 hRoom fun tai => ?_
    rw [mem_removeFromRange hEntry hCovers, or_assoc]
  | none =>
    cases hFind : lists.list2.1.findIdx? (· = serving) with
    | some index =>
      have hEntry : lists.list2.1[index]? = some serving := by
        rcases List.findIdx?_eq_some_iff_getElem.mp hFind with ⟨hIndex, hEq, _⟩
        rw [List.getElem?_eq_getElem hIndex, of_decide_eq_true hEq]
      refine insertServing_rearranged hList0 hRoom fun tai => ?_
      rw [mem_removeSingle hEntry, or_left_comm]
    | none =>
      refine ⟨fun _ => Iff.rfl, .inl ⟨rfl, .inl ?_⟩⟩
      rintro (⟨part, hMem, hHolds⟩ | ⟨entry, hMem, hCovers⟩ | hMem)
      · rw [partials_of_list0 hList0] at hMem
        exact hAbsent part hMem hHolds
      · rcases findRange_cases serving lists.list1.1 0 with ⟨_, _, hFound, _⟩ | ⟨hNone, _⟩
        · rw [hRange] at hFound
          cases hFound
        · exact hNone entry hMem hCovers
      · have hNone := List.findIdx?_eq_none_iff.mp hFind
        exact of_decide_eq_false (hNone serving hMem) rfl

theorem rearrange_rearranged (hList0 : lists.list0 = some list0) {range : Option Nat}
    (hRange : findRange serving 0 lists.list1.1 = .ok range) :
    Rearranged lists serving (rearrange lists serving list0 range) := by
  unfold rearrange
  cases hFind : list0.1.findFinIdx? (·.Holds serving) with
  | some index =>
    have hHolds := (List.findFinIdx?_eq_some_iff.mp hFind).1
    exact moveToFront_rearranged hList0 (of_decide_eq_true hHolds)
  | none =>
    have hAbsent : ∀ part ∈ list0.1, ¬ part.Holds serving := by
      intro part hMem hHolds
      exact List.findFinIdx?_eq_none_iff.mp hFind part hMem (decide_eq_true hHolds)
    dsimp only
    split
    · next hRoom => exact insertFound_rearranged hList0 hRoom hAbsent hRange
    · next hFull =>
      refine ⟨fun _ => Iff.rfl, .inl ⟨rfl, .inr ?_⟩⟩
      rw [partials_of_list0 hList0]
      exact ⟨by omega, hAbsent⟩

end Rearranging

---- Soundness And Completeness ----

/- The lists are built as they are, without a search. -/
def keepsOrder (lists : Lists) : Option Tai → Bool
  | none => true
  | some serving =>
      match lists.list0 with
      | none => true
      | some list0 => servingTaiIsFirst serving list0.1 lists.list1.1 lists.list2.1

variable (lists : Lists) (serving : Option Tai)

/-
  The entry behind a full `list1` is read: by the search, if no range covers the serving identity,
  or by the builder, if all entries fit.
-/
def ReadsBehind : Prop :=
  lists.list1.1.length = maxNumOfTai ∧ if keepsOrder lists serving then lists.partials = []
    else ∀ tai ∈ serving, ∀ range ∈ lists.list1.1, ¬ range.Covers tai

/- The identities to send: the serving one if none is served. -/
def expected : List Tai :=
  if lists.tais = [] then serving.toList
  else lists.tais

/-
  A list of at most 96 octets is built from the arrays. It decodes to served identities, and to all
  of them unless it is reported as truncated.
-/
def Sound : Prop := ∃ target tais,
    ogsNasTaiListBuild lists serving = .ok target ∧ target.octets.length ≤ maxTaiListLen ∧
    decodeTaiList target.octets = some tais ∧ tais ⊆ expected lists serving ∧
    (target.truncated = false → expected lists serving ⊆ tais)

section Soundness

variable {lists copies : Lists} {serving : Option Tai}

theorem prioritized_of_keepsOrder (hKeeps : keepsOrder lists serving = true) :
    prioritized lists serving = .ok lists := by
  cases serving with
  | none => rfl
  | some serving =>
    rw [keepsOrder] at hKeeps
    rw [prioritized, prioritizeServing]
    cases hList0 : lists.list0 with
    | none => rfl
    | some list0 =>
      rw [hList0] at hKeeps
      exact if_pos hKeeps

/- Otherwise the identity is searched in all lists. -/
theorem prioritized_of_search (hSearch : ¬ keepsOrder lists serving = true) : ∃ tai list0,
      serving = some tai ∧ lists.list0 = some list0 ∧ servingTaiIsFirst tai list0.1
        lists.list1.1 lists.list2.1 = false ∧ prioritized lists serving = (do
        let range ← findRange tai 0 lists.list1.1
        return rearrange lists tai list0 range) := by
  cases serving with
  | none => exact absurd rfl hSearch
  | some tai =>
    rw [keepsOrder] at hSearch
    cases hList0 : lists.list0 with
    | none =>
      rw [hList0] at hSearch
      exact absurd rfl hSearch
    | some list0 =>
      rw [hList0] at hSearch
      refine ⟨tai, list0, rfl, rfl, Bool.eq_false_iff.mpr hSearch, ?_⟩
      rw [prioritized, prioritizeServing, hList0]
      exact if_neg hSearch

/- Some range covers the identity, or `list1` is not full. -/
theorem rearrange_of_search (hSearch : ¬ keepsOrder lists serving = true)
    (hRead : ¬ ReadsBehind lists serving) :
    ∃ tai copies, serving = some tai ∧ prioritized lists serving = .ok copies ∧
      Rearranged lists tai copies ∧ ¬ copies.RangesFill := by
  rcases prioritized_of_search hSearch with ⟨tai, list0, rfl, hList0, _, hPrioritized⟩
  rw [ReadsBehind, if_neg hSearch] at hRead
  have hNoFault : ¬ ∃ fault, findRange tai 0 lists.list1.1 = .error fault := by
    rw [findRange_error_iff]
    rintro ⟨hFull, hNone⟩
    refine hRead ⟨hFull, ?_⟩
    intro other hOther
    cases hOther
    exact hNone
  cases hFind : findRange tai 0 lists.list1.1 with
  | error fault => exact absurd ⟨fault, hFind⟩ hNoFault
  | ok range =>
    have hRearranged := rearrange_rearranged hList0 hFind
    refine ⟨tai, _, rfl, ?_, hRearranged, ?_⟩
    · rw [hPrioritized, hFind]
      rfl
    · rintro ⟨hFull, hNone⟩
      rcases hRearranged.front with ⟨hSame, hAbsent | ⟨hPartials, _⟩⟩ | ⟨_, hSome⟩
      · rw [hSame] at hFull
        refine hRead ⟨hFull, ?_⟩
        intro other hOther range hMem hCovers
        cases hOther
        exact hAbsent (.inr (.inl ⟨range, hMem, hCovers⟩))
      · rw [hSame] at hNone
        rw [hNone] at hPartials
        cases hPartials
      · exact hSome hNone

theorem build_of_readsBehind (hRead : ReadsBehind lists serving) :
    ∃ fault, ogsNasTaiListBuild lists serving = .error fault := by
  rcases hRead with ⟨hFull, hRead⟩
  by_cases hKeeps : keepsOrder lists serving = true
  · rw [if_pos hKeeps] at hRead
    refine ⟨.outOfBounds maxNumOfTai, ?_⟩
    rw [ogsNasTaiListBuild, prioritized_of_keepsOrder hKeeps]
    show (buildLists lists >>= _) = _
    rw [buildLists_behind ⟨hFull, hRead⟩]
    rfl
  · rw [if_neg hKeeps] at hRead
    rcases prioritized_of_search hKeeps with ⟨tai, list0, rfl, _, _, hPrioritized⟩
    rcases findRange_error_iff.mpr ⟨hFull, hRead tai rfl⟩ with ⟨fault, hFault⟩
    refine ⟨fault, ?_⟩
    rw [ogsNasTaiListBuild, hPrioritized, hFault]
    rfl

/- The first entry to write is one of all entries. -/
theorem tais_eq_nil_of_firstTais (hFirst : lists.firstTais = []) : lists.tais = [] := by
  unfold Lists.firstTais at hFirst
  split at hFirst
  · next part parts _ => exact absurd (map_eq_nil_iff.mp hFirst) part.used
  · next range ranges _ _ =>
    have hNone := map_eq_nil_iff.mp hFirst
    have hUsed := range.used
    rw [range_eq_nil] at hNone
    omega
  · next hParts hRanges =>
    rw [Lists.tais, hParts, hRanges, hFirst]
    rfl

theorem element_tais_ne_nil (element : Element) : element.tais ≠ [] := by
  cases element with
  | tacs part => exact mt map_eq_nil_iff.mp part.used
  | range entry =>
    have hUsed := entry.used
    intro hNone
    have hRange := map_eq_nil_iff.mp hNone
    rw [range_eq_nil] at hRange
    omega
  | singles entries used fits => exact used

/- Octets that send nothing are none. -/
theorem Sends.octets_eq_nil (hSends : Sends octets []) : octets = [] := by
  rcases hSends.elements with ⟨elements, rfl, hTais⟩
  cases elements with
  | nil => rfl
  | cons element elements =>
    exact absurd (append_eq_nil_iff.mp hTais.symm).1 (element_tais_ne_nil element)

theorem sends_servingOnly {tai : Tai} : Sends (ogsNasTaiListBuildServingOnly tai) [tai] := by
  have hOne := sends_nil.append (.singles [tai] (cons_ne_nil _ _) (show 1 ≤ 16 by decide)) (by
    show 0 + (encodeTais [tai]).length ≤ _
    rw [length_encodeTais]
    exact show 0 + 6 ≤ 96 by decide)
  exact hOne

/- Where nothing is served the serving identity is sent. -/
theorem orServing_of_none (serving : Option Tai) (hOctets : target.octets = []) :
    Sends (orServing serving target).octets serving.toList := by
  cases serving with
  | none =>
    rw [orServing, hOctets]
    exact sends_nil
  | some tai =>
    rw [orServing, if_pos (by rw [hOctets]; rfl)]
    exact sends_servingOnly

theorem orServing_of_some (hOctets : target.octets ≠ []) : orServing serving target = target := by
  cases serving with
  | none => rfl
  | some tai => exact if_neg (mt eq_nil_of_length_eq_zero hOctets)

/- What is built from copies with the same identities. -/
theorem sound_of_copies (hCopies : prioritized lists serving = .ok copies)
    (hSame : ∀ tai, tai ∈ copies.tais ↔ tai ∈ lists.tais) (hFill : ¬ copies.RangesFill) :
    Sound lists serving := by
  rcases buildLists_extends hFill with ⟨target, sent, hBuilt, hExtends, hFirst⟩
  have hSends : Sends target.octets sent := hExtends.sends
  have hOk : ogsNasTaiListBuild lists serving = .ok (orServing serving target) := by
    rw [ogsNasTaiListBuild, hCopies]
    show (buildLists copies >>= _) = _
    rw [hBuilt]
    rfl
  by_cases hNone : lists.tais = []
  · have hSent : sent = [] := by
      apply eq_nil_of_subset_nil
      intro tai hMem
      rw [← hNone]
      exact (hSame tai).mp (hExtends.subset hMem)
    rw [hSent] at hSends
    have hServing := orServing_of_none serving hSends.octets_eq_nil
    refine ⟨_, serving.toList, hOk, hServing.length,
      decodeTaiList_of_sends hServing, ?_, fun _ => ?_⟩
    · rw [expected, if_pos hNone]
      exact List.Subset.refl _
    · rw [expected, if_pos hNone]
      exact List.Subset.refl _
  · have hOctets : target.octets ≠ [] := by
      intro hEmpty
      rw [hEmpty] at hSends
      rw [hSends.tais_eq_nil] at hFirst
      have hCopied := tais_eq_nil_of_firstTais (eq_nil_of_subset_nil hFirst)
      apply hNone
      apply eq_nil_iff_forall_not_mem.mpr
      intro tai hMem
      rw [← hSame, hCopied] at hMem
      exact not_mem_nil hMem
    rw [orServing_of_some hOctets] at hOk
    refine ⟨target, sent, hOk, hSends.length, decodeTaiList_of_sends hSends, ?_, ?_⟩
    · rw [expected, if_neg hNone]
      exact fun tai hMem => (hSame tai).mp (hExtends.subset hMem)
    · intro hTruncated tai hMem
      rw [expected, if_neg hNone] at hMem
      rw [hExtends.all hTruncated]
      exact (hSame tai).mpr hMem

end Soundness

/-
  The identities that are decoded are those that are served, unless an entry behind `list1` is read.
-/
theorem tai_list_sound_iff (lists : Lists) (serving : Option Tai) :
    Sound lists serving ↔ ¬ ReadsBehind lists serving := by
  constructor
  · rintro ⟨target, tais, hOk, _⟩ hRead
    rcases build_of_readsBehind hRead with ⟨fault, hFault⟩
    rw [hFault] at hOk
    cases hOk
  · intro hRead
    by_cases hKeeps : keepsOrder lists serving = true
    · refine sound_of_copies (prioritized_of_keepsOrder hKeeps) (fun _ => Iff.rfl) ?_
      rintro ⟨hFull, hNone⟩
      refine hRead ⟨hFull, ?_⟩
      rwa [if_pos hKeeps]
    · rcases rearrange_of_search hKeeps hRead with ⟨tai, copies, rfl, hCopies, hRearranged, hFill⟩
      exact sound_of_copies hCopies hRearranged.same hFill

def testPlmn : Plmn :=
  ⟨{ mcc1 := 9, mcc2 := 9, mcc3 := 9
     mnc1 := 0xf, mnc2 := 7, mnc3 := 0 }, .inl rfl⟩

/- Sixteen ranges of two codes each. -/
def sixteenRanges : Table Range maxNumOfTai := ⟨(List.range 16).map (fun i =>
      { plmn := testPlmn
        tac := BitVec.ofNat 16 (10 * i)
        num := 2
        used := by decide
        fits := by decide }), by decide⟩

def noTais : Table Tai maxNumOfTai := ⟨[], by decide⟩

/- A configuration of ranges only, as many as there may be. -/
def rangesOnly : Lists where
  list0 := none
  list1 := sixteenRanges
  list2 := noTais

theorem full_ranges_are_read_behind :
    (∃ fault, ogsNasTaiListBuild rangesOnly none = .error fault) ∧ ¬ Sound rangesOnly none := by
  have hRead : ReadsBehind rangesOnly none := ⟨rfl, rfl⟩
  rcases build_of_readsBehind hRead with ⟨fault, hFault⟩
  refine ⟨⟨fault, hFault⟩, ?_⟩
  rintro ⟨target, tais, hOk, _⟩
  cases hOk

end Pretty5gs.Nas.TaiList
