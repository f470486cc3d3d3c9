import Mathlib
import Pretty5gs.Core.Types

/-
  The access control entry for an IMSI.

  The search ranks a prefix entry by the length of its prefix and every PLMN entry by five, also one
  whose PLMN has six digits, and takes the first entry of the highest rank and then the lowest
  order.

  Main results: `findForImsi_eq`, `access_control_longest_match_iff`.
-/

---- PLMN Identities ----

namespace Pretty5gs.Mme

open List Bool Option

/- `ogs_plmn_id_t`: six digits of four bits. -/
structure PlmnId where
  mcc1 : BitVec 4
  mcc2 : BitVec 4
  mcc3 : BitVec 4
  mnc1 : BitVec 4
  mnc2 : BitVec 4
  mnc3 : BitVec 4
deriving DecidableEq, Repr

namespace PlmnId

/- `ogs_plmn_id_mcc` -/
def mcc (plmn : PlmnId) : Nat := plmn.mcc1.toNat * 100 + plmn.mcc2.toNat * 10 + plmn.mcc3.toNat

/- `ogs_plmn_id_mnc` -/
def mnc (plmn : PlmnId) : Nat :=
  if plmn.mnc1 = 0xf then plmn.mnc2.toNat * 10 + plmn.mnc3.toNat
  else plmn.mnc1.toNat * 100 + plmn.mnc2.toNat * 10 + plmn.mnc3.toNat

/- `ogs_plmn_id_mnc_len` -/
def mncLen (plmn : PlmnId) : Nat := if plmn.mnc1 = 0xf then 2 else 3

end PlmnId

/- A number in at least so many digits. -/
def paddedDecimal (width value : Nat) : List Char :=
  let digits := Nat.toDigits 10 value
  List.replicate (width - digits.length) '0' ++ digits

/- `ogs_plmn_id_to_string`, into a buffer for six digits. -/
def plmnIdToString (plmn : PlmnId) : List Char :=
  (paddedDecimal 3 plmn.mcc ++ paddedDecimal plmn.mncLen plmn.mnc).take 6

/- `strncmp` over the length of the second string is zero. -/
def startsWith (string start : List Char) : Bool := start.isPrefixOf string

/- `ogs_plmn_id_imsi_prefix_match` -/
def plmnIdImsiPrefixMatch (imsi : List Char) (plmn : PlmnId) : Bool :=
  !imsi.isEmpty && startsWith imsi (plmnIdToString plmn)

theorem le_length_paddedDecimal (width value : Nat) :
    width ≤ (paddedDecimal width value).length := by
  unfold paddedDecimal
  simp only [length_append, length_replicate]
  omega

/- Whatever its digits, a PLMN has five or six of them. -/
theorem length_plmnIdToString (plmn : PlmnId) :
    (plmnIdToString plmn).length = 5 ∨ (plmnIdToString plmn).length = 6 := by
  have hMcc := le_length_paddedDecimal 3 plmn.mcc
  have hMnc := le_length_paddedDecimal plmn.mncLen plmn.mnc
  have hLen : 2 ≤ plmn.mncLen := by
    unfold PlmnId.mncLen
    split <;> omega
  unfold plmnIdToString
  rw [length_take, length_append]
  omega

---- The Search ----

/- The fields of `mme_access_control_t` that are matched. -/
structure AccessControl where
  imsiPrefix : List Char
  plmnIdConfigured : Bool
  plmnId : PlmnId
  selectionOrder : Int
deriving DecidableEq, Repr

/- The locals of `mme_access_control_find_for_imsi`. -/
structure Best where
  best : Option AccessControl
  bestPrefixLen : Int
  bestOrder : Int

/- `INT_MAX` -/
abbrev intMax : Int := 2147483647

def Best.initial : Best where
  best := none
  bestPrefixLen := -1
  bestOrder := intMax

variable (imsi : List Char) (locals : Best) (ac : AccessControl)

/- The body of the loop for an entry with a prefix. -/
def considerPrefix : Best :=
  let prefixLen := ac.imsiPrefix.length
  if !startsWith imsi ac.imsiPrefix then locals
  else if prefixLen > locals.bestPrefixLen ∨ prefixLen = locals.bestPrefixLen ∧
        ac.selectionOrder < locals.bestOrder then
    { best := some ac
      bestPrefixLen := prefixLen
      bestOrder := ac.selectionOrder }
  else locals

/- The body of the loop for an entry without one. -/
def considerPlmn : Best :=
  if ac.plmnIdConfigured && plmnIdImsiPrefixMatch imsi ac.plmnId then
    if locals.bestPrefixLen < 5 ∨ locals.bestPrefixLen = 5 ∧
          ac.selectionOrder < locals.bestOrder then
      { best := some ac
        bestPrefixLen :=
          if locals.bestPrefixLen < 5 then 5
          else locals.bestPrefixLen
        bestOrder := ac.selectionOrder }
    else locals
  else locals

def consider : Best :=
  if ac.imsiPrefix.isEmpty then considerPlmn imsi locals ac
  else considerPrefix imsi locals ac

open Best

/- `mme_access_control_find_for_imsi` -/
def findForImsi (acs : List AccessControl) (imsi : List Char) : Option AccessControl :=
  (acs.foldl (consider imsi) initial).best

---- Matching, Digits And Rank ----

namespace AccessControl

variable (ac : AccessControl)

/- The entry matches the IMSI. -/
def Matches (imsi : List Char) : Bool :=
  if ac.imsiPrefix.isEmpty then ac.plmnIdConfigured && plmnIdImsiPrefixMatch imsi ac.plmnId
  else startsWith imsi ac.imsiPrefix

/- The leading digits that a matching entry matches. -/
def digits : Nat :=
  if ac.imsiPrefix.isEmpty then (plmnIdToString ac.plmnId).length
  else ac.imsiPrefix.length

/- What the search compares. -/
def rank : Nat := if ac.imsiPrefix.isEmpty then 5 else ac.imsiPrefix.length

/- A PLMN entry whose PLMN has six digits. -/
def SixDigitPlmn : Prop := ac.imsiPrefix.isEmpty = true ∧ ac.digits = 6

/- The rank is the number of digits, but for those. -/
theorem rank_cases :
    (ac.SixDigitPlmn ∧ ac.digits = 6 ∧ ac.rank = 5) ∨
      (¬ ac.SixDigitPlmn ∧ ac.rank = ac.digits) := by
  unfold SixDigitPlmn rank
  by_cases hPrefix : ac.imsiPrefix.isEmpty = true
  · rcases length_plmnIdToString ac.plmnId with hFive | hSix
    · right
      simp [digits, hPrefix, hFive]
    · left
      simp [digits, hPrefix, hSix]
  · right
    simp [digits, hPrefix]

/- A higher rank, and then a lower order, is better. -/
def rankKey : ℕ ×ₗ ℤᵒᵈ := toLex (ac.rank, OrderDual.toDual ac.selectionOrder)

/- What a longest match asks for. -/
def digitsKey : ℕ ×ₗ ℤᵒᵈ := toLex (ac.digits, OrderDual.toDual ac.selectionOrder)

variable {ac other : AccessControl}

theorem rankKey_lt_iff :
    ac.rankKey < other.rankKey ↔ ac.rank < other.rank ∨ ac.rank = other.rank ∧
          other.selectionOrder < ac.selectionOrder := by
  unfold rankKey
  rw [Prod.Lex.toLex_lt_toLex, OrderDual.toDual_lt_toDual]

theorem rankKey_le_iff :
    ac.rankKey ≤ other.rankKey ↔ ac.rank < other.rank ∨ ac.rank = other.rank ∧
          other.selectionOrder ≤ ac.selectionOrder := by
  unfold rankKey
  rw [Prod.Lex.toLex_le_toLex, OrderDual.toDual_le_toDual]

theorem digitsKey_le_iff :
    ac.digitsKey ≤ other.digitsKey ↔ ac.digits < other.digits ∨ ac.digits = other.digits ∧
          other.selectionOrder ≤ ac.selectionOrder := by
  unfold digitsKey
  rw [Prod.Lex.toLex_le_toLex, OrderDual.toDual_le_toDual]

end AccessControl

---- The Search Is A Maximum ----

variable (best : Option AccessControl)

/- The locals when an entry is the best so far. -/
def Best.ofBest : Best :=
  best.elim initial (fun ac =>
    { best := some ac
      bestPrefixLen := ac.rank
      bestOrder := ac.selectionOrder })

@[simp] theorem Best.ofBest_best : (ofBest best).best = best := by cases best <;> rfl

/- The better one of the best so far and another entry. -/
def better (ac : AccessControl) : Option AccessControl :=
  List.argAux (fun ac best => best.rankKey < ac.rankKey) best ac

/- An entry of some rank beats the best so far. -/
def Beats (rank order : Int) (locals : Best) : Prop :=
  rank > locals.bestPrefixLen ∨ rank = locals.bestPrefixLen ∧ order < locals.bestOrder

instance (rank order : Int) (locals : Best) : Decidable (Beats rank order locals) :=
  inferInstanceAs (Decidable (_ ∨ _ ∧ _))

open AccessControl

theorem better_of_beats : better best ac =
      if Beats ac.rank ac.selectionOrder (ofBest best) then some ac
      else best := by
  cases best with
  | none =>
    rw [if_pos]
    · rfl
    · left
      simp only [ofBest, Option.elim, initial]
      omega
  | some found =>
    have hIff : found.rankKey < ac.rankKey ↔ Beats ac.rank ac.selectionOrder
      (ofBest (some found)) := by
      rw [rankKey_lt_iff]
      simp only [Beats, ofBest, Option.elim]
      omega
    simp only [better, List.argAux, hIff]

variable (imsi : List Char)

theorem considerPrefix_eq {locals : Best} {ac : AccessControl}
    (hPrefix : ac.imsiPrefix.isEmpty = false) (hMatches : startsWith imsi ac.imsiPrefix = true) :
    considerPrefix imsi locals ac =
      if Beats ac.rank ac.selectionOrder locals then ofBest (some ac)
      else locals := by
  have hRank : ac.rank = ac.imsiPrefix.length := by simp [rank, hPrefix]
  unfold considerPrefix
  simp only [hMatches, Bool.not_true, false_eq_true, if_false, ofBest, Option.elim, hRank]
  rfl

theorem considerPlmn_eq {locals : Best} {ac : AccessControl}
    (hPrefix : ac.imsiPrefix.isEmpty = true) (hMatches : (ac.plmnIdConfigured &&
        plmnIdImsiPrefixMatch imsi ac.plmnId) = true) : considerPlmn imsi locals ac =
      if Beats ac.rank ac.selectionOrder locals then ofBest (some ac)
      else locals := by
  have hRank : ac.rank = 5 := by simp [rank, hPrefix]
  unfold considerPlmn
  rw [if_pos hMatches, hRank]
  by_cases hBeats : Beats (5 : Nat) ac.selectionOrder locals
  · have hBetter : locals.bestPrefixLen < 5 ∨ locals.bestPrefixLen = 5 ∧
            ac.selectionOrder < locals.bestOrder := by
      rcases hBeats with hMore | ⟨hSame, hOrder⟩
      · exact .inl (by omega)
      · exact .inr ⟨by omega, hOrder⟩
    have hLen : (if locals.bestPrefixLen < 5 then 5
          else locals.bestPrefixLen) = 5 := by
      split <;> omega
    rw [if_pos hBeats, if_pos hBetter, hLen]
    simp only [ofBest, Option.elim, hRank]
    rfl
  · have hWorse : ¬ (locals.bestPrefixLen < 5 ∨ locals.bestPrefixLen = 5 ∧
            ac.selectionOrder < locals.bestOrder) := by
      intro hBetter
      apply hBeats
      rcases hBetter with hMore | ⟨hSame, hOrder⟩
      · exact .inl (by omega)
      · exact .inr ⟨by omega, hOrder⟩
    rw [if_neg hBeats, if_neg hWorse]

/- Both kinds of entries are compared by rank and order. -/
theorem consider_ofBest : consider imsi (ofBest best) ac = ofBest
        (if ac.Matches imsi then better best ac else best) := by
  have hBest : (if Beats ac.rank ac.selectionOrder (ofBest best) then
    ofBest (some ac) else ofBest best) =
    ofBest (better best ac) := by
    rw [better_of_beats]
    split <;> rfl
  unfold consider Matches
  cases hPrefix : ac.imsiPrefix.isEmpty with
  | true =>
    simp only [if_true]
    split
    · rename_i hMatches
      rw [considerPlmn_eq imsi hPrefix hMatches, hBest]
    · rename_i hMatches
      rw [considerPlmn, if_neg hMatches]
  | false =>
    simp only [false_eq_true, if_false]
    split
    · rename_i hMatches
      rw [considerPrefix_eq imsi hPrefix hMatches, hBest]
    · rename_i hMatches
      rw [considerPrefix, if_pos (by simpa using hMatches)]

theorem foldl_consider (acs : List AccessControl) (best : Option AccessControl) :
    acs.foldl (consider imsi) (ofBest best) = ofBest
        ((acs.filter (fun ac => ac.Matches imsi)).foldl better best) := by
  induction acs generalizing best with
  | nil => rfl
  | cons ac rest ih =>
    rw [foldl_cons, consider_ofBest, ih]
    by_cases hMatch : ac.Matches imsi = true
    · rw [if_pos hMatch, filter_cons_of_pos (by simpa using hMatch), foldl_cons]
    · rw [if_neg hMatch, filter_cons_of_neg (by simpa using hMatch)]

variable (acs : List AccessControl) (imsi : List Char)

/- The entries that match an IMSI. -/
def matching : List AccessControl := acs.filter (fun ac => ac.Matches imsi)

theorem findForImsi_eq : findForImsi acs imsi = (matching acs imsi).argmax rankKey := by
  have hFold := foldl_consider imsi acs none
  unfold findForImsi
  rw [show initial = ofBest none from rfl, hFold, ofBest_best]
  rfl

---- Longest Match ----

/-
  The entry that is found matches and has the most digits, and then the lowest order, among those
  that match. None is found only when none matches.
-/
def LongestMatch : Prop :=
  match findForImsi acs imsi with
  | none => ∀ ac ∈ acs, ac.Matches imsi = false
  | some best =>
      best ∈ acs ∧ best.Matches imsi = true ∧ ∀ ac ∈ acs, ac.Matches imsi = true →
          ac.digits < best.digits ∨ ac.digits = best.digits ∧
              best.selectionOrder ≤ ac.selectionOrder

/- The matched digits and the order of what is found. -/
def chosenPair : Option (Nat × Int) :=
  (findForImsi acs imsi).map (fun best => (best.digits, best.selectionOrder))

/- An entry is best by a key among those that match. -/
def Tops (key : AccessControl → ℕ ×ₗ ℤᵒᵈ) (acs : List AccessControl) (imsi : List Char)
    (best : AccessControl) : Prop :=
  best ∈ matching acs imsi ∧ ∀ ac ∈ matching acs imsi, key ac ≤ key best

variable {acs : List AccessControl} (imsi : List Char)

theorem findForImsi_tops {best : AccessControl} (hFound : findForImsi acs imsi = some best) :
    Tops rankKey acs imsi best := by
  rw [findForImsi_eq] at hFound
  exact ⟨argmax_mem hFound, fun ac hAc => le_of_mem_argmax hAc hFound⟩

theorem longestMatch_of_tops
    (hTops : ∀ best, findForImsi acs imsi = some best → Tops digitsKey acs imsi best) :
    LongestMatch acs imsi := by
  unfold LongestMatch
  cases hFound : findForImsi acs imsi with
  | none =>
    rw [findForImsi_eq, matching] at hFound
    simpa using hFound
  | some best =>
    rcases hTops best hFound with ⟨hMem, hMost⟩
    rcases mem_filter.mp hMem with ⟨hIn, hMatches⟩
    refine ⟨hIn, hMatches, ?_⟩
    intro ac hAc hMatch
    exact digitsKey_le_iff.mp (hMost ac (mem_filter.mpr ⟨hAc, hMatch⟩))

theorem tops_of_longestMatch {best : AccessControl} (hLongest : LongestMatch acs imsi)
    (hFound : findForImsi acs imsi = some best) : Tops digitsKey acs imsi best := by
  unfold LongestMatch at hLongest
  rw [hFound] at hLongest
  rcases hLongest with ⟨hIn, hMatches, hMost⟩
  refine ⟨mem_filter.mpr ⟨hIn, hMatches⟩, ?_⟩
  intro ac hAc
  rcases mem_filter.mp hAc with ⟨hMem, hMatch⟩
  exact digitsKey_le_iff.mpr (hMost ac hMem hMatch)

/- Every entry of the best rank is found in some order. -/
theorem exists_perm_found {best : AccessControl} (hTops : Tops rankKey acs imsi best) :
    ∃ acs' : List AccessControl, acs'.Perm acs ∧ findForImsi acs' imsi = some best := by
  rcases mem_filter.mp hTops.1 with ⟨hIn, hMatches⟩
  refine ⟨best :: acs.erase best, (perm_cons_erase hIn).symm, ?_⟩
  rw [findForImsi_eq, matching, filter_cons_of_pos (by simpa using hMatches), argmax_cons]
  cases hRest : ((acs.erase best).filter (fun ac => ac.Matches imsi)).argmax rankKey with
  | none => rfl
  | some other =>
    have hOther := argmax_mem hRest
    rcases mem_filter.mp hOther with ⟨hErased, hMatch⟩
    have hBelow := hTops.2 other (mem_filter.mpr ⟨mem_of_mem_erase hErased, hMatch⟩)
    simp only [not_lt.mpr hBelow, if_false]

---- Six-Digit PLMNs ----

/-
  Every matching entry with a six-digit PLMN is beaten by a longer prefix, or by a prefix of six
  digits with no higher order, or there is no such prefix and some six-digit PLMN has a lower order
  than every match of five digits.
-/
variable (acs) in
def SixDigitsCovered : Prop :=
  ∀ ac ∈ matching acs imsi, ac.SixDigitPlmn → (∃ longer ∈ matching acs imsi, 7 ≤ longer.digits) ∨
      (∃ six ∈ matching acs imsi, ¬ six.SixDigitPlmn ∧ six.digits = 6 ∧
          six.selectionOrder ≤ ac.selectionOrder) ∨
      ((∀ other ∈ matching acs imsi, ¬ other.SixDigitPlmn → other.digits ≤ 5) ∧
        ∃ first ∈ matching acs imsi, first.SixDigitPlmn ∧
            ∀ five ∈ matching acs imsi, five.digits = 5 →
              first.selectionOrder < five.selectionOrder)

/- Under it, what is best by rank is best by digits. -/
theorem tops_digits {best : AccessControl} (hCovered : SixDigitsCovered acs imsi)
    (hTops : Tops rankKey acs imsi best) : Tops digitsKey acs imsi best := by
  rcases hTops with ⟨hMem, hMost⟩
  have hRanks : ∀ ac ∈ matching acs imsi, ac.rank < best.rank ∨ ac.rank = best.rank ∧
    best.selectionOrder ≤ ac.selectionOrder := fun ac hAc =>
    rankKey_le_iff.mp (hMost ac hAc)
  refine ⟨hMem, ?_⟩
  intro ac hAc
  rw [digitsKey_le_iff]
  have hRank := hRanks ac hAc
  rcases ac.rank_cases with ⟨hSix, hDigits, hFive⟩ | ⟨_, hSame⟩
  · rcases best.rank_cases with ⟨_, hBestDigits, hBestFive⟩ | ⟨hOther, hBestSame⟩
    · omega
    · -- a six-digit PLMN against another kind of entry
      rcases hCovered ac hAc hSix with ⟨longer, hLonger, hSeven⟩ |
        ⟨six, hIn, hKind, hSixDigits, hOrder⟩ | ⟨hShort, first, hFirst, hFirstSix, hLower⟩
      · have hAbove := hRanks longer hLonger
        rcases longer.rank_cases with ⟨_, hL, _⟩ | ⟨_, hL⟩
        · omega
        · omega
      · have hAbove := hRanks six hIn
        rcases six.rank_cases with ⟨hNo, _, _⟩ | ⟨_, hL⟩
        · exact absurd hNo hKind
        · omega
      · have hAbove := hRanks first hFirst
        have hBestShort := hShort best hMem hOther
        rcases first.rank_cases with ⟨_, _, hFirstFive⟩ | ⟨hNo, _⟩
        · have hBelow := hLower best hMem (by omega)
          omega
        · exact absurd hFirstSix hNo
  · rcases best.rank_cases with ⟨_, hBestDigits, hBestFive⟩ | ⟨_, hBestSame⟩
    · omega
    · omega

/- Without it, some order finds what is not the longest. -/
theorem sixDigitsCovered_of_tops
    (hTops : ∀ best, Tops rankKey acs imsi best → Tops digitsKey acs imsi best) :
    SixDigitsCovered acs imsi := by
  intro ac hAc hSix
  have hDigitsSix : ac.digits = 6 := hSix.2
  rcases hFound : findForImsi acs imsi with _ | best
  · rw [findForImsi_eq, argmax_eq_none] at hFound
    rw [hFound] at hAc
    contradiction
  · have hRankTops := findForImsi_tops imsi hFound
    rcases hTops best hRankTops with ⟨hMem, hMost⟩
    have hLongest := digitsKey_le_iff.mp (hMost ac hAc)
    rcases best.rank_cases with ⟨hBestSix, hBestDigits, hBestFive⟩ | ⟨hOther, hBestSame⟩
    · -- the best entry has a six-digit PLMN itself
      right
      right
      refine ⟨?_, best, hMem, hBestSix, ?_⟩
      · intro other hIn hKind
        have hRank := rankKey_le_iff.mp (hRankTops.2 other hIn)
        rcases other.rank_cases with ⟨hNo, _, _⟩ | ⟨_, hSame⟩
        · exact absurd hNo hKind
        · omega
      · intro five hIn hFive
        by_contra hNotLower
        have hFiveRank : five.rank = 5 := by
          rcases five.rank_cases with ⟨_, h, _⟩ | ⟨_, h⟩
          · omega
          · omega
        -- a tie, so the five digits are found in some order
        have hFiveTops : Tops rankKey acs imsi five := by
          refine ⟨hIn, fun other hOther => ?_⟩
          apply le_trans (hRankTops.2 other hOther)
          rw [rankKey_le_iff]
          omega
        have hFiveMost := digitsKey_le_iff.mp ((hTops five hFiveTops).2 best hMem)
        omega
    · by_cases hSeven : 7 ≤ best.digits
      · exact .inl ⟨best, hMem, hSeven⟩
      · right
        left
        exact ⟨best, hMem, hOther, by omega, by omega⟩

theorem matching_perm {acs acs' : List AccessControl} {imsi : List Char} (hPerm : acs'.Perm acs)
    {ac : AccessControl} : ac ∈ matching acs' imsi ↔ ac ∈ matching acs imsi := by
  simp only [matching, mem_filter, hPerm.mem_iff]

theorem tops_perm {key : AccessControl → ℕ ×ₗ ℤᵒᵈ} {acs acs' : List AccessControl}
    {imsi : List Char} (hPerm : acs'.Perm acs) {best : AccessControl} :
    Tops key acs' imsi best ↔ Tops key acs imsi best := by
  simp only [Tops, matching_perm hPerm]

/- Two longest matches have the same digits and order. -/
theorem pair_eq_of_tops {acs : List AccessControl} {imsi : List Char} {best other : AccessControl}
    (hBest : Tops digitsKey acs imsi best) (hOther : Tops digitsKey acs imsi other) :
    (best.digits, best.selectionOrder) = (other.digits, other.selectionOrder) := by
  have hBelow := digitsKey_le_iff.mp (hOther.2 best hBest.1)
  have hAbove := digitsKey_le_iff.mp (hBest.2 other hOther.1)
  have hDigits : best.digits = other.digits := by omega
  have hOrder : best.selectionOrder = other.selectionOrder := by omega
  rw [hDigits, hOrder]

/-
  The search is a longest match and gives the same digits and order for every order of the entries
  exactly when the six-digit PLMN entries are covered.
-/
theorem access_control_longest_match_iff (acs : List AccessControl) (imsi : List Char) :
    (LongestMatch acs imsi ∧ ∀ acs' : List AccessControl, acs'.Perm acs →
        chosenPair acs' imsi = chosenPair acs imsi) ↔ SixDigitsCovered acs imsi := by
  constructor
  · rintro ⟨hLongest, hOrder⟩
    apply sixDigitsCovered_of_tops
    intro best hTops
    rcases exists_perm_found imsi hTops with ⟨acs', hPerm, hFound⟩
    have hPair := hOrder acs' hPerm
    rw [chosenPair, hFound, map_some, chosenPair, eq_comm, map_eq_some_iff] at hPair
    rcases hPair with ⟨first, hFirst, hSame⟩
    have hFirstTops := tops_of_longestMatch imsi hLongest hFirst
    refine ⟨hTops.1, fun ac hAc => ?_⟩
    have hBelow := hFirstTops.2 ac hAc
    have hKey : first.digitsKey = best.digitsKey := by
      unfold digitsKey
      rw [Prod.mk.injEq] at hSame
      rw [hSame.1, hSame.2]
    rwa [hKey] at hBelow
  · intro hCovered
    have hFoundTops : ∀ acs' : List AccessControl, acs'.Perm acs →
      ∀ best, findForImsi acs' imsi = some best → Tops digitsKey acs imsi best := by
      intro acs' hPerm best hFound
      have hRank := findForImsi_tops imsi hFound
      rw [tops_perm hPerm] at hRank
      exact tops_digits imsi hCovered hRank
    refine ⟨?_, ?_⟩
    · exact longestMatch_of_tops imsi (hFoundTops acs (List.Perm.refl acs))
    · intro acs' hPerm
      unfold chosenPair
      cases hFound : findForImsi acs' imsi with
      | none =>
        -- no entry matches in either order
        have hNone : findForImsi acs imsi = none := by
          rw [findForImsi_eq, argmax_eq_none] at hFound ⊢
          rw [eq_nil_iff_forall_not_mem] at hFound ⊢
          intro ac hAc
          exact hFound ac ((matching_perm hPerm).mpr hAc)
        rw [hNone]
      | some best =>
        have hBest := hFoundTops acs' hPerm best hFound
        cases hHere : findForImsi acs imsi with
        | none =>
          rw [findForImsi_eq, argmax_eq_none] at hHere
          have hIn := hBest.1
          rw [hHere] at hIn
          contradiction
        | some other =>
          have hOther := hFoundTops acs (List.Perm.refl acs) other hHere
          simp only [map_some]
          rw [pair_eq_of_tops hBest hOther]

/- An entry for the PLMN 310-410. -/
def sixDigitEntry : AccessControl where
  imsiPrefix := []
  plmnIdConfigured := true
  plmnId := ⟨3, 1, 0, 4, 1, 0⟩
  selectionOrder := 2

/- An entry for the prefix 31041, with a lower order. -/
def fiveDigitEntry : AccessControl where
  imsiPrefix := ['3', '1', '0', '4', '1']
  plmnIdConfigured := false
  plmnId := ⟨0, 0, 0, 0, 0, 0⟩
  selectionOrder := 1

def roamingImsi : List Char :=
  ['3', '1', '0', '4', '1', '0', '1', '2', '3', '4', '5', '6', '7', '8', '9']

/- Five digits are found although six match. -/
theorem six_digit_plmn_is_passed_over :
    findForImsi [sixDigitEntry, fiveDigitEntry] roamingImsi = some fiveDigitEntry ∧
      sixDigitEntry.Matches roamingImsi = true ∧
      sixDigitEntry.digits = 6 ∧ fiveDigitEntry.digits = 5 ∧
      ¬ LongestMatch [sixDigitEntry, fiveDigitEntry] roamingImsi := by
  have hFound : findForImsi [sixDigitEntry, fiveDigitEntry] roamingImsi =
    some fiveDigitEntry := by decide +kernel
  have hMatches : sixDigitEntry.Matches roamingImsi = true := by decide +kernel
  have hSix : sixDigitEntry.digits = 6 := by decide +kernel
  have hFive : fiveDigitEntry.digits = 5 := by decide +kernel
  refine ⟨hFound, hMatches, hSix, hFive, ?_⟩
  rintro ⟨_, _, hMost⟩
  have hLonger := hMost sixDigitEntry (by simp) hMatches
  omega

end Pretty5gs.Mme
