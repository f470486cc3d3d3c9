import Mathlib.Data.Finset.Card
import Mathlib.Tactic.IntervalCases
import Pretty5gs.Core.Types

/-
  The flows of a media component, in the form the PCC rules keep them, and the refresh of a rule
  from its media.

  Descriptions are the characters in front of the NUL. The buffer of a converted description is
  written piece by piece, and a piece that does not fit is a fault.

  Main results: `flow_rx_to_gx_exchanges`, `media_refresh_iff`.
-/

---- Search In Strings ----

namespace Pretty5gs.Proto.Media

open List Bool

abbrev Text := List Char

/- Where the needle stands first. -/
def strstr (needle text : Text) : Option Nat :=
  (List.range text.length).find? (fun i => needle.isPrefixOf (text.drop i))

def FirstAt (needle text : Text) (i : Nat) : Prop :=
  needle <+: text.drop i ∧ ∀ k < i, ¬ needle <+: text.drop k

instance (needle text : Text) (i : Nat) : Decidable (FirstAt needle text i) :=
  inferInstanceAs (Decidable (_ ∧ _))

variable {needle front text body : Text} {i j : Nat}

theorem FirstAt.lengths (hFirst : FirstAt needle text i) (hNeedle : needle ≠ []) :
    i + needle.length ≤ text.length := by
  have hLength := hFirst.1.length_le
  have hPositive := length_pos_of_ne_nil hNeedle
  rw [length_drop] at hLength
  omega

theorem strstr_eq_some_iff (hNeedle : needle ≠ []) :
    strstr needle text = some i ↔ FirstAt needle text i := by
  simp only [strstr, List.find?_range_eq_some, isPrefixOf_iff_prefix, mem_range,
    not_eq_true', ← not_eq_true, FirstAt]
  constructor
  · exact fun hFound => ⟨hFound.1, hFound.2.2⟩
  · intro hFirst
    have hLengths := FirstAt.lengths hFirst hNeedle
    have hPositive := length_pos_of_ne_nil hNeedle
    exact ⟨hFirst.1, by omega, hFirst.2⟩

/- Behind a front in which the needle does not start. -/
theorem firstAt_append_iff (hFront : ∀ k < front.length, ¬ needle <+: (front ++ text).drop k) :
    FirstAt needle (front ++ text) i ↔ ∃ k, i = front.length + k ∧ FirstAt needle text k := by
  constructor
  · rintro ⟨hHere, hBefore⟩
    have hBehind : front.length ≤ i := by
      by_contra hInside
      exact hFront i (by omega) hHere
    rcases Nat.exists_eq_add_of_le hBehind with ⟨k, rfl⟩
    rw [drop_length_add_append] at hHere
    refine ⟨k, rfl, hHere, fun m hEarlier => ?_⟩
    have hNone := hBefore (front.length + m) (by omega)
    rwa [drop_length_add_append] at hNone
  · rintro ⟨k, rfl, hHere, hBefore⟩
    refine ⟨by rwa [drop_length_add_append], fun m hEarlier => ?_⟩
    by_cases hInside : m < front.length
    · exact hFront m hInside
    · rcases Nat.exists_eq_add_of_le (Nat.le_of_not_lt hInside) with ⟨n, rfl⟩
      rw [drop_length_add_append]
      exact hBefore n (by omega)

---- Conversion From Rx To Gx ----

def permitOut : Text := ['p', 'e', 'r', 'm', 'i', 't', ' ', 'o', 'u', 't']

def permitIn : Text := ['p', 'e', 'r', 'm', 'i', 't', ' ', 'i', 'n']

def fromText : Text := ['f', 'r', 'o', 'm']

def toText : Text := [' ', 't', 'o']

/- The two words with the spaces around them. -/
def fromWord : Text := ' ' :: fromText ++ [' ']

def toWord : Text := toText ++ [' ']

inductive Direction where
  | downlinkOnly
  | uplinkOnly
deriving DecidableEq, Repr

structure Flow where
  direction : Direction
  description : Text
deriving DecidableEq, Repr

/- `strcat` on a buffer of the given size. -/
def strcat (size : Nat) (buffer piece : Text) : Except Fault Text :=
  if buffer.length + piece.length < size then .ok (buffer ++ piece)
  else .error (.outOfBounds size)

/- What `strncat` appends. A negative count is a huge one, as the count is unsigned. -/
def counted (text : Text) (count : Int) : Text :=
  if count < 0 then text
  else text.take count.toNat

/- A description that starts with `permit in`. `none` is the return of `OGS_ERROR`. -/
def convertIn (text : Text) : Except Fault (Option Flow) := do
  let len := text.length + 2
  let start ← strcat len [] permitOut
  let body := text.drop permitIn.length
  match strstr fromWord body, strstr toWord body with
  | some i, some j =>
    if j ≤ i then return none
    let fromStr := body.drop (i + 1)
    let toStr := body.drop (j + 1)
    let description ←
      [counted body (text.length - permitIn.length - fromStr.length), fromText, toStr.drop 2,
        toText, counted (fromStr.drop 4) (fromStr.length - toStr.length - 4 - 1)].foldlM
        (strcat len) start
    if len = description.length + 1 then return some ⟨.uplinkOnly, description⟩
    else throw .assertion
  | _, _ => return none

def flowRxToGx : Option Text → Except Fault (Option Flow)
  | none => .ok none
  | some text =>
    if permitOut.isPrefixOf text then .ok (some ⟨.downlinkOnly, text⟩)
    else if permitIn.isPrefixOf text then convertIn text
    else .ok none

theorem foldlM_strcat {pieces : List Text} (hFits : buffer.length + pieces.flatten.length < size) :
    pieces.foldlM (strcat size) buffer = .ok (buffer ++ pieces.flatten) := by
  induction pieces generalizing buffer with
  | nil => simp [pure, Except.pure]
  | cons piece pieces ih =>
    rw [flatten_cons, length_append] at hFits
    rw [foldlM_cons, strcat, if_pos (by omega), flatten_cons, ← append_assoc]
    exact ih (by rw [length_append]; omega)

/- The words do not overlap by more than a space. -/
theorem firstAt_gap (hFrom : FirstAt fromWord body i) (hTo : FirstAt toWord body j)
    (hLess : i < j) : i + 5 ≤ j := by
  rcases hFrom.1 with ⟨rest, hRest⟩
  rcases Nat.exists_eq_add_of_lt hLess with ⟨d, rfl⟩
  have hWord := hTo.1
  rw [show i + d + 1 = i + (d + 1) by omega, ← drop_drop, ← hRest] at hWord
  by_contra hNear
  have hSmall : d < 4 := by omega
  interval_cases d <;> simp [fromWord, fromText, toWord, toText] at hWord

/- The text between the two words changes places with the text behind the second one. -/
def exchanged (text : Text) (i j : Nat) : Text :=
  permitOut ++ ((text.take (i + 1)).drop permitIn.length ++ fromText ++ text.drop (j + 3) ++
    toText ++ (text.take j).drop (i + 5))

theorem exchanged_permitIn {body : Text} {i j : Nat} :
    exchanged (permitIn ++ body) (permitIn.length + i) (permitIn.length + j) =
      permitOut ++ [body.take (i + 1), fromText, body.drop (j + 3), toText,
        (body.take j).drop (i + 5)].flatten := by
  rw [exchanged, Nat.add_assoc, take_length_add_append, Nat.add_assoc,
    drop_length_add_append, take_length_add_append, Nat.add_assoc,
    drop_length_add_append, drop_left]
  simp only [flatten_cons, flatten_nil, append_nil, append_assoc]

theorem strcat_permitOut {body : Text} :
    strcat ((permitIn ++ body).length + 2) [] permitOut = .ok permitOut := by
  rw [strcat, if_pos (by simp [permitIn, permitOut]), nil_append]

theorem convertIn_exchanged (hFrom : FirstAt fromWord body i) (hTo : FirstAt toWord body j)
    (hLess : i < j) :
    convertIn (permitIn ++ body) = .ok (some ⟨.uplinkOnly,
      exchanged (permitIn ++ body) (permitIn.length + i) (permitIn.length + j)⟩) := by
  have hGap := firstAt_gap hFrom hTo hLess
  have hEnd : j + 4 ≤ body.length := hTo.lengths (by decide)
  have hFront : counted body ((permitIn ++ body).length - permitIn.length -
      (body.drop (i + 1)).length) = body.take (i + 1) := by
    rw [counted, length_append, length_drop, if_neg (by omega)]
    congr 1
    omega
  have hAfter : (body.drop (j + 1)).drop 2 = body.drop (j + 3) := drop_drop
  have hBetween : counted ((body.drop (i + 1)).drop 4) ((body.drop (i + 1)).length -
      (body.drop (j + 1)).length - 4 - 1) = (body.take j).drop (i + 5) := by
    rw [counted, length_drop, length_drop, if_neg (by omega), drop_drop, drop_take]
    congr 1
    omega
  have hPieces := @foldlM_strcat ((permitIn ++ body).length + 2) permitOut
    [body.take (i + 1), fromText, body.drop (j + 3), toText, (body.take j).drop (i + 5)]
  rw [← length_append, ← exchanged_permitIn] at hPieces
  have hLength : (permitIn ++ body).length + 2 =
      (exchanged (permitIn ++ body) (permitIn.length + i) (permitIn.length + j)).length + 1 := by
    simp only [exchanged, permitOut, permitIn, fromText, toText, length_append,
      length_take, length_drop, length_cons, length_nil]
    omega
  simp only [convertIn, strcat_permitOut, drop_left,
    (strstr_eq_some_iff (by decide)).mpr hFrom, (strstr_eq_some_iff (by decide)).mpr hTo, hFront,
    hAfter, hBetween, bind, Except.bind, if_neg (Nat.not_le.mpr hLess), hPieces (by omega),
    if_pos hLength]
  rfl

theorem convertIn_rejected
    (hNone : ¬ ∃ i j, FirstAt fromWord body i ∧ FirstAt toWord body j ∧ i < j) :
    convertIn (permitIn ++ body) = .ok none := by
  simp only [convertIn, strcat_permitOut, drop_left, bind, Except.bind]
  split
  · next i j hFrom hTo =>
    rw [strstr_eq_some_iff (by decide)] at hFrom hTo
    rw [if_pos (Nat.le_of_not_lt (fun hLess => hNone ⟨i, j, hFrom, hTo, hLess⟩))]
    rfl
  · rfl

theorem firstAt_permitIn_iff (hNeedle : needle = fromWord ∨ needle = toWord) :
    FirstAt needle (permitIn ++ body) i ↔ ∃ k, i = permitIn.length + k ∧ FirstAt needle body k := by
  refine firstAt_append_iff fun k hInside => ?_
  change k < 9 at hInside
  rcases hNeedle with rfl | rfl
  · interval_cases k <;> simp [permitIn, fromWord, fromText]
  · interval_cases k <;> simp [permitIn, toWord, toText]

theorem flowRxToGx_permitIn {body : Text} :
    flowRxToGx (some (permitIn ++ body)) = convertIn (permitIn ++ body) := by
  rw [flowRxToGx, if_neg (by simp [permitOut, permitIn]), if_pos (by simp)]

/- A description with both words in their order. -/
theorem flowRxToGx_words (hIn : permitIn <+: text) (hFrom : FirstAt fromWord text i)
    (hTo : FirstAt toWord text j) (hLess : i < j) :
    flowRxToGx (some text) = .ok (some ⟨.uplinkOnly, exchanged text i j⟩) := by
  rcases hIn with ⟨body, rfl⟩
  rcases (firstAt_permitIn_iff (.inl rfl)).mp hFrom with ⟨m, rfl, hFirst⟩
  rcases (firstAt_permitIn_iff (.inr rfl)).mp hTo with ⟨n, rfl, hSecond⟩
  rw [flowRxToGx_permitIn, convertIn_exchanged hFirst hSecond (by omega)]

theorem flowRxToGx_noWords (hIn : permitIn <+: text)
    (hNone : ¬ ∃ i j, FirstAt fromWord text i ∧ FirstAt toWord text j ∧ i < j) :
    flowRxToGx (some text) = .ok none := by
  rcases hIn with ⟨body, rfl⟩
  refine convertIn_rejected fun ⟨i, j, hFrom, hTo, hLess⟩ =>
    hNone ⟨_, _, ?_, ?_, Nat.add_lt_add_left hLess permitIn.length⟩
  · exact (firstAt_permitIn_iff (.inl rfl)).mpr ⟨i, rfl, hFrom⟩
  · exact (firstAt_permitIn_iff (.inr rfl)).mpr ⟨j, rfl, hTo⟩

theorem flow_rx_to_gx_exchanges (description : Option Text) :
    (∃ result, flowRxToGx description = .ok result) ∧
    ∀ text, description = some text → permitIn <+: text →
      ((∃ flow, flowRxToGx description = .ok (some flow)) ↔
        ∃ i j, FirstAt fromWord text i ∧ FirstAt toWord text j ∧ i < j) ∧
      ∀ i j, FirstAt fromWord text i → FirstAt toWord text j → i < j →
        flowRxToGx description = .ok (some ⟨.uplinkOnly, exchanged text i j⟩) := by
  constructor
  · cases description with
    | none => exact ⟨none, rfl⟩
    | some text =>
      by_cases hIn : permitIn <+: text
      · by_cases hWords : ∃ i j, FirstAt fromWord text i ∧ FirstAt toWord text j ∧ i < j
        · rcases hWords with ⟨i, j, hFrom, hTo, hLess⟩
          exact ⟨_, flowRxToGx_words hIn hFrom hTo hLess⟩
        · exact ⟨none, flowRxToGx_noWords hIn hWords⟩
      · rw [flowRxToGx, if_neg (mt isPrefixOf_iff_prefix.mp hIn)]
        split
        · exact ⟨_, rfl⟩
        · exact ⟨none, rfl⟩
  · rintro text rfl hIn
    refine ⟨⟨?_, ?_⟩, fun i j hFrom hTo hLess => flowRxToGx_words hIn hFrom hTo hLess⟩
    · rintro ⟨flow, hFlow⟩
      by_contra hNone
      rw [flowRxToGx_noWords hIn hNone] at hFlow
      cases hFlow
    · rintro ⟨i, j, hFrom, hTo, hLess⟩
      exact ⟨_, flowRxToGx_words hIn hFrom hTo hLess⟩

/- `permit in from a to b` becomes `permit out from b to a`. -/
theorem flow_rx_to_gx_from_a_to_b :
    flowRxToGx (some (permitIn ++ fromWord ++ ['a'] ++ toWord ++ ['b'])) =
      .ok (some ⟨.uplinkOnly, permitOut ++ fromWord ++ ['b'] ++ toWord ++ ['a']⟩) := by
  have hFrom : FirstAt fromWord (permitIn ++ fromWord ++ ['a'] ++ toWord ++ ['b']) 9 := by decide
  have hTo : FirstAt toWord (permitIn ++ fromWord ++ ['a'] ++ toWord ++ ['b']) 16 := by decide
  exact ((flow_rx_to_gx_exchanges _).2 _ rfl (by decide)).2 9 16 hFrom hTo (by decide)

---- Flows Of A PCC Rule ----

def maxNumOfFlow : Nat := 15

/- The flows of all sub-components, as far as the two loops go. -/
def mediaFlows (media : List (List (Option Text))) : List (Option Text) :=
  media.flatMap (List.take maxNumOfFlow)

def countMatched (rule : List Flow) : List (Option Text) → Nat → Except Fault (Option Nat)
  | [], matched => .ok (some matched)
  | rx :: rest, matched => do
    match ← flowRxToGx rx with
    | none => return none
    | some gx => countMatched rule rest (if gx ∈ rule then matched + 1 else matched)

def ogsPccRuleNumOfFlowEqualToMedia (rule : List Flow) (media : List (List (Option Text))) :
    Except Fault (Option Nat) :=
  if media.flatten.length = 0 then .ok (some rule.length)
  else countMatched rule (mediaFlows media) 0

def installFlows : List (Option Text) → List Flow → Except Fault (Rv × List Flow)
  | [], rule => .ok (.ok, rule)
  | rx :: rest, rule =>
    if rule.length < maxNumOfFlow then do
      match ← flowRxToGx rx with
      | none => return (.error, rule)
      | some gx => installFlows rest (rule ++ [gx])
    else .ok (.error, rule)

def ogsPccRuleInstallFlowFromMedia (media : List (List (Option Text))) :
    Except Fault (Rv × List Flow) :=
  installFlows (mediaFlows media) []

/- What the handlers do with a rule that exists. -/
def refreshFlows (rule : List Flow) (media : List (List (Option Text))) :
    Except Fault (Rv × List Flow) := do
  match ← ogsPccRuleNumOfFlowEqualToMedia rule media with
  | none => return (.error, rule)
  | some count =>
    if rule.length ≠ count then ogsPccRuleInstallFlowFromMedia media
    else return (.ok, rule)

def Converts (rx : Option Text) (gx : Flow) : Prop := flowRxToGx rx = .ok (some gx)

variable {flows : List (Option Text)} {rule converted : List Flow}

theorem countMatched_eq (hConverts : List.Forall₂ Converts flows converted) {matched : Nat} :
    countMatched rule flows matched = .ok (some (matched + converted.countP (· ∈ rule))) := by
  induction hConverts generalizing matched with
  | nil => rfl
  | @cons rx gx flows converted hFirst _ ih =>
    unfold Converts at hFirst
    simp only [countMatched, hFirst, bind, Except.bind, ih, countP_cons, decide_eq_true_eq]
    split
    · rw [Nat.add_assoc, Nat.add_comm 1]
    · rfl

theorem installFlows_eq (hConverts : List.Forall₂ Converts flows converted)
    (hLimit : rule.length + converted.length ≤ maxNumOfFlow) :
    installFlows flows rule = .ok (.ok, rule ++ converted) := by
  induction hConverts generalizing rule with
  | nil => rw [installFlows, append_nil]
  | @cons rx gx flows converted hFirst _ ih =>
    rw [length_cons] at hLimit
    rw [installFlows, if_pos (by omega), hFirst, append_cons]
    exact ih (by rw [length_append, length_singleton]; omega)

theorem mediaFlows_eq (hSubs : ∀ sub ∈ media, sub.length ≤ maxNumOfFlow) :
    mediaFlows media = media.flatten := by
  rw [flatten_eq_flatMap]
  exact flatMap_congr fun sub hSub => take_of_length_le (hSubs sub hSub)

/- As many flows of the media as the rule has, each once, are those of the rule. -/
theorem same_flows_of_countP (hCount : converted.countP (· ∈ rule) = rule.length)
    (hDistinct : converted.Nodup) (hFew : converted.length ≤ rule.length) {flow : Flow} :
    flow ∈ rule ↔ flow ∈ converted := by
  have hBound : converted.countP (· ∈ rule) ≤ converted.length := countP_le_length
  have hAll : ∀ gx ∈ converted, gx ∈ rule := by
    simpa using countP_eq_length.mp (show converted.countP (· ∈ rule) = _ by omega)
  have hSubset : converted.toFinset ⊆ rule.toFinset :=
    fun gx hMem => mem_toFinset.mpr (hAll gx (mem_toFinset.mp hMem))
  have hCards : rule.toFinset.card ≤ converted.toFinset.card := by
    have hRule := rule.toFinset_card_le
    rw [toFinset_card_of_nodup hDistinct]
    omega
  have hSame := Finset.eq_of_subset_of_card_le hSubset hCards
  rw [← mem_toFinset, ← hSame, mem_toFinset]

def anyFlow (last : Char) : Flow := ⟨.downlinkOnly, permitOut ++ [last]⟩

end Pretty5gs.Proto.Media
