import Pretty5gs.Core.Types
import Pretty5gs.Library.OctetBuffer
import Pretty5gs.Library.Reader
import Pretty5gs.Library.TracedLoop

/-
  Names as labels with their lengths in front.

  The builder copies a character one place behind its own, and writes the length of a label in front
  of it when the label ends. The parser compares the length of a label with the room behind what it
  has written. Behind the last label but one octet it has written one octet less than it has read,
  so a length of one passes there and the octet behind the name is read.

  Main results: `Fqdn.ogsFqdnParse_within_iff`, `Fqdn.ogsFqdnParse_within_succ`.
-/

---- The Builder ----

namespace Pretty5gs.Proto.Fqdn

open Traced
open Reader (Stored readList)
open OctetBuffer (write)

/- The character between two labels. -/
def dot : U8 := 0x2e

/- The buffer with `i` and `j` of `ogs_fqdn_build`. -/
structure Building where
  data : Nat → U8
  i : Nat
  j : Nat

/- The length of a label in front of it. -/
def Building.close (base : Nat) (s : Building) : Nat → U8 :=
  write s.data (base + (s.i - s.j)) [BitVec.ofNat 8 s.j]

/- One round; behind a dot the increment takes `j` to zero. -/
def buildRound (base : Nat) (s : Building) (c : U8) : Building :=
  if c = dot then { data := s.close base, i := s.i + 1, j := 0 }
  else
    { data := write s.data (base + s.i + 1) [c]
      i := s.i + 1
      j := s.j + 1 }

/- `ogs_fqdn_build`, which returns one more than the length. -/
def ogsFqdnBuild (data : Nat → U8) (base : Nat) (name : List U8) : Nat → U8 :=
  (name.foldl (buildRound base) { data := data, i := 0, j := 0 }).close base

---- The Parser ----

/- `i`, and what has been written to `dst`. -/
structure Parsing where
  i : Nat
  name : List U8
deriving DecidableEq, Repr

/- A label has been copied; a dot if more than one octet is left. -/
def Parsing.after (s : Parsing) (length : Nat) (label : List U8) : Parsing :=
  { i := s.i + 1 + label.length
    name :=
      if s.i + 1 + label.length + 1 < length then s.name ++ label ++ [dot]
      else s.name ++ label }

/- One round of `ogs_fqdn_parse`; `j` is the length written. -/
def parseRound (memory : Nat → U8) (base length : Nat) (s : Parsing) :
    Traced Nat (Flow Parsing (Option (List U8))) :=
  if s.i + 1 ≤ length then do
    let len ← read memory (base + s.i)
    if length < s.name.length + len.toNat + 1 then return .done none
    else do
      let label ← readList memory (base + s.i + 1) len.toNat
      return .next (s.after length label)
  else return .done (some s.name)

/- `ogs_fqdn_parse`; no name stands for `-EINVAL`. -/
def ogsFqdnParse (memory : Nat → U8) (base length : Nat) : Traced Nat (Option (List U8)) := do
  let result ← loop (parseRound memory base length) (length + 1) { i := 0, name := [] }
  return result.join

section Rounds

variable (memory : Nat → U8) (base : Nat) {length : Nat} {s : Parsing}

theorem parseRound_end (hEnd : length ≤ s.i) :
    parseRound memory base length s = pure (.done (some s.name)) := by
  unfold parseRound
  rw [if_neg (by omega)]

/- A label that does not fit behind what has been written. -/
theorem parseRound_long (hLess : s.i < length)
    (hLong : length < s.name.length + (memory (base + s.i)).toNat + 1) :
    (parseRound memory base length s).value = .done none ∧
      ∀ P, (parseRound memory base length s).Within P ↔ P (base + s.i) := by
  unfold parseRound
  rw [if_pos (Nat.succ_le_of_lt hLess)]
  refine ⟨?_, fun P => ?_⟩
  · rw [value_bind, value_read, if_pos hLong]
    rfl
  · rw [within_bind, value_read, if_pos hLong]
    simp [Within]

/- A label that fits is read as it is stored. -/
theorem parseRound_label {memory : Nat → U8} {base : Nat} (hLess : s.i < length)
    (hLength : (memory (base + s.i)).toNat = label.length)
    (hStored : Stored memory (base + s.i + 1) label)
    (hRoom : s.name.length + label.length + 1 ≤ length) :
    (parseRound memory base length s).value = .next (s.after length label) ∧
      ∀ P, (parseRound memory base length s).Within P ↔ P (base + s.i) ∧
          ∀ k < label.length, P (base + s.i + 1 + k) := by
  unfold parseRound
  rw [if_pos (Nat.succ_le_of_lt hLess)]
  refine ⟨?_, fun P => ?_⟩
  · rw [value_bind, value_read, hLength, if_neg (by omega),
    value_bind, Reader.value_readList hStored]
    rfl
  · rw [within_bind, value_read, hLength, if_neg (by omega), within_bind, Reader.within_readList]
    simp [Within]

end Rounds

---- Names That Dangle ----

/- Labels, at least one, and behind them a length of one that is the last octet. -/
inductive Dangling : List U8 → Prop where
  | last (len : U8) (label : List U8) (hLength : len.toNat = label.length) :
      Dangling (len :: (label ++ [1]))
  | label (len : U8) (label rest : List U8) (hLength : len.toNat = label.length)
      (hRest : Dangling rest) :
      Dangling (len :: (label ++ rest))

theorem not_dangling_nil : ¬ Dangling [] := by
  intro hDangling
  cases hDangling

/- Behind its first label a name dangles or is a length of one. -/
theorem dangling_label_iff (hLength : len.toNat = label.length) :
    Dangling (len :: (label ++ rest)) ↔ rest = [1] ∨ Dangling rest := by
  constructor
  · intro hDangling
    generalize hWhole : len :: (label ++ rest) = whole at hDangling
    cases hDangling with
    | last other otherLabel hOther =>
      injection hWhole with hLen hTail
      rw [hLen] at hLength
      exact .inl (List.append_inj_right hTail (hLength.symm.trans hOther))
    | label other otherLabel otherRest hOther hRest =>
      injection hWhole with hLen hTail
      rw [hLen] at hLength
      have hSame := List.append_inj_right hTail (hLength.symm.trans hOther)
      exact .inr (hSame ▸ hRest)
  · rintro (rfl | hRest)
    · exact .last len label hLength
    · exact .label len label rest hLength hRest

/- A name that dangles has its first label. -/
theorem Dangling.length_le (hDangling : Dangling (len :: tail)) : len.toNat < tail.length := by
  generalize hWhole : len :: tail = whole at hDangling
  cases hDangling with
  | last other label hLength =>
    injection hWhole with hLen hTail
    rw [hLen, hTail, hLength, List.length_append]
    exact Nat.lt_succ_self _
  | label other label rest hLength hRest =>
    injection hWhole with hLen hTail
    have hPositive : 0 < rest.length := by
      cases rest with
      | nil => exact absurd hRest not_dangling_nil
      | cons first others => exact Nat.succ_pos _
    rw [hLen, hTail, List.length_append]
    omega

---- Where The Parser Reads ----

section Within

variable {memory : Nat → U8} {base length : Nat}

theorem exists_label {tail : List U8} (hRoom : count ≤ tail.length) :
    ∃ label back, tail = label ++ back ∧ count = label.length :=
  ⟨tail.take count, tail.drop count, (List.take_append_drop count tail).symm,
    (List.length_take_of_le hRoom).symm⟩

variable {rounds : Nat} {s : Parsing}

/- At the end nothing is read. -/
theorem within_end (hEnd : length ≤ s.i) :
    (loop (parseRound memory base length) rounds s).Within P := by
  cases rounds with
  | zero => exact within_pure
  | succ rounds =>
    have hRound := parseRound_end memory base hEnd
    rw [within_loop_done (by rw [hRound]; rfl), hRound]
    exact within_pure

/- One octet is left and what has been written is one octet less than what has been read. -/
theorem within_last (hLen : memory (base + s.i) = len) (hEnd : s.i + 1 = length)
    (hName : s.name.length + 1 = s.i) :
    (loop (parseRound memory base length) (rounds + 1) s).Within (· < base + length) ↔ len ≠ 1 := by
  by_cases hLong : 1 < len.toNat
  · -- The label does not fit.
    rcases parseRound_long memory base (show s.i < length by omega)
      (by rw [hLen]; omega) with ⟨hValue, hWithin⟩
    rw [within_loop_done hValue, hWithin]
    refine ⟨fun _ hOne => ?_, fun _ => by omega⟩
    rw [hOne] at hLong
    exact absurd hLong (by decide)
  · -- A label of one octet is the octet behind the name.
    rcases Reader.exists_stored memory (base + s.i + 1) len.toNat with ⟨label, hStored, hLength⟩
    rcases parseRound_label (show s.i < length by omega)
      (hLen.symm ▸ hLength.symm) hStored (by omega) with ⟨hValue, hWithin⟩
    rw [within_loop_next hValue, hWithin, and_iff_left (within_end
      (show length ≤ s.i + 1 + label.length by omega)),
      and_iff_right (show base + s.i < base + length by omega), hLength]
    constructor
    · intro hAll hOne
      have hPlace := hAll 0 (by rw [hOne]; decide)
      omega
    · intro hOther k hLess
      have hZero : len.toNat ≠ 1 := fun hOne => hOther (BitVec.eq_of_toNat_eq hOne)
      omega

/- Behind a label that leaves one octet or none. -/
theorem within_after_last (hBack : Stored memory (base + s.i + 1 + label.length) back)
    (hEnd : s.i + 1 + label.length + back.length = length) (hName : s.name.length = s.i)
    (hShort : back.length ≤ 1) (hRounds : back.length < rounds) :
    (loop (parseRound memory base length) rounds
        (s.after length label)).Within (· < base + length) ↔ ¬ (back = [1] ∨ Dangling back) := by
  have hAfter : s.after length label =
    { i := s.i + 1 + label.length
      name := s.name ++ label } := by
    unfold Parsing.after
    rw [if_neg (by omega)]
  rw [hAfter]
  cases back with
  | nil =>
    refine iff_of_true (within_end (Nat.le_of_eq hEnd.symm)) ?_
    rintro (hOne | hDangling)
    · cases hOne
    · exact not_dangling_nil hDangling
  | cons len others =>
    cases others with
    | cons second more => exact absurd hShort (by simp)
    | nil =>
      rcases Nat.exists_eq_succ_of_ne_zero (Nat.ne_zero_of_lt hRounds) with ⟨fewer, rfl⟩
      have hPlace : memory (base + (s.i + 1 + label.length)) = len := by
        rw [← Nat.add_assoc]
        exact hBack.1
      have hWritten : (s.name ++ label).length + 1 = s.i + 1 + label.length := by
        rw [List.length_append]
        omega
      rw [within_last hPlace hEnd hWritten]
      have hNone : ¬ Dangling [len] := fun hDangling => Nat.not_lt_zero _ hDangling.length_le
      rw [or_iff_left hNone, List.cons.injEq, and_iff_left rfl]

/- By induction on the rounds: one label a round. -/
theorem within_labels (hStored : Stored memory (base + s.i) rest)
    (hEnd : s.i + rest.length = length) (hName : s.name.length = s.i)
    (hRounds : rest.length < rounds) :
    (loop (parseRound memory base length) rounds s).Within (· < base + length) ↔
      ¬ Dangling rest := by
  induction rounds generalizing s rest with
  | zero => exact absurd hRounds (Nat.not_lt_zero _)
  | succ rounds ih =>
    cases rest with
    | nil => exact iff_of_true (within_end (Nat.le_of_eq hEnd.symm)) not_dangling_nil
    | cons len tail =>
      rw [List.length_cons] at hEnd hRounds
      rcases hStored with ⟨hLen, hTail⟩
      have hLess : s.i < length := by omega
      by_cases hLong : tail.length < len.toNat
      · rcases parseRound_long memory base hLess (by rw [hLen]; omega) with ⟨hValue, hWithin⟩
        rw [within_loop_done hValue, hWithin]
        refine iff_of_true (by omega) fun hDangling => ?_
        have hLabel := hDangling.length_le
        omega
      · -- Split what is left behind the length at the label's end.
        rcases exists_label (Nat.le_of_not_lt hLong) with ⟨label, back, hSplit, hLength⟩
        rw [hSplit, List.length_append] at hEnd hRounds
        rw [hSplit] at hTail ⊢
        rcases Reader.stored_append.mp hTail with ⟨hLabel, hBack⟩
        rcases parseRound_label hLess (hLen.symm ▸ hLength) hLabel (by omega) with ⟨hValue, hWithin⟩
        have hFirst : base + s.i < base + length ∧ ∀ k < label.length,
                base + s.i + 1 + k < base + length := ⟨by omega, fun k hBound => by omega⟩
        rw [within_loop_next hValue, hWithin, and_iff_right hFirst, dangling_label_iff hLength]
        by_cases hMore : 1 < back.length
        · have hAfter : s.after length label =
                { i := s.i + 1 + label.length
                  name := s.name ++ label ++ [dot] } := by
            unfold Parsing.after
            rw [if_pos (by omega)]
          have hNone : back ≠ [1] := by
            rintro rfl
            exact absurd hMore (by decide)
          rw [or_iff_right hNone, hAfter]
          refine ih ?_ (show s.i + 1 + label.length + back.length = length by omega) ?_ (by omega)
          · rw [← Nat.add_assoc]
            exact hBack
          · rw [List.length_append, List.length_append]
            simp only [List.length_cons, List.length_nil]
            omega
        · exact within_after_last hBack (by omega) hName (Nat.le_of_not_lt hMore) (by omega)

/- The parser leaves a name if and only if the name dangles. -/
theorem ogsFqdnParse_within_iff (hStored : Stored memory base name) :
    (ogsFqdnParse memory base name.length).Within (· < base + name.length) ↔ ¬ Dangling name := by
  have hStart : Stored memory (base + 0) name := hStored
  have hLabels : (loop (parseRound memory base name.length)
    (name.length + 1) { i := 0, name := [] }).Within (· < base + name.length) ↔
    ¬ Dangling name := within_labels hStart (Nat.zero_add _) rfl (Nat.lt_succ_self _)
  rw [← hLabels]
  unfold ogsFqdnParse
  rw [within_bind, and_iff_left within_pure]

/- What is written lags by one octet where one octet is left. -/
def Parsing.InStep (length : Nat) (s : Parsing) : Prop := s.i = s.name.length ∨
    (s.i = s.name.length + 1 ∧ length ≤ s.i + 1) ∨ length ≤ s.i

theorem Parsing.InStep.after (hStep : s.InStep length) (hLess : s.i < length) :
    (s.after length label).InStep length := by
  unfold Parsing.InStep Parsing.after at *
  dsimp only
  split
  · rw [List.length_append, List.length_append]
    simp only [List.length_cons, List.length_nil]
    omega
  · rw [List.length_append]
    omega

/- It never leaves a name by more than one octet. -/
theorem ogsFqdnParse_within_succ :
    (ogsFqdnParse memory base length).Within (· < base + length + 1) := by
  have hBody (s : Parsing) (hInv : s.InStep length) : Meets (· < base + length + 1)
    (parseRound memory base length s) (Flow.Ends (fun s' =>
      s'.InStep length ∧ length - s'.i < length - s.i)
      (fun _ => True)) := by
    by_cases hLess : s.i < length
    · rcases Reader.exists_stored memory (base + s.i + 1) (memory (base + s.i)).toNat with
      ⟨label, hStored, hLength⟩
      by_cases hLong : length < s.name.length + (memory (base + s.i)).toNat + 1
      · rcases parseRound_long memory base hLess hLong with ⟨hValue, hWithin⟩
        refine ⟨(hWithin _).mpr (by omega), ?_⟩
        rw [hValue]
        trivial
      · rcases parseRound_label hLess hLength.symm hStored (by omega) with ⟨hValue, hWithin⟩
        refine ⟨(hWithin _).mpr ⟨by omega, fun k hBound => ?_⟩, ?_⟩
        · unfold Parsing.InStep at hInv
          omega
        · rw [hValue]
          show (s.after length label).InStep length ∧
            length - (s.i + 1 + label.length) < length - s.i
          exact ⟨hInv.after hLess, by omega⟩
    · rw [parseRound_end memory base (Nat.le_of_not_lt hLess)]
      exact .pure trivial
  have hStart : ({ i := 0, name := [] } : Parsing).InStep length := .inl rfl
  have hLoop := Meets.loop hBody hStart (Nat.lt_succ_self length)
  exact within_bind.mpr ⟨hLoop.1, within_pure⟩

end Within

end Pretty5gs.Proto.Fqdn
