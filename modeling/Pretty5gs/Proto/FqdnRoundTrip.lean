import Pretty5gs.Proto.Fqdn

/-
  Names that are parsed as they were built.

  Main results: `Fqdn.stored_ogsFqdnBuild`, `Fqdn.value_ogsFqdnParse`, `Fqdn.fqdn_coding_iff`.
-/

---- Labels Of A Name ----

namespace Pretty5gs.Proto.Fqdn

open List OctetBuffer Traced
open Reader (Stored stored_append)

def encodeLabel (label : List U8) : List U8 := BitVec.ofNat 8 label.length :: label

/- The labels of a name, each with its length in front. -/
def encodeName (name : List U8) : List U8 := (name.splitOn dot).flatMap encodeLabel

/- The labels of a name, with a front for the first of them. -/
def labelsBehind (front name : List U8) : List (List U8) :=
  (name.splitOn dot).modifyHead (front ++ ·)

theorem labelsBehind_nil : labelsBehind [] name = name.splitOn dot := congrFun modifyHead_id _

theorem labelsBehind_end : labelsBehind front [] = [front] := by
  unfold labelsBehind
  rw [splitOn_nil, modifyHead_cons, append_nil]

theorem labelsBehind_dot : labelsBehind front (dot :: name) = front :: labelsBehind [] name := by
  rw [labelsBehind_nil]
  unfold labelsBehind
  rw [splitOn_cons_eq_if_modifyHead, if_pos (beq_self_eq_true _), modifyHead_cons, append_nil]

theorem labelsBehind_cons (hOther : c ≠ dot) :
    labelsBehind front (c :: name) = labelsBehind (front ++ [c]) name := by
  unfold labelsBehind
  rw [splitOn_cons_eq_if_modifyHead, if_neg (by rwa [beq_iff_eq]), modifyHead_modifyHead]
  congr 1
  funext label
  exact (append_assoc front [c] label).symm

/- By induction on the name, one character at a time. -/
theorem length_flatMap_labelsBehind (front name : List U8) :
    ((labelsBehind front name).flatMap encodeLabel).length = front.length + name.length + 1 := by
  induction name generalizing front with
  | nil =>
    rw [labelsBehind_end, flatMap_singleton]
    rfl
  | cons c name ih =>
    by_cases hDot : c = dot
    · rw [hDot, labelsBehind_dot, flatMap_cons, length_append, ih]
      unfold encodeLabel
      simp only [length_cons, length_nil]
      omega
    · rw [labelsBehind_cons hDot, ih, length_append]
      simp only [length_cons, length_nil]
      omega

/- Every label has its length in front. -/
theorem length_le_flatMap (labels : List (List U8)) :
    labels.length ≤ (labels.flatMap encodeLabel).length := by
  rw [length_flatMap]
  have hSum := length_le_sum_of_one_le (labels.map (fun label => (encodeLabel label).length)) (by
      intro count hMem
      rcases mem_map.mp hMem with ⟨label, _, rfl⟩
      exact Nat.le_add_left 1 label.length)
  rwa [length_map] at hSum

theorem length_encodeName (name : List U8) : (encodeName name).length = name.length + 1 := by
  have hLength := length_flatMap_labelsBehind [] name
  rw [labelsBehind_nil, length_nil, Nat.zero_add] at hLength
  exact hLength

theorem length_label_le {name label : List U8} (hLabel : label ∈ name.splitOn dot) :
    label.length ≤ name.length := by
  have hSub := sublist_flatten_of_mem (mem_map_of_mem (f := encodeLabel) hLabel)
  have hLength := hSub.length_le
  rw [← flatMap_def] at hLength
  have hName := length_encodeName name
  unfold encodeName at hName
  rw [hName] at hLength
  exact Nat.le_of_succ_le_succ hLength

---- What Is Built ----

/-
  What is complete is stored from the start of the buffer, and the current label one place behind
  it.
-/
structure Built (base : Nat) (s : Building) (front cur : List U8) : Prop where
  stored : Stored s.data 0 front
  label : Stored s.data (front.length + 1) cur
  length : cur.length = s.j
  start : base ≤ front.length
  offset : front.length + s.j = base + s.i

namespace Built

variable {base : Nat} {s : Building} {front cur : List U8}

/- The length is written in front of the label. -/
theorem stored_close (hBuilt : Built base s front cur) :
    Stored (s.close base) 0 (front ++ encodeLabel cur) := by
  have hStart := hBuilt.start
  have hOffset := hBuilt.offset
  have hPlace : base + (s.i - s.j) = front.length := by omega
  unfold Building.close
  rw [hPlace, ← hBuilt.length]
  refine stored_append.mpr ⟨stored_write_of_le hBuilt.stored (by omega), ?_⟩
  rw [Nat.zero_add]
  have hLength := stored_write s.data front.length [BitVec.ofNat 8 cur.length]
  exact ⟨hLength.1, stored_write_of_ge hBuilt.label (Nat.le_refl _)⟩

theorem dot (hBuilt : Built base s front cur) :
    Built base (buildRound base s Fqdn.dot) (front ++ encodeLabel cur) [] := by
  have hStart := hBuilt.start
  have hOffset := hBuilt.offset
  have hLength := hBuilt.length
  unfold buildRound
  rw [if_pos rfl]
  refine ⟨hBuilt.stored_close, trivial, rfl, ?_, ?_⟩
  · rw [length_append]
    omega
  · rw [length_append]
    unfold encodeLabel
    rw [length_cons]
    dsimp only
    omega

theorem char (hOther : c ≠ Fqdn.dot) (hBuilt : Built base s front cur) :
    Built base (buildRound base s c) front (cur ++ [c]) := by
  have hStart := hBuilt.start
  have hOffset := hBuilt.offset
  have hLength := hBuilt.length
  unfold buildRound
  rw [if_neg hOther]
  refine ⟨stored_write_of_le hBuilt.stored (by omega), ?_, ?_, hStart, ?_⟩
  · have hPlace : base + s.i + 1 = front.length + 1 + cur.length := by omega
    rw [hPlace]
    exact stored_append.mpr ⟨stored_write_of_le hBuilt.label (Nat.le_refl _), stored_write _ _ _⟩
  · rw [length_append, hLength]
    rfl
  · dsimp only
    omega

/- By induction on what is left of the name. -/
theorem foldl (name : List U8) (hBuilt : Built base s front cur) :
    Stored ((name.foldl (buildRound base) s).close base) 0
      (front ++ (labelsBehind cur name).flatMap encodeLabel) := by
  induction name generalizing s front cur with
  | nil =>
    rw [labelsBehind_end, flatMap_singleton]
    exact hBuilt.stored_close
  | cons c name ih =>
    by_cases hDot : c = Fqdn.dot
    · rw [hDot, labelsBehind_dot, flatMap_cons, ← append_assoc]
      exact ih hBuilt.dot
    · rw [labelsBehind_cons hDot]
      exact ih (hBuilt.char hDot)

end Built

/- The labels are written behind what is there. -/
theorem stored_ogsFqdnBuild (hStored : Stored data 0 front) (name : List U8) :
    Stored (ogsFqdnBuild data front.length name) 0 (front ++ encodeName name) := by
  have hStart : Built front.length { data := data, i := 0, j := 0 } front [] :=
    ⟨hStored, trivial, rfl, Nat.le_refl _, rfl⟩
  have hBuilt := hStart.foldl name
  rwa [labelsBehind_nil] at hBuilt

---- What Is Parsed Back ----

section Parse

open Traced

variable {memory : Nat → U8} {base length : Nat}

/- A label of a name that can be parsed back. -/
def LabelFits (label : List U8) : Prop := label ≠ [] ∧ label.length < 2 ^ 8

theorem toNat_length (hFits : LabelFits label) :
    (BitVec.ofNat 8 label.length).toNat = label.length := Nat.mod_eq_of_lt hFits.2

/- A label is parsed, and what follows is still there. -/
theorem value_round_label (hFits : LabelFits label)
    (hStored : Stored memory (base + s.i) (encodeLabel label ++ rest))
    (hEnd : s.i + (encodeLabel label ++ rest).length = length) (hName : s.name.length = s.i) :
    (parseRound memory base length s).value = .next (s.after length label) ∧
      Stored memory (base + (s.i + 1 + label.length)) rest ∧
      s.i + 1 + label.length + rest.length = length := by
  rcases hStored with ⟨hLength, hBehind⟩
  rcases stored_append.mp hBehind with ⟨hLabel, hRest⟩
  have hSum : s.i + 1 + label.length + rest.length = length := by
    rw [← hEnd, length_append]
    unfold encodeLabel
    rw [length_cons]
    omega
  rw [← toNat_length hFits, ← hLength] at hSum
  refine ⟨?_, ?_, ?_⟩
  · refine (parseRound_label (by omega) ?_ hLabel ?_).1
    · rw [hLength]
      exact toNat_length hFits
    · rw [← toNat_length hFits, ← hLength]
      omega
  · rw [← Nat.add_assoc]
    exact hRest
  · rw [← toNat_length hFits, ← hLength]
    exact hSum

/- By induction on the labels: one round for each of them. -/
theorem value_loop_labels (hFits : ∀ other ∈ label :: labels, LabelFits other)
    (hStored : Stored memory (base + s.i) ((label :: labels).flatMap encodeLabel))
    (hEnd : s.i + ((label :: labels).flatMap encodeLabel).length = length)
    (hName : s.name.length = s.i) (hRounds : labels.length ≤ rounds) :
    (loop (parseRound memory base length) (rounds + 2) s).value = some (some
        (s.name ++ [dot].intercalate (label :: labels))) := by
  induction labels generalizing s label rounds with
  | nil =>
    rw [flatMap_cons] at hStored hEnd
    rcases value_round_label (hFits label mem_cons_self) hStored hEnd hName with ⟨hValue, _, hSum⟩
    rw [flatMap_nil, length_nil] at hSum
    have hLast := parseRound_end memory base (show length ≤ (s.after length label).i from
      Nat.le_of_eq hSum.symm)
    have hAfter : (s.after length label).name = s.name ++ label := by
      unfold Parsing.after
      rw [if_neg (by omega)]
    rw [value_loop_next hValue, intercalate_singleton, ← hAfter]
    exact value_loop_done (by rw [hLast]; rfl)
  | cons second labels ih =>
    rw [flatMap_cons] at hStored hEnd
    rcases value_round_label (hFits label mem_cons_self)
      hStored hEnd hName with ⟨hValue, hRest, hSum⟩
    -- A label that follows has its length and a character.
    have hSecond : 0 < second.length := length_pos_iff.mpr
      (hFits second (mem_cons_of_mem _ mem_cons_self)).1
    have hMore : 1 < ((second :: labels).flatMap encodeLabel).length := by
      rw [flatMap_cons, length_append]
      unfold encodeLabel
      rw [length_cons]
      omega
    have hAfter : s.after length label =
      { i := s.i + 1 + label.length
        name := s.name ++ label ++ [dot] } := by
      unfold Parsing.after
      rw [if_pos (by omega)]
    rcases Nat.exists_eq_succ_of_ne_zero (Nat.ne_zero_of_lt hRounds) with ⟨fewer, rfl⟩
    rw [value_loop_next hValue, hAfter, intercalate_cons_cons, ← append_assoc, ← append_assoc]
    refine ih (fun other hMem =>
      hFits other (mem_cons_of_mem _ hMem)) hRest hSum ?_
      (Nat.le_of_succ_le_succ hRounds)
    rw [length_append, length_append]
    simp only [length_cons, length_nil]
    omega

/- A name whose labels fit is parsed as it was built. -/
theorem value_ogsFqdnParse (hFits : ∀ label ∈ name.splitOn dot, LabelFits label)
    (hStored : Stored memory base (encodeName name)) :
    (ogsFqdnParse memory base (name.length + 1)).value = some name := by
  have hWhole := length_encodeName name
  have hBack : [dot].intercalate (name.splitOn dot) = name := intercalate_splitOn dot
  unfold encodeName at hStored hWhole
  cases hSplit : name.splitOn dot with
  | nil => exact absurd hSplit (splitOn_ne_nil dot name)
  | cons label labels =>
    rw [hSplit] at hFits hStored hWhole hBack
    have hCount := length_le_flatMap (label :: labels)
    rw [length_cons] at hCount
    have hLoop := value_loop_labels (s := { i := 0, name := [] })
      hFits hStored ((Nat.zero_add _).trans hWhole) rfl (show labels.length ≤ name.length by omega)
    unfold ogsFqdnParse
    rw [value_bind, hLoop, hBack]
    rfl

end Parse

---- Where The Parser Writes ----

open Traced (Flow)

/- One round with the destination: a label, and a dot or a zero. -/
def copyRound (memory : Nat → U8) (base length : Nat) (s : Parsing × (Nat → U8)) :
    Traced Nat (Flow (Parsing × (Nat → U8)) (Option (List U8) × (Nat → U8))) := do
  match ← parseRound memory base length s.1 with
  | .next s' =>
      let behind := if s'.i + 1 < length then [] else [0]
      let items := s'.name.drop s.1.name.length ++ behind
      return .next (s', write s.2 s.1.name.length items)
  | .done result => return .done (result, s.2)

/- `ogs_fqdn_parse` with what it leaves in `dst`. -/
def ogsFqdnParseInto (memory : Nat → U8) (base length : Nat) (dst : Nat → U8) :
    Traced Nat (Option (Option (List U8) × (Nat → U8))) :=
  loop (copyRound memory base length) (length + 1) ({ i := 0, name := [] }, dst)

section Copy

open Traced

variable (memory : Nat → U8) (base length : Nat)

/- By induction on the rounds: the destination is not read. -/
theorem loop_copyRound (rounds : Nat) (s : Parsing) (dst : Nat → U8) :
    let copied := loop (copyRound memory base length) rounds (s, dst)
    let parsed := loop (parseRound memory base length) rounds s
    copied.reads = parsed.reads ∧ copied.value.map Prod.fst = parsed.value := by
  induction rounds generalizing s dst with
  | zero => exact ⟨rfl, rfl⟩
  | succ rounds ih =>
    cases hRound : (parseRound memory base length s).value with
    | next s' =>
      have hCopy : ∃ dst', copyRound memory base length (s, dst) =
          { reads := (parseRound memory base length s).reads, value := .next (s', dst') } := by
        simp [copyRound, bind, hRound, pure]
      rcases hCopy with ⟨dst', hCopy⟩
      rcases ih s' dst' with ⟨hReads, hValue⟩
      simp [loop, hCopy, hRound, hReads, hValue]
    | done result =>
      have hCopy : copyRound memory base length (s, dst) =
          { reads := (parseRound memory base length s).reads, value := .done (result, dst) } := by
        simp [copyRound, bind, hRound, pure]
      simp [loop, hCopy, hRound]

/- What the destination holds; from `length` on it is as before. -/
structure Copied (before : Nat → U8) (s : Parsing × (Nat → U8)) : Prop where
  frame : ∀ k, length ≤ k → s.2 k = before k
  stored : Stored s.2 0 (s.1.name ++ if s.1.i = 0 ∨ s.1.i + 1 < length then [] else [0])

variable {memory base length}

theorem Copied.next
    (hCopied : Copied length before (s, dst)) (hRoom : s.name.length + label.length + 1 ≤ length) :
    let s' := s.after length label
    let items := s'.name.drop s.name.length ++ if s'.i + 1 < length then [] else [0]
    Copied length before (s', write dst s.name.length items) := by
  intro s' items
  have hItems : items.length = label.length + 1 ∧ s.name ++ items =
      s'.name ++ if s'.i = 0 ∨ s'.i + 1 < length then [] else [0] := by
    by_cases hDot : s.i + 1 + label.length + 1 < length
    · simp [items, s', Parsing.after, hDot]
    · simp [items, s', Parsing.after, hDot]
  constructor
  · intro k hBehind
    exact (write_of_ge (by omega)).trans (hCopied.frame k hBehind)
  · rw [← hItems.2]
    exact stored_append_write (stored_append.mp hCopied.stored).1

/- The result with the destination, as the parser returns it. -/
theorem ogsFqdnParseInto_meets :
    ∃ out, (ogsFqdnParseInto memory base length before).value = some out ∧
      (∀ k, length ≤ k → out.2 k = before k) ∧
      ∀ name, out.1 = some name → 0 < length → Stored out.2 0 (name ++ [0]) := by
  have hBody (s : Parsing × (Nat → U8)) (hCopied : Copied length before s) :
      Meets (fun _ => True) (copyRound memory base length s) (Flow.Ends
        (fun s' => Copied length before s' ∧ length - s'.1.i < length - s.1.i)
        (fun out => (∀ k, length ≤ k → out.2 k = before k) ∧
          ∀ name, out.1 = some name → 0 < length → Stored out.2 0 (name ++ [0]))) := by
    refine ⟨fun _ _ => trivial, ?_⟩
    unfold copyRound
    rw [value_bind]
    by_cases hLess : s.1.i < length
    · rcases Reader.exists_stored memory (base + s.1.i + 1) (memory (base + s.1.i)).toNat with
        ⟨label, hStored, hLength⟩
      by_cases hLong : length < s.1.name.length + (memory (base + s.1.i)).toNat + 1
      · rw [(parseRound_long memory base hLess hLong).1]
        exact ⟨hCopied.frame, fun name hName => by cases hName⟩
      · rw [(parseRound_label hLess hLength.symm hStored (by omega)).1]
        refine ⟨hCopied.next (by omega), ?_⟩
        show length - (s.1.i + 1 + label.length) < length - s.1.i
        omega
    · rw [parseRound_end memory base (Nat.le_of_not_lt hLess)]
      refine ⟨hCopied.frame, ?_⟩
      intro name hName hPositive
      have hStored := hCopied.stored
      rw [if_neg (by omega)] at hStored
      cases hName
      exact hStored
  have hStart : Copied length before ({ i := 0, name := [] }, before) := ⟨fun _ _ => rfl, trivial⟩
  exact (Meets.loop hBody hStart (Nat.lt_succ_self _)).2

theorem ogsFqdnParseInto_parse :
    (ogsFqdnParseInto memory base length dst).reads = (ogsFqdnParse memory base length).reads ∧
      ∀ out, (ogsFqdnParseInto memory base length dst).value = some out →
        (ogsFqdnParse memory base length).value = out.1 := by
  rcases loop_copyRound memory base length (length + 1) { i := 0, name := [] } dst with
    ⟨hReads, hValue⟩
  unfold ogsFqdnParseInto ogsFqdnParse
  refine ⟨by simp [hReads], ?_⟩
  intro out hOut
  rw [hOut] at hValue
  simp [← hValue]

end Copy

/-
  A name of labels with 1 to 255 characters is parsed as it was built. What is parsed is read up to
  its end if and only if it does not dangle, and as many octets are written at most.
-/
theorem fqdn_coding_iff (name octets : List U8) (data memory dst : Nat → U8) :
    ((∀ label ∈ name.splitOn dot, label ≠ [] ∧ label.length ≤ 255) →
      ∃ dst', (ogsFqdnParseInto (ogsFqdnBuild data 0 name) 0 (name.length + 1) dst).value =
          some (some name, dst') ∧ Stored dst' 0 (name ++ [0])) ∧ (Stored memory 0 octets →
      ∃ result dst', (ogsFqdnParseInto memory 0 octets.length dst).value = some (result, dst') ∧
        (∀ k, octets.length ≤ k → dst' k = dst k) ∧
        ((ogsFqdnParseInto memory 0 octets.length dst).Within (· < octets.length) ↔
          ¬ Dangling octets)) := by
  constructor
  · intro hLabels
    have hStored := stored_ogsFqdnBuild (Reader.stored_nil data 0) name
    have hParse := value_ogsFqdnParse (fun label hMem =>
      ⟨(hLabels label hMem).1, Nat.lt_succ_of_le (hLabels label hMem).2⟩) hStored
    rcases ogsFqdnParseInto_meets with ⟨⟨result, dst'⟩, hOut, _, hName⟩
    have hResult := (ogsFqdnParseInto_parse.2 _ hOut).symm.trans hParse
    cases hResult
    exact ⟨dst', hOut, hName name rfl (Nat.succ_pos _)⟩
  · intro hStored
    rcases ogsFqdnParseInto_meets with ⟨⟨result, dst'⟩, hOut, hFrame, _⟩
    refine ⟨result, dst', hOut, hFrame, ?_⟩
    have hWithin := ogsFqdnParse_within_iff hStored
    rw [Nat.zero_add] at hWithin
    rw [← hWithin]
    unfold Within
    rw [ogsFqdnParseInto_parse.1]

theorem fqdn_coding_iff_internet :
    ∃ dst', (ogsFqdnParseInto (ogsFqdnBuild (fun _ => 0) 0 [0x61, dot, 0x62, 0x63]) 0 5
        (fun _ => 0)).value = some (some [0x61, dot, 0x62, 0x63], dst') ∧
      Stored dst' 0 [0x61, dot, 0x62, 0x63, 0] :=
  (fqdn_coding_iff [0x61, dot, 0x62, 0x63] [] _ (fun _ => 0) _).1 (by decide)

/- The label `a`, and behind it a length of one as the last octet. -/
theorem dangling_length_reads_behind :
    3 ∈ (ogsFqdnParseInto (fun i => [1, 0x61, 1].getD i 0) 0 3 (fun _ => 0)).reads := by
  decide

end Pretty5gs.Proto.Fqdn
