import Pretty5gs.Nas.QosRules

/-
  Where the parser of QoS rules reads.

  The packet filters of a rule are checked against the length that the rule declares. A declared
  length behind the end of the rules lets the filters be read there.

  Main results: `parsePacketFilters_tracks`, `parseRule_within_iff`, `qos_rules_read_within_iff`.
-/

---- Packet Filters Under Two Limits ----

namespace Pretty5gs.Nas

open Reader Tracks

variable {memory : Nat → U8} {bound limit : Nat}

theorem noRoom_injective : Function.Injective QosReject.noRoom := by
  intro a b hSame
  exact QosReject.noRoom.inj hSame

theorem fieldSizes_pos {type : ComponentType} : ∀ size ∈ type.fieldSizes, 0 < size := by
  cases type <;> decide

theorem takeContent_tracks (hLimit : bound ≤ limit) (hCount : 0 < count) :
    Tracks bound limit .noRoom (takeContent memory contentEnd limit count)
      (takeContent memory contentEnd bound count) := by
  refine position.bind fun pos => ite ?_ ?_
  · intro _
    exact reject (by simp)
  · intro _
    exact take hCount hLimit noRoom_injective

theorem parseFields_tracks (hLimit : bound ≤ limit) {contentEnd : Nat} {sizes : List Nat}
    (hSizes : ∀ size ∈ sizes, 0 < size) :
    Tracks bound limit .noRoom (parseFields memory contentEnd limit sizes)
      (parseFields memory contentEnd bound sizes) := by
  induction sizes with
  | nil => exact pure
  | cons size sizes ih =>
    have hSize := hSizes size List.mem_cons_self
    refine (takeContent_tracks hLimit hSize).bind ?_
    intro field
    refine bind (ih ?_) fun fields => pure
    intro other hOther
    exact hSizes other (List.mem_cons_of_mem _ hOther)

theorem parseComponent_tracks (hLimit : bound ≤ limit) :
    Tracks bound limit .noRoom (parseComponent memory contentEnd limit)
      (parseComponent memory contentEnd bound) := by
  refine (takeContent_tracks hLimit Nat.one_pos).bind fun octet => ?_
  cases ComponentType.ofCode octet.head with
  | none => exact reject (by simp)
  | some type => exact (parseFields_tracks hLimit fieldSizes_pos).bind fun fields => pure

theorem parseComponents_tracks (hLimit : bound ≤ limit) :
    Tracks bound limit .noRoom (parseComponents memory contentEnd limit left)
      (parseComponents memory contentEnd bound left) := by
  induction left with
  | zero =>
    refine position.bind fun pos => ite ?_ ?_
    · exact fun _ => pure
    · exact fun _ => reject (by simp)
  | succ left ih =>
    refine position.bind fun pos => ite ?_ ?_
    · exact fun _ => pure
    · intro _
      refine (parseComponent_tracks hLimit).bind ?_
      exact fun component => ih.bind fun rest => pure

theorem takeList_tracks (hLimit : bound ≤ limit) :
    Tracks bound limit .noRoom (take memory QosReject.noRoom limit 1)
      (take memory QosReject.noRoom bound 1) := take Nat.one_pos hLimit noRoom_injective

theorem parseContent_tracks (hLimit : bound ≤ limit) :
    Tracks bound limit .noRoom (parseContent memory limit flags)
      (parseContent memory bound flags) := by
  refine (takeList_tracks hLimit).bind fun length => ite ?_ ?_
  · exact fun _ => reject (by simp)
  · intro _
    refine position.bind fun pos => ?_
    exact (parseComponents_tracks hLimit).bind fun components => pure

theorem parsePacketFilter_tracks (hLimit : bound ≤ limit) :
    Tracks bound limit .noRoom (parsePacketFilter memory code limit)
      (parsePacketFilter memory code bound) := by
  refine (takeList_tracks hLimit).bind fun flags => ite ?_ ?_
  · exact fun _ => pure
  · exact fun _ => parseContent_tracks hLimit

theorem parseFilterLoop_tracks (hLimit : bound ≤ limit) :
    Tracks bound limit .noRoom (parseFilterLoop memory code limit count)
      (parseFilterLoop memory code bound count) := by
  induction count with
  | zero => exact pure
  | succ count ih =>
    refine (parsePacketFilter_tracks hLimit).bind ?_
    exact fun filter => ih.bind fun rest => pure

theorem parsePacketFilters_tracks (memory : Nat → U8) (hLimit : bound ≤ limit)
    (code : OperationCode) (count : Nat) :
    Tracks bound limit .noRoom (parsePacketFilters memory code limit count)
      (parsePacketFilters memory code bound count) := by
  refine ite ?_ ?_
  · exact fun _ => reject (by simp)
  · exact fun _ => parseFilterLoop_tracks hLimit

---- One Rule ----

variable {length : Nat}

theorem parseHeader_within : ((parseHeader memory length).run pos).Within (· < length) := by
  refine within_bind.mpr ⟨within_take, ?_⟩
  intro identifier second _
  refine within_bind.mpr ⟨within_take, ?_⟩
  intro octets third _
  dsimp only
  split
  · exact within_reject
  · refine within_bind.mpr ⟨within_take, ?_⟩
    intro flags fourth _
    dsimp only
    split
    · exact within_reject
    · split
      · exact within_reject
      · exact within_pure

variable {header : RuleHeader}

theorem parseHeader_eq_ok
    (hValue : ((parseHeader memory length).run pos).value = .ok (header, start)) :
    start = pos + 4 ∧ start ≤ length := by
  rcases value_bind_eq_ok hValue with ⟨identifier, second, hIdentifier, hRest⟩
  rcases value_bind_eq_ok hRest with ⟨octets, third, hOctets, hRest⟩
  have hSecond := value_take_eq_ok hIdentifier
  have hThird := value_take_eq_ok hOctets
  dsimp only at hRest
  split at hRest
  · cases hRest
  · rcases value_bind_eq_ok hRest with ⟨flags, fourth, hFlags, hRest⟩
    have hFourth := value_take_eq_ok hFlags
    dsimp only at hRest
    split at hRest
    · cases hRest
    · split at hRest
      · cases hRest
      · cases hRest
        omega

theorem parseFlow_within :
    ((parseFlow memory length code present).run pos).Within (· < length) := by
  unfold parseFlow
  split
  · refine within_bind.mpr ⟨within_take, ?_⟩
    intro flow next _
    split
    · exact within_reject
    · exact within_pure
  · split
    · exact within_reject
    · exact within_pure

theorem parseTrailer_within {code : OperationCode} {octets pos : Nat} :
    ((parseTrailer memory length code octets).run pos).Within (· < length) := by
  unfold parseTrailer
  split
  · split
    · exact within_reject
    · exact within_pure
  · refine within_bind.mpr ⟨within_take, ?_⟩
    intro precedence next _
    split
    · exact within_reject
    · refine within_bind.mpr ⟨parseFlow_within, ?_⟩
      intro flow last _
      exact within_pure

theorem parseFlow_eq_ok
    (hValue : ((parseFlow memory length code present).run pos).value = .ok (flow, next)) :
    next = pos + present.toNat ∧ (present → next ≤ length) := by
  unfold parseFlow at hValue
  split at hValue
  · next hPresent =>
    rcases value_bind_eq_ok hValue with ⟨octet, last, hOctet, hRest⟩
    have hLast := value_take_eq_ok hOctet
    split at hRest
    · cases hRest
    · cases hRest
      simp only [hPresent, Bool.toNat_true]
      omega
  · next hAbsent =>
    split at hValue
    · cases hValue
    · cases hValue
      simp [hAbsent]

/- The position behind the trailer of a rule. -/
theorem parseTrailer_eq_ok {octets pos next : Nat} (hOctets : octets ≤ 2)
    (hValue : ((parseTrailer memory length code octets).run pos).value = .ok (trailer, next)) :
    next = pos + octets ∧ (0 < octets → next ≤ length) := by
  unfold parseTrailer at hValue
  split at hValue
  · next hNone =>
    split at hValue
    · cases hValue
    · cases hValue
      omega
  · next hSome =>
    rcases value_bind_eq_ok hValue with ⟨precedence, second, hPrecedence, hRest⟩
    have hSecond := value_take_eq_ok hPrecedence
    split at hRest
    · cases hRest
    · rcases value_bind_eq_ok hRest with ⟨flow, third, hFlow, hRest⟩
      have hThird := parseFlow_eq_ok hFlow
      cases hRest
      by_cases hTwo : octets = 2
      · simp [hTwo] at hThird
        omega
      · simp [hTwo] at hThird
        omega

/-
  A rule that declares a length behind the rules: its packet filters, checked against the octets
  that are there, do not ask for more that the declared length still covers.
-/
def RestFits (memory : Nat → U8) (length : Nat) (header : RuleHeader) (start : Nat) : Prop :=
  start + (header.length - 1) ≤ length ∨ ∀ stop, ((parsePacketFilters memory header.code length
          header.count).run start).value = .error (.noRoom stop) →
        start + (header.length - 1) < stop

/- The same for the rule at a position that has a header. -/
def RuleFits (memory : Nat → U8) (length pos : Nat) : Prop := ∀ header start,
    ((parseHeader memory length).run pos).value = .ok (header, start) →
      RestFits memory length header start

theorem parsePacketFilters_within_iff (hStart : start ≤ length) :
    ((parsePacketFilters memory header.code
        (start + (header.length - 1)) header.count).run start).Within (· < length) ↔
      RestFits memory length header start := by
  by_cases hEnd : start + (header.length - 1) ≤ length
  · have hOwn := (parsePacketFilters_tracks memory (Nat.le_refl
        (start + (header.length - 1))) header.code header.count).within (Nat.le_add_right start _)
    constructor
    · exact fun _ => .inl hEnd
    · intro _
      exact hOwn.mono fun i hRead => hRead.trans_le hEnd
  · have hTracks := parsePacketFilters_tracks memory
        (Nat.le_of_not_le hEnd) header.code header.count
    rw [hTracks.within_iff hStart]
    constructor
    · exact .inr
    · rintro (hFits | hRoom)
      · exact absurd hFits hEnd
      · exact hRoom

theorem parsePacketFilters_next_le (hStart : start ≤ length)
    (hFits : RestFits memory length header start)
    (hValue : ((parsePacketFilters memory header.code
        (start + (header.length - 1)) header.count).run start).value = .ok (filters, stop)) :
    stop ≤ length := by
  by_cases hEnd : start + (header.length - 1) ≤ length
  · have hTracks := parsePacketFilters_tracks memory (Nat.le_refl
        (start + (header.length - 1))) header.code header.count
    have hPos := Nat.le_add_right start (header.length - 1)
    have hNext := hTracks.next_le hPos (hTracks.within hPos) hValue
    exact hNext.trans hEnd
  · have hTracks := parsePacketFilters_tracks memory
        (Nat.le_of_not_le hEnd) header.code header.count
    exact hTracks.next_le hStart ((parsePacketFilters_within_iff hStart).mpr hFits) hValue

theorem parseRest_within_iff (hStart : start ≤ length) :
    ((parseRest memory length header).run start).Within (· < length) ↔
      RestFits memory length header start := by
  rw [← parsePacketFilters_within_iff hStart]
  constructor
  · intro hWithin
    have hRest := (within_bind.mp hWithin).2 start start rfl
    exact (within_bind.mp hRest).1
  · intro hFilters
    refine within_bind.mpr ⟨within_position, ?_⟩
    intro first same hPosition
    cases hPosition
    refine within_bind.mpr ⟨hFilters, ?_⟩
    intro filters stop _
    refine within_bind.mpr ⟨within_position, ?_⟩
    intro last same hLast
    cases hLast
    dsimp only
    split
    · exact within_reject
    · refine within_bind.mpr ⟨parseTrailer_within, ?_⟩
      intro trailer next _
      exact within_pure

theorem parseRule_within_iff :
    ((parseRule memory length).run pos).Within (· < length) ↔ RuleFits memory length pos := by
  unfold parseRule RuleFits
  rw [within_bind]
  constructor
  · intro hBoth header start hHeader
    have hStart := (parseHeader_eq_ok hHeader).2
    exact (parseRest_within_iff hStart).mp (hBoth.2 header start hHeader)
  · intro hFits
    refine ⟨parseHeader_within, ?_⟩
    intro header start hHeader
    have hStart := (parseHeader_eq_ok hHeader).2
    exact (parseRest_within_iff hStart).mpr (hFits header start hHeader)

/- What a parsed rule consists of. -/
theorem parseRest_eq_ok
    (hValue : ((parseRest memory length header).run start).value = .ok (rule, next)) :
    ∃ stop, ((parsePacketFilters memory header.code
        (start + (header.length - 1)) header.count).run start).value = .ok (rule.filters, stop) ∧
      1 + (stop - start) ≤ header.length ∧ header.length ≤ 1 + (stop - start) + 2 ∧
      ((parseTrailer memory length header.code
        (header.length - (1 + (stop - start)))).run stop).value =
          .ok ((rule.precedence, rule.flow), next) ∧ rule.identifier = header.identifier ∧
      rule.code = header.code ∧ rule.dqr = header.dqr := by
  rcases value_bind_eq_ok hValue with ⟨first, same, hPosition, hRest⟩
  cases hPosition
  rcases value_bind_eq_ok hRest with ⟨filters, stop, hFilters, hRest⟩
  rcases value_bind_eq_ok hRest with ⟨last, same, hLast, hRest⟩
  cases hLast
  dsimp only at hRest
  split at hRest
  · cases hRest
  · next hLength =>
    rcases value_bind_eq_ok hRest with ⟨trailer, behind, hTrailer, hRest⟩
    cases hRest
    exact ⟨stop, hFilters, by omega, by omega, hTrailer, rfl, rfl, rfl⟩

theorem parseRule_next_le (hFits : RuleFits memory length pos)
    (hValue : ((parseRule memory length).run pos).value = .ok (rule, next)) : next ≤ length := by
  rcases value_bind_eq_ok hValue with ⟨header, start, hHeader, hRest⟩
  have hStart := (parseHeader_eq_ok hHeader).2
  rcases parseRest_eq_ok hRest with ⟨stop, hFilters, hLeast, hMost, hTrailer, _⟩
  have hStop := parsePacketFilters_next_le hStart (hFits header start hHeader) hFilters
  have hNext := parseTrailer_eq_ok (by omega) hTrailer
  omega

---- All Rules ----

/-
  Every rule that the parser comes to fits; it comes to the next one when the rule before is
  accepted.
-/
def RulesFit (memory : Nat → U8) (length : Nat) : Nat → Nat → Prop
  | 0, _ => True
  | left + 1, pos =>
      pos < length → RuleFits memory length pos ∧ ∀ rule next,
            ((parseRule memory length).run pos).value = .ok (rule, next) →
            RulesFit memory length left next

/- The loop behind its last rule. -/
theorem parseRules_of_end (hEnd : length ≤ pos) :
    (parseRules memory length left).run pos =
      (pure [] : Reader QosReject (List QosRule)).run pos := by
  cases left with
  | zero => rw [parseRules, run_position_bind, if_pos hEnd]
  | succ left => rw [parseRules, run_position_bind, if_pos hEnd]

/- The loop at a rule. -/
theorem parseRules_of_rule (hRule : pos < length) :
    (parseRules memory length (left + 1)).run pos = (do
        let rule ← parseRule memory length
        let rest ← parseRules memory length left
        return rule :: rest :
        Reader QosReject (List QosRule)).run pos := by
  rw [parseRules, run_position_bind, if_neg (Nat.not_le.mpr hRule)]

theorem parseRules_of_full (hRule : pos < length) :
    (parseRules memory length 0).run pos = (reject .tooManyRules :
        Reader QosReject (List QosRule)).run pos := by
  rw [parseRules, run_position_bind, if_neg (Nat.not_le.mpr hRule)]

theorem parseRules_within_iff :
    ((parseRules memory length left).run pos).Within (· < length) ↔
      RulesFit memory length left pos := by
  induction left generalizing pos with
  | zero =>
    refine ⟨fun _ => trivial, fun _ => ?_⟩
    by_cases hRule : pos < length
    · rw [parseRules_of_full hRule]
      exact within_reject
    · rw [parseRules_of_end (Nat.le_of_not_lt hRule)]
      exact within_pure
  | succ left ih =>
    by_cases hRule : pos < length
    · rw [parseRules_of_rule hRule, within_bind, parseRule_within_iff]
      constructor
      · rintro ⟨hFits, hRest⟩ _
        refine ⟨hFits, ?_⟩
        intro rule next hValue
        have hBoth := hRest rule next hValue
        exact (ih).mp (within_bind.mp hBoth).1
      · intro hFit
        refine ⟨(hFit hRule).1, ?_⟩
        intro rule next hValue
        have hNext := (hFit hRule).2 rule next hValue
        refine within_bind.mpr ⟨(ih).mpr hNext, ?_⟩
        intro rest last _
        exact within_pure
    · rw [parseRules_of_end (Nat.le_of_not_lt hRule)]
      exact ⟨fun _ hBelow => absurd hBelow hRule, fun _ => within_pure⟩

/- Each rule is parsed from octets that end within the rules. -/
def EncodedWithin (memory : Nat → U8) (length : Nat) : Nat → List QosRule → Prop
  | _, [] => True
  | pos, rule :: rest =>
      ∃ next, ((parseRule memory length).run pos).value = .ok (rule, next) ∧ next ≤ length ∧
        EncodedWithin memory length next rest

theorem encodedWithin_of_rulesFit (hFit : RulesFit memory length left pos)
    (hValue : ((parseRules memory length left).run pos).value = .ok (rules, next)) :
    EncodedWithin memory length pos rules := by
  induction left generalizing pos rules with
  | zero =>
    by_cases hRule : pos < length
    · rw [parseRules_of_full hRule] at hValue
      cases hValue
    · rw [parseRules_of_end (Nat.le_of_not_lt hRule)] at hValue
      cases hValue
      trivial
  | succ left ih =>
    by_cases hRule : pos < length
    · rw [parseRules_of_rule hRule] at hValue
      rcases value_bind_eq_ok hValue with ⟨rule, second, hFirst, hRest⟩
      rcases value_bind_eq_ok hRest with ⟨rest, third, hOthers, hPure⟩
      cases hPure
      exact ⟨second, hFirst, parseRule_next_le (hFit hRule).1 hFirst,
        ih ((hFit hRule).2 rule second hFirst) hOthers⟩
    · rw [parseRules_of_end (Nat.le_of_not_lt hRule)] at hValue
      cases hValue
      trivial

/- Only octets below the length are read, and every rule that is returned was encoded in them. -/
def ReadWithin (memory : Nat → U8) (length : U16) : Prop :=
  (ogsNasParseQosRules memory length).Within (· < length.toNat) ∧
    EncodedWithin memory length.toNat 0 (ogsNasParseQosRules memory length).value

theorem ogsNasParseQosRules_within_iff {length : U16} :
    (ogsNasParseQosRules memory length).Within (· < length.toNat) ↔
      RulesFit memory length.toNat maxNumOfQosRule 0 := by
  unfold ogsNasParseQosRules
  split
  · next hZero =>
    subst hZero
    refine ⟨?_, fun _ => Traced.within_pure⟩
    intro _ hBelow
    exact absurd hBelow (Nat.not_lt_zero _)
  · rw [Traced.within_bind, parseRules_within_iff]
    exact and_iff_left Traced.within_pure

end Pretty5gs.Nas
