import Pretty5gs.Nas.QosRulesBounds

/-
  What the parser of QoS rules returns for the octets of the builder.

  The layout follows the code of the first rule, so a rule with another code may be rejected or lose
  what its own code carries.

  Main results: `parsePacketFilter_reads`, `parseRest_reads`, `parseRules_reads`,
  `qos_rules_round_trip_iff`.
-/

---- Components ----

namespace Pretty5gs.Nas

open Reader Reads
open List (flatMap_cons forall_mem_cons length_append length_cons length_nil map_cons sum_cons)

variable {memory : Nat → U8}

theorem ofCode_code : ComponentType.ofCode type.code = some type := by cases type <;> rfl

theorem length_buildComponent : (buildComponent component).length = component.size := by
  rw [buildComponent, length_cons, List.Vector.toList_length, Component.size, Nat.add_comm]

theorem takeContent_reads (items : List.Vector U8 count) (hContent : pos + count ≤ contentEnd)
    (hList : pos + count ≤ listEnd) :
    Reads memory (takeContent memory contentEnd listEnd count) pos items.toList True items := by
  refine .position ?_
  rw [if_neg (Nat.not_lt.mpr hContent)]
  exact .take items hList

theorem parseFields_reads
    (hContent : pos + sizes.sum ≤ contentEnd) (hList : pos + sizes.sum ≤ listEnd) :
    Reads memory (parseFields memory contentEnd listEnd sizes) pos fields.toList True fields := by
  induction sizes generalizing pos with
  | nil =>
    have hNil : fields = ⟨[], rfl⟩ := Subtype.ext (List.eq_nil_of_length_eq_zero fields.2)
    rw [hNil]
    exact .pure _
  | cons size sizes ih =>
    have hCons : (size :: sizes).sum = size + sizes.sum := sum_cons
    have hSum := fields.toList_length
    -- the first field and those behind it
    let front : List.Vector U8 size := ⟨fields.toList.take size, by rw [List.length_take]; omega⟩
    let back : List.Vector U8 sizes.sum :=
      ⟨fields.toList.drop size, by rw [List.length_drop]; omega⟩
    have hSplit : ⟨front.toList ++ back.toList, by simp⟩ = fields :=
      Subtype.ext (List.take_append_drop size fields.toList)
    rw [← hSplit]
    have hFront := front.toList_length
    exact (takeContent_reads front (by omega) (by omega)).andThen
      (ih (by omega) (by omega)).map

theorem parseComponent_reads (hContent : pos + component.size ≤ contentEnd)
    (hList : pos + component.size ≤ listEnd) :
    Reads memory (parseComponent memory contentEnd listEnd) pos (buildComponent component) True
      component := by
  unfold Component.size at hContent hList
  refine .andThen (takeContent_reads (component.type.code ::ᵥ .nil) (by omega) (by omega)) ?_
  rw [List.Vector.head_cons, ofCode_code]
  have hOne : (component.type.code ::ᵥ List.Vector.nil).toList.length = 1 := rfl
  exact (parseFields_reads (by omega) (by omega)).map

/- The content of a filter is parsed to its components. -/
theorem parseComponents_reads (hContent : pos + (components.map Component.size).sum = contentEnd)
    (hList : contentEnd ≤ listEnd) (hLeft : components.length ≤ left) :
    Reads memory (parseComponents memory contentEnd listEnd left) pos
      (components.flatMap buildComponent) True components := by
  induction components generalizing pos left with
  | nil =>
    have hEnd : contentEnd ≤ pos := Nat.le_of_eq hContent.symm
    cases left with
    | zero =>
      refine .position ?_
      rw [if_pos hEnd]
      exact .pure _
    | succ left =>
      refine .position ?_
      rw [if_pos hEnd]
      exact .pure _
  | cons component components ih =>
    rw [map_cons, sum_cons] at hContent
    rw [length_cons] at hLeft
    rcases Nat.exists_eq_add_of_le' hLeft with ⟨spare, rfl⟩
    have hPositive : 0 < component.size := Nat.add_pos_left Nat.one_pos _
    rw [← Nat.add_assoc]
    refine .position ?_
    rw [if_neg (by omega)]
    refine .andThen (parseComponent_reads (by omega) (by omega)) ?_
    rw [length_buildComponent]
    exact (ih (by omega) (by omega)).map

---- Packet Filters ----

/- The content length is that of at most 16 components. -/
structure ValidFilter (filter : PacketFilter) : Prop where
  length : filter.contentLength.toNat = filter.contentSize
  count : filter.components.length ≤ maxNumOfPacketFilterComponent

/- The octets of a filter that is sent with its content. -/
def PacketFilter.size (filter : PacketFilter) : Nat := 2 + filter.contentSize

theorem length_flatMap_buildComponent {components : List Component} :
    (components.flatMap buildComponent).length = (components.map Component.size).sum := by
  simp [List.length_flatMap, length_buildComponent]

variable {filter : PacketFilter}

theorem ValidFilter.contentLength_eq_zero_iff (hValid : ValidFilter filter) :
    filter.contentLength = 0 ↔ filter.components = [] := by
  have hLength := hValid.length
  unfold PacketFilter.contentSize at hLength
  cases hList : filter.components with
  | nil => simpa [hList, BitVec.toNat_eq] using hLength
  | cons component components =>
    rw [hList, map_cons, sum_cons, Component.size] at hLength
    refine iff_of_false (fun hZero => ?_) (List.cons_ne_nil _ _)
    have hValue : (0 : U8).toNat = 0 := rfl
    rw [hZero] at hLength
    omega

variable {code : OperationCode}

theorem buildPacketFilter_content (hCode : code ≠ .modifyAndDeletePacketFilters) :
    buildPacketFilter code filter = filter.flags :: filter.contentLength ::
        filter.components.flatMap buildComponent := by
  rw [buildPacketFilter, if_neg hCode]

theorem length_buildPacketFilter (hCode : code ≠ .modifyAndDeletePacketFilters)
    {filter : PacketFilter} : (buildPacketFilter code filter).length = filter.size := by
  rw [buildPacketFilter_content hCode, length_cons,
    length_cons, length_flatMap_buildComponent, PacketFilter.size, PacketFilter.contentSize]
  omega

/- A filter is taken unless it is without components. -/
theorem parsePacketFilter_reads (hBuilt : built ≠ .modifyAndDeletePacketFilters)
    (hCode : code ≠ .modifyAndDeletePacketFilters) (hValid : ValidFilter filter)
    (hList : pos + filter.size ≤ listEnd) :
    Reads memory (parsePacketFilter memory code listEnd) pos (buildPacketFilter built filter)
      (filter.components ≠ []) filter := by
  unfold PacketFilter.size at hList
  rw [buildPacketFilter_content hBuilt]
  refine .andThen (.octet (by omega)) ?_
  rw [if_neg hCode]
  refine .andThen (.octet (by simp; omega)) ?_
  rw [List.Vector.head_cons]
  refine congr ?_ (not_congr hValid.contentLength_eq_zero_iff)
  split
  · next hZero => exact reject.congr (iff_of_false id fun hNot => hNot hZero)
  · next hNonzero =>
    refine .position (congr ?_ (iff_of_true trivial hNonzero))
    refine (parseComponents_reads ?_ ?_ hValid.count).map
    · rw [hValid.length]
      rfl
    · rw [hValid.length]
      simp
      omega

---- Filter Lists ----

variable {filters : List PacketFilter}

/- No filter of a list that is taken is without components. -/
theorem parseFilterLoop_reads (hBuilt : built ≠ .modifyAndDeletePacketFilters)
    (hCode : code ≠ .modifyAndDeletePacketFilters) (hValid : ∀ filter ∈ filters, ValidFilter filter)
    (hList : pos + (filters.map PacketFilter.size).sum ≤ listEnd) :
    Reads memory (parseFilterLoop memory code listEnd filters.length) pos
      (filters.flatMap (buildPacketFilter built)) (∀ filter ∈ filters, filter.components ≠ [])
      filters := by
  induction filters generalizing pos with
  | nil => exact (pure _).congr (iff_of_true trivial (List.forall_mem_nil _))
  | cons filter filters ih =>
    rw [map_cons, sum_cons] at hList
    rw [forall_mem_cons] at hValid
    rw [forall_mem_cons]
    refine (parsePacketFilter_reads hBuilt hCode hValid.1 (by omega)).bind fun _ => ?_
    rw [length_buildPacketFilter hBuilt]
    exact (ih hValid.2 (by omega)).map

/- A filter that is known by its flags octet alone. -/
def flagsOnly (flags : U8) : PacketFilter where
  flags := flags
  contentLength := 0
  components := []

/- Filters that are to be deleted are parsed an octet each. -/
theorem parseFilterLoop_flags_reads (flags : List U8) (hList : pos + flags.length ≤ listEnd) :
    Reads memory (parseFilterLoop memory .modifyAndDeletePacketFilters listEnd flags.length) pos
      flags True (flags.map flagsOnly) := by
  induction flags generalizing pos with
  | nil => exact .pure _
  | cons octet flags ih =>
    rw [length_cons] at hList
    have hFilter : Reads memory (parsePacketFilter memory .modifyAndDeletePacketFilters listEnd) pos
      [octet] True (flagsOnly octet) := (Reads.octet (by omega)).map
    exact hFilter.andThen (ih (by rw [List.length_singleton]; omega)).map

theorem contentEnd_le_of_parseComponents
    (hValue : ((parseComponents memory contentEnd listEnd left).run
        pos).value = .ok (components, next)) : contentEnd ≤ next := by
  induction left generalizing pos components with
  | zero =>
    rw [parseComponents, value_bind_of_ok value_position] at hValue
    split at hValue
    · next hEnd =>
      cases hValue
      exact hEnd
    · cases hValue
  | succ left ih =>
    rw [parseComponents, value_bind_of_ok value_position] at hValue
    split at hValue
    · next hEnd =>
      cases hValue
      exact hEnd
    · rcases value_bind_eq_ok hValue with ⟨component, second, _, hRest⟩
      rcases value_bind_eq_ok hRest with ⟨rest, third, hOthers, hPure⟩
      cases hPure
      exact ih hOthers

/- A filter with content takes three octets at least. -/
theorem le_parsePacketFilter (hCode : code ≠ .modifyAndDeletePacketFilters)
    (hValue : ((parsePacketFilter memory code listEnd).run pos).value = .ok (filter, next)) :
    pos + 3 ≤ next := by
  rcases value_bind_eq_ok hValue with ⟨flags, second, hFlags, hRest⟩
  have hSecond := value_take_eq_ok hFlags
  rw [if_neg hCode] at hRest
  rcases value_bind_eq_ok hRest with ⟨length, third, hLength, hRest⟩
  have hThird := value_take_eq_ok hLength
  split at hRest
  · cases hRest
  · next hNonzero =>
    have hPositive : 0 < length.head.toNat := by
      apply Nat.pos_of_ne_zero
      intro hZero
      exact hNonzero (BitVec.eq_of_toNat_eq hZero)
    rcases value_bind_eq_ok hRest with ⟨start, same, hPosition, hRest⟩
    cases hPosition
    rcases value_bind_eq_ok hRest with ⟨components, last, hComponents, hPure⟩
    cases hPure
    have hEnd := contentEnd_le_of_parseComponents hComponents
    omega

theorem le_parseFilterLoop (hCode : code ≠ .modifyAndDeletePacketFilters)
    (hValue : ((parseFilterLoop memory code listEnd count).run pos).value = .ok (filters, next)) :
    pos + 3 * count ≤ next := by
  induction count generalizing pos filters with
  | zero =>
    cases hValue
    omega
  | succ count ih =>
    rcases value_bind_eq_ok hValue with ⟨filter, second, hFilter, hRest⟩
    rcases value_bind_eq_ok hRest with ⟨rest, third, hOthers, hPure⟩
    cases hPure
    have hFirst := le_parsePacketFilter hCode hFilter
    have hLater := ih hOthers
    omega

---- Headers And Trailers ----

/- The header of a rule as the builder writes it. -/
def headerOf (first : OperationCode) (rule : QosRule) : RuleHeader where
  identifier := rule.identifier
  length := (buildBody first rule).length
  code := rule.code
  dqr := rule.dqr
  count := rule.filters.length

structure ValidRule (rule : QosRule) : Prop where
  code : rule.code.reserved = false
  count : rule.filters.length ≤ maxNumOfFlowInNas
  forbidden : rule.code.forbidsFilters → rule.filters = []
  filters : ∀ filter ∈ rule.filters, ValidFilter filter

theorem toNat_flagsOctet (code : OperationCode) (dqr : Bool) (hCount : count ≤ 15) :
    (flagsOctet code dqr count).toNat = code.toNat * 32 + dqr.toNat * 16 + count := by
  have hDqr := Bool.toNat_le dqr
  rw [flagsOctet, BitVec.toNat_ofNat]
  omega

variable {rule : QosRule}

theorem parseFlags_reads (hValid : ValidRule rule) (hRoom : pos + 1 ≤ length) :
    Reads memory (parseFlags memory length identifier ruleLength) pos
      [flagsOctet rule.code rule.dqr rule.filters.length] True
      { identifier := identifier
        length := ruleLength
        code := rule.code
        dqr := rule.dqr
        count := rule.filters.length } := by
  have hOctet := toNat_flagsOctet rule.code rule.dqr hValid.count
  have hBit := Bool.toNat_le rule.dqr
  have hCount : rule.filters.length ≤ 15 := hValid.count
  generalize flagsOctet rule.code rule.dqr rule.filters.length = octet at hOctet ⊢
  have hCode : BitVec.ofNat 3 (octet.toNat / 32) = rule.code := by
    apply BitVec.eq_of_toNat_eq
    rw [BitVec.toNat_ofNat]
    omega
  have hDqr : decide (octet.toNat / 16 % 2 = 1) = rule.dqr := by
    rw [hOctet]
    cases hCase : rule.dqr with
    | false =>
      rw [decide_eq_false_iff_not, Bool.toNat_false]
      omega
    | true =>
      rw [decide_eq_true_iff, Bool.toNat_true]
      omega
  have hFilters : octet.toNat % 16 = rule.filters.length := by omega
  have hAllowed : ¬ (rule.code.forbidsFilters && decide (rule.filters.length ≠ 0)) = true := by
    intro hBoth
    rw [Bool.and_eq_true, decide_eq_true_iff] at hBoth
    have hNone := hValid.forbidden hBoth.1
    rw [hNone] at hBoth
    exact hBoth.2 rfl
  refine .andThen (.octet hRoom) ?_
  dsimp only
  rw [List.Vector.head_cons, hCode, hDqr, hFilters,
    if_neg (by rw [hValid.code]; decide), if_neg hAllowed]
  exact .pure _

variable {first : OperationCode} {length pos : Nat}

theorem length_buildBody_pos (first : OperationCode) (rule : QosRule) :
    0 < (buildBody first rule).length := by
  simp [buildBody]

theorem parseHeader_reads (hValid : ValidRule rule) (hBody : (buildBody first rule).length < 65536)
    (hRoom : pos + 4 ≤ length) :
    Reads memory (parseHeader memory length) pos
      [rule.identifier, BitVec.ofNat 8 ((buildBody first rule).length / 256),
        BitVec.ofNat 8 (buildBody first rule).length,
        flagsOctet rule.code rule.dqr rule.filters.length] True (headerOf first rule) := by
  have hLength : (BitVec.ofNat 8 ((buildBody first rule).length / 256)).toNat * 256 +
    (BitVec.ofNat 8 (buildBody first rule).length).toNat = (buildBody first rule).length := by
    rw [BitVec.toNat_ofNat, BitVec.toNat_ofNat]
    omega
  refine .andThen (.octet (by omega)) (.andThen (.take (BitVec.ofNat 8
    ((buildBody first rule).length / 256) ::ᵥ BitVec.ofNat 8 (buildBody first rule).length ::ᵥ
      List.Vector.nil) (by rw [List.length_singleton]; omega)) ?_)
  rw [List.Vector.head_cons, List.Vector.tail_cons,
    List.Vector.head_cons, hLength]
  exact parseFlags_reads hValid hRoom

theorem parseTrailer_none_reads :
    Reads memory (parseTrailer memory length code 0) pos [] (code ≠ .createNew) (0, 0) := by
  rw [parseTrailer, if_pos rfl]
  split
  · next hCode => exact reject.congr (iff_of_false id fun hNot => hNot hCode)
  · next hCode => exact (pure _).congr (iff_of_true trivial hCode)

theorem parseTrailer_full_reads (hRoom : pos + 2 ≤ length) :
    Reads memory (parseTrailer memory length code 2) pos [precedence, flow]
      (code ≠ .deleteExisting) (precedence, flow) := by
  refine .andThen (.octet (by omega)) ?_
  split
  · next hCode => exact reject.congr (iff_of_false id fun hNot => hNot hCode)
  · next hCode =>
    refine congr (.map ?_) (iff_of_true trivial hCode)
    refine .andThen (.octet hRoom) ?_
    rw [if_neg hCode]
    exact .pure _

/- Filters and trailer fill the length of the rule. -/
theorem parseRest_reads_of {front back : List U8} (hCount : header.count ≤ maxNumOfFlowInNas)
    (hFilters : Reads memory (parseFilterLoop memory header.code (start + (header.length - 1))
      header.count) start front C filters)
    (hTrailer : Reads memory (parseTrailer memory length header.code back.length)
      (start + front.length) back D trailer) (hBack : back.length ≤ 2)
    (hLength : header.length = 1 + front.length + back.length) :
    Reads memory (parseRest memory length header) start (front ++ back) (C ∧ D)
      { identifier := header.identifier
        code := header.code
        dqr := header.dqr
        filters := filters
        precedence := trailer.1
        flow := trailer.2 } := by
  have hList : Reads memory (parsePacketFilters memory header.code (start + (header.length - 1))
    header.count) start front C filters := by
    rw [parsePacketFilters, if_neg (Nat.not_lt.mpr hCount)]
    exact hFilters
  have hOctets : header.length - (1 + (start + front.length - start)) = back.length := by omega
  refine .position (hList.bind fun _ => .position ?_)
  rw [if_neg (by omega), hOctets]
  exact hTrailer.map

/- Filters that end where no trailer can begin. -/
theorem parseRest_reads_never {items : List U8}
    (hNever : ∀ filters stop, ((parseFilterLoop memory header.code
      (start + (header.length - 1)) header.count).run start).value = .ok (filters, stop) →
        header.length < 1 + (stop - start) ∨ 1 + (stop - start) + 2 < header.length) :
    Reads memory (parseRest memory length header) start items False rule := by
  rintro - ⟨parsed, next⟩
  refine iff_of_false (fun hValue => ?_) fun hBoth => hBoth.1
  rcases parseRest_eq_ok hValue with ⟨stop, hFilters, hLeast, hMost, -⟩
  unfold parsePacketFilters at hFilters
  split at hFilters
  · cases hFilters
  · have hStop := hNever _ _ hFilters
    omega

---- One Rule ----

theorem length_buildRule (first : OperationCode) (rule : QosRule) :
    (buildRule first rule).length = 3 + (buildBody first rule).length := by
  simp [buildRule]
  omega

/- The octets behind the flags of a rule. -/
def buildBehindFlags (first : OperationCode) (rule : QosRule) : List U8 :=
  rule.filters.flatMap (buildPacketFilter first) ++
    if first.carriesFlow then [rule.precedence, rule.flow]
    else []

theorem buildBody_eq (hValid : ValidRule rule) :
    buildBody first rule = flagsOctet rule.code rule.dqr rule.filters.length ::
        buildBehindFlags first rule := by
  rw [buildBody, List.take_of_length_le hValid.count, buildBehindFlags]

theorem length_flatMap_buildPacketFilter (hFirst : first ≠ .modifyAndDeletePacketFilters)
    (filters : List PacketFilter) :
    (filters.flatMap (buildPacketFilter first)).length = (filters.map PacketFilter.size).sum := by
  induction filters with
  | nil => rfl
  | cons filter filters ih =>
    rw [flatMap_cons, length_append, ih, length_buildPacketFilter hFirst, map_cons, sum_cons]

theorem content_of_carriesFlow (hFirst : first.carriesFlow = true) :
    first ≠ .modifyAndDeletePacketFilters := by
  rintro rfl
  cases hFirst

/- Under a code that carries a flow. -/
theorem length_buildBody_carrying (hValid : ValidRule rule) (hFirst : first.carriesFlow = true) :
    (buildBody first rule).length = 3 + (rule.filters.map PacketFilter.size).sum := by
  rw [buildBody_eq hValid, buildBehindFlags, if_pos hFirst, length_cons, length_append,
    length_flatMap_buildPacketFilter (content_of_carriesFlow hFirst)]
  simp only [length_cons, length_nil]
  omega

theorem buildPacketFilter_flags :
    buildPacketFilter .modifyAndDeletePacketFilters filter = [filter.flags] := by
  rw [buildPacketFilter, if_pos rfl]

theorem flatMap_buildPacketFilter_flags :
    filters.flatMap (buildPacketFilter .modifyAndDeletePacketFilters) =
      filters.map PacketFilter.flags := by
  induction filters with
  | nil => rfl
  | cons filter filters ih =>
    rw [flatMap_cons, ih]
    rfl

/- A rule that the parser takes when it was built under the code of the first one. -/
def Accepted (first : OperationCode) (rule : QosRule) : Prop :=
  if first.carriesFlow then
    rule.code ≠ .deleteExisting ∧ (rule.code = .modifyAndDeletePacketFilters → rule.filters = []) ∧
      ∀ filter ∈ rule.filters, filter.components ≠ []
  else
    rule.code ≠ .createNew ∧ (rule.filters ≠ [] → first = .modifyAndDeletePacketFilters ∧
          rule.code = .modifyAndDeletePacketFilters)

/- What it then makes of the rule. -/
def receivedRule (first : OperationCode) (rule : QosRule) : QosRule :=
  if first.carriesFlow then rule
  else
    { rule with
      filters := rule.filters.map (fun filter => flagsOnly filter.flags)
      precedence := 0
      flow := 0 }

/- Without a flow only filters that are to be deleted are built. -/
def Buildable (first : OperationCode) (rule : QosRule) : Prop :=
  first.carriesFlow = false → rule.filters ≠ [] → first = .modifyAndDeletePacketFilters

section Rest

variable {length start : Nat} {first : OperationCode} {rule : QosRule}

theorem two_mul_length_le_size (filters : List PacketFilter) :
    2 * filters.length ≤ (filters.map PacketFilter.size).sum := by
  induction filters with
  | nil => exact Nat.le_refl 0
  | cons filter filters ih =>
    rw [map_cons, sum_cons, length_cons, PacketFilter.size]
    omega

theorem buildBehindFlags_silent (hFirst : first.carriesFlow = false)
    (hBuilds : Buildable first rule) :
    buildBehindFlags first rule = rule.filters.map PacketFilter.flags := by
  rw [buildBehindFlags, if_neg (by rw [hFirst]; decide), List.append_nil]
  by_cases hNone : rule.filters = []
  · rw [hNone]
    rfl
  · rw [hBuilds hFirst hNone, flatMap_buildPacketFilter_flags]

theorem length_buildBody_silent (hValid : ValidRule rule) (hFirst : first.carriesFlow = false)
    (hBuilds : Buildable first rule) : (buildBody first rule).length = 1 + rule.filters.length := by
  rw [buildBody_eq hValid, length_cons,
    buildBehindFlags_silent hFirst hBuilds, List.length_map, Nat.add_comm]

/- Under a code that carries a flow. -/
theorem parseRest_carrying_reads (hValid : ValidRule rule) (hFirst : first.carriesFlow = true)
    (hRoom : start + ((buildBody first rule).length - 1) ≤ length) :
    Reads memory (parseRest memory length (headerOf first rule)) start (buildBehindFlags first rule)
      (Accepted first rule) (receivedRule first rule) := by
  rw [Accepted, if_pos hFirst, receivedRule, if_pos hFirst]
  have hContent := content_of_carriesFlow hFirst
  have hLength := length_buildBody_carrying hValid hFirst
  have hHeader : (headerOf first rule).length = (buildBody first rule).length := rfl
  have hSizes := length_flatMap_buildPacketFilter hContent rule.filters
  rw [buildBehindFlags, if_pos hFirst]
  have hWhole : ∀ {C}, Reads memory (parseFilterLoop memory rule.code
    (start + ((buildBody first rule).length - 1)) rule.filters.length) start
      (rule.filters.flatMap (buildPacketFilter first)) C rule.filters →
    Reads memory (parseRest memory length (headerOf first rule)) start
      (rule.filters.flatMap (buildPacketFilter first) ++ [rule.precedence, rule.flow])
      (C ∧ rule.code ≠ .deleteExisting) rule := fun hLoop =>
    parseRest_reads_of hValid.count hLoop (parseTrailer_full_reads (by omega)) (Nat.le_refl 2)
      (by rw [length_cons, List.length_singleton]; omega)
  by_cases hCode : rule.code = .modifyAndDeletePacketFilters
  · by_cases hNone : rule.filters = []
    · refine (hWhole (C := True) ?_).congr ?_
      · rw [hNone]
        exact .pure _
      · simp [hCode, hNone]
    · refine (parseRest_reads_never ?_).congr (iff_of_false id fun hAll => hNone (hAll.2.1 hCode))
      -- the content of filters to delete would be a trailer
      intro filters stop hLoop
      rcases exists_stored memory start rule.filters.length with ⟨flags, hStored, hCount⟩
      have hSize := two_mul_length_le_size rule.filters
      have hSome := List.length_pos_iff.mpr hNone
      have hFlags := parseFilterLoop_flags_reads flags (show _ ≤ start + ((headerOf first rule).length - 1)
        by omega) hStored (filters, stop)
      rw [hCount, ← hCode] at hFlags
      have hStop := congrArg Prod.snd (hFlags.mp hLoop).2
      omega
  · refine (hWhole (parseFilterLoop_reads hContent hCode hValid.filters (by omega))).congr ?_
    constructor
    · exact fun hBoth => ⟨hBoth.2, fun hSame => absurd hSame hCode, hBoth.1⟩
    · exact fun hAll => ⟨hAll.2.2, hAll.1⟩

/- Under a code that carries none. -/
theorem parseRest_silent_reads (hValid : ValidRule rule) (hFirst : first.carriesFlow = false)
    (hBuilds : Buildable first rule) :
    Reads memory (parseRest memory length (headerOf first rule)) start (buildBehindFlags first rule)
      (Accepted first rule) (receivedRule first rule) := by
  have hSilent : ¬ first.carriesFlow = true := by simp [hFirst]
  rw [Accepted, if_neg hSilent, receivedRule, if_neg hSilent]
  have hLength := length_buildBody_silent hValid hFirst hBuilds
  have hHeader : (headerOf first rule).length = (buildBody first rule).length := rfl
  have hSizes : (rule.filters.map PacketFilter.flags).length = rule.filters.length :=
    List.length_map _
  rw [buildBehindFlags_silent hFirst hBuilds]
  have hWhole : Reads memory (parseFilterLoop memory rule.code
    (start + ((buildBody first rule).length - 1)) rule.filters.length) start
      (rule.filters.map PacketFilter.flags) True
      (rule.filters.map fun filter => flagsOnly filter.flags) →
    Reads memory (parseRest memory length (headerOf first rule)) start
      (rule.filters.map PacketFilter.flags) (True ∧ rule.code ≠ .createNew)
      { rule with
        filters := rule.filters.map (fun filter => flagsOnly filter.flags)
        precedence := 0
        flow := 0 } := by
    intro hLoop
    rw [← List.append_nil (rule.filters.map PacketFilter.flags)]
    exact parseRest_reads_of hValid.count hLoop parseTrailer_none_reads (Nat.zero_le 2)
      (by rw [hHeader, hLength, hSizes, length_nil, Nat.add_zero])
  by_cases hNone : rule.filters = []
  · refine (hWhole ?_).congr (by simp [hNone])
    rw [hNone]
    exact .pure _
  · by_cases hCode : rule.code = .modifyAndDeletePacketFilters
    · refine (hWhole ?_).congr ?_
      · have hLoop := @parseFilterLoop_flags_reads memory start
          (start + ((buildBody first rule).length - 1)) (rule.filters.map PacketFilter.flags)
          (by omega)
        rwa [hSizes, ← hCode, List.map_map] at hLoop
      · rw [true_and]
        exact iff_self_and.mpr fun _ hSome => ⟨hBuilds hFirst hSome, hCode⟩
    · refine (parseRest_reads_never ?_).congr (iff_of_false id fun hAll => hCode (hAll.2 hNone).2)
      -- a filter with content does not fit in the one octet that is built for it
      intro filters stop hLoop
      have hStop := le_parseFilterLoop hCode hLoop
      have hSome := List.length_pos_iff.mpr hNone
      have hCount : (headerOf first rule).count = rule.filters.length := rfl
      omega

theorem parseRest_reads (hValid : ValidRule rule) (hBuilds : Buildable first rule)
    (hRoom : start + ((buildBody first rule).length - 1) ≤ length) :
    Reads memory (parseRest memory length (headerOf first rule)) start (buildBehindFlags first rule)
      (Accepted first rule) (receivedRule first rule) := by
  by_cases hFirst : first.carriesFlow = true
  · exact parseRest_carrying_reads hValid hFirst hRoom
  · exact parseRest_silent_reads hValid (Bool.eq_false_iff.mpr hFirst) hBuilds

end Rest

---- Lengths ----

theorem length_buildPacketFilter_le (hValid : ValidFilter filter) :
    (buildPacketFilter code filter).length ≤ 257 := by
  by_cases hCode : code = .modifyAndDeletePacketFilters
  · rw [hCode, buildPacketFilter_flags, List.length_singleton]
    decide
  · have hLength := hValid.length
    rw [length_buildPacketFilter hCode, PacketFilter.size]
    omega

theorem length_buildBody_le (first : OperationCode) (hValid : ValidRule rule) :
    (buildBody first rule).length ≤ 3858 := by
  have hFilter : ∀ filter ∈ rule.filters, (buildPacketFilter first filter).length ≤ 257 :=
    fun filter hMem => length_buildPacketFilter_le (hValid.filters filter hMem)
  have hFilters := length_flatMap_le hFilter
  have hCount : rule.filters.length ≤ 15 := hValid.count
  rw [buildBody_eq hValid, buildBehindFlags, length_cons, length_append]
  split
  · simp only [length_cons, length_nil]
    omega
  · simp only [length_nil]
    omega

theorem length_buildRules_le (first : OperationCode) {rules : List QosRule}
    (hValid : ∀ rule ∈ rules, ValidRule rule) (hCount : rules.length ≤ maxNumOfQosRule) :
    (rules.flatMap (buildRule first)).length ≤ maxQosRulesLen := by
  have hRule : ∀ rule ∈ rules, (buildRule first rule).length ≤ 3861 := by
    intro rule hMem
    have hBody := length_buildBody_le first (hValid rule hMem)
    rw [length_buildRule]
    omega
  have hRules := length_flatMap_le hRule
  unfold maxNumOfQosRule at hCount
  unfold maxQosRulesLen
  omega

---- All Rules ----

section Rules

variable {length pos : Nat} {first : OperationCode}

variable {rule : QosRule}

theorem parseRule_reads (hValid : ValidRule rule) (hBuilds : Buildable first rule)
    (hRoom : pos + (buildRule first rule).length ≤ length) :
    Reads memory (parseRule memory length) pos (buildRule first rule) (Accepted first rule)
      (receivedRule first rule) := by
  have hBody := length_buildBody_le first hValid
  have hPositive := length_buildBody_pos first rule
  rw [length_buildRule] at hRoom
  have hItems : buildRule first rule = [rule.identifier,
    BitVec.ofNat 8 ((buildBody first rule).length / 256),
    BitVec.ofNat 8 (buildBody first rule).length,
    flagsOctet rule.code rule.dqr rule.filters.length] ++ buildBehindFlags first rule :=
    congrArg ([rule.identifier, BitVec.ofNat 8 ((buildBody first rule).length / 256),
      BitVec.ofNat 8 (buildBody first rule).length] ++ ·) (buildBody_eq hValid)
  rw [hItems]
  refine .andThen (parseHeader_reads hValid (by omega) (by omega)) ?_
  exact parseRest_reads hValid hBuilds (by simp only [length_cons, length_nil]; omega)

theorem parseRules_reads {rules : List QosRule} (hValid : ∀ rule ∈ rules, ValidRule rule)
    (hBuilds : ∀ rule ∈ rules, Buildable first rule)
    (hLength : pos + (rules.flatMap (buildRule first)).length = length)
    (hLeft : rules.length ≤ left) :
    Reads memory (parseRules memory length left) pos (rules.flatMap (buildRule first))
      (∀ rule ∈ rules, Accepted first rule) (rules.map (receivedRule first)) := by
  induction rules generalizing pos left with
  | nil =>
    refine of_run ?_ (parseRules_of_end (Nat.le_of_eq hLength.symm))
    exact (pure _).congr (iff_of_true trivial (List.forall_mem_nil _))
  | cons rule rules ih =>
    rw [flatMap_cons, length_append] at hLength
    rw [length_cons] at hLeft
    have hRule := length_buildRule first rule
    rcases Nat.exists_eq_add_of_le' hLeft with ⟨spare, rfl⟩
    rw [forall_mem_cons] at hValid hBuilds
    rw [forall_mem_cons, ← Nat.add_assoc]
    refine of_run ?_ (parseRules_of_rule (by omega))
    refine (parseRule_reads hValid.1 hBuilds.1 (by omega)).bind fun _ => ?_
    exact (ih hValid.2 hBuilds.2 (by omega) (by omega)).map

end Rules

---- Round Trip ----

/- The filters as far as the rule's own code sends them. -/
def QosRule.sentFilters (rule : QosRule) : List PacketFilter :=
  if rule.code = .modifyAndDeletePacketFilters then
    rule.filters.map (fun filter => flagsOnly filter.flags)
  else rule.filters

/- The rule came back with all that its own code sends. -/
structure SameRule (rule parsed : QosRule) : Prop where
  identifier : parsed.identifier = rule.identifier
  code : parsed.code = rule.code
  dqr : parsed.dqr = rule.dqr
  filters : parsed.filters = rule.sentFilters
  flow : rule.code.carriesFlow → parsed.precedence = rule.precedence ∧ parsed.flow = rule.flow

/- The octets are built and parsed to the same rules. -/
def RoundTrips (rules : List QosRule) : Prop := ∃ octets, ogsNasBuildQosRules rules = .ok octets ∧
    List.Forall₂ SameRule rules (ogsNasParseQosRules (fun index => octets.getD index 0)
        (BitVec.ofNat 16 octets.length)).value

/-
  Under a first code with a flow, a rule that its own code gives the same layout, all filters of
  which have content. Under one without, a rule that needs no more octets than the first code
  builds.
-/
def Survives (first : OperationCode) (rule : QosRule) : Prop :=
  if first.carriesFlow then
    rule.code ≠ .deleteExisting ∧ (rule.code = .modifyAndDeletePacketFilters → rule.filters = []) ∧
      ∀ filter ∈ rule.filters, filter.components ≠ []
  else
    rule.code ≠ .createNew ∧ (rule.filters ≠ [] → first = .modifyAndDeletePacketFilters ∧
          rule.code = .modifyAndDeletePacketFilters) ∧ (rule.code.carriesFlow →
        rule.precedence = 0 ∧ rule.flow = 0)

theorem survives_iff :
    Survives first rule ↔ Accepted first rule ∧ SameRule rule (receivedRule first rule) := by
  unfold Survives Accepted receivedRule
  by_cases hFirst : first.carriesFlow = true
  · rw [if_pos hFirst, if_pos hFirst, if_pos hFirst]
    refine ⟨fun hSurvives => ⟨hSurvives, ?_⟩, And.left⟩
    refine ⟨rfl, rfl, rfl, ?_, fun _ => ⟨rfl, rfl⟩⟩
    unfold QosRule.sentFilters
    split
    · next hCode =>
      rw [hSurvives.2.1 hCode]
      rfl
    · rfl
  · rw [if_neg hFirst, if_neg hFirst, if_neg hFirst]
    constructor
    · rintro ⟨hCreate, hFlags, hFlow⟩
      refine ⟨⟨hCreate, hFlags⟩, rfl, rfl, rfl, ?_, ?_⟩
      · unfold QosRule.sentFilters
        split
        · rfl
        · next hCode =>
          have hNone : rule.filters = [] := by
            by_contra hSome
            exact hCode (hFlags hSome).2
          rw [hNone]
          rfl
      · intro hCarries
        exact ⟨(hFlow hCarries).1.symm, (hFlow hCarries).2.symm⟩
    · rintro ⟨⟨hCreate, hFlags⟩, hSame⟩
      refine ⟨hCreate, hFlags, fun hCarries => ?_⟩
      have hFlow := hSame.flow hCarries
      exact ⟨hFlow.1.symm, hFlow.2.symm⟩

variable {others : List QosRule}

/- A filter is only built under a code that allows filters. -/
theorem code_of_filters {first : QosRule} {octets : List U8} (hCode : first.code.reserved = false)
    (hBuilt : ogsNasBuildQosRules (first :: others) = .ok octets) :
    ∀ rule ∈ first :: others, Buildable first.code rule := by
  intro rule hMem hSilent hSome
  have hAllowed : ¬ (first.code.forbidsFilters &&
    (first :: others).any (fun rule => rule.filters ≠ [])) = true := by
    intro hBoth
    simp only [ogsNasBuildQosRules, if_pos hBoth] at hBuilt
    cases hBuilt
  have hAny : (first :: others).any (fun rule => rule.filters ≠ []) = true :=
    List.any_eq_true.mpr ⟨rule, hMem, decide_eq_true hSome⟩
  rw [hAny] at hAllowed
  revert hCode hSilent hAllowed
  generalize first.code = code
  revert code
  decide

theorem eq_of_ogsNasBuildQosRules {first : QosRule} {octets : List U8}
    (hBuilt : ogsNasBuildQosRules (first :: others) = .ok octets) :
    octets = (first :: others).flatMap (buildRule first.code) := by
  simp only [ogsNasBuildQosRules] at hBuilt
  split at hBuilt
  · cases hBuilt
  · split at hBuilt
    · cases hBuilt
      rfl
    · cases hBuilt

theorem filters_of_forbidsFilters (hForbids : first.forbidsFilters = true)
    (hAccepted : Accepted first rule) : rule.filters = [] := by
  have hCode : first.carriesFlow = false ∧ first ≠ .modifyAndDeletePacketFilters := by
    clear hAccepted
    revert first
    decide
  by_contra hSome
  rw [Accepted, if_neg (by rw [hCode.1]; decide)] at hAccepted
  exact hCode.2 (hAccepted.2 hSome).1

theorem ogsNasBuildQosRules_ok {first : QosRule} (hValid : ∀ rule ∈ first :: others, ValidRule rule)
    (hCount : (first :: others).length ≤ maxNumOfQosRule)
    (hAllowed : first.code.forbidsFilters → ∀ rule ∈ first :: others, rule.filters = []) :
    ogsNasBuildQosRules (first :: others) =
      .ok ((first :: others).flatMap (buildRule first.code)) := by
  have hNone : ¬ (first.code.forbidsFilters &&
    (first :: others).any (fun rule => rule.filters ≠ [])) = true := by
    intro hBoth
    rw [Bool.and_eq_true, List.any_eq_true] at hBoth
    rcases hBoth with ⟨hForbids, rule, hMem, hSome⟩
    exact of_decide_eq_true hSome (hAllowed hForbids rule hMem)
  have hLength := length_buildRules_le first.code hValid hCount
  simp only [ogsNasBuildQosRules]
  rw [if_neg hNone, if_pos hLength]

/- The parser on octets of which there are some. -/
theorem value_ogsNasParseQosRules (hSome : 0 < length) (hLength : length ≤ maxQosRulesLen) :
    (ogsNasParseQosRules memory (BitVec.ofNat 16 length)).value = returned
        ((parseRules memory length maxNumOfQosRule).run 0).value := by
  have hNat : (BitVec.ofNat 16 length).toNat = length := by
    unfold maxQosRulesLen at hLength
    rw [BitVec.toNat_ofNat]
    omega
  have hNonzero : BitVec.ofNat 16 length ≠ 0 := by
    intro hZero
    rw [hZero] at hNat
    have hValue : (0 : U16).toNat = 0 := rfl
    omega
  rw [ogsNasParseQosRules, if_neg hNonzero, hNat]
  rfl

section RoundTrip

variable {first : QosRule} {others : List QosRule}

theorem length_buildRules_pos (first : QosRule) (others : List QosRule) :
    0 < ((first :: others).flatMap (buildRule first.code)).length := by
  rw [flatMap_cons, length_append, length_buildRule]
  omega

/- What comes back: all rules, when each of them is accepted, and none otherwise. -/
theorem parsed_cases {octets : List U8} (hValid : ∀ rule ∈ first :: others, ValidRule rule)
    (hCount : (first :: others).length ≤ maxNumOfQosRule)
    (hBuilt : ogsNasBuildQosRules (first :: others) = .ok octets) :
    ((∀ rule ∈ first :: others, Accepted first.code rule) ∧
        (ogsNasParseQosRules (fun index => octets.getD index 0)
          (BitVec.ofNat 16 octets.length)).value =
            (first :: others).map (receivedRule first.code)) ∨
      ¬ (∀ rule ∈ first :: others, Accepted first.code rule) ∧
        (ogsNasParseQosRules (fun index => octets.getD index 0)
          (BitVec.ofNat 16 octets.length)).value = [] := by
  have hBuilds := code_of_filters (hValid first List.mem_cons_self).code hBuilt
  have hReads := parseRules_reads hValid hBuilds (Nat.zero_add _) hCount (stored_getD _ 0)
  have hLength := length_buildRules_le first.code hValid hCount
  have hSome := length_buildRules_pos first others
  rw [← eq_of_ogsNasBuildQosRules hBuilt] at hReads hLength hSome
  rw [value_ogsNasParseQosRules hSome hLength]
  by_cases hAccepted : ∀ rule ∈ first :: others, Accepted first.code rule
  · rw [(hReads _).mpr ⟨hAccepted, rfl⟩]
    exact .inl ⟨hAccepted, rfl⟩
  · cases hValue : ((parseRules (fun index => octets.getD index 0) octets.length
      maxNumOfQosRule).run 0).value with
    | error reason => exact .inr ⟨hAccepted, rfl⟩
    | ok result => exact absurd ((hReads result).mp hValue).1 hAccepted

end RoundTrip

/- Rules of valid codes come back iff each of them survives. -/
theorem qos_rules_round_trip_iff (first : QosRule) (others : List QosRule)
    (hCount : (first :: others).length ≤ maxNumOfQosRule)
    (hValid : ∀ rule ∈ first :: others, ValidRule rule) :
    RoundTrips (first :: others) ↔ ∀ rule ∈ first :: others, Survives first.code rule := by
  simp only [survives_iff, forall_and]
  constructor
  · rintro ⟨octets, hBuilt, hSame⟩
    rcases parsed_cases hValid hCount hBuilt with ⟨hAccepted, hParsed⟩ | ⟨_, hParsed⟩
    · rw [hParsed, List.forall₂_map_right_iff, List.forall₂_same] at hSame
      exact ⟨hAccepted, hSame⟩
    · rw [hParsed] at hSame
      cases hSame
  · rintro ⟨hAccepted, hSame⟩
    have hBuilt := ogsNasBuildQosRules_ok hValid hCount fun hForbids rule hMem =>
      filters_of_forbidsFilters hForbids (hAccepted rule hMem)
    refine ⟨_, hBuilt, ?_⟩
    rcases parsed_cases hValid hCount hBuilt with ⟨_, hParsed⟩ | ⟨hNot, _⟩
    · rw [hParsed, List.forall₂_map_right_iff, List.forall₂_same]
      exact hSame
    · exact absurd hAccepted hNot

/- A filter for one protocol. -/
def udpFilter : PacketFilter where
  flags := 0x31
  contentLength := 2
  components :=
    [{ type := .protocolIdentifierNextHeader
       fields := ⟨[17], rfl⟩ }]

def udpRule (identifier : U8) (code : OperationCode) : QosRule where
  identifier := identifier
  code := code
  dqr := false
  filters := [udpFilter]
  precedence := 10
  flow := 1

theorem udpRule_valid (hCode : code.reserved = false ∧ code.forbidsFilters = false) :
    ValidRule (udpRule identifier code) where
  code := hCode.1
  count := show 1 ≤ 15 by decide
  forbidden hForbids := by
    rw [udpRule, hCode.2] at hForbids
    cases hForbids
  filters filter hMem := by
    rw [List.mem_singleton.mp hMem]
    exact ⟨by decide, by decide⟩

theorem qos_rules_round_trip_two_rules : RoundTrips [udpRule 1 .createNew, udpRule 2 3] := by
  refine (qos_rules_round_trip_iff _ _ (by decide) ?_).mpr ?_
  · rintro rule (_ | ⟨_, _ | ⟨_, hMem⟩⟩)
    · exact udpRule_valid (by decide)
    · exact udpRule_valid (by decide)
    · cases hMem
  · rintro rule (_ | ⟨_, _ | ⟨_, hMem⟩⟩)
    · unfold Survives
      decide
    · unfold Survives
      decide
    · cases hMem

def deleteRule : QosRule where
  identifier := 2
  code := .deleteExisting
  dqr := false
  filters := []
  precedence := 0
  flow := 0

theorem deleteRule_valid : ValidRule deleteRule where
  code := rfl
  count := by decide
  forbidden _ := rfl
  filters _ hMem := absurd hMem List.not_mem_nil

/- A rule is created and another one is deleted. -/
theorem qos_rules_deleted_behind_created :
    ValidRule (udpRule 1 .createNew) ∧ ValidRule deleteRule ∧
      ¬ RoundTrips [udpRule 1 .createNew, deleteRule] := by
  refine ⟨udpRule_valid (by decide), deleteRule_valid, ?_⟩
  rintro ⟨octets, hBuilt, hSame⟩
  have hOctets : octets = [1, 0, 7, 0x21, 0x31, 2, 48, 17, 10, 1, 2, 0, 3, 0x40, 0, 0] := by
    rw [eq_of_ogsNasBuildQosRules hBuilt]
    decide
  have hParsed : (ogsNasParseQosRules (fun index => octets.getD index 0)
    (BitVec.ofNat 16 octets.length)).value = [] := by
    rw [hOctets]
    decide +kernel
  rw [hParsed] at hSame
  cases hSame

end Pretty5gs.Nas
