import Pretty5gs.Tlv.Format

/-
  A message that fits is built, and the packet holds the octets of the format.

  Main results: `ogsTlvRender_eq`, `tlvAddCompound_builds`, `ogsTlvBuildMsg_eq`.
-/

---- Rendering A Chain ----

namespace Pretty5gs.Tlv

@[simp] theorem Ptr.length_octets {ptr : Ptr} {length : Nat} :
    (Ptr.octets ptr length).length = length := by
  simp [Ptr.octets]

namespace Chain

/- The octets of a chain. -/
def octets (tlv : Chain) : List UInt8 :=
  match tlv with
  | .null => []
  | .node mode type length inst value embedded next =>
      if embedded.isNull then
        putHeader mode type length inst ++ stringOctets value length ++ next.octets
      else putHeader mode type embedded.octets.length inst ++ embedded.octets ++ next.octets

/- No leaf of a chain has octets without a pointer. -/
def Pointed (tlv : Chain) : Prop :=
  match tlv with
  | .null => True
  | .node _ _ length _ value embedded next =>
      (embedded.isNull → length ≠ 0 → value.isSome) ∧ embedded.Pointed ∧ next.Pointed

theorem octets_append {a b : Chain} : (a.append b).octets = a.octets ++ b.octets := by
  induction a with
  | null => rfl
  | node mode type length inst value embedded next _ ih =>
    simp only [append, octets, ih]
    split <;> simp only [List.append_assoc]

theorem Pointed.append {a b : Chain} (hFirst : a.Pointed) (hSecond : b.Pointed) :
    (a.append b).Pointed := by
  induction a with
  | null => exact hSecond
  | node mode type length inst value embedded next _ ih =>
    exact ⟨hFirst.1, hFirst.2.1, ih hFirst.2.2⟩

end Chain

variable {value : Option Ptr}

theorem length_stringOctets (hPointed : length ≠ 0 → value.isSome) :
    (stringOctets value length).length = length := by
  cases value with
  | some ptr => exact Ptr.length_octets
  | none =>
    by_cases hZero : length = 0
    · subst hZero
      rfl
    · cases hPointed hZero

theorem memcpy_eq (hPointed : length ≠ 0 → value.isSome) :
    memcpy value length = .ok (stringOctets value length) := by
  cases value with
  | some ptr => rfl
  | none =>
    by_cases hZero : length = 0
    · subst hZero
      rfl
    · cases hPointed hZero

/- The calculated length is the number of octets. -/
theorem ogsTlvCalcLength_eq (hPointed : tlv.Pointed) :
    ogsTlvCalcLength tlv = tlv.octets.length := by
  induction tlv with
  | null => rfl
  | node mode type length inst value embedded next ihE ihN =>
    rcases hPointed with ⟨hValue, hEmbedded, hNext⟩
    rw [ogsTlvCalcLength, Chain.octets, ihE hEmbedded, ihN hNext]
    by_cases hLeaf : embedded.isNull
    · simp only [if_pos hLeaf, List.length_append,
      length_putHeader, length_stringOctets (hValue hLeaf)]
    · simp only [if_neg hLeaf, List.length_append, length_putHeader]

/- A buffer of enough octets is filled with them. -/
theorem ogsTlvRender_eq (hPointed : tlv.Pointed) (hRoom : pos + tlv.octets.length ≤ length) :
    ogsTlvRender tlv pos length = .ok tlv.octets := by
  induction tlv generalizing pos length with
  | null => rfl
  | node mode type size inst value embedded next ihE ihN =>
    rcases hPointed with ⟨hValue, hEmbedded, hNext⟩
    rw [Chain.octets] at hRoom
    rw [ogsTlvRender, Chain.octets]
    by_cases hLeaf : embedded.isNull
    · simp only [if_pos hLeaf, List.length_append, length_putHeader,
      length_stringOctets (hValue hLeaf)] at hRoom ⊢
      have hFree : ¬ pos + headerLength mode + size > length := by omega
      have hRest : ogsTlvRender next (pos + headerLength mode + size) length = .ok next.octets := by
        apply ihN hNext
        omega
      rw [if_neg hFree, memcpy_eq (hValue hLeaf)]
      simp only [bind, Except.bind, hRest]
      rfl
    · simp only [if_neg hLeaf, List.length_append, length_putHeader] at hRoom ⊢
      have hBody : ogsTlvRender embedded 0 (length - (pos + headerLength mode)) =
        .ok embedded.octets := by
        apply ihE hEmbedded
        omega
      have hRest : ogsTlvRender next (pos + headerLength mode + embedded.octets.length) length =
        .ok next.octets := by
        apply ihN hNext
        omega
      rw [ogsTlvCalcLength_eq hEmbedded]
      simp only [bind, Except.bind, hBody, hRest]
      rfl

---- Adding Elements ----

/- What was added has these octets and this many elements. -/
structure Builds (added : Added) (octets : List UInt8) (count : Nat) : Prop where
  octets : added.tlvs.octets = octets
  pointed : added.tlvs.Pointed
  count : added.count = count

theorem builds_none : Builds Added.none [] 0 := ⟨rfl, trivial, rfl⟩

theorem Builds.append {octets octets' : List UInt8} {count count' : Nat}
    (hFirst : Builds a octets count) (hSecond : Builds b octets' count') :
    Builds (a.append b) (octets ++ octets') (count + count') where
  octets := by rw [Added.append, Chain.octets_append, hFirst.octets, hSecond.octets]
  pointed := hFirst.pointed.append hSecond.pointed
  count := by rw [Added.append, hFirst.count, hSecond.count]

/- Octets and elements were added, so it did not fail. -/
theorem Builds.not_failed {octets : List UInt8} {count : Nat} (hBuilds : Builds added octets count)
    (hOctets : octets ≠ []) (hCount : count ≠ 0) : added.failed = false := by
  have hChain : added.tlvs.isNull = false := by
    cases hTlvs : added.tlvs with
    | null =>
      have hNone := hBuilds.octets
      rw [hTlvs] at hNone
      exact absurd hNone.symm hOctets
    | node => rfl
  rw [Added.failed, hBuilds.count, hChain]
  simp [hCount]

variable {avail : Nat} {mode : Mode}

theorem newTlv_eq (hAvail : 1 ≤ avail) (hPointed : length ≠ 0 → value.isSome) :
    newTlv hasParent avail mode type length inst value = .ok (fun embedded =>
        .node mode type length inst value embedded .null) := by
  have hTaken : ¬ avail = 0 := by omega
  have hChecked : ¬ (¬ hasParent ∧ length ≠ 0 ∧ value.isNone) := by
    rintro ⟨-, hLength, hNone⟩
    have hSome := hPointed hLength
    cases value with
    | none => cases hSome
    | some ptr => cases hNone
  rw [newTlv, if_neg hTaken, if_neg hChecked]

/- The octets sent of an integer in network byte order. -/
theorem octets_intPtr (hWidth : octets ≤ 4) {uint : Nat} :
    Ptr.octets (intPtr octets uint) octets = BigEndian.encode octets uint := by
  obtain rfl | rfl | rfl | rfl | rfl : octets = 0 ∨ octets = 1 ∨ octets = 2 ∨ octets = 3 ∨
    octets = 4 := by
    omega
  · rfl
  · rfl
  · rfl
  · simp only [Ptr.octets, intPtr, BigEndian.encode,
    List.range_succ, List.range_zero, List.nil_append,
    List.cons_append, List.map_cons, List.map_nil,
    List.getD_cons_zero, List.getD_cons_succ, if_true]
    simp only [← UInt8.toNat_inj, List.cons.injEq, and_true, UInt8.toNat_ofNat', Nat.shiftLeft_eq,
      Nat.shiftRight_eq_div_pow]
    omega
  · rfl

/- The widths of the integer descriptors. -/
theorem octets_le_of_leaf {ctype : Ctype} (hLeaf : ctype.leaf = some (.int octets)) :
    octets ≤ 4 := by
  cases ctype <;> cases hLeaf <;> decide

variable {desc : Desc}

/- A leaf whose value fits is added with its octets. -/
theorem tlvAddLeaf_builds (hasParent : Bool) (hAvail : 1 ≤ avail)
    (hMode : tlvCtype2mode desc.ctype mode = mode) (hFits : LeafFits desc field) :
    ∃ tlv, tlvAddLeaf hasParent avail desc field mode = .ok (some tlv) ∧ Builds ⟨tlv, 1⟩
        (frame mode desc (leafOctets desc field)) 1 := by
  -- Every row takes one element and fills it.
  have hRow : ∀ length value, (length ≠ 0 → value.isSome) →
    stringOctets value length = leafOctets desc field → ∃ tlv : Chain, (do
      let tlv ← newTlv hasParent avail
        (tlvCtype2mode desc.ctype mode) desc.type length desc.inst value
      return some (tlv .null)) =
      (.ok (some tlv) : Except Fault (Option Chain)) ∧
      Builds ⟨tlv, 1⟩ (frame mode desc (leafOctets desc field)) 1 := by
    intro length value hPointed hOctets
    refine ⟨.node (tlvCtype2mode desc.ctype mode) desc.type
      length desc.inst value .null .null, ?_, ?_⟩
    · rw [newTlv_eq hAvail hPointed]
      rfl
    · refine ⟨?_, ⟨fun _ => hPointed, trivial, trivial⟩, rfl⟩
      have hLength := length_stringOctets hPointed
      rw [hOctets] at hLength
      simp only [Chain.octets, Chain.isNull, if_true, hOctets,
        hMode, frame, hLength, List.append_nil]
  unfold tlvAddLeaf
  unfold LeafFits at hFits
  cases hLeaf : desc.ctype.leaf with
  | none =>
    rw [hLeaf] at hFits
    exact hFits.elim
  | some leaf =>
    rw [hLeaf] at hFits
    cases leaf with
    | int octets =>
      apply hRow octets (some (intPtr octets field.uint))
      · exact fun _ => rfl
      · rw [leafOctets, hLeaf]
        exact octets_intPtr (octets_le_of_leaf hLeaf)
    | fixedStr =>
      rcases hFits with ⟨hLen, hData⟩
      apply hRow desc.length field.data
      · rw [← hLen]
        exact hData
      · rw [leafOctets, hLeaf]
    | varStr =>
      rcases hFits with ⟨hLen, hData⟩
      simp only [if_neg hLen]
      apply hRow field.len field.data
      · exact fun _ => hData
      · rw [leafOctets, hLeaf]
    | null =>
      apply hRow 0 none
      · exact fun hZero => absurd rfl hZero
      · rw [leafOctets, hLeaf]
        rfl

variable {msg : Msg}

/- The octets of a level of a message that fits. -/
theorem Fits.wire_ne_nil (hFits : Fits msg mode levels desc base) :
    wire msg mode levels desc base ≠ [] ∧ nodeCount msg levels desc base ≠ 0 := by
  cases levels with
  | zero => exact hFits.elim
  | succ levels =>
    have hSome := hFits.1.some_shown
    rw [wire, nodeCount]
    cases hMembers : members msg (slots desc.childDescs) base with
    | nil => exact absurd hMembers hSome
    | cons e rest =>
      constructor
      · intro hNil
        rw [List.flatMap_cons] at hNil
        have hFrame := (List.append_eq_nil_iff.mp hNil).1
        have hPos := length_frame_pos mode e.1 (bodyOf (wire msg mode levels) msg e)
        rw [hFrame] at hPos
        cases hPos
      · simp only [List.map_cons, List.sum_cons]
        omega

---- Loops ----

section

variable
  {add : Nat → Desc → Nat → Except Fault (Option Added)}
  {octetsOf : Desc × Nat → List UInt8}
  {countOf : Desc × Nat → Nat}

/- An element is added whenever the pool holds its nodes. -/
def Adds (add : Nat → Desc → Nat → Except Fault (Option Added)) (octetsOf : Desc × Nat → List UInt8)
    (countOf : Desc × Nat → Nat) (e : Desc × Nat) : Prop := ∀ avail, countOf e ≤ avail →
    ∃ added, add avail e.1 e.2 = .ok (some added) ∧ Builds added (octetsOf e) (countOf e)

/- The present elements of a group are added in order. -/
theorem addGroup_builds (hBuilds : Builds added octets count) (group : List (Desc × Nat))
    (hGroup : group = ((places desc.vsize room offset).takeWhile
          (present msg)).map (fun a => (desc, a)))
    (hAdds : ∀ e ∈ group, Adds add octetsOf countOf e)
    (hAvail : count + (group.map countOf).sum ≤ avail) :
    ∃ added', addGroup add msg avail desc room offset added = .ok (some added') ∧
      Builds added' (octets ++ group.flatMap octetsOf) (count + (group.map countOf).sum) := by
  induction room generalizing offset added octets count group with
  | zero =>
    subst hGroup
    refine ⟨added, rfl, ?_⟩
    simpa [places] using hBuilds
  | succ room ih =>
    rw [addGroup]
    by_cases hAbsent : (msg offset).presence = 0
    · rw [if_pos hAbsent]
      have hNot : present msg offset = false := by simp [present, hAbsent]
      have hEmpty : group = [] := by
        rw [hGroup, places, List.takeWhile_cons, hNot]
        rfl
      subst hEmpty
      refine ⟨added, rfl, ?_⟩
      simpa using hBuilds
    · rw [if_neg hAbsent]
      have hShown : present msg offset = true := by simp [present, hAbsent]
      rw [places, List.takeWhile_cons, hShown] at hGroup
      simp only [if_true, List.map_cons] at hGroup
      subst hGroup
      simp only [List.map_cons, List.sum_cons] at hAvail
      rcases hAdds (desc, offset) List.mem_cons_self (avail - added.count)
        (by rw [hBuilds.count]; omega) with ⟨new, hNew, hBuildsNew⟩
      rcases ih (hBuilds.append hBuildsNew) _ rfl
        (fun e he => hAdds e (List.mem_cons_of_mem _ he)) (by omega) with ⟨added', hRest, hBuilds'⟩
      refine ⟨added', ?_, ?_⟩
      · simp only [hNew]
        exact hRest
      · simpa [Nat.add_assoc] using hBuilds'

/- The loop over the slots that the descriptors stand for. -/
def addSlots (add : Nat → Desc → Nat → Except Fault (Option Added)) (msg : Msg) (avail : Nat)
    (ss : List Slot) (offset : Nat) (added : Added) : Except Fault (Option Added) :=
  match ss with
  | [] => return some added
  | s :: rest => do
      match ← addGroup add msg avail s.desc s.room offset added with
      | none => return none
      | some added => addSlots add msg avail rest (offset + s.size) added

/- The walk over the descriptors is the one over the slots. -/
theorem addChildren_eq :
    addChildren add msg avail descs offset added =
      addSlots add msg avail (slots descs) offset added := by
  induction descs using slots.induct generalizing offset added with
  | case1 => rfl
  | case2 desc =>
    rw [addChildren, slots]
    change _ = addGroup add msg avail desc 1 offset added >>= _
    cases addGroup add msg avail desc 1 offset added with
    | error fault => rfl
    | ok result => cases result <;> rfl
  | case3 desc next rest hMore ih =>
    rw [addChildren, slots, if_pos hMore, if_pos hMore]
    apply bind_congr
    intro result
    cases result with
    | none => rfl
    | some added => exact ih
  | case4 desc next rest hPlain ih =>
    rw [addChildren, slots, if_neg hPlain, if_neg hPlain]
    apply bind_congr
    intro result
    cases result with
    | none => rfl
    | some added =>
      have hSize : (Slot.mk desc none).size = desc.vsize := Nat.mul_one _
      rw [hSize]
      exact ih

theorem addSlots_builds (hBuilds : Builds added octets count)
    (hAdds : ∀ e ∈ members msg ss offset, Adds add octetsOf countOf e)
    (hAvail : count + ((members msg ss offset).map countOf).sum ≤ avail) :
    ∃ added', addSlots add msg avail ss offset added = .ok (some added') ∧ Builds added'
        (octets ++ (members msg ss offset).flatMap octetsOf) (count +
          ((members msg ss offset).map countOf).sum) := by
  induction ss generalizing offset added octets count with
  | nil =>
    refine ⟨added, rfl, ?_⟩
    simpa using hBuilds
  | cons s rest ih =>
    simp only [members_cons, List.map_append, List.sum_append] at hAvail
    have hHead : count + (((s.shown msg offset).map (fun a => (s.desc, a))).map countOf).sum ≤
      avail := by
      omega
    have hTail : ∀ e ∈ members msg rest (offset + s.size), Adds add octetsOf countOf e :=
      fun e he => hAdds e (List.mem_append_right _ he)
    rcases addGroup_builds hBuilds ((s.shown msg offset).map (fun a => (s.desc, a))) rfl
      (fun e he => hAdds e (List.mem_append_left _ he)) hHead with ⟨mid, hMid, hBuildsMid⟩
    rcases ih hBuildsMid hTail (by omega) with ⟨added', hRest, hBuilds'⟩
    refine ⟨added', ?_, ?_⟩
    · rw [addSlots, hMid]
      exact hRest
    · simpa [Nat.add_assoc] using hBuilds'

end

---- Levels And Messages ----

/- A compound is added with the octets of its members. -/
theorem addIe_compound_builds {inner : Added} (hCompound : desc.ctype = .tlvCompound)
    (hMode : tlvCtype2mode desc.ctype mode = mode) (hAvail : 1 ≤ avail)
    (hNested : nested desc (offset + presenceSize) (avail - 1) = .ok (some inner))
    (hBuilds : Builds inner octets count) (hOctets : octets ≠ []) (hCount : count ≠ 0) :
    ∃ added, addIe nested hasParent msg mode avail desc offset =
        .ok (some added) ∧ Builds added (frame mode desc octets) (1 + count) := by
  have hOk := hBuilds.not_failed hOctets hCount
  have hNode : inner.tlvs.isNull = false := by
    simp only [Added.failed, Bool.or_eq_false_iff] at hOk
    exact hOk.2
  refine ⟨⟨.node mode desc.type 0 desc.inst none inner.tlvs .null, 1 + inner.count⟩, ?_, ?_⟩
  · have hNew : newTlv hasParent avail mode desc.type 0 desc.inst none = .ok (fun embedded =>
    .node mode desc.type 0 desc.inst none embedded .null) :=
    newTlv_eq hAvail (fun hZero => absurd rfl hZero)
    simp only [addIe, if_pos hCompound, hMode, hNew, hNested, hOk, bind, Except.bind]
    rfl
  · refine ⟨?_, ⟨?_, hBuilds.pointed, trivial⟩, ?_⟩
    · simp only [Chain.octets, hNode, Bool.false_eq_true,
      if_false, frame, hBuilds.octets, List.append_nil]
    · intro hNull
      rw [hNode] at hNull
      cases hNull
    · rw [hBuilds.count]

/- A level that fits is added with its octets. -/
theorem tlvAddCompound_builds (hasParent : Bool) (hFits : Fits msg mode levels desc base)
    (hAvail : nodeCount msg levels desc base ≤ avail) :
    ∃ added, tlvAddCompound levels hasParent avail desc msg base mode = .ok (some added) ∧
      Builds added (wire msg mode levels desc base) (nodeCount msg levels desc base) := by
  induction levels generalizing hasParent avail desc base with
  | zero => exact hFits.elim
  | succ levels ih =>
    rw [tlvAddCompound, addChildren_eq]
    let octetsOf : Desc × Nat → List UInt8 := fun e =>
      frame mode e.1 (bodyOf (wire msg mode levels) msg e)
    let countOf : Desc × Nat → Nat := fun e => 1 + below (nodeCount msg levels) e
    have hAdds : ∀ e ∈ members msg (slots desc.childDescs) base, Adds (addIe
      (fun desc offset avail => tlvAddCompound levels true avail desc msg offset mode)
      hasParent msg mode) octetsOf countOf e := by
      intro e hMem poolAvail hPool
      rcases hFits.2 e hMem with ⟨hMode, -, -, hValue⟩
      by_cases hCompound : e.1.ctype = .tlvCompound
      · simp only [octetsOf, countOf, below, bodyOf, if_pos hCompound] at *
        have hInnerPool : nodeCount msg levels e.1 (e.2 + presenceSize) ≤ poolAvail - 1 := by omega
        rcases ih true hValue hInnerPool with ⟨inner, hInner, hBuilds⟩
        exact addIe_compound_builds hCompound hMode (by omega) hInner hBuilds hValue.wire_ne_nil.1
          hValue.wire_ne_nil.2
      · simp only [octetsOf, countOf, below, bodyOf, if_neg hCompound] at *
        have hOne : 1 ≤ poolAvail := by omega
        rcases tlvAddLeaf_builds hasParent hOne hMode hValue with ⟨tlv, hTlv, hBuilds⟩
        refine ⟨⟨tlv, 1⟩, ?_, hBuilds⟩
        simp only [addIe, if_neg hCompound, hTlv]
        rfl
    have hPool : 0 + ((members msg (slots desc.childDescs) base).map countOf).sum ≤ avail := by
      rw [Nat.zero_add]
      exact hAvail
    rcases addSlots_builds builds_none hAdds hPool with ⟨added, hAdded, hBuilds⟩
    rw [List.nil_append, Nat.zero_add] at hBuilds
    exact ⟨added, hAdded, hBuilds⟩

/- The packet of a message that fits. -/
theorem ogsTlvBuildMsg_eq (hMessage : desc.ctype = .tlvMessage)
    (hFits : Fits msg mode maxLevels desc 0) (hAvail : nodeCount msg maxLevels desc 0 ≤ avail) :
    ogsTlvBuildMsg avail desc msg mode = .ok (some (wire msg mode maxLevels desc 0)) := by
  have hNonempty : desc.childDescs.isEmpty = false := by
    cases hDescs : desc.childDescs with
    | nil =>
      have hSome := hFits.1.some_shown
      rw [hDescs] at hSome
      exact absurd rfl hSome
    | cons => rfl
  rcases tlvAddCompound_builds false hFits hAvail with ⟨added, hAdded, hBuilds⟩
  have hOk := hBuilds.not_failed hFits.wire_ne_nil.1 hFits.wire_ne_nil.2
  have hLength := ogsTlvCalcLength_eq hBuilds.pointed
  have hRender : ogsTlvRender added.tlvs 0 (ogsTlvCalcLength added.tlvs) =
    .ok added.tlvs.octets := by
    apply ogsTlvRender_eq hBuilds.pointed
    omega
  simp only [ogsTlvBuildMsg, hMessage, hNonempty, hAdded, hOk,
    hRender, bind, Except.bind, ne_eq, not_true, if_false, Bool.false_eq_true, ← hLength]
  rw [hBuilds.octets]
  rfl

end Pretty5gs.Tlv
