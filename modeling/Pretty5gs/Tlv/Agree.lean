import Mathlib.Data.Finset.Card
import Pretty5gs.Library.Transition
import Pretty5gs.Tlv.Carry

/-
  What a message is parsed into depends on its elements only up to the octets of their values.

  Elements that agree up to their lengths lead to messages that agree up to the lengths of their
  strings. The parser accepts no block that it has read past the end of.

  Main results: `parseChildren_ok_iff`, `tlvParseCompound_follows`.
-/

---- Elements And Messages That Agree ----

namespace Pretty5gs.Tlv

open Function Faulty Traced Finset

/- The same header and the same octets of the value. -/
structure SameElement (tlv tlv' : Element) : Prop where
  type : tlv'.type = tlv.type
  inst : tlv'.inst = tlv.inst
  length : tlv'.length = tlv.length
  value : ∀ i < tlv.length, tlv'.value i = tlv.value i

/- The same members, where a string is its octets. -/
structure SameField (field field' : Field) : Prop where
  presence : field'.presence = field.presence
  uint : field'.uint = field.uint
  len : field'.len = field.len
  data : Option.Rel (fun ptr ptr' => ∀ i < field.len, ptr' i = ptr i) field.data field'.data

/- The same element at every address. -/
def SameMsg (msg msg' : Msg) : Prop := ∀ a, SameField (msg a) (msg' a)

structure SameParsing (s s' : Parsing) : Prop where
  msg : SameMsg s.msg s'.msg
  avail : s'.avail = s.avail

/- What the first parse accepts, the second accepts alike. -/
def Follows (x x' : Except Fault (Rv × Parsing)) : Prop := ∀ t, x = .ok (.ok, t) →
    ∃ t', x' = .ok (.ok, t') ∧ SameParsing t t'

theorem SameField.refl : SameField field field where
  presence := rfl
  uint := rfl
  len := rfl
  data := by
    cases field.data with
    | none => exact .none
    | some ptr => exact .some (fun _ _ => rfl)

theorem SameMsg.refl : SameMsg msg msg := fun _ => SameField.refl

theorem SameMsg.update (hMsg : SameMsg msg msg') (hField : SameField field field') :
    SameMsg (Function.update msg addr field) (Function.update msg' addr field') := by
  intro a
  by_cases hHere : a = addr
  · subst hHere
    simpa using hField
  · simpa [hHere] using hMsg a

theorem SameMsg.setPresent (hMsg : SameMsg msg msg') :
    SameMsg (Msg.setPresent msg addr) (Msg.setPresent msg' addr) := hMsg.update
    { presence := rfl
      uint := (hMsg addr).uint
      len := (hMsg addr).len
      data := (hMsg addr).data }

---- Blocks ----

variable {mode : Mode}

/- An element that ends inside the block is the same in every memory that agrees with the block. -/
theorem tlvGetElement_agree (hAgree : ∀ i < length, data' i = data i)
    (hEnd : (tlvGetElement data mode pos).value.2 ≤ length) :
    SameElement (tlvGetElement data mode pos).value.1 (tlvGetElement data' mode pos).value.1 ∧
      (tlvGetElement data' mode pos).value.2 = (tlvGetElement data mode pos).value.2 := by
  have hValue : ∀ type size inst start, start + size ≤ length →
    SameElement (elementAt data type size inst start).1
      (elementAt data' type size inst start).1 := by
    intro type size inst start hInside
    refine ⟨rfl, rfl, rfl, ?_⟩
    intro i hLt
    simp only [elementAt] at hLt ⊢
    exact hAgree (start + i) (by omega)
  cases mode <;>
  · simp only [tlvGetElement, octet, value_bind, value_read, value_pure] at hEnd ⊢
    have hInside := hEnd
    simp only [elementAt] at hInside
    simp (disch := omega) only [hAgree]
    exact ⟨hValue _ _ _ _ hEnd, rfl⟩

variable {tlvs : List Element}


/- A block that is accepted is the same in such memory. -/
theorem parseElements_agree (hAgree : ∀ i < length, data' i = data i)
    (hParse : blockFrom data mode length avail pos = .ok tlvs) :
    ∃ tlvs', blockFrom data' mode length avail pos = .ok tlvs' ∧
      List.Forall₂ SameElement tlvs tlvs' := by
  induction avail generalizing pos tlvs with
  | zero => cases hParse
  | succ avail ih =>
    rcases (blockFrom_ok_iff Prod.mk.eta.symm).mp hParse with ⟨rest, rfl, hRest⟩
    have hInside : (tlvGetElement data mode pos).value.2 ≤ length := by
      rcases hRest with ⟨hEnd, _⟩ | ⟨hMore, _⟩ <;> omega
    rcases tlvGetElement_agree hAgree hInside with ⟨hSame, hNext⟩
    rw [← hNext] at hRest
    rcases hRest with ⟨hEnd, rfl⟩ | ⟨hMore, hParseRest⟩
    · refine ⟨_, (blockFrom_ok_iff Prod.mk.eta.symm).mpr ?_, .cons hSame .nil⟩
      exact ⟨[], rfl, .inl ⟨hEnd, rfl⟩⟩
    · rcases ih hParseRest with ⟨rest', hRest', hAll⟩
      refine ⟨_, (blockFrom_ok_iff Prod.mk.eta.symm).mpr ?_, .cons hSame hAll⟩
      exact ⟨rest', rfl, .inr ⟨hMore, hRest'⟩⟩

/- A pool is large enough for the elements it has given. -/
theorem parseElements_avail (hParse : blockFrom data mode length avail pos = .ok tlvs)
    (hAvail : tlvs.length ≤ avail') :
    blockFrom data mode length avail' pos = .ok tlvs ∧ tlvs.length ≤ avail := by
  induction avail generalizing pos tlvs avail' with
  | zero => cases hParse
  | succ avail ih =>
    rcases (blockFrom_ok_iff rfl).mp hParse with ⟨rest, rfl, hRest⟩
    cases avail' with
    | zero => simp at hAvail
    | succ avail' =>
      rw [blockFrom_ok_iff rfl]
      rcases hRest with ⟨hEnd, rfl⟩ | ⟨hMore, hParseRest⟩
      · exact ⟨⟨[], rfl, .inl ⟨hEnd, rfl⟩⟩, Nat.le_add_left 1 avail⟩
      · rcases ih hParseRest (Nat.le_of_succ_le_succ hAvail) with ⟨hRest', hLength⟩
        exact ⟨⟨rest, rfl, .inr ⟨hMore, hRest'⟩⟩, Nat.succ_le_succ hLength⟩

---- The Loop Without The Table Of Counts ----

abbrev ParseIe := Desc → Element → Nat → Parsing → Except Fault (Rv × Parsing)

/- The type and instance of an element. -/
def Element.key (tlv : Element) : Nat × Nat := (tlv.type, tlv.inst)

/-
  What the loop does with one element of a name that was counted `n` times, and the count after it.
-/
def takeElement (parse : ParseIe) (descs : List Desc) (base : Nat) (tlv : Element) (n : Nat)
    (s : Parsing) : Except Fault (Rv × Parsing × Nat) := do
  match ← tlvFindDescByTypeInst descs tlv.type tlv.inst n with
  | none => return (.ok, s, n)
  | some found =>
      match placeOf s.msg base descs found with
      | (_, none) => return (.ok, s, n)
      | (repeated, some addr) =>
          let (rv, s) ← parse found.desc tlv addr s
          return (rv, s, if repeated then n else n + 1)

/- The loop goes on behind an element that was taken. -/
def goOn (next : Nat → Parsing → Except Fault (Rv × Parsing)) (taken : Rv × Parsing × Nat) :
    Except Fault (Rv × Parsing) :=
  if taken.1 ≠ .ok then .ok (.error, taken.2.1)
  else next taken.2.2 taken.2.1

/- The loop with a count for every name. -/
def parseFree (parse : ParseIe) (descs : List Desc) (base : Nat) (tlvs : List Element)
    (count : Nat × Nat → Nat) (s : Parsing) : Except Fault (Rv × Parsing) :=
  match tlvs with
  | [] => .ok (.ok, s)
  | tlv :: rest =>
      takeElement parse descs base tlv (count tlv.key) s >>= goOn (fun n s =>
          parseFree parse descs base rest (Function.update count tlv.key n) s)

section Loop

variable {parse : ParseIe} {descs : List Desc} {base : Nat}

/- An element that finds its count node is taken. -/
theorem parseChildren_cons (hFind : tlvCountNodeFind counts tlv.key = some counts') :
    parseChildren parse descs base (tlv :: rest) counts s = takeElement parse descs base tlv
          (counts'.count tlv.key) s >>= goOn (fun n s =>
          parseChildren parse descs base rest
            { counts' with
              count :=
  Function.update counts'.count tlv.key n } s) := by
  have hSame :
    ({ counts' with
      count :=
        Function.update counts'.count tlv.key
          (counts'.count tlv.key) } : Counts) = counts' := by
    rw [update_eq_self]
  rw [parseChildren, takeElement]
  simp only [Element.key] at hFind hSame ⊢
  simp only [hFind]
  cases hLookup : tlvFindDescByTypeInst descs tlv.type tlv.inst
    (counts'.count (tlv.type, tlv.inst)) with
  | error fault => rfl
  | ok result =>
    cases result with
    | none =>
      simp only [bind, Except.bind, pure, Except.pure,
        goOn, ne_eq, not_true_eq_false, if_false, hSame]
    | some found =>
      rcases hPlace : placeOf s.msg base descs found with ⟨repeated, place⟩
      cases place with
      | none =>
        simp only [bind, Except.bind, pure, Except.pure,
          goOn, hPlace, ne_eq, not_true_eq_false, if_false, hSame]
      | some addr =>
        simp only [bind, Except.bind, pure, Except.pure, hPlace]
        cases hParse : parse found.desc tlv addr s with
        | error fault => rfl
        | ok result =>
          cases repeated with
          | false => rfl
          | true => simp only [goOn, if_true, hSame]

/- A count node is found up to the size of the table. -/
theorem tlvCountNodeFind_eq
    (hNew : key ∉ counts.keys → counts.count key = 0)
    (hRoom : (insert key counts.keys.toFinset).card ≤ ogsTlvMaxChildDesc)
    (hNodup : counts.keys.Nodup) :
    ∃ keys, tlvCountNodeFind counts key = some ⟨keys, counts.count⟩ ∧ keys.Nodup ∧
      keys.toFinset = insert key counts.keys.toFinset := by
  unfold tlvCountNodeFind
  by_cases hOld : key ∈ counts.keys
  · rw [if_pos hOld]
    refine ⟨counts.keys, rfl, hNodup, ?_⟩
    rw [insert_eq_of_mem (List.mem_toFinset.mpr hOld)]
  · rw [if_neg hOld, if_neg]
    · refine ⟨key :: counts.keys, ?_, List.nodup_cons.mpr ⟨hOld, hNodup⟩, ?_⟩
      · rw [← hNew hOld, update_eq_self]
      · rw [List.toFinset_cons]
    · rw [card_insert_of_notMem (by rwa [List.mem_toFinset]),
      List.toFinset_card_of_nodup hNodup] at hRoom
      omega

/- The loop accepts what it accepts without a table, when the names fit the table. -/
theorem parseChildren_ok_iff
    (hNodup : counts.keys.Nodup) (hShort : counts.keys.length ≤ ogsTlvMaxChildDesc)
    (hNew : ∀ key ∉ counts.keys, counts.count key = 0) :
    parseChildren parse descs base tlvs counts s = .ok (.ok, t) ↔ (counts.keys.toFinset ∪
          (tlvs.map Element.key).toFinset).card ≤ ogsTlvMaxChildDesc ∧
        parseFree parse descs base tlvs counts.count s = .ok (.ok, t) := by
  induction tlvs generalizing counts s with
  | nil =>
    simp only [List.map_nil, List.toFinset_nil, union_empty,
      List.toFinset_card_of_nodup hNodup, hShort, true_and]
    rfl
  | cons tlv rest ih =>
    have hUnion : counts.keys.toFinset ∪ ((tlv :: rest).map Element.key).toFinset =
      insert tlv.key counts.keys.toFinset ∪ (rest.map Element.key).toFinset := by
      rw [List.map_cons, List.toFinset_cons, union_insert, insert_union]
    rw [hUnion]
    by_cases hRoom : (insert tlv.key counts.keys.toFinset).card ≤ ogsTlvMaxChildDesc
    · rcases tlvCountNodeFind_eq (hNew tlv.key) hRoom hNodup with
      ⟨keys, hFind, hKeys, hSet⟩
      rw [parseChildren_cons hFind, parseFree]
      cases hTake : takeElement parse descs base tlv (counts.count tlv.key) s with
      | error fault => simp [bind, Except.bind]
      | ok taken =>
        simp only [bind, Except.bind, goOn]
        split
        · simp
        · rw [ih hKeys, hSet]
          · rw [← List.toFinset_card_of_nodup hKeys, hSet]
            exact hRoom
          · intro key hKey
            have hOther : key ≠ tlv.key := by
              rintro rfl
              apply hKey
              rw [← List.mem_toFinset, hSet]
              exact mem_insert_self _ _
            simp only [update_of_ne hOther]
            apply hNew
            intro hMem
            apply hKey
            rw [← List.mem_toFinset, hSet]
            exact mem_insert_of_mem (List.mem_toFinset.mpr hMem)
    · -- the table is full of other names
      have hFull : tlvCountNodeFind counts tlv.key = none := by
        have hOld : tlv.key ∉ counts.keys := by
          intro hMem
          rw [insert_eq_of_mem (List.mem_toFinset.mpr hMem),
            List.toFinset_card_of_nodup hNodup] at hRoom
          exact hRoom hShort
        rw [card_insert_of_notMem (by rwa [List.mem_toFinset]),
          List.toFinset_card_of_nodup hNodup] at hRoom
        rw [tlvCountNodeFind, if_neg hOld, if_pos (by omega)]
      have hOver : ¬ (insert tlv.key counts.keys.toFinset ∪
        (rest.map Element.key).toFinset).card ≤ ogsTlvMaxChildDesc := by
        intro hFits
        apply hRoom
        exact (card_le_card subset_union_left).trans hFits
      have hReject : parseChildren parse descs base (tlv :: rest) counts s = .ok (.error, s) := by
        simp only [Element.key] at hFull
        rw [parseChildren]
        simp only [hFull]
        rfl
      rw [hReject]
      constructor
      · intro hAccept
        cases hAccept
      · rintro ⟨hFits, _⟩
        exact absurd hFits hOver

/- A level accepts what its loop accepts without a table. -/
theorem tlvParseCompound_ok_iff :
    tlvParseCompound (levels + 1) mode desc tlvs base s = .ok (.ok, t) ↔
      (tlvs.map Element.key).toFinset.card ≤ ogsTlvMaxChildDesc ∧
        parseFree (parseIe (tlvParseCompound levels mode) mode)
          desc.childDescs base tlvs (fun _ => 0) s = .ok (.ok, t) := by
  rw [tlvParseCompound, parseChildren_ok_iff
    List.nodup_nil (Nat.zero_le _) (fun _ _ => rfl)]
  simp only [Counts.empty, List.toFinset_nil, empty_union]

end Loop

---- Parses That Follow Each Other ----

section Follows

variable {tlv tlv' : Element} {s s' : Parsing}

theorem SameElement.key (hTlv : SameElement tlv tlv') : tlv'.key = tlv.key := by
  rw [Element.key, Element.key, hTlv.type, hTlv.inst]

variable {tlvs tlvs' : List Element}

theorem map_key_same (hTlvs : List.Forall₂ SameElement tlvs tlvs') :
    tlvs'.map Element.key = tlvs.map Element.key := by
  induction hTlvs with
  | nil => rfl
  | cons hTlv _ ih => rw [List.map_cons, List.map_cons, hTlv.key, ih]

theorem SameElement.octets (hTlv : SameElement tlv tlv') :
    Ptr.octets tlv'.value tlv.length = Ptr.octets tlv.value tlv.length := by
  apply List.map_congr_left
  intro i hMem
  exact hTlv.value i (List.mem_range.mp hMem)

/- A string that points to the value of an element. -/
theorem SameField.string (hField : SameField field field') (hTlv : SameElement tlv tlv') : SameField
      { field with data := some tlv.value, len := tlv.length }
      { field' with
        data := some tlv'.value
        len := tlv.length } where
  presence := hField.presence
  uint := hField.uint
  len := rfl
  data := .some hTlv.value

theorem tlvParseLeaf_agree {field field' read : Field} (hField : SameField field field')
    (hTlv : SameElement tlv tlv') (hRead : tlvParseLeaf field desc tlv = some read) :
    ∃ read', tlvParseLeaf field' desc tlv' = some read' ∧ SameField read read' := by
  unfold tlvParseLeaf at hRead ⊢
  rw [hTlv.length]
  cases hLeaf : desc.ctype.leaf with
  | none =>
    rw [hLeaf] at hRead
    cases hRead
  | some leaf =>
    rw [hLeaf] at hRead
    cases leaf with
    | int octets =>
      rcases Option.ite_none_left_eq_some.mp hRead with ⟨hLength, hRead⟩
      cases hRead
      have hOctets := hTlv.octets
      rw [not_not.mp hLength] at hOctets
      refine ⟨_, if_neg hLength, ⟨hField.presence, ?_, hField.len, hField.data⟩⟩
      rw [hOctets]
    | fixedStr =>
      rcases Option.ite_none_left_eq_some.mp hRead with ⟨hLength, hRead⟩
      cases hRead
      exact ⟨_, if_neg hLength, hField.string hTlv⟩
    | varStr =>
      cases hRead
      exact ⟨_, rfl, hField.string hTlv⟩
    | null =>
      rcases Option.ite_none_left_eq_some.mp hRead with ⟨hLength, hRead⟩
      cases hRead
      exact ⟨_, if_neg hLength, hField⟩

theorem firstFree_same (hMsg : SameMsg msg msg') :
    firstFree msg' vsize room addr = firstFree msg vsize room addr := by
  induction room generalizing addr with
  | zero => rfl
  | succ room ih => rw [firstFree, firstFree, (hMsg addr).presence, ih]

theorem placeOf_same (hMsg : SameMsg msg msg') :
    placeOf msg' base descs found = placeOf msg base descs found := by
  unfold placeOf
  simp only [firstFree_same hMsg]

/- A parser of elements whose results follow each other. -/
def Respects (parse : ParseIe) : Prop := ∀ desc tlv tlv' addr s s',
    SameElement tlv tlv' → SameParsing s s' →
      Follows (parse desc tlv addr s) (parse desc tlv' addr s')

theorem parseIe_respects
    (hNested : ∀ desc tlvs tlvs' base s s',
        List.Forall₂ SameElement tlvs tlvs' → SameParsing s s' → Follows (nested desc tlvs base s)
            (nested desc tlvs' base s')) : Respects (parseIe nested mode) := by
  intro desc tlv tlv' addr s s' hTlv hState t hParse
  unfold parseIe at hParse ⊢
  split at hParse
  · rename_i hCompound
    rw [if_pos hCompound]
    cases hBlock : (ogsTlvParseEmbeddedBlock s.avail tlv mode).value with
    | error reject =>
      rw [hBlock] at hParse
      cases hParse
    | ok embedded =>
      rcases parseElements_agree hTlv.value hBlock with ⟨embedded', hBlock', hAll⟩
      have hEmbedded' : (ogsTlvParseEmbeddedBlock s'.avail tlv' mode).value = .ok embedded' := by
        rw [ogsTlvParseEmbeddedBlock, hTlv.length, hState.avail]
        exact hBlock'
      rw [hBlock] at hParse
      rw [hEmbedded']
      simp only [bind] at hParse ⊢
      rcases bind_eq_ok.mp hParse with ⟨⟨rv, inner⟩, hInner, hDone⟩
      split at hDone
      · cases hDone
      · rename_i hOk
        cases not_not.mp hOk
        cases hDone
        have hPool : SameParsing { s with avail := s.avail - embedded.length }
          { s' with avail := s'.avail - embedded'.length } := ⟨hState.msg, by
          simp only [hState.avail, hAll.length_eq]⟩
        rcases hNested _ _ _ _ _ _ hAll hPool inner hInner with ⟨inner', hInner', hSame⟩
        rw [hInner']
        refine ⟨_, rfl, ⟨hSame.msg.setPresent, hSame.avail⟩⟩
  · rename_i hLeaf
    rw [if_neg hLeaf]
    cases hRead : tlvParseLeaf (s.msg addr) desc tlv with
    | none =>
      rw [hRead] at hParse
      cases hParse
    | some field =>
      rw [hRead] at hParse
      cases hParse
      rcases tlvParseLeaf_agree (hState.msg addr) hTlv hRead with ⟨field', hRead', hField⟩
      rw [hRead']
      refine ⟨_, rfl, ⟨?_, hState.avail⟩⟩
      exact (hState.msg.update hField).setPresent

/- One element is taken alike, with the same count. -/
theorem takeElement_follows (hParse : Respects parse) (hTlv : SameElement tlv tlv')
    (hState : SameParsing s s') (hTake : takeElement parse descs base tlv n s = .ok (.ok, t, n')) :
    ∃ t', takeElement parse descs base tlv' n s' = .ok (.ok, t', n') ∧ SameParsing t t' := by
  unfold takeElement at hTake ⊢
  rw [hTlv.type, hTlv.inst]
  rcases bind_eq_ok.mp hTake with ⟨result, hFind, hTake⟩
  rw [hFind]
  simp only [bind, Except.bind]
  cases result with
  | none =>
    cases hTake
    exact ⟨s', rfl, hState⟩
  | some found =>
    simp only [placeOf_same hState.msg] at hTake ⊢
    rcases hPlace : placeOf s.msg base descs found with ⟨repeated, place⟩
    rw [hPlace] at hTake
    cases place with
    | none =>
      cases hTake
      exact ⟨s', rfl, hState⟩
    | some addr =>
      rcases bind_eq_ok.mp hTake with ⟨⟨rv, after⟩, hOne, hDone⟩
      cases hDone
      rcases hParse _ _ _ _ _ _ hTlv hState _ hOne with ⟨t', hOne', hSame⟩
      simp only [hOne']
      exact ⟨t', rfl, hSame⟩

theorem parseFree_follows (hParse : Respects parse)
    (hTlvs : List.Forall₂ SameElement tlvs tlvs') (hState : SameParsing s s') :
    Follows (parseFree parse descs base tlvs count s)
      (parseFree parse descs base tlvs' count s') := by
  induction hTlvs generalizing count s s' with
  | nil =>
    intro t hDone
    cases hDone
    exact ⟨s', rfl, hState⟩
  | cons hTlv _ ih =>
    intro t hFree
    rcases bind_eq_ok.mp hFree with ⟨⟨rv, inner, n⟩, hTake, hRest⟩
    unfold goOn at hRest
    split at hRest
    · cases hRest
    · rename_i hOk
      cases not_not.mp hOk
      rcases takeElement_follows hParse hTlv hState hTake with ⟨inner', hTake', hSame⟩
      rcases ih hSame t hRest with ⟨t', hRest', hEnd⟩
      refine ⟨t', ?_, hEnd⟩
      rw [parseFree, hTlv.key, hTake']
      exact hRest'

/- A level is parsed alike, by induction on the levels. -/
theorem tlvParseCompound_follows (hTlvs : List.Forall₂ SameElement tlvs tlvs')
    (hState : SameParsing s s') :
    Follows (tlvParseCompound levels mode desc tlvs base s)
      (tlvParseCompound levels mode desc tlvs' base s') := by
  induction levels generalizing desc tlvs tlvs' base s s' with
  | zero => exact nofun
  | succ levels ih =>
    intro t hLevel
    rw [tlvParseCompound_ok_iff] at hLevel
    have hRespects : Respects (parseIe (tlvParseCompound levels mode) mode) :=
      parseIe_respects (fun _ _ _ _ _ _ hAll hSame => ih hAll hSame)
    rcases parseFree_follows hRespects hTlvs hState t hLevel.2 with ⟨t', hFree', hSame⟩
    refine ⟨t', ?_, hSame⟩
    rw [tlvParseCompound_ok_iff, map_key_same hTlvs]
    exact ⟨hLevel.1, hFree'⟩

end Follows

end Pretty5gs.Tlv
