import Pretty5gs.Tlv.Agree
import Pretty5gs.Tlv.Place

/-
  Information elements that no descriptor describes.

  The parser skips an element for which it finds no descriptor. The lookup also meets the repetition
  marks, which have the name (0, 0), and every name takes one of the count nodes of the level.

  Main results: `parseFree_skip`, `parseFree_mark`, `unknown_ie_is_transparent`.
-/

---- Messages As Sequences Of Information Elements ----

namespace Pretty5gs.Tlv

open Function Option Finset

/- An element on the wire. Four bits next to the instance are
spare. -/
structure Ie where
  type : Nat
  inst : Nat
  spare : Nat
  value : List UInt8
deriving DecidableEq, Repr

namespace Ie

def key (ie : Ie) : Nat × Nat := (ie.type, ie.inst)

def octets (mode : Mode) (ie : Ie) : List UInt8 := putHeader mode ie.type ie.value.length
      (2 ^ 4 * ie.spare + ie.inst) ++ ie.value

/- The header of a mode can carry the element. -/
def Fits (mode : Mode) (ie : Ie) : Prop := HeaderFits mode ie.type ie.value.length ∧
    instRead mode (2 ^ 4 * ie.spare + ie.inst) = ie.inst

/- The element that the block parser makes of it. -/
structure Sent (ie : Ie) (tlv : Element) : Prop where
  type : tlv.type = ie.type
  inst : tlv.inst = ie.inst
  length : tlv.length = ie.value.length
  value : Holds tlv.value 0 ie.value

end Ie

/- A message is its elements, one behind the other. -/
def messageOctets (mode : Mode) (ies : List Ie) : List UInt8 := ies.flatMap (Ie.octets mode)

theorem tlvGetElement_ie {ie : Ie} (hFits : ie.Fits mode)
    (hHolds : Holds data pos (ie.octets mode)) :
    ∃ tlv, (tlvGetElement data mode pos).value = (tlv, pos + (ie.octets mode).length) ∧
      ie.Sent tlv := by
  rcases tlvGetElement_octets hFits.1 hHolds with ⟨ptr, hValue, hGet⟩
  exact ⟨_, hGet, rfl, hFits.2, rfl, hValue⟩

/- The block of a message, for every size of the pool. -/
theorem ogsTlvParseBlock_ies (hSome : ies ≠ []) (hFits : ∀ ie ∈ ies, ie.Fits mode) :
    ∃ root, List.Forall₂ Ie.Sent ies root ∧ ∀ avail tlvs,
        (ogsTlvParseBlock avail (messageOctets mode ies).length
            (fun i => (messageOctets mode ies).getD i 0) mode).value = .ok tlvs ↔
          tlvs = root ∧ ies.length ≤ avail := by
  have hPos : ∀ ie ∈ ies, 0 < (ie.octets mode).length := by
    intro ie _
    rw [Ie.octets, List.length_append]
    cases mode <;> simp [headerLength]
  rcases parseElements_items hSome hPos (fun ie hMem _ hHolds => tlvGetElement_ie (hFits ie hMem)
    hHolds) holds_getD (Nat.zero_add _) le_rfl with ⟨root, hRoot, hSent⟩
  have hLength := hSent.length_eq
  refine ⟨root, hSent, ?_⟩
  intro avail tlvs
  constructor
  · intro hParse
    rcases parseElements_avail hParse (le_max_left tlvs.length root.length) with ⟨hLarge, hAvail⟩
    have hSame := (parseElements_avail hRoot (le_max_right tlvs.length root.length)).1
    have hEq : tlvs = root := Except.ok.inj (hLarge.symm.trans hSame)
    refine ⟨hEq, ?_⟩
    rw [hLength, ← hEq]
    exact hAvail
  · rintro ⟨rfl, hAvail⟩
    exact (parseElements_avail hRoot (by omega)).1

/- Acceptance of a message, by the parse of its top level. -/
theorem ogsTlvParseMsg_ok_iff
    (hBlock : ∀ avail tlvs, (ogsTlvParseBlock avail octets.length
            (fun i => octets.getD i 0) mode).value = .ok tlvs ↔ tlvs = root ∧ count ≤ avail) :
    ogsTlvParseMsg avail msg desc octets mode = .ok (.ok, result) ↔
      (desc.ctype = .tlvMessage ∧ desc.childDescs ≠ []) ∧ count ≤ avail ∧ ∃ t,
          tlvParseCompound maxLevels mode desc root 0 ⟨msg, avail - root.length⟩ = .ok (.ok, t) ∧
            t.msg = result := by
  have hOk := hBlock avail root
  unfold ogsTlvParseMsg parseMsgWith
  by_cases hType : desc.ctype = .tlvMessage
  · by_cases hNone : desc.childDescs = []
    · simp [hType, hNone, throw, throwThe, MonadExceptOf.throw, bind, Except.bind]
    · have hEmpty : ¬ desc.childDescs.isEmpty = true := by
        simpa using hNone
      rw [if_neg hEmpty]
      simp only [hType, hNone, ne_eq, not_false_eq_true, and_self, true_and]
      cases hValue : (ogsTlvParseBlock avail octets.length
          (fun i => octets.getD i 0) mode).value with
      | error reject =>
          have hShort : ¬ count ≤ avail := by
            intro hAvail
            have hAccept := hOk.mpr ⟨rfl, hAvail⟩
            rw [hValue] at hAccept
            cases hAccept
          cases reject <;> simp [hShort, pure, Except.pure, throw, throwThe, MonadExceptOf.throw]
      | ok tlvs =>
          rcases (hBlock avail tlvs).mp hValue with ⟨rfl, hAvail⟩
          simp only [hAvail, true_and]
          cases hLevel : tlvParseCompound maxLevels mode desc tlvs 0 ⟨msg, avail - tlvs.length⟩ with
          | error fault => simp [bind, Except.bind]
          | ok done => simp [bind, Except.bind, pure, Except.pure, Prod.ext_iff]
  · simp [hType, throw, throwThe, MonadExceptOf.throw, bind, Except.bind]

/- The top level, which leaves eight levels below it. -/
theorem topLevel_ok_iff : tlvParseCompound maxLevels mode desc root 0 s = .ok (.ok, t) ↔
      (root.map Element.key).toFinset.card ≤ ogsTlvMaxChildDesc ∧
        parseFree (parseIe (tlvParseCompound 8 mode) mode) desc.childDescs 0 root (fun _ => 0) s =
            .ok (.ok, t) := tlvParseCompound_ok_iff

---- Names That Are Not Described ----

/- Every repetition mark follows what it repeats. -/
structure Marked (descs : List Desc) : Prop where
  marked : (slots descs).flatMap Slot.descs = descs
  plain : ∀ s ∈ slots descs, s.desc.ctype ≠ .tlvMore

/- No descriptor of an element has the name. -/
def Undescribed (descs : List Desc) (key : Nat × Nat) : Prop := ∀ s ∈ slots descs, s.key ≠ key

/- No repetition mark has the name. -/
def Unmarked (descs : List Desc) (key : Nat × Nat) : Prop :=
  key = (0, 0) → ∀ s ∈ slots descs, s.more = none

section Lookup

variable {ss : List Slot} {key : Nat × Nat}

theorem not_named {s : Slot} (hName : s.key ≠ key) : named key s.desc = false := by
  simp only [named, decide_eq_false_iff_not]
  rintro ⟨hType, hInst⟩
  exact hName (Prod.ext hType hInst)

theorem named_mark : named key (ogsTlvDescMore length) = decide (key = (0, 0)) := by
  simp only [named, ogsTlvDescMore, Prod.ext_iff, eq_comm]

/- A descriptor that is not repeated. -/
def Slot.single (desc : Desc) : Slot := ⟨desc, none⟩

/- The walk over slots that do not have the name. -/
theorem findDescFrom_none {pos index offset matchI : Nat} {prev : Option Desc}
    (hPlain : ∀ s ∈ ss, s.desc.ctype ≠ .tlvMore) (hNames : ∀ s ∈ ss, s.key ≠ key)
    (hMarks : key = (0, 0) → ∀ s ∈ ss, s.more = none) :
    findDescFrom key.1 key.2 pos (ss.flatMap Slot.descs) prev index offset matchI = .ok none := by
  induction ss generalizing prev index offset matchI with
  | nil => rfl
  | cons s rest ih =>
    have hName := not_named (hNames s List.mem_cons_self)
    have hHead := hPlain s List.mem_cons_self
    have hRest := fun (prev : Option Desc) (index offset matchI : Nat) =>
      @ih index offset matchI prev (fun r hr => hPlain r (List.mem_cons_of_mem s hr))
        (fun r hr => hNames r (List.mem_cons_of_mem s hr)) (fun hZero r hr =>
          hMarks hZero r (List.mem_cons_of_mem s hr))
    rw [List.flatMap_cons, Slot.descs]
    cases hMore : s.more with
    | none =>
      rw [List.singleton_append, findDescFrom_pass (by simp [hName]) hHead]
      exact hRest _ _ _ _
    | some length =>
      have hMark : named key (ogsTlvDescMore length) = false := by
        rw [named_mark, decide_eq_false_iff_not]
        intro hZero
        have hNone := hMarks hZero s List.mem_cons_self
        rw [hMore] at hNone
        cases hNone
      rw [List.cons_append, List.singleton_append, findDescFrom_pass (by simp [hName]) hHead,
        findDescFrom_mark (by simp [hMark]) hHead]
      exact hRest _ _ _ _

end Lookup

/- The lookup of a name that nothing has. -/
theorem tlvFindDescByTypeInst_none (n : Nat) (hMarked : Marked descs)
    (hUndescribed : Undescribed descs key) (hUnmarked : Unmarked descs key) :
    tlvFindDescByTypeInst descs key.1 key.2 n = .ok none := by
  rw [← hMarked.marked]
  exact findDescFrom_none hMarked.plain hUndescribed hUnmarked

/- The first lookup of the name (0, 0) finds the first mark, behind which there is no other mark. -/
theorem tlvFindDescByTypeInst_mark (hMarked : Marked descs)
    (hUndescribed : Undescribed descs (0, 0)) (hRepeats : ∃ s ∈ slots descs, s.more ≠ none) :
    ∃ found length, tlvFindDescByTypeInst descs 0 0 0 = .ok (some found) ∧
      found.desc = ogsTlvDescMore length ∧ ∀ next, descs[found.index + 1]? = some next →
        next.ctype ≠ .tlvMore := by
  have hFirst : ((slots descs).find? (·.more.isSome)).isSome := by
    rw [List.find?_isSome]
    rcases hRepeats with ⟨s, hMem, hMore⟩
    exact ⟨s, hMem, isSome_iff_ne_none.mpr hMore⟩
  rcases isSome_iff_exists.mp hFirst with ⟨s, hFind⟩
  rcases List.find?_eq_some_iff_append.mp hFind with ⟨hMore, pre, suf, hSlots, hPre⟩
  rcases isSome_iff_exists.mp hMore with ⟨length, hLength⟩
  have hPlain := hMarked.plain
  rw [hSlots] at hPlain
  -- the descriptors up to the mark, as slots without marks
  have hDescs : descs = (pre ++ [Slot.single s.desc]).flatMap Slot.descs ++
    ogsTlvDescMore length :: suf.flatMap Slot.descs := by
    rw [← hMarked.marked, hSlots]
    simp [Slot.descs, Slot.single, hLength]
  have hNames : ((pre ++ [Slot.single s.desc]).flatMap Slot.descs).countP (named (0, 0)) = 0 := by
    rw [List.countP_eq_zero]
    intro desc hMem hNamed
    rcases List.mem_flatMap.mp hMem with ⟨p, hp, hDesc⟩
    have hSingle : p.more = none := by
      rcases List.mem_append.mp hp with hp | hp
      · have hNone := hPre p hp
        simpa using hNone
      · rw [List.mem_singleton.mp hp]
        rfl
    have hSlot : ∃ q ∈ slots descs, q.desc = p.desc := by
      rw [hSlots]
      rcases List.mem_append.mp hp with hp | hp
      · exact ⟨p, by simp [hp], rfl⟩
      · rw [List.mem_singleton.mp hp]
        exact ⟨s, by simp, rfl⟩
    rcases hSlot with ⟨q, hq, hSame⟩
    rw [Slot.descs, hSingle] at hDesc
    rw [List.mem_singleton.mp hDesc, ← hSame, not_named (hUndescribed q hq)] at hNamed
    contradiction
  have hHit := @findDescFrom_slots (ogsTlvDescMore length) (0, 0) 0 0 0
    (suf.flatMap Slot.descs) 0 (pre ++ [Slot.single s.desc]) none (by
      intro p hp
      rcases List.mem_append.mp hp with hp | hp
      · exact hPlain p (by simp [hp])
      · rw [List.mem_singleton.mp hp]
        exact hPlain s (by simp))
    (by simp [named_mark]) (by rw [hNames])
  rw [← hDescs] at hHit
  refine ⟨_, length, hHit, rfl, ?_⟩
  intro next hNext
  simp only [Nat.zero_add] at hNext
  rw [hDescs, List.getElem?_append_right (by omega),
    Nat.add_sub_cancel_left] at hNext
  cases suf with
  | nil => cases hNext
  | cons r rest =>
    have hHead : next = r.desc := by
      rw [List.flatMap_cons, Slot.descs] at hNext
      cases hRepeat : r.more with
      | none =>
        rw [hRepeat] at hNext
        exact (Option.some.inj hNext).symm
      | some _ =>
        rw [hRepeat] at hNext
        exact (Option.some.inj hNext).symm
    rw [hHead]
    exact hPlain r (by simp)

---- Skipping An Element ----

section Skip

variable {parse : ParseIe} {descs : List Desc} {base : Nat} {tlv : Element}

theorem takeElement_unknown (hMarked : Marked descs)
    (hUndescribed : Undescribed descs tlv.key) (hUnmarked : Unmarked descs tlv.key) :
    takeElement parse descs base tlv n s = .ok (.ok, s, n) := by
  have hFind := tlvFindDescByTypeInst_none n hMarked hUndescribed hUnmarked
  simp only [Element.key] at hFind
  rw [takeElement, hFind]
  rfl

/- An element that nothing describes leaves no trace. -/
theorem parseFree_skip
    (hMarked : Marked descs) (hUndescribed : Undescribed descs tlv.key)
    (hUnmarked : Unmarked descs tlv.key) :
    parseFree parse descs base (before ++ tlv :: after) count s =
      parseFree parse descs base (before ++ after) count s := by
  induction before generalizing count s with
  | nil =>
    rw [List.nil_append, List.nil_append, parseFree,
      takeElement_unknown hMarked hUndescribed hUnmarked]
    simp only [bind, Except.bind, goOn, ne_eq, not_true_eq_false, if_false, update_eq_self]
  | cons first before ih =>
    rw [List.cons_append, parseFree]
    congr 2
    funext n s
    exact ih

variable {nested :
  Desc → List Element → Nat → Parsing →
    Except Fault (Rv × Parsing)}
variable {mode : Mode}

/- A repetition mark is no kind of leaf. -/
theorem takeElement_mark (hMarked : Marked descs) (hKey : tlv.key = (0, 0))
    (hUndescribed : Undescribed descs (0, 0)) (hRepeats : ∃ s ∈ slots descs, s.more ≠ none) :
    ∃ n, takeElement (parseIe nested mode) descs base tlv 0 s = .ok (.error, s, n) := by
  rcases tlvFindDescByTypeInst_mark hMarked hUndescribed hRepeats with
    ⟨found, length, hFind, hDesc, hBehind⟩
  have hType : tlv.type = 0 := congrArg Prod.fst hKey
  have hInst : tlv.inst = 0 := congrArg Prod.snd hKey
  have hPlace : placeOf s.msg base descs found = (false, some (base + found.offset)) := by
    unfold placeOf
    cases hNext : descs[found.index + 1]? with
    | none => rfl
    | some next => simp only [if_neg (hBehind next hNext)]
  rw [takeElement, hType, hInst, hFind]
  simp only [bind, Except.bind, hPlace, hDesc]
  exact ⟨_, rfl⟩

/- An element that hits a mark is never accepted. -/
theorem parseFree_mark (before after : List Element) (count : Nat × Nat → Nat) (s t : Parsing)
    (hMarked : Marked descs) (hKey : tlv.key = (0, 0)) (hUndescribed : Undescribed descs (0, 0))
    (hRepeats : ∃ s ∈ slots descs, s.more ≠ none) (hCount : count (0, 0) = 0) :
    parseFree (parseIe nested mode) descs base (before ++ tlv :: after) count s ≠ .ok (.ok, t) := by
  induction before generalizing count s with
  | nil =>
    rcases takeElement_mark hMarked hKey hUndescribed hRepeats with ⟨n, hTake⟩
    intro hFree
    rw [List.nil_append, parseFree, hKey, hCount, hTake] at hFree
    cases hFree
  | cons first before ih =>
    intro hFree
    rcases Faulty.bind_eq_ok.mp hFree with ⟨taken, hTake, hRest⟩
    unfold goOn at hRest
    split at hRest
    · cases hRest
    · rename_i hOk
      by_cases hFirst : first.key = (0, 0)
      · -- an earlier element of that name has failed
        rcases takeElement_mark hMarked hFirst hUndescribed hRepeats with ⟨n, hFail⟩
        rw [hFirst, hCount, hFail] at hTake
        cases hTake
        exact hOk (fun hSame => by cases hSame)
      · apply ih _ _ _ hRest
        rw [update_of_ne (Ne.symm hFirst)]
        exact hCount

end Skip

---- Messages With An Unknown Element ----

theorem Ie.Sent.key {ie : Ie} (hSent : ie.Sent tlv) : tlv.key = ie.key := by
  rw [Element.key, Ie.key, hSent.type, hSent.inst]

theorem map_key_sent (hSent : List.Forall₂ Ie.Sent ies tlvs) :
    tlvs.map Element.key = ies.map Ie.key := by
  induction hSent with
  | nil => rfl
  | cons hOne _ ih => rw [List.map_cons, List.map_cons, hOne.key, ih]

/- The same elements in two packets agree. -/
theorem sameElement_of_sent (hSent : List.Forall₂ Ie.Sent ies tlvs)
    (hSent' : List.Forall₂ Ie.Sent ies tlvs') : List.Forall₂ SameElement tlvs tlvs' := by
  induction hSent generalizing tlvs' with
  | nil =>
    cases hSent'
    exact .nil
  | cons hOne _ ih =>
    cases hSent' with
    | cons hOne' hRest' =>
      refine .cons ⟨?_, ?_, ?_, ?_⟩ (ih hRest')
      · rw [hOne'.type, hOne.type]
      · rw [hOne'.inst, hOne.inst]
      · rw [hOne'.length, hOne.length]
      · intro i hLt
        rw [hOne.length] at hLt
        have hLeft := hOne.value i hLt
        have hRight := hOne'.value i hLt
        rw [Nat.zero_add] at hLeft hRight
        rw [hRight, hLeft]

/- One more name in the table of count nodes. -/
theorem card_insert_key (key : Nat × Nat)
    (hShort : (before ++ after).toFinset.card ≤ ogsTlvMaxChildDesc) :
    (before ++ key :: after).toFinset.card ≤ ogsTlvMaxChildDesc ↔ key ∈ before ++ after ∨
        (before ++ after).toFinset.card < ogsTlvMaxChildDesc := by
  have hSet : (before ++ key :: after).toFinset = insert key (before ++ after).toFinset := by
    ext k
    simp only [List.mem_toFinset, List.mem_append, List.mem_cons, mem_insert]
    tauto
  rw [hSet]
  by_cases hOld : key ∈ before ++ after
  · rw [insert_eq_of_mem (List.mem_toFinset.mpr hOld)]
    exact iff_of_true hShort (Or.inl hOld)
  · rw [card_insert_of_notMem (by rwa [List.mem_toFinset])]
    exact ⟨Or.inr, fun hRoom => hRoom.resolve_left hOld⟩

/-
  An element with an undescribed name, put between any two elements of a message that is accepted,
  is accepted with the same message exactly when it does not have the name of a repetition mark of
  the level, and a count node is left for its name.
-/
theorem unknown_ie_is_transparent (avail : Nat) (msg result : Msg) (desc : Desc) (mode : Mode)
    (before after : List Ie) (ie : Ie) (hMarked : Marked desc.childDescs)
    (hFits : ∀ x ∈ before ++ ie :: after, x.Fits mode) (hSome : before ++ after ≠ [])
    (hAccept : ogsTlvParseMsg avail msg desc (messageOctets mode (before ++ after)) mode =
          .ok (.ok, result)) (hUndescribed : Undescribed desc.childDescs ie.key) :
    (∃ result', ogsTlvParseMsg (avail + 1) msg desc
          (messageOctets mode (before ++ ie :: after)) mode = .ok (.ok, result') ∧
        SameMsg result result') ↔ Unmarked desc.childDescs ie.key ∧
        (ie.key ∈ (before ++ after).map Ie.key ∨ ((before ++ after).map Ie.key).toFinset.card <
            ogsTlvMaxChildDesc) := by
  have hKnown : ∀ x ∈ before ++ after, x.Fits mode := by
    intro x hMem
    apply hFits
    rcases List.mem_append.mp hMem with hLeft | hRight
    · exact List.mem_append_left _ hLeft
    · exact List.mem_append_right _ (List.mem_cons_of_mem ie hRight)
  rcases ogsTlvParseBlock_ies hSome hKnown with ⟨root, hRoot, hBlock⟩
  rcases ogsTlvParseBlock_ies (by simp) hFits with ⟨root', hRoot', hBlock'⟩
  rw [ogsTlvParseMsg_ok_iff hBlock] at hAccept
  rcases hAccept with ⟨hDesc, hAvail, t, hTop, rfl⟩
  rcases topLevel_ok_iff.mp hTop with ⟨hCard, hFree⟩
  -- the elements of the longer packet around the new one
  rcases forall₂_append_left hRoot' with ⟨first, rest, rfl, hFirst, hRest⟩
  cases hRest with
  | cons hIe hLast =>
    rename_i tlv last
    have hSent := List.rel_append hFirst hLast
    have hOthers := sameElement_of_sent hRoot hSent
    have hLength := hOthers.length_eq
    have hPool : avail + 1 - (first ++ tlv :: last).length = avail - root.length := by
      rw [hLength]
      simp only [List.length_append, List.length_cons]
      omega
    have hMore : (before ++ ie :: after).length ≤ avail + 1 := by
      simp only [List.length_append, List.length_cons] at hAvail ⊢
      omega
    have hKeys : (first ++ tlv :: last).map Element.key =
      before.map Ie.key ++ ie.key :: after.map Ie.key := by
      rw [List.map_append, List.map_cons, map_key_sent hFirst, map_key_sent hLast, hIe.key]
    rw [map_key_sent hRoot, List.map_append] at hCard
    have hTable := card_insert_key ie.key hCard
    rw [← hIe.key] at hUndescribed hTable
    simp only [ogsTlvParseMsg_ok_iff hBlock',
      topLevel_ok_iff, hDesc, hMore, true_and, hPool, hKeys, List.map_append, ← hIe.key, ne_eq,
      not_false_eq_true]
    constructor
    · rintro ⟨result', ⟨t', ⟨hRoom, hAccept'⟩, _⟩, _⟩
      refine ⟨?_, hTable.mp hRoom⟩
      intro hZero s hMem
      by_contra hMark
      rw [hZero] at hUndescribed
      exact parseFree_mark first last _ _ t' hMarked hZero
        hUndescribed ⟨s, hMem, hMark⟩ rfl hAccept'
    · rintro ⟨hUnmarked, hRoom⟩
      rw [parseFree_skip hMarked hUndescribed hUnmarked]
      have hRespects : Respects (parseIe (tlvParseCompound 8 mode) mode) := parseIe_respects
        (fun _ _ _ _ _ _ hAll hSame => tlvParseCompound_follows hAll hSame)
      rcases parseFree_follows hRespects hOthers ⟨SameMsg.refl, rfl⟩ t hFree with
        ⟨t', hFree', hSame⟩
      exact ⟨t'.msg, ⟨t', ⟨hTable.mpr hRoom, hFree'⟩, rfl⟩, hSame.msg⟩

/- A string of type 1 that may come twice. -/
def repeatedDesc : Desc where
  ctype := .tlvMessage
  type := 0
  length := 0
  inst := 0
  vsize := 48
  childDescs :=
    [{ ctype := .tlvVarStr
       type := 1
       length := 0
       inst := 0
       vsize := 24
       childDescs := [] }, ogsTlvDescMore 2]

theorem repeatedDesc_marked : Marked repeatedDesc.childDescs := by
  constructor
  · rfl
  · intro s hMem
    rw [List.mem_singleton.mp hMem]
    exact nofun

theorem unknown_ie_is_transparent_seven :
    ∃ result, ogsTlvParseMsg 2 Msg.zero repeatedDesc
          (messageOctets .t1L2I1 ([⟨1, 0, 0, [65]⟩] ++ [])) .t1L2I1 = .ok (.ok, result) ∧ ∃ result',
        ogsTlvParseMsg 3 Msg.zero repeatedDesc (messageOctets .t1L2I1
              ([⟨1, 0, 0, [65]⟩] ++ ⟨7, 0, 0, [66]⟩ :: [])) .t1L2I1 = .ok (.ok, result') ∧
        SameMsg result result' := by
  refine ⟨_, rfl, ?_⟩
  apply (unknown_ie_is_transparent 2 Msg.zero _ repeatedDesc
    .t1L2I1 [⟨1, 0, 0, [65]⟩] [] ⟨7, 0, 0, [66]⟩ repeatedDesc_marked _ (by simp) rfl _).mpr
  · exact ⟨nofun, Or.inr (by decide)⟩
  · intro x hMem
    simp only [List.singleton_append, List.mem_cons, List.not_mem_nil, or_false] at hMem
    rcases hMem with rfl | rfl
    · exact ⟨⟨by decide, by decide⟩, rfl⟩
    · exact ⟨⟨by decide, by decide⟩, rfl⟩
  · intro s hMem
    rw [List.mem_singleton.mp hMem]
    exact nofun

/- An element of type 0 in front of a repetition mark. -/
theorem unknown_ie_is_rejected :
    Undescribed repeatedDesc.childDescs (0, 0) ∧ (∃ result, ogsTlvParseMsg 3 Msg.zero repeatedDesc
            (messageOctets .t1L2I1 [⟨1, 0, 0, [65]⟩]) .t1L2I1 = .ok (.ok, result)) ∧ ∃ result,
        ogsTlvParseMsg 3 Msg.zero repeatedDesc (messageOctets .t1L2I1
              [⟨1, 0, 0, [65]⟩, ⟨0, 0, 0, []⟩]) .t1L2I1 = .ok (.error, result) := by
  refine ⟨?_, ⟨_, rfl⟩, ⟨_, rfl⟩⟩
  intro s hMem
  rw [List.mem_singleton.mp hMem]
  exact nofun

end Pretty5gs.Tlv
