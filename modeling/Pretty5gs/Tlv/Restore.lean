import Pretty5gs.Tlv.Carry
import Pretty5gs.Tlv.Place

/-
  Parsing a level restores it: every element that was sent is written to its own place, and the rest
  of the memory stays as it was.

  Main results: `Restored.stable`, `parseSlot_restores`, `parseSlots_restores`.
-/

---- Regions Of Memory ----

namespace Pretty5gs.Tlv

open List Bool

/- No element in the region is present. -/
def Clear (msg : Msg) (lo hi : Nat) : Prop := ∀ a, lo ≤ a → a < hi → (msg a).presence = 0

/- The same memory inside a region. -/
def AgreeOn (msg msg' : Msg) (lo hi : Nat) : Prop := ∀ a, lo ≤ a → a < hi → msg' a = msg a

/- The same memory outside a region. -/
def AgreeOff (msg msg' : Msg) (lo hi : Nat) : Prop := ∀ a, a < lo ∨ hi ≤ a → msg' a = msg a

theorem AgreeOff.refl : AgreeOff msg msg lo hi := fun _ _ => rfl

theorem AgreeOff.trans (hFirst : AgreeOff m m' lo mid) (hSecond : AgreeOff m' m'' mid hi)
    (hLow : lo ≤ mid) (hHigh : mid ≤ hi) : AgreeOff m m'' lo hi := by
  intro a hOut
  rw [hSecond a (by omega), hFirst a (by omega)]

/- What lies before a region is not touched. -/
theorem AgreeOff.agreeOn (hOff : AgreeOff m m' lo hi)
    (hBefore : hi' ≤ lo) : AgreeOn m m' lo' hi' := fun a _ hHigh => hOff a (Or.inl (by omega))

/- What lies behind a region stays clear. -/
theorem Clear.agreeOff (hClear : Clear m lo hi) (hOff : AgreeOff m m' lo mid) (hLow : lo ≤ mid) :
    Clear m' mid hi := by
  intro a hMid hHigh
  rw [hOff a (Or.inr hMid)]
  exact hClear a (by omega) hHigh

variable {msg : Msg}

theorem present_eq_false (hAbsent : (msg a).presence = 0) : present msg a = false := by
  simp [present, hAbsent]

---- Places In A Level ----

theorem mem_places (hMem : a ∈ places vsize room addr) :
    addr ≤ a ∧ a + vsize ≤ addr + vsize * room := by
  induction room generalizing addr with
  | zero => cases hMem
  | succ room ih =>
    rw [Nat.mul_succ]
    rcases mem_cons.mp hMem with rfl | hMem
    · constructor
      · exact le_rfl
      · omega
    · have hBounds := ih hMem
      omega

variable {base : Nat} {e : Desc × Nat}

/- An element lies in its level, under one of the slots. -/
theorem mem_elements (hMem : e ∈ elements ss base) :
    (∃ s ∈ ss, s.desc = e.1) ∧ base ≤ e.2 ∧ e.2 + e.1.vsize ≤ base + levelSize ss := by
  induction ss generalizing base with
  | nil => cases hMem
  | cons s ss ih =>
    rw [levelSize_cons]
    rcases mem_append.mp hMem with hHead | hTail
    · rcases mem_map.mp hHead with ⟨a, hPlace, rfl⟩
      have hBounds := mem_places hPlace
      refine ⟨⟨s, mem_cons_self, rfl⟩, ?_, ?_⟩
      · exact hBounds.1
      · have hSize : s.size = s.desc.vsize * s.room := rfl
        simp only at hBounds ⊢
        omega
    · rcases ih hTail with ⟨⟨s', hSlot, hDesc⟩, hLow, hHigh⟩
      refine ⟨⟨s', mem_cons_of_mem _ hSlot, hDesc⟩, ?_, ?_⟩
      · omega
      · omega

theorem structSize_pos (desc : Desc) : 0 < structSize desc := by
  unfold structSize presenceSize
  split <;> omega

/- The elements of a level that fits are large enough. -/
theorem LevelFits.structSize_le (hLevel : LevelFits msg descs base)
    (hMem : e ∈ elements (slots descs) base) : structSize e.1 ≤ e.1.vsize := by
  rcases mem_elements hMem with ⟨⟨s, hSlot, hDesc⟩, -⟩
  rw [← hDesc]
  exact hLevel.sized s hSlot

variable {desc : Desc}

theorem structSize_compound (hCompound : desc.ctype = .tlvCompound) :
    structSize desc = presenceSize + levelSize (slots desc.childDescs) := by
  rw [structSize, hCompound]
  rfl

---- Restored Elements ----

/- An element has its flag and, when present, its value. -/
structure Restored (msg msg' : Msg) (e : Desc × Nat) : Prop where
  flag : present msg' e.2 = present msg e.2
  leaf : present msg e.2 → e.1.ctype ≠ .tlvCompound → SameLeaf e.1 (msg e.2) (msg' e.2)
  nested : present msg e.2 → e.1.ctype = .tlvCompound → Same msg msg' e.1 (e.2 + presenceSize)

/- A level is the same when its elements are restored. -/
theorem same_iff :
    Same msg msg' desc base ↔ ∀ e ∈ elements (slots desc.childDescs) base, Restored msg msg' e := by
  constructor
  · intro hSame e hMem
    cases hSame with
    | level hFlag hLeaf hNested => exact ⟨hFlag e hMem, hLeaf e hMem, hNested e hMem⟩
  · intro hAll
    constructor
    · exact fun e hMem => (hAll e hMem).flag
    · exact fun e hMem => (hAll e hMem).leaf
    · exact fun e hMem => (hAll e hMem).nested

/- An absent element is restored where nothing is present. -/
theorem restored_absent (hAbsent : present msg e.2 = false) (hClear : (msg' e.2).presence = 0) :
    Restored msg msg' e where
  flag := by rw [hAbsent, present_eq_false hClear]
  leaf := by
    intro hPresent
    rw [hAbsent] at hPresent
    cases hPresent
  nested := by
    intro hPresent
    rw [hAbsent] at hPresent
    cases hPresent

/- An element is read from its own region only; the induction is on the levels below it. -/
theorem Restored.stable (hFits : Fits msg mode (levels + 1) desc base)
    (hMem : e ∈ elements (slots desc.childDescs) base) (hRestored : Restored msg m e)
    (hAgree : AgreeOn m m' e.2 (e.2 + e.1.vsize)) : Restored msg m' e := by
  induction levels using Nat.strong_induction_on generalizing desc base e with
  | _ levels ih =>
    have hStruct := hFits.1.structSize_le hMem
    have hPositive := structSize_pos e.1
    have hField : m' e.2 = m e.2 := hAgree e.2 le_rfl (by omega)
    refine ⟨?_, ?_, ?_⟩
    · rw [← hRestored.flag, present, present, hField]
    · rw [hField]
      exact hRestored.leaf
    · intro hPresent hCompound
      have hValue := (hFits.2 e (hFits.1.mem_members hMem hPresent)).2.2.2
      rw [if_pos hCompound] at hValue
      rw [structSize_compound hCompound] at hStruct
      have hNested := hRestored.nested hPresent hCompound
      cases levels with
      | zero => exact hValue.elim
      | succ levels =>
        rw [same_iff] at hNested ⊢
        intro e' hMem'
        rcases mem_elements hMem' with ⟨-, hLow, hHigh⟩
        refine ih levels (Nat.lt_succ_self _) hValue hMem' (hNested e' hMem') ?_
        exact fun a hStart hEnd => hAgree a (by omega) (by omega)

---- The Loop Over The Elements ----

/- Parsing an element into a clear place restores it. -/
def Restores (msg : Msg) (parse : Desc → Element → Nat → Parsing → Except Fault (Rv × Parsing))
    (body : Desc × Nat → List UInt8) (extra : Desc × Nat → Nat) (e : Desc × Nat) : Prop :=
  ∀ tlv s, Carries body e tlv → Clear s.msg e.2 (e.2 + e.1.vsize) → extra e ≤ s.avail →
    ∃ s', parse e.1 tlv e.2 s = .ok (.ok, s') ∧ s'.avail + extra e = s.avail ∧
      AgreeOff s.msg s'.msg e.2 (e.2 + e.1.vsize) ∧ Restored msg s'.msg e

/-
  A part of the loop over the elements of a level. It writes to one region and takes a number of
  nodes from the pool.
-/
structure Fills (parse : Desc → Element → Nat → Parsing → Except Fault (Rv × Parsing))
    (descs : List Desc) (base : Nat) (tlvs : List Element) (cost lo hi : Nat)
    (before after : Counts × Parsing) : Prop where
  loop : ∀ more, parseChildren parse descs base (tlvs ++ more) before.1 before.2 =
        parseChildren parse descs base more after.1 after.2
  avail : after.2.avail + cost = before.2.avail
  off : AgreeOff before.2.msg after.2.msg lo hi

section

variable
  {parse :
    Desc → Element → Nat → Parsing →
      Except Fault (Rv × Parsing)}
  {descs : List Desc}
  {base : Nat}

theorem Fills.refl : Fills parse descs base [] 0 lo hi x x where
  loop := fun _ => rfl
  avail := rfl
  off := .refl

theorem Fills.trans (hFirst : Fills parse descs base tlvs cost lo mid x y)
    (hSecond : Fills parse descs base tlvs' cost' mid hi y z) (hLow : lo ≤ mid) (hHigh : mid ≤ hi) :
    Fills parse descs base (tlvs ++ tlvs') (cost + cost') lo hi x z where
  loop := by
    intro more
    rw [append_assoc, hFirst.loop, hSecond.loop]
  avail := by
    have hLeft := hFirst.avail
    have hLeft' := hSecond.avail
    omega
  off := hFirst.off.trans hSecond.off hLow hHigh

end

---- Slots ----

theorem LevelFits.slots_length (hLevel : LevelFits msg descs base) :
    (slots descs).length < ogsTlvMaxChildDesc := by
  have hDescs : (slots descs).length ≤ ((slots descs).flatMap Slot.descs).length := by
    generalize slots descs = ss
    induction ss with
    | nil => exact le_rfl
    | cons s ss ih =>
      have hSome : 1 ≤ s.descs.length := by
        rw [Slot.descs]
        cases s.more <;> simp
      rw [flatMap_cons, length_append, length_cons]
      omega
  rw [hLevel.marked] at hDescs
  exact hDescs.trans_lt hLevel.short

/- The elements sent from one row of places. -/
def sent (msg : Msg) (desc : Desc) (room addr : Nat) : List (Desc × Nat) :=
  ((places desc.vsize room addr).takeWhile (present msg)).map (fun a => (desc, a))

theorem sent_absent (hAbsent : present msg addr = false) : sent msg desc (room + 1) addr = [] := by
  rw [sent, places, takeWhile_cons, hAbsent]
  rfl

theorem sent_present (hPresent : present msg addr = true) :
    sent msg desc (room + 1) addr = (desc, addr) :: sent msg desc room (addr + desc.vsize) := by
  rw [sent, places, takeWhile_cons, hPresent]
  rfl

section

-- one level of a message, and a slot of it
variable
  {msg : Msg}
  {mode : Mode}
  {levels : Nat}
  {desc : Desc}
  {base : Nat}
  {parse :
    Desc → Element → Nat → Parsing →
      Except Fault (Rv × Parsing)}
  {body : Desc × Nat → List UInt8}
  {extra : Desc × Nat → Nat}
  {pre suf : List Slot}
  {s : Slot}

theorem mem_placed_of_split (hSlots : ss = pre ++ s :: suf) :
    (s, base + levelSize pre) ∈ placed ss base := by
  rw [hSlots, placed_append]
  exact mem_append_right _ mem_cons_self

theorem mem_elements_of_split (hSlots : ss = pre ++ s :: suf)
    (hPlace : a ∈ s.places (base + levelSize pre)) : (s.desc, a) ∈ elements ss base :=
  mem_flatMap.mpr ⟨_, mem_placed_of_split hSlots, mem_map_of_mem hPlace⟩

variable {counts : Counts} {st : Parsing}

/-
  An element of a slot goes to the place of the slot, and is counted when the slot is a single one.
-/
theorem parseElement_fills (hLevel : LevelFits msg desc.childDescs base)
    (hSlots : slots desc.childDescs = pre ++ s :: suf)
    (hRestores : Restores msg parse body extra (s.desc, a))
    (hShown : a ∈ s.shown msg (base + levelSize pre)) (hCounted :
      Counted (slots desc.childDescs) (matched msg pre base) counts)
    (hCarries : Carries body (s.desc, a) tlv) (hClear : Clear st.msg a (a + s.desc.vsize))
    (hAvail : extra (s.desc, a) ≤ st.avail) (hPlace :
      placeOf st.msg base desc.childDescs ⟨s.desc, (pre.flatMap Slot.descs).length,
            levelSize pre⟩ = (repeated, some a)) : ∃ counts' st', Counted (slots desc.childDescs)
        (matched msg pre base) counts' ∧ s.key ∈ counts'.keys ∧
      Fills parse desc.childDescs base [tlv] (extra (s.desc, a)) a (a + s.desc.vsize) (counts, st)
        (if repeated then counts' else counts'.incr s.key, st') ∧
      Restored msg st'.msg (s.desc, a) := by
  have hMem : s ∈ slots desc.childDescs := by
    rw [hSlots]
    exact mem_append_right _ mem_cons_self
  rcases hCounted.find hLevel.slots_length (mem_map_of_mem hMem) with
    ⟨counts', hFind, hCounted', hKey⟩
  rcases hRestores tlv st hCarries hClear hAvail with ⟨st', hParse, hLeft, hOff, hRestored⟩
  refine ⟨counts', st', hCounted', hKey, ⟨?_, hLeft, hOff⟩, hRestored⟩
  intro more
  -- The count leads to the descriptor of the slot.
  have hOrdered := hLevel.distinguished
  rw [hSlots, placed_append] at hOrdered
  have hPre : ∀ p ∈ placed pre base, Distinguished msg p (s, base + levelSize pre) := fun p hp =>
    (pairwise_append.mp hOrdered).2.2 p hp _ mem_cons_self
  have hCount : (pre.flatMap Slot.descs).countP (named s.key) = counts'.count s.key := by
    rw [hCounted'.count]
    exact countP_named_eq_matched (ne_nil_of_mem hShown) hPre
  have hDescs : desc.childDescs = (pre ++ s :: suf).flatMap Slot.descs := by
    rw [← hSlots, hLevel.marked]
  have hDesc := tlvFindDescByTypeInst_slot hDescs (fun s' hs' => hLevel.plain s' (by
    rw [hSlots]
    exact mem_append_left _ hs'))
  rw [hCount] at hDesc
  have hType : tlv.type = s.desc.type := hCarries.type
  have hInst : tlv.inst = s.desc.inst := hCarries.inst
  rw [singleton_append, parseChildren, hType, hInst]
  simp only [Slot.key] at hFind hDesc ⊢
  simp only [hFind, hDesc, bind, Except.bind, hPlace, hParse]
  rfl

variable {tlvs : List Element}

/-
  The rest of a slot, from an address on. The elements of a group before it are present, so each
  next one finds its own place. The induction is on the elements that remain.
-/
theorem parseSlot_restores (hFits : Fits msg mode (levels + 1) desc base)
    (hParse : ∀ e ∈ members msg (slots desc.childDescs) base, Restores msg parse body extra e)
    (hSlots : slots desc.childDescs = pre ++ s :: suf)
    (hSingle : s.more = none → done = [] ∧ room = 1 ∧ addr = base + levelSize pre)
    (hPlaces : s.places (base + levelSize pre) = done ++ places s.desc.vsize room addr)
    (hDone : ∀ d ∈ done, present msg d ∧ d < addr ∧ present st.msg d)
    (hClear : Clear st.msg addr (addr + s.desc.vsize * room))
    (hCarries : List.Forall₂ (Carries body) (sent msg s.desc room addr) tlvs)
    (hAvail : ((sent msg s.desc room addr).map extra).sum ≤ st.avail)
    (hCounted : Counted (slots desc.childDescs) (matched msg pre base) counts) :
    ∃ counts' st', Counted (slots desc.childDescs) (matched msg (pre ++ [s]) base) counts' ∧
      Fills parse desc.childDescs base tlvs ((sent msg s.desc room addr).map extra).sum addr
        (addr + s.desc.vsize * room) (counts, st) (counts', st') ∧
      ∀ a ∈ places s.desc.vsize room addr, Restored msg st'.msg (s.desc, a) := by
  induction room generalizing addr done counts st tlvs with
  | zero =>
    cases hCarries
    have hGroup : s.more = none → present msg (base + levelSize pre) = false :=
      fun hMore => absurd (hSingle hMore).2.1 (Nat.zero_ne_add_one _)
    refine ⟨counts, st, matched_append_skip hGroup ▸ hCounted, .refl, ?_⟩
    intro a ha
    cases ha
  | succ room ih =>
    have hHere : addr ∈ s.places (base + levelSize pre) := by
      rw [hPlaces]
      exact mem_append_right _ mem_cons_self
    have hElement := mem_elements_of_split hSlots hHere
    have hVsize : 0 < s.desc.vsize := (structSize_pos s.desc).trans_le
      (hFits.1.structSize_le hElement)
    have hEnd : addr + s.desc.vsize * (room + 1) = addr + s.desc.vsize + s.desc.vsize * room := by
      rw [Nat.mul_succ]
      omega
    rw [hEnd] at hClear ⊢
    cases hPresent : present msg addr with
    | false =>
      -- Nothing was sent from here on.
      rw [sent_absent hPresent] at hCarries ⊢
      cases hCarries
      have hSkip : s.more = none → present msg (base + levelSize pre) = false :=
        fun hMore => (hSingle hMore).2.2 ▸ hPresent
      refine ⟨counts, st, matched_append_skip hSkip ▸ hCounted, .refl, ?_⟩
      intro a ha
      have hBounds := mem_places ha
      have hAbsent : present msg a = false := by
        apply eq_false_iff.mpr
        intro hSet
        have hMem := hFits.1.filled _ (mem_placed_of_split hSlots) a (by
          rw [hPlaces]
          exact mem_append_right _ ha) hSet
        rw [Slot.shown, hPlaces, takeWhile_append_of_pos
          (fun d hd => (hDone d hd).1), places, takeWhile_cons, hPresent] at hMem
        simp only [false_eq_true, if_false, append_nil] at hMem
        have hLess := (hDone a hMem).2.1
        omega
      exact restored_absent hAbsent (hClear a hBounds.1 (by omega))
    | true =>
      rw [sent_present hPresent] at hCarries hAvail ⊢
      simp only [map_cons, sum_cons] at hCarries hAvail ⊢
      rcases List.forall₂_cons_left_iff.mp hCarries with ⟨tlv, rest, hTlv, hRest, rfl⟩
      have hShown : addr ∈ s.shown msg (base + levelSize pre) :=
        hFits.1.filled _ (mem_placed_of_split hSlots) addr hHere hPresent
      have hDescs : desc.childDescs = (pre ++ s :: suf).flatMap Slot.descs := by
        rw [← hSlots, hFits.1.marked]
      have hParseHere := hParse _ (hFits.1.mem_members hElement hPresent)
      have hClearHere : Clear st.msg addr (addr + s.desc.vsize) := fun a hLow hHigh =>
        hClear a hLow (by omega)
      cases hMore : s.more with
      | none =>
        -- The element is the only one and is counted.
        rcases hSingle hMore with ⟨-, hRoom, rfl⟩
        cases Nat.succ.inj hRoom
        cases hRest
        have hOwn := placeOf_single st.msg base hDescs (fun s' hs' =>
          hFits.1.plain s' (by
            rw [hSlots]
            exact mem_append_right _ (mem_cons_of_mem _ hs'))) hMore
        rcases parseElement_fills hFits.1 hSlots hParseHere hShown hCounted hTlv hClearHere
          (by omega) hOwn with ⟨counts', st', hCounted', hKey, hFirst, hRestored⟩
        refine ⟨counts'.incr s.key, st', hCounted'.incr hKey ?_, hFirst, ?_⟩
        · intro key
          rw [matched_append, hMore, hPresent]
          rfl
        · intro a ha
          rcases mem_singleton.mp ha with rfl
          exact hRestored
      | some limit =>
        have hGroupPlaces : places s.desc.vsize limit (base + levelSize pre) =
          done ++ addr :: places s.desc.vsize room (addr + s.desc.vsize) := by
          rw [← places, ← hPlaces, Slot.places, Slot.room, hMore]
          rfl
        have hFree := placeOf_group st.msg base hDescs hMore
        rw [firstFree_places hGroupPlaces (fun d hd => (hDone d hd).2.2)
          (hClear addr le_rfl (by omega))] at hFree
        rcases parseElement_fills hFits.1 hSlots hParseHere hShown hCounted hTlv hClearHere
          (by omega) hFree with ⟨counts', st', hCounted', -, hFirst, hRestored⟩
        have hPlaces' : s.places (base + levelSize pre) =
          (done ++ [addr]) ++ places s.desc.vsize room (addr + s.desc.vsize) := by
          rw [hPlaces, append_assoc]
          rfl
        have hDone' : ∀ d ∈ done ++ [addr], present msg d ∧ d < addr + s.desc.vsize ∧
          present st'.msg d := by
          intro d hd
          rcases mem_append.mp hd with hd | hd
          · rcases hDone d hd with ⟨hSent, hLess, hSet⟩
            refine ⟨hSent, by omega, ?_⟩
            rw [present, hFirst.off d (Or.inl hLess)]
            exact hSet
          · rcases mem_singleton.mp hd with rfl
            refine ⟨hPresent, by omega, ?_⟩
            rw [← hPresent]
            exact hRestored.flag
        have hLeft := hFirst.avail
        have hGroup : s.more ≠ none := Option.ne_none_iff_exists'.mpr ⟨limit, hMore⟩
        rcases ih (absurd · hGroup) hPlaces' hDone' (hClear.agreeOff hFirst.off (by omega)) hRest
          (by simp only at hLeft; omega) hCounted' with ⟨counts'', st'', hCounted'', hSecond, hAll⟩
        refine ⟨counts'', st'', hCounted'', hFirst.trans hSecond (by omega) (by omega), ?_⟩
        intro a ha
        rcases mem_cons.mp ha with rfl | ha
        · exact hRestored.stable hFits hElement (hSecond.off.agreeOn le_rfl)
        · exact hAll a ha

/- The rest of a level, by induction on the slots of it. -/
theorem parseSlots_restores (hFits : Fits msg mode (levels + 1) desc base)
    (hParse : ∀ e ∈ members msg (slots desc.childDescs) base, Restores msg parse body extra e)
    (hSlots : slots desc.childDescs = pre ++ suf)
    (hClear : Clear st.msg (base + levelSize pre) (base + levelSize pre + levelSize suf))
    (hCarries : List.Forall₂ (Carries body) (members msg suf (base + levelSize pre)) tlvs)
    (hAvail : ((members msg suf (base + levelSize pre)).map extra).sum ≤ st.avail)
    (hCounted : Counted (slots desc.childDescs) (matched msg pre base) counts) :
    ∃ counts' st', Fills parse desc.childDescs base tlvs
        ((members msg suf (base + levelSize pre)).map extra).sum (base + levelSize pre)
        (base + levelSize pre + levelSize suf) (counts, st) (counts', st') ∧
      ∀ e ∈ elements suf (base + levelSize pre), Restored msg st'.msg e := by
  induction suf generalizing pre counts st tlvs with
  | nil =>
    cases hCarries
    refine ⟨counts, st, .refl, ?_⟩
    intro e he
    cases he
  | cons s suf ih =>
    have hMembers : members msg (s :: suf) (base + levelSize pre) =
      sent msg s.desc s.room (base + levelSize pre) ++ members msg suf
        (base + levelSize pre + s.size) := rfl
    rw [hMembers] at hCarries hAvail ⊢
    rw [map_append, sum_append] at hAvail ⊢
    rw [levelSize_cons, ← Nat.add_assoc] at hClear ⊢
    rcases forall₂_append_left hCarries with ⟨first, rest, rfl, hFirst, hRest⟩
    have hSize : s.desc.vsize * s.room = s.size := rfl
    rcases parseSlot_restores hFits hParse hSlots
      (fun hMore => ⟨rfl, by rw [Slot.room, hMore]; rfl, rfl⟩) (nil_append _).symm nofun
      (fun a hLow hHigh => hClear a hLow (by omega)) hFirst (by omega) hCounted with
      ⟨counts', st', hCounted', hFills, hHead⟩
    rw [hSize] at hFills
    have hNext : base + levelSize (pre ++ [s]) = base + levelSize pre + s.size := by
      rw [levelSize_append, levelSize_cons, Nat.add_assoc]
      rfl
    have hLeft := hFills.avail
    simp only at hLeft
    have hSlots' : slots desc.childDescs = (pre ++ [s]) ++ suf := by
      rw [hSlots, append_assoc]
      rfl
    have hClear' := hClear.agreeOff hFills.off (by omega)
    have hAvail' : ((members msg suf (base + levelSize pre +
      s.size)).map extra).sum ≤ st'.avail := by
      omega
    rw [← hNext] at hRest hClear' hAvail'
    rcases ih hSlots' hClear' hRest hAvail' hCounted' with ⟨counts'', st'', hFills', hAll⟩
    rw [hNext] at hFills' hAll
    refine ⟨counts'', st'', hFills.trans hFills' (by omega) (by omega), ?_⟩
    intro e he
    rcases mem_append.mp he with he | he
    · rcases mem_map.mp he with ⟨a, ha, rfl⟩
      have hBounds := mem_places ha
      apply (hHead a ha).stable hFits (mem_elements_of_split hSlots ha)
      apply hFills'.off.agreeOn
      simp only at hBounds ⊢
      omega
    · exact hAll e he

end

end Pretty5gs.Tlv
