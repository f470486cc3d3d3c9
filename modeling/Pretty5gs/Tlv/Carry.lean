import Pretty5gs.Tlv.Format

/-
  The block parser on the octets of the format: it returns the elements that were sent, in order.

  Main results: `tlvGetElement_putHeader`, `parseElements_items`, `ogsTlvParseBlock_wire`.
-/

---- Octets In Memory ----

namespace Pretty5gs.Tlv

open Traced

/- The memory holds these octets from a position on. -/
def Holds (data : Ptr) (pos : Nat) (octets : List UInt8) : Prop :=
  ∀ i (h : i < octets.length), data (pos + i) = octets[i]

variable {data : Ptr}

theorem holds_append :
    Holds data pos (a ++ b) ↔ Holds data pos a ∧ Holds data (pos + a.length) b := by
  constructor
  · intro hAll
    constructor
    · intro i h
      rw [hAll i (by simp only [List.length_append]; omega), List.getElem_append_left h]
    · intro i h
      have hEnd := hAll (a.length + i) (by simp only [List.length_append]; omega)
      rw [Nat.add_assoc, hEnd, List.getElem_append_right (Nat.le_add_right _ _)]
      simp only [Nat.add_sub_cancel_left]
  · rintro ⟨hFirst, hSecond⟩ i h
    by_cases hLow : i < a.length
    · rw [List.getElem_append_left hLow]
      exact hFirst i hLow
    · have hHigh : a.length ≤ i := by omega
      rw [List.getElem_append_right hHigh]
      simp only [List.length_append] at h
      have hOctet := hSecond (i - a.length) (by omega)
      rw [← hOctet]
      congr 1
      omega

theorem holds_cons : Holds data pos (a :: rest) ↔ data pos = a ∧ Holds data (pos + 1) rest := by
  rw [← List.singleton_append, holds_append, List.length_singleton]
  refine and_congr_left fun _ => ⟨fun hHolds => hHolds 0 Nat.one_pos, ?_⟩
  rintro hOctet i hFirst
  cases Nat.lt_one_iff.mp hFirst
  exact hOctet

/- A packet holds its octets. -/
theorem holds_getD : Holds (fun i => octets.getD i 0) 0 octets := by
  intro i h
  simp [List.getD, List.getElem?_eq_getElem h]

theorem octets_of_holds (hHolds : Holds data 0 octets) :
    Ptr.octets data octets.length = octets := by
  apply List.ext_getElem
  · simp [Ptr.octets]
  · intro i h h'
    have hOctet := hHolds i h'
    rw [Nat.zero_add] at hOctet
    simp only [Ptr.octets, List.getElem_map, List.getElem_range, hOctet]

/- The memory behind a pointer into it. -/
theorem Holds.shift (hHolds : Holds data pos octets) :
    Holds (fun i => data (pos + i)) 0 octets := by
  intro i h
  simp only [Nat.zero_add]
  exact hHolds i h

---- Elements ----

/- A parsed element has the name and value of a sent one. -/
structure Carries (body : Desc × Nat → List UInt8) (e : Desc × Nat) (tlv : Element) : Prop where
  type : tlv.type = e.1.type
  inst : tlv.inst = e.1.inst
  length : tlv.length = (body e).length
  value : Holds tlv.value 0 (body e)

/- Two octets of a number below 2^16. -/
theorem shift_add_low (hBound : n < 2 ^ 16) :
    ((UInt8.ofNat (n >>> 8)).toNat <<< 8) + (UInt8.ofNat n).toNat = n := by
  simp only [UInt8.toNat_ofNat', Nat.shiftRight_eq_div_pow, Nat.shiftLeft_eq]
  omega

/- Type and length survive the header of a mode. -/
def HeaderFits (mode : Mode) (type length : Nat) : Prop :=
  match mode with
  | .t1L1 => type < 2 ^ 8 ∧ length < 2 ^ 8
  | .t1L2 => type < 2 ^ 8 ∧ length < 2 ^ 16
  | .t1L2I1 => type < 2 ^ 8 ∧ length < 2 ^ 16
  | .t2L2 => type < 2 ^ 16 ∧ length < 2 ^ 16
  | .t1 => type < 2 ^ 8 ∧ length = 0

/- The instance that is read from the octet of a header. -/
def instRead (mode : Mode) (inst : Nat) : Nat :=
  match mode with
  | .t1L2I1 => inst % 2 ^ 4
  | _ => 0

theorem toNat_ofNat_small {n : Nat} (hBound : n < 2 ^ 8) : (UInt8.ofNat n).toNat = n := by
  rw [UInt8.toNat_ofNat']
  omega

theorem and_instance : (UInt8.ofNat inst).toNat &&& 0b00001111 = inst % 2 ^ 4 := by
  rw [UInt8.toNat_ofNat']
  change _ &&& (2 ^ 4 - 1) = _
  rw [Nat.and_two_pow_sub_one_eq_mod]
  omega

variable {mode : Mode}

/- A header that fits is read back. -/
theorem tlvGetElement_putHeader (hFits : HeaderFits mode type length)
    (hHolds : Holds data pos (putHeader mode type length inst)) :
    (tlvGetElement data mode pos).value = elementAt data type length (instRead mode inst)
        (pos + headerLength mode) := by
  unfold putHeader at hHolds
  cases mode
  all_goals
    rcases hFits with ⟨hType, hLength⟩
    -- the octets of the header, one by one
    simp only [tlvPutType, tlvPutLength, tlvPutInstance, List.cons_append, List.nil_append,
      List.append_nil, holds_cons, Nat.add_assoc, Nat.reduceAdd] at hHolds
    simp only [tlvGetElement, octet, value_bind, value_read, value_pure, hHolds, toNat_ofNat_small,
      shift_add_low, and_instance, hType, hLength, headerLength, instRead]

theorem NameFits.header (hName : NameFits mode desc) (hLength : length < 2 ^ 16) :
    HeaderFits mode desc.type length ∧ instRead mode desc.inst = desc.inst := by
  cases mode with
  | t1L1 => exact hName.elim
  | t1L2 => exact hName.elim
  | t1 => exact hName.elim
  | t1L2I1 => exact ⟨⟨hName.1, hLength⟩, Nat.mod_eq_of_lt hName.2⟩
  | t2L2 => exact ⟨⟨hName.1, hLength⟩, hName.2.symm⟩

/- A header and its value are read back. -/
theorem tlvGetElement_octets (hFits : HeaderFits mode type octets.length)
    (hHolds : Holds data pos (putHeader mode type octets.length inst ++ octets)) :
    ∃ ptr, Holds ptr 0 octets ∧ (tlvGetElement data mode pos).value =
        (⟨type, octets.length, instRead mode inst, ptr⟩, pos +
          (putHeader mode type octets.length inst ++ octets).length) := by
  rcases holds_append.mp hHolds with ⟨hHeader, hBody⟩
  rw [length_putHeader] at hBody
  refine ⟨_, hBody.shift, ?_⟩
  rw [tlvGetElement_putHeader hFits hHeader, List.length_append, length_putHeader, ← Nat.add_assoc]
  rfl

/- A frame is read back as the element it carries. -/
theorem tlvGetElement_frame (hName : NameFits mode e.1) (hLength : (body e).length < 2 ^ 16)
    (hHolds : Holds data pos (frame mode e.1 (body e))) :
    ∃ tlv, (tlvGetElement data mode pos).value = (tlv, pos + (frame mode e.1 (body e)).length) ∧
      Carries body e tlv := by
  rcases hName.header hLength with ⟨hFits, hInst⟩
  rcases tlvGetElement_octets hFits hHolds with ⟨ptr, hValue, hGet⟩
  exact ⟨_, hGet, rfl, hInst, rfl, hValue⟩

/- The elements of a split list are carried in two parts. -/
theorem forall₂_append_left {α β : Type} {R : α → β → Prop} {a b : List α} {l : List β}
    (hAll : List.Forall₂ R (a ++ b) l) :
    ∃ l₁ l₂, l = l₁ ++ l₂ ∧ List.Forall₂ R a l₁ ∧ List.Forall₂ R b l₂ :=
  ⟨l.take a.length, l.drop a.length, (List.take_append_drop _ _).symm,
    (List.forall₂_take_append _ _ _ hAll.flip).flip,
    (List.forall₂_drop_append _ _ _ hAll.flip).flip⟩

/- The loop of `ogs_tlv_parse_block` from a position on. -/
def blockFrom (data : Ptr) (mode : Mode) (length avail pos : Nat) :
    Except Reject (List Element) := (parseElements (fun pos => do
    return .ok (← tlvGetElement data mode pos)) length avail pos).value

/- One round of it. -/
theorem blockFrom_ok_iff (hGet : (tlvGetElement data mode pos).value = (tlv, next)) :
    blockFrom data mode length (avail + 1) pos = .ok tlvs ↔ ∃ rest, tlvs = tlv :: rest ∧
      (next = length ∧ rest = [] ∨
        next < length ∧ blockFrom data mode length avail next = .ok rest) := by
  have hRound : blockFrom data mode length (avail + 1) pos =
    if next < length then (blockFrom data mode length avail next).map (fun tlvs => tlv :: tlvs)
    else if length ≠ next then .error .badLength else .ok [tlv] := by
    simp only [blockFrom, parseElements, value_bind, hGet, value_pure]
    split
    · rfl
    · split <;> rfl
  rw [hRound]
  by_cases hMore : next < length
  · rw [if_pos hMore]
    cases blockFrom data mode length avail next with
    | error reject => simp [Except.map, hMore.ne]
    | ok rest => simp [Except.map, hMore, hMore.ne, eq_comm]
  · rw [if_neg hMore]
    by_cases hEnd : length = next
    · simp [hEnd, eq_comm]
    · simp [hEnd, hMore, Ne.symm hEnd]

/-
  The loop on the octets of a sequence of items that ends at the length, where every item is read
  back as an element. The induction is on the items.
-/
theorem parseElements_items {β : Type} {octets : β → List UInt8} {Read : β → Element → Prop}
    {sent : List β} (hSome : sent ≠ []) (hPos : ∀ e ∈ sent, 0 < (octets e).length)
    (hGet :
      ∀ e ∈ sent, ∀ pos, Holds data pos (octets e) → ∃ tlv, (tlvGetElement data mode pos).value =
            (tlv, pos + (octets e).length) ∧ Read e tlv)
    (hHolds : Holds data pos (sent.flatMap octets))
    (hEnd : pos + (sent.flatMap octets).length = length) (hAvail : sent.length ≤ avail) :
    ∃ tlvs, blockFrom data mode length avail pos = .ok tlvs ∧ List.Forall₂ Read sent tlvs := by
  induction sent generalizing avail pos with
  | nil => exact absurd rfl hSome
  | cons e rest ih =>
    rw [List.flatMap_cons] at hHolds hEnd
    rw [List.length_append] at hEnd
    rcases holds_append.mp hHolds with ⟨hFirst, hRest⟩
    rcases hGet e List.mem_cons_self pos hFirst with ⟨tlv, hTlv, hRead⟩
    cases avail with
    | zero => simp at hAvail
    | succ avail =>
      cases rest with
      | nil =>
        exact ⟨[tlv], (blockFrom_ok_iff hTlv).mpr ⟨[], rfl, .inl ⟨hEnd, rfl⟩⟩, .cons hRead .nil⟩
      | cons next others =>
        have hMore : pos + (octets e).length < length := by
          have hHeader := hPos next (by simp)
          rw [List.flatMap_cons, List.length_append] at hEnd
          omega
        rcases ih (by simp) (fun f hf =>
          hPos f (List.mem_cons_of_mem _ hf))
          (fun f hf => hGet f (List.mem_cons_of_mem _ hf))
          hRest (by omega)
          (Nat.le_of_succ_le_succ hAvail) with
          ⟨tlvs, hTlvs, hAll⟩
        refine ⟨tlv :: tlvs, ?_, .cons hRead hAll⟩
        exact (blockFrom_ok_iff hTlv).mpr ⟨tlvs, rfl, .inr ⟨hMore, hTlvs⟩⟩

/- The frames that a level sends are such items. -/
theorem parseElements_frames (hSome : sent ≠ [])
    (hFits : ∀ e ∈ sent, NameFits mode e.1 ∧ (body e).length < 2 ^ 16)
    (hHolds : Holds data pos (sent.flatMap (fun e => frame mode e.1 (body e))))
    (hEnd : pos + (sent.flatMap (fun e => frame mode e.1 (body e))).length = length)
    (hAvail : sent.length ≤ avail) :
    ∃ tlvs, blockFrom data mode length avail pos = .ok tlvs ∧
      List.Forall₂ (Carries body) sent tlvs := by
  refine parseElements_items hSome ?_ ?_ hHolds hEnd hAvail
  · intro e _
    exact length_frame_pos mode e.1 (body e)
  · intro e hMem pos hFrame
    rcases hFits e hMem with ⟨hName, hLength⟩
    exact tlvGetElement_frame hName hLength hFrame

---- Blocks ----

/- The parsed elements are those that a level sent. -/
def Carried (msg : Msg) (mode : Mode) (levels : Nat) (desc : Desc) (base : Nat)
    (tlvs : List Element) : Prop :=
  match levels with
  | 0 => False
  | levels + 1 =>
      List.Forall₂ (Carries (bodyOf (wire msg mode levels) msg))
        (members msg (slots desc.childDescs) base) tlvs

/- The elements below those of a level. -/
def innerCount (msg : Msg) (levels : Nat) (desc : Desc) (base : Nat) : Nat :=
  match levels with
  | 0 => 0
  | levels + 1 =>
      ((members msg (slots desc.childDescs) base).map (below (nodeCount msg levels))).sum

/- The octets of a level that fits are parsed into it. -/
theorem ogsTlvParseBlock_wire (hFits : Fits msg mode levels desc base)
    (hHolds : Holds data 0 (wire msg mode levels desc base))
    (hAvail : nodeCount msg levels desc base ≤ avail) :
    ∃ tlvs, (ogsTlvParseBlock avail (wire msg mode levels desc base).length data
        mode).value = .ok tlvs ∧ Carried msg mode levels desc base tlvs ∧
      tlvs.length + innerCount msg levels desc base = nodeCount msg levels desc base := by
  cases levels with
  | zero => exact hFits.elim
  | succ levels =>
    have hCount : nodeCount msg (levels + 1) desc base =
      (members msg (slots desc.childDescs) base).length +
        innerCount msg (levels + 1) desc base := by
      rw [nodeCount, innerCount]
      simp
    have hNames : ∀ e ∈ members msg (slots desc.childDescs) base, NameFits mode e.1 ∧
      (bodyOf (wire msg mode levels) msg e).length < 2 ^ 16 :=
      fun e he => ⟨(hFits.2 e he).2.1, (hFits.2 e he).2.2.1⟩
    have hPool : (members msg (slots desc.childDescs) base).length ≤ avail := by omega
    rcases parseElements_frames hFits.1.some_shown hNames hHolds (Nat.zero_add _) hPool with
      ⟨tlvs, hTlvs, hAll⟩
    refine ⟨tlvs, hTlvs, hAll, ?_⟩
    rw [hCount, hAll.length_eq]

end Pretty5gs.Tlv
