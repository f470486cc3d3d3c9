import Pretty5gs.Core.Types
import Pretty5gs.Library.Traced

/-
  Parsing a block of TLV elements.

  A pointer is the memory from an address on, so the reads past the end of a block are the code's
  own. A block parser records the indices that it reads; the hexdump of a rejected block stays below
  the length and is left out.
-/

---- Modes And Descriptors ----

namespace Pretty5gs.Tlv

/- `OGS_TLV_MODE_*` -/
inductive Mode where
  | t1L1
  | t1L2
  | t1L2I1
  | t2L2
  | t1
deriving DecidableEq, Repr

/- The octets before the value of an element. -/
def headerLength (mode : Mode) : Nat :=
  match mode with
  | .t1L1 => 2
  | .t1L2 => 3
  | .t1L2I1 => 4
  | .t2L2 => 4
  | .t1 => 1

/- `ogs_tlv_type_e` -/
inductive Ctype where
  | tlvUint8
  | tlvUint16
  | tlvUint24
  | tlvUint32
  | tlvInt8
  | tlvInt16
  | tlvInt24
  | tlvInt32
  | tlvFixedStr
  | tlvVarStr
  | tlvNull
  | tlvMore
  | tlvCompound
  | tlvMessage
  | tvUint8
  | tvUint16
  | tvUint24
  | tvUint32
  | tvInt8
  | tvInt16
  | tvInt24
  | tvInt32
  | tvFixedStr
  | tvVarStr
  | tvNull
  | tvMore
deriving DecidableEq, Repr

/- The kinds of leaf that the two leaf functions share. -/
inductive Leaf where
  | int (octets : Nat)
  | fixedStr
  | varStr
  | null
deriving DecidableEq, Repr

/- The case labels of the leaf functions' switches. -/
def Ctype.leaf (ctype : Ctype) : Option Leaf :=
  match ctype with
  | .tlvUint8 | .tlvInt8 | .tvUint8 | .tvInt8 => some (.int 1)
  | .tlvUint16 | .tlvInt16 | .tvUint16 | .tvInt16 => some (.int 2)
  | .tlvUint24 | .tlvInt24 | .tvUint24 | .tvInt24 => some (.int 3)
  | .tlvUint32 | .tlvInt32 | .tvUint32 | .tvInt32 => some (.int 4)
  | .tlvFixedStr | .tvFixedStr => some .fixedStr
  | .tlvVarStr => some .varStr
  | .tlvNull | .tvNull => some .null
  | .tlvMore | .tlvCompound | .tlvMessage | .tvVarStr
  | .tvMore => none

/- `ogs_tlv_desc_t` without the name, which is only logged. -/
structure Desc where
  ctype : Ctype
  type : Nat
  length : Nat
  inst : Nat
  vsize : Nat
  childDescs : List Desc

/- `ogs_tlv_desc_more1` to `ogs_tlv_desc_more16` -/
def ogsTlvDescMore (length : Nat) : Desc where
  ctype := .tlvMore
  type := 0
  length := length
  inst := 0
  vsize := 0
  childDescs := []

/- `tlv_ctype2mode` -/
def tlvCtype2mode (ctype : Ctype) (msgMode : Mode) : Mode :=
  match ctype with
  | .tlvUint8 | .tlvUint16 | .tlvUint24 | .tlvUint32
  | .tlvInt8 | .tlvInt16 | .tlvInt24 | .tlvInt32
  | .tlvFixedStr | .tlvVarStr | .tlvNull | .tlvMore
  | .tlvCompound | .tlvMessage => msgMode
  | .tvUint8 | .tvUint16 | .tvUint24 | .tvUint32
  | .tvInt8 | .tvInt16 | .tvInt24 | .tvInt32
  | .tvFixedStr | .tvVarStr | .tvNull | .tvMore => .t1

/- A descriptor that was found, with `*desc_index` and
`*tlv_offset`. -/
structure Found where
  desc : Desc
  index : Nat
  offset : Nat

/-
  The loop of `tlv_find_desc_by_type_inst`. A repetition mark must follow the descriptor that it
  repeats.
-/
def findDescFrom (matchType matchInst matchPos : Nat) (descs : List Desc) (prev : Option Desc)
    (index offset matchI : Nat) : Except Fault (Option Found) :=
  match descs with
  | [] => .ok none
  | desc :: rest =>
      if desc.type = matchType ∧ desc.inst = matchInst ∧ matchI = matchPos then
        .ok (some ⟨desc, index, offset⟩)
      else
        let matchI :=
          if desc.type = matchType ∧ desc.inst = matchInst
          then matchI + 1
          else matchI
        if desc.ctype = .tlvMore then
          match prev with
          | none => .error .assertion
          | some prev =>
              if prev.ctype = .tlvMore then .error .assertion
              else
                -- `prev->vsize * (desc->length - 1)` more
                findDescFrom matchType matchInst matchPos rest (some desc) (index + 1)
                  (offset + prev.vsize * desc.length - prev.vsize) matchI
        else
          findDescFrom matchType matchInst matchPos rest
            (some desc) (index + 1) (offset + desc.vsize) matchI

/- `tlv_find_desc_by_type_inst` -/
def tlvFindDescByTypeInst (descs : List Desc) (matchType matchInst matchPos : Nat) :
    Except Fault (Option Found) := findDescFrom matchType matchInst matchPos descs none 0 0 0

---- Elements ----

/- The memory from an address on. -/
abbrev Ptr := Nat → UInt8

/- The fields of a parsed `ogs_tlv_t`. -/
structure Element where
  type : Nat
  length : Nat
  inst : Nat
  value : Ptr

variable (data : Ptr)

/- An element whose value starts at a position. -/
def elementAt (type length inst pos : Nat) : Element × Nat :=
  ({ type := type
     length := length
     inst := inst
     value := fun i => data (pos + i) }, pos + length)

/- Read an octet as a number. -/
def octet (pos : Nat) : Traced Nat Nat := Traced.read (fun i => (data i).toNat) pos

/- `tlv_get_element` -/
def tlvGetElement (mode : Mode) (pos : Nat) : Traced Nat (Element × Nat) :=
  match mode with
  | .t1L1 => do
      let type ← octet data pos
      let length ← octet data (pos + 1)
      return elementAt data type length 0 (pos + 2)
  | .t1L2 => do
      let type ← octet data pos
      let high ← octet data (pos + 1)
      let low ← octet data (pos + 2)
      return elementAt data type ((high <<< 8) + low) 0 (pos + 3)
  | .t1L2I1 => do
      let type ← octet data pos
      let high ← octet data (pos + 1)
      let low ← octet data (pos + 2)
      let inst ← octet data (pos + 3)
      return elementAt data type ((high <<< 8) + low) (inst &&& 0b00001111) (pos + 4)
  | .t2L2 => do
      let typeHigh ← octet data pos
      let typeLow ← octet data (pos + 1)
      let high ← octet data (pos + 2)
      let low ← octet data (pos + 3)
      return elementAt data ((typeHigh <<< 8) + typeLow) ((high <<< 8) + low) 0 (pos + 4)
  | .t1 => do
      let type ← octet data pos
      return elementAt data type 0 0 (pos + 1)

/- `tlv_get_element_fixed` in its only mode. -/
def tlvGetElementFixed (pos fixedLength : Nat) : Traced Nat (Element × Nat) := do
  let type ← octet data pos
  return elementAt data type fixedLength 0 (pos + 1)

/- `parse_get_element_type` -/
def parseGetElementType (mode : Mode) (pos : Nat) : Traced Nat Nat :=
  match mode with
  | .t1L1 | .t1L2 | .t1L2I1 | .t1 => octet data pos
  | .t2L2 => do
      let high ← octet data pos
      let low ← octet data (pos + 1)
      return (high <<< 8) + low

---- Blocks ----

/- Why no block is returned. -/
inductive Reject where
  -- `ogs_tlv_get` finds no free element
  | noTlv
  -- no descriptor for the type
  | noDesc
  -- the elements do not end at the end of the block
  | badLength
  -- an assertion fails in the walk over the descriptors
  | abort
deriving DecidableEq, Repr

/-
  The loop of the block parsers. Every element is taken from the pool of free elements before it is
  read, so the pool bounds the number of rounds.
-/
def parseElements (get : Nat → Traced Nat (Except Reject (Element × Nat)))
    (length avail pos : Nat) : Traced Nat (Except Reject (List Element)) :=
  match avail with
  | 0 => return .error .noTlv
  | avail + 1 => do
      match ← get pos with
      | .error reject => return .error reject
      | .ok (tlv, pos) =>
          if pos < length then
            let rest ← parseElements get length avail pos
            return rest.map (fun tlvs => tlv :: tlvs)
          else if length ≠ pos then return .error .badLength
          else return .ok [tlv]

/- `ogs_tlv_parse_block` -/
def ogsTlvParseBlock (avail length : Nat) (data : Ptr) (mode : Mode) :
    Traced Nat (Except Reject (List Element)) := parseElements
    (fun pos => do return .ok (← tlvGetElement data mode pos)) length avail 0

/- `ogs_tlv_parse_embedded_block` -/
def ogsTlvParseEmbeddedBlock (avail : Nat) (tlv : Element) (mode : Mode) :
    Traced Nat (Except Reject (List Element)) := ogsTlvParseBlock avail tlv.length tlv.value mode

/- `tlv_get_element_desc` -/
def tlvGetElementDesc (data : Ptr) (msgMode : Mode) (desc : Desc) (pos : Nat) :
    Traced Nat (Except Reject (Element × Nat)) := do
  let tag ← parseGetElementType data msgMode pos
  match tlvFindDescByTypeInst desc.childDescs tag 0 0 with
  | .error _ => return .error .abort
  | .ok none => return .error .noDesc
  | .ok (some found) =>
      let mode := tlvCtype2mode found.desc.ctype msgMode
      if mode = .t1 then return .ok (← tlvGetElementFixed data pos found.desc.length)
      else return .ok (← tlvGetElement data mode pos)

/- `ogs_tlv_parse_block_desc` -/
def ogsTlvParseBlockDesc (avail length : Nat) (data : Ptr) (msgMode : Mode) (desc : Desc) :
    Traced Nat (Except Reject (List Element)) := parseElements (tlvGetElementDesc data msgMode desc)
    length avail 0

end Pretty5gs.Tlv
