import Mathlib.Logic.Function.Basic
import Pretty5gs.Library.BigEndian
import Pretty5gs.Tlv.Block

/-
  Building and parsing messages by descriptor.

  A message is the memory of its C structure. Every element of it starts with the presence flag, and
  the address of the flag names the element; a compound's members follow its flag. Both directions
  walk the descriptors with the code's own offsets.
-/

---- Messages ----

namespace Pretty5gs.Tlv

/-
  The members of `ogs_tlv_uint8_t` and its siblings, of `ogs_tlv_octet_t` and of `ogs_tlv_null_t`;
  the integer member of any width is `uint`.
-/
structure Field where
  presence : Nat
  uint : Nat
  data : Option Ptr
  len : Nat

def Field.zero : Field where
  presence := 0
  uint := 0
  data := none
  len := 0

/- The element at every address of a message. -/
abbrev Msg := Nat → Field

/- A message that has been set to zero. -/
def Msg.zero : Msg := fun _ => Field.zero

/- `sizeof(ogs_tlv_presence_t)` -/
abbrev presenceSize : Nat := 8

/- The levels that `ogs_assert(depth <= 8)` allows. -/
abbrev maxLevels : Nat := 9

---- Rendering ----

/- A chain of `ogs_tlv_t` linked by `next`, with the chain of embedded elements of each. -/
inductive Chain where
  | null
  | node (mode : Mode) (type length inst : Nat) (value : Option Ptr) (embedded next : Chain)

def Chain.isNull (tlv : Chain) : Bool :=
  match tlv with
  | .null => true
  | .node .. => false

/- Link a chain behind the tail of another. -/
def Chain.append (tlv new : Chain) : Chain :=
  match tlv with
  | .null => new
  | .node mode type length inst value embedded next =>
      .node mode type length inst value embedded (next.append new)

/- `ogs_tlv_calc_length` -/
def ogsTlvCalcLength (tlv : Chain) : Nat :=
  match tlv with
  | .null => 0
  | .node mode _ length _ _ embedded next =>
      headerLength mode + (if embedded.isNull then length
          else ogsTlvCalcLength embedded) +
        ogsTlvCalcLength next

/- `tlv_put_type` -/
def tlvPutType (type : Nat) (mode : Mode) : List UInt8 :=
  match mode with
  | .t1L1 | .t1L2 | .t1L2I1 | .t1 => [UInt8.ofNat type]
  | .t2L2 => [UInt8.ofNat (type >>> 8), UInt8.ofNat type]

/- `tlv_put_length` -/
def tlvPutLength (length : Nat) (mode : Mode) : List UInt8 :=
  match mode with
  | .t1L1 => [UInt8.ofNat length]
  | .t1L2 | .t1L2I1 | .t2L2 => [UInt8.ofNat (length >>> 8), UInt8.ofNat length]
  | .t1 => []

/- `tlv_put_instance` -/
def tlvPutInstance (inst : Nat) (mode : Mode) : List UInt8 :=
  match mode with
  | .t1L2I1 => [UInt8.ofNat inst]
  | _ => []

/- The header that is put before a value. -/
def putHeader (mode : Mode) (type length inst : Nat) : List UInt8 :=
  tlvPutType type mode ++ tlvPutLength length mode ++ tlvPutInstance inst mode

/- The octets that a pointer leads to. -/
def Ptr.octets (ptr : Ptr) (length : Nat) : List UInt8 := (List.range length).map ptr

/- `memcpy`; nothing can be copied from a null pointer. -/
def memcpy (value : Option Ptr) (length : Nat) : Except Fault (List UInt8) :=
  match value with
  | some ptr => .ok (ptr.octets length)
  | none => if length = 0 then .ok [] else .error .assertion

/-
  `ogs_tlv_render` from a position of the buffer on. The length is what `ogs_tlv_calc_length` gave,
  so the position does not pass it.
-/
def ogsTlvRender (tlv : Chain) (pos length : Nat) : Except Fault (List UInt8) :=
  match tlv with
  | .null => .ok []
  | .node mode type size inst value embedded next =>
      if embedded.isNull then do
        let header := putHeader mode type size inst
        let pos := pos + header.length
        if pos + size > length then throw .assertion
        let body ← memcpy value size
        let rest ← ogsTlvRender next (pos + size) length
        return header ++ body ++ rest
      else do
        let embeddedLen := ogsTlvCalcLength embedded
        let header := putHeader mode type embeddedLen inst
        let pos := pos + header.length
        let body ← ogsTlvRender embedded 0 (length - pos)
        let rest ←
          ogsTlvRender next (pos + embeddedLen) length
        return header ++ body ++ rest

---- Building ----

/-
  `ogs_tlv_add` for an element without a parent and `ogs_tlv_embed` for the others: a free element
  is taken and filled, and waits for its embedded chain. Only the first of the two checks the value.
-/
def newTlv (hasParent : Bool) (avail : Nat) (mode : Mode) (type length inst : Nat)
    (value : Option Ptr) : Except Fault (Chain → Chain) :=
  if avail = 0 then .error .assertion
  else if ¬ hasParent ∧ length ≠ 0 ∧ value.isNone then .error .assertion
  else .ok (fun embedded => .node mode type length inst value embedded .null)

/-
  The octets of an integer member after the conversion to network byte order. A 24-bit value is
  shifted up first, and the first three of its four octets are sent.
-/
def intPtr (octets uint : Nat) : Ptr := fun i => if octets = 3 then
      (BigEndian.encode 4 (uint <<< 8)).getD i 0 else (BigEndian.encode octets uint).getD i 0

/- `tlv_add_leaf` -/
def tlvAddLeaf (hasParent : Bool) (avail : Nat) (desc : Desc) (field : Field)
    (msgMode : Mode) : Except Fault (Option Chain) :=
  let add (length : Nat) (value : Option Ptr) := do
    let tlv ← newTlv hasParent avail
      (tlvCtype2mode desc.ctype msgMode) desc.type length desc.inst value
    return some (tlv .null)
  match desc.ctype.leaf with
  | some (.int octets) => add octets (some (intPtr octets field.uint))
  | some .fixedStr => add desc.length field.data
  | some .varStr =>
      if field.len = 0 then .ok none
      else add field.len field.data
  | some .null => add 0 none
  | none => .ok none

/- The chain that was added and the count returned. -/
structure Added where
  tlvs : Chain
  count : Nat

def Added.none : Added where
  tlvs := .null
  count := 0

def Added.append (a b : Added) : Added where
  tlvs := a.tlvs.append b.tlvs
  count := a.count + b.count

/- The test `r <= 0 || !emb_tlv`. -/
def Added.failed (added : Added) : Bool := added.count = 0 || added.tlvs.isNull

/- Add one present element, where `nested` adds the members of a compound. -/
def addIe (nested : Desc → Nat → Nat → Except Fault (Option Added)) (hasParent : Bool) (msg : Msg)
    (mode : Mode) (avail : Nat) (desc : Desc) (offset : Nat) : Except Fault (Option Added) :=
  if desc.ctype = .tlvCompound then do
    let tlv ← newTlv hasParent avail
      (tlvCtype2mode desc.ctype mode) desc.type 0 desc.inst none
    match ← nested desc (offset + presenceSize) (avail - 1)
        with
    | none => return none
    | some added =>
        if added.failed then return none
        else
          return some
            { tlvs := tlv added.tlvs
              count := 1 + added.count }
  else do
    match ← tlvAddLeaf hasParent avail desc (msg offset) mode
        with
    | none => return none
    | some tlv => return some { tlvs := tlv, count := 1 }

/-
  The loop over the elements of a group, which ends at the first absent one. An element that is not
  repeated is a group of one.
-/
def addGroup (add : Nat → Desc → Nat → Except Fault (Option Added)) (msg : Msg) (avail : Nat)
    (desc : Desc) (room offset : Nat) (added : Added) : Except Fault (Option Added) :=
  match room with
  | 0 => return some added
  | room + 1 =>
      if (msg offset).presence = 0 then return some added
      else do
        match ← add (avail - added.count) desc offset with
        | none => return none
        | some new => addGroup add msg avail desc room (offset + desc.vsize) (added.append new)

/- The loop of `tlv_add_compound` over the descriptors. -/
def addChildren (add : Nat → Desc → Nat → Except Fault (Option Added)) (msg : Msg) (avail : Nat)
    (descs : List Desc) (offset : Nat) (added : Added) : Except Fault (Option Added) :=
  match descs with
  | [] => return some added
  | [desc] => addGroup add msg avail desc 1 offset added
  | desc :: next :: rest => do
      if next.ctype = .tlvMore then
        match ← addGroup add msg avail desc next.length offset
            added with
        | none => return none
        | some added => addChildren add msg avail rest (offset + desc.vsize * next.length) added
      else
        match ← addGroup add msg avail desc 1 offset added with
        | none => return none
        | some added => addChildren add msg avail (next :: rest) (offset + desc.vsize) added

/-
  `tlv_add_compound` with the number of levels that may still be opened; the code aborts when there
  is none.
-/
def tlvAddCompound (levels : Nat) (hasParent : Bool) (avail : Nat) (parentDesc : Desc) (msg : Msg)
    (base : Nat) (mode : Mode) : Except Fault (Option Added) :=
  match levels with
  | 0 => .error .assertion
  | levels + 1 =>
      addChildren (addIe (fun desc offset avail =>
            tlvAddCompound levels true avail desc msg offset mode)
          hasParent msg mode)
        msg avail parentDesc.childDescs base Added.none

/- `ogs_tlv_build_msg`, with the octets of the packet. -/
def ogsTlvBuildMsg (avail : Nat) (desc : Desc) (msg : Msg)
    (mode : Mode) : Except Fault (Option (List UInt8)) := do
  if desc.ctype ≠ .tlvMessage then throw .assertion
  if desc.childDescs.isEmpty then return some []
  match ← tlvAddCompound maxLevels false avail desc msg 0 mode
      with
  | none => return none
  | some added =>
      if added.failed then return none
      let length := ogsTlvCalcLength added.tlvs
      let octets ← ogsTlvRender added.tlvs 0 length
      if octets.length ≠ length then return none
      return some octets

---- Parsing ----

/- `tlv_parse_leaf` -/
def tlvParseLeaf (field : Field) (desc : Desc) (tlv : Element) : Option Field :=
  match desc.ctype.leaf with
  | some (.int octets) =>
      if tlv.length ≠ octets then none
      else some
        { field with uint := BigEndian.decode (Ptr.octets tlv.value octets) }
  | some .fixedStr =>
      if tlv.length ≠ desc.length then none
      else some
        { field with
          data := some tlv.value
          len := tlv.length }
  | some .varStr =>
      some
        { field with
          data := some tlv.value
          len := tlv.length }
  | some .null => if tlv.length ≠ 0 then none else some field
  | none => none

/-
  The count nodes of one level, by type and instance. A count passes no further than the number of
  descriptors that match, so it fits the octet it is compared as.
-/
structure Counts where
  keys : List (Nat × Nat)
  count : Nat × Nat → Nat

def Counts.empty : Counts where
  keys := []
  count := fun _ => 0

/- `OGS_TLV_MAX_CHILD_DESC` -/
abbrev ogsTlvMaxChildDesc : Nat := 128

/- `tlv_count_node_find` -/
def tlvCountNodeFind (counts : Counts) (key : Nat × Nat) : Option Counts :=
  if key ∈ counts.keys then some counts
  else if counts.keys.length = ogsTlvMaxChildDesc then none
  else some
    { keys := key :: counts.keys
      count := Function.update counts.count key 0 }

def Counts.incr (counts : Counts) (key : Nat × Nat) : Counts :=
  { counts with
    count :=
      Function.update counts.count key
        (counts.count key + 1) }

/- The first absent element of a group, if there is one. -/
def firstFree (msg : Msg) (vsize room addr : Nat) : Option Nat :=
  match room with
  | 0 => none
  | room + 1 =>
      if (msg addr).presence = 0 then some addr
      else firstFree msg vsize room (addr + vsize)

/- What a level works on. -/
structure Parsing where
  msg : Msg
  avail : Nat

/- Set the presence flag of an element. -/
def Msg.setPresent (msg : Msg) (addr : Nat) : Msg :=
  Function.update msg addr { msg addr with presence := 1 }

/- Parse one element into its place, where `nested` parses the members of a compound. -/
def parseIe (nested : Desc → List Element → Nat → Parsing → Except Fault (Rv × Parsing))
    (mode : Mode) (desc : Desc) (tlv : Element) (addr : Nat)
    (s : Parsing) : Except Fault (Rv × Parsing) :=
  if desc.ctype = .tlvCompound then
    match (ogsTlvParseEmbeddedBlock s.avail tlv mode).value
        with
    | .error _ => return (.error, s)
    | .ok embedded => do
        let (rv, s) ← nested desc embedded
          (addr + presenceSize) { s with avail := s.avail - embedded.length }
        if rv ≠ .ok then return (.error, s)
        return (.ok, { s with msg := Msg.setPresent s.msg addr })
  else
    match tlvParseLeaf (s.msg addr) desc tlv with
    | none => return (.error, s)
    | some field =>
        let msg := Function.update s.msg addr field
        return (.ok, { s with msg := Msg.setPresent msg addr })

/- Where the loop of `tlv_parse_compound` puts an element. -/
def placeOf (msg : Msg) (base : Nat) (descs : List Desc) (found : Found) : Bool × Option Nat :=
  match descs[found.index + 1]? with
  | none => (false, some (base + found.offset))
  | some next =>
      if next.ctype = .tlvMore then
        (true, firstFree msg found.desc.vsize next.length (base + found.offset))
      else (false, some (base + found.offset))

/- The loop of `tlv_parse_compound` over the elements. -/
def parseChildren (parse : Desc → Element → Nat → Parsing → Except Fault (Rv × Parsing))
    (descs : List Desc) (base : Nat) (tlvs : List Element) (counts : Counts)
    (s : Parsing) : Except Fault (Rv × Parsing) :=
  match tlvs with
  | [] => return (.ok, s)
  | tlv :: rest =>
      let key := (tlv.type, tlv.inst)
      match tlvCountNodeFind counts key with
      | none => return (.error, s)
      | some counts => do
          match ← tlvFindDescByTypeInst descs tlv.type tlv.inst
              (counts.count key) with
          | none =>
              -- An unknown element is skipped.
              parseChildren parse descs base rest counts s
          | some found =>
              match placeOf s.msg base descs found with
              | (_, none) =>
                  -- So is one that finds its group full.
                  parseChildren parse descs base rest counts s
              | (repeated, some addr) =>
                  let counts :=
                    if repeated then counts
                    else counts.incr key
                  let (rv, s) ← parse found.desc tlv addr s
                  if rv ≠ .ok then return (.error, s)
                  parseChildren parse descs base rest counts s

/- `tlv_parse_compound`, by the levels left as above. -/
def tlvParseCompound (levels : Nat) (mode : Mode) (parentDesc : Desc) (tlvs : List Element)
    (base : Nat) (s : Parsing) : Except Fault (Rv × Parsing) :=
  match levels with
  | 0 => .error .assertion
  | levels + 1 =>
      parseChildren (parseIe (tlvParseCompound levels mode) mode)
        parentDesc.childDescs base tlvs Counts.empty s

variable (avail : Nat) (msg : Msg) (desc : Desc)

/- The end that the two message parsers share. -/
def parseMsgWith (mode : Mode)
    (block : Except Reject (List Element)) : Except Fault (Rv × Msg) := do
  match block with
  | .error .abort => throw .assertion
  | .error _ => return (.error, msg)
  | .ok root =>
      let (rv, s) ←
        tlvParseCompound maxLevels mode desc root 0 { msg := msg, avail := avail - root.length }
      return (rv, s.msg)

/- `ogs_tlv_parse_msg` -/
def ogsTlvParseMsg (octets : List UInt8) (mode : Mode) : Except Fault (Rv × Msg) := do
  if desc.ctype ≠ .tlvMessage then throw .assertion
  if desc.childDescs.isEmpty then throw .assertion
  parseMsgWith avail msg desc mode (ogsTlvParseBlock avail octets.length
      (fun i => octets.getD i 0) mode).value

/- `ogs_tlv_parse_msg_desc` -/
def ogsTlvParseMsgDesc (octets : List UInt8) (msgMode : Mode) : Except Fault (Rv × Msg) := do
  if desc.ctype ≠ .tlvMessage then throw .assertion
  if desc.childDescs.isEmpty then throw .assertion
  parseMsgWith avail msg desc msgMode (ogsTlvParseBlockDesc avail octets.length
      (fun i => octets.getD i 0) msgMode desc).value

end Pretty5gs.Tlv
