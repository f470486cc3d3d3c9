import Mathlib.Algebra.BigOperators.Group.List.Basic
import Mathlib.Data.List.TakeWhile
import Pretty5gs.Tlv.Message

/-
  The layout of a message, its octets on the wire, and when a message can be carried.

  The descriptors of a level are a list of slots, each with the number of its elements. The format
  is stated from that list, apart from the walks of the code.
-/

---- Slots ----

namespace Pretty5gs.Tlv

/- A descriptor and, when it is repeated, the limit. -/
structure Slot where
  desc : Desc
  more : Option Nat

/- The slots of a list of descriptors. -/
def slots (descs : List Desc) : List Slot :=
  match descs with
  | [] => []
  | [desc] => [⟨desc, none⟩]
  | desc :: next :: rest =>
      if next.ctype = .tlvMore then ⟨desc, some next.length⟩ :: slots rest
      else ⟨desc, none⟩ :: slots (next :: rest)

namespace Slot

/- The descriptors that a slot stands for. -/
def descs (s : Slot) : List Desc :=
  match s.more with
  | none => [s.desc]
  | some length => [s.desc, ogsTlvDescMore length]

/- The number of elements. -/
def room (s : Slot) : Nat := s.more.getD 1

def size (s : Slot) : Nat := s.desc.vsize * s.room

/- The type and instance that name a slot on the wire. -/
def key (s : Slot) : Nat × Nat := (s.desc.type, s.desc.inst)

end Slot

/- The size of a level. -/
def levelSize (ss : List Slot) : Nat := (ss.map Slot.size).sum

/- Slots with their addresses, from an address on. -/
def placed (ss : List Slot) (addr : Nat) : List (Slot × Nat) :=
  match ss with
  | [] => []
  | s :: rest => (s, addr) :: placed rest (addr + s.size)

/- The addresses of a number of elements. -/
def places (vsize room addr : Nat) : List Nat :=
  match room with
  | 0 => []
  | room + 1 => addr :: places vsize room (addr + vsize)

/- The presence flag of an element. -/
def present (msg : Msg) (addr : Nat) : Bool := (msg addr).presence ≠ 0

/- The elements of a slot. -/
def Slot.places (s : Slot) (addr : Nat) : List Nat := Tlv.places s.desc.vsize s.room addr

/- The elements before the first absent one. -/
def Slot.shown (msg : Msg) (s : Slot) (addr : Nat) : List Nat :=
  (s.places addr).takeWhile (present msg)

/- All elements of a level, with their descriptors. -/
def elements (ss : List Slot) (base : Nat) : List (Desc × Nat) := (placed ss base).flatMap
    (fun p => (p.1.places p.2).map (fun a => (p.1.desc, a)))

/- The elements of a level that are sent. -/
def members (msg : Msg) (ss : List Slot) (base : Nat) : List (Desc × Nat) :=
  (placed ss base).flatMap (fun p => (p.1.shown msg p.2).map (fun a => (p.1.desc, a)))

---- The Wire Format ----

/- The octets that a string pointer leads to. -/
def stringOctets (data : Option Ptr) (length : Nat) : List UInt8 :=
  match data with
  | some ptr => Ptr.octets ptr length
  | none => []

/- The value of a leaf. -/
def leafOctets (desc : Desc) (field : Field) : List UInt8 :=
  match desc.ctype.leaf with
  | some (.int octets) => BigEndian.encode octets field.uint
  | some .fixedStr => stringOctets field.data desc.length
  | some .varStr => stringOctets field.data field.len
  | some .null => []
  | none => []

/- A header and the value that it announces. -/
def frame (mode : Mode) (desc : Desc) (body : List UInt8) : List UInt8 :=
  putHeader mode desc.type body.length desc.inst ++ body

@[simp] theorem length_putHeader :
    (putHeader mode type length inst).length = headerLength mode := by
  cases mode <;> rfl

theorem length_frame_pos (mode : Mode) (desc : Desc) (body : List UInt8) :
    0 < (frame mode desc body).length := by
  rw [frame, List.length_append]
  cases mode <;> simp [headerLength]

/- The value of an element, given that of nested levels. -/
def bodyOf (nested : Desc → Nat → List UInt8) (msg : Msg) (e : Desc × Nat) : List UInt8 :=
  if e.1.ctype = .tlvCompound then nested e.1 (e.2 + presenceSize)
  else leafOctets e.1 (msg e.2)

/- The octets of a level. -/
def wire (msg : Msg) (mode : Mode) (levels : Nat) (desc : Desc) (base : Nat) : List UInt8 :=
  match levels with
  | 0 => []
  | levels + 1 =>
      (members msg (slots desc.childDescs) base).flatMap (fun e =>
          frame mode e.1 (bodyOf (wire msg mode levels) msg e))

/- The elements below one, given those of nested levels. -/
def below (nested : Desc → Nat → Nat) (e : Desc × Nat) : Nat :=
  if e.1.ctype = .tlvCompound then nested e.1 (e.2 + presenceSize)
  else 0

/- The number of elements that a level puts on the wire. -/
def nodeCount (msg : Msg) (levels : Nat) (desc : Desc) (base : Nat) : Nat :=
  match levels with
  | 0 => 0
  | levels + 1 =>
      ((members msg (slots desc.childDescs) base).map
        (fun e => 1 + below (nodeCount msg levels) e)).sum

---- Messages That Fit ----

/- The size of the structure of an element. -/
def structSize (desc : Desc) : Nat :=
  match desc.ctype.leaf with
  | some (.int _) => 16
  | some .fixedStr => 24
  | some .varStr => 24
  | some .null => 8
  | none => presenceSize + levelSize (slots desc.childDescs)

/-
  `p` before `q` does not catch the elements of `q`: when they have one name, `p` is not repeated
  and takes its own element first. A repetition mark has the name (0, 0).
-/
def Distinguished (msg : Msg) (p q : Slot × Nat) : Prop := q.1.shown msg q.2 ≠ [] →
    (p.1.key = q.1.key → p.1.more = none ∧ present msg p.2) ∧ (p.1.more.isSome → q.1.key ≠ (0, 0))

instance (msg : Msg) : DecidableRel (Distinguished msg) :=
  fun _ _ => inferInstanceAs (Decidable (_ → _))

/- A level of descriptors and the elements present in it. -/
structure LevelFits (msg : Msg) (descs : List Desc) (base : Nat) : Prop where
  -- the table ends with a null pointer
  short : descs.length < ogsTlvMaxChildDesc
  -- every repetition mark follows what it repeats
  marked : (slots descs).flatMap Slot.descs = descs
  plain : ∀ s ∈ slots descs, s.desc.ctype ≠ .tlvMore
  sized : ∀ s ∈ slots descs, structSize s.desc ≤ s.desc.vsize
  some_shown : members msg (slots descs) base ≠ []
  -- the present elements of a group come first
  filled : ∀ p ∈ placed (slots descs) base, ∀ a ∈ p.1.places p.2, present msg a →
        a ∈ p.1.shown msg p.2
  distinguished : (placed (slots descs) base).Pairwise (Distinguished msg)

/- Type and instance survive the header of a mode. -/
def NameFits (mode : Mode) (desc : Desc) : Prop :=
  match mode with
  | .t1L2I1 => desc.type < 2 ^ 8 ∧ desc.inst < 2 ^ 4
  | .t2L2 => desc.type < 2 ^ 16 ∧ desc.inst = 0
  | _ => False

/- The value of a leaf can be carried. -/
def LeafFits (desc : Desc) (field : Field) : Prop :=
  match desc.ctype.leaf with
  | some (.int octets) => field.uint < 256 ^ octets
  | some .fixedStr => field.len = desc.length ∧ (field.len ≠ 0 → field.data.isSome)
  | some .varStr => field.len ≠ 0 ∧ field.data.isSome
  | some .null => True
  | none => False

/-
  A message fits when its levels do, and every element on the wire has a name and a value that fit
  and fewer than 2^16 octets.
-/
def Fits (msg : Msg) (mode : Mode) (levels : Nat) (desc : Desc) (base : Nat) : Prop :=
  match levels with
  | 0 => False
  | levels + 1 =>
      LevelFits msg desc.childDescs base ∧
      ∀ e ∈ members msg (slots desc.childDescs) base, tlvCtype2mode e.1.ctype mode = mode ∧
        NameFits mode e.1 ∧ (bodyOf (wire msg mode levels) msg e).length < 2 ^ 16 ∧
        if e.1.ctype = .tlvCompound then Fits msg mode levels e.1 (e.2 + presenceSize)
        else LeafFits e.1 (msg e.2)

---- Equal Messages ----

/- The same value of a leaf. -/
def SameLeaf (desc : Desc) (field field' : Field) : Prop :=
  match desc.ctype.leaf with
  | some (.int _) => field'.uint = field.uint
  | some .fixedStr | some .varStr =>
      field'.len = field.len ∧ stringOctets field'.data field'.len =
          stringOctets field.data field.len
  | some .null => True
  | none => False

/-
  The same presence flags and the same values, for every element of a level and of the compounds
  present in it.
-/
inductive Same (msg msg' : Msg) : Desc → Nat → Prop where
  | level {desc : Desc} {base : Nat} (hFlag : ∀ e ∈ elements (slots desc.childDescs) base,
          present msg' e.2 = present msg e.2)
      (hLeaf : ∀ e ∈ elements (slots desc.childDescs) base,
          present msg e.2 → e.1.ctype ≠ .tlvCompound → SameLeaf e.1 (msg e.2) (msg' e.2))
      (hNested : ∀ e ∈ elements (slots desc.childDescs) base,
          present msg e.2 → e.1.ctype = .tlvCompound → Same msg msg' e.1 (e.2 + presenceSize)) :
      Same msg msg' desc base

---- Members Of A Level ----

section

variable
  {msg : Msg}
  {s : Slot}
  {rest : List Slot}
  {base : Nat}

@[simp] theorem members_nil : members msg [] base = [] := rfl

@[simp] theorem members_cons :
    members msg (s :: rest) base = (s.shown msg base).map (fun a => (s.desc, a)) ++
        members msg rest (base + s.size) := rfl

@[simp] theorem elements_nil : elements [] base = [] := rfl

@[simp] theorem elements_cons :
    elements (s :: rest) base = (s.places base).map (fun a => (s.desc, a)) ++
        elements rest (base + s.size) := rfl

end

theorem levelSize_cons : levelSize (s :: rest) = s.size + levelSize rest := by simp [levelSize]

theorem levelSize_append : levelSize (ss ++ tt) = levelSize ss + levelSize tt := by simp [levelSize]

theorem placed_append :
    placed (ss ++ tt) base = placed ss base ++ placed tt (base + levelSize ss) := by
  induction ss generalizing base with
  | nil => simp [placed, levelSize]
  | cons s ss ih => simp only [List.cons_append, placed, ih, levelSize_cons, Nat.add_assoc]

/- A member is a present element. -/
theorem mem_elements_of_mem_members (hMem : e ∈ members msg ss base) :
    e ∈ elements ss base ∧ present msg e.2 := by
  rcases List.mem_flatMap.mp hMem with ⟨p, hPlaced, hShown⟩
  rcases List.mem_map.mp hShown with ⟨a, hTake, rfl⟩
  constructor
  · apply List.mem_flatMap.mpr
    refine ⟨p, hPlaced, List.mem_map.mpr ⟨a, ?_, rfl⟩⟩
    exact (List.takeWhile_prefix _).subset hTake
  · exact List.mem_takeWhile_imp hTake

/- In a level that fits, the present elements are members. -/
theorem LevelFits.mem_members (hFits : LevelFits msg descs base)
    (hMem : e ∈ elements (slots descs) base) (hPresent : present msg e.2) :
    e ∈ members msg (slots descs) base := by
  rcases List.mem_flatMap.mp hMem with ⟨p, hPlaced, hPlaces⟩
  rcases List.mem_map.mp hPlaces with ⟨a, hPlace, rfl⟩
  apply List.mem_flatMap.mpr
  refine ⟨p, hPlaced, List.mem_map.mpr ⟨a, ?_, rfl⟩⟩
  exact hFits.filled p hPlaced a hPlace hPresent

end Pretty5gs.Tlv
