import Pretty5gs.Tlv.Build
import Pretty5gs.Tlv.Restore

/-
  The round trip of a message: its octets are parsed into a message with the same presence flags and
  values.

  Leaves are read back one by one. A compound is read back by its own block, and the induction is on
  the levels.

  Main results: `tlvParseCompound_restores`, `message_round_trip`.
-/

---- Leaves ----

namespace Pretty5gs.Tlv

open List Function

/- The value of a leaf is read back. -/
theorem tlvParseLeaf_same (old : Field) (hFits : LeafFits desc field)
    (hLength : tlv.length = (leafOctets desc field).length)
    (hValue : Holds tlv.value 0 (leafOctets desc field)) :
    ∃ field', tlvParseLeaf old desc tlv = some field' ∧ SameLeaf desc field field' := by
  have hOctets := octets_of_holds hValue
  rw [← hLength] at hOctets
  unfold LeafFits at hFits
  unfold leafOctets at hLength hOctets
  unfold tlvParseLeaf SameLeaf
  cases hLeaf : desc.ctype.leaf with
  | none =>
    rw [hLeaf] at hFits
    exact hFits.elim
  | some leaf =>
    rw [hLeaf] at hFits hLength hOctets
    cases leaf with
    | int octets =>
      simp only [BigEndian.length_encode] at hLength
      rw [hLength] at hOctets
      refine ⟨_, if_neg (not_not.mpr hLength), ?_⟩
      simp only [hOctets, BigEndian.decode_encode]
      exact Nat.mod_eq_of_lt hFits
    | fixedStr =>
      rw [← hFits.1, length_stringOctets hFits.2] at hLength
      refine ⟨_, if_neg (not_not.mpr ?_), hLength, ?_⟩
      · rw [hLength, hFits.1]
      · rw [hFits.1]
        exact hOctets
    | varStr =>
      rw [length_stringOctets (fun _ => hFits.2)] at hLength
      exact ⟨_, rfl, hLength, hOctets⟩
    | null => exact ⟨_, if_neg (not_not.mpr hLength), trivial⟩

theorem present_setPresent : present (Msg.setPresent msg addr) addr = true := by
  simp [present, Msg.setPresent]

theorem Msg.setPresent_agreeOff (hOff : AgreeOff m m' addr (addr + vsize)) (hVsize : 0 < vsize) :
    AgreeOff m (Msg.setPresent m' addr) addr (addr + vsize) := by
  intro a hOut
  rw [Msg.setPresent, update_of_ne (by omega)]
  exact hOff a hOut

---- Elements And Levels ----

section

variable
  {msg : Msg}
  {mode : Mode}
  {nested :
    Desc → List Element → Nat → Parsing →
      Except Fault (Rv × Parsing)}
  {body : Desc × Nat → List UInt8}
  {extra : Desc × Nat → Nat}
  {e : Desc × Nat}

theorem parseIe_leaf_restores (hPresent : present msg e.2 = true) (hVsize : 0 < e.1.vsize)
    (hKind : e.1.ctype ≠ .tlvCompound) (hBody : body e = leafOctets e.1 (msg e.2))
    (hExtra : extra e = 0) (hFits : LeafFits e.1 (msg e.2)) :
    Restores msg (parseIe nested mode) body extra e := by
  intro tlv s hCarries hClear hAvail
  have hLength := hCarries.length
  have hValue := hCarries.value
  rw [hBody] at hLength hValue
  rcases tlvParseLeaf_same (s.msg e.2) hFits hLength hValue with ⟨field, hLeaf, hSame⟩
  refine ⟨{ s with
      msg := Msg.setPresent (Function.update s.msg e.2 field) e.2 }, ?_, ?_, ?_, ?_, ?_, ?_⟩
  · simp only [parseIe, if_neg hKind, hLeaf]
    rfl
  · rw [hExtra]
    rfl
  · apply Msg.setPresent_agreeOff _ hVsize
    intro a hOut
    exact update_of_ne (by omega) _ _
  · rw [present_setPresent, hPresent]
  · intro _ _
    simp only [Msg.setPresent, update_self]
    exact hSame
  · intro _ hCompound
    exact absurd hCompound hKind

end

/- A level is restored from the elements that it sent. -/
def LevelRestores (msg : Msg) (mode : Mode) (levels : Nat) (desc : Desc) (base : Nat) : Prop :=
  ∀ tlvs s, Carried msg mode levels desc base tlvs →
    Clear s.msg base (base + levelSize (slots desc.childDescs)) →
    innerCount msg levels desc base ≤ s.avail →
    ∃ s', tlvParseCompound levels mode desc tlvs base s = .ok (.ok, s') ∧
      s'.avail + innerCount msg levels desc base = s.avail ∧ AgreeOff s.msg s'.msg base
        (base + levelSize (slots desc.childDescs)) ∧ Same msg s'.msg desc base

/-
  A compound, when the level below restores its members. The flag is set last, before the members in
  the memory.
-/
theorem parseIe_compound_restores (hLevel : LevelRestores msg mode levels e.1 (e.2 + presenceSize))
    (hPresent : present msg e.2 = true) (hKind : e.1.ctype = .tlvCompound)
    (hStruct : structSize e.1 ≤ e.1.vsize) (hFits : Fits msg mode levels e.1 (e.2 + presenceSize)) :
    Restores msg (parseIe (tlvParseCompound levels mode) mode) (bodyOf (wire msg mode levels) msg)
      (below (nodeCount msg levels)) e := by
  rw [structSize_compound hKind] at hStruct
  have hPositive : 0 < presenceSize := by decide
  have hExtra : below (nodeCount msg levels) e = nodeCount msg levels e.1 (e.2 + presenceSize) :=
    if_pos hKind
  intro tlv s hCarries hClear hAvail
  rw [hExtra] at hAvail
  have hLength := hCarries.length
  have hValue := hCarries.value
  rw [bodyOf, if_pos hKind] at hLength hValue
  rcases ogsTlvParseBlock_wire hFits hValue hAvail with ⟨tlvs, hBlock, hCarried, hCount⟩
  rw [← hLength] at hBlock
  rcases hLevel tlvs { s with avail := s.avail - tlvs.length } hCarried (fun a hLow hHigh =>
    hClear a (by omega) (by omega))
    (by simp only; omega) with
    ⟨s', hParse, hLeft, hOff, hSame⟩
  simp only at hLeft hOff
  refine ⟨{ s' with msg := Msg.setPresent s'.msg e.2 }, ?_, ?_, ?_, ?_, ?_, ?_⟩
  · simp only [parseIe, if_pos hKind, ogsTlvParseEmbeddedBlock, hBlock, hParse, bind, Except.bind]
    rfl
  · simp only
    omega
  · apply Msg.setPresent_agreeOff _ (by omega)
    exact fun a hOut => hOff a (by omega)
  · rw [present_setPresent, hPresent]
  · intro _ hLeaf
    exact absurd hKind hLeaf
  · intro _ _
    cases levels with
    | zero => exact hFits.elim
    | succ levels =>
      rw [same_iff] at hSame ⊢
      intro e' hMem
      rcases mem_elements hMem with ⟨-, hLow, -⟩
      refine (hSame e' hMem).stable hFits hMem fun a hStart _ => ?_
      exact update_of_ne (by omega) _ _

/- The elements of a level are restored to their places. -/
theorem tlvParseCompound_restores (hFits : Fits msg mode levels desc base) :
    LevelRestores msg mode levels desc base := by
  induction levels generalizing desc base with
  | zero => exact hFits.elim
  | succ levels ih =>
    intro tlvs s hCarried hClear hAvail
    have hParse : ∀ e ∈ members msg (slots desc.childDescs) base, Restores msg
      (parseIe (tlvParseCompound levels mode) mode) (bodyOf (wire msg mode levels) msg)
      (below (nodeCount msg levels)) e := by
      intro e hMem
      rcases mem_elements_of_mem_members hMem with ⟨hElement, hPresent⟩
      have hStruct := hFits.1.structSize_le hElement
      have hVsize : 0 < e.1.vsize := (structSize_pos e.1).trans_le hStruct
      have hValue := (hFits.2 e hMem).2.2.2
      by_cases hKind : e.1.ctype = .tlvCompound
      · rw [if_pos hKind] at hValue
        exact parseIe_compound_restores (ih hValue) hPresent hKind hStruct hValue
      · rw [if_neg hKind] at hValue
        exact parseIe_leaf_restores hPresent hVsize hKind (if_neg hKind) (if_neg hKind) hValue
    rcases parseSlots_restores hFits hParse (nil_append _).symm hClear hCarried hAvail
      counted_empty with ⟨counts, s', hFills, hAll⟩
    have hLoop := hFills.loop []
    rw [append_nil] at hLoop
    exact ⟨s', hLoop, hFills.avail, hFills.off, same_iff.mpr hAll⟩

---- A Message That Fits ----

/- Two octets of type 2, up to three times. -/
def counterDescs : List Desc := [⟨.tlvUint16, 2, 2, 0, 16, []⟩, ogsTlvDescMore 3]

/- A group of counters, and a name with instance 1. -/
def reportDesc : Desc := ⟨.tlvMessage, 1, 0, 0, 0, [⟨.tlvCompound, 1, 0, 0, 56, counterDescs⟩,
      ⟨.tlvVarStr, 3, 0, 1, 24, []⟩]⟩

/- Two counters and a name of two octets. -/
def report : Msg
  | 0 => ⟨1, 0, none, 0⟩
  | 8 => ⟨1, 258, none, 0⟩
  | 24 => ⟨1, 7, none, 0⟩
  | 56 => ⟨1, 0, some (fun i => UInt8.ofNat (65 + i)), 2⟩
  | _ => ⟨0, 0, none, 0⟩

theorem report_fits : Fits report .t1L2I1 maxLevels reportDesc 0 := by
  have hCounters : Fits report .t1L2I1 8 ⟨.tlvCompound, 1, 0, 0, 56, counterDescs⟩ 8 := by
    refine ⟨⟨by decide, rfl, by decide, by decide,
      cons_ne_nil _ _, by decide, by decide⟩, ?_⟩
    intro e he
    rcases mem_pair.mp he with rfl | rfl
    · exact ⟨rfl, ⟨by decide, by decide⟩, by decide, (by decide : 258 < 256 ^ 2)⟩
    · exact ⟨rfl, ⟨by decide, by decide⟩, by decide, (by decide : 7 < 256 ^ 2)⟩
  refine ⟨⟨by decide, rfl, by decide, by decide,
    cons_ne_nil _ _, by decide, by decide⟩, ?_⟩
  intro e he
  rcases mem_pair.mp he with rfl | rfl
  · exact ⟨rfl, ⟨by decide, by decide⟩, by decide, hCounters⟩
  · exact ⟨rfl, ⟨by decide, by decide⟩, by decide, ⟨by decide, rfl⟩⟩

---- Messages ----

/-
  A message that fits is built, and its octets are parsed into a clear message that is then the
  same.
-/
theorem message_round_trip {avail avail' : Nat} {desc : Desc} {mode : Mode} {msg target : Msg}
    (hMessage : desc.ctype = .tlvMessage) (hFits : Fits msg mode maxLevels desc 0)
    (hAvail : nodeCount msg maxLevels desc 0 ≤ avail)
    (hAvail' : nodeCount msg maxLevels desc 0 ≤ avail')
    (hClear : Clear target 0 (levelSize (slots desc.childDescs))) :
    ∃ octets msg', ogsTlvBuildMsg avail desc msg mode = .ok (some octets) ∧
      ogsTlvParseMsg avail' target desc octets mode = .ok (.ok, msg') ∧ Same msg msg' desc 0 := by
  rcases ogsTlvParseBlock_wire hFits holds_getD hAvail' with ⟨tlvs, hBlock, hCarried, hCount⟩
  rw [← Nat.zero_add (levelSize _)] at hClear
  rcases tlvParseCompound_restores hFits tlvs ⟨target, avail' - tlvs.length⟩ hCarried hClear
    (by simp only; omega) with ⟨s', hParse, -, -, hSame⟩
  refine ⟨wire msg mode maxLevels desc 0, s'.msg,
    ogsTlvBuildMsg_eq hMessage hFits hAvail, ?_, hSame⟩
  have hChildren : desc.childDescs.isEmpty = false := by
    apply isEmpty_eq_false_iff.mpr
    intro hEmpty
    apply hFits.1.some_shown
    rw [hEmpty]
    rfl
  simp only [ogsTlvParseMsg, hMessage, hChildren, parseMsgWith, hBlock, hParse, bind, Except.bind]
  rfl

theorem message_round_trip_report :
    ∃ octets msg', ogsTlvBuildMsg 4 reportDesc report .t1L2I1 = .ok (some octets) ∧
      ogsTlvParseMsg 4 Msg.zero reportDesc octets .t1L2I1 = .ok (.ok, msg') ∧
      Same report msg' reportDesc 0 :=
  message_round_trip rfl report_fits (by decide) (by decide) (fun _ _ _ => rfl)

---- Messages That Do Not Return ----

/-
  Build a message, parse its octets, and read presence flags. No result stands for a message that is
  not built.
-/
def flagsAfter (descs : List Desc) (msg : Msg) (mode : Mode) (addrs : List Nat) :
    Except Fault (Option (Rv × List Bool)) := do
  let desc : Desc := ⟨.tlvMessage, 1, 0, 0, 0, descs⟩
  match ← ogsTlvBuildMsg 8 desc msg mode with
  | none => return none
  | some octets =>
      let (rv, msg') ←
        ogsTlvParseMsg 8 Msg.zero desc octets mode
      return some (rv, addrs.map (present msg'))

/- The elements at some addresses are present, with value 5. -/
def fives (addrs : List Nat) : Msg := fun a => ⟨if a ∈ addrs then 1 else 0, 5, none, 0⟩

/- An octet of type 1. -/
def octetDesc (inst : Nat) : Desc := ⟨.tlvUint8, 1, 1, inst, 16, []⟩

/-
  An instance is not carried in the mode without one. The element behind a gap of a group is not
  sent. The only element of two with one name is taken for the first. A compound without members is
  not built.
-/
theorem message_round_trip_lost :
    flagsAfter [octetDesc 1] (fives [0]) .t2L2 [0] = .ok (some (.ok, [false])) ∧
    flagsAfter [octetDesc 0, ogsTlvDescMore 3] (fives [0, 32]) .t1L2I1 [0, 16, 32] =
      .ok (some (.ok, [true, false, false])) ∧ flagsAfter [octetDesc 0, octetDesc 0] (fives [16])
        .t1L2I1 [0, 16] = .ok (some (.ok, [true, false])) ∧
    flagsAfter [⟨.tlvCompound, 2, 0, 0, 24, [octetDesc 0]⟩] (fives [0]) .t1L2I1 [0] = .ok none := by
  refine ⟨rfl, rfl, rfl, rfl⟩

end Pretty5gs.Tlv
