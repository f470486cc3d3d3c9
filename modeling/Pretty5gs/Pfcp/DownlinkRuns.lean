import Pretty5gs.Pfcp.DownlinkBuffer

/-
  What becomes of downlink packets in every run.

  A step lemma for each operation says that no packet is lost or in two places, and that the packets
  of a buffer stay in the order of their delivery.

  Main results: `applyFar_cases` and `upHandlePdr_cases`, `kept_of_reachable`,
  `fars_sessDropBufferedGtpu`, `downlink_packets_are_buffered`.
-/

---- Delivered Packets ----

namespace Pretty5gs.Pfcp.DownlinkBuffer

open Option Faulty List

section Deliveries

variable {network : Network} {s s' : State} {place : Nat} {far : Far} {pkbuf : Pkbuf}
variable {report : Bool}

theorem bufferCap_pos (s : State) (far : Far) : 0 < bufferCap s far := by
  unfold bufferCap
  cases s.bar far.sess with
  | none => decide
  | some count =>
    dsimp only
    split
    · rename_i hCount
      refine Nat.pos_of_ne_zero ?_
      intro hZero
      exact hCount.1 (BitVec.eq_of_toNat_eq hZero)
    · decide

theorem bufferCap_le :
    bufferCap s far ≤ 64 ∧ ∀ count, s.bar far.sess = some count → count ≠ 0 →
        bufferCap s far ≤ count.toNat := by
  unfold bufferCap maxNumOfGtpuBuffer
  cases s.bar far.sess with
  | none =>
    refine ⟨Nat.le_refl _, ?_⟩
    intro count hCount
    cases hCount
  | some count =>
    dsimp only
    split
    · rename_i hCount
      refine ⟨Nat.le_of_lt hCount.2, ?_⟩
      intro _ hSame _
      cases hSame
      exact Nat.le_refl _
    · rename_i hCount
      refine ⟨Nat.le_refl _, ?_⟩
      intro _ hSame hPos
      cases hSame
      exact Nat.le_of_not_lt (fun hLess => hCount ⟨hPos, hLess⟩)

/- The packet is put behind those that the FAR buffers. -/
def stored (s : State) (place : Nat) (far : Far) (pkbuf : Pkbuf) : State := s.setFar place
    { far with bufferedGtpu := far.bufferedGtpu ++ [pkbuf] }

/-
  The packet that finds a buffer full does not raise a report, as there is room for one packet at
  least.
-/
theorem bufferGtpu_cases (hBuffer : bufferGtpu s place far pkbuf = (report, s')) :
    (report = false ∧ s' = s.free pkbuf) ∨ (report = (far.bufferedGtpu.length == 0) ∧
        far.bufferedGtpu.length < bufferCap s far ∧ s' = stored s place far pkbuf) := by
  cases hBuffer
  by_cases hRoom : far.bufferedGtpu.length < bufferCap s far
  · rw [if_pos hRoom]
    exact .inr ⟨rfl, hRoom, rfl⟩
  · rw [if_neg hRoom]
    have hPos := bufferCap_pos s far
    refine .inl ⟨?_, rfl⟩
    rw [beq_eq_false_iff_ne]
    omega

/- What becomes of a packet, and when it raises a report. -/
theorem applyFar_cases (hApply : applyFar network s place far pkbuf = (report, s')) :
    (report = false ∧ s' = s.free pkbuf) ∨ (report = false ∧
        far.applyAction &&& applyActionDrop = 0 ∧ s' = sendGtpu network place false s pkbuf) ∨
      (report = (far.bufferedGtpu.length == 0) ∧ far.applyAction &&& applyActionDrop = 0 ∧
        far.bufferedGtpu.length < bufferCap s far ∧ s' = stored s place far pkbuf) := by
  unfold applyFar at hApply
  by_cases hDrop : far.applyAction &&& applyActionDrop = 0
  · have hStored : report = (far.bufferedGtpu.length == 0) ∧
    far.bufferedGtpu.length < bufferCap s far ∧ s' = stored s place far pkbuf →
    report = (far.bufferedGtpu.length == 0) ∧ far.applyAction &&& applyActionDrop = 0 ∧
      far.bufferedGtpu.length < bufferCap s far ∧ s' = stored s place far pkbuf :=
    fun ⟨hReport, hRest⟩ => ⟨hReport, hDrop, hRest⟩
    rw [if_neg (not_not.mpr hDrop)] at hApply
    by_cases hNode : far.gnode.isNone
    · rw [if_pos hNode] at hApply
      exact (bufferGtpu_cases hApply).imp_right (fun hCase => .inr (hStored hCase))
    · rw [if_neg hNode] at hApply
      split at hApply
      · cases hApply
        exact .inr (.inl ⟨rfl, hDrop, rfl⟩)
      · split at hApply
        · exact (bufferGtpu_cases hApply).imp_right (fun hCase => .inr (hStored hCase))
        · cases hApply
          exact .inl ⟨rfl, rfl⟩
  · rw [if_pos hDrop] at hApply
    cases hApply
    exact .inl ⟨rfl, rfl⟩

/- The state in which the next packet is handled. -/
def State.receive (s : State) : State := { s with delivered := s.delivered + 1 }

theorem upHandlePdr_cases
    (hHandle : upHandlePdr network s pdr type len recvhdr = .ok (report, s')) :
    ∃ place far header,
      pdr.far = some place ∧ s.fars[place]? = some far ∧ applyFar network s.receive place far
          { number := s.delivered, header := header } = (report, s') := by
  unfold upHandlePdr at hHandle
  split at hHandle
  · cases hHandle
  · cases hFar : pdr.far with
    | none =>
      rw [hFar] at hHandle
      cases hHandle
    | some place =>
      cases hAt : s.fars[place]? with
      | none =>
        simp only [hFar, hAt] at hHandle
        cases hHandle
      | some far =>
        simp only [hFar, hAt] at hHandle
        rcases bind_eq_ok.mp hHandle with ⟨header, _, hApply⟩
        exact ⟨place, far, header, rfl, hAt, Except.ok.inj hApply⟩

/- A packet with a received header, or from the core, passes. -/
theorem upHandlePdr_ok (hFar : pdr.far = some place) (hAt : s.fars[place]? = some far)
    (hType : type ≠ 0) (hHeader : recvhdr ≠ none ∨ pdr.srcIf ≠ interfaceAccess) :
    ∃ report s', upHandlePdr network s pdr type len recvhdr = .ok (report, s') := by
  have hQfi : ∃ qfi, sendQfi pdr far recvhdr = .ok qfi := by
    unfold sendQfi
    split
    · exact ⟨_, rfl⟩
    · split
      · rename_i hAccess
        cases recvhdr with
        | none => exact absurd hAccess.1 (hHeader.resolve_left (not_not.mpr rfl))
        | some desc => exact ⟨_, rfl⟩
      · exact ⟨_, rfl⟩
  have hSend : ∃ header, sendHeader pdr far type len recvhdr = .ok header := by
    unfold sendHeader
    split
    · exact ⟨_, rfl⟩
    · rcases hQfi with ⟨qfi, hQfi⟩
      rw [hQfi]
      exact ⟨_, rfl⟩
  rcases hSend with ⟨header, hSend⟩
  unfold upHandlePdr
  rw [if_neg hType]
  simp only [hFar, hAt, hSend]
  exact ⟨_, _, rfl⟩

theorem packets_stored (hAt : s.fars[place]? = some far) :
    (stored s place far pkbuf).packets.Perm (pkbuf.number :: s.packets) := by
  have hSet := packets_setFar hAt { far with bufferedGtpu := far.bufferedGtpu ++ [pkbuf] }
  rw [map_append, map_singleton] at hSet
  have hMiddle : (s.packets ++ (far.bufferedGtpu.map Pkbuf.number ++ [pkbuf.number])).Perm
    ((pkbuf.number :: s.packets) ++ far.bufferedGtpu.map Pkbuf.number) := by
    rw [← append_assoc]
    exact perm_append_singleton _ _
  exact (perm_append_right_iff _).mp (hSet.trans hMiddle)

theorem packets_applyFar (hAt : s.fars[place]? = some far)
    (hApply : applyFar network s place far pkbuf = (report, s')) :
    s'.packets.Perm (pkbuf.number :: s.packets) ∧ s'.delivered = s.delivered := by
  rcases applyFar_cases hApply with ⟨_, rfl⟩ | ⟨_, _, rfl⟩ | ⟨_, _, _, rfl⟩
  · exact ⟨packets_free, rfl⟩
  · rcases sendGtpu_cases with hFreed | ⟨teid, hSent⟩
    · rw [hFreed]
      exact ⟨packets_free, rfl⟩
    · rw [hSent]
      exact ⟨packets_send, rfl⟩
  · exact ⟨packets_stored hAt, rfl⟩

/- A packet that does not get into the buffer leaves it alone. -/
theorem line_sendGtpu_direct :
    (sendGtpu network place false s pkbuf).line other = s.line other := by
  rcases sendGtpu_cases with hFreed | ⟨teid, hSent⟩
  · rw [hFreed]
    rfl
  · rw [hSent]
    unfold State.line State.flushed
    simp [State.bufferedGtpu]

theorem line_stored (hAt : s.fars[place]? = some far) : (stored s place far pkbuf).line other =
      if place = other then s.line other ++ [pkbuf.number]
      else s.line other := by
  unfold State.line stored
  rw [flushed_setFar, bufferedGtpu_setFar hAt]
  by_cases hSame : place = other
  · rw [if_pos hSame, if_pos hSame, ← hSame, bufferedGtpu_of_at hAt, map_append,
    append_assoc]
    rfl
  · rw [if_neg hSame, if_neg hSame]

theorem InOrder.applyFar (hOrder : InOrder s) (hAt : s.fars[place]? = some far)
    (hLast : ∀ number ∈ s.packets, number < pkbuf.number)
    (hApply : applyFar network s place far pkbuf = (report, s')) : InOrder s' := by
  intro other
  rcases applyFar_cases hApply with ⟨_, rfl⟩ | ⟨_, _, rfl⟩ | ⟨_, _, _, rfl⟩
  · exact hOrder other
  · rw [line_sendGtpu_direct]
    exact hOrder other
  · rw [line_stored hAt]
    split
    · refine pairwise_append.mpr ⟨hOrder other, pairwise_singleton _ _, ?_⟩
      intro number hMem last hEq
      rw [mem_singleton.mp hEq]
      exact hLast number (mem_packets_of_line hMem)
    · exact hOrder other

end Deliveries

---- Invariants ----

/- What holds of the packets in every run. -/
structure Kept (s : State) : Prop where
  accounted : Accounted s
  inOrder : InOrder s

section Invariants

variable {network : Network} {s s' : State} {place : Nat} {far next : Far}

theorem Kept.deliver (hKept : Kept s)
    (hHandle : upHandlePdr network s pdr type len recvhdr = .ok (report, s')) : Kept s' := by
  rcases upHandlePdr_cases hHandle with ⟨place, far, header, _, hAt, hApply⟩
  have hAt' : s.receive.fars[place]? = some far := hAt
  rcases packets_applyFar hAt' hApply with ⟨hPackets, hDelivered⟩
  constructor
  case accounted =>
    have hCount : s'.delivered = s.delivered + 1 := hDelivered
    unfold Accounted
    rw [hCount, range_succ]
    exact hPackets.trans ((List.Perm.cons s.delivered hKept.accounted).trans
      (perm_append_singleton _ _).symm)
  case inOrder =>
    have hOrder : InOrder s.receive := hKept.inOrder
    refine hOrder.applyFar hAt' ?_ hApply
    intro number hMem
    exact mem_range.mp (hKept.accounted.mem_iff.mp hMem)

theorem Kept.setFar (hKept : Kept s) (hAt : s.fars[place]? = some far)
    (hSame : next.bufferedGtpu = far.bufferedGtpu) : Kept (s.setFar place next) where
  accounted := (packets_setFar_same hAt hSame).trans hKept.accounted
  inOrder := by
    refine hKept.inOrder.of_sublist ?_
    intro other
    rw [line_setFar_same hAt hSame]

theorem Kept.sendBuffered (hKept : Kept s) : Kept (sendBufferedGtpu network s pdr) := by
  unfold sendBufferedGtpu
  cases pdr.far with
  | none => exact hKept
  | some place =>
    cases hAt : s.fars[place]? with
    | none =>
      simp only [hAt]
      exact hKept
    | some far =>
      simp only [hAt]
      split
      · have hMoves := Moves.foldl (moves_sendGtpu network place) far.bufferedGtpu s
        exact ⟨hMoves.accounted hAt hKept.accounted, hMoves.inOrder hAt hKept.inOrder⟩
      · exact hKept

theorem Kept.farDrop (hKept : Kept s) : Kept (farDropBufferedGtpu s place) := by
  unfold farDropBufferedGtpu
  cases hAt : s.fars[place]? with
  | none => exact hKept
  | some far =>
    have hMoves := Moves.foldl (moves_free place) far.bufferedGtpu s
    exact ⟨hMoves.accounted hAt hKept.accounted, hMoves.inOrder hAt hKept.inOrder⟩

theorem Kept.sessDropStep (hKept : Kept dropping.1) :
    Kept (sessDropStep sess dropping place).1 := by
  unfold DownlinkBuffer.sessDropStep
  split
  · exact hKept
  · split
    · exact hKept.farDrop
    · exact hKept

theorem Kept.sessDrop (hKept : Kept s) : Kept (sessDropBufferedGtpu s sess).1 := by
  refine List.foldlRecOn (motive := fun dropping : State × Nat => Kept dropping.1)
    _ _ hKept ?_
  intro dropping hSoFar place _
  exact hSoFar.sessDropStep

theorem Kept.exec (hKept : Kept s) (hExec : exec network s op = .ok s') : Kept s' := by
  cases op with
  | deliver pdr type len recvhdr =>
    rcases map_eq_ok hExec with ⟨⟨report, after⟩, hHandle, rfl⟩
    exact hKept.deliver hHandle
  | updateApplyAction place action =>
    cases hExec
    unfold DownlinkBuffer.updateApplyAction
    cases hAt : s.fars[place]? with
    | none => exact hKept
    | some far =>
      have hSet : Kept (s.setFar place { far with applyAction := action }) := hKept.setFar hAt rfl
      dsimp only
      split
      · exact hSet.farDrop
      · exact hSet
  | configure place action dstIf dstIfType teid gnode =>
    cases hExec
    unfold DownlinkBuffer.configure
    cases hAt : s.fars[place]? with
    | none => exact hKept
    | some far => exact hKept.setFar hAt rfl
  | bar sess count =>
    cases hExec
    exact ⟨hKept.accounted, hKept.inOrder⟩
  | sendBuffered pdr =>
    cases hExec
    exact hKept.sendBuffered
  | dropBuffered sess =>
    cases hExec
    exact hKept.sessDrop

theorem Fresh.kept (hFresh : Fresh s) : Kept s := by
  rcases hFresh with ⟨hEmpty, hNone, hSent, hFreed⟩
  have hBuffers : s.fars.flatMap (fun far => far.bufferedGtpu.map Pkbuf.number) = [] := by
    refine flatMap_eq_nil_iff.mpr ?_
    intro far hMem
    rw [hEmpty far hMem, map_nil]
  have hPackets : s.packets = [] := by
    unfold State.packets
    rw [hSent, hFreed, hBuffers]
    rfl
  constructor
  case accounted =>
    unfold Accounted
    rw [hPackets, hNone]
    exact .refl _
  case inOrder =>
    intro place
    have hLine : s.line place = [] := by
      refine eq_nil_iff_forall_not_mem.mpr ?_
      intro number hMem
      have hIn := mem_packets_of_line hMem
      rw [hPackets] at hIn
      cases hIn
    rw [hLine]
    exact .nil

theorem kept_of_reachable (hReach : (bufferSystem network).Reachable s) : Kept s := by
  refine Faulty.System.Reachable.invariant ?_ ?_ hReach
  · intro start hInit
    exact Fresh.kept hInit
  · intro before op after hKept hExec
    exact hKept.exec hExec

end Invariants

---- Discards ----

/- A FAR of the session without its packets. -/
def Far.discard (sess : Nat) (far : Far) : Far :=
  if far.sess = sess then { far with bufferedGtpu := [] }
  else far

theorem fars_sessDropStep :
    (sessDropStep sess dropping place).1.fars =
      dropping.1.fars.modify place (Far.discard sess) := by
  unfold sessDropStep farDropBufferedGtpu
  cases hAt : dropping.1.fars[place]? with
  | none =>
    have hLength := List.getElem?_eq_none_iff.mp hAt
    exact (modify_eq_self hLength).symm
  | some far =>
    have hModify : dropping.1.fars.modify place (Far.discard sess) =
      dropping.1.fars.set place (far.discard sess) := by
      rw [List.modify_eq_set_getElem?, hAt]
      rfl
    rw [hModify]
    dsimp only
    unfold Far.discard
    by_cases hSess : far.sess = sess
    · rw [if_pos hSess, if_pos hSess]
      have hFars := (Moves.foldl (moves_free place) far.bufferedGtpu dropping.1).fars
      unfold State.setFar
      rw [hFars]
    · rw [if_neg hSess, if_neg hSess]
      rcases List.getElem?_eq_some_iff.mp hAt with ⟨hLess, hFar⟩
      rw [← hFar, set_getElem_self]

/- After some places of the list the FARs there are done. -/
theorem fars_sessDropFold :
    ((List.range done).foldl (sessDropStep sess) (s, 0)).1.fars[place]? = s.fars[place]?.map
        (fun far =>
          if place < done then far.discard sess else far) := by
  induction done with
  | zero => simp
  | succ done ih =>
    rw [range_succ, foldl_append, foldl_cons, foldl_nil, fars_sessDropStep, List.getElem?_modify,
      ih, Option.map_eq_map, Option.map_map]
    congr 1
    funext far
    simp only [Function.comp_apply]
    by_cases hLess : place < done
    · rw [if_pos hLess, if_pos (Nat.lt_succ_of_lt hLess), if_neg (Nat.ne_of_gt hLess)]
    · by_cases hSame : done = place
      · rw [if_neg hLess, if_pos hSame, if_pos (hSame ▸ Nat.lt_succ_self done)]
      · rw [if_neg hLess, if_neg hSame, if_neg (by omega)]

theorem fars_sessDropBufferedGtpu :
    (sessDropBufferedGtpu s sess).1.fars = s.fars.map (Far.discard sess) := by
  refine ext_getElem? ?_
  intro place
  unfold sessDropBufferedGtpu
  rw [fars_sessDropFold, List.getElem?_map]
  cases hAt : s.fars[place]? with
  | none => rfl
  | some far =>
    rcases List.getElem?_eq_some_iff.mp hAt with ⟨hLess, _⟩
    rw [map_some, map_some, if_pos hLess]

theorem bufferedGtpu_discard {far : Far} (hSess : (far.discard sess).sess = sess) :
    (far.discard sess).bufferedGtpu = [] := by
  unfold Far.discard at hSess ⊢
  by_cases hSame : far.sess = sess
  · rw [if_pos hSame]
  · rw [if_neg hSame] at hSess
    exact absurd hSess hSame

theorem applyAction_discard {sess : Nat} {far : Far} :
    (far.discard sess).applyAction = far.applyAction := by
  unfold Far.discard
  split
  · rfl
  · rfl

---- The Buffers Of A Run ----

/-
  What the delivery of a packet does to the buffer of its FAR, and when it raises a downlink data
  report.
-/
structure Delivery (s s' : State) (report : Bool) (place : Nat) (far : Far)
    (pkbuf : Pkbuf) : Prop where
  number : pkbuf.number = s.delivered
  buffer : s'.bufferedGtpu place = s.bufferedGtpu place ∨
      s'.bufferedGtpu place = s.bufferedGtpu place ++ [pkbuf]
  others : ∀ other, other ≠ place → s'.bufferedGtpu other = s.bufferedGtpu other
  capped : s'.bufferedGtpu place = s.bufferedGtpu place ++ [pkbuf] →
      (s'.bufferedGtpu place).length ≤ 64 ∧ ∀ count, s.bar far.sess = some count → count ≠ 0 →
          (s'.bufferedGtpu place).length ≤ count.toNat
  reports : report = true ↔ s.bufferedGtpu place = [] ∧ s'.bufferedGtpu place = [pkbuf]
  dropped : far.applyAction &&& applyActionDrop ≠ 0 → s'.fars = s.fars ∧ report = false

section Buffers

variable {network : Network} {s s' : State} {place : Nat} {far : Far} {pkbuf : Pkbuf}
variable {report : Bool}

/- The FARs are left as they are, without a report. -/
theorem delivery_of_fars (hNumber : pkbuf.number = s.delivered) (hFars : s'.fars = s.fars) :
    Delivery s s' false place far pkbuf := by
  have hBuffered : ∀ other, s'.bufferedGtpu other = s.bufferedGtpu other := by
    intro other
    unfold State.bufferedGtpu
    rw [hFars]
  constructor
  case number => exact hNumber
  case buffer => exact .inl (hBuffered place)
  case others =>
    intro other _
    exact hBuffered other
  case capped =>
    intro hStored
    rw [hBuffered place] at hStored
    have hNone := self_eq_append_right.mp hStored
    cases hNone
  case reports =>
    refine ⟨fun hTrue => absurd hTrue Bool.false_ne_true, ?_⟩
    rintro ⟨hEmpty, hStored⟩
    rw [hBuffered place, hEmpty] at hStored
    cases hStored
  case dropped =>
    intro _
    exact ⟨hFars, rfl⟩

theorem delivery_of_stored (hNumber : pkbuf.number = s.delivered) (hAt : s.fars[place]? = some far)
    (hDrop : far.applyAction &&& applyActionDrop = 0)
    (hRoom : far.bufferedGtpu.length < bufferCap s far) :
    Delivery s (stored s.receive place far pkbuf)
      (far.bufferedGtpu.length == 0) place far pkbuf := by
  have hAt' : s.receive.fars[place]? = some far := hAt
  have hBuffered : ∀ other, (stored s.receive place far pkbuf).bufferedGtpu other =
    if place = other then far.bufferedGtpu ++ [pkbuf]
    else s.bufferedGtpu other :=
    bufferedGtpu_setFar hAt' _
  have hPlace := hBuffered place
  rw [if_pos rfl] at hPlace
  have hOld := bufferedGtpu_of_at hAt
  constructor
  case number => exact hNumber
  case buffer =>
    rw [hPlace, hOld]
    exact .inr rfl
  case others =>
    intro other hOther
    rw [hBuffered, if_neg (Ne.symm hOther)]
  case capped =>
    intro _
    rcases bufferCap_le with ⟨hMax, hCount⟩
    rw [hPlace, length_append]
    refine ⟨Nat.le_trans hRoom hMax, ?_⟩
    intro count hBar hPos
    exact Nat.le_trans hRoom (hCount count hBar hPos)
  case reports =>
    rw [hPlace, hOld, beq_iff_eq, length_eq_zero_iff]
    refine ⟨?_, And.left⟩
    intro hEmpty
    rw [hEmpty]
    exact ⟨rfl, rfl⟩
  case dropped =>
    intro hSet
    exact absurd hDrop hSet

theorem delivery_of_upHandlePdr
    (hHandle : upHandlePdr network s pdr type len recvhdr = .ok (report, s')) :
    ∃ place far pkbuf, pdr.far = some place ∧ s.fars[place]? = some far ∧
        Delivery s s' report place far pkbuf := by
  rcases upHandlePdr_cases hHandle with ⟨place, far, header, hFar, hAt, hApply⟩
  refine ⟨place, far, { number := s.delivered, header := header }, hFar, hAt, ?_⟩
  rcases applyFar_cases hApply with ⟨rfl, rfl⟩ | ⟨rfl, _, rfl⟩ | ⟨rfl, hDrop, hRoom, rfl⟩
  · exact delivery_of_fars rfl rfl
  · refine delivery_of_fars rfl ?_
    rcases sendGtpu_cases with hFreed | ⟨teid, hSent⟩
    · rw [hFreed]
      rfl
    · rw [hSent]
      rfl
  · exact delivery_of_stored rfl hAt hDrop hRoom

end Buffers

/-
  In every run each packet that was delivered is in one place, and the packets of a FAR leave its
  buffer as they came. A delivery keeps to the cap, raises a report if it fills an empty buffer, and
  neither buffers nor reports for a FAR that drops. A discard empties the buffers of the session and
  leaves the Apply Actions.
-/
theorem downlink_packets_are_buffered (network : Network) (s : State)
    (hReach : (bufferSystem network).Reachable s) :
    s.packets.Perm (List.range s.delivered) ∧ (∀ place, (s.flushed place ++
          (s.bufferedGtpu place).map Pkbuf.number).Pairwise (· < ·)) ∧
      (∀ pdr type len recvhdr report s', upHandlePdr network s pdr type len recvhdr =
            .ok (report, s') → ∃ place far pkbuf, pdr.far = some place ∧ s.fars[place]? = some far ∧
              Delivery s s' report place far pkbuf) ∧ (∀ pdr place far,
        pdr.far = some place → s.fars[place]? = some far → ∀ type len recvhdr, type ≠ 0 →
            (recvhdr ≠ none ∨ pdr.srcIf ≠ interfaceAccess) → ∃ report s',
              upHandlePdr network s pdr type len recvhdr = .ok (report, s')) ∧ ∀ sess,
        (∀ far ∈ (sessDropBufferedGtpu s sess).1.fars, far.sess = sess → far.bufferedGtpu = []) ∧
          (sessDropBufferedGtpu s sess).1.fars.map Far.applyAction =
            s.fars.map Far.applyAction := by
  have hKept := kept_of_reachable hReach
  refine ⟨hKept.accounted, hKept.inOrder, ?_, ?_, ?_⟩
  · intro pdr type len recvhdr report s' hHandle
    exact delivery_of_upHandlePdr hHandle
  · intro pdr place far hFar hAt type len recvhdr hType hHeader
    exact upHandlePdr_ok hFar hAt hType hHeader
  · intro sess
    rw [fars_sessDropBufferedGtpu]
    constructor
    · intro far hMem hSess
      rcases List.mem_map.mp hMem with ⟨old, _, rfl⟩
      exact bufferedGtpu_discard hSess
    · rw [List.map_map]
      refine map_congr_left ?_
      intro far _
      exact applyAction_discard

/- A FAR without a peer, and a PDR of it. -/
def idleState : State where
  fars :=
    [{ sess := 0
       applyAction := applyActionBuff
       dstIf := interfaceAccess
       dstIfType := none
       teid := 7
       gnode := none
       bufferedGtpu := [] }]
  bar _ := none
  delivered := 0
  sent := []
  freed := []

def downlinkPdr : Pdr where
  far := some 0
  srcIf := interfaceCore
  srcIfType := none
  qfi := some 9

/- Of three packets two are buffered, and then sent. -/
def pagingRun : List Op := [.bar 0 (some 2), .deliver downlinkPdr 255 0 none,
   .deliver downlinkPdr 255 0 none, .deliver downlinkPdr 255 0 none,
   .configure 0 applyActionForw interfaceAccess none 7 (some { sock := true }),
   .sendBuffered downlinkPdr]

theorem downlink_packets_are_buffered_paged :
    ∃ s, (bufferSystem fun _ => true).Reachable s ∧ s.flushed 0 = [0, 1] ∧
        s.freed.map Pkbuf.number = [2] ∧ s.packets.Perm (List.range 3) := by
  rcases Faulty.System.exists_run (show ((bufferSystem fun _ => true).run idleState
    pagingRun).toOption.any (fun s => decide ( s.flushed 0 = [0, 1] ∧
      s.freed.map Pkbuf.number = [2] ∧ s.delivered = 3)) = true by
    decide +kernel) with
    ⟨s, hRun, hFlushed, hFreed, hDelivered⟩
  have hFresh : Fresh idleState := ⟨by decide, rfl, rfl, rfl⟩
  have hReach : (bufferSystem fun _ => true).Reachable s :=
    Faulty.System.Reachable.run (.init hFresh) hRun
  have hPackets := (downlink_packets_are_buffered _ s hReach).1
  rw [hDelivered] at hPackets
  exact ⟨s, hReach, hFlushed, hFreed, hPackets⟩

end Pretty5gs.Pfcp.DownlinkBuffer
