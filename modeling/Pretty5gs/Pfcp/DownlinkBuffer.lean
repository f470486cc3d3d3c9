import Mathlib.Data.List.Perm.Basic
import Pretty5gs.Core.Types
import Pretty5gs.Library.Transition

/-
  The buffers of the FARs for downlink packets.

  A packet that is delivered to a PDR is sent, freed or put behind the packets that the FAR of the
  PDR buffers. Packets are numbered as they are delivered; what happened to each is kept in the
  state.

  Main results: `Moves.foldl`, `Moves.accounted` and `Moves.inOrder`.
-/

---- State ----

namespace Pretty5gs.Pfcp.DownlinkBuffer

open List

/- `OGS_MAX_NUM_OF_GTPU_BUFFER` -/
def maxNumOfGtpuBuffer : Nat := 64

/- `OGS_PFCP_APPLY_ACTION_DROP` -/
def applyActionDrop : U16 := 1 <<< 8

/- `OGS_PFCP_APPLY_ACTION_FORW` -/
def applyActionForw : U16 := 1 <<< 9

/- `OGS_PFCP_APPLY_ACTION_BUFF` -/
def applyActionBuff : U16 := 1 <<< 10

/- `OGS_PFCP_INTERFACE_ACCESS` -/
def interfaceAccess : U8 := 0

/- `OGS_PFCP_INTERFACE_CORE` -/
def interfaceCore : U8 := 1

/- `OGS_PFCP_INTERFACE_UNKNOWN` -/
def interfaceUnknown : U8 := 0xff

/- `OGS_PFCP_3GPP_INTERFACE_TYPE_N9_FOR_ROAMING` -/
def interfaceTypeN9ForRoaming : U8 := 21

/- `OGS_GTP2_EXTENSION_HEADER_PDU_TYPE_DL_PDU_SESSION_INFORMATION` -/
def dlPduSessionInformation : U8 := 0

/-
  The part of `ogs_gtp2_header_desc_t` that is read or set here; the port and the PDCP number are
  there if their presence is set.
-/
structure HeaderDesc where
  type : U8
  teid : U32
  qosFlowIdentifier : U8
  pduType : U8
  udp : Option U16
  pdcpNumber : Option U16
deriving DecidableEq, Repr

/- What is put in front of a packet: the octets of the header it came with, or a new header. -/
inductive Header where
  | pushed (len : Int)
  | encapsulated (desc : HeaderDesc)
deriving DecidableEq, Repr

/- A packet, by the number of its delivery. -/
structure Pkbuf where
  number : Nat
  header : Header
deriving DecidableEq, Repr

/- `ogs_gtp_node_t`, by whether `sock` is set. -/
structure GtpNode where
  sock : Bool
deriving DecidableEq, Repr

/-
  The part of `ogs_pfcp_far_t` that is read here; the type of the interface is there if its presence
  is set, and `teid` is that of the outer header creation.
-/
structure Far where
  sess : Nat
  applyAction : U16
  dstIf : U8
  dstIfType : Option U8
  teid : U32
  gnode : Option GtpNode
  bufferedGtpu : List Pkbuf
deriving DecidableEq, Repr

/-
  The part of `ogs_pfcp_pdr_t` that is read here; `far` is the place of its FAR and `qfi` that of
  its QER, if it has one.
-/
structure Pdr where
  far : Option Nat
  srcIf : U8
  srcIfType : Option U8
  qfi : Option U8
deriving DecidableEq, Repr

/- A packet that was sent, and whether it had been buffered. -/
structure SentGtpu where
  pkbuf : Pkbuf
  teid : U32
  far : Nat
  buffered : Bool
deriving DecidableEq, Repr

/- The suggested buffering packets count of each session is there if the session has a BAR. -/
structure State where
  fars : List Far
  bar : Nat → Option U8
  delivered : Nat
  sent : List SentGtpu
  freed : List Pkbuf

/- `ogs_pkbuf_free` -/
def State.free (s : State) (pkbuf : Pkbuf) : State := { s with freed := s.freed ++ [pkbuf] }

def State.setFar (s : State) (place : Nat) (far : Far) : State :=
  { s with fars := s.fars.set place far }

---- Sending And Dropping ----

/- Whether the socket takes the packet of a number. -/
abbrev Network := Nat → Bool

/- `ogs_gtp_send_with_teid` and the free after it. -/
def gtpSendWithTeid (network : Network) (s : State) (gtpu : SentGtpu) : State :=
  if network gtpu.pkbuf.number then { s with sent := s.sent ++ [gtpu] }
  else s.free gtpu.pkbuf

/- `ogs_pfcp_send_gtpu` -/
def sendGtpu (network : Network) (place : Nat) (buffered : Bool) (s : State)
    (pkbuf : Pkbuf) : State :=
  match s.fars[place]? with
  | none => s.free pkbuf
  | some far =>
      if far.dstIf = interfaceUnknown then s.free pkbuf
      else
        match far.gnode with
        | none => s.free pkbuf
        | some gnode =>
            if gnode.sock then
              gtpSendWithTeid network s
                { pkbuf := pkbuf
                  teid := far.teid
                  far := place
                  buffered := buffered }
            else s.free pkbuf

/- `ogs_pfcp_send_buffered_gtpu` -/
def sendBufferedGtpu (network : Network) (s : State) (pdr : Pdr) : State :=
  match pdr.far with
  | none => s
  | some place =>
      match s.fars[place]? with
      | none => s
      | some far =>
          if far.gnode.isSome ∧ far.applyAction &&& applyActionForw ≠ 0 then
            (far.bufferedGtpu.foldl (sendGtpu network place true) s).setFar place
              { far with bufferedGtpu := [] }
          else s

open State

/- `ogs_pfcp_far_drop_buffered_gtpu` -/
def farDropBufferedGtpu (s : State) (place : Nat) : State :=
  match s.fars[place]? with
  | none => s
  | some far => (far.bufferedGtpu.foldl free s).setFar place { far with bufferedGtpu := [] }

/-
  One FAR of `ogs_pfcp_sess_drop_buffered_gtpu`, with the number of packets that have been dropped.
-/
def sessDropStep (sess : Nat) (dropping : State × Nat) (place : Nat) : State × Nat :=
  match dropping.1.fars[place]? with
  | none => dropping
  | some far =>
      if far.sess = sess then
        (farDropBufferedGtpu dropping.1 place, dropping.2 + far.bufferedGtpu.length)
      else dropping

/- `ogs_pfcp_sess_drop_buffered_gtpu` -/
def sessDropBufferedGtpu (s : State) (sess : Nat) : State × Nat :=
  (List.range s.fars.length).foldl (sessDropStep sess) (s, 0)

---- Deliveries ----

/- The packet stays in the visited network. -/
def homeRouted (pdr : Pdr) (far : Far) : Bool := (pdr.srcIf == interfaceCore &&
      pdr.srcIfType == some interfaceTypeN9ForRoaming) || (far.dstIf == interfaceCore &&
      far.dstIfType == some interfaceTypeN9ForRoaming)

/-
  The QoS flow identifier of the new header. The one of the received header is read without a check
  that there is a received header.
-/
def sendQfi (pdr : Pdr) (far : Far) (recvhdr : Option HeaderDesc) : Except Fault U8 :=
  if pdr.qfi.getD 0 ≠ 0 then .ok (pdr.qfi.getD 0)
  else if pdr.srcIf = interfaceAccess ∧ far.dstIf = interfaceAccess then
    match recvhdr with
    | none => .error (.outOfBounds 0)
    | some desc => .ok desc.qosFlowIdentifier
  else .ok 0

/- The header of a packet that is delivered to a PDR. -/
def sendHeader (pdr : Pdr) (far : Far) (type : U8) (len : Int)
    (recvhdr : Option HeaderDesc) : Except Fault Header :=
  if homeRouted pdr far then .ok (.pushed len)
  else do
    let qfi ← sendQfi pdr far recvhdr
    .ok (.encapsulated
      { type := type
        teid := far.teid
        qosFlowIdentifier := qfi
        -- A header without a flow has the type 0 as well.
        pduType := dlPduSessionInformation
        udp := recvhdr.bind HeaderDesc.udp
        pdcpNumber := recvhdr.bind HeaderDesc.pdcpNumber })

/- The number of packets that a FAR may buffer. -/
def bufferCap (s : State) (far : Far) : Nat :=
  match s.bar far.sess with
  | none => maxNumOfGtpuBuffer
  | some count =>
      if count ≠ 0 ∧ count.toNat < maxNumOfGtpuBuffer then count.toNat
      else maxNumOfGtpuBuffer

/-
  The end of `ogs_pfcp_up_handle_pdr` for a packet that has to be buffered, with the downlink data
  report.
-/
def bufferGtpu (s : State) (place : Nat) (far : Far) (pkbuf : Pkbuf) : Bool × State :=
  (far.bufferedGtpu.length == 0,
    if far.bufferedGtpu.length < bufferCap s far then
      s.setFar place { far with bufferedGtpu := far.bufferedGtpu ++ [pkbuf] }
    else s.free pkbuf)

/- What the Apply Action of the FAR makes of a packet. -/
def applyFar (network : Network) (s : State) (place : Nat) (far : Far)
    (pkbuf : Pkbuf) : Bool × State :=
  if far.applyAction &&& applyActionDrop ≠ 0 then (false, s.free pkbuf)
  else if far.gnode.isNone then bufferGtpu s place far pkbuf
  else if far.applyAction &&& applyActionForw ≠ 0 then (false, sendGtpu network place false s pkbuf)
  else if far.applyAction &&& applyActionBuff ≠ 0 then bufferGtpu s place far pkbuf
  else (false, s.free pkbuf)

/- `ogs_pfcp_up_handle_pdr` for the next packet, with the downlink data report. -/
def upHandlePdr (network : Network) (s : State) (pdr : Pdr) (type : U8) (len : Int)
    (recvhdr : Option HeaderDesc) : Except Fault (Bool × State) :=
  if type = 0 then .error .assertion
  else
    match pdr.far with
    | none => .error .assertion
    | some place =>
        match s.fars[place]? with
        | none => .error .assertion
        | some far => do
            let header ← sendHeader pdr far type len recvhdr
            .ok (applyFar network { s with delivered := s.delivered + 1 } place far
              { number := s.delivered, header := header })

---- Runs ----

/-
  The Apply Action of `ogs_pfcp_handle_update_far`, which drops what is buffered if the packets are
  to be dropped.
-/
def updateApplyAction (s : State) (place : Nat) (action : U16) : State :=
  match s.fars[place]? with
  | none => s
  | some far =>
      if action &&& applyActionDrop ≠ 0 then
        farDropBufferedGtpu (s.setFar place { far with applyAction := action }) place
      else s.setFar place { far with applyAction := action }

/-
  `configure` sets what a FAR is told by other messages, with any Apply Action, and `bar` the count
  of a BAR that is created or removed.
-/
inductive Op where
  | deliver (pdr : Pdr) (type : U8) (len : Int) (recvhdr : Option HeaderDesc)
  | updateApplyAction (place : Nat) (action : U16)
  | configure (place : Nat) (action : U16) (dstIf : U8) (dstIfType : Option U8) (teid : U32)
      (gnode : Option GtpNode)
  | bar (sess : Nat) (count : Option U8)
  | sendBuffered (pdr : Pdr)
  | dropBuffered (sess : Nat)
deriving DecidableEq, Repr

def configure (s : State) (place : Nat) (action : U16) (dstIf : U8) (dstIfType : Option U8)
    (teid : U32) (gnode : Option GtpNode) : State :=
  match s.fars[place]? with
  | none => s
  | some far =>
      s.setFar place
        { sess := far.sess
          applyAction := action
          dstIf := dstIf
          dstIfType := dstIfType
          teid := teid
          gnode := gnode
          bufferedGtpu := far.bufferedGtpu }

def exec (network : Network) (s : State) : Op → Except Fault State
  | .deliver pdr type len recvhdr => (upHandlePdr network s pdr type len recvhdr).map Prod.snd
  | .updateApplyAction place action => .ok (updateApplyAction s place action)
  | .configure place action dstIf dstIfType teid gnode =>
      .ok (configure s place action dstIf dstIfType teid gnode)
  | .bar sess count => .ok { s with bar := Function.update s.bar sess count }
  | .sendBuffered pdr => .ok (sendBufferedGtpu network s pdr)
  | .dropBuffered sess => .ok (sessDropBufferedGtpu s sess).1

/- FARs that have not had a packet. -/
def Fresh (s : State) : Prop := (∀ far ∈ s.fars, far.bufferedGtpu = []) ∧
    s.delivered = 0 ∧ s.sent = [] ∧ s.freed = []

def bufferSystem (network : Network) : Faulty.System State Op Fault where
  Init := Fresh
  exec := exec network

---- Packets ----

variable (s : State)

/- The packets that a FAR buffers, none if it is not there. -/
def State.bufferedGtpu (place : Nat) : List Pkbuf := (s.fars[place]?).elim [] Far.bufferedGtpu

/- The number of each packet, as often as it is somewhere. -/
def State.packets : List Nat := s.sent.map (fun gtpu => gtpu.pkbuf.number) ++
    (s.freed.map Pkbuf.number ++ s.fars.flatMap (fun far => far.bufferedGtpu.map Pkbuf.number))

/- The packets that a FAR buffered and that were then sent. -/
def State.flushed (place : Nat) : List Nat := (s.sent.filter
    (fun gtpu => gtpu.buffered && gtpu.far == place)).map (fun gtpu => gtpu.pkbuf.number)

/- The packets that went through the buffer, or are in it. -/
def State.line (place : Nat) : List Nat := s.flushed place ++
    (s.bufferedGtpu place).map Pkbuf.number

/- Each packet that was delivered is in one place. -/
def Accounted : Prop := s.packets.Perm (List.range s.delivered)

/- Packets leave each buffer as they came. -/
def InOrder : Prop := ∀ place, (s.line place).Pairwise (· < ·)

section Packets

variable {s s' : State} {place : Nat} {far next : Far}

theorem mem_packets_of_line (hMem : number ∈ s.line place) : number ∈ s.packets := by
  rcases mem_append.mp hMem with hSent | hBuffered
  · rcases mem_map.mp hSent with ⟨gtpu, hGtpu, rfl⟩
    exact mem_append_left _ (mem_map_of_mem (mem_of_mem_filter hGtpu))
  · refine mem_append_right _ (mem_append_right _ ?_)
    unfold bufferedGtpu at hBuffered
    cases hAt : s.fars[place]? with
    | none =>
      rw [hAt] at hBuffered
      cases hBuffered
    | some far =>
      rw [hAt] at hBuffered
      exact mem_flatMap.mpr ⟨far, mem_of_getElem? hAt, hBuffered⟩

theorem InOrder.of_sublist (hOrder : InOrder s)
    (hSub : ∀ place, (s'.line place).Sublist (s.line place)) : InOrder s' := by
  intro place
  exact (hOrder place).sublist (hSub place)

theorem packets_free : (s.free pkbuf).packets.Perm (pkbuf.number :: s.packets) := by
  unfold packets free
  rw [map_append, append_assoc]
  exact (List.Perm.append_left _ perm_middle).trans perm_middle

theorem packets_send :
    packets { s with sent := s.sent ++ [gtpu] } |>.Perm (gtpu.pkbuf.number :: s.packets) := by
  unfold packets
  rw [map_append, append_assoc]
  exact perm_middle

/- What one of several lists is replaced by comes in its stead. -/
theorem perm_flatMap_set {α β : Type} {g : α → List β} {l : List α} {x : α} (hAt : l[i]? = some x)
    {y : α} : ((l.set i y).flatMap g ++ g x).Perm (l.flatMap g ++ g y) := by
  induction l generalizing i with
  | nil => cases hAt
  | cons first rest ih =>
    cases i with
    | zero =>
      cases hAt
      rw [set_cons_zero, flatMap_cons, flatMap_cons, append_assoc, append_assoc]
      exact (perm_append_comm.append_left _).trans (perm_append_comm_assoc _ _ _ |>.trans
        (perm_append_comm.append_left _))
    | succ i =>
      rw [set_cons_succ, flatMap_cons, flatMap_cons, append_assoc, append_assoc]
      exact (ih hAt).append_left _

theorem packets_setFar (hAt : s.fars[place]? = some far) (next : Far) :
    ((s.setFar place next).packets ++ far.bufferedGtpu.map Pkbuf.number).Perm (s.packets ++
        next.bufferedGtpu.map Pkbuf.number) := by
  unfold packets setFar
  rw [append_assoc, append_assoc, append_assoc, append_assoc]
  exact ((perm_flatMap_set hAt).append_left _).append_left _

theorem bufferedGtpu_setFar (hAt : s.fars[place]? = some far) (next : Far) (other : Nat) :
    (s.setFar place next).bufferedGtpu other =
      if place = other then next.bufferedGtpu
      else s.bufferedGtpu other := by
  rcases List.getElem?_eq_some_iff.mp hAt with ⟨hLess, _⟩
  unfold bufferedGtpu setFar
  by_cases hSame : place = other
  · rw [← hSame, if_pos rfl, List.getElem?_set_self hLess]
    rfl
  · rw [if_neg hSame, List.getElem?_set_ne hSame]

theorem bufferedGtpu_of_at (hAt : s.fars[place]? = some far) :
    s.bufferedGtpu place = far.bufferedGtpu := by
  unfold bufferedGtpu
  rw [hAt]
  rfl

@[simp] theorem flushed_setFar : (s.setFar place next).flushed other = s.flushed other := rfl

/- A FAR that keeps its packets does not move any. -/
theorem packets_setFar_same (hAt : s.fars[place]? = some far)
    (hSame : next.bufferedGtpu = far.bufferedGtpu) :
    (s.setFar place next).packets.Perm s.packets := by
  have hSet := packets_setFar hAt next
  rw [hSame] at hSet
  exact (perm_append_right_iff _).mp hSet

theorem line_setFar_same (hAt : s.fars[place]? = some far)
    (hSame : next.bufferedGtpu = far.bufferedGtpu) :
    (s.setFar place next).line other = s.line other := by
  unfold line
  rw [flushed_setFar, bufferedGtpu_setFar hAt, hSame]
  by_cases hOther : place = other
  · rw [if_pos hOther, ← hOther, bufferedGtpu_of_at hAt]
  · rw [if_neg hOther]

end Packets

---- Emptied Buffers ----

/-
  The packets of a list leave the buffer of a FAR: all of them have a place elsewhere, and those
  that are sent keep their order.
-/
structure Moves (place : Nat) (pkbufs : List Pkbuf) (s s' : State) : Prop where
  fars : s'.fars = s.fars
  delivered : s'.delivered = s.delivered
  packets : s'.packets.Perm (pkbufs.map Pkbuf.number ++ s.packets)
  line : ∃ kept, kept.Sublist (pkbufs.map Pkbuf.number) ∧ s'.flushed place = s.flushed place ++ kept
  other : ∀ other, other ≠ place → s'.flushed other = s.flushed other

section Moves

variable {s s' : State} {place : Nat}

theorem Moves.refl : Moves place [] s s where
  fars := rfl
  delivered := rfl
  packets := .refl _
  line := ⟨[], .refl _, (append_nil _).symm⟩
  other _ _ := rfl

theorem Moves.trans (hFirst : Moves place first s s') (hSecond : Moves place second s' s'') :
    Moves place (first ++ second) s s'' := by
  rcases hFirst.line with ⟨kept, hKept, hLine⟩
  rcases hSecond.line with ⟨kept', hKept', hLine'⟩
  constructor
  case fars => exact hSecond.fars.trans hFirst.fars
  case delivered => exact hSecond.delivered.trans hFirst.delivered
  case packets =>
    rw [map_append, append_assoc]
    exact hSecond.packets.trans ((hFirst.packets.append_left _).trans
      (perm_append_comm_assoc _ _ _))
  case line =>
    refine ⟨kept ++ kept', ?_, ?_⟩
    · rw [map_append]
      exact hKept.append hKept'
    · rw [hLine', hLine, append_assoc]
  case other =>
    intro other hOther
    rw [hSecond.other other hOther, hFirst.other other hOther]

/- One step for each packet of a list. -/
theorem Moves.foldl (hStep : ∀ s pkbuf, Moves place [pkbuf] s (step s pkbuf)) (pkbufs : List Pkbuf)
    (s : State) : Moves place pkbufs s (pkbufs.foldl step s) := by
  induction pkbufs generalizing s with
  | nil => exact .refl
  | cons pkbuf rest ih => exact (hStep s pkbuf).trans (ih (step s pkbuf))

theorem moves_free (place : Nat) (s : State) (pkbuf : Pkbuf) :
    Moves place [pkbuf] s (s.free pkbuf) where
  fars := rfl
  delivered := rfl
  packets := packets_free
  line := ⟨[], nil_sublist _, (append_nil _).symm⟩
  other _ _ := rfl

/- A packet is sent or freed. -/
theorem sendGtpu_cases : sendGtpu network place buffered s pkbuf = s.free pkbuf ∨ ∃ teid,
        sendGtpu network place buffered s pkbuf =
          { s with
            sent :=
  s.sent ++
    [{ pkbuf := pkbuf
       teid := teid
       far := place
       buffered := buffered }] } := by
  unfold sendGtpu
  cases s.fars[place]? with
  | none => exact .inl rfl
  | some far =>
    dsimp only
    by_cases hUnknown : far.dstIf = interfaceUnknown
    · exact .inl (if_pos hUnknown)
    · rw [if_neg hUnknown]
      cases far.gnode with
      | none => exact .inl rfl
      | some gnode =>
        dsimp only
        by_cases hSock : gnode.sock
        · rw [if_pos hSock]
          by_cases hTaken : network pkbuf.number
          · exact .inr ⟨far.teid, if_pos hTaken⟩
          · exact .inl (if_neg hTaken)
        · exact .inl (if_neg hSock)

theorem moves_sendGtpu (network : Network) (place : Nat) (s : State) (pkbuf : Pkbuf) :
    Moves place [pkbuf] s (sendGtpu network place true s pkbuf) := by
  rcases sendGtpu_cases with hFreed | ⟨teid, hSent⟩
  · rw [hFreed]
    exact moves_free place s pkbuf
  · rw [hSent]
    constructor
    case fars => rfl
    case delivered => rfl
    case packets => exact packets_send
    case line =>
      refine ⟨[pkbuf.number], .refl _, ?_⟩
      unfold flushed
      simp
    case other =>
      intro other hOther
      unfold flushed
      simp [Ne.symm hOther]

/- The buffer is emptied once its packets have another place. -/
def emptied (s : State) (place : Nat) (far : Far) : State :=
  s.setFar place { far with bufferedGtpu := [] }

theorem Moves.accounted (hAt : s.fars[place]? = some far)
    (hMoves : Moves place far.bufferedGtpu s s') (hAccounted : Accounted s) :
    Accounted (emptied s' place far) := by
  have hAt' : s'.fars[place]? = some far := by
    rw [hMoves.fars]
    exact hAt
  have hSet := packets_setFar hAt' { far with bufferedGtpu := [] }
  rw [map_nil, append_nil] at hSet
  have hSame := (perm_append_left_iff _).mp (perm_append_comm.trans (hSet.trans hMoves.packets))
  unfold Accounted at hAccounted ⊢
  have hDelivered : (emptied s' place far).delivered = s.delivered := hMoves.delivered
  rw [hDelivered]
  exact hSame.trans hAccounted

theorem Moves.inOrder (hAt : s.fars[place]? = some far) (hMoves : Moves place far.bufferedGtpu s s')
    (hOrder : InOrder s) : InOrder (emptied s' place far) := by
  have hAt' : s'.fars[place]? = some far := by
    rw [hMoves.fars]
    exact hAt
  refine hOrder.of_sublist ?_
  intro other
  unfold State.line emptied
  rw [flushed_setFar, bufferedGtpu_setFar hAt']
  by_cases hSame : place = other
  · rcases hMoves.line with ⟨kept, hKept, hLine⟩
    rw [if_pos hSame, ← hSame, hLine, bufferedGtpu_of_at hAt, map_nil, append_nil]
    exact hKept.append_left _
  · rw [if_neg hSame, hMoves.other other (Ne.symm hSame)]
    unfold bufferedGtpu
    rw [hMoves.fars]

end Moves

end Pretty5gs.Pfcp.DownlinkBuffer
