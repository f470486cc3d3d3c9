import Mathlib
import Pretty5gs.Core.Types

/-
  The record of a PFCP transaction and the functions that work on one record.

  A function returns its code and the new record, or a fault when the code aborts or indexes
  `seq[3]` out of bounds.
-/

---- Messages ----

namespace Pretty5gs.Pfcp

/-
  The fields of a received header that the layer reads; the parser has stored the sequence number of
  a header without SEID in `sqn`.
-/
structure Header where
  type : Nat
  sqn : Be32
deriving DecidableEq, Repr

/- The type and SEID that a caller asks to be sent. -/
structure HeaderDesc where
  type : Nat
  seid : BitVec 64
deriving DecidableEq, Repr

/- A packet whose PFCP header has been written. -/
structure Pkbuf where
  version : Nat
  type : Nat
  length : U16
  seidPresence : Bool
  seid : BitVec 64
  sqn : Be32
  payload : List UInt8
deriving DecidableEq, Repr

def ogsPfcpXidToSqn (xid : U32) : Be32 := htobe32 (xid <<< 8)

def ogsPfcpSqnToXid (sqn : Be32) : U32 := be32toh sqn >>> 8

abbrev ogsPfcpVersionNotSupportedResponseType : Nat := 11

abbrev ogsPfcpSessionEstablishmentRequestType : Nat := 50

inductive Stage where
  | unknown
  | initial
  | intermediate
  | final
deriving DecidableEq, Repr

def pfcpInitialTypes : List Nat :=
  -- Heartbeat, Association Setup, Update and Release
  [ 1, 5, 7, 9, ogsPfcpSessionEstablishmentRequestType,
  -- Session Modification, Deletion and Report
    52, 54, 56 ]

def pfcpFinalTypes : List Nat :=
  -- Heartbeat, Association Setup, Update and Release
  [ 2, 6, 8, 10, ogsPfcpVersionNotSupportedResponseType,
  -- Session Establishment, Modification, Deletion, Report
    51, 53, 55, 57 ]

/- `ogs_pfcp_xact_get_stage` ignores the identifier and knows no intermediate message. -/
def ogsPfcpXactGetStage (type : Nat) (_xid : U32) : Stage :=
  if type ∈ pfcpInitialTypes then .initial
  else if type ∈ pfcpFinalTypes then .final
  else .unknown

---- The Record ----

/- `OGS_PFCP_LOCAL_ORIGINATOR`, `OGS_PFCP_REMOTE_ORIGINATOR` -/
inductive Originator where
  | localOrg
  | remoteOrg
deriving DecidableEq, Repr

/- One element of the history `seq[3]`. -/
structure SeqEntry where
  type : Nat
  pkbuf : Option Pkbuf
deriving DecidableEq, Repr

/- The zeroed history element. -/
def SeqEntry.null : SeqEntry := { type := 0, pkbuf := none }

/- The fields of `ogs_pfcp_xact_t` that the layer uses. -/
structure Xact where
  org : Originator
  xid : U32
  hashKey : Nat
  node : Nat
  step : Nat
  seq : Fin 3 → SeqEntry
  tmResponse : Option Timer
  responseRcount : U8
  lagDeferCount : U8
  tmHolding : Option Timer
  holdingRcount : U8
  tmDelayedCommit : Option Timer

/- A zeroed record after its identifying fields are set. -/
def Xact.calloc (org : Originator) (xid : U32) (node : Nat) : Xact where
  org := org
  xid := xid
  hashKey := 0
  node := node
  step := 0
  seq := fun _ => SeqEntry.null
  tmResponse := none
  responseRcount := 0
  lagDeferCount := 0
  tmHolding := none
  holdingRcount := 0
  tmDelayedCommit := none

/- Read `seq[index]`. -/
def Xact.seqAt (xact : Xact) (index : Int) : Except Fault SeqEntry :=
  if h : 0 ≤ index ∧ index < 3 then .ok (xact.seq ⟨index.toNat, toNat_lt_three h⟩)
  else .error (.outOfBounds index)

/- Write `seq[index]`. -/
def Xact.setSeq (xact : Xact) (index : Int) (entry : SeqEntry) : Except Fault Xact :=
  if h : 0 ≤ index ∧ index < 3 then
    .ok { xact with
      seq := Function.update xact.seq
        ⟨index.toNat, toNat_lt_three h⟩ entry }
  else .error (.outOfBounds index)

---- Sending A Step ----

/- The packet that `ogs_pfcp_xact_update_tx` builds. -/
def buildPfcp (xid : U32) (hdesc : HeaderDesc) (payload : List UInt8) : Pkbuf :=
  if hdesc.type ≥ ogsPfcpSessionEstablishmentRequestType then
    { version := 1
      type := hdesc.type
      length := BitVec.ofNat 16 (payload.length + 16 - 4)
      seidPresence := true
      seid := hdesc.seid
      sqn := ogsPfcpXidToSqn xid
      payload := payload }
  else
    { version := 1
      type := hdesc.type
      length := BitVec.ofNat 16 (payload.length + 8 - 4)
      seidPresence := false
      seid := 0
      sqn := ogsPfcpXidToSqn xid
      payload := payload }

/- What the switch of `ogs_pfcp_xact_update_tx` decides. -/
inductive TxGuard where
  | accept
  | reject
  | abort
deriving DecidableEq, Repr

/- The switch of `ogs_pfcp_xact_update_tx`. -/
def txGuard (xact : Xact) (type : Nat) : TxGuard :=
  match xact.org, ogsPfcpXactGetStage type xact.xid with
  | .localOrg, .initial => if xact.step ≠ 0 then .reject else .accept
  | .localOrg, .intermediate => .reject
  | .localOrg, .final => if xact.step ≠ 2 then .reject else .accept
  | .localOrg, .unknown => .abort
  | .remoteOrg, .initial => .reject
  | .remoteOrg, .intermediate => if xact.step ≠ 1 then .reject else .accept
  | .remoteOrg, .final => if xact.step ≠ 1 then .reject else .accept
  | .remoteOrg, .unknown => .reject

/- `ogs_pfcp_xact_update_tx` -/
def ogsPfcpXactUpdateTx (xact : Xact) (hdesc : HeaderDesc)
    (payload : List UInt8) : Except Fault (Rv × Xact) :=
  match txGuard xact hdesc.type with
  | .abort => .error .assertion
  | .reject => .ok (.error, xact)
  | .accept => do
      let saved ← xact.setSeq xact.step
        { type := hdesc.type
          pkbuf := some (buildPfcp xact.xid hdesc payload) }
      return (.ok, { saved with step := saved.step + 1 })

---- Receiving A Step ----

/- What the switch of `ogs_pfcp_xact_update_rx` decides. -/
inductive RxGuard where
  | reject
  | resend (pkbuf : Option Pkbuf)
  | discard
  | accept (hold : Bool)
deriving DecidableEq, Repr

/-
  The switch of `ogs_pfcp_xact_update_rx`. A response whose type does not follow the type of the
  request is discarded.
-/
def rxGuard (xact : Xact) (type : Nat) : RxGuard :=
  match xact.org, ogsPfcpXactGetStage type xact.xid with
  | .localOrg, .initial => .reject
  | .localOrg, .intermediate =>
      if (xact.seq 1).type = type then
        if xact.step ≠ 2 ∧ xact.step ≠ 3 then .reject
        else .resend (xact.seq 2).pkbuf
      else if xact.step ≠ 1 then .reject
      else .accept true
  | .localOrg, .final =>
      if xact.step ≠ 1 then .reject
      else if type ≠ ogsPfcpVersionNotSupportedResponseType ∧ (xact.seq 0).type + 1 ≠ type then
        .discard
      else .accept false
  | .localOrg, .unknown => .reject
  | .remoteOrg, .initial =>
      if (xact.seq 0).type = type then
        if xact.step ≠ 1 ∧ xact.step ≠ 2 then .reject
        else .resend (xact.seq 1).pkbuf
      else if xact.step ≠ 0 then .reject
      else .accept true
  | .remoteOrg, .intermediate => .reject
  | .remoteOrg, .final => if xact.step ≠ 2 then .reject else .accept false
  | .remoteOrg, .unknown => .reject

/- Restart the holding timer. -/
def Xact.hold (xact : Xact) : Xact := { xact with tmHolding := ogsTimerStart xact.tmHolding }

/- Stop the response timer, save the type and advance. -/
def Xact.acceptRx (xact : Xact) (type : Nat) : Except Fault Xact := do
  let xact := { xact with tmResponse := ogsTimerStop xact.tmResponse }
  let entry ← xact.seqAt xact.step
  let xact ← xact.setSeq xact.step
    { entry with type := type }
  return { xact with step := xact.step + 1 }

/-
  `ogs_pfcp_xact_update_rx`: the return code, the record and the packets handed to
  `ogs_pfcp_sendto`.
-/
def ogsPfcpXactUpdateRx (xact : Xact) (type : Nat) : Except Fault (Rv × Xact × List Pkbuf) :=
  match rxGuard xact type with
  | .reject => .ok (.error, xact, [])
  | .resend (some pkbuf) => .ok (.retry, xact.hold, [pkbuf])
  | .resend none => .ok (.retry, xact, [])
  | .discard => .ok (.retry, xact, [])
  | .accept hold => do
      let xact ←
        (if hold then xact.hold else xact).acceptRx type
      return (.ok, xact, [])

---- Committing A Step ----

/- What `ogs_pfcp_xact_commit` does with the transaction. -/
inductive CommitAction where
  | delete (rv : Rv)
  | send (xact : Xact) (pkbuf : Pkbuf)

/- Send the packet of the last step, which must exist. -/
def Xact.commitSend (xact : Xact) : Except Fault CommitAction := do
  let last ← xact.seqAt (xact.step - 1)
  match last.pkbuf with
  | none => throw .assertion
  | some pkbuf => return .send xact pkbuf

/- The case analysis of `ogs_pfcp_xact_commit`. -/
def Xact.commitAction (xact : Xact) : Except Fault CommitAction := do
  let last ← xact.seqAt (xact.step - 1)
  let waiting := { xact with tmResponse := ogsTimerStart xact.tmResponse }
  match xact.org, ogsPfcpXactGetStage last.type xact.xid with
  | .localOrg, .initial =>
      if xact.step ≠ 1 then return .delete .error
      else waiting.commitSend
  | .localOrg, .intermediate => return .delete .error
  | .localOrg, .final =>
      if xact.step ≠ 2 ∧ xact.step ≠ 3 then return .delete .error
      else if xact.step = 2 then return .delete .ok
      else xact.commitSend
  | .localOrg, .unknown => return .delete .error
  | .remoteOrg, .initial => return .delete .error
  | .remoteOrg, .intermediate =>
      if xact.step ≠ 2 then return .delete .error
      else waiting.commitSend
  | .remoteOrg, .final =>
      if xact.step ≠ 2 ∧ xact.step ≠ 3 then return .delete .error
      else if xact.step = 3 then return .delete .ok
      else xact.commitSend
  | .remoteOrg, .unknown => return .delete .error

---- Lag Deferral ----

/- `OGS_PFCP_XACT_LAG_DEFER_THRESHOLD` in microseconds. -/
abbrev ogsPfcpXactLagDeferThreshold : Int := 1500000

/- `OGS_PFCP_XACT_LAG_MAX_DEFER` -/
abbrev ogsPfcpXactLagMaxDefer : U8 := 8

/- `xact_response_lag_defer` for the lag that the registered callback reports, if there is one. -/
def xactResponseLagDefer (xact : Xact) (lag : Option Int) : Option Xact :=
  match lag, xact.tmResponse with
  | some lag, some _ =>
      if lag < ogsPfcpXactLagDeferThreshold then none
      else if ogsPfcpXactLagMaxDefer ≤ xact.lagDeferCount
      then none
      else some
        { xact with
          lagDeferCount := xact.lagDeferCount + 1
          tmResponse := ogsTimerStart xact.tmResponse }
  | _, _ => none

end Pretty5gs.Pfcp
