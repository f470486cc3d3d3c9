import Pretty5gs.Gtp.Message
import Pretty5gs.Library.Transition
import Pretty5gs.Library.IntrusiveList
import Pretty5gs.Library.FirstIndex

/-
  One GTP transaction: its record and the functions that read or write only that record.

  Every access to the three-element history goes through `Xact.seqAt` or `Xact.setSeq`, which fault
  outside it.
-/

---- Transaction Records ----

namespace Pretty5gs.Gtp

/- `OGS_GTP_LOCAL_ORIGINATOR`, `OGS_GTP_REMOTE_ORIGINATOR` -/
inductive Originator where
  | localOrg
  | remoteOrg
deriving DecidableEq, Repr

/- One element of the history `seq[3]`. -/
structure SeqEntry where
  type : Nat
  pkbuf : Option Pkbuf
deriving DecidableEq, Repr

/- The zeroed history element. -/
def SeqEntry.null : SeqEntry := { type := 0, pkbuf := none }

/- The fields of `ogs_gtp_xact_t` that the layer uses. -/
structure Xact where
  gtpVersion : Version
  org : Originator
  xid : U32
  sqn : Be32
  hashKey : Nat
  gnode : Nat
  step : Nat
  seq : Fin 3 → SeqEntry
  tmResponse : Option Timer
  responseRcount : U8
  lagDeferCount : U8
  tmHolding : Option Timer
  holdingRcount : U8
  tmPeer : Option Timer
  assocXactId : Option Nat

/- A zeroed record after its identifying fields are set. -/
def Xact.calloc (gtpVersion : Version) (org : Originator) (xid : U32) (gnode : Nat) : Xact where
  gtpVersion := gtpVersion
  org := org
  xid := xid
  sqn := ⟨0⟩
  hashKey := 0
  gnode := gnode
  step := 0
  seq := fun _ => SeqEntry.null
  tmResponse := none
  responseRcount := 0
  lagDeferCount := 0
  tmHolding := none
  holdingRcount := 0
  tmPeer := none
  assocXactId := none

/- Read `seq[index]`. -/
def Xact.seqAt (xact : Xact) (index : Int) : Except Fault SeqEntry :=
  if h : 0 ≤ index ∧ index < 3 then .ok (xact.seq ⟨index.toNat, toNat_lt_three h⟩)
  else .error (.outOfBounds index)

/- Write `seq[index]`. -/
def Xact.setSeq (xact : Xact) (index : Int) (entry : SeqEntry) : Except Fault Xact :=
  if h : 0 ≤ index ∧ index < 3 then
    .ok { xact with
      seq := Function.update xact.seq
        ⟨index.toNat, toNat_lt_three h⟩ entry }
  else .error (.outOfBounds index)

---- Sending A Step ----

/- Save the message of this step and advance. -/
def Xact.saveTx (xact : Xact) (type : Nat) (pkbuf : Pkbuf) : Except Fault Xact := do
  let saved ← xact.setSeq xact.step
    { type := type, pkbuf := some pkbuf }
  return { saved with step := saved.step + 1 }

/- The packet that `ogs_gtp1_xact_update_tx` builds. -/
def buildGtp1 (xid : U32) (hdesc : HeaderDesc) (payload : List UInt8) : Pkbuf := .gtp1
    { version := 1
      s := true
      type := hdesc.type
      length := BitVec.ofNat 16 (payload.length + 12 - 8)
      teid := hdesc.teid
      sqn := ogsGtp1XidToSqn xid } payload

/- The packet that `ogs_gtp_xact_update_tx` builds. -/
def buildGtp2 (xid : U32) (hdesc : HeaderDesc) (payload : List UInt8) : Pkbuf :=
  if hdesc.type > ogsGtp2VersionNotSupportedIndicationType
  then
    .gtp2
      { version := 2
        teidPresence := true
        type := hdesc.type
        length := BitVec.ofNat 16 (payload.length + 12 - 4)
        firstWord := htobe32 hdesc.teid
        secondWord := ogsGtp2XidToSqn xid } payload
  else
    .gtp2
      { version := 2
        teidPresence := false
        type := hdesc.type
        length := BitVec.ofNat 16 (payload.length + 8 - 4)
        firstWord := ogsGtp2XidToSqn xid
        secondWord := htobe32 0 } payload

/- What the switch of a transmit function decides. -/
inductive TxGuard where
  | accept
  | reject
  | abort
deriving DecidableEq, Repr

/-
  The switch of `ogs_gtp1_xact_update_tx`. The final stage of a local transaction is accepted at
  step 2 and at step 3.
-/
def gtp1TxGuard (xact : Xact) (type : Nat) : TxGuard :=
  match xact.org, ogsGtp1XactGetStage type xact.xid with
  | .localOrg, .initial => if xact.step ≠ 0 then .reject else .accept
  | .localOrg, .intermediate => .reject
  | .localOrg, .final =>
      if xact.step ≠ 2 ∧ xact.step ≠ 3 then .reject
      else .accept
  | .localOrg, .unknown => .abort
  | .remoteOrg, .initial => .reject
  | .remoteOrg, .intermediate => if xact.step ≠ 1 then .reject else .accept
  | .remoteOrg, .final => if xact.step ≠ 1 then .reject else .accept
  | .remoteOrg, .unknown => .reject

/- The switch of `ogs_gtp_xact_update_tx`. -/
def gtp2TxGuard (xact : Xact) (type : Nat) : TxGuard :=
  match xact.org, ogsGtp2XactGetStage type xact.xid with
  | .localOrg, .initial => if xact.step ≠ 0 then .reject else .accept
  | .localOrg, .intermediate => .reject
  | .localOrg, .final => if xact.step ≠ 2 then .reject else .accept
  | .localOrg, .unknown => .abort
  | .remoteOrg, .initial => .reject
  | .remoteOrg, .intermediate => if xact.step ≠ 1 then .reject else .accept
  | .remoteOrg, .final => if xact.step ≠ 1 then .reject else .accept
  | .remoteOrg, .unknown => .reject

/- `ogs_gtp1_xact_update_tx` -/
def ogsGtp1XactUpdateTx (xact : Xact) (hdesc : HeaderDesc)
    (payload : List UInt8) : Except Fault (Rv × Xact) :=
  match gtp1TxGuard xact hdesc.type with
  | .abort => .error .assertion
  | .reject => .ok (.error, xact)
  | .accept => do
      let xact ← xact.saveTx hdesc.type
        (buildGtp1 xact.xid hdesc payload)
      return (.ok, xact)

/- `ogs_gtp_xact_update_tx`. The sequence number written to the packet is kept in the record. -/
def ogsGtpXactUpdateTx (xact : Xact) (hdesc : HeaderDesc)
    (payload : List UInt8) : Except Fault (Rv × Xact) :=
  match gtp2TxGuard xact hdesc.type with
  | .abort => .error .assertion
  | .reject => .ok (.error, xact)
  | .accept => do
      let xact ←
        { xact with sqn := ogsGtp2XidToSqn xact.xid }.saveTx
          hdesc.type (buildGtp2 xact.xid hdesc payload)
      return (.ok, xact)

---- Receiving A Step ----

/- What the switch of `ogs_gtp_xact_update_rx` decides. -/
inductive RxGuard where
  | reject
  | resend (pkbuf : Option Pkbuf)
  | accept (hold : Bool)
deriving DecidableEq, Repr

/- The switch of `ogs_gtp_xact_update_rx`. -/
def rxGuard (xact : Xact) (type : Nat) : RxGuard :=
  match xact.org, getStage xact.gtpVersion type xact.xid with
  | .localOrg, .initial => .reject
  | .localOrg, .intermediate =>
      if (xact.seq 1).type = type then
        if xact.step ≠ 2 ∧ xact.step ≠ 3 then .reject
        else .resend (xact.seq 2).pkbuf
      else if xact.step ≠ 1 then .reject
      else .accept true
  | .localOrg, .final => if xact.step ≠ 1 then .reject else .accept false
  | .localOrg, .unknown => .reject
  | .remoteOrg, .initial =>
      if (xact.seq 0).type = type then
        if xact.step ≠ 1 ∧ xact.step ≠ 2 then .reject
        else .resend (xact.seq 1).pkbuf
      else if xact.step ≠ 0 then .reject
      else .accept true
  | .remoteOrg, .intermediate => .reject
  | .remoteOrg, .final => if xact.step ≠ 2 then .reject else .accept false
  | .remoteOrg, .unknown => .reject

/- Restart the holding timer. -/
def Xact.hold (xact : Xact) : Xact := { xact with tmHolding := ogsTimerStart xact.tmHolding }

/- Stop the response timer, save the type and advance. -/
def Xact.acceptRx (xact : Xact) (type : Nat) : Except Fault Xact := do
  let xact := { xact with tmResponse := ogsTimerStop xact.tmResponse }
  let entry ← xact.seqAt xact.step
  let xact ← xact.setSeq xact.step
    { entry with type := type }
  return { xact with step := xact.step + 1 }

/-
  `ogs_gtp_xact_update_rx`: the return code, the record and the packets handed to `ogs_gtp_sendto`.
  A duplicate is answered with the stored packet, if there is one.
-/
def ogsGtpXactUpdateRx (xact : Xact) (type : Nat) : Except Fault (Rv × Xact × List Pkbuf) :=
  match rxGuard xact type with
  | .reject => .ok (.error, xact, [])
  | .resend (some pkbuf) => .ok (.retry, xact.hold, [pkbuf])
  | .resend none => .ok (.retry, xact, [])
  | .accept hold => do
      let xact ←
        (if hold then xact.hold else xact).acceptRx type
      return (.ok, xact, [])

---- Committing A Step ----

/- What `ogs_gtp_xact_commit` does with the transaction. -/
inductive CommitAction where
  | delete (rv : Rv)
  | keep
  | send (xact : Xact) (pkbuf : Pkbuf)

/- Send the packet of the last step, which must exist. -/
def Xact.commitSend (xact : Xact) : Except Fault CommitAction := do
  let last ← xact.seqAt (xact.step - 1)
  match last.pkbuf with
  | none => throw .assertion
  | some pkbuf => return .send xact pkbuf

/- The case analysis of `ogs_gtp_xact_commit`. -/
def Xact.commitAction (xact : Xact) : Except Fault CommitAction := do
  let last ← xact.seqAt (xact.step - 1)
  let waiting := { xact with tmResponse := ogsTimerStart xact.tmResponse }
  match xact.org,
      getStage xact.gtpVersion last.type xact.xid with
  | .localOrg, .initial =>
      if xact.step ≠ 1 then return .delete .error
      else waiting.commitSend
  | .localOrg, .intermediate =>
      if xact.step ≠ 2 then return .delete .error
      else return .keep
  | .localOrg, .final =>
      if xact.step ≠ 2 ∧ xact.step ≠ 3 then return .delete .error
      else if xact.step = 2 then return .delete .ok
      else xact.commitSend
  | .localOrg, .unknown => return .delete .error
  | .remoteOrg, .initial => return .delete .error
  | .remoteOrg, .intermediate =>
      if xact.step ≠ 2 then return .delete .error
      else waiting.commitSend
  | .remoteOrg, .final =>
      if xact.step ≠ 2 ∧ xact.step ≠ 3 then return .delete .error
      else if xact.step = 3 then return .delete .ok
      else xact.commitSend
  | .remoteOrg, .unknown => return .delete .error

---- Lag Deferral ----

/- `OGS_GTP_XACT_LAG_DEFER_THRESHOLD` in microseconds. -/
abbrev ogsGtpXactLagDeferThreshold : Int := 1500000

/- `OGS_GTP_XACT_LAG_MAX_DEFER` -/
abbrev ogsGtpXactLagMaxDefer : U8 := 8

/-
  `xact_response_lag_defer`: the re-armed record, or none. `lag` is what the registered callback
  reports, if any.
-/
def xactResponseLagDefer (xact : Xact) (lag : Option Int) : Option Xact :=
  match lag, xact.tmResponse with
  | some lag, some _ =>
      if lag < ogsGtpXactLagDeferThreshold then none
      else if ogsGtpXactLagMaxDefer ≤ xact.lagDeferCount
      then none
      else some
        { xact with
          lagDeferCount := xact.lagDeferCount + 1
          tmResponse := ogsTimerStart xact.tmResponse }
  | _, _ => none

end Pretty5gs.Gtp
