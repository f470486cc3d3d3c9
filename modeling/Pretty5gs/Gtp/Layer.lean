import Pretty5gs.Gtp.Thread

/-
  The operations of the GTP transaction layer as a transition system: receive, transmit, commit and
  the timer callbacks, in any order.

  A node of the lists or of the index always belongs to a transaction that has not been freed, so a
  lookup that fails here never stands for a read of freed memory. This is the invariant `Sound`.
-/

---- Receiving ----

namespace Pretty5gs.Gtp

/- A receive returns a code and, when it is OK, `*xact`. -/
abbrev Received := Rv × Option Nat × Thread

/-
  The end of the two receive functions. A found transaction survives an error, a created one does
  not.
-/
def receiveRx (t : Thread) (x : Nat) (created : Bool) (type : Nat) : Except Fault Received :=
  match t.xact x with
  | none => .error .useAfterFree
  | some xact => do
      let (rv, xact, packets) ← ogsGtpXactUpdateRx xact type
      let t := (t.setXact x xact).sendto xact.gnode packets
      match rv with
      | .error =>
          if created then
            let t ← ogsGtpXactDelete t x
            return (.error, none, t)
          else return (.error, none, t)
      | .retry => return (.retry, none, t)
      | .ok => return (.ok, some x, t)

/- Create a transaction for the message, which must succeed. -/
def receiveNew (cfg : Config) (t : Thread) (n : Nat) (version : Version) (xid : U32)
    (type : Nat) : Except Fault Received := do
  let (created, t) ←
    ogsGtpXactRemoteCreate cfg t n version xid
  match created with
  | none => throw .assertion
  | some x => receiveRx t x true type

/- The index first, then the list, by version and xid. -/
def findXid (t : Thread) (n : Nat) (org : Originator) (version : Version)
    (xid : U32) : Option Nat :=
  let indexed := xactIndexGet t.toStore n org version xid
  match indexed.filter (matchesXid t.toStore version xid) with
  | some x => some x
  | none => scanXid t.toStore n org version xid

/- The list that `ogs_gtp1_xact_receive` selects. -/
def gtp1RxOrg (stage : Stage) (type : Nat) : Option Originator :=
  match stage with
  | .initial => some .remoteOrg
  | .intermediate => some .localOrg
  | .final =>
      if type = ogsGtp1SgsnContextAcknowledgeType then some .remoteOrg
      else some .localOrg
  | .unknown => none

/- `ogs_gtp1_xact_receive` -/
def ogsGtp1XactReceive (cfg : Config) (t : Thread) (n : Nat)
    (h : Gtp1Header) : Except Fault Received :=
  if ¬ h.s then .ok (.error, none, t)
  else
    let xid := ogsGtp1SqnToXid h.sqn
    let stage := ogsGtp1XactGetStage h.type xid
    match gtp1RxOrg stage h.type with
    | none => .ok (.error, none, t)
    | some org =>
        match findXid t n org .gtp1 xid with
        | some x => receiveRx t x false h.type
        | none =>
            if stage = .intermediate then .ok (.error, none, t)
            else receiveNew cfg t n .gtp1 xid h.type

/- `ogs_gtp2_xact_local_match` on a transaction. -/
def ogsGtp2XactLocalMatch (t : Thread) (xid rxKey : U32) (expectStep : Int) (x : Nat) : Bool :=
  (t.xact x).any (fun xact =>
      xact.gtpVersion = .gtp2 ∧ xact.xid = xid ∧ xact.org = .localOrg ∧ be32toh xact.sqn ≠ 0 ∧
        ogsGtp2SqnKey xact.sqn = rxKey ∧ (expectStep ≥ 0 → xact.step = expectStep))

/- `ogs_gtp2_xact_find_local` -/
def ogsGtp2XactFindLocal (t : Thread) (n : Nat) (xid : U32) (sqn : Be32)
    (expectStep : Int) : Option Nat := (xactList t.toStore n .localOrg).find?
    (ogsGtp2XactLocalMatch t xid (ogsGtp2SqnKey sqn) expectStep)

/- The list that `ogs_gtp_xact_receive` selects. -/
def gtp2RxOrg (stage : Stage) (xid : U32) (type : Nat) : Option Originator :=
  match stage with
  | .initial => some .remoteOrg
  | .intermediate => some .localOrg
  | .final =>
      if isCommandXid xid then
        if isGtp2FailureIndication type then some .localOrg
        else some .remoteOrg
      else some .localOrg
  | .unknown => none

/- The outstanding local transaction that a reply answers. -/
def findLocalReply (t : Thread) (n : Nat) (xid : U32) (sqn : Be32) : Option Nat :=
  let indexed := xactIndexGet t.toStore n .localOrg .gtp2 xid
  match indexed.filter (ogsGtp2XactLocalMatch t xid (ogsGtp2SqnKey sqn) 1) with
  | some x => some x
  | none => ogsGtp2XactFindLocal t n xid sqn 1

/- `ogs_gtp_xact_receive` -/
def ogsGtpXactReceive (cfg : Config) (t : Thread) (n : Nat)
    (h : Gtp2Header) : Except Fault Received :=
  let xid := ogsGtp2SqnToXid h.sqn
  let stage := ogsGtp2XactGetStage h.type xid
  match gtp2RxOrg stage xid h.type with
  | none => .ok (.error, none, t)
  | some org =>
      if org = .localOrg ∧ ogsGtp2XactIsLocalReply stage xid
      then
        match findLocalReply t n xid h.sqn with
        | none => .ok (.error, none, t)
        | some x => receiveRx t x false h.type
      else
        match findXid t n org .gtp2 xid with
        | some x => receiveRx t x false h.type
        | none => receiveNew cfg t n .gtp2 xid h.type

---- Transmitting ----

variable (t : Thread) (x : Nat)

/- A transmit function applied to a transaction. -/
def updateTx (tx : Xact → Except Fault (Rv × Xact)) : Except Fault (Rv × Thread) :=
  match t.xact x with
  | none => .error .useAfterFree
  | some xact => do
      let (rv, xact) ← tx xact
      return (rv, t.setXact x xact)

/- `ogs_gtp_xact_commit`; `sendOk` is the result of `ogs_gtp_sendto`. -/
def ogsGtpXactCommit (sendOk : Bool) : Except Fault (Rv × Thread) :=
  match t.xact x with
  | none => .error .useAfterFree
  | some xact => do
      match ← xact.commitAction with
      | .delete rv =>
          let t ← ogsGtpXactDelete t x
          return (rv, t)
      | .keep => return (.ok, t)
      | .send xact pkbuf =>
          let t := (t.setXact x xact).sendto xact.gnode [pkbuf]
          if sendOk then return (.ok, t)
          else
            let t ← ogsGtpXactDelete t x
            return (.error, t)

---- Timers ----

/- `ogs_gtp_xact_find_by_id_for_timer` -/
def ogsGtpXactFindByIdForTimer : Option Xact := (t.xact x).filter
    (fun xact => x ∈ xactList t.toStore xact.gnode xact.org)

/-
  `response_timeout`. The record's retry count decides between another copy of the packet and giving
  up; the deletion that follows the give-up callback is the step `Op.callbackReturn`.
-/
def responseTimeout (lag : Option Int) : Except Fault Thread :=
  match ogsGtpXactFindByIdForTimer t x with
  | none => .ok t
  | some xact => do
      let last ← xact.seqAt (xact.step - 1)
      match xactResponseLagDefer xact lag with
      | some xact => return t.setXact x xact
      | none =>
          let xact := { xact with responseRcount := xact.responseRcount - 1 }
          if 0 < xact.responseRcount then
            let xact := { xact with tmResponse := ogsTimerStart xact.tmResponse }
            match last.pkbuf with
            | none => throw .assertion
            | some pkbuf => return (t.setXact x xact).sendto xact.gnode [pkbuf]
          else
            return { t.setXact x xact with
              callbacks := x :: t.callbacks }

/- `holding_timeout` -/
def holdingTimeout : Except Fault Thread :=
  match ogsGtpXactFindByIdForTimer t x with
  | none => .ok t
  | some xact => do
      let _ ← xact.seqAt (xact.step - 1)
      let xact := { xact with holdingRcount := xact.holdingRcount - 1 }
      if 0 < xact.holdingRcount then
        return t.setXact x { xact with tmHolding := ogsTimerStart xact.tmHolding }
      else ogsGtpXactDelete (t.setXact x xact) x

/- `peer_timeout`: what its callback does are steps. -/
def peerTimeout : Except Fault Thread :=
  match ogsGtpXactFindByIdForTimer t x with
  | none => .ok t
  | some xact => do
      let _ ← xact.seqAt (xact.step - 1)
      return t

def Xact.timer (xact : Xact) (kind : TimerKind) : Option Timer :=
  match kind with
  | .response => xact.tmResponse
  | .holding => xact.tmHolding
  | .peer => xact.tmPeer

def Xact.stopTimer (xact : Xact) (kind : TimerKind) : Xact :=
  match kind with
  | .response => { xact with tmResponse := ogsTimerStop xact.tmResponse }
  | .holding => { xact with tmHolding := ogsTimerStop xact.tmHolding }
  | .peer => { xact with tmPeer := ogsTimerStop xact.tmPeer }

/- The first loops of `ogs_timer_mgr_expire` detach a running timer; its callback is then due. -/
def expireTimer (t : Thread) (kind : TimerKind) (x : Nat) : Thread :=
  match t.xact x with
  | none => t
  | some xact =>
      if isRunning (xact.timer kind) then
        { t.setXact x (xact.stopTimer kind) with
          expired := t.expired ++ [(kind, x)] }
      else t

/- The last loop of `ogs_timer_mgr_expire` makes a call. -/
def fireTimer (t : Thread) (lag : Option Int) : Except Fault Thread :=
  match t.expired with
  | [] => .ok t
  | (kind, x) :: rest =>
      let t := { t with expired := rest }
      match kind with
      | .response => responseTimeout t x lag
      | .holding => holdingTimeout t x
      | .peer => peerTimeout t x

/- The end of `response_timeout` after the callback. -/
def callbackReturn (t : Thread) : Except Fault Thread :=
  match t.callbacks with
  | [] => .ok t
  | x :: rest => ogsGtpXactDelete { t with callbacks := rest } x

/- The application starts the peer timer. -/
def startPeer (t : Thread) (x : Nat) : Except Fault Thread :=
  match t.xact x with
  | none => .error .useAfterFree
  | some xact => .ok (t.setXact x { xact with tmPeer := ogsTimerStart xact.tmPeer })

---- The Transition System ----

/- The calls into the layer and the environment's steps. -/
inductive Op where
  | localCreate1 (n : Nat) (hdesc : HeaderDesc) (payload : List UInt8)
  | localCreate2 (n : Nat) (hdesc : HeaderDesc) (payload : List UInt8)
  | updateTx1 (x : Nat) (hdesc : HeaderDesc) (payload : List UInt8)
  | updateTx2 (x : Nat) (hdesc : HeaderDesc) (payload : List UInt8)
  | receive1 (n : Nat) (h : Gtp1Header)
  | receive2 (n : Nat) (h : Gtp2Header)
  | commit (x : Nat) (sendOk : Bool)
  | associate (x y : Nat)
  | deassociate (x y : Nat)
  | deleteAll (n : Nat)
  | startPeer (x : Nat)
  | expire (kind : TimerKind) (x : Nat)
  | fire (lag : Option Int)
  | callbackReturn
  -- Other modules take and return timers.
  | timers (avail : Nat)

/- Timer callbacks are due or have not returned. -/
def Thread.busy (t : Thread) : Bool := ¬ (t.expired = [] ∧ t.callbacks = [])

/-
  One step. The thread reads messages from its event queue only between runs of the timer manager.
-/
def exec (cfg : Config) (t : Thread) (op : Op) : Except Fault Thread :=
  match op with
  | .localCreate1 n hdesc payload =>
      (ogsGtp1XactLocalCreate cfg t n hdesc payload).map (fun r => r.2)
  | .localCreate2 n hdesc payload =>
      (ogsGtpXactLocalCreate cfg t n hdesc payload).map (fun r => r.2)
  | .updateTx1 x hdesc payload =>
      (updateTx t x (fun xact =>
        ogsGtp1XactUpdateTx xact hdesc payload)).map
        (fun r => r.2)
  | .updateTx2 x hdesc payload =>
      (updateTx t x (fun xact =>
        ogsGtpXactUpdateTx xact hdesc payload)).map
        (fun r => r.2)
  | .receive1 n h =>
      if t.busy then .ok t
      else (ogsGtp1XactReceive cfg t n h).map (fun r => r.2.2)
  | .receive2 n h =>
      if t.busy then .ok t
      else (ogsGtpXactReceive cfg t n h).map (fun r => r.2.2)
  | .commit x sendOk => (ogsGtpXactCommit t x sendOk).map (fun r => r.2)
  | .associate x y => ogsGtpXactAssociate t x y
  | .deassociate x y => ogsGtpXactDeassociate t x y
  | .deleteAll n => ogsGtpXactDeleteAll t n
  | .startPeer x => startPeer t x
  | .expire kind x =>
      if t.callbacks = [] then .ok (expireTimer t kind x)
      else .ok t
  | .fire lag => if t.callbacks = [] then fireTimer t lag else .ok t
  | .callbackReturn => callbackReturn t
  | .timers avail => .ok { t with timerAvail := avail }

/-
  `ogs_gtp_xact_init` on a thread without transactions. The counter starts at a random point of the
  GTPv1 range.
-/
def initial (counter : U32) (poolAvail timerAvail : Nat) : Thread where
  xactId := counter
  poolId := 0
  poolAvail := poolAvail
  timerAvail := timerAvail
  xact := fun _ => none
  lnode := fun _ => Intrusive.Links.null
  gnode := fun _ => Gnode.empty
  expired := []
  callbacks := []
  sent := []

/-
  The main thread of a daemon without protocol shards, with `GTP_N3_RESPONSE_RETRY_COUNT` and
  `GTP_N3_HOLDING_RETRY_COUNT`.
-/
def mainThread : Config where
  worker := { shardsActive := false, selfId := 0 }
  n3ResponseRcount := 3
  n3HoldingRcount := 1

/- The main thread, shard 0, of a daemon with shards. -/
def shardThread : Config := { mainThread with worker := { shardsActive := true, selfId := 0 } }

/- The transaction layer of one thread. -/
def layer (cfg : Config) : Faulty.System Thread Op Fault where
  Init := fun t =>
    ∃ counter poolAvail timerAvail, counter ≤ ogsGtp1MaxXactId ∧
        t = initial counter poolAvail timerAvail
  exec := exec cfg

theorem reachable_initial (hCounter : counter ≤ ogsGtp1MaxXactId) :
    (layer cfg).Reachable (initial counter poolAvail timerAvail) :=
  .init ⟨counter, poolAvail, timerAvail, hCounter, rfl⟩

end Pretty5gs.Gtp
