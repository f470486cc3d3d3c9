import Pretty5gs.Gtp.Store

/-
  The state of the GTP transaction layer on one thread, and the functions that create and delete
  transactions.
-/

---- State ----

namespace Pretty5gs.Gtp

/- The thread and the retry counts of the configuration. -/
structure Config where
  worker : Worker
  n3ResponseRcount : U8
  n3HoldingRcount : U8

/- The timers of a transaction. -/
inductive TimerKind where
  | response
  | holding
  | peer
deriving DecidableEq, Repr

/- The state of the transaction layer on one thread. -/
structure Thread extends Store where
  xactId : U32
  poolAvail : Nat
  timerAvail : Nat
  -- Timers detached by `ogs_timer_mgr_expire`, oldest first.
  expired : List (TimerKind × Nat)
  -- Give-up callbacks that have not returned yet.
  callbacks : List Nat
  -- Packets handed to `ogs_gtp_sendto`, newest first.
  sent : List (Nat × Pkbuf)

def Thread.setXact (t : Thread) (x : Nat) (xact : Xact) : Thread :=
  { t with toStore := t.toStore.setXact x xact }

/- `ogs_gtp_sendto` is called with these packets. -/
def Thread.sendto (t : Thread) (n : Nat) (packets : List Pkbuf) : Thread :=
  { t with sent := packets.map (fun p => (n, p)) ++ t.sent }

/- `ogs_pool_id_calloc` -/
def ogsPoolIdCalloc (t : Thread) : Option (Nat × Thread) :=
  if t.poolAvail = 0 then none
  else
    some (t.poolId + 1, { t with
        toStore := t.toStore.alloc
        poolAvail := t.poolAvail - 1 })

/- `ogs_timer_add` -/
def ogsTimerAdd (t : Thread) : Option Timer × Thread :=
  if t.timerAvail = 0 then (none, t)
  else (some { running := false }, { t with timerAvail := t.timerAvail - 1 })

/- The timers that a deletion gives back to the pool. -/
def Xact.timers (xact : Xact) : Nat := xact.tmResponse.toList.length + xact.tmPeer.toList.length +
    xact.tmHolding.toList.length

---- Association And Deletion ----

variable (t : Thread)

/- Overwrite the association of a transaction. -/
def Thread.setAssoc (x : Nat) (assoc : Option Nat) : Thread :=
  match t.xact x with
  | none => t
  | some xact => t.setXact x { xact with assocXactId := assoc }

/- `ogs_gtp_xact_associate` -/
def ogsGtpXactAssociate (x y : Nat) : Except Fault Thread :=
  match t.xact x, t.xact y with
  | some xact1, some xact2 =>
      if xact1.assocXactId.isSome ∨ xact2.assocXactId.isSome
      then .error .assertion
      else .ok ((t.setAssoc x (some y)).setAssoc y (some x))
  | _, _ => .error .useAfterFree

/- `ogs_gtp_xact_deassociate` -/
def ogsGtpXactDeassociate (x y : Nat) : Except Fault Thread :=
  match t.xact x, t.xact y with
  | some xact1, some xact2 =>
      if xact1.assocXactId.isNone ∨ xact2.assocXactId.isNone
      then .error .assertion
      else .ok ((t.setAssoc x none).setAssoc y none)
  | _, _ => .error .useAfterFree

/- The associated transaction, if its id is still in use. -/
def Thread.findAssoc (xact : Xact) : Option Nat :=
  xact.assocXactId.filter (fun y => (t.xact y).isSome)

/- Undo the association of a transaction about to go. -/
def releaseAssoc (x : Nat) (xact : Xact) : Except Fault Thread :=
  match t.findAssoc xact with
  | some y => ogsGtpXactDeassociate t x y
  | none => .ok t

/- `ogs_gtp_xact_delete` -/
def ogsGtpXactDelete (x : Nat) : Except Fault Thread :=
  match t.xact x with
  | none => .error .useAfterFree
  | some xact => do
      let t ← releaseAssoc t x xact
      return { t with
        toStore := unlinkXact t.toStore x xact
        poolAvail := t.poolAvail + 1
        timerAvail := t.timerAvail + xact.timers }

/- The loop of `ogs_list_for_each_safe` around a deletion. -/
def deleteAllFrom (t : Thread) (fuel : Nat) (node : Option Nat) : Except Fault Thread :=
  match fuel, node with
  | 0, _ => .ok t
  | _, none => .ok t
  | fuel + 1, some x => do
      let next := (t.lnode x).next
      let t ← ogsGtpXactDelete t x
      deleteAllFrom t fuel next

/- `ogs_gtp_xact_delete_all` -/
def ogsGtpXactDeleteAll (t : Thread) (n : Nat) : Except Fault Thread := do
  let t ← deleteAllFrom t t.poolId ((t.gnode n).list .localOrg).next
  deleteAllFrom t t.poolId ((t.gnode n).list .remoteOrg).next

---- Creation ----

/- Store an allocated timer and set its retry count. -/
def Xact.setTimer (cfg : Config) (xact : Xact) (kind : TimerKind) (timer : Timer) : Xact :=
  match kind with
  | .response =>
      { xact with
        tmResponse := some timer
        responseRcount := cfg.n3ResponseRcount }
  | .holding =>
      { xact with
        tmHolding := some timer
        holdingRcount := cfg.n3HoldingRcount }
  | .peer => { xact with tmPeer := some timer }

/- Allocate timers in order, up to the first failure. -/
def addTimers (cfg : Config) (t : Thread) (xact : Xact)
    (kinds : List TimerKind) : Bool × Xact × Thread :=
  match kinds with
  | [] => (true, xact, t)
  | kind :: rest =>
      match ogsTimerAdd t with
      | (none, t) => (false, xact, t)
      | (some timer, t) => addTimers cfg t (xact.setTimer cfg kind timer) rest

/-
  The part that the three creates share: allocate the timers, delete on a failure, link otherwise.
-/
def setupXact (cfg : Config) (t : Thread) (x : Nat) (xact : Xact) (kinds : List TimerKind) :
    Except Fault (Option Nat × Thread) :=
  match addTimers cfg t xact kinds with
  | (false, xact, t) => do
      let t ← ogsGtpXactDelete (t.setXact x xact) x
      return (none, t)
  | (true, xact, t) => .ok (some x, { t with toStore := linkXact t.toStore x xact })

/- Send the first message of a local create or delete it. -/
def firstTx (tx : Xact → Except Fault (Rv × Xact)) (created : Option Nat × Thread) :
    Except Fault (Option Nat × Thread) :=
  match created with
  | (none, t) => .ok (none, t)
  | (some x, t) =>
      match t.xact x with
      | none => .error .useAfterFree
      | some xact => do
          let (rv, xact) ← tx xact
          let t := t.setXact x xact
          if rv ≠ .ok then
            let t ← ogsGtpXactDelete t x
            return (none, t)
          else return (some x, t)

/- The timers of `ogs_gtp1_xact_local_create`. -/
def gtp1LocalTimers (hdesc : HeaderDesc) : List TimerKind :=
  if hdesc.type ≠ ogsGtp1RanInformationRelayType then [.response, .holding]
  else [.holding]

/- `ogs_gtp1_xact_local_create` -/
def ogsGtp1XactLocalCreate (cfg : Config) (t : Thread) (n : Nat) (hdesc : HeaderDesc)
    (payload : List UInt8) : Except Fault (Option Nat × Thread) :=
  match ogsPoolIdCalloc t with
  | none => .ok (none, t)
  | some (x, t) => do
      let (xid, counter) := xactNextXid cfg.worker t.xactId ogsGtp1MinXactId ogsGtp1MaxXactId
      let t := { t with xactId := counter }
      let created ← setupXact cfg t x (Xact.calloc .gtp1 .localOrg xid n) (gtp1LocalTimers hdesc)
      firstTx (fun xact => ogsGtp1XactUpdateTx xact hdesc payload) created

/- The identifier of a GTPv2 create, commands included. -/
def gtp2LocalXid (hdesc : HeaderDesc) (xid : U32) : U32 :=
  if isGtp2Command hdesc.type then xid ||| ogsGtpCmdXactId
  else xid

/- `ogs_gtp_xact_local_create` -/
def ogsGtpXactLocalCreate (cfg : Config) (t : Thread) (n : Nat) (hdesc : HeaderDesc)
    (payload : List UInt8) : Except Fault (Option Nat × Thread) :=
  match ogsPoolIdCalloc t with
  | none => .ok (none, t)
  | some (x, t) => do
      let (xid, counter) := xactNextXid cfg.worker t.xactId ogsGtpMinXactId ogsGtpCmdXactId
      let t := { t with xactId := counter }
      let created ← setupXact cfg t x
        (Xact.calloc .gtp2 .localOrg (gtp2LocalXid hdesc xid) n) [.response, .holding, .peer]
      firstTx (fun xact => ogsGtpXactUpdateTx xact hdesc payload) created

/- `ogs_gtp_xact_remote_create` for a received identifier. -/
def ogsGtpXactRemoteCreate (cfg : Config) (t : Thread) (n : Nat) (version : Version)
    (xid : U32) : Except Fault (Option Nat × Thread) :=
  match ogsPoolIdCalloc t with
  | none => .ok (none, t)
  | some (x, t) =>
      setupXact cfg t x (Xact.calloc version .remoteOrg xid n) [.response, .holding, .peer]

end Pretty5gs.Gtp
