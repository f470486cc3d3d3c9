import Pretty5gs.Core.Xid
import Pretty5gs.Library.FirstIndex
import Pretty5gs.Library.IntrusiveList
import Pretty5gs.Library.Transition
import Pretty5gs.Pfcp.Xact

/-
  The PFCP transaction layer of one thread.

  The layer is a state machine whose steps are the calls of the application, received messages and
  timer expiries. Ids are never reused and stand for pointers as well.
-/

---- The Store ----

namespace Pretty5gs.Pfcp

open Intrusive

/- The transactions in use and the slots of their nodes. -/
structure Store where
  poolId : Nat
  xact : Nat → Option Xact
  lnode : Nat → Links Nat
  -- `local_list` and `remote_list` of a node
  list : Nat × Originator → Links Nat
  xactHash : Nat → Nat → Option Nat

def Store.setXact (s : Store) (x : Nat) (xact : Xact) : Store :=
  { s with xact := Function.update s.xact x (some xact) }

/- A new id with a zeroed list node. -/
def Store.alloc (s : Store) : Store :=
  { s with
    poolId := s.poolId + 1
    lnode := Function.update s.lnode (s.poolId + 1) Links.null }

/- `xact_index_key` -/
def xactIndexKey (org : Originator) (xid : U32) : Nat :=
  let org :=
    match org with
    | .localOrg => 0
    | .remoteOrg => 1
  (org <<< 40) ||| xid.toNat

/- The key of a transaction. -/
def Xact.key (xact : Xact) : Nat := xactIndexKey xact.org xact.xid

/- The record with its key entered. -/
def Xact.keyed (xact : Xact) : Xact := { xact with hashKey := xact.key }

/- The list that a transaction belongs to. -/
def Xact.home (xact : Xact) : Nat × Originator := (xact.node, xact.org)

variable (s : Store)

/- `xact_index_add` -/
def xactIndexAdd (x : Nat) (xact : Xact) : Store :=
  { s.setXact x xact.keyed with
    xactHash :=
      Function.update s.xactHash xact.node (FirstIndex.insert (s.xactHash xact.node) xact.key x) }

/- `xact_index_del` -/
def xactIndexDel (x : Nat) (xact : Xact) : Store :=
  { s with
    xactHash :=
      Function.update s.xactHash xact.node (FirstIndex.erase (s.xactHash xact.node)
          xact.hashKey x) }

/- `xact_index_get` -/
def xactIndexGet (n : Nat) (org : Originator) (xid : U32) : Option Nat :=
  s.xactHash n (xactIndexKey org xid)

/- `ogs_list_add` on the transaction's list. -/
def xactListAdd (x : Nat) (xact : Xact) : Store :=
  let linked := add s.lnode (s.list xact.home) x
  { s with
    lnode := linked.1
    list := Function.update s.list xact.home linked.2 }

/- `ogs_list_remove` on the transaction's list. -/
def xactListRemove (x : Nat) (xact : Xact) : Store :=
  let unlinked := remove s.lnode (s.list xact.home) x
  { s with
    lnode := unlinked.1
    list := Function.update s.list xact.home unlinked.2 }

/- Append to the list and enter into the index. -/
def linkXact (x : Nat) (xact : Xact) : Store := xactIndexAdd (xactListAdd s x xact) x xact

/- Take out of the index and the list, and free. -/
def unlinkXact (x : Nat) (xact : Xact) : Store :=
  let s := xactListRemove (xactIndexDel s x xact) x xact
  { s with xact := Function.update s.xact x none }

/-
  The nodes that `ogs_list_for_each` visits. Links lead from older to newer ids, so the number of
  ids is enough fuel.
-/
def xactList (n : Nat) (org : Originator) : List Nat := walk s.lnode s.poolId (s.list (n, org)).next

/- The test of the receive path on a transaction. -/
def matchesXid (xid : U32) (x : Nat) : Bool := (s.xact x).any (fun xact => xact.xid = xid)

/- The index first, then the list, by identifier. -/
def findXid (n : Nat) (org : Originator) (xid : U32) : Option Nat :=
  match (xactIndexGet s n org xid).filter (matchesXid s xid) with
  | some x => some x
  | none => (xactList s n org).find? (matchesXid s xid)

---- The Thread ----

/- The thread and the retry counts of the configuration. -/
structure Config where
  worker : Worker
  n1ResponseRcount : U8
  n1HoldingRcount : U8

/- The timers of a transaction. -/
inductive TimerKind where
  | response
  | holding
  | delayedCommit
deriving DecidableEq, Repr

/- The state of the transaction layer on one thread. -/
structure Thread extends Store where
  xactId : U32
  poolAvail : Nat
  timerAvail : Nat
  -- Timers detached by `ogs_timer_mgr_expire`, oldest first.
  expired : List (TimerKind × Nat)
  -- Give-up callbacks that have not returned yet.
  callbacks : List Nat
  -- Packets handed to `ogs_pfcp_sendto`, newest first.
  sent : List (Nat × Pkbuf)

def Thread.setXact (t : Thread) (x : Nat) (xact : Xact) : Thread :=
  { t with toStore := t.toStore.setXact x xact }

/- `ogs_pfcp_sendto` is called with these packets. -/
def Thread.sendto (t : Thread) (n : Nat) (packets : List Pkbuf) : Thread :=
  { t with sent := packets.map (fun p => (n, p)) ++ t.sent }

/- `ogs_pool_id_calloc` -/
def ogsPoolIdCalloc (t : Thread) : Option (Nat × Thread) :=
  if t.poolAvail = 0 then none
  else
    some (t.poolId + 1, { t with
        toStore := t.toStore.alloc
        poolAvail := t.poolAvail - 1 })

/- `ogs_timer_add` -/
def ogsTimerAdd (t : Thread) : Option Timer × Thread :=
  if t.timerAvail = 0 then (none, t)
  else (some { running := false }, { t with timerAvail := t.timerAvail - 1 })

/- The timers that a deletion gives back to the pool. -/
def Xact.timers (xact : Xact) : Nat := xact.tmResponse.toList.length +
    xact.tmHolding.toList.length + xact.tmDelayedCommit.toList.length

/- `ogs_pfcp_xact_delete` -/
def ogsPfcpXactDelete (t : Thread) (x : Nat) : Except Fault Thread :=
  match t.xact x with
  | none => .error .useAfterFree
  | some xact =>
      .ok { t with
        toStore := unlinkXact t.toStore x xact
        poolAvail := t.poolAvail + 1
        timerAvail := t.timerAvail + xact.timers }

/- The loop of `ogs_list_for_each_safe` around a deletion. -/
def deleteAllFrom (t : Thread) (fuel : Nat) (node : Option Nat) : Except Fault Thread :=
  match fuel, node with
  | 0, _ => .ok t
  | _, none => .ok t
  | fuel + 1, some x => do
      let next := (t.lnode x).next
      let t ← ogsPfcpXactDelete t x
      deleteAllFrom t fuel next

/- `ogs_pfcp_xact_delete_all` -/
def ogsPfcpXactDeleteAll (t : Thread) (n : Nat) : Except Fault Thread := do
  let t ← deleteAllFrom t t.poolId (t.list (n, .localOrg)).next
  deleteAllFrom t t.poolId (t.list (n, .remoteOrg)).next

---- Creation ----

/- Store an allocated timer and set its retry count. -/
def Xact.setTimer (cfg : Config) (xact : Xact) (kind : TimerKind) (timer : Timer) : Xact :=
  match kind with
  | .response =>
      { xact with
        tmResponse := some timer
        responseRcount := cfg.n1ResponseRcount }
  | .holding =>
      { xact with
        tmHolding := some timer
        holdingRcount := cfg.n1HoldingRcount }
  | .delayedCommit => { xact with tmDelayedCommit := some timer }

/- Allocate timers in order, up to the first failure. -/
def addTimers (cfg : Config) (t : Thread) (xact : Xact)
    (kinds : List TimerKind) : Bool × Xact × Thread :=
  match kinds with
  | [] => (true, xact, t)
  | kind :: rest =>
      match ogsTimerAdd t with
      | (none, t) => (false, xact, t)
      | (some timer, t) => addTimers cfg t (xact.setTimer cfg kind timer) rest

/- The part that the two creates share: allocate the timers, delete on a failure, link otherwise. -/
def setupXact (cfg : Config) (t : Thread) (x : Nat)
    (xact : Xact) : Except Fault (Option Nat × Thread) :=
  match addTimers cfg t xact [.response, .holding, .delayedCommit] with
  | (false, xact, t) => do
      let t ← ogsPfcpXactDelete (t.setXact x xact) x
      return (none, t)
  | (true, xact, t) => .ok (some x, { t with toStore := linkXact t.toStore x xact })

/- `PFCP_MIN_XACT_ID` -/
abbrev pfcpMinXactId : U32 := 1

/- `PFCP_MAX_XACT_ID` -/
abbrev pfcpMaxXactId : U32 := 0x800000

/- `ogs_pfcp_xact_local_create` -/
def ogsPfcpXactLocalCreate (cfg : Config) (t : Thread)
    (n : Nat) : Except Fault (Option Nat × Thread) :=
  match ogsPoolIdCalloc t with
  | none => .ok (none, t)
  | some (x, t) =>
      let (xid, counter) := xactNextXid cfg.worker t.xactId pfcpMinXactId pfcpMaxXactId
      setupXact cfg { t with xactId := counter } x (Xact.calloc .localOrg xid n)

/- `ogs_pfcp_xact_remote_create` for a received identifier. -/
def ogsPfcpXactRemoteCreate (cfg : Config) (t : Thread) (n : Nat)
    (xid : U32) : Except Fault (Option Nat × Thread) :=
  match ogsPoolIdCalloc t with
  | none => .ok (none, t)
  | some (x, t) => setupXact cfg t x (Xact.calloc .remoteOrg xid n)

---- Receiving ----

/- A receive returns a code and, when it is OK, `*xact`. -/
abbrev Received := Rv × Option Nat × Thread

/-
  The end of `ogs_pfcp_xact_receive`. An error deletes the transaction, whether it was found or
  created.
-/
def receiveRx (t : Thread) (x type : Nat) : Except Fault Received :=
  match t.xact x with
  | none => .error .useAfterFree
  | some xact => do
      let (rv, xact, packets) ← ogsPfcpXactUpdateRx xact type
      let t := (t.setXact x xact).sendto xact.node packets
      match rv with
      | .error =>
          let t ← ogsPfcpXactDelete t x
          return (.error, none, t)
      | .retry => return (.retry, none, t)
      | .ok => return (.ok, some x, t)

/- The list that `ogs_pfcp_xact_receive` selects. -/
def rxOrg (stage : Stage) : Option Originator :=
  match stage with
  | .initial => some .remoteOrg
  | .intermediate => some .localOrg
  | .final => some .localOrg
  | .unknown => none

/- `ogs_pfcp_xact_receive` -/
def ogsPfcpXactReceive (cfg : Config) (t : Thread) (n : Nat) (h : Header) : Except Fault Received :=
  let xid := ogsPfcpSqnToXid h.sqn
  match rxOrg (ogsPfcpXactGetStage h.type xid) with
  | none => .ok (.error, none, t)
  | some org =>
      match findXid t.toStore n org xid with
      | some x => receiveRx t x h.type
      | none => do
          let (created, t) ←
            ogsPfcpXactRemoteCreate cfg t n xid
          match created with
          | none => throw .assertion
          | some x => receiveRx t x h.type

---- Transmitting ----

variable (t : Thread) (x : Nat)

/- `ogs_pfcp_xact_update_tx` on a transaction in use. -/
def updateTx (hdesc : HeaderDesc) (payload : List UInt8) : Except Fault (Rv × Thread) :=
  match t.xact x with
  | none => .error .useAfterFree
  | some xact => do
      let (rv, xact) ← ogsPfcpXactUpdateTx xact hdesc payload
      return (rv, t.setXact x xact)

/- `ogs_pfcp_xact_commit`; a failure to send is ignored. -/
def ogsPfcpXactCommit : Except Fault (Rv × Thread) :=
  match t.xact x with
  | none => .error .useAfterFree
  | some xact => do
      match ← xact.commitAction with
      | .delete rv =>
          let t ← ogsPfcpXactDelete t x
          return (rv, t)
      | .send xact pkbuf => return (.ok, (t.setXact x xact).sendto xact.node [pkbuf])

/- `ogs_pfcp_xact_delayed_commit` -/
def ogsPfcpXactDelayedCommit : Except Fault Thread :=
  match t.xact x with
  | none => .error .useAfterFree
  | some xact =>
      if xact.tmDelayedCommit = none then .error .assertion
      else .ok (t.setXact x { xact with tmDelayedCommit := ogsTimerStart xact.tmDelayedCommit })

---- Timers ----

/- `ogs_pfcp_xact_find_by_id_for_timer` -/
def ogsPfcpXactFindByIdForTimer : Option Xact := (t.xact x).filter
    (fun xact => x ∈ xactList t.toStore xact.node xact.org)

/-
  `response_timeout`. The deletion that follows the give-up callback is the step
  `Op.callbackReturn`.
-/
def responseTimeout (lag : Option Int) : Except Fault Thread :=
  match ogsPfcpXactFindByIdForTimer t x with
  | none => .ok t
  | some xact => do
      let last ← xact.seqAt (xact.step - 1)
      match xactResponseLagDefer xact lag with
      | some xact => return t.setXact x xact
      | none =>
          let xact := { xact with responseRcount := xact.responseRcount - 1 }
          if 0 < xact.responseRcount then
            let xact := { xact with tmResponse := ogsTimerStart xact.tmResponse }
            match last.pkbuf with
            | none => throw .assertion
            | some pkbuf => return (t.setXact x xact).sendto xact.node [pkbuf]
          else
            return { t.setXact x xact with
              callbacks := x :: t.callbacks }

/- `holding_timeout` -/
def holdingTimeout : Except Fault Thread :=
  match ogsPfcpXactFindByIdForTimer t x with
  | none => .ok t
  | some xact => do
      let _ ← xact.seqAt (xact.step - 1)
      let xact := { xact with holdingRcount := xact.holdingRcount - 1 }
      if 0 < xact.holdingRcount then
        return t.setXact x { xact with tmHolding := ogsTimerStart xact.tmHolding }
      else ogsPfcpXactDelete (t.setXact x xact) x

/- `delayed_commit_timeout` -/
def delayedCommitTimeout : Except Fault Thread :=
  match ogsPfcpXactFindByIdForTimer t x with
  | none => .ok t
  | some xact => do
      let _ ← xact.seqAt (xact.step - 1)
      (ogsPfcpXactCommit t x).map (fun r => r.2)

def Xact.timer (xact : Xact) (kind : TimerKind) : Option Timer :=
  match kind with
  | .response => xact.tmResponse
  | .holding => xact.tmHolding
  | .delayedCommit => xact.tmDelayedCommit

def Xact.stopTimer (xact : Xact) (kind : TimerKind) : Xact :=
  match kind with
  | .response => { xact with tmResponse := ogsTimerStop xact.tmResponse }
  | .holding => { xact with tmHolding := ogsTimerStop xact.tmHolding }
  | .delayedCommit => { xact with tmDelayedCommit := ogsTimerStop xact.tmDelayedCommit }

/- The first loops of `ogs_timer_mgr_expire` detach a running timer; its callback is then due. -/
def expireTimer (t : Thread) (kind : TimerKind) (x : Nat) : Thread :=
  match t.xact x with
  | none => t
  | some xact =>
      if isRunning (xact.timer kind) then
        { t.setXact x (xact.stopTimer kind) with
          expired := t.expired ++ [(kind, x)] }
      else t

/- The last loop of `ogs_timer_mgr_expire` makes a call. -/
def fireTimer (t : Thread) (lag : Option Int) : Except Fault Thread :=
  match t.expired with
  | [] => .ok t
  | (kind, x) :: rest =>
      let t := { t with expired := rest }
      match kind with
      | .response => responseTimeout t x lag
      | .holding => holdingTimeout t x
      | .delayedCommit => delayedCommitTimeout t x

/- The end of `response_timeout` after the callback. -/
def callbackReturn (t : Thread) : Except Fault Thread :=
  match t.callbacks with
  | [] => .ok t
  | x :: rest => ogsPfcpXactDelete { t with callbacks := rest } x

---- The Transition System ----

/- The calls into the layer and the environment's steps. -/
inductive Op where
  | localCreate (n : Nat)
  | updateTx (x : Nat) (hdesc : HeaderDesc) (payload : List UInt8)
  | receive (n : Nat) (h : Header)
  | commit (x : Nat)
  | delayedCommit (x : Nat)
  | delete (x : Nat)
  | deleteAll (n : Nat)
  | expire (kind : TimerKind) (x : Nat)
  | fire (lag : Option Int)
  | callbackReturn
  -- Other modules take and return timers.
  | timers (avail : Nat)

/- Timer callbacks are due or have not returned. -/
def Thread.busy (t : Thread) : Bool := ¬ (t.expired = [] ∧ t.callbacks = [])

/-
  One step. The thread reads messages from its event queue only between runs of the timer manager.
-/
def exec (cfg : Config) (t : Thread) (op : Op) : Except Fault Thread :=
  match op with
  | .localCreate n => (ogsPfcpXactLocalCreate cfg t n).map (fun r => r.2)
  | .updateTx x hdesc payload => (updateTx t x hdesc payload).map (fun r => r.2)
  | .receive n h =>
      if t.busy then .ok t
      else (ogsPfcpXactReceive cfg t n h).map (fun r => r.2.2)
  | .commit x => (ogsPfcpXactCommit t x).map (fun r => r.2)
  | .delayedCommit x => ogsPfcpXactDelayedCommit t x
  | .delete x => ogsPfcpXactDelete t x
  | .deleteAll n => ogsPfcpXactDeleteAll t n
  | .expire kind x =>
      if t.callbacks = [] then .ok (expireTimer t kind x)
      else .ok t
  | .fire lag => if t.callbacks = [] then fireTimer t lag else .ok t
  | .callbackReturn => callbackReturn t
  | .timers avail => .ok { t with timerAvail := avail }

/-
  `ogs_pfcp_xact_init` on a thread without transactions. The counter starts at a random point of the
  range.
-/
def initial (counter : U32) (poolAvail timerAvail : Nat) : Thread where
  xactId := counter
  poolId := 0
  poolAvail := poolAvail
  timerAvail := timerAvail
  xact := fun _ => none
  lnode := fun _ => Links.null
  list := fun _ => Links.null
  xactHash := fun _ _ => none
  expired := []
  callbacks := []
  sent := []

def layer (cfg : Config) : Faulty.System Thread Op Fault where
  Init := fun t =>
    ∃ counter poolAvail timerAvail, pfcpMinXactId ≤ counter ∧ counter < pfcpMaxXactId ∧
        t = initial counter poolAvail timerAvail
  exec := exec cfg

/-
  The main thread of a daemon without protocol shards, with `PFCP_N1_RESPONSE_RETRY_COUNT` and
  `PFCP_N1_HOLDING_RETRY_COUNT`.
-/
def mainThread : Config where
  worker := { shardsActive := false, selfId := 0 }
  n1ResponseRcount := 3
  n1HoldingRcount := 1

theorem reachable_initial (hMin : pfcpMinXactId ≤ counter) (hMax : counter < pfcpMaxXactId) :
    (layer cfg).Reachable (initial counter poolAvail timerAvail) :=
  .init ⟨counter, poolAvail, timerAvail, hMin, hMax, rfl⟩

end Pretty5gs.Pfcp
