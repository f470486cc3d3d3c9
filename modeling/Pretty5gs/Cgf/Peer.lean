import Pretty5gs.Cgf.Spool
import Pretty5gs.Core.Types
import Pretty5gs.Library.SlotTable

/-
  The peers of the charging gateway and their transactions.

  A peer has a socket, a sequence space and a table of requests that wait for an answer. Sockets are
  numbered and no number is used twice, and a request keeps the number of the socket that it was
  sent through.
-/

---- Requests And Peers ----

namespace Pretty5gs.Cgf

/- A spool file that is or was open. -/
abbrev FileId := Nat

/- A socket. -/
abbrev Endpoint := Nat

/- `CGF_MAX_PEERS` -/
abbrev maxPeers : Nat := 4

/- A place in `peers[]`. -/
abbrev Slot := Fin maxPeers

/- `CGF_GTPP_PTC_*`, without the one that is never sent. -/
inductive Ptc where
  | sendDataRec
  | sendPossDup
  | releaseDataRec
deriving DecidableEq, Repr

/- What a transaction asks of the peer; `cgf_xact_t`. -/
structure Request where
  seq : U16
  ptc : Ptc
  file : Option FileId
  batchStart : Nat
  recordsInBatch : Nat
  via : Endpoint
  -- only a release carries no records
  release_iff : ptc = .releaseDataRec ↔ file = none
deriving DecidableEq

/- A request and its timer; `active` is being in the table. -/
structure Xact extends Request where
  retries : Nat
  sentAt : Int
deriving DecidableEq

instance lawfulBEqXact : LawfulBEq (Option Xact) := inferInstance

/- `cgf_peer_role_e` -/
inductive Role where
  | primary
  | secondary
deriving DecidableEq, Repr

/- `cgf_peer_state_e` -/
inductive PeerState where
  | down
  | probing
  | up
deriving DecidableEq, Repr

/- `cgf_peer_t`; a host without octets is NULL. -/
structure Peer where
  role : Role
  host : List UInt8
  port : U16
  sock : Option Endpoint
  state : PeerState
  nextSeq : U16
  consecutiveMissedEchoes : Nat
  lastEchoSent : Int
  lastEchoReceived : Int
  lastGtppReceived : Int
  restartCounter : UInt8
  restartCounterValid : Bool
  xacts : List (Option Xact)
deriving DecidableEq

/- A slot of `peers[]` after `memset`. -/
def Peer.zero : Peer where
  role := .primary
  host := []
  port := 0
  sock := none
  state := .down
  nextSeq := 0
  consecutiveMissedEchoes := 0
  lastEchoSent := 0
  lastEchoReceived := 0
  lastGtppReceived := 0
  restartCounter := 0
  restartCounterValid := false
  xacts := List.replicate maxInflight none

/- `cgf_send_mode_e` -/
inductive SendMode where
  | failover
  | roundRobin
deriving DecidableEq, Repr

/- The tunables of `cgf_context_t`. -/
structure Config where
  sendMode : SendMode
  echoIntervalS : Nat
  requestRtoMs : Nat
  requestRetries : Nat
  failoverAfterMissedEchoes : Nat
  maxRecordsPerPacket : Nat
  maxBytesPerPacket : Nat
  maxInflight : Nat
  maxActiveFiles : Nat
deriving DecidableEq, Repr

/- How `cgf_gtpp_open_peer` ends. -/
inductive Dial where
  -- no address or no socket
  | failed
  -- a socket that could not be added to the pollset
  | noPoll
  | ok
deriving DecidableEq, Repr

/- What the system answers during one step. -/
structure Env where
  -- the clock as the step reads it and as it stores it
  now : Int
  stamp : Int
  sendOk : Bool
  dial : Dial
  -- the octets of a file that was claimed
  found : Option (List UInt8)
deriving DecidableEq, Repr

---- Datagrams ----

/- The outputs of `parse_ies`. -/
structure Ies where
  cause : Option UInt8
  recovery : Option UInt8
deriving DecidableEq, Repr

/- The loop of `parse_ies`; every round takes two octets. -/
def parseIesLoop : Nat → List UInt8 → Ies → Ies
| 0, _, ies => ies
| _ + 1, [], ies => ies
| rounds + 1, tag :: rest, ies =>
    if tag < 128 then
      match rest with
      | [] => ies
      | value :: rest =>
          if tag = 1 then parseIesLoop rounds rest { ies with cause := some value }
          else if tag = 14 then parseIesLoop rounds rest { ies with recovery := some value }
          else if tag = 126 then parseIesLoop rounds rest ies
          else ies
    else
      match rest with
      | high :: low :: rest =>
          let il := high.toNat * 256 + low.toNat
          if il > rest.length then ies
          else parseIesLoop rounds (rest.drop il) ies
      | _ => ies

/- `parse_ies` -/
def parseIes (data : List UInt8) : Ies := parseIesLoop data.length data ⟨none, none⟩

/- What a datagram is handed on as. -/
inductive Message where
  | echoResponse (recovery : Option UInt8)
  | dtrrResponse (seq : U16) (cause : UInt8)
  | echoRequest
  | ignored
deriving DecidableEq, Repr

/- `cgf_gtpp_handle_recv` up to its calls. -/
def handleRecv (octets : List UInt8) : Message :=
  match octets with
  | flags :: msgType :: len1 :: len0 :: seq1 :: seq0 :: rest =>
      let version := flags.toNat / 32
      let payloadLen := len1.toNat * 256 + len0.toNat
      let seq := BitVec.ofNat 16 (seq1.toNat * 256 + seq0.toNat)
      let ies := parseIes (rest.take payloadLen)
      if version ≠ 1 ∧ version ≠ 2 then .ignored
      else if payloadLen > rest.length then .ignored
      else if msgType = 2 then .echoResponse ies.recovery
      else if msgType = 241 then .dtrrResponse seq (ies.cause.getD 0)
      else if msgType = 1 then .echoRequest
      else .ignored
  | _ => .ignored

---- Transactions ----

namespace Peer

/- The request is for records of the file. -/
def refersTo (f : FileId) (request : Request) : Bool := request.file == some f

/- The requests of the table, without their timers. -/
def requests (p : Peer) : List (Option Request) := p.xacts.map (Option.map Xact.toRequest)

/- Some request is for records of the file. -/
def holds (f : FileId) (p : Peer) : Bool := p.requests.any (fun slot => slot.any (refersTo f))

/- `peer_may_send` and `worker_peer_may_send` -/
def maySend (p : Peer) : Bool := p.state == .up || p.state == .probing

/- `cgf_gtpp_inflight_count` -/
def gtppInflightCount (p : Peer) : Nat := SlotTable.count (fun _ => true) p.xacts

/- `cgf_gtpp_find_xact` -/
def gtppFindXact (p : Peer) (seq : U16) : Option (Nat × Xact) :=
  SlotTable.find? (fun x => x.seq == seq) p.xacts

/- `cgf_gtpp_free_xact` -/
def gtppFreeXact (k : Nat) (p : Peer) : Peer := { p with xacts := p.xacts.set k none }

/- The loops of the abort functions over the table. -/
def dropXacts (refers : Request → Bool) (p : Peer) : Peer :=
  { p with xacts := SlotTable.clearAll (fun x => refers x.toRequest) p.xacts }

/- `cgf_gtpp_reset_seq` -/
def gtppResetSeq (p : Peer) : Peer := { p with nextSeq := 0 }

/- `cgf_peer_note_rx` -/
def noteRx (stamp : Int) (p : Peer) : Peer :=
  { p with
    lastGtppReceived := stamp
    consecutiveMissedEchoes := 0
    state := .up }

/- The grace period of `cgf_peer_recently_answered`. -/
def grace (cfg : Config) : Int :=
  let echoS := if cfg.echoIntervalS = 0 then 60 else cfg.echoIntervalS
  let rtoMs := if cfg.requestRtoMs = 0 then 3000 else cfg.requestRtoMs
  max (max (1000000 * (echoS : Int)) (1000 * ((rtoMs * 4 % 2 ^ 32 : Nat) : Int))) 30000000

/- `cgf_peer_recently_answered` -/
def recentlyAnswered (cfg : Config) (now : Int) (p : Peer) : Bool := p.lastGtppReceived != 0 &&
    decide (now - p.lastGtppReceived < grace cfg)

/- Echoes that were missed, when the last one was. -/
def missedEchoes (cfg : Config) (now : Int) (p : Peer) : Nat :=
  if p.recentlyAnswered cfg now then 0
  else p.consecutiveMissedEchoes + 1

/- `raw_send` -/
def rawSend (env : Env) (p : Peer) : Except Fault Bool :=
  match p.sock with
  | none => .error .assertion
  | some _ => .ok env.sendOk

/- `cgf_gtpp_send_echo_request` -/
def gtppSendEchoRequest (env : Env) (p : Peer) : Except Fault (Peer × Bool) :=
  let p :=
    { p with
      nextSeq := p.nextSeq + 1
      lastEchoSent := env.stamp }
  (rawSend env p).map (fun sent => (p, sent))

/- The request for a batch that was staged. -/
def dataRequest (file : SpoolFile) (f : FileId) (n : Nat) (via : Endpoint)
    (p : Peer) : Request where
  seq := p.nextSeq
  ptc := if file.sendPossiblyDup then .sendPossDup else .sendDataRec
  file := some f
  batchStart := file.pendingBatchStart
  recordsInBatch := n
  via := via
  release_iff := by split <;> simp

/- `OGS_MAX_SDU_LEN` -/
def maxSduLen : Nat := 32768

/-
  `cgf_gtpp_send_data_record_transfer`. The header, the command and the packet take 15 octets before
  the records.
-/
def gtppSendDataRecordTransfer (env : Env) (file : SpoolFile) (f : FileId) (n recordsLen : Nat)
    (p : Peer) : Except Fault (Peer × Rv) :=
  if none ∉ p.xacts then .ok (p, .retry)
  else if n = 0 ∨ n > 255 then .ok (p, .error)
  else if 15 + recordsLen > maxSduLen then .ok (p, .error)
  else
    match p.sock with
    | none => .error .assertion
    | some via =>
        let next := { p with nextSeq := p.nextSeq + 1 }
        if env.sendOk then
          .ok ({ next with
                xacts :=
                  SlotTable.put { dataRequest file f n via p with
                      retries := 0
                      sentAt := env.stamp } p.xacts }, .ok)
        else .ok (next, .error)

/- The request that releases held records. -/
def releaseRequest (via : Endpoint) (p : Peer) : Request where
  seq := p.nextSeq
  ptc := .releaseDataRec
  file := none
  batchStart := 0
  recordsInBatch := 0
  via := via
  release_iff := by simp

/- `cgf_gtpp_send_release`, whose result is only logged. -/
def gtppSendRelease (env : Env) (p : Peer) : Except Fault Peer :=
  if none ∉ p.xacts then .ok p
  else
    match p.sock with
    | none => .error .assertion
    | some via =>
        let next := { p with nextSeq := p.nextSeq + 1 }
        if env.sendOk then
          .ok { next with
              xacts :=
                SlotTable.put { releaseRequest via p with
                    retries := 0
                    sentAt := env.stamp } p.xacts }
        else .ok next

/- `cgf_gtpp_retransmit_xact_on` -/
def gtppRetransmitXactOn (env : Env) (k : Nat) (x : Xact) (p : Peer) : Except Fault Peer :=
  (rawSend env p).map (fun _ =>
    { p with
      xacts :=
        p.xacts.set k (some { x with
              retries := x.retries + 1
              sentAt := env.stamp }) })

/- `cgf_gtpp_open_peer` -/
def gtppOpenPeer (dial : Dial) (fresh : Endpoint) (p : Peer) : Peer × Bool :=
  match dial with
  | .failed => (p, false)
  | .noPoll => ({ p with sock := some fresh }, false)
  | .ok => ({ p with sock := some fresh }, true)

/- `cgf_gtpp_reopen_peer` -/
def gtppReopenPeer (dial : Dial) (fresh : Endpoint) (p : Peer) : Peer × Bool :=
  let opened := gtppOpenPeer dial fresh { p with sock := none }
  if opened.2 then (gtppResetSeq opened.1, true)
  else (opened.1, false)

end Peer

end Pretty5gs.Cgf
